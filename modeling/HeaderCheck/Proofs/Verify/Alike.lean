import HeaderCheck.Proofs.Script.Unplaced
import HeaderCheck.Proofs.Verify.Like

/-!
# HeaderCheck.Proofs.Verify.Alike

Programs that differ in positions only.

* `keysOf`: the keys under which scopes for the functions directly in a body are known. The key of a
  function expression has its position in it.
* `Program.Alike`: the same programs without positions, where functions of one body have one key
  in both or in neither.
* `Program.Alike.like`: such programs are like one another, each key belonging to the one at its place.
-/

namespace HeaderCheck.Script

open HeaderCheck.Verify (expressionKey)

/-! ## Keys -/

/-- The key under which a scope for the function is known. -/
def keyOf : FunctionKind × Function → String
  | (.declared, f) => f.name
  | (.expression, f) => expressionKey f

/-- The keys of the functions directly in a body. -/
def keysOf (body : List Stmt) : List String :=
  (directOf body).map keyOf

/-- Two keys of the one list are equal where those at their places in the other list are. -/
def SharedAlike (keys keys' : List String) : Prop :=
  ∀ x ∈ keys.zip keys', ∀ y ∈ keys.zip keys', x.1 = y.1 ↔ x.2 = y.2

instance (keys keys' : List String) : Decidable (SharedAlike keys keys') :=
  inferInstanceAs (Decidable (∀ x ∈ keys.zip keys', ∀ y ∈ keys.zip keys', x.1 = y.1 ↔ x.2 = y.2))

/-- The keys at the same places. -/
def Pairing.ofKeys {keys keys' : List String} (h : SharedAlike keys keys') : Pairing False where
  Pairs := fun key key' => (key, key') ∈ keys.zip keys'
  unique := fun hkey hother => h _ hkey _ hother
  equal := False.elim

/-- The program at other positions. Functions of one body have one key in both programs or in
neither. -/
structure Program.Alike (program program' : Program) : Prop where
  unplaced : program'.unplaced = program.unplaced
  keys : ∀ bodies ∈ program.bodies.zip program'.bodies, SharedAlike (keysOf bodies.1) (keysOf bodies.2)

/-! ## Nodes -/

/-- What is said of each part is said in the lists that are made of all parts. -/
theorem zip_subset_zip_flatMap {α β γ δ : Type} {f : α → List γ} {g : β → List δ} {as : List α}
    {bs : List β} (hlength : ∀ x ∈ as.zip bs, (f x.1).length = (g x.2).length) {x : α × β}
    (hx : x ∈ as.zip bs) : (f x.1).zip (g x.2) ⊆ (as.flatMap f).zip (bs.flatMap g) := by
  induction as generalizing bs with
  | nil => cases hx
  | cons a as ih =>
    cases bs with
    | nil => cases hx
    | cons b bs =>
      rw [List.flatMap_cons, List.flatMap_cons,
        List.zip_append (hlength (a, b) (List.mem_cons_self))]
      rcases List.mem_cons.mp hx with rfl | hx
      · exact List.subset_append_left _ _
      · have hrest := ih (fun y hy => hlength y (List.mem_cons_of_mem _ hy)) hx
        exact List.Subset.trans hrest (List.subset_append_right _ _)

theorem length_flatMap_eq {α β γ δ : Type} {f : α → List γ} {g : β → List δ} {as : List α}
    {bs : List β} (hlength : as.length = bs.length)
    (h : ∀ x ∈ as.zip bs, (f x.1).length = (g x.2).length) :
    (as.flatMap f).length = (bs.flatMap g).length := by
  induction as generalizing bs with
  | nil =>
    cases bs with
    | nil => rfl
    | cons _ _ => cases hlength
  | cons a as ih =>
    cases bs with
    | nil => cases hlength
    | cons b bs =>
      have hfirst := h (a, b) List.mem_cons_self
      have hrest := ih (Nat.succ.inj hlength) fun x hx => h x (List.mem_cons_of_mem _ hx)
      simp only [List.flatMap_cons, List.length_append, hfirst, hrest]

theorem zip_map_eq {α β : Type} {f : α → β} {as bs : List α} (h : bs.map f = as.map f) {x : α × α}
    (hx : x ∈ as.zip bs) : f x.2 = f x.1 := by
  induction as generalizing bs with
  | nil => cases hx
  | cons a as ih =>
    cases bs with
    | nil => cases hx
    | cons b bs =>
      obtain ⟨hhead, htail⟩ := List.cons.inj h
      rcases List.mem_cons.mp hx with rfl | hx
      · exact hhead
      · exact ih htail hx

namespace Node

/-- Two nodes that differ in positions only. The keys of the functions directly in them belong
together, and the functions of each body in them have keys that are shared alike. -/
structure Alike (π : Pairing False) (n n' : Node) : Prop where
  unplaced : n'.unplaced = n.unplaced
  direct : ∀ f ∈ n.direct.zip n'.direct, π.Pairs (keyOf f.1) (keyOf f.2)
  functions : ∀ f ∈ n.functions.zip n'.functions,
    SharedAlike (keysOf f.1.2.body) (keysOf f.2.2.body)

/-- Like expressions, or like statements. -/
def Like (π : Pairing False) : Node → Node → Prop
  | .expr e, .expr e' => Expr.Like π e e'
  | .stmt s, .stmt s' => Stmt.Like π s s'
  | _, _ => False

variable {π : Pairing False} {n n' : Node}

theorem length_direct_eq (h : n'.unplaced = n.unplaced) : n.direct.length = n'.direct.length := by
  have hdirect := congrArg (fun n => n.direct.length) h
  simpa only [direct_unplaced, List.length_map] using hdirect.symm

theorem length_functions_eq (h : n'.unplaced = n.unplaced) :
    n.functions.length = n'.functions.length := by
  have hfunctions := congrArg (fun n => n.functions.length) h
  simpa only [functions_unplaced, List.length_map] using hfunctions.symm

theorem function?_eq (h : n'.unplaced = n.unplaced) :
    n'.function?.map unplacedFunction = n.function?.map unplacedFunction := by
  rw [← function?_unplaced, ← function?_unplaced, h]

theorem length_function?_eq (h : n'.unplaced = n.unplaced) :
    n.function?.toList.length = n'.function?.toList.length := by
  have hfunction := function?_eq h
  generalize n.function? = f at hfunction
  generalize n'.function? = f' at hfunction
  cases f <;> cases f' <;> first | rfl | cases hfunction

theorem functions_of_function? {f : FunctionKind × Function} (h : n.function? = some f) :
    n.functions = f :: functionsOf f.2.body := by
  rw [functions_eq, direct_eq, h, parts_of_function? h]
  simp

theorem length_parts_eq (h : n'.unplaced = n.unplaced) : n.parts.length = n'.parts.length := by
  have hparts := congrArg (fun n => n.parts.length) h
  simpa only [parts_unplaced, List.length_map] using hparts.symm

theorem unplaced_part (h : n'.unplaced = n.unplaced) {parts : Node × Node}
    (hparts : parts ∈ n.parts.zip n'.parts) : parts.2.unplaced = parts.1.unplaced :=
  zip_map_eq (by rw [← parts_unplaced, ← parts_unplaced, h]) hparts

/-- Statements in bodies that differ in positions only, with the pairing of their keys. -/
theorem alike_of_body {body body' : List Stmt} (h : body'.map Stmt.unplaced = body.map Stmt.unplaced)
    (hkeys : SharedAlike (keysOf body) (keysOf body'))
    (hfunctions : ∀ f ∈ (functionsOf body).zip (functionsOf body'),
      SharedAlike (keysOf f.1.2.body) (keysOf f.2.2.body))
    {stmts : Stmt × Stmt} (hstmts : stmts ∈ body.zip body') :
    Alike (.ofKeys hkeys) (.stmt stmts.1) (.stmt stmts.2) := by
  have hunplaced : ∀ x ∈ body.zip body', (Node.stmt x.2).unplaced = (Node.stmt x.1).unplaced :=
    fun x hx => congrArg Node.stmt (zip_map_eq h hx)
  refine ⟨hunplaced _ hstmts, fun f hf => ?_, fun f hf => hfunctions f ?_⟩
  · have hmem : f ∈ (directOf body).zip (directOf body') := by
      rw [directOf_eq, directOf_eq]
      exact zip_subset_zip_flatMap (f := fun s => (stmt s).direct) (g := fun s => (stmt s).direct)
        (fun x hx => length_direct_eq (hunplaced x hx)) hstmts hf
    change (keyOf f.1, keyOf f.2) ∈ (keysOf body).zip (keysOf body')
    rw [keysOf, keysOf, List.zip_map]
    exact List.mem_map_of_mem hmem
  · rw [functionsOf_eq_flatMap, functionsOf_eq_flatMap]
    exact zip_subset_zip_flatMap (f := fun s => (stmt s).functions) (g := fun s => (stmt s).functions)
      (fun x hx => length_functions_eq (hunplaced x hx)) hstmts hf

namespace Alike

variable (h : Alike π n n')

include h

theorem part {parts : Node × Node} (hparts : parts ∈ n.parts.zip n'.parts) :
    Alike π parts.1 parts.2 := by
  have hself := length_function?_eq h.unplaced
  refine ⟨unplaced_part h.unplaced hparts, fun f hf => h.direct f ?_, fun f hf => h.functions f ?_⟩
  · rw [direct_eq, direct_eq n', List.zip_append hself]
    refine List.mem_append_right _ (zip_subset_zip_flatMap (fun x hx => ?_) hparts hf)
    exact length_direct_eq (unplaced_part h.unplaced hx)
  · have hlength : ∀ x ∈ n.parts.zip n'.parts, x.1.functions.length = x.2.functions.length :=
      fun x hx => length_functions_eq (unplaced_part h.unplaced hx)
    rw [functions_def, functions_def n', List.append_assoc, List.append_assoc,
      List.zip_append hself, List.zip_append (length_flatMap_eq (length_parts_eq h.unplaced) hlength)]
    refine List.mem_append_right _ (List.mem_append_left _ ?_)
    exact zip_subset_zip_flatMap hlength hparts hf

/-- What is in the bodies of two functions has a pairing of its own. -/
theorem body {f f' : FunctionKind × Function} (hf : n.function? = some f)
    (hf' : n'.function? = some f') :
    ∃ within : Pairing False, ∀ stmts ∈ f.2.body.zip f'.2.body,
      Alike within (.stmt stmts.1) (.stmt stmts.2) := by
  have hbody := (body_unplaced n').symm.trans ((congrArg Node.body h.unplaced).trans (body_unplaced n))
  have hshared := h.functions
  rw [functions_of_function? hf, functions_of_function? hf', List.zip_cons_cons] at hshared
  rw [body_of_function? hf, body_of_function? hf'] at hbody
  exact ⟨_, fun stmts hstmts => alike_of_body hbody (hshared _ List.mem_cons_self)
    (fun g hg => hshared g (List.mem_cons_of_mem _ hg)) hstmts⟩

end Alike

/-! ## Alike nodes are like one another -/

theorem exprsLike_of_parts {es es' : List Expr} (h : exprsUnplaced es' = exprsUnplaced es)
    (hparts : ∀ x ∈ (es.map expr).zip (es'.map expr), Like π x.1 x.2) : ExprsLike π es es' := by
  induction es generalizing es' with
  | nil =>
    cases es' with
    | nil => exact .nil
    | cons _ _ => cases h
  | cons e rest ih =>
    cases es' with
    | nil => cases h
    | cons e' rest' =>
      exact .cons (hparts (expr e, expr e') List.mem_cons_self)
        (ih (List.cons.inj h).2 fun x hx => hparts x (List.mem_cons_of_mem _ hx))

theorem exprLike?_of_parts {e e' : Option Expr} (h : exprUnplaced? e' = exprUnplaced? e)
    (hparts : ∀ x ∈ (e.toList.map expr).zip (e'.toList.map expr), Like π x.1 x.2) :
    ExprLike? π e e' := by
  cases e with
  | none =>
    cases e' with
    | none => exact .none
    | some _ => cases h
  | some e =>
    cases e' with
    | none => cases h
    | some e' => exact .some (hparts (expr e, expr e') List.mem_cons_self)

theorem name_eq_of_unplaced {id id' : Identifier} (h : id'.unplaced = id.unplaced) :
    id'.name = id.name := by
  have hname : id'.unplaced.name = id.unplaced.name := by rw [h]
  exact hname

theorem keyName?_unplaced (property : Property) :
    property.unplaced.keyName? = property.keyName? := by
  obtain ⟨key, value, kind, span⟩ := property
  cases key <;> rfl

theorem propertiesLike_of_parts {properties properties' : List Property}
    (h : propertiesUnplaced properties' = propertiesUnplaced properties)
    (hparts : ∀ x ∈ (properties.map fun property => expr property.value).zip
      (properties'.map fun property => expr property.value), Like π x.1 x.2) :
    PropertiesLike π properties properties' := by
  induction properties generalizing properties' with
  | nil =>
    cases properties' with
    | nil => exact .nil
    | cons _ _ => cases h
  | cons property rest ih =>
    cases properties' with
    | nil => cases h
    | cons property' rest' =>
      obtain ⟨hfirst, hrest⟩ := List.cons.inj h
      have hkey : property'.keyName? = property.keyName? := by
        rw [← keyName?_unplaced property', hfirst, keyName?_unplaced]
      have hkind : property'.kind = property.kind := by
        obtain ⟨_, _, _, _⟩ := property
        obtain ⟨_, _, _, _⟩ := property'
        injection hfirst
      exact .cons hkey hkind (hparts (expr property.value, expr property'.value) List.mem_cons_self)
        (ih hrest fun x hx => hparts x (List.mem_cons_of_mem _ hx))

theorem declaratorsLike_of_parts {declarators declarators' : List Declarator}
    (h : declaratorsUnplaced declarators' = declaratorsUnplaced declarators)
    (hparts : ∀ x ∈ (initials declarators).zip (initials declarators'), Like π x.1 x.2) :
    DeclaratorsLike π declarators declarators' := by
  induction declarators generalizing declarators' with
  | nil =>
    cases declarators' with
    | nil => exact .nil
    | cons _ _ => cases h
  | cons declarator rest ih =>
    cases declarators' with
    | nil => cases h
    | cons declarator' rest' =>
      obtain ⟨id, init, span⟩ := declarator
      obtain ⟨id', init', span'⟩ := declarator'
      obtain ⟨hfirst, hrest⟩ := List.cons.inj h
      injection hfirst with hid hinit _
      have hlength : (init.toList.map expr).length = (init'.toList.map expr).length := by
        cases init <;> cases init' <;> first | rfl | cases hinit
      simp only [initials, List.flatMap_cons, List.zip_append hlength, List.mem_append] at hparts
      exact .cons (name_eq_of_unplaced hid)
        (exprLike?_of_parts hinit fun x hx => hparts x (.inl hx))
        (ih hrest fun x hx => hparts x (.inr hx))

theorem forInitLike?_of_parts {init init' : Option ForInit}
    (h : forInitUnplaced? init' = forInitUnplaced? init)
    (hparts : ∀ x ∈ (initParts init).zip (initParts init'), Like π x.1 x.2) :
    ForInitLike? π init init' := by
  cases init with
  | none =>
    cases init' with
    | none => exact .none
    | some _ => cases h
  | some init =>
    cases init' with
    | none => cases h
    | some init' =>
      injection h with h
      cases init with
      | declaration d =>
        cases init' with
        | declaration d' =>
          obtain ⟨declarators, kind, span⟩ := d
          obtain ⟨declarators', kind', span'⟩ := d'
          injection h with h
          injection h with h _ _
          exact .declaration (declaratorsLike_of_parts h hparts)
        | expression _ => cases h
      | expression e =>
        cases init' with
        | declaration _ => cases h
        | expression e' => exact .expression (hparts (expr e, expr e') List.mem_cons_self)

theorem stmtsLike_of_parts {stmts stmts' : List Stmt} (h : stmtsUnplaced stmts' = stmtsUnplaced stmts)
    (hparts : ∀ x ∈ (stmts.map stmt).zip (stmts'.map stmt), Like π x.1 x.2) :
    StmtsLike π stmts stmts' := by
  induction stmts generalizing stmts' with
  | nil =>
    cases stmts' with
    | nil => exact .nil
    | cons _ _ => cases h
  | cons s rest ih =>
    cases stmts' with
    | nil => cases h
    | cons s' rest' =>
      exact .cons (hparts (stmt s, stmt s') List.mem_cons_self)
        (ih (List.cons.inj h).2 fun x hx => hparts x (List.mem_cons_of_mem _ hx))

theorem stmtLike?_of_parts {s s' : Option Stmt} (h : stmtUnplaced? s' = stmtUnplaced? s)
    (hparts : ∀ x ∈ (s.toList.map stmt).zip (s'.toList.map stmt), Like π x.1 x.2) :
    StmtLike? π s s' := by
  cases s with
  | none =>
    cases s' with
    | none => exact .none
    | some _ => cases h
  | some s =>
    cases s' with
    | none => cases h
    | some s' => exact .some (hparts (stmt s, stmt s') List.mem_cons_self)

theorem functionLike_of_body {f f' : Function} (h : f'.unplaced = f.unplaced)
    (hbody : ∀ x ∈ (f.body.map stmt).zip (f'.body.map stmt), Like π x.1 x.2) :
    Function.Like π f f' := by
  obtain ⟨id, params, body, bodySpan, span⟩ := f
  obtain ⟨id', params', body', bodySpan', span'⟩ := f'
  injection h with hid hparams hstmts _ _
  refine .mk ?_ ?_ nofun (stmtsLike_of_parts hstmts hbody)
  · cases id with
    | none =>
      cases id' with
      | none => rfl
      | some _ => cases hid
    | some id =>
      cases id' with
      | none => cases hid
      | some id' =>
        injection hid with hid
        exact name_eq_of_unplaced hid
  · have hnames := congrArg (List.map Identifier.name) hparams
    rwa [List.map_map, List.map_map] at hnames

/-- Two functions at the same place, with what is in their bodies. -/
def FunctionsLike (n n' : Node) : Prop :=
  ∀ f f', n.function? = some f → n'.function? = some f' →
    ∃ within : Pairing False, Function.Like within f.2 f'.2

theorem exprLike_of_parts {e e' : Expr} (h : Alike π (.expr e) (.expr e'))
    (hparts : ∀ x ∈ (exprParts e).zip (exprParts e'), Like π x.1 x.2)
    (hfunction : FunctionsLike (.expr e) (.expr e')) : Expr.Like π e e' := by
  have hunplaced : e'.unplaced = e.unplaced := by
    injection h.unplaced
  cases e with
  | identifier id =>
    cases e' with
    | identifier id' =>
      injection hunplaced with hid
      exact .identifier (name_eq_of_unplaced hid) nofun
    | _ => cases hunplaced
  | literal lit =>
    cases e' with
    | literal lit' =>
      injection hunplaced with hlit
      have hvalue : lit'.unplaced.value = lit.unplaced.value := by rw [hlit]
      have hregex : lit'.unplaced.regex = lit.unplaced.regex := by rw [hlit]
      exact .literal hvalue hregex nofun
    | _ => cases hunplaced
  | this _ =>
    cases e' with
    | this _ => exact .this nofun
    | _ => cases hunplaced
  | array elements _ =>
    cases e' with
    | array elements' _ =>
      injection hunplaced with helements _
      exact .array (exprsLike_of_parts helements hparts) nofun
    | _ => cases hunplaced
  | object properties _ =>
    cases e' with
    | object properties' _ =>
      injection hunplaced with hproperties _
      exact .object (propertiesLike_of_parts hproperties hparts) nofun
    | _ => cases hunplaced
  | function f =>
    cases e' with
    | function f' =>
      obtain ⟨within, hlike⟩ := hfunction _ _ rfl rfl
      refine .function hlike (h.direct ((.expression, f), (.expression, f')) ?_)
      simp [direct_eq, function?, parts, exprParts]
    | _ => cases hunplaced
  | assignment op left right _ =>
    cases e' with
    | assignment op' left' right' _ =>
      injection hunplaced with hop _ _ _
      subst hop
      exact .assignment (hparts (expr left, expr left') (by simp [exprParts]))
        (hparts (expr right, expr right') (by simp [exprParts])) nofun
    | _ => cases hunplaced
  | member object property computed _ =>
    cases e' with
    | member object' property' computed' _ =>
      injection hunplaced with _ _ hcomputed _
      subst hcomputed
      exact .member (hparts (expr object, expr object') (by simp [exprParts]))
        (hparts (expr property, expr property') (by simp [exprParts])) nofun
    | _ => cases hunplaced
  | call callee arguments _ =>
    cases e' with
    | call callee' arguments' _ =>
      injection hunplaced with _ harguments _
      exact .call (hparts (expr callee, expr callee') List.mem_cons_self)
        (exprsLike_of_parts harguments fun x hx => hparts x (List.mem_cons_of_mem _ hx)) nofun
    | _ => cases hunplaced
  | new callee arguments _ =>
    cases e' with
    | new callee' arguments' _ =>
      injection hunplaced with _ harguments _
      exact .new (hparts (expr callee, expr callee') List.mem_cons_self)
        (exprsLike_of_parts harguments fun x hx => hparts x (List.mem_cons_of_mem _ hx)) nofun
    | _ => cases hunplaced
  | binary op left right _ =>
    cases e' with
    | binary op' left' right' _ =>
      injection hunplaced with hop _ _ _
      subst hop
      exact .binary (hparts (expr left, expr left') (by simp [exprParts]))
        (hparts (expr right, expr right') (by simp [exprParts])) nofun
    | _ => cases hunplaced
  | logical op left right _ =>
    cases e' with
    | logical op' left' right' _ =>
      injection hunplaced with hop _ _ _
      subst hop
      exact .logical (hparts (expr left, expr left') (by simp [exprParts]))
        (hparts (expr right, expr right') (by simp [exprParts])) nofun
    | _ => cases hunplaced
  | unary op argument isPrefix _ =>
    cases e' with
    | unary op' argument' isPrefix' _ =>
      injection hunplaced with hop _ hprefix _
      subst hop hprefix
      exact .unary (hparts (expr argument, expr argument') List.mem_cons_self) nofun
    | _ => cases hunplaced
  | update op argument isPrefix _ =>
    cases e' with
    | update op' argument' isPrefix' _ =>
      injection hunplaced with hop _ hprefix _
      subst hop hprefix
      exact .update (hparts (expr argument, expr argument') List.mem_cons_self) nofun
    | _ => cases hunplaced
  | conditional test consequent alternate _ =>
    cases e' with
    | conditional test' consequent' alternate' _ =>
      exact .conditional (hparts (expr test, expr test') (by simp [exprParts]))
        (hparts (expr consequent, expr consequent') (by simp [exprParts]))
        (hparts (expr alternate, expr alternate') (by simp [exprParts])) nofun
    | _ => cases hunplaced

theorem stmtLike_of_parts {s s' : Stmt} (h : Alike π (.stmt s) (.stmt s'))
    (hparts : ∀ x ∈ (stmtParts s).zip (stmtParts s'), Like π x.1 x.2)
    (hfunction : FunctionsLike (.stmt s) (.stmt s')) : Stmt.Like π s s' := by
  have hunplaced : s'.unplaced = s.unplaced := by
    injection h.unplaced
  cases s with
  | declaration d =>
    cases s' with
    | declaration d' =>
      obtain ⟨declarators, kind, span⟩ := d
      obtain ⟨declarators', kind', span'⟩ := d'
      injection hunplaced with hdeclaration
      injection hdeclaration with hdeclarators _ _
      exact .declaration (declaratorsLike_of_parts hdeclarators hparts)
    | _ => cases hunplaced
  | function f =>
    cases s' with
    | function f' =>
      obtain ⟨within, hlike⟩ := hfunction _ _ rfl rfl
      refine .function hlike (h.direct ((.declared, f), (.declared, f')) ?_)
      simp [direct_eq, function?, parts, stmtParts]
    | _ => cases hunplaced
  | expression e _ =>
    cases s' with
    | expression e' _ => exact .expression (hparts (expr e, expr e') List.mem_cons_self)
    | _ => cases hunplaced
  | block body _ =>
    cases s' with
    | block body' _ =>
      injection hunplaced with hbody _
      exact .block (stmtsLike_of_parts hbody hparts)
    | _ => cases hunplaced
  | branch test consequent alternate _ =>
    cases s' with
    | branch test' consequent' alternate' _ =>
      injection hunplaced with _ _ halternate _
      exact .branch (hparts (expr test, expr test') (by simp [stmtParts]))
        (hparts (stmt consequent, stmt consequent') (by simp [stmtParts]))
        (stmtLike?_of_parts halternate fun x hx =>
          hparts x (List.mem_cons_of_mem _ (List.mem_cons_of_mem _ hx)))
    | _ => cases hunplaced
  | whileLoop test body _ =>
    cases s' with
    | whileLoop test' body' _ =>
      exact .whileLoop (hparts (expr test, expr test') (by simp [stmtParts]))
        (hparts (stmt body, stmt body') (by simp [stmtParts]))
    | _ => cases hunplaced
  | forLoop init test update body _ =>
    cases s' with
    | forLoop init' test' update' body' _ =>
      injection hunplaced with hinit htest hupdate _ _
      have hlength : (initParts init).length = (initParts init').length := by
        have hparts := congrArg (fun init => (initParts init).length) hinit
        simpa only [initParts_unplaced, List.length_map] using hparts.symm
      have hlength' : (test.toList.map expr).length = (test'.toList.map expr).length := by
        cases test <;> cases test' <;> first | rfl | cases htest
      rw [stmtParts, stmtParts, List.append_assoc, List.append_assoc, List.zip_cons_cons,
        List.zip_append hlength, List.zip_append hlength'] at hparts
      simp only [List.mem_cons, List.mem_append] at hparts
      exact .forLoop (forInitLike?_of_parts hinit fun x hx => hparts x (.inr (.inl hx)))
        (exprLike?_of_parts htest fun x hx => hparts x (.inr (.inr (.inl hx))))
        (exprLike?_of_parts hupdate fun x hx => hparts x (.inr (.inr (.inr hx))))
        (hparts (stmt body, stmt body') (.inl rfl))
    | _ => cases hunplaced
  | returns argument _ =>
    cases s' with
    | returns argument' _ =>
      injection hunplaced with hargument _
      exact .returns (exprLike?_of_parts hargument hparts) (by rintro ⟨⟩)
    | _ => cases hunplaced
  | throws e _ =>
    cases s' with
    | throws e' _ => exact .throws (hparts (expr e, expr e') List.mem_cons_self)
    | _ => cases hunplaced
  | empty _ =>
    cases s' with
    | empty _ => exact .empty
    | _ => cases hunplaced

theorem Alike.like (h : Alike π n n') : Like π n n' := by
  induction n using induction_below generalizing π n' with
  | step n ih ihBody =>
    have hparts : ∀ x ∈ n.parts.zip n'.parts, Like π x.1 x.2 :=
      fun x hx => ih x.1 (List.of_mem_zip hx).1 (h.part hx)
    have hfunction : FunctionsLike n n' := by
      intro f f' hf hf'
      obtain ⟨within, hbody⟩ := h.body hf hf'
      refine ⟨within, functionLike_of_body ?_ fun x hx => ?_⟩
      · have heq := function?_eq h.unplaced
        rw [hf, hf'] at heq
        injection heq with heq
        exact congrArg Prod.snd heq
      · rw [List.zip_map] at hx
        obtain ⟨stmts, hstmts, rfl⟩ := List.mem_map.mp hx
        refine ihBody stmts.1 ?_ (hbody stmts hstmts)
        rw [body_of_function? hf]
        exact (List.of_mem_zip hstmts).1
    cases n with
    | expr e =>
      cases n' with
      | expr e' => exact exprLike_of_parts h hparts hfunction
      | stmt _ => cases h.unplaced
    | stmt s =>
      cases n' with
      | expr _ => cases h.unplaced
      | stmt s' => exact stmtLike_of_parts h hparts hfunction

end Node

namespace Program.Alike

variable {program program' : Program} (h : program.Alike program')

include h

theorem size_eq : program'.size = program.size := by
  rw [← program'.size_unplaced, h.unplaced, program.size_unplaced]

/-- Programs that differ in positions only are like one another. -/
theorem like : ∃ π : Pairing False, StmtsLike π program.body program'.body := by
  have hbody : stmtsUnplaced program'.body = stmtsUnplaced program.body :=
    congrArg Program.body h.unplaced
  have hkeys := h.keys
  rw [bodies, bodies, List.zip_cons_cons, List.zip_map] at hkeys
  have hown : SharedAlike (keysOf program.body) (keysOf program'.body) :=
    hkeys (program.body, program'.body) List.mem_cons_self
  refine ⟨.ofKeys hown, Node.stmtsLike_of_parts hbody fun x hx => ?_⟩
  rw [List.zip_map] at hx
  obtain ⟨stmts, hstmts, rfl⟩ := List.mem_map.mp hx
  rw [stmtsUnplaced_eq, stmtsUnplaced_eq] at hbody
  refine (Node.alike_of_body hbody hown (fun f hf => ?_) hstmts).like
  exact hkeys (f.1.2.body, f.2.2.body) (List.mem_cons_of_mem _ (List.mem_map_of_mem hf))

end Program.Alike

end HeaderCheck.Script
