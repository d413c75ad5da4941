import HeaderCheck.Proofs.Header.Inline
import HeaderCheck.Signature.Build

/-!
# HeaderCheck.Proofs.Header.Scoping

Declarations are lexically scoped where no type variable in scope is a name in what is referred to.

* `inlineAssignment`: the binding of an assignment whose type is inlined.
* `Inlines`, `Refuses`: what a header comes to when each declaration comes to the type of its
  inlined body, and to an error that an inlined body comes to.
* `lowerStatements_inlines`: so it is for all headers whose declarations are separate.
-/

namespace HeaderCheck.Header

open HeaderCheck.Project (Error)
open HeaderCheck.Report (Diagnostic)
open HeaderCheck.Signature
open HeaderCheck.Types (Table TypeId)
open Relation (ReflTransGen TransGen)

variable {l l' : Lowering}

/-! ## Assignments -/

/-- A constructor gets its brand again. -/
theorem makes_brandConstructor {t : Table} (ht : t.WellFormed) {type : TypeId} (htype : t.Issued type)
    (name : String) : t.Makes fun t => brandConstructor t name type := by
  have hsame : ∀ u : Table, t.Extends u → u.functionShape? type = t.functionShape? type := by
    intro u hx
    simp only [Table.functionShape?, hx.lookup_eq htype]
  cases hshape : t.functionShape? type with
  | none =>
    refine (Table.makes_self ht htype).congr fun u hx => ?_
    rw [brandConstructor, hsame u hx, hshape]
  | some shape =>
    cases hthis : shape.this with
    | none =>
      refine (Table.makes_self ht htype).congr fun u hx => ?_
      rw [brandConstructor, hsame u hx, hshape]
      simp only [hthis]
    | some this =>
      have hparts : ∀ part ∈ (Types.TypeData.function shape).parts, t.Issued part := fun part hpart =>
        ht.issued_part (Table.functionShape?_eq_some.mp hshape) hpart
      have hissued : t.Issued this := hparts this (by simp [Types.TypeData.parts, hthis])
      have hobject : ∀ u : Table, t.Extends u → u.isObject this = t.isObject this := by
        intro u hx
        simp only [Table.isObject, Table.objectShape?, hx.lookup_eq hissued]
      by_cases hbranded : (t.isObject this && shape.result = .void) = true
      · have hmake := Table.makes_withBrand ht hissued name
        refine (hmake.andThen (fun this t => t.function { shape with this := some this, brand := name })
          ?_).congr fun u hx => ?_
        · refine Table.makes_add hmake.grows.wellFormed (fun part hpart => ?_) trivial
          simp only [Types.TypeData.parts, List.mem_append, List.mem_map, Option.toList_some,
            List.mem_singleton] at hparts hpart
          rcases hpart with (hparam | rfl) | rfl
          · exact hmake.grows.extend.issued (hparts _ (.inl (.inl hparam)))
          · exact hmake.grows.issued
          · exact hmake.grows.extend.issued (hparts _ (.inr rfl))
        · rw [brandConstructor, hsame u hx, hshape]
          simp only [hthis, hobject u hx, hbranded, if_true]
      · refine (Table.makes_self ht htype).congr fun u hx => ?_
        rw [brandConstructor, hsame u hx, hshape]
        simp only [hthis, hobject u hx, hbranded]
        rfl

/-- The binding of an assignment, from its inlined type. -/
def inlineAssignment (fuel : Nat) (name : String) (type : TypeExpr) : LowerM (String × TypeId) := do
  if type.isOptional then throw (.optionalAssignment name)
  let type ← withOnly {} (inlineWithin fuel type)
  if Scope.isConstructorName name then
    return (name, ← onTable fun table => brandConstructor table name type)
  return (name, type)

/-- What a statement assigns. -/
def assignment? : Statement → Option (String × TypeExpr)
  | .assignment name type => some (name, type)
  | _ => none

/-- The assignments of a header, in order. -/
def assignmentsOf (header : Header) : List (String × TypeExpr) :=
  header.statements.filterMap assignment?

theorem lowerAssignments_eq (header : Header) : lowerAssignments header =
    (assignmentsOf header).mapM fun a => lowerAssignment (header.size + 1) a.1 a.2 := by
  rw [lowerAssignments, assignmentsOf]
  generalize header.size + 1 = fuel
  induction header.statements with
  | nil => rfl
  | cons statement rest ih =>
    rw [List.filterMapM_cons, ih, List.filterMap_cons]
    cases statement with
    | assignment name type =>
      rw [assignment?, List.mapM_cons]
      simp only [bind_assoc, pure_bind]
    | declaration name body generics => exact pure_bind _ _
    | imports dependency items => exact pure_bind _ _
    | comment text => exact pure_bind _ _

/-- Where nothing is in scope or in progress, names are clear that reach nothing but what is apart. -/
theorem clear_of_allApart {names : List String} (h : AllApart l.declarations l.Knows names)
    (hvars : l.typeVars = []) (hprogress : l.inProgress = []) {name : String} (hname : name ∈ names) :
    l.Clear name := by
  intro other declared hreaches
  obtain ⟨hparams, hscopes⟩ := h name hname other declared hreaches
  refine ⟨hprogress ▸ List.not_mem_nil, fun _ _ => ?_, hparams, hscopes⟩
  rw [Lowering.binding?, hvars]
  rfl

theorem scoping_lowerAssignment (hl : Mirror.scoping.Holds l) (hvars : l.typeVars = [])
    (hprogress : l.inProgress = []) {type : TypeExpr}
    (hscopes : ScopesApart l.declarations l.Knows type)
    (hall : AllApart l.declarations l.Knows type.names) (fuel : Nat) (name : String) :
    Mirrors .scoping [] l (fun _ _ => True) (lowerAssignment fuel name type) fun more =>
      inlineAssignment more name type := by
  simp only [lowerAssignment, inlineAssignment]
  split
  · exact .of_run rfl (Std.Refl.refl l) rfl (by rintro _ ⟨⟩) fun _ _ _ => rfl
  have hexprs : Mirror.scoping.Exprs (lowerWithin fuel) fun more => inlineWithin more :=
    scoping_lowerWithin fuel
  have hfit : l.Fit type := ⟨hscopes, fun name hname _ => clear_of_allApart hall hvars hprogress hname⟩
  have htype : Mirrors .scoping [] l (fun id t => t.Issued id) (lowerWithin fuel type) fun more =>
      withOnly {} (inlineWithin more type) := by
    refine (hexprs hl hfit).withOnly fun name _ => ?_
    rw [Lowering.binding?, hvars]
    rfl
  refine .bind htype fun id l₁ h₁ hid => ?_
  split
  · exact .bind (mirrors_onTable (makes_brandConstructor (h₁.sound hl.sound).table hid name))
      fun _ _ _ _ => .pure trivial
  · exact .pure trivial

/-! ## Headers -/

/-- What a header comes to in whose declarations and assignments each name stands for the body of its
declaration: the types and bindings, and the diagnostics. -/
structure Inlines (header : Header) (start last : Lowering) (lowered : Lowered) : Prop where
  declarations : ∀ name, (declarationsOf header).contains name → ∃ type reported,
    lowered.declarations.get? name = some type ∧ (∀ d ∈ reported, d ∈ lowered.diagnostics) ∧
    last.Comes False [] (fun fuel => inlineDeclaration (inlineWithin fuel) name []) (.ok type) reported
  assignments : List.Forall₂ (fun a binding => ∃ reported, (∀ d ∈ reported, d ∈ lowered.diagnostics) ∧
    last.Comes False [] (fun fuel => inlineAssignment fuel a.1 a.2) (.ok binding) reported)
    (assignmentsOf header) lowered.assignments
  diagnostics : ∀ d ∈ lowered.diagnostics, d ∈ start.diagnostics ∨
    (∃ name type reported, (declarationsOf header).contains name ∧ d ∈ reported ∧
      last.Comes False [] (fun fuel => inlineDeclaration (inlineWithin fuel) name []) (.ok type)
        reported) ∨
    ∃ a ∈ assignmentsOf header, ∃ binding reported, d ∈ reported ∧
      last.Comes False [] (fun fuel => inlineAssignment fuel a.1 a.2) (.ok binding) reported

/-- An error that an inlined declaration or assignment of a header comes to. -/
def Refuses (header : Header) (last : Lowering) (e : Error) : Prop :=
  (∃ name reported, (declarationsOf header).contains name ∧
    last.Comes False [] (fun fuel => inlineDeclaration (inlineWithin fuel) name []) (.error e)
      reported) ∨
  ∃ a ∈ assignmentsOf header, ∃ reported,
    last.Comes False [] (fun fuel => inlineAssignment fuel a.1 a.2) (.error e) reported

/-- The name of a declaration without parameters. -/
def Plain (declarations : Dict Declared) (name : String) : Prop :=
  ∃ declared, declarations.get? name = some declared ∧ declared.params.isEmpty

/-- A header whose declarations do not reach themselves, and in which no type variable is a name in a
declaration that is reached from its scope for the first time. When a declaration gets its turn,
those before it that have no parameters are known. -/
structure LexicallyApart (header : Header) : Prop where
  acyclic : Acyclic (declarationsOf header)
  keys : KeysApart (declarationsOf header)
  declared : ∀ before name after, (declarationsOf header).keys = before ++ name :: after →
    AllApart (declarationsOf header)
      (fun other => other ∈ before ∧ Plain (declarationsOf header) other) [name]
  assigned : ∀ a ∈ assignmentsOf header,
    ScopesApart (declarationsOf header) (Plain (declarationsOf header)) a.2 ∧
      AllApart (declarationsOf header) (Plain (declarationsOf header)) a.2.names

/-- A declaration without parameters is known once it is lowered. -/
theorem knows_of_run {lower : TypeExpr → LowerM TypeId} {name : String} {declared : Declared}
    (hget : l.declarations.get? name = some declared) (hparams : declared.params.isEmpty)
    (hfree : name ∉ l.inProgress) {args : List TypeId} {id : TypeId}
    (hrun : (lowerDeclaration lower name args).run l = (.ok id, l')) : l'.Knows name := by
  rw [run_lowerDeclaration hget, if_pos hparams] at hrun
  cases hknown : l.resolved.get? name with
  | some known =>
    rw [run_lowerPlain_known hknown] at hrun
    cases hrun
    rw [Lowering.Knows, hknown]
    rfl
  | none =>
    rcases hbody : (lower declared.body).run (l.start name) with ⟨e | type, l₁⟩
    · rw [run_lowerPlain_error hknown hfree hbody] at hrun
      cases hrun
    · rw [run_lowerPlain_ok hknown hfree hbody] at hrun
      cases hrun
      rw [Lowering.Knows, Lowering.learn, Dict.get?_insert, if_pos rfl]
      rfl

variable {header : Header} {start : Lowering}

/-- While a header is lowered: nothing is in scope or in progress, and of the declarations without
parameters those are known that had their turn. -/
structure Had (header : Header) (before : List String) (l : Lowering) : Prop where
  holds : Mirror.scoping.Holds l
  declarations : l.declarations = declarationsOf header
  typeVars : l.typeVars = []
  inProgress : l.inProgress = []
  known : ∀ name ∈ before, Plain (declarationsOf header) name → l.Knows name

theorem Had.onward {before : List String} (h : Had header before l)
    (ho : Mirror.scoping.Onward l l') : Had header before l' :=
  ⟨ho.holds h.holds, ho.keeps.declarations.trans h.declarations, ho.keeps.typeVars.trans h.typeVars,
    ho.keeps.inProgress.trans h.inProgress,
    fun name hname hplain => Lowering.knows_mono ho.resolved name (h.known name hname hplain)⟩

theorem Lowering.Begins.had (h : start.Begins header) (happart : LexicallyApart header) :
    Had header [] start := by
  refine ⟨⟨h.sound, ?_⟩, h.declarations, h.typeVars, h.inProgress, by simp⟩
  refine ⟨h.declarations ▸ happart.acyclic, h.declarations ▸ happart.keys, ?_, ?_⟩ <;>
    · intro name type hget
      rw [h.resolved] at hget
      cases hget

variable {before after : List String} {name : String} (fuel : Nat)

/-- A declaration comes to the type of its body when it gets its turn. -/
theorem Had.turn (h : Had header before l) (happart : LexicallyApart header)
    (hkeys : (declarationsOf header).keys = before ++ name :: after) :
    Mirrors .scoping [] l (Typed name) (typed (lowerDeclaration (lowerWithin fuel)) name) fun more =>
      typed (inlineDeclaration (inlineWithin more)) name := by
  have hdeclarations : Mirror.scoping.Declarations (lowerDeclaration (lowerWithin fuel))
      fun more => inlineDeclaration (inlineWithin more) :=
    scoping_lowerDeclaration (scoping_lowerWithin fuel)
  have hall : AllApart l.declarations l.Knows [name] := by
    rw [h.declarations]
    exact (happart.declared before name after hkeys).mono fun other hother =>
      h.known other hother.1 hother.2
  refine hdeclarations.typed h.holds h.typeVars ?_ ⟨scopesApart_literal, fun free hfree _ => ?_⟩
  · rw [h.declarations]
    exact contains_of_mem_keys (by simp [hkeys])
  · exact clear_of_allApart hall h.typeVars h.inProgress hfree

theorem Had.next (h : Had header before l) (happart : LexicallyApart header)
    (hkeys : (declarationsOf header).keys = before ++ name :: after) {pair : String × TypeId}
    (hrun : (typed (lowerDeclaration (lowerWithin fuel)) name).run l = (.ok pair, l')) :
    Had header (before ++ [name]) l' := by
  have honward := (h.turn fuel happart hkeys).onward
  rw [hrun] at honward
  have hthen := h.onward honward
  refine { hthen with known := fun other hother hplain => ?_ }
  rcases List.mem_append.mp hother with hother | hother
  · exact hthen.known other hother hplain
  · obtain ⟨declared, hget, hparams⟩ := hplain
    obtain rfl := List.mem_singleton.mp hother
    obtain ⟨id, l₁, hdeclared, hpair⟩ := ok_of_run_bind hrun
    cases hpair
    rw [← h.declarations] at hget
    exact knows_of_run hget hparams (h.inProgress ▸ List.not_mem_nil) hdeclared

theorem Had.each (h : Had header before l) (happart : LexicallyApart header)
    (hkeys : (declarationsOf header).keys = before ++ after) :
    MirrorsEach .scoping [] Typed (typed (lowerDeclaration (lowerWithin fuel)))
      (fun more => typed (inlineDeclaration (inlineWithin more))) l after := by
  induction after generalizing l before with
  | nil => trivial
  | cons name rest ih =>
    exact ⟨h.turn fuel happart hkeys, fun pair l' hrun =>
      ih (h.next fuel happart hkeys hrun) (by simp [hkeys])⟩

/-- All declarations have had their turn. -/
theorem Had.all (h : Had header before l) (happart : LexicallyApart header)
    (hkeys : (declarationsOf header).keys = before ++ after) {pairs : List (String × TypeId)}
    (hrun : (after.mapM (typed (lowerDeclaration (lowerWithin fuel)))).run l = (.ok pairs, l')) :
    Had header (before ++ after) l' := by
  induction after generalizing l before pairs with
  | nil =>
    cases hrun
    rwa [List.append_nil]
  | cons name rest ih =>
    rw [List.mapM_cons] at hrun
    obtain ⟨pair, l₁, hfirst, hrun⟩ := ok_of_run_bind hrun
    obtain ⟨others, l₂, hrest, hrun⟩ := ok_of_run_bind hrun
    cases hrun
    have hthen := ih (h.next fuel happart hkeys hfirst) (by simp [hkeys]) hrest
    rwa [List.append_assoc] at hthen

/-- A header comes to what its inlined declarations and assignments come to. -/
theorem lowerStatements_inlines (hstart : start.Begins header) (happart : LexicallyApart header) :
    let run := (lowerStatements header).run start
    (∀ lowered, run.1 = .ok lowered → Inlines header start run.2 lowered) ∧
      ∀ e, run.1 = .error e → Refuses header run.2 e := by
  have hhad := hstart.had happart
  have heach := hhad.each (header.size + 1) happart rfl
  have hfuel : ∀ e, ((lowerStatements header).run start).1 = .error e → e ≠ .outOfFuel := by
    rintro e he rfl
    exact (lowers_lowerStatements hstart.declarations).failure _ he
  rw [run_lowerStatements hstart.declarations] at hfuel ⊢
  rcases hrun : (lowerDeclarations header).run start with ⟨e | pairs, l⟩
  · rw [run_bind_error hrun] at hfuel ⊢
    refine ⟨fun _ he => (by cases he), fun e' he => ?_⟩
    cases he
    obtain ⟨name, hname, reported, hcomes⟩ := heach.failing id (hfuel e rfl) hrun
    exact .inl ⟨name, reported, contains_of_mem_keys hname, hcomes.of_typed_error⟩
  have hfinds := heach.finds hrun
  have hassignments : MirrorsEach .scoping [] (fun _ _ _ => True)
      (fun a => lowerAssignment (header.size + 1) a.1 a.2)
      (fun fuel a => inlineAssignment fuel a.1 a.2) l (assignmentsOf header) := by
    refine .of_forall fun a ha l₁ h₁ => ?_
    have hall := (hhad.all _ happart rfl hrun).onward h₁
    have hknown : ∀ name, Plain (declarationsOf header) name → l₁.Knows name := by
      rintro name ⟨declared, hget, hparams⟩
      exact hall.known name (Dict.mem_keys_iff.mpr ⟨declared, hget⟩) ⟨declared, hget, hparams⟩
    obtain ⟨hscopes, hapart⟩ := happart.assigned a ha
    rw [← hall.declarations] at hscopes hapart hknown
    exact scoping_lowerAssignment hall.holds hall.typeVars hall.inProgress (hscopes.mono hknown)
      (hapart.mono hknown) _ _
  rw [run_bind_ok hrun, lowerAssignments_eq] at hfuel ⊢
  rcases hrun' : ((assignmentsOf header).mapM fun a =>
      lowerAssignment (header.size + 1) a.1 a.2).run l with ⟨e | bindings, last⟩
  · rw [run_bind_error hrun'] at hfuel ⊢
    refine ⟨fun _ he => (by cases he), fun e' he => ?_⟩
    cases he
    exact .inr (hassignments.failing id (hfuel e rfl) hrun')
  · rw [run_bind_ok hrun']
    refine ⟨fun lowered hlowered => ?_, fun _ he => (by cases he)⟩
    cases hlowered
    obtain ⟨honward, outcomes, rfl, hall, hreported⟩ := hassignments.outcomes (fun _ _ _ _ _ => id) hrun'
    have hdiagnostics := honward.keeps.diagnostics
    refine ⟨fun name hname => ?_, ?_, fun d hd => ?_⟩
    · obtain ⟨type, hget⟩ := hfinds.found name hname
      obtain ⟨-, reported, hsub, hcomes⟩ := hfinds.again name type hget
      exact ⟨type, reported, hget, fun d hd => hdiagnostics.subset (hsub d hd), honward.comes hcomes⟩
    · rw [List.forall₂_map_right_iff]
      exact hall.imp fun a o ho => ⟨o.2, ho.2⟩
    · rcases hreported id d hd with hd | ⟨o, ho, hd⟩
      · refine (hfinds.reported id d hd).imp_right fun ⟨name, type, reported, hname, hd, hcomes⟩ =>
          .inl ⟨name, type, reported, hname, hd, honward.comes hcomes⟩
      · obtain ⟨a, ha, -, -, hcomes⟩ := Types.forall_right hall o ho
        exact .inr (.inr ⟨a, ha, o.1, o.2, hd, hcomes⟩)

/-! ## Two headers -/

/-- `Pair<T>` is `{ left: T, tag: Tag }`, and `Tag` is `{ of: Missing }`. -/
def tagged : Header :=
  Build.header [
    Build.declaration "Pair" ["T"]
      (Build.object [("left", Build.literal "T"), ("tag", Build.literal "Tag")]),
    Build.declaration "Tag" [] (Build.object [("of", Build.literal "Missing")])]

theorem tagged_cases {declared : Declared}
    (h : (declarationsOf tagged).get? name = some declared) :
    (name = "Pair" ∧ declared.params = ["T"] ∧ declared.names = ["Tag"] ∧ declared.body =
      Build.object [("left", Build.literal "T"), ("tag", Build.literal "Tag")]) ∨
    (name = "Tag" ∧ declared.params = [] ∧ declared.names = ["Missing"] ∧
      declared.body = Build.object [("of", Build.literal "Missing")]) := by
  have hentries : (declarationsOf tagged).entries =
      [("Pair", ⟨["T"], Build.object [("left", Build.literal "T"), ("tag", Build.literal "Tag")]⟩),
        ("Tag", ⟨[], Build.object [("of", Build.literal "Missing")]⟩)] := rfl
  have hmem := Dict.mem_entries_of_get? h
  rw [hentries, List.mem_cons, List.mem_singleton] at hmem
  rcases hmem with hpair | htag
  · cases hpair
    exact .inl ⟨rfl, rfl, by decide +kernel, rfl⟩
  · cases htag
    exact .inr ⟨rfl, rfl, by decide +kernel, rfl⟩

/-- What holds of the parts of an expression without variables holds of the expression. -/
theorem scopesApart_of_parts {declarations : Dict Declared} {known : String → Prop} {type : TypeExpr}
    (hvariables : type.variables = [])
    (h : ∀ part ∈ type.parts, ScopesApart declarations known part) :
    ScopesApart declarations known type := by
  intro inner hinner
  rcases ReflTransGen.cases_head hinner with rfl | ⟨part, hpart, hinner⟩
  · rw [hvariables]
    exact fun _ _ _ _ _ _ _ => List.not_mem_nil
  · exact h part hpart inner hinner

/-- References go from `Pair` to `Tag` and from there to what is not declared. -/
theorem acyclic_tagged : Acyclic (declarationsOf tagged) := by
  let rank : String → Nat := fun name => if name = "Pair" then 2 else if name = "Tag" then 1 else 0
  have hstep : ∀ {name other}, Refers (declarationsOf tagged) (fun _ => False) name other →
      rank other < rank name := by
    rintro name other ⟨-, declared, hget, hother⟩
    rcases tagged_cases hget with ⟨rfl, -, hnames, -⟩ | ⟨rfl, -, hnames, -⟩ <;>
      rw [hnames, List.mem_singleton] at hother <;> subst hother <;> decide
  have htrans : ∀ {name other}, TransGen (Refers (declarationsOf tagged) fun _ => False) name other →
      rank other < rank name := by
    intro name other h
    induction h with
    | single h => exact hstep h
    | tail _ h ih => exact Nat.lt_trans (hstep h) ih
  exact fun name h => Nat.lt_irrefl _ (htrans h)

theorem keysApart_tagged : KeysApart (declarationsOf tagged) := by
  intro name declared other declared' hname hother hkey
  rcases tagged_cases hname with ⟨rfl, hparams, -⟩ | ⟨rfl, hparams, -⟩ <;>
    rcases tagged_cases hother with ⟨rfl, hparams', -⟩ | ⟨rfl, hparams', -⟩ <;>
    simp [Declared.key, hparams, hparams', appliedKey] at hkey ⊢

theorem allApart_tagged {known : String → Prop} (names : List String) :
    AllApart (declarationsOf tagged) known names := by
  intro name _ other declared hreaches
  have hapart : Apart (declarationsOf tagged) known ["T"] declared.names := by
    rintro _ _ found declared' hreaches' free hfree hbound
    rw [List.mem_singleton] at hbound
    rcases tagged_cases hreaches'.2.2 with ⟨-, -, hnames, -⟩ | ⟨-, -, hnames, -⟩ <;>
      simp [hnames, hbound] at hfree
  rcases tagged_cases hreaches.2.2 with ⟨-, hparams, -, hbody⟩ | ⟨-, hparams, -, hbody⟩ <;>
    rw [hparams, hbody]
  · refine ⟨hapart, scopesApart_of_parts rfl fun part hpart => ?_⟩
    simp only [Build.object, TypeExpr.parts, List.map_cons, List.map_nil, List.mem_cons,
      List.not_mem_nil, or_false] at hpart
    rcases hpart with rfl | rfl <;> exact scopesApart_literal
  · refine ⟨fun _ _ _ _ _ _ _ => List.not_mem_nil, scopesApart_of_parts rfl fun part hpart => ?_⟩
    simp only [Build.object, TypeExpr.parts, List.map_cons, List.map_nil, List.mem_cons,
      List.not_mem_nil, or_false] at hpart
    subst hpart
    exact scopesApart_literal

theorem lexicallyApart_tagged : LexicallyApart tagged where
  acyclic := acyclic_tagged
  keys := keysApart_tagged
  declared := fun _ name _ _ => allApart_tagged [name]
  assigned := fun _ ha => nomatch (show _ ∈ [] from ha)

deriving instance DecidableEq for Dict
deriving instance DecidableEq for Diagnostic

/-- `Tag` is first reached from inside of `Pair`, with `T` in scope, and comes to its own body, whose
unknown name is reported. -/
theorem lowerStatements_inlines_tagged :
    ∃ lowered, ((lowerStatements tagged).run (beginning "/tagged.hjs" tagged)).1 = .ok lowered ∧
      lowered.diagnostics =
        [Diagnostic.of .unknownLiteral "/tagged.hjs" none [("literal", "Missing")]] ∧
      Inlines tagged (beginning "/tagged.hjs" tagged)
        ((lowerStatements tagged).run (beginning "/tagged.hjs" tagged)).2 lowered := by
  have hdiagnostics : ((lowerStatements tagged).run (beginning "/tagged.hjs" tagged)).1.toOption.map
      Lowered.diagnostics =
        some [Diagnostic.of .unknownLiteral "/tagged.hjs" none [("literal", "Missing")]] := by
    decide +kernel
  have hinlines := (lowerStatements_inlines (begins_beginning "/tagged.hjs" tagged)
    lexicallyApart_tagged).1
  cases hrun : ((lowerStatements tagged).run (beginning "/tagged.hjs" tagged)).1 with
  | error e =>
    rw [hrun] at hdiagnostics
    cases hdiagnostics
  | ok lowered =>
    rw [hrun] at hdiagnostics
    exact ⟨lowered, rfl, Option.some.inj hdiagnostics, hinlines lowered hrun⟩

/-- `Box<T>` is `Foo`, and `Foo` is `{ x: T }`, where `T` is no name that `Foo` knows. -/
def leaky : List Statement :=
  [Build.declaration "Box" ["T"] (Build.literal "Foo"),
    Build.declaration "Foo" [] (Build.object [("x", Build.literal "T")])]

/-- The declaration of `Foo` gets the variable of `Box`, and no name is reported. It comes to something
else when it is inlined, and when it is declared first. -/
theorem variable_leaks :
    let leaking := (lowerStatements (Build.header leaky)).run (beginning "/l.hjs" (Build.header leaky))
    let foo := fun lowered : Lowered => lowered.declarations.get? "Foo"
    let inlined := (inlineDeclaration (inlineWithin 5) "Foo" []).run leaking.2
    let reversed := (lowerStatements (Build.header leaky.reverse)).run
      (beginning "/l.hjs" (Build.header leaky.reverse))
    leaking.1.toOption.bind foo = some ⟨20⟩ ∧ leaking.2.diagnostics = [] ∧
      leaking.2.table.lookup ⟨20⟩ = some (.object ⟨[{ name := "x", type := ⟨19⟩ }], false, "Object"⟩) ∧
      leaking.2.table.lookup ⟨19⟩ = some (.free "T") ∧
      inlined.1 = .ok ⟨21⟩ ∧
      inlined.2.table.lookup ⟨21⟩ = some (.object ⟨[{ name := "x", type := .any }], false, "Object"⟩) ∧
      inlined.2.diagnostics = [Diagnostic.of .unknownLiteral "/l.hjs" none [("literal", "T")]] ∧
      reversed.2.diagnostics = inlined.2.diagnostics := by
  decide +kernel

end HeaderCheck.Header
