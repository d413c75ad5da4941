import HeaderCheck.Proofs.Verify.Region

/-!
# HeaderCheck.Proofs.Verify.Region.Functions

Visits, functions and first calls keep within their regions.

* `Visitor.Confines`: what the visitor of the parts of a node must do.
* `confined_verifyFunction`: a body is verified in a scope of its own, which is open for all names.
* `Call.confined_infer`: a first call. Its arguments are a region of their own, which has only what
  they reach. So the function that was found before them is still there after them, unless one of
  them reaches its name.
-/

namespace HeaderCheck.Verify

open HeaderCheck.Project (Error SessionM)
open HeaderCheck.Scope (Arena FunctionInfo ScopeId UntypedFunction touched_declare
  touched_forgetFunction touched_kind touched_typeFunction)
open HeaderCheck.Scope.Arena (Placed Touches)
open HeaderCheck.Script
open HeaderCheck.Types (FunctionShape Param Table TypeId)

variable {α β : Type} {G : Ground} {R : Region G} {s s' : State} {name : String}

/-! ## Names in sight -/

theorem State.unbound_of_lookup (h : s.lookup name = none) :
    ∀ x ∈ s.arena.chain s.focus.scope, x.2.identifiers.contains name = false := by
  have hnone := Arena.getVar_writable_eq_none h
  intro x hx
  cases hbound : x.2.identifiers.contains name with
  | false => rfl
  | true =>
    have hsome : (s.typeIn s.focus.scope name .writable).isSome :=
      (Arena.getVar_isSome_iff _ _ _ _).mpr (.inl ⟨x, hx, hbound⟩)
    rw [State.typeIn, hnone] at hsome
    cases hsome

theorem State.Leaves.typeIn_isSome (h : s.Leaves R s') (hs : s.Fits R) {id : ScopeId}
    (hid : id.index < s.arena.size) (hv : (s.typeIn id name .writable).isSome) :
    (s'.typeIn id name .writable).isSome := by
  rw [State.typeIn, h.globals]
  exact h.arena.getVar_isSome hs.arena.sound.ordered hid hv

/-- A name in sight can be given another type, unless it is a global one. -/
theorem confined_update {id : ScopeId} {type : TypeId} (hname : R.names name)
    (hsight : s.Fits R → (s.typeIn id name .writable).isSome) :
    Confined R s (onArena fun a => a.forceUpdateVar id name type) fun _ _ => True := by
  refine confined_forceUpdateVar hname (fun hs hno => ?_) fun _ _ _ => trivial
  rcases (Arena.getVar_isSome_iff _ _ _ _).mp (hsight hs) with ⟨x, hx, hbound⟩ | hglobal
  · rw [hno x hx] at hbound
    cases hbound
  · exact G.global _ name hs.session hglobal

/-! ## Functions without a type -/

theorem confined_updateFunction {id : ScopeId} {type : TypeId} {Q : ScopeId → State → Prop}
    (hname : R.names name)
    (hmissing : s.Fits R → (∀ x ∈ s.arena.chain id, x.2.untyped.contains name = false) →
      G.accepts (.scope (.missingFunction name)))
    (hbound : s.Fits R → ∀ x ∈ s.arena.chain id, x.2.untyped.contains name →
      x.2.identifiers.contains name → G.accepts (.scope (.duplicateIdentifier name)))
    (hQ : ∀ holder scope,
      (s.arena.chain id).find? (fun x => x.2.untyped.contains name) = some (holder, scope) →
        Q holder { s with arena := s.arena.modify holder (Arena.typeFunction name type) }) :
    Confined R s (onArena fun a => a.updateFunction id name type) Q := by
  cases hfind : (s.arena.chain id).find? fun x => x.2.untyped.contains name with
  | none =>
    refine confined_refused (by simp [Arena.updateFunction, hfind]) fun hs => hmissing hs ?_
    intro x hx
    simpa using List.find?_eq_none.mp hfind x hx
  | some x =>
    obtain ⟨holder, scope⟩ := x
    have hmem := List.mem_of_find?_eq_some hfind
    have huntyped : scope.untyped.contains name := by simpa using List.find?_some hfind
    have hscope : s.arena.scope? holder = some scope := Arena.scope?_of_mem_chainWithin hmem
    have honly {found : Scope} (hfound : s.arena.scope? holder = some found) : found = scope :=
      Option.some.inj (hfound.symm.trans hscope)
    rcases Arena.updateFunction_of_find? hfind type with ⟨hc, hrun⟩ | ⟨_, hrun⟩
    · refine confined_refusal hrun ?_ ?_ fun hs => hbound hs _ hmem huntyped hc
      · refine fun hs => .modify fun found hfound => ?_
        cases honly hfound
        exact touched_forgetFunction hname (hs.arena.distinct _ _ hscope) hc
      · exact fun hs => hs.arena.modify_fewer hscope huntyped (fun _ => rfl) (fun _ => rfl)
          fun _ => rfl
    · refine confined_onArena hrun ?_ ?_ fun _ => hQ holder scope hfind
      · refine fun hs => .modify fun found hfound => ?_
        cases honly hfound
        exact touched_typeFunction hname (hs.arena.distinct _ _ hscope) huntyped type
      · exact fun hs => hs.arena.modify_fewer hscope huntyped (fun _ => rfl) (fun _ => rfl)
          fun _ => rfl

/-- A function that is in sight, of a name that is not, takes the type of the slot. -/
theorem confines_bindUntyped? {e : Expr} (h : R.Covers (.expr e)) (expected : TypeId) :
    Confines R (bindUntyped? e expected) := by
  refine fun s => confined_get_bind ?_
  cases e with
  | identifier id =>
    simp only
    split
    · next hcond =>
      simp only [Bool.and_eq_true, Option.isNone_iff_eq_none] at hcond
      obtain ⟨⟨-, hlookup⟩, huntyped⟩ := hcond
      have hupdate : Confined R s
          (onArena fun a => a.updateFunction s.focus.scope id.name expected) fun _ _ => True := by
        refine confined_updateFunction h.identifier (fun _ hno => ?_) (fun _ x hx _ hbound => ?_)
          fun _ _ _ => trivial
        · obtain ⟨untyped, hfound⟩ := Option.isSome_iff_exists.mp huntyped
          obtain ⟨x, hfind, -⟩ := Arena.find?_of_getFunction? hfound
          have hu : x.2.untyped.contains id.name := by simpa using List.find?_some hfind
          rw [hno x (List.mem_of_find?_eq_some hfind)] at hu
          cases hu
        · rw [State.unbound_of_lookup hlookup x hx] at hbound
          cases hbound
      exact confined_bind hupdate fun _ _ _ _ _ => confined_pure trivial
    · exact confined_pure trivial
  | _ => exact confined_pure trivial

/-! ## Visitors -/

/-- What the visitor of the parts of a node must do. -/
structure Visitor.Confines (G : Ground) (v : Visitor) : Prop where
  expr : ∀ (R : Region G) e, R.Covers (.expr e) → Verify.Confines R (v.expr e)
  stmt : ∀ (R : Region G) stmt, R.inside → R.Covers (.stmt stmt) → Verify.Confines R (v.stmt stmt)
  identifier : ∀ id s type s', (v.expr (.identifier id)).run s = (.ok type, s') →
    (verifyIdentifier id).run s = (.ok type, s')
  require : ∀ file request s, G.session s →
    Safe (Leads G.session) G.accepts s (v.require file request) fun _ _ => True

namespace Visitor.Confines

variable {v : Visitor}

theorem value (hv : v.Confines G) {e : Expr} (h : R.Covers (.expr e)) :
    Verify.Confines R (v.value e) :=
  confines_expecting (hv.expr R e h)

theorem into (hv : v.Confines G) {e : Expr} (h : R.Covers (.expr e)) (expected : Option TypeId) :
    Verify.Confines R (v.into e expected) := by
  cases expected with
  | none => exact hv.value h
  | some expected =>
    refine confines_bind (confines_bindUntyped? h expected) fun bound => ?_
    cases bound with
    | none => exact confines_expecting (hv.expr R e h)
    | some bound => exact confines_pure _

theorem inOrder (hv : v.Confines G) (hinside : R.inside) {stmts : List Stmt}
    (h : ∀ stmt ∈ stmts, R.Covers (.stmt stmt)) : Verify.Confines R (v.inOrder stmts) := by
  induction stmts with
  | nil => exact confines_pure _
  | cons stmt rest ih =>
    exact confines_bind (hv.stmt R stmt hinside (h stmt List.mem_cons_self)) fun _ =>
      ih fun stmt hmem => h stmt (List.mem_cons_of_mem _ hmem)

theorem statements (hv : v.Confines G) (hinside : R.inside) {stmts : List Stmt}
    (h : ∀ stmt ∈ stmts, R.Covers (.stmt stmt)) : Verify.Confines R (v.statements stmts) :=
  confines_bind (hv.inOrder hinside fun stmt hmem => h stmt (List.mem_filter.mp hmem).1) fun _ =>
    hv.inOrder hinside fun stmt hmem => h stmt (List.mem_filter.mp hmem).1

end Visitor.Confines

/-- The functions among statements are declared in the file or function at hand, and no name is
bound. -/
theorem confined_registerFunctions (hinside : R.inside) {stmts : List Stmt}
    (h : ∀ stmt ∈ stmts, R.Covers (.stmt stmt)) :
    Confined R s (registerFunctions stmts) fun _ s' =>
      ∀ id name, s'.arena.hasOwnVar id name = s.arena.hasOwnVar id name := by
  induction stmts generalizing s with
  | nil => exact confined_pure fun _ _ => rfl
  | cons stmt rest ih =>
    have hrest {s : State} := ih (s := s) fun stmt hmem => h stmt (List.mem_cons_of_mem _ hmem)
    cases stmt with
    | function f =>
      have hf := h _ List.mem_cons_self
      have hdeclared : G.program.Declares f := List.mem_filterMap.mpr ⟨_, hf.mem, rfl⟩
      refine confined_get_bind ?_
      have hadd : Confined R s (onArena fun a => a.addFunction s.focus.scope f.name f) fun _ s' =>
          ∀ id name, s'.arena.hasOwnVar id name = s.arena.hasOwnVar id name := by
        rcases s.arena.addFunction_cases s.focus.scope f.name f with hrun | hrun
        · exact confined_refused hrun fun _ => G.other _ rfl
        · refine confined_onArena hrun ?_ (fun hs => hs.arena.addFunction hs.focus hdeclared) ?_
          · exact fun hs => .modify fun scope _ =>
              touched_declare (hf.name List.mem_cons_self) (hs.owner hinside) scope _
          · intro _ id name
            rw [Arena.hasOwnVar, Arena.scope?_modify, Arena.hasOwnVar]
            split
            · next heq =>
              rw [heq]
              cases s.arena.scope? id <;> rfl
            · rfl
      refine confined_bind hadd fun _ s₁ _ _ hsame => hrest.mono fun _ _ _ hsame₂ => ?_
      exact fun id name => (hsame₂ id name).trans (hsame id name)
    | _ => exact hrest

theorem Visitor.Confines.block {v : Visitor} (hv : v.Confines G) (hinside : R.inside)
    {stmts : List Stmt} (h : ∀ stmt ∈ stmts, R.Covers (.stmt stmt)) :
    Verify.Confines R (v.block stmts) :=
  confines_bind (fun _ => (confined_registerFunctions hinside h).ignore) fun _ => hv.statements hinside h

/-! ## Functions -/

/-- The function belongs to the region with its parameters and its body. -/
structure Region.Has (R : Region G) (f : Function) : Prop where
  mem : ∃ kind, (kind, f) ∈ functionsOf G.program.body
  params : ∀ id ∈ f.params, R.names id.name
  body : ∀ stmt ∈ f.body, R.Covers (.stmt stmt)

theorem Region.Covers.declaration {f : Function} (h : R.Covers (.stmt (.function f))) :
    R.Has f where
  mem := ⟨.declared, List.mem_filterMap.mpr ⟨_, h.mem, rfl⟩⟩
  params := fun _ hmem => h.name (List.mem_cons_of_mem _ (List.mem_map_of_mem hmem))
  body := fun _ hmem => h.body hmem

theorem Region.Covers.expression {f : Function} (h : R.Covers (.expr (.function f))) :
    R.Has f where
  mem := ⟨.expression, List.mem_filterMap.mpr ⟨_, h.mem, rfl⟩⟩
  params := fun _ hmem => h.name (List.mem_map_of_mem hmem)
  body := fun _ hmem => h.body hmem

/-- Parameters are bound in a scope that takes their names. -/
theorem confined_bindParams {scope : ScopeId} {params : List (Identifier × Param)}
    (hopen : R.isOpen scope) (hnames : ∀ param ∈ params, R.names param.1.name)
    (htakes : G.Takes s.arena scope (params.map fun param => param.1.name)) :
    Confined R s (bindParams scope params) fun _ _ => True := by
  induction params generalizing s with
  | nil => exact confined_pure trivial
  | cons first rest ih =>
    obtain ⟨id, param⟩ := first
    have hbind : ∀ {s₁ : State} type, s₁.arena = s.arena →
        Confined R s₁ (do onArena fun a => a.addVar scope id.name type; bindParams scope rest)
          fun _ _ => True := by
      intro s₁ type harena
      rw [← harena] at htakes
      refine confined_bind (confined_bindNext (hnames _ List.mem_cons_self) hopen htakes)
        fun _ s₂ _ _ ⟨htakes₂, _⟩ => ?_
      exact ih (fun param hmem => hnames param (List.mem_cons_of_mem _ hmem)) htakes₂
    rw [bindParams]
    split
    · exact confined_bind (notes_onTable _).confined fun type s₁ _ _ harena => hbind type harena
    · exact hbind param.type rfl

/-- The region as it is seen from a body, where names may be declared. -/
def Region.inBody (R : Region G) : Region G :=
  { R with inside := True }

theorem confined_enterBody {v : Visitor} (hv : v.Confines G) {f : Function} (hf : R.Has f)
    {scope : ScopeId}
    (hscope : ∃ found, s.arena.scope? scope = some found ∧ found.kind.isBranch = false)
    (hopen : R.isOpen scope) : Confined R s (enterBody v f scope) fun _ _ => True := by
  have henter : Confined R s (modify fun s => { s with entered := (scope, f) :: s.entered })
      fun _ s' => s'.arena = s.arena :=
    confined_same rfl rfl rfl rfl rfl rfl rfl rfl
  refine confined_bind henter fun _ s₁ _ _ harena => ?_
  obtain ⟨found, hfound, hb⟩ := hscope
  rw [← harena] at hfound
  have hblock : Verify.Confines R.inBody (v.block f.body) :=
    hv.block trivial fun stmt hmem => ⟨(hf.body stmt hmem).mem, (hf.body stmt hmem).mentions⟩
  refine confined_withFocus (L := R.inBody) ?_ (fun _ h => h) (fun _ _ h => h) (hblock _)
    fun _ _ _ _ => trivial
  intro hs
  refine ⟨hs.arena, Arena.index_lt_size hfound, hs.fresh, fun _ => ?_, hs.session⟩
  change R.isOpen (s₁.arena.owner scope)
  rwa [hs.arena.sound.owner_of_not_branch hfound hb]

theorem confined_pushFunction (info : FunctionInfo) :
    Confined R s (onArena fun a => a.pushFunction s.focus.scope info) fun scope s' =>
      scope = ⟨s.arena.size⟩ ∧ s'.arena.scope? scope =
        some { parent := some s.focus.scope, kind := .function info } := by
  rcases s.arena.pushFunction_cases s.focus.scope info with ⟨hrun, _⟩ | ⟨hrun, _⟩
  · exact confined_refused hrun fun _ => G.other _ rfl
  · refine confined_onArena hrun ?_ (fun hs => hs.arena.pushFunction hs.focus info) ?_
    · refine fun _ => .trans (.push _ _) (.modify fun scope _ => ?_)
      exact Scope.touched_of_same ⟨rfl, .refl _, fun _ h => h, fun _ h => h,
        fun key h => Dict.contains_insert _ _ key _ h⟩ rfl rfl fun _ _ => rfl
    · intro hs
      obtain ⟨own, hown, _, _⟩ := hs.arena.sound.owner_spec hs.focus
      have hne : s.arena.owner s.focus.scope ≠ ⟨s.arena.size⟩ := by
        intro heq
        have hlt := Arena.index_lt_size hown
        rw [heq] at hlt
        exact Nat.lt_irrefl _ hlt
      refine ⟨rfl, ?_⟩
      rw [Arena.scope?_modify, if_neg hne, Arena.scope?_push, if_pos rfl]

/-- In its new scope a function has all of its parameters bound, unless two have one name. -/
theorem confined_bindOwnParams {f : Function} (hf : R.Has f) {id : ScopeId} (hopen : R.isOpen id)
    {parent : Option ScopeId} {info : FunctionInfo}
    (hscope : s.arena.scope? id = some { parent, kind := .function info }) {params : List Param}
    (hlength : f.params.length = params.length) :
    Confined R s (bindParams id (f.params.zip params)) fun _ _ => True := by
  have hparams : (f.params.zip params).map Prod.fst = f.params :=
    List.map_fst_zip (Nat.le_of_eq hlength)
  have hids : ∀ param ∈ f.params.zip params, param.1 ∈ f.params := by
    intro param hmem
    rw [← hparams]
    exact List.mem_map_of_mem hmem
  refine confined_bindParams hopen (fun param hmem => hf.params _ (hids param hmem)) ⟨⟨_, hscope, rfl⟩, ?_⟩
  have hnames : (f.params.zip params).map (fun param => param.1.name) =
      f.params.map Identifier.name := by
    rw [← hparams, List.map_map, hparams]
    rfl
  rw [hnames]
  by_cases hnodup : (f.params.map Identifier.name).Nodup
  · refine .inr ⟨hnodup, fun name _ => ?_⟩
    rw [Arena.hasOwnVar, hscope]
    rfl
  · obtain ⟨kind, hmem⟩ := hf.mem
    exact .inl (G.collided ⟨(kind, f), hmem, hnodup⟩)

theorem confined_verifyFunction {v : Visitor} (hv : v.Confines G) {f : Function} (hf : R.Has f)
    (declared : TypeId) (key : String) :
    Confined R s (verifyFunction v f declared key) fun _ _ => True := by
  refine confined_get_bind ?_
  split
  · exact notes_report.confines s
  next shape _ =>
  refine confined_bind (confined_pushFunction _) ?_
  rintro _ s₁ hs hl ⟨rfl, hscope⟩
  simp only
  split
  · exact notes_report.confines s₁
  next hlength =>
  have hopen : R.isOpen ⟨s.arena.size⟩ := hs.fresh _ (Nat.le_refl _)
  refine confined_bind (confined_bindOwnParams hf hopen hscope (Decidable.not_not.mp hlength))
    fun _ s₂ _ hl₂ _ => ?_
  obtain ⟨found, hfound, ht⟩ := hl₂.arena _ _ hscope
  have hb : found.kind.isBranch = false := by
    rw [ht.retained.kind.isBranch_eq]
    rfl
  refine confined_bind (confined_enterBody hv hf ⟨found, hfound, hb⟩ hopen) fun _ s₃ _ _ _ => ?_
  refine confined_get_bind ?_
  split
  · exact (notes_checkBody f _).confines s₃
  · exact confined_pure trivial

theorem confines_verifyDeclared {v : Visitor} (hv : v.Confines G) {f : Function}
    (h : R.Covers (.stmt (.function f))) : Confines R (verifyDeclared v f) := by
  refine confines_get_bind fun s => ?_
  split
  · exact confines_pure _
  split
  · exact fun _ => confined_verifyFunction hv h.declaration _ _
  · exact notes_report.confines

theorem confines_verifyFunctionExpr {v : Visitor} (hv : v.Confines G) {f : Function}
    (h : R.Covers (.expr (.function f))) : Confines R (verifyFunctionExpr v f) := by
  refine confines_get_bind fun s => ?_
  split
  · exact confines_none notes_report.confines
  simp only
  split
  · exact confines_bind (fun _ => confined_verifyFunction hv h.expression _ _) fun _ =>
      confines_pure _
  · exact confines_pure _

/-! ## Functions typed by a call -/

theorem confines_inferParams {v : Visitor} (hv : v.Confines G) {arguments : List Expr}
    (h : ∀ e ∈ arguments, R.Covers (.expr e)) (names : List Identifier) :
    Confines R (inferParams v arguments names) := by
  induction arguments generalizing names with
  | nil => exact confines_pure _
  | cons argument rest ih =>
    refine confines_bind (hv.value (h argument List.mem_cons_self)) fun type => ?_
    cases type with
    | none => exact confines_pure _
    | some type =>
      refine confines_bind (ih (fun e hmem => h e (List.mem_cons_of_mem _ hmem)) _) fun params => ?_
      cases params <;> exact confines_pure _

/-- The type that the arguments suggest is given to the function that was found before them. -/
theorem confined_typeFound {nodes : List Node} {untyped : UntypedFunction} {s₁ : State}
    {type : TypeId} (hname : R.names name) (hs : s.Fits R) (hlookup : s.lookup name = none)
    (hfound : s.arena.getFunction? s.focus.scope name = some untyped)
    (hnested : (∃ n ∈ nodes, G.program.Reaches n name) → G.program.Nests name)
    (htouch : s.arena.Touches (Region.reach G nodes s.arena.size).names
      (Region.reach G nodes s.arena.size).isOpen s₁.arena) :
    Confined R s₁ (onArena fun a => a.updateFunction s.focus.scope name type) fun _ s' =>
      s'.arena.hasOwnVar untyped.definedIn name := by
  obtain ⟨x, hfind, hget⟩ := Arena.find?_of_getFunction? hfound
  have hx := List.mem_of_find?_eq_some hfind
  have hu : x.2.untyped.contains name := by simpa using List.find?_some hfind
  have ho := hs.arena.sound.ordered
  obtain ⟨hscope, -⟩ := ho.mem_chain hx
  obtain ⟨hin, -⟩ := hs.arena.of_get? hscope hget
  have hshut : ∀ x ∈ s.arena.chain s.focus.scope, ¬s.arena.size ≤ x.1.index := by
    intro x hx
    exact Nat.not_le.mpr (Arena.index_lt_size (ho.mem_chain hx).1)
  refine confined_updateFunction hname (fun _ hno => ?_) (fun _ y hy hu hbound => ?_) ?_
  · -- the function is still there unless an argument reaches its name
    refine G.nested name (hnested ?_)
    by_contra hnot
    obtain ⟨y, hy, huntyped⟩ := htouch.exists_untyped ho hs.focus hnot hx hu
    rw [hno y hy] at huntyped
    cases huntyped
  · obtain ⟨x, hx, hold⟩ := htouch.bound_of_both ho hs.focus hshut hy hbound hu
    rw [State.unbound_of_lookup hlookup x hx] at hold
    cases hold
  · intro holder scope hholder
    rw [hin]
    rcases htouch.find?_untyped ho hs.focus hshut hfind with ⟨y, hy, hsame⟩ | hown
    · rw [hholder] at hy
      cases hy
      have hstill := Arena.scope?_of_mem_chainWithin (List.mem_of_find?_eq_some hholder)
      rw [← hsame, Arena.hasOwnVar, Arena.scope?_modify, if_pos rfl, hstill]
      simp [Arena.typeFunction, Dict.contains]
    · have hkept : s₁.arena.Retains (s₁.arena.modify holder (Arena.typeFunction name type)) :=
        .modify fun scope _ => Arena.retained_typeFunction name type scope
      exact hkept.hasOwnVar hown

/-- The body of a function is verified where the function is bound. -/
theorem confined_boundBody {v : Visitor} (hv : v.Confines G) {f : Function}
    (hdeclared : G.program.Declares f) (hname : R.names f.name) {id : ScopeId}
    (hown : s.arena.hasOwnVar id name) (type : TypeId) :
    Confined R s (inScope id (verifyFunction v f type name)) fun _ s' =>
      s'.arena.hasOwnVar id name := by
  have hf : Region.Has { R with inside := False } f :=
    (Region.Covers.declared (R := { R with inside := False }) hdeclared hname).declaration
  obtain ⟨scope, hscope, -⟩ := Arena.exists_of_hasOwnVar hown
  exact confined_withFocus (L := { R with inside := False })
    (fun hs => ⟨hs.arena, Arena.index_lt_size hscope, hs.fresh, False.elim, hs.session⟩)
    (fun _ h => h) (fun _ _ h => h) (confined_verifyFunction hv hf type name)
    fun _ _ hl _ => hl.arena.retains.hasOwnVar hown

/-- A name can be given another type where it is bound. -/
theorem confined_updateOwn {id : ScopeId} {type : TypeId} (hname : R.names name)
    (hown : s.arena.hasOwnVar id name) :
    Confined R s (onArena fun a => a.forceUpdateVar id name type) fun _ _ => True := by
  obtain ⟨scope, hscope, hbound⟩ := Arena.exists_of_hasOwnVar hown
  refine confined_forceUpdateVar hname (fun hs hno => ?_) fun _ _ _ => trivial
  have hself := hno (id, scope) (by
    rw [hs.arena.sound.ordered.chain_eq hscope]
    exact List.mem_cons_self)
  rw [hbound] at hself
  cases hself

theorem Call.confined_infer {v : Visitor} (hv : v.Confines G) {call : Call} {id : Identifier}
    {untyped : UntypedFunction} (hcallee : call.callee = .identifier id)
    (h : R.Covers (.expr (.call call.callee call.arguments call.span)))
    (hlookup : s.lookup id.name = none)
    (hfound : s.arena.getFunction? s.focus.scope id.name = some untyped) :
    Confined R s (call.infer v id.name untyped) fun _ _ => True := by
  refine fun hs => ?_
  suffices hinfer : Confined R s (call.infer v id.name untyped) fun _ _ => True from hinfer hs
  obtain ⟨x, hfind, hget⟩ := Arena.find?_of_getFunction? hfound
  have hscope := Arena.scope?_of_mem_chainWithin (List.mem_of_find?_eq_some hfind)
  obtain ⟨-, hname, hdeclared⟩ := hs.arena.of_get? hscope hget
  have hnamed : R.names id.name :=
    (h.visited (by rw [hcallee]; exact List.mem_cons_self)).identifier
  have hargs : ∀ n ∈ call.arguments.map Node.expr, R.Covers n := by
    intro n hn
    exact h.visited (List.mem_cons_of_mem _ hn)
  have hparams : Confined R s (inferParams v call.arguments untyped.node.params) fun _ s' =>
      s.Leaves (.reach G (call.arguments.map Node.expr) s.arena.size) s' ∧ True := by
    refine Confined.reached hargs (confines_inferParams hv (fun e he => ?_) _ s)
    exact Region.covers_reach (List.mem_map_of_mem he) (hargs _ (List.mem_map_of_mem he)).mem _
  refine confined_bind hparams fun params s₁ _ _ ⟨hl, _⟩ => ?_
  cases params with
  | none => exact confined_pure trivial
  | some params =>
    refine confined_get_bind ?_
    simp only
    refine confined_bind (notes_onTable _).confined
      fun type s₂ _ _ harena => ?_
    rw [hl.focus]
    have hupdate : Confined R s₂ (onArena fun a => a.updateFunction s.focus.scope id.name type)
        fun _ s' => s'.arena.hasOwnVar untyped.definedIn id.name := by
      refine confined_typeFound hnamed hs hlookup hfound ?_ (harena ▸ hl.arena)
      rintro ⟨n, hn, hreach⟩
      obtain ⟨argument, hargument, rfl⟩ := List.mem_map.mp hn
      have hcall := h.mem
      rw [hcallee] at hcall
      exact ⟨argument, Program.mem_argumentsFor hcall hargument, hreach⟩
    refine confined_bind hupdate fun _ s₃ _ _ hown => ?_
    refine confined_bind (confined_boundBody hv hdeclared (hname ▸ hnamed) hown type)
      fun _ s₄ _ _ hown => ?_
    split
    · exact confined_pure trivial
    split
    · refine confined_get_bind (confined_bind (notes_onTable _).confined fun type' s₅ _ _ harena => ?_)
      refine confined_bind (confined_updateOwn hnamed (harena ▸ hown))
        fun _ _ _ _ _ => confined_pure trivial
    · exact confined_pure trivial

end HeaderCheck.Verify
