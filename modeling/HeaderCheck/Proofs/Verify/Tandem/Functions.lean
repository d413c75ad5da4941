import HeaderCheck.Proofs.Types.Growth
import HeaderCheck.Proofs.Verify.Region
import HeaderCheck.Proofs.Verify.Tandem.Notes

/-!
# HeaderCheck.Proofs.Verify.Tandem.Functions

Visits, functions and first calls side by side.

* `Both.At`, `Both.Slots`: what is said of the states when a node is visited.
* `Visitor.Tandem`: what the visitors of the parts of a node must do.
* `tandem_verifyFunction`: a function gets a scope in both runs, with the pairing of its body.
* `Call.matched_infer`: a first call. Where the context decides, it must be the same in both runs.
-/

namespace HeaderCheck.Script

/-- Whether the value of an expression is the same in every slot, apart from functions that are
called in it for the first time. -/
def Expr.Unslotted : Expr → Bool
  | .array .. | .function _ => false
  | .object properties _ => properties.isEmpty
  | .assignment _ left _ _ => left.Unslotted
  | .member owner property computed _ => owner.Unslotted && (!computed || property.Unslotted)
  | .call (.member owner property computed _) _ _ =>
    owner.Unslotted && (!computed || property.Unslotted)
  | .logical _ _ right _ => right.Unslotted
  | .conditional _ consequent alternate _ => consequent.Unslotted && alternate.Unslotted
  | .identifier _ | .literal _ | .this _ | .call .. | .new .. | .binary .. | .unary ..
  | .update .. => true

end HeaderCheck.Script

namespace HeaderCheck.Verify

open HeaderCheck.Project (SessionM)
open HeaderCheck.Scope (Arena FunctionInfo ScopeId UntypedFunction)
open HeaderCheck.Script
open HeaderCheck.Types (FunctionShape Param Table TypeId)

variable {α : Type} {C : Comparison} {p q : Both C} {π : Pairing C.exact} {v v' : Visitor}

/-! ## Visits -/

namespace Both

/-- The nodes of the body at hand have the pairing `π`, and variables may be narrowed in the current
scope. -/
structure At (p : Both C) (π : Pairing C.exact) : Prop where
  world : p.world p.left.owner = π
  narrowing : C.narrowing p.left.focus.scope

theorem After.world_owner (hq : p.After q) : q.world q.left.owner = p.world p.left.owner := by
  rw [hq.owner_eq, hq.world _ hq.before.owner_lt]

theorem At.after (h : p.At π) (hq : p.After q) : q.At π where
  world := hq.world_owner.trans h.world
  narrowing := by
    rw [hq.focus]
    exact h.narrowing

/-- The value at hand goes to the same slot in both runs. -/
def Even (p : Both C) : Prop :=
  p.right.focus.expected = p.left.focus.expected

theorem Even.after (h : p.Even) (hq : p.After q) : q.Even := by
  rw [Even, hq.focus, hq.focus']
  exact h

/-- The context may differ in the function around. -/
def Watched (p : Both C) : Bool :=
  C.watched (p.left.arena.functionScope? p.left.focus.scope)

theorem After.watched_eq (hq : p.After q) : q.Watched = p.Watched := by
  rw [Watched, Watched, hq.focus, hq.functionScope?_eq_of_lt hq.before.inside]

/-- The value of the expression goes to the same slot, or the slot does not matter for it. -/
def Slots (p : Both C) (e : Expr) : Prop :=
  p.Even ∨ e.Unslotted ∧ p.left.focus.expected = none ∧ p.Watched

theorem Slots.after {e : Expr} (h : p.Slots e) (hq : p.After q) : q.Slots e := by
  refine h.imp (fun heven => heven.after hq) fun ⟨hu, hnone, hwatched⟩ => ⟨hu, ?_, ?_⟩
  · rw [hq.focus, hnone]
  · rw [hq.watched_eq, hwatched]

/-- A part that is no more than its whole in the same slot. -/
theorem Slots.part {e part : Expr} (h : p.Slots e) (hpart : e.Unslotted → part.Unslotted) :
    p.Slots part :=
  h.imp_right fun ⟨hu, hrest⟩ => ⟨hpart hu, hrest⟩

/-- The context gives the same in both runs. -/
structure Settled (p : Both C) : Prop where
  even : p.Even
  context : p.left.focus.expected = none → p.Watched = false

theorem Settled.after (h : p.Settled) (hq : p.After q) : q.Settled where
  even := h.even.after hq
  context := by
    rw [hq.focus, hq.watched_eq]
    exact h.context

theorem Twins.contextType?_eq (ht : p.Twins) (h : p.Settled) :
    p.right.contextType? = p.left.contextType? := by
  have heven := h.even
  have hcontext := h.context
  rw [Even] at heven
  simp only [State.contextType?, heven, ht.scope]
  cases hexpected : p.left.focus.expected with
  | some expected => rfl
  | none =>
    rw [ht.arena.returnExpressionType?_eq]
    intro found hfound
    have hwatched := hcontext hexpected
    rwa [Watched, hfound] at hwatched

end Both

/-- What the visitors of the parts of a node must do. -/
structure Visitor.Tandem (C : Comparison) (v v' : Visitor) : Prop where
  expr : ∀ {p : Both C} {π e e'}, p.At π → Expr.Like π e e' → p.Slots e →
    Matched p (v.expr e) (v'.expr e')
  stmt : ∀ {p : Both C} {π stmt stmt'}, p.At π → Stmt.Like π stmt stmt' → p.Even →
    Matched p (v.stmt stmt) (v'.stmt stmt')
  require : ∀ file request, Project.Matched C.exact (v.require file request) (v'.require file request)

theorem tandem_expecting {m m' : Check α} {Q : α → Both C → Prop} (hp : p.At π)
    (expected : Option TypeId)
    (h : ∀ q : Both C, q.At π → q.Even → Matched q m m')
    (hQ : ∀ a q, p.After q → Q a q) :
    Tandem p (expecting expected m) (expecting expected m') Q := by
  refine tandem_withFocus (fun ht => ht.inside) (fun ht => ht.scope) (fun ht => ht.mode)
    (fun ht => ht.isTarget) (h _ ⟨hp.world, hp.narrowing⟩ rfl) fun a q hq _ => hQ a _ hq

namespace Visitor.Tandem

variable (hv : v.Tandem C v')

include hv

theorem expecting (hp : p.At π) {e e' : Expr} (h : Expr.Like π e e') (expected : Option TypeId) :
    Matched p (expecting expected (v.expr e)) (Verify.expecting expected (v'.expr e')) :=
  tandem_expecting hp expected (fun _ hq heven => hv.expr hq h (.inl heven)) fun _ _ _ => trivial

theorem value (hp : p.At π) {e e' : Expr} (h : Expr.Like π e e') :
    Matched p (v.value e) (v'.value e') :=
  hv.expecting hp h none

theorem asRead (hp : p.At π) {e e' : Expr} (h : Expr.Like π e e') (hslot : p.Slots e) :
    Matched p (asRead (v.expr e)) (Verify.asRead (v'.expr e')) :=
  tandem_withFocus (fun ht => ht.inside) (fun ht => ht.scope) (fun _ => rfl) (fun _ => rfl)
    (hv.expr ⟨hp.world, hp.narrowing⟩ h hslot) fun _ _ _ _ => trivial

theorem asTarget (hp : p.At π) {e e' : Expr} (h : Expr.Like π e e') (hslot : p.Slots e) :
    Matched p (asTarget (v.expr e)) (Verify.asTarget (v'.expr e')) :=
  tandem_withFocus (fun ht => ht.inside) (fun ht => ht.scope) (fun _ => rfl) (fun _ => rfl)
    (hv.expr ⟨hp.world, hp.narrowing⟩ h hslot) fun _ _ _ _ => trivial

end Visitor.Tandem

theorem matched_updateFunction (id : ScopeId) (name : String) (type : TypeId) :
    Matched p (onArena fun a => a.updateFunction id name type)
      (onArena fun a => a.updateFunction id name type) :=
  matched_onArena (fun ht => ht.arena.updateFunction id name type)
    fun ht => Arena.onward_updateFunction ht.sound id name type

theorem matched_forceUpdateVar (id : ScopeId) (name : String) (type : TypeId) :
    Matched p (onArena fun a => a.forceUpdateVar id name type)
      (onArena fun a => a.forceUpdateVar id name type) :=
  matched_onArena (fun ht => ht.arena.forceUpdateVar id name type)
    fun ht => Arena.onward_forceUpdateVar ht.sound id name type

theorem matched_bindUntyped? {e e' : Expr} (h : Expr.Like π e e') (expected : TypeId) :
    Matched p (bindUntyped? e expected) (bindUntyped? e' expected) := by
  refine tandem_get_bind fun ht => ?_
  cases h with
  | identifier hname _ =>
    simp only [hname, ht.table_eq, ht.lookup_eq, ht.isUntyped_eq, ht.scope]
    split
    · exact (matched_updateFunction _ _ _).bind fun _ _ _ => tandem_pure trivial
    · exact tandem_pure trivial
  | _ => exact tandem_pure trivial

theorem Visitor.Tandem.into (hv : v.Tandem C v') (hp : p.At π) {e e' : Expr}
    (h : Expr.Like π e e') (expected : Option TypeId) :
    Matched p (v.into e expected) (v'.into e' expected) := by
  cases expected with
  | none => exact hv.value hp h
  | some expected =>
    refine (matched_bindUntyped? h expected).bind fun bound _ hq => ?_
    cases bound with
    | none => exact hv.expecting (hp.after hq) h _
    | some bound => exact tandem_pure trivial

theorem matched_registerFunctions (hp : p.At π) {stmts stmts' : List Stmt}
    (h : StmtsLike π stmts stmts') :
    Matched p (registerFunctions stmts) (registerFunctions stmts') := by
  induction stmts generalizing p stmts' with
  | nil =>
    cases h
    exact tandem_pure trivial
  | cons stmt rest ih =>
    cases h with
    | cons hfirst hothers =>
      cases hfirst with
      | function hfunction hkey =>
        have hname := hfunction.name_eq
        refine tandem_get_bind fun ht => ?_
        rw [hname] at hkey ⊢
        rw [ht.scope]
        refine Matched.bind (matched_onArena ?_ ?_) fun _ q hq => ih (hp.after hq) hothers
        · refine fun ht => ht.arena.addFunction hfunction ?_
          have hworld := hp.world
          rw [State.owner] at hworld
          rwa [hworld]
        · exact fun ht => Arena.onward_addFunction ht.inside _
      | _ =>
        have hrest := ih hp hothers
        exact hrest

namespace Visitor.Tandem

variable (hv : v.Tandem C v')

include hv

theorem inOrder (hp : p.At π) (heven : p.Even) {stmts stmts' : List Stmt}
    (h : StmtsLike π stmts stmts') : Matched p (v.inOrder stmts) (v'.inOrder stmts') := by
  induction stmts generalizing p stmts' with
  | nil =>
    cases h
    exact tandem_pure trivial
  | cons stmt rest ih =>
    cases h with
    | cons hfirst hothers =>
      exact (hv.stmt hp hfirst heven).bind fun _ q hq => ih (hp.after hq) (heven.after hq) hothers

theorem statements (hp : p.At π) (heven : p.Even) {stmts stmts' : List Stmt}
    (h : StmtsLike π stmts stmts') : Matched p (v.statements stmts) (v'.statements stmts') := by
  refine (hv.inOrder hp heven (h.filter fun _ _ hlike => ?_)).bind fun _ _ hq =>
    hv.inOrder (hp.after hq) (heven.after hq) (h.filter fun _ _ hlike => hlike.isFunction_eq)
  rw [hlike.isFunction_eq]

theorem block (hp : p.At π) (heven : p.Even) {stmts stmts' : List Stmt}
    (h : StmtsLike π stmts stmts') : Matched p (v.block stmts) (v'.block stmts') :=
  (matched_registerFunctions hp h).bind fun _ _ hq => hv.statements (hp.after hq) (heven.after hq) h

end Visitor.Tandem

/-! ## Functions -/

theorem State.Owns.after {id : ScopeId} (h : p.left.Owns id) (hq : p.After q) : q.left.Owns id := by
  obtain ⟨scope, hs, hb⟩ := h
  obtain ⟨scope', hs', hg, _⟩ := hq.arena.old id scope hs
  exact ⟨scope', hs', by rw [hg.kind.isBranch_eq, hb]⟩

theorem matched_addVar {id : ScopeId} (hid : p.Twins → p.left.Owns id) (name : String)
    (type : TypeId) :
    Matched p (onArena fun a => a.addVar id name type) (onArena fun a => a.addVar id name type) := by
  refine matched_onArena (fun ht => ht.arena.addVar id name type) fun ht => ?_
  obtain ⟨scope, hs, hb⟩ := hid ht
  exact Arena.onward_addVar hs hb name type

/-- Parameters are bound under the names that the function gives them. -/
theorem matched_bindParams {scope : ScopeId} (hscope : p.left.Owns scope)
    {params params' : List (Identifier × Param)}
    (h : List.Forall₂ (fun x y => y.1.name = x.1.name ∧ y.2 = x.2) params params') :
    Matched p (bindParams scope params) (bindParams scope params') := by
  induction h generalizing p with
  | nil => exact tandem_pure trivial
  | @cons x y _ _ hxy _ ih =>
    obtain ⟨id, param⟩ := x
    obtain ⟨id', param'⟩ := y
    obtain ⟨hname, rfl⟩ := hxy
    dsimp only at hname
    have hbind {q : Both C} (hq : p.After q) (type : TypeId) :=
      (matched_addVar (fun _ => hscope.after hq) id.name type).bind fun _ r hr =>
        ih (hscope.after (hq.trans hr))
    simp only [bindParams, hname]
    split
    · exact (matched_onTable _).bind fun type q hq => hbind hq type
    · simp only [pure_bind]
      exact .of_twins fun ht => hbind (.refl ht) _

/-- The owner at hand has a scope for the function called `key`. -/
def Both.Knows (p : Both C) (owner : ScopeId) (key : String) : Prop :=
  ∃ scope, p.left.arena.scope? owner = some scope ∧ scope.functions.contains key

theorem Both.Knows.after {owner : ScopeId} {key : String} (h : p.Knows owner key) (hq : p.After q) :
    q.Knows owner key := by
  obtain ⟨scope, hs, hknown⟩ := h
  obtain ⟨scope', hs', hg, _⟩ := hq.arena.old owner scope hs
  obtain ⟨id, hid⟩ := Option.isSome_iff_exists.mp hknown
  exact ⟨scope', hs', Option.isSome_iff_exists.mpr ⟨id, hg.functions key id hid⟩⟩

/-- A function gets a scope, which is made for its body. -/
theorem tandem_pushFunction {info info' : FunctionInfo} (within : Pairing C.exact)
    (hinfo : info.Twins C.exact True info')
    (hkey : (p.world p.left.owner).Pairs info.name info'.name)
    (hfresh : info'.name = info.name ∨ p.left.hasFunctionScope info.name = false) :
    Tandem p (onArena fun a => a.pushFunction p.left.focus.scope info)
      (onArena fun a => a.pushFunction p.left.focus.scope info') fun id q =>
        C.narrowing id ∧ q.world id = within ∧ q.left.Owns id ∧ q.Knows p.left.owner info.name := by
  intro ht
  have howner := ht.owner_lt
  let world : Scope.World C.exact := fun id => if id.index = p.left.arena.size then within else p.world id
  have hworld : ∀ id : ScopeId, id.index < p.left.arena.size → world id = p.world id :=
    fun id hid => if_neg (Nat.ne_of_lt hid)
  have htwins : p.left.arena.Twins C.SameReturn world p.right.arena := ht.arena.agree ht.sound hworld
  rw [← hworld _ howner] at hkey
  obtain ⟨hresult, hafter⟩ := htwins.pushFunction p.left.focus.scope hinfo hkey hfresh
  refine .inr ⟨((p.left.arena.pushFunction p.left.focus.scope info).1).mapError .scope,
    p.withArenas world _ _, run_onArena _ _, ?_,
    ht.after_withArenas hworld (Arena.onward_pushFunction ht.inside ht.sound info) hafter, ?_⟩
  · rw [run_onArena, hresult]
    rfl
  intro id hid
  rcases p.left.arena.pushFunction_cases p.left.focus.scope info with ⟨hrun, _⟩ | ⟨hrun, _⟩
  · rw [hrun] at hid
    cases hid
  rw [hrun] at hid
  cases hid
  obtain ⟨own, hown, _, _⟩ := ht.sound.owner_spec ht.inside
  have hne : p.left.arena.owner p.left.focus.scope ≠ ⟨p.left.arena.size⟩ := by
    intro heq
    rw [State.owner, heq] at howner
    exact Nat.lt_irrefl _ howner
  refine ⟨ht.fresh _ (Nat.le_refl _), if_pos rfl, ?_, ?_⟩
  · refine ⟨{ parent := some p.left.focus.scope, kind := .function info }, ?_, rfl⟩
    simp only [Both.withArenas, hrun, Arena.scope?_modify, if_neg hne, Arena.scope?_push, if_true]
  · refine ⟨{ own with functions := own.functions.insert info.name ⟨p.left.arena.size⟩ }, ?_, ?_⟩
    · simp only [Both.withArenas, hrun, Arena.scope?_modify, State.owner, if_true,
        Arena.scope?_push_of_some _ hown, Option.map_some]
    · simp [Dict.contains]

theorem matched_enterBody (hv : v.Tandem C v') {f f' : Function} {within : Pairing C.exact}
    (hf : Function.Like within f f') {scope : ScopeId} (hworld : p.world scope = within)
    (hnarrowing : C.narrowing scope) (hscope : p.left.Owns scope) (heven : p.Even) :
    Matched p (enterBody v f scope) (enterBody v' f' scope) := by
  have hbody := hf.body
  have henter : Matched p
      (modify fun s => { s with entered := (scope, f) :: s.entered } : Check Unit)
      (modify fun s => { s with entered := (scope, f') :: s.entered }) :=
    matched_modify (fun ht => { ht with }) rfl ⟨rfl, rfl, rfl⟩ ⟨rfl, rfl, rfl⟩
  refine henter.bind fun _ q hq => .of_twins fun ht => ?_
  obtain ⟨found, hfound, hb⟩ := hscope.after hq
  have hinside := Arena.index_lt_size hfound
  have hlt : scope.index < p.left.arena.size := by
    obtain ⟨old, hold, _⟩ := hscope
    exact Arena.index_lt_size hold
  let r := q.refocus { q.left.focus with scope } { q.right.focus with scope }
  have hr : r.At within := by
    refine ⟨?_, hnarrowing⟩
    change q.world (q.left.arena.owner scope) = within
    rw [ht.sound.owner_of_not_branch hfound hb, hq.world scope hlt, hworld]
  have hblock : Matched r (v.block f.body) (v'.block f'.body) :=
    hv.block hr (show q.Even from heven.after hq) hbody
  exact tandem_withFocus (fun _ => hinside) (fun _ => rfl) (fun ht => ht.mode)
    (fun ht => ht.isTarget) hblock fun _ _ _ _ => trivial

/-- A function gets a scope in both runs or is refused one in both. -/
theorem tandem_verifyFunction (hv : v.Tandem C v') {f f' : Function} {within : Pairing C.exact}
    (hf : Function.Like within f f') (declared : TypeId) {key key' : String}
    (hkey : (p.world p.left.owner).Pairs key key')
    (hfresh : key' = key ∨ p.left.hasFunctionScope key = false) (heven : p.Even) :
    Tandem p (verifyFunction v f declared key) (verifyFunction v' f' declared key') fun _ q =>
      (p.left.table.functionShape? declared).isSome → q.Knows p.left.owner key := by
  have hname := hf.name_eq
  have hplace := hf.place
  have hlength := hf.length_params
  have hequal := fun hexact => (p.world p.left.owner).equal hexact hkey
  refine tandem_get_bind fun ht => ?_
  simp only [ht.table_eq, ht.format_eq, ht.scope, hname, hlength]
  cases p.left.table.functionShape? declared with
  | none => exact (matched_report_same hplace).mono fun _ _ _ _ => nofun
  | some shape =>
    simp only
    refine tandem_bind (tandem_pushFunction within ⟨rfl, rfl, rfl, rfl, rfl, rfl, hequal,
      fun _ => rfl, fun _ => rfl⟩ hkey hfresh) fun id q hq ⟨hnarrowing, hworld, hscope, hknows⟩ => ?_
    split
    · exact (matched_reportArity hplace (fun _ => rfl) _ _).mono fun _ r hr _ _ => hknows.after hr
    · refine Matched.bind (matched_bindParams hscope (hf.params_rel _)) fun _ q₁ hq₁ => ?_
      have hlt : id.index < q.left.arena.size := by
        obtain ⟨found, hfound, _⟩ := hscope
        exact Arena.index_lt_size hfound
      have hworld₁ : q₁.world id = within := by rw [hq₁.world id hlt, hworld]
      refine Matched.bind (matched_enterBody hv hf hworld₁ hnarrowing (hscope.after hq₁)
        (heven.after (hq.trans hq₁))) fun _ q₂ hq₂ => tandem_get_bind fun ht₂ => ?_
      have hknows₂ := hknows.after (hq₁.trans hq₂)
      have hinfo := ht₂.arena.functionInfo?_rel id
      generalize q₂.left.arena.functionInfo? id = info at hinfo
      generalize q₂.right.arena.functionInfo? id = info' at hinfo
      cases hinfo with
      | none => exact tandem_pure fun _ => hknows₂
      | some hinfo => exact (matched_checkBody hf hinfo).mono fun _ r hr _ _ => hknows₂.after hr

theorem Both.Twins.hasFunctionScope_eq (ht : p.Twins) {key key' : String}
    (hkey : (p.world p.left.owner).Pairs key key') :
    p.right.hasFunctionScope key' = p.left.hasFunctionScope key := by
  rw [State.hasFunctionScope, State.hasFunctionScope, ht.owner_eq, ht.arena.hasFunction_eq hkey]

theorem matched_verifyDeclared (hv : v.Tandem C v') (hp : p.At π) (heven : p.Even)
    {f f' : Function} {within : Pairing C.exact} (hf : Function.Like within f f')
    (hkey : π.Pairs f.name f'.name) : Matched p (verifyDeclared v f) (verifyDeclared v' f') := by
  have hplace := hf.place
  rw [← hp.world, hf.name_eq] at hkey
  refine tandem_get_bind fun ht => ?_
  simp only [hf.name_eq, ht.hasFunctionScope_eq hkey, ht.declaredType_eq]
  split
  · exact tandem_pure trivial
  cases p.left.declaredType f.name with
  | some declared => exact (tandem_verifyFunction hv hf declared hkey (.inl rfl) heven).ignore
  | none => exact matched_reportUntypedFunction hplace _

theorem matched_verifyFunctionExpr (hv : v.Tandem C v') (hp : p.At π) (hsettled : p.Settled)
    {f f' : Function} {within : Pairing C.exact} (hf : Function.Like within f f')
    (hkey : π.Pairs (expressionKey f) (expressionKey f')) :
    Matched p (verifyFunctionExpr v f) (verifyFunctionExpr v' f') := by
  have hplace := hf.place
  rw [← hp.world] at hkey
  refine tandem_get_bind fun ht => ?_
  simp only [ht.contextType?_eq hsettled, ht.table_eq, ht.hasFunctionScope_eq hkey, hf.name_eq]
  cases p.left.contextType?.filter p.left.table.isFunction with
  | none => exact (matched_reportUntypedFunction hplace _).noResult
  | some declared =>
    simp only
    split
    · next hfresh =>
      have hfresh' : p.left.hasFunctionScope (expressionKey f) = false := by simpa using hfresh
      exact (tandem_verifyFunction hv hf declared hkey (.inr hfresh') hsettled.even).ignore.bind
        fun _ _ _ => tandem_pure trivial
    · exact tandem_pure trivial

/-! ## Functions typed by a call -/

theorem matched_inferParams (hv : v.Tandem C v') (hp : p.At π) {arguments arguments' : List Expr}
    (h : ExprsLike π arguments arguments') {names names' : List Identifier}
    (hnames : names'.map Identifier.name = names.map Identifier.name) :
    Matched p (inferParams v arguments names) (inferParams v' arguments' names') := by
  induction arguments generalizing p arguments' names names' with
  | nil =>
    cases h
    exact tandem_pure trivial
  | cons argument rest ih =>
    cases h with
    | cons hfirst hothers =>
      have hhead : (names'.head?.map fun id => id.name) = names.head?.map fun id => id.name := by
        simpa using congrArg List.head? hnames
      have htail : names'.tail.map Identifier.name = names.tail.map Identifier.name := by
        simpa using congrArg List.tail hnames
      simp only [inferParams, hhead]
      refine (hv.value hp hfirst).bind_some rfl rfl fun type q hq => ?_
      exact (ih (hp.after hq) hothers htail).bind_some rfl rfl fun _ _ _ => tandem_pure trivial

/-- What the return statements of a function have shown is the same, once it has a scope. -/
theorem Both.Twins.returned_eq (ht : p.Twins) {name : String} {untyped untyped' : UntypedFunction}
    (hin : untyped'.definedIn = untyped.definedIn) (hknows : p.Knows untyped.definedIn name)
    (hkey : (p.world untyped.definedIn).Pairs name name) :
    p.right.returned untyped' name = p.left.returned untyped name := by
  obtain ⟨scope, hs, hknown⟩ := hknows
  simp only [State.returned, hin, ht.arena.knownFunction?_eq ht.sound.ordered hs hknown hkey]
  cases p.left.arena.knownFunction? untyped.definedIn name with
  | none => rfl
  | some found =>
    have hrel := ht.arena found
    simp only [Option.bind_some]
    generalize p.left.arena.scope? found = x at hrel
    generalize p.right.arena.scope? found = y at hrel
    cases hrel with
    | none => rfl
    | @some own own' htwins =>
      have hkind := htwins.kind
      obtain ⟨_, kind, _, _, _, _⟩ := own
      obtain ⟨_, kind', _, _, _, _⟩ := own'
      cases hkind with
      | file _ => rfl
      | branch _ => rfl
      | function hinfo => exact congrArg (fun type => type.getD .void) hinfo.knownReturnType

theorem Call.matched_infer (hv : v.Tandem C v') (hp : p.At π) (hsettled : p.Settled)
    {call call' : Call} (hcall : call.Like π call') {name : String}
    {untyped untyped' : UntypedFunction} (htwins : untyped.Twins p.world name untyped')
    (howns : p.left.Owns untyped.definedIn) :
    Matched p (call.infer v name untyped) (call'.infer v' name untyped') := by
  obtain ⟨hin, ⟨within, hf⟩, hkey⟩ := htwins
  simp only [Call.infer, hin, hf.length_params, hcall.arguments.length_eq]
  refine (matched_inferParams hv hp hcall.arguments hf.params_eq).bind_some rfl rfl
    fun params q hq => tandem_get_bind fun ht => ?_
  simp only [ht.contextType?_eq (hsettled.after hq), ht.scope]
  generalize q.left.contextType?.getD .unknownReturn = result
  refine tandem_bind (tandem_onTable _) fun type q₁ hq₁ ⟨htype, htable, _⟩ => ?_
  have hupdate : Tandem q₁
      (onArena fun a => a.updateFunction q.left.focus.scope name type)
      (onArena fun a => a.updateFunction q.left.focus.scope name type)
      fun _ r => r.left.table = q₁.left.table :=
    tandem_onArena (fun ht => ht.arena.updateFunction _ name type)
      (fun ht => Arena.onward_updateFunction ht.sound _ name type) fun _ _ _ => rfl
  refine tandem_bind hupdate fun _ q₂ hq₂ htable₂ => ?_
  have hafter₂ := (hq.trans hq₁).trans hq₂
  have hlt : untyped.definedIn.index < p.left.arena.size := by
    obtain ⟨scope, hs, _⟩ := howns
    exact Arena.index_lt_size hs
  have hkey₂ : (q₂.world untyped.definedIn).Pairs name name := by rwa [hafter₂.world _ hlt]
  have hshape : (q₂.left.table.functionShape? type).isSome := by
    rw [htable₂, htable, htype, Table.functionShape?_function]
    rfl
  have hbody : Tandem q₂ (inScope untyped.definedIn (verifyFunction v untyped.node type name))
      (inScope untyped.definedIn (verifyFunction v' untyped'.node type name))
      fun _ r => r.Knows untyped.definedIn name := by
    refine .of_twins fun ht₂ => ?_
    obtain ⟨found, hfound, hb⟩ := howns.after hafter₂
    have howner : q₂.left.arena.owner untyped.definedIn = untyped.definedIn :=
      ht₂.sound.owner_of_not_branch hfound hb
    let r := q₂.refocus { q₂.left.focus with scope := untyped.definedIn }
      { q₂.right.focus with scope := untyped.definedIn }
    have hkey' : (r.world r.left.owner).Pairs name name := by
      change (q₂.world (q₂.left.arena.owner untyped.definedIn)).Pairs name name
      rwa [howner]
    have hverify := tandem_verifyFunction (p := r) hv hf type hkey' (.inl rfl)
      (show q₂.Even from hsettled.even.after hafter₂)
    refine tandem_withFocus (fun _ => Arena.index_lt_size hfound) (fun _ => rfl) (fun ht => ht.mode)
      (fun ht => ht.isTarget) hverify fun _ q₃ _ hknows => ?_
    have hknown := hknows hshape
    change q₃.Knows (q₂.left.arena.owner untyped.definedIn) name at hknown
    rwa [howner] at hknown
  refine tandem_bind hbody fun _ q₃ hq₃ hknows => ?_
  split
  · exact tandem_pure trivial
  split
  · refine tandem_get_bind fun ht₃ => ?_
    have hlt₂ := Nat.lt_of_lt_of_le hlt hafter₂.arena.size_le
    rw [ht₃.returned_eq hin hknows (by rwa [hq₃.world _ hlt₂])]
    refine (matched_onTable _).bind fun type' _ _ => ?_
    exact (matched_forceUpdateVar _ _ _).bind fun _ _ _ => tandem_pure trivial
  · exact tandem_pure trivial

end HeaderCheck.Verify
