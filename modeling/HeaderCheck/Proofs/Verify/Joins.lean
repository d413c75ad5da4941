import HeaderCheck.Proofs.Verify.Assigned
import HeaderCheck.Proofs.Verify.Context
import HeaderCheck.Proofs.Verify.Narrowing

/-!
# HeaderCheck.Proofs.Verify.Joins

What is known of a variable where the arms of a statement come together.

* `Join`: an `if`, a `while` or a `for`, and its parts in the order in which they are verified.
* `State.Proceeds`: a run that narrows variables in given scopes only.
* `State.Opened`: the two arms of a statement, as they are before, while and after they are
  verified.
* `State.TakesOver`: what an `if` takes over from its arms.
* `State.Declares`, `State.LastAssigned`: the assigned values that a declared type accepts, and the one
  that an arm leaves a variable at.
* `reads_after_join`: after the statement a variable is read at its declared type, at the one that both
  arms leave it at, or as it was narrowed before.
-/

namespace HeaderCheck.Scope.Arena

open HeaderCheck.Types (TypeId)

variable {a b : Arena} {id : ScopeId} {name : String} {narrowing : ScopeId → Prop}

/-! ## Narrowed names -/

/-- What a scope itself narrows a name to. -/
def narrowed? (a : Arena) (id : ScopeId) (name : String) : Option TypeId :=
  (a.scope? id).bind fun scope => scope.restrictions.get? name

theorem narrowed?_eq_some {scope : Scope} {type : TypeId} (hs : a.scope? id = some scope)
    (h : scope.restrictions.get? name = some type) : a.narrowed? id name = some type := by
  rw [narrowed?, hs, Option.bind_some, h]

theorem narrowed?_congr (h : a.scope? id = b.scope? id) : a.narrowed? id name = b.narrowed? id name := by
  rw [narrowed?, narrowed?, h]

theorem mem_restrictions_of_narrowed? {type : TypeId} (h : a.narrowed? id name = some type) :
    (name, type) ∈ a.restrictions id := by
  obtain ⟨scope, hs, hget⟩ := Option.bind_eq_some_iff.mp h
  rw [restrictions, hs]
  exact Dict.mem_entries_of_get? hget

theorem not_mem_restrictions (h : a.narrowed? id name = none) (type : TypeId) :
    (name, type) ∉ a.restrictions id := by
  intro hmem
  rw [restrictions] at hmem
  split at hmem
  · next scope hs =>
    rw [narrowed?, hs, Option.bind_some, Dict.get?_eq_none_iff] at h
    exact h (List.mem_map.mpr ⟨_, hmem, rfl⟩)
  · exact List.not_mem_nil hmem

theorem Distinct.narrowed?_of_mem (hd : a.Distinct id) {type : TypeId}
    (hmem : (name, type) ∈ a.restrictions id) : a.narrowed? id name = some type := by
  obtain ⟨scope, hs, hget⟩ := hd.get?_of_mem hmem
  exact narrowed?_eq_some hs hget

/-- What a scope itself narrows a name to is read there. -/
theorem getVar_of_narrowed? {type : TypeId} (ho : a.Ordered) (h : a.narrowed? id name = some type)
    (globals : Globals) : a.getVar globals id name .normal = some type := by
  obtain ⟨scope, hs, hget⟩ := Option.bind_eq_some_iff.mp h
  rw [getVar, ho.chain_eq hs, List.findSome?_cons]
  simp only [ownType?, hget, Option.some_or]

/-- A narrowed name has a type. -/
theorem getVar_of_narrows (h : a.narrows id name = true) (globals : Globals) :
    ∃ type, a.getVar globals id name .normal = some type := by
  rw [narrows] at h
  split at h
  · next found scope hfind =>
    obtain ⟨type, htype⟩ := Option.isSome_iff_exists.mp h
    obtain ⟨first, hfirst⟩ := Option.isSome_iff_exists.mp
      (List.findSome?_isSome_iff (f := fun x => ownType? x.2 name .normal) |>.mpr
        ⟨_, List.mem_of_find?_eq_some hfind, by simp [ownType?, htype]⟩)
    exact ⟨first, by rw [getVar, hfirst]⟩
  · cases h

theorem tells_eq_false {scope scope' : Scope} (hg : Grown scope scope')
    (hr : scope'.restrictions = scope.restrictions) (h : tells name scope' = false) :
    tells name scope = false := by
  obtain ⟨hrestrictions, hidentifiers⟩ := Bool.or_eq_false_iff.mp h
  rw [tells, ← hr, hrestrictions, Bool.false_or]
  exact Bool.eq_false_iff.mpr fun hbound => by
    rw [hg.identifiers name hbound] at hidentifiers
    cases hidentifiers

/-- Where no scope in sight is narrowed, all of them keep their narrowed types. -/
theorem Onward.sight_rel (h : Onward narrowing a b) (ho : a.Ordered) (hid : id.index < a.size)
    (hout : ∀ other : ScopeId, other.index ≤ id.index → ¬narrowing other) :
    List.Forall₂ (fun x y => Grown x.2 y.2 ∧ y.2.restrictions = x.2.restrictions)
      (a.chain id) (b.chain id) := by
  have hold : ∀ other scope, a.scope? other = some scope → ∃ scope', b.scope? other = some scope' ∧
      scope'.parent = scope.parent ∧ Grown scope scope' ∧
        (narrowing other ∨ scope'.restrictions = scope.restrictions) := by
    intro other scope hs
    obtain ⟨scope', hs', hg, hr⟩ := h.old other scope hs
    exact ⟨scope', hs', hg.parent, hg, hr⟩
  have hout' : ∀ x ∈ a.chain id, ¬narrowing x.1 := fun x hx => hout x.1 (ho.mem_chain hx).2
  refine ((List.forall₂_and_left _ _).mpr ⟨hout', ho.chain_rel hold hid⟩).imp ?_
  rintro x y ⟨hnot, -, hg, hr⟩
  exact ⟨hg, hr.resolve_left hnot⟩

/-- Where no scope in sight is narrowed, a name that is narrowed afterwards was so before, and is
read as it was. -/
theorem Onward.narrowed_before (h : Onward narrowing a b) (ho : a.Ordered) (hid : id.index < a.size)
    (hout : ∀ other : ScopeId, other.index ≤ id.index → ¬narrowing other)
    (hnarrows : b.narrows id name = true) (globals : Globals) :
    a.narrows id name = true ∧
      b.getVar globals id name .normal = a.getVar globals id name .normal := by
  have hrel := h.sight_rel ho hid hout
  suffices hfirst : a.narrows id name = true ∧
      (b.chain id).findSome? (fun x => ownType? x.2 name .normal) =
        (a.chain id).findSome? fun x => ownType? x.2 name .normal by
    rw [getVar, getVar, hfirst.2]
    exact ⟨hfirst.1, rfl⟩
  unfold narrows at hnarrows ⊢
  generalize a.chain id = chain at hrel
  generalize b.chain id = chain' at hnarrows hrel
  induction hrel with
  | nil => cases hnarrows
  | @cons x y _ _ hxy _ ih =>
    obtain ⟨hg, hr⟩ := hxy
    rw [List.find?_cons] at hnarrows ⊢
    rw [List.findSome?_cons, List.findSome?_cons]
    cases htells' : tells name y.2 with
    | true =>
      -- the scope that tells of the name now narrowed it before, too
      rw [htells'] at hnarrows
      have hnarrowed : x.2.restrictions.contains name = true := hr ▸ hnarrows
      obtain ⟨type, htype⟩ := Option.isSome_iff_exists.mp hnarrowed
      have htells : tells name x.2 = true := by rw [tells, hnarrowed, Bool.true_or]
      rw [htells]
      simp [ownType?, hr, htype, hnarrowed]
    | false =>
      rw [htells'] at hnarrows
      have htells := tells_eq_false hg hr htells'
      have hnone {scope : Scope} (h : tells name scope = false) :
          ownType? scope name .normal = none := by
        simp only [tells, Dict.contains, Bool.or_eq_false_iff, Option.isSome_eq_false_iff,
          Option.isNone_iff_eq_none] at h
        simp [ownType?, h]
      rw [htells, hnone htells, hnone htells']
      exact ih hnarrows

theorem narrowScope_eq (hname : name ≠ thisName) (type : TypeId) :
    narrowScope name type = fun scope =>
      { scope with restrictions := scope.restrictions.insert name type } := by
  funext scope
  rw [narrowScope, if_neg hname]

/-- A scope narrows a name, or refuses to. -/
theorem restrict_eq_ok {scope : Scope} {type : TypeId} (hs : a.scope? id = some scope)
    (hname : name ≠ thisName) (h : a.restrict id name type = (.ok (), b)) :
    b = a.modify id (narrowScope name type) := by
  rw [narrowScope_eq hname]
  simp only [restrict, hs, if_neg hname] at h
  split at h
  · exact (Prod.mk.inj h).2.symm
  · split at h
    · cases h
    · exact (Prod.mk.inj h).2.symm

/-- Other names are not touched when a scope narrows one. -/
theorem touches_narrowScope (hname : name ≠ thisName) (type : TypeId) :
    a.Touches (fun other => other = name) (fun _ => False) (a.modify id (narrowScope name type)) := by
  have htouched (scope : Scope) : Touched (fun other => other = name) False scope
      { scope with restrictions := scope.restrictions.insert name type } := by
    refine touched_restrict ?_ scope type
    rfl
  refine .modify fun scope _ => ?_
  rw [narrowScope, if_neg hname]
  exact htouched scope

/-- A name has the declared type that it is bound to last. -/
theorem getVar_writable_bindVar {holder : ScopeId} {scope : Scope} (ho : a.Ordered)
    (hid : id.index < a.size)
    (hfind : (a.chain id).find? (fun x => x.2.identifiers.contains name) = some (holder, scope))
    (globals : Globals) (type : TypeId) :
    (a.bindVar holder name type).getVar globals id name .writable = some type := by
  have hrel := ho.chain_rel (fun _ _ hs => binds_bindVar a holder name type hs) hid
  have hfirst : ((a.bindVar holder name type).chain id).findSome?
      (fun x => ownType? x.2 name .writable) = some type := by
    generalize a.chain id = chain at hfind hrel
    generalize (a.bindVar holder name type).chain id = chain' at hrel
    induction hrel with
    | nil => cases hfind
    | @cons x y _ _ hxy _ ih =>
      obtain ⟨-, -, hidentifiers⟩ := hxy
      rw [List.find?_cons] at hfind
      rw [List.findSome?_cons]
      by_cases hholder : x.1 = holder
      · simp [ownType?, hidentifiers, hholder]
      · rw [if_neg hholder] at hidentifiers
        cases hbound : x.2.identifiers.contains name with
        | true =>
          rw [hbound] at hfind
          cases hfind
          exact absurd rfl hholder
        | false =>
          rw [hbound] at hfind
          have hnone : x.2.identifiers.get? name = none := by simpa [Dict.contains] using hbound
          simpa [ownType?, hidentifiers, hnone] using ih hfind
  rw [getVar, hfirst]

end HeaderCheck.Scope.Arena

namespace HeaderCheck.Verify

open HeaderCheck.Project (Error Session SessionM)
open HeaderCheck.Scope (Arena ScopeId)
open HeaderCheck.Scope.Arena (Attempt)
open HeaderCheck.Script
open HeaderCheck.Types (Table TypeId)
open Relation (ReflTransGen)

variable {α : Type} {v : Visitor} {s s' : State} {name : String} {narrowing : ScopeId → Prop}
  {holds fails : ScopeId}

/-! ## Statements with two arms -/

/-- A statement whose arms are verified in branches of the current scope. -/
inductive Join where
  | branch (test : Expr) (consequent : Stmt) (alternate : Option Stmt)
  | whileLoop (test : Expr) (body : Stmt)
  | forLoop (init : Option ForInit) (test update : Option Expr) (body : Stmt)

namespace Join

def stmt (span : Span) : Join → Stmt
  | .branch test consequent alternate => .branch test consequent alternate span
  | .whileLoop test body => .whileLoop test body span
  | .forLoop init test update body => .forLoop init test update body span

/-- Whether something is taken over from the arms. -/
def merges : Join → Bool
  | .branch .. => true
  | .whileLoop .. | .forLoop .. => false

/-- What is verified before the arms are opened. -/
def before (v : Visitor) : Join → Check Unit
  | .forLoop init _ _ _ => verifyForInit v init
  | .branch test _ _ | .whileLoop test _ => do
    let _ ← v.value test

/-- What is verified in the current scope while the arms are open. -/
def between (v : Visitor) : Join → Check Unit
  | .branch .. | .whileLoop .. | .forLoop _ none _ _ => return ()
  | .forLoop _ (some test) _ _ => do
    let _ ← v.value test

/-- All that is verified before the arms are, and the two arms. -/
def head (v : Visitor) (join : Join) : Check (ScopeId × ScopeId) := do
  join.before v
  let holds ← openBranch
  let fails ← openBranch
  join.between v
  return (holds, fails)

/-- What is verified in the arms. -/
def arms (v : Visitor) (holds fails : ScopeId) : Join → Check Unit
  | .branch test consequent alternate => do
    narrow test holds fails
    inScope holds (v.stmt consequent)
    match alternate with
    | some alternate => inScope fails (v.stmt alternate)
    | none => pure ()
  | .whileLoop test body => do
    narrow test holds fails
    inScope holds (v.stmt body)
  | .forLoop _ test update body => do
    match test with
    | some test => narrow test holds fails
    | none => pure ()
    inScope holds do
      v.stmt body
      match update with
      | some update =>
        let _ ← v.value update
      | none => pure ()

/-- What is done after the arms. -/
def merge (holds fails : ScopeId) (join : Join) : Check Unit :=
  if join.merges then mergeArms holds fails else return ()

theorem verifyStmt_eq (v : Visitor) (span : Span) (join : Join) :
    verifyStmt v (join.stmt span) = (do
      let (holds, fails) ← join.head v
      join.arms v holds fails
      join.merge holds fails) := by
  cases join with
  | branch test consequent alternate =>
    cases alternate <;>
      simp [stmt, verifyStmt, verifyIf, openArms, head, before, between, arms, merge, merges]
  | whileLoop test body =>
    simp [stmt, verifyStmt, verifyWhile, openArms, head, before, between, arms, merge, merges]
  | forLoop init test update body =>
    cases test <;> cases update <;>
      simp [stmt, verifyStmt, verifyFor, head, before, between, arms, merge, merges]

end Join

/-! ## Runs by themselves -/

/-- A run and itself. Variables are narrowed in given scopes only. -/
def Comparison.alone (narrowing : ScopeId → Prop) : Comparison where
  exact := True
  watched := fun _ => false
  narrowing

/-- A state and itself. -/
def Both.alone (narrowing : ScopeId → Prop) (s : State) : Both (.alone narrowing) where
  world := fun _ => .same True
  left := s
  right := s

theorem twins_alone (hs : s.arena.Sound) (hinside : s.focus.scope.index < s.arena.size)
    (hnew : ∀ id : ScopeId, s.arena.size ≤ id.index → narrowing id) :
    (Both.alone narrowing s).Twins where
  sound := hs
  inside := hinside
  fresh := hnew
  session := .refl True _
  path := rfl
  source := fun _ => rfl
  arena := twins_self _ _
  fileScope := rfl
  scope := rfl
  mode := rfl
  isTarget := rfl
  diagnostics := List.forall₂_same.mpr fun _ _ => ⟨rfl, fun _ => rfl⟩
  exports := rfl
  unknown := rfl
  dependencies := rfl

/-- Requires leave the global names alone. -/
def Contract.globals : Contract where
  Leads := fun s s' => s'.globals = s.globals
  Ready := fun _ _ => True
  refl := fun _ => rfl
  trans := fun h h' => h'.trans h
  table := fun _ _ => rfl
  stable := fun _ _ => trivial

/-- What is used of the visitor of the parts of a statement. -/
structure Visitor.Alone (v : Visitor) : Prop where
  tandem : ∀ narrowing, v.Tandem (.alone narrowing) v
  frames : v.Frames .globals

theorem alone_visitor {require : (file request : String) → SessionM Required}
    (hrequire : ∀ file request session,
      ((require file request).run session).2.globals = session.globals) (fuel : Nat) :
    (visitor require fuel).Alone where
  tandem := fun narrowing => tandem_visitor (C := .alone narrowing) (fun _ => rfl)
    (fun file request => Project.matched_self (require file request)) fuel
  frames := frames_visitor ⟨hrequire, fun _ _ _ _ _ _ => trivial⟩ fuel

/-- A run that narrows variables in given scopes only. -/
structure State.Proceeds (narrowing : ScopeId → Prop) (s s' : State) : Prop where
  arena : s.arena.Onward narrowing s'.arena
  focus : s'.focus = s.focus
  globals : s'.session.globals = s.session.globals
  attempts : ReflTransGen Attempt s.arena s'.arena

theorem State.Proceeds.trans {s₁ : State} (h : s.Proceeds narrowing s₁)
    (h' : s₁.Proceeds narrowing s') : s.Proceeds narrowing s' where
  arena := h.arena.trans h'.arena
  focus := h'.focus.trans h.focus
  globals := h'.globals.trans h.globals
  attempts := h.attempts.trans h'.attempts

theorem proceeds_of_matched {m : Check α} {a : α} (hs : s.arena.Sound)
    (hinside : s.focus.scope.index < s.arena.size)
    (hnew : ∀ id : ScopeId, s.arena.size ≤ id.index → narrowing id)
    (hmatched : Matched (Both.alone narrowing s) m m) (hframes : Frames .globals m)
    (hrun : m.run s = (.ok a, s')) : s.Proceeds narrowing s' := by
  have hframed := hframes s
  rw [hrun] at hframed
  rcases hmatched (twins_alone hs hinside hnew) with ⟨-, ⟨_, hwatched⟩, -⟩ | ⟨_, q, hleft, -, hq, -⟩
  · cases hwatched
  · have hend : q.left = s' := congrArg Prod.snd (hleft.symm.trans hrun)
    exact ⟨hend ▸ hq.arena, hframed.focus, hframed.session, hframed.attempts⟩

/-- So does the value of an assignment. -/
theorem proceeds_into (hv : v.Alone) (hs : s.arena.Sound) (hinside : s.focus.scope.index < s.arena.size)
    {right : Expr} {expected result : Option TypeId}
    (hrun : (v.into right expected).run s = (.ok result, s')) : s.Proceeds (fun _ => True) s' := by
  have hp : (Both.alone (fun _ => True) s).At (.same True) := ⟨rfl, trivial⟩
  exact proceeds_of_matched hs hinside (fun _ _ => trivial)
    ((hv.tandem _).into hp (.refl True right) expected) (hv.frames.into right expected) hrun

/-- What is verified in a branch leaves it a branch. -/
theorem Framed.inBranch {C : Contract} {run : Except Error α × State} (h : Framed C s run)
    (hb : s.inBranch) : run.2.inBranch := by
  obtain ⟨scope, hscope, hbranch⟩ := Option.any_eq_true _ _ |>.mp hb
  obtain ⟨scope', hscope', hr⟩ := Arena.retains_of_attempts h.attempts _ scope hscope
  rw [State.inBranch, h.focus, hscope']
  exact hr.kind.isBranch_eq.trans hbranch

/-! ## Open arms -/

/-- A branch of the current scope is open. -/
structure State.OpenArm (s : State) (arm : ScopeId) : Prop where
  isArm : s.HasArm arm
  distinct : s.arena.Distinct arm

/-- The two arms of a statement are open. -/
structure State.Opened (s : State) (holds fails : ScopeId) : Prop where
  sound : s.arena.Sound
  holds : s.OpenArm holds
  fails : s.OpenArm fails

namespace State

theorem OpenArm.proceeds {arm : ScopeId} (ha : s.OpenArm arm) (h : s.Proceeds narrowing s') :
    s'.OpenArm arm where
  isArm := by
    obtain ⟨scope, hs, hp, hb⟩ := ha.isArm
    obtain ⟨scope', hs', hg, -⟩ := h.arena.old arm scope hs
    exact ⟨scope', hs', by rw [hg.parent, hp, h.focus], by rw [hg.kind.isBranch_eq, hb]⟩
  distinct := ha.distinct.attempts h.attempts

theorem HasArm.arm {arm : ScopeId} (ha : s.HasArm arm) (hs : s.arena.Sound) (hnew : narrowing arm) :
    (Both.alone narrowing s).Arm arm := by
  obtain ⟨scope, hscope, hp, hb⟩ := ha
  refine ⟨Arena.index_lt_size hscope, hs.owner_of_branch hscope hb hp, ?_, hnew⟩
  change s.arena.functionScope? arm = s.arena.functionScope? s.focus.scope
  rw [Arena.functionScope?_eq_nearest?, Arena.functionScope?_eq_nearest?, hs.nearest?_eq hscope, if_pos hb,
    hp]
  rfl

theorem Opened.proceeds (h : s.Opened holds fails) (hp : s.Proceeds narrowing s') :
    s'.Opened holds fails where
  sound := hp.arena.sound h.sound
  holds := h.holds.proceeds hp
  fails := h.fails.proceeds hp

theorem Opened.inside (h : s.Opened holds fails) : s.focus.scope.index < s.arena.size :=
  h.holds.isArm.focus_lt h.sound.ordered

end State

/-- A new branch is open. -/
theorem run_openBranch_ok {arm : ScopeId} (hinside : s.focus.scope.index < s.arena.size)
    (hrun : openBranch.run s = (.ok arm, s')) :
    s.Proceeds (fun _ => True) s' ∧ s'.OpenArm arm := by
  rw [run_openBranch] at hrun
  cases hrun
  have hnew : (s.arena.pushBranch s.focus.scope).2.scope? ⟨s.arena.size⟩ =
      some { parent := some s.focus.scope, kind := .branch none } := by
    simp [Arena.pushBranch, Arena.scope?_push]
  refine ⟨⟨Arena.onward_pushBranch hinside, rfl, rfl, ?_⟩, ⟨_, hnew, rfl, rfl⟩, _, hnew,
    List.nodup_nil⟩
  exact .single ⟨.pushBranch s.focus.scope, rfl⟩

namespace Join

variable (hv : v.Alone)

include hv

theorem proceeds_before (hs : s.arena.Sound) (hinside : s.focus.scope.index < s.arena.size)
    (join : Join) (hrun : (join.before v).run s = (.ok (), s')) : s.Proceeds (fun _ => True) s' := by
  have hp : (Both.alone (fun _ => True) s).At (.same True) := ⟨rfl, trivial⟩
  have hvalue (e : Expr) : Matched (Both.alone (fun _ => True) s) (do let _ ← v.value e)
      (do let _ ← v.value e) :=
    ((hv.tandem _).value hp (.refl True e)).bind fun _ _ _ => tandem_pure trivial
  refine proceeds_of_matched hs hinside (fun _ _ => trivial) ?_ ?_ hrun
  · cases join with
    | branch test consequent alternate => exact hvalue test
    | whileLoop test body => exact hvalue test
    | forLoop init test update body =>
      exact matched_verifyForInit (hv.tandem _) hp (forInitLike?_refl True init)
  · cases join with
    | branch test consequent alternate => exact frames_then_unit (hv.frames.value test)
    | whileLoop test body => exact frames_then_unit (hv.frames.value test)
    | forLoop init test update body => exact frames_verifyForInit hv.frames init

theorem proceeds_between (hs : s.arena.Sound) (hinside : s.focus.scope.index < s.arena.size)
    (join : Join) (hrun : (join.between v).run s = (.ok (), s')) : s.Proceeds (fun _ => True) s' := by
  have hp : (Both.alone (fun _ => True) s).At (.same True) := ⟨rfl, trivial⟩
  refine proceeds_of_matched hs hinside (fun _ _ => trivial) ?_ ?_ hrun
  · unfold between
    split
    · exact tandem_pure trivial
    · exact tandem_pure trivial
    · exact tandem_pure trivial
    · exact ((hv.tandem _).value hp (.refl True _)).bind fun _ _ _ => tandem_pure trivial
  · unfold between
    split
    · exact frames_pure _
    · exact frames_pure _
    · exact frames_pure _
    · exact frames_then_unit (hv.frames.value _)

/-- After its head a statement has two open arms. -/
theorem opened_head (hs : s.arena.Sound) (hinside : s.focus.scope.index < s.arena.size) (join : Join)
    (hrun : (join.head v).run s = (.ok (holds, fails), s')) :
    s.Proceeds (fun _ => True) s' ∧ s'.Opened holds fails := by
  obtain ⟨⟨⟩, s₁, hbefore, hrun⟩ := ok_of_run_bind hrun
  have h₁ := join.proceeds_before hv hs hinside hbefore
  have hinside₁ : s₁.focus.scope.index < s₁.arena.size := by
    rw [h₁.focus]
    exact Nat.lt_of_lt_of_le hinside h₁.arena.size_le
  obtain ⟨_, s₂, hholds, hrun⟩ := ok_of_run_bind hrun
  obtain ⟨h₂, harm⟩ := run_openBranch_ok hinside₁ hholds
  have hsound₂ := h₂.arena.sound (h₁.arena.sound hs)
  obtain ⟨_, s₃, hfails, hrun⟩ := ok_of_run_bind hrun
  obtain ⟨h₃, harm'⟩ := run_openBranch_ok (harm.isArm.focus_lt hsound₂.ordered) hfails
  have hopened : s₃.Opened _ _ := ⟨h₃.arena.sound hsound₂, harm.proceeds h₃, harm'⟩
  obtain ⟨⟨⟩, s₄, hbetween, hrun⟩ := ok_of_run_bind hrun
  have h₄ := join.proceeds_between hv hopened.sound hopened.inside hbetween
  cases hrun
  exact ⟨((h₁.trans h₂).trans h₃).trans h₄, hopened.proceeds h₄⟩

theorem frames_arms (join : Join) : Frames .globals (join.arms v holds fails) := by
  have hbody (stmt : Stmt) (arm : ScopeId) : Frames .globals (inScope arm (v.stmt stmt)) :=
    frames_withFocus (hv.frames.stmt stmt)
  cases join with
  | branch test consequent alternate =>
    refine frames_bind (frames_narrow test holds fails) fun _ => ?_
    refine frames_bind (hbody consequent holds) fun _ => ?_
    cases alternate with
    | none => exact frames_pure _
    | some alternate => exact hbody alternate fails
  | whileLoop test body => exact frames_bind (frames_narrow test holds fails) fun _ => hbody body holds
  | forLoop init test update body =>
    cases test with
    | none => exact frames_loopBody hv.frames holds body update
    | some test =>
      exact frames_bind (frames_narrow test holds fails) fun _ => frames_loopBody hv.frames holds body update

/-- In the arms variables are narrowed in newer scopes only. -/
theorem proceeds_arms (h : s.Opened holds fails) (join : Join)
    (hrun : (join.arms v holds fails).run s = (.ok (), s')) :
    s.Proceeds (fun id => s.focus.scope.index < id.index) s' := by
  let narrowing : ScopeId → Prop := fun id => s.focus.scope.index < id.index
  let p := Both.alone narrowing s
  have hholds : p.Arm holds := h.holds.isArm.arm h.sound (h.holds.isArm.newer h.sound.ordered)
  have hfails : p.Arm fails := h.fails.isArm.arm h.sound (h.fails.isArm.newer h.sound.ordered)
  have heven : p.Even := rfl
  have hnew : ∀ id : ScopeId, s.arena.size ≤ id.index → narrowing id :=
    fun id hid => Nat.lt_of_lt_of_le h.inside hid
  have hnarrow (test : Expr) : Matched p (narrow test holds fails) (narrow test holds fails) :=
    matched_narrow (.refl True test) hholds.narrowing hfails.narrowing
  have hstmt {q : Both (.alone narrowing)} (hq : p.After q) {arm : ScopeId} (harm : q.Arm arm)
      (stmt : Stmt) : Matched q (inScope arm (v.stmt stmt)) (inScope arm (v.stmt stmt)) :=
    harm.matched_stmt (hv.tandem _) hq.world_owner (heven.after hq) (.refl True stmt)
  have hloop {q : Both (.alone narrowing)} (hq : p.After q) (body : Stmt) (update : Option Expr) :=
    (hholds.after hq).matched_loopBody (hv.tandem _) hq.world_owner (heven.after hq)
      (.refl True body) (exprLike?_refl True update)
  refine proceeds_of_matched h.sound h.inside hnew ?_ (join.frames_arms hv) hrun
  cases join with
  | branch test consequent alternate =>
    refine (hnarrow test).bind fun _ q hq => ?_
    refine (hstmt hq (hholds.after hq) consequent).bind fun _ q₁ hq₁ => ?_
    cases alternate with
    | none => exact tandem_pure trivial
    | some alternate => exact hstmt (hq.trans hq₁) ((hfails.after hq).after hq₁) alternate
  | whileLoop test body =>
    exact (hnarrow test).bind fun _ _ hq => hstmt hq (hholds.after hq) body
  | forLoop init test update body =>
    cases test with
    | none => exact .of_twins fun ht => hloop (.refl ht) body update
    | some test => exact (hnarrow test).bind fun _ _ hq => hloop hq body update

end Join

/-! ## What is taken over -/

/-- The name is narrowed and read at the node at hand as it was before, or it is read at one of the
types. -/
def State.ReadsAmong (types : List (String × TypeId)) (name : String) (s s' : State) : Prop :=
  (s'.narrows name = s.narrows name ∧
      s'.typeIn s'.focus.scope name .normal = s.typeIn s.focus.scope name .normal) ∨
    ∃ type, (name, type) ∈ types ∧ s'.typeIn s'.focus.scope name .normal = some type

/-- Some of the types have been taken over into the current scope. -/
structure State.TakesOver (types : List (String × TypeId)) (name : String) (s s' : State) : Prop where
  sound : s'.arena.Sound
  focus : s'.focus = s.focus
  size : s.arena.size ≤ s'.arena.size
  others : ∀ id, id ≠ s.focus.scope → s'.arena.scope? id = s.arena.scope? id
  branch : s'.inBranch = s.inBranch
  reads : State.ReadsAmong types name s s'

namespace State.TakesOver

variable {types : List (String × TypeId)} {s₁ : State}

theorem refl (hs : s.arena.Sound) : s.TakesOver types name s :=
  ⟨hs, rfl, Nat.le_refl _, fun _ _ => rfl, rfl, .inl ⟨rfl, rfl⟩⟩

theorem trans (h : s.TakesOver types name s₁) (h' : s₁.TakesOver types name s') :
    s.TakesOver types name s' where
  sound := h'.sound
  focus := h'.focus.trans h.focus
  size := Nat.le_trans h.size h'.size
  others := fun id hid => (h'.others id (by rwa [h.focus])).trans (h.others id hid)
  branch := h'.branch.trans h.branch
  reads := by
    rcases h'.reads with ⟨hnarrows, hread⟩ | htaken
    · rw [ReadsAmong, hnarrows, hread]
      exact h.reads
    · exact .inr htaken

theorem inside (h : s.TakesOver types name s') (hinside : s.focus.scope.index < s.arena.size) :
    s'.focus.scope.index < s'.arena.size := by
  rw [h.focus]
  exact Nat.lt_of_lt_of_le hinside h.size

end State.TakesOver

/-- One type is taken over: the current scope has it, and other names are left alone. -/
theorem takesOver_restrict {types : List (String × TypeId)} {key : String} {type : TypeId}
    (hs : s.arena.Sound) (hinside : s.focus.scope.index < s.arena.size) (hmem : (key, type) ∈ types)
    (hkey : key ≠ Arena.thisName)
    (hrun : (onArena fun a => a.restrict s.focus.scope key type).run s = (.ok (), s')) :
    s.TakesOver types name s' ∧
      s'.arena.narrowed? s.focus.scope name =
        if key = name then some type else s.arena.narrowed? s.focus.scope name := by
  obtain ⟨scope, hscope⟩ := Arena.scope?_of_lt hinside
  have honward : s.arena.Onward (fun _ => True) (s.arena.restrict s.focus.scope key type).2 :=
    Arena.onward_restrict trivial key type
  rw [run_onArena] at hrun
  rcases hresult : s.arena.restrict s.focus.scope key type with ⟨e | ⟨⟩, b⟩ <;>
    rw [hresult] at hrun honward
  · cases hrun
  cases hrun
  cases Arena.restrict_eq_ok hscope hkey hresult
  have hscope' : (s.arena.modify s.focus.scope (Arena.narrowScope key type)).scope? s.focus.scope =
      some { scope with restrictions := scope.restrictions.insert key type } := by
    rw [Arena.scope?_modify, if_pos rfl, hscope, Option.map_some, Arena.narrowScope, if_neg hkey]
  refine ⟨⟨honward.sound hs, rfl, honward.size_le, fun id hid => ?_, ?_, ?_⟩, ?_⟩
  · rw [Arena.scope?_modify, if_neg (Ne.symm hid)]
  · rw [State.inBranch, State.inBranch, hscope, hscope']
    rfl
  · by_cases hname : key = name
    · subst hname
      exact .inr ⟨type, hmem, Arena.getVar_narrowScope hs.ordered hscope hkey _ type⟩
    · have htouches : s.arena.Touches (fun other => other = key) (fun _ => False)
          (s.arena.modify s.focus.scope (Arena.narrowScope key type)) :=
        Arena.touches_narrowScope hkey type
      have hother : ¬name = key := Ne.symm hname
      exact .inl ⟨htouches.narrows_eq hs.ordered hinside hother,
        htouches.getVar_eq hs.ordered hinside hother _ _⟩
  · simp only [Arena.narrowed?, hscope', hscope, Option.bind_some, Dict.get?_insert]

theorem takesOver_settle {types taken : List (String × TypeId)} (hs : s.arena.Sound)
    (hinside : s.focus.scope.index < s.arena.size) (hsub : ∀ entry ∈ taken, entry ∈ types)
    (hthis : ∀ entry ∈ taken, entry.1 ≠ Arena.thisName)
    (hrun : (settle taken).run s = (.ok (), s')) : s.TakesOver types name s' := by
  induction taken generalizing s with
  | nil =>
    cases hrun
    exact .refl hs
  | cons entry rest ih =>
    obtain ⟨key, type⟩ := entry
    have hsub' : ∀ entry ∈ rest, entry ∈ types := fun e he => hsub e (List.mem_cons_of_mem _ he)
    have hthis' : ∀ entry ∈ rest, entry.1 ≠ Arena.thisName :=
      fun e he => hthis e (List.mem_cons_of_mem _ he)
    rw [settle, run_get_bind] at hrun
    simp only at hrun
    split at hrun
    · obtain ⟨⟨⟩, s₁, hrestrict, hrest⟩ := ok_of_run_bind hrun
      have h₁ : s.TakesOver types name s₁ :=
        (takesOver_restrict hs hinside (hsub _ List.mem_cons_self) (hthis _ List.mem_cons_self) hrestrict).1
      exact h₁.trans (ih h₁.sound (h₁.inside hinside) hsub' hthis' hrest)
    · exact ih hs hinside hsub' hthis' hrun

/-- The current scope takes a narrowed type of the name: it is a branch, or has not narrowed it. -/
def State.Takes (s : State) (name : String) : Prop :=
  s.inBranch = true ∨ s.arena.narrowed? s.focus.scope name = none

/-- A type that is agreed on is taken over where the current scope takes one, whatever is taken over
besides. -/
theorem reads_settled {taken : List (String × TypeId)} {type : TypeId} (hs : s.arena.Sound)
    (hinside : s.focus.scope.index < s.arena.size) (hmode : s.focus.mode = .normal)
    (hthis : ∀ entry ∈ taken, entry.1 ≠ Arena.thisName)
    (honly : ∀ other, (name, other) ∈ taken → other = type)
    (h : s.typeIn s.focus.scope name .normal = some type ∨ s.Takes name ∧ (name, type) ∈ taken)
    (hrun : (settle taken).run s = (.ok (), s')) :
    s'.typeIn s'.focus.scope name .normal = some type := by
  induction taken generalizing s with
  | nil =>
    cases hrun
    exact h.resolve_right fun hmem => List.not_mem_nil hmem.2
  | cons entry rest ih =>
    obtain ⟨key, found⟩ := entry
    have hthis' : ∀ entry ∈ rest, entry.1 ≠ Arena.thisName :=
      fun e he => hthis e (List.mem_cons_of_mem _ he)
    have honly' : ∀ other, (name, other) ∈ rest → other = type :=
      fun other he => honly other (List.mem_cons_of_mem _ he)
    rw [settle, run_get_bind] at hrun
    simp only at hrun
    split at hrun
    · obtain ⟨⟨⟩, s₁, hrestrict, hrest⟩ := ok_of_run_bind hrun
      obtain ⟨h₁, hnarrowed⟩ : s.TakesOver [(key, found)] name s₁ ∧ _ :=
        takesOver_restrict hs hinside List.mem_cons_self (hthis _ List.mem_cons_self) hrestrict
      refine ih h₁.sound (h₁.inside hinside) (h₁.focus ▸ hmode) hthis' honly' ?_ hrest
      by_cases hkey : key = name
      · subst hkey
        have hfound : found = type := honly found List.mem_cons_self
        rw [if_pos rfl, hfound, ← h₁.focus] at hnarrowed
        exact .inl (Arena.getVar_of_narrowed? h₁.sound.ordered hnarrowed _)
      · rw [if_neg hkey] at hnarrowed
        refine h.imp (fun hread => ?_) fun ⟨htakes, hmem⟩ => ⟨?_, ?_⟩
        · rcases h₁.reads with ⟨-, hsame⟩ | ⟨other, hmem, -⟩
          · rw [hsame, hread]
          · rw [List.mem_singleton] at hmem
            exact absurd (congrArg Prod.fst hmem).symm hkey
        · rw [State.Takes, h₁.branch, h₁.focus, hnarrowed]
          exact htakes
        · exact (List.mem_cons.mp hmem).resolve_left fun heq => hkey (congrArg Prod.fst heq).symm
    · next hskip =>
      refine ih hs hinside hmode hthis' honly' ?_ hrun
      refine or_iff_not_imp_left.mpr fun hunread => ?_
      obtain ⟨htakes, hmem⟩ := h.resolve_left hunread
      refine ⟨htakes, (List.mem_cons.mp hmem).resolve_left fun heq => ?_⟩
      -- a type that the name is not read at is skipped only in a scope that has narrowed the name
      cases heq
      simp only [Bool.and_eq_true, Bool.or_eq_true, Bool.not_eq_true', decide_eq_true_eq, not_and, not_or,
        ne_eq] at hskip
      rw [State.lookup, hmode] at hskip
      obtain ⟨houtside, hknown⟩ := hskip hunread
      obtain ⟨found, hfound⟩ : ∃ found, (name, found) ∈ s.arena.restrictions s.focus.scope := by
        simpa using hknown
      exact Arena.not_mem_restrictions (htakes.resolve_left houtside) found hfound

/-- What is agreed on is in both lists, and is not said of `this`. -/
theorem mem_agreed {one other : List (String × TypeId)} {entry : String × TypeId} :
    entry ∈ agreed one other ↔ entry ∈ one ∧ entry ∈ other ∧ entry.1 ≠ Arena.thisName := by
  rw [agreed, List.mem_filter, Bool.and_eq_true, decide_eq_true_eq, List.contains_iff_mem]
  exact ⟨fun ⟨hone, hthis, hother⟩ => ⟨hone, hother, hthis⟩,
    fun ⟨hone, hother, hthis⟩ => ⟨hone, hthis, hother⟩⟩

/-- Both arms narrow the name to the type, in the end. -/
def State.LeftAt (s : State) (holds fails : ScopeId) (name : String) (type : TypeId) : Prop :=
  s.arena.narrowed? holds name = some type ∧ s.arena.narrowed? fails name = some type

/-- What the arms agree on is what both leave the name at. -/
theorem State.Opened.mem_agreed_iff (h : s.Opened holds fails) {type : TypeId} :
    (name, type) ∈ agreed (s.arena.restrictions holds) (s.arena.restrictions fails) ↔
      s.LeftAt holds fails name type ∧ name ≠ Arena.thisName := by
  rw [mem_agreed, State.LeftAt, and_assoc]
  exact and_congr ⟨h.holds.distinct.narrowed?_of_mem, Arena.mem_restrictions_of_narrowed?⟩
    (and_congr ⟨h.fails.distinct.narrowed?_of_mem, Arena.mem_restrictions_of_narrowed?⟩ Iff.rfl)

/-- After an `if` a name is narrowed and read as before, or it is read at the type that both arms leave
it at. -/
theorem takesOver_mergeArms (h : s.Opened holds fails)
    (hrun : (mergeArms holds fails).run s = (.ok (), s')) :
    s.TakesOver (agreed (s.arena.restrictions holds) (s.arena.restrictions fails)) name s' := by
  rw [mergeArms, run_get_bind] at hrun
  exact takesOver_settle h.sound h.inside (fun _ he => he) (fun _ he => (mem_agreed.mp he).2.2) hrun

theorem State.Opened.leftAt_eq (h : s.Opened holds fails) {types : List (String × TypeId)}
    (htaken : s.TakesOver types name s') (type : TypeId) :
    s'.LeftAt holds fails name type ↔ s.LeftAt holds fails name type := by
  have hsame {arm : ScopeId} (harm : s.OpenArm arm) :
      s'.arena.narrowed? arm name = s.arena.narrowed? arm name := by
    refine Arena.narrowed?_congr (htaken.others arm ?_)
    rintro rfl
    exact Nat.lt_irrefl _ (harm.isArm.newer h.sound.ordered)
  rw [State.LeftAt, State.LeftAt, hsame h.holds, hsame h.fails]

/-- An `if` takes over the type that both arms leave a name at, where the current scope takes one. -/
theorem reads_agreed (h : s.Opened holds fails) (hmode : s.focus.mode = .normal) (htakes : s.Takes name)
    (hthis : name ≠ Arena.thisName) {type : TypeId} (hleft : s.LeftAt holds fails name type)
    (hrun : (mergeArms holds fails).run s = (.ok (), s')) :
    s'.typeIn s'.focus.scope name .normal = some type := by
  rw [mergeArms, run_get_bind] at hrun
  refine reads_settled h.sound h.inside hmode (fun _ he => (mem_agreed.mp he).2.2) (fun other he => ?_)
    (.inr ⟨htakes, h.mem_agreed_iff.mpr ⟨hleft, hthis⟩⟩) hrun
  have hother := (h.mem_agreed_iff.mp he).1.1
  rw [hleft.1] at hother
  exact (Option.some.inj hother).symm

/-! ## Values that are assigned -/

/-- An assignment of the value to the name leads from one state to the other. -/
def Assigns (require : (file request : String) → SessionM Required) (name : String) (value : TypeId)
    (u u' : State) : Prop :=
  ∃ (fuel : Nat) (id : Identifier) (right : Expr) (span : Span), id.name = name ∧
    (verifyAssignment (visitor require fuel) "=" (.identifier id) right span).run u =
      (.ok (some value), u')

/-- The type is the declared one of the name. It accepts every value that is assigned to the name at
that type without a report, and is that of a value that the name takes its type from. -/
structure State.Declares (require : (file request : String) → SessionM Required) (s : State)
    (name : String) (type : TypeId) : Prop where
  declared : s.declaredType name = some type
  accepts : ∀ {u u' : State} {value : TypeId}, Assigns require name value u u' →
    u.declaredType name = some type → type.growsFreely = false →
    u'.diagnostics = u.diagnostics → u'.table.Extends s.table →
    (type = .moduleExports → (s.table.lookup .moduleExports).isSome ∧ (s.table.lookup value).isSome) →
    s.table.isSubtype type value
  taken : ∀ {u u' : State} {value waiting : TypeId}, Assigns require name value u u' →
    u.arena.Sound → u.focus.scope.index < u.arena.size →
    u.declaredType name = some waiting → waiting.growsFreely = true →
    u'.declaredType name = some type → type = value

/-- The type is that of the value that is assigned last in the arm itself: of each one after which the
arm does not narrow the name to something else. -/
def State.LastAssigned (require : (file request : String) → SessionM Required) (s : State)
    (arm : ScopeId) (name : String) (type : TypeId) : Prop :=
  ∀ {u u' : State} {value declared : TypeId}, Assigns require name value u u' →
    u.focus.scope = arm → u.inBranch → name ≠ Arena.thisName →
    u.declaredType name = some declared → declared.growsFreely = false → declared ≠ .moduleExports →
    u'.arena.narrowed? arm name = s.arena.narrowed? arm name → type = value

section Assignments

variable {require : (file request : String) → SessionM Required} {fuel : Nat} {id : Identifier}
  {right : Expr} {span : Span} {type value : TypeId}

theorem notExports_of_growsFreely (h : type.growsFreely = true) : type ≠ .moduleExports := by
  rintro rfl
  cases h

/-- An assignment to a variable is one to a target of its declared type. -/
theorem run_assignTo (hdeclared : s.declaredType id.name = some type)
    (hrun : (verifyAssignment (visitor require fuel) "=" (.identifier id) right span).run s =
      (.ok (some value), s')) :
    (assignTo (visitor require fuel) (.identifier id) type right).run s = (.ok (some value), s') := by
  rw [verifyAssignment, if_neg (by decide)] at hrun
  obtain ⟨found, s₁, htarget, hassign⟩ := ok_of_run_bind hrun
  obtain ⟨rfl, rfl⟩ := run_target (identifier_visitor require fuel id) hdeclared htarget
  exact hassign

/-- An assignment at a settled type compares the value with it. -/
theorem run_assignTo_settled (hsettled : type.growsFreely = false) (hexports : type ≠ .moduleExports)
    (hdeclared : s.declaredType id.name = some type)
    (hrun : (verifyAssignment (visitor require fuel) "=" (.identifier id) right span).run s =
      (.ok (some value), s')) :
    (assignChecked (visitor require fuel) (.identifier id) type right).run s =
      (.ok (some value), s') := by
  have hassign := run_assignTo hdeclared hrun
  simp only [assignTo, if_neg hexports, growingName?_identifier, growingAccess?_identifier,
    hsettled] at hassign
  exact hassign

/-- A value that is assigned at a settled type without a report fits it. -/
theorem fits_assigned (hsettled : type.growsFreely = false) (hexports : type ≠ .moduleExports)
    (hdeclared : s.declaredType id.name = some type)
    (hrun : (verifyAssignment (visitor require fuel) "=" (.identifier id) right span).run s =
      (.ok (some value), s'))
    (hquiet : s'.diagnostics = s.diagnostics) : s'.table.isSubtype type value := by
  have hkeeps : ∀ result s₁, ((visitor require fuel).into right (some type)).run s = (.ok result, s₁) →
      s.diagnostics <+: s₁.diagnostics := by
    intro result s₁ hinto
    have hframed := (frames_visitor (Contract.binds_none require) fuel).into right (some type) s
    rw [hinto] at hframed
    exact hframed.diagnostics
  obtain ⟨s₂, -, hfits, hrecord⟩ :=
    run_assignChecked hkeeps (run_assignTo_settled hsettled hexports hdeclared hrun) hquiet
  have htable : s'.table = s₂.table := congrArg Session.table (run_recordAssigned hrecord).1
  rwa [htable]

/-- A name that waits for its first value has the type of that value as its declared one. -/
theorem declaredType_taken (hv : (visitor require fuel).Alone) (hs : s.arena.Sound)
    (hinside : s.focus.scope.index < s.arena.size) (hgrows : type.growsFreely = true)
    (hdeclared : s.declaredType id.name = some type)
    (hrun : (verifyAssignment (visitor require fuel) "=" (.identifier id) right span).run s =
      (.ok (some value), s')) : s'.declaredType id.name = some value := by
  have hassign := run_assignTo hdeclared hrun
  simp only [assignTo, if_neg (notExports_of_growsFreely hgrows), growingName?_identifier,
    growingAccess?_identifier, if_pos hgrows] at hassign
  obtain ⟨result, s₁, hinto, hrest⟩ := ok_of_run_bind hassign
  cases result with
  | none => cases hrest
  | some found =>
    obtain ⟨⟨⟩, s₂, haccept, hpure⟩ := ok_of_run_bind hrest
    cases hpure
    rw [run_get_bind] at haccept
    obtain ⟨holder, _, hupdate, hdone⟩ := ok_of_run_bind haccept
    cases hdone
    obtain ⟨scope, hfind, rfl⟩ := run_forceUpdateVar hupdate
    have hproceeds := proceeds_into hv hs hinside hinto
    have hinside₁ : s₁.focus.scope.index < s₁.arena.size := by
      rw [hproceeds.focus]
      exact Nat.lt_of_lt_of_le hinside hproceeds.arena.size_le
    exact Arena.getVar_writable_bindVar (hproceeds.arena.sound hs).ordered hinside₁ hfind _ _

/-- In a branch a variable of a settled type is narrowed to the type of the value. -/
theorem narrowed?_assigned (hbranch : s.inBranch) (hthis : id.name ≠ Arena.thisName)
    (hsettled : type.growsFreely = false) (hexports : type ≠ .moduleExports)
    (hdeclared : s.declaredType id.name = some type)
    (hrun : (verifyAssignment (visitor require fuel) "=" (.identifier id) right span).run s =
      (.ok (some value), s')) : s'.arena.narrowed? s.focus.scope id.name = some value := by
  obtain ⟨s₁, s₂, fits, hinto, hcheck, hrecord⟩ :=
    run_assignChecked_ok (run_assignTo_settled hsettled hexports hdeclared hrun)
  have hframed : Framed .none s ((.ok fits, s₂) : Except Error Bool × State) := by
    have h₁ := (frames_visitor (Contract.binds_none require) fuel).into right (some type) s
    have h₂ : Framed .none s₁ ((checkFits right.span type value).run s₁) := notes_checkFits.frames s₁
    rw [hinto] at h₁
    rw [hcheck] at h₂
    exact h₁.trans h₂
  obtain ⟨scope, hscope, hb⟩ := Option.any_eq_true _ _ |>.mp (hframed.inBranch hbranch)
  obtain ⟨-, -, -, harena⟩ := run_recordAssigned hrecord
  rw [if_pos (hframed.inBranch hbranch), Arena.restrict_branch hscope hb, Arena.narrowScope_eq hthis] at harena
  rw [harena, ← hframed.focus]
  exact Arena.narrowed?_eq_some (by rw [Arena.scope?_modify, if_pos rfl, hscope]; rfl) (by simp)

end Assignments

/-- The declared type of a name accepts what is assigned to it. -/
theorem State.declares {require : (file request : String) → SessionM Required}
    (hrequire : ∀ file request session,
      ((require file request).run session).2.globals = session.globals)
    (s : State) {type : TypeId} (h : s.declaredType name = some type) : s.Declares require name type where
  declared := h
  accepts := by
    rintro u u' value ⟨fuel, id, right, span, rfl, hrun⟩ hdeclared hsettled hquiet hextends hknown
    by_cases hexports : type = .moduleExports
    · -- the exports of the module accept every type that there is
      obtain ⟨hparent, hchild⟩ := hknown hexports
      exact hexports ▸ isSubtype_moduleExports hparent hchild
    · exact Table.isSubtype_extends hextends (fits_assigned hsettled hexports hdeclared hrun hquiet)
  taken := by
    rintro u u' value waiting ⟨fuel, id, right, span, rfl, hrun⟩ hsound hinside hdeclared hgrows htype
    rw [declaredType_taken (alone_visitor hrequire fuel) hsound hinside hgrows hdeclared hrun] at htype
    exact (Option.some.inj htype).symm

/-- An arm leaves a name at the type of the value that it assigns last. -/
theorem State.lastAssigned (require : (file request : String) → SessionM Required) {s : State}
    {arm : ScopeId} {type : TypeId} (h : s.arena.narrowed? arm name = some type) :
    s.LastAssigned require arm name type := by
  rintro u u' value declared ⟨fuel, id, right, span, rfl, hrun⟩ rfl hbranch hthis hdeclared hsettled
    hexports hkept
  rw [narrowed?_assigned hbranch hthis hsettled hexports hdeclared hrun, h] at hkept
  exact (Option.some.inj hkept).symm

/-! ## After the statement -/

/-- What is known of the type that a name is read at after a statement with two arms. -/
structure Join.Conserves (require : (file request : String) → SessionM Required) (join : Join)
    (holds fails : ScopeId) (opened s' : State) (name : String) (type : TypeId) : Prop where
  read : s'.typeIn s'.focus.scope name .normal = some type
  /-- It is the declared type, or the one that both arms leave the name at, or a narrowed type at which
  the name was read before the arms. -/
  covers : s'.Declares require name type ∨
    (join.merges = true ∧ s'.LeftAt holds fails name type) ∨
    opened.narrows name = true ∧ opened.typeIn opened.focus.scope name .normal = some type
  /-- Arms that agree are taken over, whatever the name was narrowed to before. -/
  agreed : join.merges = true → opened.focus.mode = .normal → opened.Takes name →
    name ≠ Arena.thisName → ∀ both, s'.LeftAt holds fails name both → type = both
  /-- An arm leaves the name at the type of the value that it assigns last. -/
  last : ∀ arm ∈ [holds, fails], ∀ left, s'.arena.narrowed? arm name = some left →
    s'.LastAssigned require arm name left

/-- What is narrowed in newer scopes does not change what the current scope takes. -/
theorem State.Takes.proceeds (h : s.Takes name) (hinside : s.focus.scope.index < s.arena.size)
    (hp : s.Proceeds (fun id => s.focus.scope.index < id.index) s') : s'.Takes name := by
  obtain ⟨scope, hscope⟩ := Arena.scope?_of_lt hinside
  obtain ⟨scope', hscope', hg, hr⟩ := hp.arena.old _ scope hscope
  have hsame := hr.resolve_left (Nat.lt_irrefl _)
  rw [State.Takes, State.inBranch, hp.focus, Arena.narrowed?, hscope', Option.any_some, Option.bind_some,
    hg.kind.isBranch_eq, hsame]
  rw [State.Takes, State.inBranch, Arena.narrowed?, hscope] at h
  exact h

/-- What a statement takes over from its arms. -/
theorem Join.takesOver_merge (h : s.Opened holds fails) (join : Join)
    (hrun : (join.merge holds fails).run s = (.ok (), s')) :
    ∃ types, s.TakesOver types name s' ∧
      ∀ type, (name, type) ∈ types → join.merges = true ∧ s'.LeftAt holds fails name type := by
  rw [Join.merge] at hrun
  split at hrun
  · next hmerges =>
    have htaken : s.TakesOver _ name s' := takesOver_mergeArms h hrun
    exact ⟨_, htaken, fun type hmem =>
      ⟨hmerges, (h.leftAt_eq htaken type).mpr (h.mem_agreed_iff.mp hmem).1⟩⟩
  · cases hrun
    exact ⟨[], .refl h.sound, fun _ hmem => absurd hmem List.not_mem_nil⟩

/-- A name that was bound is bound after a statement, and read at its declared type unless it is narrowed. -/
theorem reads_declared {require : (file request : String) → SessionM Required}
    (hrequire : ∀ file request session,
      ((require file request).run session).2.globals = session.globals)
    (fuel : Nat) (hs : s.arena.Sound) (hinside : s.focus.scope.index < s.arena.size) {stmt : Stmt}
    (hrun : ((visitor require fuel).stmt stmt).run s = (.ok (), s'))
    (hbound : (s.declaredType name).isSome) (hfree : s'.narrows name = false) :
    ∃ type, s'.typeIn s'.focus.scope name .normal = some type ∧ s'.Declares require name type := by
  have hv := alone_visitor hrequire fuel
  have hp : (Both.alone (fun _ => True) s).At (.same True) := ⟨rfl, trivial⟩
  have h : s.Proceeds (fun _ => True) s' := proceeds_of_matched hs hinside (fun _ _ => trivial)
    ((hv.tandem _).stmt hp (.refl True _) rfl) (hv.frames.stmt _) hrun
  obtain ⟨type, htype⟩ := Option.isSome_iff_exists.mp
    (h.arena.keeps.getVar_isSome hs.ordered hinside hbound)
  have hdeclared : s'.declaredType name = some type := by
    rw [State.declaredType, State.typeIn, h.focus, h.globals]
    exact htype
  exact ⟨type, (State.typeIn_of_narrows_eq_false hfree).trans hdeclared, s'.declares hrequire hdeclared⟩

/-- The arms narrow newer scopes only, so a narrowed type that is in sight after them was so before. -/
theorem State.Opened.narrowed_before (h : s.Opened holds fails)
    (hp : s.Proceeds (fun id => s.focus.scope.index < id.index) s') (hnarrows : s'.narrows name = true) :
    s.narrows name = true ∧ ∃ type, s.typeIn s.focus.scope name .normal = some type ∧
      s'.typeIn s'.focus.scope name .normal = some type := by
  rw [State.narrows, hp.focus] at hnarrows
  obtain ⟨hnarrowed, hread⟩ := hp.arena.narrowed_before h.sound.ordered h.inside
    (fun other hle => Nat.not_lt.mpr hle) hnarrows s.session.globals
  obtain ⟨type, htype⟩ := Arena.getVar_of_narrows hnarrowed s.session.globals
  refine ⟨hnarrowed, type, htype, ?_⟩
  rw [State.typeIn, hp.focus, hp.globals]
  exact hread.trans htype

/-- After the statement a name is read at its declared type, which accepts what is assigned to it, or,
after an `if`, at the type that both arms leave it at, or as it was narrowed before. -/
theorem reads_after_join {require : (file request : String) → SessionM Required}
    (hrequire : ∀ file request session,
      ((require file request).run session).2.globals = session.globals)
    (fuel : Nat) (hs : s.arena.Sound) (hinside : s.focus.scope.index < s.arena.size) (join : Join)
    (span : Span) (hrun : ((visitor require (fuel + 1)).stmt (join.stmt span)).run s = (.ok (), s'))
    (hbound : (s.declaredType name).isSome) :
    ∃ holds fails opened type,
      (join.head (visitor require fuel)).run s = (.ok (holds, fails), opened) ∧
        join.Conserves require holds fails opened s' name type := by
  have hv := alone_visitor hrequire fuel
  have hrun' : (verifyStmt (visitor require fuel) (join.stmt span)).run s = (.ok (), s') := hrun
  rw [join.verifyStmt_eq] at hrun'
  obtain ⟨⟨holds, fails⟩, opened, hhead, hrest⟩ := ok_of_run_bind hrun'
  obtain ⟨⟨⟩, s₂, harms, hmerge⟩ := ok_of_run_bind hrest
  obtain ⟨h₁, hopened⟩ := join.opened_head hv hs hinside hhead
  have h₂ := join.proceeds_arms hv hopened harms
  have hopened₂ := hopened.proceeds h₂
  obtain ⟨types, htaken, hmem⟩ : ∃ types, s₂.TakesOver types name s' ∧ _ :=
    join.takesOver_merge hopened₂ hmerge
  have hcovers : ∃ type, s'.typeIn s'.focus.scope name .normal = some type ∧
      (s'.Declares require name type ∨ (join.merges = true ∧ s'.LeftAt holds fails name type) ∨
        opened.narrows name = true ∧ opened.typeIn opened.focus.scope name .normal = some type) := by
    cases hnarrows : s'.narrows name with
    | false =>
      obtain ⟨type, hread, hdeclared⟩ := reads_declared hrequire (fuel + 1) hs hinside hrun hbound hnarrows
      exact ⟨type, hread, .inl hdeclared⟩
    | true =>
      rcases htaken.reads with ⟨hkept, hsame⟩ | ⟨type, htype, hread⟩
      · obtain ⟨hnarrowed, type, htype, hread⟩ := hopened.narrowed_before h₂ (hkept.symm.trans hnarrows)
        exact ⟨type, hsame.trans hread, .inr (.inr ⟨hnarrowed, htype⟩)⟩
      · exact ⟨type, hread, .inr (.inl (hmem type htype))⟩
  obtain ⟨type, hread, hcovers⟩ := hcovers
  refine ⟨holds, fails, opened, type, hhead, hread, hcovers, ?_, fun _ _ _ h => State.lastAssigned _ h⟩
  intro hmerges hmode htakes hthis both hleft
  rw [Join.merge, if_pos hmerges] at hmerge
  have hboth := reads_agreed hopened₂ (h₂.focus ▸ hmode) (htakes.proceeds hopened.inside h₂) hthis
    ((hopened₂.leftAt_eq htaken both).mp hleft) hmerge
  rw [hread] at hboth
  exact Option.some.inj hboth

end HeaderCheck.Verify
