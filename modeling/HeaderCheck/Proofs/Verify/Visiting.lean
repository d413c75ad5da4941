import HeaderCheck.Proofs.Verify.Runs

/-!
# HeaderCheck.Proofs.Verify.Visiting

Visits of the parts of a node: under another focus, for a slot, in a branch, and in lists of
statements.
-/

namespace HeaderCheck.Verify

open HeaderCheck.Scope (Arena ScopeId)
open HeaderCheck.Script
open HeaderCheck.Types (TypeId)

variable {S : Setting} {n : Nat} {v v' : Visitor} {spared : Option ScopeId} {s : State}

/-! ## Expressions -/

theorem Visits.focused (hv : Visits S n v v') {e : Expr} (ha : s.At n (.expr e))
    (change : Focus → Focus) (hscope : (change s.focus).scope = s.focus.scope) :
    Runs S spared s (withFocus change (v.expr e)) (withFocus change (v'.expr e)) Told := by
  refine .weaken (runs_withFocus ?_ (hv.expr (ha.withFocus ?_)) fun _ _ _ hP => hP)
  · intro hs
    rw [hscope]
    exact hs.focus
  · rw [hscope]
    rfl

theorem Visits.expecting (hv : Visits S n v v') {e : Expr} (ha : s.At n (.expr e))
    (expected : Option TypeId) :
    Runs S spared s (expecting expected (v.expr e)) (expecting expected (v'.expr e)) Told :=
  hv.focused ha _ rfl

theorem Visits.value (hv : Visits S n v v') {e : Expr} (ha : s.At n (.expr e)) :
    Runs S spared s (v.value e) (v'.value e) Told :=
  hv.expecting ha none

theorem Visits.asRead (hv : Visits S n v v') {e : Expr} (ha : s.At n (.expr e)) :
    Runs S spared s (asRead (v.expr e)) (asRead (v'.expr e)) Told :=
  hv.focused ha _ rfl

theorem Visits.asTarget (hv : Visits S n v v') {e : Expr} (ha : s.At n (.expr e)) :
    Runs S spared s (asTarget (v.expr e)) (asTarget (v'.expr e)) Told :=
  hv.focused ha _ rfl

/-! ## Branches -/

/-- A branch of the current scope has the same owner. -/
theorem State.HasArm.owner_eq {arm : ScopeId} {tidy : Prop} (h : s.HasArm arm) (hs : s.Sound tidy) :
    s.arena.owner arm = s.owner := by
  obtain ⟨scope, hscope, hp, hb⟩ := h
  exact hs.arena.owner_of_branch hscope hb hp

theorem State.HasArm.lt {arm : ScopeId} (h : s.HasArm arm) : arm.index < s.arena.size := by
  obtain ⟨scope, hscope, _⟩ := h
  exact Arena.index_lt_size hscope

theorem Visits.inArm (hv : Visits S n v v') {e : Expr} (ha : s.At n (.expr e)) {arm : ScopeId}
    (harm : s.HasArm arm) :
    Runs S spared s (inScope arm (v.expr e)) (inScope arm (v'.expr e)) Told := by
  refine .of_sound fun hs => .weaken ?_
  refine runs_withFocus (fun _ => harm.lt) (hv.expr (ha.withFocus ?_)) fun _ _ _ hP => hP
  exact harm.owner_eq hs

/-- Statements in a branch belong to the body at hand. -/
theorem runs_inArm {m m' : Check Unit} {arm : ScopeId} (harm : s.HasArm arm)
    (h : ∀ {s₁ : State}, s₁.owner = s.owner → (∀ {n node}, s.At n node → s₁.At n node) →
      Runs S (some s₁.owner) s₁ m m' fun _ _ => True) :
    Runs S (some s.owner) s (inScope arm m) (inScope arm m') fun _ _ => True := by
  refine .of_sound fun hs => ?_
  have howner := harm.owner_eq hs
  have hrun := @h { s with focus := { s.focus with scope := arm } } howner
    (fun ha => ha.withFocus howner)
  rw [State.owner, howner] at hrun
  exact runs_withFocus (fun _ => harm.lt) hrun fun _ _ _ _ => trivial

theorem State.Keeps.hasArm {spared : ScopeId → Prop} {s' : State} (h : s.Keeps spared s') {arm : ScopeId} (ha : s.HasArm arm) :
    s'.HasArm arm := by
  obtain ⟨scope, hs, hp, hb⟩ := ha
  obtain ⟨scope', hs', hg, _⟩ := h.arena arm scope hs
  exact ⟨scope', hs', by rw [hg.parent, hp, h.focus], by rw [hg.kind.isBranch_eq, hb]⟩

/-! ## Untyped functions -/

theorem runs_updateFunction {id : ScopeId} {name : String} {type : TypeId}
    {Q : ScopeId → State → Prop}
    (hQ : ∀ holder scope, (holder, scope) ∈ s.arena.chain id → scope.untyped.contains name →
      scope.identifiers.contains name = false → Q holder { s with arena := s.arena.modify holder (Arena.typeFunction name type) }) :
    Runs S spared s (onArena fun a => a.updateFunction id name type)
      (onArena fun a => a.updateFunction id name type) Q := by
  intro hs hc
  rcases s.arena.updateFunction_cases id name type with
    hrun | ⟨holder, scope, hmem, hu, hrun⟩
  · exact runs_onArena_error hrun trivial hs hc
  have hscope := (hs.arena.ordered.mem_chain hmem).1
  rcases hrun with hrun | ⟨hfree, hrun⟩
  · obtain ⟨hs', hk⟩ := hs.forgetFunction hscope hu
    rw [run_onArena_error hrun]
    exact ⟨fun _ => .inl rfl, hs', hk, trivial⟩
  · obtain ⟨hs', hk⟩ := hs.typeFunction hscope hu type
    rw [run_onArena_ok hrun]
    exact ⟨fun _ => .inl rfl, hs', hk, hQ holder scope hmem hu hfree⟩

theorem runs_bindUntyped? (e : Expr) (expected : TypeId) :
    Runs S spared s (bindUntyped? e expected) (bindUntyped? e expected) fun _ _ => True := by
  rw [bindUntyped?]
  refine runs_get_bind ?_
  cases e with
  | identifier id =>
    simp only
    split
    · have htype : Runs S spared s (onArena fun a => a.updateFunction s.focus.scope id.name expected)
          (onArena fun a => a.updateFunction s.focus.scope id.name expected) fun _ _ => True :=
        runs_updateFunction fun _ _ _ _ _ => trivial
      exact runs_bind htype fun _ _ _ _ _ => runs_pure trivial
    · exact runs_pure trivial
  | _ => exact runs_pure trivial

theorem Visits.into (hv : Visits S n v v') {e : Expr} (ha : s.At n (.expr e))
    (expected : Option TypeId) :
    Runs S spared s (v.into e expected) (v'.into e expected) Told := by
  cases expected with
  | none => exact hv.value ha
  | some expected =>
    refine .of_sound fun hs => ?_
    refine runs_bind (runs_bindUntyped? e expected) fun bound s₁ hk _ _ => ?_
    cases bound with
    | some bound => exact runs_pure .some
    | none => exact hv.expecting (ha.keeps hs hk) (some expected)

/-! ## Statements -/

/-- The functions among statements of the body at hand. -/
theorem State.At.holds {f : Function} (ha : s.At n (.stmt (.function f))) :
    s.Holds s.owner (.declared, f) := by
  obtain ⟨⟨body, hbody, hmem⟩, _⟩ := ha
  exact ⟨body, hbody, mem_directOf hmem rfl⟩

theorem runs_registerFunctions {stmts : List Stmt}
    (ha : ∀ stmt ∈ stmts, s.At n (.stmt stmt)) :
    Runs S spared s (registerFunctions stmts) (registerFunctions stmts) fun _ _ => True := by
  induction stmts generalizing s with
  | nil => exact runs_pure trivial
  | cons stmt rest ih =>
    have harest : ∀ stmt ∈ rest, s.At n (.stmt stmt) :=
      fun stmt hmem => ha stmt (List.mem_cons_of_mem _ hmem)
    cases stmt with
    | function f =>
      rw [registerFunctions]
      refine runs_get_bind ?_
      have hadd : Runs S spared s (onArena fun a => a.addFunction s.focus.scope f.name f)
          (onArena fun a => a.addFunction s.focus.scope f.name f) fun _ _ => True := by
        intro hs hc
        rcases s.arena.addFunction_cases s.focus.scope f.name f with hrun | hrun
        · exact runs_onArena_error hrun trivial hs hc
        · obtain ⟨hs', hk⟩ := hs.addFunction (ha _ List.mem_cons_self).holds
          rw [run_onArena_ok hrun]
          exact ⟨fun _ => .inl rfl, hs', hk, trivial⟩
      refine .of_sound fun hs => runs_bind hadd fun _ s₁ hk _ _ => ?_
      exact ih fun stmt hmem => (harest stmt hmem).keeps hs hk
    | _ => exact ih harest

theorem Visits.inOrder (hv : Visits S n v v') {stmts : List Stmt}
    (ha : ∀ stmt ∈ stmts, s.At n (.stmt stmt)) :
    Runs S (some s.owner) s (v.inOrder stmts) (v'.inOrder stmts) fun _ _ => True := by
  induction stmts generalizing s with
  | nil => exact runs_pure trivial
  | cons stmt rest ih =>
    refine .of_sound fun hs => ?_
    refine runs_bind (hv.stmt (ha stmt List.mem_cons_self)) fun _ s₁ hk _ _ => ?_
    rw [← hk.owner_eq hs.arena.ordered hs.focus]
    exact ih fun stmt hmem => (ha stmt (List.mem_cons_of_mem _ hmem)).keeps hs hk

theorem Visits.statements (hv : Visits S n v v') {stmts : List Stmt}
    (ha : ∀ stmt ∈ stmts, s.At n (.stmt stmt)) :
    Runs S (some s.owner) s (v.statements stmts) (v'.statements stmts) fun _ _ => True := by
  refine .of_sound fun hs => ?_
  refine runs_bind (hv.inOrder fun stmt hmem => ha stmt (List.mem_filter.mp hmem).1)
    fun _ s₁ hk _ _ => ?_
  rw [← hk.owner_eq hs.arena.ordered hs.focus]
  exact hv.inOrder fun stmt hmem => (ha stmt (List.mem_filter.mp hmem).1).keeps hs hk

theorem Visits.block (hv : Visits S n v v') {stmts : List Stmt}
    (ha : ∀ stmt ∈ stmts, s.At n (.stmt stmt)) :
    Runs S (some s.owner) s (v.block stmts) (v'.block stmts) fun _ _ => True := by
  refine .of_sound fun hs => ?_
  refine runs_bind (runs_registerFunctions ha) fun _ s₁ hk _ _ => ?_
  rw [← hk.owner_eq hs.arena.ordered hs.focus]
  exact hv.statements fun stmt hmem => (ha stmt hmem).keeps hs hk

end HeaderCheck.Verify
