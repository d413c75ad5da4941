import HeaderCheck.Proofs.Lockstep
import HeaderCheck.Proofs.Scope.Parallel
import HeaderCheck.Proofs.Types.Counterparts
import HeaderCheck.Proofs.Verify.Run

/-!
# HeaderCheck.Proofs.Verify.Parallel

One source verified in two runs, whose sessions give the same types other handles.

* `Pact`: what the sessions of the two runs have in common all the time.
* `State.Parallel`: the same state in both runs, up to handles. `Pact.states` is the accord that the
  judgement `Lockstep` is used with.
* One rule for each operation on a part of the state.
-/

namespace HeaderCheck

open HeaderCheck.Types (Table TypeId)

namespace Project

/-- What the sessions of two runs have in common all the time. -/
structure Pact where
  Meets : Session → Session → Prop
  left : ∀ {t t'}, Meets t t' → t.table.WellFormed
  right : ∀ {t t'}, Meets t t' → t'.table.WellFormed
  globals : ∀ {t t'}, Meets t t' → t.globals.Parallel (t.table.Same t'.table) t'.globals
  grow : ∀ {t t' : Session} {u u' : Table}, Meets t t' → u.WellFormed → u'.WellFormed →
    t.table.Extends u → t'.table.Extends u' → Meets { t with table := u } { t' with table := u' }

/-- The sessions of two runs. -/
def Pact.sessions (P : Pact) : Accord Session where
  table := Session.table
  Meets := P.Meets
  left := P.left
  right := P.right

end Project

namespace Verify

open HeaderCheck.Project (Error Pact Session SessionM)
open HeaderCheck.Report (Diagnostic Kind)
open HeaderCheck.Scope (Arena LookupMode ScopeId)
open HeaderCheck.Script (Source)

/-! ## States of two runs -/

/-- The same look at a node in two runs. -/
structure Focus.Parallel (R : TypeId → TypeId → Prop) (f f' : Focus) : Prop where
  scope : f'.scope = f.scope
  expected : Option.Rel R f.expected f'.expected
  mode : f'.mode = f.mode
  isTarget : f'.isTarget = f.isTarget

/-- What is found out about a source in two runs. -/
structure State.Parallel (P : Pact) (s s' : State) : Prop where
  session : P.Meets s.session s'.session
  source : s'.source = s.source
  arena : s.arena.Parallel (s.table.Same s'.table) s'.arena
  fileScope : s'.fileScope = s.fileScope
  focus : s.focus.Parallel (s.table.Same s'.table) s'.focus
  diagnostics : s'.diagnostics = s.diagnostics
  exports : Option.Rel (s.table.Same s'.table) s.exports s'.exports
  unknown : s'.unknown = s.unknown
  dependencies : s'.dependencies = s.dependencies

/-- The states of two runs. -/
def states (P : Pact) : Accord State where
  table := State.table
  Meets := State.Parallel P
  left := fun h => P.left h.session
  right := fun h => P.right h.session

variable {P : Pact} {α β : Type} {p q r : State × State}

/-- The handles stand for the same type after both runs. -/
abbrev Handles (P : Pact) (i i' : TypeId) (q : State × State) : Prop :=
  (states P).Same q i i'

/-- The same type after both runs, if any. -/
abbrev Handles? (P : Pact) (i i' : Option TypeId) (q : State × State) : Prop :=
  Option.Rel ((states P).Same q) i i'

/-- The sessions of a pair of states. -/
abbrev sessionsOf (q : State × State) : Session × Session :=
  (q.1.session, q.2.session)

theorem Focus.Parallel.mono {R S : TypeId → TypeId → Prop} {f f' : Focus} (h : f.Parallel R f')
    (hRS : ∀ i i', R i i' → S i i') : f.Parallel S f' :=
  ⟨h.scope, Types.rel_mono h.expected hRS, h.mode, h.isTarget⟩

namespace State.Parallel

variable {s s' : State} (h : s.Parallel P s')

include h

theorem left : s.table.WellFormed :=
  P.left h.session

theorem right : s'.table.WellFormed :=
  P.right h.session

/-- Sessions that go on together keep states parallel. -/
theorem withSession {t t' : Session} (ht : P.sessions.Onward (s.session, s'.session) (t, t')) :
    State.Parallel P { s with session := t } { s' with session := t' } := by
  have hmono : ∀ i i', s.table.Same s'.table i i' → t.table.Same t'.table i i' := fun _ _ => ht.same
  exact ⟨ht.meets, h.source, h.arena.mono hmono, h.fileScope, h.focus.mono hmono, h.diagnostics,
    Types.rel_mono h.exports hmono, h.unknown, h.dependencies⟩

theorem withTable {t t' : Table} (ht : t.WellFormed) (ht' : t'.WellFormed) (hx : s.table.Extends t)
    (hx' : s'.table.Extends t') : (s.withTable t).Parallel P (s'.withTable t') :=
  h.withSession ⟨h.session, P.grow h.session ht ht' hx hx', hx, hx'⟩

/-! ### What a state says -/

theorem typeIn_rel (scope : ScopeId) (name : String) (mode : LookupMode) :
    Option.Rel (s.table.Same s'.table) (s.typeIn scope name mode) (s'.typeIn scope name mode) :=
  h.arena.getVar_rel (P.globals h.session) scope name mode

theorem lookup_rel (name : String) :
    Option.Rel (s.table.Same s'.table) (s.lookup name) (s'.lookup name) := by
  rw [State.lookup, State.lookup, h.focus.scope, h.focus.mode]
  exact h.typeIn_rel _ _ _

theorem declaredType_rel (name : String) :
    Option.Rel (s.table.Same s'.table) (s.declaredType name) (s'.declaredType name) := by
  rw [State.declaredType, State.declaredType, h.focus.scope]
  exact h.typeIn_rel _ _ _

theorem isUntyped_eq (name : String) : s'.isUntyped name = s.isUntyped name := by
  rw [State.isUntyped, State.isUntyped, h.focus.scope, h.arena.getFunction?_eq]

theorem owner_eq : s'.owner = s.owner := by
  rw [State.owner, State.owner, h.focus.scope, h.arena.owner_eq]

theorem inBranch_eq : s'.inBranch = s.inBranch := by
  rw [State.inBranch, State.inBranch, h.focus.scope]
  exact h.arena.isBranch_eq _

theorem inFileScope_eq : s'.inFileScope = s.inFileScope := by
  rw [State.inFileScope, State.inFileScope, h.focus.scope, h.fileScope]

theorem hasFunctionScope_eq (key : String) : s'.hasFunctionScope key = s.hasFunctionScope key := by
  rw [State.hasFunctionScope, State.hasFunctionScope, h.owner_eq]
  exact h.arena.hasFunction_eq _ _

theorem contextType?_rel : Option.Rel (s.table.Same s'.table) s.contextType? s'.contextType? := by
  have hexpected := h.focus.expected
  have hreturned := h.arena.returnExpressionType?_rel s.focus.scope
  rw [State.contextType?, State.contextType?, h.focus.scope]
  generalize s.focus.expected = expected at hexpected
  generalize s'.focus.expected = expected' at hexpected
  cases hexpected with
  | none => exact hreturned
  | some hi => exact .some hi

theorem format_eq {i i' : TypeId} (hi : s.table.Same s'.table i i') : s'.format i' = s.format i :=
  (Table.format_same h.left h.right hi).symm

theorem diagnostic_eq (kind : Kind) (span : Span) (fields : List (String × String)) :
    s'.diagnostic kind span fields = s.diagnostic kind span fields := by
  rw [State.diagnostic, State.diagnostic, h.source]

theorem snippet_eq (span : Span) : s'.source.snippet span = s.source.snippet span := by
  rw [h.source]

theorem mismatch?_eq (span : Span) {i i' j j' : TypeId} (hi : s.table.Same s'.table i i')
    (hj : s.table.Same s'.table j j') : s'.mismatch? span i' j' = s.mismatch? span i j := by
  have hcheck := Table.check_same h.left h.right hi hj
  rw [State.mismatch?, State.mismatch?]
  generalize s.table.check i j = answer at hcheck
  generalize s'.table.check i' j' = answer' at hcheck
  cases hcheck with
  | ok => rfl
  | error hfailure =>
    cases hfailure <;> rename_i he ha <;>
      simp only [State.failureDiagnostic, h.diagnostic_eq, h.format_eq he, h.format_eq ha]

end State.Parallel

/-! ## Operations -/

theorem onward_withTable (hp : (states P).Meets p.1 p.2) {t t' : Table} (ht : t.WellFormed)
    (ht' : t'.WellFormed) (hx : p.1.table.Extends t) (hx' : p.2.table.Extends t') :
    (states P).Onward p (p.1.withTable t, p.2.withTable t') :=
  ⟨hp, hp.withTable ht ht' hx hx', hx, hx'⟩

theorem lockstep_onTable {f f' : Table → TypeId × Table} (h : (states P).Meets p.1 p.2 →
    Table.SameMade p.1.table p.2.table (f p.1.table) (f' p.2.table)) :
    Lockstep (states P) p (onTable f) (onTable f') (Handles P) := by
  intro hp
  obtain ⟨hleft, hright, hsame⟩ := h hp
  exact ⟨.ok (f p.1.table).1, .ok (f' p.2.table).1, (p.1.withTable (f p.1.table).2,
    p.2.withTable (f' p.2.table).2), rfl, rfl, onward_withTable hp hleft.wellFormed hright.wellFormed
    hleft.extend hright.extend, .ok hsame⟩

theorem lockstep_onTable? {f f' : Table → Option (TypeId × Table)}
    (h : (states P).Meets p.1 p.2 →
      Option.Rel (Table.SameMade p.1.table p.2.table) (f p.1.table) (f' p.2.table)) :
    Lockstep (states P) p (onTable? f) (onTable? f') (Handles? P) := by
  intro hp
  have hmade := h hp
  generalize hf : f p.1.table = made at hmade
  generalize hf' : f' p.2.table = made' at hmade
  cases hmade with
  | none =>
    exact ⟨_, _, p, run_onTable?_none hf, run_onTable?_none hf', .refl hp, .ok .none⟩
  | @some made made' hmade =>
    exact ⟨_, _, (p.1.withTable made.2, p.2.withTable made'.2), run_onTable?_some hf,
      run_onTable?_some hf', onward_withTable hp hmade.left.wellFormed hmade.right.wellFormed
      hmade.left.extend hmade.right.extend, .ok (.some hmade.same)⟩

/-- A type that is made of parts which stand for the same. -/
theorem lockstep_add {data data' : Types.TypeData} (h : data.Parallel ((states P).Same p) data')
    (hflat : p.1.table.FlatData data) (hflat' : p.2.table.FlatData data') :
    Lockstep (states P) p (onTable fun t => t.add data) (onTable fun t => t.add data') (Handles P) :=
  lockstep_onTable fun hp => Table.sameMade_add hp.left hp.right h hflat hflat'

theorem lockstep_union2 {i i' j j' : TypeId} (hi : Handles P i i' p) (hj : Handles P j j' p) :
    Lockstep (states P) p (onTable fun t => t.union2 i j) (onTable fun t => t.union2 i' j')
      (Handles P) :=
  lockstep_onTable fun hp => Table.sameMade_union hp.left hp.right (.cons hi (.cons hj .nil))

theorem lockstep_onArena {f f' : Arena → Except Scope.Error α × Arena}
    (h : (states P).Meets p.1 p.2 → Arena.Parallel.Runs ((states P).Same p) (f p.1.arena)
      (f' p.2.arena)) :
    Lockstep (states P) p (onArena f) (onArena f') fun a a' _ => a = a' := by
  intro hp
  obtain ⟨hresult, hparallel⟩ := h hp
  refine ⟨(f p.1.arena).1.mapError .scope, (f' p.2.arena).1.mapError .scope,
    ({ p.1 with arena := (f p.1.arena).2 }, { p.2 with arena := (f' p.2.arena).2 }), rfl, rfl,
    ⟨hp, { hp with arena := hparallel }, .refl _, .refl _⟩, ?_⟩
  rw [hresult]
  cases (f p.1.arena).1 with
  | ok a => exact .ok rfl
  | error e => exact .error _

theorem lockstep_openBranch :
    Lockstep (states P) p openBranch openBranch fun branch branch' _ => branch = branch' := by
  intro hp
  obtain ⟨hid, hparallel⟩ := hp.arena.pushBranch p.1.focus.scope
  refine ⟨.ok (p.1.arena.pushBranch p.1.focus.scope).1, .ok (p.2.arena.pushBranch p.2.focus.scope).1,
    ({ p.1 with arena := (p.1.arena.pushBranch p.1.focus.scope).2 },
      { p.2 with arena := (p.2.arena.pushBranch p.2.focus.scope).2 }), rfl, rfl,
    ⟨hp, ?_, .refl _, .refl _⟩, ?_⟩
  · rw [hp.focus.scope]
    exact { hp with arena := hparallel }
  · rw [hp.focus.scope]
    exact .ok hid.symm

theorem lockstep_withFocus {change change' : Focus → Focus} {m m' : Check α}
    {Q : α → α → State × State → Prop}
    (hchange : (states P).Meets p.1 p.2 →
      (change p.1.focus).Parallel ((states P).Same p) (change' p.2.focus))
    (h : ∀ q, (states P).Onward p q → Lockstep (states P) q m m' Q)
    (hQ : ∀ a a' r f f', Q a a' r → Q a a' ({ r.1 with focus := f }, { r.2 with focus := f' })) :
    Lockstep (states P) p (withFocus change m) (withFocus change' m') Q := by
  intro hp
  have hturned : (states P).Meets { p.1 with focus := change p.1.focus }
      { p.2 with focus := change' p.2.focus } := { hp with focus := hchange hp }
  obtain ⟨result, result', q, hrun, hrun', hq, hend⟩ := h
    ({ p.1 with focus := change p.1.focus }, { p.2 with focus := change' p.2.focus })
    ⟨hp, hturned, .refl _, .refl _⟩ hturned
  refine ⟨result, result', ({ q.1 with focus := p.1.focus }, { q.2 with focus := p.2.focus }), ?_, ?_,
    ⟨hp, ?_, hq.left, hq.right⟩, hend.mono fun a a' h => hQ a a' q _ _ h⟩
  · rw [run_withFocus, hrun]
  · rw [run_withFocus, hrun']
  · exact { hq.meets with focus := hp.focus.mono fun _ _ => hq.same }

/-- Work on the sessions. -/
theorem lockstep_onSession {m m' : SessionM α} {Q : α → α → Session × Session → Prop}
    (h : Lockstep P.sessions (sessionsOf p) m m' Q) :
    Lockstep (states P) p (onSession m) (onSession m') fun a a' q => Q a a' (sessionsOf q) := by
  intro hp
  obtain ⟨result, result', q, hrun, hrun', hq, hend⟩ := h hp.session
  refine ⟨result, result', ({ p.1 with session := q.1 }, { p.2 with session := q.2 }), ?_, ?_,
    ⟨hp, hp.withSession hq, hq.left, hq.right⟩, hend⟩
  · rw [run_onSession, hrun]
  · rw [run_onSession, hrun']

/-- The scope at hand is the same in both runs. -/
theorem lockstep_inScope {scope : ScopeId} {m m' : Check α} {Q : α → α → State × State → Prop}
    (h : ∀ q, (states P).Onward p q → Lockstep (states P) q m m' Q)
    (hQ : ∀ a a' r f f', Q a a' r → Q a a' ({ r.1 with focus := f }, { r.2 with focus := f' })) :
    Lockstep (states P) p (inScope scope m) (inScope scope m') Q :=
  lockstep_withFocus (fun hp => { hp.focus with scope := rfl }) h hQ

/-! ## Reports -/

theorem lockstep_record {diagnostics diagnostics' : List Diagnostic}
    (h : diagnostics' = diagnostics) :
    Lockstep (states P) p (record diagnostics) (record diagnostics') fun _ _ _ => True := by
  subst h
  refine .modify (fun hp => ⟨hp, ?_, .refl _, .refl _⟩) trivial
  exact { hp with diagnostics := congrArg (· ++ diagnostics') hp.diagnostics }

theorem lockstep_report (kind : Kind) (span : Span) {fields fields' : List (String × String)}
    (h : (states P).Meets p.1 p.2 → fields' = fields) :
    Lockstep (states P) p (report kind span fields) (report kind span fields') fun _ _ _ => True := by
  refine .modify (fun hp => ⟨hp, ?_, .refl _, .refl _⟩) trivial
  have hdiagnostics : p.2.diagnostics ++ [p.2.diagnostic kind span fields'] =
      p.1.diagnostics ++ [p.1.diagnostic kind span fields] := by
    rw [h hp, hp.diagnostic_eq, hp.diagnostics]
  exact { hp with diagnostics := hdiagnostics }

/-- Work on a result that may be missing; without it there is none of this work either. -/
theorem lockstep_bind? {m m' : Check (Option α)} {f f' : Option α → Check (Option β)}
    {K : α → α → State × State → Prop} {K' : β → β → State × State → Prop}
    (h : Lockstep (states P) p m m' fun a a' q => Option.Rel (K · · q) a a')
    (hnone : f none = pure none) (hnone' : f' none = pure none)
    (hf : ∀ a a' q, (states P).Onward p q → K a a' q →
      Lockstep (states P) q (f (some a)) (f' (some a')) fun b b' q => Option.Rel (K' · · q) b b') :
    Lockstep (states P) p (m >>= f) (m' >>= f') fun b b' q => Option.Rel (K' · · q) b b' := by
  refine .bind h fun a a' q hq ha => ?_
  cases ha with
  | none =>
    rw [hnone, hnone']
    exact .pure fun _ => .none
  | some ha => exact hf _ _ q hq ha

/-- No result after a report. -/
theorem lockstep_report_none (kind : Kind) (span : Span) {fields fields' : List (String × String)}
    {R : α → α → State × State → Prop} (h : (states P).Meets p.1 p.2 → fields' = fields) :
    Lockstep (states P) p (do report kind span fields; return none)
      (do report kind span fields'; return none) fun a a' q => Option.Rel (R · · q) a a' :=
  .bind (lockstep_report kind span h) fun _ _ _ _ _ => .pure fun _ => .none

theorem lockstep_checkFits (span : Span) {i i' j j' : TypeId} (hi : Handles P i i' p)
    (hj : Handles P j j' p) :
    Lockstep (states P) p (checkFits span i j) (checkFits span i' j') fun fits fits' _ => fits = fits' := by
  refine .get_bind fun hp => ?_
  rw [hp.mismatch?_eq span hi hj]
  split
  · exact .bind (lockstep_record rfl) fun _ _ _ _ _ => .pure fun _ => rfl
  · exact .pure fun _ => rfl

end Verify

end HeaderCheck
