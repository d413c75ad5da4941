import HeaderCheck.Proofs.Project.Assigned
import HeaderCheck.Proofs.Project.Order

/-!
# HeaderCheck.Proofs.Project.Handles

What a session finds out does not depend on the handles that types have, whatever its headers import
and its sources require.

* `Session.Parallel`: the same session in two runs, up to handles.
* `alike`: sessions related so. Headers and requires keep them so, by induction on the fuel, and so do
  the nodes of sources.
* `State.Issued`: a state that is the same as itself, that is, a state whose table is well formed and
  whose handles all stand for types. The states in which sources end are of this kind
  (`issued_inspect`), and visits keep them so (`State.Issued.run`).
-/

namespace HeaderCheck

open HeaderCheck.Types (Table TypeId)

/-- The two runs of the same work from the same state are one run. -/
theorem Lockstep.run_self {ε σ α : Type} {A : Accord σ} {s s' : σ} {m : ExceptT ε (StateM σ) α}
    {Q : α → α → σ × σ → Prop} {result : Except ε α} (h : Lockstep A (s, s) m m Q) (hs : A.Meets s s)
    (hrun : m.run s = (result, s')) :
    A.Onward (s, s) (s', s') ∧ ∀ a, result = .ok a → Q a a (s', s') := by
  obtain ⟨first, second, ⟨t, t'⟩, hfirst, hsecond, honward, hend⟩ := h hs
  rw [hrun] at hfirst hsecond
  cases hfirst
  cases hsecond
  refine ⟨honward, ?_⟩
  rintro a rfl
  cases hend with
  | ok hQ => exact hQ

namespace Project

open HeaderCheck.Header (Lowered)
open HeaderCheck.Script (Source)
open HeaderCheck.Verify (HeadersAlike Required RequiresAlike State)

variable {host : Host} {options : Options} {s s' : Session} {p q : Session × Session}

/-! ## Sessions -/

/-- The same session in two runs, up to handles. -/
structure Session.Parallel (s s' : Session) : Prop where
  left : s.table.WellFormed
  right : s'.table.WellFormed
  globals : s.globals.Parallel (s.table.Same s'.table) s'.globals
  headers : s.headers.Parallel (Option.Rel (Lowered.Parallel (s.table.Same s'.table))) s'.headers
  files : s.files.Parallel (FileResult.Parallel (s.table.Same s'.table)) s'.files
  compiling : s'.compiling = s.compiling
  lowering : s'.lowering = s.lowering

theorem Session.Parallel.withTable (h : s.Parallel s') {u u' : Table} (hu : u.WellFormed)
    (hu' : u'.WellFormed) (hx : s.table.Extends u) (hx' : s'.table.Extends u') :
    Session.Parallel { s with table := u } { s' with table := u' } := by
  have hmono : ∀ i i', s.table.Same s'.table i i' → u.Same u' i i' := fun _ _ hi =>
    hi.extend h.left h.right hu hu' hx hx'
  have hheaders : s.headers.Parallel (Option.Rel (Lowered.Parallel (u.Same u'))) s'.headers :=
    h.headers.mono fun _ _ hrel => by
      cases hrel with
      | none => exact .none
      | some hl => exact .some (hl.mono hmono)
  exact ⟨hu, hu', h.globals.mono hmono, hheaders,
    h.files.mono fun _ _ hfile => carries_file.mono hfile hmono, h.compiling, h.lowering⟩

/-- Two sessions that are the same up to handles. -/
def alike : Pact where
  Meets := Session.Parallel
  left := fun h => h.left
  right := fun h => h.right
  globals := fun h => h.globals
  grow := fun h => h.withTable

/-- The same, for the lowering of headers. -/
def alikeHeaders : Joint where
  Meets := Session.Parallel
  left := fun h => h.left
  right := fun h => h.right
  grow := fun h => h.withTable

/-! ## Headers -/

/-- Work between two changes that only say what is underway. -/
theorem lockstep_between {α : Type} {m m' n n' : SessionM α} {Q : α → α → Session × Session → Prop}
    (enter leave : Session → Session)
    (hrun : ∀ s, n.run s = ((m.run (enter s)).1, leave (m.run (enter s)).2))
    (hrun' : ∀ s, n'.run s = ((m'.run (enter s)).1, leave (m'.run (enter s)).2))
    (henter : ∀ {s s'}, s.Parallel s' → (enter s).Parallel (enter s'))
    (hleave : ∀ {s s'}, s.Parallel s' → (leave s).Parallel (leave s'))
    (htable : ∀ s, (enter s).table = s.table ∧ (leave s).table = s.table)
    (h : ∀ q, Lockstep alike.sessions q m m' Q)
    (hQ : ∀ a a' r, Q a a' r → Q a a' (leave r.1, leave r.2)) :
    Lockstep alike.sessions p n n' Q := by
  intro hp
  obtain ⟨result, result', q, hm, hm', hq, hend⟩ := h (enter p.1, enter p.2) (henter hp)
  refine ⟨result, result', (leave q.1, leave q.2), ?_, ?_, ⟨hp, hleave hq.meets, ?_, ?_⟩,
    hend.mono fun a a' => hQ a a' q⟩
  · rw [hrun, hm]
  · rw [hrun', hm']
  · have hx : (enter p.1).table.Extends q.1.table := hq.left
    change p.1.table.Extends (leave q.1).table
    rwa [(htable q.1).2, ← (htable p.1).1]
  · have hx : (enter p.2).table.Extends q.2.table := hq.right
    change p.2.table.Extends (leave q.2).table
    rwa [(htable q.2).2, ← (htable p.2).1]

theorem run_whileLowering {α : Type} (path : String) (m : SessionM α) (s : Session) :
    (whileLowering path m).run s =
      let run := m.run { s with lowering := path :: s.lowering }
      (run.1, { run.2 with lowering := run.2.lowering.tail }) := rfl

/-- What is found out about a header is known from then on. -/
theorem lockstep_insertHeader (path : String) {header header' : Option Lowered}
    (h : Headers? alike.sessions header header' p) :
    Lockstep alike.sessions p
      (modify fun s => { s with headers := s.headers.insert path header } : SessionM Unit)
      (modify fun s => { s with headers := s.headers.insert path header' }) fun _ _ _ => True := by
  refine .modify (fun hp => ⟨hp, ?_, .refl _, .refl _⟩) trivial
  exact { hp with headers := hp.headers.insert path h }

theorem lockstep_resolveWithin (host : Host) (options : Options) (fuel : Nat) (path : String) :
    Lockstep alike.sessions p (resolveWithin host options fuel path)
      (resolveWithin host options fuel path) (Headers? alike.sessions) := by
  induction fuel generalizing p path with
  | zero => exact .throw _
  | succ fuel ih =>
    refine .get_bind fun hp => ?_
    have hknown := hp.headers.get? (Path.normalize path)
    generalize p.1.headers.get? (Path.normalize path) = known at hknown
    generalize p.2.headers.get? (Path.normalize path) = known' at hknown
    cases hknown with
    | some hknown => exact .pure fun _ => hknown
    | none =>
      dsimp only
      rw [hp.lowering]
      split
      · exact .pure fun _ => .none
      split
      · exact .bind (lockstep_insertHeader _ .none) fun _ _ _ _ _ => .pure fun _ => .none
      next header _ =>
      have hlowered : Lockstep alike.sessions p
          (whileLowering (Path.normalize path) (lowerHeader (resolveWithin host options fuel) options
            (Path.normalize path) header))
          (whileLowering (Path.normalize path) (lowerHeader (resolveWithin host options fuel) options
            (Path.normalize path) header))
          fun h h' q => h.Parallel (alike.sessions.Same q) h' :=
        lockstep_between (fun s => { s with lowering := Path.normalize path :: s.lowering })
          (fun s => { s with lowering := s.lowering.tail }) (run_whileLowering _ _)
          (run_whileLowering _ _)
          (fun h => { h with lowering := congrArg (Path.normalize path :: ·) h.lowering })
          (fun h => { h with lowering := congrArg List.tail h.lowering }) (fun _ => ⟨rfl, rfl⟩)
          (fun q => lockstep_lowerHeader (J := alikeHeaders) fun r target _ => ih target)
          fun _ _ _ h => h
      refine .bind hlowered fun lowered lowered' q _ hl => ?_
      exact .bind (lockstep_insertHeader _ (.some hl)) fun _ _ r hr _ => .pure fun _ =>
        .some (hl.mono fun _ _ => hr.same)

theorem headersAlike_alike (host : Host) (options : Options) :
    HeadersAlike alike (resolveHeader host options) :=
  fun _ path => lockstep_resolveWithin host options _ path

/-! ## Sources -/

theorem lockstep_checkOnce (host : Host) (path : String) {check check' : Source → SessionM FileResult}
    (h : ∀ source q, alike.sessions.Onward p q →
      Lockstep alike.sessions q (check source) (check' source) (SameFile alike)) :
    Lockstep alike.sessions p (checkOnce host path check) (checkOnce host path check')
      (SameFile? alike) := by
  refine .get_bind fun hp => ?_
  have hknown := hp.files.get? path
  generalize p.1.files.get? path = known at hknown
  generalize p.2.files.get? path = known' at hknown
  cases hknown with
  | some hfile => exact .pure fun _ => .some hfile
  | none =>
    cases host.source? path with
    | none => exact .pure fun _ => .none
    | some source =>
      refine .bind (h source p (.refl hp)) fun file file' q _ hfile => ?_
      have hinsert : Lockstep alike.sessions q
          (modify fun s => { s with files := s.files.insert path file } : SessionM Unit)
          (modify fun s => { s with files := s.files.insert path file' }) fun _ _ _ => True := by
        refine .modify (fun hq => ⟨hq, ?_, .refl _, .refl _⟩) trivial
        exact { hq with files := hq.files.insert path hfile }
      exact .bind hinsert fun _ _ r hr _ => .pure fun _ =>
        .some (carries_file.mono hfile fun _ _ => hr.same)

theorem requiresAlike_alike {check : String → SessionM (Option FileResult)}
    (h : ∀ p path, Lockstep alike.sessions p (check path) (check path) (SameFile? alike)) :
    RequiresAlike alike (requireModule host options check) (requireModule host options check) := by
  intro p file request
  rw [requireModule]
  split
  · refine .get_bind fun hp => ?_
    rw [hp.compiling]
    split
    · exact .pure fun _ => .cyclic
    refine .bind (h p _) fun file file' q _ hfile => ?_
    cases hfile with
    | none => exact .pure fun _ => .notFound
    | some hfile =>
      exact .pure fun hmeets => .resolved _
        (Types.rel_getD hfile.exports (Accord.same_fixed hmeets (by decide)))
  · exact lockstep_requireDefinition (headersAlike_alike host options) request

theorem lockstep_checkWithin (host : Host) (options : Options) (levels : Nat) (path : String) :
    Lockstep alike.sessions p (checkWithin host options levels path)
      (checkWithin host options levels path) (SameFile? alike) := by
  induction levels generalizing p path with
  | zero => exact lockstep_checkOnce host path fun _ _ _ => .throw _
  | succ levels ih =>
    refine lockstep_checkOnce host path fun source q _ => ?_
    have hr : RequiresAlike alike
        (requireModule host options fun path => checkWithin host options levels path)
        (requireModule host options fun path => checkWithin host options levels path) :=
      requiresAlike_alike fun _ path => ih path
    exact lockstep_between (fun s => { s with compiling := path :: s.compiling })
      (fun s => { s with compiling := s.compiling.tail }) (run_whileCompiling path _)
      (run_whileCompiling path _)
      (fun h => { h with compiling := congrArg (path :: ·) h.compiling })
      (fun h => { h with compiling := congrArg List.tail h.compiling }) (fun _ => ⟨rfl, rfl⟩)
      (fun r => lockstep_verifyFile (headersAlike_alike host options) hr source) fun _ _ _ h => h

/-! ## Sessions that start -/

theorem lockstep_loadGlobals (host : Host) (options : Options) :
    Lockstep alike.sessions p (loadGlobals host options) (loadGlobals host options)
      fun _ _ _ => True := by
  rw [loadGlobals]
  split
  · exact .pure fun _ => trivial
  next file _ =>
  refine .bind (headersAlike_alike host options p (Path.normalize file)) fun header header' q _ hheader => ?_
  cases hheader with
  | none => exact .throw _
  | some hheader =>
    refine .modify (fun hq => ⟨hq, ?_, .refl _, .refl _⟩) trivial
    exact { hq with globals := hq.globals.bindAll hheader.assignments }

theorem parallel_startWith {globals : Globals} {table : Table} (ht : table.WellFormed)
    (hg : globals.Issued table) (h : Session.startWith host options globals table = .ok s) :
    s.Parallel s := by
  have hfirst : Session.Parallel { table, globals } { table, globals } :=
    ⟨ht, ht, hg.parallel, .empty, .empty, rfl, rfl⟩
  rw [Session.startWith] at h
  split at h
  next session hrun =>
    cases h
    exact ((lockstep_loadGlobals host options).run_self hfirst hrun).1.meets
  · cases h

/-- All handles in a session that starts stand for types of its table. -/
theorem parallel_start (h : Session.start host options = .ok s) : s.Parallel s :=
  parallel_startWith Builtins.wellFormed_globals Builtins.checked_globals.2.2.2 h

end Project

namespace Verify

open HeaderCheck.Project (Host Options Session alike headersAlike_alike inspect lockstep_checkWithin
  parallel_start requiresAlike_alike requiring states_start)

/-- All handles in the state stand for types of its table, which is well formed. -/
def State.Issued (s : State) : Prop :=
  s.Parallel alike s

namespace State.Issued

variable {α : Type} {s s' : State} {m : Check α}

theorem table (h : s.Issued) : s.table.WellFormed :=
  h.left

/-- Work that does the same in two runs leaves all handles issued. -/
theorem run {Q : α → α → State × State → Prop} {result : Except Project.Error α} (h : s.Issued)
    (hm : Lockstep (states alike) (s, s) m m Q) (hrun : m.run s = (result, s')) :
    s'.Issued ∧ s.table.Extends s'.table ∧ ∀ a, result = .ok a → Q a a (s', s') := by
  obtain ⟨honward, hQ⟩ := hm.run_self h hrun
  exact ⟨honward.meets, honward.left, hQ⟩

/-- A type that is found is issued. -/
theorem run? {m : Check (Option TypeId)} {result : Option TypeId} (h : s.Issued)
    (hm : Lockstep (states alike) (s, s) m m (Handles? alike)) (hrun : m.run s = (.ok result, s')) :
    s'.Issued ∧ s.table.Extends s'.table ∧ ∀ type ∈ result, s'.table.Issued type := by
  obtain ⟨hissued, hx, hQ⟩ := h.run hm hrun
  refine ⟨hissued, hx, ?_⟩
  rintro type htype
  have hrel := hQ _ rfl
  rw [Option.mem_def.mp htype] at hrel
  cases hrel with
  | some hsame => exact hsame.left

end State.Issued

/-- The visitor of a source does the same in two runs. -/
theorem visitsAlike_requiring (host : Host) (options : Options) (levels fuel : Nat) :
    VisitsAlike alike (requiring host options levels fuel) (requiring host options levels fuel) :=
  visitsAlike_visitor (requiresAlike_alike fun _ path => lockstep_checkWithin host options levels path)
    fuel

/-- All handles in the state in which a source ends stand for types. -/
theorem issued_inspect {host : Host} {options : Options} {path : String} {s : State}
    (h : inspect host options path = .ok s) : s.Issued := by
  rw [inspect] at h
  split at h
  · cases h
  next source _ =>
  rcases hstart : Session.start host options with e | session
  · rw [hstart] at h
    cases h
  rw [hstart] at h
  have hstarted : (State.start session source).Issued :=
    states_start (p := (session, session)) (parallel_start hstart) source
  simp only [bind, Except.bind] at h
  split at h
  · next hrun =>
    cases h
    exact (hstarted.run (lockstep_verifySource (headersAlike_alike host options)
      (requiresAlike_alike fun _ path => lockstep_checkWithin host options _ path)) hrun).1
  · cases h

end Verify

end HeaderCheck
