import HeaderCheck.Project.Compile
import HeaderCheck.Proofs.Verify.Source

/-!
# HeaderCheck.Proofs.Project.Check

The check of sources that require one another.

* `Orderly`: what is asked of the sources that are being checked. `checkAlarmed` is the check that
  raises an alarm at every source that begins while they are not orderly.
* `alike_checkWithin`: a check leaves the session as it must, and no alarm is ever raised. The
  induction is on the levels that are left; each source that begins takes one of them.
-/

namespace HeaderCheck.Project

open HeaderCheck.Script (Source)
open HeaderCheck.Verify (Ends Marred OwnRequires Required Requires Setting State Watch verifySource
  watchedSource)

variable {α : Type} {tidy agree : Prop} {s : Session}

/-! ## Alarms -/

/-- No source is being checked twice, and not too many are. -/
def Orderly (compiling : List String) : Prop :=
  compiling.Nodup ∧ compiling.length ≤ maxModuleDepth

instance (compiling : List String) : Decidable (Orderly compiling) :=
  inferInstanceAs (Decidable (_ ∧ _))

/-- Run `alarm` unless the sources that are being checked are orderly. -/
def lookOut (alarm : SessionM Unit) : SessionM Unit := do
  if ¬Orderly (← get).compiling then alarm

/-- The result of a source as `checkWithin` gives it, with a look at the sources that are being
checked each time one more of them begins. -/
def checkAlarmed (alarm : SessionM Unit) (host : Host) (options : Options) :
    (levels : Nat) → (path : String) → SessionM (Option FileResult)
  | 0, path => checkOnce host path fun _ => throw (.moduleDepthExceeded maxModuleDepth)
  | levels + 1, path =>
    checkOnce host path fun source =>
      whileCompiling path do
        lookOut alarm
        verifyFile host options
          (requireModule host options fun path => checkAlarmed alarm host options levels path) source

theorem run_lookOut {alarm : SessionM Unit} (h : Orderly s.compiling) :
    (lookOut alarm).run s = (.ok (), s) := by
  rw [lookOut, run_get_bind]
  simp [h]

/-! ## One source -/

/-- What two ways to check sources must do while `compiling` are being checked. -/
def Checks (tidy agree : Prop) (compiling : List String)
    (check check' : String → SessionM (Option FileResult)) : Prop :=
  ∀ path (s : Session), s.compiling = compiling → (agree → path ∉ compiling) →
    Alike tidy agree s (check path) (check' path)

theorem works_requireDefinition (host : Host) (options : Options) (name : String) :
    Works tidy s (requireDefinition host options name) fun _ _ => True := by
  rw [requireDefinition]
  split
  · exact .pure trivial
  refine Safe.bind (works_resolveHeader host options _) fun header s₁ _ _ => ?_
  cases header with
  | none => exact .pure trivial
  | some header =>
    exact Safe.bind (P := fun _ _ => True)
      (.modifyGet ⟨Types.Table.extends_add _ _, rfl, rfl, rfl⟩ trivial) fun _ _ _ _ => .pure trivial

/-- A module that is being checked is not checked again. -/
theorem Checks.requires {S : Setting} {check check' : String → SessionM (Option FileResult)}
    (h : Checks S.tidy S.agree S.compiling check check') (host : Host) (options : Options) :
    Requires S (requireModule host options check) (requireModule host options check') := by
  intro file request session hcompiling
  rw [requireModule, requireModule]
  split
  · refine .get_bind ?_
    split
    · exact .pure
    next hfree =>
    rw [hcompiling] at hfree
    refine .bind (h _ session hcompiling fun _ => by simpa using hfree) fun result _ _ => ?_
    cases result with
    | none => exact .pure
    | some result => exact .pure
  · exact .of_works (works_requireDefinition host options request)

theorem run_whileCompiling (path : String) (m : SessionM α) (s : Session) :
    (whileCompiling path m).run s =
      let run := m.run { s with compiling := path :: s.compiling }
      (run.1, { run.2 with compiling := run.2.compiling.tail }) := rfl

theorem run_verifyFile {host : Host} {options : Options}
    {require : (file request : String) → SessionM Required} {source : Source}
    {result : Except Error Unit} {s' : State}
    (h : (verifySource host options require).run (State.start s source) = (result, s')) :
    (verifyFile host options require source).run s =
      (result.map fun () => .ofState s', s'.session) := by
  rw [verifyFile, ExceptT.run_mk, h]

theorem Alike.whileCompiling {path : String} {m m' : SessionM α}
    (h : Alike tidy agree { s with compiling := path :: s.compiling } m m') :
    Alike tidy agree s (whileCompiling path m) (whileCompiling path m') := by
  have hk := h.works.keeps
  refine ⟨fun hagree => ?_, ⟨hk.table, hk.globals, congrArg List.tail hk.compiling, hk.lowering⟩,
    fun _ _ => trivial, h.works.failure⟩
  rw [run_whileCompiling, run_whileCompiling, h.same hagree]

theorem alike_verifyFile {S : Setting} {require require' : (file request : String) → SessionM Required}
    (hr : OwnRequires S require require') (htidy : S.tidy → S.source.program.Tidy)
    (hloose : ¬S.loose) (hcompiling : s.compiling = S.compiling) (host : Host) (options : Options) :
    Alike S.tidy S.agree s (verifyFile host options require S.source)
      (verifyFile host options require' S.source) := by
  have hoff : Watch.off.Idle S := ⟨nofun, nofun, nofun⟩
  have hruns := Verify.runs_verifySource hoff host options hr s S.source
    (State.sound_start htidy s) ⟨rfl, hcompiling⟩
  rw [Verify.watchedSource_off] at hruns
  obtain ⟨hagree, hends⟩ := hruns
  rcases hrun : (verifySource host options require).run (State.start s S.source) with ⟨result, s'⟩
  rw [hrun] at hagree hends
  refine ⟨fun hS => ?_, ?_⟩
  · rcases hagree hS with heq | hmarred
    · rw [run_verifyFile hrun, run_verifyFile heq]
    · exact absurd hmarred.1 hloose
  · cases result with
    | ok u => exact .of_ok (run_verifyFile hrun) hends.keeps.session trivial
    | error e => exact .of_error (run_verifyFile hrun) hends.keeps.session hends.meets

theorem Alike.checkOnce {host : Host} {path : String} {check check' : Source → SessionM FileResult}
    (h : ∀ source, host.source? path = some source → Alike tidy agree s (check source) (check' source)) :
    Alike tidy agree s (checkOnce host path check) (checkOnce host path check') := by
  refine .get_bind ?_
  split
  · exact .pure
  · exact .pure
  next source _ hsource =>
  refine .bind (h source hsource) fun result s₁ _ => ?_
  have hnoted : Works tidy s₁ (modify fun s => { s with files := s.files.insert path result })
      fun _ _ => True := .modify ⟨.refl _, rfl, rfl, rfl⟩ trivial
  exact .bind (.of_works hnoted) fun _ _ _ => .pure

/-! ## All sources -/

/-- All programs of the project are tidy. -/
def Host.Tidy (host : Host) : Prop :=
  ∀ entry ∈ host.sources.entries, entry.2.program.Tidy

instance (host : Host) : Decidable host.Tidy :=
  inferInstanceAs (Decidable (∀ entry ∈ host.sources.entries, entry.2.program.Tidy))

theorem Host.Tidy.program {host : Host} (h : host.Tidy) {path : String} {source : Source}
    (hsource : host.source? path = some source) : source.program.Tidy :=
  h _ (Dict.mem_entries_of_get? hsource)

theorem checks_checkWithin (alarm : SessionM Unit) {host : Host} (options : Options) {levels : Nat}
    {compiling : List String} (htidy : tidy → host.Tidy)
    (horderly : agree → compiling.Nodup ∧ compiling.length + levels ≤ maxModuleDepth) :
    Checks tidy agree compiling (checkWithin host options levels)
      (checkAlarmed alarm host options levels) := by
  induction levels generalizing compiling with
  | zero =>
    intro path s _ _
    have hthrow : Works tidy s (throw (.moduleDepthExceeded maxModuleDepth) : SessionM FileResult)
        fun _ _ => True := .throw trivial
    exact .checkOnce fun _ _ => .of_works hthrow
  | succ levels ih =>
    intro path s hcompiling hfree
    refine .checkOnce fun source hsource => .whileCompiling ?_
    let S : Setting :=
      { tidy, source, compiling := path :: compiling, agree, loose := False }
    have hnext : agree → (path :: compiling).Nodup ∧
        (path :: compiling).length + levels ≤ maxModuleDepth := by
      intro hagree
      obtain ⟨hnodup, hlength⟩ := horderly hagree
      refine ⟨List.nodup_cons.mpr ⟨hfree hagree, hnodup⟩, ?_⟩
      rw [List.length_cons]
      omega
    have hfile := alike_verifyFile (S := S) (s := { s with compiling := path :: s.compiling })
      ((ih hnext).requires host options).own (fun ht => (htidy ht).program hsource) id
      (congrArg (path :: ·) hcompiling) host options
    refine ⟨fun hagree => ?_, hfile.works⟩
    obtain ⟨hnodup, hlength⟩ := hnext hagree
    rw [run_bind_ok (run_lookOut ?_)]
    · exact hfile.same hagree
    · have horder : Orderly (path :: compiling) := ⟨hnodup, by omega⟩
      rw [← hcompiling] at horder
      exact horder

/-- A check does what it must in every session, however many levels are left. -/
theorem works_checkWithin {host : Host} (options : Options) (levels : Nat) (htidy : tidy → host.Tidy)
    (path : String) : Works tidy s (checkWithin host options levels path) fun _ _ => True := by
  have hchecks : Checks tidy False s.compiling (checkWithin host options levels)
      (checkAlarmed (pure ()) host options levels) := checks_checkWithin _ options htidy nofun
  exact (hchecks path s rfl nofun).works

/-- What a source may require, seen alone. -/
theorem requires_requireModule {S : Setting} {host : Host} (options : Options) (levels : Nat)
    (htidy : S.tidy → host.Tidy) :
    Requires S (requireModule host options (checkWithin host options levels))
      (requireModule host options (checkWithin host options levels)) := by
  have hchecks : Checks S.tidy S.agree S.compiling (checkWithin host options levels)
      (checkWithin host options levels) :=
    fun path _ _ _ => .of_works (works_checkWithin options levels htidy path)
  exact hchecks.requires host options

/-- The setting of one source under watch, in a project of which nothing else is asked. -/
def watching (session : Session) (source : Source) (loose : Prop) : Setting :=
  { tidy := False, source, compiling := session.compiling, agree := True, loose }

/-- A run under an idle watch is the run itself, unless the agreement is loose and the run marred;
and the run ends as it must. -/
theorem runs_source {w : Watch} (host : Host) (options : Options) (levels : Nat)
    {session : Session} {source : Source} {loose : Prop}
    (hw : w.Idle (watching session source loose)) :
    let require := requireModule host options (checkWithin host options levels)
    let start := State.start session source
    let run := (verifySource host options require).run start
    ((watchedSource w host options require).run start = run ∨ loose ∧ Marred run) ∧
      Ends (watching session source loose) (some start.owner) start (fun _ _ => True) run := by
  have hrequires : Requires (watching session source loose)
      (requireModule host options (checkWithin host options levels))
      (requireModule host options (checkWithin host options levels)) :=
    requires_requireModule options levels nofun
  obtain ⟨hagree, hends⟩ := Verify.runs_verifySource hw host options hrequires.own session source
    (State.sound_start nofun session) ⟨rfl, rfl⟩
  exact ⟨hagree trivial, hends⟩

theorem works_compile {host : Host} (options : Options) (htidy : tidy → host.Tidy) (path : String) :
    Works tidy s (compile host options path) fun _ _ => True := by
  rw [compile]
  have hcheck : Works tidy s (checkFile host options (Path.normalize path)) fun _ _ => True := by
    rw [checkFile]
    exact works_checkWithin options maxModuleDepth htidy _
  refine Safe.bind hcheck fun result _ _ _ => ?_
  cases result with
  | none => exact .throw trivial
  | some result => exact .get_bind (.pure trivial)

/-! ## Sessions -/

/-- The bindings of the globals file are all that loading it changes for the sources. -/
theorem loadGlobals_spec (host : Host) (options : Options) (s : Session) :
    ((loadGlobals host options).run s).2.compiling = s.compiling ∧
      ∀ e, ((loadGlobals host options).run s).1 = .error e → e.Usual := by
  rw [loadGlobals]
  split
  · exact ⟨rfl, nofun⟩
  next file _ =>
  obtain ⟨⟨hk, _⟩, -, hfail⟩ := loads_resolveHeader (s := s) host options (Path.normalize file)
  rcases hrun : (resolveHeader host options (Path.normalize file)).run s with ⟨e | header, s'⟩ <;>
    rw [hrun] at hk hfail
  · rw [run_bind_error hrun]
    refine ⟨hk.compiling, ?_⟩
    rintro e' he
    cases he
    exact hfail e rfl
  · rw [run_bind_ok hrun]
    cases header with
    | none =>
      refine ⟨hk.compiling, ?_⟩
      rintro e ⟨⟩
      trivial
    | some header => exact ⟨hk.compiling, nofun⟩

/-- A session that starts has nothing under way. -/
theorem startWith_cases (host : Host) (options : Options) (globals : Globals) (table : Types.Table) :
    (∃ session, Session.startWith host options globals table = .ok session ∧
        session.compiling = []) ∨
      ∃ e, Session.startWith host options globals table = .error e ∧ e.Usual := by
  obtain ⟨hcompiling, hfail⟩ := loadGlobals_spec host options { table, globals }
  rw [Session.startWith]
  split
  next session hrun =>
    rw [hrun] at hcompiling
    exact .inl ⟨session, rfl, hcompiling⟩
  next e session hrun =>
    rw [hrun] at hfail
    exact .inr ⟨e, rfl, hfail e rfl⟩

theorem start_cases (host : Host) (options : Options) :
    (∃ session, Session.start host options = .ok session ∧ session.compiling = []) ∨
      ∃ e, Session.start host options = .error e ∧ e.Usual :=
  startWith_cases host options _ _

/-- Some compile of the entry ends with the error, in a session of its own or in another one. -/
def FailsWith (host : Host) (options : Options) (path : String) (e : Error) : Prop :=
  compileEntry host options path = .error e ∨
    ∃ session, ((compile host options path).run session).1 = .error e

theorem FailsWith.expected {host : Host} {options : Options} {path : String} {e : Error}
    (h : FailsWith host options path e) (htidy : tidy → host.Tidy) : e.Expected tidy := by
  rcases h with h | ⟨session, h⟩
  · rw [compileEntry] at h
    rcases start_cases host options with ⟨session, hstart, _⟩ | ⟨e', hstart, husual⟩ <;>
      rw [hstart] at h
    · exact (works_compile options htidy path).failure e h
    · cases h
      exact husual.expected tidy
  · exact (works_compile options htidy path).failure e h

end HeaderCheck.Project
