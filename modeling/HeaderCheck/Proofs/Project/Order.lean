import HeaderCheck.Proofs.Project.Collect
import HeaderCheck.Proofs.Project.Start
import HeaderCheck.Proofs.Verify.Parallel.Sources

/-!
# HeaderCheck.Proofs.Project.Order

Sources without cycles among their requires have the same results in every session.

* `Host.Ordered`: requires and imports without cycles, and no chain of requires that is too long.
* `Session.Repeats`: a session in which all known results are those of checks from the start.
* `requireOwn`: what a source may require, which is what it does require.
* `checksAlone_checkWithin`: the check of a source comes to what it does from the start, by induction
  on the length of chains of requires.
-/

namespace HeaderCheck.Project

open HeaderCheck.Header (Lowered)
open HeaderCheck.Script (Source)
open HeaderCheck.Types (Table TypeId)
open HeaderCheck.Verify (HeadersAlike OwnRequires Required RequiresAlike Setting State requestsOf
  verifySource)
open Relation (TransGen)

variable {host : Host} {options : Options} {start s s' : Session} {p q : Session × Session}

/-! ## Chains of requires -/

/-- Where a source looks for one that it requires. -/
def Options.requireTarget (options : Options) (path request : String) : String :=
  Path.withDefaultExtension (Path.resolve path request) options.sourceExtension

/-- The source at `path` requires the one at `target`. -/
def Host.Requires (host : Host) (options : Options) (path target : String) : Prop :=
  ∃ source request, host.source? path = some source ∧ request ∈ requestsOf source.program ∧
    Path.isRequest request = true ∧ target = options.requireTarget source.path request

/-- Neither requires nor imports have cycles, chains of requires are not too long, and no path is
both that of a source and that of the header of a package. -/
structure Host.Ordered (host : Host) (options : Options) : Prop where
  requires : ∀ path, ¬TransGen (host.Requires options) path path
  imports : ∀ path, ¬TransGen (host.ImportsFrom options) path path
  depth : ∀ path, Bounded (host.Requires options) (fun path => (host.source? path).isSome) path
    maxModuleDepth
  apart : host.Apart options

/-- A source that is required is not being checked. -/
theorem Host.Ordered.not_mem (h : host.Ordered options) {path target : String} {under : List String}
    (hstep : host.Requires options path target)
    (hunder : ∀ x ∈ under, TransGen (host.Requires options) x path) : target ∉ path :: under := by
  intro hmem
  rcases List.mem_cons.mp hmem with rfl | hmem
  · exact h.requires _ (.single hstep)
  · exact h.requires _ ((hunder _ hmem).tail hstep)

/-! ## Results of files -/

/-- The same result of a source in two runs. -/
structure FileResult.Parallel (R : TypeId → TypeId → Prop) (result result' : FileResult) : Prop where
  fileName : result'.fileName = result.fileName
  diagnostics : result'.diagnostics = result.diagnostics
  exports : Option.Rel R result.exports result'.exports
  dependencies : result'.dependencies = result.dependencies

theorem carries_file : Carries FileResult.Parallel where
  mono := fun h hRS => { h with exports := Types.rel_mono h.exports hRS }
  join := fun h h' =>
    { fileName := h'.fileName.symm.trans h.fileName
      diagnostics := h'.diagnostics.symm.trans h.diagnostics
      exports := rel_join h.exports h'.exports fun _ _ _ => Table.Same.join
      dependencies := h'.dependencies.symm.trans h.dependencies }

/-- The check of a source in a session that has just started. -/
def checkAlone (host : Host) (options : Options) (start : Session) (path : String) :
    Except Error (Option FileResult) × Session :=
  (checkFile host options path).run start

/-- A session before the first compile. -/
structure Session.Fresh (host : Host) (options : Options) (start : Session) : Prop extends
    start.Settled host options where
  files : start.files = {}
  compiling : start.compiling = []
  lowering : start.lowering = []

/-- What is known are results as they are from the start. -/
structure Session.Repeats (host : Host) (options : Options) (s start : Session) : Prop where
  knows : s.KnowsHeaders host options
  table : start.table.Extends s.table
  globals : s.globals = start.globals
  lowering : s.lowering = []
  files : ∀ path file, s.files.get? path = some file →
    Agrees FileResult.Parallel s.table (.ok (some file)) (checkAlone host options start path)

namespace Session.Repeats

variable (h : s.Repeats host options start)

include h

theorem withTable {u : Table} (hu : u.WellFormed) (hx : s.table.Extends u) :
    ({ s with table := u } : Session).Repeats host options start :=
  ⟨h.knows.withTable hu hx, h.table.trans hx, h.globals, h.lowering, fun path file hget =>
    (h.files path file hget).extend carries_file h.knows.table hu hx⟩

theorem congr (htable : s'.table = s.table) (hglobals : s'.globals = s.globals)
    (hlowering : s'.lowering = s.lowering) (hheaders : s'.headers = s.headers)
    (hfiles : s'.files = s.files) : s'.Repeats host options start := by
  refine ⟨h.knows.congr htable hheaders, htable ▸ h.table, hglobals.trans h.globals,
    hlowering.trans h.lowering, ?_⟩
  rw [htable, hfiles]
  exact h.files

theorem insert {path : String} {file : FileResult}
    (ha : Agrees FileResult.Parallel s.table (.ok (some file)) (checkAlone host options start path)) :
    ({ s with files := s.files.insert path file } : Session).Repeats host options start := by
  refine ⟨h.knows.congr rfl rfl, h.table, h.globals, h.lowering, fun other found hget => ?_⟩
  rw [Dict.get?_insert] at hget
  split at hget
  · next heq =>
    subst heq
    cases hget
    exact ha
  · exact h.files other found hget

end Session.Repeats

theorem Session.Fresh.repeats (h : start.Fresh host options) :
    start.Repeats host options start :=
  ⟨h.knows, .refl _, rfl, h.lowering, fun path file hget => by
    rw [h.files] at hget
    cases hget⟩

/-- A session that starts is fresh. -/
theorem fresh_start (h : host.Ordered options) (hstart : Session.start host options = .ok s) :
    s.Fresh host options := by
  obtain ⟨hidle, -, hfiles, -⟩ := Session.started_start hstart
  exact ⟨settled_start h.imports hstart, hfiles, hidle.compiling, hidle.lowering⟩

/-! ## Two runs -/

/-- Two sessions with results as they are from the start, while sources are being checked in each. -/
def repeating (host : Host) (options : Options) (hstart : start.Settled host options)
    (under under' : List String) : Pact where
  Meets := fun s s' => (s.Repeats host options start ∧ s.compiling = under) ∧
    s'.Repeats host options start ∧ s'.compiling = under'
  left := fun h => h.1.1.knows.table
  right := fun h => h.2.1.knows.table
  globals := by
    rintro t t' ⟨⟨ht, -⟩, ht', -⟩
    rw [ht.globals, ht'.globals]
    exact hstart.globals_mono ht.knows.table ht'.knows.table ht.table ht'.table
  grow := fun h hu hu' hx hx' => ⟨⟨h.1.1.withTable hu hx, h.1.2⟩, h.2.1.withTable hu' hx', h.2.2⟩

/-- The same result of a source in both runs. -/
abbrev SameFile (P : Pact) (file file' : FileResult) (q : Session × Session) : Prop :=
  file.Parallel (P.sessions.Same q) file'

/-- The same result of a source in both runs, if there is such a source. -/
abbrev SameFile? (P : Pact) (file file' : Option FileResult) (q : Session × Session) : Prop :=
  Option.Rel (FileResult.Parallel (P.sessions.Same q)) file file'

/-- How a run ends that comes to what it does from the start. -/
structure EndsRepeating {α : Type} (host : Host) (options : Options) (start : Session)
    (K : (TypeId → TypeId → Prop) → α → α → Prop) (s : Session)
    (run alone : Except Error (Option α) × Session) : Prop where
  repeats : run.2.Repeats host options start
  compiling : run.2.compiling = s.compiling
  table : s.table.Extends run.2.table
  agrees : Agrees K run.2.table run.1 alone

section Runs

variable {hstart : start.Settled host options} {under under' : List String}

/-- Two runs that come to what one does from the start end alike. -/
theorem EndsRepeating.lockstep {α : Type} {K : (TypeId → TypeId → Prop) → α → α → Prop}
    (hK : Carries K) {m m' : SessionM (Option α)} (alone : Except Error (Option α) × Session)
    (h : p.1.Repeats host options start → p.1.compiling = under →
      EndsRepeating host options start K p.1 (m.run p.1) alone)
    (h' : p.2.Repeats host options start → p.2.compiling = under' →
      EndsRepeating host options start K p.2 (m'.run p.2) alone) :
    Lockstep (repeating host options hstart under under').sessions p m m' fun a a' q =>
      Option.Rel (K ((repeating host options hstart under under').sessions.Same q)) a a' := by
  rintro ⟨⟨hrepeats, hunder⟩, hrepeats', hunder'⟩
  have hleft := h hrepeats hunder
  have hright := h' hrepeats' hunder'
  exact ⟨(m.run p.1).1, (m'.run p.2).1, ((m.run p.1).2, (m'.run p.2).2), rfl, rfl,
    ⟨⟨⟨hrepeats, hunder⟩, hrepeats', hunder'⟩, ⟨⟨hleft.repeats, hleft.compiling.trans hunder⟩,
      hright.repeats, hright.compiling.trans hunder'⟩, hleft.table, hright.table⟩,
    hleft.agrees.join hright.agrees hK⟩

/-- A header comes to what it contributes in a session of its own. -/
theorem endsRepeating_resolveHeader (h : host.Ordered options) (hs : s.Repeats host options start)
    (path : String) :
    EndsRepeating host options start Lowered.Parallel s ((resolveHeader host options path).run s)
      (resolveAlone host options path) := by
  have hends := endsAlone_resolveHeader h.imports hs.knows hs.lowering path
  have hlearns := (learning_resolveHeader (s := s) host options path).keeps
  refine ⟨⟨hends.knows, hs.table.trans hends.table, hlearns.globals.trans hs.globals,
    hends.lowering.trans hs.lowering, fun other file hget => ?_⟩, hlearns.compiling, hends.table,
    hends.agrees⟩
  rw [hlearns.files_eq] at hget
  exact (hs.files other file hget).extend carries_file hs.knows.table hends.knows.table hends.table

theorem headersAlike_resolveHeader (h : host.Ordered options) :
    HeadersAlike (repeating host options hstart under under') (resolveHeader host options) :=
  fun _ path => EndsRepeating.lockstep carries_lowered (resolveAlone host options path)
    (fun hs _ => endsRepeating_resolveHeader h hs path)
    fun hs _ => endsRepeating_resolveHeader h hs path

/-! ## Requires -/

/-- An object of the same fields. -/
theorem lockstep_object {P : Pact} {fields fields' : List Types.Field}
    (h : List.Forall₂ (Types.Field.Parallel (P.sessions.Same p)) fields fields') :
    Lockstep P.sessions p
      (modifyGet fun s =>
        let (exports, table) := s.table.object fields
        (exports, { s with table }) : SessionM TypeId)
      (modifyGet fun s =>
        let (exports, table) := s.table.object fields'
        (exports, { s with table })) fun i i' q => P.sessions.Same q i i' := by
  intro hp
  obtain ⟨hleft, hright, hsame⟩ := Table.sameMade_add (P.left hp) (P.right hp)
    (.object ⟨h, rfl, rfl⟩ : Types.TypeData.Parallel _ (.object ⟨fields, false, Types.plainBrand⟩)
      (.object ⟨fields', false, Types.plainBrand⟩)) trivial trivial
  exact ⟨.ok _, .ok _, ({ p.1 with table := _ }, { p.2 with table := _ }), rfl, rfl,
    ⟨hp, P.grow hp hleft.wellFormed hright.wellFormed hleft.extend hright.extend, hleft.extend,
      hright.extend⟩, .ok hsame⟩

theorem lockstep_requireDefinition {P : Pact} (hh : HeadersAlike P (resolveHeader host options))
    (name : String) :
    Lockstep P.sessions p (requireDefinition host options name) (requireDefinition host options name)
      fun x x' q => x.Parallel (P.sessions.Same q) x' := by
  rw [requireDefinition]
  split
  · exact .pure fun _ => .notFound
  refine .bind (hh _ _) fun header header' q hq hheader => ?_
  cases hheader with
  | none => exact .pure fun _ => .notFound
  | some hheader =>
    refine .bind (lockstep_object ?_) fun _ _ _ _ hi => .pure fun _ => .resolved _ hi
    exact List.forall₂_map_left_iff.mpr (List.forall₂_map_right_iff.mpr
      (hheader.assignments.imp fun _ _ hxy => ⟨hxy.1.symm, hxy.2, rfl⟩))

/-- What a source may require, which is what it does require. -/
def requireOwn (source : Source) (require : (file request : String) → SessionM Required)
    (file request : String) : SessionM Required :=
  if file = source.path ∧ request ∈ requestsOf source.program then require file request
  else pure .notFound

theorem requiresAlike_own (h : host.Ordered options) {path : String} {source : Source}
    (hsource : host.source? path = some source)
    {check check' : String → SessionM (Option FileResult)}
    (hunder : ∀ x ∈ under, TransGen (host.Requires options) x path)
    (hunder' : ∀ x ∈ under', TransGen (host.Requires options) x path)
    (hcheck : ∀ p target, host.Requires options path target →
      Lockstep (repeating host options hstart (path :: under) (path :: under')).sessions p
        (check target) (check' target)
        (SameFile? (repeating host options hstart (path :: under) (path :: under')))) :
    RequiresAlike (repeating host options hstart (path :: under) (path :: under'))
      (requireOwn source (requireModule host options check))
      (requireOwn source (requireModule host options check')) := by
  intro p file request
  rw [requireOwn, requireOwn]
  split
  next hown =>
    obtain ⟨rfl, hmem⟩ := hown
    rw [requireModule, requireModule]
    split
    next hrequest =>
      have hstep : host.Requires options path (options.requireTarget source.path request) :=
        ⟨source, request, hsource, hmem, hrequest, rfl⟩
      refine .get_bind fun hp => ?_
      have hfree : p.1.compiling.contains (options.requireTarget source.path request) = false := by
        rw [hp.1.2]
        simpa using h.not_mem hstep hunder
      have hfree' : p.2.compiling.contains (options.requireTarget source.path request) = false := by
        rw [hp.2.2]
        simpa using h.not_mem hstep hunder'
      change Lockstep _ p
        (if p.1.compiling.contains (options.requireTarget source.path request) then _ else _)
        (if p.2.compiling.contains (options.requireTarget source.path request) then _ else _) _
      rw [hfree, hfree']
      refine .bind (hcheck p _ hstep) fun file file' q hq hfile => ?_
      cases hfile with
      | none => exact .pure fun _ => .notFound
      | some hfile =>
        exact .pure fun hmeets => .resolved _
          (Types.rel_getD hfile.exports (Accord.same_fixed hmeets (by decide)))
    · exact lockstep_requireDefinition (headersAlike_resolveHeader h) request
  · exact .pure fun _ => .notFound

/-! ## Files -/

/-- The same source before it is verified in two runs. -/
theorem states_start {P : Pact} (hp : P.Meets p.1 p.2) (source : Source) :
    (Verify.states P).Meets (State.start p.1 source) (State.start p.2 source) where
  session := hp
  source := rfl
  arena := .pushFile
  fileScope := rfl
  focus := ⟨rfl, .none, rfl, rfl⟩
  diagnostics := rfl
  exports := .none
  unknown := rfl
  dependencies := rfl

theorem lockstep_verifyFile {P : Pact} (hh : HeadersAlike P (resolveHeader host options))
    {require require' : (file request : String) → SessionM Required} (hr : RequiresAlike P require require')
    (source : Source) :
    Lockstep P.sessions p (verifyFile host options require source)
      (verifyFile host options require' source) (SameFile P) := by
  intro hp
  obtain ⟨result, result', q, hrun, hrun', hq, hend⟩ :=
    Verify.lockstep_verifySource (p := (State.start p.1 source, State.start p.2 source)) hh hr
      (states_start hp source)
  refine ⟨_, _, (q.1.session, q.2.session), run_verifyFile hrun, run_verifyFile hrun',
    ⟨hp, hq.meets.session, hq.left, hq.right⟩, ?_⟩
  cases hend with
  | error e => exact .error e
  | ok _ =>
    exact .ok ⟨congrArg Source.path hq.meets.source, hq.meets.diagnostics, hq.meets.exports,
      hq.meets.dependencies⟩

/-- A source asks for nothing but what it may require. -/
theorem run_verifyFile_own (levels : Nat) (source : Source) (s : Session) :
    (verifyFile host options (requireOwn source (requireModule host options
        (checkWithin host options levels))) source).run s =
      (verifyFile host options (requireModule host options (checkWithin host options levels))
        source).run s := by
  let S : Setting :=
    { tidy := False, source, compiling := s.compiling, agree := True, loose := False }
  have hall : OwnRequires S (requireModule host options (checkWithin host options levels))
      (requireModule host options (checkWithin host options levels)) :=
    (requires_requireModule options levels False.elim).own
  have hown : OwnRequires S (requireModule host options (checkWithin host options levels))
      (requireOwn source (requireModule host options (checkWithin host options levels))) := by
    intro request hmem session hcompiling
    refine ⟨fun _ => ?_, (hall request hmem session hcompiling).works⟩
    rw [requireOwn, if_pos ⟨rfl, hmem⟩]
  exact (alike_verifyFile hown nofun id rfl host options).same trivial

theorem lockstep_whileCompiling (path : String) {α : Type} {m m' : SessionM α}
    {Q : α → α → Session × Session → Prop}
    (h : ∀ q, Lockstep (repeating host options hstart (path :: under) (path :: under')).sessions q m m' Q)
    (hQ : ∀ a a' r c c', Q a a' r →
      Q a a' ({ r.1 with compiling := c }, { r.2 with compiling := c' })) :
    Lockstep (repeating host options hstart under under').sessions p (whileCompiling path m)
      (whileCompiling path m') Q := by
  intro hp
  obtain ⟨⟨hrepeats, hunder⟩, hrepeats', hunder'⟩ := hp
  obtain ⟨result, result', q, hrun, hrun', hq, hend⟩ := h
    ({ p.1 with compiling := path :: p.1.compiling }, { p.2 with compiling := path :: p.2.compiling })
    ⟨⟨hrepeats.congr rfl rfl rfl rfl rfl, congrArg _ hunder⟩, hrepeats'.congr rfl rfl rfl rfl rfl,
      congrArg _ hunder'⟩
  obtain ⟨⟨hqrepeats, hqunder⟩, hqrepeats', hqunder'⟩ := hq.meets
  refine ⟨result, result', ({ q.1 with compiling := q.1.compiling.tail },
    { q.2 with compiling := q.2.compiling.tail }), ?_, ?_, ⟨⟨⟨hrepeats, hunder⟩, hrepeats', hunder'⟩,
    ⟨⟨hqrepeats.congr rfl rfl rfl rfl rfl, congrArg List.tail hqunder⟩,
      hqrepeats'.congr rfl rfl rfl rfl rfl, congrArg List.tail hqunder'⟩, hq.left, hq.right⟩,
    hend.mono fun a a' h => hQ a a' q _ _ h⟩
  · rw [run_whileCompiling, hrun]
  · rw [run_whileCompiling, hrun']

/-- A source that is verified in the session at hand and from the start. -/
theorem lockstep_check (h : host.Ordered options) {path : String} {source : Source}
    (hsource : host.source? path = some source) {levels levels' : Nat}
    (hunder : ∀ x ∈ under, TransGen (host.Requires options) x path)
    (hunder' : ∀ x ∈ under', TransGen (host.Requires options) x path)
    (hcheck : ∀ p target, host.Requires options path target →
      Lockstep (repeating host options hstart (path :: under) (path :: under')).sessions p
        (checkWithin host options levels target) (checkWithin host options levels' target)
        (SameFile? (repeating host options hstart (path :: under) (path :: under')))) :
    Lockstep (repeating host options hstart under under').sessions p
      (whileCompiling path (verifyFile host options (requireModule host options
        (checkWithin host options levels)) source))
      (whileCompiling path (verifyFile host options (requireModule host options
        (checkWithin host options levels')) source))
      (SameFile (repeating host options hstart under under')) := by
  have hr := requiresAlike_own h hsource hunder hunder' hcheck
  refine lockstep_whileCompiling path (fun q => ?_) fun _ _ _ _ _ h => h
  exact (lockstep_verifyFile (headersAlike_resolveHeader h) hr source).congr
    (run_verifyFile_own levels source q.1) (run_verifyFile_own levels' source q.2)

end Runs

section CheckOnce

variable {path : String} {check : Source → SessionM FileResult}

theorem run_checkOnce_known {known : FileResult} (h : s.files.get? path = some known) :
    (checkOnce host path check).run s = (.ok (some known), s) := by
  rw [checkOnce, run_get_bind, h]
  rfl

theorem run_checkOnce_missing (h : s.files.get? path = none) (hsource : host.source? path = none) :
    (checkOnce host path check).run s = (.ok none, s) := by
  rw [checkOnce, run_get_bind, h, hsource]
  rfl

theorem run_checkOnce_source {source : Source} (h : s.files.get? path = none)
    (hsource : host.source? path = some source) {result : Except Error FileResult}
    (hrun : (check source).run s = (result, s')) :
    (checkOnce host path check).run s =
      match result with
      | .ok file => (.ok (some file), { s' with files := s'.files.insert path file })
      | .error e => (.error e, s') := by
  rw [checkOnce, run_get_bind, h, hsource]
  cases result with
  | ok file => exact run_bind_ok hrun _
  | error e => exact run_bind_error hrun _

end CheckOnce

/-- A source that is checked as from the start comes to what it does there. -/
theorem endsRepeating_of_lockstep (hstart : start.Fresh host options) {path : String}
    {check check' : Source → SessionM FileResult} (hs : s.Repeats host options start)
    (halone : checkAlone host options start path = (checkOnce host path check').run start)
    (h : ∀ source, host.source? path = some source →
      Lockstep (repeating host options hstart.toSettled s.compiling []).sessions (s, start) (check source)
        (check' source) (SameFile (repeating host options hstart.toSettled s.compiling []))) :
    EndsRepeating host options start FileResult.Parallel s ((checkOnce host path check).run s)
      (checkAlone host options start path) := by
  have hempty : start.files.get? path = none := by
    rw [hstart.files]
    rfl
  cases hknown : s.files.get? path with
  | some known =>
    rw [run_checkOnce_known hknown]
    exact ⟨hs, rfl, .refl _, hs.files path known hknown⟩
  | none =>
    cases hsource : host.source? path with
    | none =>
      rw [halone, run_checkOnce_missing hempty hsource, run_checkOnce_missing hknown hsource]
      exact ⟨hs, rfl, .refl _, hstart.knows.table, .ok .none⟩
    | some source =>
      obtain ⟨result, result', q, hrun, hrun', hq, hend⟩ :=
        h source hsource ⟨⟨hs, rfl⟩, hstart.repeats, hstart.compiling⟩
      obtain ⟨⟨hrepeats, hunder⟩, hrepeats', -⟩ := hq.meets
      rw [run_checkOnce_source hempty hsource hrun'] at halone
      rw [run_checkOnce_source hknown hsource hrun]
      cases hend with
      | error e =>
        refine ⟨hrepeats, hunder, hq.left, ?_⟩
        rw [halone]
        exact ⟨hrepeats'.knows.table, .error e⟩
      | @ok file file' hfile =>
        have hagrees : Agrees FileResult.Parallel q.1.table (.ok (some file))
            (checkAlone host options start path) := by
          rw [halone]
          exact ⟨hrepeats'.knows.table, .ok (.some hfile)⟩
        exact ⟨hrepeats.insert hagrees, hunder, hq.left, hagrees⟩

/-- A check comes to what it does from the start, if chains of requires from the source are bounded
and all sources that are being checked lead to it. -/
theorem endsRepeating_checkWithin (h : host.Ordered options) (hstart : start.Fresh host options)
    {n : Nat} (hn : n ≤ maxModuleDepth) {path : String}
    (hbound : Bounded (host.Requires options) (fun path => (host.source? path).isSome) path n)
    {levels : Nat} (hlevels : n ≤ levels) {s : Session} (hs : s.Repeats host options start)
    (hunder : ∀ x ∈ s.compiling, TransGen (host.Requires options) x path) :
    EndsRepeating host options start FileResult.Parallel s
      ((checkWithin host options levels path).run s) (checkAlone host options start path) := by
  induction n generalizing path levels s with
  | zero =>
    have hmissing : host.source? path = none := by
      have := mt hbound.pos (Nat.lt_irrefl 0)
      simpa using this
    have honce (levels : Nat) : ∃ check, checkWithin host options levels path = checkOnce host path check := by
      cases levels <;> exact ⟨_, rfl⟩
    obtain ⟨check, hcheck⟩ := honce levels
    obtain ⟨check', hcheck'⟩ := honce maxModuleDepth
    rw [hcheck]
    refine endsRepeating_of_lockstep hstart hs (by rw [checkAlone, checkFile, hcheck']) fun source hsource => ?_
    rw [hmissing] at hsource
    cases hsource
  | succ n ih =>
    obtain ⟨levels, rfl⟩ : ∃ k, levels = k + 1 := ⟨levels - 1, by omega⟩
    obtain ⟨depth, hdepth⟩ : ∃ k, maxModuleDepth = k + 1 := ⟨maxModuleDepth - 1, by omega⟩
    have halone : checkAlone host options start path =
        (checkWithin host options (depth + 1) path).run start := by rw [checkAlone, checkFile, hdepth]
    refine endsRepeating_of_lockstep hstart hs halone fun source hsource => ?_
    have hmember : (host.source? path).isSome := by rw [hsource]; rfl
    refine lockstep_check h hsource hunder (by simp) fun p target hstep => ?_
    have hnext := hbound.next hmember hstep
    -- Both runs stand below the source at `path`, so what they check leads to the target as well.
    have hboth {under : List String} (hunder : ∀ x ∈ under, TransGen (host.Requires options) x path)
        {levels : Nat} (hlevels : n ≤ levels) {s : Session} (hs : s.Repeats host options start)
        (hcompiling : s.compiling = path :: under) :
        EndsRepeating host options start FileResult.Parallel s
          ((checkWithin host options levels target).run s) (checkAlone host options start target) := by
      refine ih (by omega) hnext hlevels hs ?_
      rw [hcompiling]
      exact List.forall_mem_cons.mpr ⟨.single hstep, fun x hx => (hunder x hx).tail hstep⟩
    exact EndsRepeating.lockstep carries_file (checkAlone host options start target)
      (fun hs hcompiling => hboth hunder (by omega) hs hcompiling)
      fun hs hcompiling => hboth (by simp) (by omega) hs hcompiling

end HeaderCheck.Project
