import HeaderCheck.Proofs.Project.Order
import HeaderCheck.Types.Outline

/-!
# HeaderCheck.Proofs.Project.History

What was compiled before does not matter in projects without cycles.

* `Matching`: files of two sessions, where those that both know have the same results and depend on
  files that both know or neither. The same diagnostics are collected from them.
* `answer`: what a compile tells after compiles of other entries.
* `answer_of_ordered`: it is the same whatever these entries are.
-/

namespace HeaderCheck.Project

open HeaderCheck.Report (Diagnostic)
open HeaderCheck.Types (Outline Table)

variable {host : Host} {options : Options} {start s s' : Session} {files files' : Dict FileResult}

/-! ## Collected diagnostics -/

/-- Files that both sessions know have the same results there, and depend on files that both know
or neither. -/
def Matching (files files' : Dict FileResult) : Prop :=
  ∀ path file file', files.get? path = some file → files'.get? path = some file' →
    file'.diagnostics = file.diagnostics ∧ file'.dependencies = file.dependencies ∧
      ∀ dependency ∈ file.dependencies,
        (files'.get? dependency).isSome = (files.get? dependency).isSome

theorem Matching.collectWithin_eq (h : Matching files files') (fuel : Nat) {path : String}
    {file file' : FileResult} (hfile : files.get? path = some file)
    (hfile' : files'.get? path = some file') (seen : List String) :
    collectWithin files' fuel file' seen = collectWithin files fuel file seen := by
  induction fuel generalizing path file file' seen with
  | zero =>
    obtain ⟨hdiagnostics, -⟩ := h _ _ _ hfile hfile'
    rw [collectWithin, collectWithin, hdiagnostics]
  | succ fuel ih =>
    obtain ⟨hdiagnostics, hdependencies, hknown⟩ := h _ _ _ hfile hfile'
    have hstep (acc : List String × List Diagnostic) (dependency : String)
        (hmem : dependency ∈ file.dependencies) :
        collectStep files' fuel acc dependency = collectStep files fuel acc dependency := by
      have hboth := hknown dependency hmem
      simp only [collectStep]
      cases hfound : files.get? dependency with
      | none =>
        rw [hfound, Option.isSome_none, Option.isSome_eq_false_iff, Option.isNone_iff_eq_none] at hboth
        rw [hboth]
      | some found =>
        rw [hfound, Option.isSome_some, Option.isSome_iff_exists] at hboth
        obtain ⟨found', hfound'⟩ := hboth
        simp only [hfound', ih hfound hfound']
    have hfold {dependencies : List String} (hsub : dependencies ⊆ file.dependencies)
        (acc : List String × List Diagnostic) :
        dependencies.foldl (collectStep files' fuel) acc =
          dependencies.foldl (collectStep files fuel) acc := by
      induction dependencies generalizing acc with
      | nil => rfl
      | cons dependency rest ih' =>
        obtain ⟨hmem, hrest⟩ := List.cons_subset.mp hsub
        rw [List.foldl_cons, List.foldl_cons, hstep acc dependency hmem]
        exact ih' hrest _
    rw [collectWithin_succ, collectWithin_succ, hdependencies, hdiagnostics,
      hfold (List.Subset.refl _)]

/-- However many files each session knows besides, the same is collected. -/
theorem Matching.collectDiagnostics_eq (h : Matching files files') {path : String}
    {file file' : FileResult} (hfile : files.get? path = some file)
    (hfile' : files'.get? path = some file') :
    collectDiagnostics files' path file' = collectDiagnostics files path file := by
  have hmore := h.collectWithin_eq (files.size + 1 + files'.size) hfile hfile' [path]
  rw [collectWithin_stable files file, Nat.add_right_comm, Nat.add_comm files.size,
    Nat.add_right_comm, collectWithin_stable files' file'] at hmore
  rw [collectDiagnostics, collectDiagnostics, hmore]

/-- What a file depends on is known, or it is the header of a package and no source at all. -/
theorem Completed.known_or_defines (h : Completed host options files.entries) {path : String}
    {file : FileResult} (hfile : files.get? path = some file) {dependency : String}
    (hmem : dependency ∈ file.dependencies) :
    (files.get? dependency).isSome ∨ host.Defines options dependency := by
  refine (h.idxOf_lt hfile hmem).imp_left fun hlt => ?_
  have hbound := hlt.trans_le List.idxOf_le_length
  obtain ⟨found, hfound⟩ := Dict.mem_keys_iff.mp (List.idxOf_lt_length_iff.mp hbound)
  rw [hfound]
  rfl

/-- The header of a package is not checked as a source. -/
theorem get?_eq_none_of_defines (h : Completed host options files.entries) (hapart : host.Apart options)
    {path : String} (hdefines : host.Defines options path) : files.get? path = none := by
  cases hfile : files.get? path with
  | none => rfl
  | some file =>
    have hsource := h.source hfile
    rw [hapart path hdefines] at hsource
    cases hsource

/-- Sessions with results as they are from the start match. -/
theorem Session.Repeats.matching (hapart : host.Apart options) (hs : s.Repeats host options start)
    (hs' : s'.Repeats host options start) (hcompleted : Completed host options s.files.entries)
    (hcompleted' : Completed host options s'.files.entries) : Matching s.files s'.files := by
  intro path file file' hfile hfile'
  obtain ⟨⟨hparallel⟩⟩ := (hs.files path file hfile).join (hs'.files path file' hfile') carries_file
  refine ⟨hparallel.diagnostics, hparallel.dependencies, fun dependency hmem => ?_⟩
  rcases hcompleted.known_or_defines hfile hmem with hknown | hdefines
  · rcases hcompleted'.known_or_defines hfile' (hparallel.dependencies ▸ hmem) with hknown' | hdefines
    · rw [hknown, hknown']
    · rw [get?_eq_none_of_defines hcompleted hapart hdefines] at hknown
      cases hknown
  · rw [get?_eq_none_of_defines hcompleted hapart hdefines,
      get?_eq_none_of_defines hcompleted' hapart hdefines]

/-! ## Compiles -/

/-- A session between two compiles, with results as they are from the start. -/
structure Session.Between (host : Host) (options : Options) (s start : Session) : Prop where
  repeats : s.Repeats host options start
  idle : s.Idle host options
  globalDiagnostics : s.globalDiagnostics = start.globalDiagnostics

theorem between_start (h : host.Ordered options) (hstart : Session.start host options = .ok start) :
    start.Between host options start :=
  ⟨(fresh_start h hstart).repeats, (Session.started_start hstart).toIdle, rfl⟩

/-- The check of an entry comes to what it does from the start. -/
theorem Session.Between.check (h : host.Ordered options) (hstart : start.Fresh host options)
    (hs : s.Between host options start) (path : String) :
    EndsRepeating host options start FileResult.Parallel s ((checkFile host options path).run s)
      (checkAlone host options start path) :=
  endsRepeating_checkWithin h hstart (Nat.le_refl _) (h.depth path) (Nat.le_refl _) hs.repeats
    (by simp [hs.idle.compiling])

/-- An entry that is checked is known afterwards. -/
theorem Session.Between.knows_checked (hs : s.Between host options start) (path : String) :
    ∀ file, ((checkFile host options path).run s).1 = .ok (some file) →
      ((checkFile host options path).run s).2.files.get? path = some file := by
  have hfree : path ∉ s.compiling := by simp [hs.idle.compiling]
  exact fun file hrun =>
    (checksOnce_checkWithin host options maxModuleDepth path s hfree).result _ hrun file rfl

theorem run_compile (host : Host) (options : Options) (path : String) (s : Session) :
    (compile host options path).run s =
      match (checkFile host options (Path.normalize path)).run s with
      | (.error e, u) => (.error e, u)
      | (.ok none, u) => (.error (.sourceNotFound (Path.normalize path)), u)
      | (.ok (some file), u) =>
        (.ok { fileName := Path.normalize path
               diagnostics := u.globalDiagnostics ++
                 collectDiagnostics u.files (Path.normalize path) file
               exports := file.exports }, u) := by
  rw [compile]
  rcases hrun : (checkFile host options (Path.normalize path)).run s with ⟨e | file, u⟩
  · exact run_bind_error hrun _
  · rw [run_bind_ok hrun]
    cases file <;> rfl

theorem Session.Between.compile (h : host.Ordered options) (hstart : start.Fresh host options)
    (hs : s.Between host options start) (path : String) :
    (((compile host options path).run s).2).Between host options start := by
  have hadvances := (advancing_compile host options path hs.idle.compiling).keeps
  refine ⟨?_, hadvances.idle hs.idle, hadvances.globalDiagnostics.trans hs.globalDiagnostics⟩
  have hrepeats := (hs.check h hstart (Path.normalize path)).repeats
  rw [run_compile]
  split <;> next hrun => rw [hrun] at hrepeats; exact hrepeats

theorem Session.Between.after (h : host.Ordered options) (hstart : start.Fresh host options)
    (hs : s.Between host options start) (earlier : List String) :
    (s.after host options earlier).Between host options start := by
  induction earlier generalizing s with
  | nil => exact hs
  | cons path rest ih => exact ih (hs.compile h hstart path)

/-! ## Answers -/

/-- What a compile tells: the name and the diagnostics of an entry with the tree of its exports, or
an error. -/
def answerIn (host : Host) (options : Options) (path : String) (session : Session) :
    Except Error (String × List Diagnostic × Option Outline) :=
  match (compile host options path).run session with
  | (.ok result, s) => .ok (result.fileName, result.diagnostics, result.exports.map s.table.outline)
  | (.error e, _) => .error e

/-- The same in a session of its own, after compiles of other entries. -/
def answer (host : Host) (options : Options) (earlier : List String) (path : String) :
    Except Error (String × List Diagnostic × Option Outline) :=
  match Session.start host options with
  | .ok session => answerIn host options path (session.after host options earlier)
  | .error e => .error e

theorem map_outline_eq {t t' : Table} {i i' : Option Types.TypeId} (h : Option.Rel (t.Same t') i i') :
    i'.map t'.outline = i.map t.outline := by
  cases h with
  | none => rfl
  | some hi => exact congrArg some hi.outline.symm

/-- Between compiles no session answers otherwise than another one. -/
theorem answerIn_eq (h : host.Ordered options) (hstart : start.Fresh host options)
    (hs : s.Between host options start) (hs' : s'.Between host options start) (path : String) :
    answerIn host options path s' = answerIn host options path s := by
  have hend := (hs.check h hstart (Path.normalize path)).agrees.join
    (hs'.check h hstart (Path.normalize path)).agrees carries_file
  have hknown := hs.knows_checked (Path.normalize path)
  have hknown' := hs'.knows_checked (Path.normalize path)
  have hbetween := hs.compile h hstart path
  have hbetween' := hs'.compile h hstart path
  rw [answerIn, answerIn]
  rw [run_compile] at hbetween hbetween'
  rw [run_compile, run_compile]
  generalize (checkFile host options (Path.normalize path)).run s = run at hend hknown hbetween ⊢
  generalize (checkFile host options (Path.normalize path)).run s' = run' at hend hknown' hbetween' ⊢
  obtain ⟨result, u⟩ := run
  obtain ⟨result', u'⟩ := run'
  change SameEnd _ result result' at hend
  cases hend with
  | error e => rfl
  | ok hfile =>
    cases hfile with
    | none => rfl
    | @some file file' hfile =>
      have hleft : u.Between host options start := hbetween
      have hright : u'.Between host options start := hbetween'
      have hmatching := hleft.repeats.matching h.apart hright.repeats hleft.idle.genuine.files
        hright.idle.genuine.files
      have hcollected := hmatching.collectDiagnostics_eq (hknown file rfl) (hknown' file' rfl)
      have hexports := map_outline_eq hfile.exports
      simp only [hcollected, hexports, hleft.globalDiagnostics, hright.globalDiagnostics]

/-- In a project without cycles an entry gets the same answer whatever has been compiled before and
whether it succeeded: the same error, or the same diagnostics in the same order and exports with the
same tree. -/
theorem answer_of_ordered (h : host.Ordered options) (earlier : List String) (path : String) :
    answer host options earlier path = answer host options [] path := by
  rw [answer, answer]
  cases hstart : Session.start host options with
  | error e => rfl
  | ok start =>
    have hfresh := fresh_start h hstart
    have hbetween := between_start h hstart
    exact answerIn_eq h hfresh (hbetween.after h hfresh []) (hbetween.after h hfresh earlier) path

/-! ## Ranks -/

/-- Chains of steps that each lead to a lower rank are no longer than the first rank allows. -/
theorem bounded_of_rank {R : String → String → Prop} {rank : String → Nat}
    (h : ∀ x y, R x y → rank y < rank x) (member : String → Prop) (path : String) :
    Bounded R member path (rank path + 1) := by
  intro chain hchain hmem
  clear hmem
  induction chain generalizing path with
  | nil => simp
  | cons next rest ih =>
    obtain ⟨hstep, hrest⟩ := List.isChain_cons_cons.mp hchain
    have hlength := ih next hrest
    have hlower := h path next hstep
    simp only [List.length_cons] at hlength ⊢
    omega

theorem irrefl_of_rank {R : String → String → Prop} {rank : String → Nat}
    (h : ∀ x y, R x y → rank y < rank x) (path : String) : ¬Relation.TransGen R path path := by
  have hlower {x y : String} (hxy : Relation.TransGen R x y) : rank y < rank x := by
    induction hxy with
    | single hstep => exact h _ _ hstep
    | tail _ hstep ih => exact (h _ _ hstep).trans ih
  exact fun hcycle => Nat.lt_irrefl _ (hlower hcycle)

/-- A project in which all requires and imports lead to lower ranks has no cycles. -/
theorem Host.ordered_of_rank (rank : String → Nat) (hrank : ∀ path, rank path < maxModuleDepth)
    (hrequires : ∀ path target, host.Requires options path target → rank target < rank path)
    (himports : ∀ path target, host.ImportsFrom options path target → rank target < rank path)
    (hapart : host.Apart options) : host.Ordered options where
  requires := irrefl_of_rank hrequires
  imports := irrefl_of_rank himports
  depth := fun path chain hchain hmem =>
    (bounded_of_rank hrequires _ path chain hchain hmem).trans (hrank path)
  apart := hapart

/-- One source requires another one. -/
def Host.pair : Host :=
  (({} : Host).addSource (requiring "/app/main.js" ["./lib"])).addSource (requiring "/app/lib.js" [])

/-- The first source of the pair stands above the second one. -/
theorem Host.requires_pair (path target : String) (h : Host.pair.Requires {} path target) :
    Path.normalize path = "/app/main.js" ∧ target = "/app/lib.js" := by
  obtain ⟨source, request, hsource, hmem, -, rfl⟩ := h
  have hmain : Path.normalize "/app/main.js" = "/app/main.js" := by decide +kernel
  have hlib : Path.normalize "/app/lib.js" = "/app/lib.js" := by decide +kernel
  simp only [source?, pair, addSource, requiring, hmain, hlib, Dict.get?_insert] at hsource
  split at hsource
  · cases hsource
    have hrequests : Verify.requestsOf (requiring "/app/lib.js" []).program = [] := by decide +kernel
    rw [requiring] at hrequests
    rw [hrequests] at hmem
    cases hmem
  split at hsource
  next heq =>
    cases hsource
    have hrequests : Verify.requestsOf (requiring "/app/main.js" ["./lib"]).program = ["./lib"] := by
      decide +kernel
    rw [requiring] at hrequests
    rw [hrequests] at hmem
    obtain rfl := List.mem_singleton.mp hmem
    exact ⟨heq.symm, by decide +kernel⟩
  · cases hsource

theorem Host.ordered_pair : Host.pair.Ordered {} := by
  refine Host.ordered_of_rank (fun path => if Path.normalize path = "/app/main.js" then 1 else 0)
    ?_ ?_ ?_ (Host.apart_of_no_definitions _ rfl)
  · intro path
    split <;> decide
  · intro path target h
    obtain ⟨hpath, rfl⟩ := Host.requires_pair path target h
    have hlib : Path.normalize "/app/lib.js" ≠ "/app/main.js" := by decide +kernel
    simp only [hpath, hlib, if_true, if_false, Nat.zero_lt_one]
  · rintro path target ⟨_, ⟨_, _, _, hheader, _⟩, _⟩
    cases hheader

theorem answer_of_ordered_pair :
    Host.pair.Ordered {} ∧ answer .pair {} ["/app/missing.js", "/app/lib.js"] "/app/main.js" =
      answer .pair {} [] "/app/main.js" :=
  ⟨Host.ordered_pair, answer_of_ordered Host.ordered_pair _ _⟩

end HeaderCheck.Project
