import HeaderCheck.Proofs.Project.Collect

/-!
# HeaderCheck.Proofs.Project.Known

What is known stays known. Compiles follow one another in one session; each of them, however it
ends, leaves nothing under way and adds to the results of files and headers without changing any.

* `collectDiagnostics_of_prefix`: results that are added later do not change the diagnostics of an
  entry.
* `compile_keeps_known`: all that a sequence of compiles leaves as it was.
-/

namespace HeaderCheck.Project

open HeaderCheck.Report (Diagnostic)

variable {host : Host} {options : Options} {files files' : Dict FileResult}

/-- Both know the same about all that a file depends on. -/
def AgreeBelow (files files' : Dict FileResult) (result : FileResult) : Prop :=
  ∀ dependency ∈ result.dependencies, files'.get? dependency = files.get? dependency

/-- Diagnostics are collected alike where the same is known of all files on the way. -/
theorem collectWithin_congr
    (h : ∀ path result, files.get? path = some result → AgreeBelow files files' result) (fuel : Nat)
    {result : FileResult} (hresult : AgreeBelow files files' result) (seen : List String) :
    collectWithin files' fuel result seen = collectWithin files fuel result seen := by
  induction fuel generalizing result seen with
  | zero => rfl
  | succ fuel ih =>
    have hfold : ∀ (paths : List String) acc, paths ⊆ result.dependencies →
        paths.foldl (collectStep files' fuel) acc = paths.foldl (collectStep files fuel) acc := by
      intro paths
      induction paths with
      | nil => exact fun _ _ => rfl
      | cons path rest ih' =>
        intro acc hpaths
        obtain ⟨hmem, hrest⟩ := List.cons_subset.mp hpaths
        have hstep : collectStep files' fuel acc path = collectStep files fuel acc path := by
          simp only [collectStep, hresult path hmem]
          split
          · rfl
          split
          · rfl
          next file hfile => rw [ih (h path file hfile)]
        rw [List.foldl_cons, List.foldl_cons, hstep, ih' _ hrest]
    rw [collectWithin_succ, collectWithin_succ, hfold _ _ (List.Subset.refl _)]

/-- A completed file depends on files that were completed before it, so nothing that is completed
later comes below it. -/
theorem Completed.agreeBelow (h : Completed host options files.entries)
    (h' : Completed host options files'.entries) (hapart : host.Apart options)
    (hsub : files.entries <+: files'.entries) {path : String} {result : FileResult}
    (hget : files.get? path = some result) : AgreeBelow files files' result := by
  intro dependency hmem
  cases hold : files.get? dependency with
  | some known => exact Dict.get?_of_prefix hsub hold
  | none =>
    cases hnew : files'.get? dependency with
    | none => rfl
    | some known =>
      rcases h.idxOf_lt hget hmem with hlt | hdefined
      · have hkey : path ∈ files.keys := Dict.mem_keys_iff.mpr ⟨result, hget⟩
        have hlength := List.idxOf_lt_length_of_mem hkey
        exact absurd (List.idxOf_lt_length_iff.mp (Nat.lt_trans hlt hlength))
          (Dict.get?_eq_none_iff.mp hold)
      · have hsource := h'.source hnew
        rw [hapart dependency hdefined] at hsource
        cases hsource

theorem collectDiagnostics_of_prefix (h : Completed host options files.entries)
    (h' : Completed host options files'.entries) (hapart : host.Apart options)
    (hsub : files.entries <+: files'.entries) {path : String} {result : FileResult}
    (hget : files.get? path = some result) :
    collectDiagnostics files' path result = collectDiagnostics files path result := by
  obtain ⟨more, hmore⟩ := Nat.exists_eq_add_of_le hsub.length_le
  have hsize : files'.size + 1 = files.size + 1 + more := by
    rw [Dict.size, hmore, Dict.size]
    omega
  rw [collectDiagnostics, collectDiagnostics,
    collectWithin_congr (fun _ _ hfound => h.agreeBelow h' hapart hsub hfound) _
      (h.agreeBelow h' hapart hsub hget), hsize, collectWithin_stable]

/-- An entry that is known compiles to what is known of it. -/
theorem compile_of_known {s : Session} {path : String} {file : FileResult}
    (h : s.files.get? (Path.normalize path) = some file) :
    (compile host options path).run s =
      (.ok { fileName := Path.normalize path
             diagnostics := s.globalDiagnostics ++
               collectDiagnostics s.files (Path.normalize path) file
             exports := file.exports }, s) := by
  have hcheck : (checkFile host options (Path.normalize path)).run s = (.ok (some file), s) := by
    rw [checkFile, maxModuleDepth, checkWithin, checkOnce, run_get_bind, h]
    rfl
  rw [compile, run_bind_ok hcheck]
  rfl

/-- Later compiles do not change the result of an earlier one. -/
theorem compile_again {s : Session} (hidle : s.Idle host options) (hapart : host.Apart options)
    {path : String} {result : CompileResult}
    (hresult : ((compile host options path).run s).1 = .ok result) (later : List String) :
    ((compile host options path).run
      (((compile host options path).run s).2.after host options later)).1 = .ok result := by
  have hcompile := advancing_compile host options path hidle.compiling
  have hidle' := hcompile.keeps.idle hidle
  have hlater : ((compile host options path).run s).2.Advances host options
      (((compile host options path).run s).2.after host options later) :=
    Session.advances_after later hidle'.compiling
  obtain ⟨file, hfile, hshape⟩ := hcompile.result result hresult
  have hdiagnostics := collectDiagnostics_of_prefix hidle'.genuine.files
    (hlater.idle hidle').genuine.files hapart hlater.files hfile
  rw [compile_of_known (hlater.get?_file hfile), hshape, hlater.globalDiagnostics, hdiagnostics]

/-- In a session that has seen any compiles with any outcomes, one more compile, however it ends,
leaves no source being checked and no header being lowered; what was known of files and headers is
still known; a source whose check has failed is not known, and each one that is known owes that to a
check which succeeded; a header is known to be missing only
where there is none; and where sources and headers of packages are apart, a result is given again,
whatever is compiled in between. -/
theorem compile_keeps_known (host : Host) (options : Options) {start : Session}
    (hstart : Session.start host options = .ok start) (earlier : List String) (path : String) :
    let before := start.after host options earlier
    let run := (compile host options path).run before
    run.2.compiling = [] ∧ run.2.lowering = [] ∧
      (∀ file result, before.files.get? file = some result →
        run.2.files.get? file = some result) ∧
      (∀ file header, before.headers.get? file = some header →
        run.2.headers.get? file = some header) ∧
      (∀ e, run.1 = .error e → run.2.files.get? (Path.normalize path) = none) ∧
      (∀ levels file s e s', (checkWithin host options levels file).run s = (.error e, s') →
        s'.files.get? file = none) ∧
      (∀ file result, run.2.files.get? file = some result →
        Succeeded host options file result) ∧
      (∀ file, run.2.headers.get? file = some none → host.header? file = none) ∧
      (host.Apart options → ∀ result, run.1 = .ok result → ∀ later,
        ((compile host options path).run (run.2.after host options later)).1 = .ok result) := by
  intro before run
  have hidle : before.Idle host options :=
    (Session.advances_after earlier (Session.started_start hstart).1.compiling).idle
      (Session.started_start hstart).1
  have hadvances : before.Advances host options run.2 :=
    (advancing_compile host options path hidle.compiling).keeps
  have hidle' := hadvances.idle hidle
  refine ⟨hidle'.compiling, hidle'.lowering, fun _ _ => hadvances.get?_file,
    fun _ _ => hadvances.get?_header, fun _ => get?_of_compile_error,
    fun _ _ _ _ _ hrun => get?_of_checkWithin hrun nofun, hidle'.genuine.succeeded,
    fun file hnone => ?_,
    fun hapart result hresult later => compile_again hidle hapart hresult later⟩
  have hgenuine := hidle'.genuine.headers file none hnone
  exact Option.isNone_iff_eq_none.mp (by simpa using hgenuine.symm)

theorem compile_keeps_known_ring :
    ∃ result s, (compile .ring {} "/app/main.js").run
        (Session.ofRing.after .ring {} ["/app/missing.js", "/app/right.js"]) = (.ok result, s) ∧
      s.compiling = [] ∧ s.lowering = [] ∧
      ∀ later, ((compile .ring {} "/app/main.js").run (s.after .ring {} later)).1 = .ok result := by
  obtain ⟨result, s, hrun⟩ := compile_ring
  have hkept := compile_keeps_known .ring {} Session.start_ring
    ["/app/missing.js", "/app/right.js"] "/app/main.js"
  dsimp only at hkept
  rw [hrun] at hkept
  obtain ⟨hcompiling, hlowering, _, _, _, _, _, _, hagain⟩ := hkept
  exact ⟨result, s, hrun, hcompiling, hlowering,
    hagain (Host.apart_of_no_definitions _ rfl) result rfl⟩

end HeaderCheck.Project
