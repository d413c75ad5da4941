import HeaderCheck.Proofs.Project.Collect
import HeaderCheck.Signature.Build

/-!
# HeaderCheck.Proofs.Project.Reported

What is reported for headers is reported for the entry.

* `Collected`: the collection of diagnostics goes on with all that a file depends on, however files
  depend on one another.
* `Uses`: the headers that are used for an entry, the globals file and those beside the files that
  it reaches. A header for a package is none of them, and what is reported for it is lost
  (`package_diagnostics_lost`).
-/

namespace HeaderCheck.Project

open HeaderCheck.Header (Lowered)
open HeaderCheck.Report (Diagnostic)
open Relation (ReflTransGen)

variable {host : Host} {options : Options} {files : Dict FileResult}

/-! ## Collected files -/

/-- What the collection from some files on has found: the diagnostics of all that was not seen
before, and all that these depend on. -/
structure Collected (files : Dict FileResult) (seen : List String)
    (collected : List String × List Diagnostic) : Prop where
  subset : seen ⊆ collected.1
  found : ∀ path result, path ∈ collected.1 → path ∉ seen → files.get? path = some result →
    result.diagnostics ⊆ collected.2 ∧ result.dependencies ⊆ collected.1

theorem Collected.extend {seen : List String} {acc collected : List String × List Diagnostic}
    {path : String} {file : FileResult} (h : Collected files seen acc)
    (hfile : files.get? path = some file) (hinner : Collected files (path :: acc.1) collected)
    (hdiagnostics : file.diagnostics ⊆ collected.2)
    (hdependencies : file.dependencies ⊆ collected.1) :
    Collected files seen (collected.1, acc.2 ++ collected.2) := by
  have hacc : acc.1 ⊆ collected.1 := (List.cons_subset.mp hinner.subset).2
  refine ⟨List.Subset.trans h.subset hacc, fun other result hmem hfresh hget => ?_⟩
  by_cases hold : other ∈ acc.1
  · obtain ⟨hresult, hdeeper⟩ := h.found other result hold hfresh hget
    exact ⟨List.subset_append_of_subset_left _ hresult, List.Subset.trans hdeeper hacc⟩
  by_cases hpath : other = path
  · subst hpath
    rw [hfile] at hget
    cases hget
    exact ⟨List.subset_append_of_subset_right _ hdiagnostics, hdependencies⟩
  · obtain ⟨hresult, hdeeper⟩ := hinner.found other result hmem (by simp [hpath, hold]) hget
    exact ⟨List.subset_append_of_subset_right _ hresult, hdeeper⟩

/-- With more fuel than there are files left, the collection from a file on has its diagnostics and
goes on with all that it depends on. -/
def Collects (files : Dict FileResult) (fuel : Nat) : Prop :=
  ∀ seen result, unseen files.keys seen < fuel →
    Collected files seen (collectWithin files fuel result seen) ∧
      result.diagnostics ⊆ (collectWithin files fuel result seen).2 ∧
      result.dependencies ⊆ (collectWithin files fuel result seen).1

variable {fuel : Nat} {seen : List String}

theorem Collected.step {acc : List String × List Diagnostic} (hcollects : Collects files fuel)
    (hfuel : unseen files.keys seen ≤ fuel) (h : Collected files seen acc) (path : String) :
    Collected files seen (collectStep files fuel acc path) ∧
      path ∈ (collectStep files fuel acc path).1 := by
  obtain ⟨passed, collected⟩ := acc
  rw [collectStep]
  split
  · next hseen => exact ⟨h, by simpa using hseen⟩
  next hfresh =>
  split
  · next hnone =>
    refine ⟨⟨List.subset_cons_of_subset _ h.subset, ?_⟩, List.mem_cons_self⟩
    intro other found hmem hother hget
    rcases List.mem_cons.mp hmem with rfl | hmem
    · rw [hnone] at hget
      cases hget
    · obtain ⟨hdiagnostics, hdependencies⟩ := h.found other found hmem hother hget
      exact ⟨hdiagnostics, List.subset_cons_of_subset _ hdependencies⟩
  next file hfile =>
  have hkey : path ∈ files.keys := Dict.mem_keys_iff.mpr ⟨file, hfile⟩
  have hless := unseen_cons_lt hkey (by simpa using hfresh)
  have hle : unseen files.keys passed ≤ fuel := Nat.le_trans (unseen_anti h.subset) hfuel
  obtain ⟨hinner, hdiagnostics, hdependencies⟩ :=
    hcollects (path :: passed) file (Nat.lt_of_lt_of_le hless hle)
  exact ⟨h.extend hfile hinner hdiagnostics hdependencies, hinner.subset List.mem_cons_self⟩

theorem Collected.fold {acc : List String × List Diagnostic} (hcollects : Collects files fuel)
    (hfuel : unseen files.keys seen ≤ fuel) (h : Collected files seen acc) (paths : List String) :
    Collected files seen (paths.foldl (collectStep files fuel) acc) ∧
      acc.1 ⊆ (paths.foldl (collectStep files fuel) acc).1 ∧
      paths ⊆ (paths.foldl (collectStep files fuel) acc).1 := by
  induction paths generalizing acc with
  | nil => exact ⟨h, List.Subset.refl _, List.nil_subset _⟩
  | cons path rest ih =>
    obtain ⟨hone, hpath⟩ := h.step hcollects hfuel path
    obtain ⟨hall, hmore, hrest⟩ := ih hone
    have hsub : acc.1 ⊆ (collectStep files fuel acc path).1 :=
      subset_collectStep (subset_collectWithin fuel) acc path
    exact ⟨hall, List.Subset.trans hsub hmore, List.cons_subset.mpr ⟨hmore hpath, hrest⟩⟩

/-- The induction is on the fuel; a file that is gone on with is one file less. -/
theorem collects_collectWithin (files : Dict FileResult) (fuel : Nat) : Collects files fuel := by
  induction fuel with
  | zero => exact fun _ _ hfuel => absurd hfuel (Nat.not_lt_zero _)
  | succ fuel ih =>
    intro seen result hfuel
    have hstart : Collected files seen (seen, []) :=
      ⟨List.Subset.refl _, fun _ _ hmem hfresh => absurd hmem hfresh⟩
    obtain ⟨hall, -, hdependencies⟩ :=
      hstart.fold ih (Nat.le_of_lt_succ hfuel) result.dependencies
    rw [collectWithin_succ]
    refine ⟨⟨hall.subset, fun path found hmem hfresh hget => ?_⟩,
      List.subset_append_right _ _, hdependencies⟩
    obtain ⟨hdiagnostics, hdeeper⟩ := hall.found path found hmem hfresh hget
    exact ⟨List.subset_append_of_subset_left _ hdiagnostics, hdeeper⟩

/-- The diagnostics of all files that the entry reaches are collected, also where they depend on one
another. -/
theorem diagnostics_subset_collectDiagnostics {entry reached : String} {result found : FileResult}
    (hentry : files.get? entry = some result)
    (hreached : ReflTransGen (Depends files) entry reached) (hfound : files.get? reached = some found) :
    found.diagnostics ⊆ collectDiagnostics files entry result := by
  have hfuel : unseen files.keys [entry] < files.size + 1 := by
    have hle := unseen_le_length files.keys [entry]
    rw [Dict.keys, List.length_map] at hle
    exact Nat.lt_succ_of_le hle
  obtain ⟨hall, hdiagnostics, hdependencies⟩ := collects_collectWithin files _ [entry] result hfuel
  have hcloses : ∀ path file, path ∈ (collectWithin files (files.size + 1) result [entry]).1 →
      files.get? path = some file → file.diagnostics ⊆ collectDiagnostics files entry result ∧
        file.dependencies ⊆ (collectWithin files (files.size + 1) result [entry]).1 := by
    intro path file hmem hget
    by_cases hpath : path = entry
    · subst hpath
      rw [hentry] at hget
      cases hget
      exact ⟨hdiagnostics, hdependencies⟩
    · exact hall.found path file hmem (by simpa using hpath) hget
  refine (hcloses reached found ?_ hfound).1
  clear hfound
  induction hreached with
  | refl => exact hall.subset (List.mem_singleton_self _)
  | tail _ hdepends ih =>
    obtain ⟨file, hfile, hdependency, -⟩ := hdepends
    exact (hcloses _ file ih hfile).2 hdependency

/-! ## Headers -/

/-- A header that is used for the entry: the globals file, or one beside a file that the entry
reaches. -/
inductive Uses (options : Options) (s : Session) (entry : String) : String × Lowered → Prop where
  | globals {file : String} {lowered : Lowered} (named : options.globalsFile = some file)
      (known : s.headers.get? (Path.normalize file) = some (some lowered)) :
      Uses options s entry (Path.normalize file, lowered)
  | companion {file : String} {result : FileResult} {lowered : Lowered}
      (reached : ReflTransGen (Depends s.files) entry file)
      (checked : s.files.get? file = some result)
      (known : s.headers.get? (Path.normalize (options.headerPath result.fileName)) =
        some (some lowered)) :
      Uses options s entry (Path.normalize (options.headerPath result.fileName), lowered)

/-- The diagnostics of a compile that succeeds, whatever has been compiled before and whether it
succeeded, have all that was reported for the headers that are used for the entry, and for all
headers that these have imported, at any depth. -/
theorem header_diagnostics_reported (host : Host) (options : Options) {start s : Session}
    (hstart : Session.start host options = .ok start) (earlier : List String) (path : String)
    {result : CompileResult}
    (hrun : (compile host options path).run (start.after host options earlier) = (.ok result, s))
    {used header : String × Lowered} (huses : Uses options s (Path.normalize path) used)
    (htakes : ReflTransGen (Takes host options s.headers.entries) used header) :
    header.2.diagnostics ⊆ result.diagnostics := by
  have hstarted := Session.started_start hstart
  have hearlier : start.Advances host options (start.after host options earlier) :=
    Session.advances_after earlier hstarted.compiling
  have hcompile :=
    advancing_compile host options path (hearlier.idle hstarted.toIdle).compiling
  obtain ⟨file, hfile, hresult⟩ := hcompile.result result (by rw [hrun])
  have hadvances := hearlier.trans hcompile.keeps
  rw [hrun] at hadvances hfile hresult
  have hhanded := (hadvances.idle hstarted.toIdle).genuine.handedOn
  refine List.Subset.trans (hhanded.reachable htakes) ?_
  rw [hresult]
  cases huses with
  | @globals file lowered hnamed hknown =>
    refine List.subset_append_of_subset_left _ ?_
    obtain ⟨found, hfound⟩ := hstarted.globals file hnamed
    rw [hadvances.get?_header hfound] at hknown
    cases hknown
    rw [hadvances.globalDiagnostics, hstarted.reported, Session.ofGlobalsFile, hnamed]
    simp only [hfound]
    exact List.Subset.refl _
  | @companion reached found lowered hreached hchecked hknown =>
    refine List.subset_append_of_subset_right _ ?_
    refine List.Subset.trans ?_ (diagnostics_subset_collectDiagnostics hfile hreached hchecked)
    refine (hadvances.reports reached found ?_ hchecked).subset hknown
    rw [hstarted.files]
    rfl

theorem Host.header?_addHeader (host : Host) (path : String) (header : Signature.Header) :
    (host.addHeader path header).header? path = some header := by
  simp [Host.header?, Host.addHeader]

/-- An empty source, and a header with a name that nothing explains. -/
def Host.withMissing (header : String) : Host :=
  (({} : Host).addSource { path := "/app/main.js", text := "", program := Script.Build.program [] })
    |>.addHeader header (Signature.Build.header
      [Signature.Build.assignment "x" (Signature.Build.literal "Missing")])

/-- The header beside the source imports the one with the name. -/
def Host.importing : Host :=
  (Host.withMissing "/app/shapes.hjs").addHeader "/app/main.hjs"
    (Signature.Build.header [Signature.Build.imports "./shapes" []])

/-- The header that is imported became known first, and something was reported for it. -/
def knowsImported (known : List (String × Option Lowered)) : Bool :=
  match known with
  | [(first, some shapes), (second, some _)] =>
    first = "/app/shapes.hjs" && second = "/app/main.hjs" && !shapes.diagnostics.isEmpty
  | _ => false

theorem exists_of_knowsImported {known : List (String × Option Lowered)}
    (h : knowsImported known = true) : ∃ shapes main, shapes.diagnostics ≠ [] ∧
      known = [("/app/shapes.hjs", some shapes), ("/app/main.hjs", some main)] := by
  unfold knowsImported at h
  split at h
  · next first shapes second main =>
    simp only [Bool.and_eq_true, decide_eq_true_eq, Bool.not_eq_true', List.isEmpty_eq_false_iff] at h
    obtain ⟨⟨rfl, rfl⟩, hreported⟩ := h
    exact ⟨shapes, main, hreported, rfl⟩
  · cases h

theorem header_diagnostics_reported_importing : ∃ result s lowered,
    (compile .importing {} "/app/main.js").run Session.ofRing = (.ok result, s) ∧
      s.headers.get? "/app/shapes.hjs" = some (some lowered) ∧ lowered.diagnostics ≠ [] ∧
      lowered.diagnostics ⊆ result.diagnostics := by
  have hstart : Session.start .importing {} = .ok Session.ofRing := rfl
  have hends : ((compile .importing {} "/app/main.js").run Session.ofRing).1.isOk ∧
      knowsImported ((compile .importing {} "/app/main.js").run Session.ofRing).2.headers.entries ∧
      (((compile .importing {} "/app/main.js").run Session.ofRing).2.files.get? "/app/main.js").map
        FileResult.fileName = some "/app/main.js" := by
    rw [Session.ofRing_eq]
    decide +kernel
  have hnormal : Path.normalize "/app/main.js" = "/app/main.js" ∧
      Path.normalize (({} : Options).headerPath "/app/main.js") = "/app/main.hjs" ∧
      Path.normalize (({} : Options).importTarget "/app/main.hjs" "./shapes") = "/app/shapes.hjs" := by
    decide +kernel
  rcases hrun : (compile .importing {} "/app/main.js").run Session.ofRing with ⟨e | result, s⟩ <;>
    rw [hrun] at hends
  · cases hends.1
  obtain ⟨-, hknown, hfile⟩ := hends
  obtain ⟨shapes, main, hreported, hentries⟩ := exists_of_knowsImported hknown
  obtain ⟨file, hchecked, hname⟩ := Option.map_eq_some_iff.mp hfile
  have hmain : s.headers.get? (Path.normalize (({} : Options).headerPath file.fileName)) =
      some (some main) := by
    rw [hname, hnormal.2.1, Dict.get?, hentries]
    rfl
  have hshapes : s.headers.get? "/app/shapes.hjs" = some (some shapes) := by
    rw [Dict.get?, hentries]
    rfl
  have huses : Uses {} s (Path.normalize "/app/main.js")
      (Path.normalize (({} : Options).headerPath file.fileName), main) :=
    .companion (hnormal.1 ▸ .refl) hchecked hmain
  have htakes : Takes .importing {} s.headers.entries
      (Path.normalize (({} : Options).headerPath file.fileName), main)
      ("/app/shapes.hjs", shapes) := by
    rw [hname, hnormal.2.1]
    exact ⟨[("/app/shapes.hjs", some shapes)], [], _, hentries,
      ⟨_, "./shapes", [], Host.header?_addHeader _ _ _, List.mem_cons_self, by decide +kernel, rfl⟩,
      hnormal.2.2.symm, rfl⟩
  exact ⟨result, s, shapes, rfl, hshapes, hreported,
    header_diagnostics_reported .importing {} hstart [] "/app/main.js" hrun huses (.single htakes)⟩

/-- A source requires a package, and the header of the package has a name that nothing explains. -/
def Host.packaged : Host :=
  (Host.withMissing "/defs/pkg.hjs").addSource
    { path := "/app/main.js"
      text := ""
      program := Script.Build.program [Script.Build.expression
        (Script.Build.call (Script.Build.ident "require") [Script.Build.string "pkg"])] }

/-- The compile reports nothing, while something was reported for the header of the package that the
entry depends on. -/
def losesPackage (run : Except Error CompileResult × Session) : Bool :=
  match run with
  | (.ok result, s) => result.diagnostics.isEmpty &&
      ((s.files.get? "/app/main.js").any fun file => file.dependencies.contains "/defs/pkg.hjs") &&
      (s.headers.get? "/defs/pkg.hjs").any fun header =>
        header.any fun lowered => !lowered.diagnostics.isEmpty
  | _ => false

/-- What is reported for the header of a package does not reach the file that requires the package. -/
theorem package_diagnostics_lost : ∃ start result s file lowered,
    Session.start .packaged { definitions := some "/defs" } = .ok start ∧
      (compile .packaged { definitions := some "/defs" } "/app/main.js").run start =
        (.ok result, s) ∧
      s.files.get? "/app/main.js" = some file ∧ "/defs/pkg.hjs" ∈ file.dependencies ∧
      s.headers.get? "/defs/pkg.hjs" = some (some lowered) ∧
      ¬ lowered.diagnostics ⊆ result.diagnostics := by
  have hloses : losesPackage ((compile .packaged { definitions := some "/defs" } "/app/main.js").run
      Session.ofRing) := by
    rw [Session.ofRing_eq]
    decide +kernel
  rcases hrun : (compile .packaged { definitions := some "/defs" } "/app/main.js").run
    Session.ofRing with ⟨e | result, s⟩ <;> rw [hrun] at hloses
  · cases hloses
  simp only [losesPackage, Bool.and_eq_true, Option.any_eq_true, List.isEmpty_iff,
    List.contains_iff_mem, Bool.not_eq_true', List.isEmpty_eq_false_iff] at hloses
  obtain ⟨⟨hquiet, file, hfile, hdepends⟩, _, hheader, lowered, rfl, hreported⟩ := hloses
  refine ⟨_, result, s, file, lowered, rfl, hrun, hfile, hdepends, hheader, fun hsub => ?_⟩
  rw [hquiet] at hsub
  exact hreported (List.subset_nil.mp hsub)

end HeaderCheck.Project
