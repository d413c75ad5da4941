import HeaderCheck.Proofs.Project.Check
import HeaderCheck.Script.Build

/-!
# HeaderCheck.Proofs.Project.Termination

Every compile comes to an end. Whatever the sources require, the headers import and the functions
call, no traversal of sources, headers or scripts is cut short by the steps that it is given:

* `collectWithin_stable`: diagnostics are collected from all sources that a source depends on;
* `entered_at_most_once`: during the check of a source no function is entered more often than it
  stands there;
* `checkFile_orderly`: the sources that are being checked are different ones, and not too many.
-/

namespace HeaderCheck.Project

open HeaderCheck.Report (Diagnostic)
open HeaderCheck.Script
open HeaderCheck.Verify (State Watch verifySource)

/-! ## Collected diagnostics -/

/-- Go on with one dependency, if it has not been seen. -/
def collectStep (files : Dict FileResult) (fuel : Nat) :
    List String × List Diagnostic → String → List String × List Diagnostic :=
  fun (seen, collected) path =>
    if seen.contains path then (seen, collected)
    else
      match files.get? path with
      | none => (path :: seen, collected)
      | some file =>
        let (seen, more) := collectWithin files fuel file (path :: seen)
        (seen, collected ++ more)

theorem collectWithin_succ (files : Dict FileResult) (fuel : Nat) (result : FileResult)
    (seen : List String) :
    collectWithin files (fuel + 1) result seen =
      let collected := result.dependencies.foldl (collectStep files fuel) (seen, [])
      (collected.1, collected.2 ++ result.diagnostics) := rfl

variable {files : Dict FileResult}

theorem subset_collectStep {fuel : Nat}
    (h : ∀ result seen, seen ⊆ (collectWithin files fuel result seen).1)
    (acc : List String × List Diagnostic) (path : String) :
    acc.1 ⊆ (collectStep files fuel acc path).1 := by
  rw [collectStep]
  split
  · exact List.Subset.refl _
  split
  · exact List.subset_cons_self _ _
  · exact List.Subset.trans (List.subset_cons_self _ _) (h _ _)

/-- What has been seen stays so. -/
theorem subset_collectWithin (fuel : Nat) (result : FileResult) (seen : List String) :
    seen ⊆ (collectWithin files fuel result seen).1 := by
  induction fuel generalizing result seen with
  | zero => exact List.Subset.refl _
  | succ fuel ih =>
    have hfold : ∀ (paths : List String) acc,
        acc.1 ⊆ (paths.foldl (collectStep files fuel) acc).1 := by
      intro paths
      induction paths with
      | nil => exact fun acc => List.Subset.refl _
      | cons path rest ih' =>
        exact fun acc => List.Subset.trans (subset_collectStep ih acc path) (ih' _)
    rw [collectWithin_succ]
    exact hfold result.dependencies (seen, [])

/-- With more fuel than there are sources left, more fuel changes nothing. -/
theorem collectWithin_succ_eq {fuel : Nat} {seen : List String}
    (hfuel : unseen files.keys seen < fuel) (result : FileResult) :
    collectWithin files (fuel + 1) result seen = collectWithin files fuel result seen := by
  induction fuel generalizing result seen with
  | zero => omega
  | succ fuel ih =>
    have hstep : ∀ acc path, unseen files.keys acc.1 ≤ fuel →
        collectStep files (fuel + 1) acc path = collectStep files fuel acc path := by
      rintro ⟨seen, collected⟩ path hle
      rw [collectStep, collectStep]
      split
      · rfl
      next hfree =>
      split
      · rfl
      next file hfile =>
      have hkey : path ∈ files.keys := List.mem_map.mpr ⟨_, Dict.mem_entries_of_get? hfile, rfl⟩
      have hless := unseen_cons_lt hkey (by simpa using hfree)
      rw [ih (Nat.lt_of_lt_of_le hless hle)]
    have hfold : ∀ (paths : List String) acc, unseen files.keys acc.1 ≤ fuel →
        paths.foldl (collectStep files (fuel + 1)) acc = paths.foldl (collectStep files fuel) acc := by
      intro paths
      induction paths with
      | nil => exact fun acc _ => rfl
      | cons path rest ih' =>
        intro acc hle
        have hseen : acc.1 ⊆ (collectStep files fuel acc path).1 :=
          subset_collectStep (subset_collectWithin fuel) acc path
        rw [List.foldl_cons, List.foldl_cons, hstep acc path hle]
        exact ih' _ (Nat.le_trans (unseen_anti hseen) hle)
    rw [collectWithin_succ, collectWithin_succ, hfold _ _ (Nat.le_of_lt_succ hfuel)]

/-- The diagnostics of a project are collected to the end. -/
theorem collectWithin_stable (files : Dict FileResult) (result : FileResult) (seen : List String)
    (more : Nat) :
    collectWithin files (files.size + 1 + more) result seen =
      collectWithin files (files.size + 1) result seen := by
  have hle : unseen files.keys seen ≤ files.size := by
    have := unseen_le_length files.keys seen
    rwa [Dict.keys, List.length_map] at this
  induction more with
  | zero => rfl
  | succ more ih =>
    have hfuel : unseen files.keys seen < files.size + 1 + more := by omega
    exact (collectWithin_succ_eq hfuel result).trans ih

/-! ## Functions and sources -/

/-- No function of a source is entered more often than it stands there, however its check ends. -/
theorem entered_at_most_once (host : Host) (options : Options) (levels : Nat) (session : Session)
    (source : Source) :
    let run := (verifySource host options (requireModule host options
      (checkWithin host options levels))).run (State.start session source)
    (run.2.entered.map Prod.snd).Subperm ((functionsOf source.program.body).map Prod.snd) := by
  have hoff : Watch.off.Idle (watching session source False) := ⟨nofun, nofun, nofun⟩
  have hends := (runs_source host options levels hoff).2
  have hsub := hends.sound.entered_subperm
  rwa [hends.keeps.source] at hsub

/-- The sources that are being checked stay orderly, so no alarm is raised. -/
theorem checkFile_orderly (host : Host) (options : Options) (path : String) {session : Session}
    (h : session.compiling = []) (alarm : SessionM Unit) :
    (checkAlarmed alarm host options maxModuleDepth path).run session =
      (checkFile host options path).run session := by
  have hchecks : Checks False True [] (checkWithin host options maxModuleDepth)
      (checkAlarmed alarm host options maxModuleDepth) :=
    checks_checkWithin alarm options nofun fun _ => ⟨List.nodup_nil, by simp⟩
  exact (hchecks path session h fun _ => List.not_mem_nil).same trivial

/-- A compile comes to its own end. No traversal of headers or scripts runs out of the steps it is
given, diagnostics are collected to the end, no function of a source is entered more often than it
stands there, and the sources that are being checked stay orderly, from a session without any to
one without any. -/
theorem compile_terminates (host : Host) (options : Options) (path : String) :
    ¬FailsWith host options path .outOfFuel ∧
      (∀ files result seen more, collectWithin files (files.size + 1 + more) result seen =
        collectWithin files (files.size + 1) result seen) ∧
      (∀ levels session source,
        let run := (verifySource host options (requireModule host options
          (checkWithin host options levels))).run (State.start session source)
        (run.2.entered.map Prod.snd).Subperm ((functionsOf source.program.body).map Prod.snd)) ∧
      (∀ session, Session.start host options = .ok session → session.compiling = []) ∧
      ∀ session, session.compiling = [] →
        ((compile host options path).run session).2.compiling = [] ∧
        ∀ alarm, (checkAlarmed alarm host options maxModuleDepth (Path.normalize path)).run session =
          (checkFile host options (Path.normalize path)).run session := by
  refine ⟨?_, collectWithin_stable, ?_, ?_, ?_⟩
  · intro h
    have hexpected : Error.Expected False .outOfFuel := h.expected nofun
    exact hexpected
  · exact fun levels session source => entered_at_most_once host options levels session source
  · intro session hstart
    rcases start_cases host options with ⟨session', hstart', hcompiling⟩ | ⟨e, hstart', _⟩ <;>
      rw [hstart'] at hstart <;> cases hstart
    exact hcompiling
  · intro session hcompiling
    have hworks : Works False session (compile host options path) fun _ _ => True :=
      works_compile options nofun path
    exact ⟨hworks.keeps.compiling.trans hcompiling, checkFile_orderly host options _ hcompiling⟩

end HeaderCheck.Project
