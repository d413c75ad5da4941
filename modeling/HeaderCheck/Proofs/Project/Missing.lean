import HeaderCheck.Proofs.Project.Check
import HeaderCheck.Script.Build

/-!
# HeaderCheck.Proofs.Project.Missing

No type goes missing in silence. An expression for which there is no type has been reported, or
something that it depends on has, by the time its visit ends.

The watches here run an alarm at such a moment. That an alarm may do anything and yet nothing comes
of it says that the moment never comes.
-/

namespace HeaderCheck.Verify

open HeaderCheck.Project
open HeaderCheck.Script
open HeaderCheck.Types (TypeId)

/-- Looks for missing types before anything is reported. -/
def Watch.forSilence (alarm : Check Unit) : Watch :=
  { trips := fun result s => result.isNone && s.diagnostics.isEmpty, alarm }

/-- Looks for missing types. -/
def Watch.forMissing (alarm : Check Unit) : Watch :=
  { trips := fun result _ => result.isNone, alarm }

variable {S : Setting}

theorem Watch.idle_forSilence (alarm : Check Unit) (h : S.source.program.Proper) :
    (Watch.forSilence alarm).Idle S := by
  refine ⟨?_, ?_, fun _ _ => h⟩
  · intro result s htrips
    exact Option.isNone_iff_eq_none.mp (Bool.and_eq_true_iff.mp htrips).1
  · intro result s htrips
    exact .inr (List.isEmpty_iff.mp (Bool.and_eq_true_iff.mp htrips).2)

theorem Watch.idle_forMissing (alarm : Check Unit) (hloose : S.loose)
    (h : S.source.program.Proper) : (Watch.forMissing alarm).Idle S :=
  ⟨Option.isNone_iff_eq_none.mp, fun _ => .inl hloose, fun _ _ => h⟩

/-- Whenever the visit of an expression ends without a type, something has been reported; so where
nothing is reported in the end, every visit has given a type. -/
theorem missing_types_reported (host : Host) (options : Options) (levels : Nat) (session : Session)
    (source : Source) (hproper : source.program.Proper) (alarm : Check Unit) :
    let require := requireModule host options (checkWithin host options levels)
    let start := State.start session source
    (watchedSource (.forSilence alarm) host options require).run start =
        (verifySource host options require).run start ∧
      ∀ s, (verifySource host options require).run start = (.ok (), s) → s.diagnostics = [] →
        (watchedSource (.forMissing alarm) host options require).run start = (.ok (), s) := by
  refine ⟨?_, ?_⟩
  · have hidle := Watch.idle_forSilence (S := watching session source False) alarm hproper
    exact (runs_source host options levels hidle).1.resolve_right nofun
  · intro s hrun hquiet
    have hidle := Watch.idle_forMissing (S := watching session source True) alarm trivial hproper
    rcases (runs_source host options levels hidle).1 with heq | ⟨_, hmarred⟩
    · exact heq.trans hrun
    · rw [hrun] at hmarred
      exact absurd hquiet hmarred

/-- A field is read whose object is in sight. -/
def readsField : Source :=
  { path := "/app/main.js"
    text := ""
    program := Build.program
      [Build.declare "point" (some (Build.object [("x", Build.number 1)])),
        Build.expression (Build.member (Build.ident "point") "x")] }

/-- Whether a run succeeds and reports nothing. -/
def isQuiet : Except Error Unit × State → Bool
  | (.ok (), s) => s.diagnostics.isEmpty
  | (.error _, _) => false

theorem run_of_isQuiet {run : Except Error Unit × State} (h : isQuiet run) :
    ∃ s, run = (.ok (), s) ∧ s.diagnostics = [] := by
  rcases run with ⟨_ | _, s⟩
  · cases h
  · exact ⟨s, rfl, List.isEmpty_iff.mp h⟩

theorem missing_types_reported_readsField :
    ∃ s, s.diagnostics = [] ∧
      (watchedSource (.forMissing (throw .outOfFuel)) {} {}
        (requireModule {} {} (checkWithin {} {} 0))).run (State.start {} readsField) = (.ok (), s) := by
  have hquiet : isQuiet ((verifySource {} {} (requireModule {} {} (checkWithin {} {} 0))).run
      (State.start {} readsField)) := by decide +kernel
  obtain ⟨s, hrun, hnone⟩ := run_of_isQuiet hquiet
  have hproper : readsField.program.Proper := by decide +kernel
  have hreported := missing_types_reported {} {} 0 {} readsField hproper (throw .outOfFuel)
  exact ⟨s, hnone, hreported.2 s hrun hnone⟩

end HeaderCheck.Verify
