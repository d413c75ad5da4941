import HeaderCheck.Proofs.Project.Lexical
import HeaderCheck.Proofs.Verify.Context

/-!
# HeaderCheck.Proofs.Project.Context

The file with the function `f` that no call has typed, at its end: what is said of contexts holds there
of a sum of texts, and not of a first call of `f`.
-/

namespace HeaderCheck.Project

open HeaderCheck.Script
open HeaderCheck.Verify (Part SameOutcome State guarded visitor)

/-- What a source of the project requires. -/
def requiringUncalled : (file request : String) → SessionM Verify.Required :=
  requireModule (.single (uncalled "f")) {} (checkWithin (.single (uncalled "f")) {} 1)

/-- The state in which the file ends, for a slot of type `expected`. -/
def declaredFor (expected : Option Types.TypeId) : State :=
  (declared "f").inContext expected none

def textSum : Expr :=
  Build.binary "+" (Build.string "a") (Build.string "b")

def firstCall : Expr :=
  Build.call (Build.ident "f") [Build.string "a"]

/-- A sum takes nothing from the context, and a first call gives what it is to give. -/
theorem runs_at_end :
    (inspect (.single (uncalled "f")) {} "/app/main.js").isOk ∧
      ((Part.object.visit (guarded (fun found => found = (declared "f").around)
        requiringUncalled 8) textSum).run (declaredFor none)).1.isOk ∧
      ((Part.object.visit (visitor requiringUncalled 8) firstCall).run (declaredFor none)).1.toOption =
        some (some .string) ∧
      ((Part.object.visit (visitor requiringUncalled 8) firstCall).run
        (declaredFor (some .number))).1.toOption = some (some .number) := by
  rw [declaredFor, declaredFor, declared, inspect, Session.start_eq]
  decide +kernel

/-- A sum of texts is verified alike for every slot. -/
theorem part_context_free_sum :
    ∃ s, inspect (.single (uncalled "f")) {} "/app/main.js" = .ok s ∧ s.arena.Sound ∧
      s.focus.scope.index < s.arena.size ∧
      SameOutcome
        ((Part.object.visit (visitor requiringUncalled 8) textSum).run (s.inContext none none))
        ((Part.object.visit (visitor requiringUncalled 8) textSum).run
          (s.inContext (some .number) none)) := by
  obtain ⟨hok, hguarded, -, -⟩ := runs_at_end
  have hinspect : inspect (.single (uncalled "f")) {} "/app/main.js" = .ok (declared "f") :=
    eq_ok_stateOf hok
  obtain ⟨source, hsource, hfits⟩ := fits_inspect hinspect
  refine ⟨declared "f", hinspect, hfits.arena.sound, hfits.focus, ?_⟩
  refine Verify.part_context_free requiringUncalled 8 hfits.arena.sound hfits.focus .object textSum none
    (some .number) none none (.inr ⟨fun _ => rfl, ?_⟩)
  intro hfails
  rw [declaredFor, hfails] at hguarded
  cases hguarded

/-- A first call that is the object of an access gives what the access is to give. -/
theorem object_takes_context :
    ∃ s, inspect (.single (uncalled "f")) {} "/app/main.js" = .ok s ∧
      ¬∀ (part : Part) (e : Expr) (expected expected' : Option Types.TypeId),
        SameOutcome ((part.visit (visitor requiringUncalled 8) e).run (s.inContext expected none))
          ((part.visit (visitor requiringUncalled 8) e).run (s.inContext expected' none)) := by
  obtain ⟨hok, -, hstring, hnumber⟩ := runs_at_end
  refine ⟨declared "f", eq_ok_stateOf hok, fun hall => ?_⟩
  have hsame := congrArg Except.toOption (hall .object firstCall none (some .number)).result
  rw [← declaredFor, ← declaredFor, hstring, hnumber] at hsame
  cases hsame

end HeaderCheck.Project
