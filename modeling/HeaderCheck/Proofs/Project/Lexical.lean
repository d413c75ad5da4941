import HeaderCheck.Proofs.Project.Assigned
import HeaderCheck.Proofs.Verify.Lexical

/-!
# HeaderCheck.Proofs.Project.Lexical

Which declaration of a name is used while a source of a project is verified.

* `innermost_declaration_used`: the innermost one in sight, if it has a type or if no scope around and
  no global name has a type for the name.
* `declaration_overlooked`: a function without a type loses against a global name.
-/

namespace HeaderCheck.Project

open HeaderCheck.Script
open HeaderCheck.Verify (NameDeclaration State declaration_used verifyIdentifier)

/-- Reads of a name, calls of it and the check of its declaration go by the innermost declaration in
sight. A function without a type is used there only if no scope around and no global name has a type
for the name. -/
theorem innermost_declaration_used (host : Host) (options : Options) (levels fuel : Nat) {s : State}
    {name : String} {declaration : NameDeclaration} (h : s.declaration? name = some declaration)
    (hunrivalled : ∀ holder function, declaration = .untyped holder function → s.Unrivalled name) :
    s.Uses (requiring host options levels (fuel + 1)) name declaration :=
  declaration_used _ fuel h hunrivalled

/-! ## Functions of a file -/

/-- A function that no call has typed. -/
def uncalled (name : String) : Program :=
  Build.program [Build.functionDecl name ["x"] [Build.returns (some (Build.ident "x"))]]

-- there is no other function, and none in its body
example : (functionsOf (uncalled "f").body).length = 1 := by decide +kernel

/-- The state in which the file with the function ends. -/
def declared (name : String) : State :=
  stateOf (inspect (.single (uncalled name)) {} "/app/main.js")

/-- A function of the file is used where no global name has a type for its name. -/
theorem innermost_declaration_used_uncalled :
    ∃ s declaration, inspect (.single (uncalled "f")) {} "/app/main.js" = .ok s ∧
      s.declaration? "f" = some declaration ∧ s.Unrivalled "f" ∧
      s.Uses (requiring (.single (uncalled "f")) {} 1 1) "f" declaration := by
  have houtcome : (inspect (.single (uncalled "f")) {} "/app/main.js").isOk ∧
      ((declared "f").declaration? "f").isSome ∧
      ((declared "f").arena.chain (declared "f").focus.scope).all
        (fun x => !Scope.Arena.tells "f" x.2) ∧
      (declared "f").session.globals.identifiers.get? "f" = none := by
    rw [declared, inspect, Session.start_eq]
    decide +kernel
  obtain ⟨hok, hdeclared, hscopes, hglobals⟩ := houtcome
  have hunrivalled : (declared "f").Unrivalled "f" :=
    ⟨fun x hx => by simpa using List.all_eq_true.mp hscopes x hx, hglobals⟩
  obtain ⟨declaration, hdeclaration⟩ := Option.isSome_iff_exists.mp hdeclared
  exact ⟨declared "f", declaration, eq_ok_stateOf hok, hdeclaration, hunrivalled,
    innermost_declaration_used _ _ 1 0 hdeclaration fun _ _ _ => hunrivalled⟩

/-- A function of the file loses against a global name: reads of the name give the global type. -/
theorem declaration_overlooked :
    ∃ s holder function type, inspect (.single (uncalled "isNaN")) {} "/app/main.js" = .ok s ∧
      s.declaration? "isNaN" = some (.untyped holder function) ∧
      s.session.globals.identifiers.get? "isNaN" = some type ∧
      (verifyIdentifier { name := "isNaN" }).run s = (.ok (some type), s) := by
  have houtcome : (inspect (.single (uncalled "isNaN")) {} "/app/main.js").isOk ∧
      ((declared "isNaN").declaration? "isNaN").any NameDeclaration.isUntyped ∧
      ((declared "isNaN").session.globals.identifiers.get? "isNaN").isSome ∧
      (declared "isNaN").lookup "isNaN" =
        (declared "isNaN").session.globals.identifiers.get? "isNaN" := by
    rw [declared, inspect, Session.start_eq]
    decide +kernel
  obtain ⟨hok, huntyped, hglobal, hlookup⟩ := houtcome
  obtain ⟨type, htype⟩ := Option.isSome_iff_exists.mp hglobal
  obtain ⟨declaration, hdeclaration, huntyped⟩ := (Option.any_eq_true _ _).mp huntyped
  cases declaration with
  | typed _ => cases huntyped
  | untyped holder function =>
    refine ⟨declared "isNaN", holder, function, type, eq_ok_stateOf hok, hdeclaration, htype, ?_⟩
    exact Verify.run_verifyIdentifier_of_lookup (hlookup.trans htype) {}

end HeaderCheck.Project
