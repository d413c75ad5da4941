import HeaderCheck.Proofs.Project.Session
import HeaderCheck.Signature.Build

/-!
# HeaderCheck.Proofs.Header.Termination

Lowering ends, however the declarations of a header refer to one another.

* `Ends`: work that counts down comes to an end of its own, and leaves the type variables in scope
  and the declarations in progress as it found them.
* `lowering_ends_and_restores`: so does the lowering of expressions, declarations and functions, in
  any state. A declaration that is applied inside itself, to whatever arguments, stays a name there.
-/

namespace HeaderCheck.Header

open HeaderCheck.Signature
open HeaderCheck.Types (TypeId)

variable {α : Type} {l : Lowering}

/-- With `enough` fuel the work comes to its end from `l`: there is no lack of fuel, and more makes no
difference. Whether it succeeds or fails, what is in scope and in progress is the same again. -/
structure Ends (l : Lowering) (work : (fuel : Nat) → LowerM α) (enough : Nat) : Prop where
  fueled : ((work enough).run l).1 ≠ .error .outOfFuel
  same : ∀ more, (work (enough + more)).run l = (work enough).run l
  typeVars : ((work enough).run l).2.typeVars = l.typeVars
  inProgress : ((work enough).run l).2.inProgress = l.inProgress

theorem Ends.of_lowers {work : Nat → LowerM α} {enough : Nat}
    (h : ∀ more, enough ≤ more → Lowers l (work enough) (work more)) : Ends l work enough where
  fueled hlack := (h enough (Nat.le_refl _)).safe.failure _ hlack
  same more := (h _ (Nat.le_add_right _ more)).same
  typeVars := (h enough (Nat.le_refl _)).safe.keeps.typeVars
  inProgress := (h enough (Nat.le_refl _)).safe.keeps.inProgress

/-- Expressions, declarations and functions are lowered to the end from every state, and so are the
statements of every header. A header that is asked for in a project is lowered to the end with all
that it imports. -/
theorem lowering_ends_and_restores (l : Lowering) :
    (∀ type, Ends l (fun fuel => lowerWithin fuel type) (type.size + l.remaining)) ∧
    (∀ name args,
      Ends l (fun fuel => lowerDeclaration (lowerWithin fuel) name args) l.remaining) ∧
    (∀ args result this generics brand,
      Ends l (fun fuel => lowerFunction (lowerWithin fuel) args result this generics brand)
        (typesSize args + result.size + typeSize? this + l.remaining)) ∧
    (∀ header, Ends { l with declarations := declarationsOf header }
      (fun _ => lowerStatements header) 0) ∧
    ∀ host options session path,
      ((Project.resolveHeader host options path).run session).1 ≠ .error .outOfFuel := by
  refine ⟨fun type => .of_lowers fun more hmore => ?_, fun name args => .of_lowers fun more hmore => ?_,
    fun args result this generics brand => .of_lowers fun more hmore => ?_, fun header => ?_,
    fun host options session path hlack => ?_⟩
  · exact lowersBelow_lowerWithin hmore (Nat.le_refl _)
  · have hbelow : LowersBelow l.remaining (lowerWithin l.remaining) (lowerWithin more) :=
      lowersBelow_lowerWithin hmore
    exact hbelow.lowers_declaration (Nat.le_refl _) name args
  · have hbelow : LowersBelow (typesSize args + result.size + typeSize? this + l.remaining)
        (lowerWithin (typesSize args + result.size + typeSize? this + l.remaining))
        (lowerWithin more) :=
      lowersBelow_lowerWithin hmore
    exact hbelow.lowers_function generics brand (Nat.le_refl _)
  · have hsafe := @lowers_lowerStatements { l with declarations := declarationsOf header } header rfl
    exact ⟨hsafe.failure _, fun _ => rfl, hsafe.keeps.typeVars, hsafe.keeps.inProgress⟩
  · exact (Project.loads_resolveHeader (s := session) host options path).failure _ hlack

/-- `Tower<T>` is an object that holds a `Tower<Array<T>>`, which stays a name. -/
def tower : Signature.Header :=
  Build.header [Build.declaration "Tower" ["T"] (Build.object
    [("above", Build.generic (Build.literal "Tower")
      [Build.generic (Build.literal "Array") [Build.literal "T"]])])]

example :
    let run := (lowerWithin 10 (Build.literal "Tower")).run
      { table := .initial, path := "", declarations := declarationsOf tower }
    run.1.toOption.bind run.2.table.lookup = some
      (.object ⟨[{ name := "above", type := ⟨21⟩ }], false, "Object"⟩) ∧
    run.2.table.lookup ⟨21⟩ = some (.literal "Tower" false) := by
  decide +kernel

end HeaderCheck.Header
