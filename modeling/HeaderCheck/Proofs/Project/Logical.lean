import HeaderCheck.Proofs.Project.Handles
import HeaderCheck.Proofs.Types.Alternatives

/-!
# HeaderCheck.Proofs.Project.Logical

The types of `left && right` and `left || right`.

* `verifySecond`: the right side, verified where the left one decides nothing.
* `run_verifyLogical`: what a logical expression does once both sides have a type.
* `logical_type_covers`: its type accepts that of the right side, and for `||` all that the left side
  accepts without being `null` or `undefined`, but what a variable without a value accepts.
-/

namespace HeaderCheck

namespace Verify

open HeaderCheck.Project (Host Options Pact alike requiring)
open HeaderCheck.Script (Expr)
open HeaderCheck.Types (Table TypeId)

/-- The right side of a logical expression, verified where the left one decides nothing. -/
def verifySecond (v : Visitor) (operator : String) (left right : Expr) : Check (Option TypeId) := do
  let taken ← openBranch
  let skipped ← openBranch
  if operator = "||" then narrow left skipped taken else narrow left taken skipped
  inScope taken (v.expr right)

section Runs

variable {v v' : Visitor} {operator : String} {left right : Expr} {s s' : State} {type : TypeId}

/-- The type of a logical expression and the table that has it, from the types of both sides. -/
def joined (operator : String) (table : Table) (first second : TypeId) : TypeId × Table :=
  if operator = "||" then table.fallback first second else (second, table)

/-- What a logical expression does once both sides have a type. -/
theorem run_verifyLogical
    (hrun : (verifyLogical v operator left right).run s = (.ok (some type), s')) :
    ∃ first s₁ second s₂, (v.value left).run s = (.ok (some first), s₁) ∧
      (verifySecond v operator left right).run s₁ = (.ok (some second), s₂) ∧
      type = (joined operator s₂.table first second).1 ∧
      s' = s₂.withTable (joined operator s₂.table first second).2 := by
  obtain ⟨first, s₁, hleft, hrest⟩ := ok_of_run_bind hrun
  cases first with
  | none => cases hrest
  | some first =>
  obtain ⟨taken, s₂, htaken, hrest⟩ := ok_of_run_bind hrest
  obtain ⟨skipped, s₃, hskipped, hrest⟩ := ok_of_run_bind hrest
  by_cases hor : operator = "||"
  · simp only [hor, if_true] at hrest
    obtain ⟨⟨⟩, s₄, hnarrow, hrest⟩ := ok_of_run_bind hrest
    obtain ⟨second, s₅, hright, hrest⟩ := ok_of_run_bind hrest
    have hsecond : (verifySecond v operator left right).run s₁ = (.ok second, s₅) := by
      rw [verifySecond, run_bind_ok htaken, run_bind_ok hskipped, if_pos hor, run_bind_ok hnarrow]
      exact hright
    cases second with
    | none => cases hrest
    | some second =>
    obtain ⟨rest, s₆, hrestType, hunion⟩ := ok_of_run_bind hrest
    refine ⟨first, s₁, second, s₅, hleft, hsecond, ?_⟩
    rw [joined, if_pos hor, Table.fallback, Table.withoutNullish]
    cases hmade : s₅.table.removeNullish? first with
    | none =>
      rw [run_onTable?_none hmade] at hrestType
      cases hrestType
      cases hunion
      exact ⟨rfl, rfl⟩
    | some made =>
      rw [run_onTable?_some hmade] at hrestType
      cases hrestType
      cases hunion
      exact ⟨rfl, rfl⟩
  · simp only [hor, if_false] at hrest
    obtain ⟨⟨⟩, s₄, hnarrow, hrest⟩ := ok_of_run_bind hrest
    obtain ⟨second, s₅, hright, hrest⟩ := ok_of_run_bind hrest
    have hsecond : (verifySecond v operator left right).run s₁ = (.ok second, s₅) := by
      rw [verifySecond, run_bind_ok htaken, run_bind_ok hskipped, if_neg hor, run_bind_ok hnarrow]
      exact hright
    cases second with
    | none => cases hrest
    | some second =>
    cases hrest
    refine ⟨first, s₁, type, s', hleft, hsecond, ?_⟩
    rw [joined, if_neg hor]
    exact ⟨rfl, rfl⟩

/-- The right side does the same in two runs. -/
theorem lockstep_verifySecond {P : Pact} {p : State × State} (hv : VisitsAlike P v v') :
    Lockstep (states P) p (verifySecond v operator left right) (verifySecond v' operator left right)
      (Handles? P) := by
  refine .bind lockstep_openBranch fun taken taken' q _ htaken => ?_
  refine .bind lockstep_openBranch fun skipped skipped' r _ hskipped => ?_
  subst htaken hskipped
  have hright (r : State × State) : Lockstep (states P) r (inScope taken (v.expr right))
      (inScope taken (v'.expr right)) (Handles? P) := lockstep_armExpr hv taken right
  split
  · exact .bind (lockstep_narrow left skipped taken) fun _ _ u _ _ => hright u
  · exact .bind (lockstep_narrow left taken skipped) fun _ _ u _ _ => hright u

end Runs

/-- The type of a logical expression accepts that of its right side. For `||` it accepts besides what the
left side accepts and is neither `null` nor `undefined`. The exceptions are what only a variable without a
value accepts, and what a left side that is no union accepts with all levels. -/
theorem logical_type_covers (host : Host) (options : Options) (levels fuel : Nat) {s s' : State}
    (hissued : s.Issued) {operator : String} {left right : Expr} {type : TypeId}
    (hrun : (verifyLogical (requiring host options levels fuel) operator left right).run s =
      (.ok (some type), s')) :
    ∃ first s₁ second s₂,
      ((requiring host options levels fuel).value left).run s = (.ok (some first), s₁) ∧
      (verifySecond (requiring host options levels fuel) operator left right).run s₁ =
        (.ok (some second), s₂) ∧
      s'.table.isSubtype type second = true ∧
      (operator = "||" → ∀ g, s'.table.isSubstantial g = true → s'.table.isSubtype first g = true →
        s'.table.isSubtype type g = true ∨
          (∃ m ∈ s'.table.members first, m ∉ s'.table.members type ∧ m.growsFreely = true ∧
            s'.table.isSubtype m g = true) ∨
          s'.table.unionMembers? first = none ∧
            s'.table.checkLevels (Table.maxLevels - 1) first g ≠ .ok ()) := by
  have hv := visitsAlike_requiring host options levels fuel
  obtain ⟨first, s₁, second, s₂, hleft, hsecond, rfl, rfl⟩ := run_verifyLogical hrun
  obtain ⟨hissued₁, -, hfirst⟩ := hissued.run? (hv.value left) hleft
  obtain ⟨hissued₂, hx, hright⟩ := hissued₁.run? (lockstep_verifySecond hv) hsecond
  have hf : s₂.table.Issued first := hx.issued (hfirst first rfl)
  have hs : s₂.table.Issued second := hright second rfl
  refine ⟨first, s₁, second, s₂, hleft, hsecond, ?_⟩
  by_cases hor : operator = "||"
  · have hjoined : joined operator s₂.table first second = s₂.table.fallback first second := if_pos hor
    have hgrows := hissued₂.table.grows_fallback hf hs
    obtain ⟨hother, hown⟩ := hissued₂.table.members_fallback hf hs
    rw [← Table.members_extends hgrows.extend hs] at hother
    rw [← Table.members_extends hgrows.extend hf] at hown
    rw [hjoined]
    exact ⟨hgrows.wellFormed.isSubtype_of_members hgrows.issued hother,
      fun _ g hg hok => hgrows.wellFormed.takes_of_kept hown hg hok⟩
  · have hjoined : joined operator s₂.table first second = (second, s₂.table) := if_neg hor
    rw [hjoined]
    exact ⟨isSubtype_self _ _, fun h => absurd h hor⟩

end Verify

namespace Project

open HeaderCheck.Script
open HeaderCheck.Types (TypeId)
open HeaderCheck.Verify

/-! ## What is lost -/

/-- A variable without a value. -/
def defaulting : Program :=
  Build.program [Build.declare "x" (some Build.null)]

def Host.defaulting : Host :=
  (Host.single Project.defaulting).addHeader "/app/main.hjs"
    (Signature.Build.header
      [Signature.Build.assignment "a" textOrNull,
        Signature.Build.assignment "b" (Signature.Build.literal "Number"),
        Signature.Build.assignment "c" (Signature.Build.literal "Boolean")])

def defaulted : State :=
  stateOf (inspect Host.defaulting {} "/app/main.js")

/-- The visitor of the source. -/
def defaulter : Visitor :=
  requiring Host.defaulting {} 1 2

/-- The expression `left || right` or `left && right`. -/
def logicalType (operator : String) (left right : Expr) : Check (Option TypeId) :=
  verifyLogical defaulter operator left right

/-- The value of `x` or a text. -/
def valueOrText : Expr :=
  Build.conditional (Build.ident "c") (Build.ident "x") (Build.string "s")

/-- The types of `a || b`, of `(c ? x : "s") || "t"` and of `a && b`, and what their left sides accept. -/
theorem checked_defaulting :
    (inspect Host.defaulting {} "/app/main.js").isOk ∧
      (let after := (logicalType "||" (Build.ident "a") (Build.ident "b")).run defaulted
      ((defaulter.value (Build.ident "a")).run defaulted).1.toOption = some (some ⟨61⟩) ∧
        after.1.toOption = some (some ⟨62⟩) ∧ after.2.table.isSubstantial .string = true ∧
        after.2.table.isSubtype ⟨61⟩ .string = true ∧
        (∀ m ∈ after.2.table.members ⟨61⟩, m.growsFreely = false) ∧
        after.2.table.unionMembers? ⟨61⟩ ≠ none) ∧
      (let after := (logicalType "||" valueOrText (Build.string "t")).run defaulted
      ((defaulter.value valueOrText).run defaulted).1.toOption = some (some ⟨62⟩) ∧
        after.1.toOption = some (some .string) ∧ after.2.table.isSubtype ⟨62⟩ .number = true ∧
        after.2.table.isSubtype .string .number = false) ∧
      let after := (logicalType "&&" (Build.ident "a") (Build.ident "b")).run defaulted
      after.1.toOption = some (some .number) ∧ after.2.table.isSubtype ⟨61⟩ .null = true ∧
        after.2.table.isSubtype .number .null = false := by
  rw [defaulted, inspect, Session.start_eq]
  decide +kernel

theorem inspect_defaulting : inspect Host.defaulting {} "/app/main.js" = .ok defaulted :=
  eq_ok_stateOf checked_defaulting.1

/-- A text, or no text, or a number: the type accepts texts. -/
theorem logical_type_covers_text :
    ∃ type s', (logicalType "||" (Build.ident "a") (Build.ident "b")).run defaulted = (.ok (some type), s') ∧
      s'.table.isSubtype type .string = true := by
  obtain ⟨-, ⟨hleft, hvalue, hsubstantial, htakes, hplain, hunion⟩, -⟩ := checked_defaulting
  have hrun := run_eq_of_toOption hvalue
  obtain ⟨first, s₁, second, s₂, hfirst, -, -, hcovers⟩ := Verify.logical_type_covers Host.defaulting {} 1 2
    (issued_inspect inspect_defaulting) hrun
  have hsame : first = ⟨61⟩ := by
    have hleft' := run_eq_of_toOption hleft
    rw [defaulter, hfirst] at hleft'
    cases hleft'
    rfl
  subst hsame
  refine ⟨_, _, hrun, ?_⟩
  rcases hcovers rfl .string hsubstantial htakes with hok | ⟨m, hm, -, hgrows, -⟩ | ⟨hnone, -⟩
  · exact hok
  · rw [hplain m hm] at hgrows
    cases hgrows
  · exact absurd hnone hunion

/-- The left side of `(c ? x : "s") || "t"` accepts numbers, as `x` has no value yet, and that of `a && b`
accepts `null`. The expressions do not. -/
theorem logical_type_loses :
    ∃ s, inspect Host.defaulting {} "/app/main.js" = .ok s ∧
      (∃ first s₁ type s', (defaulter.value valueOrText).run s = (.ok (some first), s₁) ∧
        (logicalType "||" valueOrText (Build.string "t")).run s = (.ok (some type), s') ∧
        s'.table.isSubtype first .number = true ∧ s'.table.isSubtype type .number = false) ∧
      ∃ first s₁ type s', (defaulter.value (Build.ident "a")).run s = (.ok (some first), s₁) ∧
        (logicalType "&&" (Build.ident "a") (Build.ident "b")).run s = (.ok (some type), s') ∧
        s'.table.isSubtype first .null = true ∧ s'.table.isSubtype type .null = false := by
  obtain ⟨-, ⟨ha, -⟩, ⟨hleft, hvalue, htakes, hrefuses⟩, hvalue', htakes', hrefuses'⟩ := checked_defaulting
  exact ⟨defaulted, inspect_defaulting,
    ⟨_, _, _, _, run_eq_of_toOption hleft, run_eq_of_toOption hvalue, htakes, hrefuses⟩,
    _, _, _, _, run_eq_of_toOption ha, run_eq_of_toOption hvalue', htakes', hrefuses'⟩

end Project

end HeaderCheck
