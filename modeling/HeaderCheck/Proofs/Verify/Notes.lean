import HeaderCheck.Proofs.Verify.Run

/-!
# HeaderCheck.Proofs.Verify.Notes

Work that only takes notes: it may add types and diagnostics, and leaves the rest of the state alone,
the scopes above all. Whatever is to be shown of the verification, this much of it is one case.

* `Noted`: how such work leaves a state.
* `Notes`: work that leaves every state so. One rule for each way to put work together, then one
  lemma for each part of the verification that never changes a scope.
-/

namespace HeaderCheck.Verify

open HeaderCheck.Project (Error)
open HeaderCheck.Report (Diagnostic Kind)
open HeaderCheck.Scope (FunctionInfo)
open HeaderCheck.Script
open HeaderCheck.Types (FunctionShape Occurrence Param Table TypeId)

variable {α β : Type}

/-- Whether an error says that a scope has a name, or lacks it. -/
def namesRefused : Error → Bool
  | .scope (.missingFunction _) | .scope (.missingIdentifier _) | .scope (.duplicateIdentifier _) =>
    true
  | _ => false

/-! ## The judgement -/

/-- The state with another table of types and further diagnostics. -/
def State.noting (s : State) (table : Table) (diagnostics : List Diagnostic) : State :=
  { s with session := { s.session with table }, diagnostics := s.diagnostics ++ diagnostics }

theorem State.noting_nil (s : State) : s.noting s.table [] = s := by
  simp [State.noting, State.table]

theorem State.noting_noting (s : State) (table table' : Table)
    (diagnostics diagnostics' : List Diagnostic) :
    (s.noting table diagnostics).noting table' diagnostics' =
      s.noting table' (diagnostics ++ diagnostics') := by
  simp [State.noting]

structure Noted (s : State) (run : Except Error α × State) : Prop where
  same : ∃ table diagnostics, run.2 = s.noting table diagnostics
  failure : ∀ e, run.1 = .error e → namesRefused e = false

def Notes (m : Check α) : Prop :=
  ∀ s, Noted s (m.run s)

theorem notes_pure (a : α) : Notes (pure a) :=
  fun s => ⟨⟨s.table, [], s.noting_nil.symm⟩, nofun⟩

theorem notes_throw {e : Error} (h : namesRefused e = false) : Notes (throw e : Check α) := by
  refine fun s => ⟨⟨s.table, [], s.noting_nil.symm⟩, ?_⟩
  rintro _ ⟨⟩
  exact h

theorem notes_get_bind {f : State → Check α} (h : ∀ s, Notes (f s)) : Notes (get >>= f) :=
  fun s => h s s

theorem notes_bind {m : Check α} {f : α → Check β} (h : Notes m) (hf : ∀ a, Notes (f a)) :
    Notes (m >>= f) := by
  intro s
  have hm := h s
  rcases hrun : m.run s with ⟨e | a, s₁⟩ <;> rw [hrun] at hm
  · rw [run_bind_error hrun]
    refine ⟨hm.same, ?_⟩
    rintro _ ⟨⟩
    exact hm.failure e rfl
  · rw [run_bind_ok hrun]
    obtain ⟨⟨table, diagnostics, hsame⟩, -⟩ := hm
    obtain ⟨⟨table', diagnostics', hsame'⟩, hfailure⟩ := hf a s₁
    refine ⟨⟨table', diagnostics ++ diagnostics', ?_⟩, hfailure⟩
    rw [hsame', show s₁ = _ from hsame, State.noting_noting]

theorem notes_then_unit {m : Check α} (h : Notes m) : Notes (do let _ ← m) :=
  notes_bind h fun _ => notes_pure _

/-- No result after a report. -/
theorem notes_none {m : Check Unit} (h : Notes m) : Notes (do m; pure none : Check (Option α)) :=
  notes_bind h fun _ => notes_pure none

theorem notes_record (diagnostics : List Diagnostic) : Notes (record diagnostics) :=
  fun s => ⟨⟨s.table, diagnostics, rfl⟩, nofun⟩

theorem notes_report {kind : Kind} {span : Span} {fields : List (String × String)} :
    Notes (report kind span fields) :=
  fun s => ⟨⟨s.table, _, rfl⟩, nofun⟩

theorem notes_onTable (f : Table → α × Table) : Notes (onTable f) :=
  fun s => ⟨⟨(f s.table).2, [], by rw [run_onTable, State.noting, List.append_nil, State.withTable]⟩,
    nofun⟩

theorem notes_onTable? (f : Table → Option (TypeId × Table)) : Notes (onTable? f) :=
  notes_onTable _

/-- A new type is the result. -/
theorem notes_made (f : Table → TypeId × Table) : Notes (do return some (← onTable f)) :=
  notes_bind (notes_onTable f) fun _ => notes_pure _

theorem notes_checkFits {span : Span} {expected actual : TypeId} :
    Notes (checkFits span expected actual) := by
  refine notes_get_bind fun s => ?_
  split
  · exact notes_bind (notes_record _) fun _ => notes_pure _
  · exact notes_pure _

/-! ## Functions and names -/

theorem notes_checkBody (f : Function) (info : FunctionInfo) : Notes (checkBody f info) := by
  have horder : Notes (checkFieldOrder f info) := by
    refine notes_get_bind fun s => ?_
    split
    · exact notes_pure _
    simp only
    split
    · exact notes_pure _
    · exact notes_report
  have hconstructor : Notes (checkConstructorReturn f info) := by
    rw [checkConstructorReturn]
    split
    · exact notes_pure _
    split
    · exact notes_report
    · exact notes_get_bind fun _ => notes_report
  have hreturned : Notes (checkReturned f info) := by
    rw [checkReturned]
    split
    · exact notes_pure _
    split
    · exact notes_then_unit notes_checkFits
    split
    · exact notes_get_bind fun _ => notes_report
    · exact notes_pure _
  rw [checkBody]
  split
  · exact notes_bind horder fun _ => hconstructor
  · exact hreturned

theorem notes_verifyThis (span : Span) : Notes (verifyThis span) := by
  refine notes_get_bind fun s => ?_
  split
  · exact notes_none notes_report
  split
  · exact notes_pure _
  · exact notes_none notes_report

theorem notes_verifyIdentifier (id : Identifier) : Notes (verifyIdentifier id) := by
  refine notes_get_bind fun s => ?_
  split
  · exact notes_pure _
  split
  · exact notes_pure _
  split
  · exact notes_none notes_report
  split
  · exact notes_pure _
  · exact notes_none notes_report

/-! ## Accesses -/

namespace Access

theorem notes_fieldType (access : Access) (object : TypeId) (field : String) :
    Notes (access.fieldType object field) := by
  refine notes_get_bind fun s => ?_
  split
  · exact notes_pure _
  · split
    · exact notes_pure _
    · exact notes_none notes_report
  · exact notes_none notes_report
  · exact notes_none notes_report

theorem notes_reportDynamic (access : Access) : Notes access.reportDynamic :=
  notes_get_bind fun _ => notes_report

theorem notes_indexed (access : Access) (key index part : TypeId) :
    Notes (access.indexed key index part) := by
  refine notes_bind notes_checkFits fun fits => ?_
  split <;> exact notes_pure _

theorem notes_literalPart (access : Access) (object : TypeId) :
    Notes (access.literalPart object) := by
  refine notes_get_bind fun s => ?_
  split
  · split
    · exact notes_pure _
    · exact notes_none access.notes_reportDynamic
  · split
    · exact access.notes_fieldType object _
    · exact notes_none access.notes_reportDynamic
  · exact notes_none access.notes_reportDynamic

end Access

/-! ## Operators -/

theorem notes_applyOperator (operator : String) (span : Span) (operands : List TypeId) :
    Notes (applyOperator operator span operands) := by
  refine notes_get_bind fun s => ?_
  split
  · exact notes_pure _
  split
  · split
    · exact notes_pure _
    · exact notes_none (notes_record _)
  · split
    · exact notes_pure _
    · exact notes_none notes_report

/-! ## Calls -/

namespace Call

theorem notes_checkArity (call : Call) (shape : FunctionShape) (name : String) :
    Notes (call.checkArity shape name) := by
  rw [checkArity]
  split
  · exact notes_bind notes_report fun _ => notes_pure _
  split
  · exact notes_bind notes_report fun _ => notes_pure _
  · exact notes_pure _

theorem notes_checkArgument (span : Span) (param : Param) (actual : TypeId) :
    Notes (checkArgument span param actual) := by
  have hfits (excused : Bool) :
      Notes (if !excused then do let _ ← checkFits span param.type actual else pure ()) := by
    split
    · exact notes_then_unit notes_checkFits
    · exact notes_pure _
  refine notes_get_bind fun s => ?_
  split
  · exact notes_bind (notes_onTable _) fun _ => notes_get_bind fun _ => hfits _
  · exact hfits false

theorem notes_reportNonFunction (call : Call) (actual : TypeId) :
    Notes (call.reportNonFunction actual) :=
  notes_get_bind fun _ => notes_report

theorem notes_solve (call : Call) (passed : Passed) (occurrences : List Occurrence)
    (solved : Dict TypeId) : Notes (call.solve passed occurrences solved) := by
  have hone (solved : Dict TypeId) (name : String) (found : TypeId) (span : Span) :
      Notes (solveOne solved name found span) := by
    refine notes_get_bind fun s => ?_
    split
    · exact notes_pure _
    split
    · exact notes_pure _
    · exact notes_none notes_report
  induction occurrences generalizing solved with
  | nil => exact notes_pure _
  | cons occurrence rest ih =>
    refine notes_get_bind fun s => ?_
    split
    · exact notes_throw rfl
    split
    · exact ih solved
    · split
      · exact ih solved
      · exact notes_none notes_report
    · split
      · exact ih solved
      · refine notes_bind (hone _ _ _ _) fun solved => ?_
        cases solved with
        | some solved => exact ih solved
        | none => exact notes_pure _

theorem notes_solvedShape (call : Call) (callee : TypeId) (shape : FunctionShape)
    (passed : Passed) : Notes (call.solvedShape callee shape passed) := by
  have hmade : Notes (call.instantiate callee shape passed) := by
    refine notes_bind (notes_solve call passed _ _) fun solved => ?_
    cases solved with
    | none => exact notes_pure _
    | some solved => exact notes_made _
  rw [solvedShape]
  split
  · exact notes_pure _
  refine notes_bind hmade fun resolved => ?_
  cases resolved with
  | none => exact notes_pure _
  | some resolved => exact notes_get_bind fun _ => notes_pure _

end Call

theorem notes_targetType (left : Expr) (type : TypeId) (right : Expr) :
    Notes (targetType left type right) := by
  refine notes_get_bind fun s => ?_
  split
  · simp only
    split
    · exact notes_onTable _
    · exact notes_pure _
  · exact notes_pure _

end HeaderCheck.Verify
