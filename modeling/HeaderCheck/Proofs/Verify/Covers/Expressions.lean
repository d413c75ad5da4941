import HeaderCheck.Proofs.Verify.Covers.Functions

/-!
# HeaderCheck.Proofs.Verify.Covers.Expressions

Expressions that have a type and report nothing: all their parts have been visited.

* `directIn`: the functions that stand in expressions, outside the bodies of other functions.
* One lemma for each construct but calls and assignments. A part that has no type takes the type
  of the whole with it, so nothing is owed then (`owing`).
-/

namespace HeaderCheck.Verify

open HeaderCheck.Scope (Arena ScopeId)
open HeaderCheck.Scope.Arena (Operation)
open HeaderCheck.Script
open HeaderCheck.Types (FunctionShape ObjectShape Param Table TypeId)

variable {s : State} {owner : ScopeId} {v : Visitor}

/-- The functions that stand in expressions. -/
def directIn (es : List Expr) : List (FunctionKind × Function) :=
  es.flatMap fun e => (Node.expr e).direct

theorem directIn_cons (e : Expr) (es : List Expr) :
    directIn (e :: es) = (Node.expr e).direct ++ directIn es :=
  List.flatMap_cons

/-! ## Array and object literals -/

theorem covers_verifyElements (hv : v.Covers) (ho : s.Under owner) (context : Option TypeId)
    (element : TypeId) (es : List Expr) :
    Covers owner [] s (verifyElements v context element es) fun _ => directIn es := by
  induction es generalizing s with
  | nil => exact covers_pure (List.Subset.refl _)
  | cons e rest ih =>
    have hrest {s : State} (ho : s.Under owner) (fits : Bool) :
        Covers owner (Node.expr e).direct s (do
          let restFits ← verifyElements v context element rest
          return fits && restFits) fun _ => directIn (e :: rest) := by
      refine covers_bind (ih ho) fun _ _ _ => covers_pure ?_
      exact List.Subset.refl _
    refine covers_bind (hv.expecting ho e context) fun actual s₁ hl => ?_
    cases actual with
    | some actual =>
      exact covers_pass passes_checkFits fun fits s₂ hl₂ => hrest ((hl.trans hl₂).under ho) fits
    | none => exact hrest (hl.under ho) false

theorem covers_verifyArray (hv : v.Covers) (ho : s.Under owner) (es : List Expr) :
    Covers owner [] s (verifyArray v es) (owing (directIn es)) := by
  refine covers_get_bind ?_
  simp only
  split
  · split
    · exact (passes_pure _).covers_owing (List.nil_subset _)
    · exact covers_pass (passes_onTable (Table.extends_add _ _)) fun _ _ _ =>
        (passes_made (Table.extends_add _ _)).covers_owing (List.nil_subset _)
  next first rest =>
  refine covers_bind (hv.expecting ho first _) fun firstType s₁ hl => ?_
  cases firstType with
  | none => exact covers_none
  | some firstType =>
    refine covers_bind (covers_verifyElements hv (hl.under ho) _ _ rest) fun fits s₂ _ => ?_
    split
    · exact (passes_made (Table.extends_add _ _)).covers_owing (List.Subset.refl _)
    · exact covers_none

theorem covers_verifyFields (hv : v.Covers) (ho : s.Under owner) (context : Option ObjectShape)
    (properties : List Property) :
    Covers owner [] s (verifyFields v context properties)
      fun _ => directIn (properties.map fun property => property.value) := by
  induction properties generalizing s with
  | nil => exact covers_pure (List.Subset.refl _)
  | cons property rest ih =>
    rw [verifyFields]
    split
    · exact covers_throw _
    split
    · exact covers_throw _
    · refine covers_bind (hv.into ho property.value _) fun type s₁ hl => ?_
      refine covers_bind (ih (hl.under ho)) fun fields _ _ => covers_pure ?_
      exact List.Subset.refl _

theorem covers_verifyObject (hv : v.Covers) (ho : s.Under owner) (properties : List Property) :
    Covers owner [] s (verifyObject v properties)
      (owing (directIn (properties.map fun property => property.value))) := by
  rw [verifyObject]
  split
  · next hnone =>
    rw [List.isEmpty_iff.mp hnone]
    exact covers_pure (List.nil_subset _)
  refine covers_get_bind ?_
  refine covers_bind (covers_verifyFields hv ho _ properties) fun fields s₁ _ => ?_
  cases fields with
  | some fields => exact (passes_made (Table.extends_add _ _)).covers_owing (List.Subset.refl _)
  | none => exact covers_none

/-! ## Names and accesses -/

theorem passes_verifyIdentifier (id : Identifier) : Passes s (verifyIdentifier id) := by
  refine passes_get_bind ?_
  split
  · exact passes_pure _
  split
  · exact passes_pure _
  split
  · exact passes_none passes_report
  split
  · exact passes_pure _
  · exact passes_none passes_report

theorem passes_verifyThis (span : Span) : Passes s (verifyThis span) := by
  refine passes_get_bind ?_
  split
  · exact passes_none passes_report
  split
  · exact passes_pure _
  · exact passes_none passes_report

namespace Access

theorem passes_fieldType (access : Access) (object : TypeId) (field : String) :
    Passes s (access.fieldType object field) := by
  refine passes_get_bind ?_
  split
  · exact passes_pure _
  · split
    · exact passes_pure _
    · exact passes_none passes_report
  · exact passes_none passes_report
  · exact passes_none passes_report

theorem passes_indexed (access : Access) (key index part : TypeId) :
    Passes s (access.indexed key index part) := by
  refine passes_bind passes_checkFits fun fits _ _ => ?_
  split <;> exact passes_pure _

theorem passes_literalPart (access : Access) (object : TypeId) :
    Passes s (access.literalPart object) := by
  have hdynamic {s : State} : Passes s (do access.reportDynamic; pure none : Check (Option TypeId)) :=
    passes_none (passes_get_bind passes_report)
  refine passes_get_bind ?_
  split
  · split
    · exact passes_pure _
    · exact hdynamic
  · split
    · exact access.passes_fieldType object _
    · exact hdynamic
  · exact hdynamic

theorem covers_computedType (hv : v.Covers) (ho : s.Under owner) (access : Access)
    (object : TypeId) :
    Covers owner [] s (access.computedType v object)
      (owing (Node.expr access.property).direct) := by
  refine covers_bind (hv.asRead ho access.property) fun index s₁ _ => ?_
  cases index with
  | none => exact covers_none
  | some index =>
    simp only
    split
    · exact covers_pure (List.Subset.refl _)
    refine covers_get_bind ?_
    split
    · exact (access.passes_indexed _ _ _).covers_owing (List.Subset.refl _)
    · split
      · exact (access.passes_indexed _ _ _).covers_owing (List.Subset.refl _)
      · exact (access.passes_literalPart object).covers_owing (List.Subset.refl _)
    · exact (access.passes_literalPart object).covers_owing (List.Subset.refl _)

/-- An access that names its field has no function in the place of the name. -/
theorem direct_property {access : Access} {field : String} (h : access.name? = some field) :
    (Node.expr access.property).direct = [] := by
  rw [name?] at h
  split at h
  · cases h
  obtain ⟨id, hid, -⟩ := Option.map_eq_some_iff.mp h
  cases hproperty : access.property <;> rw [hproperty] at hid <;> cases hid
  exact direct_identifier id

theorem covers_typeOn (hv : v.Covers) (ho : s.Under owner) (access : Access) (object : TypeId) :
    Covers owner [] s (access.typeOn v object) (owing (Node.expr access.property).direct) := by
  rw [typeOn]
  split
  · exact access.covers_computedType hv ho object
  split
  · next hname =>
    rw [direct_property hname]
    exact (access.passes_fieldType object _).covers_owing (List.Subset.refl _)
  · exact covers_none

theorem covers_verify (hv : v.Covers) (ho : s.Under owner) (access : Access) :
    Covers owner [] s (access.verify v)
      (owing ((Node.expr access.object).direct ++ (Node.expr access.property).direct)) := by
  refine covers_bind (hv.asRead ho access.object) fun object s₁ hl => ?_
  cases object with
  | none => exact covers_none
  | some object => exact (access.covers_typeOn hv (hl.under ho) object).frame_owing

end Access

/-! ## Operators -/

theorem passes_applyOperator (operator : String) (span : Span) (operands : List TypeId) :
    Passes s (applyOperator operator span operands) := by
  refine passes_get_bind ?_
  split
  · exact passes_pure _
  split
  · split
    · exact passes_pure _
    · exact passes_none (passes_record _)
  · split
    · exact passes_pure _
    · exact passes_none passes_report

theorem covers_verifyBinary (hv : v.Covers) (ho : s.Under owner) (operator : String)
    (left right : Expr) (span : Span) :
    Covers owner [] s (verifyBinary v operator left right span)
      (owing ((Node.expr left).direct ++ (Node.expr right).direct)) := by
  refine covers_bind (hv.value ho left) fun leftType s₁ hl => ?_
  refine covers_bind (hv.value (hl.under ho) right) fun rightType s₂ _ => ?_
  split
  · exact (passes_applyOperator _ _ _).covers_owing (List.Subset.refl _)
  · exact covers_none

theorem covers_verifyUnary (hv : v.Covers) (ho : s.Under owner) (operator : String)
    (argument : Expr) (span : Span) :
    Covers owner [] s (verifyUnary v operator argument span)
      (owing (Node.expr argument).direct) := by
  refine covers_bind (hv.value ho argument) fun type s₁ _ => ?_
  split
  · exact (passes_applyOperator _ _ _).covers_owing (List.Subset.refl _)
  · exact covers_none

theorem covers_verifyCompound (hv : v.Covers) (ho : s.Under owner) (operator : String)
    (left right : Expr) (span : Span) :
    Covers owner [] s (verifyCompound v operator left right span)
      (owing ((Node.expr left).direct ++ (Node.expr right).direct)) := by
  refine covers_bind (hv.asRead ho left) fun leftType s₁ hl₁ => ?_
  refine covers_bind (hv.value (hl₁.under ho) right) fun rightType s₂ hl₂ => ?_
  split
  · refine covers_pass (passes_applyOperator _ _ _) fun result s₃ hl₃ => ?_
    cases result with
    | none => exact covers_none
    | some result =>
      have ho₃ := ((hl₁.trans hl₂).trans hl₃).under ho
      refine covers_bind (hv.asTarget ho₃ left) fun target s₄ _ => ?_
      cases target with
      | none => exact covers_none
      | some target =>
        have hdone : (Node.expr left).direct ++ (Node.expr right).direct ⊆
            [] ++ (Node.expr left).direct ++ (Node.expr right).direct ++ (Node.expr left).direct :=
          List.subset_append_left _ _
        simp only
        split
        · exact covers_pass passes_checkFits fun _ _ _ => covers_pure hdone
        · exact covers_pure hdone
  · exact covers_none

end HeaderCheck.Verify
