import HeaderCheck.Proofs.Verify.Layout
import HeaderCheck.Proofs.Project.Assigned

/-!
# HeaderCheck.Proofs.Project.Layout

A constructor with a method on its prototype.

* `constructor_fields_checked_point`: nothing is reported where the method is declared last.
* `prototype_field_shifts_others`: declared first, it shifts the position of the field after it, and this
  one is reported although it has been assigned.
-/

namespace HeaderCheck.Project

open HeaderCheck.Script
open HeaderCheck.Types (TypeId)
open HeaderCheck.Verify (Check ExemptLast State Visitor enterBody ordinary verifyFunction)

/-- The constructor `function Point(x) { this.x = x; }`. -/
def pointFunction : Function :=
  Build.function (some "Point") ["x"]
    [Build.expression (Build.assign (Build.member Build.this "x") (Build.ident "x"))]

/-- The statement `Point.prototype.norm = function() { return this.x; }`. -/
def assignNorm : Stmt :=
  Build.expression (Build.assign (Build.member (Build.member (Build.ident "Point") "prototype") "norm")
    (Build.functionExpr none [] [Build.returns (some (Build.member Build.this "x"))]))

/-- The declared fields of a point: where it is and how far that is. -/
def xField : String × Signature.TypeExpr :=
  ("x", Signature.Build.literal "Number")

def normField : String × Signature.TypeExpr :=
  ("norm", Signature.Build.function [] (Signature.Build.literal "Number"))

/-- A host with one source, for which a constructor of points with these fields is declared. -/
def Host.pointing (body : List Stmt) (fields : List (String × Signature.TypeExpr)) : Host :=
  (Host.single (Build.program body)).addHeader "/app/main.hjs"
    (Signature.Build.header
      [Signature.Build.assignment "Point"
        (Signature.Build.method (Signature.Build.object fields) [Signature.Build.literal "Number"]
          (Signature.Build.value "undefined"))])

/-- The state after the method has been assigned, with the field of the method declared last. -/
def normed : State :=
  stateOf (inspect (Host.pointing [assignNorm] [xField, normField]) {} "/app/main.js")

/-- The type of the constructor. -/
def pointType : TypeId :=
  (normed.declaredType "Point").getD .any

/-- The visitor of the source. -/
def pointer : Visitor :=
  requiring (Host.pointing [assignNorm] [xField, normField]) {} 1 8

/-- The constructor is verified. -/
def constructPoint : Check Unit :=
  verifyFunction pointer pointFunction pointType "Point"

/-- The object that the constructor makes. -/
def pointId : TypeId :=
  ((normed.table.functionShape? pointType).bind fun shape => shape.this).getD .any

/-- What the constructor is declared to be, and what it has assigned in the end. -/
theorem checked_normed :
    (constructPoint.run normed).1.toOption = some () ∧
      (normed.table.functionShape? pointType).any (fun shape =>
        shape.params.length = 1 ∧ shape.this = some pointId) ∧
      let after := (constructPoint.run normed).2
      (after.table.objectShape? pointId).any (fun object =>
          object.fields.map (fun field => field.name) = ["x", "norm"]) ∧
        (after.arena.functionInfo? ⟨normed.arena.size⟩).any (fun info => info.knownFields = ["x"]) ∧
        after.exempts "Point" "x" = false ∧ after.exempts "Point" "norm" = true := by
  rw [constructPoint, pointId, pointType, normed, inspect, Session.start_eq]
  decide +kernel

/-- The method comes last, and nothing is reported of the fields. -/
theorem constructor_fields_checked_point :
    ∃ s₀ s₁ s' returned, constructPoint.run normed = (.ok (), s') ∧
      (enterBody pointer pointFunction ⟨normed.arena.size⟩).run s₀ = (.ok (), s₁) ∧
      s'.diagnostics = s₁.diagnostics ++ returned ∧
      ∀ d ∈ returned, d.kind ≠ .missingFieldInConstructor := by
  obtain ⟨hvalue, hdeclared, hmade, hknown, hx, hnorm⟩ := checked_normed
  have hrun := run_eq_of_toOption hvalue
  obtain ⟨shape, hshape, hdeclared⟩ := (Option.any_eq_true _ _).mp hdeclared
  obtain ⟨object, hobject, hfields⟩ := (Option.any_eq_true _ _).mp hmade
  obtain ⟨harity, hthis⟩ := of_decide_eq_true hdeclared
  obtain ⟨s₀, s₁, start, info, found, returned, -, -, hbody, hinfo, harena, -, -, hdiagnostics,
      hother, hreported⟩ :=
    Verify.constructor_fields_checked (f := pointFunction) hshape (by decide +kernel) harity.symm hthis hobject
      hrun
  have hnoted : info.knownFields = ["x"] := by
    rw [harena, (hinfo.under.nearest_function hinfo).2] at hknown
    exact of_decide_eq_true hknown
  rw [of_decide_eq_true hfields, hnoted] at hreported
  have hlast : ExemptLast ((constructPoint.run normed).2.exempts "Point") ["x", "norm"] := by
    simp [ExemptLast, hx]
  have hright : ordinary ((constructPoint.run normed).2.exempts "Point") ["x", "norm"] <+:
      ordinary ((constructPoint.run normed).2.exempts "Point") ["x"] := by
    simp [ordinary, hx, hnorm]
  have hnone : found = [] := (hreported.settled hlast (by simp [ExemptLast])).1 hright
  rw [hnone, List.append_nil] at hdiagnostics
  exact ⟨s₀, s₁, _, returned, hrun, hbody, hdiagnostics, hother⟩

/-! ## A method that is declared first -/

/-- The source that declares the constructor and then its method. -/
def Host.misplacing : Host :=
  Host.pointing [.function pointFunction, assignNorm] [normField, xField]

def misplaced : State :=
  stateOf (inspect Host.misplacing {} "/app/main.js")

/-- The constructor assigns the only field that is not exempt, and this field is reported. -/
theorem checked_misplacing :
    (inspect Host.misplacing {} "/app/main.js").isOk ∧
      (misplaced.arena.functionInfo? ⟨2⟩).any (fun info =>
        info.name = "Point" ∧ info.knownFields = ["x"] ∧ (info.thisType.bind misplaced.table.objectShape?).any
          fun object => object.fields.map (fun field => field.name) = ["norm", "x"]) ∧
      misplaced.exempts "Point" "x" = false ∧ misplaced.exempts "Point" "norm" = true ∧
      misplaced.diagnostics.map (fun d => (d.kind, d.field? "fieldName")) =
        [(.missingFieldInConstructor, some "x")] := by
  rw [misplaced, inspect, Session.start_eq]
  decide +kernel

/-- An exempt field that is declared first shifts the position of the one after it. This one is reported,
although the fields that are not exempt are assigned just as they are declared. -/
theorem prototype_field_shifts_others :
    ∃ s id info object, inspect Host.misplacing {} "/app/main.js" = .ok s ∧
      s.arena.functionInfo? id = some info ∧ info.thisType.bind s.table.objectShape? = some object ∧
      (object.fields.map fun field => field.name).Nodup ∧
      ordinary (s.exempts info.name) (object.fields.map fun field => field.name) =
        ordinary (s.exempts info.name) info.knownFields ∧
      s.diagnostics.map (fun d => (d.kind, d.field? "fieldName")) =
        [(.missingFieldInConstructor, some "x")] := by
  obtain ⟨hok, hfunction, hx, hnorm, hdiagnostics⟩ := checked_misplacing
  obtain ⟨info, hinfo, hfunction⟩ := (Option.any_eq_true _ _).mp hfunction
  obtain ⟨hname, hknown, hmade⟩ := of_decide_eq_true hfunction
  obtain ⟨object, hobject, hfields⟩ := (Option.any_eq_true _ _).mp hmade
  refine ⟨misplaced, ⟨2⟩, info, object, eq_ok_stateOf hok, hinfo, hobject, ?_, ?_, hdiagnostics⟩
  · rw [of_decide_eq_true hfields]
    decide
  · rw [of_decide_eq_true hfields, hname, hknown]
    simp [ordinary, hx, hnorm]

end HeaderCheck.Project
