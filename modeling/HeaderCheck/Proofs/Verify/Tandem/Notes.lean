import HeaderCheck.Proofs.Verify.Tandem

/-!
# HeaderCheck.Proofs.Verify.Tandem.Notes

Parts of the verification that only take notes, side by side: names, accesses, operators, the
numbers and the fit of arguments, and what a body must have done. Their results depend on types and
scopes only, so they are the same in both runs; places are no more than reported.
-/

namespace HeaderCheck.Verify

open HeaderCheck.Report (Kind)
open HeaderCheck.Scope (FunctionInfo)
open HeaderCheck.Script
open HeaderCheck.Types (FunctionShape Occurrence Param TypeId)

variable {C : Comparison} {p q : Both C} {π : Pairing C.exact}

/-! ## Names -/

theorem matched_reportUntypedFunction {span span' : Span} (hplace : SamePlace C.exact span span')
    (name : String) :
    Matched p (reportUntypedFunction span name) (reportUntypedFunction span' name) :=
  matched_report_same hplace

theorem matched_verifyIdentifier {id id' : Identifier} (hname : id'.name = id.name)
    (hplace : SamePlace C.exact id.span id'.span) :
    Matched p (verifyIdentifier id) (verifyIdentifier id') := by
  refine tandem_get_bind fun ht => ?_
  simp only [hname, ht.lookup_eq, ht.isUntyped_eq, ht.unknown]
  cases p.left.lookup id.name with
  | some type => exact tandem_pure trivial
  | none =>
    simp only
    split
    · exact tandem_pure trivial
    split
    · exact (matched_reportUntypedFunction hplace _).noResult
    split
    · exact tandem_pure trivial
    · exact (matched_report_same hplace).noResult

theorem matched_verifyThis {span span' : Span} (hplace : SamePlace C.exact span span') :
    Matched p (verifyThis span) (verifyThis span') := by
  refine tandem_get_bind fun ht => ?_
  have hinfo := ht.arena.functionInfo?_rel p.left.focus.scope
  simp only [ht.scope, ht.arena.thisType?_eq]
  generalize p.left.arena.functionInfo? p.left.focus.scope = info at hinfo
  generalize p.right.arena.functionInfo? p.left.focus.scope = info' at hinfo
  cases hinfo with
  | none => exact (matched_report_same hplace).noResult
  | some hinfo =>
    simp only
    cases p.left.arena.thisType? p.left.focus.scope with
    | some type => exact tandem_pure trivial
    | none =>
      refine (matched_report hplace fun _ hexact => ?_).noResult
      rw [hinfo.name hexact]

/-! ## Bodies -/

section Bodies

variable {f f' : Function} {same : Prop} {info info' : FunctionInfo}

/-- The place of the last return statement, or of the function. -/
theorem returnPlace (hf : Function.Like π f f') (hinfo : info.Twins C.exact same info') :
    SamePlace C.exact (info.returnSpan.getD f.span) (info'.returnSpan.getD f'.span) := by
  intro hexact
  rw [hinfo.returnSpan hexact, hf.place hexact]

theorem matched_checkFieldOrder (hf : Function.Like π f f') (hinfo : info.Twins C.exact same info') :
    Matched p (checkFieldOrder f info) (checkFieldOrder f' info') := by
  have hplace := hf.place
  refine tandem_get_bind fun ht => ?_
  simp only [hf.name_eq, hinfo.thisType, hinfo.knownFields, ht.table_eq, ht.scope,
    ht.arena.prototypeFields?_eq]
  cases info.thisType.bind p.left.table.objectShape? with
  | none => exact tandem_pure trivial
  | some shape =>
    simp only
    generalize misplacedField? _ _ _ = misplaced
    cases misplaced with
    | none => exact tandem_pure trivial
    | some found => exact matched_report_same hplace

theorem matched_checkConstructorReturn (hf : Function.Like π f f')
    (hinfo : info.Twins C.exact same info') :
    Matched p (checkConstructorReturn f info) (checkConstructorReturn f' info') := by
  have hplace := returnPlace hf hinfo
  simp only [checkConstructorReturn, hf.name_eq, hinfo.knownReturnType]
  cases info.knownReturnType with
  | none => exact tandem_pure trivial
  | some returned =>
    simp only
    split
    · exact matched_report_same hplace
    · refine tandem_get_bind fun ht => ?_
      rw [ht.format_eq]
      exact matched_report_same hplace

theorem matched_checkReturned (hf : Function.Like π f f') (hinfo : info.Twins C.exact same info') :
    Matched p (checkReturned f info) (checkReturned f' info') := by
  have hreturn := returnPlace hf hinfo
  have hplace := hf.place
  simp only [checkReturned, hf.name_eq, hinfo.returnType, hinfo.knownReturnType]
  split
  · exact tandem_pure trivial
  cases info.knownReturnType with
  | some actual => exact (matched_checkFits hreturn _ _).bind fun _ _ _ => tandem_pure trivial
  | none =>
    simp only
    split
    · refine tandem_get_bind fun ht => ?_
      rw [ht.format_eq]
      exact matched_report_same hplace
    · exact tandem_pure trivial

theorem matched_checkBody (hf : Function.Like π f f') (hinfo : info.Twins C.exact same info') :
    Matched p (checkBody f info) (checkBody f' info') := by
  simp only [checkBody, hinfo.isConstructor]
  split
  · exact (matched_checkFieldOrder hf hinfo).bind fun _ _ _ =>
      matched_checkConstructorReturn hf hinfo
  · exact matched_checkReturned hf hinfo

end Bodies

/-! ## Accesses -/

namespace Access

variable {access access' : Access}

theorem Like.objectName_eq (h : access.Like π access') (ht : p.Twins) (hexact : C.exact) :
    access'.objectName p.right = access.objectName p.left := by
  obtain ⟨object, property, computed, span⟩ := access
  obtain ⟨object', property', computed', span'⟩ := access'
  have hspan := h.object.span hexact
  simp only [objectName, ht.source hexact]
  cases h.object with
  | identifier hname _ => exact hname
  | this _ => rfl
  | _ => exact congrArg p.left.source.snippet hspan

theorem Like.matched_reportMissingField (h : access.Like π access') (field : String) (ht : p.Twins) :
    Matched p (reportMissingField access.span field (access.objectName p.left))
      (reportMissingField access'.span field (access'.objectName p.right)) :=
  matched_report h.place fun _ hexact => by rw [h.objectName_eq ht hexact]

theorem Like.matched_fieldType (h : access.Like π access') (object : TypeId) (field : String) :
    Matched p (access.fieldType object field) (access'.fieldType object field) := by
  refine tandem_get_bind fun ht => ?_
  simp only [ht.table_eq, ht.globals_eq, ht.isTarget, ht.format_eq]
  cases findField p.left.table p.left.session.globals field object with
  | found type => exact tandem_pure trivial
  | growing =>
    simp only
    split
    · exact tandem_pure trivial
    · exact (h.matched_reportMissingField field ht).noResult
  | missing => exact (h.matched_reportMissingField field ht).noResult
  | onUnion => exact (matched_report_same h.place).noResult

theorem Like.matched_reportDynamic (h : access.Like π access') :
    Matched p access.reportDynamic access'.reportDynamic := by
  refine tandem_get_bind fun ht => matched_report h.place fun _ hexact => ?_
  rw [h.objectName_eq ht hexact, ht.source hexact, h.property.span hexact]

theorem Like.matched_indexed (h : access.Like π access') (key index part : TypeId) :
    Matched p (access.indexed key index part) (access'.indexed key index part) := by
  refine (matched_checkFits h.property.span key index).bind fun fits _ _ => ?_
  split <;> exact tandem_pure trivial

theorem Like.matched_literalPart (h : access.Like π access') (object : TypeId) :
    Matched p (access.literalPart object) (access'.literalPart object) := by
  have hdynamic {q : Both C} : Matched q (do access.reportDynamic; pure none : Check (Option TypeId))
      (do access'.reportDynamic; pure none) :=
    h.matched_reportDynamic.noResult
  have hfield {q : Both C} := fun key => h.matched_fieldType (p := q) object key
  obtain ⟨_, property, _, _⟩ := access
  obtain ⟨_, property', _, _⟩ := access'
  refine tandem_get_bind fun ht => ?_
  simp only [ht.table_eq]
  cases p.left.table.lookup object with
  | none => exact hdynamic
  | some type =>
    cases h.property with
    | literal hvalue hregex _ =>
      cases type with
      | tuple elements =>
        simp only [Literal.index?, hvalue]
        split
        · exact tandem_pure trivial
        · exact hdynamic
      | object shape =>
        simp only [Literal.kind_eq hvalue hregex, Literal.string?, hvalue]
        split
        · exact hfield _
        · exact hdynamic
      | _ => exact hdynamic
    | _ => cases type <;> exact hdynamic

end Access

/-! ## Operators -/

/-- One signature gives the same result, or the same errors at other places. -/
theorem Both.Twins.tryOverload_rel (ht : p.Twins) {span span' : Span}
    (hplace : SamePlace C.exact span span') (operands : List TypeId) (overload : TypeId) :
    (∃ result, tryOverload p.left span operands overload = .ok result ∧
        tryOverload p.right span' operands overload = .ok result) ∨
      ∃ errors errors', tryOverload p.left span operands overload = .error errors ∧
        tryOverload p.right span' operands overload = .error errors' ∧
        List.Forall₂ (Report.Diagnostic.Twins C.exact) errors errors' := by
  have hmismatches (pairs : List (Param × TypeId)) :
      List.Forall₂ (Report.Diagnostic.Twins C.exact)
        (pairs.filterMap fun x => p.left.mismatch? span x.1.type x.2)
        (pairs.filterMap fun x => p.right.mismatch? span' x.1.type x.2) := by
    refine List.rel_filterMap (R := Eq) ?_ (List.forall₂_same.mpr fun _ _ => rfl)
    rintro pair _ rfl
    exact ht.mismatch?_rel hplace pair.1.type pair.2
  simp only [tryOverload, ht.table_eq, ht.format_eq]
  cases p.left.table.functionShape? overload with
  | none => exact .inl ⟨.any, rfl, rfl⟩
  | some shape =>
    simp only
    split
    · exact .inr ⟨_, _, rfl, rfl, .cons (ht.diagnostic _ hplace fun _ => rfl) .nil⟩
    · have hrel := hmismatches (shape.params.zip operands)
      generalize (shape.params.zip operands).filterMap
        (fun x => p.left.mismatch? span x.1.type x.2) = errors at hrel
      generalize (shape.params.zip operands).filterMap
        (fun x => p.right.mismatch? span' x.1.type x.2) = errors' at hrel
      cases hrel with
      | nil => exact .inl ⟨shape.result, rfl, rfl⟩
      | cons hd hrest => exact .inr ⟨_, _, rfl, rfl, .cons hd hrest⟩

theorem Both.Twins.firstOverload?_eq (ht : p.Twins) {span span' : Span}
    (hplace : SamePlace C.exact span span') (operands overloads : List TypeId) :
    firstOverload? p.right span' operands overloads = firstOverload? p.left span operands overloads := by
  induction overloads with
  | nil => rfl
  | cons overload rest ih =>
    simp only [firstOverload?]
    rcases ht.tryOverload_rel hplace operands overload with
      ⟨result, hrun, hrun'⟩ | ⟨errors, errors', hrun, hrun', _⟩
    · rw [hrun, hrun']
    · rw [hrun, hrun']
      exact ih

theorem matched_applyOperator (operator : String) {span span' : Span}
    (hplace : SamePlace C.exact span span') (operands : List TypeId) :
    Matched p (applyOperator operator span operands) (applyOperator operator span' operands) := by
  refine tandem_get_bind fun ht => ?_
  simp only [ht.globals_eq, ht.table_eq, ht.format_eq]
  cases p.left.session.globals.operators.get? operator with
  | none => exact tandem_pure trivial
  | some signature =>
    simp only
    split
    · next single _ =>
      rcases ht.tryOverload_rel hplace operands single with
        ⟨result, hrun, hrun'⟩ | ⟨errors, errors', hrun, hrun', herrors⟩
      · rw [hrun, hrun']
        exact tandem_pure trivial
      · rw [hrun, hrun']
        exact (matched_record herrors).noResult
    · rw [ht.firstOverload?_eq hplace]
      split
      · exact tandem_pure trivial
      · exact (matched_report_same hplace).noResult

/-! ## Calls -/

/-- The callee as it is named in both runs. -/
theorem Call.Like.name_eq {call call' : Call} (h : call.Like π call') (ht : p.Twins)
    (hexact : C.exact) : call'.name p.right = call.name p.left := by
  rw [Call.name, Call.name, ht.source hexact, h.callee.span hexact]

theorem matched_reportArity {kind : Kind} {span span' : Span}
    (hplace : SamePlace C.exact span span') {name name' : String} (hname : C.exact → name' = name)
    (expected actual : Nat) :
    Matched p (reportArity kind span name expected actual)
      (reportArity kind span' name' expected actual) :=
  matched_report hplace fun _ hexact => by rw [hname hexact]

theorem matched_checkArgument {span span' : Span} (hplace : SamePlace C.exact span span')
    (param : Param) (actual : TypeId) :
    Matched p (Call.checkArgument span param actual) (Call.checkArgument span' param actual) := by
  have hfits (excused : Bool) {q : Both C} : Matched q
      (if !excused then do let _ ← checkFits span param.type actual else pure ())
      (if !excused then do let _ ← checkFits span' param.type actual else pure ()) := by
    split
    · exact (matched_checkFits hplace _ _).bind fun _ _ _ => tandem_pure trivial
    · exact tandem_pure trivial
  refine tandem_get_bind fun ht => ?_
  simp only [ht.table_eq]
  split
  · refine (matched_onTable _).bind fun widened q _ => tandem_get_bind fun ht => ?_
    simp only [ht.table_eq]
    exact hfits _
  · exact hfits false

namespace Call

variable {call call' : Call}

theorem Like.matched_checkArity (h : call.Like π call') (shape : FunctionShape) {name name' : String}
    (hname : C.exact → name' = name) :
    Matched p (call.checkArity shape name) (call'.checkArity shape name') := by
  simp only [checkArity, h.arguments.length_eq]
  split
  · exact (matched_reportArity h.place hname _ _).bind fun _ _ _ => tandem_pure trivial
  split
  · exact (matched_reportArity h.place hname _ _).bind fun _ _ _ => tandem_pure trivial
  · exact tandem_pure trivial

theorem Like.matched_reportNonFunction (h : call.Like π call') (actual : TypeId) :
    Matched p (call.reportNonFunction actual) (call'.reportNonFunction actual) := by
  refine tandem_get_bind fun ht => matched_report h.callee.span fun _ hexact => ?_
  rw [h.name_eq ht hexact, ht.format_eq]

/-- Where a solution comes from in two runs. -/
inductive Origin.Twins (exact : Prop) : Origin → Origin → Prop
  | passed (type : TypeId) {span span' : Span} (hplace : SamePlace exact span span') :
    Origin.Twins exact (.passed type span) (.passed type span')
  | absent : Origin.Twins exact .absent .absent
  | elsewhere : Origin.Twins exact .elsewhere .elsewhere

theorem Like.origin_rel (h : call.Like π call') (passed : Passed) (step : Types.Step) :
    Origin.Twins C.exact (call.origin passed step) (call'.origin passed step) := by
  unfold origin
  cases step with
  | arg i =>
    have hrel := h.arguments.getElem?_rel i
    simp only
    generalize call.arguments[i]? = x at hrel
    generalize call'.arguments[i]? = y at hrel
    cases hrel with
    | none => exact .absent
    | some hlike =>
      rcases passed.arguments[i]? with _ | _ | type
      · exact .absent
      · exact .absent
      · exact .passed type hlike.span
  | this =>
    simp only
    cases passed.receiver with
    | some type => exact .passed type h.callee.span
    | none => exact .absent
  | _ => exact .elsewhere

theorem matched_solveOne (solved : Dict TypeId) (name : String) (found : TypeId) {span span' : Span}
    (hplace : SamePlace C.exact span span') :
    Matched p (solveOne solved name found span) (solveOne solved name found span') := by
  refine tandem_get_bind fun ht => ?_
  simp only [ht.table_eq, ht.format_eq]
  split
  · exact tandem_pure trivial
  split
  · exact tandem_pure trivial
  · exact (matched_report_same hplace).noResult

theorem Like.matched_solve (h : call.Like π call') (passed : Passed) (occurrences : List Occurrence)
    (solved : Dict TypeId) :
    Matched p (call.solve passed occurrences solved) (call'.solve passed occurrences solved) := by
  induction occurrences generalizing p solved with
  | nil => exact tandem_pure trivial
  | cons occurrence rest ih =>
    refine tandem_get_bind fun ht => ?_
    rw [ht.table_eq]
    cases occurrence.location with
    | nil => exact tandem_throw _
    | cons first path =>
      have hrel := h.origin_rel passed first
      simp only
      generalize call.origin passed first = x at hrel
      generalize call'.origin passed first = y at hrel
      cases hrel with
      | absent => exact ih solved
      | elsewhere =>
        simp only
        split
        · exact ih solved
        · refine (matched_report h.place fun _ hexact => ?_).noResult
          rw [h.name_eq ht hexact]
      | passed type hplace =>
        simp only
        cases p.left.table.typeAt? type path with
        | none => exact ih solved
        | some found =>
          exact (matched_solveOne solved _ found hplace).bind_some rfl rfl fun solved _ _ => ih solved

theorem Like.matched_solvedShape (h : call.Like π call') (callee : TypeId) (shape : FunctionShape)
    (passed : Passed) :
    Matched p (call.solvedShape callee shape passed) (call'.solvedShape callee shape passed) := by
  have hmade : Matched p (call.instantiate callee shape passed)
      (call'.instantiate callee shape passed) :=
    (h.matched_solve passed shape.generics {}).bind_some rfl rfl fun _ _ _ => matched_made _
  rw [solvedShape, solvedShape]
  split
  · exact tandem_pure trivial
  · refine hmade.bind_some rfl rfl fun resolved q _ => tandem_get_bind fun ht => ?_
    rw [ht.table_eq]
    exact tandem_pure trivial

end Call

/-! ## Assignments -/

theorem Both.Twins.instanceOf?_eq (ht : p.Twins) (name : String) :
    p.right.instanceOf? name = p.left.instanceOf? name := by
  simp only [State.instanceOf?, ht.scope, ht.typeIn_eq, ht.table_eq]

theorem matched_targetType {left left' right right' : Expr} (hleft : Expr.Like π left left')
    (hright : Expr.Like π right right') (type : TypeId) :
    Matched p (targetType left type right) (targetType left' type right') := by
  have hinstance (ht : p.Twins) : p.right.instanceOf? = p.left.instanceOf? :=
    funext ht.instanceOf?_eq
  refine tandem_get_bind fun ht => ?_
  rw [isFunctionExpr_eq hright, methodOwner?_eq hleft, ht.table_eq, hinstance ht]
  split
  · dsimp only
    split
    · exact matched_onTable _
    · exact tandem_pure trivial
  · exact tandem_pure trivial

end HeaderCheck.Verify
