import HeaderCheck.Proofs.Verify.Parallel.Calls

/-!
# HeaderCheck.Proofs.Verify.Parallel.Statements

Operators and assignments in two runs.
-/

namespace HeaderCheck.Verify

open HeaderCheck.Project (Pact)
open HeaderCheck.Script (Expr)
open HeaderCheck.Types (Table TypeId)

variable {P : Pact} {p q r : State × State}

/-! ## Operators -/

section Operators

variable {s s' : State} (h : s.Parallel P s')

include h

theorem tryOverload_same (span : Span) {operands operands' : List TypeId}
    (hoperands : List.Forall₂ (s.table.Same s'.table) operands operands') {i i' : TypeId}
    (hi : s.table.Same s'.table i i') :
    SameEnd (s.table.Same s'.table) (tryOverload s span operands i) (tryOverload s' span operands' i') := by
  have hshape := Table.functionShape?_same h.left h.right hi
  rw [tryOverload, tryOverload, h.diagnostic_eq, h.format_eq hi, ← hoperands.length_eq]
  generalize s.table.functionShape? i = shape at hshape
  generalize s'.table.functionShape? i' = shape' at hshape
  cases hshape with
  | none => exact .ok (Table.same_fixed h.left h.right (by decide))
  | @some shape shape' hs =>
    have hfits : (shape'.params.zip operands').filterMap
          (fun x => s'.mismatch? span x.1.type x.2) =
        (shape.params.zip operands).filterMap fun x => s.mismatch? span x.1.type x.2 :=
      Types.filterMap_eq_of_forall₂ (Types.forall₂_zip hs.params hoperands) fun _ _ hx =>
        h.mismatch?_eq span hx.1.type hx.2
    dsimp only
    rw [hfits, ← hs.params.length_eq]
    split
    · exact .error _
    split
    · exact .ok hs.result
    · exact .error _

theorem firstOverload?_same (span : Span) {operands operands' : List TypeId}
    (hoperands : List.Forall₂ (s.table.Same s'.table) operands operands') {overloads overloads' : List TypeId}
    (ho : List.Forall₂ (s.table.Same s'.table) overloads overloads') :
    Option.Rel (s.table.Same s'.table) (firstOverload? s span operands overloads)
      (firstOverload? s' span operands' overloads') := by
  induction ho with
  | nil => exact .none
  | cons hfirst _ ih =>
    have htried := tryOverload_same h span hoperands hfirst
    rw [firstOverload?, firstOverload?]
    generalize tryOverload s span operands _ = result at htried
    generalize tryOverload s' span operands' _ = result' at htried
    cases htried with
    | ok hi => exact .some hi
    | error _ => exact ih

end Operators

/-- Of several signatures the first that fits is used, and one mismatch is reported if none does. -/
theorem lockstep_firstOverload (span : Span) {operands operands' overloads overloads' : List TypeId}
    (hp : p.1.Parallel P p.2) (hoperands : List.Forall₂ ((states P).Same p) operands operands')
    (hoverloads : List.Forall₂ ((states P).Same p) overloads overloads')
    (fields : List (String × String)) :
    Lockstep (states P) p
      (match firstOverload? p.1 span operands overloads with
        | some result => return some result
        | none => do
          report .intersectionOperatorCallMismatch span fields
          return none)
      (match firstOverload? p.2 span operands' overloads' with
        | some result => return some result
        | none => do
          report .intersectionOperatorCallMismatch span fields
          return none) (Handles? P) := by
  have hfirst := firstOverload?_same hp span hoperands hoverloads
  generalize firstOverload? p.1 span operands overloads = result at hfirst
  generalize firstOverload? p.2 span operands' overloads' = result' at hfirst
  cases hfirst with
  | some hi => exact .pure fun _ => .some hi
  | none => exact lockstep_report_none _ _ fun _ => rfl

theorem lockstep_applyOperator (operator : String) (span : Span) {operands operands' : List TypeId}
    (hoperands : List.Forall₂ ((states P).Same p) operands operands') :
    Lockstep (states P) p (applyOperator operator span operands) (applyOperator operator span operands')
      (Handles? P) := by
  refine .get_bind fun hp => ?_
  have hsignature := (P.globals hp.session).operators.get? operator
  have hformat : operands'.map p.2.format = operands.map p.1.format :=
    (Types.map_eq_of_forall₂ hoperands fun _ _ hi => (hp.format_eq hi).symm).symm
  rw [hformat]
  generalize p.1.session.globals.operators.get? operator = signature at hsignature
  generalize p.2.session.globals.operators.get? operator = signature' at hsignature
  cases hsignature with
  | none => exact .pure fun hp => .some ((states P).same_fixed hp (by decide))
  | @some i i' hi =>
    have hoverloads : List.Forall₂ ((states P).Same p) ((p.1.table.intersectionMembers? i).getD [i])
        ((p.2.table.intersectionMembers? i').getD [i']) :=
      Types.rel_getD (Table.intersectionMembers?_same hp.left hp.right i i' hi) (.cons hi .nil)
    dsimp only
    generalize (p.1.table.intersectionMembers? i).getD [i] = overloads at hoverloads
    generalize (p.2.table.intersectionMembers? i').getD [i'] = overloads' at hoverloads
    have hseveral := lockstep_firstOverload span hp hoperands hoverloads
      [("operator", operator), ("actual", "(" ++ ", ".intercalate (operands.map p.1.format) ++ ")")]
    cases hoverloads with
    | nil => exact hseveral
    | cons hfirst hrest =>
      cases hrest with
      | cons _ _ => exact hseveral
      | nil =>
        have htried := tryOverload_same hp span hoperands hfirst
        dsimp only
        generalize tryOverload p.1 span operands _ = result at htried
        generalize tryOverload p.2 span operands' _ = result' at htried
        cases htried with
        | ok hi => exact .pure fun _ => .some hi
        | error _ => exact .bind (lockstep_record rfl) fun _ _ _ _ _ => .pure fun _ => .none

section Nodes

variable {v v' : Visitor} (hv : VisitsAlike P v v')

include hv

theorem lockstep_verifyBinary (operator : String) (left right : Expr) (span : Span) :
    Lockstep (states P) p (verifyBinary v operator left right span)
      (verifyBinary v' operator left right span) (Handles? P) := by
  refine .bind (hv.value left) fun _ _ q _ hleft => .bind (hv.value right) fun _ _ r hr hright => ?_
  cases hleft with
  | none => exact .pure fun _ => .none
  | some hleft =>
    cases hright with
    | none => exact .pure fun _ => .none
    | some hright => exact lockstep_applyOperator _ _ (.cons (hr.same hleft) (.cons hright .nil))

theorem lockstep_verifyUnary (operator : String) (argument : Expr) (span : Span) :
    Lockstep (states P) p (verifyUnary v operator argument span)
      (verifyUnary v' operator argument span) (Handles? P) :=
  lockstep_bind? (hv.value argument) rfl rfl fun _ _ _ _ hi =>
    lockstep_applyOperator _ _ (.cons hi .nil)

theorem lockstep_verifyCompound (operator : String) (left right : Expr) (span : Span) :
    Lockstep (states P) p (verifyCompound v operator left right span)
      (verifyCompound v' operator left right span) (Handles? P) := by
  refine .bind (hv.asRead left) fun _ _ q _ hleft => .bind (hv.value right) fun _ _ r hr hright => ?_
  cases hleft with
  | none => exact .pure fun _ => .none
  | some hleft =>
    cases hright with
    | none => exact .pure fun _ => .none
    | some hright =>
      refine lockstep_bind? (lockstep_applyOperator _ _ (.cons (hr.same hleft) (.cons hright .nil)))
        rfl rfl fun result result' u _ hresult => ?_
      refine lockstep_bind? (hv.asTarget left) rfl rfl fun target target' w hw htarget => ?_
      refine .of_meets fun hw' => ?_
      simp only [Table.growsFreely_same hw'.left hw'.right htarget]
      split
      · exact .bind (lockstep_checkFits _ htarget (hw.same hresult)) fun _ _ _ hx _ =>
          .pure fun _ => .some (hx.same (hw.same hresult))
      · exact .pure fun _ => .some (hw.same hresult)

/-! ## Assignments -/

omit hv

theorem lockstep_widenObject (access : Access) {i i' : TypeId} (hi : Handles P i i' p) :
    Lockstep (states P) p (widenObject access i) (widenObject access i') fun _ _ _ => True := by
  refine .get_bind fun hp => ?_
  split
  next id field _ _ =>
    have hcurrent := hp.declaredType_rel id.name
    rw [hp.focus.scope]
    generalize p.1.declaredType id.name = current at hcurrent
    generalize p.2.declaredType id.name = current' at hcurrent
    cases hcurrent with
    | none => exact .pure fun _ => trivial
    | some hcurrent =>
      refine .bind (lockstep_onTable? fun hp =>
        Table.sameMade_withField hp.left hp.right hcurrent field hi) fun widened widened' q _ hw => ?_
      cases hw with
      | none => exact .pure fun _ => trivial
      | some hw =>
        exact .bind (lockstep_onArena fun hq => hq.arena.forceUpdateVar _ _ hw) fun _ _ _ _ _ =>
          .pure fun _ => trivial
  · exact .pure fun _ => trivial

theorem State.Parallel.instanceOf?_rel {s s' : State} (h : s.Parallel P s') (name : String) :
    Option.Rel (s.table.Same s'.table) (s.instanceOf? name) (s'.instanceOf? name) := by
  rw [State.instanceOf?, State.instanceOf?, h.focus.scope]
  exact Types.rel_bind (h.typeIn_rel _ _ _) fun _ _ hi =>
    Types.rel_bind (Table.functionShape?_same h.left h.right hi) fun _ _ hs => hs.this

theorem lockstep_targetType (left right : Expr) {i i' : TypeId} (hi : Handles P i i' p) :
    Lockstep (states P) p (targetType left i right) (targetType left i' right) (Handles P) := by
  refine .get_bind fun hp => ?_
  have hshape := Table.functionShape?_same hp.left hp.right hi
  generalize p.1.table.functionShape? i = shape at hshape
  generalize p.2.table.functionShape? i' = shape' at hshape
  cases isFunctionExpr right with
  | false => exact .pure fun _ => hi
  | true =>
    cases hshape with
    | none => exact .pure fun _ => hi
    | @some shape shape' hs =>
      have hinstance : Handles? P
          (((Access.ofExpr? left).bind fun access => prototypeOwner? access.object).bind p.1.instanceOf?)
          (((Access.ofExpr? left).bind fun access => prototypeOwner? access.object).bind p.2.instanceOf?)
          p := by
        cases (Access.ofExpr? left).bind fun access => prototypeOwner? access.object with
        | none => exact .none
        | some name => exact hp.instanceOf?_rel name
      obtain ⟨params, result, this, generics, brand⟩ := shape
      obtain ⟨params', result', this', generics', brand'⟩ := shape'
      obtain ⟨hparams, hresult, hthis, hgenerics, hbrand⟩ := hs
      dsimp only
      generalize ((Access.ofExpr? left).bind fun access => prototypeOwner? access.object).bind
        p.1.instanceOf? = this at hinstance
      generalize ((Access.ofExpr? left).bind fun access => prototypeOwner? access.object).bind
        p.2.instanceOf? = this' at hinstance
      cases hthis with
      | some _ => exact .pure fun _ => hi
      | none =>
        cases hinstance with
        | none => exact .pure fun _ => hi
        | some hthis =>
          exact lockstep_add (.function ⟨hparams, hresult, .some hthis, hgenerics, hbrand⟩) trivial trivial

theorem lockstep_recordField (access : Access) {i i' : TypeId} (hi : Handles P i i' p) :
    Lockstep (states P) p (recordField access i) (recordField access i') fun _ _ _ => True := by
  refine .get_bind fun hp => ?_
  rw [hp.focus.scope, hp.inFileScope_eq]
  split
  · exact .pure fun _ => trivial
  next field _ =>
  split
  · rw [Types.rel_any_eq (hp.arena.functionInfo?_rel p.1.focus.scope)
      fun _ _ hinfo => hinfo.isConstructor]
    split
    · refine .mono (lockstep_onArena fun hp => hp.arena.modifyFunction _ fun info info' hinfo => ?_)
        fun _ _ _ _ _ => trivial
      rw [hinfo.knownFields]
      split
      · exact hinfo
      · exact { hinfo with knownFields := rfl }
    · exact .pure fun _ => trivial
  split
  · split
    · exact .mono (lockstep_onArena fun hp => hp.arena.addPrototypeField _ _ _ hi)
        fun _ _ _ _ _ => trivial
    · exact .pure fun _ => trivial
  · exact .pure fun _ => trivial

theorem lockstep_recordAssigned (left : Expr) {i i' : TypeId} (hi : Handles P i i' p) :
    Lockstep (states P) p (recordAssigned left i) (recordAssigned left i') fun _ _ _ => True := by
  refine .get_bind fun hp => ?_
  rw [hp.focus.scope, hp.inBranch_eq]
  split
  · split
    · exact .mono (lockstep_onArena fun hp => hp.arena.restrict _ _ hi) fun _ _ _ _ _ => trivial
    · exact .pure fun _ => trivial
  split
  · exact lockstep_recordField _ hi
  · exact .pure fun _ => trivial

include hv

theorem lockstep_assignChecked (left right : Expr) {i i' : TypeId} (hi : Handles P i i' p) :
    Lockstep (states P) p (assignChecked v left i right) (assignChecked v' left i' right)
      (Handles? P) := by
  refine .bind (lockstep_targetType left right hi) fun expected expected' q _ hexpected => ?_
  refine lockstep_bind? (hv.into right (.some hexpected)) rfl rfl fun value value' r hr hvalue => ?_
  refine .bind (lockstep_checkFits _ (hr.same hexpected) hvalue) fun _ _ u hu _ => ?_
  exact .bind (lockstep_recordAssigned left (hu.same hvalue)) fun _ _ w hw _ =>
    .pure fun _ => .some ((hu.trans hw).same hvalue)

theorem lockstep_assignFreely (right : Expr) {accept accept' : TypeId → Check Unit}
    (haccept : ∀ q i i', (states P).Onward p q → Handles P i i' q →
      Lockstep (states P) q (accept i) (accept' i') fun _ _ _ => True) :
    Lockstep (states P) p (assignFreely v right accept) (assignFreely v' right accept') (Handles? P) := by
  refine .of_meets fun hp => lockstep_bind? (hv.into right .none) rfl rfl fun i i' q hq hi => ?_
  exact .bind (haccept q i i' hq hi) fun _ _ _ hr _ => .pure fun _ => .some (hr.same hi)

theorem lockstep_assignTo (left right : Expr) {i i' : TypeId} (hi : Handles P i i' p) :
    Lockstep (states P) p (assignTo v left i right) (assignTo v' left i' right) (Handles? P) := by
  refine .of_meets fun hp => ?_
  have hexports : i' = .moduleExports ↔ i = .moduleExports :=
    Table.eq_fixed_iff hp.left hp.right hi (by decide)
  have hfield : i' = .openField ↔ i = .openField := Table.eq_fixed_iff hp.left hp.right hi (by decide)
  have hname : growingName? left i' = growingName? left i := by
    simp only [growingName?, Table.growsFreely_same hp.left hp.right hi]
  have haccess : growingAccess? left i' = growingAccess? left i := by
    simp only [growingAccess?, hfield]
  simp only [assignTo, hexports, hname, haccess]
  split
  · refine lockstep_assignFreely hv right fun q j j' _ hj => .modify (fun hq => ⟨hq, ?_, .refl _, .refl _⟩) trivial
    exact { hq with exports := .some hj }
  split
  · refine lockstep_assignFreely hv right fun q j j' _ hj => .get_bind fun hq => ?_
    rw [hq.focus.scope]
    exact .bind (lockstep_onArena fun hq => hq.arena.forceUpdateVar _ _ hj) fun _ _ _ _ _ =>
      .pure fun _ => trivial
  · exact lockstep_assignFreely hv right fun q j j' _ hj => lockstep_widenObject _ hj
  · exact lockstep_assignChecked hv left right hi

theorem lockstep_verifyAssignment (operator : String) (left right : Expr) (span : Span) :
    Lockstep (states P) p (verifyAssignment v operator left right span)
      (verifyAssignment v' operator left right span) (Handles? P) := by
  rw [verifyAssignment, verifyAssignment]
  split
  · exact lockstep_verifyCompound hv operator left right span
  · exact lockstep_bind? (hv.asTarget left) rfl rfl fun _ _ _ _ hi => lockstep_assignTo hv left right hi

end Nodes

end HeaderCheck.Verify
