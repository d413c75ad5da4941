import HeaderCheck.Proofs.Types.Growth
import HeaderCheck.Proofs.Verify.Visiting

/-!
# HeaderCheck.Proofs.Verify.Expressions

Names, literals, accesses, operators and assignments: each is verified as the judgement says, given
that its parts are.
-/

namespace HeaderCheck.Verify

open HeaderCheck.Report (Kind)
open HeaderCheck.Scope (ScopeId)
open HeaderCheck.Script
open HeaderCheck.Types (Field Table TypeId)

variable {S : Setting} {n : Nat} {v v' : Visitor} {spared : Option ScopeId} {s : State}

/-! ## Names -/

theorem runs_verifyIdentifier (id : Identifier) :
    Runs S spared s (verifyIdentifier id) (verifyIdentifier id) Told := by
  refine .of_sound fun hs => runs_get_bind ?_
  split
  · exact runs_pure .some
  split
  · exact runs_pure .some
  split
  · exact .none runs_report
  split
  · next hunknown =>
    refine runs_pure fun hproper _ => hs.unknown hproper ?_
    rintro hnil
    simp [hnil] at hunknown
  · exact .none runs_report

theorem runs_verifyThis (span : Span) :
    Runs S spared s (verifyThis span) (verifyThis span) Told := by
  refine runs_get_bind ?_
  split
  · exact .none runs_report
  split
  · exact runs_pure .some
  · exact .none runs_report

/-! ## Array and object literals -/

theorem runs_verifyElements (hv : Visits S n v v') (context : Option TypeId) (element : TypeId)
    {elements : List Expr} (ha : ∀ e ∈ elements, s.At n (.expr e)) :
    Runs S spared s (verifyElements v context element elements)
      (verifyElements v' context element elements)
      fun fits s' => s'.source.program.Proper → fits = false → s'.diagnostics ≠ [] := by
  induction elements generalizing s with
  | nil => exact runs_pure nofun
  | cons e rest ih =>
    refine .of_sound fun hs => ?_
    refine runs_bind (hv.expecting (ha e List.mem_cons_self) context) fun result s₁ hk hs₁ htold => ?_
    have harest : ∀ e ∈ rest, s₁.At n (.expr e) :=
      fun e hmem => (ha e (List.mem_cons_of_mem _ hmem)).keeps hs hk
    cases result with
    | none =>
      simp only [pure_bind]
      refine runs_bind (ih harest) fun restFits s₂ hk₂ _ _ => runs_pure ?_
      intro hproper _
      rw [hk₂.source] at hproper
      exact hk₂.diagnostics_ne (htold hproper rfl)
    | some actual =>
      refine runs_bind runs_checkFits fun fits s₂ hk₂ _ hfits => ?_
      refine runs_bind (ih fun e hmem => (harest e hmem).keeps hs₁ hk₂)
        fun restFits s₃ hk₃ _ hrest => runs_pure ?_
      intro hproper hboth
      rcases Bool.and_eq_false_iff.mp hboth with hfalse | hfalse
      · exact hk₃.diagnostics_ne (hfits hfalse)
      · exact hrest hproper hfalse

theorem runs_verifyArray (hv : Visits S n v v') {elements : List Expr}
    (ha : ∀ e ∈ elements, s.At n (.expr e)) :
    Runs S spared s (verifyArray v elements) (verifyArray v' elements) Told := by
  refine .of_sound fun hs => runs_get_bind ?_
  cases elements with
  | nil =>
    simp only
    split
    · next hcontext =>
      cases hexpected : s.focus.expected with
      | none => simp [hexpected] at hcontext
      | some expected => exact runs_pure .some
    · refine runs_then (runs_onTable (fun t => Table.extends_add t _) trivial) fun free s₁ _ _ => ?_
      exact runs_made fun t => Table.extends_add t _
  | cons first rest =>
    refine runs_bind_told (hv.expecting (ha first List.mem_cons_self) _) rfl rfl
      fun firstType s₁ hk => ?_
    refine runs_bind (runs_verifyElements hv _ _ fun e hmem =>
      (ha e (List.mem_cons_of_mem _ hmem)).keeps hs hk) fun fits s₂ _ _ hfits => ?_
    cases fits with
    | false => exact runs_pure fun hproper _ => hfits hproper rfl
    | true => exact runs_made fun t => Table.extends_add t _

theorem runs_verifyFields (hv : Visits S n v v') (context : Option Types.ObjectShape)
    {properties : List Property} (ha : ∀ property ∈ properties, s.At n (.expr property.value)) :
    Runs S spared s (verifyFields v context properties) (verifyFields v' context properties)
      Told := by
  induction properties generalizing s with
  | nil => exact runs_pure .some
  | cons property rest ih =>
    rw [verifyFields, verifyFields]
    split
    · exact runs_throw trivial
    split
    · exact runs_throw trivial
    refine .of_sound fun hs => ?_
    refine runs_bind (hv.into (ha property List.mem_cons_self) _) fun type s₁ hk hs₁ htype => ?_
    refine runs_bind (ih fun property hmem => (ha property (List.mem_cons_of_mem _ hmem)).keeps hs hk)
      fun fields s₂ hk₂ _ hfields => runs_pure ?_
    intro hproper hnone
    cases type with
    | none => exact (htype.keeps hk₂) hproper rfl
    | some type =>
      cases fields with
      | none => exact hfields hproper rfl
      | some fields => cases hnone

theorem runs_verifyObject (hv : Visits S n v v') {properties : List Property}
    (ha : ∀ property ∈ properties, s.At n (.expr property.value)) :
    Runs S spared s (verifyObject v properties) (verifyObject v' properties) Told := by
  rw [verifyObject, verifyObject]
  split
  · exact runs_pure .some
  refine runs_get_bind (runs_bind_told (runs_verifyFields hv _ ha) rfl rfl fun fields s₁ _ => ?_)
  exact runs_made fun t => Table.extends_add t _

/-! ## Accesses -/

namespace Access

theorem runs_fieldType (access : Access) (object : TypeId) (field : String) :
    Runs S spared s (access.fieldType object field) (access.fieldType object field) Told := by
  refine runs_get_bind ?_
  split
  · exact runs_pure .some
  · split
    · exact runs_pure .some
    · exact .none runs_report
  · exact .none runs_report
  · exact .none runs_report

theorem runs_reportDynamic (access : Access) :
    Runs S spared s access.reportDynamic access.reportDynamic fun _ s' => s'.diagnostics ≠ [] :=
  runs_get_bind runs_report

theorem runs_indexed (access : Access) (key index part : TypeId) :
    Runs S spared s (access.indexed key index part) (access.indexed key index part) Told := by
  refine runs_bind runs_checkFits fun fits s₁ _ _ hfits => ?_
  cases fits with
  | true => exact runs_pure .some
  | false => exact runs_pure (.reported (hfits rfl))

theorem runs_literalPart (access : Access) (object : TypeId) :
    Runs S spared s (access.literalPart object) (access.literalPart object) Told := by
  refine runs_get_bind ?_
  split
  · split
    · exact runs_pure .some
    · exact .none (runs_reportDynamic access)
  · split
    · exact runs_fieldType access object _
    · exact .none (runs_reportDynamic access)
  · exact .none (runs_reportDynamic access)

theorem runs_computedType (hv : Visits S n v v') {access : Access} (object : TypeId)
    (ha : s.At n (.expr access.property)) :
    Runs S spared s (access.computedType v object) (access.computedType v' object) Told := by
  refine runs_bind_told (hv.asRead ha) rfl rfl fun index s₁ _ => ?_
  simp only
  split
  · exact runs_pure .some
  refine runs_get_bind ?_
  split
  · exact runs_indexed access _ index _
  · split
    · exact runs_indexed access _ index _
    · exact runs_literalPart access object
  · exact runs_literalPart access object

/-- A name that an access does not have is missing in programs that are not proper only. -/
theorem runs_typeOn (hv : Visits S n v v') {access : Access} (object : TypeId)
    (ha : s.At n (.expr access.property))
    (hname : s.source.program.Proper → access.computed = false → access.property.identifier?.isSome) :
    Runs S spared s (access.typeOn v object) (access.typeOn v' object) Told := by
  rw [typeOn, typeOn]
  split
  · exact runs_computedType hv object ha
  next hcomputed =>
  split
  · exact runs_fieldType access object _
  · next hnone =>
    refine runs_pure fun hproper _ => ?_
    have hsome := hname hproper (by simpa using hcomputed)
    simp only [name?, hcomputed, Bool.false_eq_true, if_false, Option.map_eq_none_iff] at hnone
    simp [hnone] at hsome

/-- An access of the body at hand names a field by an identifier, if the program is proper. -/
theorem isSome_of_at {object property : Expr} {computed : Bool} {span : Span} {tidy : Prop}
    (hs : s.Sound tidy) (ha : s.At n (.expr (.member object property computed span)))
    (hproper : s.source.program.Proper) (hc : computed = false) : property.identifier?.isSome := by
  subst hc
  obtain ⟨⟨body, hbody, hmem⟩, _⟩ := ha
  exact hproper _ (Program.nodes_of_bodies (hs.body_of_program hbody) hmem)

theorem runs_verify (hv : Visits S n v v') {access : Access}
    (ha : s.At (n + 1) (.expr (.member access.object access.property access.computed access.span))) :
    Runs S spared s (access.verify v) (access.verify v') Told := by
  refine .of_sound fun hs => ?_
  refine runs_bind_told (hv.asRead (ha.part (by simp [Node.parts, Node.exprParts]))) rfl rfl
    fun object s₁ hk => ?_
  refine runs_typeOn hv object ((ha.part (by simp [Node.parts, Node.exprParts])).keeps hs hk) ?_
  intro hproper
  rw [hk.source] at hproper
  exact isSome_of_at hs ha hproper

end Access

/-! ## Operators -/

theorem tryOverload_error {span : Span} {operands : List TypeId} {overload : TypeId}
    {errors : List Report.Diagnostic} (h : tryOverload s span operands overload = .error errors) :
    errors ≠ [] := by
  unfold tryOverload at h
  split at h
  · cases h
  split at h
  · cases h
    simp
  split at h
  · cases h
  · next hne =>
    cases h
    exact hne

theorem runs_applyOperator (operator : String) (span : Span) (operands : List TypeId) :
    Runs S spared s (applyOperator operator span operands) (applyOperator operator span operands)
      Told := by
  refine runs_get_bind ?_
  split
  · exact runs_pure .some
  split
  · split
    · exact runs_pure .some
    · next errors herrors =>
      refine .none (runs_record ?_)
      simp [tryOverload_error herrors]
  · split
    · exact runs_pure .some
    · exact .none runs_report

theorem runs_verifyBinary (hv : Visits S n v v') {left right : Expr} (hl : s.At n (.expr left))
    (hr : s.At n (.expr right)) (operator : String) (span : Span) :
    Runs S spared s (verifyBinary v operator left right span)
      (verifyBinary v' operator left right span) Told := by
  refine .of_sound fun hs => ?_
  refine runs_bind (hv.value hl) fun leftType s₁ hk _ hleft => ?_
  refine runs_bind (hv.value (hr.keeps hs hk)) fun rightType s₂ hk₂ _ hright => ?_
  cases leftType with
  | none => exact runs_pure (hleft.none_of hk₂)
  | some leftType =>
    cases rightType with
    | none => exact runs_pure hright
    | some rightType => exact runs_applyOperator operator span _

theorem runs_verifyUnary (hv : Visits S n v v') {argument : Expr} (ha : s.At n (.expr argument))
    (operator : String) (span : Span) :
    Runs S spared s (verifyUnary v operator argument span) (verifyUnary v' operator argument span)
      Told :=
  runs_bind_told (hv.value ha) rfl rfl fun _ _ _ => runs_applyOperator operator span _

theorem runs_verifyCompound (hv : Visits S n v v') {left right : Expr} (hl : s.At n (.expr left))
    (hr : s.At n (.expr right)) (operator : String) (span : Span) :
    Runs S spared s (verifyCompound v operator left right span)
      (verifyCompound v' operator left right span) Told := by
  refine .of_sound fun hs => ?_
  refine runs_bind (hv.asRead hl) fun leftType s₁ hk hs₁ hleft => ?_
  refine runs_bind (hv.value (hr.keeps hs hk)) fun rightType s₂ hk₂ hs₂ hright => ?_
  cases leftType with
  | none => exact runs_pure (hleft.none_of hk₂)
  | some leftType =>
    cases rightType with
    | none => exact runs_pure hright
    | some rightType =>
      refine runs_bind_told (runs_applyOperator _ span _) rfl rfl fun result s₃ hk₃ => ?_
      refine .of_sound fun hs₃ => ?_
      refine runs_bind_told (hv.asTarget (((hl.keeps hs hk).keeps hs₁ hk₂).keeps hs₂ hk₃)) rfl rfl
        fun target s₄ _ => ?_
      simp only
      split
      · exact runs_then (Runs.ignore runs_checkFits) fun _ _ _ _ => runs_pure .some
      · exact runs_pure .some

/-! ## Assignments -/

theorem runs_widenObject (access : Access) (value : TypeId) :
    Runs S spared s (widenObject access value) (widenObject access value) fun _ _ => True := by
  refine runs_get_bind ?_
  split
  · split
    · exact runs_pure trivial
    · refine runs_then (runs_onTable? (fun h => Table.growing_withField _ value h)
        fun _ _ => trivial) fun widened s₁ hk _ => ?_
      cases widened with
      | none => exact runs_pure trivial
      | some widened =>
        rw [← hk.focus]
        exact runs_then (runs_forceUpdateVar fun _ _ => trivial) fun _ _ _ _ => runs_pure trivial
  · exact runs_pure trivial

theorem runs_targetType (left : Expr) (type : TypeId) (right : Expr) :
    Runs S spared s (targetType left type right) (targetType left type right) fun _ _ => True := by
  refine runs_get_bind ?_
  split
  · simp only
    split
    · exact runs_onTable (fun t => Table.extends_add t _) trivial
    · exact runs_pure trivial
  · exact runs_pure trivial

/-- A field is recorded only where there is a function or a file to record it with. -/
theorem runs_recordField (access : Access) (value : TypeId) :
    Runs S spared s (recordField access value) (recordField access value) fun _ _ => True := by
  refine .of_sound fun hs => runs_get_bind ?_
  split
  · exact runs_pure trivial
  split
  · split
    · next hconstructor =>
      obtain ⟨info, hinfo⟩ := Option.isSome_iff_exists.mp (Option.isSome_of_any hconstructor)
      obtain ⟨found, hfound⟩ := Scope.Arena.functionScope?_of_info hinfo
      refine runs_modifyFunction hfound ?_ fun _ => trivial
      intro info
      split <;> rfl
    · exact runs_pure trivial
  split
  · next constructor _ =>
    split
    · next hfile =>
      have hfocus : s.focus.scope = s.fileScope := by simpa [State.inFileScope] using hfile
      obtain ⟨scope, prototypes, hscope, hkind, _⟩ := hs.file
      rw [hfocus]
      obtain ⟨arena, hrun, hquiet⟩ :=
        Scope.Arena.quiet_addPrototypeField hscope hkind constructor _ value
      exact runs_onArena hrun hquiet trivial
    · exact runs_pure trivial
  · exact runs_pure trivial

theorem runs_recordAssigned (left : Expr) (value : TypeId) :
    Runs S spared s (recordAssigned left value) (recordAssigned left value) fun _ _ => True := by
  refine runs_get_bind ?_
  split
  · split
    · next hbranch =>
      cases hscope : s.arena.scope? s.focus.scope with
      | none => simp [State.inBranch, hscope] at hbranch
      | some scope =>
        refine runs_restrict hscope (.inl ?_) fun _ => trivial
        simpa [State.inBranch, hscope] using hbranch
    · exact runs_pure trivial
  · split
    · exact runs_recordField _ value
    · exact runs_pure trivial

theorem runs_assignChecked (hv : Visits S n v v') {right : Expr} (hr : s.At n (.expr right))
    (left : Expr) (type : TypeId) :
    Runs S spared s (assignChecked v left type right) (assignChecked v' left type right) Told := by
  refine .of_sound fun hs => ?_
  refine runs_then (runs_targetType left type right) fun expected s₁ hk _ => ?_
  refine runs_bind_told (hv.into (hr.keeps hs hk) _) rfl rfl fun value s₂ _ => ?_
  refine runs_then (Runs.ignore runs_checkFits) fun _ s₃ _ _ => ?_
  exact runs_then (runs_recordAssigned left value) fun _ _ _ _ => runs_pure .some

theorem runs_assignFreely (hv : Visits S n v v') {right : Expr} (hr : s.At n (.expr right))
    {accept : TypeId → Check Unit}
    (haccept : ∀ {s : State} value, Runs S spared s (accept value) (accept value) fun _ _ => True) :
    Runs S spared s (assignFreely v right accept) (assignFreely v' right accept) Told :=
  runs_bind_told (hv.into hr none) rfl rfl fun value _ _ =>
    runs_then (haccept value) fun _ _ _ _ => runs_pure .some

theorem runs_assignTo (hv : Visits S n v v') {right : Expr} (hr : s.At n (.expr right))
    (left : Expr) (type : TypeId) :
    Runs S spared s (assignTo v left type right) (assignTo v' left type right) Told := by
  rw [assignTo, assignTo]
  split
  · refine runs_assignFreely hv hr fun value => runs_quiet rfl ?_ trivial
    exact ⟨rfl, rfl, rfl, List.prefix_refl _, .refl _, rfl, .refl _, fun _ hne hnil => absurd hnil hne⟩
  split
  · refine runs_assignFreely hv hr fun value => runs_get_bind ?_
    exact runs_then (runs_forceUpdateVar fun _ _ => trivial) fun _ _ _ _ => runs_pure trivial
  · exact runs_assignFreely hv hr fun value => runs_widenObject _ value
  · exact runs_assignChecked hv hr left type

theorem runs_verifyAssignment (hv : Visits S n v v') {left right : Expr} (hl : s.At n (.expr left))
    (hr : s.At n (.expr right)) (operator : String) (span : Span) :
    Runs S spared s (verifyAssignment v operator left right span)
      (verifyAssignment v' operator left right span) Told := by
  rw [verifyAssignment, verifyAssignment]
  split
  · exact runs_verifyCompound hv hl hr operator span
  · refine .of_sound fun hs => ?_
    exact runs_bind_told (hv.asTarget hl) rfl rfl fun type s₁ hk =>
      runs_assignTo hv (hr.keeps hs hk) left type

end HeaderCheck.Verify
