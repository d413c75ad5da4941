import HeaderCheck.Proofs.Verify.Expressions
import HeaderCheck.Proofs.Verify.Functions

/-!
# HeaderCheck.Proofs.Verify.Calls

Calls, requires and constructions. A call without a result has reported why; in particular type
variables are put into a function in such a way that it stays a function.
-/

namespace HeaderCheck.Verify

open HeaderCheck.Scope (ScopeId)
open HeaderCheck.Script
open HeaderCheck.Types (FunctionShape Occurrence Param Table TypeId)

variable {S : Setting} {n : Nat} {v v' : Visitor} {spared : Option ScopeId} {s : State}

/-- A required module leaves the session as it must. -/
theorem Visits.runs_require (hv : Visits S n v v') {request : String}
    (hmem : request ∈ requestsOf s.source.program) :
    Runs S spared s (onSession (v.require s.source.path request))
      (onSession (v'.require s.source.path request)) fun _ _ => True := by
  intro hs hc
  rw [hc.source] at hmem ⊢
  exact runs_onSession (hv.require request hmem s.session hc.compiling) hs hc

/-- The module that a visited call requires is one that the program requires. -/
theorem State.At.mem_requestsOf {node : Node} (ha : s.At n node) {tidy : Prop} (hs : s.Sound tidy)
    {request : String} (h : request? node = some request) : request ∈ requestsOf s.source.program := by
  obtain ⟨⟨body, hbody, hmem⟩, -⟩ := ha
  exact List.mem_filterMap.mpr ⟨node, Program.nodes_of_bodies (hs.body_of_program hbody) hmem, h⟩

namespace Call

/-! ## Arguments -/

theorem runs_plainArguments (hv : Visits S n v v') {arguments : List Expr} {params : List Param}
    (ha : ∀ e ∈ arguments, s.At n (.expr e)) :
    Runs S spared s (plainArguments v arguments params) (plainArguments v' arguments params)
      fun _ _ => True := by
  induction arguments generalizing s params with
  | nil => exact runs_pure trivial
  | cons argument rest ih =>
    have harest : ∀ e ∈ rest, s.At n (.expr e) := fun e hmem => ha e (List.mem_cons_of_mem _ hmem)
    rw [plainArguments, plainArguments]
    split
    · simp only [pure_bind]
      exact runs_then (ih harest) fun _ _ _ _ => runs_pure trivial
    · refine .of_sound fun hs => runs_get_bind ?_
      refine runs_then (hv.into (ha argument List.mem_cons_self) _).ignore fun type s₁ hk _ => ?_
      exact runs_then (ih fun e hmem => (harest e hmem).keeps hs hk) fun _ _ _ _ => runs_pure trivial

theorem runs_checkArity (call : Call) (shape : FunctionShape) (name : String) :
    Runs S spared s (call.checkArity shape name) (call.checkArity shape name)
      fun fits s' => fits = false → s'.diagnostics ≠ [] := by
  rw [checkArity]
  split
  · exact runs_bind runs_report fun _ _ _ _ hreported => runs_pure fun _ => hreported
  split
  · exact runs_bind runs_report fun _ _ _ _ hreported => runs_pure fun _ => hreported
  · exact runs_pure nofun

theorem runs_checkArgument (span : Span) (param : Param) (actual : TypeId) :
    Runs S spared s (checkArgument span param actual) (checkArgument span param actual)
      fun _ _ => True := by
  have hfits : ∀ {s : State} (excused : Bool),
      Runs S spared s (if !excused then do let _ ← checkFits span param.type actual else pure ())
        (if !excused then do let _ ← checkFits span param.type actual else pure ())
        fun _ _ => True := by
    intro s excused
    split
    · exact runs_then (Runs.ignore runs_checkFits) fun _ _ _ _ => runs_pure trivial
    · exact runs_pure trivial
  refine runs_get_bind ?_
  split
  · refine runs_then (runs_onTable (fun t => Table.extends_union t _) trivial) fun widened s₁ _ _ => ?_
    exact runs_get_bind (hfits _)
  · exact hfits false

theorem runs_checkArguments (hv : Visits S n v v') {arguments : List Expr} {params : List Param}
    {verified : List (Option TypeId)} (ha : ∀ e ∈ arguments, s.At n (.expr e)) :
    Runs S spared s (checkArguments v arguments params verified)
      (checkArguments v' arguments params verified) fun _ _ => True := by
  induction arguments generalizing s params verified with
  | nil => exact runs_pure trivial
  | cons argument rest ih =>
    cases params with
    | nil => exact runs_pure trivial
    | cons param params =>
      cases verified with
      | nil => exact runs_pure trivial
      | cons type types =>
        have harest : ∀ e ∈ rest, s.At n (.expr e) :=
          fun e hmem => ha e (List.mem_cons_of_mem _ hmem)
        have hcheck : ∀ {s₁ : State} actual, (∀ e ∈ rest, s₁.At n (.expr e)) →
            Runs S spared s₁
              (do
                match actual with
                | some actual => checkArgument argument.span param actual
                | none => pure ()
                checkArguments v rest params types)
              (do
                match actual with
                | some actual => checkArgument argument.span param actual
                | none => pure ()
                checkArguments v' rest params types) fun _ _ => True := by
          intro s₁ actual ha₁
          cases actual with
          | none => exact ih ha₁
          | some actual =>
            refine .of_sound fun hs₁ => ?_
            exact runs_then (runs_checkArgument argument.span param actual) fun _ s₂ hk _ =>
              ih fun e hmem => (ha₁ e hmem).keeps hs₁ hk
        rw [checkArguments, checkArguments]
        split
        · refine .of_sound fun hs => ?_
          exact runs_then (hv.into (ha argument List.mem_cons_self) _).ignore fun actual s₁ hk _ =>
            hcheck actual fun e hmem => (harest e hmem).keeps hs hk
        · exact hcheck type harest

/-! ## Type variables -/

theorem runs_solveOne (solved : Dict TypeId) (name : String) (found : TypeId) (span : Span) :
    Runs S spared s (solveOne solved name found span) (solveOne solved name found span) Told := by
  refine runs_get_bind ?_
  split
  · exact runs_pure .some
  split
  · exact runs_pure .some
  · exact .none runs_report

/-- Each occurrence of a solved type variable has a place below the function. -/
theorem runs_solve (call : Call) (passed : Passed) (occurrences : List Occurrence)
    (solved : Dict TypeId) :
    Runs S spared s (call.solve passed occurrences solved) (call.solve passed occurrences solved)
      fun result s' => Told result s' ∧
        (result.isSome → ∀ occurrence ∈ occurrences, occurrence.location ≠ []) := by
  induction occurrences generalizing s solved with
  | nil => exact runs_pure ⟨.some, fun _ => nofun⟩
  | cons occurrence rest ih =>
    refine runs_get_bind ?_
    split
    · exact runs_throw trivial
    next hlocation =>
    have hrest : ∀ {s : State} (solved : Dict TypeId),
        Runs S spared s (call.solve passed rest solved) (call.solve passed rest solved)
          fun result s' => Told result s' ∧
            (result.isSome → ∀ o ∈ occurrence :: rest, o.location ≠ []) := by
      intro s solved
      refine (ih solved).mono fun result s' _ _ hsolved => ⟨hsolved.1, fun hsome o hmem => ?_⟩
      rcases List.mem_cons.mp hmem with rfl | hmem
      · simp [hlocation]
      · exact hsolved.2 hsome o hmem
    have hnone : ∀ {s' : State} {occurrences : List Occurrence}, s'.diagnostics ≠ [] →
        Told (none : Option (Dict TypeId)) s' ∧ ((none : Option (Dict TypeId)).isSome →
          ∀ o ∈ occurrences, o.location ≠ []) := fun hd => ⟨.reported hd, nofun⟩
    split
    · exact hrest solved
    · split
      · exact hrest solved
      · exact runs_bind runs_report fun _ _ _ _ hd => runs_pure (hnone hd)
    · split
      · exact hrest solved
      · refine runs_bind (runs_solveOne solved _ _ _) fun result s₁ _ _ htold => ?_
        cases result with
        | some solved => exact hrest solved
        | none => exact runs_pure ⟨htold, nofun⟩

theorem extends_putIn (t : Table) (callee : TypeId) (bindings : List (List Types.Step × TypeId)) :
    t.Extends (putIn t callee bindings).2 := by
  unfold putIn
  have hgrow := t.extends_instantiate callee bindings
  simp only
  split
  · exact hgrow.trans (Table.extends_add _ _)
  · exact hgrow

theorem functionShape?_putIn {t : Table} {callee : TypeId} {shape : FunctionShape}
    {bindings : List (List Types.Step × TypeId)} (hpaths : ∀ binding ∈ bindings, binding.1 ≠ [])
    (hcallee : t.functionShape? callee = some shape) :
    ∃ shape', (putIn t callee bindings).2.functionShape? (putIn t callee bindings).1 = some shape' ∧
      shape'.params.length = shape.params.length := by
  obtain ⟨shape', hshape, hlength⟩ := Table.functionShape?_instantiate hpaths hcallee
  simp only [putIn, hshape]
  exact ⟨_, Table.functionShape?_function _ _, hlength⟩

theorem bindings_below {occurrences : List Occurrence} (solved : Dict TypeId)
    (h : ∀ occurrence ∈ occurrences, occurrence.location ≠ []) :
    ∀ binding ∈ bindings occurrences solved, binding.1 ≠ [] := by
  intro binding hmem
  obtain ⟨occurrence, hoccurrence, hbinding⟩ := List.mem_filterMap.mp hmem
  obtain ⟨type, _, rfl⟩ := Option.map_eq_some_iff.mp hbinding
  exact h occurrence hoccurrence

theorem runs_solvedShape (call : Call) {callee : TypeId} {shape : FunctionShape} (passed : Passed)
    (hshape : s.table.functionShape? callee = some shape) :
    Runs S spared s (call.solvedShape callee shape passed) (call.solvedShape callee shape passed)
      Told := by
  rw [solvedShape]
  split
  · exact runs_pure .some
  have hmade : Runs S spared s (call.instantiate callee shape passed)
      (call.instantiate callee shape passed) fun made s' => Told made s' ∧
        ∀ id, made = some id → s'.table.isFunction id := by
    refine runs_bind (runs_solve call passed shape.generics {}) fun solved s₁ hk _ hsolved => ?_
    cases solved with
    | none => exact runs_pure ⟨hsolved.1.none_of (.refl (S.Spares spared) _), nofun⟩
    | some solved =>
      obtain ⟨made, hmade, -⟩ := functionShape?_putIn
        (bindings_below solved (hsolved.2 rfl)) (hk.session.table.functionShape? hshape)
      have hput : Runs S spared s₁
          (onTable fun table => putIn table callee (bindings shape.generics solved))
          (onTable fun table => putIn table callee (bindings shape.generics solved))
          fun id s' => s'.table.isFunction id :=
        runs_onTable (fun t => extends_putIn t _ _) (Option.isSome_of_eq_some hmade)
      refine runs_bind hput fun id s₂ _ _ hfunction => runs_pure ⟨.some, ?_⟩
      rintro _ ⟨⟩
      exact hfunction
  refine runs_bind hmade fun made s₁ _ _ htold => ?_
  cases made with
  | none => exact runs_pure (htold.1.none_of (.refl (S.Spares spared) _))
  | some id =>
    refine runs_get_bind (runs_pure fun _ hnone => ?_)
    have hfunction := htold.2 id rfl
    rw [Table.isFunction, hnone] at hfunction
    cases hfunction

/-! ## Calls -/

theorem runs_reportNonFunction (call : Call) (actual : TypeId) :
    Runs S spared s (call.reportNonFunction actual) (call.reportNonFunction actual)
      fun _ s' => s'.diagnostics ≠ [] :=
  runs_get_bind runs_report

theorem runs_verifyRequire (hv : Visits S n v v') {call : Call}
    (hmem : ∀ literal request, call.arguments = [.literal literal] → literal.string? = some request →
      request ∈ requestsOf s.source.program) :
    Runs S spared s (call.verifyRequire v) (call.verifyRequire v') Told := by
  refine runs_get_bind ?_
  split
  next literal harguments =>
    split
    · exact .none runs_report
    next request hrequest =>
      refine runs_then (hv.runs_require (hmem literal request harguments hrequest))
        fun required s₁ _ _ => ?_
      cases required with
      | resolved path exports =>
        have hnoted : Runs S spared s₁
            (modify fun s => if s.dependencies.contains path then s
              else { s with dependencies := s.dependencies ++ [path] })
            (modify fun s => if s.dependencies.contains path then s
              else { s with dependencies := s.dependencies ++ [path] }) fun _ _ => True := by
          refine runs_quiet rfl ?_ trivial
          beta_reduce
          split
          · exact quiet_withTable (.refl _)
          · exact ⟨rfl, rfl, rfl, List.prefix_refl _, .refl _, rfl, .refl _,
              fun _ hne hnil => absurd hnil hne⟩
        exact runs_then hnoted fun _ _ _ _ => runs_pure .some
      | cyclic => exact .none runs_report
      | notFound => exact .none runs_report
  · exact .none runs_report

/-- The parts of a callee are visited on their own when it is an access. -/
theorem runs_calleeType (hv : Visits S n v v') {call : Call} (ha : s.At n (.expr call.callee)) :
    Runs S spared s (call.calleeType v) (call.calleeType v') Told := by
  refine .of_sound fun hs => ?_
  rw [calleeType, calleeType]
  cases haccess : Access.ofExpr? call.callee with
  | none =>
    exact runs_bind_told (hv.value ha) rfl rfl fun callee _ _ => runs_pure .some
  | some access =>
    rw [Access.eq_of_ofExpr? haccess] at ha
    have hobject : s.At n (.expr access.object) :=
      ha.succ.part (by simp [Node.parts, Node.exprParts])
    have hproperty : s.At n (.expr access.property) :=
      ha.succ.part (by simp [Node.parts, Node.exprParts])
    refine runs_bind_told (hv.asRead hobject) rfl rfl fun object s₁ hk => ?_
    refine runs_bind_told (Access.runs_typeOn hv object (hproperty.keeps hs hk) ?_) rfl rfl
      fun method _ _ => runs_pure .some
    intro hproper
    rw [hk.source] at hproper
    exact Access.isSome_of_at hs ha hproper

theorem runs_verifyAny (hv : Visits S n v v') {arguments : List Expr}
    (ha : ∀ e ∈ arguments, s.At n (.expr e)) :
    Runs S spared s (verifyAny v arguments) (verifyAny v' arguments) fun _ _ => True := by
  induction arguments generalizing s with
  | nil => exact runs_pure trivial
  | cons argument rest ih =>
    refine .of_sound fun hs => ?_
    exact runs_then (hv.value (ha argument List.mem_cons_self)).ignore fun _ s₁ hk _ =>
      ih fun e hmem => (ha e (List.mem_cons_of_mem _ hmem)).keeps hs hk

theorem runs_checkReceiver (call : Call) (receiver this : Option TypeId) :
    Runs S spared s (call.checkReceiver receiver this) (call.checkReceiver receiver this)
      fun _ _ => True := by
  unfold checkReceiver
  split
  · refine runs_then (Runs.ignore runs_checkFits) fun _ s₁ _ _ => runs_get_bind ?_
    split
    · split
      · exact runs_then (runs_forceUpdateVar fun _ _ => trivial) fun _ _ _ _ => runs_pure trivial
      · exact runs_pure trivial
    · exact runs_pure trivial
  · exact runs_pure trivial

theorem runs_apply (hv : Visits S n v v') {call : Call} (ha : ∀ e ∈ call.arguments, s.At n (.expr e))
    {callee : TypeId} {shape : FunctionShape} (hshape : s.table.functionShape? callee = some shape)
    (receiver : Option TypeId) :
    Runs S spared s (call.apply v callee receiver shape) (call.apply v' callee receiver shape)
      Told := by
  refine .of_sound fun hs => runs_get_bind ?_
  split
  · exact .none runs_report
  refine runs_then (runs_plainArguments hv ha) fun arguments s₁ hk hs₁ => ?_
  refine runs_bind (runs_checkArity call shape _) fun fits s₂ hk₂ hs₂ hfits => ?_
  cases fits with
  | false => exact runs_pure (.reported (hfits rfl))
  | true =>
    have hshape₂ := hk₂.session.table.functionShape? (hk.session.table.functionShape? hshape)
    refine runs_bind_told (runs_solvedShape call _ hshape₂) rfl rfl fun solved s₃ hk₃ => ?_
    have ha₃ : ∀ e ∈ call.arguments, s₃.At n (.expr e) :=
      fun e hmem => (((ha e hmem).keeps hs hk).keeps hs₁ hk₂).keeps hs₂ hk₃
    refine runs_then (runs_checkArguments hv ha₃) fun _ s₄ _ _ => ?_
    exact runs_then (runs_checkReceiver call receiver _) fun _ _ _ _ => runs_pure .some

theorem runs_verifyTyped (hv : Visits S n v v') {call : Call} (hc : s.At n (.expr call.callee))
    (ha : ∀ e ∈ call.arguments, s.At n (.expr e)) :
    Runs S spared s (call.verifyTyped v) (call.verifyTyped v') Told := by
  refine .of_sound fun hs => ?_
  refine runs_bind_told (runs_calleeType hv hc) rfl rfl fun found s₁ hk => ?_
  obtain ⟨callee, receiver⟩ := found
  have ha₁ : ∀ e ∈ call.arguments, s₁.At n (.expr e) := fun e hmem => (ha e hmem).keeps hs hk
  simp only
  split
  · exact runs_then (runs_verifyAny hv ha₁) fun _ _ _ _ => runs_pure .some
  refine runs_get_bind ?_
  split
  · exact .none (runs_reportNonFunction call callee)
  · next shape hshape => exact runs_apply hv ha₁ hshape receiver

theorem runs_verify (hv : Visits S n v v') {call : Call}
    (ha : s.At (n + 1) (.expr (.call call.callee call.arguments call.span))) :
    Runs S none s (call.verify v) (call.verify v') Told := by
  have hc : s.At n (.expr call.callee) := ha.part List.mem_cons_self
  have hargs : ∀ e ∈ call.arguments, s.At n (.expr e) :=
    fun e hmem => ha.part (List.mem_cons_of_mem _ (List.mem_map_of_mem hmem))
  refine .of_sound fun hs => runs_get_bind ?_
  split
  next id hcallee =>
    split
    · exact runs_verifyTyped hv hc hargs
    next hlookup =>
    split
    next hname =>
      refine runs_verifyRequire hv fun literal request harguments hrequest => ha.mem_requestsOf hs ?_
      rw [hcallee, harguments, request?, if_pos hname, hrequest]
    split
    · next hfound => exact runs_infer hv hargs ha.pending_le (by simpa using hlookup) hfound
    · exact runs_verifyTyped hv hc hargs
  · exact runs_verifyTyped hv hc hargs

/-! ## Constructions -/

theorem runs_construct (hv : Visits S n v v') {call : Call}
    (ha : ∀ e ∈ call.arguments, s.At n (.expr e)) (shape : FunctionShape) (object : TypeId) :
    Runs S spared s (call.construct v shape object) (call.construct v' shape object) Told := by
  refine .of_sound fun hs => runs_get_bind ?_
  refine runs_then (runs_plainArguments hv ha) fun arguments s₁ hk hs₁ => ?_
  refine runs_bind (runs_checkArity call shape _) fun fits s₂ hk₂ _ hfits => ?_
  cases fits with
  | false => exact runs_pure (.reported (hfits rfl))
  | true =>
    have ha₂ : ∀ e ∈ call.arguments, s₂.At n (.expr e) :=
      fun e hmem => ((ha e hmem).keeps hs hk).keeps hs₁ hk₂
    refine runs_then (runs_checkArguments hv ha₂) fun _ s₃ _ _ => ?_
    split
    · exact runs_pure .some
    · exact runs_made fun t => t.extends_withBrand object shape.brand

theorem runs_verifyNew (hv : Visits S n v v') {call : Call} (hc : s.At n (.expr call.callee))
    (ha : ∀ e ∈ call.arguments, s.At n (.expr e)) :
    Runs S spared s (call.verifyNew v) (call.verifyNew v') Told := by
  refine .of_sound fun hs => ?_
  refine runs_bind_told (hv.value hc) rfl rfl fun callee s₁ hk => runs_get_bind ?_
  split
  · exact .none (runs_reportNonFunction call callee)
  split
  · exact .none runs_report
  split
  · exact .none runs_report
  split
  · exact .none runs_report
  · exact runs_construct hv (fun e hmem => (ha e hmem).keeps hs hk) _ _

end Call

end HeaderCheck.Verify
