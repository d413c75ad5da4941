import HeaderCheck.Proofs.Verify.Calls
import HeaderCheck.Proofs.Verify.Covers.Expressions

/-!
# HeaderCheck.Proofs.Verify.Covers.Calls

Calls, constructions and assignments that have a type and report nothing.

* `Call.covers_checkArguments`: function expressions among the arguments are visited last. A call
  has no more arguments than there are parameters, and type variables are solved without a change of
  their number (`Call.length_solvedShape`), so none is passed over.
* `Call.covers_infer`: a function that gets its type from a call is verified where it was declared.
-/

namespace HeaderCheck.Verify

open HeaderCheck.Scope (Arena ScopeId UntypedFunction)
open HeaderCheck.Scope.Arena (Operation)
open HeaderCheck.Script
open HeaderCheck.Types (FunctionShape Occurrence Param Table TypeId)

variable {s : State} {owner : ScopeId} {v : Visitor}

namespace Call

/-! ## Arguments -/

/-- The functions in arguments that have been visited; function expressions without a type have
not. -/
def settledIn : List Expr → (verified : List (Option TypeId)) → List (FunctionKind × Function)
  | argument :: rest, type :: types =>
    (if type.isNone && isFunctionExpr argument then [] else (Node.expr argument).direct) ++
      settledIn rest types
  | arguments, _ => directIn arguments

theorem covers_plainArguments (hv : v.Covers) (ho : s.Under owner) (arguments : List Expr)
    (params : List Param) :
    Covers owner [] s (plainArguments v arguments params) (settledIn arguments) := by
  induction arguments generalizing s params with
  | nil => exact covers_pure (List.Subset.refl _)
  | cons argument rest ih =>
    rw [plainArguments]
    cases hf : isFunctionExpr argument with
    | true =>
      simp only [if_true, pure_bind]
      refine covers_bind (ih ho _) fun types _ _ => covers_pure ?_
      simp [settledIn, hf]
    | false =>
      simp only [Bool.false_eq_true, if_false]
      refine covers_get_bind (covers_bind (hv.into ho argument _) fun type s₁ hl => ?_)
      refine covers_bind (ih (hl.under ho) _) fun types _ _ => covers_pure ?_
      simp [settledIn, hf]

theorem passes_checkArgument (span : Span) (param : Param) (actual : TypeId) :
    Passes s (checkArgument span param actual) := by
  have hfits {s : State} (excused : Bool) :
      Passes s (if !excused then do let _ ← checkFits span param.type actual else pure ()) := by
    split
    · exact passes_then_unit passes_checkFits
    · exact passes_pure _
  refine passes_get_bind ?_
  split
  · exact passes_bind (passes_onTable (Table.extends_union _ _)) fun _ _ _ =>
      passes_get_bind (hfits _)
  · exact hfits false

/-- An argument that has a type is checked, and then the others are. -/
theorem covers_checkPassed {done : List (FunctionKind × Function)} {rest : Check Unit}
    {owed : Unit → List (FunctionKind × Function)} (span : Span) (param : Param)
    (passed : Option TypeId) (h : ∀ {s₁}, s.Leads s₁ → Covers owner done s₁ rest owed) :
    Covers owner done s (do
      match passed with
      | some actual => checkArgument span param actual
      | none => pure ()
      rest) owed := by
  cases passed with
  | none => exact h (.refl s)
  | some actual => exact covers_pass (passes_checkArgument _ _ _) fun _ _ hl => h hl

/-- With a parameter for each argument, the function expressions that are left are visited. -/
theorem covers_checkArguments (hv : v.Covers) (ho : s.Under owner) {arguments : List Expr}
    {params : List Param} (hlength : arguments.length ≤ params.length)
    (verified : List (Option TypeId)) :
    Covers owner (settledIn arguments verified) s (checkArguments v arguments params verified)
      fun _ => directIn arguments := by
  induction arguments generalizing s params verified with
  | nil => exact covers_pure (List.nil_subset _)
  | cons argument rest ih =>
    cases params with
    | nil => cases hlength
    | cons param params =>
      cases verified with
      | nil => exact covers_pure (List.Subset.refl _)
      | cons type types =>
        have hlength := Nat.le_of_succ_le_succ hlength
        rw [checkArguments, settledIn, directIn_cons]
        split
        · -- the argument is owed until it is visited now
          refine covers_bind (hv.into ho argument _) fun actual s₁ hl => ?_
          refine covers_checkPassed _ _ _ fun hl' => ?_
          refine ((ih ((hl.trans hl').under ho) hlength types).keep _).mono ?_
          simp [List.append_subset]
        · simp only [pure_bind]
          exact covers_checkPassed _ _ _ fun hl => (ih (hl.under ho) hlength types).keep _

theorem passes_checkArity (call : Call) (shape : FunctionShape) (name : String) :
    Passes s (call.checkArity shape name) := by
  rw [checkArity]
  split
  · exact passes_bind passes_report fun _ _ _ => passes_pure _
  split
  · exact passes_bind passes_report fun _ _ _ => passes_pure _
  · exact passes_pure _

theorem length_of_checkArity {call : Call} {shape : FunctionShape} {name : String} {s' : State}
    (h : (call.checkArity shape name).run s = (.ok true, s')) :
    call.arguments.length ≤ shape.params.length := by
  rw [checkArity] at h
  split at h
  · obtain ⟨_, _, _, hrest⟩ := ok_of_run_bind h
    cases hrest
  · next hfits => exact Nat.le_of_not_lt hfits

/-! ## Type variables -/

theorem passes_solveOne (solved : Dict TypeId) (name : String) (found : TypeId) (span : Span) :
    Passes s (solveOne solved name found span) := by
  refine passes_get_bind ?_
  split
  · exact passes_pure _
  split
  · exact passes_pure _
  · exact passes_none passes_report

theorem passes_solve (call : Call) (passed : Passed) (occurrences : List Occurrence)
    (solved : Dict TypeId) : Passes s (call.solve passed occurrences solved) := by
  induction occurrences generalizing s solved with
  | nil => exact passes_pure _
  | cons occurrence rest ih =>
    refine passes_get_bind ?_
    split
    · exact passes_throw _
    split
    · exact ih solved
    · split
      · exact ih solved
      · exact passes_none passes_report
    · split
      · exact ih solved
      · refine passes_bind (passes_solveOne solved _ _ _) fun result s₁ _ => ?_
        cases result with
        | some solved => exact ih solved
        | none => exact passes_pure _

/-- An occurrence without a location ends the run. -/
theorem locations_of_solve {call : Call} {passed : Passed} {occurrences : List Occurrence}
    {solved found : Dict TypeId} {s' : State}
    (h : (call.solve passed occurrences solved).run s = (.ok (some found), s')) :
    ∀ occurrence ∈ occurrences, occurrence.location ≠ [] := by
  induction occurrences generalizing s solved with
  | nil => exact nofun
  | cons occurrence rest ih =>
    rw [solve, run_get_bind] at h
    split at h
    · cases h
    next hlocation =>
    -- whatever the occurrence gives, the rest is solved next
    have hsolved : ∃ s₁ solved', (call.solve passed rest solved').run s₁ = (.ok (some found), s') := by
      split at h
      · exact ⟨_, _, h⟩
      · split at h
        · exact ⟨_, _, h⟩
        · obtain ⟨_, _, _, hrest⟩ := ok_of_run_bind h
          cases hrest
      · split at h
        · exact ⟨_, _, h⟩
        · obtain ⟨result, _, _, hrest⟩ := ok_of_run_bind h
          cases result with
          | some result => exact ⟨_, _, hrest⟩
          | none => cases hrest
    obtain ⟨s₁, solved', hrest⟩ := hsolved
    rw [List.forall_mem_cons, hlocation]
    exact ⟨List.cons_ne_nil _ _, ih hrest⟩

theorem passes_instantiate (call : Call) (callee : TypeId) (shape : FunctionShape)
    (passed : Passed) : Passes s (call.instantiate callee shape passed) := by
  refine passes_bind (call.passes_solve passed _ _) fun solved s₁ _ => ?_
  cases solved with
  | none => exact passes_pure _
  | some solved => exact passes_made (extends_putIn _ _ _)

theorem passes_solvedShape (call : Call) (callee : TypeId) (shape : FunctionShape)
    (passed : Passed) : Passes s (call.solvedShape callee shape passed) := by
  rw [solvedShape]
  split
  · exact passes_pure _
  refine passes_bind (call.passes_instantiate callee shape passed) fun made s₁ _ => ?_
  cases made with
  | none => exact passes_pure _
  | some made => exact passes_get_bind (passes_pure _)

/-- The solved type has as many parameters as the declared one. -/
theorem length_solvedShape {call : Call} {callee : TypeId} {shape solved : FunctionShape}
    {passed : Passed} {s' : State} (hshape : s.table.functionShape? callee = some shape)
    (h : (call.solvedShape callee shape passed).run s = (.ok (some solved), s')) :
    solved.params.length = shape.params.length := by
  rw [solvedShape] at h
  split at h
  · cases h
    rfl
  obtain ⟨made, s₁, hmade, hrest⟩ := ok_of_run_bind h
  cases made with
  | none => cases hrest
  | some made =>
    obtain ⟨found, s₂, hsolve, hput⟩ := ok_of_run_bind hmade
    cases found with
    | none => cases hput
    | some found =>
      have hl := (call.passes_solve passed shape.generics {} _ _ hsolve).1
      have hpaths : ∀ binding ∈ bindings shape.generics found, binding.1 ≠ [] :=
        bindings_below _ (locations_of_solve hsolve)
      obtain ⟨shape', hshape', hlength⟩ :=
        functionShape?_putIn hpaths (hl.table.functionShape? hshape)
      cases hput
      have hsolved := Except.ok.inj (Prod.mk.inj hrest).1
      rw [← Option.some.inj (hshape'.symm.trans hsolved)]
      exact hlength

/-! ## Calls of functions with a type -/

/-- A call that requires a module has a literal for its argument. -/
theorem covers_verifyRequire (hv : v.Covers) (call : Call) :
    Covers owner [] s (call.verifyRequire v) (owing (directIn call.arguments)) := by
  refine covers_get_bind ?_
  split
  · next literal hliteral =>
    have hnone : directIn call.arguments = [] := by
      simp [hliteral, directIn, Node.direct_eq, Node.function?, Node.parts, Node.exprParts]
    rw [hnone]
    split
    · exact passes_report.covers_none
    · refine covers_pass (passes_onSession (hv.require _ _ _)) fun required s₁ _ => ?_
      cases required with
      | resolved path exports =>
        refine covers_pass (passes_modify ?_) fun _ _ _ => covers_pure (List.Subset.refl _)
        split
        · exact ⟨_, _, _, rfl⟩
        · exact ⟨_, _, _, rfl⟩
      | cyclic => exact passes_report.covers_none
      | notFound => exact passes_report.covers_none
  · exact passes_report.covers_none

theorem covers_calleeType (hv : v.Covers) (ho : s.Under owner) (call : Call) :
    Covers owner [] s (call.calleeType v) (owing (Node.expr call.callee).direct) := by
  rw [calleeType]
  split
  · next access haccess =>
    have hdirect : (Node.expr call.callee).direct =
        (Node.expr access.object).direct ++ (Node.expr access.property).direct := by
      rw [Access.eq_of_ofExpr? haccess]
      simp [Node.direct_eq (.expr (.member ..)), Node.function?, Node.parts, Node.exprParts]
    rw [hdirect]
    refine covers_bind (hv.asRead ho access.object) fun object s₁ hl => ?_
    cases object with
    | none => exact covers_none
    | some object =>
      refine covers_bind (access.covers_typeOn hv (hl.under ho) object) fun method s₂ _ => ?_
      cases method with
      | none => exact covers_none
      | some method => exact covers_pure (List.Subset.refl _)
  · refine covers_bind (hv.value ho call.callee) fun callee s₁ _ => ?_
    cases callee with
    | none => exact covers_none
    | some callee => exact covers_pure (List.Subset.refl _)

theorem covers_verifyAny (hv : v.Covers) (ho : s.Under owner) (arguments : List Expr) :
    Covers owner [] s (verifyAny v arguments) fun _ => directIn arguments := by
  induction arguments generalizing s with
  | nil => exact covers_pure (List.Subset.refl _)
  | cons argument rest ih =>
    refine covers_bind (hv.value ho argument) fun _ s₁ hl => (ih (hl.under ho)).frame fun _ => ?_
    exact List.Subset.refl _

theorem passes_checkReceiver (call : Call) (receiver this : Option TypeId) :
    Passes s (call.checkReceiver receiver this) := by
  unfold checkReceiver
  split
  · refine passes_bind passes_checkFits fun _ s₁ _ => passes_get_bind ?_
    split
    · split
      · exact passes_then_unit (passes_onArena (.forceUpdateVar _ _ _) rfl rfl)
      · exact passes_pure _
    · exact passes_pure _
  · exact passes_pure _

theorem covers_apply (hv : v.Covers) (ho : s.Under owner) (call : Call) {callee : TypeId}
    {shape : FunctionShape} (hshape : s.table.functionShape? callee = some shape)
    (receiver : Option TypeId) :
    Covers owner [] s (call.apply v callee receiver shape) (owing (directIn call.arguments)) := by
  refine covers_get_bind ?_
  split
  · exact passes_report.covers_none
  refine covers_bind (covers_plainArguments hv ho _ _) fun arguments s₁ hl₁ => ?_
  refine covers_pass_run (call.passes_checkArity _ _) fun fits s₂ hfits hl₂ => ?_
  cases fits with
  | false => exact covers_none
  | true =>
    have hl₂ := hl₁.trans hl₂
    refine covers_pass_run (call.passes_solvedShape _ _ _) fun solved s₃ hsolved hl₃ => ?_
    cases solved with
    | none => exact covers_none
    | some solved =>
      have hlength : call.arguments.length ≤ solved.params.length := by
        rw [length_solvedShape (hl₂.table.functionShape? hshape) hsolved]
        exact length_of_checkArity hfits
      refine covers_then (covers_checkArguments hv ((hl₂.trans hl₃).under ho) hlength _)
        fun _ s₄ _ => ?_
      exact covers_pass (call.passes_checkReceiver _ _) fun _ _ _ =>
        covers_pure (List.Subset.refl _)

theorem covers_verifyTyped (hv : v.Covers) (ho : s.Under owner) (call : Call) :
    Covers owner [] s (call.verifyTyped v)
      (owing ((Node.expr call.callee).direct ++ directIn call.arguments)) := by
  refine covers_bind (call.covers_calleeType hv ho) fun found s₁ hl => ?_
  cases found with
  | none => exact covers_none
  | some found =>
    obtain ⟨callee, receiver⟩ := found
    simp only
    split
    · exact covers_bind (covers_verifyAny hv (hl.under ho) _) fun _ _ _ =>
        covers_pure (List.Subset.refl _)
    refine covers_get_bind ?_
    split
    · exact Passes.covers_none (passes_get_bind passes_report)
    · next shape hshape => exact (call.covers_apply hv (hl.under ho) hshape receiver).frame_owing

/-! ## Calls of functions without a type -/

theorem covers_inferParams (hv : v.Covers) (ho : s.Under owner) (arguments : List Expr)
    (names : List Identifier) :
    Covers owner [] s (inferParams v arguments names) (owing (directIn arguments)) := by
  induction arguments generalizing s names with
  | nil => exact covers_pure (List.nil_subset _)
  | cons argument rest ih =>
    refine covers_bind (hv.value ho argument) fun type s₁ hl => ?_
    cases type with
    | none => exact covers_none
    | some type =>
      refine covers_bind (ih (hl.under ho) _) fun params _ _ => ?_
      cases params with
      | none => exact covers_none
      | some params => exact covers_pure (List.Subset.refl _)

/-- A function that gets its type from a call is verified where it was declared. -/
theorem covers_infer (hv : v.Covers) (ho : s.Under owner) (call : Call) {name : String}
    {untyped : UntypedFunction} (hawaits : s.arena.Awaits untyped) :
    Covers owner [] s (call.infer v name untyped) (owing (directIn call.arguments)) := by
  have hwhere := ho.orderly untyped hawaits
  refine covers_bind (covers_inferParams hv ho _ _) fun params s₁ hl₁ => ?_
  cases params with
  | none => exact covers_none
  | some params =>
    refine covers_get_bind (covers_pass (passes_onTable (Table.extends_add _ _)) fun type s₂ hl₂ => ?_)
    refine covers_pass (passes_onArena (.updateFunction _ _ _) rfl rfl) fun _ s₃ hl₃ => ?_
    have hl₃ := (hl₁.trans hl₂).trans hl₃
    have hbody : Covers untyped.definedIn [] s₃
        (inScope untyped.definedIn (verifyFunction v untyped.node type name)) fun _ => [] :=
      covers_inScope (hwhere.retains hl₃.scopes) (hl₃.orderly ho.orderly) fun ho' =>
        covers_verifyFunction hv ho' untyped.node type nofun
    refine covers_then hbody.elsewhere fun _ s₄ _ => ?_
    split
    · exact covers_none
    split
    · refine covers_get_bind (covers_pass (passes_onTable (Table.extends_add _ _)) fun _ _ _ => ?_)
      exact covers_pass (passes_onArena (.forceUpdateVar _ _ _) rfl rfl) fun _ _ _ =>
        covers_pure (List.Subset.refl _)
    · exact covers_pure (List.Subset.refl _)

theorem awaits_of_getFunction? {a : Arena} {id : ScopeId} {name : String}
    {untyped : UntypedFunction} (h : a.getFunction? id name = some untyped) :
    a.Awaits untyped := by
  obtain ⟨_, ⟨holder, scope⟩, _, hchain, hget, -⟩ := List.findSome?_eq_some_iff.mp h
  have hmem : (holder, scope) ∈ a.chain id := by
    rw [hchain]
    exact List.mem_append_right _ List.mem_cons_self
  exact ⟨holder, scope, name, Arena.scope?_of_mem_chainWithin hmem, Dict.mem_entries_of_get? hget⟩

theorem covers_verify (hv : v.Covers) (ho : s.Under owner) (call : Call) :
    Covers owner [] s (call.verify v)
      (owing ((Node.expr call.callee).direct ++ directIn call.arguments)) := by
  refine covers_get_bind ?_
  split
  · next id hcallee =>
    split
    · exact call.covers_verifyTyped hv ho
    have hname : (Node.expr call.callee).direct = [] := hcallee ▸ direct_identifier id
    split
    · rw [hname]
      exact call.covers_verifyRequire hv
    split
    · next hfound =>
      rw [hname]
      exact call.covers_infer hv ho (awaits_of_getFunction? hfound)
    · exact call.covers_verifyTyped hv ho
  · exact call.covers_verifyTyped hv ho

/-! ## Constructions -/

theorem covers_construct (hv : v.Covers) (ho : s.Under owner) (call : Call) (shape : FunctionShape)
    (object : TypeId) :
    Covers owner [] s (call.construct v shape object) (owing (directIn call.arguments)) := by
  refine covers_get_bind ?_
  refine covers_bind (covers_plainArguments hv ho _ _) fun arguments s₁ hl₁ => ?_
  refine covers_pass_run (call.passes_checkArity _ _) fun fits s₂ hfits hl₂ => ?_
  cases fits with
  | false => exact covers_none
  | true =>
    refine covers_then (covers_checkArguments hv ((hl₁.trans hl₂).under ho)
      (length_of_checkArity hfits) _) fun _ s₃ _ => ?_
    split
    · exact covers_pure (List.Subset.refl _)
    · exact (passes_made (Table.extends_withBrand _ _ _)).covers_owing (List.Subset.refl _)

theorem covers_verifyNew (hv : v.Covers) (ho : s.Under owner) (call : Call) :
    Covers owner [] s (call.verifyNew v)
      (owing ((Node.expr call.callee).direct ++ directIn call.arguments)) := by
  refine covers_bind (hv.value ho call.callee) fun callee s₁ hl => ?_
  cases callee with
  | none => exact covers_none
  | some callee =>
    refine covers_get_bind ?_
    split
    · exact Passes.covers_none (passes_get_bind passes_report)
    split
    · exact passes_report.covers_none
    split
    · exact passes_report.covers_none
    split
    · exact passes_report.covers_none
    · exact (call.covers_construct hv (hl.under ho) _ _).frame_owing

end Call

/-! ## Assignments -/

theorem passes_widenObject (access : Access) (value : TypeId) :
    Passes s (widenObject access value) := by
  refine passes_get_bind ?_
  split
  · split
    · exact passes_pure _
    refine passes_bind (passes_onTable? fun hmade => Table.growing_withField _ _ hmade)
      fun widened _ _ => ?_
    cases widened with
    | none => exact passes_pure _
    | some widened => exact passes_then_unit (passes_onArena (.forceUpdateVar _ _ _) rfl rfl)
  · exact passes_pure _

theorem passes_targetType (left : Expr) (type : TypeId) (right : Expr) :
    Passes s (targetType left type right) := by
  refine passes_get_bind ?_
  split
  · simp only
    split
    · exact passes_onTable (Table.extends_add _ _)
    · exact passes_pure _
  · exact passes_pure _

theorem passes_recordField (access : Access) (value : TypeId) :
    Passes s (recordField access value) := by
  refine passes_get_bind ?_
  split
  · exact passes_pure _
  split
  · split
    · exact passes_onArena (.addKnownField _ _) rfl rfl
    · exact passes_pure _
  · split
    · split
      · exact passes_onArena (.addPrototypeField _ _ _ _) rfl rfl
      · exact passes_pure _
    · exact passes_pure _

theorem passes_recordAssigned (left : Expr) (value : TypeId) :
    Passes s (recordAssigned left value) := by
  refine passes_get_bind ?_
  split
  · split
    · exact passes_onArena (.restrict _ _ _) rfl rfl
    · exact passes_pure _
  · split
    · exact passes_recordField _ _
    · exact passes_pure _

theorem covers_assignChecked (hv : v.Covers) (ho : s.Under owner) (left : Expr) (type : TypeId)
    (right : Expr) :
    Covers owner [] s (assignChecked v left type right) (owing (Node.expr right).direct) := by
  refine covers_pass (passes_targetType left type right) fun expected s₁ hl => ?_
  refine covers_bind (hv.into (hl.under ho) right _) fun value s₂ _ => ?_
  cases value with
  | none => exact covers_none
  | some value =>
    refine covers_pass passes_checkFits fun _ s₃ _ => ?_
    exact covers_pass (passes_recordAssigned left value) fun _ _ _ =>
      covers_pure (List.Subset.refl _)

theorem covers_assignFreely (hv : v.Covers) (ho : s.Under owner) (right : Expr)
    {accept : TypeId → Check Unit} (haccept : ∀ {s : State} value, Passes s (accept value)) :
    Covers owner [] s (assignFreely v right accept) (owing (Node.expr right).direct) := by
  refine covers_bind (hv.into ho right none) fun value s₁ _ => ?_
  cases value with
  | none => exact covers_none
  | some value => exact covers_pass (haccept value) fun _ _ _ => covers_pure (List.Subset.refl _)

theorem covers_assignTo (hv : v.Covers) (ho : s.Under owner) (left : Expr) (type : TypeId)
    (right : Expr) :
    Covers owner [] s (assignTo v left type right) (owing (Node.expr right).direct) := by
  rw [assignTo]
  split
  · exact covers_assignFreely hv ho right fun value => passes_modify ⟨_, _, _, rfl⟩
  split
  · exact covers_assignFreely hv ho right fun value =>
      passes_get_bind (passes_then_unit (passes_onArena (.forceUpdateVar _ _ _) rfl rfl))
  · exact covers_assignFreely hv ho right (passes_widenObject _)
  · exact covers_assignChecked hv ho left type right

theorem covers_verifyAssignment (hv : v.Covers) (ho : s.Under owner) (operator : String)
    (left right : Expr) (span : Span) :
    Covers owner [] s (verifyAssignment v operator left right span)
      (owing ((Node.expr left).direct ++ (Node.expr right).direct)) := by
  rw [verifyAssignment]
  split
  · exact covers_verifyCompound hv ho operator left right span
  refine covers_bind (hv.asTarget ho left) fun type s₁ hl => ?_
  cases type with
  | none => exact covers_none
  | some type => exact (covers_assignTo hv (hl.under ho) left type right).frame_owing

end HeaderCheck.Verify
