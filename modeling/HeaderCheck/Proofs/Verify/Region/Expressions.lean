import HeaderCheck.Proofs.Verify.Region.Functions

/-!
# HeaderCheck.Proofs.Verify.Region.Expressions

Expressions without branches keep within their regions.

The names that are given other types here, after an assignment to a growing variable, after a new
field of an open object or after a call of a method, have all been looked up before. So they are
missing only from the scopes around, being global ones.
-/

namespace HeaderCheck.Verify

open HeaderCheck.Scope (Arena)
open HeaderCheck.Script
open HeaderCheck.Types (FunctionShape ObjectShape Param TypeId)

variable {G : Ground} {R : Region G} {s : State} {v : Visitor}

/-! ## Parts of expressions -/

namespace Region.Covers

theorem object {object property : Expr} {computed : Bool} {span : Span}
    (h : R.Covers (.expr (.member object property computed span))) : R.Covers (.expr object) :=
  h.visited (by cases computed <;> exact List.mem_cons_self)

theorem property {object property : Expr} {span : Span}
    (h : R.Covers (.expr (.member object property true span))) : R.Covers (.expr property) :=
  h.visited (List.mem_cons_of_mem _ List.mem_cons_self)

end Region.Covers

/-! ## Literals -/

theorem confines_verifyElements (hv : v.Confines G) (context : Option TypeId) (element : TypeId)
    {elements : List Expr} (h : ∀ e ∈ elements, R.Covers (.expr e)) :
    Confines R (verifyElements v context element elements) := by
  induction elements with
  | nil => exact confines_pure _
  | cons e rest ih =>
    have hrest (fits : Bool) : Confines R (do
        let restFits ← verifyElements v context element rest
        return fits && restFits) :=
      confines_bind (ih fun e hmem => h e (List.mem_cons_of_mem _ hmem)) fun _ => confines_pure _
    refine confines_bind (confines_expecting (hv.expr R e (h e List.mem_cons_self))) fun actual => ?_
    cases actual with
    | some actual => exact confines_bind notes_checkFits.confines fun fits => hrest fits
    | none => exact hrest false

theorem confines_verifyArray (hv : v.Confines G) {elements : List Expr}
    (h : ∀ e ∈ elements, R.Covers (.expr e)) : Confines R (verifyArray v elements) := by
  refine confines_get_bind fun s => ?_
  simp only
  split
  · split
    · exact confines_pure _
    · exact confines_bind (notes_onTable _).confines fun _ => (notes_made _).confines
  next first rest =>
  refine confines_bind (confines_expecting (hv.expr R first (h first List.mem_cons_self))) fun firstType => ?_
  cases firstType with
  | none => exact confines_pure _
  | some firstType =>
    refine confines_bind (confines_verifyElements hv _ _ fun e hmem => h e (List.mem_cons_of_mem _ hmem))
      fun fits => ?_
    split
    · exact (notes_made _).confines
    · exact confines_pure _

theorem confines_verifyFields (hv : v.Confines G) (context : Option ObjectShape)
    {properties : List Property} (h : ∀ property ∈ properties, R.Covers (.expr property.value)) :
    Confines R (verifyFields v context properties) := by
  induction properties with
  | nil => exact confines_pure _
  | cons property rest ih =>
    rw [verifyFields]
    split
    · exact confines_throw rfl
    split
    · exact confines_throw rfl
    · refine confines_bind (hv.into (h property List.mem_cons_self) _) fun _ => ?_
      exact confines_bind (ih fun property hmem => h property (List.mem_cons_of_mem _ hmem))
        fun _ => confines_pure _

theorem confines_verifyObject (hv : v.Confines G) {properties : List Property}
    (h : ∀ property ∈ properties, R.Covers (.expr property.value)) :
    Confines R (verifyObject v properties) := by
  rw [verifyObject]
  split
  · exact confines_pure _
  refine confines_get_bind fun s => confines_bind (confines_verifyFields hv _ h) fun fields => ?_
  cases fields with
  | some fields => exact (notes_made _).confines
  | none => exact confines_pure _

/-! ## Accesses -/

namespace Access

variable {access : Access}

/-- The expression that the access is belongs to the region. -/
def Within (R : Region G) (access : Access) : Prop :=
  R.Covers (.expr (.member access.object access.property access.computed access.span))

theorem confines_typeOn (hv : v.Confines G) (h : access.Within R) (object : TypeId) :
    Confines R (access.typeOn v object) := by
  rw [typeOn]
  split
  · next hcomputed =>
    rw [Within, hcomputed] at h
    refine confines_bind (confines_asRead (hv.expr R _ h.property)) fun index => ?_
    cases index with
    | none => exact confines_pure _
    | some index =>
      simp only
      split
      · exact confines_pure _
      refine confines_get_bind fun s => ?_
      split
      · exact (access.notes_indexed _ _ _).confines
      · split
        · exact (access.notes_indexed _ _ _).confines
        · exact (access.notes_literalPart object).confines
      · exact (access.notes_literalPart object).confines
  split
  · exact (access.notes_fieldType object _).confines
  · exact confines_pure _

theorem confines_verify (hv : v.Confines G) (h : access.Within R) : Confines R (access.verify v) := by
  refine confines_bind (confines_asRead (hv.expr R _ h.object)) fun object => ?_
  cases object with
  | some object => exact confines_typeOn hv h object
  | none => exact confines_pure _

end Access

/-! ## Operators -/

theorem confines_verifyBinary (hv : v.Confines G) (operator : String) {left right : Expr} (span : Span)
    (hleft : R.Covers (.expr left)) (hright : R.Covers (.expr right)) :
    Confines R (verifyBinary v operator left right span) := by
  refine confines_bind (hv.value hleft) fun left => confines_bind (hv.value hright) fun right => ?_
  split
  · exact (notes_applyOperator _ _ _).confines
  · exact confines_pure _

theorem confines_verifyUnary (hv : v.Confines G) (operator : String) {argument : Expr} (span : Span)
    (h : R.Covers (.expr argument)) : Confines R (verifyUnary v operator argument span) := by
  refine confines_bind (hv.value h) fun argument => ?_
  split
  · exact (notes_applyOperator _ _ _).confines
  · exact confines_pure _

theorem confines_verifyCompound (hv : v.Confines G) (operator : String) {left right : Expr}
    (span : Span) (hleft : R.Covers (.expr left)) (hright : R.Covers (.expr right)) :
    Confines R (verifyCompound v operator left right span) := by
  refine confines_bind (confines_asRead (hv.expr R left hleft)) fun leftType => ?_
  refine confines_bind (hv.value hright) fun rightType => ?_
  split
  · refine confines_bind (notes_applyOperator _ _ _).confines fun result => ?_
    cases result with
    | none => exact confines_pure _
    | some result =>
      refine confines_bind (confines_asTarget (hv.expr R left hleft)) fun target => ?_
      cases target with
      | none => exact confines_pure _
      | some target =>
        simp only
        split
        · exact confines_bind notes_checkFits.confines fun _ => confines_pure _
        · exact confines_pure _
  · exact confines_pure _

/-! ## Calls -/

namespace Call

variable {call : Call}

/-- The callee and the arguments belong to the region. -/
structure Within (R : Region G) (call : Call) : Prop where
  callee : R.Covers (.expr call.callee)
  arguments : ∀ e ∈ call.arguments, R.Covers (.expr e)

theorem confines_plainArguments (hv : v.Confines G) {arguments : List Expr}
    (h : ∀ e ∈ arguments, R.Covers (.expr e)) (params : List Param) :
    Confines R (plainArguments v arguments params) := by
  induction arguments generalizing params with
  | nil => exact confines_pure _
  | cons argument rest ih =>
    have hrest := ih fun e hmem => h e (List.mem_cons_of_mem _ hmem)
    rw [plainArguments]
    split
    · simp only [pure_bind]
      exact confines_bind (hrest _) fun _ => confines_pure _
    · refine confines_get_bind fun s => ?_
      refine confines_bind (hv.into (h argument List.mem_cons_self) _) fun _ => ?_
      exact confines_bind (hrest _) fun _ => confines_pure _

/-- An argument that has a type is checked, and then the others are. -/
theorem confines_checkPassed {rest : Check Unit} (span : Span) (param : Param)
    (passed : Option TypeId) (h : Confines R rest) :
    Confines R (do
      match passed with
      | some actual => checkArgument span param actual
      | none => pure ()
      rest) := by
  cases passed with
  | none => exact h
  | some actual => exact confines_bind (notes_checkArgument _ _ _).confines fun _ => h

theorem confines_checkArguments (hv : v.Confines G) {arguments : List Expr}
    (h : ∀ e ∈ arguments, R.Covers (.expr e)) (params : List Param)
    (verified : List (Option TypeId)) : Confines R (checkArguments v arguments params verified) := by
  induction arguments generalizing params verified with
  | nil => exact confines_pure _
  | cons argument rest ih =>
    have hrest := ih fun e hmem => h e (List.mem_cons_of_mem _ hmem)
    cases params with
    | nil => exact confines_pure _
    | cons param params =>
      cases verified with
      | nil => exact confines_pure _
      | cons type types =>
        rw [checkArguments]
        split
        · exact confines_bind (hv.into (h argument List.mem_cons_self) _) fun actual =>
            confines_checkPassed _ _ actual (hrest params types)
        · exact confines_checkPassed _ _ type (hrest params types)

theorem confines_verifyRequire (hv : v.Confines G) (call : Call) :
    Confines R (call.verifyRequire v) := by
  have hunknown (name : String) : Confines R (verifyRequire.unknown call name) :=
    confines_none notes_report.confines
  refine confines_get_bind fun s => ?_
  split
  · split
    · exact hunknown _
    next request _ =>
    have hrequire : Confines R (onSession (v.require s.source.path request)) := fun s₁ =>
      (confined_onSession (Q := fun _ => True) fun hs => hv.require _ _ _ hs).ignore
    refine confines_bind hrequire fun required => ?_
    cases required with
    | resolved path exports =>
      have hdependency : Confines R (modify fun s : State =>
          if s.dependencies.contains path then s
          else { s with dependencies := s.dependencies ++ [path] } : Check Unit) := by
        intro s₁
        refine confined_same (run_modify _ _) ?_ ?_ ?_ ?_ ?_ ?_ trivial <;> split <;> rfl
      exact confines_bind hdependency fun _ => confines_pure _
    | cyclic => exact confines_none notes_report.confines
    | notFound => exact hunknown request
  · exact hunknown _

theorem confines_calleeType (hv : v.Confines G) (h : call.Within R) :
    Confines R (call.calleeType v) := by
  rw [calleeType]
  split
  · next access haccess =>
    have hcallee := h.callee
    rw [Access.eq_of_ofExpr? haccess] at hcallee
    refine confines_bind (confines_asRead (hv.expr R _ hcallee.object)) fun object => ?_
    cases object with
    | none => exact confines_pure _
    | some object =>
      refine confines_bind (Access.confines_typeOn hv hcallee _) fun method => ?_
      cases method <;> exact confines_pure _
  · refine confines_bind (hv.value h.callee) fun callee => ?_
    cases callee <;> exact confines_pure _

theorem confines_verifyAny (hv : v.Confines G) {arguments : List Expr}
    (h : ∀ e ∈ arguments, R.Covers (.expr e)) : Confines R (verifyAny v arguments) := by
  induction arguments with
  | nil => exact confines_pure _
  | cons argument rest ih =>
    exact confines_bind (hv.value (h argument List.mem_cons_self)) fun _ =>
      ih fun e hmem => h e (List.mem_cons_of_mem _ hmem)

/-- The object of a method is in sight when it takes the type that the call has shown. -/
theorem confines_checkReceiver (h : call.Within R) (receiver this : Option TypeId) :
    Confines R (call.checkReceiver receiver this) := by
  have hrefine {object : Expr} (hobject : R.Covers (.expr object)) (receiver this : TypeId) :
      Confines R (refineReceiver object receiver this) := by
    refine fun s => confined_get_bind ?_
    split
    · next id =>
      split
      · next hcond =>
        simp only [Bool.and_eq_true] at hcond
        have hupdate : Confined R s
            (onArena fun a => a.forceUpdateVar s.focus.scope id.name this) fun _ _ => True :=
          confined_update hobject.identifier fun _ => hcond.2
        exact confined_bind hupdate fun _ _ _ _ _ => confined_pure trivial
      · exact confined_pure trivial
    · exact confined_pure trivial
  unfold checkReceiver
  split
  · next access _ _ _ _ haccess =>
    have hcallee := h.callee
    rw [Access.eq_of_ofExpr? haccess] at hcallee
    exact confines_bind notes_checkFits.confines fun _ => hrefine hcallee.object _ _
  · exact confines_pure _

theorem confines_apply (hv : v.Confines G) (h : call.Within R) (callee : TypeId)
    (receiver : Option TypeId) (shape : FunctionShape) :
    Confines R (call.apply v callee receiver shape) := by
  refine confines_get_bind fun s => ?_
  split
  · exact confines_none notes_report.confines
  refine confines_bind (confines_plainArguments hv h.arguments _) fun arguments => ?_
  refine confines_bind (call.notes_checkArity _ _).confines fun fits => ?_
  split
  · refine confines_bind (call.notes_solvedShape _ _ _).confines fun shape => ?_
    cases shape with
    | none => exact confines_pure _
    | some shape =>
      refine confines_bind (confines_checkArguments hv h.arguments _ _) fun _ => ?_
      exact confines_bind (confines_checkReceiver h _ _) fun _ => confines_pure _
  · exact confines_pure _

theorem confines_verifyTyped (hv : v.Confines G) (h : call.Within R) :
    Confines R (call.verifyTyped v) := by
  refine confines_bind (confines_calleeType hv h) fun callee => ?_
  split
  · exact confines_pure _
  split
  · exact confines_bind (confines_verifyAny hv h.arguments) fun _ => confines_pure _
  refine confines_get_bind fun s => ?_
  split
  · exact confines_none (call.notes_reportNonFunction _).confines
  · exact confines_apply hv h _ _ _

theorem confines_verify (hv : v.Confines G)
    (h : R.Covers (.expr (.call call.callee call.arguments call.span))) :
    Confines R (call.verify v) := by
  have hwithin : call.Within R :=
    ⟨h.visited List.mem_cons_self, fun e he =>
      h.visited (List.mem_cons_of_mem _ (List.mem_map_of_mem he))⟩
  refine fun s => confined_get_bind ?_
  split
  · next id hcallee =>
    split
    · exact confines_verifyTyped hv hwithin s
    next hlookup =>
    split
    · exact confines_verifyRequire hv call s
    split
    · next untyped hfound =>
      exact confined_infer hv hcallee h (by simpa using hlookup) hfound
    · exact confines_verifyTyped hv hwithin s
  · exact confines_verifyTyped hv hwithin s

theorem confines_verifyNew (hv : v.Confines G) (h : call.Within R) :
    Confines R (call.verifyNew v) := by
  have hconstruct (shape : FunctionShape) (object : TypeId) :
      Confines R (call.construct v shape object) := by
    refine confines_get_bind fun s => ?_
    refine confines_bind (confines_plainArguments hv h.arguments _) fun arguments => ?_
    refine confines_bind (call.notes_checkArity _ _).confines fun fits => ?_
    split
    · refine confines_bind (confines_checkArguments hv h.arguments _ _) fun _ => ?_
      split
      · exact confines_pure _
      · exact (notes_made _).confines
    · exact confines_pure _
  refine confines_bind (hv.value h.callee) fun callee => ?_
  cases callee with
  | none => exact confines_pure _
  | some callee =>
    refine confines_get_bind fun s => ?_
    split
    · exact confines_none (call.notes_reportNonFunction _).confines
    split
    · exact confines_none notes_report.confines
    split
    · exact confines_none notes_report.confines
    split
    · exact confines_none notes_report.confines
    · exact hconstruct _ _

end Call

/-! ## Assignments -/

theorem confines_widenObject {access : Access} (h : access.Within R) (value : TypeId) :
    Confines R (widenObject access value) := by
  refine fun s => confined_get_bind ?_
  split
  · next id field hobject _ =>
    have hname : R.names id.name := by
      have hcovers := h.object
      rw [hobject] at hcovers
      exact hcovers.identifier
    split
    · exact confined_pure trivial
    next current hcurrent =>
    refine confined_bind (notes_onTable? _).confined fun widened s₁ _ hl harena => ?_
    cases widened with
    | none => exact confined_pure trivial
    | some widened =>
      have hsight : (s₁.typeIn s.focus.scope id.name .writable).isSome := by
        rw [State.typeIn, harena, hl.globals]
        exact Option.isSome_of_eq_some hcurrent
      exact confined_bind (confined_update hname fun _ => hsight) fun _ _ _ _ _ => confined_pure trivial
  · exact confined_pure trivial

theorem confines_recordAssigned {left : Expr} (h : R.Covers (.expr left)) (value : TypeId) :
    Confines R (recordAssigned left value) := by
  have hfield (access : Access) : Confines R (recordField access value) := by
    refine confines_get_bind fun s => ?_
    split
    · exact confines_pure _
    split
    · split
      · exact confines_addKnownField
      · exact confines_pure _
    split
    · split
      · exact confines_addPrototypeField
      · exact confines_pure _
    · exact confines_pure _
  refine confines_get_bind fun s => ?_
  split
  · split
    · exact confines_restrict h.identifier
    · exact confines_pure _
  split
  · exact hfield _
  · exact confines_pure _

theorem confines_assignChecked (hv : v.Confines G) {left right : Expr} (hleft : R.Covers (.expr left))
    (hright : R.Covers (.expr right)) (type : TypeId) :
    Confines R (assignChecked v left type right) := by
  refine confines_bind (notes_targetType left type right).confines fun expected => ?_
  refine confines_bind (hv.into hright _) fun value => ?_
  cases value with
  | none => exact confines_pure _
  | some value =>
    refine confines_bind notes_checkFits.confines fun _ => ?_
    exact confines_bind (confines_recordAssigned hleft value) fun _ => confines_pure _

theorem confined_assignFreely (hv : v.Confines G) {right : Expr} (h : R.Covers (.expr right))
    {accept : TypeId → Check Unit}
    (haccept : ∀ value s', s.Fits R → s.Leaves R s' → Confined R s' (accept value) fun _ _ => True) :
    Confined R s (assignFreely v right accept) fun _ _ => True := by
  refine confined_bind (hv.into h _ s) fun value s' hs hl _ => ?_
  cases value with
  | none => exact confined_pure trivial
  | some value =>
    exact confined_bind (haccept value s' hs hl) fun _ _ _ _ _ => confined_pure trivial

/-- A target that waits for its first value is a name in sight. -/
theorem typeIn_of_growing (hv : v.Confines G) {id : Identifier} {type : TypeId} {s' : State}
    (hrun : (asTarget (v.expr (.identifier id))).run s = (.ok (some type), s'))
    (hgrows : type.growsFreely) : (s.typeIn s.focus.scope id.name .writable).isSome := by
  rw [asTarget, run_withFocus] at hrun
  rcases hinner : (v.expr (.identifier id)).run
    { s with focus := { s.focus with mode := .writable, isTarget := true } } with ⟨result, s₁⟩
  rw [hinner] at hrun
  cases hrun
  have hread := hv.identifier _ _ _ _ hinner
  rw [verifyIdentifier, run_get_bind] at hread
  split at hread
  · next type' hlookup => exact Option.isSome_of_eq_some hlookup
  split at hread
  · cases hread
    cases hgrows
  split at hread
  · cases hread
  split at hread <;> cases hread

/-- A variable that waits for its first value is in sight, and stays so while a value is verified. -/
theorem confined_assignGrowing (hv : v.Confines G) {id : Identifier} {right : Expr}
    (hleft : R.Covers (.expr (.identifier id))) (hright : R.Covers (.expr right))
    (hsight : (s.typeIn s.focus.scope id.name .writable).isSome) :
    Confined R s (assignFreely v right fun value => do
      let scope := (← get).focus.scope
      let _ ← onArena fun a => a.forceUpdateVar scope id.name value) fun _ _ => True := by
  refine confined_assignFreely hv hright fun value s₁ hs hl => confined_get_bind ?_
  have hbound : (s₁.typeIn s₁.focus.scope id.name .writable).isSome := by
    rw [hl.focus]
    exact hl.typeIn_isSome hs hs.focus hsight
  exact confined_bind (confined_update hleft.identifier fun _ => hbound)
    fun _ _ _ _ _ => confined_pure trivial

theorem confines_verifyAssignment (hv : v.Confines G) (operator : String) {left right : Expr}
    (span : Span) (hleft : R.Covers (.expr left)) (hright : R.Covers (.expr right)) :
    Confines R (verifyAssignment v operator left right span) := by
  rw [verifyAssignment]
  split
  · exact confines_verifyCompound hv operator span hleft hright
  intro s
  have htarget : Confined R s (asTarget (v.expr left)) fun type s' =>
      ∀ found, type = some found → found.growsFreely → ∀ id, left = .identifier id →
        (s'.typeIn s'.focus.scope id.name .writable).isSome := by
    refine fun hs => ?_
    obtain ⟨hl, -, hE⟩ := confines_asTarget (hv.expr R left hleft) s hs
    refine ⟨hl, fun type htype found hfound hgrows id hid => ?_, hE⟩
    subst hfound hid
    rw [hl.focus]
    exact hl.typeIn_isSome hs hs.focus (typeIn_of_growing hv (Prod.ext htype rfl) hgrows)
  refine confined_bind htarget fun type s₁ _ _ hsight => ?_
  cases type with
  | none => exact confined_pure trivial
  | some type =>
    simp only [assignTo]
    split
    · refine confined_assignFreely hv hright fun value s₂ _ _ => ?_
      exact confined_same rfl rfl rfl rfl rfl rfl rfl trivial
    split
    · next name hname =>
      rw [growingName?] at hname
      split at hname
      · next hgrows =>
        obtain ⟨id, hid, rfl⟩ := Option.map_eq_some_iff.mp hname
        have hleft' : left = .identifier id := by
          cases left <;> cases hid
          rfl
        subst hleft'
        exact confined_assignGrowing hv hleft hright (hsight type rfl hgrows id rfl)
      · cases hname
    · next access _ haccess =>
      have hwithin : access.Within R := by
        rw [growingAccess?] at haccess
        split at haccess
        · rw [Access.Within, ← Access.eq_of_ofExpr? haccess]
          exact hleft
        · cases haccess
      exact confined_assignFreely hv hright fun value s₂ _ _ => confines_widenObject hwithin value s₂
    · exact confines_assignChecked hv hleft hright type s₁

end HeaderCheck.Verify
