import HeaderCheck.Proofs.Verify.Tandem.Functions

/-!
# HeaderCheck.Proofs.Verify.Tandem.Expressions

Expressions without branches side by side.

A part that stands for its whole in the same slot, such as the object of an access, may be verified
with another slot where the whole may. All other parts are verified with slots of their own.
-/

namespace HeaderCheck.Verify

open HeaderCheck.Scope (Arena)
open HeaderCheck.Script
open HeaderCheck.Types (FunctionShape ObjectShape Param TypeId)

variable {C : Comparison} {p q : Both C} {π : Pairing C.exact} {v v' : Visitor}

/-! ## Literals -/

theorem matched_verifyElements (hv : v.Tandem C v') (hp : p.At π) (context : Option TypeId)
    (element : TypeId) {elements elements' : List Expr} (h : ExprsLike π elements elements') :
    Matched p (verifyElements v context element elements)
      (verifyElements v' context element elements') := by
  induction elements generalizing p elements' with
  | nil =>
    cases h
    exact tandem_pure trivial
  | cons e rest ih =>
    cases h with
    | @cons _ _ e' _ rest' hfirst hothers =>
      have hrest {q : Both C} (hq : q.At π) (fits : Bool) : Matched q (do
            let restFits ← verifyElements v context element rest
            return fits && restFits) (do
            let restFits ← verifyElements v' context element rest'
            return fits && restFits) :=
        (ih hq hothers).bind fun _ _ _ => tandem_pure trivial
      refine (hv.expecting hp hfirst context).bind fun actual q hq => ?_
      cases actual with
      | some actual =>
        exact (matched_checkFits hfirst.span element actual).bind fun fits r hr =>
          hrest (hp.after (hq.trans hr)) fits
      | none => exact hrest (hp.after hq) false

theorem matched_verifyArray (hv : v.Tandem C v') (hp : p.At π) (heven : p.Even)
    {elements elements' : List Expr} (h : ExprsLike π elements elements') :
    Matched p (verifyArray v elements) (verifyArray v' elements') := by
  refine tandem_get_bind fun ht => ?_
  rw [Both.Even] at heven
  rw [heven, ht.table_eq]
  cases h with
  | nil =>
    simp only
    split
    · exact tandem_pure trivial
    · exact (matched_onTable _).bind fun free _ _ => matched_made _
  | cons hfirst hothers =>
    refine (hv.expecting hp hfirst _).bind_some rfl rfl fun firstType q hq => ?_
    refine (matched_verifyElements hv (hp.after hq) _ _ hothers).bind fun fits _ _ => ?_
    split
    · exact matched_made _
    · exact tandem_pure trivial

theorem matched_verifyFields (hv : v.Tandem C v') (hp : p.At π) (context : Option ObjectShape)
    {properties properties' : List Property} (h : PropertiesLike π properties properties') :
    Matched p (verifyFields v context properties) (verifyFields v' context properties') := by
  induction properties generalizing p properties' with
  | nil =>
    cases h
    exact tandem_pure trivial
  | cons property rest ih =>
    cases h with
    | cons hkey hkind hvalue hothers =>
      simp only [verifyFields, hkey, hkind]
      split
      · exact tandem_throw _
      cases property.keyName? with
      | none => exact tandem_throw _
      | some name =>
        refine (hv.into hp hvalue _).bind fun type q hq => ?_
        exact (ih (hp.after hq) hothers).bind fun _ _ _ => tandem_pure trivial

theorem matched_verifyObject (hv : v.Tandem C v') (hp : p.At π)
    {properties properties' : List Property} (h : PropertiesLike π properties properties')
    (heven : properties.isEmpty = false → p.Even) :
    Matched p (verifyObject v properties) (verifyObject v' properties') := by
  simp only [verifyObject, h.isEmpty_eq]
  split
  · exact tandem_pure trivial
  next hempty =>
  have heven := heven (by simpa using hempty)
  refine tandem_get_bind fun ht => ?_
  rw [Both.Even] at heven
  rw [heven, ht.table_eq]
  exact (matched_verifyFields hv hp _ h).bind_some rfl rfl fun _ _ _ => matched_made _

/-! ## Accesses -/

namespace Access

variable {access access' : Access}

/-- The index of an access goes to the same slot as the access. -/
def Slots (p : Both C) (access : Access) : Prop :=
  p.Slots access.object ∧ (access.computed → p.Slots access.property)

theorem Slots.after (h : access.Slots p) (hq : p.After q) : access.Slots q :=
  ⟨h.1.after hq, fun hcomputed => (h.2 hcomputed).after hq⟩

theorem Like.matched_typeOn (hv : v.Tandem C v') (hp : p.At π) (h : access.Like π access')
    (hslot : access.Slots p) (object : TypeId) :
    Matched p (access.typeOn v object) (access'.typeOn v' object) := by
  simp only [typeOn, h.computed, h.name?_eq]
  split
  · next hcomputed =>
    refine (hv.asRead hp h.property (hslot.2 hcomputed)).bind_some rfl rfl fun index q hq => ?_
    simp only
    split
    · exact tandem_pure trivial
    refine tandem_get_bind fun ht => ?_
    simp only [ht.table_eq]
    split
    · exact h.matched_indexed _ _ _
    · split
      · exact h.matched_indexed _ _ _
      · exact h.matched_literalPart object
    · exact h.matched_literalPart object
  split
  · exact h.matched_fieldType object _
  · exact tandem_pure trivial

theorem Like.matched_verify (hv : v.Tandem C v') (hp : p.At π) (h : access.Like π access')
    (hslot : access.Slots p) : Matched p (access.verify v) (access'.verify v') := by
  refine (hv.asRead hp h.object hslot.1).bind fun object q hq => ?_
  cases object with
  | some object => exact h.matched_typeOn hv (hp.after hq) (hslot.after hq) object
  | none => exact tandem_pure trivial

end Access

/-! ## Operators -/

theorem matched_verifyBinary (hv : v.Tandem C v') (hp : p.At π) (operator : String)
    {left left' right right' : Expr} (hleft : Expr.Like π left left')
    (hright : Expr.Like π right right') {span span' : Span} (hplace : SamePlace C.exact span span') :
    Matched p (verifyBinary v operator left right span)
      (verifyBinary v' operator left' right' span') := by
  refine (hv.value hp hleft).bind fun left q hq => ?_
  refine (hv.value (hp.after hq) hright).bind fun right _ _ => ?_
  split
  · exact matched_applyOperator operator hplace _
  · exact tandem_pure trivial

theorem matched_verifyUnary (hv : v.Tandem C v') (hp : p.At π) (operator : String)
    {argument argument' : Expr} (h : Expr.Like π argument argument') {span span' : Span}
    (hplace : SamePlace C.exact span span') :
    Matched p (verifyUnary v operator argument span) (verifyUnary v' operator argument' span') := by
  refine (hv.value hp h).bind fun argument _ _ => ?_
  split
  · exact matched_applyOperator operator hplace _
  · exact tandem_pure trivial

theorem matched_verifyCompound (hv : v.Tandem C v') (hp : p.At π) (operator : String)
    {left left' right right' : Expr} (hleft : Expr.Like π left left')
    (hright : Expr.Like π right right') (hslot : p.Slots left) {span span' : Span}
    (hplace : SamePlace C.exact span span') :
    Matched p (verifyCompound v operator left right span)
      (verifyCompound v' operator left' right' span') := by
  refine (hv.asRead hp hleft hslot).bind fun leftType q hq => ?_
  refine (hv.value (hp.after hq) hright).bind fun rightType q₁ hq₁ => ?_
  have hafter := hq.trans hq₁
  split
  · refine (matched_applyOperator _ hplace _).bind_some rfl rfl fun result q₂ hq₂ => ?_
    have hafter := hafter.trans hq₂
    refine (hv.asTarget (hp.after hafter) hleft (hslot.after hafter)).bind_some rfl rfl
      fun target _ _ => ?_
    simp only
    split
    · exact (matched_checkFits hplace _ _).bind fun _ _ _ => tandem_pure trivial
    · exact tandem_pure trivial
  · exact tandem_pure trivial

/-! ## Calls -/

namespace Call

variable {call call' : Call}

theorem matched_plainArguments (hv : v.Tandem C v') (hp : p.At π) {arguments arguments' : List Expr}
    (h : ExprsLike π arguments arguments') (params : List Param) :
    Matched p (plainArguments v arguments params) (plainArguments v' arguments' params) := by
  induction arguments generalizing p arguments' params with
  | nil =>
    cases h
    exact tandem_pure trivial
  | cons argument rest ih =>
    cases h with
    | cons hfirst hothers =>
      simp only [plainArguments, isFunctionExpr_eq hfirst]
      split
      · simp only [pure_bind]
        exact (ih hp hothers _).bind fun _ _ _ => tandem_pure trivial
      · refine tandem_get_bind fun ht => ?_
        rw [ht.table_eq]
        refine (hv.into hp hfirst _).bind fun _ q hq => ?_
        exact (ih (hp.after hq) hothers _).bind fun _ _ _ => tandem_pure trivial

/-- An argument that has a type is checked, and then the others are. -/
theorem matched_checkPassed {rest rest' : Check Unit} {span span' : Span}
    (hplace : SamePlace C.exact span span') (param : Param) (passed : Option TypeId)
    (h : ∀ q, p.After q → Matched q rest rest') :
    Matched p (do
        match passed with
        | some actual => checkArgument span param actual
        | none => pure ()
        rest) (do
        match passed with
        | some actual => checkArgument span' param actual
        | none => pure ()
        rest') := by
  cases passed with
  | none => exact .of_twins fun ht => h p (.refl ht)
  | some actual => exact (matched_checkArgument hplace param actual).bind fun _ q hq => h q hq

theorem matched_checkArguments (hv : v.Tandem C v') (hp : p.At π) {arguments arguments' : List Expr}
    (h : ExprsLike π arguments arguments') (params : List Param) (verified : List (Option TypeId)) :
    Matched p (checkArguments v arguments params verified)
      (checkArguments v' arguments' params verified) := by
  induction arguments generalizing p arguments' params verified with
  | nil =>
    cases h
    exact tandem_pure trivial
  | cons argument rest ih =>
    cases h with
    | @cons _ _ argument' _ rest' hfirst hothers =>
      cases params with
      | nil => exact tandem_pure trivial
      | cons param params =>
        cases verified with
        | nil => exact tandem_pure trivial
        | cons type types =>
          have hrest {q : Both C} (hq : q.At π) (r : Both C) (hr : q.After r) :
              Matched r (checkArguments v rest params types)
                (checkArguments v' rest' params types) :=
            ih (hq.after hr) hothers params types
          simp only [checkArguments, isFunctionExpr_eq hfirst]
          split
          · exact (hv.into hp hfirst _).bind fun actual q hq =>
              matched_checkPassed hfirst.span param actual (hrest (hp.after hq))
          · exact matched_checkPassed hfirst.span param type (hrest hp)

theorem Like.matched_verifyRequire (hv : v.Tandem C v') (h : call.Like π call') :
    Matched p (call.verifyRequire v) (call'.verifyRequire v') := by
  have hreport {q : Both C} (kind : Report.Kind) {name name' : String}
      (hname : q.Twins → C.exact → name' = name) :
      Matched q (do report kind call.span [("moduleName", name)]; pure none : Check (Option TypeId))
        (do report kind call'.span [("moduleName", name')]; pure none) :=
    (matched_report h.place fun ht hexact => by rw [hname ht hexact]).noResult
  have hsnippet {q : Both C} (ht : q.Twins) (hexact : C.exact) :
      q.right.source.snippet call'.span = q.left.source.snippet call.span := by
    rw [ht.source hexact, h.place hexact]
  refine tandem_get_bind fun ht => ?_
  have harguments := h.arguments
  generalize call.arguments = arguments at harguments
  generalize call'.arguments = arguments' at harguments
  have hother : Matched p (verifyRequire.unknown call (p.left.source.snippet call.span))
      (verifyRequire.unknown call' (p.right.source.snippet call'.span)) :=
    hreport _ fun _ hexact => hsnippet ht hexact
  cases harguments with
  | nil => exact hother
  | cons hfirst hothers =>
    cases hothers with
    | cons hsecond _ => cases hfirst <;> exact hother
    | nil =>
      cases hfirst with
      | literal hvalue _ _ =>
        simp only [Literal.string?, hvalue, ht.path]
        split
        · exact hother
        next request _ =>
        refine (matched_onSession (hv.require p.left.source.path request)).bind
          fun required q _ => ?_
        cases required with
        | resolved path exports =>
          have hdependency : Matched q (modify fun s : State =>
                if s.dependencies.contains path then s
                else { s with dependencies := s.dependencies ++ [path] } : Check Unit)
              (modify fun s : State =>
                if s.dependencies.contains path then s
                else { s with dependencies := s.dependencies ++ [path] }) := by
            refine matched_modify (fun ht => ?_) ?_ ?_ ?_
            · rw [ht.dependencies]
              split
              · exact ht
              · exact { ht with dependencies := rfl }
            · split <;> rfl
            all_goals split <;> exact ⟨rfl, rfl, rfl⟩
          exact hdependency.bind fun _ _ _ => tandem_pure trivial
        | cyclic => exact hreport _ fun _ _ => rfl
        | notFound => exact hreport _ fun _ _ => rfl
      | _ => exact hother

/-- The callee goes to the same slot as the call, or has one of its own. -/
def Slots (p : Both C) (call : Call) : Prop :=
  ∀ access, Access.ofExpr? call.callee = some access → access.Slots p

theorem Slots.after (h : call.Slots p) (hq : p.After q) : call.Slots q :=
  fun access haccess => (h access haccess).after hq

theorem Like.matched_calleeType (hv : v.Tandem C v') (hp : p.At π) (h : call.Like π call')
    (hslot : call.Slots p) : Matched p (call.calleeType v) (call'.calleeType v') := by
  have hrel := Access.ofExpr?_rel h.callee
  simp only [calleeType]
  cases haccess : Access.ofExpr? call.callee with
  | none =>
    rw [haccess] at hrel
    generalize Access.ofExpr? call'.callee = found at hrel
    cases hrel
    exact (hv.value hp h.callee).bind_some rfl rfl fun _ _ _ => tandem_pure trivial
  | some access =>
    have hslot := hslot access haccess
    rw [haccess] at hrel
    generalize Access.ofExpr? call'.callee = found at hrel
    cases hrel with
    | some hlike =>
      refine (hv.asRead hp hlike.object hslot.1).bind_some rfl rfl fun object q hq => ?_
      exact (hlike.matched_typeOn hv (hp.after hq) (hslot.after hq) object).bind_some rfl rfl
        fun _ _ _ => tandem_pure trivial

theorem matched_verifyAny (hv : v.Tandem C v') (hp : p.At π) {arguments arguments' : List Expr}
    (h : ExprsLike π arguments arguments') :
    Matched p (verifyAny v arguments) (verifyAny v' arguments') := by
  induction arguments generalizing p arguments' with
  | nil =>
    cases h
    exact tandem_pure trivial
  | cons argument rest ih =>
    cases h with
    | cons hfirst hothers =>
      exact (hv.value hp hfirst).bind fun _ q hq => ih (hp.after hq) hothers

theorem matched_refineReceiver {object object' : Expr} (h : Expr.Like π object object')
    (receiver this : TypeId) :
    Matched p (refineReceiver object receiver this) (refineReceiver object' receiver this) := by
  refine tandem_get_bind fun ht => ?_
  cases h with
  | identifier hname _ =>
    simp only [hname, ht.table_eq, ht.declaredType_eq, ht.scope]
    split
    · exact (matched_forceUpdateVar _ _ _).bind fun _ _ _ => tandem_pure trivial
    · exact tandem_pure trivial
  | _ => exact tandem_pure trivial

theorem Like.matched_checkReceiver (h : call.Like π call') (receiver this : Option TypeId) :
    Matched p (call.checkReceiver receiver this) (call'.checkReceiver receiver this) := by
  have hrel := Access.ofExpr?_rel h.callee
  simp only [checkReceiver]
  generalize Access.ofExpr? call.callee = access at hrel
  generalize Access.ofExpr? call'.callee = access' at hrel
  cases hrel with
  | none => exact tandem_pure trivial
  | some haccess =>
    cases receiver with
    | none => exact tandem_pure trivial
    | some receiver =>
      cases this with
      | none => exact tandem_pure trivial
      | some this =>
        exact (matched_checkFits haccess.object.span this receiver).bind fun _ _ _ =>
          matched_refineReceiver haccess.object receiver this

theorem Like.matched_apply (hv : v.Tandem C v') (hp : p.At π) (h : call.Like π call')
    (callee : TypeId) (receiver : Option TypeId) (shape : FunctionShape) :
    Matched p (call.apply v callee receiver shape) (call'.apply v' callee receiver shape) := by
  refine tandem_get_bind fun ht => ?_
  simp only [ht.table_eq, h.misusesConstructor_eq]
  split
  · exact (matched_report_same h.place).noResult
  refine (matched_plainArguments hv hp h.arguments _).bind fun arguments q hq => ?_
  refine (h.matched_checkArity _ fun hexact => h.name_eq ht hexact).bind fun fits q₁ hq₁ => ?_
  split
  · refine (h.matched_solvedShape _ _ _).bind_some rfl rfl fun shape q₂ hq₂ => ?_
    have hp₂ := hp.after ((hq.trans hq₁).trans hq₂)
    refine (matched_checkArguments hv hp₂ h.arguments _ _).bind fun _ _ _ => ?_
    exact (h.matched_checkReceiver _ _).bind fun _ _ _ => tandem_pure trivial
  · exact tandem_pure trivial

theorem Like.matched_verifyTyped (hv : v.Tandem C v') (hp : p.At π) (h : call.Like π call')
    (hslot : call.Slots p) : Matched p (call.verifyTyped v) (call'.verifyTyped v') := by
  refine (h.matched_calleeType hv hp hslot).bind_some rfl rfl fun (callee, receiver) q hq => ?_
  have hp₁ := hp.after hq
  simp only
  split
  · exact (matched_verifyAny hv hp₁ h.arguments).bind fun _ _ _ => tandem_pure trivial
  refine tandem_get_bind fun ht => ?_
  rw [ht.table_eq]
  split
  · exact (h.matched_reportNonFunction _).noResult
  · exact h.matched_apply hv hp₁ _ _ _

/-- The call is the first one of a function without a type. -/
def Infers (call : Call) (s : State) : Bool :=
  match call.callee with
  | .identifier id => (s.lookup id.name).isNone && id.name ≠ requireName && s.isUntyped id.name
  | _ => false

theorem Like.matched_verify (hv : v.Tandem C v') (hp : p.At π) (h : call.Like π call')
    (hslot : call.Slots p) (hsettled : call.Infers p.left → p.Settled) :
    Matched p (call.verify v) (call'.verify v') := by
  have htyped := h.matched_verifyTyped hv hp hslot
  refine tandem_get_bind fun ht => ?_
  have hcallee := h.callee
  rw [Infers] at hsettled
  generalize call.callee = callee at hcallee hsettled
  generalize call'.callee = callee' at hcallee
  cases hcallee with
  | @identifier _ id id' hname _ =>
    simp only [hname, ht.lookup_eq, ht.scope]
    split
    · exact htyped
    next hlookup =>
    split
    · exact h.matched_verifyRequire hv
    next hrequire =>
    have hrel := ht.arena.getFunction?_rel p.left.focus.scope id.name
    cases hfound : p.left.arena.getFunction? p.left.focus.scope id.name with
    | none =>
      rw [hfound] at hrel
      generalize p.right.arena.getFunction? p.left.focus.scope id.name = found at hrel
      cases hrel
      exact htyped
    | some untyped =>
      have huntyped : p.left.isUntyped id.name := by rw [State.isUntyped, hfound]; rfl
      have hsettled := hsettled (by simp [hrequire, huntyped, Option.not_isSome_iff_eq_none.mp hlookup])
      obtain ⟨x, hfind, hget⟩ := Arena.find?_of_getFunction? hfound
      have hscope := Arena.scope?_of_mem_chainWithin (List.mem_of_find?_eq_some hfind)
      have hin := (ht.sound.untyped _ _ _ hscope (Dict.mem_entries_of_get? hget)).1
      have howns : p.left.Owns untyped.definedIn := by
        have huntyped : x.2.untyped.contains id.name := by simp [Dict.contains, hget]
        rw [show untyped.definedIn = x.1 from hin]
        exact ⟨x.2, hscope, ht.sound.not_branch_of_untyped hscope huntyped⟩
      rw [hfound] at hrel
      generalize p.right.arena.getFunction? p.left.focus.scope id.name = found at hrel
      cases hrel with
      | some htwins => exact matched_infer hv hp hsettled h htwins howns
  | _ => exact htyped

theorem Like.matched_construct (hv : v.Tandem C v') (hp : p.At π) (h : call.Like π call')
    (shape : FunctionShape) (object : TypeId) :
    Matched p (call.construct v shape object) (call'.construct v' shape object) := by
  refine tandem_get_bind fun ht => ?_
  refine (matched_plainArguments hv hp h.arguments _).bind fun arguments q hq => ?_
  refine (h.matched_checkArity _ fun hexact => h.name_eq ht hexact).bind fun fits q₁ hq₁ => ?_
  split
  · refine (matched_checkArguments hv (hp.after (hq.trans hq₁)) h.arguments _ _).bind fun _ _ _ => ?_
    split
    · exact tandem_pure trivial
    · exact matched_made _
  · exact tandem_pure trivial

theorem Like.matched_verifyNew (hv : v.Tandem C v') (hp : p.At π) (h : call.Like π call') :
    Matched p (call.verifyNew v) (call'.verifyNew v') := by
  refine (hv.value hp h.callee).bind_some rfl rfl fun callee q hq => tandem_get_bind fun ht => ?_
  have hreport (kind : Report.Kind) (rest : List (String × String)) :
      Matched q (do report kind call.span (("funcName", call.name q.left) :: rest)
                    pure none : Check (Option TypeId))
        (do report kind call'.span (("funcName", call'.name q.right) :: rest); pure none) :=
    (matched_report h.place fun ht hexact => by rw [h.name_eq ht hexact]).noResult
  simp only [ht.table_eq, ht.format_eq, h.constructorName?_eq]
  split
  · exact (h.matched_reportNonFunction _).noResult
  split
  · exact hreport _ _
  split
  · exact hreport _ _
  split
  · exact hreport _ _
  · exact h.matched_construct hv (hp.after hq) _ _

end Call

/-! ## Assignments -/

theorem matched_widenObject {access access' : Access} (h : access.Like π access') (value : TypeId) :
    Matched p (widenObject access value) (widenObject access' value) := by
  refine tandem_get_bind fun ht => ?_
  have hobject := h.object
  simp only [h.name?_eq, ht.declaredType_eq, ht.scope]
  generalize access.object = object at hobject
  generalize access'.object = object' at hobject
  cases access.name? with
  | none => cases hobject <;> exact tandem_pure trivial
  | some field =>
    cases hobject with
    | identifier hname _ =>
      simp only [hname]
      split
      · exact tandem_pure trivial
      refine (matched_onTable? _).bind fun widened _ _ => ?_
      cases widened with
      | none => exact tandem_pure trivial
      | some widened => exact (matched_forceUpdateVar _ _ _).bind fun _ _ _ => tandem_pure trivial
    | _ => exact tandem_pure trivial

theorem matched_restrict {id : Scope.ScopeId} (hid : C.narrowing id) (name : String) (type : TypeId) :
    Matched p (onArena fun a => a.restrict id name type)
      (onArena fun a => a.restrict id name type) :=
  matched_onArena (fun ht => ht.arena.restrict id name type)
    fun _ => Arena.onward_restrict hid name type

theorem matched_recordField {access access' : Access} (h : access.Like π access') (value : TypeId) :
    Matched p (recordField access value) (recordField access' value) := by
  refine tandem_get_bind fun ht => ?_
  have hinfo := ht.arena.functionInfo?_rel p.left.focus.scope
  have hconstructor : ((p.right.arena.functionInfo? p.left.focus.scope).any fun info => info.isConstructor) =
      (p.left.arena.functionInfo? p.left.focus.scope).any fun info => info.isConstructor := by
    generalize p.left.arena.functionInfo? p.left.focus.scope = info at hinfo
    generalize p.right.arena.functionInfo? p.left.focus.scope = info' at hinfo
    cases hinfo with
    | none => rfl
    | some hinfo => exact hinfo.isConstructor
  simp only [h.name?_eq, h.object.isThis_eq, prototypeOwner?_eq h.object, ht.scope, hconstructor,
    ht.inFileScope_eq]
  split
  · exact tandem_pure trivial
  split
  · split
    · refine matched_onArena (fun ht => ht.arena.modifyFunction _ ?_)
        fun _ => Arena.onward_modifyFunction _ ?_
      · intro found info info' _ hinfo
        rw [hinfo.knownFields]
        split
        · exact hinfo
        · exact { hinfo with knownFields := rfl }
      · intro info
        split <;> rfl
    · exact tandem_pure trivial
  split
  · split
    · exact matched_onArena (fun ht => ht.arena.addPrototypeField _ _ _ _)
        fun _ => Arena.onward_addPrototypeField _ _ _ _
    · exact tandem_pure trivial
  · exact tandem_pure trivial

theorem matched_recordAssigned (hp : p.At π) {left left' : Expr} (h : Expr.Like π left left')
    (value : TypeId) : Matched p (recordAssigned left value) (recordAssigned left' value) := by
  have haccess := Access.ofExpr?_rel h
  refine tandem_get_bind fun ht => ?_
  cases h with
  | identifier hname _ =>
    simp only [hname, ht.inBranch_eq, ht.scope]
    split
    · exact matched_restrict hp.narrowing _ _
    · exact tandem_pure trivial
  | member hobject hproperty hplace =>
    cases haccess with
    | some haccess => exact matched_recordField haccess value
  | _ => exact tandem_pure trivial

theorem matched_assignChecked (hv : v.Tandem C v') (hp : p.At π) {left left' right right' : Expr}
    (hleft : Expr.Like π left left') (hright : Expr.Like π right right') (type : TypeId) :
    Matched p (assignChecked v left type right) (assignChecked v' left' type right') := by
  refine (matched_targetType hleft hright type).bind fun expected q hq => ?_
  refine (hv.into (hp.after hq) hright _).bind_some rfl rfl fun value q₁ hq₁ => ?_
  refine (matched_checkFits hright.span _ _).bind fun _ q₂ hq₂ => ?_
  exact (matched_recordAssigned (hp.after ((hq.trans hq₁).trans hq₂)) hleft value).bind
    fun _ _ _ => tandem_pure trivial

theorem matched_assignFreely (hv : v.Tandem C v') (hp : p.At π) {right right' : Expr}
    (h : Expr.Like π right right') {accept accept' : TypeId → Check Unit}
    (haccept : ∀ value q, p.After q → Matched q (accept value) (accept' value)) :
    Matched p (assignFreely v right accept) (assignFreely v' right' accept') :=
  (hv.into hp h none).bind_some rfl rfl fun value q hq =>
    (haccept value q hq).bind fun _ _ _ => tandem_pure trivial

theorem matched_assignTo (hv : v.Tandem C v') (hp : p.At π) {left left' right right' : Expr}
    (hleft : Expr.Like π left left') (hright : Expr.Like π right right') (type : TypeId) :
    Matched p (assignTo v left type right) (assignTo v' left' type right') := by
  simp only [assignTo, growingName?_eq hleft]
  split
  · refine matched_assignFreely hv hp hright fun value q _ => ?_
    exact matched_modify (fun ht => { ht with exports := rfl }) rfl ⟨rfl, rfl, rfl⟩ ⟨rfl, rfl, rfl⟩
  cases growingName? left type with
  | some name =>
    refine matched_assignFreely hv hp hright fun value q _ => tandem_get_bind fun ht => ?_
    rw [ht.scope]
    exact (matched_forceUpdateVar _ _ _).bind fun _ _ _ => tandem_pure trivial
  | none =>
    have hrel := growingAccess?_rel hleft type
    generalize growingAccess? left type = access at hrel
    generalize growingAccess? left' type = access' at hrel
    cases hrel with
    | some haccess =>
      exact matched_assignFreely hv hp hright fun value _ _ => matched_widenObject haccess value
    | none => exact matched_assignChecked hv hp hleft hright type

theorem matched_verifyAssignment (hv : v.Tandem C v') (hp : p.At π) (operator : String)
    {left left' right right' : Expr} (hleft : Expr.Like π left left')
    (hright : Expr.Like π right right') (hslot : p.Slots left) {span span' : Span}
    (hplace : SamePlace C.exact span span') :
    Matched p (verifyAssignment v operator left right span)
      (verifyAssignment v' operator left' right' span') := by
  rw [verifyAssignment, verifyAssignment]
  split
  · exact matched_verifyCompound hv hp operator hleft hright hslot hplace
  · exact (hv.asTarget hp hleft hslot).bind_some rfl rfl fun type q hq =>
      matched_assignTo hv (hp.after hq) hleft hright type

end HeaderCheck.Verify
