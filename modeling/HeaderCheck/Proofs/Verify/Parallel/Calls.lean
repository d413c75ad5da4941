import HeaderCheck.Proofs.Verify.Parallel.Access

/-!
# HeaderCheck.Proofs.Verify.Parallel.Calls

Names, literals and calls in two runs.
-/

namespace HeaderCheck.Verify

open HeaderCheck.Project (Error Pact)
open HeaderCheck.Scope (UntypedFunction)
open HeaderCheck.Script (Expr Identifier Literal Property)
open HeaderCheck.Types (Field FunctionShape ObjectShape Param Table TypeId plainBrand)

variable {P : Pact} {p q r : State × State}

/-! ## Names and literals -/

theorem lockstep_verifyIdentifier (id : Identifier) :
    Lockstep (states P) p (verifyIdentifier id) (verifyIdentifier id) (Handles? P) := by
  refine .get_bind fun hp => ?_
  have hlookup := hp.lookup_rel id.name
  rw [hp.isUntyped_eq, hp.unknown]
  generalize p.1.lookup id.name = type at hlookup
  generalize p.2.lookup id.name = type' at hlookup
  cases hlookup with
  | some hi => exact .pure fun _ => .some hi
  | none =>
    dsimp only
    split
    · exact .pure fun hp => .some ((states P).same_fixed hp (by decide))
    split
    · exact lockstep_report_none _ _ fun _ => rfl
    split
    · exact .pure fun _ => .none
    · exact lockstep_report_none _ _ fun _ => rfl

theorem literalType_fixed (literal : Literal) :
    (literalType literal).index < Table.builtins.length := by
  rw [literalType]
  cases literal.kind <;> decide

section Literals

variable {v v' : Visitor} (hv : VisitsAlike P v v')

include hv

theorem lockstep_verifyElements {context context' : Option TypeId} (hc : Handles? P context context' p)
    {i i' : TypeId} (hi : Handles P i i' p) (elements : List Expr) :
    Lockstep (states P) p (verifyElements v context i elements) (verifyElements v' context' i' elements)
      fun fits fits' _ => fits = fits' := by
  induction elements generalizing p with
  | nil => exact .pure fun _ => rfl
  | cons e rest ih =>
    refine .bind (hv.expecting hc e) fun actual actual' q hq hactual => ?_
    have hrest : ∀ {r}, (states P).Onward p r → ∀ fits, Lockstep (states P) r
        (do let restFits ← verifyElements v context i rest; return fits && restFits)
        (do let restFits ← verifyElements v' context' i' rest; return fits && restFits)
        fun fits fits' _ => fits = fits' := fun hr fits =>
      .bind (ih (hr.same? hc) (hr.same hi)) fun a a' _ _ ha => .pure fun _ => ha ▸ rfl
    cases hactual with
    | none => exact hrest hq false
    | some hactual =>
      refine .bind (lockstep_checkFits _ (hq.same hi) hactual) fun fits fits' r hr hfits => ?_
      subst hfits
      exact hrest (hq.trans hr) fits

theorem lockstep_verifyArray (elements : List Expr) :
    Lockstep (states P) p (verifyArray v elements) (verifyArray v' elements) (Handles? P) := by
  refine .get_bind fun hp => ?_
  have harray {q : State × State} {i i' : TypeId} (hi : Handles P i i' q) : Lockstep (states P) q
      (do return some (← onTable fun table => table.array i))
      (do return some (← onTable fun table => table.array i')) (Handles? P) :=
    .bind (.of_meets fun hq => lockstep_add
      (.generic ((states P).same_fixed hq (by decide)) (.cons hi .nil)) trivial trivial)
      fun _ _ _ _ hi => .pure fun _ => .some hi
  have hexpected := hp.focus.expected
  have hcontext := Types.rel_bind hexpected fun _ _ hi => Table.arrayElement?_same hp.left hp.right hi
  dsimp only
  generalize p.1.focus.expected.bind p.1.table.arrayElement? = context at hcontext
  generalize p.2.focus.expected.bind p.2.table.arrayElement? = context' at hcontext
  cases elements with
  | nil =>
    cases hcontext with
    | some _ => exact .pure fun _ => hexpected
    | none =>
      exact .bind (lockstep_add (.free "T") trivial trivial) fun _ _ _ _ hi => harray hi
  | cons first rest =>
    refine lockstep_bind? (hv.expecting hcontext first) rfl rfl fun i i' q hq hi => ?_
    have helement := Types.rel_getD (hq.same? hcontext) hi
    refine .bind (lockstep_verifyElements hv (hq.same? hcontext) helement rest)
      fun fits fits' r hr hfits => ?_
    subst hfits
    split
    · exact harray (hr.same helement)
    · exact .pure fun _ => .none

/-- The same fields after both runs. -/
abbrev Fields (P : Pact) (fields fields' : List Field) (q : State × State) : Prop :=
  List.Forall₂ (Field.Parallel ((states P).Same q)) fields fields'

theorem lockstep_verifyFields {context context' : Option ObjectShape}
    (hc : Option.Rel (ObjectShape.Parallel ((states P).Same p)) context context')
    (properties : List Property) :
    Lockstep (states P) p (verifyFields v context properties) (verifyFields v' context' properties)
      fun fields fields' q => Option.Rel (Fields P · · q) fields fields' := by
  induction properties generalizing p with
  | nil => exact .pure fun _ => .some .nil
  | cons property rest ih =>
    rw [verifyFields, verifyFields]
    split
    · exact .throw _
    split
    · exact .throw _
    next name _ =>
    have hexpected : Handles? P
        ((context.bind fun shape => shape.find? name).map fun field => field.type)
        ((context'.bind fun shape => shape.find? name).map fun field => field.type) p :=
      Types.rel_map (Types.rel_bind hc fun _ _ hs => Table.find?_parallel hs.fields name)
        fun _ _ hf => hf.type
    refine .bind (hv.into property.value hexpected) fun type type' q hq htype => ?_
    have hc' := hq.shapes hc
    refine .bind (ih hc') fun fields fields' r hr hfields => .pure fun _ => ?_
    cases htype with
    | none => exact .none
    | some htype =>
      cases hfields with
      | none => exact .none
      | some hfields => exact .some (.cons ⟨rfl, hr.same htype, rfl⟩ hfields)

theorem lockstep_verifyObject (properties : List Property) :
    Lockstep (states P) p (verifyObject v properties) (verifyObject v' properties) (Handles? P) := by
  rw [verifyObject, verifyObject]
  split
  · exact .pure fun hp => .some ((states P).same_fixed hp (by decide))
  refine .get_bind fun hp => ?_
  have hcontext := Types.rel_bind hp.focus.expected fun _ _ hi =>
    Table.objectShape?_same hp.left hp.right hi
  refine lockstep_bind? (lockstep_verifyFields hv hcontext properties) rfl rfl
    fun fields fields' q _ hfields => ?_
  exact .bind (lockstep_add (.object ⟨hfields, rfl, rfl⟩) trivial trivial) fun _ _ _ _ hi =>
    .pure fun _ => .some hi

/-! ## Functions typed by their first call -/

/-- The same parameters after both runs. -/
abbrev Params (P : Pact) (params params' : List Param) (q : State × State) : Prop :=
  List.Forall₂ (Param.Parallel ((states P).Same q)) params params'

theorem lockstep_inferParams (arguments : List Expr) (names : List Identifier) :
    Lockstep (states P) p (inferParams v arguments names) (inferParams v' arguments names)
      fun params params' q => Option.Rel (Params P · · q) params params' := by
  induction arguments generalizing p names with
  | nil => exact .pure fun _ => .some .nil
  | cons argument rest ih =>
    refine lockstep_bind? (hv.value argument) rfl rfl fun i i' q _ hi => ?_
    refine lockstep_bind? (ih names.tail) rfl rfl fun params params' r hr hparams => ?_
    exact .pure fun _ => .some (.cons ⟨rfl, hr.same hi, rfl⟩ hparams)

omit hv in
theorem State.Parallel.returned_same {s s' : State} (h : s.Parallel P s') (untyped : UntypedFunction)
    (name : String) : s.table.Same s'.table (s.returned untyped name) (s'.returned untyped name) := by
  have hvoid : s.table.Same s'.table .void .void := Table.same_fixed h.left h.right (by decide)
  rw [State.returned, State.returned, h.arena.knownFunction?_eq]
  cases s.arena.knownFunction? untyped.definedIn name with
  | none => exact hvoid
  | some id =>
    have hrel := h.arena id
    dsimp only [Option.bind_some]
    generalize s.arena.scope? id = scope at hrel
    generalize s'.arena.scope? id = scope' at hrel
    cases hrel with
    | none => exact hvoid
    | @some scope scope' hs =>
      have hkind := hs.kind
      obtain ⟨_, kind, _, _, _, _⟩ := scope
      obtain ⟨_, kind', _, _, _, _⟩ := scope'
      cases hkind with
      | function hinfo => exact Types.rel_getD hinfo.knownReturnType hvoid
      | _ => exact hvoid

theorem Call.lockstep_infer (call : Call) (name : String) (untyped : UntypedFunction) :
    Lockstep (states P) p (call.infer v name untyped) (call.infer v' name untyped) (Handles? P) := by
  refine lockstep_bind? (lockstep_inferParams hv _ _) rfl rfl fun params params' q _ hparams => ?_
  refine .get_bind fun hq => ?_
  have hresult : Handles P (q.1.contextType?.getD .unknownReturn)
      (q.2.contextType?.getD .unknownReturn) q :=
    Types.rel_getD hq.contextType?_rel ((states P).same_fixed hq (by decide))
  have hwaiting : q.2.contextType?.getD .unknownReturn = .unknownReturn ↔
      q.1.contextType?.getD .unknownReturn = .unknownReturn :=
    Table.eq_fixed_iff hq.left hq.right hresult (by decide)
  dsimp only
  rw [hq.focus.scope]
  simp only [hwaiting]
  generalize q.1.contextType?.getD .unknownReturn = result at hresult
  generalize q.2.contextType?.getD .unknownReturn = result' at hresult
  refine .bind (lockstep_add (.function ⟨hparams, hresult, .none, rfl, rfl⟩) trivial trivial)
    fun i i' r hr hi => ?_
  refine .bind (lockstep_onArena fun hr => hr.arena.updateFunction _ _ hi) fun _ _ u hu _ => ?_
  refine .bind (lockstep_inScope (fun w hw => lockstep_verifyFunction hv untyped.node
    ((hu.trans hw).same hi) name) fun _ _ _ _ _ _ => trivial) fun _ _ w hw _ => ?_
  have hw' := (hr.trans hu).trans hw
  split
  · exact .pure fun _ => .none
  split
  · refine .get_bind fun hmeets => ?_
    have hreturned := hmeets.returned_same untyped name
    refine .bind (lockstep_add (.function ⟨hw'.params hparams,
      hreturned, .none, rfl, rfl⟩) trivial trivial) fun i i' x hx hi => ?_
    exact .bind (lockstep_onArena fun hx => hx.arena.forceUpdateVar _ _ hi) fun _ _ y hy _ =>
      .pure fun _ => .some ((hx.trans hy).same hreturned)
  · exact .pure fun _ => .some (hw'.same hresult)

end Literals

/-! ## Arguments -/

namespace Call

/-- The same types of arguments after both runs. -/
abbrev Arguments (P : Pact) (types types' : List (Option TypeId)) (q : State × State) : Prop :=
  List.Forall₂ (Option.Rel ((states P).Same q)) types types'

section Calls

variable {v v' : Visitor} (hv : VisitsAlike P v v')

include hv

theorem lockstep_plainArguments (arguments : List Expr) {params params' : List Param}
    (hparams : Params P params params' p) :
    Lockstep (states P) p (plainArguments v arguments params) (plainArguments v' arguments params')
      (Arguments P) := by
  induction arguments generalizing p params params' with
  | nil => exact .pure fun _ => .nil
  | cons argument rest ih =>
    have htail : ∀ {q}, (states P).Onward p q → Params P params.tail params'.tail q := by
      intro q hq
      cases hparams with
      | nil => exact .nil
      | cons _ hrest => exact hq.params hrest
    have hrest : ∀ {q type type'}, (states P).Onward p q → Handles? P type type' q →
        Lockstep (states P) q (do return type :: (← plainArguments v rest params.tail))
          (do return type' :: (← plainArguments v' rest params'.tail)) (Arguments P) :=
      fun hq htype => .bind (ih (htail hq)) fun _ _ _ hr htypes =>
        .pure fun _ => .cons (hr.same? htype) htypes
    rw [plainArguments, plainArguments]
    refine .of_meets fun hp => ?_
    split
    · exact hrest (.refl hp) .none
    refine .get_bind fun hp => ?_
    have hhead : Handles? P (params.head?.map fun param => param.type)
        (params'.head?.map fun param => param.type) p := by
      cases hparams with
      | nil => exact .none
      | cons hparam _ => exact .some hparam.type
    have hexpected : Handles? P
        ((params.head?.map fun param => param.type).filter fun type => !p.1.table.containsFree type)
        ((params'.head?.map fun param => param.type).filter fun type => !p.2.table.containsFree type) p :=
      Types.rel_filter hhead fun _ _ hi => by rw [Table.containsFree_same hp.left hp.right hi]
    exact .bind (hv.into argument hexpected) fun _ _ _ hq htype => hrest hq htype

omit hv in
theorem lockstep_checkArity (call : Call) {shape shape' : FunctionShape}
    (hs : shape.Parallel ((states P).Same p) shape') (name : String) :
    Lockstep (states P) p (call.checkArity shape name) (call.checkArity shape' name)
      fun fits fits' _ => fits = fits' := by
  simp only [checkArity, ← hs.params.length_eq, Table.requiredParams_same hs]
  split
  · exact .bind (lockstep_report _ _ fun _ => rfl) fun _ _ _ _ _ => .pure fun _ => rfl
  split
  · exact .bind (lockstep_report _ _ fun _ => rfl) fun _ _ _ _ _ => .pure fun _ => rfl
  · exact .pure fun _ => rfl

omit hv in
theorem lockstep_checkArgument (span : Span) {param param' : Param}
    (hparam : param.Parallel ((states P).Same p) param') {i i' : TypeId} (hi : Handles P i i' p) :
    Lockstep (states P) p (checkArgument span param i) (checkArgument span param' i')
      fun _ _ _ => True := by
  have hrest : ∀ {q}, (states P).Onward p q → ∀ excused : Bool, Lockstep (states P) q
      (do if !excused then let _ ← checkFits span param.type i)
      (do if !excused then let _ ← checkFits span param'.type i') fun _ _ _ => True := by
    intro q hq excused
    split
    · exact .bind (lockstep_checkFits span (hq.same hparam.type) (hq.same hi)) fun _ _ _ _ _ =>
        .pure fun _ => trivial
    · exact .pure fun _ => trivial
  refine .get_bind fun hp => ?_
  simp only [hparam.optional, Table.isSubtype_same hp.left hp.right hparam.type hi]
  split
  · have hundefined : Handles P .undefined .undefined p := (states P).same_fixed hp (by decide)
    refine .bind (lockstep_union2 hparam.type hundefined) fun widened widened' q hq hwidened => ?_
    refine .get_bind fun hq' => ?_
    rw [Table.isSubtype_same hq'.left hq'.right hwidened (hq.same hi)]
    exact hrest hq _
  · exact hrest (.refl hp) false

omit hv in
/-- An argument that has a type is checked, and then the others are. -/
theorem lockstep_checkFound (argument : Expr) {param param' : Param} {actual actual' : Option TypeId}
    (hactual : Handles? P actual actual' p) (hparam : param.Parallel ((states P).Same p) param')
    {rest rest' : Check Unit}
    (hrest : ∀ {r}, (states P).Onward p r → Lockstep (states P) r rest rest' fun _ _ _ => True) :
    Lockstep (states P) p
      (do
        match actual with
        | some actual => checkArgument argument.span param actual
        | none => pure ()
        rest)
      (do
        match actual' with
        | some actual => checkArgument argument.span param' actual
        | none => pure ()
        rest') fun _ _ _ => True := by
  refine .of_meets fun hp => ?_
  cases hactual with
  | none => exact hrest (.refl hp)
  | some hi => exact .bind (lockstep_checkArgument _ hparam hi) fun _ _ _ hr _ => hrest hr

theorem lockstep_checkArguments (arguments : List Expr) {params params' : List Param}
    (hparams : Params P params params' p) {types types' : List (Option TypeId)}
    (htypes : Arguments P types types' p) :
    Lockstep (states P) p (checkArguments v arguments params types)
      (checkArguments v' arguments params' types') fun _ _ _ => True := by
  induction arguments generalizing p params params' types types' with
  | nil => exact .pure fun _ => trivial
  | cons argument arguments ih =>
    cases hparams with
    | nil => exact .pure fun _ => trivial
    | @cons param param' params params' hparam hparams =>
      cases htypes with
      | nil => exact .pure fun _ => trivial
      | @cons type type' types types' htype htypes =>
        have hnext : ∀ {r}, (states P).Onward p r → Lockstep (states P) r
            (checkArguments v arguments params types)
            (checkArguments v' arguments params' types') fun _ _ _ => True := fun hr =>
          ih (hr.params hparams) (htypes.imp fun _ _ => hr.same?)
        rw [checkArguments, checkArguments, Types.rel_isNone_eq htype]
        split
        · exact .bind (hv.into argument (.some hparam.type)) fun _ _ _ hq hactual =>
            lockstep_checkFound argument hactual (hparam.mono fun _ _ => hq.same) fun hr =>
              hnext (hq.trans hr)
        · exact lockstep_checkFound argument htype hparam hnext

/-! ## Calls -/

omit hv in
theorem lockstep_reportNonFunction (call : Call) {i i' : TypeId} (hi : Handles P i i' p)
    {K : TypeId → TypeId → State × State → Prop} :
    Lockstep (states P) p (do call.reportNonFunction i; return none)
      (do call.reportNonFunction i'; return none) fun i i' q => Option.Rel (K · · q) i i' := by
  refine .bind (P := fun _ _ _ => True) (.get_bind fun hp => ?_) fun _ _ _ _ _ => .pure fun _ => .none
  rw [Call.name, Call.name, hp.snippet_eq, hp.format_eq hi]
  exact lockstep_report _ _ fun _ => rfl

theorem lockstep_verifyRequire (call : Call) :
    Lockstep (states P) p (call.verifyRequire v) (call.verifyRequire v') (Handles? P) := by
  have hunknown : ∀ q name, Lockstep (states P) q (verifyRequire.unknown call name)
      (verifyRequire.unknown call name) (Handles? P) :=
    fun _ _ => lockstep_report_none _ _ fun _ => rfl
  refine .get_bind fun hp => ?_
  rw [hp.source]
  split
  · split
    · exact hunknown p _
    next request _ =>
    refine .bind (lockstep_onSession (hv.require _ _ request)) fun required required' q _ hrequired => ?_
    cases hrequired with
    | resolved path hi =>
      have hnoted : Lockstep (states P) q
          (modify fun s => if s.dependencies.contains path then s
            else { s with dependencies := s.dependencies ++ [path] } : Check Unit)
          (modify fun s => if s.dependencies.contains path then s
            else { s with dependencies := s.dependencies ++ [path] }) fun _ _ _ => True := by
        refine .modify (fun hq => ?_) trivial
        rw [hq.dependencies]
        split
        · exact .refl hq
        · exact ⟨hq, { hq with dependencies := rfl }, .refl _, .refl _⟩
      exact .bind hnoted fun _ _ _ hr _ => .pure fun _ => .some (hr.same hi)
    | cyclic => exact lockstep_report_none _ _ fun _ => rfl
    | notFound => exact hunknown q request
  · exact hunknown p _

/-- A method with the object that it belongs to, in both runs. -/
abbrev Callee (P : Pact) (x x' : TypeId × Option TypeId) (q : State × State) : Prop :=
  Handles P x.1 x'.1 q ∧ Handles? P x.2 x'.2 q

theorem lockstep_calleeType (call : Call) :
    Lockstep (states P) p (call.calleeType v) (call.calleeType v')
      fun x x' q => Option.Rel (Callee P · · q) x x' := by
  rw [calleeType, calleeType]
  split
  · refine lockstep_bind? (hv.asRead _) rfl rfl fun object object' q _ hobject => ?_
    refine lockstep_bind? (lockstep_typeOn hv _ hobject) rfl rfl fun method method' r hr hmethod => ?_
    exact .pure fun _ => .some ⟨hmethod, .some (hr.same hobject)⟩
  · refine lockstep_bind? (hv.value _) rfl rfl fun callee callee' q _ hcallee => ?_
    exact .pure fun _ => .some ⟨hcallee, .none⟩

theorem lockstep_verifyAny (arguments : List Expr) :
    Lockstep (states P) p (verifyAny v arguments) (verifyAny v' arguments) fun _ _ _ => True := by
  induction arguments generalizing p with
  | nil => exact .pure fun _ => trivial
  | cons argument rest ih => exact .bind (hv.value argument) fun _ _ _ _ _ => ih

omit hv in
theorem misusesConstructor_same (call : Call) {t t' : Table} (ht : t.WellFormed) (ht' : t'.WellFormed)
    {shape shape' : FunctionShape} (hs : shape.Parallel (t.Same t') shape') :
    call.misusesConstructor t' shape' = call.misusesConstructor t shape := by
  have hvoid : shape'.result = .void ↔ shape.result = .void :=
    Table.eq_fixed_iff ht ht' hs.result (by decide)
  have hobject : shape'.this.any t'.isObject = shape.this.any t.isObject :=
    Types.rel_any_eq hs.this fun _ _ hi => Table.isObject_same ht ht' hi
  have hconstructor : isConstructorShape t' shape' = isConstructorShape t shape := by
    simp only [isConstructorShape, hvoid, hobject]
  rw [misusesConstructor, misusesConstructor, hconstructor]

omit hv in
theorem lockstep_refineReceiver (object : Expr) {i i' j j' : TypeId} (hi : Handles P i i' p)
    (hj : Handles P j j' p) :
    Lockstep (states P) p (refineReceiver object i j) (refineReceiver object i' j')
      fun _ _ _ => True := by
  refine .get_bind fun hp => ?_
  cases object with
  | identifier id =>
    simp only [Table.containsFree_same hp.left hp.right hi, Table.containsFree_same hp.left hp.right hj,
      Types.rel_isSome_eq (hp.declaredType_rel id.name), hp.focus.scope]
    split
    · exact .bind (lockstep_onArena fun hp => hp.arena.forceUpdateVar _ _ hj) fun _ _ _ _ _ =>
        .pure fun _ => trivial
    · exact .pure fun _ => trivial
  | _ => exact .pure fun _ => trivial

omit hv in
theorem lockstep_checkReceiver (call : Call) {i i' j j' : Option TypeId} (hi : Handles? P i i' p)
    (hj : Handles? P j j' p) :
    Lockstep (states P) p (call.checkReceiver i j) (call.checkReceiver i' j') fun _ _ _ => True := by
  unfold checkReceiver
  generalize Access.ofExpr? call.callee = access
  cases access with
  | none => exact .pure fun _ => trivial
  | some access =>
    cases hi with
    | none => exact .pure fun _ => trivial
    | some hi =>
      cases hj with
      | none => exact .pure fun _ => trivial
      | some hj =>
        exact .bind (lockstep_checkFits _ hj hi) fun _ _ _ hq _ =>
          lockstep_refineReceiver access.object (hq.same hi) (hq.same hj)

/-- The same function types after both runs. -/
abbrev Shapes (P : Pact) (shape shape' : FunctionShape) (q : State × State) : Prop :=
  shape.Parallel ((states P).Same q) shape'

omit hv in
theorem lockstep_solvedShape (call : Call) {i i' : TypeId} (hi : Handles P i i' p)
    {shape shape' : FunctionShape} (hs : Shapes P shape shape' p) {passed passed' : Passed}
    (hpassed : passed.Parallel ((states P).Same p) passed') :
    Lockstep (states P) p (call.solvedShape i shape passed) (call.solvedShape i' shape' passed')
      fun shape shape' q => Option.Rel (Shapes P · · q) shape shape' := by
  rw [solvedShape, solvedShape, hs.generics]
  split
  · exact .pure fun _ => .some hs
  · refine lockstep_bind? (lockstep_instantiate call hi hs hpassed) rfl rfl fun _ _ q _ hi => ?_
    exact .get_bind fun hq => .pure fun _ => Table.functionShape?_same hq.left hq.right hi

theorem lockstep_apply (call : Call) {i i' : TypeId} (hi : Handles P i i' p)
    {receiver receiver' : Option TypeId} (hreceiver : Handles? P receiver receiver' p)
    {shape shape' : FunctionShape} (hs : Shapes P shape shape' p) :
    Lockstep (states P) p (call.apply v i receiver shape) (call.apply v' i' receiver' shape')
      (Handles? P) := by
  refine .get_bind fun hp => ?_
  rw [misusesConstructor_same call hp.left hp.right hs, Call.name, Call.name, hp.snippet_eq]
  split
  · exact lockstep_report_none _ _ fun _ => rfl
  refine .bind (lockstep_plainArguments hv call.arguments hs.params) fun types types' q hq htypes => ?_
  have hs' : Shapes P shape shape' q := hq.function hs
  refine .bind (lockstep_checkArity call hs' _) fun fits fits' r hr hfits => ?_
  subst hfits
  split
  · have hqr := hq.trans hr
    refine lockstep_bind? (lockstep_solvedShape call (hqr.same hi) (hqr.function hs)
      ⟨htypes.imp fun _ _ => hr.same?, hqr.same? hreceiver⟩) rfl rfl fun solved solved' u hu hsolved => ?_
    refine .bind (lockstep_checkArguments hv call.arguments hsolved.params
      (htypes.imp fun _ _ h => hu.same? (hr.same? h))) fun _ _ w hw _ => ?_
    refine .bind (lockstep_checkReceiver call (((hqr.trans hu).trans hw).same? hreceiver)
      (hw.same? hsolved.this)) fun _ _ x hx _ => ?_
    exact .pure fun _ => .some ((hw.trans hx).same hsolved.result)
  · exact .pure fun _ => .none

theorem lockstep_verifyTyped (call : Call) :
    Lockstep (states P) p (call.verifyTyped v) (call.verifyTyped v') (Handles? P) := by
  refine lockstep_bind? (lockstep_calleeType hv call) rfl rfl fun x x' q _ hx => ?_
  obtain ⟨callee, receiver⟩ := x
  obtain ⟨callee', receiver'⟩ := x'
  obtain ⟨hcallee, hreceiver⟩ := hx
  refine .of_meets fun hq => ?_
  have hany : callee' = .any ↔ callee = .any := Table.eq_fixed_iff hq.left hq.right hcallee (by decide)
  simp only [hany]
  split
  · exact .bind (lockstep_verifyAny hv _) fun _ _ _ _ _ => .pure fun hr =>
      .some ((states P).same_fixed hr (by decide))
  refine .get_bind fun hq => ?_
  have hshape := Table.functionShape?_same hq.left hq.right hcallee
  generalize q.1.table.functionShape? callee = shape at hshape
  generalize q.2.table.functionShape? callee' = shape' at hshape
  cases hshape with
  | none => exact lockstep_reportNonFunction call hcallee
  | some hs => exact lockstep_apply hv call hcallee hreceiver hs

theorem lockstep_verify (call : Call) :
    Lockstep (states P) p (call.verify v) (call.verify v') (Handles? P) := by
  refine .get_bind fun hp => ?_
  have htyped := lockstep_verifyTyped (p := p) hv call
  split
  next id _ =>
    simp only [Types.rel_isSome_eq (hp.lookup_rel id.name), hp.focus.scope,
      hp.arena.getFunction?_eq]
    split
    · exact htyped
    split
    · exact lockstep_verifyRequire hv call
    split
    · exact Call.lockstep_infer hv call id.name _
    · exact htyped
  · exact htyped

/-! ## Constructions -/

omit hv in
theorem instanceType?_same {t t' : Table} (ht : t.WellFormed) (ht' : t'.WellFormed)
    {shape shape' : FunctionShape} (hs : shape.Parallel (t.Same t') shape') :
    Option.Rel (t.Same t') (instanceType? t shape) (instanceType? t' shape') := by
  refine Types.rel_filter hs.this fun i i' hi => ?_
  refine Types.rel_any_eq (Table.objectShape?_same ht ht' hi) fun object object' ho => ?_
  have hfields := ho.fields
  generalize object.fields = fields at hfields
  generalize object'.fields = fields' at hfields
  cases hfields <;> rfl

theorem lockstep_construct (call : Call) {shape shape' : FunctionShape} (hs : Shapes P shape shape' p)
    {i i' : TypeId} (hi : Handles P i i' p) :
    Lockstep (states P) p (call.construct v shape i) (call.construct v' shape' i') (Handles? P) := by
  refine .get_bind fun hp => ?_
  dsimp only
  rw [Call.name, Call.name, hp.snippet_eq, hs.brand]
  refine .bind (lockstep_plainArguments hv call.arguments hs.params) fun types types' q hq htypes => ?_
  refine .bind (lockstep_checkArity call (hq.function hs) _) fun fits fits' r hr hfits => ?_
  subst hfits
  split
  · have hqr := hq.trans hr
    refine .bind (lockstep_checkArguments hv call.arguments (hqr.params hs.params)
      (htypes.imp fun _ _ => hr.same?)) fun _ _ u hu _ => ?_
    have hi' := (hqr.trans hu).same hi
    split
    · exact .pure fun _ => .some hi'
    · exact .bind (lockstep_onTable fun hu => Table.sameMade_withBrand hu.left hu.right hi' shape.brand)
        fun _ _ _ _ hi => .pure fun _ => .some hi
  · exact .pure fun _ => .none

theorem lockstep_verifyNew (call : Call) :
    Lockstep (states P) p (call.verifyNew v) (call.verifyNew v') (Handles? P) := by
  refine lockstep_bind? (hv.value call.callee) rfl rfl fun callee callee' q _ hcallee => ?_
  refine .get_bind fun hq => ?_
  have hshape := Table.functionShape?_same hq.left hq.right hcallee
  generalize q.1.table.functionShape? callee = shape at hshape
  generalize q.2.table.functionShape? callee' = shape' at hshape
  cases hshape with
  | none => exact lockstep_reportNonFunction call hcallee
  | @some shape shape' hs =>
    have hobject := instanceType?_same hq.left hq.right hs
    have hvoid : shape'.result = .void ↔ shape.result = .void :=
      Table.eq_fixed_iff hq.left hq.right hs.result (by decide)
    have hthis : shape'.this.map q.2.format = shape.this.map q.1.format :=
      (Types.map_eq_of_rel hs.this fun _ _ hi => (hq.format_eq hi).symm).symm
    simp only [Call.name, hq.snippet_eq, ne_eq, hvoid, hthis, hq.format_eq hs.result]
    generalize instanceType? q.1.table shape = object at hobject
    generalize instanceType? q.2.table shape' = object' at hobject
    cases hobject with
    | none => exact lockstep_report_none _ _ fun _ => rfl
    | some hi =>
      dsimp only
      split
      · exact lockstep_report_none _ _ fun _ => rfl
      split
      · exact lockstep_report_none _ _ fun _ => rfl
      · exact lockstep_construct hv call hs hi

end Calls

end Call

end HeaderCheck.Verify
