import HeaderCheck.Proofs.Verify.Parallel

/-!
# HeaderCheck.Proofs.Verify.Parallel.Functions

Functions, declarations of variables and return statements in two runs.

* `VisitsAlike`: what the visitors of the two runs do for the parts of a node.
* One lemma for each function of the verifier; those about names and values come first.
-/

namespace HeaderCheck.Verify

open HeaderCheck.Project (Error Pact Session SessionM)
open HeaderCheck.Report (Diagnostic Kind)
open HeaderCheck.Scope (Arena FunctionInfo LookupMode ScopeId)
open HeaderCheck.Script (Declarator Expr Function Identifier Stmt)
open HeaderCheck.Types (FunctionShape Param Table TypeId)

variable {P : Pact} {α β : Type} {p q r : State × State}

/-! ## Visitors -/

/-- The same answer to a require in two runs. -/
inductive Required.Parallel (R : TypeId → TypeId → Prop) : Required → Required → Prop where
  | resolved (path : String) {i i' : TypeId} (h : R i i') :
    Parallel R (.resolved path i) (.resolved path i')
  | cyclic : Parallel R .cyclic .cyclic
  | notFound : Parallel R .notFound .notFound

/-- The visitors do the same for each node and each require. -/
structure VisitsAlike (P : Pact) (v v' : Visitor) : Prop where
  expr : ∀ p e, Lockstep (states P) p (v.expr e) (v'.expr e) (Handles? P)
  stmt : ∀ p stmt, Lockstep (states P) p (v.stmt stmt) (v'.stmt stmt) fun _ _ _ => True
  require : ∀ p file request, Lockstep P.sessions p (v.require file request) (v'.require file request)
    fun x x' q => x.Parallel (P.sessions.Same q) x'

theorem lockstep_bindUntyped? (e : Expr) {i i' : TypeId} (hi : Handles P i i' p) :
    Lockstep (states P) p (bindUntyped? e i) (bindUntyped? e i') (Handles? P) := by
  refine .get_bind fun hp => ?_
  cases e with
  | identifier id =>
    simp only [Table.isFunction_same hp.left hp.right hi, Types.rel_isNone_eq (hp.lookup_rel id.name),
      hp.isUntyped_eq, hp.focus.scope]
    split
    · exact .bind (lockstep_onArena fun hp => hp.arena.updateFunction _ _ hi) fun _ _ _ hq _ =>
        .pure fun _ => .some (hq.same hi)
    · exact .pure fun _ => .none
  | _ => exact .pure fun _ => .none

theorem lockstep_registerFunctions (stmts : List Stmt) :
    Lockstep (states P) p (registerFunctions stmts) (registerFunctions stmts) fun _ _ _ => True := by
  induction stmts generalizing p with
  | nil => exact .pure fun _ => trivial
  | cons stmt rest ih =>
    cases stmt with
    | function f =>
      refine .get_bind fun hp => ?_
      rw [hp.focus.scope]
      exact .bind (lockstep_onArena fun hp => hp.arena.addFunction _ _ _) fun _ _ _ _ _ => ih
    | _ => exact ih

namespace VisitsAlike

variable {v v' : Visitor} (hv : VisitsAlike P v v')

include hv

theorem expecting {i i' : Option TypeId} (hi : Handles? P i i' p) (e : Expr) :
    Lockstep (states P) p (expecting i (v.expr e)) (expecting i' (v'.expr e)) (Handles? P) :=
  lockstep_withFocus (fun hp => { hp.focus with expected := hi }) (fun q _ => hv.expr q e)
    fun _ _ _ _ _ h => h

theorem asTarget (e : Expr) :
    Lockstep (states P) p (asTarget (v.expr e)) (asTarget (v'.expr e)) (Handles? P) :=
  lockstep_withFocus (fun hp => { hp.focus with mode := rfl, isTarget := rfl })
    (fun q _ => hv.expr q e) fun _ _ _ _ _ h => h

theorem asRead (e : Expr) :
    Lockstep (states P) p (asRead (v.expr e)) (asRead (v'.expr e)) (Handles? P) :=
  lockstep_withFocus (fun hp => { hp.focus with mode := rfl, isTarget := rfl })
    (fun q _ => hv.expr q e) fun _ _ _ _ _ h => h

theorem value (e : Expr) : Lockstep (states P) p (v.value e) (v'.value e) (Handles? P) :=
  hv.expecting .none e

theorem into (e : Expr) {i i' : Option TypeId} (hi : Handles? P i i' p) :
    Lockstep (states P) p (v.into e i) (v'.into e i') (Handles? P) := by
  cases hi with
  | none => exact hv.value e
  | some hi =>
    refine .bind (lockstep_bindUntyped? e hi) fun bound bound' q hq hbound => ?_
    cases hbound with
    | none => exact hv.expecting (.some (hq.same hi)) e
    | some hbound => exact .pure fun _ => .some hbound

theorem inOrder (stmts : List Stmt) :
    Lockstep (states P) p (v.inOrder stmts) (v'.inOrder stmts) fun _ _ _ => True := by
  induction stmts generalizing p with
  | nil => exact .pure fun _ => trivial
  | cons stmt rest ih => exact .bind (hv.stmt p stmt) fun _ _ _ _ _ => ih

theorem statements (stmts : List Stmt) :
    Lockstep (states P) p (v.statements stmts) (v'.statements stmts) fun _ _ _ => True :=
  .bind (hv.inOrder _) fun _ _ _ _ _ => hv.inOrder _

theorem block (stmts : List Stmt) :
    Lockstep (states P) p (v.block stmts) (v'.block stmts) fun _ _ _ => True :=
  .bind (lockstep_registerFunctions stmts) fun _ _ _ _ _ => hv.statements stmts

end VisitsAlike

/-! ## What a body must have done -/

theorem lockstep_bindParams (scope : ScopeId) (ids : List Identifier) {params params' : List Param}
    (h : List.Forall₂ (Param.Parallel ((states P).Same p)) params params') :
    Lockstep (states P) p (bindParams scope (ids.zip params)) (bindParams scope (ids.zip params'))
      fun _ _ _ => True := by
  induction ids generalizing p params params' with
  | nil => exact .pure fun _ => trivial
  | cons id ids ih =>
    cases h with
    | nil => exact .pure fun _ => trivial
    | @cons param param' params params' hparam hrest =>
      have hbound : ∀ {q i i'}, (states P).Onward p q → Handles P i i' q → Lockstep (states P) q
          (do onArena (fun a => a.addVar scope id.name i); bindParams scope (ids.zip params))
          (do onArena (fun a => a.addVar scope id.name i'); bindParams scope (ids.zip params'))
          fun _ _ _ => True := fun hq hi =>
        .bind (lockstep_onArena fun hq => hq.arena.addVar _ _ hi) fun _ _ _ hr _ =>
          ih ((hq.trans hr).params hrest)
      rw [List.zip_cons_cons, List.zip_cons_cons, bindParams, bindParams, hparam.optional]
      refine .of_meets fun hp => ?_
      split
      · have hundefined : Handles P .undefined .undefined p := (states P).same_fixed hp (by decide)
        exact .bind (lockstep_union2 hparam.type hundefined) fun _ _ _ hq hi => hbound hq hi
      · exact hbound (.refl hp) hparam.type

section Body

variable {info info' : FunctionInfo} (hinfo : info.Parallel ((states P).Same p) info')

include hinfo

theorem lockstep_checkFieldOrder (f : Function) :
    Lockstep (states P) p (checkFieldOrder f info) (checkFieldOrder f info') fun _ _ _ => True := by
  refine .get_bind fun hp => ?_
  have hshape := Types.rel_bind hinfo.thisType fun _ _ hi => Table.objectShape?_same hp.left hp.right hi
  have hexempt (field : String) := Types.rel_any_eq
    (hp.arena.prototypeFields?_rel p.1.focus.scope f.name) (f := fun fields => fields.contains field)
    (g := fun fields => fields.contains field) fun _ _ hd => hd.contains_eq field
  simp only [hp.focus.scope, hexempt, hinfo.knownFields]
  generalize info.thisType.bind p.1.table.objectShape? = shape at hshape
  generalize info'.thisType.bind p.2.table.objectShape? = shape' at hshape
  cases hshape with
  | none => exact .pure fun _ => trivial
  | some hs =>
    simp only [Types.map_eq_of_forall₂ hs.fields (f := fun field => field.name)
      (g := fun field => field.name) fun _ _ hf => hf.name.symm]
    split
    · exact .pure fun _ => trivial
    · exact lockstep_report _ _ fun _ => rfl

theorem lockstep_checkConstructorReturn (f : Function) :
    Lockstep (states P) p (checkConstructorReturn f info) (checkConstructorReturn f info')
      fun _ _ _ => True := by
  have hreturned := hinfo.knownReturnType
  rw [checkConstructorReturn, checkConstructorReturn, hinfo.returnSpan]
  generalize info.knownReturnType = returned at hreturned
  generalize info'.knownReturnType = returned' at hreturned
  cases hreturned with
  | none => exact .pure fun _ => trivial
  | @some i i' hi =>
    refine .of_meets fun hp => ?_
    have hvoid : i' = .void ↔ i = .void := Table.eq_fixed_iff hp.left hp.right hi (by decide)
    simp only [hvoid]
    split
    · exact lockstep_report _ _ fun _ => rfl
    · exact .get_bind fun hp => lockstep_report _ _ fun _ => by rw [hp.format_eq hi]

theorem lockstep_checkReturned (f : Function) :
    Lockstep (states P) p (checkReturned f info) (checkReturned f info') fun _ _ _ => True := by
  have hreturned := hinfo.knownReturnType
  refine .of_meets fun hp => ?_
  have hknown (id : TypeId) (hid : id.index < Table.builtins.length) :
      info'.returnType = id ↔ info.returnType = id :=
    Table.eq_fixed_iff hp.left hp.right hinfo.returnType hid
  have hneeds : needsNoReturn info'.returnType = needsNoReturn info.returnType := by
    simp only [needsNoReturn, hknown .void (by decide), hknown .undefined (by decide),
      Table.isAnyLike_same hp.left hp.right hinfo.returnType]
  simp only [checkReturned, hknown .unknownReturn (by decide), hneeds, hinfo.returnSpan]
  generalize info.knownReturnType = returned at hreturned
  generalize info'.knownReturnType = returned' at hreturned
  split
  · exact .pure fun _ => trivial
  cases hreturned with
  | some hi =>
    exact .bind (lockstep_checkFits _ hinfo.returnType hi) fun _ _ _ _ _ => .pure fun _ => trivial
  | none =>
    simp only
    split
    · exact .get_bind fun hp => lockstep_report _ _ fun _ => by rw [hp.format_eq hinfo.returnType]
    · exact .pure fun _ => trivial

theorem lockstep_checkBody (f : Function) :
    Lockstep (states P) p (checkBody f info) (checkBody f info') fun _ _ _ => True := by
  rw [checkBody, checkBody, hinfo.isConstructor]
  split
  · refine .of_meets fun hp => .bind (lockstep_checkFieldOrder hinfo f) fun _ _ q hq _ => ?_
    exact lockstep_checkConstructorReturn (hinfo.mono fun _ _ => hq.same) f
  · exact lockstep_checkReturned hinfo f

end Body

/-! ## Functions -/

section Functions

variable {v v' : Visitor} (hv : VisitsAlike P v v')

include hv

theorem lockstep_enterBody (f : Function) (scope : ScopeId) :
    Lockstep (states P) p (enterBody v f scope) (enterBody v' f scope) fun _ _ _ => True := by
  refine .bind (.modify (Q := fun _ _ _ => True) (fun hp => ⟨hp, ?_, .refl _, .refl _⟩) trivial)
    fun _ _ _ _ _ => lockstep_inScope (fun _ _ => hv.block f.body) fun _ _ _ _ _ _ => trivial
  exact { hp with }

theorem lockstep_verifyFunction (f : Function) {i i' : TypeId} (hi : Handles P i i' p) (key : String) :
    Lockstep (states P) p (verifyFunction v f i key) (verifyFunction v' f i' key) fun _ _ _ => True := by
  refine .get_bind fun hp => ?_
  have hshape := Table.functionShape?_same hp.left hp.right hi
  rw [hp.format_eq hi, hp.focus.scope]
  generalize p.1.table.functionShape? i = shape at hshape
  generalize p.2.table.functionShape? i' = shape' at hshape
  cases hshape with
  | none => exact lockstep_report _ _ fun _ => rfl
  | @some shape shape' hs =>
    have hparams := hs.params.length_eq
    simp only [← hparams]
    refine .bind (lockstep_onArena fun hp => hp.arena.pushFunction _
      ⟨rfl, hs.this, hs.result, hi, rfl, rfl, .none, rfl, .none⟩) fun scope scope' q hq hscope => ?_
    subst hscope
    split
    · exact lockstep_report _ _ fun _ => rfl
    refine .bind (lockstep_bindParams scope f.params (hq.params hs.params)) fun _ _ _ _ _ => ?_
    refine .bind (lockstep_enterBody hv f scope) fun _ _ r _ _ => .get_bind fun hr => ?_
    have hinfo := hr.arena.functionInfo?_rel scope
    generalize r.1.arena.functionInfo? scope = info at hinfo
    generalize r.2.arena.functionInfo? scope = info' at hinfo
    cases hinfo with
    | none => exact .pure fun _ => trivial
    | some hinfo => exact lockstep_checkBody hinfo f

theorem lockstep_verifyDeclared (f : Function) :
    Lockstep (states P) p (verifyDeclared v f) (verifyDeclared v' f) fun _ _ _ => True := by
  refine .get_bind fun hp => ?_
  have hdeclared := hp.declaredType_rel f.name
  rw [hp.hasFunctionScope_eq]
  split
  · exact .pure fun _ => trivial
  generalize p.1.declaredType f.name = declared at hdeclared
  generalize p.2.declaredType f.name = declared' at hdeclared
  cases hdeclared with
  | none => exact lockstep_report _ _ fun _ => rfl
  | some hi => exact lockstep_verifyFunction hv f hi f.name

theorem lockstep_verifyFunctionExpr (f : Function) :
    Lockstep (states P) p (verifyFunctionExpr v f) (verifyFunctionExpr v' f) (Handles? P) := by
  refine .get_bind fun hp => ?_
  have hcontext : Handles? P (p.1.contextType?.filter p.1.table.isFunction)
      (p.2.contextType?.filter p.2.table.isFunction) p :=
    Types.rel_filter hp.contextType?_rel fun _ _ hi => Table.isFunction_same hp.left hp.right hi
  rw [hp.hasFunctionScope_eq]
  generalize p.1.contextType?.filter p.1.table.isFunction = declared at hcontext
  generalize p.2.contextType?.filter p.2.table.isFunction = declared' at hcontext
  cases hcontext with
  | none => exact lockstep_report_none _ _ fun _ => rfl
  | some hi =>
    simp only
    split
    · exact .bind (lockstep_verifyFunction hv f hi _) fun _ _ _ hq _ => .pure fun _ => .some (hq.same hi)
    · exact .pure fun _ => .some hi

end Functions

theorem lockstep_verifyThis (span : Span) :
    Lockstep (states P) p (verifyThis span) (verifyThis span) (Handles? P) := by
  refine .get_bind fun hp => ?_
  have hinfo := hp.arena.functionInfo?_rel p.1.focus.scope
  have hthis := hp.arena.thisType?_rel p.1.focus.scope
  rw [hp.focus.scope]
  generalize p.1.arena.functionInfo? p.1.focus.scope = info at hinfo
  generalize p.2.arena.functionInfo? p.1.focus.scope = info' at hinfo
  cases hinfo with
  | none => exact lockstep_report_none _ _ fun _ => rfl
  | some hinfo =>
    generalize p.1.arena.thisType? p.1.focus.scope = this at hthis
    generalize p.2.arena.thisType? p.1.focus.scope = this' at hthis
    cases hthis with
    | some hi => exact .pure fun _ => .some hi
    | none => exact lockstep_report_none _ _ fun _ => by rw [hinfo.name]

/-! ## Variables -/

section Variables

variable {v v' : Visitor} (hv : VisitsAlike P v v')

include hv

theorem lockstep_verifyDeclaredVariable (name : String) {i i' : TypeId} (hi : Handles P i i' p)
    (init : Expr) :
    Lockstep (states P) p (verifyDeclaredVariable v name i init)
      (verifyDeclaredVariable v' name i' init) fun _ _ _ => True := by
  refine .bind (hv.into init (.some hi)) fun actual actual' q hq hactual => ?_
  cases hactual with
  | none => exact .pure fun _ => trivial
  | some hactual =>
    refine .of_meets fun hq' => ?_
    simp only [Table.growsFreely_same hq'.left hq'.right (hq.same hi)]
    split
    · refine .get_bind fun hq' => ?_
      rw [hq'.owner_eq]
      exact .bind (lockstep_onArena fun hq' => hq'.arena.forceUpdateVar _ _ hactual) fun _ _ _ _ _ =>
        .pure fun _ => trivial
    · exact .bind (lockstep_checkFits _ (hq.same hi) hactual) fun _ _ _ _ _ => .pure fun _ => trivial

theorem lockstep_verifyNewVariable (name : String) (init : Expr) :
    Lockstep (states P) p (verifyNewVariable v name init) (verifyNewVariable v' name init)
      fun _ _ _ => True := by
  refine .get_bind fun hp => ?_
  rw [hp.owner_eq]
  simp only
  split
  · have hdefault : Handles P .nullDefault .nullDefault p := (states P).same_fixed hp (by decide)
    exact .mono (lockstep_onArena fun hp => hp.arena.addVar _ _ hdefault) fun _ _ _ _ _ => trivial
  refine .bind (hv.into init .none) fun actual actual' q _ hactual => ?_
  cases hactual with
  | some hi => exact .mono (lockstep_onArena fun hq => hq.arena.addVar _ _ hi) fun _ _ _ _ _ => trivial
  | none =>
    refine .modify (fun hq => ⟨hq, ?_, .refl _, .refl _⟩) trivial
    exact { hq with unknown := congrArg (name :: ·) hq.unknown }

omit hv in
theorem State.Parallel.ownDeclaredType?_rel {s s' : State} (h : s.Parallel P s') (name : String) :
    Option.Rel (s.table.Same s'.table) (s.ownDeclaredType? name) (s'.ownDeclaredType? name) := by
  rw [State.ownDeclaredType?, State.ownDeclaredType?, h.owner_eq, h.arena.hasOwnVar_eq]
  split
  · exact h.typeIn_rel _ _ _
  · exact .none

theorem lockstep_verifyDeclarator (declarator : Declarator) :
    Lockstep (states P) p (verifyDeclarator v declarator) (verifyDeclarator v' declarator)
      fun _ _ _ => True := by
  refine .get_bind fun hp => ?_
  have hdeclared := hp.ownDeclaredType?_rel declarator.id.name
  have hopen : Handles P .uninitialized .uninitialized p := (states P).same_fixed hp (by decide)
  rw [hp.owner_eq]
  dsimp only
  generalize p.1.ownDeclaredType? declarator.id.name = declared at hdeclared
  generalize p.2.ownDeclaredType? declarator.id.name = declared' at hdeclared
  cases hdeclared with
  | some hi =>
    cases declarator.init with
    | none => exact .pure fun _ => trivial
    | some init => exact lockstep_verifyDeclaredVariable hv _ hi init
  | none =>
    cases declarator.init with
    | none =>
      exact .mono (lockstep_onArena fun hp => hp.arena.addVar _ _ hopen) fun _ _ _ _ _ => trivial
    | some init => exact lockstep_verifyNewVariable hv _ init

theorem lockstep_verifyDeclarators (declarators : List Declarator) :
    Lockstep (states P) p (verifyDeclarators v declarators) (verifyDeclarators v' declarators)
      fun _ _ _ => True := by
  induction declarators generalizing p with
  | nil => exact .pure fun _ => trivial
  | cons declarator rest ih =>
    exact .bind (lockstep_verifyDeclarator hv declarator) fun _ _ _ _ _ => ih

/-! ## Return statements -/

omit hv in
/-- What was entered for a return statement is left again, also after a failure. -/
theorem lockstep_whileReturning {i i' : TypeId} (hi : Handles P i i' p) {m m' : Check α}
    {Q : α → α → State × State → Prop}
    (h : ∀ q, (states P).Onward p q → Lockstep (states P) q m m' Q)
    (hQ : ∀ a a' q r, (states P).Onward q r → Q a a' q → Q a a' r) :
    Lockstep (states P) p (whileReturning i m) (whileReturning i' m') Q := by
  refine .get_bind fun hp => ?_
  rw [hp.focus.scope]
  refine .bind (lockstep_onArena fun hp => hp.arena.modifyFunction _ fun _ _ hinfo =>
    { hinfo with returnExpressionType := .some hi }) fun _ _ q hq _ hq' => ?_
  obtain ⟨result, result', r, hrun, hrun', hr, hend⟩ := h q hq hq'
  have hexit : Lockstep (states P) r (onArena fun a => a.exitReturn p.1.focus.scope)
      (onArena fun a => a.exitReturn p.1.focus.scope) fun a a' _ => a = a' :=
    lockstep_onArena fun hr => hr.arena.modifyFunction _ fun _ _ hinfo =>
      { hinfo with returnExpressionType := .none }
  obtain ⟨left, left', u, hleave, hleave', hu, hleft⟩ := hexit hr.meets
  cases hleft with
  | ok _ =>
    refine ⟨result, result', u, ?_, ?_, hr.trans hu, hend.mono fun a a' => hQ a a' r u hu⟩
    · rw [ExceptT.run_mk, hrun]
      simp only [hleave]
    · rw [ExceptT.run_mk, hrun']
      simp only [hleave']
  | error e =>
    refine ⟨.error e, .error e, u, ?_, ?_, hr.trans hu, .error e⟩
    · rw [ExceptT.run_mk, hrun]
      simp only [hleave]
    · rw [ExceptT.run_mk, hrun']
      simp only [hleave']

theorem lockstep_returnedType (argument : Option Expr) :
    Lockstep (states P) p (returnedType v argument) (returnedType v' argument) (Handles P) := by
  cases argument with
  | none => exact .pure fun hp => (states P).same_fixed hp (by decide)
  | some argument =>
    exact .bind (hv.value argument) fun _ _ _ _ hi => .pure fun hq =>
      Types.rel_getD hi ((states P).same_fixed hq (by decide))

theorem lockstep_verifyReturn (argument : Option Expr) (span : Span) :
    Lockstep (states P) p (verifyReturn v argument span) (verifyReturn v' argument span)
      fun _ _ _ => True := by
  refine .get_bind fun hp => ?_
  have hinfo := hp.arena.functionInfo?_rel p.1.focus.scope
  rw [hp.focus.scope]
  generalize p.1.arena.functionInfo? p.1.focus.scope = info at hinfo
  generalize p.2.arena.functionInfo? p.1.focus.scope = info' at hinfo
  cases hinfo with
  | none =>
    cases argument with
    | none => exact .pure fun _ => trivial
    | some argument => exact .bind (hv.expr p argument) fun _ _ _ _ _ => .pure fun _ => trivial
  | some hinfo =>
    refine .bind (lockstep_whileReturning hinfo.returnType
      (fun _ _ => lockstep_returnedType hv argument) fun _ _ _ _ hr hi => hr.same hi)
      fun i i' q _ hi => ?_
    refine .mono (lockstep_onArena fun hq => hq.arena.modifyFunction _ fun _ _ hinfo => ?_)
      fun _ _ _ _ _ => trivial
    exact { hinfo with knownReturnType := .some hi, returnSpan := rfl }

end Variables

end HeaderCheck.Verify
