import HeaderCheck.Proofs.Verify.Covers

/-!
# HeaderCheck.Proofs.Verify.Covers.Functions

Lists of statements and functions: a body that is entered without a report is covered.

* `Visitor.Covers.block`: the functions among statements, and those in them.
* `covers_verifyFunction`: a function gets a scope, and the functions of its body get scopes there.
-/

namespace HeaderCheck.Verify

open HeaderCheck.Scope (Arena ScopeId)
open HeaderCheck.Scope.Arena (Operation)
open HeaderCheck.Script
open HeaderCheck.Types (Param Table TypeId)

variable {s : State} {owner : ScopeId} {v : Visitor}

/-! ## Expressions under another focus -/

theorem Visitor.Covers.focused (hv : v.Covers) (ho : s.Under owner) (e : Expr)
    {change : Focus → Focus} (hscope : (change s.focus).scope = s.focus.scope) :
    Verify.Covers owner [] s (withFocus change (v.expr e)) fun _ => (Node.expr e).direct := by
  refine covers_withFocus (hv.expr e ⟨?_, ho.orderly⟩)
  rw [hscope]
  exact ho.focus

theorem Visitor.Covers.expecting (hv : v.Covers) (ho : s.Under owner) (e : Expr)
    (expected : Option TypeId) :
    Verify.Covers owner [] s (expecting expected (v.expr e)) fun _ => (Node.expr e).direct :=
  hv.focused ho e rfl

theorem Visitor.Covers.value (hv : v.Covers) (ho : s.Under owner) (e : Expr) :
    Verify.Covers owner [] s (v.value e) fun _ => (Node.expr e).direct :=
  hv.expecting ho e none

theorem Visitor.Covers.asRead (hv : v.Covers) (ho : s.Under owner) (e : Expr) :
    Verify.Covers owner [] s (asRead (v.expr e)) fun _ => (Node.expr e).direct :=
  hv.focused ho e rfl

theorem Visitor.Covers.asTarget (hv : v.Covers) (ho : s.Under owner) (e : Expr) :
    Verify.Covers owner [] s (asTarget (v.expr e)) fun _ => (Node.expr e).direct :=
  hv.focused ho e rfl

/-- Work in a branch of the scope at hand, or in another file or function. -/
theorem covers_inScope {α : Type} {m : Check α} {owed : α → List (FunctionKind × Function)}
    {scope : ScopeId} (ho : s.arena.Under owner scope) (horderly : s.arena.Orderly)
    (h : ∀ {s : State}, s.Under owner → Covers owner [] s m owed) :
    Covers owner [] s (inScope scope m) owed :=
  covers_withFocus (h ⟨ho, horderly⟩)

theorem passes_bindUntyped? (e : Expr) (expected : TypeId) : Passes s (bindUntyped? e expected) := by
  refine passes_get_bind ?_
  split
  · split
    · exact passes_bind (passes_onArena (.updateFunction _ _ _) rfl rfl) fun _ _ _ => passes_pure _
    · exact passes_pure _
  · exact passes_pure _

theorem direct_identifier (id : Identifier) : (Node.expr (.identifier id)).direct = [] := by
  simp [Node.direct_eq, Node.function?, Node.parts, Node.exprParts]

/-- A function that is named by an identifier does not stand there. -/
theorem Visitor.Covers.into (hv : v.Covers) (ho : s.Under owner) (e : Expr)
    (expected : Option TypeId) :
    Verify.Covers owner [] s (v.into e expected) fun _ => (Node.expr e).direct := by
  cases expected with
  | none => exact hv.value ho e
  | some expected =>
    by_cases hname : ∃ id, e = .identifier id
    · obtain ⟨id, rfl⟩ := hname
      refine covers_pass (passes_bindUntyped? _ expected) fun bound s₁ hl => ?_
      cases bound with
      | some bound => exact covers_pure (direct_identifier id ▸ List.Subset.refl _)
      | none => exact hv.expecting (hl.under ho) _ _
    · have hunnamed : bindUntyped? e expected = pure none := by
        cases e <;> first | rfl | exact absurd ⟨_, rfl⟩ hname
      rw [Visitor.into, hunnamed, pure_bind]
      exact hv.expecting ho e _

/-! ## Statements -/

theorem passes_registerFunctions (ho : s.Under owner) (stmts : List Stmt) :
    Passes s (registerFunctions stmts) := by
  induction stmts generalizing s with
  | nil => exact passes_pure _
  | cons stmt rest ih =>
    cases stmt with
    | function f =>
      refine passes_get_bind (passes_bind ?_ fun _ s₁ hl => ih (hl.under ho))
      exact passes_arena (.addFunction _ _ _) rfl (.addFunction ho.focus f.name f)
    | _ => exact ih ho

theorem Visitor.Covers.inOrder (hv : v.Covers) (ho : s.Under owner) (stmts : List Stmt) :
    Verify.Covers owner [] s (v.inOrder stmts) fun _ => directOf stmts := by
  induction stmts generalizing s with
  | nil => exact covers_pure (List.Subset.refl _)
  | cons stmt rest ih =>
    refine covers_bind (hv.stmt stmt ho) fun _ s₁ hl => (ih (hl.under ho)).frame fun _ => ?_
    rw [directOf_eq, directOf_eq, List.flatMap_cons]
    exact List.Subset.refl _

/-- The functions among the statements come last, and none is left out. -/
theorem Visitor.Covers.statements (hv : v.Covers) (ho : s.Under owner) (stmts : List Stmt) :
    Verify.Covers owner [] s (v.statements stmts) fun _ => directOf stmts := by
  refine covers_bind (hv.inOrder ho _) fun _ s₁ hl => (hv.inOrder (hl.under ho) _).frame fun _ => ?_
  intro f hf
  rw [directOf_eq] at hf
  obtain ⟨stmt, hmem, hf⟩ := List.mem_flatMap.mp hf
  simp only [directOf_eq, List.nil_append, List.mem_append, List.mem_flatMap, List.mem_filter]
  cases hfunction : stmt.isFunction with
  | false => exact .inl ⟨stmt, ⟨hmem, by simp [hfunction]⟩, hf⟩
  | true => exact .inr ⟨stmt, ⟨hmem, hfunction⟩, hf⟩

theorem Visitor.Covers.block (hv : v.Covers) (ho : s.Under owner) (stmts : List Stmt) :
    Verify.Covers owner [] s (v.block stmts) fun _ => directOf stmts :=
  covers_pass (passes_registerFunctions ho stmts) fun _ _ hl => hv.statements (hl.under ho) stmts

/-! ## Functions -/

theorem passes_checkFits {span : Span} {expected actual : TypeId} :
    Passes s (checkFits span expected actual) := by
  refine passes_get_bind ?_
  split
  · exact passes_bind (passes_record _) fun _ _ _ => passes_pure _
  · exact passes_pure _

theorem passes_checkBody (f : Function) (info : Scope.FunctionInfo) :
    Passes s (checkBody f info) := by
  have hreturn {s : State} : Passes s (checkConstructorReturn f info) := by
    rw [checkConstructorReturn]
    split
    · exact passes_pure _
    simp only
    split
    · exact passes_report
    · exact passes_get_bind passes_report
  rw [checkBody]
  split
  · refine passes_bind (passes_get_bind ?_) fun _ _ _ => hreturn
    split
    · exact passes_pure _
    simp only
    split
    · exact passes_pure _
    · exact passes_report
  · rw [checkReturned]
    split
    · exact passes_pure _
    split
    · exact passes_then_unit passes_checkFits
    split
    · exact passes_get_bind passes_report
    · exact passes_pure _

theorem passes_bindParams (scope : ScopeId) (params : List (Identifier × Param)) :
    Passes s (bindParams scope params) := by
  induction params generalizing s with
  | nil => exact passes_pure _
  | cons param rest ih =>
    have hbound {s : State} (type : TypeId) : Passes s (do
        onArena fun a => a.addVar scope param.1.name type
        bindParams scope rest) :=
      passes_bind (passes_onArena (.addVar _ _ _) rfl rfl) fun _ _ _ => ih
    rw [bindParams]
    split
    · exact passes_bind (passes_onTable (Table.extends_union _ _)) fun type _ _ => hbound type
    · exact hbound param.2.type

/-- Once a function has a scope and is entered there, its body is covered. -/
theorem covers_enterBody (hv : v.Covers) {f : Function} {scope : ScopeId}
    (hscope : s.arena.Under scope scope) (horderly : s.arena.Orderly) {a : Unit} {s' : State}
    (hrun : (enterBody v f scope).run s = (.ok a, s')) :
    s.Leads s' ∧ (({ s with entered := (scope, f) :: s.entered } : State).Calm →
      s'.diagnostics = [] → s'.Calm ∧ s'.HasAll scope (directOf f.body) ∧
        ∀ x ∈ s'.entered, x = (scope, f) ∨ x ∈ s.entered ∨ s'.HasAll x.1 (directOf x.2.body)) := by
  obtain ⟨⟨⟩, s₁, hnoted, hrest⟩ := ok_of_run_bind hrun
  rw [run_modify] at hnoted
  cases hnoted
  have hblock : Covers scope [] ({ s with entered := (scope, f) :: s.entered } : State)
      (inScope scope (v.block f.body)) fun _ => directOf f.body :=
    covers_inScope hscope horderly fun ho => hv.block ho f.body
  obtain ⟨hl, hdone⟩ := hblock a s' hrest
  refine ⟨⟨hl.focus, hl.silent, hl.scopes, hl.table, hl.orderly⟩, fun hcalm hclean => ?_⟩
  obtain ⟨hcalm', hfills, hall⟩ := hdone hcalm hclean
  refine ⟨hcalm', hall nofun, fun x hx => ?_⟩
  rcases hfills x hx with hmem | hbody
  · exact (List.mem_cons.mp hmem).imp_right .inl
  · exact .inr (.inr hbody)

/-- A function that has just got its scope is entered there, so the state is calm again. -/
theorem State.Calm.enter (h : s.Calm) (ho : s.Under owner) {info : Scope.FunctionInfo}
    {arena : Arena} {child : ScopeId} {f : Function} {s₂ : State}
    (hpush : s.arena.pushFunction s.focus.scope info = (.ok child, arena))
    (hl : ({ s with arena } : State).Leads s₂) (hidle : arena.Idle s₂.arena)
    (hentered : s₂.entered = s.entered) :
    ({ s₂ with entered := (child, f) :: s₂.entered } : State).Calm := by
  obtain ⟨hmade, -, -⟩ := ho.focus.pushFunction hpush
  have hkept := Arena.retains_of_pushFunction hpush
  intro other key id hreg
  rcases (ho.focus.others_pushFunction hpush).1 (hidle.registers hreg) with hold | ⟨rfl, rfl, rfl⟩
  · obtain ⟨hmade', g, hg⟩ := h _ _ _ hold
    exact ⟨hmade'.retains (hkept.trans hl.scopes), g, List.mem_cons_of_mem _ (hentered ▸ hg)⟩
  · exact ⟨hmade.retains hl.scopes, f, List.mem_cons_self⟩

theorem passes_checked (f : Function) (scope : ScopeId) : Passes s (do
    match (← get).arena.functionInfo? scope with
    | some info => checkBody f info
    | none => return ()) := by
  refine passes_get_bind ?_
  split
  · exact passes_checkBody f _
  · exact passes_pure _

/-- A function gets a scope, and so do the functions in its body. -/
theorem covers_verifyFunction (hv : v.Covers) (ho : s.Under owner) (f : Function)
    (declared : TypeId) {key : String} {functions : List (FunctionKind × Function)}
    (hkeys : ∀ g ∈ functions, keyOf g.1 g.2 = key) :
    Covers owner [] s (verifyFunction v f declared key) fun _ => functions := by
  refine covers_get_bind ?_
  split
  · exact covers_report
  next shape _ =>
  intro a s' hrun
  obtain ⟨child, s₁, hmade, hrest⟩ := ok_of_run_bind hrun
  obtain ⟨arena, hpush, rfl⟩ := onArena_of_run hmade
  obtain ⟨-, hchild, scope, hscope, hkey⟩ := ho.focus.pushFunction hpush
  have hkept := Arena.retains_of_pushFunction hpush
  have horderly : arena.Orderly := fun untyped hawait =>
    (ho.orderly untyped ((ho.focus.others_pushFunction hpush).2 hawait)).retains hkept
  have hl : s.Leads { s with arena } := ⟨rfl, fun h => h, hkept, .refl _, fun _ => horderly⟩
  have hregistered : ({ s with arena } : State).HasAll owner functions := by
    intro g hg
    rw [hkeys g hg]
    exact ⟨scope, hscope, by rw [Dict.contains, hkey]; rfl⟩
  simp only at hrest
  split at hrest
  · -- a wrong number of parameters is reported
    exact ⟨hl.trans (passes_report a s' hrest).1,
      fun _ hclean => absurd hclean (diagnostics_ne_of_report hrest)⟩
  obtain ⟨⟨⟩, s₂, hparams, hrest⟩ := ok_of_run_bind hrest
  obtain ⟨hl₂, hidle, hentered⟩ := passes_bindParams child _ _ s₂ hparams
  obtain ⟨⟨⟩, s₃, hbody, hrest⟩ := ok_of_run_bind hrest
  obtain ⟨hl₃, hdone⟩ := covers_enterBody hv (hchild.retains hl₂.scopes) (hl₂.orderly horderly) hbody
  obtain ⟨hl₄, hidle₄, hentered₄⟩ := passes_checked f child a s' hrest
  refine ⟨((hl.trans hl₂).trans hl₃).trans hl₄, fun hcalm hclean => ?_⟩
  have hcalm₂ := hcalm.enter (f := f) ho hpush hl₂ hidle hentered
  obtain ⟨hcalm₃, hall, hfills⟩ := hdone hcalm₂ (hl₄.silent hclean)
  refine ⟨hcalm₃.idle hl₄ hidle₄ (hentered₄ ▸ List.Subset.refl _), fun x hx => ?_,
    fun _ => ((hl₂.trans hl₃).trans hl₄).hasAll hregistered⟩
  rcases hfills x (hentered₄ ▸ hx) with rfl | hold | hbody
  · exact .inr (hl₄.hasAll hall)
  · exact .inl (hentered ▸ hold)
  · exact .inr (hl₄.hasAll hbody)

/-- The file or function at hand has a scope for the key. -/
theorem State.Under.hasAll (ho : s.Under owner) (kind : FunctionKind) {f : Function}
    (h : s.hasFunctionScope (keyOf kind f)) : s.HasAll owner [(kind, f)] := by
  intro g hg
  rw [List.mem_singleton.mp hg]
  have howner : s.owner = owner := ho.focus.owner_eq
  rw [State.hasFunctionScope, howner, Option.any_eq_true] at h
  exact h

theorem covers_verifyDeclared (hv : v.Covers) (ho : s.Under owner) (f : Function) :
    Covers owner [] s (verifyDeclared v f) fun _ => [(.declared, f)] := by
  refine covers_get_bind ?_
  split
  · next hknown =>
    exact .of_hasAll (ho.hasAll .declared hknown) (covers_pure (List.Subset.refl _))
  split
  · exact covers_verifyFunction hv ho f _ fun g hg => by rw [List.mem_singleton.mp hg]; rfl
  · exact covers_report

theorem covers_verifyFunctionExpr (hv : v.Covers) (ho : s.Under owner) (f : Function) :
    Covers owner [] s (verifyFunctionExpr v f) (owing [(.expression, f)]) := by
  refine covers_get_bind ?_
  split
  · exact passes_report.covers_none
  next declared _ =>
  simp only
  split
  · have hkey : ∀ g ∈ [(FunctionKind.expression, f)], keyOf g.1 g.2 = expressionKey f := by
      intro g hg
      rw [List.mem_singleton.mp hg]
      rfl
    refine covers_bind (covers_verifyFunction hv ho f declared hkey) fun _ _ _ => ?_
    exact covers_pure (List.Subset.refl _)
  · next hknown =>
    have hknown : s.hasFunctionScope (keyOf .expression f) := by simpa [keyOf] using hknown
    exact .of_hasAll (ho.hasAll .expression hknown) (covers_pure (List.Subset.refl _))

end HeaderCheck.Verify
