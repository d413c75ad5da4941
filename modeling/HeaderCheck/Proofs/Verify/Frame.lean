import HeaderCheck.Proofs.Scope.Operations
import HeaderCheck.Proofs.Verify.Notes

/-!
# HeaderCheck.Proofs.Verify.Frame

What the verification of a node leaves as it was, from every state and however it ends.

* `Contract`: how a require may change the session, and what is known of a file that it resolves.
* `Framed`: the focus is what it was; diagnostics and dependencies are only added, the latter for
  files that are ready; scopes change by operations on them alone, none of which is refused unless
  the run ends there.
* `Frames`: work that leaves every state so. One rule for each way to put work together, then one
  lemma for each construct.
* `frames_visitor`, `frames_verifySource`: nodes and whole sources.
* `visit_frame`: the same from outside, whatever a require does.
-/

namespace HeaderCheck.Verify

open HeaderCheck.Project (Error Host Options Session SessionM resolveHeader)
open HeaderCheck.Report (Diagnostic Kind)
open HeaderCheck.Scope (Arena ScopeId)
open HeaderCheck.Scope.Arena (Attempt Operation Step outcome)
open HeaderCheck.Script
open HeaderCheck.Types (FunctionShape ObjectShape Occurrence Param Table TypeId)
open Relation (ReflTransGen)

variable {α β : Type}

/-! ## The judgement -/

/-- What is agreed about the session. Types may be added at any time. -/
structure Contract where
  /-- How a session may change. -/
  Leads : Session → Session → Prop
  /-- What is known of a file once it has been required. -/
  Ready : String → Session → Prop
  refl : ∀ s, Leads s s
  trans : ∀ {one two three}, Leads one two → Leads two three → Leads one three
  table : ∀ s table, Leads s { s with table }
  stable : ∀ {path s s'}, Leads s s' → Ready path s → Ready path s'

/-- Nothing is agreed. -/
def Contract.none : Contract where
  Leads := fun _ _ => True
  Ready := fun _ _ => True
  refl := fun _ => trivial
  trans := fun _ _ => trivial
  table := fun _ _ => trivial
  stable := fun _ _ => trivial

/-- Requires keep to the contract. -/
structure Contract.Binds (C : Contract) (require : (file request : String) → SessionM Required) :
    Prop where
  leads : ∀ file request s, C.Leads s ((require file request).run s).2
  ready : ∀ file request s path exports,
    ((require file request).run s).1 = .ok (.resolved path exports) →
      C.Ready path ((require file request).run s).2

/-- How a run leaves a state. -/
structure Framed (C : Contract) (s : State) (run : Except Error α × State) : Prop where
  focus : run.2.focus = s.focus
  source : run.2.source = s.source
  diagnostics : s.diagnostics <+: run.2.diagnostics
  dependencies : s.dependencies <+: run.2.dependencies
  ready : ∀ path ∈ run.2.dependencies, path ∈ s.dependencies ∨ C.Ready path run.2.session
  session : C.Leads s.session run.2.session
  attempts : ReflTransGen Attempt s.arena run.2.arena
  steps : ∀ a, run.1 = .ok a → ReflTransGen Step s.arena run.2.arena

/-- Work that leaves every state as it must. -/
def Frames (C : Contract) (m : Check α) : Prop :=
  ∀ s, Framed C s (m.run s)

variable {C : Contract} {s : State}

namespace Framed

/-- One run after another. The second may also follow a failure of the first. -/
theorem chain {γ : Type} {run : Except Error α × State} {run' : Except Error β × State}
    {result : Except Error γ} (h : Framed C s run) (h' : Framed C run.2 run')
    (hok : ∀ c, result = .ok c → (∃ a, run.1 = .ok a) ∧ ∃ b, run'.1 = .ok b) :
    Framed C s (result, run'.2) where
  focus := h'.focus.trans h.focus
  source := h'.source.trans h.source
  diagnostics := h.diagnostics.trans h'.diagnostics
  dependencies := h.dependencies.trans h'.dependencies
  ready := by
    intro path hpath
    rcases h'.ready path hpath with hmem | hready
    · exact (h.ready path hmem).imp_right (C.stable h'.session)
    · exact .inr hready
  session := C.trans h.session h'.session
  attempts := h.attempts.trans h'.attempts
  steps := by
    intro c hc
    obtain ⟨⟨a, ha⟩, b, hb⟩ := hok c hc
    exact (h.steps a ha).trans (h'.steps b hb)

theorem trans {s₁ : State} {a : α} {run : Except Error β × State}
    (h : Framed C s ((.ok a, s₁) : Except Error α × State)) (h' : Framed C s₁ run) :
    Framed C s run :=
  h.chain h' fun b hb => ⟨⟨a, rfl⟩, b, hb⟩

theorem error {s₁ : State} {e : Error} (h : Framed C s ((.error e, s₁) : Except Error α × State)) :
    Framed C s ((.error e, s₁) : Except Error β × State) :=
  ⟨h.focus, h.source, h.diagnostics, h.dependencies, h.ready, h.session, h.attempts, nofun⟩

/-- A run that at most reports something and goes on with the session. -/
theorem same {run : Except Error α × State} (hfocus : run.2.focus = s.focus)
    (hsource : run.2.source = s.source) (hdiagnostics : s.diagnostics <+: run.2.diagnostics)
    (hdependencies : run.2.dependencies = s.dependencies)
    (hsession : C.Leads s.session run.2.session) (harena : run.2.arena = s.arena) :
    Framed C s run where
  focus := hfocus
  source := hsource
  diagnostics := hdiagnostics
  dependencies := hdependencies ▸ List.prefix_refl _
  ready := fun path hpath => .inl (hdependencies ▸ hpath)
  session := hsession
  attempts := by rw [harena]
  steps := fun _ _ => by rw [harena]

end Framed

/-! ## Work put together -/

theorem frames_pure (a : α) : Frames C (pure a : Check α) :=
  fun _ => .same rfl rfl (List.prefix_refl _) rfl (C.refl _) rfl

theorem frames_throw (e : Error) : Frames C (throw e : Check α) :=
  fun _ => .same rfl rfl (List.prefix_refl _) rfl (C.refl _) rfl

theorem frames_get_bind {f : State → Check α} (h : ∀ s, Frames C (f s)) : Frames C (get >>= f) :=
  fun s => h s s

theorem Framed.bind {m : Check α} {f : α → Check β} (h : Framed C s (m.run s))
    (hf : ∀ a s₁, m.run s = (.ok a, s₁) → Framed C s₁ ((f a).run s₁)) :
    Framed C s ((m >>= f).run s) := by
  rcases hrun : m.run s with ⟨e | a, s₁⟩ <;> rw [hrun] at h
  · rw [run_bind_error hrun]
    exact h.error
  · rw [run_bind_ok hrun]
    exact h.trans (hf a s₁ hrun)

theorem frames_bind {m : Check α} {f : α → Check β} (h : Frames C m) (hf : ∀ a, Frames C (f a)) :
    Frames C (m >>= f) :=
  fun s => (h s).bind fun a s₁ _ => hf a s₁

theorem frames_withFocus {change : Focus → Focus} {m : Check α} (h : Frames C m) :
    Frames C (withFocus change m) := by
  intro s
  have hm := h { s with focus := change s.focus }
  exact ⟨rfl, hm.source, hm.diagnostics, hm.dependencies, hm.ready, hm.session, hm.attempts, hm.steps⟩

/-! ## Primitives -/

/-- Work that only takes notes. -/
theorem Notes.frames {m : Check α} (h : Notes m) : Frames C m := by
  intro s
  obtain ⟨⟨table, diagnostics, hsame⟩, -⟩ := h s
  refine .same ?_ ?_ ?_ ?_ ?_ ?_ <;> rw [hsame]
  · rfl
  · rfl
  · exact List.prefix_append _ _
  · rfl
  · exact C.table _ _
  · rfl

theorem frames_report {kind : Kind} {span : Span} {fields : List (String × String)} :
    Frames C (report kind span fields) :=
  notes_report.frames

/-- No result after a report. -/
theorem frames_none {m : Check Unit} (h : Frames C m) :
    Frames C (do m; pure none : Check (Option α)) :=
  frames_bind h fun _ => frames_pure none

theorem frames_onTable (f : Table → α × Table) : Frames C (onTable f) :=
  (notes_onTable f).frames

theorem framed_arena {arena : Arena} {result : Except Error α} (hattempt : Attempt s.arena arena)
    (hstep : ∀ a, result = .ok a → Step s.arena arena) : Framed C s (result, { s with arena }) where
  focus := rfl
  source := rfl
  diagnostics := List.prefix_refl _
  dependencies := List.prefix_refl _
  ready := fun _ hpath => .inl hpath
  session := C.refl _
  attempts := .single hattempt
  steps := fun a ha => .single (hstep a ha)

theorem frames_onArena {f : Arena → Except Scope.Error α × Arena} (op : Operation)
    (h : ∀ a, outcome (f a) = op.run a) : Frames C (onArena f) := by
  intro s
  rw [run_onArena]
  refine framed_arena ⟨op, by rw [← h]; rfl⟩ fun a ha => ⟨op, ?_⟩
  rw [← h, outcome]
  cases hresult : (f s.arena).1 with
  | error e => simp [hresult, Except.mapError] at ha
  | ok a => rfl

theorem frames_openBranch : Frames C openBranch :=
  fun s => framed_arena ⟨.pushBranch s.focus.scope, rfl⟩ fun _ _ => ⟨.pushBranch s.focus.scope, rfl⟩

theorem frames_onSession {m : SessionM α} (h : ∀ s, C.Leads s (m.run s).2) :
    Frames C (onSession m) :=
  fun s => .same rfl rfl (List.prefix_refl _) rfl (h s.session) rfl

theorem frames_then_unit {m : Check α} (h : Frames C m) : Frames C (do let _ ← m) :=
  frames_bind h fun _ => frames_pure _

/-! ## Visitors -/

/-- What the visitor of the parts of a node must do. -/
structure Visitor.Frames (C : Contract) (v : Visitor) : Prop where
  expr : ∀ e, Verify.Frames C (v.expr e)
  stmt : ∀ stmt, Verify.Frames C (v.stmt stmt)
  require : C.Binds v.require

variable {v : Visitor}

theorem Visitor.Frames.value (hv : v.Frames C) (e : Expr) : Verify.Frames C (v.value e) := by
  rw [Visitor.value, expecting]
  exact frames_withFocus (hv.expr e)

theorem frames_bindUntyped? (e : Expr) (expected : TypeId) : Frames C (bindUntyped? e expected) := by
  refine frames_get_bind fun s => ?_
  split
  · split
    · exact frames_bind (frames_onArena (.updateFunction _ _ _) fun _ => rfl) fun _ => frames_pure _
    · exact frames_pure _
  · exact frames_pure _

theorem Visitor.Frames.into (hv : v.Frames C) (e : Expr) (expected : Option TypeId) :
    Verify.Frames C (v.into e expected) := by
  cases expected with
  | none => exact hv.value e
  | some expected =>
    refine frames_bind (frames_bindUntyped? e expected) fun bound => ?_
    cases bound with
    | none => exact frames_withFocus (hv.expr e)
    | some bound => exact frames_pure _

theorem frames_registerFunctions (stmts : List Stmt) : Frames C (registerFunctions stmts) := by
  fun_induction registerFunctions stmts with
  | case1 => exact frames_pure _
  | case2 f rest ih =>
    refine frames_get_bind fun s => ?_
    exact frames_bind (frames_onArena (.addFunction _ _ _) fun _ => rfl) fun _ => ih
  | case3 stmt rest _ ih => exact ih

theorem Visitor.Frames.inOrder (hv : v.Frames C) (stmts : List Stmt) :
    Verify.Frames C (v.inOrder stmts) := by
  induction stmts with
  | nil => exact frames_pure _
  | cons stmt rest ih => exact frames_bind (hv.stmt stmt) fun _ => ih

theorem Visitor.Frames.statements (hv : v.Frames C) (stmts : List Stmt) :
    Verify.Frames C (v.statements stmts) :=
  frames_bind (hv.inOrder _) fun _ => hv.inOrder _

theorem Visitor.Frames.block (hv : v.Frames C) (stmts : List Stmt) :
    Verify.Frames C (v.block stmts) :=
  frames_bind (frames_registerFunctions stmts) fun _ => hv.statements stmts

/-! ## Functions -/

theorem frames_bindParams (scope : ScopeId) (params : List (Identifier × Param)) :
    Frames C (bindParams scope params) := by
  induction params with
  | nil => exact frames_pure _
  | cons param rest ih =>
    have hbound (type : TypeId) : Frames C (do
        onArena fun a => a.addVar scope param.1.name type
        bindParams scope rest) :=
      frames_bind (frames_onArena (.addVar _ _ _) fun _ => rfl) fun _ => ih
    rw [bindParams]
    split
    · exact frames_bind (frames_onTable _) fun type => hbound type
    · exact hbound param.2.type

theorem frames_enterBody (hv : v.Frames C) (f : Function) (scope : ScopeId) :
    Frames C (enterBody v f scope) := by
  have hnoted : Frames C (modify fun s => { s with entered := (scope, f) :: s.entered }) :=
    fun _ => .same rfl rfl (List.prefix_refl _) rfl (C.refl _) rfl
  exact frames_bind hnoted fun _ => frames_withFocus (hv.block f.body)

theorem frames_verifyFunction (hv : v.Frames C) (f : Function) (declared : TypeId) (key : String) :
    Frames C (verifyFunction v f declared key) := by
  refine frames_get_bind fun s => ?_
  split
  · exact frames_report
  refine frames_bind (frames_onArena (.pushFunction _ _) fun _ => rfl) fun scope => ?_
  simp only
  split
  · exact frames_report
  refine frames_bind (frames_bindParams scope _) fun _ => ?_
  refine frames_bind (frames_enterBody hv f scope) fun _ => frames_get_bind fun s => ?_
  split
  · exact (notes_checkBody f _).frames
  · exact frames_pure _

theorem frames_verifyDeclared (hv : v.Frames C) (f : Function) : Frames C (verifyDeclared v f) := by
  refine frames_get_bind fun s => ?_
  split
  · exact frames_pure _
  split
  · exact frames_verifyFunction hv f _ _
  · exact frames_report

theorem frames_verifyFunctionExpr (hv : v.Frames C) (f : Function) :
    Frames C (verifyFunctionExpr v f) := by
  refine frames_get_bind fun s => ?_
  split
  · exact frames_none frames_report
  split
  · exact frames_bind (frames_verifyFunction hv f _ _) fun _ => frames_pure _
  · exact frames_pure _

/-! ## Names, literals and accesses -/

theorem frames_verifyElements (hv : v.Frames C) (context : Option TypeId) (element : TypeId)
    (elements : List Expr) : Frames C (verifyElements v context element elements) := by
  induction elements with
  | nil => exact frames_pure _
  | cons e rest ih =>
    have hrest (fits : Bool) : Frames C (do
        let restFits ← verifyElements v context element rest
        return fits && restFits) := frames_bind ih fun _ => frames_pure _
    refine frames_bind (frames_withFocus (hv.expr e)) fun actual => ?_
    cases actual with
    | some actual => exact frames_bind notes_checkFits.frames fun fits => hrest fits
    | none => exact hrest false

theorem frames_verifyArray (hv : v.Frames C) (elements : List Expr) :
    Frames C (verifyArray v elements) := by
  refine frames_get_bind fun s => ?_
  simp only
  split
  · split
    · exact frames_pure _
    · exact frames_bind (frames_onTable _) fun _ => (notes_made _).frames
  next first rest =>
  refine frames_bind (frames_withFocus (hv.expr first)) fun firstType => ?_
  cases firstType with
  | none => exact frames_pure _
  | some firstType =>
    refine frames_bind (frames_verifyElements hv _ _ rest) fun fits => ?_
    split
    · exact (notes_made _).frames
    · exact frames_pure _

theorem frames_verifyFields (hv : v.Frames C) (context : Option ObjectShape)
    (properties : List Property) : Frames C (verifyFields v context properties) := by
  induction properties with
  | nil => exact frames_pure _
  | cons property rest ih =>
    rw [verifyFields]
    split
    · exact frames_throw _
    split
    · exact frames_throw _
    · exact frames_bind (hv.into _ _) fun _ => frames_bind ih fun _ => frames_pure _

theorem frames_verifyObject (hv : v.Frames C) (properties : List Property) :
    Frames C (verifyObject v properties) := by
  rw [verifyObject]
  split
  · exact frames_pure _
  refine frames_get_bind fun s => frames_bind (frames_verifyFields hv _ _) fun fields => ?_
  cases fields with
  | some fields => exact (notes_made _).frames
  | none => exact frames_pure _

namespace Access

theorem frames_computedType (hv : v.Frames C) (access : Access) (object : TypeId) :
    Frames C (access.computedType v object) := by
  refine frames_bind (frames_withFocus (hv.expr _)) fun index => ?_
  cases index with
  | none => exact frames_pure _
  | some index =>
    simp only
    split
    · exact frames_pure _
    refine frames_get_bind fun s => ?_
    split
    · exact (access.notes_indexed _ _ _).frames
    · split
      · exact (access.notes_indexed _ _ _).frames
      · exact (access.notes_literalPart object).frames
    · exact (access.notes_literalPart object).frames

theorem frames_typeOn (hv : v.Frames C) (access : Access) (object : TypeId) :
    Frames C (access.typeOn v object) := by
  rw [typeOn]
  split
  · exact access.frames_computedType hv object
  split
  · exact (access.notes_fieldType object _).frames
  · exact frames_pure _

theorem frames_verify (hv : v.Frames C) (access : Access) : Frames C (access.verify v) := by
  refine frames_bind (frames_withFocus (hv.expr _)) fun object => ?_
  cases object with
  | some object => exact access.frames_typeOn hv object
  | none => exact frames_pure _

end Access

/-! ## Operators -/

theorem frames_verifyBinary (hv : v.Frames C) (operator : String) (left right : Expr) (span : Span) :
    Frames C (verifyBinary v operator left right span) := by
  refine frames_bind (hv.value left) fun left => frames_bind (hv.value right) fun right => ?_
  split
  · exact (notes_applyOperator _ _ _).frames
  · exact frames_pure _

theorem frames_verifyUnary (hv : v.Frames C) (operator : String) (argument : Expr) (span : Span) :
    Frames C (verifyUnary v operator argument span) := by
  refine frames_bind (hv.value argument) fun argument => ?_
  split
  · exact (notes_applyOperator _ _ _).frames
  · exact frames_pure _

theorem frames_verifyCompound (hv : v.Frames C) (operator : String) (left right : Expr)
    (span : Span) : Frames C (verifyCompound v operator left right span) := by
  refine frames_bind (frames_withFocus (hv.expr left)) fun leftType => ?_
  refine frames_bind (hv.value right) fun rightType => ?_
  split
  · refine frames_bind (notes_applyOperator _ _ _).frames fun result => ?_
    cases result with
    | none => exact frames_pure _
    | some result =>
      refine frames_bind (frames_withFocus (hv.expr left)) fun target => ?_
      cases target with
      | none => exact frames_pure _
      | some target =>
        simp only
        split
        · exact frames_bind notes_checkFits.frames fun _ => frames_pure _
        · exact frames_pure _
  · exact frames_pure _

/-! ## Calls -/

namespace Call

theorem frames_plainArguments (hv : v.Frames C) (arguments : List Expr) (params : List Param) :
    Frames C (plainArguments v arguments params) := by
  induction arguments generalizing params with
  | nil => exact frames_pure _
  | cons argument rest ih =>
    rw [plainArguments]
    split
    · simp only [pure_bind]
      exact frames_bind (ih _) fun _ => frames_pure _
    · refine frames_get_bind fun s => frames_bind (hv.into _ _) fun _ => ?_
      exact frames_bind (ih _) fun _ => frames_pure _

/-- An argument that has a type is checked, and then the others are. -/
theorem frames_checkPassed {rest : Check Unit} (span : Span) (param : Param) (passed : Option TypeId)
    (h : Frames C rest) :
    Frames C (do
      match passed with
      | some actual => checkArgument span param actual
      | none => pure ()
      rest) := by
  cases passed with
  | none => exact h
  | some actual => exact frames_bind (notes_checkArgument _ _ _).frames fun _ => h

theorem frames_checkArguments (hv : v.Frames C) (arguments : List Expr) (params : List Param)
    (verified : List (Option TypeId)) : Frames C (checkArguments v arguments params verified) := by
  induction arguments generalizing params verified with
  | nil => exact frames_pure _
  | cons argument rest ih =>
    cases params with
    | nil => exact frames_pure _
    | cons param params =>
      cases verified with
      | nil => exact frames_pure _
      | cons type types =>
        have hrest := ih params types
        rw [checkArguments]
        split
        · exact frames_bind (hv.into _ _) fun actual => frames_checkPassed _ _ actual hrest
        · exact frames_checkPassed _ _ type hrest

/-- A file that is ready may become a dependency. -/
theorem framed_addDependency {path : String} (h : C.Ready path s.session) :
    Framed C s ((modify fun s : State =>
      if s.dependencies.contains path then s
      else { s with dependencies := s.dependencies ++ [path] } : Check Unit).run s) := by
  simp only [run_modify]
  split
  · exact frames_pure () s
  · refine ⟨rfl, rfl, List.prefix_refl _, List.prefix_append _ _, ?_, C.refl _, .refl, fun _ _ => .refl⟩
    intro dependency hmem
    rcases List.mem_append.mp hmem with hmem | hmem
    · exact .inl hmem
    · rw [List.mem_singleton.mp hmem]
      exact .inr h

theorem frames_verifyRequire (hv : v.Frames C) (call : Call) : Frames C (call.verifyRequire v) := by
  have hunknown (name : String) : Frames C (verifyRequire.unknown call name) :=
    frames_none frames_report
  refine frames_get_bind fun s => ?_
  split
  · split
    · exact hunknown _
    next request _ =>
    have hsession : Frames C (onSession (v.require s.source.path request)) :=
      frames_onSession (hv.require.leads s.source.path request)
    refine fun s₁ => (hsession s₁).bind fun required s₂ hrun => ?_
    cases required with
    | resolved path exports =>
      have hready : C.Ready path s₂.session := by
        rw [run_onSession] at hrun
        obtain ⟨hresult, rfl⟩ := Prod.mk.inj hrun
        exact hv.require.ready _ _ _ path exports hresult
      exact (framed_addDependency hready).bind fun _ s₃ _ => frames_pure _ s₃
    | cyclic => exact frames_none frames_report s₂
    | notFound => exact hunknown request s₂
  · exact hunknown _

theorem frames_calleeType (hv : v.Frames C) (call : Call) : Frames C (call.calleeType v) := by
  rw [calleeType]
  split
  · refine frames_bind (frames_withFocus (hv.expr _)) fun object => ?_
    cases object with
    | none => exact frames_pure _
    | some object =>
      refine frames_bind (Access.frames_typeOn hv _ _) fun method => ?_
      cases method <;> exact frames_pure _
  · refine frames_bind (hv.value _) fun callee => ?_
    cases callee <;> exact frames_pure _

theorem frames_verifyAny (hv : v.Frames C) (arguments : List Expr) :
    Frames C (verifyAny v arguments) := by
  induction arguments with
  | nil => exact frames_pure _
  | cons argument rest ih => exact frames_bind (hv.value argument) fun _ => ih

theorem frames_checkReceiver (call : Call) (receiver this : Option TypeId) :
    Frames C (call.checkReceiver receiver this) := by
  have hrefine (object : Expr) (receiver this : TypeId) :
      Frames C (refineReceiver object receiver this) := by
    refine frames_get_bind fun s => ?_
    split
    · split
      · exact frames_then_unit (frames_onArena (.forceUpdateVar _ _ _) fun _ => rfl)
      · exact frames_pure _
    · exact frames_pure _
  unfold checkReceiver
  split
  · exact frames_bind notes_checkFits.frames fun _ => hrefine _ _ _
  · exact frames_pure _

theorem frames_apply (hv : v.Frames C) (call : Call) (callee : TypeId) (receiver : Option TypeId)
    (shape : FunctionShape) : Frames C (call.apply v callee receiver shape) := by
  refine frames_get_bind fun s => ?_
  split
  · exact frames_none frames_report
  refine frames_bind (frames_plainArguments hv _ _) fun arguments => ?_
  refine frames_bind (call.notes_checkArity _ _).frames fun fits => ?_
  split
  · refine frames_bind (call.notes_solvedShape _ _ _).frames fun shape => ?_
    cases shape with
    | none => exact frames_pure _
    | some shape =>
      refine frames_bind (frames_checkArguments hv _ _ _) fun _ => ?_
      exact frames_bind (call.frames_checkReceiver _ _) fun _ => frames_pure _
  · exact frames_pure _

theorem frames_verifyTyped (hv : v.Frames C) (call : Call) : Frames C (call.verifyTyped v) := by
  refine frames_bind (call.frames_calleeType hv) fun callee => ?_
  split
  · exact frames_pure _
  split
  · exact frames_bind (frames_verifyAny hv _) fun _ => frames_pure _
  refine frames_get_bind fun s => ?_
  split
  · exact frames_none (call.notes_reportNonFunction _).frames
  · exact call.frames_apply hv _ _ _

theorem frames_inferParams (hv : v.Frames C) (arguments : List Expr) (names : List Identifier) :
    Frames C (inferParams v arguments names) := by
  induction arguments generalizing names with
  | nil => exact frames_pure _
  | cons argument rest ih =>
    refine frames_bind (hv.value argument) fun type => ?_
    cases type with
    | none => exact frames_pure _
    | some type =>
      refine frames_bind (ih _) fun params => ?_
      cases params <;> exact frames_pure _

theorem frames_infer (hv : v.Frames C) (call : Call) (name : String)
    (untyped : Scope.UntypedFunction) : Frames C (call.infer v name untyped) := by
  refine frames_bind (frames_inferParams hv _ _) fun params => ?_
  cases params with
  | none => exact frames_pure _
  | some params =>
    refine frames_get_bind fun s => frames_bind (frames_onTable _) fun type => ?_
    refine frames_bind (frames_onArena (.updateFunction _ _ _) fun _ => rfl) fun _ => ?_
    refine frames_bind (frames_withFocus (frames_verifyFunction hv _ _ _)) fun _ => ?_
    split
    · exact frames_pure _
    split
    · refine frames_get_bind fun s => frames_bind (frames_onTable _) fun _ => ?_
      exact frames_bind (frames_onArena (.forceUpdateVar _ _ _) fun _ => rfl) fun _ => frames_pure _
    · exact frames_pure _

theorem frames_verify (hv : v.Frames C) (call : Call) : Frames C (call.verify v) := by
  refine frames_get_bind fun s => ?_
  split
  · split
    · exact call.frames_verifyTyped hv
    split
    · exact call.frames_verifyRequire hv
    split
    · exact call.frames_infer hv _ _
    · exact call.frames_verifyTyped hv
  · exact call.frames_verifyTyped hv

theorem frames_verifyNew (hv : v.Frames C) (call : Call) : Frames C (call.verifyNew v) := by
  have hconstruct (shape : FunctionShape) (object : TypeId) :
      Frames C (call.construct v shape object) := by
    refine frames_get_bind fun s => ?_
    refine frames_bind (frames_plainArguments hv _ _) fun arguments => ?_
    refine frames_bind (call.notes_checkArity _ _).frames fun fits => ?_
    split
    · refine frames_bind (frames_checkArguments hv _ _ _) fun _ => ?_
      split
      · exact frames_pure _
      · exact (notes_made _).frames
    · exact frames_pure _
  refine frames_bind (hv.value _) fun callee => ?_
  cases callee with
  | none => exact frames_pure _
  | some callee =>
    refine frames_get_bind fun s => ?_
    split
    · exact frames_none (call.notes_reportNonFunction _).frames
    split
    · exact frames_none frames_report
    split
    · exact frames_none frames_report
    split
    · exact frames_none frames_report
    · exact hconstruct _ _

end Call

/-! ## Assignments -/

theorem frames_widenObject (access : Access) (value : TypeId) :
    Frames C (widenObject access value) := by
  refine frames_get_bind fun s => ?_
  split
  · split
    · exact frames_pure _
    refine frames_bind (notes_onTable? _).frames fun widened => ?_
    cases widened with
    | none => exact frames_pure _
    | some widened => exact frames_then_unit (frames_onArena (.forceUpdateVar _ _ _) fun _ => rfl)
  · exact frames_pure _

theorem frames_recordAssigned (left : Expr) (value : TypeId) :
    Frames C (recordAssigned left value) := by
  have hfield (access : Access) : Frames C (recordField access value) := by
    refine frames_get_bind fun s => ?_
    split
    · exact frames_pure _
    split
    · split
      · exact frames_onArena (.addKnownField _ _) fun _ => rfl
      · exact frames_pure _
    split
    · split
      · exact frames_onArena (.addPrototypeField _ _ _ _) fun _ => rfl
      · exact frames_pure _
    · exact frames_pure _
  refine frames_get_bind fun s => ?_
  split
  · split
    · exact frames_onArena (.restrict _ _ _) fun _ => rfl
    · exact frames_pure _
  split
  · exact hfield _
  · exact frames_pure _

theorem frames_assignChecked (hv : v.Frames C) (left : Expr) (type : TypeId) (right : Expr) :
    Frames C (assignChecked v left type right) := by
  refine frames_bind (notes_targetType left type right).frames fun expected => ?_
  refine frames_bind (hv.into _ _) fun value => ?_
  cases value with
  | none => exact frames_pure _
  | some value =>
    refine frames_bind notes_checkFits.frames fun _ => ?_
    exact frames_bind (frames_recordAssigned left value) fun _ => frames_pure _

theorem frames_assignFreely (hv : v.Frames C) (right : Expr) {accept : TypeId → Check Unit}
    (h : ∀ value, Frames C (accept value)) : Frames C (assignFreely v right accept) := by
  refine frames_bind (hv.into _ _) fun value => ?_
  cases value with
  | none => exact frames_pure _
  | some value => exact frames_bind (h value) fun _ => frames_pure _

theorem frames_verifyAssignment (hv : v.Frames C) (operator : String) (left right : Expr)
    (span : Span) : Frames C (verifyAssignment v operator left right span) := by
  have hassign (type : TypeId) : Frames C (assignTo v left type right) := by
    rw [assignTo]
    split
    · exact frames_assignFreely hv right fun _ _ =>
        .same rfl rfl (List.prefix_refl _) rfl (C.refl _) rfl
    split
    · refine frames_assignFreely hv right fun value => frames_get_bind fun s => ?_
      exact frames_then_unit (frames_onArena (.forceUpdateVar _ _ _) fun _ => rfl)
    · exact frames_assignFreely hv right (frames_widenObject _)
    · exact frames_assignChecked hv left type right
  rw [verifyAssignment]
  split
  · exact frames_verifyCompound hv operator left right span
  refine frames_bind (frames_withFocus (hv.expr left)) fun type => ?_
  cases type with
  | none => exact frames_pure _
  | some type => exact hassign type

/-! ## Declarations and returns -/

theorem frames_verifyDeclarator (hv : v.Frames C) (declarator : Declarator) :
    Frames C (verifyDeclarator v declarator) := by
  have hdeclared (name : String) (declared : TypeId) (init : Expr) :
      Frames C (verifyDeclaredVariable v name declared init) := by
    refine frames_bind (hv.into _ _) fun actual => ?_
    cases actual with
    | none => exact frames_pure _
    | some actual =>
      simp only
      split
      · refine frames_get_bind fun s => ?_
        exact frames_then_unit (frames_onArena (.forceUpdateVar _ _ _) fun _ => rfl)
      · exact frames_then_unit notes_checkFits.frames
  have hnew (name : String) (init : Expr) : Frames C (verifyNewVariable v name init) := by
    refine frames_get_bind fun s => ?_
    simp only
    split
    · exact frames_onArena (.addVar _ _ _) fun _ => rfl
    refine frames_bind (hv.into _ _) fun actual => ?_
    cases actual with
    | some actual => exact frames_onArena (.addVar _ _ _) fun _ => rfl
    | none => exact fun _ => .same rfl rfl (List.prefix_refl _) rfl (C.refl _) rfl
  refine frames_get_bind fun s => ?_
  simp only
  split
  · exact hdeclared _ _ _
  · exact frames_pure _
  · exact frames_onArena (.addVar _ _ _) fun _ => rfl
  · exact hnew _ _

theorem frames_verifyVariables (hv : v.Frames C) (declaration : Declaration) :
    Frames C (verifyVariables v declaration) := by
  rw [verifyVariables]
  induction declaration.declarators with
  | nil => exact frames_pure _
  | cons declarator rest ih => exact frames_bind (frames_verifyDeclarator hv declarator) fun _ => ih

/-- The return that is under way is left also after an error. -/
theorem frames_whileReturning (expected : TypeId) {m : Check α} (h : Frames C m) :
    Frames C (whileReturning expected m) := by
  refine frames_get_bind fun s => ?_
  refine frames_bind (frames_onArena (.enterReturn _ _) fun _ => rfl) fun _ s₁ => ?_
  have hm := h s₁
  have hexit : Frames C (onArena fun a => a.exitReturn s.focus.scope) :=
    frames_onArena (.exitReturn s.focus.scope) fun _ => rfl
  rw [ExceptT.run_mk]
  rcases hrun : m.run s₁ with ⟨result, s₂⟩
  have hleft := hexit s₂
  rw [hrun] at hm
  simp only
  split
  · next s₃ hrun' =>
    rw [hrun'] at hleft
    exact hm.chain hleft fun c hc => ⟨⟨c, hc⟩, (), rfl⟩
  · next e s₃ hrun' =>
    rw [hrun'] at hleft
    exact hm.chain hleft nofun

theorem frames_verifyReturn (hv : v.Frames C) (argument : Option Expr) (span : Span) :
    Frames C (verifyReturn v argument span) := by
  have hreturned : Frames C (returnedType v argument) := by
    cases argument with
    | some argument => exact frames_bind (hv.value argument) fun _ => frames_pure _
    | none => exact frames_pure _
  refine frames_get_bind fun s => ?_
  split
  · exact frames_then_unit (hv.expr _)
  · exact frames_pure _
  · refine frames_bind (frames_whileReturning _ hreturned) fun _ => ?_
    exact frames_onArena (.markReturnType _ _ _) fun _ => rfl

/-! ## Branches -/

theorem frames_narrowIn (scope : ScopeId) (name : String)
    (change : Table → TypeId → Option (TypeId × Table)) : Frames C (narrowIn scope name change) := by
  refine frames_get_bind fun s => ?_
  split
  · exact frames_pure _
  refine frames_bind (notes_onTable? _).frames fun narrowed => ?_
  cases narrowed with
  | none => exact frames_pure _
  | some narrowed => exact frames_onArena (.restrict _ _ _) fun _ => rfl

theorem frames_narrow (test : Expr) (holds fails : ScopeId) : Frames C (narrow test holds fails) := by
  have htwice (scope other : ScopeId) (name : String)
      (change change' : Table → TypeId → Option (TypeId × Table)) : Frames C (do
        narrowIn scope name change
        narrowIn other name change') :=
    frames_bind (frames_narrowIn _ _ _) fun _ => frames_narrowIn _ _ _
  fun_induction narrow test holds fails with
  | case1 holds fails id => exact htwice _ _ _ _ _
  | case2 holds fails argument _ _ ih => exact ih
  | case3 holds fails operator argument _ _ _ => exact frames_pure _
  | case4 holds fails operator left right _ =>
    rw [narrowComparison]
    split
    · exact frames_pure _
    split
    · exact htwice _ _ _ _ _
    split
    · exact htwice _ _ _ _ _
    · exact frames_pure _
  | case5 holds fails operator left right _ ihl ihr ihl' ihr' =>
    refine frames_bind frames_openBranch fun scratch => ?_
    split
    · exact frames_bind (ihl scratch) fun _ => ihr scratch
    split
    · exact frames_bind (ihl' scratch) fun _ => ihr' scratch
    · exact frames_pure _
  | case6 => exact frames_pure _

theorem frames_openArms (test : Expr) : Frames C (openArms test) := by
  refine frames_bind frames_openBranch fun holds => frames_bind frames_openBranch fun fails => ?_
  exact frames_bind (frames_narrow test holds fails) fun _ => frames_pure _

theorem frames_mergeArms (holds fails : ScopeId) : Frames C (mergeArms holds fails) := by
  have hsettle (types : List (String × TypeId)) : Frames C (settle types) := by
    induction types with
    | nil => exact frames_pure _
    | cons entry rest ih =>
      refine frames_get_bind fun s => ?_
      simp only
      split
      · exact frames_bind (frames_onArena (.restrict _ _ _) fun _ => rfl) fun _ => ih
      · exact ih
  exact frames_get_bind fun _ => hsettle _

theorem frames_verifyIf (hv : v.Frames C) (test : Expr) (consequent : Stmt)
    (alternate : Option Stmt) : Frames C (verifyIf v test consequent alternate) := by
  refine frames_bind (hv.value test) fun _ => frames_bind (frames_openArms test) fun arms => ?_
  refine frames_bind (frames_withFocus (hv.stmt consequent)) fun _ => ?_
  cases alternate with
  | some alternate =>
    exact frames_bind (frames_withFocus (hv.stmt alternate)) fun _ => frames_mergeArms _ _
  | none => exact frames_mergeArms _ _

theorem frames_verifyWhile (hv : v.Frames C) (test : Expr) (body : Stmt) :
    Frames C (verifyWhile v test body) := by
  refine frames_bind (hv.value test) fun _ => frames_bind (frames_openArms test) fun arms => ?_
  exact frames_withFocus (hv.stmt body)

theorem frames_verifyForInit (hv : v.Frames C) (init : Option ForInit) :
    Frames C (verifyForInit v init) := by
  rw [verifyForInit.eq_def]
  split
  · exact frames_verifyVariables hv _
  · exact frames_then_unit (hv.value _)
  · exact frames_pure _

/-- What is verified each time round a loop. -/
theorem frames_loopBody (hv : v.Frames C) (holds : ScopeId) (body : Stmt) (update : Option Expr) :
    Frames C (inScope holds do
      v.stmt body
      match update with
      | some update =>
        let _ ← v.value update
      | none => pure ()) := by
  refine frames_withFocus (frames_bind (hv.stmt body) fun _ => ?_)
  cases update with
  | some update => exact frames_then_unit (hv.value update)
  | none => exact frames_pure _

theorem frames_verifyFor (hv : v.Frames C) (init : Option ForInit) (test update : Option Expr)
    (body : Stmt) : Frames C (verifyFor v init test update body) := by
  refine frames_bind (frames_verifyForInit hv init) fun _ => ?_
  refine frames_bind frames_openBranch fun holds => ?_
  refine frames_bind frames_openBranch fun fails => ?_
  cases test with
  | some test =>
    refine frames_bind (hv.value test) fun _ => ?_
    exact frames_bind (frames_narrow test holds fails) fun _ => frames_loopBody hv holds body update
  | none => exact frames_loopBody hv holds body update

/-- What follows an expression runs where the expression has a type. -/
theorem frames_bind_some {m : Check (Option TypeId)} {next : TypeId → Check (Option TypeId)}
    (h : Frames C m) (hnext : ∀ type, Frames C (next type)) :
    Frames C (do
      match ← m with
      | none => return none
      | some type => next type) := by
  refine frames_bind h fun type => ?_
  cases type with
  | none => exact frames_pure _
  | some type => exact hnext type

theorem frames_verifyLogical (hv : v.Frames C) (operator : String) (left right : Expr) :
    Frames C (verifyLogical v operator left right) := by
  refine frames_bind (hv.value left) fun leftType => ?_
  cases leftType with
  | none => exact frames_pure _
  | some leftType =>
    refine frames_bind frames_openBranch fun taken => frames_bind frames_openBranch fun skipped => ?_
    have hright : Frames C (inScope taken (v.expr right)) := frames_withFocus (hv.expr right)
    simp only
    split
    · refine frames_bind (frames_narrow _ _ _) fun _ => frames_bind_some hright fun _ => ?_
      exact frames_bind (notes_onTable? _).frames fun _ => (notes_made _).frames
    · exact frames_bind (frames_narrow _ _ _) fun _ =>
        frames_bind_some hright fun _ => frames_pure _

theorem frames_verifyConditional (hv : v.Frames C) (test consequent alternate : Expr) :
    Frames C (verifyConditional v test consequent alternate) := by
  refine frames_bind (hv.value test) fun _ => frames_bind (frames_openArms test) fun arms => ?_
  refine frames_bind (frames_withFocus (hv.expr consequent)) fun _ => ?_
  refine frames_bind (frames_withFocus (hv.expr alternate)) fun _ => ?_
  split
  · exact (notes_made _).frames
  · exact frames_pure _

/-! ## Nodes -/

theorem frames_verifyExpr (hv : v.Frames C) (e : Expr) : Frames C (verifyExpr v e) := by
  cases e with
  | identifier id => exact (notes_verifyIdentifier id).frames
  | literal literal => exact frames_pure _
  | this span => exact (notes_verifyThis span).frames
  | array elements _ => exact frames_verifyArray hv elements
  | object properties _ => exact frames_verifyObject hv properties
  | function f => exact frames_verifyFunctionExpr hv f
  | assignment operator left right span => exact frames_verifyAssignment hv operator left right span
  | member object property computed span => exact Access.frames_verify hv _
  | call callee arguments span => exact Call.frames_verify hv _
  | new callee arguments span => exact Call.frames_verifyNew hv _
  | binary operator left right span => exact frames_verifyBinary hv operator left right span
  | logical operator left right _ => exact frames_verifyLogical hv operator left right
  | unary operator argument _ span => exact frames_verifyUnary hv operator argument span
  | update operator argument _ span => exact frames_verifyUnary hv operator argument span
  | conditional test consequent alternate _ =>
    exact frames_verifyConditional hv test consequent alternate

theorem frames_verifyStmt (hv : v.Frames C) (stmt : Stmt) : Frames C (verifyStmt v stmt) := by
  cases stmt with
  | declaration declaration => exact frames_verifyVariables hv declaration
  | function f => exact frames_verifyDeclared hv f
  | expression e _ => exact frames_then_unit (hv.expr e)
  | throws e _ => exact frames_then_unit (hv.expr e)
  | block body _ => exact hv.block body
  | branch test consequent alternate _ => exact frames_verifyIf hv test consequent alternate
  | whileLoop test body _ => exact frames_verifyWhile hv test body
  | forLoop init test update body _ => exact frames_verifyFor hv init test update body
  | returns argument span => exact frames_verifyReturn hv argument span
  | empty _ => exact frames_pure _

/-- Chains of visits, however long, leave every state as they must. -/
theorem frames_visitor {require : (file request : String) → SessionM Required}
    (hr : C.Binds require) (fuel : Nat) : (visitor require fuel).Frames C := by
  induction fuel with
  | zero => exact ⟨fun _ => frames_throw _, fun _ => frames_throw _, hr⟩
  | succ fuel ih => exact ⟨frames_verifyExpr ih, frames_verifyStmt ih, hr⟩

/-! ## Sources -/

theorem frames_bindInFile (bindings : List (String × TypeId)) : Frames C (bindInFile bindings) := by
  induction bindings with
  | nil => exact frames_pure _
  | cons binding rest ih =>
    refine frames_get_bind fun s => ?_
    exact frames_bind (frames_onArena (.addVar _ _ _) fun _ => rfl) fun _ => ih

theorem frames_bindModuleNames : Frames C bindModuleNames :=
  frames_bind (frames_onTable _) fun _ => frames_bindInFile _

/-- A source is verified by visits and by the header beside it. -/
theorem frames_verifySource {host : Host} {options : Options}
    {require : (file request : String) → SessionM Required} (hr : C.Binds require)
    (hh : ∀ path s, C.Leads s ((resolveHeader host options path).run s).2) :
    Frames C (verifySource host options require) := by
  have hheader : Frames C (bindHeader host options) := by
    refine frames_get_bind fun s => frames_bind (frames_onSession (hh _)) fun header => ?_
    cases header with
    | none => exact frames_pure _
    | some header => exact frames_bind (notes_record _).frames fun _ => frames_bindInFile _
  refine frames_get_bind fun s => frames_bind ?_ fun _ => (frames_visitor hr _).statements _
  refine frames_bind frames_bindModuleNames fun _ => frames_get_bind fun s => ?_
  exact frames_bind (frames_registerFunctions _) fun _ => hheader

/-! ## What a visit leaves -/

/-- How a visit leaves a state. Scopes change by operations only. One that is carried out takes a
function from the untyped ones of a scope only to bind it there; one that is refused ends the run. -/
structure Visited (s : State) (run : Except Error α × State) : Prop where
  focus : run.2.focus = s.focus
  diagnostics : s.diagnostics <+: run.2.diagnostics
  dependencies : s.dependencies <+: run.2.dependencies
  scopes : s.arena.Retains run.2.arena
  attempts : ReflTransGen (fun a b => ∃ op : Operation, (op.run a).2 = b ∧
    ((op.run a).1 = .ok () → a.Settles b)) s.arena run.2.arena
  steps : ∀ a, run.1 = .ok a →
    ReflTransGen (fun a b => Step a b ∧ a.Settles b) s.arena run.2.arena
  settles : ∀ a, run.1 = .ok a → s.arena.Settles run.2.arena

theorem Framed.visited {run : Except Error α × State} (h : Framed C s run) : Visited s run where
  focus := h.focus
  diagnostics := h.diagnostics
  dependencies := h.dependencies
  scopes := Arena.retains_of_attempts h.attempts
  attempts := by
    refine ReflTransGen.mono (fun a b hattempt => ?_) _ _ h.attempts
    obtain ⟨op, hb⟩ := hattempt
    exact ⟨op, hb, fun hok => Step.settles ⟨op, Prod.ext hok hb⟩⟩
  steps := fun a ha =>
    ReflTransGen.mono (fun _ _ hstep => ⟨hstep, hstep.settles⟩) _ _ (h.steps a ha)
  settles := fun a ha => Arena.settles_of_steps (h.steps a ha)

theorem Contract.binds_none (require : (file request : String) → SessionM Required) :
    Contract.none.Binds require :=
  ⟨fun _ _ _ => trivial, fun _ _ _ _ _ _ => trivial⟩

/-- Whatever a node is, whatever the state and whatever requires do: the visit of the node restores
how the state was looked at, only adds to what was found out, and neither removes nor moves a scope
or a name; and it does so also when it fails. -/
theorem visit_frame (require : (file request : String) → SessionM Required) (fuel : Nat)
    (s : State) :
    (∀ e, Visited s (((visitor require fuel).expr e).run s)) ∧
      ∀ stmt, Visited s (((visitor require fuel).stmt stmt).run s) := by
  have hframes := frames_visitor (Contract.binds_none require) fuel
  exact ⟨fun e => (hframes.expr e s).visited, fun stmt => (hframes.stmt stmt s).visited⟩

end HeaderCheck.Verify
