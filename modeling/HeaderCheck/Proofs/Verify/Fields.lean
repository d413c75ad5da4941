import HeaderCheck.Proofs.Scope.Fields
import HeaderCheck.Proofs.Script.Nodes
import HeaderCheck.Proofs.Verify.Frame

/-!
# HeaderCheck.Proofs.Verify.Fields

The fields that a run may make known.

* `assigns`: the fields that a node assigns through `this`, the bodies of functions left aside.
* `State.Learns P s s'`: of the functions that are there at first, none comes to know a field that `P`
  does not allow it.
* `Learns P s m`: work that leaves the state so. One rule for each way to put work together, then one
  lemma for each construct.
* `learns_visitor`: a visit makes known only what the node assigns, and that to the function at hand. A
  function that is entered on the way has a new scope.
-/

namespace HeaderCheck.Verify

open HeaderCheck.Project (Error SessionM)
open HeaderCheck.Report (Kind)
open HeaderCheck.Scope (Arena FunctionInfo ScopeId UntypedFunction)
open HeaderCheck.Scope.Arena (Attempt Operation outcome)
open HeaderCheck.Script
open HeaderCheck.Types (FunctionShape ObjectShape Param Table TypeId)

variable {α β : Type} {P : ScopeId → String → Prop} {owner : ScopeId}

/-! ## Fields that are assigned -/

/-- The field of `this` that an expression stands for. -/
def thisField? (e : Expr) : Option String :=
  (Access.ofExpr? e).bind fun access => if access.object.isThis then access.name? else none

/-- The field that a node itself assigns through `this`. -/
def assignedField? : Node → Option String
  | .expr (.assignment operator left _ _) => if operator = "=" then thisField? left else none
  | _ => none

/-- The fields that are assigned through `this` in a node, the bodies of functions left aside. -/
def assigns (n : Node) : List String :=
  n.ownNodes.filterMap assignedField?

/-- The fields that are assigned through `this` in a body, those of functions in it left aside. -/
def assignsOf (body : List Stmt) : List String :=
  (ownNodesOf body).filterMap assignedField?

/-- The file or function may come to know what the node assigns. -/
def Allows (P : ScopeId → String → Prop) (owner : ScopeId) (n : Node) : Prop :=
  ∀ field ∈ assigns n, P owner field

theorem Allows.part {n part : Node} (h : Allows P owner n) (hp : part ∈ n.parts) :
    Allows P owner part := by
  intro field hfield
  obtain ⟨node, hnode, hassigned⟩ := List.mem_filterMap.mp hfield
  refine h field (List.mem_filterMap.mpr ⟨node, ?_, hassigned⟩)
  rw [Node.ownNodes_eq]
  exact List.mem_cons_of_mem _ (List.mem_flatMap.mpr ⟨part, hp, hnode⟩)

theorem Allows.self {n : Node} (h : Allows P owner n) {field : String}
    (hfield : assignedField? n = some field) : P owner field :=
  h field (List.mem_filterMap.mpr ⟨n, n.self_mem_ownNodes, hfield⟩)

theorem allows_of_mem {body : List Stmt} (h : ∀ field ∈ assignsOf body, P owner field) {stmt : Stmt}
    (hmem : stmt ∈ body) : Allows P owner (.stmt stmt) := by
  intro field hfield
  obtain ⟨node, hnode, hassigned⟩ := List.mem_filterMap.mp hfield
  exact h field (List.mem_filterMap.mpr ⟨node, List.mem_flatMap.mpr ⟨stmt, hmem, hnode⟩, hassigned⟩)

/-! ## The judgement -/

/-- What a run leaves of the functions: those that were there know the fields that they knew, and besides
only such as they may. -/
structure State.Learns (P : ScopeId → String → Prop) (s s' : State) : Prop where
  focus : s'.focus = s.focus
  scopes : s.arena.Retains s'.arena
  fields : ∀ id info, s.arena.IsFunction id info → ∃ info', s'.arena.IsFunction id info' ∧
    ∀ field ∈ info'.knownFields, field ∈ info.knownFields ∨ P id field

variable {s s₁ s' : State}

namespace State.Learns

theorem trans (h : s.Learns P s₁) (h' : s₁.Learns P s') : s.Learns P s' where
  focus := h'.focus.trans h.focus
  scopes := h.scopes.trans h'.scopes
  fields := by
    intro id info hinfo
    obtain ⟨info₁, hinfo₁, hfields⟩ := h.fields id info hinfo
    obtain ⟨info', hinfo', hfields'⟩ := h'.fields id info₁ hinfo₁
    refine ⟨info', hinfo', fun field hfield => ?_⟩
    rcases hfields' field hfield with hknown | hallowed
    · exact hfields field hknown
    · exact .inr hallowed

/-- A run that leaves the known fields of all functions as they are. -/
theorem of_same (hfocus : s'.focus = s.focus) (hscopes : s.arena.Retains s'.arena)
    (hsame : s.arena.CarriesFunctions FunctionInfo.Same s'.arena) : s.Learns P s' where
  focus := hfocus
  scopes := hscopes
  fields := by
    intro id info hinfo
    obtain ⟨info', hinfo', hkept⟩ := hsame id info hinfo
    exact ⟨info', hinfo', fun field hfield => .inl (hkept.knownFields ▸ hfield)⟩

theorem under (h : s.Learns P s') {id : ScopeId} (hu : s.arena.Under owner id) : s'.arena.Under owner id :=
  hu.retains h.scopes

/-- The node at hand still belongs to the same file or function. -/
theorem under_focus (h : s.Learns P s') (hu : s.arena.Under owner s.focus.scope) :
    s'.arena.Under owner s'.focus.scope := by
  rw [h.focus]
  exact h.under hu

end State.Learns

/-- Work after which functions know only what they may. -/
def Learns (P : ScopeId → String → Prop) (s : State) (m : Check α) : Prop :=
  ∀ a s', m.run s = (.ok a, s') → s.Learns P s'

theorem learns_same {m : Check α} (h : ∀ a s', m.run s = (.ok a, s') →
    s'.focus = s.focus ∧ s'.arena = s.arena) : Learns P s m := by
  intro a s' hrun
  obtain ⟨hfocus, harena⟩ := h a s' hrun
  refine .of_same hfocus ?_ ?_ <;> rw [harena]
  · exact .refl _
  · exact .refl _

theorem learns_pure (a : α) : Learns P s (pure a) := by
  refine learns_same ?_
  rintro _ _ ⟨⟩
  exact ⟨rfl, rfl⟩

theorem learns_throw (e : Error) : Learns P s (throw e : Check α) := by
  rintro _ _ ⟨⟩

theorem learns_get_bind {f : State → Check α} (h : Learns P s (f s)) : Learns P s (get >>= f) :=
  h

theorem learns_bind {m : Check α} {f : α → Check β} (h : Learns P s m)
    (hf : ∀ a s₁, s.Learns P s₁ → Learns P s₁ (f a)) : Learns P s (m >>= f) := by
  intro b s' hrun
  obtain ⟨a, s₁, hm, hrest⟩ := ok_of_run_bind hrun
  have hl := h a s₁ hm
  exact hl.trans (hf a s₁ hl b s' hrest)

theorem learns_then_unit {m : Check α} (h : Learns P s m) : Learns P s (do let _ ← m) :=
  learns_bind h fun _ _ _ => learns_pure _

/-- No result after a report. -/
theorem learns_none {m : Check Unit} (h : Learns P s m) :
    Learns P s (do m; pure none : Check (Option α)) :=
  learns_bind h fun _ _ _ => learns_pure none

theorem learns_withFocus {change : Focus → Focus} {m : Check α}
    (h : Learns P { s with focus := change s.focus } m) : Learns P s (withFocus change m) := by
  intro a s' hrun
  rw [run_withFocus] at hrun
  obtain ⟨hresult, rfl⟩ := Prod.mk.inj hrun
  have hl := h a _ (Prod.ext hresult rfl)
  exact ⟨rfl, hl.scopes, hl.fields⟩

/-! ## Primitives -/

/-- Work that only takes notes. -/
theorem Notes.learns {m : Check α} (h : Notes m) : Learns P s m := by
  refine learns_same fun a s' hrun => ?_
  obtain ⟨table, diagnostics, hsame⟩ := (h s).same
  rw [hrun] at hsame
  cases hsame
  exact ⟨rfl, rfl⟩

theorem learns_report {kind : Kind} {span : Span} {fields : List (String × String)} :
    Learns P s (report kind span fields) :=
  notes_report.learns

theorem learns_onTable (f : Table → α × Table) : Learns P s (onTable f) :=
  (notes_onTable f).learns

theorem learns_modify {change : State → State} (hfocus : (change s).focus = s.focus)
    (harena : (change s).arena = s.arena) : Learns P s (modify change) := by
  refine learns_same ?_
  rintro _ _ ⟨⟩
  exact ⟨hfocus, harena⟩

theorem learns_onSession (m : SessionM α) : Learns P s (onSession m) := by
  refine learns_same fun a s' hrun => ?_
  rw [run_onSession] at hrun
  obtain ⟨-, rfl⟩ := Prod.mk.inj hrun
  exact ⟨rfl, rfl⟩

theorem learns_arena {arena : Arena} (op : Operation) (hop : op.isSilent = true)
    (h : (op.run s.arena).2 = arena) : s.Learns P { s with arena } :=
  .of_same rfl (Attempt.retains ⟨op, h⟩) (h ▸ op.sameFields hop)

theorem learns_onArena {f : Arena → Except Scope.Error α × Arena} (op : Operation)
    (hop : op.isSilent = true) (h : ∀ a, outcome (f a) = op.run a) : Learns P s (onArena f) := by
  intro a s' hrun
  rw [run_onArena] at hrun
  obtain ⟨-, rfl⟩ := Prod.mk.inj hrun
  exact learns_arena op hop (by rw [← h]; rfl)

theorem learns_openBranch : Learns P s openBranch := by
  rintro _ _ ⟨⟩
  exact learns_arena (.pushBranch s.focus.scope) rfl rfl

/-- A branch of the current scope belongs to the same file or function. -/
theorem learns_openBranch_bind (hu : s.arena.Under owner s.focus.scope) {f : ScopeId → Check α}
    (hf : ∀ branch s₁, s.Learns P s₁ → s₁.arena.Under owner branch → Learns P s₁ (f branch)) :
    Learns P s (openBranch >>= f) := by
  intro a s' hrun
  obtain ⟨branch, s₁, hopen, hrest⟩ := ok_of_run_bind hrun
  have hl : s.Learns P s₁ := learns_openBranch branch s₁ hopen
  cases hopen
  exact hl.trans (hf _ _ hl hu.pushBranch a s' hrest)

/-! ## Visitors -/

/-- What the visitor of the parts of a node must do. -/
structure Visitor.Learns (v : Visitor) : Prop where
  expr : ∀ {P owner s} (e : Expr), s.arena.Under owner s.focus.scope → Allows P owner (.expr e) →
    Verify.Learns P s (v.expr e)
  stmt : ∀ {P owner s} (stmt : Stmt), s.arena.Under owner s.focus.scope → Allows P owner (.stmt stmt) →
    Verify.Learns P s (v.stmt stmt)

variable {v : Visitor}

theorem learns_bindUntyped? (e : Expr) (expected : TypeId) : Learns P s (bindUntyped? e expected) := by
  refine learns_get_bind ?_
  split
  · split
    · exact learns_bind (learns_onArena (.updateFunction _ _ _) rfl fun _ => rfl) fun _ _ _ =>
        learns_pure _
    · exact learns_pure _
  · exact learns_pure _

namespace Visitor.Learns

theorem expecting (hv : v.Learns) {e : Expr} (hu : s.arena.Under owner s.focus.scope)
    (hn : Allows P owner (.expr e)) (expected : Option TypeId) :
    Verify.Learns P s (Verify.expecting expected (v.expr e)) := by
  rw [Verify.expecting]
  exact learns_withFocus (hv.expr e hu hn)

theorem value (hv : v.Learns) {e : Expr} (hu : s.arena.Under owner s.focus.scope)
    (hn : Allows P owner (.expr e)) : Verify.Learns P s (v.value e) :=
  hv.expecting hu hn none

theorem asRead (hv : v.Learns) {e : Expr} (hu : s.arena.Under owner s.focus.scope)
    (hn : Allows P owner (.expr e)) : Verify.Learns P s (Verify.asRead (v.expr e)) := by
  rw [Verify.asRead]
  exact learns_withFocus (hv.expr e hu hn)

theorem asTarget (hv : v.Learns) {e : Expr} (hu : s.arena.Under owner s.focus.scope)
    (hn : Allows P owner (.expr e)) : Verify.Learns P s (Verify.asTarget (v.expr e)) := by
  rw [Verify.asTarget]
  exact learns_withFocus (hv.expr e hu hn)

theorem into (hv : v.Learns) {e : Expr} (hu : s.arena.Under owner s.focus.scope)
    (hn : Allows P owner (.expr e)) (expected : Option TypeId) :
    Verify.Learns P s (v.into e expected) := by
  cases expected with
  | none => exact hv.value hu hn
  | some expected =>
    refine learns_bind (learns_bindUntyped? e expected) fun bound s₁ hl => ?_
    cases bound with
    | none => exact hv.expecting (hl.under_focus hu) hn _
    | some bound => exact learns_pure _

theorem inOrder (hv : v.Learns) {stmts : List Stmt} (hu : s.arena.Under owner s.focus.scope)
    (hn : ∀ stmt ∈ stmts, Allows P owner (.stmt stmt)) : Verify.Learns P s (v.inOrder stmts) := by
  induction stmts generalizing s with
  | nil => exact learns_pure _
  | cons stmt rest ih =>
    obtain ⟨hstmt, hrest⟩ := List.forall_mem_cons.mp hn
    exact learns_bind (hv.stmt stmt hu hstmt) fun _ s₁ hl => ih (hl.under_focus hu) hrest

theorem statements (hv : v.Learns) {stmts : List Stmt} (hu : s.arena.Under owner s.focus.scope)
    (hn : ∀ stmt ∈ stmts, Allows P owner (.stmt stmt)) : Verify.Learns P s (v.statements stmts) :=
  learns_bind (hv.inOrder hu fun stmt hmem => hn stmt (List.mem_filter.mp hmem).1) fun _ _ hl =>
    hv.inOrder (hl.under_focus hu) fun stmt hmem => hn stmt (List.mem_filter.mp hmem).1

end Visitor.Learns

theorem learns_registerFunctions (stmts : List Stmt) : Learns P s (registerFunctions stmts) := by
  fun_induction registerFunctions stmts generalizing s with
  | case1 => exact learns_pure _
  | case2 f rest ih =>
    exact learns_get_bind (learns_bind (learns_onArena (.addFunction _ _ _) rfl fun _ => rfl)
      fun _ _ _ => ih)
  | case3 stmt rest _ ih => exact ih

theorem Visitor.Learns.block (hv : v.Learns) {stmts : List Stmt}
    (hu : s.arena.Under owner s.focus.scope) (hn : ∀ stmt ∈ stmts, Allows P owner (.stmt stmt)) :
    Verify.Learns P s (v.block stmts) :=
  learns_bind (learns_registerFunctions stmts) fun _ _ hl => hv.statements (hl.under_focus hu) hn

/-! ## Functions -/

theorem learns_bindParams (scope : ScopeId) (params : List (Identifier × Param)) :
    Learns P s (bindParams scope params) := by
  induction params generalizing s with
  | nil => exact learns_pure _
  | cons param rest ih =>
    have hbound {s : State} (type : TypeId) : Learns P s (do
        onArena fun a => a.addVar scope param.1.name type
        bindParams scope rest) :=
      learns_bind (learns_onArena (.addVar _ _ _) rfl fun _ => rfl) fun _ _ _ => ih
    rw [bindParams]
    split
    · exact learns_bind (learns_onTable _) fun type _ _ => hbound type
    · exact hbound param.2.type

/-- In its own scope a function may come to know what its body assigns. -/
theorem learns_enterBody (hv : v.Learns) (f : Function) {scope : ScopeId}
    (hu : s.arena.Under scope scope) (hn : ∀ field ∈ assignsOf f.body, P scope field) :
    Learns P s (enterBody v f scope) := by
  refine learns_bind (learns_modify rfl rfl) fun _ s₁ hl => ?_
  rw [inScope]
  exact learns_withFocus (hv.block (hl.under hu) fun stmt hmem => allows_of_mem hn hmem)

/-- A function gets a new scope, in which it is as described. -/
theorem run_pushFunction {u : State} {parent scope : ScopeId} {info : FunctionInfo}
    (hrun : (onArena fun a => a.pushFunction parent info).run s = (.ok scope, u)) :
    scope = ⟨s.arena.size⟩ ∧ u.arena.IsFunction ⟨s.arena.size⟩ info := by
  rw [run_onArena] at hrun
  cases hresult : s.arena.pushFunction parent info with
  | mk result arena =>
    rw [hresult] at hrun
    cases result with
    | error e => cases hrun
    | ok pushed =>
      cases hrun
      exact Arena.pushFunction_ok hresult

/-- What only newer functions come to know is nothing to those that were there. -/
theorem State.Learns.trans_newer {new : ScopeId} (h : s.Learns P s₁) (hnew : s.arena.size ≤ new.index)
    (h' : s₁.Learns (fun id _ => id = new) s') : s.Learns P s' where
  focus := h'.focus.trans h.focus
  scopes := h.scopes.trans h'.scopes
  fields := by
    intro id info hinfo
    obtain ⟨info₁, hinfo₁, hfields⟩ := h.fields id info hinfo
    obtain ⟨info', hinfo', hfields'⟩ := h'.fields id info₁ hinfo₁
    refine ⟨info', hinfo', fun field hfield => hfields field ?_⟩
    refine (hfields' field hfield).resolve_right ?_
    rintro rfl
    exact Nat.not_lt.mpr hnew hinfo.under.lt_size

/-- A function is verified in a scope of its own, so no other one comes to know anything. -/
theorem learns_verifyFunction (hv : v.Learns) (f : Function) (declared : TypeId) (key : String) :
    Learns P s (verifyFunction v f declared key) := by
  refine learns_get_bind ?_
  split
  · exact learns_report
  next shape _ =>
  intro a s' hrun
  obtain ⟨scope, u, hpush, hrest⟩ := ok_of_run_bind hrun
  have hpushed : s.Learns P u := learns_onArena (.pushFunction _ _) rfl (fun _ => rfl) scope u hpush
  obtain ⟨rfl, hinfo⟩ := run_pushFunction hpush
  refine hpushed.trans_newer (Nat.le_refl _) ?_
  suffices hbody : Learns (fun id _ => id = ⟨s.arena.size⟩) u _ from hbody a s' hrest
  simp only
  split
  · exact learns_report
  · refine learns_bind (learns_bindParams _ _) fun _ s₀ hl => ?_
    refine learns_bind (learns_enterBody hv f (hl.under hinfo.under) fun _ _ => rfl) fun _ s₁ _ => ?_
    refine learns_get_bind ?_
    split
    · exact (notes_checkBody f _).learns
    · exact learns_pure _

theorem learns_verifyDeclared (hv : v.Learns) (f : Function) : Learns P s (verifyDeclared v f) := by
  refine learns_get_bind ?_
  split
  · exact learns_pure _
  split
  · exact learns_verifyFunction hv f _ _
  · exact learns_report

theorem learns_verifyFunctionExpr (hv : v.Learns) (f : Function) :
    Learns P s (verifyFunctionExpr v f) := by
  refine learns_get_bind ?_
  split
  · exact learns_none learns_report
  split
  · exact learns_bind (learns_verifyFunction hv f _ _) fun _ _ _ => learns_pure _
  · exact learns_pure _

/-! ## Literals and accesses -/

section Parts

variable (hv : v.Learns) (hu : s.arena.Under owner s.focus.scope)

include hv hu

theorem learns_verifyElements (context : Option TypeId) (element : TypeId) {elements : List Expr}
    (hn : ∀ e ∈ elements, Allows P owner (.expr e)) :
    Learns P s (verifyElements v context element elements) := by
  induction elements generalizing s with
  | nil => exact learns_pure _
  | cons e rest ih =>
    obtain ⟨he, hrest⟩ := List.forall_mem_cons.mp hn
    have hfits {s₁ : State} (hu : s₁.arena.Under owner s₁.focus.scope) (fits : Bool) : Learns P s₁ (do
        let restFits ← verifyElements v context element rest
        return fits && restFits) := learns_bind (ih hu hrest) fun _ _ _ => learns_pure _
    refine learns_bind (hv.expecting hu he context) fun actual s₁ hl => ?_
    cases actual with
    | none => exact hfits (hl.under_focus hu) false
    | some actual =>
      exact learns_bind notes_checkFits.learns fun fits s₂ hl₂ => hfits ((hl.trans hl₂).under_focus hu) fits

theorem learns_verifyArray {elements : List Expr} (hn : ∀ e ∈ elements, Allows P owner (.expr e)) :
    Learns P s (verifyArray v elements) := by
  refine learns_get_bind ?_
  simp only
  split
  · split
    · exact learns_pure _
    · exact learns_bind (learns_onTable _) fun _ _ _ => (notes_made _).learns
  next first rest =>
  obtain ⟨hfirst, hrest⟩ := List.forall_mem_cons.mp hn
  refine learns_bind (hv.expecting hu hfirst _) fun firstType s₁ hl => ?_
  cases firstType with
  | none => exact learns_pure _
  | some firstType =>
    refine learns_bind (learns_verifyElements hv (hl.under_focus hu) _ _ hrest) fun fits s₂ _ => ?_
    split
    · exact (notes_made _).learns
    · exact learns_pure _

theorem learns_verifyFields (context : Option ObjectShape) {properties : List Property}
    (hn : ∀ property ∈ properties, Allows P owner (.expr property.value)) :
    Learns P s (verifyFields v context properties) := by
  induction properties generalizing s with
  | nil => exact learns_pure _
  | cons property rest ih =>
    obtain ⟨hproperty, hrest⟩ := List.forall_mem_cons.mp hn
    rw [verifyFields]
    split
    · exact learns_throw _
    split
    · exact learns_throw _
    · exact learns_bind (hv.into hu hproperty _) fun _ s₁ hl =>
        learns_bind (ih (hl.under_focus hu) hrest) fun _ _ _ => learns_pure _

theorem learns_verifyObject {properties : List Property}
    (hn : ∀ property ∈ properties, Allows P owner (.expr property.value)) :
    Learns P s (verifyObject v properties) := by
  rw [verifyObject]
  split
  · exact learns_pure _
  refine learns_get_bind (learns_bind (learns_verifyFields hv hu _ hn) fun fields s₁ _ => ?_)
  cases fields with
  | some fields => exact (notes_made _).learns
  | none => exact learns_pure _

theorem Access.learns_computedType (access : Access) (object : TypeId)
    (hn : Allows P owner (.expr access.property)) : Learns P s (access.computedType v object) := by
  refine learns_bind (hv.asRead hu hn) fun index s₁ _ => ?_
  cases index with
  | none => exact learns_pure _
  | some index =>
    simp only
    split
    · exact learns_pure _
    refine learns_get_bind ?_
    split
    · exact (access.notes_indexed _ _ _).learns
    · split
      · exact (access.notes_indexed _ _ _).learns
      · exact (access.notes_literalPart object).learns
    · exact (access.notes_literalPart object).learns

theorem Access.learns_typeOn (access : Access) (object : TypeId)
    (hn : Allows P owner (.expr access.property)) : Learns P s (access.typeOn v object) := by
  rw [typeOn]
  split
  · exact access.learns_computedType hv hu object hn
  split
  · exact (access.notes_fieldType object _).learns
  · exact learns_pure _

theorem Access.learns_verify (access : Access) (ho : Allows P owner (.expr access.object))
    (hp : Allows P owner (.expr access.property)) : Learns P s (access.verify v) := by
  refine learns_bind (hv.asRead hu ho) fun object s₁ hl => ?_
  cases object with
  | some object => exact access.learns_typeOn hv (hl.under_focus hu) object hp
  | none => exact learns_pure _

/-! ## Operators -/

theorem learns_verifyBinary (operator : String) {left right : Expr} (span : Span)
    (hleft : Allows P owner (.expr left)) (hright : Allows P owner (.expr right)) :
    Learns P s (verifyBinary v operator left right span) := by
  refine learns_bind (hv.value hu hleft) fun leftType s₁ hl => ?_
  refine learns_bind (hv.value (hl.under_focus hu) hright) fun rightType s₂ _ => ?_
  split
  · exact (notes_applyOperator _ _ _).learns
  · exact learns_pure _

theorem learns_verifyUnary (operator : String) {argument : Expr} (span : Span)
    (hn : Allows P owner (.expr argument)) : Learns P s (verifyUnary v operator argument span) := by
  refine learns_bind (hv.value hu hn) fun argument s₁ _ => ?_
  split
  · exact (notes_applyOperator _ _ _).learns
  · exact learns_pure _

theorem learns_verifyCompound (operator : String) {left right : Expr} (span : Span)
    (hleft : Allows P owner (.expr left)) (hright : Allows P owner (.expr right)) :
    Learns P s (verifyCompound v operator left right span) := by
  refine learns_bind (hv.asRead hu hleft) fun leftType s₁ hl₁ => ?_
  refine learns_bind (hv.value (hl₁.under_focus hu) hright) fun rightType s₂ hl₂ => ?_
  split
  · refine learns_bind (notes_applyOperator _ _ _).learns fun result s₃ hl₃ => ?_
    cases result with
    | none => exact learns_pure _
    | some result =>
      refine learns_bind (hv.asTarget (((hl₁.trans hl₂).trans hl₃).under_focus hu) hleft)
        fun target s₄ _ => ?_
      cases target with
      | none => exact learns_pure _
      | some target =>
        simp only
        split
        · exact learns_bind notes_checkFits.learns fun _ _ _ => learns_pure _
        · exact learns_pure _
  · exact learns_pure _

/-! ## Calls -/

namespace Call

theorem learns_plainArguments {arguments : List Expr} (params : List Param)
    (hn : ∀ e ∈ arguments, Allows P owner (.expr e)) :
    Learns P s (plainArguments v arguments params) := by
  induction arguments generalizing s params with
  | nil => exact learns_pure _
  | cons argument rest ih =>
    obtain ⟨hargument, hrest⟩ := List.forall_mem_cons.mp hn
    rw [plainArguments]
    split
    · simp only [pure_bind]
      exact learns_bind (ih hu _ hrest) fun _ _ _ => learns_pure _
    · refine learns_get_bind (learns_bind (hv.into hu hargument _) fun _ s₁ hl => ?_)
      exact learns_bind (ih (hl.under_focus hu) _ hrest) fun _ _ _ => learns_pure _

omit hv in
/-- An argument that has a type is checked, and then the others are. -/
theorem learns_checkPassed {rest : Check Unit} (span : Span) (param : Param) (passed : Option TypeId)
    (h : ∀ {s : State}, s.arena.Under owner s.focus.scope → Learns P s rest) :
    Learns P s (do
      match passed with
      | some actual => checkArgument span param actual
      | none => pure ()
      rest) := by
  cases passed with
  | none => exact h hu
  | some actual =>
    exact learns_bind (notes_checkArgument _ _ _).learns fun _ _ hl => h (hl.under_focus hu)

theorem learns_checkArguments {arguments : List Expr} (params : List Param)
    (verified : List (Option TypeId)) (hn : ∀ e ∈ arguments, Allows P owner (.expr e)) :
    Learns P s (checkArguments v arguments params verified) := by
  induction arguments generalizing s params verified with
  | nil => exact learns_pure _
  | cons argument rest ih =>
    obtain ⟨hargument, hrest⟩ := List.forall_mem_cons.mp hn
    cases params with
    | nil => exact learns_pure _
    | cons param params =>
      cases verified with
      | nil => exact learns_pure _
      | cons type types =>
        have hothers {s : State} (hu : s.arena.Under owner s.focus.scope) :
            Learns P s (checkArguments v rest params types) := ih hu params types hrest
        rw [checkArguments]
        split
        · exact learns_bind (hv.into hu hargument _) fun actual s₁ hl =>
            learns_checkPassed (hl.under_focus hu) _ _ actual hothers
        · exact learns_checkPassed hu _ _ type hothers

omit hv hu in
theorem learns_verifyRequire (call : Call) : Learns P s (call.verifyRequire v) := by
  have hunknown {s : State} (name : String) : Learns P s (verifyRequire.unknown call name) :=
    learns_none learns_report
  refine learns_get_bind ?_
  split
  · split
    · exact hunknown _
    · refine learns_bind (learns_onSession _) fun required s₁ _ => ?_
      cases required with
      | resolved path exports =>
        refine learns_bind (learns_modify ?_ ?_) fun _ _ _ => learns_pure _ <;> split <;> rfl
      | cyclic => exact learns_none learns_report
      | notFound => exact hunknown _
  · exact hunknown _

theorem learns_calleeType (call : Call) (hn : Allows P owner (.expr call.callee)) :
    Learns P s (call.calleeType v) := by
  rw [calleeType]
  split
  · next access haccess =>
    rw [Access.eq_of_ofExpr? haccess] at hn
    refine learns_bind (hv.asRead hu (hn.part (by simp [Node.parts, Node.exprParts])))
      fun object s₁ hl => ?_
    cases object with
    | none => exact learns_pure _
    | some object =>
      refine learns_bind (access.learns_typeOn hv (hl.under_focus hu) object
        (hn.part (by simp [Node.parts, Node.exprParts]))) fun method s₂ _ => ?_
      cases method <;> exact learns_pure _
  · refine learns_bind (hv.value hu hn) fun callee s₁ _ => ?_
    cases callee <;> exact learns_pure _

theorem learns_verifyAny {arguments : List Expr} (hn : ∀ e ∈ arguments, Allows P owner (.expr e)) :
    Learns P s (verifyAny v arguments) := by
  induction arguments generalizing s with
  | nil => exact learns_pure _
  | cons argument rest ih =>
    obtain ⟨hargument, hrest⟩ := List.forall_mem_cons.mp hn
    exact learns_bind (hv.value hu hargument) fun _ s₁ hl => ih (hl.under_focus hu) hrest

omit hv hu in
theorem learns_checkReceiver (call : Call) (receiver this : Option TypeId) :
    Learns P s (call.checkReceiver receiver this) := by
  have hrefine {s : State} (object : Expr) (receiver this : TypeId) :
      Learns P s (refineReceiver object receiver this) := by
    refine learns_get_bind ?_
    split
    · split
      · exact learns_then_unit (learns_onArena (.forceUpdateVar _ _ _) rfl fun _ => rfl)
      · exact learns_pure _
    · exact learns_pure _
  unfold checkReceiver
  split
  · exact learns_bind notes_checkFits.learns fun _ _ _ => hrefine _ _ _
  · exact learns_pure _

theorem learns_apply (call : Call) (callee : TypeId) (receiver : Option TypeId) (shape : FunctionShape)
    (hn : ∀ e ∈ call.arguments, Allows P owner (.expr e)) :
    Learns P s (call.apply v callee receiver shape) := by
  refine learns_get_bind ?_
  split
  · exact learns_none learns_report
  refine learns_bind (learns_plainArguments hv hu _ hn) fun arguments s₁ hl₁ => ?_
  refine learns_bind (call.notes_checkArity _ _).learns fun fits s₂ hl₂ => ?_
  split
  · refine learns_bind (call.notes_solvedShape _ _ _).learns fun shape s₃ hl₃ => ?_
    cases shape with
    | none => exact learns_pure _
    | some shape =>
      refine learns_bind
        (learns_checkArguments hv (((hl₁.trans hl₂).trans hl₃).under_focus hu) _ _ hn) fun _ _ _ => ?_
      exact learns_bind (call.learns_checkReceiver _ _) fun _ _ _ => learns_pure _
  · exact learns_pure _

theorem learns_verifyTyped (call : Call) (hcallee : Allows P owner (.expr call.callee))
    (hn : ∀ e ∈ call.arguments, Allows P owner (.expr e)) : Learns P s (call.verifyTyped v) := by
  refine learns_bind (call.learns_calleeType hv hu hcallee) fun callee s₁ hl => ?_
  have hu₁ := hl.under_focus hu
  split
  · exact learns_pure _
  split
  · exact learns_bind (learns_verifyAny hv hu₁ hn) fun _ _ _ => learns_pure _
  refine learns_get_bind ?_
  split
  · exact learns_none (call.notes_reportNonFunction _).learns
  · exact call.learns_apply hv hu₁ _ _ _ hn

theorem learns_inferParams {arguments : List Expr} (names : List Identifier)
    (hn : ∀ e ∈ arguments, Allows P owner (.expr e)) :
    Learns P s (inferParams v arguments names) := by
  induction arguments generalizing s names with
  | nil => exact learns_pure _
  | cons argument rest ih =>
    obtain ⟨hargument, hrest⟩ := List.forall_mem_cons.mp hn
    refine learns_bind (hv.value hu hargument) fun type s₁ hl => ?_
    cases type with
    | none => exact learns_pure _
    | some type =>
      refine learns_bind (ih (hl.under_focus hu) _ hrest) fun params s₂ _ => ?_
      cases params <;> exact learns_pure _

theorem learns_infer (call : Call) (name : String) (untyped : UntypedFunction)
    (hn : ∀ e ∈ call.arguments, Allows P owner (.expr e)) :
    Learns P s (call.infer v name untyped) := by
  refine learns_bind (learns_inferParams hv hu _ hn) fun params s₁ _ => ?_
  cases params with
  | none => exact learns_pure _
  | some params =>
    refine learns_get_bind (learns_bind (learns_onTable _) fun type s₂ _ => ?_)
    refine learns_bind (learns_onArena (.updateFunction _ _ _) rfl fun _ => rfl) fun _ s₃ _ => ?_
    refine learns_bind (learns_withFocus (learns_verifyFunction hv _ _ _)) fun _ s₄ _ => ?_
    split
    · exact learns_pure _
    split
    · refine learns_get_bind (learns_bind (learns_onTable _) fun _ s₅ _ => ?_)
      exact learns_bind (learns_onArena (.forceUpdateVar _ _ _) rfl fun _ => rfl) fun _ _ _ =>
        learns_pure _
    · exact learns_pure _

theorem learns_verify (call : Call) (hcallee : Allows P owner (.expr call.callee))
    (hn : ∀ e ∈ call.arguments, Allows P owner (.expr e)) : Learns P s (call.verify v) := by
  refine learns_get_bind ?_
  split
  · split
    · exact call.learns_verifyTyped hv hu hcallee hn
    split
    · exact call.learns_verifyRequire
    split
    · exact call.learns_infer hv hu _ _ hn
    · exact call.learns_verifyTyped hv hu hcallee hn
  · exact call.learns_verifyTyped hv hu hcallee hn

theorem learns_verifyNew (call : Call) (hcallee : Allows P owner (.expr call.callee))
    (hn : ∀ e ∈ call.arguments, Allows P owner (.expr e)) : Learns P s (call.verifyNew v) := by
  have hconstruct {s : State} (hu : s.arena.Under owner s.focus.scope) (shape : FunctionShape)
      (object : TypeId) : Learns P s (call.construct v shape object) := by
    refine learns_get_bind (learns_bind (learns_plainArguments hv hu _ hn) fun arguments s₁ hl₁ => ?_)
    refine learns_bind (call.notes_checkArity _ _).learns fun fits s₂ hl₂ => ?_
    split
    · refine learns_bind (learns_checkArguments hv ((hl₁.trans hl₂).under_focus hu) _ _ hn)
        fun _ _ _ => ?_
      split
      · exact learns_pure _
      · exact (notes_made _).learns
    · exact learns_pure _
  refine learns_bind (hv.value hu hcallee) fun callee s₁ hl => ?_
  cases callee with
  | none => exact learns_pure _
  | some callee =>
    refine learns_get_bind ?_
    split
    · exact learns_none (call.notes_reportNonFunction _).learns
    split
    · exact learns_none learns_report
    split
    · exact learns_none learns_report
    split
    · exact learns_none learns_report
    · exact hconstruct (hl.under_focus hu) _ _

end Call

/-! ## Assignments -/

omit hv in
/-- A field that is noted becomes known to the file or function at hand. -/
theorem learns_addKnownField {field : String} (hfield : P owner field) :
    Learns P s (onArena fun a => a.addKnownField s.focus.scope field) := by
  intro a s' hrun
  rw [run_onArena] at hrun
  obtain ⟨-, rfl⟩ := Prod.mk.inj hrun
  refine ⟨rfl, Attempt.retains ⟨.addKnownField s.focus.scope field, rfl⟩, fun id info hinfo => ?_⟩
  obtain ⟨info', hinfo', hknown⟩ := Arena.knownFields_addKnownField hu hinfo field
  refine ⟨info', hinfo', fun known hmem => (hknown known hmem).imp_right ?_⟩
  rintro ⟨rfl, rfl⟩
  exact hfield

omit hv hu in
theorem learns_widenObject (access : Access) (value : TypeId) :
    Learns P s (widenObject access value) := by
  refine learns_get_bind ?_
  split
  · split
    · exact learns_pure _
    refine learns_bind (notes_onTable? _).learns fun widened s₁ _ => ?_
    cases widened with
    | none => exact learns_pure _
    | some widened =>
      exact learns_then_unit (learns_onArena (.forceUpdateVar _ _ _) rfl fun _ => rfl)
  · exact learns_pure _

omit hv in
theorem learns_recordAssigned {left : Expr} (value : TypeId)
    (hleft : ∀ field, thisField? left = some field → P owner field) :
    Learns P s (recordAssigned left value) := by
  have hfield (access : Access) (hread : Access.ofExpr? left = some access) :
      Learns P s (recordField access value) := by
    refine learns_get_bind ?_
    split
    · exact learns_pure _
    next field hname =>
    split
    · next hthis =>
      split
      · exact learns_addKnownField hu (hleft field (by simp [thisField?, hread, hthis, hname]))
      · exact learns_pure _
    split
    · split
      · exact learns_onArena (.addPrototypeField _ _ _ _) rfl fun _ => rfl
      · exact learns_pure _
    · exact learns_pure _
  refine learns_get_bind ?_
  split
  · split
    · exact learns_onArena (.restrict _ _ _) rfl fun _ => rfl
    · exact learns_pure _
  split
  · next access hread => exact hfield access hread
  · exact learns_pure _

theorem learns_assignChecked {left right : Expr} (type : TypeId)
    (hleft : ∀ field, thisField? left = some field → P owner field) (hn : Allows P owner (.expr right)) :
    Learns P s (assignChecked v left type right) := by
  refine learns_bind (notes_targetType left type right).learns fun expected s₁ hl₁ => ?_
  refine learns_bind (hv.into (hl₁.under_focus hu) hn _) fun value s₂ hl₂ => ?_
  cases value with
  | none => exact learns_pure _
  | some value =>
    refine learns_bind notes_checkFits.learns fun _ s₃ hl₃ => ?_
    have hu₃ := ((hl₁.trans hl₂).trans hl₃).under_focus hu
    exact learns_bind (learns_recordAssigned hu₃ value hleft) fun _ _ _ => learns_pure _

theorem learns_assignFreely {right : Expr} {accept : TypeId → Check Unit}
    (hn : Allows P owner (.expr right)) (h : ∀ {s : State} value, Learns P s (accept value)) :
    Learns P s (assignFreely v right accept) := by
  refine learns_bind (hv.into hu hn _) fun value s₁ _ => ?_
  cases value with
  | none => exact learns_pure _
  | some value => exact learns_bind (h value) fun _ _ _ => learns_pure _

/-- Only what is assigned to a field of `this` makes that field known. -/
theorem learns_verifyAssignment (operator : String) {left right : Expr} (span : Span)
    (hn : Allows P owner (.expr (.assignment operator left right span))) :
    Learns P s (verifyAssignment v operator left right span) := by
  have hleft : Allows P owner (.expr left) := hn.part (by simp [Node.parts, Node.exprParts])
  have hright : Allows P owner (.expr right) := hn.part (by simp [Node.parts, Node.exprParts])
  rw [verifyAssignment]
  split
  · exact learns_verifyCompound hv hu operator span hleft hright
  next hoperator =>
  have hassigned (field : String) (h : thisField? left = some field) : P owner field :=
    hn.self (by rw [assignedField?, if_pos (not_not.mp hoperator), h])
  refine learns_bind (hv.asTarget hu hleft) fun type s₁ hl => ?_
  have hu₁ := hl.under_focus hu
  cases type with
  | none => exact learns_pure _
  | some type =>
    simp only [assignTo]
    split
    · exact learns_assignFreely hv hu₁ hright fun _ => learns_modify rfl rfl
    split
    · refine learns_assignFreely hv hu₁ hright fun value => learns_get_bind ?_
      exact learns_then_unit (learns_onArena (.forceUpdateVar _ _ _) rfl fun _ => rfl)
    · exact learns_assignFreely hv hu₁ hright (learns_widenObject _)
    · exact learns_assignChecked hv hu₁ type hassigned hright

/-! ## Declarations and returns -/

theorem learns_verifyDeclarator {declarator : Declarator}
    (hn : ∀ init ∈ declarator.init, Allows P owner (.expr init)) :
    Learns P s (verifyDeclarator v declarator) := by
  have hdeclared (name : String) (declared : TypeId) {init : Expr} (hinit : Allows P owner (.expr init)) :
      Learns P s (verifyDeclaredVariable v name declared init) := by
    refine learns_bind (hv.into hu hinit _) fun actual s₁ _ => ?_
    cases actual with
    | none => exact learns_pure _
    | some actual =>
      simp only
      split
      · refine learns_get_bind ?_
        exact learns_then_unit (learns_onArena (.forceUpdateVar _ _ _) rfl fun _ => rfl)
      · exact learns_then_unit notes_checkFits.learns
  have hnew (name : String) {init : Expr} (hinit : Allows P owner (.expr init)) :
      Learns P s (verifyNewVariable v name init) := by
    refine learns_get_bind ?_
    simp only
    split
    · exact learns_onArena (.addVar _ _ _) rfl fun _ => rfl
    refine learns_bind (hv.into hu hinit _) fun actual s₁ _ => ?_
    cases actual with
    | some actual => exact learns_onArena (.addVar _ _ _) rfl fun _ => rfl
    | none => exact learns_modify rfl rfl
  refine learns_get_bind ?_
  simp only
  split
  · next hinit => exact hdeclared _ _ (hn _ hinit)
  · exact learns_pure _
  · exact learns_onArena (.addVar _ _ _) rfl fun _ => rfl
  · next hinit => exact hnew _ (hn _ hinit)

theorem learns_verifyVariables {declaration : Declaration}
    (hn : ∀ part ∈ Node.initials declaration.declarators, Allows P owner part) :
    Learns P s (verifyVariables v declaration) := by
  rw [verifyVariables]
  generalize declaration.declarators = declarators at hn
  induction declarators generalizing s with
  | nil => exact learns_pure _
  | cons declarator rest ih =>
    rw [Node.initials, List.flatMap_cons] at hn
    obtain ⟨hfirst, hrest⟩ := List.forall_mem_append.mp hn
    refine learns_bind (learns_verifyDeclarator hv hu fun init hinit => ?_) fun _ s₁ hl =>
      ih (hl.under_focus hu) hrest
    exact hfirst _ (List.mem_map_of_mem (Option.mem_toList.mpr hinit))

omit hv hu in
theorem learns_whileReturning (expected : TypeId) {m : Check α}
    (h : ∀ {s₁}, s.Learns P s₁ → Learns P s₁ m) : Learns P s (whileReturning expected m) := by
  refine learns_get_bind (learns_bind (learns_onArena (.enterReturn _ _) rfl fun _ => rfl) fun _ s₁ hl => ?_)
  have hinOrder : Learns P s₁ (do
      let a ← m
      onArena fun arena => arena.exitReturn s.focus.scope
      pure a) :=
    learns_bind (h hl) fun _ _ _ =>
      learns_bind (learns_onArena (.exitReturn _) rfl fun _ => rfl) fun _ _ _ => learns_pure _
  -- a run that succeeds leaves the return statement after its argument
  intro a s' hrun
  refine hinOrder a s' ?_
  rcases hm : m.run s₁ with ⟨result, after⟩
  rw [ExceptT.run_mk, hm] at hrun
  simp only at hrun
  split at hrun
  · next hexit =>
    cases hrun
    rw [run_bind_ok hm, run_bind_ok hexit]
    rfl
  · cases hrun

theorem learns_verifyReturn {argument : Option Expr} (span : Span)
    (hn : ∀ e ∈ argument, Allows P owner (.expr e)) : Learns P s (verifyReturn v argument span) := by
  have hreturned {s : State} (hu : s.arena.Under owner s.focus.scope) :
      Learns P s (returnedType v argument) := by
    cases argument with
    | some argument => exact learns_bind (hv.value hu (hn argument rfl)) fun _ _ _ => learns_pure _
    | none => exact learns_pure _
  refine learns_get_bind ?_
  split
  · exact learns_then_unit (hv.expr _ hu (hn _ rfl))
  · exact learns_pure _
  · refine learns_bind (learns_whileReturning _ fun hl => hreturned (hl.under_focus hu)) fun _ s₁ _ => ?_
    exact learns_onArena (.markReturnType _ _ _) rfl fun _ => rfl

/-! ## Branches -/

omit hv hu in
theorem learns_narrowIn (scope : ScopeId) (name : String)
    (change : Table → TypeId → Option (TypeId × Table)) : Learns P s (narrowIn scope name change) := by
  refine learns_get_bind ?_
  split
  · exact learns_pure _
  refine learns_bind (notes_onTable? _).learns fun narrowed s₁ _ => ?_
  cases narrowed with
  | none => exact learns_pure _
  | some narrowed => exact learns_onArena (.restrict _ _ _) rfl fun _ => rfl

omit hv hu in
theorem learns_narrow (test : Expr) (holds fails : ScopeId) : Learns P s (narrow test holds fails) := by
  have htwice {s : State} (scope other : ScopeId) (name : String)
      (change change' : Table → TypeId → Option (TypeId × Table)) : Learns P s (do
        narrowIn scope name change
        narrowIn other name change') :=
    learns_bind (learns_narrowIn _ _ _) fun _ _ _ => learns_narrowIn _ _ _
  fun_induction narrow test holds fails generalizing s with
  | case1 holds fails id => exact htwice _ _ _ _ _
  | case2 holds fails argument _ _ ih => exact ih
  | case3 holds fails operator argument _ _ _ => exact learns_pure _
  | case4 holds fails operator left right _ =>
    rw [narrowComparison]
    split
    · exact learns_pure _
    split
    · exact htwice _ _ _ _ _
    split
    · exact htwice _ _ _ _ _
    · exact learns_pure _
  | case5 holds fails operator left right _ ihl ihr ihl' ihr' =>
    refine learns_bind learns_openBranch fun scratch s₁ _ => ?_
    split
    · exact learns_bind (ihl scratch) fun _ _ _ => ihr scratch
    split
    · exact learns_bind (ihl' scratch) fun _ _ _ => ihr' scratch
    · exact learns_pure _
  | case6 => exact learns_pure _

omit hv hu in
theorem learns_mergeArms (holds fails : ScopeId) : Learns P s (mergeArms holds fails) := by
  have hsettle {s : State} (types : List (String × TypeId)) : Learns P s (settle types) := by
    induction types generalizing s with
    | nil => exact learns_pure _
    | cons entry rest ih =>
      refine learns_get_bind ?_
      simp only
      split
      · exact learns_bind (learns_onArena (.restrict _ _ _) rfl fun _ => rfl) fun _ _ _ => ih
      · exact ih
  exact learns_get_bind (hsettle _)

omit hv in
/-- What follows a condition has its arms, which belong to the same file or function. -/
theorem learns_openArms (test : Expr) {f : ScopeId × ScopeId → Check α}
    (hf : ∀ holds fails s₁, s.Learns P s₁ → s₁.arena.Under owner holds → s₁.arena.Under owner fails →
      Learns P s₁ (f (holds, fails))) : Learns P s (openArms test >>= f) := by
  rw [openArms]
  simp only [bind_assoc, pure_bind]
  refine learns_openBranch_bind hu fun holds s₁ hl₁ hholds => ?_
  refine learns_openBranch_bind (hl₁.under_focus hu) fun fails s₂ hl₂ hfails => ?_
  refine learns_bind (learns_narrow test holds fails) fun _ s₃ hl₃ => ?_
  exact hf holds fails s₃ ((hl₁.trans hl₂).trans hl₃) ((hl₂.trans hl₃).under hholds) (hl₃.under hfails)

theorem learns_verifyIf {test : Expr} {consequent : Stmt} {alternate : Option Stmt}
    (htest : Allows P owner (.expr test)) (hconsequent : Allows P owner (.stmt consequent))
    (halternate : ∀ stmt ∈ alternate, Allows P owner (.stmt stmt)) :
    Learns P s (verifyIf v test consequent alternate) := by
  refine learns_bind (hv.value hu htest) fun _ s₁ hl => ?_
  refine learns_openArms (hl.under_focus hu) test fun holds fails s₂ _ hholds hfails => ?_
  refine learns_bind (learns_withFocus (hv.stmt consequent hholds hconsequent)) fun _ s₃ hl₃ => ?_
  cases alternate with
  | some alternate =>
    refine learns_bind (learns_withFocus (hv.stmt alternate (hl₃.under hfails) (halternate _ rfl)))
      fun _ _ _ => learns_mergeArms _ _
  | none => exact learns_mergeArms _ _

theorem learns_verifyWhile {test : Expr} {body : Stmt} (htest : Allows P owner (.expr test))
    (hbody : Allows P owner (.stmt body)) : Learns P s (verifyWhile v test body) := by
  refine learns_bind (hv.value hu htest) fun _ s₁ hl => ?_
  refine learns_openArms (hl.under_focus hu) test fun holds fails s₂ _ hholds _ => ?_
  exact learns_withFocus (hv.stmt body hholds hbody)

theorem learns_verifyForInit {init : Option ForInit} (hn : ∀ part ∈ Node.initParts init, Allows P owner part) :
    Learns P s (verifyForInit v init) := by
  rw [verifyForInit.eq_def]
  split
  · exact learns_verifyVariables hv hu hn
  · exact learns_then_unit (hv.value hu (hn _ (List.mem_singleton_self _)))
  · exact learns_pure _

omit hu in
/-- What is verified each time round a loop. -/
theorem learns_loopBody {holds : ScopeId} {body : Stmt} {update : Option Expr}
    (hholds : s.arena.Under owner holds) (hbody : Allows P owner (.stmt body))
    (hupdate : ∀ e ∈ update, Allows P owner (.expr e)) :
    Learns P s (inScope holds do
      v.stmt body
      match update with
      | some update =>
        let _ ← v.value update
      | none => pure ()) := by
  refine learns_withFocus (learns_bind (hv.stmt body hholds hbody) fun _ s₁ hl => ?_)
  cases update with
  | some update => exact learns_then_unit (hv.value (hl.under_focus hholds) (hupdate update rfl))
  | none => exact learns_pure _

theorem learns_verifyFor {init : Option ForInit} {test update : Option Expr} {body : Stmt}
    (hinit : ∀ part ∈ Node.initParts init, Allows P owner part)
    (htest : ∀ e ∈ test, Allows P owner (.expr e)) (hupdate : ∀ e ∈ update, Allows P owner (.expr e))
    (hbody : Allows P owner (.stmt body)) : Learns P s (verifyFor v init test update body) := by
  refine learns_bind (learns_verifyForInit hv hu hinit) fun _ s₁ hl₁ => ?_
  have hu₁ := hl₁.under_focus hu
  refine learns_openBranch_bind hu₁ fun holds s₂ hl₂ hholds => ?_
  have hu₂ := hl₂.under_focus hu₁
  refine learns_openBranch_bind hu₂ fun fails s₃ hl₃ hfails => ?_
  cases test with
  | some test =>
    refine learns_bind (hv.value (hl₃.under_focus hu₂) (htest test rfl)) fun _ s₄ hl₄ => ?_
    refine learns_bind (learns_narrow test holds fails) fun _ s₅ hl₅ => ?_
    exact learns_loopBody hv (((hl₃.trans hl₄).trans hl₅).under hholds) hbody hupdate
  | none => exact learns_loopBody hv (hl₃.under hholds) hbody hupdate

theorem learns_verifyLogical (operator : String) {left right : Expr} (hleft : Allows P owner (.expr left))
    (hright : Allows P owner (.expr right)) : Learns P s (verifyLogical v operator left right) := by
  refine learns_bind (hv.value hu hleft) fun leftType s₁ hl₁ => ?_
  have hu₁ := hl₁.under_focus hu
  cases leftType with
  | none => exact learns_pure _
  | some leftType =>
    refine learns_openBranch_bind hu₁ fun taken s₂ hl₂ htaken => ?_
    refine learns_openBranch_bind (hl₂.under_focus hu₁) fun skipped s₃ hl₃ _ => ?_
    have hnarrowed {s : State} (htaken : s.arena.Under owner taken) :
        Learns P s (inScope taken (v.expr right)) := learns_withFocus (hv.expr right htaken hright)
    simp only
    split
    all_goals
      refine learns_bind (learns_narrow _ _ _) fun _ s₄ hl₄ => ?_
      refine learns_bind (hnarrowed ((hl₃.trans hl₄).under htaken)) fun rightType s₅ _ => ?_
      cases rightType with
      | none => exact learns_pure _
      | some rightType => ?_
    · exact learns_bind (notes_onTable? _).learns fun _ _ _ => (notes_made _).learns
    · exact learns_pure _

theorem learns_verifyConditional {test consequent alternate : Expr} (htest : Allows P owner (.expr test))
    (hconsequent : Allows P owner (.expr consequent)) (halternate : Allows P owner (.expr alternate)) :
    Learns P s (verifyConditional v test consequent alternate) := by
  refine learns_bind (hv.value hu htest) fun _ s₁ hl => ?_
  refine learns_openArms (hl.under_focus hu) test fun holds fails s₂ _ hholds hfails => ?_
  refine learns_bind (learns_withFocus (hv.expr consequent hholds hconsequent)) fun one s₃ hl₃ => ?_
  refine learns_bind (learns_withFocus (hv.expr alternate (hl₃.under hfails) halternate)) fun other s₄ _ => ?_
  split
  · exact (notes_made _).learns
  · exact learns_pure _

/-! ## Nodes -/

theorem learns_verifyExpr {e : Expr} (hn : Allows P owner (.expr e)) : Learns P s (verifyExpr v e) := by
  have hpart {part : Expr} (hp : .expr part ∈ Node.exprParts e) : Allows P owner (.expr part) :=
    hn.part hp
  cases e with
  | identifier id => exact (notes_verifyIdentifier id).learns
  | literal literal => exact learns_pure _
  | this span => exact (notes_verifyThis span).learns
  | array elements _ =>
    exact learns_verifyArray hv hu fun e he => hpart (List.mem_map_of_mem he)
  | object properties _ =>
    exact learns_verifyObject hv hu fun property hproperty => hpart (List.mem_map_of_mem hproperty)
  | function f => exact learns_verifyFunctionExpr hv f
  | assignment operator left right span => exact learns_verifyAssignment hv hu operator span hn
  | member object property computed span =>
    exact Access.learns_verify hv hu _ (hpart (by simp [Node.exprParts])) (hpart (by simp [Node.exprParts]))
  | call callee arguments span =>
    exact Call.learns_verify hv hu _ (hpart (List.mem_cons_self ..)) fun e he =>
      hpart (List.mem_cons_of_mem _ (List.mem_map_of_mem he))
  | new callee arguments span =>
    exact Call.learns_verifyNew hv hu _ (hpart (List.mem_cons_self ..)) fun e he =>
      hpart (List.mem_cons_of_mem _ (List.mem_map_of_mem he))
  | binary operator left right span =>
    exact learns_verifyBinary hv hu operator span (hpart (by simp [Node.exprParts]))
      (hpart (by simp [Node.exprParts]))
  | logical operator left right _ =>
    exact learns_verifyLogical hv hu operator (hpart (by simp [Node.exprParts]))
      (hpart (by simp [Node.exprParts]))
  | unary operator argument _ span =>
    exact learns_verifyUnary hv hu operator span (hpart (List.mem_singleton_self _))
  | update operator argument _ span =>
    exact learns_verifyUnary hv hu operator span (hpart (List.mem_singleton_self _))
  | conditional test consequent alternate _ =>
    exact learns_verifyConditional hv hu (hpart (by simp [Node.exprParts]))
      (hpart (by simp [Node.exprParts])) (hpart (by simp [Node.exprParts]))

theorem learns_verifyStmt {stmt : Stmt} (hn : Allows P owner (.stmt stmt)) :
    Learns P s (verifyStmt v stmt) := by
  cases stmt with
  | declaration declaration => exact learns_verifyVariables hv hu fun _ => hn.part
  | function f => exact learns_verifyDeclared hv f
  | expression e _ => exact learns_then_unit (hv.expr e hu (hn.part (List.mem_singleton_self _)))
  | throws e _ => exact learns_then_unit (hv.expr e hu (hn.part (List.mem_singleton_self _)))
  | block body _ => exact hv.block hu fun stmt hmem => hn.part (List.mem_map_of_mem hmem)
  | branch test consequent alternate _ =>
    refine learns_verifyIf hv hu (hn.part (by simp [Node.parts, Node.stmtParts]))
      (hn.part (by simp [Node.parts, Node.stmtParts])) fun stmt hmem => hn.part ?_
    simp_all [Node.parts, Node.stmtParts]
  | whileLoop test body _ =>
    exact learns_verifyWhile hv hu (hn.part (by simp [Node.parts, Node.stmtParts]))
      (hn.part (by simp [Node.parts, Node.stmtParts]))
  | forLoop init test update body _ =>
    refine learns_verifyFor hv hu (fun part hmem => hn.part ?_) (fun e hmem => hn.part ?_)
      (fun e hmem => hn.part ?_) (hn.part (by simp [Node.parts, Node.stmtParts])) <;>
      simp_all [Node.parts, Node.stmtParts]
  | returns argument span =>
    refine learns_verifyReturn hv hu span fun e hmem => hn.part ?_
    simp_all [Node.parts, Node.stmtParts]
  | empty _ => exact learns_pure _

end Parts

/-- A visit makes known only fields that the node assigns, to the file or function at hand. -/
theorem learns_visitor (require : (file request : String) → SessionM Required) (fuel : Nat) :
    (visitor require fuel).Learns := by
  induction fuel with
  | zero => exact ⟨fun _ _ _ => learns_throw _, fun _ _ _ => learns_throw _⟩
  | succ fuel ih =>
    exact ⟨fun _ hu hn => learns_verifyExpr ih hu hn, fun _ hu hn => learns_verifyStmt ih hu hn⟩

end HeaderCheck.Verify
