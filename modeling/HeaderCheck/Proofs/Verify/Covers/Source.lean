import HeaderCheck.Proofs.Project.Missing
import HeaderCheck.Proofs.Verify.Covers.Statements

/-!
# HeaderCheck.Proofs.Verify.Covers.Source

Whole sources: where no type is missing and nothing is reported, all nodes have been visited.

* `covers_watched`: the visitor that ends at the first missing type does what `Visitor.Covers` asks
  for, by induction on its fuel.
* `covers_watchedSource`: a source that it verifies without a report is covered.
-/

namespace HeaderCheck.Verify

open HeaderCheck.Project (Error Host Options Session SessionM Works resolveHeader
  works_resolveHeader)
open HeaderCheck.Scope (Arena ScopeId)
open HeaderCheck.Scope.Arena (Operation)
open HeaderCheck.Script
open HeaderCheck.Types (Table TypeId)

variable {s : State} {owner : ScopeId} {v : Visitor}

/-! ## One node -/

/-- The functions of an expression that is no function stand in its parts. -/
theorem direct_of_parts {e : Expr} (h : (Node.expr e).function? = none) :
    (Node.expr e).direct = (Node.exprParts e).flatMap Node.direct := by
  rw [Node.direct_eq, h]
  rfl

theorem covers_verifyExpr (hv : v.Covers) (ho : s.Under owner) (e : Expr) :
    Covers owner [] s (verifyExpr v e) (owing (Node.expr e).direct) := by
  cases e with
  | function f =>
    have hdirect : (Node.expr (.function f)).direct = [(.expression, f)] := by
      simp [Node.direct_eq, Node.function?, Node.parts, Node.exprParts]
    rw [hdirect]
    exact covers_verifyFunctionExpr hv ho f
  | identifier id =>
    exact (passes_verifyIdentifier id).covers_owing (direct_identifier id ▸ List.Subset.refl _)
  | literal literal =>
    rw [direct_of_parts rfl]
    exact covers_pure (List.Subset.refl _)
  | this span =>
    rw [direct_of_parts rfl]
    exact (passes_verifyThis span).covers_owing (List.Subset.refl _)
  | array elements span =>
    rw [direct_of_parts rfl]
    simpa [verifyExpr, Node.exprParts, List.flatMap_map, directIn] using covers_verifyArray hv ho elements
  | object properties span =>
    rw [direct_of_parts rfl]
    simpa [verifyExpr, Node.exprParts, List.flatMap_map, directIn] using covers_verifyObject hv ho properties
  | assignment operator left right span =>
    rw [direct_of_parts rfl]
    simpa [verifyExpr, Node.exprParts] using covers_verifyAssignment hv ho operator left right span
  | member object property computed span =>
    rw [direct_of_parts rfl]
    simpa [verifyExpr, Node.exprParts] using Access.covers_verify hv ho { object, property, computed, span }
  | call callee arguments span =>
    rw [direct_of_parts rfl]
    simpa [verifyExpr, Node.exprParts, List.flatMap_map, directIn] using
      Call.covers_verify hv ho { callee, arguments, span }
  | new callee arguments span =>
    rw [direct_of_parts rfl]
    simpa [verifyExpr, Node.exprParts, List.flatMap_map, directIn] using
      Call.covers_verifyNew hv ho { callee, arguments, span }
  | binary operator left right span =>
    rw [direct_of_parts rfl]
    simpa [verifyExpr, Node.exprParts] using covers_verifyBinary hv ho operator left right span
  | logical operator left right span =>
    rw [direct_of_parts rfl]
    simpa [verifyExpr, Node.exprParts] using covers_verifyLogical hv ho operator left right
  | unary operator argument isPrefix span =>
    rw [direct_of_parts rfl]
    simpa [verifyExpr, Node.exprParts] using covers_verifyUnary hv ho operator argument span
  | update operator argument isPrefix span =>
    rw [direct_of_parts rfl]
    simpa [verifyExpr, Node.exprParts] using covers_verifyUnary hv ho operator argument span
  | conditional test consequent alternate span =>
    rw [direct_of_parts rfl]
    simpa [verifyExpr, Node.exprParts] using covers_verifyConditional hv ho test consequent alternate

/-- The functions of a statement that declares none stand in its parts. -/
theorem direct_of_stmtParts {stmt : Stmt} (h : (Node.stmt stmt).function? = none) :
    (Node.stmt stmt).direct = (Node.stmtParts stmt).flatMap Node.direct := by
  rw [Node.direct_eq, h]
  rfl

theorem covers_verifyStmt (hv : v.Covers) (ho : s.Under owner) (stmt : Stmt) :
    Covers owner [] s (verifyStmt v stmt) fun _ => (Node.stmt stmt).direct := by
  cases stmt with
  | function f =>
    have hdirect : (Node.stmt (.function f)).direct = [(.declared, f)] := by
      simp [Node.direct_eq, Node.function?, Node.parts, Node.stmtParts]
    rw [hdirect]
    exact covers_verifyDeclared hv ho f
  | declaration declaration =>
    rw [direct_of_stmtParts rfl, Node.stmtParts, direct_initials]
    exact covers_verifyDeclarators hv ho _
  | expression e span =>
    rw [direct_of_stmtParts rfl]
    exact covers_bind (hv.expr e ho) fun _ _ _ => covers_pure (by simp [Node.stmtParts])
  | throws e span =>
    rw [direct_of_stmtParts rfl]
    exact covers_bind (hv.expr e ho) fun _ _ _ => covers_pure (by simp [Node.stmtParts])
  | block body span =>
    rw [direct_of_stmtParts rfl]
    simpa [verifyStmt, Node.stmtParts, directOf_eq, List.flatMap_map] using hv.block ho body
  | branch test consequent alternate span =>
    rw [direct_of_stmtParts rfl]
    simpa [verifyStmt, Node.stmtParts, directOf_eq, List.flatMap_map] using
      covers_verifyIf hv ho test consequent alternate
  | whileLoop test body span =>
    rw [direct_of_stmtParts rfl]
    simpa [verifyStmt, Node.stmtParts] using covers_verifyWhile hv ho test body
  | forLoop init test update body span =>
    rw [direct_of_stmtParts rfl]
    refine Covers.frame (covers_verifyFor hv ho init test update body) fun _ f hf => ?_
    simp only [Node.stmtParts, List.flatMap_cons, List.flatMap_append, List.flatMap_map] at hf
    simp only [directIn, List.mem_append] at hf ⊢
    tauto
  | returns argument span =>
    rw [direct_of_stmtParts rfl]
    simpa [verifyStmt, Node.stmtParts, directIn, List.flatMap_map] using covers_verifyReturn hv ho argument span
  | empty span =>
    rw [direct_of_stmtParts rfl]
    exact covers_pure (List.Subset.refl _)

/-! ## All nodes -/

/-- Under a watch that ends the run, no expression has a missing type. -/
theorem covers_over {error : Error} {m : Check (Option TypeId)}
    {functions : List (FunctionKind × Function)} (h : Covers owner [] s m (owing functions)) :
    Covers owner [] s ((Watch.forMissing (throw error)).over m) fun _ => functions := by
  refine covers_bind h fun result s₁ _ => covers_get_bind ?_
  cases result with
  | none => exact covers_throw error
  | some result => exact covers_pure (List.Subset.refl _)

theorem covers_watched {error : Error} {require : (file request : String) → SessionM Required}
    (hrequire : ∀ file request (session : Session),
      session.table.Extends ((require file request).run session).2.table) (fuel : Nat) :
    (watched (.forMissing (throw error)) require fuel).Covers := by
  induction fuel with
  | zero => exact ⟨fun _ _ => covers_throw _, fun _ _ => covers_throw _, hrequire⟩
  | succ fuel ih =>
    exact ⟨fun e ho => covers_over (covers_verifyExpr ih ho e),
      fun stmt ho => covers_verifyStmt ih ho stmt, hrequire⟩

/-! ## Sources -/

theorem passes_bindInFile (bindings : List (String × TypeId)) : Passes s (bindInFile bindings) := by
  induction bindings generalizing s with
  | nil => exact passes_pure _
  | cons binding rest ih =>
    exact passes_get_bind (passes_bind (passes_onArena (.addVar _ _ _) rfl rfl) fun _ _ _ => ih)

theorem passes_bindSource (ho : s.Under owner) (host : Host) (options : Options) :
    Passes s (bindSource host options) := by
  have hnames {s : State} : Passes s bindModuleNames :=
    passes_bind (passes_onTable (Table.extends_add _ _)) fun _ _ _ => passes_bindInFile _
  have hheader {s : State} : Passes s (bindHeader host options) := by
    refine passes_get_bind ?_
    have hworks : Works False s.session (resolveHeader host options _) fun _ _ => True :=
      works_resolveHeader host options (options.headerPath s.source.path)
    refine passes_bind (passes_onSession hworks.keeps.table) fun header s₁ _ => ?_
    cases header with
    | none => exact passes_pure _
    | some header =>
      exact passes_bind (passes_record _) fun _ _ _ => passes_bindInFile header.assignments
  refine passes_bind hnames fun _ s₁ hl => passes_get_bind ?_
  exact passes_bind (passes_registerFunctions (hl.under ho) _) fun _ _ _ => hheader

theorem State.under_start (session : Session) (source : Source) :
    (State.start session source).Under (State.start session source).fileScope := by
  have hfile : (State.start session source).arena.scope? (State.start session source).fileScope =
      some { parent := none, kind := .file {} } := rfl
  refine ⟨.self hfile rfl, ?_⟩
  rintro untyped ⟨id, scope, name, hs, hmem⟩
  obtain ⟨-, rfl⟩ := Arena.scope?_pushFile hs
  cases hmem

theorem State.calm_start (session : Session) (source : Source) :
    (State.start session source).Calm := by
  rintro owner key id ⟨scope, hs, hget⟩
  obtain ⟨-, rfl⟩ := Arena.scope?_pushFile hs
  cases hget

/-- A source is covered by a run that reports nothing. -/
theorem covers_watchedSource {error : Error} (host : Host) (options : Options)
    {require : (file request : String) → SessionM Required}
    (hrequire : ∀ file request (session : Session),
      session.table.Extends ((require file request).run session).2.table)
    (session : Session) (source : Source) :
    let start := State.start session source
    Covers start.fileScope [] start (watchedSource (.forMissing (throw error)) host options require)
      fun _ => directOf source.program.body := by
  have ho := State.under_start session source
  refine covers_get_bind (covers_pass (passes_bindSource ho host options) fun _ s₁ hl => ?_)
  exact (covers_watched hrequire _).statements (hl.under ho) _

end HeaderCheck.Verify
