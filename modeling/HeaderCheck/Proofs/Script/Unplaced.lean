import HeaderCheck.Proofs.Script.Nodes

/-!
# HeaderCheck.Proofs.Script.Unplaced

Scripts without positions.

* `Expr.unplaced`, `Stmt.unplaced`: the same tree where no node has a span. Two scripts with the same
  tree differ in positions only.
* The lemmas after it: such scripts have the same sizes, and their functions stand in the same order.
-/

namespace HeaderCheck.Script

def Identifier.unplaced (id : Identifier) : Identifier :=
  { id with span := {} }

def Literal.unplaced (literal : Literal) : Literal :=
  { literal with span := {} }

mutual

/-- The expression without positions. -/
def Expr.unplaced : Expr → Expr
  | .identifier id => .identifier id.unplaced
  | .literal lit => .literal lit.unplaced
  | .this _ => .this {}
  | .array elements _ => .array (exprsUnplaced elements) {}
  | .object properties _ => .object (propertiesUnplaced properties) {}
  | .function f => .function f.unplaced
  | .assignment op left right _ => .assignment op left.unplaced right.unplaced {}
  | .member object property computed _ => .member object.unplaced property.unplaced computed {}
  | .call callee arguments _ => .call callee.unplaced (exprsUnplaced arguments) {}
  | .new callee arguments _ => .new callee.unplaced (exprsUnplaced arguments) {}
  | .binary op left right _ => .binary op left.unplaced right.unplaced {}
  | .logical op left right _ => .logical op left.unplaced right.unplaced {}
  | .unary op argument isPrefix _ => .unary op argument.unplaced isPrefix {}
  | .update op argument isPrefix _ => .update op argument.unplaced isPrefix {}
  | .conditional test consequent alternate _ =>
    .conditional test.unplaced consequent.unplaced alternate.unplaced {}

def exprsUnplaced : List Expr → List Expr
  | [] => []
  | e :: rest => e.unplaced :: exprsUnplaced rest

def exprUnplaced? : Option Expr → Option Expr
  | none => none
  | some e => some e.unplaced

def Property.unplaced : Property → Property
  | ⟨key, value, kind, _⟩ => ⟨key.unplaced, value.unplaced, kind, {}⟩

def propertiesUnplaced : List Property → List Property
  | [] => []
  | p :: rest => p.unplaced :: propertiesUnplaced rest

def Function.unplaced : Function → Function
  | ⟨id, params, body, _, _⟩ =>
    ⟨id.map Identifier.unplaced, params.map Identifier.unplaced, stmtsUnplaced body, {}, {}⟩

def Declarator.unplaced : Declarator → Declarator
  | ⟨id, init, _⟩ => ⟨id.unplaced, exprUnplaced? init, {}⟩

def declaratorsUnplaced : List Declarator → List Declarator
  | [] => []
  | d :: rest => d.unplaced :: declaratorsUnplaced rest

def Declaration.unplaced : Declaration → Declaration
  | ⟨declarators, kind, _⟩ => ⟨declaratorsUnplaced declarators, kind, {}⟩

def ForInit.unplaced : ForInit → ForInit
  | .declaration d => .declaration d.unplaced
  | .expression e => .expression e.unplaced

def forInitUnplaced? : Option ForInit → Option ForInit
  | none => none
  | some init => some init.unplaced

/-- The statement without positions. -/
def Stmt.unplaced : Stmt → Stmt
  | .declaration d => .declaration d.unplaced
  | .function f => .function f.unplaced
  | .expression e _ => .expression e.unplaced {}
  | .block body _ => .block (stmtsUnplaced body) {}
  | .branch test consequent alternate _ =>
    .branch test.unplaced consequent.unplaced (stmtUnplaced? alternate) {}
  | .whileLoop test body _ => .whileLoop test.unplaced body.unplaced {}
  | .forLoop init test update body _ =>
    .forLoop (forInitUnplaced? init) (exprUnplaced? test) (exprUnplaced? update) body.unplaced {}
  | .returns argument _ => .returns (exprUnplaced? argument) {}
  | .throws argument _ => .throws argument.unplaced {}
  | .empty _ => .empty {}

def stmtsUnplaced : List Stmt → List Stmt
  | [] => []
  | s :: rest => s.unplaced :: stmtsUnplaced rest

def stmtUnplaced? : Option Stmt → Option Stmt
  | none => none
  | some s => some s.unplaced

end

def Program.unplaced (program : Program) : Program :=
  { body := stmtsUnplaced program.body }

/-! ## Lists -/

theorem exprsUnplaced_eq (es : List Expr) : exprsUnplaced es = es.map Expr.unplaced := by
  induction es with
  | nil => rfl
  | cons e rest ih => rw [exprsUnplaced, ih, List.map_cons]

theorem propertiesUnplaced_eq (properties : List Property) :
    propertiesUnplaced properties = properties.map Property.unplaced := by
  induction properties with
  | nil => rfl
  | cons property rest ih => rw [propertiesUnplaced, ih, List.map_cons]

theorem declaratorsUnplaced_eq (declarators : List Declarator) :
    declaratorsUnplaced declarators = declarators.map Declarator.unplaced := by
  induction declarators with
  | nil => rfl
  | cons declarator rest ih => rw [declaratorsUnplaced, ih, List.map_cons]

theorem stmtsUnplaced_eq (stmts : List Stmt) : stmtsUnplaced stmts = stmts.map Stmt.unplaced := by
  induction stmts with
  | nil => rfl
  | cons stmt rest ih => rw [stmtsUnplaced, ih, List.map_cons]

/-! ## Sizes -/

mutual

theorem Expr.size_unplaced : (e : Expr) → e.unplaced.size = e.size
  | .identifier _ | .literal _ | .this _ => rfl
  | .array elements _ => congrArg (· + 1) (exprsSize_unplaced elements)
  | .object properties _ => congrArg (· + 1) (propertiesSize_unplaced properties)
  | .function f => congrArg (· + 1) f.size_unplaced
  | .assignment _ left right _ | .binary _ left right _ | .logical _ left right _ => by
    simp only [Expr.unplaced, Expr.size, left.size_unplaced, right.size_unplaced]
  | .member object property _ _ => by
    simp only [Expr.unplaced, Expr.size, object.size_unplaced, property.size_unplaced]
  | .call callee arguments _ | .new callee arguments _ => by
    simp only [Expr.unplaced, Expr.size, callee.size_unplaced, exprsSize_unplaced arguments]
  | .unary _ argument _ _ | .update _ argument _ _ => congrArg (· + 1) argument.size_unplaced
  | .conditional test consequent alternate _ => by
    simp only [Expr.unplaced, Expr.size, test.size_unplaced, consequent.size_unplaced,
      alternate.size_unplaced]

theorem exprsSize_unplaced : (es : List Expr) → exprsSize (exprsUnplaced es) = exprsSize es
  | [] => rfl
  | e :: rest => by simp only [exprsUnplaced, exprsSize, e.size_unplaced, exprsSize_unplaced rest]

theorem exprSize?_unplaced : (e : Option Expr) → exprSize? (exprUnplaced? e) = exprSize? e
  | none => rfl
  | some e => e.size_unplaced

theorem Property.size_unplaced : (property : Property) → property.unplaced.size = property.size
  | ⟨key, value, _, _⟩ => by
    simp only [Property.unplaced, Property.size, key.size_unplaced, value.size_unplaced]

theorem propertiesSize_unplaced : (properties : List Property) →
    propertiesSize (propertiesUnplaced properties) = propertiesSize properties
  | [] => rfl
  | property :: rest => by
    simp only [propertiesUnplaced, propertiesSize, property.size_unplaced,
      propertiesSize_unplaced rest]

theorem Function.size_unplaced : (f : Function) → f.unplaced.size = f.size
  | ⟨_, _, body, _, _⟩ => stmtsSize_unplaced body

theorem Declarator.size_unplaced :
    (declarator : Declarator) → declarator.unplaced.size = declarator.size
  | ⟨_, init, _⟩ => exprSize?_unplaced init

theorem declaratorsSize_unplaced : (declarators : List Declarator) →
    declaratorsSize (declaratorsUnplaced declarators) = declaratorsSize declarators
  | [] => rfl
  | declarator :: rest => by
    simp only [declaratorsUnplaced, declaratorsSize, declarator.size_unplaced,
      declaratorsSize_unplaced rest]

theorem Declaration.size_unplaced :
    (declaration : Declaration) → declaration.unplaced.size = declaration.size
  | ⟨declarators, _, _⟩ => declaratorsSize_unplaced declarators

theorem ForInit.size_unplaced : (init : ForInit) → init.unplaced.size = init.size
  | .declaration d => d.size_unplaced
  | .expression e => e.size_unplaced

theorem forInitSize?_unplaced :
    (init : Option ForInit) → forInitSize? (forInitUnplaced? init) = forInitSize? init
  | none => rfl
  | some init => init.size_unplaced

theorem Stmt.size_unplaced : (stmt : Stmt) → stmt.unplaced.size = stmt.size
  | .declaration d => congrArg (· + 1) d.size_unplaced
  | .function f => congrArg (· + 1) f.size_unplaced
  | .expression e _ | .throws e _ => congrArg (· + 1) e.size_unplaced
  | .block body _ => congrArg (· + 1) (stmtsSize_unplaced body)
  | .branch test consequent alternate _ => by
    simp only [Stmt.unplaced, Stmt.size, test.size_unplaced, consequent.size_unplaced,
      stmtSize?_unplaced alternate]
  | .whileLoop test body _ => by
    simp only [Stmt.unplaced, Stmt.size, test.size_unplaced, body.size_unplaced]
  | .forLoop init test update body _ => by
    simp only [Stmt.unplaced, Stmt.size, forInitSize?_unplaced init, exprSize?_unplaced test,
      exprSize?_unplaced update, body.size_unplaced]
  | .returns argument _ => congrArg (· + 1) (exprSize?_unplaced argument)
  | .empty _ => rfl

theorem stmtsSize_unplaced : (stmts : List Stmt) → stmtsSize (stmtsUnplaced stmts) = stmtsSize stmts
  | [] => rfl
  | stmt :: rest => by
    simp only [stmtsUnplaced, stmtsSize, stmt.size_unplaced, stmtsSize_unplaced rest]

theorem stmtSize?_unplaced : (stmt : Option Stmt) → stmtSize? (stmtUnplaced? stmt) = stmtSize? stmt
  | none => rfl
  | some stmt => stmt.size_unplaced

end

theorem Program.size_unplaced (program : Program) : program.unplaced.size = program.size :=
  stmtsSize_unplaced program.body

/-! ## Nodes -/

namespace Node

def unplaced : Node → Node
  | .expr e => .expr e.unplaced
  | .stmt s => .stmt s.unplaced

/-- A function and what it is, without positions. -/
def unplacedFunction (f : FunctionKind × Function) : FunctionKind × Function :=
  (f.1, f.2.unplaced)

theorem initials_unplaced (declarators : List Declarator) :
    initials (declaratorsUnplaced declarators) = (initials declarators).map unplaced := by
  rw [declaratorsUnplaced_eq, initials, initials, List.flatMap_map, List.map_flatMap]
  refine List.flatMap_congr fun declarator _ => ?_
  obtain ⟨id, init, span⟩ := declarator
  cases init <;> rfl

theorem initParts_unplaced (init : Option ForInit) :
    initParts (forInitUnplaced? init) = (initParts init).map unplaced := by
  match init with
  | none => rfl
  | some (.declaration ⟨declarators, _, _⟩) => exact initials_unplaced declarators
  | some (.expression _) => rfl

theorem map_expr_unplaced (es : List Expr) :
    (exprsUnplaced es).map expr = (es.map expr).map unplaced := by
  rw [exprsUnplaced_eq, List.map_map, List.map_map]
  rfl

theorem toList_expr_unplaced (e : Option Expr) :
    (exprUnplaced? e).toList.map expr = (e.toList.map expr).map unplaced := by
  cases e <;> rfl

theorem toList_stmt_unplaced (stmt : Option Stmt) :
    (stmtUnplaced? stmt).toList.map Node.stmt = (stmt.toList.map Node.stmt).map unplaced := by
  cases stmt <;> rfl

theorem parts_unplaced (n : Node) : n.unplaced.parts = n.parts.map unplaced := by
  cases n with
  | expr e =>
    cases e with
    | array elements span => exact map_expr_unplaced elements
    | object properties span =>
      simp only [unplaced, parts, Expr.unplaced, exprParts, propertiesUnplaced_eq, List.map_map]
      exact List.map_congr_left fun property _ => by cases property; rfl
    | call callee arguments span => exact congrArg (_ :: ·) (map_expr_unplaced arguments)
    | new callee arguments span => exact congrArg (_ :: ·) (map_expr_unplaced arguments)
    | _ => rfl
  | stmt s =>
    cases s with
    | declaration d =>
      obtain ⟨declarators, kind, span⟩ := d
      exact initials_unplaced declarators
    | block body span =>
      simp only [unplaced, parts, Stmt.unplaced, stmtParts, stmtsUnplaced_eq, List.map_map]
      exact List.map_congr_left fun _ _ => rfl
    | branch test consequent alternate span =>
      exact congrArg (fun rest => _ :: _ :: rest) (toList_stmt_unplaced alternate)
    | forLoop init test update body span =>
      simp only [unplaced, parts, Stmt.unplaced, stmtParts, initParts_unplaced,
        toList_expr_unplaced, List.map_cons, List.map_append]
    | returns argument span => exact toList_expr_unplaced argument
    | _ => rfl

theorem function?_unplaced (n : Node) :
    n.unplaced.function? = n.function?.map unplacedFunction := by
  cases n with
  | expr e => cases e <;> rfl
  | stmt s => cases s <;> rfl

theorem body_unplaced (n : Node) : n.unplaced.body = n.body.map Stmt.unplaced := by
  rw [body, body, function?_unplaced]
  cases n.function? with
  | none => rfl
  | some f =>
    obtain ⟨_, _, _, statements, _, _⟩ := f
    exact stmtsUnplaced_eq statements

/-- The functions directly in a node stand in the same order without positions. -/
theorem direct_unplaced (n : Node) : n.unplaced.direct = n.direct.map unplacedFunction := by
  induction n using induction_below with
  | step n ih _ =>
    rw [direct_eq, direct_eq n, function?_unplaced, parts_unplaced, List.map_append,
      List.flatMap_map, List.map_flatMap, List.flatMap_congr ih]
    cases n.function? <;> rfl

theorem functions_unplaced (n : Node) :
    n.unplaced.functions = n.functions.map unplacedFunction := by
  induction n using induction_below with
  | step n ih ihBody =>
    rw [functions_def, functions_def n, function?_unplaced, parts_unplaced, body_unplaced,
      List.map_append, List.map_append, List.flatMap_map, List.flatMap_map, List.map_flatMap,
      List.map_flatMap, List.flatMap_congr ih]
    have hbody : (n.body.flatMap fun s => (stmt s.unplaced).functions) =
        n.body.flatMap fun s => (stmt s).functions.map unplacedFunction :=
      List.flatMap_congr ihBody
    rw [hbody]
    cases n.function? <;> rfl

end Node

end HeaderCheck.Script
