import HeaderCheck.Proofs.Script.Unplaced
import HeaderCheck.Script.Stamp

/-!
# HeaderCheck.Proofs.Script.Stamp

What stamping a line onto a script does to its nodes.

* `Expr.spans`, `Stmt.spans`: the spans of all nodes of a tree, in the order of the text.
* `Expr.unplaced_atLine`, `Expr.spans_atLine` and their siblings: a stamped tree has the same shape,
  and its spans are stamped one by one.
* `Expr.placed`, `Stmt.placed`: a tree with new spans. It is the way back from shape and spans to the
  tree (`Expr.places`, `Stmt.places`), so no position is missing from them.
* `Stmt.atLine_places`: stamping puts the nodes without a span on the line and changes nothing else,
  and nothing is left to be stamped again.
-/

namespace HeaderCheck

namespace Script

variable {line : UInt32} {xs ys : List Span}

/-! ## The spans of a tree -/

mutual

/-- The spans of all nodes of an expression, each before those of the nodes in it. -/
def Expr.spans : Expr → List Span
  | .identifier id => [id.span]
  | .literal lit => [lit.span]
  | .this span => [span]
  | .array elements span => span :: exprsSpans elements
  | .object properties span => span :: propertiesSpans properties
  | .function f => f.spans
  | .assignment _ left right span | .binary _ left right span | .logical _ left right span =>
    span :: (left.spans ++ right.spans)
  | .member object property _ span => span :: (object.spans ++ property.spans)
  | .call callee arguments span | .new callee arguments span =>
    span :: (callee.spans ++ exprsSpans arguments)
  | .unary _ argument _ span | .update _ argument _ span => span :: argument.spans
  | .conditional test consequent alternate span =>
    span :: (test.spans ++ (consequent.spans ++ alternate.spans))

def exprsSpans : List Expr → List Span
  | [] => []
  | e :: rest => e.spans ++ exprsSpans rest

def exprSpans? : Option Expr → List Span
  | none => []
  | some e => e.spans

def Property.spans : Property → List Span
  | ⟨key, value, _, span⟩ => span :: (key.spans ++ value.spans)

def propertiesSpans : List Property → List Span
  | [] => []
  | property :: rest => property.spans ++ propertiesSpans rest

/-- The name, the parameters and the block of the body are nodes of a function. -/
def Function.spans : Function → List Span
  | ⟨id, params, body, bodySpan, span⟩ =>
    span :: (id.toList.map Identifier.span ++
      (params.map Identifier.span ++ bodySpan :: stmtsSpans body))

def Declarator.spans : Declarator → List Span
  | ⟨id, init, span⟩ => span :: id.span :: exprSpans? init

def declaratorsSpans : List Declarator → List Span
  | [] => []
  | declarator :: rest => declarator.spans ++ declaratorsSpans rest

def Declaration.spans : Declaration → List Span
  | ⟨declarators, _, span⟩ => span :: declaratorsSpans declarators

def ForInit.spans : ForInit → List Span
  | .declaration d => d.spans
  | .expression e => e.spans

def forInitSpans? : Option ForInit → List Span
  | none => []
  | some init => init.spans

/-- The spans of all nodes of a statement, each before those of the nodes in it. -/
def Stmt.spans : Stmt → List Span
  | .declaration d => d.spans
  | .function f => f.spans
  | .expression e span | .throws e span => span :: e.spans
  | .block body span => span :: stmtsSpans body
  | .branch test consequent alternate span =>
    span :: (test.spans ++ (consequent.spans ++ stmtSpans? alternate))
  | .whileLoop test body span => span :: (test.spans ++ body.spans)
  | .forLoop init test update body span =>
    span :: (forInitSpans? init ++ (exprSpans? test ++ (exprSpans? update ++ body.spans)))
  | .returns argument span => span :: exprSpans? argument
  | .empty span => [span]

def stmtsSpans : List Stmt → List Span
  | [] => []
  | stmt :: rest => stmt.spans ++ stmtsSpans rest

def stmtSpans? : Option Stmt → List Span
  | none => []
  | some stmt => stmt.spans

end

/-! ## A stamped tree has the same shape -/

theorem map_unplaced_atLine (ids : List Identifier) :
    (ids.map (Identifier.atLine line)).map Identifier.unplaced = ids.map Identifier.unplaced := by
  rw [List.map_map]
  rfl

mutual

theorem Expr.unplaced_atLine : (e : Expr) → (e.atLine line).unplaced = e.unplaced
  | .identifier _ | .literal _ | .this _ => rfl
  | .array elements _ => congrArg (Expr.array · {}) (exprsUnplaced_atLine elements)
  | .object properties _ => congrArg (Expr.object · {}) (propertiesUnplaced_atLine properties)
  | .function f => congrArg Expr.function f.unplaced_atLine
  | .assignment _ left right _ | .binary _ left right _ | .logical _ left right _ => by
    simp only [Expr.atLine, Expr.unplaced, left.unplaced_atLine, right.unplaced_atLine]
  | .member object property _ _ => by
    simp only [Expr.atLine, Expr.unplaced, object.unplaced_atLine, property.unplaced_atLine]
  | .call callee arguments _ | .new callee arguments _ => by
    simp only [Expr.atLine, Expr.unplaced, callee.unplaced_atLine, exprsUnplaced_atLine arguments]
  | .unary _ argument _ _ | .update _ argument _ _ => by
    simp only [Expr.atLine, Expr.unplaced, argument.unplaced_atLine]
  | .conditional test consequent alternate _ => by
    simp only [Expr.atLine, Expr.unplaced, test.unplaced_atLine, consequent.unplaced_atLine,
      alternate.unplaced_atLine]

theorem exprsUnplaced_atLine :
    (es : List Expr) → exprsUnplaced (exprsAtLine line es) = exprsUnplaced es
  | [] => rfl
  | e :: rest => by
    simp only [exprsAtLine, exprsUnplaced, e.unplaced_atLine, exprsUnplaced_atLine rest]

theorem exprUnplaced?_atLine :
    (e : Option Expr) → exprUnplaced? (exprAtLine? line e) = exprUnplaced? e
  | none => rfl
  | some e => congrArg some e.unplaced_atLine

theorem Property.unplaced_atLine :
    (property : Property) → (property.atLine line).unplaced = property.unplaced
  | ⟨key, value, _, _⟩ => by
    simp only [Property.atLine, Property.unplaced, key.unplaced_atLine, value.unplaced_atLine]

theorem propertiesUnplaced_atLine : (properties : List Property) →
    propertiesUnplaced (propertiesAtLine line properties) = propertiesUnplaced properties
  | [] => rfl
  | property :: rest => by
    simp only [propertiesAtLine, propertiesUnplaced, property.unplaced_atLine,
      propertiesUnplaced_atLine rest]

theorem Function.unplaced_atLine : (f : Function) → (f.atLine line).unplaced = f.unplaced
  | ⟨id, params, body, _, _⟩ => by
    simp only [Function.atLine, Function.unplaced, map_unplaced_atLine params,
      stmtsUnplaced_atLine body, Option.map_map]
    rfl

theorem Declarator.unplaced_atLine :
    (declarator : Declarator) → (declarator.atLine line).unplaced = declarator.unplaced
  | ⟨id, init, _⟩ => congrArg (Declarator.mk id.unplaced · {}) (exprUnplaced?_atLine init)

theorem declaratorsUnplaced_atLine : (declarators : List Declarator) →
    declaratorsUnplaced (declaratorsAtLine line declarators) = declaratorsUnplaced declarators
  | [] => rfl
  | declarator :: rest => by
    simp only [declaratorsAtLine, declaratorsUnplaced, declarator.unplaced_atLine,
      declaratorsUnplaced_atLine rest]

theorem Declaration.unplaced_atLine :
    (declaration : Declaration) → (declaration.atLine line).unplaced = declaration.unplaced
  | ⟨declarators, kind, _⟩ =>
    congrArg (Declaration.mk · kind {}) (declaratorsUnplaced_atLine declarators)

theorem ForInit.unplaced_atLine :
    (init : ForInit) → (init.atLine line).unplaced = init.unplaced
  | .declaration d => congrArg ForInit.declaration d.unplaced_atLine
  | .expression e => congrArg ForInit.expression e.unplaced_atLine

theorem forInitUnplaced?_atLine :
    (init : Option ForInit) → forInitUnplaced? (forInitAtLine? line init) = forInitUnplaced? init
  | none => rfl
  | some init => congrArg some init.unplaced_atLine

theorem Stmt.unplaced_atLine : (stmt : Stmt) → (stmt.atLine line).unplaced = stmt.unplaced
  | .declaration d => congrArg Stmt.declaration d.unplaced_atLine
  | .function f => congrArg Stmt.function f.unplaced_atLine
  | .expression e _ => congrArg (Stmt.expression · {}) e.unplaced_atLine
  | .block body _ => congrArg (Stmt.block · {}) (stmtsUnplaced_atLine body)
  | .branch test consequent alternate _ => by
    simp only [Stmt.atLine, Stmt.unplaced, test.unplaced_atLine, consequent.unplaced_atLine,
      stmtUnplaced?_atLine alternate]
  | .whileLoop test body _ => by
    simp only [Stmt.atLine, Stmt.unplaced, test.unplaced_atLine, body.unplaced_atLine]
  | .forLoop init test update body _ => by
    simp only [Stmt.atLine, Stmt.unplaced, forInitUnplaced?_atLine init, exprUnplaced?_atLine test,
      exprUnplaced?_atLine update, body.unplaced_atLine]
  | .returns argument _ => congrArg (Stmt.returns · {}) (exprUnplaced?_atLine argument)
  | .throws e _ => congrArg (Stmt.throws · {}) e.unplaced_atLine
  | .empty _ => rfl

theorem stmtsUnplaced_atLine :
    (stmts : List Stmt) → stmtsUnplaced (stmtsAtLine line stmts) = stmtsUnplaced stmts
  | [] => rfl
  | stmt :: rest => by
    simp only [stmtsAtLine, stmtsUnplaced, stmt.unplaced_atLine, stmtsUnplaced_atLine rest]

theorem stmtUnplaced?_atLine :
    (stmt : Option Stmt) → stmtUnplaced? (stmtAtLine? line stmt) = stmtUnplaced? stmt
  | none => rfl
  | some stmt => congrArg some stmt.unplaced_atLine

end

/-! ## The spans of a stamped tree -/

theorem map_span_atLine (ids : List Identifier) :
    (ids.map (Identifier.atLine line)).map Identifier.span =
      (ids.map Identifier.span).map (Span.orLine line) := by
  rw [List.map_map, List.map_map]
  rfl

mutual

theorem Expr.spans_atLine : (e : Expr) → (e.atLine line).spans = e.spans.map (Span.orLine line)
  | .identifier _ | .literal _ | .this _ => rfl
  | .array elements _ => congrArg (_ :: ·) (exprsSpans_atLine elements)
  | .object properties _ => congrArg (_ :: ·) (propertiesSpans_atLine properties)
  | .function f => f.spans_atLine
  | .assignment _ left right _ | .binary _ left right _ | .logical _ left right _ => by
    simp only [Expr.atLine, Expr.spans, left.spans_atLine, right.spans_atLine, List.map_cons,
      List.map_append]
  | .member object property _ _ => by
    simp only [Expr.atLine, Expr.spans, object.spans_atLine, property.spans_atLine, List.map_cons,
      List.map_append]
  | .call callee arguments _ | .new callee arguments _ => by
    simp only [Expr.atLine, Expr.spans, callee.spans_atLine, exprsSpans_atLine arguments,
      List.map_cons, List.map_append]
  | .unary _ argument _ _ | .update _ argument _ _ => congrArg (_ :: ·) argument.spans_atLine
  | .conditional test consequent alternate _ => by
    simp only [Expr.atLine, Expr.spans, test.spans_atLine, consequent.spans_atLine,
      alternate.spans_atLine, List.map_cons, List.map_append]

theorem exprsSpans_atLine :
    (es : List Expr) → exprsSpans (exprsAtLine line es) = (exprsSpans es).map (Span.orLine line)
  | [] => rfl
  | e :: rest => by
    simp only [exprsAtLine, exprsSpans, e.spans_atLine, exprsSpans_atLine rest, List.map_append]

theorem exprSpans?_atLine : (e : Option Expr) →
    exprSpans? (exprAtLine? line e) = (exprSpans? e).map (Span.orLine line)
  | none => rfl
  | some e => e.spans_atLine

theorem Property.spans_atLine : (property : Property) →
    (property.atLine line).spans = property.spans.map (Span.orLine line)
  | ⟨key, value, _, _⟩ => by
    simp only [Property.atLine, Property.spans, key.spans_atLine, value.spans_atLine, List.map_cons,
      List.map_append]

theorem propertiesSpans_atLine : (properties : List Property) →
    propertiesSpans (propertiesAtLine line properties) =
      (propertiesSpans properties).map (Span.orLine line)
  | [] => rfl
  | property :: rest => by
    simp only [propertiesAtLine, propertiesSpans, property.spans_atLine,
      propertiesSpans_atLine rest, List.map_append]

theorem Function.spans_atLine : (f : Function) →
    (f.atLine line).spans = f.spans.map (Span.orLine line)
  | ⟨id, params, body, _, _⟩ => by
    simp only [Function.atLine, Function.spans, Option.toList_map, map_span_atLine,
      stmtsSpans_atLine body, List.map_cons, List.map_append]

theorem Declarator.spans_atLine : (declarator : Declarator) →
    (declarator.atLine line).spans = declarator.spans.map (Span.orLine line)
  | ⟨_, init, _⟩ => congrArg (_ :: _ :: ·) (exprSpans?_atLine init)

theorem declaratorsSpans_atLine : (declarators : List Declarator) →
    declaratorsSpans (declaratorsAtLine line declarators) =
      (declaratorsSpans declarators).map (Span.orLine line)
  | [] => rfl
  | declarator :: rest => by
    simp only [declaratorsAtLine, declaratorsSpans, declarator.spans_atLine,
      declaratorsSpans_atLine rest, List.map_append]

theorem Declaration.spans_atLine : (declaration : Declaration) →
    (declaration.atLine line).spans = declaration.spans.map (Span.orLine line)
  | ⟨declarators, _, _⟩ => congrArg (_ :: ·) (declaratorsSpans_atLine declarators)

theorem ForInit.spans_atLine : (init : ForInit) →
    (init.atLine line).spans = init.spans.map (Span.orLine line)
  | .declaration d => d.spans_atLine
  | .expression e => e.spans_atLine

theorem forInitSpans?_atLine : (init : Option ForInit) →
    forInitSpans? (forInitAtLine? line init) = (forInitSpans? init).map (Span.orLine line)
  | none => rfl
  | some init => init.spans_atLine

theorem Stmt.spans_atLine : (stmt : Stmt) →
    (stmt.atLine line).spans = stmt.spans.map (Span.orLine line)
  | .declaration d => d.spans_atLine
  | .function f => f.spans_atLine
  | .expression e _ | .throws e _ => congrArg (_ :: ·) e.spans_atLine
  | .block body _ => congrArg (_ :: ·) (stmtsSpans_atLine body)
  | .branch test consequent alternate _ => by
    simp only [Stmt.atLine, Stmt.spans, test.spans_atLine, consequent.spans_atLine,
      stmtSpans?_atLine alternate, List.map_cons, List.map_append]
  | .whileLoop test body _ => by
    simp only [Stmt.atLine, Stmt.spans, test.spans_atLine, body.spans_atLine, List.map_cons,
      List.map_append]
  | .forLoop init test update body _ => by
    simp only [Stmt.atLine, Stmt.spans, forInitSpans?_atLine init, exprSpans?_atLine test,
      exprSpans?_atLine update, body.spans_atLine, List.map_cons, List.map_append]
  | .returns argument _ => congrArg (_ :: ·) (exprSpans?_atLine argument)
  | .empty _ => rfl

theorem stmtsSpans_atLine : (stmts : List Stmt) →
    stmtsSpans (stmtsAtLine line stmts) = (stmtsSpans stmts).map (Span.orLine line)
  | [] => rfl
  | stmt :: rest => by
    simp only [stmtsAtLine, stmtsSpans, stmt.spans_atLine, stmtsSpans_atLine rest, List.map_append]

theorem stmtSpans?_atLine : (stmt : Option Stmt) →
    stmtSpans? (stmtAtLine? line stmt) = (stmtSpans? stmt).map (Span.orLine line)
  | none => rfl
  | some stmt => stmt.spans_atLine

end

/-! ## A tree from its shape and its spans

The shape of a tree says how many spans each part of it takes, so they can be read off one list. -/

/-- The next span of a list. -/
def nextSpan : StateM (List Span) Span :=
  fun spans => (spans.headD {}, spans.tail)

def Identifier.placed (id : Identifier) : StateM (List Span) Identifier :=
  return { id with span := ← nextSpan }

def Literal.placed (literal : Literal) : StateM (List Span) Literal :=
  return { literal with span := ← nextSpan }

mutual

/-- The expression with the next spans of a list at its nodes. -/
def Expr.placed : Expr → StateM (List Span) Expr
  | .identifier id => return .identifier (← id.placed)
  | .literal lit => return .literal (← lit.placed)
  | .this _ => return .this (← nextSpan)
  | .array elements _ => do
    let span ← nextSpan
    return .array (← exprsPlaced elements) span
  | .object properties _ => do
    let span ← nextSpan
    return .object (← propertiesPlaced properties) span
  | .function f => return .function (← f.placed)
  | .assignment op left right _ => do
    let span ← nextSpan
    return .assignment op (← left.placed) (← right.placed) span
  | .member object property computed _ => do
    let span ← nextSpan
    return .member (← object.placed) (← property.placed) computed span
  | .call callee arguments _ => do
    let span ← nextSpan
    return .call (← callee.placed) (← exprsPlaced arguments) span
  | .new callee arguments _ => do
    let span ← nextSpan
    return .new (← callee.placed) (← exprsPlaced arguments) span
  | .binary op left right _ => do
    let span ← nextSpan
    return .binary op (← left.placed) (← right.placed) span
  | .logical op left right _ => do
    let span ← nextSpan
    return .logical op (← left.placed) (← right.placed) span
  | .unary op argument isPrefix _ => do
    let span ← nextSpan
    return .unary op (← argument.placed) isPrefix span
  | .update op argument isPrefix _ => do
    let span ← nextSpan
    return .update op (← argument.placed) isPrefix span
  | .conditional test consequent alternate _ => do
    let span ← nextSpan
    return .conditional (← test.placed) (← consequent.placed) (← alternate.placed) span

def exprsPlaced : List Expr → StateM (List Span) (List Expr)
  | [] => return []
  | e :: rest => return (← e.placed) :: (← exprsPlaced rest)

def exprPlaced? : Option Expr → StateM (List Span) (Option Expr)
  | none => return none
  | some e => return some (← e.placed)

def Property.placed : Property → StateM (List Span) Property
  | ⟨key, value, kind, _⟩ => do
    let span ← nextSpan
    return ⟨← key.placed, ← value.placed, kind, span⟩

def propertiesPlaced : List Property → StateM (List Span) (List Property)
  | [] => return []
  | property :: rest => return (← property.placed) :: (← propertiesPlaced rest)

def Function.placed : Function → StateM (List Span) Function
  | ⟨id, params, body, _, _⟩ => do
    let span ← nextSpan
    let id ← id.mapM Identifier.placed
    let params ← params.mapM Identifier.placed
    let bodySpan ← nextSpan
    return ⟨id, params, ← stmtsPlaced body, bodySpan, span⟩

def Declarator.placed : Declarator → StateM (List Span) Declarator
  | ⟨id, init, _⟩ => do
    let span ← nextSpan
    return ⟨← id.placed, ← exprPlaced? init, span⟩

def declaratorsPlaced : List Declarator → StateM (List Span) (List Declarator)
  | [] => return []
  | declarator :: rest => return (← declarator.placed) :: (← declaratorsPlaced rest)

def Declaration.placed : Declaration → StateM (List Span) Declaration
  | ⟨declarators, kind, _⟩ => do
    let span ← nextSpan
    return ⟨← declaratorsPlaced declarators, kind, span⟩

def ForInit.placed : ForInit → StateM (List Span) ForInit
  | .declaration d => return .declaration (← d.placed)
  | .expression e => return .expression (← e.placed)

def forInitPlaced? : Option ForInit → StateM (List Span) (Option ForInit)
  | none => return none
  | some init => return some (← init.placed)

/-- The statement with the next spans of a list at its nodes. -/
def Stmt.placed : Stmt → StateM (List Span) Stmt
  | .declaration d => return .declaration (← d.placed)
  | .function f => return .function (← f.placed)
  | .expression e _ => do
    let span ← nextSpan
    return .expression (← e.placed) span
  | .block body _ => do
    let span ← nextSpan
    return .block (← stmtsPlaced body) span
  | .branch test consequent alternate _ => do
    let span ← nextSpan
    return .branch (← test.placed) (← consequent.placed) (← stmtPlaced? alternate) span
  | .whileLoop test body _ => do
    let span ← nextSpan
    return .whileLoop (← test.placed) (← body.placed) span
  | .forLoop init test update body _ => do
    let span ← nextSpan
    return .forLoop (← forInitPlaced? init) (← exprPlaced? test) (← exprPlaced? update)
      (← body.placed) span
  | .returns argument _ => do
    let span ← nextSpan
    return .returns (← exprPlaced? argument) span
  | .throws argument _ => do
    let span ← nextSpan
    return .throws (← argument.placed) span
  | .empty _ => return .empty (← nextSpan)

def stmtsPlaced : List Stmt → StateM (List Span) (List Stmt)
  | [] => return []
  | stmt :: rest => return (← stmt.placed) :: (← stmtsPlaced rest)

def stmtPlaced? : Option Stmt → StateM (List Span) (Option Stmt)
  | none => return none
  | some stmt => return some (← stmt.placed)

end

/-- From a list that begins with `spans` the action takes these and makes `a`. -/
def Places {α : Type} (action : StateM (List Span) α) (spans : List Span) (a : α) : Prop :=
  ∀ rest, action.run (spans ++ rest) = (a, rest)

namespace Places

variable {α β : Type} {action : StateM (List Span) α} {next : α → StateM (List Span) β} {a : α}
  {b : β}

theorem pure (a : α) : Places (Pure.pure a) [] a :=
  fun _ => rfl

theorem nextSpan (span : Span) : Places Script.nextSpan [span] span :=
  fun _ => rfl

theorem bind (h : Places action xs a) (hnext : Places (next a) ys b) :
    Places (action >>= next) (xs ++ ys) b := by
  intro rest
  have hfirst : action.run (xs ++ (ys ++ rest)) = (a, ys ++ rest) := h _
  rw [List.append_assoc, StateT.run_bind, hfirst]
  exact hnext rest

theorem map (h : Places action xs a) (make : α → β) :
    Places (action >>= fun a => Pure.pure (make a)) xs (make a) := by
  have hmade : Places (action >>= fun a => Pure.pure (make a)) (xs ++ []) (make a) :=
    h.bind (pure (make a))
  rwa [List.append_nil] at hmade

theorem unique {a' : α} (h : Places action xs a) (h' : Places action xs a') : a = a' :=
  (Prod.mk.inj ((h []).symm.trans (h' []))).1

end Places

theorem Identifier.places (id : Identifier) : Places id.unplaced.placed [id.span] id :=
  (Places.nextSpan id.span).map _

theorem Literal.places (literal : Literal) :
    Places literal.unplaced.placed [literal.span] literal :=
  (Places.nextSpan literal.span).map _

theorem mapM_places (ids : List Identifier) :
    Places ((ids.map Identifier.unplaced).mapM Identifier.placed) (ids.map Identifier.span) ids := by
  induction ids with
  | nil => exact .pure []
  | cons id rest ih =>
    rw [List.map_cons, List.mapM_cons]
    exact id.places.bind (ih.map _)

theorem mapM_places? (id : Option Identifier) :
    Places ((id.map Identifier.unplaced).mapM Identifier.placed) (id.toList.map Identifier.span)
      id := by
  cases id with
  | none => exact .pure none
  | some id => exact id.places.map _

mutual

theorem Expr.places : (e : Expr) → Places e.unplaced.placed e.spans e
  | .identifier id => id.places.map _
  | .literal lit => lit.places.map _
  | .this span => (Places.nextSpan span).map _
  | .array elements span => (Places.nextSpan span).bind ((exprs_places elements).map _)
  | .object properties span => (Places.nextSpan span).bind ((properties_places properties).map _)
  | .function f => f.places.map _
  | .assignment _ left right span | .binary _ left right span | .logical _ left right span =>
    (Places.nextSpan span).bind (left.places.bind (right.places.map _))
  | .member object property _ span =>
    (Places.nextSpan span).bind (object.places.bind (property.places.map _))
  | .call callee arguments span | .new callee arguments span =>
    (Places.nextSpan span).bind (callee.places.bind ((exprs_places arguments).map _))
  | .unary _ argument _ span | .update _ argument _ span =>
    (Places.nextSpan span).bind (argument.places.map _)
  | .conditional test consequent alternate span =>
    (Places.nextSpan span).bind
      (test.places.bind (consequent.places.bind (alternate.places.map _)))

theorem exprs_places : (es : List Expr) → Places (exprsPlaced (exprsUnplaced es)) (exprsSpans es) es
  | [] => .pure []
  | e :: rest => e.places.bind ((exprs_places rest).map _)

theorem expr?_places :
    (e : Option Expr) → Places (exprPlaced? (exprUnplaced? e)) (exprSpans? e) e
  | none => .pure none
  | some e => e.places.map _

theorem Property.places :
    (property : Property) → Places property.unplaced.placed property.spans property
  | ⟨key, value, _, span⟩ => (Places.nextSpan span).bind (key.places.bind (value.places.map _))

theorem properties_places : (properties : List Property) →
    Places (propertiesPlaced (propertiesUnplaced properties)) (propertiesSpans properties)
      properties
  | [] => .pure []
  | property :: rest => property.places.bind ((properties_places rest).map _)

theorem Function.places : (f : Function) → Places f.unplaced.placed f.spans f
  | ⟨id, params, body, bodySpan, span⟩ =>
    (Places.nextSpan span).bind ((mapM_places? id).bind ((mapM_places params).bind
      ((Places.nextSpan bodySpan).bind ((stmts_places body).map _))))

theorem Declarator.places :
    (declarator : Declarator) → Places declarator.unplaced.placed declarator.spans declarator
  | ⟨id, init, span⟩ => (Places.nextSpan span).bind (id.places.bind ((expr?_places init).map _))

theorem declarators_places : (declarators : List Declarator) →
    Places (declaratorsPlaced (declaratorsUnplaced declarators)) (declaratorsSpans declarators)
      declarators
  | [] => .pure []
  | declarator :: rest => declarator.places.bind ((declarators_places rest).map _)

theorem Declaration.places :
    (declaration : Declaration) → Places declaration.unplaced.placed declaration.spans declaration
  | ⟨declarators, _, span⟩ => (Places.nextSpan span).bind ((declarators_places declarators).map _)

theorem ForInit.places : (init : ForInit) → Places init.unplaced.placed init.spans init
  | .declaration d => d.places.map _
  | .expression e => e.places.map _

theorem forInit?_places : (init : Option ForInit) →
    Places (forInitPlaced? (forInitUnplaced? init)) (forInitSpans? init) init
  | none => .pure none
  | some init => init.places.map _

theorem Stmt.places : (stmt : Stmt) → Places stmt.unplaced.placed stmt.spans stmt
  | .declaration d => d.places.map _
  | .function f => f.places.map _
  | .expression e span | .throws e span => (Places.nextSpan span).bind (e.places.map _)
  | .block body span => (Places.nextSpan span).bind ((stmts_places body).map _)
  | .branch test consequent alternate span =>
    (Places.nextSpan span).bind
      (test.places.bind (consequent.places.bind ((stmt?_places alternate).map _)))
  | .whileLoop test body span => (Places.nextSpan span).bind (test.places.bind (body.places.map _))
  | .forLoop init test update body span =>
    (Places.nextSpan span).bind ((forInit?_places init).bind ((expr?_places test).bind
      ((expr?_places update).bind (body.places.map _))))
  | .returns argument span => (Places.nextSpan span).bind ((expr?_places argument).map _)
  | .empty span => (Places.nextSpan span).map _

theorem stmts_places :
    (stmts : List Stmt) → Places (stmtsPlaced (stmtsUnplaced stmts)) (stmtsSpans stmts) stmts
  | [] => .pure []
  | stmt :: rest => stmt.places.bind ((stmts_places rest).map _)

theorem stmt?_places :
    (stmt : Option Stmt) → Places (stmtPlaced? (stmtUnplaced? stmt)) (stmtSpans? stmt) stmt
  | none => .pure none
  | some stmt => stmt.places.map _

end

/-- A statement is known by its shape and its spans. -/
theorem Stmt.eq_of_unplaced {a b : Stmt} (hshape : a.unplaced = b.unplaced)
    (hspans : a.spans = b.spans) : a = b := by
  have hb : Places a.unplaced.placed a.spans b := by
    rw [hshape, hspans]
    exact b.places
  exact a.places.unique hb

end Script

/-! ## Stamping -/

theorem Span.orLine_ne_default {line : UInt32} (hline : line ≠ 0) (span : Span) :
    span.orLine line ≠ {} := by
  rw [Span.orLine]
  split
  · intro hdefault
    exact hline (congrArg Span.line hdefault)
  · next hplaced => exact hplaced

theorem Span.orLine_orLine {line : UInt32} (hline : line ≠ 0) (later : UInt32) (span : Span) :
    (span.orLine line).orLine later = span.orLine line :=
  if_neg (orLine_ne_default hline span)

namespace Script

/-- Stamping a line onto a statement changes positions only. It leaves the span of every node that
has one, and puts every other node at the start of the line: there is one tree of that shape with
these spans. Stamping again, with any line, changes nothing. -/
theorem Stmt.atLine_places (stmt : Stmt) (line : UInt32) (hline : line ≠ 0) :
    (stmt.atLine line).unplaced = stmt.unplaced ∧
      (stmt.atLine line).spans =
        stmt.spans.map (fun span => if span = {} then Span.onLine line 0 0 else span) ∧
      (∀ other : Stmt, other.unplaced = stmt.unplaced → other.spans = (stmt.atLine line).spans →
        other = stmt.atLine line) ∧
      ∀ later, (stmt.atLine line).atLine later = stmt.atLine line := by
  refine ⟨stmt.unplaced_atLine, stmt.spans_atLine, fun other hshape hspans => ?_, fun later => ?_⟩
  · exact Stmt.eq_of_unplaced (hshape.trans stmt.unplaced_atLine.symm) hspans
  · refine Stmt.eq_of_unplaced (Stmt.unplaced_atLine _) ?_
    rw [Stmt.spans_atLine, Stmt.spans_atLine, List.map_map]
    exact List.map_congr_left fun span _ => Span.orLine_orLine hline later span

theorem Stmt.atLine_places_function :
    let stmt : Stmt := .function ⟨some ⟨"f", {}⟩, [⟨"a", {}⟩],
      [.expression (.identifier ⟨"b", .onLine 3 0 1⟩) (.onLine 3 0 2), .returns none {}], {}, {}⟩
    let stamped := stmt.atLine 2
    (2 : UInt32) ≠ 0 ∧ stamped.unplaced = stmt.unplaced ∧
      stamped.spans = [.onLine 2 0 0, .onLine 2 0 0, .onLine 2 0 0, .onLine 2 0 0, .onLine 3 0 2,
        .onLine 3 0 1, .onLine 2 0 0] ∧
      (∀ other : Stmt, other.unplaced = stmt.unplaced → other.spans = stamped.spans →
        other = stamped) ∧
      ∀ later, stamped.atLine later = stamped := by
  intro stmt stamped
  have hline : (2 : UInt32) ≠ 0 := by decide
  obtain ⟨hshape, hspans, hunique, hagain⟩ := Stmt.atLine_places stmt 2 hline
  exact ⟨hline, hshape, hspans.trans (by decide), hunique, hagain⟩

end Script

end HeaderCheck
