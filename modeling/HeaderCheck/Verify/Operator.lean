import HeaderCheck.Verify.Visitor

/-!
# HeaderCheck.Verify.Operator

Operators as functions: the bindings of all files give each operator a function type, or an
intersection of such types, and a use of the operator is a call of it.

* `tryOverload`: the result of one signature for given operands, or what is wrong with them.
* `applyOperator`: the first signature that accepts the operands.
-/

namespace HeaderCheck.Verify

open HeaderCheck.Report (Diagnostic)
open HeaderCheck.Script (Expr)
open HeaderCheck.Types (TypeId)

/-- The result of one signature for the operands, or what is wrong with them. What is no function
accepts everything. -/
def tryOverload (s : State) (span : Span) (operands : List TypeId) (overload : TypeId) :
    Except (List Diagnostic) TypeId :=
  match s.table.functionShape? overload with
  | none => .ok .any
  | some shape =>
    if shape.params.length ≠ operands.length then
      .error [s.diagnostic .functionArgCountMismatch span
        [("expected", s.format overload), ("actual", toString operands.length)]]
    else
      match (shape.params.zip operands).filterMap fun (param, operand) =>
        s.mismatch? span param.type operand with
      | [] => .ok shape.result
      | errors => .error errors

/-- The result of the first overload that accepts the operands. -/
def firstOverload? (s : State) (span : Span) (operands : List TypeId) :
    (overloads : List TypeId) → Option TypeId
  | [] => none
  | overload :: rest =>
    match tryOverload s span operands overload with
    | .ok result => some result
    | .error _ => firstOverload? s span operands rest

/-- The result of an operator for the operands; an operator without a signature gives `Any`. A
single signature reports what is wrong with each operand, several report one mismatch. -/
def applyOperator (operator : String) (span : Span) (operands : List TypeId) :
    Check (Option TypeId) := do
  let s ← get
  match s.session.globals.operators.get? operator with
  | none => return some .any
  | some signature =>
    match (s.table.intersectionMembers? signature).getD [signature] with
    | [single] =>
      match tryOverload s span operands single with
      | .ok result => return some result
      | .error errors =>
        record errors
        return none
    | overloads =>
      match firstOverload? s span operands overloads with
      | some result => return some result
      | none =>
        report .intersectionOperatorCallMismatch span
          [("operator", operator),
            ("actual", "(" ++ ", ".intercalate (operands.map s.format) ++ ")")]
        return none

/-- A use of an operator between two operands. -/
def verifyBinary (v : Visitor) (operator : String) (left right : Expr) (span : Span) :
    Check (Option TypeId) := do
  let left ← v.value left
  let right ← v.value right
  match left, right with
  | some left, some right => applyOperator operator span [left, right]
  | _, _ => return none

/-- A use of an operator with one operand. -/
def verifyUnary (v : Visitor) (operator : String) (argument : Expr) (span : Span) :
    Check (Option TypeId) := do
  match ← v.value argument with
  | some argument => applyOperator operator span [argument]
  | none => return none

/-- The operator in a compound assignment: the text before the last `=`. -/
def compoundOperator (operator : String) : String :=
  match operator.toList.reverse with
  | '=' :: rest => String.ofList rest.reverse
  | _ => operator

/-- A compound assignment: the operator is used on both sides, and its result must fit the left
one, unless that still waits for its first value. -/
def verifyCompound (v : Visitor) (operator : String) (left right : Expr) (span : Span) :
    Check (Option TypeId) := do
  let leftType ← asRead (v.expr left)
  let rightType ← v.value right
  match leftType, rightType with
  | some leftType, some rightType =>
    match ← applyOperator (compoundOperator operator) span [leftType, rightType] with
    | none => return none
    | some result =>
      match ← asTarget (v.expr left) with
      | none => return none
      | some target =>
        if !target.growsFreely then
          let _ ← checkFits span target result
        return some result
  | _, _ => return none

end HeaderCheck.Verify
