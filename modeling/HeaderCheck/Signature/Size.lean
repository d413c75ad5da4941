import HeaderCheck.Signature.Tree

/-!
# HeaderCheck.Signature.Size

How many nodes type expressions and headers have.
-/

namespace HeaderCheck.Signature

mutual

def TypeExpr.size : TypeExpr → Nat
  | .object fields _ _ _ _ => keyValuesSize fields + 1
  | .union members _ _ | .intersection members _ _ => typesSize members + 1
  | .function args result this _ _ _ _ => typesSize args + result.size + typeSize? this + 1
  | .generic base args _ => base.size + typesSize args + 1
  | .tuple elements _ _ => typesSize elements + 1
  | .renamed _ _ target _ _ => target.size + 1
  | .literal .. | .value .. | .free _ => 1

def typesSize : List TypeExpr → Nat
  | [] => 0
  | t :: rest => t.size + typesSize rest

def typeSize? : Option TypeExpr → Nat
  | none => 0
  | some t => t.size

def KeyValue.size : KeyValue → Nat
  | ⟨_, value, _⟩ => value.size

def keyValuesSize : List KeyValue → Nat
  | [] => 0
  | field :: rest => field.size + keyValuesSize rest

end

def Statement.size : Statement → Nat
  | .declaration _ body generics => body.size + typesSize generics + 1
  | .assignment _ type => type.size + 1
  | .imports _ types => typesSize types + 1
  | .comment _ => 1

def statementsSize : List Statement → Nat
  | [] => 0
  | statement :: rest => statement.size + statementsSize rest

def Header.size (header : Header) : Nat :=
  statementsSize header.statements

end HeaderCheck.Signature
