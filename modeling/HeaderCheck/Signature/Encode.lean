import HeaderCheck.Json.Value
import HeaderCheck.Signature.Tree

/-!
# HeaderCheck.Signature.Encode

JSON forms of headers. Every field is written, absent ones as `null`; type expressions and
statements carry the name of their kind as `type`.
-/

namespace HeaderCheck.Signature

def Segment.toJson : Segment → Json
  | .index i => .ofNat i.toNat
  | .key name => .string name

def Descriptor.toJson (descriptor : Descriptor) : Json :=
  .object [("name", .string descriptor.name),
    ("location", .array (descriptor.location.map Segment.toJson))]

def labelToJson (label : Option String) : Json :=
  .ofOption .string label

mutual

def TypeExpr.toJson : TypeExpr → Json
  | .object fields label optional isOpen brand =>
    .object [("type", .string "object"), ("keyValues", .array (keyValuesToJson fields)),
      ("label", labelToJson label), ("optional", .bool optional), ("open", .bool isOpen),
      ("brand", .string brand)]
  | .union members label optional =>
    .object [("type", .string "unionType"), ("unions", .array (typesToJson members)),
      ("label", labelToJson label), ("optional", .bool optional)]
  | .intersection members label optional =>
    .object [("type", .string "intersectionType"), ("intersections", .array (typesToJson members)),
      ("label", labelToJson label), ("optional", .bool optional)]
  | .literal name builtin label optional =>
    .object [("type", .string "typeLiteral"), ("name", .string name),
      ("builtin", .ofOption .bool builtin), ("label", labelToJson label),
      ("optional", .bool optional)]
  | .value value name label =>
    .object [("type", .string "valueLiteral"), ("value", .string value), ("name", .string name),
      ("label", labelToJson label)]
  | .function args result this label optional generics brand =>
    .object [("type", .string "function"), ("args", .array (typesToJson args)),
      ("result", result.toJson), ("thisArg", typeToJson? this), ("label", labelToJson label),
      ("optional", .bool optional), ("generics", .array (generics.map Descriptor.toJson)),
      ("brand", .string brand)]
  | .generic base args label =>
    .object [("type", .string "genericLiteral"), ("value", base.toJson),
      ("generics", .array (typesToJson args)), ("label", labelToJson label)]
  | .tuple elements label optional =>
    .object [("type", .string "tuple"), ("values", .array (typesToJson elements)),
      ("label", labelToJson label), ("optional", .bool optional)]
  | .renamed name builtin target label optional =>
    .object [("type", .string "renamedLiteral"), ("name", .string name),
      ("builtin", .bool builtin), ("original", target.toJson), ("label", labelToJson label),
      ("optional", .bool optional)]
  | .free name => .object [("type", .string "freeLiteral"), ("name", .string name)]

def typesToJson : List TypeExpr → List Json
  | [] => []
  | t :: rest => t.toJson :: typesToJson rest

def typeToJson? : Option TypeExpr → Json
  | none => .null
  | some t => t.toJson

def KeyValue.toJson : KeyValue → Json
  | ⟨key, value, optional⟩ =>
    .object [("key", .string key), ("value", value.toJson), ("optional", .bool optional)]

def keyValuesToJson : List KeyValue → List Json
  | [] => []
  | field :: rest => field.toJson :: keyValuesToJson rest

end

def Statement.toJson : Statement → Json
  | .declaration name body generics =>
    .object [("type", .string "typeDeclaration"), ("identifier", .string name),
      ("typeExpression", body.toJson), ("generics", .array (typesToJson generics))]
  | .assignment name type =>
    .object [("type", .string "assignment"), ("identifier", .string name),
      ("typeExpression", type.toJson)]
  | .imports dependency types =>
    .object [("type", .string "import"), ("dependency", .string dependency),
      ("types", .array (typesToJson types))]
  | .comment text => .object [("type", .string "comment"), ("text", .string text)]

def Header.toJson (header : Header) : Json :=
  .object [("statements", .array (header.statements.map Statement.toJson))]

end HeaderCheck.Signature
