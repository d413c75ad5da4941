import HeaderCheck.Proofs.Script.RoundTrip
import HeaderCheck.Signature.Decode
import HeaderCheck.Signature.Encode

/-!
# HeaderCheck.Proofs.Signature.RoundTrip

Headers that have been written as JSON are read back, and with them all trees of the program.

* `TypeExpr.decode_toJson`: the decoder gives back the type when it has two levels for each level of
  the JSON value.
* `Segment.ofJson?_toJson`: a place in a list is not read as a name, nor a name as a place.
* `trees_round_trip`: every tree of a script and of a header reads back.
-/

namespace HeaderCheck

namespace Signature

open Json (listOf)

/-! ## Leaves -/

/-- A place in a list is written as a number and a name as a string. -/
theorem Segment.ofJson?_toJson (segment : Segment) : Segment.ofJson? segment.toJson = some segment := by
  cases segment with
  | key name => rfl
  | index i =>
    have hword : i.toNat < Json.wordLimit := i.toNat_lt_size
    have hread : Segment.ofJson? (.ofNat i.toNat) =
        (Json.ofNat i.toNat).index?.map fun n => .index (UInt64.ofNat n) := rfl
    rw [toJson, hread, Json.index?_ofNat hword, Option.map_some, UInt64.ofNat_toNat]

theorem Descriptor.ofJson?_toJson (descriptor : Descriptor) :
    Descriptor.ofJson? descriptor.toJson = some descriptor := by
  have hlocation : listOf Segment.ofJson? (.array (descriptor.location.map Segment.toJson)) =
      some descriptor.location :=
    Json.listOf_array fun segment _ => segment.ofJson?_toJson
  simp [Descriptor.ofJson?, Descriptor.toJson, Json.fields?_object, hlocation]

theorem Descriptor.listOf_toJson (generics : List Descriptor) :
    listOf Descriptor.ofJson? (.array (generics.map Descriptor.toJson)) = some generics :=
  Json.listOf_array fun descriptor _ => descriptor.ofJson?_toJson

@[simp] theorem optional_labelToJson (label : Option String) :
    Field.optional Json.string? (some (labelToJson label)) = some label :=
  Field.optional_string label

theorem TypeExpr.toJson_ne_null (type : TypeExpr) : type.toJson ≠ .null := by
  cases type <;> exact Json.noConfusion

/-! ## Types -/

/- The induction is on the type. What stands below a type is at least one level down in the JSON
value, and a field of an object takes one level of fuel more. -/
mutual

theorem TypeExpr.decode_toJson : (type : TypeExpr) → (nested : Bool) → (fuel : Nat) →
    2 * type.toJson.depth < fuel → TypeExpr.decode fuel nested type.toJson = some type
  | .object fields label optional isOpen brand, nested, fuel + 1, hfuel => by
    simp only [TypeExpr.toJson, Json.depth, Json.depthMembers] at hfuel
    have hfields := mapM_keyValuesToJson fields fuel (by omega)
    rw [TypeExpr.toJson, TypeExpr.decode, Json.node?_bind (by decide) (by simp [Json.kindKey])]
    simp [Json.fields?_object, listOf, hfields]
  | .union types label optional, nested, fuel + 1, hfuel
  | .intersection types label optional, nested, fuel + 1, hfuel
  | .tuple types label optional, nested, fuel + 1, hfuel => by
    simp only [TypeExpr.toJson, Json.depth, Json.depthMembers] at hfuel
    have htypes := mapM_typesToJson types true fuel (by omega)
    rw [TypeExpr.toJson, TypeExpr.decode, Json.node?_bind (by decide) (by simp [Json.kindKey])]
    simp [typeList?, Json.fields?_object, listOf, htypes]
  | .literal name builtin label optional, nested, fuel + 1, _
  | .value value name label, nested, fuel + 1, _
  | .free name, nested, fuel + 1, _ => by
    rw [TypeExpr.toJson, TypeExpr.decode, Json.node?_bind (by decide) (by simp [Json.kindKey])]
    simp [Json.fields?_object]
  | .function args result this label optional generics brand, nested, fuel + 1, hfuel => by
    simp only [TypeExpr.toJson, Json.depth, Json.depthMembers] at hfuel
    have hargs : listOf (TypeExpr.decode fuel true) (.array (typesToJson args)) = some args :=
      mapM_typesToJson args true fuel (by omega)
    have hresult := result.decode_toJson true fuel (by omega)
    have hthis := optional_typeToJson? this fuel (by omega)
    rw [TypeExpr.toJson, TypeExpr.decode, Json.node?_bind (by decide) (by simp [Json.kindKey])]
    simp [Json.fields?_object, hargs, hresult, hthis, Descriptor.listOf_toJson]
  | .generic base args label, nested, fuel + 1, hfuel => by
    simp only [TypeExpr.toJson, Json.depth, Json.depthMembers] at hfuel
    have hbase := base.decode_toJson true fuel (by omega)
    have hargs := mapM_typesToJson args true fuel (by omega)
    rw [TypeExpr.toJson, TypeExpr.decode, Json.node?_bind (by decide) (by simp [Json.kindKey])]
    simp [Json.fields?_object, listOf, hbase, hargs]
  | .renamed name builtin target label optional, nested, fuel + 1, hfuel => by
    simp only [TypeExpr.toJson, Json.depth, Json.depthMembers] at hfuel
    have htarget := target.decode_toJson true fuel (by omega)
    rw [TypeExpr.toJson, TypeExpr.decode, Json.node?_bind (by decide) (by simp [Json.kindKey])]
    simp [Json.fields?_object, htarget]

theorem mapM_typesToJson : (types : List TypeExpr) → (nested : Bool) → (fuel : Nat) →
    2 * Json.depthItems (typesToJson types) < fuel →
    (typesToJson types).mapM (TypeExpr.decode fuel nested) = some types
  | [], _, _, _ => rfl
  | type :: rest, nested, fuel, hfuel => by
    simp only [typesToJson, Json.depthItems] at hfuel
    have hfirst := type.decode_toJson nested fuel (by omega)
    have hrest := mapM_typesToJson rest nested fuel (by omega)
    simp [typesToJson, hfirst, hrest]

theorem optional_typeToJson? : (type : Option TypeExpr) → (fuel : Nat) →
    2 * (typeToJson? type).depth < fuel →
    Field.optional (TypeExpr.decode fuel true) (some (typeToJson? type)) = some type
  | none, _, _ => rfl
  | some type, fuel, hfuel =>
    Field.optional_of_ne_null type.toJson_ne_null (type.decode_toJson true fuel hfuel)

theorem KeyValue.decode_toJson : (field : KeyValue) → (fuel : Nat) →
    2 * field.toJson.depth < fuel → KeyValue.decode fuel field.toJson = some field
  | ⟨key, value, optional⟩, fuel + 1, hfuel => by
    simp only [KeyValue.toJson, Json.depth, Json.depthMembers] at hfuel
    have hvalue := value.decode_toJson true fuel (by omega)
    simp [KeyValue.toJson, KeyValue.decode, Json.fields?_object, hvalue]

theorem mapM_keyValuesToJson : (fields : List KeyValue) → (fuel : Nat) →
    2 * Json.depthItems (keyValuesToJson fields) < fuel →
    (keyValuesToJson fields).mapM (KeyValue.decode fuel) = some fields
  | [], _, _ => rfl
  | field :: rest, fuel, hfuel => by
    simp only [keyValuesToJson, Json.depthItems] at hfuel
    have hfirst := field.decode_toJson fuel (by omega)
    have hrest := mapM_keyValuesToJson rest fuel (by omega)
    simp [keyValuesToJson, hfirst, hrest]

end

/-! ## Statements -/

theorem Statement.ofJson?_toJson (statement : Statement) :
    Statement.ofJson? statement.toJson = some statement := by
  unfold Statement.ofJson?
  generalize hlevels : levels statement.toJson = fuel
  cases statement with
  | declaration name body generics =>
    simp only [levels, toJson, Json.depth, Json.depthMembers] at hlevels
    have hbody := body.decode_toJson true fuel (by omega)
    have hgenerics := mapM_typesToJson generics true fuel (by omega)
    rw [toJson, Json.node?_bind (by decide) (by simp [Json.kindKey])]
    simp [Json.fields?_object, listOf, hbody, hgenerics]
  | assignment name type =>
    simp only [levels, toJson, Json.depth, Json.depthMembers] at hlevels
    have htype := type.decode_toJson true fuel (by omega)
    rw [toJson, Json.node?_bind (by decide) (by simp [Json.kindKey])]
    simp [Json.fields?_object, htype]
  | imports dependency types =>
    simp only [levels, toJson, Json.depth, Json.depthMembers] at hlevels
    have htypes := mapM_typesToJson types true fuel (by omega)
    rw [toJson, Json.node?_bind (by decide) (by simp [Json.kindKey])]
    simp [Json.fields?_object, listOf, htypes]
  | comment text =>
    rw [toJson, Json.node?_bind (by decide) (by simp [Json.kindKey])]
    simp [Json.fields?_object]

theorem Header.ofJson?_toJson (header : Header) : Header.ofJson? header.toJson = some header := by
  have hstatements : listOf Statement.ofJson? (.array (header.statements.map Statement.toJson)) =
      some header.statements :=
    Json.listOf_array fun statement _ => statement.ofJson?_toJson
  simp [Header.ofJson?, Header.toJson, Json.fields?_object, hstatements]

end Signature

/-- Programs, statements, expressions and properties of scripts and headers, their statements and
types read back as they were written. -/
theorem trees_round_trip :
    RoundTrips Script.Program.toJson Script.Program.ofJson? ∧
    RoundTrips Script.Stmt.toJson Script.Stmt.ofJson? ∧
    RoundTrips Script.Expr.toJson Script.Expr.ofJson? ∧
    RoundTrips Script.Property.toJson Script.Property.ofJson? ∧
    RoundTrips Signature.Header.toJson Signature.Header.ofJson? ∧
    RoundTrips Signature.Statement.toJson Signature.Statement.ofJson? ∧
    RoundTrips Signature.TypeExpr.toJson Signature.TypeExpr.ofJson? :=
  ⟨.of_written fun program => program.ofJson?_toJson, .of_written fun s => s.ofJson?_toJson,
    .of_written fun e => e.ofJson?_toJson, .of_written fun p => p.ofJson?_toJson,
    .of_written fun header => header.ofJson?_toJson,
    .of_written fun statement => statement.ofJson?_toJson,
    .of_written fun type => type.decode_toJson false _ (by simp only [Signature.levels]; omega)⟩

end HeaderCheck
