import HeaderCheck.Proofs.Json.Record
import HeaderCheck.Script.Decode
import HeaderCheck.Script.Encode

/-!
# HeaderCheck.Proofs.Script.RoundTrip

Script trees that have been written as JSON are read back.

* `Expr.decode_toJson`, `Stmt.decode_toJson` and their siblings, one for each kind of tree: the
  decoder gives back the tree when it has three levels for each level of the JSON value.
* `Expr.declarations_not_mem`: no expression is written with `declarations`, so the start of a `for`
  that is an expression is not read as a declaration.
-/

namespace HeaderCheck

/-! ## Spans -/

@[simp] theorem Json.word32?_ofNat (n : UInt32) : (Json.ofNat n.toNat).word32? = some n := by
  have hsize : n.toNat < UInt32.size := n.toNat_lt_size
  have hword : n.toNat < Json.wordLimit := Nat.lt_trans hsize (by decide)
  simp [Json.word32?, Json.index?_ofNat hword, hsize]

theorem Position.ofJson?_toJson (p : Position) : Position.ofJson? p.toJson = some p := by
  simp [Position.ofJson?, Position.toJson, Json.fields?_object]

@[simp] theorem Span.field_toJson (span : Span) : Span.field (some span.toJson) = some span := by
  simp [Span.field, Span.ofJson?, Span.toJson, Json.fields?_object, Position.ofJson?_toJson]

namespace Script

open Json (listOf)

/-! ## Leaves -/

theorem Identifier.ofJson?_members (id : Identifier) :
    Identifier.ofJson? (.object id.members) = some id := by
  simp [Identifier.ofJson?, Identifier.members, Json.fields?_object]

theorem Identifier.ofJson?_toJson (id : Identifier) : Identifier.ofJson? id.toJson = some id :=
  id.ofJson?_members

theorem Identifier.optional_toJson (id : Option Identifier) :
    Field.optional Identifier.ofJson? (some (.ofOption Identifier.toJson id)) = some id :=
  Field.optional_ofOption fun id _ => ⟨id.ofJson?_toJson, Json.noConfusion⟩

theorem Identifier.listOf_toJson (ids : List Identifier) :
    listOf Identifier.ofJson? (.array (ids.map Identifier.toJson)) = some ids :=
  Json.listOf_array fun id _ => id.ofJson?_toJson

theorem Regex.ofJson?_toJson (regex : Regex) : Regex.ofJson? regex.toJson = some regex := by
  simp [Regex.ofJson?, Regex.toJson, Json.fields?_object]

theorem Literal.ofJson?_members (literal : Literal) :
    Literal.ofJson? (.object literal.members) = some literal := by
  have hregex : Field.optional Regex.ofJson? (some (.ofOption Regex.toJson literal.regex)) =
      some literal.regex :=
    Field.optional_ofOption fun regex _ => ⟨regex.ofJson?_toJson, Json.noConfusion⟩
  simp [Literal.ofJson?, Literal.members, Json.fields?_object, hregex]

/-! ## What a tree is not written as -/

theorem Expr.toJson_eq_object (e : Expr) :
    ∃ members, e.toJson = .object members ∧ "declarations" ∉ members.map Prod.fst := by
  cases e with
  | function f =>
    obtain ⟨id, params, body, bodySpan, span⟩ := f
    exact ⟨_, rfl, by simp [Function.members]⟩
  | _ => exact ⟨_, rfl, by simp [Identifier.members, Literal.members]⟩

theorem Expr.toJson_ne_null (e : Expr) : e.toJson ≠ .null := by
  obtain ⟨members, hmembers, -⟩ := e.toJson_eq_object
  rw [hmembers]
  exact Json.noConfusion

theorem Stmt.toJson_ne_null (s : Stmt) : s.toJson ≠ .null := by
  cases s <;> exact Json.noConfusion

theorem ForInit.toJson_ne_null (init : ForInit) : init.toJson ≠ .null := by
  cases init with
  | declaration d => exact Json.noConfusion
  | expression e => exact e.toJson_ne_null

theorem Function.kindKey_not_mem (f : Function) : Json.kindKey ∉ f.members.map Prod.fst := by
  obtain ⟨id, params, body, bodySpan, span⟩ := f
  simp [Json.kindKey, Function.members]

theorem Declaration.kindKey_not_mem (d : Declaration) : Json.kindKey ∉ d.members.map Prod.fst := by
  obtain ⟨declarators, kind, span⟩ := d
  simp [Json.kindKey, Declaration.members]

/-- No expression reads as a declaration. -/
theorem Declaration.decode_expr (fuel : Nat) (e : Expr) :
    Declaration.decode fuel e.toJson = none := by
  cases fuel with
  | zero => rfl
  | succ fuel =>
    obtain ⟨members, hmembers, hkey⟩ := e.toJson_eq_object
    rw [Declaration.decode, hmembers]
    cases hfields : Json.fields? ["declarations", "kind", "loc"] (.object members) with
    | none => rfl
    | some values =>
      obtain ⟨rest, rfl⟩ := Json.fields?_missing hkey hfields
      match rest with
      | [] | [_] | [_, _] | _ :: _ :: _ :: _ => rfl

/-! ## Trees -/

/- The induction is on the tree. What stands below a node is at least one level down in the JSON value,
and a node hands on at most three levels of fuel less: one for itself, one for a declaration at the
start of a `for` and one for the list it stands in. -/
mutual

theorem Expr.decode_toJson : (e : Expr) → (nested : Bool) → (fuel : Nat) →
    3 * e.toJson.depth < fuel → Expr.decode fuel nested e.toJson = some e
  | .identifier id, nested, fuel + 1, _ => by
    rw [Expr.toJson, Expr.decode, node, Json.node?_bind (by decide) (by simp [Json.kindKey, Identifier.members])]
    simp [id.ofJson?_members]
  | .literal lit, nested, fuel + 1, _ => by
    rw [Expr.toJson, Expr.decode, node, Json.node?_bind (by decide) (by simp [Json.kindKey, Literal.members])]
    simp [lit.ofJson?_members]
  | .this span, nested, fuel + 1, _ => by
    rw [Expr.toJson, Expr.decode, node, Json.node?_bind (by decide) (by simp [Json.kindKey])]
    simp [Json.fields?_object]
  | .array elements span, nested, fuel + 1, hfuel => by
    simp only [Expr.toJson, node, Json.depth, Json.depthMembers] at hfuel
    have helements := mapM_exprsToJson elements true fuel (by omega)
    rw [Expr.toJson, Expr.decode, node, Json.node?_bind (by decide) (by simp [Json.kindKey])]
    simp [Json.fields?_object, listOf, helements]
  | .object properties span, nested, fuel + 1, hfuel => by
    simp only [Expr.toJson, node, Json.depth, Json.depthMembers] at hfuel
    have hproperties := mapM_propertiesToJson properties true fuel (by omega)
    rw [Expr.toJson, Expr.decode, node, Json.node?_bind (by decide) (by simp [Json.kindKey])]
    simp [Json.fields?_object, listOf, hproperties]
  | .function f, nested, fuel + 1, hfuel => by
    simp only [Expr.toJson, node, Json.depth, Json.depthMembers] at hfuel
    have hf := f.decode_members fuel (by simp only [Json.depth]; omega)
    rw [Expr.toJson, Expr.decode, node, Json.node?_bind (by decide) f.kindKey_not_mem]
    simp [hf]
  | .assignment op left right span, nested, fuel + 1, hfuel => by
    simp only [Expr.toJson, node, Json.depth, Json.depthMembers] at hfuel
    have hleft := left.decode_toJson true fuel (by omega)
    have hright := right.decode_toJson true fuel (by omega)
    rw [Expr.toJson, Expr.decode, node, Json.node?_bind (by decide) (by simp [Json.kindKey])]
    simp [operands?, Json.fields?_object, hleft, hright]
  | .member object property computed span, nested, fuel + 1, hfuel => by
    simp only [Expr.toJson, node, Json.depth, Json.depthMembers] at hfuel
    have hobject := object.decode_toJson true fuel (by omega)
    have hproperty := property.decode_toJson true fuel (by omega)
    rw [Expr.toJson, Expr.decode, node, Json.node?_bind (by decide) (by simp [Json.kindKey])]
    simp [Json.fields?_object, hobject, hproperty]
  | .call callee arguments span, nested, fuel + 1, hfuel
  | .new callee arguments span, nested, fuel + 1, hfuel => by
    simp only [Expr.toJson, node, Json.depth, Json.depthMembers] at hfuel
    have hcallee := callee.decode_toJson true fuel (by omega)
    have harguments := mapM_exprsToJson arguments true fuel (by omega)
    rw [Expr.toJson, Expr.decode, node, Json.node?_bind (by decide) (by simp [Json.kindKey])]
    simp [application?, Json.fields?_object, listOf, hcallee, harguments]
  | .binary op left right span, nested, fuel + 1, hfuel
  | .logical op left right span, nested, fuel + 1, hfuel => by
    simp only [Expr.toJson, node, Json.depth, Json.depthMembers] at hfuel
    have hleft := left.decode_toJson true fuel (by omega)
    have hright := right.decode_toJson true fuel (by omega)
    rw [Expr.toJson, Expr.decode, node, Json.node?_bind (by decide) (by simp [Json.kindKey])]
    simp [operands?, Json.fields?_object, hleft, hright]
  | .unary op argument isPrefix span, nested, fuel + 1, hfuel
  | .update op argument isPrefix span, nested, fuel + 1, hfuel => by
    simp only [Expr.toJson, node, Json.depth, Json.depthMembers] at hfuel
    have hargument := argument.decode_toJson true fuel (by omega)
    rw [Expr.toJson, Expr.decode, node, Json.node?_bind (by decide) (by simp [Json.kindKey])]
    simp [operand?, Json.fields?_object, hargument]
  | .conditional test consequent alternate span, nested, fuel + 1, hfuel => by
    simp only [Expr.toJson, node, Json.depth, Json.depthMembers] at hfuel
    have htest := test.decode_toJson true fuel (by omega)
    have hconsequent := consequent.decode_toJson true fuel (by omega)
    have halternate := alternate.decode_toJson true fuel (by omega)
    rw [Expr.toJson, Expr.decode, node, Json.node?_bind (by decide) (by simp [Json.kindKey])]
    simp [Json.fields?_object, htest, hconsequent, halternate]

theorem mapM_exprsToJson : (es : List Expr) → (nested : Bool) → (fuel : Nat) →
    3 * Json.depthItems (exprsToJson es) < fuel →
    (exprsToJson es).mapM (Expr.decode fuel nested) = some es
  | [], _, _, _ => rfl
  | e :: rest, nested, fuel, hfuel => by
    simp only [exprsToJson, Json.depthItems] at hfuel
    have hfirst := e.decode_toJson nested fuel (by omega)
    have hrest := mapM_exprsToJson rest nested fuel (by omega)
    simp [exprsToJson, hfirst, hrest]

theorem optional_exprToJson? : (e : Option Expr) → (fuel : Nat) →
    3 * (exprToJson? e).depth < fuel →
    Field.optional (Expr.decode fuel true) (some (exprToJson? e)) = some e
  | none, _, _ => rfl
  | some e, fuel, hfuel => Field.optional_of_ne_null e.toJson_ne_null (e.decode_toJson true fuel hfuel)

theorem Property.decode_toJson : (p : Property) → (nested : Bool) → (fuel : Nat) →
    3 * p.toJson.depth < fuel → Property.decode fuel nested p.toJson = some p
  | ⟨key, value, kind, span⟩, nested, fuel + 1, hfuel => by
    simp only [Property.toJson, Json.depth, Json.depthMembers] at hfuel
    have hkey := key.decode_toJson nested fuel (by omega)
    have hvalue := value.decode_toJson nested fuel (by omega)
    simp [Property.toJson, Property.decode, Json.fields?_object, hkey, hvalue]

theorem mapM_propertiesToJson : (ps : List Property) → (nested : Bool) → (fuel : Nat) →
    3 * Json.depthItems (propertiesToJson ps) < fuel →
    (propertiesToJson ps).mapM (Property.decode fuel nested) = some ps
  | [], _, _, _ => rfl
  | p :: rest, nested, fuel, hfuel => by
    simp only [propertiesToJson, Json.depthItems] at hfuel
    have hfirst := p.decode_toJson nested fuel (by omega)
    have hrest := mapM_propertiesToJson rest nested fuel (by omega)
    simp [propertiesToJson, hfirst, hrest]

theorem Function.decode_members : (f : Function) → (fuel : Nat) →
    3 * (Json.object f.members).depth ≤ fuel → Function.decode fuel (.object f.members) = some f
  | ⟨id, params, body, bodySpan, span⟩, 0, hfuel => by
    simp only [Json.depth] at hfuel
    omega
  | ⟨id, params, body, bodySpan, span⟩, fuel + 1, hfuel => by
    simp only [Function.members, blockMembers, Json.depth, Json.depthMembers] at hfuel
    have hbody : listOf (Stmt.decode fuel true) (.array (stmtsToJson body)) = some body :=
      mapM_stmtsToJson body true fuel (by omega)
    simp [Function.members, Function.decode, block?, blockMembers, Json.fields?_object,
      Identifier.optional_toJson, Identifier.listOf_toJson, hbody]

theorem Declarator.decode_toJson : (d : Declarator) → (fuel : Nat) →
    3 * d.toJson.depth < fuel → Declarator.decode fuel d.toJson = some d
  | ⟨id, init, span⟩, fuel + 1, hfuel => by
    simp only [Declarator.toJson, Json.depth, Json.depthMembers] at hfuel
    have hinit := optional_exprToJson? init fuel (by omega)
    simp [Declarator.toJson, Declarator.decode, Json.fields?_object, id.ofJson?_toJson, hinit]

theorem mapM_declaratorsToJson : (ds : List Declarator) → (fuel : Nat) →
    3 * Json.depthItems (declaratorsToJson ds) < fuel →
    (declaratorsToJson ds).mapM (Declarator.decode fuel) = some ds
  | [], _, _ => rfl
  | d :: rest, fuel, hfuel => by
    simp only [declaratorsToJson, Json.depthItems] at hfuel
    have hfirst := d.decode_toJson fuel (by omega)
    have hrest := mapM_declaratorsToJson rest fuel (by omega)
    simp [declaratorsToJson, hfirst, hrest]

theorem Declaration.decode_members : (d : Declaration) → (fuel : Nat) →
    3 * (Json.object d.members).depth ≤ fuel →
    Declaration.decode fuel (.object d.members) = some d
  | ⟨declarators, kind, span⟩, 0, hfuel => by
    simp only [Json.depth] at hfuel
    omega
  | ⟨declarators, kind, span⟩, fuel + 1, hfuel => by
    simp only [Declaration.members, Json.depth, Json.depthMembers] at hfuel
    have hdeclarators := mapM_declaratorsToJson declarators fuel (by omega)
    simp [Declaration.members, Declaration.decode, Json.fields?_object, listOf, hdeclarators]

theorem ForInit.decode_toJson : (init : ForInit) → (fuel : Nat) →
    3 * init.toJson.depth + 1 < fuel → ForInit.decode fuel init.toJson = some init
  | .declaration d, fuel + 1, hfuel => by
    have hd := d.decode_members fuel (by simp only [ForInit.toJson] at hfuel; omega)
    simp [ForInit.toJson, ForInit.decode, hd]
  | .expression e, fuel + 1, hfuel => by
    have he := e.decode_toJson true fuel (by simp only [ForInit.toJson] at hfuel; omega)
    simp [ForInit.toJson, ForInit.decode, Declaration.decode_expr, he]

theorem optional_forInitToJson? : (init : Option ForInit) → (fuel : Nat) →
    3 * (forInitToJson? init).depth + 1 < fuel →
    Field.optional (ForInit.decode fuel) (some (forInitToJson? init)) = some init
  | none, _, _ => rfl
  | some init, fuel, hfuel =>
    Field.optional_of_ne_null init.toJson_ne_null (init.decode_toJson fuel hfuel)

theorem Stmt.decode_toJson : (s : Stmt) → (nested : Bool) → (fuel : Nat) →
    3 * s.toJson.depth < fuel → Stmt.decode fuel nested s.toJson = some s
  | .declaration d, nested, fuel + 1, hfuel => by
    simp only [Stmt.toJson, node, Json.depth, Json.depthMembers] at hfuel
    have hd := d.decode_members fuel (by simp only [Json.depth]; omega)
    rw [Stmt.toJson, Stmt.decode, node, Json.node?_bind (by decide) d.kindKey_not_mem]
    simp [hd]
  | .function f, nested, fuel + 1, hfuel => by
    simp only [Stmt.toJson, node, Json.depth, Json.depthMembers] at hfuel
    have hf := f.decode_members fuel (by simp only [Json.depth]; omega)
    rw [Stmt.toJson, Stmt.decode, node, Json.node?_bind (by decide) f.kindKey_not_mem]
    simp [hf]
  | .expression e span, nested, fuel + 1, hfuel
  | .throws e span, nested, fuel + 1, hfuel => by
    simp only [Stmt.toJson, node, Json.depth, Json.depthMembers] at hfuel
    have he := e.decode_toJson true fuel (by omega)
    rw [Stmt.toJson, Stmt.decode, node, Json.node?_bind (by decide) (by simp [Json.kindKey])]
    simp [Json.fields?_object, he]
  | .block body span, nested, fuel + 1, hfuel => by
    simp only [Stmt.toJson, node, blockMembers, Json.depth, Json.depthMembers] at hfuel
    have hbody := mapM_stmtsToJson body true fuel (by omega)
    rw [Stmt.toJson, Stmt.decode, node, Json.node?_bind (by decide) (by simp [Json.kindKey, blockMembers])]
    simp [block?, blockMembers, Json.fields?_object, listOf, hbody]
  | .branch test consequent alternate span, nested, fuel + 1, hfuel => by
    simp only [Stmt.toJson, node, Json.depth, Json.depthMembers] at hfuel
    have htest := test.decode_toJson true fuel (by omega)
    have hconsequent := consequent.decode_toJson true fuel (by omega)
    have halternate := optional_stmtToJson? alternate fuel (by omega)
    rw [Stmt.toJson, Stmt.decode, node, Json.node?_bind (by decide) (by simp [Json.kindKey])]
    simp [Json.fields?_object, htest, hconsequent, halternate]
  | .whileLoop test body span, nested, fuel + 1, hfuel => by
    simp only [Stmt.toJson, node, Json.depth, Json.depthMembers] at hfuel
    have htest := test.decode_toJson true fuel (by omega)
    have hbody := body.decode_toJson true fuel (by omega)
    rw [Stmt.toJson, Stmt.decode, node, Json.node?_bind (by decide) (by simp [Json.kindKey])]
    simp [Json.fields?_object, htest, hbody]
  | .forLoop init test update body span, nested, fuel + 1, hfuel => by
    simp only [Stmt.toJson, node, Json.depth, Json.depthMembers] at hfuel
    have hinit := optional_forInitToJson? init fuel (by omega)
    have htest := optional_exprToJson? test fuel (by omega)
    have hupdate := optional_exprToJson? update fuel (by omega)
    have hbody := body.decode_toJson true fuel (by omega)
    rw [Stmt.toJson, Stmt.decode, node, Json.node?_bind (by decide) (by simp [Json.kindKey])]
    simp [Json.fields?_object, hinit, htest, hupdate, hbody]
  | .returns argument span, nested, fuel + 1, hfuel => by
    simp only [Stmt.toJson, node, Json.depth, Json.depthMembers] at hfuel
    have hargument := optional_exprToJson? argument fuel (by omega)
    rw [Stmt.toJson, Stmt.decode, node, Json.node?_bind (by decide) (by simp [Json.kindKey])]
    simp [Json.fields?_object, hargument]
  | .empty span, nested, fuel + 1, _ => by
    rw [Stmt.toJson, Stmt.decode, node, Json.node?_bind (by decide) (by simp [Json.kindKey])]
    simp [Json.fields?_object]

theorem mapM_stmtsToJson : (ss : List Stmt) → (nested : Bool) → (fuel : Nat) →
    3 * Json.depthItems (stmtsToJson ss) < fuel →
    (stmtsToJson ss).mapM (Stmt.decode fuel nested) = some ss
  | [], _, _, _ => rfl
  | s :: rest, nested, fuel, hfuel => by
    simp only [stmtsToJson, Json.depthItems] at hfuel
    have hfirst := s.decode_toJson nested fuel (by omega)
    have hrest := mapM_stmtsToJson rest nested fuel (by omega)
    simp [stmtsToJson, hfirst, hrest]

theorem optional_stmtToJson? : (s : Option Stmt) → (fuel : Nat) →
    3 * (stmtToJson? s).depth < fuel →
    Field.optional (Stmt.decode fuel true) (some (stmtToJson? s)) = some s
  | none, _, _ => rfl
  | some s, fuel, hfuel => Field.optional_of_ne_null s.toJson_ne_null (s.decode_toJson true fuel hfuel)

end

/-! ## Whole values -/

theorem Expr.ofJson?_toJson (e : Expr) : Expr.ofJson? e.toJson = some e :=
  e.decode_toJson false _ (by simp only [levels]; omega)

theorem Stmt.ofJson?_toJson (s : Stmt) : Stmt.ofJson? s.toJson = some s :=
  s.decode_toJson false _ (by simp only [levels]; omega)

theorem Property.ofJson?_toJson (p : Property) : Property.ofJson? p.toJson = some p :=
  p.decode_toJson false _ (by simp only [levels]; omega)

theorem Program.ofJson?_toJson (program : Program) :
    Program.ofJson? program.toJson = some program := by
  unfold Program.ofJson?
  generalize hlevels : levels program.toJson = fuel
  simp only [levels, toJson, blockMembers, Json.depth, Json.depthMembers] at hlevels
  have hbody : listOf (Stmt.decode fuel false) (.array (stmtsToJson program.body)) =
      some program.body :=
    mapM_stmtsToJson program.body false fuel (by omega)
  simp [toJson, block?, blockMembers, Json.fields?_object, hbody]

end Script

end HeaderCheck
