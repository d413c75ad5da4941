import HeaderCheck.Proofs.Signature.Names
import Mathlib.Algebra.BigOperators.Group.List.Basic
import Mathlib.Algebra.GroupWithZero.Nat

/-!
# HeaderCheck.Proofs.Signature.Occurrences

Places in type expressions at which names stand.

* `TypeExpr.nodes`: an expression and all expressions in it.
* `TypeExpr.unresolved`: the names of literals that stand for nothing, once for each place.
  `TypeExpr.count_unresolved` is how those of an expression and of its parts relate.
-/

namespace HeaderCheck.Signature

mutual

/-- An expression and all expressions in it. -/
def TypeExpr.nodes : TypeExpr → List TypeExpr
  | .literal name builtin label optional => [.literal name builtin label optional]
  | .value value name label => [.value value name label]
  | .free name => [.free name]
  | .object fields label optional isOpen brand =>
    .object fields label optional isOpen brand :: keyValuesNodes fields
  | .union members label optional => .union members label optional :: typesNodes members
  | .intersection members label optional =>
    .intersection members label optional :: typesNodes members
  | .function args result this label optional generics brand =>
    .function args result this label optional generics brand ::
      (typesNodes args ++ typeNodes? this ++ result.nodes)
  | .generic base args label => .generic base args label :: (base.nodes ++ typesNodes args)
  | .tuple elements label optional => .tuple elements label optional :: typesNodes elements
  | .renamed name builtin target label optional =>
    .renamed name builtin target label optional :: target.nodes

def typesNodes : List TypeExpr → List TypeExpr
  | [] => []
  | t :: rest => t.nodes ++ typesNodes rest

def typeNodes? : Option TypeExpr → List TypeExpr
  | none => []
  | some t => t.nodes

def KeyValue.nodes : KeyValue → List TypeExpr
  | ⟨_, value, _⟩ => value.nodes

def keyValuesNodes : List KeyValue → List TypeExpr
  | [] => []
  | field :: rest => field.nodes ++ keyValuesNodes rest

end

mutual

/-- The names that are neither variables of a function around them nor marked or listed as built-in nor
`known`, once for each literal that is such a name. -/
def TypeExpr.unresolved (known : String → Bool) : TypeExpr → List String
  | .literal name builtin _ _ =>
    if builtin.getD (isBuiltinName name) || known name then [] else [name]
  | .value .. | .free _ => []
  | .object fields _ _ _ _ => keyValuesUnresolved known fields
  | .union members _ _ | .intersection members _ _ => typesUnresolved known members
  | .function args result this _ _ generics _ =>
    (typesUnresolved known args ++ typeUnresolved? known this ++ result.unresolved known).filter
      fun name => !(generics.map Descriptor.name).contains name
  | .generic base args _ => base.unresolved known ++ typesUnresolved known args
  | .tuple elements _ _ => typesUnresolved known elements
  | .renamed _ _ target _ _ => target.unresolved known

def typesUnresolved (known : String → Bool) : List TypeExpr → List String
  | [] => []
  | t :: rest => t.unresolved known ++ typesUnresolved known rest

def typeUnresolved? (known : String → Bool) : Option TypeExpr → List String
  | none => []
  | some t => t.unresolved known

def KeyValue.unresolved (known : String → Bool) : KeyValue → List String
  | ⟨_, value, _⟩ => value.unresolved known

def keyValuesUnresolved (known : String → Bool) : List KeyValue → List String
  | [] => []
  | field :: rest => field.unresolved known ++ keyValuesUnresolved known rest

end

/-- The name that a literal is. -/
def TypeExpr.name? : TypeExpr → Option String
  | .literal name _ _ _ => some name
  | _ => none

/-! ## Nodes of parts -/

theorem typesNodes_eq (types : List TypeExpr) : typesNodes types = types.flatMap TypeExpr.nodes := by
  induction types with
  | nil => rfl
  | cons first rest ih => rw [typesNodes, List.flatMap_cons, ih]

theorem keyValuesNodes_eq (fields : List KeyValue) :
    keyValuesNodes fields = (fields.map KeyValue.value).flatMap TypeExpr.nodes := by
  induction fields with
  | nil => rfl
  | cons first rest ih =>
    obtain ⟨key, value, optional⟩ := first
    rw [keyValuesNodes, List.map_cons, List.flatMap_cons, ih]
    rfl

theorem typeNodes?_eq (type : Option TypeExpr) :
    typeNodes? type = type.toList.flatMap TypeExpr.nodes := by
  cases type with
  | none => rfl
  | some type => exact (List.append_nil _).symm

/-- The nodes of an expression are itself and those of its parts. -/
theorem TypeExpr.nodes_eq (type : TypeExpr) : type.nodes = type :: type.parts.flatMap nodes := by
  cases type with
  | literal | value | free => rfl
  | object fields => rw [nodes, keyValuesNodes_eq, parts]
  | union members | intersection members | tuple members => rw [nodes, typesNodes_eq, parts]
  | function args result this =>
    rw [nodes, typesNodes_eq, typeNodes?_eq, parts, List.flatMap_append, List.flatMap_append,
      List.flatMap_singleton]
  | generic base args => rw [nodes, typesNodes_eq, parts, List.flatMap_cons]
  | renamed name builtin target => rw [nodes, parts, List.flatMap_singleton]

theorem TypeExpr.self_mem_nodes (type : TypeExpr) : type ∈ type.nodes := by
  rw [nodes_eq]
  exact List.mem_cons_self

theorem TypeExpr.nodes_of_part {type part : TypeExpr} (h : part ∈ type.parts) :
    part.nodes ⊆ type.nodes := by
  intro node hnode
  rw [nodes_eq type]
  exact List.mem_cons_of_mem _ (List.mem_flatMap.mpr ⟨part, h, hnode⟩)

/-! ## Names of parts -/

section

variable (known : String → Bool)

theorem typesUnresolved_eq (types : List TypeExpr) :
    typesUnresolved known types = types.flatMap fun type => type.unresolved known := by
  induction types with
  | nil => rfl
  | cons first rest ih => rw [typesUnresolved, List.flatMap_cons, ih]

theorem keyValuesUnresolved_eq (fields : List KeyValue) :
    keyValuesUnresolved known fields =
      (fields.map KeyValue.value).flatMap fun type => type.unresolved known := by
  induction fields with
  | nil => rfl
  | cons first rest ih =>
    obtain ⟨key, value, optional⟩ := first
    rw [keyValuesUnresolved, List.map_cons, List.flatMap_cons, ih]
    rfl

theorem typeUnresolved?_eq (type : Option TypeExpr) :
    typeUnresolved? known type = type.toList.flatMap fun type => type.unresolved known := by
  cases type with
  | none => rfl
  | some type => exact (List.append_nil _).symm

/-- How often a name stands for nothing in an expression that is no name itself: as often as it does in
the parts, unless the expression binds it. -/
theorem TypeExpr.count_unresolved {type : TypeExpr} (h : type.name? = none) (name : String) :
    (type.unresolved known).count name =
      if name ∈ type.variables then 0
      else (type.parts.map fun part => (part.unresolved known).count name).sum := by
  have hparts : type.unresolved known = type.parts.flatMap (fun part => part.unresolved known) ∧
      name ∉ type.variables ∨ type.unresolved known =
      (type.parts.flatMap fun part => part.unresolved known).filter
        fun other => !type.variables.contains other := by
    cases type with
    | literal name builtin label optional => cases h
    | value | free => exact .inr rfl
    | object fields => exact .inl ⟨by rw [unresolved, keyValuesUnresolved_eq, parts], List.not_mem_nil⟩
    | union members | intersection members | tuple members =>
      exact .inl ⟨by rw [unresolved, typesUnresolved_eq, parts], List.not_mem_nil⟩
    | function args result this =>
      right
      rw [unresolved, typesUnresolved_eq, typeUnresolved?_eq, parts, List.flatMap_append,
        List.flatMap_append, List.flatMap_singleton]
      rfl
    | generic base args =>
      exact .inl ⟨by rw [unresolved, typesUnresolved_eq, parts, List.flatMap_cons], List.not_mem_nil⟩
    | renamed name builtin target =>
      exact .inl ⟨by rw [unresolved, parts, List.flatMap_singleton], List.not_mem_nil⟩
  have hsum : (type.parts.map fun part => (part.unresolved known).count name).sum =
      (type.parts.flatMap fun part => part.unresolved known).count name := by
    rw [List.count_flatMap]
    rfl
  rw [hsum]
  rcases hparts with ⟨heq, hfree⟩ | heq
  · rw [heq, if_neg hfree]
  · rw [heq]
    split
    · next hbound =>
      rw [List.count_eq_zero, List.mem_filter]
      simp [hbound]
    · next hfree => exact List.count_filter (by simpa using hfree)

end

end HeaderCheck.Signature
