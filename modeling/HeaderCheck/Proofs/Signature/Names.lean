import HeaderCheck.Signature.Tree

/-!
# HeaderCheck.Proofs.Signature.Names

Names in type expressions.

* `TypeExpr.names`: the names that an expression leaves to its surroundings.
* `TypeExpr.parts`, `TypeExpr.variables`: the expressions one level down, and the names that are bound
  in them. `TypeExpr.names_of_part` is how their names relate.
-/

namespace HeaderCheck.Signature

mutual

/-- The names that an expression leaves to its surroundings: all but the variables of functions. -/
def TypeExpr.names : TypeExpr → List String
  | .literal name _ _ _ => [name]
  | .value .. | .free _ => []
  | .object fields _ _ _ _ => keyValuesNames fields
  | .union members _ _ | .intersection members _ _ => typesNames members
  | .function args result this _ _ generics _ =>
    (typesNames args ++ typeNames? this ++ result.names).filter fun name =>
      !(generics.map Descriptor.name).contains name
  | .generic base args _ => base.names ++ typesNames args
  | .tuple elements _ _ => typesNames elements
  | .renamed _ _ target _ _ => target.names

def typesNames : List TypeExpr → List String
  | [] => []
  | t :: rest => t.names ++ typesNames rest

def typeNames? : Option TypeExpr → List String
  | none => []
  | some t => t.names

def KeyValue.names : KeyValue → List String
  | ⟨_, value, _⟩ => value.names

def keyValuesNames : List KeyValue → List String
  | [] => []
  | field :: rest => field.names ++ keyValuesNames rest

end

/-- The expressions one level down. -/
def TypeExpr.parts : TypeExpr → List TypeExpr
  | .literal .. | .value .. | .free _ => []
  | .object fields _ _ _ _ => fields.map KeyValue.value
  | .union members _ _ | .intersection members _ _ => members
  | .function args result this _ _ _ _ => args ++ this.toList ++ [result]
  | .generic base args _ => base :: args
  | .tuple elements _ _ => elements
  | .renamed _ _ target _ _ => [target]

/-- The type variables of a function. -/
def TypeExpr.variables : TypeExpr → List String
  | .function _ _ _ _ _ generics _ => generics.map Descriptor.name
  | _ => []

theorem mem_typesNames {types : List TypeExpr} {type : TypeExpr} {name : String} (h : type ∈ types)
    (hname : name ∈ type.names) : name ∈ typesNames types := by
  induction types with
  | nil => cases h
  | cons first rest ih =>
    rw [typesNames, List.mem_append]
    rcases List.mem_cons.mp h with rfl | h
    · exact .inl hname
    · exact .inr (ih h)

theorem mem_keyValuesNames {fields : List KeyValue} {field : KeyValue} {name : String}
    (h : field ∈ fields) (hname : name ∈ field.value.names) : name ∈ keyValuesNames fields := by
  induction fields with
  | nil => cases h
  | cons first rest ih =>
    rw [keyValuesNames, List.mem_append]
    rcases List.mem_cons.mp h with rfl | h
    · obtain ⟨key, value, optional⟩ := field
      exact .inl hname
    · exact .inr (ih h)

/-- A name of a part is one of the whole unless it is bound there. -/
theorem TypeExpr.names_of_part {type part : TypeExpr} {name : String} (h : part ∈ type.parts)
    (hname : name ∈ part.names) : name ∈ type.variables ∨ name ∈ type.names := by
  cases type with
  | literal | value | free => cases h
  | object fields label optional isOpen brand =>
    obtain ⟨field, hfield, rfl⟩ := List.mem_map.mp h
    exact .inr (mem_keyValuesNames hfield hname)
  | union members | intersection members | tuple members => exact .inr (mem_typesNames h hname)
  | function args result this label optional generics brand =>
    by_cases hvariable : name ∈ generics.map Descriptor.name
    · exact .inl hvariable
    · refine .inr ?_
      have hinside : name ∈ typesNames args ++ typeNames? this ++ result.names := by
        simp only [parts, List.mem_append, List.mem_singleton, Option.mem_toList] at h ⊢
        rcases h with (h | rfl) | rfl
        · exact .inl (.inl (mem_typesNames h hname))
        · exact .inl (.inr hname)
        · exact .inr hname
      rw [names, List.mem_filter]
      exact ⟨hinside, by simpa using hvariable⟩
  | generic base args =>
    rw [names, List.mem_append]
    rcases List.mem_cons.mp h with rfl | h
    · exact .inr (.inl hname)
    · exact .inr (.inr (mem_typesNames h hname))
  | renamed name builtin target =>
    cases List.mem_singleton.mp h
    exact .inr hname

end HeaderCheck.Signature
