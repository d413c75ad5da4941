import HeaderCheck.Proofs.Types.Join

/-!
# HeaderCheck.Proofs.Types.Required

What must be supplied, and subtyping: the fields of objects and the parameters of functions.

* `checkLevels_structure`: types that are neither names nor type variables are compared by their
  structure.
* `required_field_found`: a required field is there, with a type that fits, in every object that is
  taken where it is expected. The object itself may have the field as an optional one: `checkObject`
  looks at the marks of the fields that are expected only.
* `required_params_supplied`: a call that leaves out no parameter of the function that is expected
  supplies what the function that is given requires. A call that leaves out optional ones may not:
  `checkFunction` counts all parameters of the function that is expected.
-/

namespace HeaderCheck.Types
namespace Table

variable {t : Table} {e a : TypeId}

/-! ## Types compared by their structure -/

theorem check_self (t : Table) (e : TypeId) : t.check e e = .ok () := by
  rw [check_eq_checkLevels, maxLevels, checkLevels, checkPair, if_pos rfl]
  rfl

/-- One more level accepts no less. -/
theorem checkLevels_succ {levels : Nat} (h : t.checkLevels levels e a = .ok ()) :
    t.checkLevels (levels + 1) e a = .ok () := by
  induction levels generalizing e a with
  | zero => exact absurd h throw_ne_ok
  | succ levels ih => exact checkPair_mono (.refl t) (fun _ _ => ih) h

/-- Two types that no rule of their own concerns are compared by their structure. -/
theorem checkLevels_eq_structure {parent child : TypeData} (he : t.lookup e = some parent)
    (ha : t.lookup a = some child) (hne : e ≠ a)
    (hfree : parent.isFree = false ∧ child.isFree = false)
    (hall : e.acceptsAll = false ∧ a.acceptsAll = false) (levels : Nat) :
    t.checkLevels (levels + 1) e a = t.checkStructure (t.checkLevels levels) e a parent child := by
  obtain ⟨hnull, hnone⟩ := not_sentinel hall.2
  rw [checkLevels, checkPair, if_neg hne, he, ha]
  simp only [checkData, hfree.1, hfree.2, hall.1, fitsAll_eq_false hall.2, hnull, hnone, Bool.or_self,
    Bool.false_eq_true, if_false]

/-- The handles with rules of their own stand for built-in names, so other types that differ are
compared by their structure. -/
theorem WellFormed.checkLevels_structure (h : t.WellFormed) {parent child : TypeData}
    (he : t.lookup e = some parent) (ha : t.lookup a = some child) (hne : e ≠ a)
    (hparent : ∀ name, parent ≠ .literal name true) (hchild : ∀ name, child ≠ .literal name true)
    (hfree : parent.isFree = false ∧ child.isFree = false) (levels : Nat) :
    t.checkLevels (levels + 1) e a = t.checkStructure (t.checkLevels levels) e a parent child :=
  checkLevels_eq_structure he ha hne hfree
    ⟨h.acceptsAll_eq_false he hparent, h.acceptsAll_eq_false ha hchild⟩ levels

theorem WellFormed.check_objects (h : t.WellFormed) {parent child : ObjectShape}
    (he : t.lookup e = some (.object parent)) (ha : t.lookup a = some (.object child)) (hne : e ≠ a) :
    t.check e a = checkObject (t.checkLevels 255) e a parent child := by
  rw [check_eq_checkLevels]
  exact h.checkLevels_structure he ha hne nofun nofun ⟨rfl, rfl⟩ 255

theorem WellFormed.check_functions (h : t.WellFormed) {parent child : FunctionShape}
    (he : t.lookup e = some (.function parent)) (ha : t.lookup a = some (.function child))
    (hne : e ≠ a) : t.check e a = checkFunction (t.checkLevels 255) e a parent child := by
  rw [check_eq_checkLevels]
  exact h.checkLevels_structure he ha hne nofun nofun ⟨rfl, rfl⟩ 255

end Table

/-! ## Fields -/

/-- A field that is required is found in every object that fits, and the types of the two fit. Only a
different object may have it as an optional field. -/
theorem required_field_found {t : Table} (h : Reachable t) {e a : TypeId} {parent child : ObjectShape}
    (he : t.lookup e = some (.object parent)) (ha : t.lookup a = some (.object child))
    (hok : t.check e a = .ok ()) {field : Field} (hfield : field ∈ parent.fields)
    (hrequired : field.optional = false) :
    ∃ found ∈ child.fields, found.name = field.name ∧ t.check field.type found.type = .ok () ∧
      (e ≠ a → child.find? field.name = some found) ∧ (found.optional = true → e ≠ a) := by
  by_cases hne : e = a
  · subst hne
    rw [he] at ha
    cases ha
    refine ⟨field, hfield, rfl, t.check_self field.type, fun hne => absurd rfl hne, ?_⟩
    rw [hrequired]
    exact nofun
  · rw [h.wellFormed.check_objects he ha hne, Table.checkObject_eq_ok] at hok
    obtain ⟨hsome, hnone⟩ := hok.2 field hfield
    cases hfound : child.find? field.name with
    | none =>
      rw [hnone hfound] at hrequired
      cases hrequired
    | some found =>
      have hname : found.name = field.name := by simpa using List.find?_some hfound
      refine ⟨found, List.mem_of_find?_eq_some hfound, hname, ?_, fun _ => rfl, fun _ => hne⟩
      rw [Table.check_eq_checkLevels]
      exact Table.checkLevels_succ (hsome found hfound)

/-- The table after three objects were made: one with a number `a`, one with a number `a` and a string
`b`, and one with a number `a` that may be missing. -/
def numberFields : Table :=
  (Operation.object [⟨"a", .number, true⟩]).after
    ((Operation.object [⟨"a", .number, false⟩, ⟨"b", .string, false⟩]).after
      ((Operation.object [⟨"a", .number, false⟩]).after .initial))

theorem reachable_numberFields : Reachable numberFields :=
  .step _ (.step _ (.step _ .refl (by decide)) (by decide)) (by decide)

/-- `{ a: Number, b: String }` has the field that `{ a: Number }` requires. -/
theorem required_field_found_numberFields :
    ∃ found ∈ [(⟨"a", .number, false⟩ : Field), ⟨"b", .string, false⟩], found.name = "a" ∧
      numberFields.check .number found.type = .ok () := by
  have hparent : numberFields.lookup ⟨19⟩ =
      some (.object ⟨[⟨"a", .number, false⟩], false, plainBrand⟩) := by decide
  have hchild : numberFields.lookup ⟨20⟩ =
      some (.object ⟨[⟨"a", .number, false⟩, ⟨"b", .string, false⟩], false, plainBrand⟩) := by decide
  obtain ⟨found, hmem, hname, hfits, -⟩ := required_field_found reachable_numberFields hparent hchild
    (by decide +kernel) List.mem_cons_self rfl
  exact ⟨found, hmem, hname, hfits⟩

/-- `{ a?: Number }` fits where `{ a: Number }` is expected, and `{}` fits where `{ a?: Number }` is. But
`{}` does not fit where `{ a: Number }` is expected. -/
theorem required_field_optional :
    Reachable numberFields ∧
      numberFields.lookup ⟨19⟩ = some (.object ⟨[⟨"a", .number, false⟩], false, plainBrand⟩) ∧
      numberFields.lookup ⟨21⟩ = some (.object ⟨[⟨"a", .number, true⟩], false, plainBrand⟩) ∧
      numberFields.check ⟨19⟩ ⟨21⟩ = .ok () ∧
      numberFields.check ⟨21⟩ .emptyObject = .ok () ∧
      numberFields.check ⟨19⟩ .emptyObject =
        .error (.missingObjectField "a" ⟨19⟩ .emptyObject) := by
  refine ⟨reachable_numberFields, by decide, by decide, ?_, ?_, ?_⟩ <;> decide +kernel

/-! ## Parameters -/

/-- A function that requires fewer parameters than it has may do without some of them. -/
theorem FunctionShape.exists_optional {shape : FunctionShape}
    (h : shape.requiredParams < shape.params.length) :
    ∃ param ∈ shape.params, param.optional = true := by
  by_contra hno
  refine Nat.ne_of_lt h (List.countP_eq_length.mpr fun param hparam => ?_)
  rw [Bool.not_eq_true', ← Bool.not_eq_true]
  exact fun hoptional => hno ⟨param, hparam, hoptional⟩

/-- A function that requires more parameters than are expected is refused for it. One that is accepted
gets what it requires from every call that supplies all parameters; a call that supplies too little
leaves out optional parameters of a different function. -/
theorem required_params_supplied {t : Table} (h : Reachable t) {e a : TypeId}
    {parent child : FunctionShape} (he : t.lookup e = some (.function parent))
    (ha : t.lookup a = some (.function child)) :
    (e ≠ a → parent.params.length < child.requiredParams →
      t.check e a = .error (.functionArgCountMismatch e a)) ∧
    (t.check e a = .ok () → child.requiredParams ≤ parent.params.length ∧
      ∀ n, parent.requiredParams ≤ n → n ≤ parent.params.length →
        child.requiredParams ≤ n ∨
          e ≠ a ∧ n < parent.params.length ∧ ∃ param ∈ parent.params, param.optional = true) := by
  refine ⟨fun hne hcount => ?_, fun hok => ?_⟩
  · rw [h.wellFormed.check_functions he ha hne, Table.checkFunction, if_pos hcount]
    rfl
  by_cases hne : e = a
  · -- a function has at least the parameters that it requires
    subst hne
    rw [he] at ha
    cases ha
    exact ⟨List.countP_le_length, fun n hn _ => .inl hn⟩
  · rw [h.wellFormed.check_functions he ha hne, Table.checkFunction_eq_ok] at hok
    refine ⟨hok.1, fun n hn _ => ?_⟩
    rcases Nat.lt_or_ge n parent.params.length with hlt | hge
    · exact .inr ⟨hne, hlt, parent.exists_optional (Nat.lt_of_le_of_lt hn hlt)⟩
    · exact .inl (Nat.le_trans hok.1 hge)

/-- A function that takes a number, which may be left out if it is optional. -/
def takesNumber (optional : Bool) : FunctionShape :=
  ⟨[⟨none, .number, optional⟩], .void, none, [], plainBrand⟩

/-- The table after `(Number?) => void` and `(Number) => void` were made. -/
def numberFunctions : Table :=
  (Operation.function (takesNumber false)).after
    ((Operation.function (takesNumber true)).after .initial)

theorem reachable_numberFunctions : Reachable numberFunctions :=
  .step _ (.step _ .refl (by decide)) (by decide)

/-- A call of `(Number) => void` with one argument supplies what `(Number?) => void` requires. -/
theorem required_params_supplied_numberFunctions :
    numberFunctions.check ⟨20⟩ ⟨19⟩ = .ok () ∧
      ((takesNumber true).requiredParams ≤ 1 ∨ (⟨20⟩ : TypeId) ≠ ⟨19⟩ ∧ 1 < 1 ∧
        ∃ param ∈ (takesNumber false).params, param.optional = true) := by
  have hparent : numberFunctions.lookup ⟨20⟩ = some (.function (takesNumber false)) := by decide
  have hchild : numberFunctions.lookup ⟨19⟩ = some (.function (takesNumber true)) := by decide
  have hok : numberFunctions.check ⟨20⟩ ⟨19⟩ = .ok () := by decide +kernel
  exact ⟨hok, ((required_params_supplied reachable_numberFunctions hparent hchild).2 hok).2 1
    (by decide) (by decide)⟩

/-- `(Number) => void` fits where `(Number?) => void` is expected, which may be called without an
argument. -/
theorem required_params_left_out :
    Reachable numberFunctions ∧
      numberFunctions.lookup ⟨19⟩ = some (.function (takesNumber true)) ∧
      numberFunctions.lookup ⟨20⟩ = some (.function (takesNumber false)) ∧
      numberFunctions.check ⟨19⟩ ⟨20⟩ = .ok () ∧
      (takesNumber true).requiredParams ≤ 0 ∧ 0 ≤ (takesNumber true).params.length ∧
      ¬ (takesNumber false).requiredParams ≤ 0 := by
  refine ⟨reachable_numberFunctions, by decide, by decide, ?_, by decide, by decide, by decide⟩
  decide +kernel

end HeaderCheck.Types
