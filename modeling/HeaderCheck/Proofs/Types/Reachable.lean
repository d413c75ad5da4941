import HeaderCheck.Proofs.Types.Parts
import Mathlib.Logic.Relation

/-!
# HeaderCheck.Proofs.Types.Reachable

The tables that can be built, and what holds of all of them.

* `Operation`: the ways of making a type. `Operation.handles` are the handles it is given.
* `Reaches t u`: `u` is built from `t` by operations that are given handles in use.
* `Reachable t`: `t` is built from the table of the built-in types.

`grows_of_run` is the step lemma, by cases on the operation, and `Reaches.wellFormed_extends` the
run lemma. `reachable_laws` says what they come to for the handles of a table.
-/

namespace HeaderCheck.Types
namespace Table

/-! ## Replacing a part -/

/-- The parts of a type after one was replaced are old ones and the new one. -/
theorem grows_setPart {t : Table} (h : t.WellFormed) {data : TypeData} {step : Step}
    {child part : TypeId} (hold : ∀ p ∈ data.parts, t.Issued p)
    (hstep : partAt? data step = some child) (hpart : t.Issued part) :
    t.Grows (t.setPart data step part) := by
  rw [setPart_eq_make hstep]
  refine h.grows_make fun p hp => ?_
  rcases mem_parts_withPart hp with hp | rfl
  · exact hold p hp
  · exact hpart

theorem grows_replaceAt? {path : List Step} :
    ∀ {t : Table} {root replacement : TypeId} {made : TypeId × Table}, t.WellFormed →
      t.Issued root → t.Issued replacement →
      t.replaceAt? root path replacement = some made → t.Grows made := by
  induction path with
  | nil =>
    intro t root replacement made h _ hr hmade
    simp only [replaceAt?] at hmade
    cases hmade
    exact grows_self h hr
  | cons step path ih =>
    intro t root replacement made h hroot hr hmade
    obtain ⟨data, child, part, u, hd, hchild, hpart, rfl⟩ := replaceAt?_cons_eq_some.mp hmade
    have hissued : ∀ p ∈ data.parts, t.Issued p := fun p hp => h.issued_part hd hp
    -- the parts below the step may have been made first, in a larger table
    have hsub := ih h (hissued child (mem_parts_of_partAt? hchild)) hr hpart
    exact hsub.trans (grows_setPart hsub.wellFormed
      (fun p hp => hsub.extend.issued (hissued p hp)) hchild hsub.issued)

theorem grows_instantiate {bindings : List (List Step × TypeId)} :
    ∀ {t : Table} {root : TypeId}, t.WellFormed → t.Issued root →
      (∀ binding ∈ bindings, t.Issued binding.2) → t.Grows (t.instantiate root bindings) := by
  induction bindings with
  | nil =>
    intro t root h hroot _
    exact grows_self h hroot
  | cons binding rest ih =>
    intro t root h hroot hb
    obtain ⟨path, type⟩ := binding
    have htype : t.Issued type := hb (path, type) (List.mem_cons_self ..)
    have hrest : ∀ binding ∈ rest, t.Issued binding.2 :=
      fun b hmem => hb b (List.mem_cons_of_mem _ hmem)
    simp only [instantiate]
    split
    · next next u hmade =>
      have hstep := grows_replaceAt? h hroot htype hmade
      exact hstep.trans
        (ih hstep.wellFormed hstep.issued fun b hmem => hstep.extend.issued (hrest b hmem))
    · -- a path that leads nowhere is passed over
      exact ih h hroot hrest

theorem grows_withField {t : Table} (h : t.WellFormed) {object type : TypeId} {name : String}
    {made : TypeId × Table} (htype : t.Issued type)
    (hmade : t.withField object name type = some made) : t.Grows made := by
  simp only [withField, Option.map_eq_some_iff] at hmade
  obtain ⟨shape, hshape, rfl⟩ := hmade
  have hd := objectShape?_eq_some.mp hshape
  have hold : ∀ field ∈ shape.fields, t.Issued field.type := by
    intro field hf
    exact h.issued_part hd (List.mem_map.mpr ⟨field, hf, rfl⟩)
  refine grows_add h ?_ trivial
  intro p hp
  obtain ⟨field, hf, rfl⟩ := List.mem_map.mp hp
  simp only [ObjectShape.withField] at hf
  split at hf
  · rcases List.mem_or_eq_of_mem_set hf with hf | rfl
    · exact hold field hf
    · exact htype
  · rcases List.mem_append.mp hf with hf | hf
    · exact hold field hf
    · cases List.mem_singleton.mp hf
      exact htype

theorem grows_withBrand {t : Table} (h : t.WellFormed) {id : TypeId} (hid : t.Issued id)
    (brand : String) : t.Grows (t.withBrand id brand) := by
  unfold withBrand
  split
  · next shape hd => exact grows_add h (fun p hp => h.issued_part hd hp) trivial
  · next shape hd => exact grows_add h (fun p hp => h.issued_part hd hp) trivial
  · exact grows_self h hid

end Table

/-! ## Operations -/

/-- The ways of making a type in a table. -/
inductive Operation where
  | literal (name : String) (builtin : Bool)
  | value (text : String)
  | object (fields : List Field)
  | objectOf (shape : ObjectShape)
  | union (members : List TypeId)
  | intersection (members : List TypeId)
  | function (shape : FunctionShape)
  | generic (base : TypeId) (args : List TypeId)
  | array (element : TypeId)
  | tuple (elements : List TypeId)
  | renamed (name : String) (target : TypeId)
  | free (name : String)
  | withField (whole : TypeId) (name : String) (type : TypeId)
  | withBrand (id : TypeId) (brand : String)
  | replaceAt (root : TypeId) (path : List Step) (replacement : TypeId)
  | instantiate (root : TypeId) (bindings : List (List Step × TypeId))

namespace Operation

/-- The handles that an operation is given. -/
def handles : Operation → List TypeId
  | .literal .. | .value _ | .free _ => []
  | .object fields => fields.map Field.type
  | .objectOf shape => (TypeData.object shape).parts
  | .union members | .intersection members => members
  | .function shape => (TypeData.function shape).parts
  | .generic base args => base :: args
  | .array element => [element]
  | .tuple elements => elements
  | .renamed _ target => [target]
  | .withField whole _ type => [whole, type]
  | .withBrand id _ => [id]
  | .replaceAt root _ replacement => [root, replacement]
  | .instantiate root bindings => root :: bindings.map Prod.snd

/-- The handle of the type that is made, and the table that has it. `none` when nothing is made. -/
def run (t : Table) : Operation → Option (TypeId × Table)
  | .literal name builtin => some (t.literal name builtin)
  | .value text => some (t.value text)
  | .object fields => some (t.object fields)
  | .objectOf shape => some (t.objectOf shape)
  | .union members => some (t.union members)
  | .intersection members => some (t.intersection members)
  | .function shape => some (t.function shape)
  | .generic base args => some (t.generic base args)
  | .array element => some (t.array element)
  | .tuple elements => some (t.tuple elements)
  | .renamed name target => some (t.renamed name target)
  | .free name => some (t.free name)
  | .withField whole name type => t.withField whole name type
  | .withBrand id brand => some (t.withBrand id brand)
  | .replaceAt root path replacement => t.replaceAt? root path replacement
  | .instantiate root bindings => some (t.instantiate root bindings)

/-- The table after an operation; one that makes nothing leaves it as it is. -/
def after (op : Operation) (t : Table) : Table :=
  match op.run t with
  | some (_, u) => u
  | none => t

/-- What every operation does to a well-formed table, when its handles are in use. -/
theorem grows_of_run {t : Table} (h : t.WellFormed) {op : Operation}
    (hids : ∀ id ∈ op.handles, t.Issued id) {made : TypeId × Table}
    (hmade : op.run t = some made) : t.Grows made := by
  cases op with
  | literal | value | free =>
    cases hmade
    exact Table.grows_add h (by simp [TypeData.parts]) trivial
  | object | objectOf | function | generic | tuple | renamed =>
    -- the parts of the new type are the handles that were given
    cases hmade
    exact Table.grows_add h hids trivial
  | union =>
    cases hmade
    exact h.grows_union hids
  | intersection =>
    cases hmade
    exact h.grows_intersection hids
  | array element =>
    cases hmade
    refine Table.grows_add h ?_ trivial
    intro p hp
    rcases List.mem_cons.mp hp with rfl | hp
    · exact h.issued_of_lt (by decide)
    · exact hids p hp
  | withField whole name type =>
    exact Table.grows_withField h (hids type (by simp [handles])) hmade
  | withBrand id brand =>
    cases hmade
    exact Table.grows_withBrand h (hids id (by simp [handles])) brand
  | replaceAt root path replacement =>
    exact Table.grows_replaceAt? h (hids root (by simp [handles]))
      (hids replacement (by simp [handles])) hmade
  | instantiate root bindings =>
    cases hmade
    refine Table.grows_instantiate h (hids root (by simp [handles])) ?_
    intro binding hb
    exact hids binding.2 (List.mem_cons_of_mem _ (List.mem_map.mpr ⟨binding, hb, rfl⟩))

end Operation

/-! ## Runs -/

/-- `u` is built from `t` by operations, each of which is given handles in use. -/
inductive Reaches (t : Table) : Table → Prop where
  | refl : Reaches t t
  | step {u : Table} (op : Operation) :
      Reaches t u → (∀ id ∈ op.handles, u.Issued id) → Reaches t (op.after u)

/-- The table is built from the table of the built-in types. -/
def Reachable (t : Table) : Prop :=
  Reaches .initial t

namespace Reaches

/-- One operation keeps the invariant and everything that the table holds. -/
theorem grows_after {t : Table} (h : t.WellFormed) {op : Operation}
    (hids : ∀ id ∈ op.handles, t.Issued id) :
    (op.after t).WellFormed ∧ t.Extends (op.after t) := by
  simp only [Operation.after]
  split
  · next id u hmade =>
    have hgrows := Operation.grows_of_run h hids hmade
    exact ⟨hgrows.wellFormed, hgrows.extend⟩
  · exact ⟨h, .refl t⟩

/-- A run keeps the invariant and everything that the table holds. -/
theorem wellFormed_extends {t u : Table} (hr : Reaches t u) (h : t.WellFormed) :
    u.WellFormed ∧ t.Extends u := by
  induction hr with
  | refl => exact ⟨h, .refl t⟩
  | step op _ hids ih =>
    obtain ⟨hwf, hx⟩ := ih
    obtain ⟨hwf', hx'⟩ := grows_after hwf hids
    exact ⟨hwf', hx.trans hx'⟩

end Reaches

theorem Reachable.wellFormed {t : Table} (h : Reachable t) : t.WellFormed :=
  (h.wellFormed_extends Table.wellFormed_initial).1

namespace Table

/-! ## The laws of handles -/

/-- `part` occurs in the type that `whole` stands for. -/
def PartOf (t : Table) (part whole : TypeId) : Prop :=
  ∃ data, t.lookup whole = some data ∧ part ∈ data.parts

theorem WellFormed.index_lt {t : Table} (h : t.WellFormed) {part whole : TypeId}
    (hp : t.PartOf part whole) : part.index < whole.index := by
  obtain ⟨data, hd, hmem⟩ := hp
  exact h.descends hd part hmem

/-- No type is a part of itself, however deep. -/
theorem WellFormed.acyclic {t : Table} (h : t.WellFormed) (id : TypeId) :
    ¬ Relation.TransGen t.PartOf id id := by
  intro hcycle
  have hlt : ∀ {part whole}, Relation.TransGen t.PartOf part whole →
      part.index < whole.index := by
    intro part whole htrans
    induction htrans with
    | single hp => exact h.index_lt hp
    | tail _ hp ih => exact Nat.lt_trans ih (h.index_lt hp)
  exact Nat.lt_irrefl _ (hlt hcycle)

/-- The built-in types under their fixed handles. -/
def fixedTypes : List (TypeId × TypeData) :=
  [(.any, .literal "Any" true), (.mixed, .literal "Mixed" true),
    (.string, .literal "String" true), (.number, .literal "Number" true),
    (.boolean, .literal "Boolean" true), (.void, .literal "void" true),
    (.regExp, .literal "RegExp" true), (.object, .literal "Object" true),
    (.array, .literal "Array" true), (.function, .literal "Function" true),
    (.null, .value "null" "null"), (.undefined, .value "undefined" "undefined"),
    (.uninitialized, .literal "%Void%%Uninitialized" true),
    (.unknownReturn, .literal "%Void%%UnknownReturn" true),
    (.nullDefault, .literal "%Null%%Default" true),
    (.openField, .literal "%Mixed%%OpenField" true),
    (.moduleExports, .literal "%Any%%ModuleExports" true),
    (.emptyObject, .object ⟨[], false, "Object"⟩), (.openObject, .object ⟨[], true, "Object"⟩)]

theorem WellFormed.lookup_fixed {t : Table} (h : t.WellFormed) {id : TypeId} {data : TypeData}
    (hm : (id, data) ∈ fixedTypes) : t.lookup id = some data := by
  have hall : ∀ entry ∈ fixedTypes, builtins[entry.1.index]? = some entry.2 := by
    decide +kernel
  exact h.builtin (hall (id, data) hm)

end Table

/-- What holds of the handles of every table that can be built: (a) a handle and its type determine
each other, (b) parts have smaller handles than the whole, so no type contains itself, (c) what a
handle stands for never changes, and handles that are given are in use, (d) unions and intersections
are flat, (e) the built-in types have the first nineteen handles. -/
theorem reachable_laws {t : Table} (h : Reachable t) :
    (∀ i j, t.Issued i → t.Issued j → (i = j ↔ t.lookup i = t.lookup j)) ∧
    (∀ i data, t.lookup i = some data → ∀ part ∈ data.parts, part.index < i.index) ∧
    (∀ i, ¬ Relation.TransGen t.PartOf i i) ∧
    (∀ u, Reaches t u → ∀ i, t.Issued i → u.lookup i = t.lookup i) ∧
    (∀ op id u, (∀ given ∈ Operation.handles op, t.Issued given) → op.run t = some (id, u) →
      u.Issued id) ∧
    (∀ i members, t.lookup i = some (.union members) →
      2 ≤ members.length ∧ members.Nodup ∧
        ∀ m ∈ members, ∀ inner, t.lookup m ≠ some (.union inner)) ∧
    (∀ i members, t.lookup i = some (.intersection members) →
      2 ≤ members.length ∧ members.Nodup ∧
        ∀ m ∈ members, ∀ inner, t.lookup m ≠ some (.intersection inner)) ∧
    (∀ id data, (id, data) ∈ Table.fixedTypes → t.lookup id = some data) ∧
    Table.fixedTypes.map (fun entry => entry.1.index) = List.range 19 := by
  have hwf := h.wellFormed
  refine ⟨?_, fun i data => hwf.descends, hwf.acyclic, ?_, ?_, ?_, ?_, ?_, rfl⟩
  · intro i j hi hj
    obtain ⟨data, hd⟩ := Table.issued_iff.mp hi
    constructor
    · rintro rfl
      rfl
    · intro he
      exact hwf.injective hd (he ▸ hd)
  · intro u hu i hi
    exact (hu.wellFormed_extends hwf).2.lookup_eq hi
  · intro op id u hids hrun
    exact (Operation.grows_of_run hwf hids hrun).issued
  · intro i members hd
    have hflat := hwf.flat_union hd
    refine ⟨hflat.two_le, hflat.nodup, fun m hm inner hinner => ?_⟩
    have hnone := hflat.single m hm
    rw [Table.unionMembers?_eq_some.mpr hinner] at hnone
    cases hnone
  · intro i members hd
    have hflat := hwf.flat_intersection hd
    refine ⟨hflat.two_le, hflat.nodup, fun m hm inner hinner => ?_⟩
    have hnone := hflat.single m hm
    rw [Table.intersectionMembers?_eq_some.mpr hinner] at hnone
    cases hnone
  · intro id data hm
    exact hwf.lookup_fixed hm

/-- The table after `String | null` and an array of it were made. -/
def nullableStrings : Table :=
  (Operation.array ⟨19⟩).after ((Operation.union [.string, .null]).after .initial)

theorem reachable_nullableStrings : Reachable nullableStrings :=
  .step _ (.step _ .refl (by decide)) (by decide)

theorem reachable_laws_nullableStrings :
    Reachable nullableStrings ∧ nullableStrings.size = 21 ∧
      (∀ i j, nullableStrings.Issued i → nullableStrings.Issued j →
        (i = j ↔ nullableStrings.lookup i = nullableStrings.lookup j)) ∧
      ∀ u, Reaches nullableStrings u →
        u.lookup ⟨20⟩ = some (.generic .array [⟨19⟩]) ∧
          u.lookup ⟨19⟩ = some (.union [.string, .null]) := by
  have hr := reachable_nullableStrings
  have hlaws := reachable_laws hr
  refine ⟨hr, by decide, hlaws.1, fun u hu => ⟨?_, ?_⟩⟩
  · exact (hlaws.2.2.2.1 u hu ⟨20⟩ (by decide)).trans (by decide)
  · exact (hlaws.2.2.2.1 u hu ⟨19⟩ (by decide)).trans (by decide)

end HeaderCheck.Types
