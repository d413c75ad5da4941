import HeaderCheck.Proofs.Types.History
import HeaderCheck.Proofs.Types.Meet

/-!
# HeaderCheck.Proofs.Types.Combination

The algebra of unions and intersections.

* `Combination`: the two ways of putting types together, which follow the same laws.
* `parts_combine`: a type that was put together contributes the distinct parts of its members, in the
  order of their first occurrences.
* `combine_of_parts`: that determines its handle, so a member may be exchanged for the members that it
  was put together from.

`combination_laws` says so of handles that were given at any time and in any order.
-/

namespace HeaderCheck.Types

/-- The ways of putting a type together from members. -/
inductive Combination where
  | union
  | intersection

namespace Combination

def operation : Combination → List TypeId → Operation
  | union, members => .union members
  | intersection, members => .intersection members

/-- The level with the given members. -/
def data : Combination → List TypeId → TypeData
  | union, members => .union members
  | intersection, members => .intersection members

/-- What stands for no members. -/
def empty : Combination → TypeId
  | union => .void
  | intersection => .any

def members? (t : Table) : Combination → TypeId → Option (List TypeId)
  | union => t.unionMembers?
  | intersection => t.intersectionMembers?

/-- What a member contributes: its own members if it was put together in the same way. -/
def parts (t : Table) : Combination → TypeId → List TypeId
  | union => t.unionParts
  | intersection => t.intersectionParts

end Combination

namespace Table

open Combination

/-! ## Lists without repetition -/

theorem distinct_eq_eraseDups (members : List TypeId) : distinct members = members.eraseDups := by
  induction members using List.reverseRecOn with
  | nil => rfl
  | append_singleton rest m ih =>
    rw [distinct_concat, List.eraseDups_append, ← ih]
    by_cases hm : m ∈ rest
    · rw [if_pos (mem_distinct.mpr hm)]
      simp [List.removeAll, hm]
    · rw [if_neg (mt mem_distinct.mp hm)]
      simp [List.removeAll, List.eraseDups_cons, hm]

theorem distinct_append_distinct (members more : List TypeId) :
    distinct (members ++ distinct more) = distinct (members ++ more) := by
  induction more using List.reverseRecOn with
  | nil => rfl
  | append_singleton rest m ih =>
    rw [distinct_concat, ← List.append_assoc, distinct_concat, ← ih]
    split
    · next hm => rw [if_pos (mem_distinct.mpr (List.mem_append_right _ hm))]
    · rw [← List.append_assoc, distinct_concat]

theorem distinct_distinct_append (members more : List TypeId) :
    distinct (distinct members ++ more) = distinct (members ++ more) := by
  induction more using List.reverseRecOn with
  | nil => rw [List.append_nil, List.append_nil, distinct_of_nodup (nodup_distinct members)]
  | append_singleton rest m ih =>
    rw [← List.append_assoc, ← List.append_assoc, distinct_concat, distinct_concat, ih]

theorem distinct_append_self (members : List TypeId) :
    distinct (members ++ members) = distinct members := by
  suffices hall : ∀ more : List TypeId, (∀ m ∈ more, m ∈ members) →
      distinct (members ++ more) = distinct members from hall members fun _ hm => hm
  intro more
  induction more using List.reverseRecOn with
  | nil => intro _; rw [List.append_nil]
  | append_singleton rest m ih =>
    intro hmore
    have hm : m ∈ distinct members := mem_distinct.mpr (hmore m (by simp))
    rw [← List.append_assoc, distinct_concat,
      ih fun other hother => hmore other (List.mem_append_left _ hother), if_pos hm]

/-! ## Both ways at once -/

variable {t u : Table} {c : Combination} {id : TypeId} {members : List TypeId}

theorem members?_eq_some : c.members? t id = some members ↔ t.lookup id = some (c.data members) := by
  cases c with
  | union => exact unionMembers?_eq_some
  | intersection => exact intersectionMembers?_eq_some

theorem parts_eq_expand (t : Table) (c : Combination) : c.parts t = expand (c.members? t) := by
  cases c with
  | union => exact unionParts_eq t
  | intersection => exact intersectionParts_eq t

theorem run_operation (t : Table) (c : Combination) (members : List TypeId) :
    (c.operation members).run t =
      some (t.gather c.empty c.data (flatten (c.members? t) members)) := by
  cases c with
  | union => exact congrArg some (union_eq t members)
  | intersection => exact congrArg some (intersection_eq t members)

theorem WellFormed.flat_members? (h : t.WellFormed) (hd : c.members? t id = some members) :
    FlatList (c.members? t) members := by
  cases c with
  | union => exact h.flat_union (members?_eq_some.mp hd)
  | intersection => exact h.flat_intersection (members?_eq_some.mp hd)

theorem WellFormed.parts_ne_nil (h : t.WellFormed) (c : Combination) (id : TypeId) :
    c.parts t id ≠ [] := by
  cases c with
  | union => exact h.unionParts_ne_nil id
  | intersection => exact h.intersectionParts_ne_nil id

/-- A type has as parts what it is made of by itself. -/
theorem WellFormed.gather_parts (h : t.WellFormed) (c : Combination) (id : TypeId) :
    t.gather c.empty c.data (distinct (c.parts t id)) = (id, t) := by
  rw [parts_eq_expand, expand]
  cases hmembers : c.members? t id with
  | none => rfl
  | some members =>
    have hflat := h.flat_members? hmembers
    rw [Option.getD_some, distinct_of_nodup hflat.nodup]
    rw [← hflat.flatten_eq, hflat.gather_eq]
    exact h.add_of_lookup (members?_eq_some.mp hmembers)

/-- A type is stored with several members when those are its parts. -/
theorem WellFormed.lookup_eq_data_iff (h : t.WellFormed) :
    t.lookup id = some (c.data members) ↔ members = c.parts t id ∧ 2 ≤ members.length := by
  rw [← members?_eq_some, parts_eq_expand, expand]
  cases hmembers : c.members? t id with
  | none =>
    refine iff_of_false (Option.some_ne_none members).symm ?_
    rintro ⟨rfl, htwo⟩
    exact absurd htwo (by simp)
  | some found =>
    rw [Option.getD_some, Option.some.injEq, eq_comm]
    refine (and_iff_left_of_imp ?_).symm
    rintro rfl
    exact (h.flat_members? hmembers).two_le

/-! ## What was put together -/

/-- What was put together contributes the distinct parts of its members. -/
theorem parts_combine (h : u.Gave (c.operation members) id) (hne : members ≠ []) :
    c.parts u id = distinct (members.flatMap (c.parts u)) := by
  have hwf := h.wellFormed
  have hmade := Option.some.inj ((run_operation u c members).symm.trans h.again)
  have hflat : flatten (c.members? u) members ≠ [] := by
    obtain ⟨m, hm⟩ := List.exists_mem_of_ne_nil _ hne
    obtain ⟨part, hpart⟩ := List.exists_mem_of_ne_nil _ (hwf.parts_ne_nil c m)
    rw [parts_eq_expand] at hpart
    exact List.ne_nil_of_mem (mem_flatten.mpr ⟨m, hm, hpart⟩)
  rw [parts_eq_expand, ← flatten]
  rcases gather_made hflat hmade with hone | hstored
  · have hid : id ∈ flatten (c.members? u) members := by rw [hone]; exact List.mem_singleton_self id
    rw [hone, expand, nested_of_mem_flatten (fun _ _ => hwf.flat_members?) hid, Option.getD_none]
  · rw [expand, members?_eq_some.mpr hstored, Option.getD_some]

/-- The distinct parts determine what is put together. -/
theorem combine_of_parts (h : u.Gave (c.operation members) id) :
    u.gather c.empty c.data (distinct (members.flatMap (c.parts u))) = (id, u) := by
  have hmade := h.again
  rw [run_operation, flatten, ← parts_eq_expand] at hmade
  exact Option.some.inj hmade

theorem combine_congr {others : List TypeId} {other : TypeId} (h : u.Gave (c.operation members) id)
    (hother : u.Gave (c.operation others) other)
    (hparts : distinct (members.flatMap (c.parts u)) = distinct (others.flatMap (c.parts u))) :
    id = other := by
  have hmade := combine_of_parts h
  rw [hparts, combine_of_parts hother] at hmade
  exact (congrArg Prod.fst hmade).symm

/-- What has the parts of a type is that type. -/
theorem combine_self {made : TypeId} (h : u.Gave (c.operation members) made)
    (hparts : distinct (members.flatMap (c.parts u)) = distinct (c.parts u id)) : made = id := by
  have hmade := combine_of_parts h
  rw [hparts, h.wellFormed.gather_parts c id] at hmade
  exact (congrArg Prod.fst hmade).symm

end Table

open Table in
/-- What unions and intersections come to, whenever their members were put together: (a) all types in use
can be put together, (b) lists that are put together one by one, and then both results, give what all
members give at once, (c) a single type is itself, (d) several members are the first occurrences of the
members that are given, those of nested ones being put in their place, (e) grouping and (f) repetition
make no difference. -/
theorem combination_laws (c : Combination) (u : Table) :
    (∀ xs, Reachable u → (∀ x ∈ xs, u.Issued x) →
      ∃ made, ((c.operation xs).after u).Gave (c.operation xs) made) ∧
    (∀ xs ys left right joined again, xs ≠ [] → ys ≠ [] → u.Gave (c.operation xs) left →
      u.Gave (c.operation ys) right → u.Gave (c.operation (xs ++ ys)) joined →
      u.Gave (c.operation [left, right]) again → joined = again) ∧
    (∀ id made, u.Gave (c.operation [id]) made → made = id) ∧
    (∀ xs made members, xs ≠ [] → u.Gave (c.operation xs) made →
      (u.lookup made = some (c.data members) ↔
        members = (xs.flatMap (c.parts u)).eraseDups ∧ 2 ≤ members.length)) ∧
    (∀ x y z xy yz left right, u.Gave (c.operation [x, y]) xy → u.Gave (c.operation [y, z]) yz →
      u.Gave (c.operation [xy, z]) left → u.Gave (c.operation [x, yz]) right → left = right) ∧
    ∀ id made, u.Gave (c.operation [id, id]) made → made = id := by
  refine ⟨?_, ?_, ?_, ?_, ?_, ?_⟩
  · intro xs hu hxs
    refine ⟨_, gave_after hu _ ?_ (run_operation u c xs)⟩
    cases c <;> exact hxs
  · intro xs ys left right joined again hxs hys hleft hright hjoined hagain
    refine combine_congr hjoined hagain ?_
    simp only [List.flatMap_append, List.flatMap_cons, List.flatMap_nil, List.append_nil,
      parts_combine hleft hxs, parts_combine hright hys, distinct_append_distinct,
      distinct_distinct_append]
  · intro id made hmade
    refine combine_self hmade ?_
    rw [List.flatMap_singleton]
  · intro xs made members hxs hmade
    rw [← distinct_eq_eraseDups, ← parts_combine hmade hxs]
    exact hmade.wellFormed.lookup_eq_data_iff
  · intro x y z xy yz left right hxy hyz hleft hright
    refine combine_congr hleft hright ?_
    simp only [List.flatMap_cons, List.flatMap_nil, List.append_nil, parts_combine hxy (by simp),
      parts_combine hyz (by simp), distinct_append_distinct, distinct_distinct_append,
      List.append_assoc]
  · intro id made hmade
    refine combine_self hmade ?_
    rw [List.flatMap_cons, List.flatMap_singleton, distinct_append_self]

/-- The table after `String | null`, `null | Number` and the union of the four were made. -/
def nullableUnions : Table :=
  (Operation.union [.string, .null, .null, .number]).after
    ((Operation.union [.null, .number]).after ((Operation.union [.string, .null]).after .initial))

/-- The union of `String | null` and `null | Number` is that of their members. -/
theorem combination_laws_nullableUnions :
    nullableUnions.Gave (.union [.string, .null]) ⟨19⟩ ∧
      nullableUnions.Gave (.union [.null, .number]) ⟨20⟩ ∧
      nullableUnions.Gave (.union [.string, .null, .null, .number]) ⟨21⟩ ∧
      ((Operation.union [⟨19⟩, ⟨20⟩]).after nullableUnions).Gave (.union [⟨19⟩, ⟨20⟩]) ⟨21⟩ := by
  have hone : Reachable ((Operation.union [.string, .null]).after .initial) :=
    .step _ .refl (by decide)
  have htwo : Reachable ((Operation.union [.null, .number]).after
      ((Operation.union [.string, .null]).after .initial)) := .step _ hone (by decide)
  have hall : Reachable nullableUnions := .step _ htwo (by decide)
  have hleft : nullableUnions.Gave (.union [.string, .null]) ⟨19⟩ :=
    (gave_after .refl (.union [.string, .null]) (by decide) rfl).later
      (.step _ (.step _ .refl (by decide)) (by decide))
  have hright : nullableUnions.Gave (.union [.null, .number]) ⟨20⟩ :=
    (gave_after hone (.union [.null, .number]) (by decide) rfl).later (.step _ .refl (by decide))
  have hjoined : nullableUnions.Gave (.union [.string, .null, .null, .number]) ⟨21⟩ :=
    gave_after htwo (.union [.string, .null, .null, .number]) (by decide) rfl
  refine ⟨hleft, hright, hjoined, ?_⟩
  obtain ⟨again, hagain⟩ := (combination_laws .union nullableUnions).1 [⟨19⟩, ⟨20⟩] hall (by decide)
  have hlater : Reaches nullableUnions ((Operation.union [⟨19⟩, ⟨20⟩]).after nullableUnions) :=
    .step _ .refl (by decide)
  have hsame := (combination_laws .union _).2.1 [.string, .null] [.null, .number] ⟨19⟩ ⟨20⟩ ⟨21⟩ again
    (by decide) (by decide) (hleft.later hlater) (hright.later hlater) (hjoined.later hlater) hagain
  rw [hsame]
  exact hagain

end HeaderCheck.Types
