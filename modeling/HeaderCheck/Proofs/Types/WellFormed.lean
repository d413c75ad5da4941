import HeaderCheck.Types.Place
import Mathlib.Data.List.Induction
import Mathlib.Data.List.Nodup

/-!
# HeaderCheck.Proofs.Types.WellFormed

The invariant of tables of types, and what making a type does to it.

* `Table.WellFormed`: equal types have one handle, parts come before the whole, unions and
  intersections are flat, and the built-in types keep their handles.
* `Table.Grows t made`: the result of making a type in `t`. The table is still well formed, all
  that it held is still there, and the handle that was given stands for a type.

`grows_add` is the one place where the invariant is checked against a new type. Everything else
that makes types goes through it, so it only has to say which parts the new type has.
-/

namespace HeaderCheck.Types
namespace Table

/-! ## Handles in use -/

/-- The handle stands for a type of the table. -/
def Issued (t : Table) (id : TypeId) : Prop :=
  id.index < t.size

instance (t : Table) (id : TypeId) : Decidable (t.Issued id) :=
  inferInstanceAs (Decidable (_ < _))

theorem issued_iff {t : Table} {id : TypeId} :
    t.Issued id ↔ ∃ data, t.lookup id = some data := by
  constructor
  · intro h
    exact ⟨t.types[id.index], Array.getElem?_eq_getElem h⟩
  · rintro ⟨data, h⟩
    exact (Array.getElem?_eq_some_iff.mp h).choose

theorem issued_of_lookup {t : Table} {id : TypeId} {data : TypeData}
    (h : t.lookup id = some data) : t.Issued id :=
  issued_iff.mpr ⟨data, h⟩

/-- All types of `t` are in `u`, under the same handles. -/
def Extends (t u : Table) : Prop :=
  ∀ id data, t.lookup id = some data → u.lookup id = some data

namespace Extends

theorem refl (t : Table) : t.Extends t :=
  fun _ _ h => h

theorem trans {t u v : Table} (h₁ : t.Extends u) (h₂ : u.Extends v) : t.Extends v :=
  fun id data h => h₂ id data (h₁ id data h)

theorem issued {t u : Table} (h : t.Extends u) {id : TypeId} (hi : t.Issued id) :
    u.Issued id := by
  obtain ⟨data, hd⟩ := issued_iff.mp hi
  exact issued_of_lookup (h id data hd)

/-- What a handle in use stands for stays the same. -/
theorem lookup_eq {t u : Table} (h : t.Extends u) {id : TypeId} (hi : t.Issued id) :
    u.lookup id = t.lookup id := by
  obtain ⟨data, hd⟩ := issued_iff.mp hi
  rw [hd, h id data hd]

theorem unionMembers?_eq {t u : Table} (h : t.Extends u) {id : TypeId} (hi : t.Issued id) :
    u.unionMembers? id = t.unionMembers? id := by
  simp only [unionMembers?, h.lookup_eq hi]

theorem intersectionMembers?_eq {t u : Table} (h : t.Extends u) {id : TypeId}
    (hi : t.Issued id) : u.intersectionMembers? id = t.intersectionMembers? id := by
  simp only [intersectionMembers?, h.lookup_eq hi]

end Extends

theorem extends_add (t : Table) (data : TypeData) : t.Extends (t.add data).2 :=
  fun id old h => lookup_add_of_some t data old id h

/-! ## Flat unions and intersections -/

/-- At least two members, all different, none of which has members of its own. -/
structure FlatList (nested : TypeId → Option (List TypeId)) (members : List TypeId) : Prop where
  two_le : 2 ≤ members.length
  nodup : members.Nodup
  single : ∀ member ∈ members, nested member = none

/-- What is asked of a union or an intersection in the table. -/
def FlatData (t : Table) : TypeData → Prop
  | .union members => FlatList t.unionMembers? members
  | .intersection members => FlatList t.intersectionMembers? members
  | _ => True

theorem FlatList.congr {nested nested' : TypeId → Option (List TypeId)} {members : List TypeId}
    (h : FlatList nested members) (he : ∀ m ∈ members, nested' m = nested m) :
    FlatList nested' members where
  two_le := h.two_le
  nodup := h.nodup
  single := by
    intro m hm
    rw [he m hm]
    exact h.single m hm

theorem FlatData.extend {t u : Table} {data : TypeData} (h : t.FlatData data)
    (hx : t.Extends u) (hp : ∀ part ∈ data.parts, t.Issued part) : u.FlatData data := by
  cases data with
  | union members => exact FlatList.congr h fun m hm => hx.unionMembers?_eq (hp m hm)
  | intersection members =>
    exact FlatList.congr h fun m hm => hx.intersectionMembers?_eq (hp m hm)
  | _ => trivial

/-! ## The invariant -/

/-- What holds of every table that is built from the initial one. -/
structure WellFormed (t : Table) : Prop where
  /-- Equal types have one handle. -/
  injective : ∀ {i j data}, t.lookup i = some data → t.lookup j = some data → i = j
  /-- Parts come before the whole. -/
  descends : ∀ {i data}, t.lookup i = some data → ∀ part ∈ data.parts, part.index < i.index
  /-- Unions and intersections are flat. -/
  flat : ∀ {i data}, t.lookup i = some data → t.FlatData data
  /-- The built-in types come first. -/
  builtin : ∀ {i data}, builtins[i]? = some data → t.lookup ⟨i⟩ = some data

namespace WellFormed

variable {t : Table}

theorem issued_part (h : t.WellFormed) {id : TypeId} {data : TypeData}
    (hd : t.lookup id = some data) {part : TypeId} (hp : part ∈ data.parts) :
    t.Issued part := by
  have hlt := h.descends hd part hp
  have hi : id.index < t.size := issued_of_lookup hd
  exact Nat.lt_trans hlt hi

theorem flat_union (h : t.WellFormed) {id : TypeId} {members : List TypeId}
    (hd : t.lookup id = some (.union members)) : FlatList t.unionMembers? members :=
  h.flat hd

theorem flat_intersection (h : t.WellFormed) {id : TypeId} {members : List TypeId}
    (hd : t.lookup id = some (.intersection members)) :
    FlatList t.intersectionMembers? members :=
  h.flat hd

theorem issued_of_lt (h : t.WellFormed) {id : TypeId} (hi : id.index < builtins.length) :
    t.Issued id :=
  issued_of_lookup (h.builtin (List.getElem?_eq_getElem hi))

end WellFormed

theorem lookup_initial (i : Nat) : initial.lookup ⟨i⟩ = builtins[i]? := by
  simp [initial, lookup]

theorem wellFormed_initial : initial.WellFormed where
  injective := by
    intro i j data hi hj
    rw [show i = ⟨i.index⟩ from rfl, lookup_initial] at hi
    rw [show j = ⟨j.index⟩ from rfl, lookup_initial] at hj
    have hnd : builtins.Nodup := by decide +kernel
    obtain ⟨hilt, hi⟩ := List.getElem?_eq_some_iff.mp hi
    obtain ⟨hjlt, hj⟩ := List.getElem?_eq_some_iff.mp hj
    have hidx : i.index = j.index := hnd.getElem_inj_iff.mp (hi.trans hj.symm)
    cases i
    cases j
    exact congrArg TypeId.mk hidx
  descends := by
    intro i data hi part hp
    rw [show i = ⟨i.index⟩ from rfl, lookup_initial] at hi
    have hnone : ∀ data ∈ builtins, data.parts = [] := by decide
    rw [hnone data (List.mem_of_getElem? hi)] at hp
    cases hp
  flat := by
    intro i data hi
    rw [show i = ⟨i.index⟩ from rfl, lookup_initial] at hi
    have hm := List.mem_of_getElem? hi
    -- names, values and objects without fields: no union and no intersection is built in
    simp only [builtins, List.mem_append, List.mem_map, List.mem_cons, List.not_mem_nil,
      or_false] at hm
    rcases hm with ((⟨_, _, rfl⟩ | rfl | rfl) | ⟨_, _, rfl⟩) | rfl | rfl <;> trivial
  builtin := by
    intro i data hi
    rw [lookup_initial, hi]

/-! ## Adding one type -/

/-- What making a type gives: a handle in use, in a well-formed table that has only grown. -/
structure Grows (t : Table) (made : TypeId × Table) : Prop where
  wellFormed : made.2.WellFormed
  extend : t.Extends made.2
  issued : made.2.Issued made.1

theorem grows_self {t : Table} (h : t.WellFormed) {id : TypeId} (hi : t.Issued id) :
    t.Grows (id, t) :=
  ⟨h, .refl t, hi⟩

theorem Grows.trans {t : Table} {first second : TypeId × Table} (h₁ : t.Grows first)
    (h₂ : first.2.Grows second) : t.Grows second :=
  ⟨h₂.wellFormed, h₁.extend.trans h₂.extend, h₂.issued⟩

theorem add_of_find?_eq_none {t : Table} {data : TypeData} (h : t.find? data = none) :
    t.add data = (⟨t.size⟩, t.push data) := by
  simp only [add, h, size]

/-- A handle of the table with one more type is an old one or the new one. -/
theorem lookup_push {t : Table} {data found : TypeData} {id : TypeId}
    (h : (t.push data).lookup id = some found) :
    t.lookup id = some found ∨ id = ⟨t.size⟩ ∧ found = data := by
  simp only [lookup, push, Array.getElem?_push] at h
  split at h
  · next he =>
    cases h
    exact .inr ⟨congrArg TypeId.mk he, rfl⟩
  · exact .inl h

theorem grows_add {t : Table} (h : t.WellFormed) {data : TypeData}
    (hp : ∀ part ∈ data.parts, t.Issued part) (hf : t.FlatData data) :
    t.Grows (t.add data) := by
  have hself := lookup_add_self t data
  have hx := extends_add t data
  refine ⟨?_, hx, issued_of_lookup hself⟩
  cases hfind : t.find? data with
  | some id =>
    have hsame : (t.add data).2 = t := by simp only [add, hfind]
    rw [hsame]
    exact h
  | none =>
    have hadd := add_of_find?_eq_none hfind
    -- a type that is not found has no handle yet, so the new one is its only handle
    have hnew : ∀ {i}, t.lookup i ≠ some data := by
      intro i hi
      have := find?_isSome_of_lookup hi
      rw [hfind] at this
      cases this
    rw [hadd] at hx ⊢
    constructor
    · intro i j found hi hj
      rcases lookup_push hi with hi' | ⟨rfl, rfl⟩
      · rcases lookup_push hj with hj' | ⟨rfl, rfl⟩
        · exact h.injective hi' hj'
        · exact absurd hi' hnew
      · rcases lookup_push hj with hj' | ⟨rfl, _⟩
        · exact absurd hj' hnew
        · rfl
    · intro i found hi
      rcases lookup_push hi with hi | ⟨rfl, rfl⟩
      · exact h.descends hi
      · exact hp
    · intro i found hi
      rcases lookup_push hi with hi | ⟨rfl, rfl⟩
      · exact (h.flat hi).extend hx fun part hpart => h.issued_part hi hpart
      · exact hf.extend hx hp
    · intro i found hi
      exact hx _ _ (h.builtin hi)

/-! ## Unions and intersections -/

theorem distinct_concat (members : List TypeId) (m : TypeId) :
    distinct (members ++ [m]) =
      if m ∈ distinct members then distinct members else distinct members ++ [m] := by
  rw [distinct, List.foldl_concat]
  rfl

theorem mem_distinct {members : List TypeId} {id : TypeId} :
    id ∈ distinct members ↔ id ∈ members := by
  induction members using List.reverseRecOn with
  | nil => rfl
  | append_singleton rest m ih =>
    rw [distinct_concat, List.mem_append, List.mem_singleton, ← ih]
    split
    · next hm => exact ⟨.inl, fun h => h.elim (fun hid => hid) fun hid => hid ▸ hm⟩
    · rw [List.mem_append, List.mem_singleton]

theorem nodup_distinct (members : List TypeId) : (distinct members).Nodup := by
  induction members using List.reverseRecOn with
  | nil => exact List.nodup_nil
  | append_singleton rest m ih =>
    rw [distinct_concat]
    split
    · exact ih
    · next hm => exact List.Nodup.append ih (List.nodup_singleton m) (by simpa using hm)

/-- Members that are all different stay as they are. -/
theorem distinct_of_nodup {members : List TypeId} (h : members.Nodup) :
    distinct members = members := by
  induction members using List.reverseRecOn with
  | nil => rfl
  | append_singleton rest m ih =>
    obtain ⟨hrest, -, hnew⟩ := List.nodup_append.mp h
    rw [distinct_concat, ih hrest, if_neg fun hm => hnew m hm m (by simp) rfl]

/-- The members that a member contributes, `nested` giving those of a union (an intersection). -/
def expand (nested : TypeId → Option (List TypeId)) (member : TypeId) : List TypeId :=
  (nested member).getD [member]

/-- The members that `members` contribute together. -/
def flatten (nested : TypeId → Option (List TypeId)) (members : List TypeId) : List TypeId :=
  distinct (members.flatMap (expand nested))

/-- The type with the members `flat`: the only one of them, or one that `make` puts together.
Without members it is `empty`. -/
def gather (t : Table) (empty : TypeId) (make : List TypeId → TypeData) (flat : List TypeId) :
    TypeId × Table :=
  match flat with
  | [] => (empty, t)
  | [member] => (member, t)
  | flat => t.add (make flat)

theorem mem_flatten {nested : TypeId → Option (List TypeId)} {members : List TypeId}
    {id : TypeId} : id ∈ flatten nested members ↔ ∃ m ∈ members, id ∈ expand nested m := by
  rw [flatten, mem_distinct, List.mem_flatMap]

/-- What a member contributes is the member itself or one of its members. -/
theorem expand_cases {nested : TypeId → Option (List TypeId)} {member id : TypeId}
    (h : id ∈ expand nested member) :
    id = member ∧ nested member = none ∨ ∃ inner, nested member = some inner ∧ id ∈ inner := by
  unfold expand at h
  cases hn : nested member with
  | none =>
    rw [hn] at h
    exact .inl ⟨List.mem_singleton.mp h, rfl⟩
  | some inner =>
    rw [hn] at h
    exact .inr ⟨inner, rfl, h⟩

theorem unionParts_eq (t : Table) : t.unionParts = expand t.unionMembers? := by
  funext member
  simp only [unionParts, expand, unionMembers?]
  split <;> simp_all

theorem intersectionParts_eq (t : Table) :
    t.intersectionParts = expand t.intersectionMembers? := by
  funext member
  simp only [intersectionParts, expand, intersectionMembers?]
  split <;> simp_all

theorem union_eq (t : Table) (members : List TypeId) :
    t.union members = t.gather .void .union (flatten t.unionMembers? members) := by
  rw [union, unionParts_eq]
  rfl

theorem intersection_eq (t : Table) (members : List TypeId) :
    t.intersection members =
      t.gather .any .intersection (flatten t.intersectionMembers? members) := by
  rw [intersection, intersectionParts_eq]
  rfl

theorem gather_cases (t : Table) (empty : TypeId) (make : List TypeId → TypeData)
    (flat : List TypeId) :
    flat = [] ∧ t.gather empty make flat = (empty, t) ∨
    (∃ member, flat = [member] ∧ t.gather empty make flat = (member, t)) ∨
    2 ≤ flat.length ∧ t.gather empty make flat = t.add (make flat) := by
  rcases flat with _ | ⟨first, _ | ⟨second, rest⟩⟩
  · exact .inl ⟨rfl, rfl⟩
  · exact .inr (.inl ⟨first, rfl, rfl⟩)
  · exact .inr (.inr ⟨by simp, rfl⟩)

/-- A gathering of at least one type is its only member, or stored with its members. -/
theorem gather_made {t t' : Table} {empty id : TypeId} {make : List TypeId → TypeData}
    {flat : List TypeId} (hne : flat ≠ []) (h : t.gather empty make flat = (id, t')) :
    flat = [id] ∨ t'.lookup id = some (make flat) := by
  rcases t.gather_cases empty make flat with ⟨hnil, -⟩ | ⟨member, hone, hmade⟩ | ⟨-, hmade⟩
  · exact absurd hnil hne
  · rw [h] at hmade
    cases hmade
    exact .inl hone
  · have hself := lookup_add_self t (make flat)
    rw [← hmade, h] at hself
    exact .inr hself

/-- None of the members that flat lists contribute has members of its own. -/
theorem nested_of_mem_flatten {nested : TypeId → Option (List TypeId)} {members : List TypeId}
    {id : TypeId} (hnested : ∀ m inner, nested m = some inner → FlatList nested inner)
    (hid : id ∈ flatten nested members) : nested id = none := by
  obtain ⟨m, _, hexp⟩ := mem_flatten.mp hid
  rcases expand_cases hexp with ⟨rfl, hnone⟩ | ⟨inner, hinner, hid⟩
  · exact hnone
  · exact (hnested m inner hinner).single id hid

/-- What holds of unions and intersections alike: `nested` gives flat lists of handles in use, and
`make` keeps the members it is given. -/
theorem grows_gather {t : Table} (h : t.WellFormed) {nested : TypeId → Option (List TypeId)}
    {empty : TypeId} {make : List TypeId → TypeData} {members : List TypeId}
    (hnested : ∀ m inner, nested m = some inner →
      FlatList nested inner ∧ ∀ part ∈ inner, t.Issued part)
    (hparts : ∀ flat, (make flat).parts = flat)
    (hmake : ∀ flat, FlatList nested flat → t.FlatData (make flat))
    (hempty : t.Issued empty) (hm : ∀ m ∈ members, t.Issued m) :
    t.Grows (t.gather empty make (flatten nested members)) := by
  have hissued : ∀ id ∈ flatten nested members, t.Issued id := by
    intro id hid
    obtain ⟨m, hmem, hexp⟩ := mem_flatten.mp hid
    rcases expand_cases hexp with ⟨rfl, _⟩ | ⟨inner, hinner, hid⟩
    · exact hm id hmem
    · exact (hnested m inner hinner).2 id hid
  have hsingle : ∀ id ∈ flatten nested members, nested id = none :=
    fun id hid => nested_of_mem_flatten (fun m inner hinner => (hnested m inner hinner).1) hid
  rcases t.gather_cases empty make (flatten nested members)
    with ⟨_, he⟩ | ⟨member, hone, he⟩ | ⟨htwo, he⟩
  · rw [he]
    exact grows_self h hempty
  · rw [he]
    exact grows_self h (hissued member (by simp [hone]))
  · rw [he]
    refine grows_add h ?_ (hmake _ ⟨htwo, nodup_distinct _, hsingle⟩)
    rw [hparts]
    exact hissued

theorem unionMembers?_eq_some {t : Table} {id : TypeId} {members : List TypeId} :
    t.unionMembers? id = some members ↔ t.lookup id = some (.union members) := by
  simp only [unionMembers?]
  split <;> simp_all

theorem intersectionMembers?_eq_some {t : Table} {id : TypeId} {members : List TypeId} :
    t.intersectionMembers? id = some members ↔ t.lookup id = some (.intersection members) := by
  simp only [intersectionMembers?]
  split <;> simp_all

theorem objectShape?_eq_some {t : Table} {id : TypeId} {shape : ObjectShape} :
    t.objectShape? id = some shape ↔ t.lookup id = some (.object shape) := by
  simp only [objectShape?]
  split <;> simp_all

namespace WellFormed

variable {t : Table} {members : List TypeId}

theorem grows_union (h : t.WellFormed) (hm : ∀ m ∈ members, t.Issued m) :
    t.Grows (t.union members) := by
  rw [union_eq]
  refine grows_gather h ?_ (fun _ => rfl) (fun _ hflat => hflat) (h.issued_of_lt (by decide)) hm
  intro m inner hinner
  have hd := unionMembers?_eq_some.mp hinner
  exact ⟨h.flat_union hd, fun part hp => h.issued_part hd hp⟩

theorem grows_intersection (h : t.WellFormed) (hm : ∀ m ∈ members, t.Issued m) :
    t.Grows (t.intersection members) := by
  rw [intersection_eq]
  refine grows_gather h ?_ (fun _ => rfl) (fun _ hflat => hflat) (h.issued_of_lt (by decide)) hm
  intro m inner hinner
  have hd := intersectionMembers?_eq_some.mp hinner
  exact ⟨h.flat_intersection hd, fun part hp => h.issued_part hd hp⟩

end WellFormed

end Table
end HeaderCheck.Types
