import HeaderCheck.Proofs.Types.WellFormed

/-!
# HeaderCheck.Proofs.Types.Parts

One level of a type with one of its parts changed.

* `withPart`: the level with another part where a step leads to. The new part is there
  (`partAt?_withPart`), the other parts are those of before, the last of two changes counts, and
  changes at different steps commute.
* `Table.make`: the type with a given level, unions and intersections being flattened. A type in use
  is made of its own level (`make_of_lookup`).
* `setPart_eq_make`: putting a part in place makes the type with the changed level, and
  `replaceAt?_cons_eq_some` says how a replacement goes on from one level to the next.
-/

namespace HeaderCheck.Types
namespace Table

/-- One level of a type with `part` where a step leads to. -/
def withPart (data : TypeData) (step : Step) (part : TypeId) : TypeData :=
  match data, step with
  | .function shape, .arg i =>
    .function { shape with params := shape.params.modify i fun p => { p with type := part } }
  | .function shape, .this => .function { shape with this := some part }
  | .function shape, .result => .function { shape with result := part }
  | .generic base args, .typeArg i => .generic base (args.set i part)
  | .object shape, .field i =>
    .object { shape with fields := shape.fields.modify i fun f => { f with type := part } }
  | .union members, .member i => .union (members.set i part)
  | .intersection members, .member i => .intersection (members.set i part)
  | .tuple elements, .element i => .tuple (elements.set i part)
  | data, _ => data

variable {t : Table} {data : TypeData} {step other : Step} {child part next id : TypeId}

attribute [local simp] partAt? withPart

/-! ## Parts of a level -/

theorem mem_parts_of_partAt? (h : partAt? data step = some child) : child ∈ data.parts := by
  unfold partAt? at h
  split at h
  · simp only [Option.map_eq_some_iff] at h
    obtain ⟨param, hp, rfl⟩ := h
    simpa [TypeData.parts] using .inl ⟨param, List.mem_of_getElem? hp, rfl⟩
  · simp [TypeData.parts, h]
  · cases h
    simp [TypeData.parts]
  · simp [TypeData.parts, List.mem_of_getElem? h]
  · simp only [Option.map_eq_some_iff] at h
    obtain ⟨field, hf, rfl⟩ := h
    simpa [TypeData.parts] using ⟨field, List.mem_of_getElem? hf, rfl⟩
  · exact List.mem_of_getElem? h
  · exact List.mem_of_getElem? h
  · exact List.mem_of_getElem? h
  · cases h

theorem mem_modify {α : Type} {f : α → α} {items : List α} {i : Nat} {x : α}
    (h : x ∈ items.modify i f) : x ∈ items ∨ ∃ y ∈ items, x = f y := by
  obtain ⟨j, hj⟩ := List.getElem?_of_mem h
  rw [List.getElem?_modify] at hj
  split at hj
  · obtain ⟨y, hy, rfl⟩ := Option.map_eq_some_iff.mp hj
    exact .inr ⟨y, List.mem_of_getElem? hy, rfl⟩
  · exact .inl (List.mem_of_getElem? (by simpa using hj))

/-- The parts of a changed level are old ones and the new one. -/
theorem mem_parts_withPart {p : TypeId} (h : p ∈ (withPart data step part).parts) :
    p ∈ data.parts ∨ p = part := by
  unfold withPart at h
  split at h
  · next shape i =>
    simp only [TypeData.parts, List.mem_append, List.mem_map, List.mem_singleton] at h ⊢
    rcases h with (⟨param, hparam, rfl⟩ | hthis) | rfl
    · rcases mem_modify hparam with hparam | ⟨old, _, rfl⟩
      · exact .inl (.inl (.inl ⟨param, hparam, rfl⟩))
      · exact .inr rfl
    · exact .inl (.inl (.inr hthis))
    · exact .inl (.inr rfl)
  · simp only [TypeData.parts, List.mem_append, List.mem_singleton, Option.mem_toList,
      Option.some.injEq] at h ⊢
    rcases h with (hparam | rfl) | rfl
    · exact .inl (.inl (.inl hparam))
    · exact .inr rfl
    · exact .inl (.inr rfl)
  · simp only [TypeData.parts, List.mem_append, List.mem_singleton] at h ⊢
    rcases h with hp | rfl
    · exact .inl (.inl hp)
    · exact .inr rfl
  · rcases List.mem_cons.mp h with rfl | h
    · exact .inl List.mem_cons_self
    · exact (List.mem_or_eq_of_mem_set h).imp_left (List.mem_cons_of_mem _)
  · next shape i =>
    obtain ⟨field, hfield, rfl⟩ := List.mem_map.mp h
    rcases mem_modify hfield with hfield | ⟨old, _, rfl⟩
    · exact .inl (List.mem_map.mpr ⟨field, hfield, rfl⟩)
    · exact .inr rfl
  · exact List.mem_or_eq_of_mem_set h
  · exact List.mem_or_eq_of_mem_set h
  · exact List.mem_or_eq_of_mem_set h
  · exact .inl h

/-! ## Reading and changing -/

/-- The part that is put in place is there. -/
theorem partAt?_withPart (h : partAt? data step = some child) :
    partAt? (withPart data step part) step = some part := by
  unfold partAt? at h
  split at h
  case h_1 | h_5 =>
    obtain ⟨old, hold, -⟩ := Option.map_eq_some_iff.mp h
    simp [hold]
  case h_9 => cases h
  case h_2 | h_3 => rfl
  all_goals simp [List.getElem?_set_self', h]

/-- The other parts are those of before. -/
theorem partAt?_withPart_of_ne (hne : step ≠ other) (h : partAt? data step = some child) :
    partAt? (withPart data step part) other = partAt? data other := by
  unfold partAt? at h
  split at h
  case h_9 => cases h
  all_goals cases other <;> simp_all

/-- Of two parts put in one place the last one counts. -/
theorem withPart_withPart (h : partAt? data step = some child) :
    withPart (withPart data step part) step next = withPart data step next := by
  unfold partAt? at h
  split at h
  case h_9 => cases h
  all_goals simp [List.modify_modify_eq, Function.comp_def]

/-- Parts are put in different places in either order. -/
theorem withPart_comm (hne : step ≠ other) (h : partAt? data step = some child) :
    withPart (withPart data step part) other next = withPart (withPart data other next) step part := by
  unfold partAt? at h
  split at h
  case h_9 => cases h
  all_goals cases other <;> simp_all
  case h_1.arg | h_5.field => exact List.modify_modify_ne _ _ _ ‹_›
  all_goals exact List.set_comm _ _ ‹_›

theorem modify_of_getElem? {α : Type} {f : α → α} {items : List α} {i : Nat} {x : α}
    (h : items[i]? = some x) (hf : f x = x) : items.modify i f = items := by
  refine List.ext_getElem? fun j => ?_
  rw [List.getElem?_modify]
  split
  · next hij => simp [← hij, h, hf]
  · simp

theorem set_of_getElem? {α : Type} {items : List α} {i : Nat} {x : α} (h : items[i]? = some x) :
    items.set i x = items := by
  obtain ⟨hi, rfl⟩ := List.getElem?_eq_some_iff.mp h
  exact List.set_getElem_self hi

/-- A part that is there already changes nothing. -/
theorem withPart_self (h : partAt? data step = some child) : withPart data step child = data := by
  unfold partAt? at h
  split at h
  case h_9 => cases h
  case h_1 | h_5 =>
    obtain ⟨old, hold, rfl⟩ := Option.map_eq_some_iff.mp h
    rw [withPart, modify_of_getElem? hold rfl]
  case h_2 => rw [withPart, ← h]
  case h_3 =>
    cases h
    rfl
  all_goals rw [withPart, set_of_getElem? h]

/-! ## Types from levels -/

/-- The type with the level `data`; unions and intersections are flattened. -/
def make (t : Table) : TypeData → TypeId × Table
  | .union members => t.union members
  | .intersection members => t.intersection members
  | data => t.add data

theorem setPart_eq_make (h : partAt? data step = some child) :
    t.setPart data step part = t.make (withPart data step part) := by
  unfold partAt? at h
  split at h
  case h_9 => cases h
  all_goals rfl

theorem WellFormed.grows_make (h : t.WellFormed) (hp : ∀ part ∈ data.parts, t.Issued part) :
    t.Grows (t.make data) := by
  cases data with
  | union members => exact h.grows_union hp
  | intersection members => exact h.grows_intersection hp
  | _ => exact grows_add h hp trivial

/-- A type in use is found under its handle. -/
theorem WellFormed.add_of_lookup (h : t.WellFormed) (hd : t.lookup id = some data) :
    t.add data = (id, t) := by
  have hself := lookup_add_self t data
  rw [add_snd_of_lookup hd] at hself
  exact Prod.ext (h.injective hself hd) (add_snd_of_lookup hd)

/-- Different types without members of their own are gathered as they are. -/
theorem flatten_of_single {nested : TypeId → Option (List TypeId)} {members : List TypeId}
    (hnodup : members.Nodup) (hsingle : ∀ m ∈ members, nested m = none) :
    flatten nested members = members := by
  have hexpand : ∀ m ∈ members, expand nested m = [m] := by
    intro m hm
    rw [expand, hsingle m hm, Option.getD_none]
  rw [flatten, List.flatMap_congr hexpand, List.flatMap_singleton', distinct_of_nodup hnodup]

/-- A flat list has the members that it contributes. -/
theorem FlatList.flatten_eq {nested : TypeId → Option (List TypeId)} {members : List TypeId}
    (h : FlatList nested members) : flatten nested members = members :=
  flatten_of_single h.nodup h.single

/-- A flat list is gathered as it is. -/
theorem FlatList.gather_eq {nested : TypeId → Option (List TypeId)} {members : List TypeId}
    (h : FlatList nested members) (empty : TypeId) (make : List TypeId → TypeData) :
    t.gather empty make (flatten nested members) = t.add (make members) := by
  rw [h.flatten_eq]
  rcases t.gather_cases empty make members with ⟨rfl, -⟩ | ⟨member, rfl, -⟩ | ⟨-, hmade⟩
  · exact absurd h.two_le (by simp)
  · exact absurd h.two_le (by simp)
  · exact hmade

/-- A type in use is made of its own level. -/
theorem WellFormed.make_of_lookup (h : t.WellFormed) (hd : t.lookup id = some data) :
    t.make data = (id, t) := by
  cases data with
  | union members =>
    rw [make, union_eq, (h.flat_union hd).gather_eq]
    exact h.add_of_lookup hd
  | intersection members =>
    rw [make, intersection_eq, (h.flat_intersection hd).gather_eq]
    exact h.add_of_lookup hd
  | _ => exact h.add_of_lookup hd

/-! ## Replacing -/

/-- A part is replaced below a step, and what is made there is put in place. -/
theorem replaceAt?_cons_eq_some {root replacement : TypeId} {path : List Step} {made : TypeId × Table} :
    t.replaceAt? root (step :: path) replacement = some made ↔
      ∃ data child part u, t.lookup root = some data ∧ partAt? data step = some child ∧
        t.replaceAt? child path replacement = some (part, u) ∧ u.setPart data step part = made := by
  rw [replaceAt?]
  constructor
  · intro h
    split at h
    · cases h
    next data hdata =>
    split at h
    · cases h
    next child hchild =>
    split at h
    · cases h
    next part u hpart =>
    exact ⟨data, child, part, u, hdata, hchild, hpart, Option.some.inj h⟩
  · rintro ⟨data, child, part, u, hdata, hchild, hpart, rfl⟩
    simp only [hdata, hchild, hpart]

end Table
end HeaderCheck.Types
