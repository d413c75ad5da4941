import HeaderCheck.Proofs.Types.Reachable

/-!
# HeaderCheck.Proofs.Types.Again

What is made once is found again: making the same type in a later table gives the same handle and
changes nothing.

* `Table.Makes t make`: `make` gives a type of `t`, and the same one in every table that has grown
  from there.
-/

namespace HeaderCheck.Types.Table

variable {t u : Table}

structure Makes (t : Table) (make : Table → TypeId × Table) : Prop where
  grows : t.Grows (make t)
  again : ∀ u : Table, u.WellFormed → (make t).2.Extends u → make u = ((make t).1, u)

/-- A type that was added before has one handle. -/
theorem add_again (hu : u.WellFormed) {data : TypeData} (h : (t.add data).2.Extends u) :
    u.add data = ((t.add data).1, u) :=
  hu.add_of_lookup (h _ _ (lookup_add_self t data))

theorem makes_add (ht : t.WellFormed) {data : TypeData}
    (hparts : ∀ part ∈ data.parts, t.Issued part) (hflat : t.FlatData data) :
    t.Makes fun t => t.add data :=
  ⟨grows_add ht hparts hflat, fun _ hu h => add_again hu h⟩

/-- Members that are in use contribute the same in a later table. -/
theorem flatten_congr {nested nested' : TypeId → Option (List TypeId)} {members : List TypeId}
    (h : ∀ m ∈ members, nested' m = nested m) : flatten nested' members = flatten nested members := by
  rw [flatten, flatten]
  refine congrArg distinct (List.flatMap_congr fun m hm => ?_)
  rw [expand, expand, h m hm]

theorem gather_again (hu : u.WellFormed) {empty : TypeId} {make : List TypeId → TypeData}
    {flat : List TypeId} (h : (t.gather empty make flat).2.Extends u) :
    u.gather empty make flat = ((t.gather empty make flat).1, u) := by
  rcases flat with _ | ⟨first, _ | ⟨second, rest⟩⟩
  · rfl
  · rfl
  · exact add_again hu h

theorem makes_union (ht : t.WellFormed) {members : List TypeId}
    (hm : ∀ m ∈ members, t.Issued m) : t.Makes fun t => t.union members := by
  have hgrows := ht.grows_union hm
  refine ⟨hgrows, fun u hu h => ?_⟩
  have hx := hgrows.extend.trans h
  rw [union_eq] at h
  rw [union_eq, union_eq, flatten_congr fun m hmem => hx.unionMembers?_eq (hm m hmem)]
  exact gather_again hu h

theorem makes_intersection (ht : t.WellFormed) {members : List TypeId}
    (hm : ∀ m ∈ members, t.Issued m) : t.Makes fun t => t.intersection members := by
  have hgrows := ht.grows_intersection hm
  refine ⟨hgrows, fun u hu h => ?_⟩
  have hx := hgrows.extend.trans h
  rw [intersection_eq] at h
  rw [intersection_eq, intersection_eq,
    flatten_congr fun m hmem => hx.intersectionMembers?_eq (hm m hmem)]
  exact gather_again hu h

theorem makes_make (ht : t.WellFormed) {data : TypeData} (hparts : ∀ part ∈ data.parts, t.Issued part) :
    t.Makes fun t => t.make data := by
  cases data with
  | union members => exact makes_union ht hparts
  | intersection members => exact makes_intersection ht hparts
  | _ => exact makes_add ht hparts trivial

/-- What is made in two steps, each of which is made again. -/
theorem Makes.andThen {make : Table → TypeId × Table} (h : t.Makes make)
    (next : TypeId → Table → TypeId × Table) (hnext : (make t).2.Makes (next (make t).1)) :
    t.Makes fun t => next (make t).1 (make t).2 := by
  refine ⟨⟨hnext.grows.wellFormed, h.grows.extend.trans hnext.grows.extend, hnext.grows.issued⟩,
    fun u hu hx => ?_⟩
  have hfirst := h.again u hu (hnext.grows.extend.trans hx)
  simp only [hfirst]
  exact hnext.again u hu hx

/-- A type in use is made of itself. -/
theorem makes_self (ht : t.WellFormed) {id : TypeId} (hid : t.Issued id) : t.Makes fun t => (id, t) :=
  ⟨grows_self ht hid, fun _ _ _ => rfl⟩

/-- What is made depends on what a type in use stands for. -/
theorem Makes.congr {make make' : Table → TypeId × Table} (h : t.Makes make)
    (hsame : ∀ u, t.Extends u → make' u = make u) : t.Makes make' := by
  have hmake := hsame t (.refl t)
  refine ⟨hmake ▸ h.grows, fun u hu hx => ?_⟩
  rw [hmake] at hx ⊢
  rw [hsame u (h.grows.extend.trans hx)]
  exact h.again u hu hx

theorem makes_withBrand (ht : t.WellFormed) {id : TypeId} (hid : t.Issued id) (brand : String) :
    t.Makes fun t => t.withBrand id brand := by
  obtain ⟨data, hdata⟩ := issued_iff.mp hid
  have hsame : ∀ u : Table, t.Extends u → u.lookup id = some data := fun u hx => hx id data hdata
  have hparts : ∀ part ∈ data.parts, t.Issued part := fun part hpart => ht.issued_part hdata hpart
  cases data with
  | object shape =>
    have hmake : t.Makes fun t => t.objectOf { shape with brand } := makes_add ht hparts trivial
    refine hmake.congr fun u hx => ?_
    rw [withBrand, hsame u hx]
  | function shape =>
    have hmake : t.Makes fun t => t.function { shape with brand } := makes_add ht hparts trivial
    refine hmake.congr fun u hx => ?_
    rw [withBrand, hsame u hx]
  | _ => exact (makes_self ht hid).congr fun u hx => by rw [withBrand, hsame u hx]

/-! ## Parts -/

/-- A step from a type in use leads to the same in a later table, given as many levels as the type may
have. -/
theorem Extends.childWithin?_eq (h : t.Extends u) (hu : u.WellFormed) {fuel more : Nat} {id : TypeId}
    {step : Step} (hid : t.Issued id) (hfuel : id.index < fuel) (hmore : id.index < more) :
    u.childWithin? more id step = t.childWithin? fuel id step := by
  induction fuel generalizing more id with
  | zero => omega
  | succ fuel ih =>
    obtain ⟨more, rfl⟩ := Nat.exists_eq_add_one_of_ne_zero (Nat.ne_zero_of_lt hmore)
    obtain ⟨data, hdata⟩ := issued_iff.mp hid
    have hdata' := h id data hdata
    rw [childWithin?, childWithin?, hdata, hdata']
    cases data with
    | renamed name builtin target =>
      have hless : target.index < id.index := hu.descends hdata' target (by simp [TypeData.parts])
      exact ih (Nat.lt_trans hless hid) (by omega) (by omega)
    | _ => rfl

/-- A step from a type in use leads to a type in use. -/
theorem WellFormed.issued_childWithin? (ht : t.WellFormed) {fuel : Nat} {id child : TypeId} {step : Step}
    (hchild : t.childWithin? fuel id step = some child) : t.Issued child := by
  induction fuel generalizing id with
  | zero => cases hchild
  | succ fuel ih =>
    rw [childWithin?] at hchild
    split at hchild
    · exact ih hchild
    · next data _ hdata => exact ht.issued_part hdata (mem_parts_of_partAt? hchild)
    · cases hchild

/-- A path from a type in use leads to the same in a later table. -/
theorem Extends.typeAt?_eq (h : t.Extends u) (ht : t.WellFormed) (hu : u.WellFormed) {root : TypeId}
    {path : List Step} (hroot : t.Issued root) : u.typeAt? root path = t.typeAt? root path := by
  induction path generalizing root with
  | nil => rfl
  | cons step path ih =>
    have hchild : u.childAt? root step = t.childAt? root step :=
      h.childWithin?_eq hu hroot (Nat.lt_succ_of_lt hroot) (Nat.lt_succ_of_lt (h.issued hroot))
    rw [typeAt?, typeAt?, hchild]
    cases hfound : t.childAt? root step with
    | none => rfl
    | some child => exact ih (ht.issued_childWithin? hfound)

end HeaderCheck.Types.Table
