import HeaderCheck.Proofs.Types.Join
import Mathlib.Data.List.Perm.Subperm

/-!
# HeaderCheck.Proofs.Types.Meet

Intersections and subtyping.

* `fits_member_iff`: an intersection fits each of its members, if only some member of a member that is
  a union takes it. The rule for a union that is expected comes before the one for an intersection
  that is given, so the intersection is held against the members of the union as a whole.
* `intersection_fits_iff`: an intersection that is expected is one after the other what its members
  are.
* `fits_intersection`: what an intersection is made of takes the intersection, on the same terms.
-/

namespace HeaderCheck.Types
namespace Table

theorem Extends.intersectionParts_eq {t u : Table} (h : t.Extends u) {id : TypeId}
    (hi : t.Issued id) : u.intersectionParts id = t.intersectionParts id := by
  simp only [intersectionParts, h.lookup_eq hi]

namespace WellFormed

variable {t : Table} {i m : TypeId} {members inner : List TypeId} {data : TypeData}

/-! ## Members -/

/-- A member that is no union takes the intersection, since it takes itself. -/
theorem fits_of_mem (h : t.WellFormed) (hi : t.lookup i = some (.intersection members))
    (hmem : m ∈ members) (hm : t.lookup m = some data) (hno : ∀ inner, data ≠ .union inner) :
    t.Fits m i := by
  by_cases hfree : data.isFree = true
  · exact h.fits_of_isFree hm hi (.inl hfree)
  by_cases hall : m.acceptsAll = true
  · exact h.fits_of_acceptsAll (issued_of_lookup hm) (issued_of_lookup hi) (.inl hall)
  have hne : m ≠ i := by
    rintro rfl
    exact Nat.lt_irrefl _ (h.descends hi m hmem)
  have hspecial : i.acceptsAll = false := h.acceptsAll_eq_false hi nofun
  rw [h.fits_iff_structure hne hm hi ⟨Bool.eq_false_iff.mpr hfree, rfl⟩
    ⟨Bool.eq_false_iff.mpr hall, fitsAll_eq_false hspecial⟩
    (not_sentinel hspecial).1 (not_sentinel hspecial).2]
  have hitself : t.checkIntersection t.checkFully m i data members = .ok () :=
    checkIntersection_eq_ok.mpr (.inl ⟨m, hmem, h.fits_refl m⟩)
  cases data with
  | union inner => exact absurd rfl (hno inner)
  | intersection inner =>
    -- intersections are flat
    have hsingle := (h.flat_intersection hi).single m hmem
    rw [intersectionMembers?_eq_some.mpr hm] at hsingle
    cases hsingle
  | _ => exact hitself

/-- A member takes the intersection, a union where one of its members does. -/
theorem fits_member_iff (h : t.WellFormed) (hi : t.lookup i = some (.intersection members))
    (hmem : m ∈ members) :
    t.Fits m i ↔ ∀ inner, t.unionMembers? m = some inner → ∃ k ∈ inner, t.Fits k i := by
  obtain ⟨data, hm⟩ := issued_iff.mp (h.issued_part hi hmem)
  cases hunion : t.unionMembers? m with
  | some inner =>
    rw [h.union_fits_iff (unionMembers?_eq_some.mp hunion) hi nofun]
    constructor
    · rintro hex _ ⟨⟩
      exact hex
    · exact fun hall => hall inner rfl
  | none =>
    refine iff_of_true (h.fits_of_mem hi hmem hm ?_) nofun
    rintro inner rfl
    rw [unionMembers?_eq_some.mpr hm] at hunion
    cases hunion

/-- One intersection takes another where all of its members do. -/
theorem intersection_fits_iff (h : t.WellFormed) (hi : t.lookup i = some (.intersection members))
    (hm : t.lookup m = some (.intersection inner)) (hne : m ≠ i) :
    t.Fits m i ↔ ∀ part ∈ inner, t.Fits part i := by
  have hspecial : i.acceptsAll = false := h.acceptsAll_eq_false hi (by rintro _ ⟨⟩)
  rw [h.fits_iff_structure hne hm hi ⟨rfl, rfl⟩
    ⟨h.acceptsAll_eq_false hm (by rintro _ ⟨⟩), fitsAll_eq_false hspecial⟩
    (not_sentinel hspecial).1 (not_sentinel hspecial).2, checkStructure, checkEach_eq_ok]
  · rfl
  · rintro _ ⟨⟩

/-! ## What an intersection is made of -/

theorem intersectionParts_ne_nil (h : t.WellFormed) (m : TypeId) : t.intersectionParts m ≠ [] := by
  unfold intersectionParts
  split
  · next inner hm =>
    rintro rfl
    exact absurd (h.flat_intersection hm).two_le (by simp)
  · simp

/-- An intersection of at least one type is its only member, or stored with its members. -/
theorem intersection_made {t' : Table} (h : t.WellFormed) (hmem : m ∈ members)
    (hi : t.intersection members = (i, t')) :
    flatten t.intersectionMembers? members = [i] ∨
      t'.lookup i = some (.intersection (flatten t.intersectionMembers? members)) := by
  rw [intersection_eq] at hi
  refine gather_made ?_ hi
  obtain ⟨part, hpart⟩ := List.exists_mem_of_ne_nil _ (h.intersectionParts_ne_nil m)
  rw [intersectionParts_eq] at hpart
  exact List.ne_nil_of_mem (mem_flatten.mpr ⟨m, hmem, hpart⟩)

/-- What an intersection is made of takes it if it is the intersection itself, or if each of its parts
takes it. -/
theorem fits_intersection {t' : Table} (h : t.WellFormed) (hissued : ∀ m ∈ members, t.Issued m)
    (hmem : m ∈ members) (hi : t.intersection members = (i, t')) :
    t'.Fits m i ↔ m = i ∨ ∀ part ∈ t'.intersectionParts m, ∀ inner,
      t'.unionMembers? part = some inner → ∃ k ∈ inner, t'.Fits k i := by
  have hgrows := h.grows_intersection hissued
  rw [hi] at hgrows
  have hwf := hgrows.wellFormed
  by_cases hself : m = i
  · rw [hself]
    exact iff_of_true (hwf.fits_refl i) (.inl rfl)
  rw [or_iff_right hself]
  have hparts : t'.intersectionParts m = t.intersectionParts m :=
    hgrows.extend.intersectionParts_eq (hissued m hmem)
  have hflat : ∀ part ∈ t'.intersectionParts m, part ∈ flatten t.intersectionMembers? members := by
    intro part hpart
    rw [hparts, intersectionParts_eq] at hpart
    exact mem_flatten.mpr ⟨m, hmem, hpart⟩
  rcases h.intersection_made hmem hi with hone | hstored
  · -- the only member would be `m`, or all that `m` has, which is at least two
    refine absurd ?_ hself
    rw [hone] at hflat
    unfold intersectionParts at hflat
    split at hflat
    · next inner hm =>
      have hmembers := hwf.flat_intersection hm
      have hle := (List.Nodup.subperm hmembers.nodup hflat).length_le
      exact absurd hmembers.two_le (Nat.not_le_of_lt (Nat.lt_succ_of_le hle))
    · exact List.mem_singleton.mp (hflat m (List.mem_singleton_self m))
  calc t'.Fits m i
      ↔ ∀ part ∈ t'.intersectionParts m, t'.Fits part i := by
        unfold intersectionParts
        split
        · next inner hm => exact hwf.intersection_fits_iff hstored hm hself
        · simp
    _ ↔ _ := forall₂_congr fun part hpart => hwf.fits_member_iff hstored (hflat part hpart)

/-! ## Heights -/

theorem height_intersectionParts (h : t.WellFormed) {part : TypeId}
    (hpart : part ∈ t.intersectionParts m) : t.height part ≤ t.height m := by
  unfold intersectionParts at hpart
  split at hpart
  · next inner hm => exact Nat.le_of_lt (h.height_lt ⟨_, hm, hpart⟩)
  · exact Nat.le_of_eq (congrArg t.height (List.mem_singleton.mp hpart))

/-- An intersection is at most one level higher than what it is made of. -/
theorem height_intersection_made {t' : Table} (h : t.WellFormed)
    (hissued : ∀ m ∈ members, t.Issued m) (hmem : m ∈ members)
    (hi : t.intersection members = (i, t')) {bound : Nat}
    (hb : ∀ m ∈ members, t'.height m ≤ bound) : t'.height i ≤ bound + 1 := by
  have hgrows := h.grows_intersection hissued
  rw [hi] at hgrows
  have hwf := hgrows.wellFormed
  have hflat : ∀ part ∈ flatten t.intersectionMembers? members, t'.height part ≤ bound := by
    intro part hpart
    obtain ⟨member, hmember, hexp⟩ := mem_flatten.mp hpart
    rw [← intersectionParts_eq] at hexp
    have hparts : t'.intersectionParts member = t.intersectionParts member :=
      hgrows.extend.intersectionParts_eq (hissued member hmember)
    exact Nat.le_trans (hwf.height_intersectionParts (hparts ▸ hexp)) (hb member hmember)
  rcases h.intersection_made hmem hi with hone | hstored
  · exact Nat.le_succ_of_le (hflat i (by simp [hone]))
  · exact hwf.height_le hstored fun part hpart => Nat.lt_succ_of_le (hflat part hpart)

end WellFormed
end Table

/-- What an intersection is made of takes the intersection, unless a union is among it: of a union some
member has to take the whole intersection, or the intersection is the union. -/
theorem made_of_takes_intersection {t t' : Table} (h : Reachable t) {members : List TypeId}
    (hissued : ∀ m ∈ members, t.Issued m) (hh : ∀ m ∈ members, t.height m ≤ 100) {i m : TypeId}
    (hi : t.intersection members = (i, t')) (hmem : m ∈ members) :
    t'.isSubtype m i = true ↔ m = i ∨ ∀ part ∈ t'.intersectionParts m, ∀ inner,
      t'.unionMembers? part = some inner → ∃ k ∈ inner, t'.isSubtype k i = true := by
  have hwf := h.wellFormed
  have hgrows := hwf.grows_intersection hissued
  rw [hi] at hgrows
  have hwf' : t'.WellFormed := hgrows.wellFormed
  have hheight : ∀ m ∈ members, t'.height m ≤ 100 := by
    intro m hm
    rw [hgrows.extend.height_eq hwf hwf' (hissued m hm)]
    exact hh m hm
  have hwhole := hwf.height_intersection_made hissued hmem hi hheight
  have hone := hheight m hmem
  rw [hwf'.isSubtype_iff (by omega), hwf.fits_intersection hissued hmem hi]
  refine or_congr_right (forall₂_congr fun part hpart => forall₂_congr fun inner hinner =>
    exists_congr fun k => and_congr_right fun hk => ?_)
  have hle := hwf'.height_intersectionParts hpart
  have hlt := hwf'.height_lt ⟨_, Table.unionMembers?_eq_some.mp hinner, hk⟩
  rw [hwf'.isSubtype_iff (by omega)]

/-- An array of strings is taken where an array is expected, whatever else it has to be. -/
theorem made_of_takes_intersection_nullableStrings :
    let made := nullableStrings.intersection [⟨20⟩, .string]
    made.2.isSubtype ⟨20⟩ made.1 = true := by
  intro made
  have hmade : nullableStrings.intersection [⟨20⟩, .string] = (made.1, made.2) := rfl
  have hparts : made.2.intersectionParts ⟨20⟩ = [⟨20⟩] := by decide
  have hnone : made.2.unionMembers? ⟨20⟩ = none := by decide
  refine (made_of_takes_intersection reachable_nullableStrings (by decide) (by decide) hmade
    List.mem_cons_self).mpr (.inr ?_)
  rw [hparts]
  intro part hpart inner hinner
  rw [List.mem_singleton.mp hpart, hnone] at hinner
  cases hinner

/-- `(String | null) & Array<String | null>` is not taken where `String | null` is expected: neither
`String` nor `null` takes all of it. -/
theorem union_refuses_intersection :
    let made := nullableStrings.intersection [⟨19⟩, ⟨20⟩]
    Reachable nullableStrings ∧ nullableStrings.Issued ⟨19⟩ ∧ nullableStrings.Issued ⟨20⟩ ∧
      nullableStrings.height ⟨19⟩ ≤ 100 ∧ nullableStrings.height ⟨20⟩ ≤ 100 ∧
      made.2.check ⟨19⟩ made.1 = .error (.typeClassMismatch ⟨19⟩ made.1) :=
  ⟨reachable_nullableStrings, by decide, by decide, by decide, by decide, by decide +kernel⟩

end HeaderCheck.Types
