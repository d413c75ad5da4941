import HeaderCheck.Proofs.Types.Levels
import Mathlib.Algebra.Order.BigOperators.Group.List
import Mathlib.Algebra.Order.Ring.Nat

/-!
# HeaderCheck.Proofs.Types.Join

Unions and subtyping.

* `Table.Fits t e a`: the rules without a limit accept a value of type `a` where `e` is required.
* `fits_nullDefault`, `fits_uninitialized`: variables without a value count as `null` and
  `undefined`, whatever is expected.
* `fits_union_iff`: a union fits where all of its members do.
* `union_fits_iff`: what is no union fits a union where it fits one of its members.

Both union laws hold for all handles, since the shortcuts in front of the union rules (identity,
type variables, sentinels) say of a union what they say of its members. `union_is_join` takes them
from the stored members to the list that a union was made of.
-/

namespace HeaderCheck.Types
namespace Table

/-- The rules without a limit accept `actual` where `expected` is required. -/
def Fits (t : Table) (expected actual : TypeId) : Prop :=
  t.checkFully expected actual = .ok ()

theorem fitsAll_eq_false {id : TypeId} (h : id.acceptsAll = false) : id.fitsAll = false := by
  simp only [TypeId.acceptsAll, Bool.or_eq_false_iff] at h
  simp only [TypeId.fitsAll, Bool.or_eq_false_iff]
  exact ⟨⟨h.1.1.1.1.1.1, h.1.1.1.1.2⟩, h.1.2⟩

/-- The sentinels that count as other types are among the handles that accept everything. -/
theorem not_sentinel {id : TypeId} (h : id.acceptsAll = false) :
    id ≠ .nullDefault ∧ id ≠ .uninitialized := by
  constructor <;> rintro rfl <;> exact absurd h (by decide)

namespace WellFormed

variable {t : Table} {e a : TypeId} {parent child : TypeData}

/-! ## Shortcuts -/

theorem fits_refl (h : t.WellFormed) (e : TypeId) : t.Fits e e := by
  rw [Fits, h.checkFully_eq, checkPair, if_pos rfl]
  rfl

theorem fits_of_ne (h : t.WellFormed) (hne : e ≠ a) (he : t.lookup e = some parent)
    (ha : t.lookup a = some child) :
    t.Fits e a ↔ t.checkData t.checkFully e a parent child = .ok () := by
  rw [Fits, h.checkFully_eq, checkPair, if_neg hne, he, ha]

/-- A type variable fits everything, and everything fits it. -/
theorem fits_of_isFree (h : t.WellFormed) (he : t.lookup e = some parent)
    (ha : t.lookup a = some child) (hfree : parent.isFree = true ∨ child.isFree = true) :
    t.Fits e a := by
  by_cases hne : e = a
  · rw [hne]
    exact h.fits_refl a
  · rw [h.fits_of_ne hne he ha, checkData, if_pos (by simpa using hfree)]
    rfl

theorem fits_of_acceptsAll (h : t.WellFormed) (he : t.Issued e) (ha : t.Issued a)
    (hall : e.acceptsAll = true ∨ a.fitsAll = true) : t.Fits e a := by
  obtain ⟨parent, he⟩ := issued_iff.mp he
  obtain ⟨child, ha⟩ := issued_iff.mp ha
  by_cases hne : e = a
  · rw [hne]
    exact h.fits_refl a
  · have hor : (e.acceptsAll || a.fitsAll) = true := by simpa using hall
    rw [h.fits_of_ne hne he ha, checkData, if_pos hor]
    split <;> rfl

/-- Without a shortcut the structure of the two types decides. -/
theorem fits_iff_structure (h : t.WellFormed) (hne : e ≠ a) (he : t.lookup e = some parent)
    (ha : t.lookup a = some child) (hfree : parent.isFree = false ∧ child.isFree = false)
    (hall : e.acceptsAll = false ∧ a.fitsAll = false) (hnull : a ≠ .nullDefault)
    (hnone : a ≠ .uninitialized) :
    t.Fits e a ↔ t.checkStructure t.checkFully e a parent child = .ok () := by
  rw [h.fits_of_ne hne he ha, checkData, if_neg (by simp [hfree]), if_neg (by simp [hall]),
    if_neg hnull, if_neg hnone]

/-- The handles with rules of their own stand for built-in names. -/
theorem literal_of_acceptsAll (h : t.WellFormed) (hall : e.acceptsAll = true) :
    ∃ name, t.lookup e = some (.literal name true) := by
  simp only [TypeId.acceptsAll, Bool.or_eq_true, decide_eq_true_eq] at hall
  rcases hall with (((((rfl | rfl) | rfl) | rfl) | rfl) | rfl) | rfl
  all_goals exact ⟨_, h.builtin rfl⟩

theorem acceptsAll_eq_false (h : t.WellFormed) (he : t.lookup e = some parent)
    (hno : ∀ name, parent ≠ .literal name true) : e.acceptsAll = false := by
  by_contra hall
  obtain ⟨name, hlit⟩ := h.literal_of_acceptsAll (Bool.not_eq_false _ ▸ hall)
  rw [he] at hlit
  cases hlit
  exact hno name rfl

/-- A sentinel that is given counts as the type it hops to, whatever is expected. -/
theorem fits_hop (h : t.WellFormed) (he : t.Issued e) {sentinel value : TypeId}
    (hs : t.Issued sentinel) (hv : t.Issued value) (hall : sentinel.acceptsAll = true)
    (hrule : ∀ parent, t.lookup e = some parent → e ≠ sentinel → parent.isFree = false →
      e.acceptsAll = false → (t.Fits e sentinel ↔ t.Fits e value)) :
    t.Fits e sentinel ↔ t.Fits e value := by
  obtain ⟨parent, hparent⟩ := issued_iff.mp he
  obtain ⟨svalue, hsdata⟩ := issued_iff.mp hs
  obtain ⟨vvalue, hvdata⟩ := issued_iff.mp hv
  by_cases hacc : e.acceptsAll = true
  · exact iff_of_true (h.fits_of_acceptsAll he hs (.inl hacc))
      (h.fits_of_acceptsAll he hv (.inl hacc))
  by_cases hfree : parent.isFree = true
  · exact iff_of_true (h.fits_of_isFree hparent hsdata (.inl hfree))
      (h.fits_of_isFree hparent hvdata (.inl hfree))
  · refine hrule parent hparent ?_ (Bool.eq_false_iff.mpr hfree) (Bool.eq_false_iff.mpr hacc)
    rintro rfl
    exact hacc hall

theorem fits_nullDefault (h : t.WellFormed) (he : t.Issued e) :
    t.Fits e .nullDefault ↔ t.Fits e .null := by
  have hlit : t.lookup .nullDefault = some (.literal "%Null%%Default" true) := h.builtin rfl
  refine h.fits_hop he (issued_of_lookup hlit) (issued_of_lookup h.lookup_null) (by decide) ?_
  intro parent hparent hne hfree hacc
  rw [h.fits_of_ne hne hparent hlit, checkData, if_neg (by rw [hfree]; decide),
    if_neg (by rw [hacc]; decide), if_pos rfl, Fits]

theorem fits_uninitialized (h : t.WellFormed) (he : t.Issued e) :
    t.Fits e .uninitialized ↔ t.Fits e .undefined := by
  have hlit : t.lookup .uninitialized = some (.literal "%Void%%Uninitialized" true) :=
    h.builtin rfl
  refine h.fits_hop he (issued_of_lookup hlit) (issued_of_lookup h.lookup_undefined)
    (by decide) ?_
  intro parent hparent hne hfree hacc
  rw [h.fits_of_ne hne hparent hlit, checkData, if_neg (by rw [hfree]; decide),
    if_neg (by rw [hacc]; decide), if_neg (by decide), if_pos rfl, Fits]

/-! ## Unions -/

variable {u : TypeId} {members : List TypeId}

/-- The union rule itself, for a type that no shortcut concerns. -/
theorem union_fits_of_plain (h : t.WellFormed) (hu : t.lookup u = some (.union members))
    (ha : t.lookup a = some child) (hno : ∀ inner, child ≠ .union inner)
    (hfree : child.isFree = false) (hfits : a.fitsAll = false) (hnull : a ≠ .nullDefault)
    (hnone : a ≠ .uninitialized) : t.Fits u a ↔ ∃ m ∈ members, t.Fits m a := by
  have hne : u ≠ a := by
    rintro rfl
    rw [hu] at ha
    cases ha
    exact hno members rfl
  have hacc : u.acceptsAll = false := h.acceptsAll_eq_false hu nofun
  rw [h.fits_iff_structure hne hu ha ⟨rfl, hfree⟩ ⟨hacc, hfits⟩ hnull hnone, checkStructure]
  · rw [passesAny_eq_ok]
    constructor
    · rintro (hex | hthrow)
      · exact hex
      · exact absurd hthrow throw_ne_ok
    · exact fun hex => .inl hex
  · exact hno

/-- What is no union fits a union where it fits one of its members. -/
theorem union_fits_iff (h : t.WellFormed) (hu : t.lookup u = some (.union members))
    (ha : t.lookup a = some child) (hno : ∀ inner, child ≠ .union inner) :
    t.Fits u a ↔ ∃ m ∈ members, t.Fits m a := by
  have hflat := h.flat_union hu
  have hissued : ∀ m ∈ members, t.Issued m := fun m hm => h.issued_part hu hm
  obtain ⟨first, hfirst⟩ : ∃ m, m ∈ members := by
    refine List.exists_mem_of_ne_nil _ ?_
    rintro rfl
    exact absurd hflat.two_le (by simp)
  obtain ⟨fdata, hfdata⟩ := issued_iff.mp (hissued first hfirst)
  by_cases hfree : child.isFree = true
  · exact iff_of_true (h.fits_of_isFree hu ha (.inr hfree))
      ⟨first, hfirst, h.fits_of_isFree hfdata ha (.inr hfree)⟩
  by_cases hfits : a.fitsAll = true
  · have haissued := issued_of_lookup ha
    exact iff_of_true (h.fits_of_acceptsAll (issued_of_lookup hu) haissued (.inr hfits))
      ⟨first, hfirst, h.fits_of_acceptsAll (hissued first hfirst) haissued (.inr hfits)⟩
  by_cases hnull : a = .nullDefault
  · -- both sides are asked of `null` instead
    subst hnull
    rw [h.fits_nullDefault (issued_of_lookup hu),
      h.union_fits_of_plain hu h.lookup_null nofun rfl (by decide) (by decide) (by decide)]
    exact exists_congr fun m =>
      and_congr_right fun hm => (h.fits_nullDefault (hissued m hm)).symm
  by_cases hnone : a = .uninitialized
  · subst hnone
    rw [h.fits_uninitialized (issued_of_lookup hu),
      h.union_fits_of_plain hu h.lookup_undefined nofun rfl (by decide) (by decide) (by decide)]
    exact exists_congr fun m =>
      and_congr_right fun hm => (h.fits_uninitialized (hissued m hm)).symm
  · exact h.union_fits_of_plain hu ha hno (Bool.eq_false_iff.mpr hfree)
      (Bool.eq_false_iff.mpr hfits) hnull hnone

/-- A union fits where all of its members do. -/
theorem fits_union_iff (h : t.WellFormed) (hu : t.lookup u = some (.union members))
    (he : t.Issued e) : t.Fits e u ↔ ∀ m ∈ members, t.Fits e m := by
  have hissued : ∀ m ∈ members, t.Issued m := fun m hm => h.issued_part hu hm
  obtain ⟨parent, hparent⟩ := issued_iff.mp he
  by_cases hne : e = u
  · -- each member is one of the members that are expected
    subst hne
    refine iff_of_true (h.fits_refl e) fun m hm => ?_
    obtain ⟨mdata, hmdata⟩ := issued_iff.mp (hissued m hm)
    have hsingle := (h.flat_union hu).single m hm
    refine (h.union_fits_iff hu hmdata ?_).mpr ⟨m, hm, h.fits_refl m⟩
    rintro inner rfl
    rw [unionMembers?_eq_some.mpr hmdata] at hsingle
    cases hsingle
  by_cases hfree : parent.isFree = true
  · refine iff_of_true (h.fits_of_isFree hparent hu (.inl hfree)) fun m hm => ?_
    obtain ⟨mdata, hmdata⟩ := issued_iff.mp (hissued m hm)
    exact h.fits_of_isFree hparent hmdata (.inl hfree)
  by_cases hacc : e.acceptsAll = true
  · exact iff_of_true (h.fits_of_acceptsAll he (issued_of_lookup hu) (.inl hacc)) fun m hm =>
      h.fits_of_acceptsAll he (hissued m hm) (.inl hacc)
  · have hspecial : u.acceptsAll = false := h.acceptsAll_eq_false hu nofun
    rw [h.fits_iff_structure hne hparent hu ⟨Bool.eq_false_iff.mpr hfree, rfl⟩
      ⟨Bool.eq_false_iff.mpr hacc, fitsAll_eq_false hspecial⟩
      (not_sentinel hspecial).1 (not_sentinel hspecial).2, checkStructure, checkEach_eq_ok]
    rfl

/-! ## What a union is made of -/

theorem fits_iff_unionParts (h : t.WellFormed) (he : t.Issued e) (m : TypeId) :
    t.Fits e m ↔ ∀ part ∈ t.unionParts m, t.Fits e part := by
  unfold unionParts
  split
  · next inner hm => exact h.fits_union_iff hm he
  · simp

theorem unionParts_fits_iff (h : t.WellFormed) (ha : t.Issued a)
    (hno : ∀ inner, t.lookup a ≠ some (.union inner)) (m : TypeId) :
    t.Fits m a ↔ ∃ part ∈ t.unionParts m, t.Fits part a := by
  obtain ⟨child, hchild⟩ := issued_iff.mp ha
  unfold unionParts
  split
  · next inner hm =>
    refine h.union_fits_iff hm hchild ?_
    rintro inner rfl
    exact hno inner hchild
  · simp

theorem height_unionParts (h : t.WellFormed) {m part : TypeId}
    (hp : part ∈ t.unionParts m) : t.height part ≤ t.height m := by
  unfold unionParts at hp
  split at hp
  · next inner hm => exact Nat.le_of_lt (h.height_lt ⟨_, hm, hp⟩)
  · exact Nat.le_of_eq (congrArg t.height (List.mem_singleton.mp hp))

theorem unionParts_ne_nil (h : t.WellFormed) (m : TypeId) : t.unionParts m ≠ [] := by
  unfold unionParts
  split
  · next inner hm =>
    rintro rfl
    exact absurd (h.flat_union hm).two_le (by simp)
  · simp

end WellFormed

/-- The members of a union of `members`. -/
def unionFlat (t : Table) (members : List TypeId) : List TypeId :=
  flatten t.unionMembers? members

theorem mem_unionFlat {t : Table} {members : List TypeId} {id : TypeId} :
    id ∈ t.unionFlat members ↔ ∃ m ∈ members, id ∈ t.unionParts m := by
  rw [unionFlat, mem_flatten, unionParts_eq]

theorem Extends.unionParts_eq {t u : Table} (h : t.Extends u) {id : TypeId}
    (hi : t.Issued id) : u.unionParts id = t.unionParts id := by
  simp only [unionParts, h.lookup_eq hi]

/-- A union of at least one type is its only member, or stored with its members. -/
theorem WellFormed.union_made {t t' : Table} (h : t.WellFormed) {members : List TypeId}
    (hne : members ≠ []) {u : TypeId} (hu : t.union members = (u, t')) :
    t.unionFlat members = [u] ∨ t'.lookup u = some (.union (t.unionFlat members)) := by
  rw [union_eq, ← unionFlat] at hu
  refine gather_made ?_ hu
  obtain ⟨m, hm⟩ := List.exists_mem_of_ne_nil _ hne
  obtain ⟨part, hp⟩ := List.exists_mem_of_ne_nil _ (h.unionParts_ne_nil m)
  exact List.ne_nil_of_mem (mem_unionFlat.mpr ⟨m, hm, hp⟩)

theorem WellFormed.isSubtype_iff {t : Table} (h : t.WellFormed) {e a : TypeId}
    (hh : t.height e + t.height a ≤ 254) : t.isSubtype e a = true ↔ t.Fits e a := by
  rw [isSubtype, isOk_iff, h.check_eq_checkFully hh, Fits]

end Table

section Join

variable {t t' : Table} {members : List TypeId} {u e a : TypeId}

namespace Table

theorem WellFormed.of_union (h : t.WellFormed) (hm : ∀ m ∈ members, t.Issued m)
    (hu : t.union members = (u, t')) : t'.WellFormed ∧ t.Extends t' := by
  have hgrows := h.grows_union hm
  rw [hu] at hgrows
  exact ⟨hgrows.wellFormed, hgrows.extend⟩

/-- In the table with the union, its parts are what the members contribute. -/
theorem WellFormed.mem_unionFlat_iff (h : t.WellFormed) (hm : ∀ m ∈ members, t.Issued m)
    (hu : t.union members = (u, t')) {part : TypeId} :
    part ∈ t.unionFlat members ↔ ∃ m ∈ members, part ∈ t'.unionParts m := by
  have hx := (h.of_union hm hu).2
  rw [mem_unionFlat]
  refine exists_congr fun m => and_congr_right fun hmem => ?_
  rw [hx.unionParts_eq (hm m hmem)]

theorem WellFormed.fits_union_made (h : t.WellFormed) (hne : members ≠ [])
    (hm : ∀ m ∈ members, t.Issued m) (hu : t.union members = (u, t')) (he : t'.Issued e) :
    t'.Fits e u ↔ ∀ m ∈ members, t'.Fits e m := by
  have hwf := (h.of_union hm hu).1
  calc t'.Fits e u
      ↔ ∀ part ∈ t.unionFlat members, t'.Fits e part := by
        rcases h.union_made hne hu with hone | hstored
        · simp [hone]
        · exact hwf.fits_union_iff hstored he
    _ ↔ ∀ m ∈ members, ∀ part ∈ t'.unionParts m, t'.Fits e part := by
        simp only [h.mem_unionFlat_iff hm hu]
        exact ⟨fun hall m hmem part hp => hall part ⟨m, hmem, hp⟩,
          fun hall part ⟨m, hmem, hp⟩ => hall m hmem part hp⟩
    _ ↔ ∀ m ∈ members, t'.Fits e m :=
        forall₂_congr fun m _ => (hwf.fits_iff_unionParts he m).symm

theorem WellFormed.union_made_fits (h : t.WellFormed) (hne : members ≠ [])
    (hm : ∀ m ∈ members, t.Issued m) (hu : t.union members = (u, t')) (ha : t'.Issued a)
    (hno : ∀ inner, t'.lookup a ≠ some (.union inner)) :
    t'.Fits u a ↔ ∃ m ∈ members, t'.Fits m a := by
  have hwf := (h.of_union hm hu).1
  obtain ⟨child, hchild⟩ := issued_iff.mp ha
  calc t'.Fits u a
      ↔ ∃ part ∈ t.unionFlat members, t'.Fits part a := by
        rcases h.union_made hne hu with hone | hstored
        · simp [hone]
        · exact hwf.union_fits_iff hstored hchild fun inner hi => hno inner (hi ▸ hchild)
    _ ↔ ∃ m ∈ members, ∃ part ∈ t'.unionParts m, t'.Fits part a := by
        simp only [h.mem_unionFlat_iff hm hu]
        exact ⟨fun ⟨part, ⟨m, hmem, hp⟩, hf⟩ => ⟨m, hmem, part, hp, hf⟩,
          fun ⟨m, hmem, part, hp, hf⟩ => ⟨part, ⟨m, hmem, hp⟩, hf⟩⟩
    _ ↔ ∃ m ∈ members, t'.Fits m a :=
        exists_congr fun m => and_congr_right fun _ => (hwf.unionParts_fits_iff ha hno m).symm

/-- A union is at most one level higher than what it is made of. -/
theorem WellFormed.height_union_made (h : t.WellFormed) (hne : members ≠ [])
    (hm : ∀ m ∈ members, t.Issued m) (hu : t.union members = (u, t')) {bound : Nat}
    (hb : ∀ m ∈ members, t'.height m ≤ bound) : t'.height u ≤ bound + 1 := by
  have hwf := (h.of_union hm hu).1
  have hparts : ∀ part ∈ t.unionFlat members, t'.height part ≤ bound := by
    intro part hp
    obtain ⟨m, hmem, hpart⟩ := (h.mem_unionFlat_iff hm hu).mp hp
    exact Nat.le_trans (hwf.height_unionParts hpart) (hb m hmem)
  rcases h.union_made hne hu with hone | hstored
  · exact Nat.le_succ_of_le (hparts u (by simp [hone]))
  · exact hwf.height_le hstored fun part hp => Nat.lt_succ_of_le (hparts part hp)

end Table

end Join

/-- A union is a join: it fits where all the types it is made of fit, and what is no union itself
fits it where it fits one of them. -/
theorem union_is_join {t t' : Table} (h : Reachable t) {members : List TypeId}
    (hne : members ≠ []) (hm : ∀ m ∈ members, t.Issued m) {u : TypeId}
    (hu : t.union members = (u, t')) {e a : TypeId} (he : t'.Issued e) (ha : t'.Issued a)
    (hh : t'.height e + t'.height a + (members.map t'.height).sum ≤ 250) :
    (t'.isSubtype e u = true ↔ ∀ m ∈ members, t'.isSubtype e m = true) ∧
    ((∀ inner, t'.lookup a ≠ some (.union inner)) →
      (t'.isSubtype u a = true ↔ ∃ m ∈ members, t'.isSubtype m a = true)) := by
  have hwf := h.wellFormed
  have hwf' := (hwf.of_union hm hu).1
  have hmembers : ∀ m ∈ members, t'.height m ≤ 250 - t'.height e - t'.height a := by
    intro m hmem
    have hsum : t'.height m ≤ (members.map t'.height).sum :=
      List.le_sum_of_mem (List.mem_map_of_mem hmem)
    omega
  have hunion := hwf.height_union_made hne hm hu hmembers
  constructor
  · rw [hwf'.isSubtype_iff (by omega), hwf.fits_union_made hne hm hu he]
    refine forall₂_congr fun m hmem => ?_
    have hheight := hmembers m hmem
    rw [hwf'.isSubtype_iff (by omega)]
  · intro hno
    rw [hwf'.isSubtype_iff (by omega), hwf.union_made_fits hne hm hu ha hno]
    refine exists_congr fun m => and_congr_right fun hmem => ?_
    have hheight := hmembers m hmem
    rw [hwf'.isSubtype_iff (by omega)]

/-- A union of a union, a sentinel and an array, against that union and another sentinel. -/
theorem union_is_join_nullableStrings :
    let t := (nullableStrings.union [⟨19⟩, .nullDefault, ⟨20⟩]).2
    nullableStrings.union [⟨19⟩, .nullDefault, ⟨20⟩] = (⟨21⟩, t) ∧
      (t.isSubtype ⟨19⟩ ⟨21⟩ = true ↔
        ∀ m ∈ [⟨19⟩, .nullDefault, ⟨20⟩], t.isSubtype ⟨19⟩ m = true) ∧
      (t.isSubtype ⟨21⟩ .uninitialized = true ↔
        ∃ m ∈ [⟨19⟩, .nullDefault, ⟨20⟩], t.isSubtype m .uninitialized = true) := by
  intro t
  have hu : nullableStrings.union [⟨19⟩, .nullDefault, ⟨20⟩] = (⟨21⟩, t) :=
    Prod.ext (by decide) rfl
  have hlit : t.lookup .uninitialized = some (.literal "%Void%%Uninitialized" true) := rfl
  have hh : t.height ⟨19⟩ + t.height .uninitialized +
      ([⟨19⟩, .nullDefault, ⟨20⟩].map t.height).sum ≤ 250 := by decide
  have hjoin := union_is_join reachable_nullableStrings (by simp) (by decide) hu
    (by decide : t.Issued ⟨19⟩) (by decide : t.Issued .uninitialized) hh
  refine ⟨hu, hjoin.1, hjoin.2 fun inner hi => ?_⟩
  rw [hlit] at hi
  cases hi

end HeaderCheck.Types
