import HeaderCheck.Proofs.Types.Filtering

/-!
# HeaderCheck.Proofs.Types.Alternatives

What the union of two types accepts, a fallback for `null` and `undefined` among them.

* `members_union2`: its members are those of both types.
* `isSubtype_of_members`: a type accepts what has no members but its own.
* `members_fallback`: of the type that has a fallback, only `null` and `undefined` may be missing.
* `takes_of_kept`: so nothing else is lost, but what a variable without a value accepts, and what is
  compared down to the last level.
* `union_loses_level`: comparisons down to the last level exist.
-/

namespace HeaderCheck.Types
namespace Table

variable {t u : Table} {id m g a b : TypeId}

/-! ## Members of a union -/

theorem members_eq_unionParts (t : Table) (id : TypeId) : t.members id = t.unionParts id := by
  rw [unionParts_eq]
  rfl

theorem members_extends (hx : t.Extends u) (hid : t.Issued id) : u.members id = t.members id := by
  rw [members, members, hx.unionMembers?_eq hid]

/-- The members of a type are issued, and are no unions. -/
theorem WellFormed.member (h : t.WellFormed) (hid : t.Issued id) (hm : m ∈ t.members id) :
    t.Issued m ∧ t.unionMembers? m = none := by
  cases hunion : t.unionMembers? id with
  | none =>
    rw [members, hunion] at hm
    cases List.mem_singleton.mp hm
    exact ⟨hid, hunion⟩
  | some members =>
    have hd := unionMembers?_eq_some.mp hunion
    rw [members_union hd] at hm
    exact ⟨h.issued_part hd hm, (h.flat_union hd).single m hm⟩

/-- The members of the union of two types are those of both. -/
theorem WellFormed.members_union2 (h : t.WellFormed) (ha : t.Issued a) (hb : t.Issued b) :
    m ∈ (t.union2 a b).2.members (t.union2 a b).1 ↔ m ∈ t.members a ∨ m ∈ t.members b := by
  have hboth : ∀ m, m ∈ t.unionFlat [a, b] ↔ m ∈ t.members a ∨ m ∈ t.members b := by
    simp [mem_unionFlat, members_eq_unionParts]
  have hgrows : t.Grows (t.union2 a b) := h.grows_union (by simp [ha, hb])
  have hmade : t.union [a, b] = ((t.union2 a b).1, (t.union2 a b).2) := rfl
  rw [← hboth]
  rcases h.union_made (List.cons_ne_nil a [b]) hmade with hone | hstored
  · have hmember : (t.union2 a b).1 ∈ t.members a ∨ (t.union2 a b).1 ∈ t.members b :=
      (hboth _).mp (hone ▸ List.mem_singleton_self _)
    obtain ⟨hissued, hsingle⟩ := hmember.elim (h.member ha) (h.member hb)
    rw [members_extends hgrows.extend hissued, members, hsingle, hone]
    rfl
  · rw [members_union hstored]

/-- A type accepts what has no members but its own. -/
theorem WellFormed.isSubtype_of_members (h : t.WellFormed) (hid : t.Issued id)
    (hsub : ∀ m ∈ t.members g, m ∈ t.members id) : t.isSubtype id g = true := by
  by_cases hsame : id = g
  · subst hsame
    exact isSubtype_of_checkLevels (by decide : 1 ≤ maxLevels) (checkLevels_self 0 id)
  cases hunion : t.unionMembers? id with
  | none =>
    -- a single member leaves no room for a union
    have hall : ∀ m ∈ t.members g, m = id := by simpa [members, hunion] using hsub
    cases hparts : t.unionMembers? g with
    | none => exact absurd (hall g (by simp [members, hparts])).symm hsame
    | some parts =>
      have hflat := h.flat_union (unionMembers?_eq_some.mp hparts)
      have hconst : parts = List.replicate parts.length id :=
        List.eq_replicate_of_mem fun m hm => hall m (by simpa [members, hparts] using hm)
      have hnodup := hflat.nodup
      rw [hconst, List.nodup_replicate] at hnodup
      exact absurd hflat.two_le (by omega)
  | some members =>
    have hd := unionMembers?_eq_some.mp hunion
    rw [members_union hd] at hsub
    cases hparts : t.unionMembers? g with
    | none =>
      have hm := hsub g (by simp [Table.members, hparts])
      exact isSubtype_of_checkLevels (by decide : 3 ≤ maxLevels) (h.union_takes_member hd hm 0)
    | some parts =>
      have hg := unionMembers?_eq_some.mp hparts
      rw [members_union hg] at hsub
      exact isSubtype_of_checkLevels (by decide : 4 ≤ maxLevels)
        (h.takes_union hid hg fun part hpart => h.union_takes_member hd (hsub part hpart) 0)

/-- An ordinary type is accepted where a member accepts it with one level less. -/
theorem WellFormed.isSubtype_of_member (h : t.WellFormed) (hg : t.Ordinary g) (hm : m ∈ t.members id)
    (hok : t.checkLevels (maxLevels - 1) m g = .ok ()) : t.isSubtype id g = true := by
  refine isSubtype_of_checkLevels (by decide : maxLevels - 1 + 1 ≤ maxLevels) ?_
  cases hunion : t.unionMembers? id with
  | none =>
    rw [members, hunion] at hm
    cases List.mem_singleton.mp hm
    exact checkLevels_succ hok
  | some members =>
    have hd := unionMembers?_eq_some.mp hunion
    exact (h.union_takes_iff hd hg).mpr ⟨m, members_union hd ▸ hm, hok⟩

/-! ## Fallbacks -/

theorem WellFormed.ordinary_of_isSubstantial (h : t.WellFormed) (hg : t.isSubstantial g = true) :
    t.Ordinary g := by
  obtain ⟨child, hchild, hsolid, -⟩ := h.solid_of_isSubstantial hg
  exact h.ordinary_of_solid hchild hsolid

theorem isSubstantial_extends (hx : t.Extends u) (hg : t.Issued g) (h : t.isSubstantial g = true) :
    u.isSubstantial g = true := by
  rw [isSubstantial, hx.lookup_eq hg]
  exact h

/-- A type without `null` and `undefined`, if it is anything then. -/
def withoutNullish (t : Table) (id : TypeId) : TypeId × Table :=
  (t.removeNullish? id).getD (id, t)

theorem WellFormed.grows_withoutNullish (h : t.WellFormed) (hid : t.Issued id) :
    t.Grows (t.withoutNullish id) := by
  rw [withoutNullish]
  cases hmade : t.removeNullish? id with
  | none => exact grows_self h hid
  | some made =>
    obtain ⟨members, -, hwf, hx, hissued, -⟩ := filter?_eq_some h hmade
    exact ⟨hwf, hx, hissued⟩

/-- Only members that are `null` or `undefined` are dropped. -/
theorem WellFormed.members_withoutNullish (h : t.WellFormed) (hm : m ∈ t.members id)
    (hkept : m.isNullish = false) : m ∈ (t.withoutNullish id).2.members (t.withoutNullish id).1 := by
  rw [withoutNullish]
  cases hmade : t.removeNullish? id with
  | none => exact hm
  | some made =>
    rw [Option.getD_some, h.members_filter? hmade, List.mem_filter, hkept]
    exact ⟨hm, rfl⟩

/-- A type or, where that is `null` or `undefined`, a fallback. -/
def fallback (t : Table) (id other : TypeId) : TypeId × Table :=
  (t.withoutNullish id).2.union2 (t.withoutNullish id).1 other

theorem WellFormed.grows_fallback (h : t.WellFormed) (ha : t.Issued a) (hb : t.Issued b) :
    t.Grows (t.fallback a b) := by
  have hrest := h.grows_withoutNullish ha
  exact hrest.trans (hrest.wellFormed.grows_union (by simp [hrest.issued, hrest.extend.issued hb]))

/-- A type with a fallback has the members of the fallback, and its own that are neither `null` nor
`undefined`. -/
theorem WellFormed.members_fallback (h : t.WellFormed) (ha : t.Issued a) (hb : t.Issued b) :
    (∀ m ∈ t.members b, m ∈ (t.fallback a b).2.members (t.fallback a b).1) ∧
      ∀ m ∈ t.members a, m.isNullish = false → m ∈ (t.fallback a b).2.members (t.fallback a b).1 := by
  have hrest := h.grows_withoutNullish ha
  have hb' := hrest.extend.issued hb
  constructor
  · intro m hm
    rw [← members_extends hrest.extend hb] at hm
    exact (hrest.wellFormed.members_union2 hrest.issued hb').mpr (.inr hm)
  · intro m hm hkept
    exact (hrest.wellFormed.members_union2 hrest.issued hb').mpr (.inl (h.members_withoutNullish hm hkept))

/-- A type that has all members of another one but `null` and `undefined` accepts what that one does and
is neither. The exceptions are what a variable without a value accepts, and what a type that is no union
accepts with all levels only. -/
theorem WellFormed.takes_of_kept (h : t.WellFormed)
    (hkept : ∀ m ∈ t.members a, m.isNullish = false → m ∈ t.members b) (hg : t.isSubstantial g = true)
    (hok : t.isSubtype a g = true) : t.isSubtype b g = true ∨
      (∃ m ∈ t.members a, m ∉ t.members b ∧ m.growsFreely = true ∧ t.isSubtype m g = true) ∨
      t.unionMembers? a = none ∧ t.checkLevels (maxLevels - 1) a g ≠ .ok () := by
  have hord := h.ordinary_of_isSubstantial hg
  have htakes : (∃ m ∈ t.members a, t.checkLevels (maxLevels - 1) m g = .ok ()) ∨
      t.unionMembers? a = none ∧ t.checkLevels (maxLevels - 1) a g ≠ .ok () := by
    cases hunion : t.unionMembers? a with
    | none =>
      by_cases hlast : t.checkLevels (maxLevels - 1) a g = .ok ()
      · exact .inl ⟨a, by simp [members, hunion], hlast⟩
      · exact .inr ⟨rfl, hlast⟩
    | some members =>
      have hd := unionMembers?_eq_some.mp hunion
      rw [isSubtype, isOk_iff, check_eq_checkLevels] at hok
      exact .inl (members_union hd ▸ (h.union_takes_iff hd hord).mp hok)
  rcases htakes with ⟨m, hm, hok⟩ | hlast
  · by_cases hleft : m ∈ t.members b
    · exact .inl (h.isSubtype_of_member hord hleft hok)
    have hfits := isSubtype_of_checkLevels (by decide) hok
    refine .inr (.inl ⟨m, hm, hleft, ?_, hfits⟩)
    have hnullish : m.isNullish = true := by
      by_contra hno
      exact hleft (hkept m hm (Bool.eq_false_iff.mpr hno))
    have hvalue := fun hm => h.not_value_of_takes hg hm (h.fits_of_isSubtype hfits)
    simp only [TypeId.isNullish, TypeId.growsFreely, Bool.or_eq_true, decide_eq_true_eq] at hnullish ⊢
    tauto
  · exact .inr (.inr hlast)

end Table

/-! ## The last level -/

open Table

/-- Two types that are compared down to the given level, in all later tables too. The first is no union,
and the second is neither `null` nor `undefined`. -/
structure Deep (t : Table) (levels : Nat) (a g : TypeId) : Prop where
  reachable : Reachable t
  issued : t.Issued a ∧ t.Issued g
  single : t.unionMembers? a = none
  substantial : t.isSubstantial g = true
  differs : a ≠ g
  takes : t.checkLevels (levels + 1) a g = .ok ()
  refuses : ∀ u, u.WellFormed → t.Extends u → u.checkLevels levels a g ≠ .ok ()

/-- Tuples of one element are compared by it, with one level less. -/
theorem checkLevels_single {t : Table} (h : t.WellFormed) {a g first second : TypeId}
    (hfirst : t.lookup first = some (.tuple [a])) (hsecond : t.lookup second = some (.tuple [g]))
    (hne : first ≠ second) (levels : Nat) :
    t.checkLevels (levels + 1) first second = .ok () ↔ t.checkLevels levels a g = .ok () := by
  rw [checkLevels_eq_structure hfirst hsecond hne ⟨rfl, rfl⟩
    ⟨h.acceptsAll_eq_false hfirst nofun, h.acceptsAll_eq_false hsecond nofun⟩]
  change checkEach (fun pair => t.checkLevels levels pair.1 pair.2) [(a, g)] = Except.ok () ↔ _
  rw [checkEach_eq_ok, List.forall_mem_singleton]

/-- Types of any depth exist. -/
theorem exists_deep (levels : Nat) : ∃ t a g, Deep t levels a g := by
  induction levels with
  | zero =>
    exact ⟨.initial, .any, .string, .refl, by decide, rfl, rfl, by decide, by decide,
      fun _ _ _ => throw_ne_ok⟩
  | succ levels ih =>
    obtain ⟨t, a, g, h⟩ := ih
    -- each type alone in a tuple
    let one := t.add (.tuple [a])
    let two := one.2.add (.tuple [g])
    have hone : t.Grows one :=
      grows_add h.reachable.wellFormed (by simp [TypeData.parts, h.issued.1]) trivial
    have hg : one.2.Issued g := hone.extend.issued h.issued.2
    have htwo : one.2.Grows two := grows_add hone.wellFormed (by simp [TypeData.parts, hg]) trivial
    have hfirst : two.2.lookup one.1 = some (.tuple [a]) := htwo.extend _ _ (lookup_add_self t _)
    have hsecond : two.2.lookup two.1 = some (.tuple [g]) := lookup_add_self one.2 _
    have hne : one.1 ≠ two.1 := by
      intro he
      rw [he, hsecond] at hfirst
      cases hfirst
      exact h.differs rfl
    have hx := hone.extend.trans htwo.extend
    have hlevels : ∀ u, u.WellFormed → two.2.Extends u → ∀ levels,
        u.checkLevels (levels + 1) one.1 two.1 = .ok () ↔ u.checkLevels levels a g = .ok () :=
      fun u hu hx => checkLevels_single hu (hx _ _ hfirst) (hx _ _ hsecond) hne
    refine ⟨two.2, one.1, two.1, ?_, ⟨issued_of_lookup hfirst, htwo.issued⟩, ?_, ?_, hne, ?_, ?_⟩
    · exact .step (.tuple [g]) (.step (.tuple [a]) h.reachable (by simp [Operation.handles, h.issued.1]))
        (by simpa [Operation.handles] using hg)
    · rw [unionMembers?, hfirst]
    · rw [isSubstantial, hsecond]
    · exact (hlevels two.2 htwo.wellFormed (.refl _) _).mpr (checkLevels_extends hx h.takes)
    · intro u hu hxu hok
      exact h.refuses u hu (hx.trans hxu) ((hlevels u hu hxu levels).mp hok)

/-- A union needs a level for itself: with a second member a type may accept less. -/
theorem union_loses_level : ∃ t a g, Reachable t ∧ t.Issued a ∧ t.isSubstantial g = true ∧
    t.isSubtype a g = true ∧ (t.union2 a .null).2.isSubtype (t.union2 a .null).1 g = false := by
  obtain ⟨t, a, g, h⟩ := exists_deep (maxLevels - 1)
  have hwf := h.reachable.wellFormed
  have hnull : t.Issued .null := issued_of_lookup hwf.lookup_null
  have hgrows : t.Grows (t.union2 a .null) := hwf.grows_union (by simp [h.issued.1, hnull])
  refine ⟨t, a, g, h.reachable, h.issued.1, h.substantial, isSubtype_of_checkLevels le_rfl h.takes, ?_⟩
  rw [Bool.eq_false_iff]
  intro hok
  have hmembers : ∀ m, m ∈ (t.union2 a .null).2.members (t.union2 a .null).1 ↔ m = a ∨ m = .null := by
    intro m
    rw [hwf.members_union2 h.issued.1 hnull, members_single hwf.lookup_null nofun, members, h.single]
    simp
  have hvalue := hgrows.wellFormed.not_value_of_takes
    (isSubstantial_extends hgrows.extend h.issued.2 h.substantial) (.inl rfl)
  have hfits := isSubtype_extends hgrows.extend (isSubtype_of_checkLevels le_rfl h.takes)
  cases hunion : (t.union2 a .null).2.unionMembers? (t.union2 a .null).1 with
  | none =>
    -- the only member would be both types
    simp only [members, hunion, Option.getD_none, List.mem_singleton] at hmembers
    have hsame : a = .null := ((hmembers a).mpr (.inl rfl)).trans ((hmembers .null).mpr (.inr rfl)).symm
    subst hsame
    exact hvalue (hgrows.wellFormed.fits_of_isSubtype hfits)
  | some members =>
    have hd := unionMembers?_eq_some.mp hunion
    have hord := (hwf.ordinary_of_isSubstantial h.substantial).extend hgrows.extend
    rw [isSubtype, isOk_iff, check_eq_checkLevels] at hok
    obtain ⟨m, hm, hok⟩ := (hgrows.wellFormed.union_takes_iff hd hord).mp hok
    rcases (hmembers m).mp (members_union hd ▸ hm) with rfl | rfl
    · exact h.refuses _ hgrows.wellFormed hgrows.extend hok
    · exact hvalue (hgrows.wellFormed.checkFully_of_checkLevels hok)

end HeaderCheck.Types
