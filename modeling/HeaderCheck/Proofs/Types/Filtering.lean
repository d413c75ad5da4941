import HeaderCheck.Proofs.Types.Acceptance
import HeaderCheck.Proofs.Types.Required

/-!
# HeaderCheck.Proofs.Types.Filtering

What a union accepts after some of its members were dropped.

* `takes_filter?`: what a union accepts is accepted by what is left of it, unless a dropped member accepts
  it and none that is left does. A member is asked with one level less than the union, so no level is missing
  for what is left. `isSubtype_filter?` says so of each part of what is accepted.
* `truthiness_keeps`, `typeof_keeps`: narrowing knows a member by its handle or its form, so it may drop
  members that accept values of the kind that it keeps. They say which.
-/

namespace HeaderCheck.Types
namespace Table

variable {t : Table} {id m g : TypeId} {parent : TypeData}

/-! ## What is left of a union -/

theorem checkLevels_mono {levels more : Nat} (hle : levels ≤ more)
    (h : t.checkLevels levels m g = .ok ()) : t.checkLevels more m g = .ok () := by
  induction hle with
  | refl => exact h
  | step _ ih => exact checkLevels_succ ih

theorem checkLevels_self (levels : Nat) (m : TypeId) : t.checkLevels (levels + 1) m m = .ok () := by
  rw [checkLevels, checkPair, if_pos rfl]
  rfl

theorem checkLevels_acceptsAll (hm : t.Issued m) (hg : t.Issued g) (hall : m.acceptsAll = true)
    (levels : Nat) : t.checkLevels (levels + 1) m g = .ok () := by
  obtain ⟨parent, hparent⟩ := issued_iff.mp hm
  obtain ⟨child, hchild⟩ := issued_iff.mp hg
  rw [checkLevels, checkPair, hparent, hchild]
  simp only [checkData, hall, Bool.true_or, if_true]
  split
  · rfl
  · split <;> rfl

theorem isSubtype_of_checkLevels {levels : Nat} (hle : levels ≤ maxLevels)
    (h : t.checkLevels levels m g = .ok ()) : t.isSubtype m g = true := by
  rw [isSubtype, isOk_iff, check_eq_checkLevels]
  exact checkLevels_mono hle h

theorem WellFormed.fits_of_isSubtype (h : t.WellFormed) (hok : t.isSubtype m g = true) : t.Fits m g := by
  rw [isSubtype, isOk_iff, check_eq_checkLevels] at hok
  exact h.checkFully_of_checkLevels hok

section Sentinels

variable {s value : TypeId} {levels : Nat}

theorem acceptsAll_sentinelValues (hs : (s, value) ∈ sentinelValues) : s.acceptsAll = true := by
  have hall : ∀ entry ∈ sentinelValues, entry.1.acceptsAll = true := by decide
  exact hall _ hs

theorem WellFormed.ordinary_sentinelValues (h : t.WellFormed) (hs : (s, value) ∈ sentinelValues) :
    t.Ordinary value := by
  obtain ⟨-, v, name, hd⟩ := h.lookup_sentinelValues hs
  exact h.ordinary_of_solid hd trivial

/-- Where nothing else decides, a sentinel is compared as its value, with one level less. -/
theorem WellFormed.checkLevels_sentinel (h : t.WellFormed) (hs : (s, value) ∈ sentinelValues)
    (hm : t.lookup m = some parent) (hfree : parent.isFree = false) (hall : m.acceptsAll = false) :
    t.checkLevels (levels + 1) m s = t.checkLevels levels m value := by
  have hne : m ≠ s := by
    rintro rfl
    rw [acceptsAll_sentinelValues hs] at hall
    cases hall
  obtain ⟨⟨name, hd⟩, -⟩ := h.lookup_sentinelValues hs
  rw [checkLevels, checkPair, if_neg hne, hm, hd]
  change t.checkData (t.checkLevels levels) m s parent (.literal name true) = _
  simp only [sentinelValues, List.mem_cons, Prod.mk.injEq, List.not_mem_nil, or_false] at hs
  rcases hs with ⟨rfl, rfl⟩ | ⟨rfl, rfl⟩
  · rw [checkData, if_neg (by rw [hfree]; exact Bool.false_ne_true), if_neg (by rw [hall]; decide),
      if_pos rfl]
  · rw [checkData, if_neg (by rw [hfree]; exact Bool.false_ne_true), if_neg (by rw [hall]; decide),
      if_neg (by decide), if_pos rfl]

/-- What accepts the value of a sentinel accepts the sentinel, with one more level. -/
theorem WellFormed.takes_sentinel (h : t.WellFormed) (hs : (s, value) ∈ sentinelValues)
    (hm : t.Issued m) (hok : t.checkLevels levels m value = .ok ()) :
    t.checkLevels (levels + 1) m s = .ok () := by
  obtain ⟨parent, hparent⟩ := issued_iff.mp hm
  obtain ⟨⟨name, hd⟩, -⟩ := h.lookup_sentinelValues hs
  by_cases hall : m.acceptsAll = true
  · exact checkLevels_acceptsAll hm (issued_of_lookup hd) hall levels
  by_cases hfree : parent.isFree = true
  · rw [checkLevels, checkPair, hparent, hd]
    simp only [checkData, hfree, Bool.true_or, if_true]
    split <;> rfl
  · rw [h.checkLevels_sentinel hs hparent (Bool.eq_false_iff.mpr hfree) (Bool.eq_false_iff.mpr hall)]
    exact hok

end Sentinels

section Members

variable {members parts kept : List TypeId} {levels : Nat}

/-- A type that a union accepts only where a member does, or a sentinel that counts as one. -/
def ByMembers (t : Table) (g : TypeId) : Prop :=
  t.Ordinary g ∨ ∃ value, (g, value) ∈ sentinelValues

/-- A union is neither `Any` nor `Mixed`. -/
theorem WellFormed.isAnyLike_union (h : t.WellFormed) (hid : t.lookup id = some (.union members)) :
    id.isAnyLike = false := by
  by_contra hlike
  simp only [TypeId.isAnyLike, Bool.not_eq_false, Bool.or_eq_true, decide_eq_true_eq] at hlike
  rcases hlike with rfl | rfl <;> cases (h.builtin rfl).symm.trans hid

/-- A union accepts an ordinary type where a member does with one level less. -/
theorem WellFormed.union_takes_iff (h : t.WellFormed) (hid : t.lookup id = some (.union members))
    (hg : t.Ordinary g) : t.checkLevels (levels + 1) id g = .ok () ↔
      ∃ m ∈ members, t.checkLevels levels m g = .ok () := by
  obtain ⟨child, hchild, hfree, hall, hno⟩ := hg
  have hne : id ≠ g := by
    rintro rfl
    cases hid.symm.trans hchild
    exact hno members rfl
  rw [checkLevels_eq_structure hid hchild hne ⟨rfl, hfree⟩ ⟨h.acceptsAll_eq_false hid nofun, hall⟩,
    checkStructure, passesAny_eq_ok, or_iff_left throw_ne_ok]
  exact hno

/-- A union fits another one where all its members do, with one level less. -/
theorem WellFormed.union_takes_parts (h : t.WellFormed) (hid : t.lookup id = some (.union members))
    (hg : t.lookup g = some (.union parts)) (hne : id ≠ g)
    (hok : t.checkLevels (levels + 1) id g = .ok ()) :
    ∀ part ∈ parts, t.checkLevels levels id part = .ok () := by
  rw [h.checkLevels_structure hid hg hne nofun nofun ⟨rfl, rfl⟩, checkStructure, checkEach_eq_ok] at hok
  exact hok

/-- A union fits wherever all its members do with one level less. -/
theorem WellFormed.takes_union (h : t.WellFormed) (hm : t.Issued m)
    (hg : t.lookup g = some (.union parts))
    (hok : ∀ part ∈ parts, t.checkLevels levels m part = .ok ()) :
    t.checkLevels (levels + 1) m g = .ok () := by
  obtain ⟨parent, hparent⟩ := issued_iff.mp hm
  have hall : g.acceptsAll = false := h.acceptsAll_eq_false hg nofun
  obtain ⟨hnull, hnone⟩ := not_sentinel hall
  rw [checkLevels, checkPair]
  split
  · rfl
  rw [hparent, hg]
  simp only [checkData, hnull, hnone, if_false, checkStructure]
  split
  · rfl
  split
  · rfl
  · exact checkEach_eq_ok.mpr hok

theorem WellFormed.members_of_byMembers (h : t.WellFormed) (hg : t.ByMembers g) : t.members g = [g] := by
  rcases hg with hord | ⟨value, hs⟩
  · exact hord.members_eq
  · obtain ⟨⟨name, hd⟩, -⟩ := h.lookup_sentinelValues hs
    exact members_single hd nofun

theorem WellFormed.lacks_cases (h : t.WellFormed) {tag : String} (hg : t.Lacks tag g) :
    t.ByMembers g ∨ ∃ members, t.lookup g = some (.union members) ∧ ∀ m ∈ members, t.Lacks tag m := by
  cases hg with
  | kind hk =>
    obtain ⟨child, hd⟩ := lookup_of_kind? hk
    exact .inl (.inl (h.ordinary_of_solid hd (h.solid_of_kind? hd hk)))
  | name hname =>
    obtain ⟨name, hd, hall⟩ := h.lookup_nameTags hname
    exact .inl (.inl (h.ordinary_of_solid hd ⟨rfl, hall⟩))
  | sentinel hs => exact .inl (.inr ⟨_, hs⟩)
  | renamed hd | intersection hd =>
    exact .inl (.inl ⟨_, hd, rfl, h.acceptsAll_eq_false hd nofun, nofun⟩)
  | union hd hmembers => exact .inr ⟨_, hd, hmembers⟩

/-- The parts of a type without values of a tag have none either. -/
theorem WellFormed.lacks_part (h : t.WellFormed) {tag : String} (hg : t.Lacks tag g)
    (hm : m ∈ t.members g) : t.Lacks tag m ∧ t.ByMembers m := by
  rcases h.lacks_cases hg with hsingle | ⟨members, hd, hmembers⟩
  · rw [h.members_of_byMembers hsingle, List.mem_singleton] at hm
    exact hm ▸ ⟨hg, hsingle⟩
  · rw [members_union hd] at hm
    refine ⟨hmembers m hm, (h.lacks_cases (hmembers m hm)).resolve_right ?_⟩
    rintro ⟨inner, hd', -⟩
    cases ((h.flat_union hd).single m hm).symm.trans (unionMembers?_eq_some.mpr hd')

/-- What is left when the members of a union are filtered. -/
theorem filter?_eq_some (h : t.WellFormed) {keep : TypeId → Bool} {made : TypeId × Table}
    (hmade : t.filter? id keep = some made) :
    ∃ members, t.lookup id = some (.union members) ∧ made.2.WellFormed ∧ t.Extends made.2 ∧
      made.2.Issued made.1 ∧ (members.filter keep = [made.1] ∨
        made.2.lookup made.1 = some (.union (members.filter keep))) := by
  obtain ⟨hne, rfl⟩ := filter?_cases hmade
  cases hunion : t.unionMembers? id with
  | none =>
    -- a type that is no union is kept or dropped as a whole
    simp only [filter?, members, hunion, Option.getD_none] at hmade
    by_cases hkeep : keep id = true <;> simp [hkeep] at hmade
  | some members =>
    have hid := unionMembers?_eq_some.mp hunion
    simp only [Table.members, hunion, Option.getD_some] at hne ⊢
    have hsub : ∀ m ∈ members.filter keep, m ∈ members := fun m hm => (List.mem_filter.mp hm).1
    have hgrows := h.grows_union fun m hm => h.issued_part hid (hsub m hm)
    have hflat := h.flat_union hid
    have hkept : t.unionFlat (members.filter keep) = members.filter keep :=
      flatten_of_single (hflat.nodup.filter _) fun m hm => hflat.single m (hsub m hm)
    have hcases := h.union_made hne (u := (t.union (members.filter keep)).1) rfl
    rw [hkept] at hcases
    exact ⟨members, hid, hgrows.wellFormed, hgrows.extend, hgrows.issued, hcases⟩

/-- What is left of a union accepts an ordinary type where a member that is left does. -/
theorem WellFormed.left_takes (h : t.WellFormed)
    (hleft : kept = [id] ∨ t.lookup id = some (.union kept)) (hg : t.Ordinary g)
    (hok : ∃ m ∈ kept, t.checkLevels levels m g = .ok ()) : t.checkLevels (levels + 1) id g = .ok () := by
  rcases hleft with rfl | hstored
  · obtain ⟨m, hm, hok⟩ := hok
    rw [← List.mem_singleton.mp hm]
    exact checkLevels_succ hok
  · exact (h.union_takes_iff hstored hg).mpr hok

/-- An ordinary type that a union accepts is accepted after filtering, unless a dropped member accepts it
and none that is left does. -/
theorem WellFormed.takes_filter? (h : t.WellFormed) {keep : TypeId → Bool} {made : TypeId × Table}
    (hmade : t.filter? id keep = some made) (hg : t.Ordinary g)
    (hok : t.checkLevels (levels + 1) id g = .ok ()) :
    made.2.checkLevels (levels + 1) made.1 g = .ok () ∨
      ∃ m ∈ t.members id, keep m = false ∧ t.checkLevels levels m g = .ok () ∧
        ∀ kept ∈ t.members id, keep kept = true → t.checkLevels levels kept g ≠ .ok () := by
  obtain ⟨members, hid, hwf, hx, -, hleft⟩ := filter?_eq_some h hmade
  rw [members_union hid]
  obtain ⟨m, hm, hok⟩ := (h.union_takes_iff hid hg).mp hok
  by_cases hkept : ∃ kept ∈ members.filter keep, t.checkLevels levels kept g = .ok ()
  · obtain ⟨kept, hkept, hok⟩ := hkept
    exact .inl (hwf.left_takes hleft (hg.extend hx) ⟨kept, hkept, checkLevels_extends hx hok⟩)
  · simp only [List.mem_filter, not_exists, not_and] at hkept
    refine .inr ⟨m, hm, ?_, hok, fun kept hmem hkeep => hkept kept ⟨hmem, hkeep⟩⟩
    rw [Bool.eq_false_iff]
    exact fun hkeep => hkept m ⟨hm, hkeep⟩ hok

/-- A union accepts each of its members. -/
theorem WellFormed.union_takes_member (h : t.WellFormed) (hid : t.lookup id = some (.union members))
    (hm : m ∈ members) (levels : Nat) : t.checkLevels (levels + 3) id m = .ok () := by
  obtain ⟨child, hchild⟩ := issued_iff.mp (h.issued_part hid hm)
  have hsingle := (h.flat_union hid).single m hm
  have hno : ∀ inner, child ≠ .union inner := by
    rintro inner rfl
    cases hsingle.symm.trans (unionMembers?_eq_some.mpr hchild)
  have hne : id ≠ m := by
    rintro rfl
    cases hsingle.symm.trans (unionMembers?_eq_some.mpr hid)
  by_cases hs : ∃ value, (m, value) ∈ sentinelValues
  · obtain ⟨value, hs⟩ := hs
    obtain ⟨data, hdata, -⟩ := h.ordinary_sentinelValues hs
    rw [h.checkLevels_sentinel hs hid rfl (h.acceptsAll_eq_false hid nofun)]
    refine (h.union_takes_iff hid (h.ordinary_sentinelValues hs)).mpr ⟨m, hm, ?_⟩
    exact checkLevels_acceptsAll (h.issued_part hid hm) (issued_of_lookup hdata)
      (acceptsAll_sentinelValues hs) levels
  · have hnull : m ≠ .nullDefault := fun he => hs ⟨.null, he ▸ by decide⟩
    have hnone : m ≠ .uninitialized := fun he => hs ⟨.undefined, he ▸ by decide⟩
    rw [checkLevels, checkPair, if_neg hne, hid, hchild]
    simp only [checkData, hnull, hnone, if_false]
    split
    · rfl
    split
    · rfl
    · rw [checkStructure, passesAny_eq_ok]
      · exact .inl ⟨m, hm, checkLevels_self _ _⟩
      · exact hno

/-- What a union accepts is accepted after filtering, unless some part of it is accepted by a dropped
member, and if it is ordinary by none that is left. -/
theorem WellFormed.isSubtype_filter? (h : t.WellFormed) {keep : TypeId → Bool} {made : TypeId × Table}
    (hmade : t.filter? id keep = some made) (hg : ∀ part ∈ t.members g, t.ByMembers part)
    (hok : t.isSubtype id g = true) :
    made.2.isSubtype made.1 g = true ∨
      ∃ m ∈ t.members id, keep m = false ∧ ∃ part ∈ t.members g, t.isSubtype m part = true ∧
        (t.Ordinary part →
          ∀ kept ∈ t.members id, keep kept = true → t.checkLevels 254 kept part ≠ .ok ()) := by
  by_contra hnot
  obtain ⟨hfails, hlost⟩ := not_or.mp hnot
  obtain ⟨members, hid, hwf, hx, hissued, -⟩ := filter?_eq_some h hmade
  have hall : id.acceptsAll = false := h.acceptsAll_eq_false hid nofun
  -- a part that the union accepts is accepted after filtering
  have hpart : ∀ part ∈ t.members g, ∀ levels, 253 ≤ levels → levels + 2 ≤ maxLevels →
      t.checkLevels (levels + 2) id part = .ok () →
        made.2.checkLevels (levels + 2) made.1 part = .ok () := by
    intro part hpart levels hge hle hok
    rcases hg part hpart with hord | ⟨value, hs⟩
    · refine (h.takes_filter? hmade hord hok).resolve_right ?_
      rintro ⟨m, hm, hdropped, htakes, hnone⟩
      refine hlost ⟨m, hm, hdropped, part, hpart, isSubtype_of_checkLevels (by omega) htakes, ?_⟩
      exact fun _ kept hkept hkeep hok => hnone kept hkept hkeep (checkLevels_mono (by omega) hok)
    · rw [h.checkLevels_sentinel hs hid rfl hall] at hok
      refine hwf.takes_sentinel hs hissued
        ((h.takes_filter? hmade (h.ordinary_sentinelValues hs) hok).resolve_right ?_)
      rintro ⟨m, hm, hdropped, htakes, -⟩
      have hm' : t.Issued m := h.issued_part hid (members_union hid ▸ hm)
      refine hlost ⟨m, hm, hdropped, part, hpart,
        isSubtype_of_checkLevels (by omega) (h.takes_sentinel hs hm' htakes), ?_⟩
      exact fun hord => absurd (acceptsAll_sentinelValues hs) (by simp [hord.acceptsAll_eq])
  rw [isSubtype, isOk_iff, check_eq_checkLevels] at hok
  refine hfails (isSubtype_of_checkLevels le_rfl ?_)
  cases hunion : t.unionMembers? g with
  | none =>
    have hself : g ∈ t.members g := by simp [Table.members, hunion]
    exact hpart g hself 254 (by decide) (by decide) hok
  | some parts =>
    have hstored := unionMembers?_eq_some.mp hunion
    rw [members_union hstored] at hg hpart
    refine hwf.takes_union hissued (hx _ _ hstored) fun part hmem => ?_
    refine hpart part hmem 253 le_rfl (by decide) ?_
    by_cases hsame : id = g
    · cases hsame
      cases hid.symm.trans hstored
      exact h.union_takes_member hid hmem 252
    · exact h.union_takes_parts hid hstored hsame hok part hmem

/-- The members that are left are those that were kept. -/
theorem WellFormed.members_filter? (h : t.WellFormed) {keep : TypeId → Bool} {made : TypeId × Table}
    (hmade : t.filter? id keep = some made) : made.2.members made.1 = (t.members id).filter keep := by
  obtain ⟨members, hid, -, hx, -, hone | hstored⟩ := filter?_eq_some h hmade
  · have hmem : made.1 ∈ members := (List.mem_filter.mp (hone ▸ List.mem_singleton_self made.1)).1
    have hsingle := (h.flat_union hid).single made.1 hmem
    rw [← hx.unionMembers?_eq (h.issued_part hid hmem)] at hsingle
    rw [members_union hid, hone, Table.members, hsingle]
    rfl
  · rw [members_union hid, members_union hstored]

/-- A filter changes nothing when it keeps no member, or all. -/
theorem filter?_eq_none {keep : TypeId → Bool} (hnone : t.filter? id keep = none) :
    (t.members id).filter keep = [] ∨ (t.members id).filter keep = t.members id := by
  simp only [filter?] at hnone
  split at hnone
  · next hcond =>
    simp only [Bool.or_eq_true, List.isEmpty_iff, decide_eq_true_eq] at hcond
    exact hcond.imp_right (List.filter_sublist.eq_of_length ·)
  · cases hnone

/-- What a filter drops is no union itself, and is not left. -/
theorem WellFormed.dropped_by_filter? (h : t.WellFormed) {keep : TypeId → Bool} {made : TypeId × Table}
    (hmade : t.filter? id keep = some made) (hm : m ∈ t.members id) (hdropped : keep m = false) :
    m ∉ made.2.members made.1 ∧ ∃ parent, t.lookup m = some parent ∧ ∀ inner, parent ≠ .union inner := by
  constructor
  · simp [h.members_filter? hmade, hdropped]
  · obtain ⟨members, hid, -⟩ := filter?_eq_some h hmade
    rw [members_union hid] at hm
    obtain ⟨parent, hparent⟩ := issued_iff.mp (h.issued_part hid hm)
    refine ⟨parent, hparent, ?_⟩
    rintro inner rfl
    cases ((h.flat_union hid).single m hm).symm.trans (unionMembers?_eq_some.mpr hparent)

/-- For an ordinary type: unless a dropped member accepts it, what is left does. -/
theorem WellFormed.ordinary_filter? (h : t.WellFormed) {keep : TypeId → Bool} {made : TypeId × Table}
    (hmade : t.filter? id keep = some made) (hg : t.Ordinary g) (hok : t.isSubtype id g = true) :
    made.2.isSubtype made.1 g = true ∨
      ∃ m ∈ t.members id, m ∉ made.2.members made.1 ∧ keep m = false ∧ t.isSubtype m g = true ∧
        ∃ parent, t.lookup m = some parent ∧ ∀ inner, parent ≠ .union inner := by
  have hself := hg.members_eq
  have hparts : ∀ part ∈ t.members g, t.Ordinary part := by simpa [hself] using hg
  rcases h.isSubtype_filter? hmade (fun part hpart => .inl (hparts part hpart)) hok with
    hleft | ⟨m, hm, hdropped, part, hpart, hfits, -⟩
  · exact .inl hleft
  · rw [hself, List.mem_singleton] at hpart
    obtain ⟨hgone, hparent⟩ := h.dropped_by_filter? hmade hm hdropped
    exact .inr ⟨m, hm, hgone, hdropped, hpart ▸ hfits, hparent⟩

end Members

/-! ## The narrowings -/

/-- Of the tags of primitive types each belongs to one type, and to the sentinel that accepts all. -/
theorem WellFormed.takes_of_primitive (h : t.WellFormed) {tag : String} (hm : (m, tag) ∈ handleTags)
    (hprimitive : tag ∉ ["function", "object"]) (hg : t.tag? g = some tag) (levels : Nat) :
    t.checkLevels (levels + 1) m g = .ok () := by
  have hk : ∃ k, t.kind? g = some k ∧ k.typeof = tag := by
    unfold tag? at hg
    split at hg
    · rw [Option.ite_none_right_eq_some] at hg
      obtain ⟨-, ⟨⟩⟩ := hg
      exact absurd (by simp) hprimitive
    · exact Option.map_eq_some_iff.mp hg
  obtain ⟨k, hk, rfl⟩ := hk
  have hself : ∀ fixed, (fixed, k) ∈ [(TypeId.string, ValueKind.string), (.number, .number),
      (.boolean, .boolean), (.regExp, .regExp), (.null, .null), (.undefined, .undefined)] →
      t.checkLevels (levels + 1) fixed g = .ok () := by
    intro fixed hfixed
    rw [(eq_iff_of_kind? h.extends_initial hk fixed k hfixed).mpr rfl]
    exact checkLevels_self levels fixed
  simp only [handleTags, List.mem_cons, Prod.mk.injEq, List.not_mem_nil, or_false] at hm
  cases k with
  | string | number | boolean =>
    simp only [ValueKind.typeof, String.reduceEq, and_true, and_false, or_false, false_or] at hm
    rw [hm]
    exact hself _ (by simp)
  | undefined =>
    simp only [ValueKind.typeof, String.reduceEq, and_true, and_false, or_false, false_or] at hm
    rcases hm with rfl | rfl
    · exact hself _ (by simp)
    · obtain ⟨child, hchild⟩ := lookup_of_kind? hk
      exact checkLevels_acceptsAll (issued_of_lookup (h.builtin rfl)) (issued_of_lookup hchild) (by decide) _
  | _ => exact absurd (by simp [ValueKind.typeof]) hprimitive

end Table

open Table in
/-- Narrowing by truthiness keeps what a type accepts. Among the values that may be falsy the exceptions
are those that only a dropped loose type accepts, or `void`; among the others, those that only a variable
without a value accepts. -/
theorem truthiness_keeps {t : Table} (h : Reachable t) {id g : TypeId} (hok : t.isSubtype id g = true) :
    (g ∈ [TypeId.null, .undefined, .string, .number, .boolean] → ∀ made, t.falsyPart? id = some made →
      made.2.isSubtype made.1 g = true ∨
        ∃ m ∈ t.members id, m ∉ made.2.members made.1 ∧ t.isSubtype m g = true ∧
          (t.Loose m ∨ m = .void)) ∧
    (t.isSubstantial g = true → ∀ made, t.removeNullish? id = some made →
      made.2.isSubtype made.1 g = true ∨
        ∃ m ∈ t.members id, m ∉ made.2.members made.1 ∧ t.isSubtype m g = true ∧
          m.growsFreely = true) := by
  have hwf := h.wellFormed
  constructor
  · intro hg made hmade
    have hprimitive : ∃ tag, (g, tag) ∈ handleTags ∧ g.acceptsAll = false := by
      simp only [List.mem_cons, List.not_mem_nil, or_false] at hg
      rcases hg with rfl | rfl | rfl | rfl | rfl
      · exact ⟨"object", by decide⟩
      · exact ⟨"undefined", by decide⟩
      · exact ⟨"string", by decide⟩
      · exact ⟨"number", by decide⟩
      · exact ⟨"boolean", by decide⟩
    obtain ⟨tag, htag, hall⟩ := hprimitive
    rcases hwf.ordinary_filter? hmade (hwf.ordinary_of_handleTags htag hall) hok with
      hleft | ⟨m, hm, hgone, hdropped, hfits, parent, hparent, hno⟩
    · exact .inl hleft
    refine .inr ⟨m, hm, hgone, hfits, ?_⟩
    refine (hwf.primitive_takes h.selfNamed hparent hno htag hall (hwf.fits_of_isSubtype hfits)).resolve_left ?_
    -- the types of falsy values are kept themselves
    rintro rfl
    have hkept : ∀ g ∈ [TypeId.null, .undefined, .string, .number, .boolean],
        (g.isNullish || g.isAnyLike || g = .string || g = .number || g = .boolean) = true := by decide
    rw [hkept m hg] at hdropped
    cases hdropped
  · intro hg made hmade
    obtain ⟨child, hchild, hsolid, -⟩ := hwf.solid_of_isSubstantial hg
    rcases hwf.ordinary_filter? hmade (hwf.ordinary_of_solid hchild hsolid) hok with
      hleft | ⟨m, hm, hgone, hdropped, hfits, -⟩
    · exact .inl hleft
    refine .inr ⟨m, hm, hgone, hfits, ?_⟩
    have hno := fun hm => hwf.not_value_of_takes hg hm (hwf.fits_of_isSubtype hfits)
    simp only [Bool.not_eq_false', TypeId.isNullish, Bool.or_eq_true, decide_eq_true_eq] at hdropped
    simp only [TypeId.growsFreely, Bool.or_eq_true, decide_eq_true_eq]
    tauto

/-- The table after `String | null | {}` was made. -/
def textOrObject : Table :=
  (Operation.union [.string, .null, .emptyObject]).after .initial

theorem reachable_textOrObject : Reachable textOrObject :=
  .step _ .refl (by decide)

/-- Of `String | null | {}` the part that may be falsy takes `null`, and the rest takes objects. -/
theorem truthiness_keeps_textOrObject :
    (∃ made, textOrObject.falsyPart? ⟨19⟩ = some made ∧ made.2.isSubtype made.1 .null = true) ∧
      ∃ made, textOrObject.removeNullish? ⟨19⟩ = some made ∧
        made.2.isSubtype made.1 .emptyObject = true := by
  have hr := reachable_textOrObject
  constructor
  · obtain ⟨made, hmade⟩ := Option.isSome_iff_exists.mp
      (by decide : (textOrObject.falsyPart? ⟨19⟩).isSome = true)
    refine ⟨made, hmade, ?_⟩
    refine ((truthiness_keeps hr (by decide +kernel)).1 (by decide) made hmade).resolve_right ?_
    cases hmade
    rintro ⟨m, hm, hgone, hfits, -⟩
    revert m
    decide +kernel
  · obtain ⟨made, hmade⟩ := Option.isSome_iff_exists.mp
      (by decide : (textOrObject.removeNullish? ⟨19⟩).isSome = true)
    refine ⟨made, hmade, ?_⟩
    refine ((truthiness_keeps hr (by decide +kernel)).2 (by decide) made hmade).resolve_right ?_
    cases hmade
    rintro ⟨m, hm, hgone, hfits, -⟩
    revert m
    decide +kernel

/-- The table after a union of `first` and `second` was made. -/
def unionOf (first second : TypeId) : Table :=
  (Operation.union [first, second]).after .initial

/-- A variable that was set to `null`, or a string, takes a number. A string alone does not. -/
theorem truthiness_drops_sentinel :
    let t := unionOf .nullDefault .string
    Reachable t ∧ t.lookup ⟨19⟩ = some (.union [.nullDefault, .string]) ∧
      t.isSubtype ⟨19⟩ .number = true ∧ t.removeNullish? ⟨19⟩ = some (.string, t) ∧
      t.isSubtype .string .number = false :=
  ⟨.step _ .refl (by decide), by decide, by decide +kernel, rfl, by decide +kernel⟩

open Table in
/-- Narrowing by `typeof` keeps what a union accepts, among the types of which each part has the tag, and
those without values of the tag. The exceptions are what a dropped member accepts that is loose, or is a
name that accepts more than its tag tells. Among primitive types with the tag there is no exception. -/
theorem typeof_keeps {t : Table} (h : Reachable t) {id g : TypeId} {members : List TypeId}
    (hid : t.lookup id = some (.union members)) (hok : t.isSubtype id g = true) (tag : String) :
    ((∀ part ∈ t.members g, t.tag? part = some tag) →
      ∀ made, t.narrowByTypeof? id tag true = some made →
        made.2.isSubtype made.1 g = true ∨
          tag ∈ ["function", "object"] ∧ ∃ m ∈ members, m ∉ made.2.members made.1 ∧
            (t.Loose m ∨ (m, tag) ∈ [(TypeId.object, "function"), (.array, "object")]) ∧
            ∃ part ∈ t.members g, t.isSubtype m part = true) ∧
    (t.Lacks tag g → ∀ made, t.narrowByTypeof? id tag false = some made →
      made.2.isSubtype made.1 g = true ∨
        ∃ m ∈ members, m ∉ made.2.members made.1 ∧
          (m, tag) ∈ [(TypeId.uninitialized, "undefined"), (.nullDefault, "object"), (.object, "object")] ∧
          ∃ part ∈ t.members g, t.isSubtype m part = true) := by
  have hwf := h.wellFormed
  have hall : t.members id = members := members_union hid
  simp only [narrowByTypeof?, hwf.isAnyLike_union hid, Bool.false_eq_true, if_false]
  constructor
  · intro hparts made hmade
    have hordinary : ∀ part ∈ t.members g, t.Ordinary part :=
      fun part hpart => hwf.ordinary_of_tag? (hparts part hpart)
    rcases hwf.isSubtype_filter? hmade (fun part hpart => .inl (hordinary part hpart)) hok with
      hleft | ⟨m, hm, hdropped, part, hpart, hfits, hnone⟩
    · exact .inl hleft
    obtain ⟨hgone, parent, hparent, hno⟩ := hwf.dropped_by_filter? hmade hm hdropped
    have htag := hparts part hpart
    have hprimitive : tag ∈ ["function", "object"] := by
      by_contra hprimitive
      -- something with the tag is left, and accepts the part
      obtain ⟨kept, hkept⟩ := List.exists_mem_of_ne_nil _ (filter?_cases hmade).1
      obtain ⟨hkept, hkeep⟩ := List.mem_filter.mp hkept
      rcases matchesTypeof_iff.mp (beq_iff_eq.mp hkeep) with hhandle | hform
      · exact hnone (hordinary part hpart) kept hkept hkeep
          (hwf.takes_of_primitive hhandle hprimitive htag 253)
      · exact hprimitive (formTag?_mem hform)
    refine .inr ⟨hprimitive, m, hall ▸ hm, hgone, ?_, part, hpart, hfits⟩
    rcases hwf.tag_takes h.selfNamed hparent hno htag (hwf.fits_of_isSubtype hfits) with
      hloose | hmatch | hlenient
    · exact .inl hloose
    · rw [hmatch] at hdropped
      cases hdropped
    · rcases List.mem_cons.mp hlenient with he | hlenient
      · cases he
        exact absurd hprimitive (by decide)
      · exact .inr hlenient
  · intro hlacks made hmade
    rcases hwf.isSubtype_filter? hmade (fun part hpart => (hwf.lacks_part hlacks hpart).2) hok with
      hleft | ⟨m, hm, hdropped, part, hpart, hfits, -⟩
    · exact .inl hleft
    obtain ⟨hgone, parent, hparent, hno⟩ := hwf.dropped_by_filter? hmade hm hdropped
    have hmatch : t.matchesTypeof m tag = true := by simpa using hdropped
    exact .inr ⟨m, hall ▸ hm, hgone, hwf.takes_lacking h.selfNamed hparent hno hmatch
      (hwf.lacks_part hlacks hpart).1 (hwf.fits_of_isSubtype hfits), part, hpart, hfits⟩

/-- Of `String | null | {}` the part with the tag `object` takes `null` and objects, and the other part
takes strings. -/
theorem typeof_keeps_textOrObject :
    (∃ made, textOrObject.narrowByTypeof? ⟨19⟩ "object" true = some made ∧
      made.2.isSubtype made.1 .emptyObject = true) ∧
      ∃ made, textOrObject.narrowByTypeof? ⟨19⟩ "object" false = some made ∧
        made.2.isSubtype made.1 .string = true := by
  have hr := reachable_textOrObject
  have hid : textOrObject.lookup ⟨19⟩ = some (.union [.string, .null, .emptyObject]) := by decide
  constructor
  · obtain ⟨made, hmade⟩ := Option.isSome_iff_exists.mp
      (by decide : (textOrObject.narrowByTypeof? ⟨19⟩ "object" true).isSome = true)
    have hparts : ∀ part ∈ textOrObject.members .emptyObject,
        textOrObject.tag? part = some "object" := by decide
    refine ⟨made, hmade, ?_⟩
    refine ((typeof_keeps hr hid (by decide +kernel) "object").1 hparts made hmade).resolve_right ?_
    cases hmade
    rintro ⟨-, m, hm, hgone, -, part, hpart, hfits⟩
    cases List.mem_singleton.mp hpart
    revert m
    decide +kernel
  · obtain ⟨made, hmade⟩ := Option.isSome_iff_exists.mp
      (by decide : (textOrObject.narrowByTypeof? ⟨19⟩ "object" false).isSome = true)
    have hlacks : textOrObject.Lacks "object" .string := .kind (k := .string) (by decide) (by decide)
    refine ⟨made, hmade, ?_⟩
    refine ((typeof_keeps hr hid (by decide +kernel) "object").2 hlacks made hmade).resolve_right ?_
    cases hmade
    rintro ⟨m, hm, hgone, -, part, hpart, hfits⟩
    cases List.mem_singleton.mp hpart
    revert m
    decide +kernel

/-- A variable without a value, or a number, takes a string, which is not `undefined`. A number alone does
not. -/
theorem typeof_drops_sentinel :
    let t := unionOf .uninitialized .number
    Reachable t ∧ t.lookup ⟨19⟩ = some (.union [.uninitialized, .number]) ∧
      t.tag? .string = some "string" ∧ t.isSubtype ⟨19⟩ .string = true ∧
      t.narrowByTypeof? ⟨19⟩ "undefined" false = some (.number, t) ∧
      t.isSubtype .number .string = false :=
  ⟨.step _ .refl (by decide), by decide, by decide, by decide +kernel, rfl, by decide +kernel⟩

end HeaderCheck.Types
