import HeaderCheck.Proofs.Types.History

/-!
# HeaderCheck.Proofs.Types.Lens

Reading and replacing parts of types as a lens.

* `Table.Replaced t part root path whole`: `whole` is `root` with `part` at the end of `path`, level
  by level. It says what a replacement gives along a path without members of unions and intersections
  (`replaced_of_replaceAt?`, `Replaced.replaceAt?_eq`), and every law is an induction on it.
* `Table.LensLaws`: the laws of one replacement, whatever was made after it.

A part that is replaced by itself changes nothing on any path (`replaceAt?_self`), since a union is
made again from its own members. The other laws fail there: equal members become one, so members move.
-/

namespace HeaderCheck.Types
namespace Table

/-- `whole` is `root` with `part` at the end of a path without members. -/
inductive Replaced (t : Table) (part : TypeId) :
    (root : TypeId) → List Step → (whole : TypeId) → Prop where
  | here {root : TypeId} : Replaced t part root [] part
  | inside {root child changed whole : TypeId} {data : TypeData} {step : Step} {path : List Step} :
      t.lookup root = some data → partAt? data step = some child → step.isMember = false →
      Replaced t part child path changed → t.lookup whole = some (withPart data step changed) →
      Replaced t part root (step :: path) whole

variable {t u : Table} {root part other whole : TypeId} {path : List Step}

theorem replaceable_of_replaceAt? {made : TypeId × Table} (h : t.replaceAt? root path part = some made) :
    t.Replaceable root path := by
  rw [← isSome_replaceAt?, h]
  rfl

/-! ## Replacing by the same -/

/-- Where a path fits there is a part, and putting that part in its place gives back the whole. -/
theorem WellFormed.replaceAt?_self (h : t.WellFormed) (hfits : t.Replaceable root path) :
    ∃ part, t.typeAt? root path = some part ∧ t.replaceAt? root path part = some (root, t) := by
  induction path generalizing root with
  | nil => exact ⟨root, rfl, rfl⟩
  | cons step path ih =>
    obtain ⟨data, child, hdata, hchild, hfits⟩ := hfits
    obtain ⟨part, hpart, hsame⟩ := ih hfits
    refine ⟨part, ?_, replaceAt?_cons_eq_some.mpr ⟨data, child, child, t, hdata, hchild, hsame, ?_⟩⟩
    · rw [typeAt?, childAt?_of_lookup hdata (isRenamed_of_partAt? hdata hchild), hchild]
      exact hpart
    · rw [setPart_eq_make hchild, withPart_self hchild, h.make_of_lookup hdata]

/-! ## What a replacement gives -/

theorem Replaced.extend (hx : t.Extends u) (h : t.Replaced part root path whole) :
    u.Replaced part root path whole := by
  induction h with
  | here => exact .here
  | inside hdata hchild hplain _ hwhole ih =>
    exact .inside (hx _ _ hdata) hchild hplain ih (hx _ _ hwhole)

theorem replaced_of_replaceAt? {made : TypeId × Table} (hpath : ∀ step ∈ path, step.isMember = false)
    (hmade : t.replaceAt? root path part = some made) : made.2.Replaced part root path made.1 := by
  induction path generalizing root made with
  | nil =>
    cases hmade
    exact .here
  | cons step path ih =>
    obtain ⟨hstep, hpath⟩ := List.forall_mem_cons.mp hpath
    obtain ⟨data, child, changed, t₁, hdata, hchild, hchanged, rfl⟩ := replaceAt?_cons_eq_some.mp hmade
    have hx := extends_setPart t₁ data step changed
    have hbelow := (extends_replaceAt? hchanged).trans hx
    rw [setPart_eq_add hchild hstep] at hx hbelow ⊢
    have hinner := (ih hpath hchanged).extend hx
    exact .inside (hbelow _ _ hdata) hchild hstep hinner (lookup_add_self t₁ _)

namespace Replaced

/-- What a replacement would make is there already. -/
theorem replaceAt?_eq (h : t.WellFormed) (hr : t.Replaced part root path whole) :
    t.replaceAt? root path part = some (whole, t) := by
  induction hr with
  | here => rfl
  | inside hdata hchild hplain _ hwhole ih =>
    refine replaceAt?_cons_eq_some.mpr ⟨_, _, _, t, hdata, hchild, ih, ?_⟩
    rw [setPart_eq_add hchild hplain]
    exact h.add_of_lookup hwhole

theorem unique (h : t.WellFormed) (hr : t.Replaced part root path whole)
    (hr' : t.Replaced part root path other) : whole = other := by
  have hsame := hr.replaceAt?_eq h
  rw [hr'.replaceAt?_eq h] at hsame
  cases hsame
  rfl

/-! ## The laws -/

/-- The part that was put in place is read there. -/
theorem typeAt?_eq (hr : t.Replaced part root path whole) : t.typeAt? whole path = some part := by
  induction hr with
  | here => rfl
  | @inside root child changed whole data step path _ hchild _ _ hwhole ih =>
    have hchanged : partAt? (withPart data step changed) step = some changed := partAt?_withPart hchild
    rw [typeAt?, childAt?_of_lookup hwhole (isRenamed_of_partAt? hwhole hchanged), hchanged]
    exact ih

/-- What lies elsewhere is read as before. -/
theorem typeAt?_elsewhere (hr : t.Replaced part root path whole) {place : List Step}
    (hpath : ¬ path <+: place) (hplace : ¬ place <+: path) :
    t.typeAt? whole place = t.typeAt? root place := by
  induction hr generalizing place with
  | here => exact absurd List.nil_prefix hpath
  | @inside root child changed whole data step path hdata hchild _ _ hwhole ih =>
    cases place with
    | nil => exact absurd List.nil_prefix hplace
    | cons first place =>
      have hchanged : partAt? (withPart data step changed) step = some changed :=
        partAt?_withPart hchild
      rw [typeAt?, typeAt?, childAt?_of_lookup hwhole (isRenamed_of_partAt? hwhole hchanged),
        childAt?_of_lookup hdata (isRenamed_of_partAt? hdata hchild)]
      by_cases hsame : step = first
      · subst hsame
        rw [List.prefix_cons_inj] at hpath hplace
        rw [hchanged, hchild]
        exact ih hpath hplace
      · -- below another part nothing has changed
        rw [partAt?_withPart_of_ne hsame hchild]

/-- Of two replacements in one place the last one counts. -/
theorem replaceAt?_replaced (hr : t.Replaced part root path whole) (next : TypeId) :
    t.replaceAt? whole path next = t.replaceAt? root path next := by
  induction hr with
  | here => rfl
  | @inside root child changed whole data step path hdata hchild _ _ hwhole ih =>
    rw [replaceAt?, replaceAt?, hwhole, hdata]
    simp only [partAt?_withPart hchild, hchild, ih]
    cases t.replaceAt? child path next with
    | none => rfl
    | some made =>
      simp only [setPart_eq_make hchild, setPart_eq_make (partAt?_withPart hchild),
        withPart_withPart hchild]

/-- Replacements in different places give the same in either order. -/
theorem comm (h : t.WellFormed) {next made last : TypeId} {place : List Step}
    (hpath : ¬ path <+: place) (hplace : ¬ place <+: path) (hr : t.Replaced part root path whole)
    (hother : t.Replaced next root place made) (hlast : t.Replaced next whole place last) :
    t.Replaced part made path last := by
  induction hr generalizing place made last with
  | here => exact absurd List.nil_prefix hpath
  | @inside root child changed whole data step path hdata hchild hplain hbelow hwhole ih =>
    cases place with
    | nil => exact absurd List.nil_prefix hplace
    | cons first place =>
      cases hother with
      | @inside _ child' changed' _ _ _ _ hdata' hchild' _ hbelow' hmade =>
      cases hlast with
      | @inside _ child'' changed'' _ _ _ _ hwhole' hchild'' _ hbelow'' hlast =>
      cases hdata.symm.trans hdata'
      cases hwhole.symm.trans hwhole'
      by_cases hsame : step = first
      · -- both replacements go on below the same part
        subst hsame
        cases hchild.symm.trans hchild'
        cases (partAt?_withPart hchild).symm.trans hchild''
        rw [List.prefix_cons_inj] at hpath hplace
        refine .inside hmade (partAt?_withPart hchild) hplain (ih hpath hplace hbelow' hbelow'') ?_
        rw [withPart_withPart hchild] at hlast ⊢
        exact hlast
      · -- the other part is that of before, so it was replaced in the same way
        rw [partAt?_withPart_of_ne hsame hchild] at hchild''
        cases hchild'.symm.trans hchild''
        cases hbelow'.unique h hbelow''
        have hstep : partAt? (withPart data first changed') step = some child :=
          (partAt?_withPart_of_ne (Ne.symm hsame) hchild').trans hchild
        refine .inside hmade hstep hplain hbelow ?_
        rw [withPart_comm (Ne.symm hsame) hchild']
        exact hlast

end Replaced

/-- A replacement spares the paths that do not go through its place. -/
theorem spares_elsewhere {changed place : List Step}
    (hchanged : ∀ step ∈ changed, step.isMember = false) (h : ¬ changed <+: place) :
    spares changed place = true := by
  induction changed generalizing place with
  | nil => exact absurd List.nil_prefix h
  | cons step changed ih =>
    obtain ⟨hstep, hchanged⟩ := List.forall_mem_cons.mp hchanged
    cases place with
    | nil => rfl
    | cons first place =>
      rw [spares, hstep]
      by_cases hsame : step = first
      · subst hsame
        rw [List.prefix_cons_inj] at h
        simpa using ih hchanged h
      · simp [hsame]

/-- What holds of `whole`, which is `root` with `part` at the end of `path`. -/
structure LensLaws (t : Table) (root : TypeId) (path : List Step) (part whole : TypeId) : Prop where
  /-- The part that was put in place is read there. -/
  get : t.typeAt? whole path = some part
  /-- Nothing else has changed. -/
  elsewhere : ∀ place, ¬ path <+: place → ¬ place <+: path →
    t.typeAt? whole place = t.typeAt? root place
  /-- Of two replacements in one place the last one counts. -/
  overwrite : ∀ next, (t.replaceAt? whole path next).isSome ∧
    t.replaceAt? whole path next = t.replaceAt? root path next
  /-- So it is whenever the two were made. -/
  overwrite_later : ∀ next one other, t.Gave (.replaceAt whole path next) one →
    t.Gave (.replaceAt root path next) other → one = other
  /-- Replacements in different places can be made in either order, and come to the same. -/
  commute : ∀ place next made, (∀ step ∈ place, step.isMember = false) → ¬ path <+: place →
    ¬ place <+: path → t.Gave (.replaceAt root place next) made →
      (t.replaceAt? whole place next).isSome ∧ (t.replaceAt? made path part).isSome ∧
      ∀ one other, t.Gave (.replaceAt whole place next) one →
        t.Gave (.replaceAt made path part) other → one = other

theorem lensLaws_of_replaced (h : t.WellFormed) (hpath : ∀ step ∈ path, step.isMember = false)
    (hr : t.Replaced part root path whole) : t.LensLaws root path part whole where
  get := hr.typeAt?_eq
  elsewhere _ := hr.typeAt?_elsewhere
  overwrite next := by
    have hfits := replaceable_of_replaceAt? (hr.replaceAt?_eq h)
    exact ⟨hr.replaceAt?_replaced next ▸ isSome_replaceAt?.mpr hfits, hr.replaceAt?_replaced next⟩
  overwrite_later next one other hone hother := by
    have hsame : t.replaceAt? whole path next = some (one, t) := hone.again
    have hsame' : t.replaceAt? root path next = some (other, t) := hother.again
    rw [hr.replaceAt?_replaced next, hsame'] at hsame
    cases hsame
    rfl
  commute place next made hplain hapart hapart' hmade := by
    have hwhole := hr.replaceAt?_eq h
    have hmade' : t.replaceAt? root place next = some (made, t) := hmade.again
    have hthere : t.Replaceable whole place :=
      (replaceable_of_replaceAt? hmade').of_replaceAt? hwhole (spares_elsewhere hpath hapart)
    have hthere' : t.Replaceable made path :=
      (replaceable_of_replaceAt? hwhole).of_replaceAt? hmade' (spares_elsewhere hplain hapart')
    refine ⟨isSome_replaceAt?.mpr hthere, isSome_replaceAt?.mpr hthere', fun one other hone hother => ?_⟩
    have hother' : t.replaceAt? made path part = some (other, t) := hother.again
    have hlast := hr.comm h hapart hapart' (replaced_of_replaceAt? hplain hmade')
      (replaced_of_replaceAt? hplain hone.again)
    rw [hlast.replaceAt?_eq h] at hother'
    cases hother'
    rfl

end Table

open Table in
/-- Reading and replacing are a lens. Where a replacement is made there is a part, and putting that part
in its place gives back the whole. Unless the path leads through members of a union or an intersection,
the lens laws hold of what was made, and go on doing so in every later table. -/
theorem replacement_lens {t made u : Table} (h : Reachable t) {root part whole : TypeId}
    {path : List Step} (hroot : t.Issued root) (hpart : t.Issued part)
    (hmade : t.replaceAt? root path part = some (whole, made)) (hu : Reaches made u) :
    (∃ old, ∀ v, Reaches t v → v.typeAt? root path = some old ∧
      v.replaceAt? root path old = some (root, v)) ∧
    ((∀ step ∈ path, step.isMember = false) → u.LensLaws root path part whole) := by
  have hwf := h.wellFormed
  have hgrows := grows_replaceAt? hwf hroot hpart hmade
  obtain ⟨hwfu, hx⟩ := hu.wellFormed_extends hgrows.wellFormed
  refine ⟨?_, fun hpath =>
    lensLaws_of_replaced hwfu hpath ((replaced_of_replaceAt? hpath hmade).extend hx)⟩
  have hfits := replaceable_of_replaceAt? hmade
  obtain ⟨old, hold, -⟩ := hwf.replaceAt?_self hfits
  refine ⟨old, fun v hv => ?_⟩
  obtain ⟨hwfv, hxv⟩ := hv.wellFormed_extends hwf
  have holdv := typeAt?_extend hxv hold
  obtain ⟨found, hfound, hsame⟩ := hwfv.replaceAt?_self (hfits.extend hxv)
  cases holdv.symm.trans hfound
  exact ⟨holdv, hsame⟩

/-- The elements of `Array<String | null>` are made numbers, and then again what they were. -/
theorem replacement_lens_nullableStrings :
    let u := (Operation.replaceAt ⟨20⟩ [.typeArg 0] .number).after nullableStrings
    nullableStrings.replaceAt? ⟨20⟩ [.typeArg 0] .number = some (⟨21⟩, u) ∧
      u.typeAt? ⟨21⟩ [.typeArg 0] = some .number ∧
      u.replaceAt? ⟨21⟩ [.typeArg 0] ⟨19⟩ = some (⟨20⟩, u) := by
  intro u
  have hmade : nullableStrings.replaceAt? ⟨20⟩ [.typeArg 0] .number = some (⟨21⟩, u) := rfl
  have hlens := replacement_lens reachable_nullableStrings (by decide) (by decide) hmade .refl
  obtain ⟨old, hold⟩ := hlens.1
  have hlaws := hlens.2 (by decide)
  have hback := (hlaws.overwrite ⟨19⟩).2
  have hread := hold u (.step _ .refl (by decide))
  -- what was read before is the union
  cases hread.1.symm.trans (rfl : u.typeAt? ⟨20⟩ [.typeArg 0] = some ⟨19⟩)
  exact ⟨hmade, hlaws.get, hback.trans hread.2⟩

end HeaderCheck.Types
