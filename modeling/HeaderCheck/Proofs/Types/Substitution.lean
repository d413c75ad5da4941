import HeaderCheck.Proofs.Types.History
import HeaderCheck.Types.Format

/-!
# HeaderCheck.Proofs.Types.Substitution

A list of replacements, made one after the other, against all of them made at once.

* `Table.mapParts`: one level of a type with all of its parts exchanged.
* `Table.Substituted t bindings root whole`: `whole` is `root` with every located part replaced at once,
  each level being made once. It does not depend on the order of the bindings, and there is only one
  such type (`Substituted.perm`, `Substituted.unique`). What is put in outside unions and intersections is
  found where it was put (`Substituted.typeAt?_eq`).
* `Table.keeps`, `Table.steady`: a replacement leaves where they are the members of the unions and
  intersections that later locations lead into.

`Substituted.of_replaceAt?` is the step lemma and `substituted_instantiate` the run lemma:
replacements that are steady come to the substitution. They are steady when no two locations lead into one
union or intersection (`steady_of_spares`). Otherwise a union that is made again may be flattened or lose
members, and a later location leads somewhere else in it.
-/

namespace HeaderCheck.Types

/-! ## Locations -/

/-- The bindings that lie below a step, located from there. -/
def beneath (step : Step) (bindings : List (List Step × TypeId)) : List (List Step × TypeId) :=
  bindings.filterMap fun binding =>
    ([step].isPrefixOf? binding.1).map fun path => (path, binding.2)

/-- No location is the beginning of another. -/
def Apart (bindings : List (List Step × TypeId)) : Prop :=
  bindings.Pairwise fun a b => ¬ a.1 <+: b.1 ∧ ¬ b.1 <+: a.1

section Locations

variable {step : Step} {path : List Step} {type : TypeId}
  {bindings other : List (List Step × TypeId)}

theorem isPrefixOf?_singleton {location : List Step} :
    [step].isPrefixOf? location = some path ↔ location = step :: path := by
  rw [List.isPrefixOf?_eq_some_iff_append_eq, List.singleton_append, eq_comm]

@[simp]
theorem beneath_nil : beneath step [] = [] :=
  rfl

theorem beneath_cons_self :
    beneath step ((step :: path, type) :: bindings) = (path, type) :: beneath step bindings := by
  simp [beneath, isPrefixOf?_singleton.mpr]

theorem beneath_cons_of_ne {first : Step} (h : first ≠ step) :
    beneath step ((first :: path, type) :: bindings) = beneath step bindings := by
  simp [beneath, List.isPrefixOf?, Ne.symm h]

theorem mem_beneath : (path, type) ∈ beneath step bindings ↔ (step :: path, type) ∈ bindings := by
  simp [beneath]

theorem beneath_perm (h : bindings.Perm other) : (beneath step bindings).Perm (beneath step other) :=
  h.filterMap _

theorem Apart.perm (h : Apart bindings) (hperm : bindings.Perm other) : Apart other :=
  (hperm.pairwise_iff fun hab => hab.symm).mp h

theorem Apart.beneath (h : Apart bindings) : Apart (beneath step bindings) := by
  refine List.Pairwise.filterMap _ (fun a b hab a' ha' b' hb' => ?_) h
  obtain ⟨path, hpath, rfl⟩ := Option.map_eq_some_iff.mp ha'
  obtain ⟨path', hpath', rfl⟩ := Option.map_eq_some_iff.mp hb'
  rw [isPrefixOf?_singleton] at hpath hpath'
  simpa only [hpath, hpath', List.prefix_cons_inj] using hab

/-- A binding of the whole type is the only one. -/
theorem Apart.eq_singleton (h : Apart bindings) (hmem : ([], type) ∈ bindings) :
    bindings = [([], type)] := by
  obtain ⟨before, after, rfl⟩ := List.append_of_mem hmem
  obtain ⟨-, hafter, hbefore⟩ := List.pairwise_append.mp h
  have hnone : after = [] := by
    by_contra hne
    obtain ⟨b, hb⟩ := List.exists_mem_of_ne_nil _ hne
    exact (List.rel_of_pairwise_cons hafter hb).1 List.nil_prefix
  have hnone' : before = [] := by
    by_contra hne
    obtain ⟨b, hb⟩ := List.exists_mem_of_ne_nil _ hne
    exact (hbefore b hb _ List.mem_cons_self).2 List.nil_prefix
  rw [hnone, hnone', List.nil_append]

end Locations

namespace Table

/-! ## Levels -/

/-- One level of a type with the part that each step leads to exchanged for `part step`. -/
def mapParts (data : TypeData) (part : Step → TypeId) : TypeData :=
  match data with
  | .function shape =>
    .function
      { shape with
        params := shape.params.mapIdx fun i p => { p with type := part (.arg i) }
        this := shape.this.map fun _ => part .this
        result := part .result }
  | .generic base args => .generic base (args.mapIdx fun i _ => part (.typeArg i))
  | .object shape =>
    .object { shape with fields := shape.fields.mapIdx fun i f => { f with type := part (.field i) } }
  | .union members => .union (members.mapIdx fun i _ => part (.member i))
  | .intersection members => .intersection (members.mapIdx fun i _ => part (.member i))
  | .tuple elements => .tuple (elements.mapIdx fun i _ => part (.element i))
  | data => data

variable {t u : Table} {data : TypeData} {step : Step} {child changed root whole part next : TypeId}
  {path : List Step} {bindings rest : List (List Step × TypeId)} {parts parts' : Step → TypeId}

theorem mapIdx_congr {α : Type} {f g : Nat → α → α} {items : List α}
    (h : ∀ i x, items[i]? = some x → f i x = g i x) : items.mapIdx f = items.mapIdx g :=
  List.mapIdx_eq_mapIdx_iff.mpr fun i hi => h i items[i] (List.getElem?_eq_getElem hi)

theorem mapIdx_self {α : Type} {f : Nat → α → α} {items : List α}
    (h : ∀ i x, items[i]? = some x → f i x = x) : items.mapIdx f = items := by
  refine List.mapIdx_eq_iff.mpr fun i => ?_
  cases hx : items[i]? with
  | none => rfl
  | some x => exact congrArg some (h i x hx).symm

theorem mapIdx_modify {α : Type} {f : Nat → α → α} {g : α → α} {items : List α}
    (h : ∀ i x, f i (g x) = f i x) (i : Nat) : (items.modify i g).mapIdx f = items.mapIdx f := by
  refine List.ext_getElem? fun j => ?_
  rw [List.getElem?_mapIdx, List.getElem?_mapIdx, List.getElem?_modify]
  cases items[j]? with
  | none => simp
  | some x => split <;> simp [h]

theorem mapIdx_set {f : Nat → TypeId} {items : List TypeId} (i : Nat) (x : TypeId) :
    (items.set i x).mapIdx (fun j _ => f j) = items.mapIdx fun j _ => f j := by
  simp [List.set_eq_modify, mapIdx_modify]

/-- Only the parts that steps lead to count. -/
theorem mapParts_congr (h : ∀ step child, partAt? data step = some child → parts step = parts' step) :
    mapParts data parts = mapParts data parts' := by
  cases data with
  | function shape =>
    have hparams : shape.params.mapIdx (fun i p => { p with type := parts (.arg i) }) =
        shape.params.mapIdx (fun i p => { p with type := parts' (.arg i) }) :=
      mapIdx_congr fun i p hp => by rw [h (.arg i) p.type (by simp [partAt?, hp])]
    have hthis : shape.this.map (fun _ => parts .this) = shape.this.map (fun _ => parts' .this) :=
      Option.map_congr fun receiver hr => h .this receiver hr
    rw [mapParts, mapParts, hparams, hthis, h .result shape.result rfl]
  | generic base args =>
    rw [mapParts, mapParts, mapIdx_congr fun i arg ha => h (.typeArg i) arg ha]
  | object shape =>
    have hfields : shape.fields.mapIdx (fun i f => { f with type := parts (.field i) }) =
        shape.fields.mapIdx (fun i f => { f with type := parts' (.field i) }) :=
      mapIdx_congr fun i f hf => by rw [h (.field i) f.type (by simp [partAt?, hf])]
    rw [mapParts, mapParts, hfields]
  | union members | intersection members =>
    rw [mapParts, mapParts, mapIdx_congr fun i m hm => h (.member i) m hm]
  | tuple elements =>
    rw [mapParts, mapParts, mapIdx_congr fun i e he => h (.element i) e he]
  | _ => rfl

/-- Parts that stay the same leave the level as it is. -/
theorem mapParts_self (h : ∀ step child, partAt? data step = some child → parts step = child) :
    mapParts data parts = data := by
  cases data with
  | function shape =>
    have hparams : shape.params.mapIdx (fun i p => { p with type := parts (.arg i) }) =
        shape.params :=
      mapIdx_self fun i p hp => by rw [h (.arg i) p.type (by simp [partAt?, hp])]
    have hthis : shape.this.map (fun _ => parts .this) = shape.this := by
      cases hr : shape.this with
      | none => rfl
      | some receiver => exact congrArg some (h .this receiver hr)
    rw [mapParts, hparams, hthis, h .result shape.result rfl]
  | generic base args =>
    rw [mapParts, mapIdx_self fun i arg ha => h (.typeArg i) arg ha]
  | object shape =>
    have hfields : shape.fields.mapIdx (fun i f => { f with type := parts (.field i) }) =
        shape.fields :=
      mapIdx_self fun i f hf => by rw [h (.field i) f.type (by simp [partAt?, hf])]
    rw [mapParts, hfields]
  | union members | intersection members =>
    rw [mapParts, mapIdx_self fun i m hm => h (.member i) m hm]
  | tuple elements =>
    rw [mapParts, mapIdx_self fun i e he => h (.element i) e he]
  | _ => rfl

/-- What a part is exchanged for is found where the part was. -/
theorem partAt?_mapParts (h : partAt? data step = some child) (parts : Step → TypeId) :
    partAt? (mapParts data parts) step = some (parts step) := by
  unfold partAt? at h
  split at h
  case h_9 => cases h
  case h_3 => rfl
  case h_1 | h_5 =>
    obtain ⟨old, hold, -⟩ := Option.map_eq_some_iff.mp h
    simp [mapParts, partAt?, hold]
  all_goals simp [mapParts, partAt?, h]

/-- A part that was put in place is exchanged like the one that was there. -/
theorem mapParts_withPart (h : partAt? data step = some child) :
    mapParts (withPart data step part) parts = mapParts data parts := by
  unfold partAt? at h
  split at h
  case h_9 => cases h
  case h_1 | h_5 =>
    simp only [withPart, mapParts]
    rw [mapIdx_modify]
    exact fun _ _ => rfl
  case h_2 =>
    rw [withPart, mapParts, mapParts, h]
    rfl
  case h_3 => rfl
  all_goals rw [withPart, mapParts, mapParts, mapIdx_set]

theorem mem_mapIdx {α : Type} {f : Nat → α → α} {items : List α} {x : α} (h : x ∈ items.mapIdx f) :
    ∃ i y, items[i]? = some y ∧ x = f i y := by
  obtain ⟨i, hi, rfl⟩ := List.mem_mapIdx.mp h
  exact ⟨i, items[i], List.getElem?_eq_getElem hi, rfl⟩

/-- The parts of an exchanged level are the new ones, and the base of an applied type. -/
theorem mem_parts_mapParts {p : TypeId} (h : p ∈ (mapParts data parts).parts) :
    p ∈ data.parts ∨ ∃ step child, partAt? data step = some child ∧ p = parts step := by
  cases data with
  | function shape =>
    simp only [mapParts, TypeData.parts, List.mem_append, List.mem_map, List.mem_singleton,
      Option.mem_toList, Option.map_eq_some_iff] at h
    rcases h with (⟨param, hparam, rfl⟩ | ⟨receiver, hr, rfl⟩) | rfl
    · obtain ⟨i, old, hold, rfl⟩ := mem_mapIdx hparam
      exact .inr ⟨.arg i, old.type, by simp [partAt?, hold], rfl⟩
    · exact .inr ⟨.this, receiver, hr, rfl⟩
    · exact .inr ⟨.result, shape.result, rfl, rfl⟩
  | generic base args =>
    rcases List.mem_cons.mp h with rfl | h
    · exact .inl List.mem_cons_self
    · obtain ⟨i, old, hold, rfl⟩ := mem_mapIdx h
      exact .inr ⟨.typeArg i, old, hold, rfl⟩
  | object shape =>
    obtain ⟨field, hfield, rfl⟩ := List.mem_map.mp h
    obtain ⟨i, old, hold, rfl⟩ := mem_mapIdx hfield
    exact .inr ⟨.field i, old.type, by simp [partAt?, hold], rfl⟩
  | union members | intersection members =>
    obtain ⟨i, old, hold, rfl⟩ := mem_mapIdx h
    exact .inr ⟨.member i, old, hold, rfl⟩
  | tuple elements =>
    obtain ⟨i, old, hold, rfl⟩ := mem_mapIdx h
    exact .inr ⟨.element i, old, hold, rfl⟩
  | _ => exact .inl h

/-! ## Substitution -/

/-- `whole` is `root` with all located parts replaced at once: every level is made once, from what its
parts have become. -/
inductive Substituted (t : Table) :
    (bindings : List (List Step × TypeId)) → (root whole : TypeId) → Prop where
  | unchanged {root : TypeId} : Substituted t [] root root
  | here {bindings : List (List Step × TypeId)} {root part : TypeId} :
      ([], part) ∈ bindings → Substituted t bindings root part
  | inside {bindings : List (List Step × TypeId)} {root whole : TypeId} {data : TypeData}
      {parts : Step → TypeId} :
      (∀ binding ∈ bindings, binding.1 ≠ []) → t.lookup root = some data →
      (∀ step child, partAt? data step = some child →
        Substituted t (beneath step bindings) child (parts step)) →
      t.make (mapParts data parts) = (whole, t) → Substituted t bindings root whole

namespace Substituted

/-- Without bindings nothing changes. -/
theorem eq_root (h : t.WellFormed) (hs : t.Substituted [] root whole) : whole = root := by
  generalize hnone : [] = none at hs
  induction hs with
  | unchanged => rfl
  | here hmem =>
    subst hnone
    cases hmem
  | @inside _ root whole data parts _ hdata _ hmake ih =>
    subst hnone
    rw [mapParts_self fun step child hchild => ih step child hchild rfl, h.make_of_lookup hdata] at hmake
    cases hmake
    rfl

/-- The order of the bindings does not count. -/
theorem perm (hs : t.Substituted bindings root whole) (hperm : bindings.Perm rest) :
    t.Substituted rest root whole := by
  induction hs generalizing rest with
  | unchanged =>
    rw [← hperm.nil_eq]
    exact .unchanged
  | here hmem => exact .here (hperm.mem_iff.mp hmem)
  | inside hproper hdata _ hmake ih =>
    refine .inside (fun binding hb => hproper binding (hperm.mem_iff.mpr hb)) hdata ?_ hmake
    exact fun step child hchild => ih step child hchild (beneath_perm hperm)

theorem issued_parts (h : t.WellFormed) (hdata : t.lookup root = some data)
    (hparts : ∀ step child, partAt? data step = some child → t.Issued (parts step)) :
    ∀ p ∈ (mapParts data parts).parts, t.Issued p := by
  intro p hp
  rcases mem_parts_mapParts hp with hp | ⟨step, child, hchild, rfl⟩
  · exact h.issued_part hdata hp
  · exact hparts step child hchild

theorem issued (h : t.WellFormed) (hroot : t.Issued root)
    (htypes : ∀ binding ∈ bindings, t.Issued binding.2) (hs : t.Substituted bindings root whole) :
    t.Issued whole := by
  induction hs with
  | unchanged => exact hroot
  | here hmem => exact htypes _ hmem
  | @inside bindings root whole data parts _ hdata _ hmake ih =>
    have hparts := issued_parts h hdata fun step child hchild =>
      ih step child hchild (h.issued_part hdata (mem_parts_of_partAt? hchild))
        fun binding hb => htypes (step :: binding.1, binding.2) (mem_beneath.mp hb)
    have hissued := (h.grows_make hparts).issued
    rw [hmake] at hissued
    exact hissued

/-- A substitution is one in every later table. -/
theorem extend (ht : t.WellFormed) (hu : u.WellFormed) (hx : t.Extends u) (hroot : t.Issued root)
    (htypes : ∀ binding ∈ bindings, t.Issued binding.2) (hs : t.Substituted bindings root whole) :
    u.Substituted bindings root whole := by
  induction hs with
  | unchanged => exact .unchanged
  | here hmem => exact .here hmem
  | @inside bindings root whole data parts hproper hdata hparts hmake ih =>
    have hchild : ∀ step child, partAt? data step = some child → t.Issued child :=
      fun step child hchild => ht.issued_part hdata (mem_parts_of_partAt? hchild)
    have hbeneath : ∀ step, ∀ binding ∈ beneath step bindings, t.Issued binding.2 :=
      fun step binding hb => htypes (step :: binding.1, binding.2) (mem_beneath.mp hb)
    have hissued := issued_parts ht hdata fun step child hc =>
      (hparts step child hc).issued ht (hchild step child hc) (hbeneath step)
    have hmakes := (makes_make ht hissued).again u hu
    simp only [hmake] at hmakes
    refine .inside hproper (hx _ _ hdata) (fun step child hc => ?_) (hmakes hx)
    exact ih step child hc (hchild step child hc) (hbeneath step)

/-- Bindings that lie apart have one result. -/
theorem unique (h : t.WellFormed) (hapart : Apart bindings) (hs : t.Substituted bindings root whole)
    (hs' : t.Substituted bindings root next) : whole = next := by
  induction hs generalizing next with
  | unchanged => exact (hs'.eq_root h).symm
  | @here bindings root part hmem =>
    rw [hapart.eq_singleton hmem] at hs'
    cases hs' with
    | here hmem' => cases List.mem_singleton.mp hmem'; rfl
    | inside hproper => exact absurd rfl (hproper _ List.mem_cons_self)
  | @inside bindings root whole data parts hproper hdata hparts hmake ih =>
    cases hs' with
    | unchanged => exact eq_root h (.inside hproper hdata hparts hmake)
    | here hmem => exact absurd rfl (hproper _ hmem)
    | inside _ hdata' hparts' hmake' =>
      cases hdata.symm.trans hdata'
      rw [mapParts_congr fun step child hchild =>
        ih step child hchild hapart.beneath (hparts' step child hchild), hmake'] at hmake
      cases hmake
      rfl

end Substituted

/-! ## Replacements that move nothing -/

instance (t : Table) (data : TypeData) : Decidable (t.FlatData data) :=
  match data with
  | .union members =>
    decidable_of_iff (2 ≤ members.length ∧ members.Nodup ∧ ∀ m ∈ members, t.unionMembers? m = none)
      ⟨fun ⟨h, h', h''⟩ => ⟨h, h', h''⟩, fun h => ⟨h.two_le, h.nodup, h.single⟩⟩
  | .intersection members =>
    decidable_of_iff
      (2 ≤ members.length ∧ members.Nodup ∧ ∀ m ∈ members, t.intersectionMembers? m = none)
      ⟨fun ⟨h, h', h''⟩ => ⟨h, h', h''⟩, fun h => ⟨h.two_le, h.nodup, h.single⟩⟩
  | .literal .. | .value .. | .object _ | .function _ | .generic .. | .tuple _ | .renamed .. | .free _ =>
    .isTrue trivial

/-- Whether the replacement along `path` leaves the parts in their places on each level that some
location of `rest` leads through as well: the changed members of a union or an intersection are all
different and have no members of their own. -/
def keeps (t : Table) (part : TypeId) :
    (root : TypeId) → (path : List Step) → (rest : List (List Step × TypeId)) → Bool
  | _, [], _ => true
  | root, step :: path, rest =>
    rest.isEmpty ||
      (t.lookup root).all fun data => (partAt? data step).all fun child =>
        (t.replaceAt? child path part).all fun (changed, u) =>
          decide (u.FlatData (withPart data step changed)) && t.keeps part child path (beneath step rest)

/-- Whether each replacement leaves in their places the parts that later locations lead through. -/
def steady (t : Table) (root : TypeId) : (bindings : List (List Step × TypeId)) → Bool
  | [] => true
  | (path, part) :: rest =>
    t.keeps part root path rest &&
      (t.replaceAt? root path part).all fun (next, u) => u.steady next rest

/-- A level that is flat is made as it is. -/
theorem make_of_flat (hflat : t.FlatData data) : t.make data = t.add data := by
  cases data with
  | union members => rw [make, union_eq, FlatList.gather_eq hflat]
  | intersection members => rw [make, intersection_eq, FlatList.gather_eq hflat]
  | _ => rfl

@[simp]
theorem keeps_nil : t.keeps part root path [] = true := by
  cases path <;> rfl

theorem keeps_cons (h : t.keeps part root (step :: path) rest = true) (hrest : rest ≠ [])
    (hdata : t.lookup root = some data) (hchild : partAt? data step = some child)
    (hbelow : t.replaceAt? child path part = some (changed, u)) :
    u.FlatData (withPart data step changed) ∧ t.keeps part child path (beneath step rest) = true := by
  simpa [keeps, hrest, hdata, hchild, hbelow] using h

/-- A location that lies apart from a replacement that keeps it fits afterwards. -/
theorem Replaceable.of_keeps {place : List Step} {type : TypeId} {made : TypeId × Table}
    (hmade : t.replaceAt? root path part = some made) (hkeeps : t.keeps part root path rest = true)
    (hmem : (place, type) ∈ rest) (hapart : ¬ path <+: place) (hfits : t.Replaceable root place) :
    made.2.Replaceable made.1 place := by
  induction path generalizing root rest place made with
  | nil => exact absurd List.nil_prefix hapart
  | cons step path ih =>
    cases place with
    | nil => trivial
    | cons first place =>
      obtain ⟨data, child, hdata, hfirst, hbelow⟩ := hfits
      obtain ⟨data₀, found, changed, t₁, hdata₀, hfound, hchanged, rfl⟩ :=
        replaceAt?_cons_eq_some.mp hmade
      cases hdata.symm.trans hdata₀
      obtain ⟨hflat, hkeeps⟩ := keeps_cons hkeeps (List.ne_nil_of_mem hmem) hdata hfound hchanged
      have hx := extends_setPart t₁ data step changed
      rw [setPart_eq_make hfound, make_of_flat hflat] at hx ⊢
      have hwhole := lookup_add_self t₁ (withPart data step changed)
      by_cases hsame : step = first
      · subst hsame
        cases hfound.symm.trans hfirst
        rw [List.prefix_cons_inj] at hapart
        exact ⟨_, changed, hwhole, partAt?_withPart hfound,
          (ih hchanged hkeeps (mem_beneath.mpr hmem) hapart hbelow).extend hx⟩
      · exact ⟨_, child, hwhole, (partAt?_withPart_of_ne hsame hfound).trans hfirst,
          hbelow.extend ((extends_replaceAt? hchanged).trans hx)⟩

/-- A substitution goes on below each part of the level that its type was made of, if that level is the
stored one or nothing is left to replace. -/
theorem Substituted.level (h : t.WellFormed) (hproper : ∀ binding ∈ bindings, binding.1 ≠ [])
    (hmake : t.make data = (root, t)) (hdata : bindings ≠ [] → t.lookup root = some data)
    (hs : t.Substituted bindings root whole) :
    ∃ parts : Step → TypeId, t.make (mapParts data parts) = (whole, t) ∧
      ∀ step child, partAt? data step = some child →
        t.Substituted (beneath step bindings) child (parts step) := by
  by_cases hnone : bindings = []
  · subst hnone
    cases hs.eq_root h
    let kept : Step → TypeId := fun step => (partAt? data step).getD root
    have hkept : ∀ step child, partAt? data step = some child → kept step = child := by
      intro step child hchild
      simp only [kept, hchild, Option.getD_some]
    refine ⟨kept, (mapParts_self hkept).symm ▸ hmake, fun step child hchild => ?_⟩
    rw [hkept step child hchild]
    exact .unchanged
  · cases hs with
    | unchanged => exact absurd rfl hnone
    | here hmem => exact absurd rfl (hproper _ hmem)
    | @inside _ _ _ data' parts _ hdata' hparts hmake' =>
      cases (hdata hnone).symm.trans hdata'
      exact ⟨parts, hmake', hparts⟩

/-- One more replacement in front: what `next` becomes by the other bindings is what `root` becomes by
all of them. -/
theorem Substituted.of_replaceAt? {t₁ : Table} (ht : t.WellFormed) (hroot : t.Issued root)
    (hpart : t.Issued part) (hmade : t.replaceAt? root path part = some (next, t₁))
    (hu : u.WellFormed) (hx : t₁.Extends u) (hkeeps : t.keeps part root path rest = true)
    (hapart : ∀ binding ∈ rest, ¬ path <+: binding.1 ∧ ¬ binding.1 <+: path)
    (hs : u.Substituted rest next whole) : u.Substituted ((path, part) :: rest) root whole := by
  induction path generalizing root rest next t₁ whole with
  | nil =>
    cases hmade
    have hnone : rest = [] := by
      by_contra hne
      obtain ⟨binding, hb⟩ := List.exists_mem_of_ne_nil _ hne
      exact (hapart binding hb).1 List.nil_prefix
    subst hnone
    rw [hs.eq_root hu]
    exact .here List.mem_cons_self
  | cons step path ih =>
    obtain ⟨data, child, changed, t₂, hdata, hchild, hchanged, hset⟩ :=
      replaceAt?_cons_eq_some.mp hmade
    rw [setPart_eq_make hchild] at hset
    have hissued := ht.issued_part hdata (mem_parts_of_partAt? hchild)
    have hgrows := grows_replaceAt? ht hissued hpart hchanged
    have hmakes : t₂.Makes fun t => t.make (withPart data step changed) := by
      refine makes_make hgrows.wellFormed fun p hp => ?_
      rcases mem_parts_withPart hp with hp | rfl
      · exact hgrows.extend.issued (ht.issued_part hdata hp)
      · exact hgrows.issued
    have hnext := hmakes.again u hu
    have hlater := hmakes.grows.extend
    simp only [hset] at hnext hlater
    have hx₂ : t₂.Extends u := hlater.trans hx
    have hproper : ∀ binding ∈ rest, binding.1 ≠ [] := fun binding hb hnil =>
      (hapart binding hb).2 (hnil ▸ List.nil_prefix)
    -- a level that other locations lead through is stored as it is
    have hstored : rest ≠ [] → u.lookup next = some (withPart data step changed) := by
      intro hrest
      have hflat := (keeps_cons hkeeps hrest hdata hchild hchanged).1
      rw [make_of_flat hflat] at hset
      have hself := lookup_add_self t₂ (withPart data step changed)
      rw [hset] at hself
      exact hx _ _ hself
    have hbelow : t.keeps part child path (beneath step rest) = true := by
      by_cases hrest : rest = []
      · rw [hrest, beneath_nil, keeps_nil]
      · exact (keeps_cons hkeeps hrest hdata hchild hchanged).2
    obtain ⟨parts, hmake, hparts⟩ := hs.level hu hproper (hnext hx) hstored
    rw [mapParts_withPart hchild] at hmake
    refine .inside ?_ ((hgrows.extend.trans hx₂) _ _ hdata) (fun other kept hkept => ?_) hmake
    · rintro binding (_ | ⟨_, hb⟩)
      · exact List.cons_ne_nil _ _
      · exact hproper binding hb
    · by_cases hsame : step = other
      · subst hsame
        cases hchild.symm.trans hkept
        rw [beneath_cons_self]
        refine ih hissued hchanged hx₂ hbelow ?_ (hparts step changed (partAt?_withPart hchild))
        rintro ⟨place, type⟩ hb
        simpa only [List.prefix_cons_inj] using hapart _ (mem_beneath.mp hb)
      · rw [beneath_cons_of_ne hsame]
        exact hparts other kept ((partAt?_withPart_of_ne hsame hchild).trans hkept)

/-- Steady replacements come to the substitution: none of them is skipped, and each is made where its
location led to in the beginning. -/
theorem substituted_instantiate (ht : t.WellFormed) (hroot : t.Issued root)
    (hissued : ∀ binding ∈ bindings, t.Issued binding.2) (hapart : Apart bindings)
    (hfits : ∀ binding ∈ bindings, t.Replaceable root binding.1)
    (hsteady : t.steady root bindings = true) :
    (t.instantiate root bindings).2.Substituted bindings root (t.instantiate root bindings).1 := by
  induction bindings generalizing t root with
  | nil => exact .unchanged
  | cons binding rest ih =>
    obtain ⟨path, part⟩ := binding
    obtain ⟨hpart, hissued⟩ := List.forall_mem_cons.mp hissued
    obtain ⟨hfirst, hapart⟩ := List.pairwise_cons.mp hapart
    obtain ⟨hfit, hfits⟩ := List.forall_mem_cons.mp hfits
    obtain ⟨⟨next, t₁⟩, hmade⟩ := Option.isSome_iff_exists.mp (isSome_replaceAt?.mpr hfit)
    have hgrows := grows_replaceAt? ht hroot hpart hmade
    simp only [steady, hmade, Option.all_some, Bool.and_eq_true] at hsteady
    rw [instantiate, hmade]
    have hissued₁ : ∀ binding ∈ rest, t₁.Issued binding.2 :=
      fun binding hb => hgrows.extend.issued (hissued binding hb)
    have hfits₁ : ∀ binding ∈ rest, t₁.Replaceable next binding.1 := fun binding hb =>
      Replaceable.of_keeps hmade hsteady.1 hb (hfirst binding hb).1 (hfits binding hb)
    exact .of_replaceAt? ht hroot hpart hmade
      (grows_instantiate hgrows.wellFormed hgrows.issued hissued₁).wellFormed
      (extends_instantiate t₁ next rest) hsteady.1 hfirst
      (ih hgrows.wellFormed hgrows.issued hissued₁ hapart hfits₁ hsteady.2)

/-! ## Locations in different unions and intersections -/

/-- A level that a step other than to a member leads into is flat, whatever its parts. -/
theorem flat_of_partAt? (hchild : partAt? data step = some child) (hstep : step.isMember = false) :
    (∀ changed, u.FlatData (withPart data step changed)) ∧ ∀ parts, u.FlatData (mapParts data parts) := by
  unfold partAt? at hchild
  split at hchild
  case h_6 | h_7 => cases hstep
  case h_9 => cases hchild
  all_goals exact ⟨fun _ => trivial, fun _ => trivial⟩

theorem keeps_of_spares (hspares : ∀ binding ∈ rest, spares path binding.1 = true)
    (hapart : ∀ binding ∈ rest, ¬ binding.1 <+: path) : t.keeps part root path rest = true := by
  induction path generalizing root rest with
  | nil => rfl
  | cons step path ih =>
    by_cases hrest : rest = []
    · rw [hrest, keeps_nil]
    have hfirst : ∀ binding ∈ rest, ∃ first place, binding.1 = first :: place := by
      intro binding hb
      cases hplace : binding.1 with
      | nil => exact absurd (hplace ▸ List.nil_prefix) (hapart binding hb)
      | cons first place => exact ⟨first, place, rfl⟩
    have hstep : step.isMember = false := by
      obtain ⟨binding, hb⟩ := List.exists_mem_of_ne_nil _ hrest
      obtain ⟨first, place, hplace⟩ := hfirst binding hb
      have hspare := hspares binding hb
      simp only [hplace, spares, Bool.and_eq_true, Bool.not_eq_true'] at hspare
      exact hspare.1
    have hbeneath : ∀ child, t.keeps part child path (beneath step rest) = true := by
      refine fun child => ih (fun binding hb => ?_) fun binding hb => ?_
      · have hspare := hspares _ (mem_beneath.mp hb)
        simpa [spares, hstep] using hspare
      · simpa only [List.prefix_cons_inj] using hapart _ (mem_beneath.mp hb)
    simp only [keeps, Bool.or_eq_true, Option.all_eq_true, Bool.and_eq_true, decide_eq_true_eq]
    exact .inr fun data _ child hchild made _ => ⟨(flat_of_partAt? hchild hstep).1 _, hbeneath child⟩

/-- Replacements of which no two lead into one union or intersection are steady. -/
theorem steady_of_spares (hapart : Apart bindings)
    (hspares : bindings.Pairwise fun a b => spares a.1 b.1 = true) : t.steady root bindings = true := by
  induction bindings generalizing t root with
  | nil => rfl
  | cons binding rest ih =>
    obtain ⟨hfirst, hapart⟩ := List.pairwise_cons.mp hapart
    obtain ⟨hspare, hspares⟩ := List.pairwise_cons.mp hspares
    rw [steady, keeps_of_spares hspare fun binding hb => (hfirst binding hb).2, Bool.true_and,
      Option.all_eq_true]
    exact fun made _ => ih hapart hspares

/-- A replacement is found at its location, if this leads through no union and no intersection. -/
theorem Substituted.typeAt?_eq {type : TypeId} (hs : t.Substituted bindings root whole)
    (hapart : Apart bindings) (hmem : (path, type) ∈ bindings) (hfits : t.Replaceable root path)
    (hpath : ∀ step ∈ path, step.isMember = false) : t.typeAt? whole path = some type := by
  induction hs generalizing path with
  | unchanged => cases hmem
  | @here bindings root part hhere =>
    rw [hapart.eq_singleton hhere] at hmem
    cases List.mem_singleton.mp hmem
    rfl
  | @inside bindings root whole data parts hproper hdata _ hmake ih =>
    cases path with
    | nil => exact absurd rfl (hproper _ hmem)
    | cons step path =>
      obtain ⟨hstep, hpath⟩ := List.forall_mem_cons.mp hpath
      obtain ⟨data', child, hdata', hchild, hbelow⟩ := hfits
      cases hdata.symm.trans hdata'
      have hwhole : t.lookup whole = some (mapParts data parts) := by
        have hself := lookup_add_self t (mapParts data parts)
        rwa [← make_of_flat ((flat_of_partAt? hchild hstep).2 parts), hmake] at hself
      have hpart := partAt?_mapParts hchild parts
      rw [typeAt?, childAt?_of_lookup hwhole (isRenamed_of_partAt? hwhole hpart), hpart]
      exact ih step child hchild hapart.beneath (mem_beneath.mpr hmem) hbelow hpath

/-- A steady run in some order comes to the substitution, in every later table. -/
theorem substituted_of_steady {order : List (List Step × TypeId)} (ht : t.WellFormed)
    (hroot : t.Issued root) (htypes : ∀ binding ∈ bindings, t.Issued binding.2)
    (hapart : Apart bindings) (hfits : ∀ binding ∈ bindings, t.Replaceable root binding.1)
    (horder : order.Perm bindings) (hsteady : t.steady root order = true) (hu : u.WellFormed)
    (hx : (t.instantiate root order).2.Extends u) :
    u.Substituted bindings root (t.instantiate root order).1 := by
  have htypes' : ∀ binding ∈ order, t.Issued binding.2 :=
    fun binding hb => htypes binding (horder.mem_iff.mp hb)
  have hgrows := grows_instantiate ht hroot htypes'
  have hmade := substituted_instantiate ht hroot htypes' (hapart.perm horder.symm)
    (fun binding hb => hfits binding (horder.mem_iff.mp hb)) hsteady
  exact (hmade.perm horder).extend hgrows.wellFormed hu hx (hgrows.extend.issued hroot)
    fun binding hb => hgrows.extend.issued (htypes binding hb)

end Table

open Table in
/-- Instantiation is simultaneous substitution, in every order of the bindings in which no replacement
moves or drops members of a union or an intersection that a later location leads into: what is made is the
one type in which every located part is replaced, and another such order makes it again. If no two
locations lead into one union or intersection, then every order is like that. -/
theorem instantiate_substitutes {t : Table} (h : Reachable t) {f : TypeId} {shape : FunctionShape}
    (hf : t.lookup f = some (.function shape)) {bindings order : List (List Step × TypeId)}
    (htypes : ∀ binding ∈ bindings, t.Issued binding.2)
    (hfits : ∀ binding ∈ bindings, (t.replaceAt? f binding.1 binding.2).isSome)
    (hapart : Apart bindings) (horder : order.Perm bindings) :
    (t.steady f order = true → ∀ u : Table, Reaches (t.instantiate f order).2 u →
      u.Substituted bindings f (t.instantiate f order).1 ∧
      (∀ other, u.Substituted bindings f other → other = (t.instantiate f order).1) ∧
      ∀ again : List (List Step × TypeId), again.Perm bindings → u.steady f again = true →
        (u.instantiate f again).1 = (t.instantiate f order).1) ∧
    ((bindings.Pairwise fun a b => spares a.1 b.1 = true ∧ spares b.1 a.1 = true) →
      ∀ u : Table, u.steady f order = true) := by
  have hwf := h.wellFormed
  have hroot := issued_of_lookup hf
  have hfits : ∀ binding ∈ bindings, t.Replaceable f binding.1 :=
    fun binding hb => isSome_replaceAt?.mp (hfits binding hb)
  constructor
  · intro hsteady u hu
    have hgrows := grows_instantiate hwf hroot fun binding hb => htypes binding (horder.mem_iff.mp hb)
    obtain ⟨hwfu, hx⟩ := hu.wellFormed_extends hgrows.wellFormed
    have hall : ∀ {v : Table}, v.WellFormed → u.Extends v →
        v.Substituted bindings f (t.instantiate f order).1 := fun hv hxv =>
      substituted_of_steady hwf hroot htypes hapart hfits horder hsteady hv (hx.trans hxv)
    refine ⟨hall hwfu (.refl u), fun other hother => ?_, fun again hagain hsteady' => ?_⟩
    · exact hother.unique hwfu hapart (hall hwfu (.refl u))
    · -- the other order is run in the later table, and both results are there afterwards
      have hlater : t.Extends u := hgrows.extend.trans hx
      have hroot' : u.Issued f := hlater.issued hroot
      have htypes' : ∀ binding ∈ bindings, u.Issued binding.2 :=
        fun binding hb => hlater.issued (htypes binding hb)
      have hgrows' := grows_instantiate hwfu hroot' fun binding hb =>
        htypes' binding (hagain.mem_iff.mp hb)
      have hmade := substituted_of_steady hwfu hroot' htypes' hapart
        (fun binding hb => (hfits binding hb).extend hlater) hagain hsteady' hgrows'.wellFormed
        (.refl _)
      exact hmade.unique hgrows'.wellFormed hapart (hall hgrows'.wellFormed hgrows'.extend)
  · intro hspares u
    refine steady_of_spares (hapart.perm horder.symm) ?_
    exact ((horder.pairwise_iff fun hab => hab.symm).mpr hspares).imp fun hab => hab.1

/-- The table after `(T | U) => void` and `String | Number` were made. -/
def twoVariables : Table :=
  (Operation.union [.string, .number]).after
    ((Operation.function ⟨[⟨none, ⟨21⟩, false⟩], .void, none, [], plainBrand⟩).after
      ((Operation.union [⟨19⟩, ⟨20⟩]).after
        ((Operation.free "U").after ((Operation.free "T").after .initial))))

theorem reachable_twoVariables : Reachable twoVariables :=
  .step _ (.step _ (.step _ (.step _ (.step _ .refl (by decide)) (by decide)) (by decide)) (by decide))
    (by decide)

/-- The two variables solved by `first` and by `second`. -/
def solved (first second : TypeId) : List (List Step × TypeId) :=
  [([.arg 0, .member 0], first), ([.arg 0, .member 1], second)]

/-- `T` and `U` become `String` and `Number` in either order. -/
theorem instantiate_substitutes_twoVariables :
    let made := twoVariables.instantiate ⟨22⟩ (solved .string .number)
    (made.2.instantiate ⟨22⟩ (solved .string .number).reverse).1 = made.1 := by
  intro made
  have hf : twoVariables.lookup ⟨22⟩ =
      some (.function ⟨[⟨none, ⟨21⟩, false⟩], .void, none, [], plainBrand⟩) := by decide
  have hapart : Apart (solved .string .number) := by
    simp [solved, Apart, List.cons_prefix_cons]
  have hsubstitutes := (instantiate_substitutes reachable_twoVariables hf (by decide) (by decide +kernel)
    hapart (.refl _)).1 (by decide +kernel) made.2 .refl
  exact hsubstitutes.2.2 _ (List.reverse_perm _) (by decide +kernel)

/-- With `String | Number` for `T` the union `T | U` becomes flat, so what is put in the place of `U`
afterwards stands in the place of `Number`, and `U` is left. In the other order both are replaced. -/
theorem substitution_moves_members :
    let made := twoVariables.instantiate ⟨22⟩ (solved ⟨23⟩ .boolean)
    let again := made.2.instantiate ⟨22⟩ (solved ⟨23⟩ .boolean).reverse
    Reachable twoVariables ∧ Apart (solved ⟨23⟩ .boolean) ∧
      (∀ binding ∈ solved ⟨23⟩ .boolean,
        (twoVariables.replaceAt? ⟨22⟩ binding.1 binding.2).isSome) ∧
      made.1 ≠ again.1 ∧ made.2.format made.1 = "(String | Boolean | U) => void" ∧
      again.2.format again.1 = "(String | Number | Boolean) => void" := by
  have hapart : Apart (solved ⟨23⟩ .boolean) := by simp [solved, Apart, List.cons_prefix_cons]
  refine ⟨reachable_twoVariables, hapart, ?_⟩
  decide +kernel

end HeaderCheck.Types
