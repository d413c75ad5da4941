import HeaderCheck.Proofs.Types.Outline
import HeaderCheck.Types.Format
import HeaderCheck.Types.Narrow
import Mathlib.Data.List.Forall2

/-!
# HeaderCheck.Proofs.Types.Same

What is made of the same types in two tables is the same again.

* `Table.SameMade t t' made made'`: what was made in `t` and in `t'` has the same tree.
* `sameMade_add`: parallel types get handles for the same tree. All other ways to make types,
  `sameMade_union`, `sameMade_withField` and so on, put their results together from parallel parts.
* `filter?_same`: members that are kept for reasons that do not depend on handles make the same
  type.
* `format_same`: the same types are written alike.
-/

namespace HeaderCheck.Types

/-! ## Parallel levels -/

section Parallel

variable {R S : TypeId → TypeId → Prop} {data data' : TypeData}

theorem rel_mono {a b : Option TypeId} (h : Option.Rel R a b) (hRS : ∀ p p', R p p' → S p p') :
    Option.Rel S a b := by
  cases h with
  | none => exact .none
  | some hab => exact .some (hRS _ _ hab)

theorem Field.Parallel.mono {f f' : Field} (h : f.Parallel R f') (hRS : ∀ p p', R p p' → S p p') :
    f.Parallel S f' :=
  ⟨h.name, hRS _ _ h.type, h.optional⟩

theorem Param.Parallel.mono {p p' : Param} (h : p.Parallel R p') (hRS : ∀ p p', R p p' → S p p') :
    p.Parallel S p' :=
  ⟨h.name, hRS _ _ h.type, h.optional⟩

theorem TypeData.Parallel.mono (h : data.Parallel R data') (hRS : ∀ p p', R p p' → S p p') :
    data.Parallel S data' := by
  cases h with
  | literal name builtin => exact .literal name builtin
  | value value name => exact .value value name
  | object hs => exact .object ⟨hs.fields.imp fun _ _ hf => hf.mono hRS, hs.isOpen, hs.brand⟩
  | union hms => exact .union (hms.imp hRS)
  | intersection hms => exact .intersection (hms.imp hRS)
  | function hs =>
    exact .function ⟨hs.params.imp fun _ _ hp => hp.mono hRS, hRS _ _ hs.result,
      rel_mono hs.this hRS, hs.generics, hs.brand⟩
  | generic hbase hargs => exact .generic (hRS _ _ hbase) (hargs.imp hRS)
  | tuple hes => exact .tuple (hes.imp hRS)
  | renamed name builtin htarget => exact .renamed name builtin (hRS _ _ htarget)
  | free name => exact .free name

theorem forall₂_toList {a b : Option TypeId} (h : Option.Rel R a b) :
    List.Forall₂ R a.toList b.toList := by
  cases h with
  | none => exact .nil
  | some hab => exact .cons hab .nil

theorem TypeData.Parallel.parts (h : data.Parallel R data') :
    List.Forall₂ R data.parts data'.parts := by
  cases h with
  | literal | value | free => exact .nil
  | object hs =>
    exact List.forall₂_map_left_iff.mpr (List.forall₂_map_right_iff.mpr (hs.fields.imp fun _ _ hf => hf.type))
  | union hms | intersection hms | tuple hms => exact hms
  | function hs =>
    refine List.rel_append (List.rel_append ?_ (forall₂_toList hs.this)) (.cons hs.result .nil)
    exact List.forall₂_map_left_iff.mpr (List.forall₂_map_right_iff.mpr (hs.params.imp fun _ _ hp => hp.type))
  | generic hbase hargs => exact .cons hbase hargs
  | renamed name builtin htarget => exact .cons htarget .nil

end Parallel

/-! ## Lists that go together -/

section Lists

variable {α β : Type} {R : α → β → Prop} {l : List α} {l' : List β}

theorem forall_left (h : List.Forall₂ R l l') : ∀ a ∈ l, ∃ b ∈ l', R a b := by
  induction h with
  | nil => simp
  | cons hab _ ih =>
    intro a ha
    rcases List.mem_cons.mp ha with rfl | ha
    · exact ⟨_, List.mem_cons_self, hab⟩
    · obtain ⟨b, hb, h⟩ := ih a ha
      exact ⟨b, List.mem_cons_of_mem _ hb, h⟩

theorem forall_right (h : List.Forall₂ R l l') : ∀ b ∈ l', ∃ a ∈ l, R a b :=
  forall_left h.flip

theorem rel_getElem? (h : List.Forall₂ R l l') (i : Nat) : Option.Rel R l[i]? l'[i]? := by
  induction h generalizing i with
  | nil => exact .none
  | cons hab _ ih =>
    cases i with
    | zero => exact .some hab
    | succ i => exact ih i

theorem forall₂_modify (h : List.Forall₂ R l l') {f : α → α} {g : β → β}
    (hfg : ∀ a b, R a b → R (f a) (g b)) (i : Nat) :
    List.Forall₂ R (l.modify i f) (l'.modify i g) := by
  induction h generalizing i with
  | nil => cases i <;> exact .nil
  | cons hab hrest ih =>
    cases i with
    | zero => exact .cons (hfg _ _ hab) hrest
    | succ i => exact .cons hab (ih i)

theorem forall₂_zip {γ δ : Type} {S : γ → δ → Prop} {m : List γ} {m' : List δ}
    (h : List.Forall₂ R l l') (hm : List.Forall₂ S m m') :
    List.Forall₂ (fun a b => R a.1 b.1 ∧ S a.2 b.2) (l.zip m) (l'.zip m') := by
  induction h generalizing m m' with
  | nil => exact .nil
  | cons hab _ ih =>
    cases hm with
    | nil => exact .nil
    | cons hcd hrest => exact .cons ⟨hab, hcd⟩ (ih hrest)

theorem forall₂_set (h : List.Forall₂ R l l') {a : α} {b : β} (hab : R a b) (i : Nat) :
    List.Forall₂ R (l.set i a) (l'.set i b) := by
  induction h generalizing i with
  | nil => exact .nil
  | cons hfirst hrest ih =>
    cases i with
    | zero => exact .cons hab hrest
    | succ i => exact .cons hfirst (ih i)

end Lists

/-! ## Parts of parallel levels -/

section Parts

variable {R : TypeId → TypeId → Prop} {data data' : TypeData}

theorem position?_eq {s s' : ObjectShape}
    (h : List.Forall₂ (Field.Parallel R) s.fields s'.fields) (name : String) :
    s'.position? name = s.position? name := by
  unfold ObjectShape.position?
  generalize s.fields = fields at h ⊢
  generalize s'.fields = fields' at h ⊢
  induction h with
  | nil => rfl
  | cons hfirst _ ih => rw [List.findIdx?_cons, List.findIdx?_cons, ih, hfirst.name]

theorem withField_parallel {s s' : ObjectShape} (h : s.Parallel R s')
    (name : String) {i i' : TypeId}
    (hi : R i i') : (s.withField name i).Parallel R (s'.withField name i') := by
  have hfield : Field.Parallel R { name, type := i } { name, type := i' } := ⟨rfl, hi, rfl⟩
  unfold ObjectShape.withField
  rw [position?_eq h.fields]
  split
  · exact ⟨forall₂_set h.fields hfield _, h.isOpen, h.brand⟩
  · exact ⟨List.rel_append h.fields (.cons hfield .nil), h.isOpen, h.brand⟩

theorem partAt?_same (h : data.Parallel R data') (step : Step) :
    Option.Rel R (Table.partAt? data step) (Table.partAt? data' step) := by
  have hfield {l l' : List Field} (hl : List.Forall₂ (Field.Parallel R) l l') (i : Nat) :
      Option.Rel R (l[i]?.map Field.type) (l'[i]?.map Field.type) := by
    have hrel := rel_getElem? hl i
    generalize l[i]? = a at hrel ⊢
    generalize l'[i]? = b at hrel ⊢
    cases hrel with
    | none => exact .none
    | some hab => exact .some hab.type
  have hparam {l l' : List Param} (hl : List.Forall₂ (Param.Parallel R) l l') (i : Nat) :
      Option.Rel R (l[i]?.map Param.type) (l'[i]?.map Param.type) := by
    have hrel := rel_getElem? hl i
    generalize l[i]? = a at hrel ⊢
    generalize l'[i]? = b at hrel ⊢
    cases hrel with
    | none => exact .none
    | some hab => exact .some hab.type
  cases h with
  | literal | value | free | renamed => cases step <;> exact .none
  | object hs => cases step <;> first | exact hfield hs.fields _ | exact .none
  | union hms | intersection hms | tuple hms =>
    cases step <;> first | exact rel_getElem? hms _ | exact .none
  | function hs =>
    cases step <;> first | exact hparam hs.params _ | exact hs.this | exact .some hs.result | exact .none
  | generic hbase hargs => cases step <;> first | exact rel_getElem? hargs _ | exact .none

theorem formatData_parallel {part part' : TypeId → String} (h : data.Parallel R data')
    (hpart : ∀ p p', R p p' → part p = part' p') :
    Table.formatData part data = Table.formatData part' data' := by
  cases h with
  | literal | value | free | renamed => rfl
  | object hs =>
    have hfields := map_eq_of_forall₂ hs.fields
      (f := fun a => a.name ++ Table.optionalMark a.optional ++ ": " ++ part a.type)
      (g := fun b => b.name ++ Table.optionalMark b.optional ++ ": " ++ part' b.type)
      fun a b hab => by rw [hab.name, hab.optional, hpart _ _ hab.type]
    have hempty : ∀ {l l' : List Field}, List.Forall₂ (Field.Parallel R) l l' →
        l.isEmpty = l'.isEmpty := by
      intro l l' hl
      cases hl <;> rfl
    simp only [Table.formatData, hfields, hempty hs.fields]
  | union hms | intersection hms | tuple hms => simp only [Table.formatData, map_eq_of_forall₂ hms hpart]
  | function hs =>
    have hthis := map_eq_of_forall₂ (forall₂_toList hs.this)
      (f := fun this => "this: " ++ part this) (g := fun this => "this: " ++ part' this)
      fun a b hab => by rw [hpart _ _ hab]
    have hparams := map_eq_of_forall₂ hs.params (f := fun a => Table.formatParam a (part a.type))
      (g := fun b => Table.formatParam b (part' b.type))
      fun a b hab => by simp only [Table.formatParam, hab.name, hab.optional, hpart _ _ hab.type]
    simp only [Table.formatData, hthis, hparams, hpart _ _ hs.result]
  | generic hbase hargs =>
    simp only [Table.formatData, hpart _ _ hbase, map_eq_of_forall₂ hargs hpart]

end Parts

namespace Table

variable {t t' u u' : Table} {i i' j j' : TypeId} {ms ms' : List TypeId}

/-- What was made in two tables has the same tree. -/
structure SameMade (t t' : Table) (made made' : TypeId × Table) : Prop where
  left : t.Grows made
  right : t'.Grows made'
  same : made.2.Same made'.2 made.1 made'.1

namespace SameMade

variable {made made' next next' : TypeId × Table}

theorem trans (h : SameMade t t' made made') (hnext : SameMade made.2 made'.2 next next') :
    SameMade t t' next next' :=
  ⟨h.left.trans hnext.left, h.right.trans hnext.right, hnext.same⟩

/-- What was the same before is the same after. -/
theorem extend (h : SameMade t t' made made') (ht : t.WellFormed) (ht' : t'.WellFormed)
    (hi : t.Same t' i i') : made.2.Same made'.2 i i' :=
  hi.extend ht ht' h.left.wellFormed h.right.wellFormed h.left.extend h.right.extend

end SameMade

theorem sameMade_self (ht : t.WellFormed) (ht' : t'.WellFormed) (h : t.Same t' i i') :
    SameMade t t' (i, t) (i', t') :=
  ⟨grows_self ht h.left, grows_self ht' h.right, h⟩

variable {data data' : TypeData}

/-- Parallel types get handles for the same tree, where their addition keeps the tables in order. -/
theorem sameMade_of_grows (ht : t.WellFormed) (ht' : t'.WellFormed)
    (h : data.Parallel (t.Same t') data') (hgrows : t.Grows (t.add data))
    (hgrows' : t'.Grows (t'.add data')) : SameMade t t' (t.add data) (t'.add data') := by
  refine ⟨hgrows, hgrows', same_of_level hgrows.wellFormed hgrows'.wellFormed
    (lookup_add_self t data) (lookup_add_self t' data') (h.mono fun p p' hp => ?_)⟩
  exact hp.extend ht ht' hgrows.wellFormed hgrows'.wellFormed hgrows.extend hgrows'.extend

/-- Types that are neither unions nor intersections can be added as they are. -/
theorem sameMade_add (ht : t.WellFormed) (ht' : t'.WellFormed)
    (h : data.Parallel (t.Same t') data') (hflat : t.FlatData data) (hflat' : t'.FlatData data') :
    SameMade t t' (t.add data) (t'.add data') := by
  refine sameMade_of_grows ht ht' h (grows_add ht (fun part hp => ?_) hflat)
    (grows_add ht' (fun part hp => ?_) hflat')
  · obtain ⟨_, -, hsame⟩ := forall_left h.parts part hp
    exact hsame.left
  · obtain ⟨_, -, hsame⟩ := forall_right h.parts part hp
    exact hsame.right

/-! ## Unions and intersections -/

/-- The members of what is a union or an intersection in both tables. -/
def SameNested (t t' : Table) (nested nested' : TypeId → Option (List TypeId)) : Prop :=
  ∀ i i', t.Same t' i i' → Option.Rel (List.Forall₂ (t.Same t')) (nested i) (nested' i')

theorem unionMembers?_same (ht : t.WellFormed) (ht' : t'.WellFormed) :
    SameNested t t' t.unionMembers? t'.unionMembers? := by
  intro i i' h
  obtain ⟨data, data', hd, hd', hparallel⟩ := h.level ht ht'
  rw [unionMembers?, unionMembers?, hd, hd']
  cases hparallel with
  | union hms => exact .some hms
  | _ => exact .none

theorem intersectionMembers?_same (ht : t.WellFormed) (ht' : t'.WellFormed) :
    SameNested t t' t.intersectionMembers? t'.intersectionMembers? := by
  intro i i' h
  obtain ⟨data, data', hd, hd', hparallel⟩ := h.level ht ht'
  rw [intersectionMembers?, intersectionMembers?, hd, hd']
  cases hparallel with
  | intersection hms => exact .some hms
  | _ => exact .none

theorem SameNested.expand {nested nested' : TypeId → Option (List TypeId)}
    (h : SameNested t t' nested nested') (hi : t.Same t' i i') :
    List.Forall₂ (t.Same t') (expand nested i) (Table.expand nested' i') := by
  have hrel := h i i' hi
  unfold Table.expand
  generalize nested i = inner at hrel ⊢
  generalize nested' i' = inner' at hrel ⊢
  cases hrel with
  | none => exact .cons hi .nil
  | some hinner => exact hinner

theorem mem_iff_of_same (ht : t.WellFormed) (ht' : t'.WellFormed)
    (hms : List.Forall₂ (t.Same t') ms ms') (hi : t.Same t' i i') : i ∈ ms ↔ i' ∈ ms' := by
  constructor
  · intro hmem
    obtain ⟨j', hj', hsame⟩ := forall_left hms i hmem
    rwa [(hi.eq_iff hsame ht ht').mp rfl]
  · intro hmem
    obtain ⟨j, hj, hsame⟩ := forall_right hms i' hmem
    rwa [(hi.eq_iff hsame ht ht').mpr rfl]

theorem distinct_same (ht : t.WellFormed) (ht' : t'.WellFormed)
    (h : List.Forall₂ (t.Same t') ms ms') :
    List.Forall₂ (t.Same t') (distinct ms) (distinct ms') := by
  suffices hkept : ∀ kept kept', List.Forall₂ (t.Same t') kept kept' →
      List.Forall₂ (t.Same t')
        (ms.foldl (fun kept m => if m ∈ kept then kept else kept ++ [m]) kept)
        (ms'.foldl (fun kept m => if m ∈ kept then kept else kept ++ [m]) kept') from
    hkept [] [] .nil
  induction h with
  | nil => exact fun _ _ hkept => hkept
  | @cons m m' rest rest' hm hrest ih =>
    intro kept kept' hkept
    have hiff := mem_iff_of_same ht ht' hkept hm
    rw [List.foldl_cons, List.foldl_cons]
    by_cases hmem : m ∈ kept
    · rw [if_pos hmem, if_pos (hiff.mp hmem)]
      exact ih _ _ hkept
    · rw [if_neg hmem, if_neg (hmem ∘ hiff.mpr)]
      exact ih _ _ (List.rel_append hkept (.cons hm .nil))

theorem SameNested.flatten {nested nested' : TypeId → Option (List TypeId)} (ht : t.WellFormed)
    (ht' : t'.WellFormed) (h : SameNested t t' nested nested')
    (hms : List.Forall₂ (t.Same t') ms ms') :
    List.Forall₂ (t.Same t') (flatten nested ms) (Table.flatten nested' ms') :=
  distinct_same ht ht' (List.rel_flatMap hms fun _ _ hi => h.expand hi)

/-- Unions and intersections alike: the same members make the same type. -/
theorem gather_same (ht : t.WellFormed) (ht' : t'.WellFormed) {empty : TypeId}
    (hempty : empty.index < builtins.length) {make : List TypeId → TypeData}
    (hmake : ∀ ms ms', List.Forall₂ (t.Same t') ms ms' →
      (make ms).Parallel (t.Same t') (make ms'))
    {flat flat' : List TypeId} (hflat : List.Forall₂ (t.Same t') flat flat')
    (hgrows : t.Grows (t.gather empty make flat)) (hgrows' : t'.Grows (t'.gather empty make flat')) :
    SameMade t t' (t.gather empty make flat) (t'.gather empty make flat') := by
  cases hflat with
  | nil => exact sameMade_self ht ht' (same_fixed ht ht' hempty)
  | cons hfirst hrest =>
    cases hrest with
    | nil => exact sameMade_self ht ht' hfirst
    | cons hsecond hrest =>
      exact sameMade_of_grows ht ht' (hmake _ _ (.cons hfirst (.cons hsecond hrest))) hgrows hgrows'

theorem issued_left (hms : List.Forall₂ (t.Same t') ms ms') : ∀ m ∈ ms, t.Issued m := by
  intro m hm
  obtain ⟨_, -, hsame⟩ := forall_left hms m hm
  exact hsame.left

theorem issued_right (hms : List.Forall₂ (t.Same t') ms ms') : ∀ m ∈ ms', t'.Issued m := by
  intro m hm
  obtain ⟨_, -, hsame⟩ := forall_right hms m hm
  exact hsame.right

variable (ht : t.WellFormed) (ht' : t'.WellFormed)

include ht ht'

theorem sameMade_union (hms : List.Forall₂ (t.Same t') ms ms') :
    SameMade t t' (t.union ms) (t'.union ms') := by
  have hgrows := ht.grows_union (issued_left hms)
  have hgrows' := ht'.grows_union (issued_right hms)
  rw [union_eq] at hgrows hgrows' ⊢
  rw [union_eq]
  exact gather_same ht ht' (by decide) (fun _ _ => .union)
    ((unionMembers?_same ht ht').flatten ht ht' hms) hgrows hgrows'

theorem sameMade_intersection (hms : List.Forall₂ (t.Same t') ms ms') :
    SameMade t t' (t.intersection ms) (t'.intersection ms') := by
  have hgrows := ht.grows_intersection (issued_left hms)
  have hgrows' := ht'.grows_intersection (issued_right hms)
  rw [intersection_eq] at hgrows hgrows' ⊢
  rw [intersection_eq]
  exact gather_same ht ht' (by decide) (fun _ _ => .intersection)
    ((intersectionMembers?_same ht ht').flatten ht ht' hms) hgrows hgrows'

/-! ## Changed copies -/

theorem objectShape?_same (h : t.Same t' i i') :
    Option.Rel (ObjectShape.Parallel (t.Same t')) (t.objectShape? i) (t'.objectShape? i') := by
  obtain ⟨data, data', hd, hd', hparallel⟩ := h.level ht ht'
  rw [objectShape?, objectShape?, hd, hd']
  cases hparallel with
  | object hs => exact .some hs
  | _ => exact .none

theorem sameMade_withField (h : t.Same t' i i') (name : String) (hj : t.Same t' j j') :
    Option.Rel (SameMade t t') (t.withField i name j) (t'.withField i' name j') := by
  have hrel := objectShape?_same ht ht' h
  unfold withField
  generalize t.objectShape? i = shape at hrel ⊢
  generalize t'.objectShape? i' = shape' at hrel ⊢
  cases hrel with
  | none => exact .none
  | some hs =>
    exact .some (sameMade_add ht ht' (.object (withField_parallel hs name hj)) trivial trivial)

theorem sameMade_withBrand (h : t.Same t' i i') (brand : String) :
    SameMade t t' (t.withBrand i brand) (t'.withBrand i' brand) := by
  obtain ⟨data, data', hd, hd', hparallel⟩ := h.level ht ht'
  rw [withBrand, withBrand, hd, hd']
  cases hparallel with
  | object hs =>
    exact sameMade_add ht ht' (.object ⟨hs.fields, hs.isOpen, rfl⟩) trivial trivial
  | function hs =>
    exact sameMade_add ht ht' (.function ⟨hs.params, hs.result, hs.this, hs.generics, rfl⟩) trivial
      trivial
  | _ => exact sameMade_self ht ht' h

/-! ## Replaced parts -/

/-- Without a fitting step the type is added as it is, which leaves a type of the table in place. -/
theorem sameMade_setPart (hd : t.lookup j = some data) (hd' : t'.lookup j' = some data')
    (h : data.Parallel (t.Same t') data') (step : Step) (hi : t.Same t' i i') :
    SameMade t t' (t.setPart data step i) (t'.setPart data' step i') := by
  have hkeep : SameMade t t' (t.add data) (t'.add data') :=
    sameMade_add ht ht' h (ht.flat hd) (ht'.flat hd')
  cases h with
  | object hs =>
    cases step with
    | field k =>
      refine sameMade_add ht ht' (.object ⟨forall₂_modify hs.fields (fun _ _ hf => ?_) k, hs.isOpen,
        hs.brand⟩) trivial trivial
      exact ⟨hf.name, hi, hf.optional⟩
    | _ => exact hkeep
  | function hs =>
    cases step with
    | arg k =>
      refine sameMade_add ht ht' (.function ⟨forall₂_modify hs.params (fun _ _ hp => ?_) k, hs.result,
        hs.this, hs.generics, hs.brand⟩) trivial trivial
      exact ⟨hp.name, hi, hp.optional⟩
    | this =>
      exact sameMade_add ht ht' (.function ⟨hs.params, hs.result, .some hi, hs.generics, hs.brand⟩)
        trivial trivial
    | result =>
      exact sameMade_add ht ht' (.function ⟨hs.params, hi, hs.this, hs.generics, hs.brand⟩) trivial
        trivial
    | _ => exact hkeep
  | union hms =>
    cases step with
    | member k => exact sameMade_union ht ht' (forall₂_set hms hi k)
    | _ => exact hkeep
  | intersection hms =>
    cases step with
    | member k => exact sameMade_intersection ht ht' (forall₂_set hms hi k)
    | _ => exact hkeep
  | generic hbase hargs =>
    cases step with
    | typeArg k =>
      exact sameMade_add ht ht' (.generic hbase (forall₂_set hargs hi k)) trivial trivial
    | _ => exact hkeep
  | tuple hes =>
    cases step with
    | element k => exact sameMade_add ht ht' (.tuple (forall₂_set hes hi k)) trivial trivial
    | _ => exact hkeep
  | literal | value | free | renamed => cases step <;> exact hkeep

theorem sameMade_replaceAt? (h : t.Same t' i i') (path : List Step) (hj : t.Same t' j j') :
    Option.Rel (SameMade t t') (t.replaceAt? i path j) (t'.replaceAt? i' path j') := by
  induction path generalizing i i' with
  | nil => exact .some (sameMade_self ht ht' hj)
  | cons step path ih =>
    obtain ⟨data, data', hd, hd', hparallel⟩ := h.level ht ht'
    have hpart := partAt?_same hparallel step
    simp only [replaceAt?, hd, hd']
    generalize partAt? data step = child at hpart ⊢
    generalize partAt? data' step = child' at hpart ⊢
    cases hpart with
    | none => exact .none
    | @some child child' hchild =>
      have hbelow := ih hchild
      simp only
      generalize t.replaceAt? child path j = below at hbelow ⊢
      generalize t'.replaceAt? child' path j' = below' at hbelow ⊢
      cases hbelow with
      | none => exact .none
      | @some made made' hmade =>
        have hset := sameMade_setPart hmade.left.wellFormed hmade.right.wellFormed
          (hmade.left.extend _ _ hd) (hmade.right.extend _ _ hd')
          (hparallel.mono fun _ _ => hmade.extend ht ht') step hmade.same
        exact .some (hmade.trans hset)

/-! ## Narrowing -/

theorem members_same (h : t.Same t' i i') :
    List.Forall₂ (t.Same t') (t.members i) (t'.members i') :=
  (unionMembers?_same ht ht').expand h

/-- Members that are kept in both tables for the same reason make the same type. -/
theorem sameMade_filter? (h : t.Same t' i i') {keep keep' : TypeId → Bool}
    (hkeep : ∀ i i', t.Same t' i i' → keep' i' = keep i) :
    Option.Rel (SameMade t t') (t.filter? i keep) (t'.filter? i' keep') := by
  have hall := members_same ht ht' h
  have hkept : List.Forall₂ (t.Same t') ((t.members i).filter keep) ((t'.members i').filter keep') :=
    List.rel_filter (fun _ _ hsame => by simp only [hkeep _ _ hsame]) hall
  have hempty : ((t'.members i').filter keep').isEmpty = ((t.members i).filter keep).isEmpty := by
    generalize (t.members i).filter keep = kept at hkept ⊢
    generalize (t'.members i').filter keep' = kept' at hkept ⊢
    cases hkept <;> rfl
  simp only [filter?, hempty, ← hall.length_eq, ← hkept.length_eq]
  split
  · exact .none
  · exact .some (sameMade_union ht ht' hkept)

/-- A handle is a built-in one exactly when that of the same tree is. -/
theorem eq_fixed_iff (h : t.Same t' i i') {id : TypeId} (hid : id.index < builtins.length) :
    i' = id ↔ i = id :=
  (h.eq_iff (same_fixed ht ht' hid) ht ht').symm

theorem isNullish_same (h : t.Same t' i i') : i'.isNullish = i.isNullish := by
  simp (disch := decide) only [TypeId.isNullish, eq_fixed_iff ht ht' h]

theorem isAnyLike_same (h : t.Same t' i i') : i'.isAnyLike = i.isAnyLike := by
  simp (disch := decide) only [TypeId.isAnyLike, eq_fixed_iff ht ht' h]

theorem sameMade_removeNullish? (h : t.Same t' i i') :
    Option.Rel (SameMade t t') (t.removeNullish? i) (t'.removeNullish? i') :=
  sameMade_filter? ht ht' h fun _ _ hm => by rw [isNullish_same ht ht' hm]

theorem sameMade_falsyPart? (h : t.Same t' i i') :
    Option.Rel (SameMade t t') (t.falsyPart? i) (t'.falsyPart? i') := by
  refine sameMade_filter? ht ht' h fun m m' hm => ?_
  simp (disch := decide) only [isNullish_same ht ht' hm, isAnyLike_same ht ht' hm,
    eq_fixed_iff ht ht' hm]

theorem matchesTypeof_same (h : t.Same t' i i') (tag : String) :
    t'.matchesTypeof i' tag = t.matchesTypeof i tag := by
  obtain ⟨data, data', hd, hd', hparallel⟩ := h.level ht ht'
  have hfunction : t'.isFunction i' = t.isFunction i := by
    simp only [isFunction, functionShape?, hd, hd']
    cases hparallel <;> rfl
  unfold matchesTypeof
  split
  case h_6 =>
    rw [hd, hd']
    cases hparallel <;> simp (disch := decide) only [eq_fixed_iff ht ht' h]
  all_goals simp (disch := decide) only [eq_fixed_iff ht ht' h, hfunction]

theorem sameMade_narrowByTypeof? (h : t.Same t' i i') (tag : String) (positive : Bool) :
    Option.Rel (SameMade t t') (t.narrowByTypeof? i tag positive)
      (t'.narrowByTypeof? i' tag positive) := by
  rw [narrowByTypeof?, narrowByTypeof?, isAnyLike_same ht ht' h]
  split
  · split
    · cases htype : typeofType? tag with
      | none => exact .none
      | some type =>
        have hfixed : type.index < builtins.length := by
          unfold typeofType? at htype
          split at htype <;> cases htype <;> decide
        exact .some (sameMade_self ht ht' (same_fixed ht ht' hfixed))
    · exact .none
  · exact sameMade_filter? ht ht' h fun _ _ hm => by rw [matchesTypeof_same ht ht' hm]

theorem sameMade_narrowByValue? (h : t.Same t' i i') (hj : t.Same t' j j') (positive : Bool) :
    Option.Rel (SameMade t t') (t.narrowByValue? i j positive) (t'.narrowByValue? i' j' positive) := by
  rw [narrowByValue?, narrowByValue?, isAnyLike_same ht ht' h]
  split
  · exact .some (sameMade_self ht ht' hj)
  · refine sameMade_filter? ht ht' h fun m m' hm => ?_
    have hvalue : m' = j' ↔ m = j := (hm.eq_iff hj ht ht').symm
    simp (disch := decide) only [isValue, eq_fixed_iff ht ht' hj, eq_fixed_iff ht ht' hm, hvalue]

/-! ## Texts -/

theorem format_same (h : t.Same t' i i') :
    t.format i = t'.format i' := by
  have hwithin : ∀ levels i i', t.Same t' i i' →
      t.formatWithin levels i = t'.formatWithin levels i' := by
    intro levels
    induction levels with
    | zero => exact fun _ _ _ => rfl
    | succ levels ih =>
      intro i i' h
      obtain ⟨data, data', hd, hd', hparallel⟩ := h.level ht ht'
      rw [formatWithin, formatWithin, hd, hd']
      exact formatData_parallel hparallel ih
  exact hwithin _ i i' h

end Table

end HeaderCheck.Types
