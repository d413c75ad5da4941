import HeaderCheck.Proofs.Types.Rules
import HeaderCheck.Types.Outline

/-!
# HeaderCheck.Proofs.Types.Outline

Trees of types, and types of two tables that have the same tree.

* `TypeData.Parallel R`: two levels of types that differ in their handles only, which are related
  by `R`.
* `WellFormed.outline_eq`: the tree of a type consists of the trees of its parts.
* `WellFormed.outline_injective`: in one table a tree determines its handle.
* `Table.Same t t' i i'`: the handle `i` stands in `t` for the tree that `i'` stands for in `t'`.
  Such handles have parallel levels (`Same.level`), one of them determines the other
  (`Same.eq_iff`), and each built-in handle stands for the same tree in all tables (`same_fixed`).
-/

namespace HeaderCheck.Types

/-! ## Levels that differ in their handles -/

/-- Fields of the same name whose types are related. -/
structure Field.Parallel (R : TypeId → TypeId → Prop) (f f' : Field) : Prop where
  name : f'.name = f.name
  type : R f.type f'.type
  optional : f'.optional = f.optional

structure Param.Parallel (R : TypeId → TypeId → Prop) (p p' : Param) : Prop where
  name : p'.name = p.name
  type : R p.type p'.type
  optional : p'.optional = p.optional

structure ObjectShape.Parallel (R : TypeId → TypeId → Prop) (s s' : ObjectShape) : Prop where
  fields : List.Forall₂ (Field.Parallel R) s.fields s'.fields
  isOpen : s'.isOpen = s.isOpen
  brand : s'.brand = s.brand

structure FunctionShape.Parallel (R : TypeId → TypeId → Prop) (s s' : FunctionShape) : Prop where
  params : List.Forall₂ (Param.Parallel R) s.params s'.params
  result : R s.result s'.result
  this : Option.Rel R s.this s'.this
  generics : s'.generics = s.generics
  brand : s'.brand = s.brand

inductive TypeData.Parallel (R : TypeId → TypeId → Prop) : TypeData → TypeData → Prop where
  | literal (name : String) (builtin : Bool) :
      Parallel R (.literal name builtin) (.literal name builtin)
  | value (value name : String) : Parallel R (.value value name) (.value value name)
  | object {s s' : ObjectShape} : s.Parallel R s' → Parallel R (.object s) (.object s')
  | union {ms ms' : List TypeId} : List.Forall₂ R ms ms' → Parallel R (.union ms) (.union ms')
  | intersection {ms ms' : List TypeId} :
      List.Forall₂ R ms ms' → Parallel R (.intersection ms) (.intersection ms')
  | function {s s' : FunctionShape} : s.Parallel R s' → Parallel R (.function s) (.function s')
  | generic {base base' : TypeId} {args args' : List TypeId} :
      R base base' → List.Forall₂ R args args' → Parallel R (.generic base args) (.generic base' args')
  | tuple {es es' : List TypeId} : List.Forall₂ R es es' → Parallel R (.tuple es) (.tuple es')
  | renamed (name : String) (builtin : Bool) {target target' : TypeId} :
      R target target' → Parallel R (.renamed name builtin target) (.renamed name builtin target')
  | free (name : String) : Parallel R (.free name) (.free name)

section Lists

variable {α β γ : Type}

theorem forall₂_of_map_eq {f : α → γ} {g : β → γ} {R : α → β → Prop} {l : List α} {l' : List β}
    (h : l.map f = l'.map g) (hR : ∀ a ∈ l, ∀ b ∈ l', f a = g b → R a b) : List.Forall₂ R l l' := by
  induction l generalizing l' with
  | nil =>
    cases l' with
    | nil => exact .nil
    | cons b rest' => cases h
  | cons a rest ih =>
    cases l' with
    | nil => cases h
    | cons b rest' =>
      obtain ⟨hfirst, hrest⟩ := List.cons.inj h
      refine .cons (hR a List.mem_cons_self b List.mem_cons_self hfirst) (ih hrest fun a ha b hb => ?_)
      exact hR a (List.mem_cons_of_mem _ ha) b (List.mem_cons_of_mem _ hb)

theorem map_eq_of_forall₂ {f : α → γ} {g : β → γ} {R : α → β → Prop} {l : List α} {l' : List β}
    (h : List.Forall₂ R l l') (hR : ∀ a b, R a b → f a = g b) : l.map f = l'.map g := by
  induction h with
  | nil => rfl
  | cons hfirst _ ih => rw [List.map_cons, List.map_cons, hR _ _ hfirst, ih]

theorem map_eq_of_rel {f : α → γ} {g : β → γ} {R : α → β → Prop} {a : Option α} {b : Option β}
    (h : Option.Rel R a b) (hR : ∀ a b, R a b → f a = g b) : a.map f = b.map g := by
  cases h with
  | none => rfl
  | some hab => exact congrArg some (hR _ _ hab)

theorem eq_of_forall₂ {R : α → α → Prop} {l l' : List α} (h : List.Forall₂ R l l')
    (hR : ∀ a b, R a b → a = b) : l = l' := by
  rw [← List.forall₂_eq_eq_eq]
  exact h.imp hR

end Lists

section Outline

variable {f g : TypeId → Outline} {R : TypeId → TypeId → Prop} {data data' : TypeData}

theorem outlineData_congr (h : ∀ part ∈ data.parts, f part = g part) :
    Table.outlineData f data = Table.outlineData g data := by
  cases data with
  | literal | value | free => rfl
  | object shape =>
    have hfields := List.map_congr_left fun (field : Field) (hmem : field ∈ shape.fields) =>
      congrArg (fun type => (field.name, type, field.optional)) (h _ (List.mem_map_of_mem hmem))
    simp only [Table.outlineData, hfields]
  | union members => exact congrArg Outline.union (List.map_congr_left h)
  | intersection members => exact congrArg Outline.intersection (List.map_congr_left h)
  | function shape =>
    have hparams := List.map_congr_left fun (param : Param) (hmem : param ∈ shape.params) =>
      congrArg (fun type => (param.name, type, param.optional)) (h _ (param_mem_parts hmem))
    have hthis : shape.this.map f = shape.this.map g :=
      Option.map_congr fun this hmem => h this (by simp [TypeData.parts, Option.mem_def.mp hmem])
    simp only [Table.outlineData, hparams, h _ (result_mem_parts shape), hthis]
  | generic base args =>
    have hargs := List.map_congr_left fun arg hmem => h arg (List.mem_cons_of_mem _ hmem)
    simp only [Table.outlineData, h base List.mem_cons_self, hargs]
  | tuple elements => exact congrArg Outline.tuple (List.map_congr_left h)
  | renamed name builtin target =>
    exact congrArg (Outline.renamed name builtin) (h target (List.mem_singleton.mpr rfl))

/-- Levels with the same tree are parallel. -/
theorem parallel_of_outlineData (h : Table.outlineData f data = Table.outlineData g data')
    (hR : ∀ p ∈ data.parts, ∀ p' ∈ data'.parts, f p = g p' → R p p') : data.Parallel R data' := by
  cases data <;> cases data' <;> injection h
  case literal.literal hname hbuiltin =>
    subst hname hbuiltin
    exact .literal _ _
  case value.value hvalue hname =>
    subst hvalue hname
    exact .value _ _
  case object.object shape shape' hopen hbrand hfields =>
    refine .object ⟨forall₂_of_map_eq hfields fun a ha b hb hab => ?_, hopen.symm, hbrand.symm⟩
    obtain ⟨hname, htype, hoptional⟩ : a.name = b.name ∧ f a.type = g b.type ∧
        a.optional = b.optional := by simpa using hab
    exact ⟨hname.symm, hR _ (List.mem_map_of_mem ha) _ (List.mem_map_of_mem hb) htype, hoptional.symm⟩
  case union.union hmembers => exact .union (forall₂_of_map_eq hmembers hR)
  case intersection.intersection hmembers => exact .intersection (forall₂_of_map_eq hmembers hR)
  case function.function shape shape' hbrand hparams hresult hthis hgenerics =>
    refine .function ⟨forall₂_of_map_eq hparams fun a ha b hb hab => ?_, ?_, ?_, hgenerics.symm,
      hbrand.symm⟩
    · obtain ⟨hname, htype, hoptional⟩ : a.name = b.name ∧ f a.type = g b.type ∧
          a.optional = b.optional := by simpa using hab
      refine ⟨hname.symm, hR _ ?_ _ ?_ htype, hoptional.symm⟩ <;>
        exact List.mem_append_left _ (List.mem_append_left _ (List.mem_map_of_mem ‹_›))
    · exact hR _ (by simp [TypeData.parts]) _ (by simp [TypeData.parts]) hresult
    · cases hs : shape.this with
      | none =>
        rw [hs] at hthis
        rw [Option.map_eq_none_iff.mp hthis.symm]
        exact .none
      | some this =>
        rw [hs] at hthis
        obtain ⟨this', hs', heq⟩ := Option.map_eq_some_iff.mp hthis.symm
        rw [hs']
        exact .some (hR _ (by simp [TypeData.parts, hs]) _ (by simp [TypeData.parts, hs']) heq.symm)
  case generic.generic hbase hargs =>
    refine .generic (hR _ List.mem_cons_self _ List.mem_cons_self hbase)
      (forall₂_of_map_eq hargs fun a ha b hb => ?_)
    exact hR a (List.mem_cons_of_mem _ ha) b (List.mem_cons_of_mem _ hb)
  case tuple.tuple helements => exact .tuple (forall₂_of_map_eq helements hR)
  case renamed.renamed hname hbuiltin htarget =>
    subst hname hbuiltin
    exact .renamed _ _ (hR _ (List.mem_singleton.mpr rfl) _ (List.mem_singleton.mpr rfl) htarget)
  case free.free hname =>
    subst hname
    exact .free _

/-- Parallel levels have the same tree when related parts do. -/
theorem outlineData_of_parallel (h : data.Parallel R data') (hR : ∀ p p', R p p' → f p = g p') :
    Table.outlineData f data = Table.outlineData g data' := by
  cases h with
  | literal | value | free => rfl
  | object hs =>
    have hfields := map_eq_of_forall₂ hs.fields
      (f := fun a => (a.name, f a.type, a.optional)) (g := fun b => (b.name, g b.type, b.optional))
      fun a b hab => by rw [hab.name, hR _ _ hab.type, hab.optional]
    simp only [Table.outlineData, hs.isOpen, hs.brand, hfields]
  | union hms => simp only [Table.outlineData, map_eq_of_forall₂ hms hR]
  | intersection hms => simp only [Table.outlineData, map_eq_of_forall₂ hms hR]
  | function hs =>
    have hparams := map_eq_of_forall₂ hs.params
      (f := fun a => (a.name, f a.type, a.optional)) (g := fun b => (b.name, g b.type, b.optional))
      fun a b hab => by rw [hab.name, hR _ _ hab.type, hab.optional]
    simp only [Table.outlineData, hs.brand, hparams, hR _ _ hs.result, map_eq_of_rel hs.this hR,
      hs.generics]
  | generic hbase hargs =>
    simp only [Table.outlineData, hR _ _ hbase, map_eq_of_forall₂ hargs hR]
  | tuple hes => simp only [Table.outlineData, map_eq_of_forall₂ hes hR]
  | renamed name builtin htarget => simp only [Table.outlineData, hR _ _ htarget]

theorem Field.Parallel.eq {a b : Field} (h : Field.Parallel Eq a b) : a = b := by
  cases a
  cases b
  obtain ⟨hname, htype, hoptional⟩ := h
  simp_all

theorem Param.Parallel.eq {a b : Param} (h : Param.Parallel Eq a b) : a = b := by
  cases a
  cases b
  obtain ⟨hname, htype, hoptional⟩ := h
  simp_all

theorem TypeData.Parallel.eq (h : data.Parallel Eq data') : data = data' := by
  cases h with
  | literal | value | free => rfl
  | @object s s' hs =>
    cases s
    cases s'
    obtain ⟨hfields, hopen, hbrand⟩ := hs
    cases eq_of_forall₂ hfields fun _ _ => Field.Parallel.eq
    simp_all
  | union hms => rw [eq_of_forall₂ hms fun _ _ => id]
  | intersection hms => rw [eq_of_forall₂ hms fun _ _ => id]
  | @function s s' hs =>
    cases s
    cases s'
    obtain ⟨hparams, hresult, hthis, hgenerics, hbrand⟩ := hs
    cases eq_of_forall₂ hparams fun _ _ => Param.Parallel.eq
    have hthis := map_eq_of_rel hthis (f := id) (g := id) fun _ _ => id
    simp_all
  | generic hbase hargs => rw [hbase, eq_of_forall₂ hargs fun _ _ => id]
  | tuple hes => rw [eq_of_forall₂ hes fun _ _ => id]
  | renamed name builtin htarget => rw [htarget]

end Outline

namespace Table

variable {t t' u u' : Table} {i i' j j' : TypeId}

/-! ## Trees in one table -/

namespace WellFormed

/-- More levels than the handle counts make no difference. -/
theorem outlineWithin_stable (h : t.WellFormed) {levels more : Nat} {id : TypeId}
    (hlevels : id.index < levels) (hmore : id.index < more) :
    t.outlineWithin levels id = t.outlineWithin more id := by
  induction levels generalizing more id with
  | zero => omega
  | succ levels ih =>
    obtain ⟨more, rfl⟩ : ∃ k, more = k + 1 := ⟨more - 1, by omega⟩
    simp only [outlineWithin]
    cases hd : t.lookup id with
    | none => rfl
    | some data =>
      refine outlineData_congr fun part hp => ?_
      have hlt := h.descends hd part hp
      exact ih (by omega) (by omega)

/-- The tree of a type consists of the trees of its parts. -/
theorem outline_eq (h : t.WellFormed) {id : TypeId} {data : TypeData}
    (hd : t.lookup id = some data) : t.outline id = outlineData t.outline data := by
  have hsize : id.index < t.size := issued_of_lookup hd
  rw [outline, outlineWithin, hd]
  refine outlineData_congr fun part hp => ?_
  have hlt := h.descends hd part hp
  exact h.outlineWithin_stable (by omega) (by omega)

/-- A tree has one handle. -/
theorem outline_injective (h : t.WellFormed) (hi : t.Issued i) (hj : t.Issued j)
    (heq : t.outline i = t.outline j) : i = j := by
  induction hn : i.index using Nat.strongRecOn generalizing i j with
  | ind n ih =>
    obtain ⟨data, hd⟩ := issued_iff.mp hi
    obtain ⟨data', hd'⟩ := issued_iff.mp hj
    rw [h.outline_eq hd, h.outline_eq hd'] at heq
    have hparallel : data.Parallel Eq data' :=
      parallel_of_outlineData heq fun p hp p' hp' hpart =>
        ih p.index (hn ▸ h.descends hd p hp) (h.issued_part hd hp) (h.issued_part hd' hp') hpart rfl
    exact h.injective hd (hparallel.eq ▸ hd')

end WellFormed

/-- Trees stay what they are when types are added. -/
theorem Extends.outline_eq (hx : t.Extends u) (ht : t.WellFormed) (hu : u.WellFormed)
    (hi : t.Issued i) : u.outline i = t.outline i := by
  induction hn : i.index using Nat.strongRecOn generalizing i with
  | ind n ih =>
    obtain ⟨data, hd⟩ := issued_iff.mp hi
    rw [ht.outline_eq hd, hu.outline_eq (hx i data hd)]
    exact outlineData_congr fun part hp =>
      ih part.index (hn ▸ ht.descends hd part hp) (ht.issued_part hd hp) rfl

/-! ## Trees in two tables -/

/-- The handles stand for the same tree. -/
structure Same (t t' : Table) (i i' : TypeId) : Prop where
  left : t.Issued i
  right : t'.Issued i'
  outline : t.outline i = t'.outline i'

namespace Same

theorem level (h : t.Same t' i i') (ht : t.WellFormed) (ht' : t'.WellFormed) :
    ∃ data data', t.lookup i = some data ∧ t'.lookup i' = some data' ∧
      data.Parallel (t.Same t') data' := by
  obtain ⟨data, hd⟩ := issued_iff.mp h.left
  obtain ⟨data', hd'⟩ := issued_iff.mp h.right
  have heq := h.outline
  rw [ht.outline_eq hd, ht'.outline_eq hd'] at heq
  exact ⟨data, data', hd, hd', parallel_of_outlineData heq fun p hp p' hp' hpart =>
    ⟨ht.issued_part hd hp, ht'.issued_part hd' hp', hpart⟩⟩

/-- One of two handles with the same tree determines the other. -/
theorem eq_iff (hi : t.Same t' i i') (hj : t.Same t' j j') (ht : t.WellFormed)
    (ht' : t'.WellFormed) : i = j ↔ i' = j' := by
  constructor
  · rintro rfl
    exact ht'.outline_injective hi.right hj.right (hi.outline.symm.trans hj.outline)
  · rintro rfl
    exact ht.outline_injective hi.left hj.left (hi.outline.trans hj.outline.symm)

theorem extend (h : t.Same t' i i') (ht : t.WellFormed) (ht' : t'.WellFormed) (hu : u.WellFormed)
    (hu' : u'.WellFormed) (hx : t.Extends u) (hx' : t'.Extends u') : u.Same u' i i' := by
  refine ⟨hx.issued h.left, hx'.issued h.right, ?_⟩
  rw [hx.outline_eq ht hu h.left, hx'.outline_eq ht' hu' h.right, h.outline]

end Same

/-- Handles with parallel levels stand for the same tree. -/
theorem same_of_level (ht : t.WellFormed) (ht' : t'.WellFormed) {data data' : TypeData}
    (hd : t.lookup i = some data) (hd' : t'.lookup i' = some data')
    (h : data.Parallel (t.Same t') data') : t.Same t' i i' := by
  refine ⟨issued_of_lookup hd, issued_of_lookup hd', ?_⟩
  rw [ht.outline_eq hd, ht'.outline_eq hd']
  exact outlineData_of_parallel h fun _ _ hp => hp.outline

/-- Built-in handles stand for the same tree in every table. -/
theorem same_fixed (ht : t.WellFormed) (ht' : t'.WellFormed) {id : TypeId}
    (hid : id.index < builtins.length) : t.Same t' id id := by
  have hd := List.getElem?_eq_getElem hid
  refine ⟨ht.issued_of_lt hid, ht'.issued_of_lt hid, ?_⟩
  have hnone : ∀ data ∈ builtins, data.parts = [] := by decide
  rw [ht.outline_eq (ht.builtin hd), ht'.outline_eq (ht'.builtin hd)]
  refine outlineData_congr fun part hp => ?_
  rw [hnone _ (List.getElem_mem hid)] at hp
  cases hp

end Table

end HeaderCheck.Types
