import HeaderCheck.Proofs.Types.Independence
import HeaderCheck.Types.Place

/-!
# HeaderCheck.Proofs.Types.Counterparts

More that two tables say alike of types with the same trees: their shapes and elements, the parts at
the end of a path, the type variables in them, and copies with parts replaced.
-/

namespace HeaderCheck.Types

theorem rel_isSome_eq {α β : Type} {R : α → β → Prop} {a : Option α} {b : Option β}
    (h : Option.Rel R a b) : b.isSome = a.isSome := by
  cases h <;> rfl

theorem rel_isNone_eq {α β : Type} {R : α → β → Prop} {a : Option α} {b : Option β}
    (h : Option.Rel R a b) : b.isNone = a.isNone := by
  cases h <;> rfl

theorem rel_bind {α β γ δ : Type} {R : α → β → Prop} {S : γ → δ → Prop} {a : Option α} {b : Option β}
    {f : α → Option γ} {g : β → Option δ} (h : Option.Rel R a b)
    (hfg : ∀ x y, R x y → Option.Rel S (f x) (g y)) : Option.Rel S (a.bind f) (b.bind g) := by
  cases h with
  | none => exact .none
  | some hxy => exact hfg _ _ hxy

theorem rel_map {α β γ δ : Type} {R : α → β → Prop} {S : γ → δ → Prop} {a : Option α} {b : Option β}
    {f : α → γ} {g : β → δ} (h : Option.Rel R a b) (hfg : ∀ x y, R x y → S (f x) (g y)) :
    Option.Rel S (a.map f) (b.map g) := by
  cases h with
  | none => exact .none
  | some hxy => exact .some (hfg _ _ hxy)

theorem rel_filter {α β : Type} {R : α → β → Prop} {a : Option α} {b : Option β} {keep : α → Bool}
    {keep' : β → Bool} (h : Option.Rel R a b) (hkeep : ∀ x y, R x y → keep' y = keep x) :
    Option.Rel R (a.filter keep) (b.filter keep') := by
  cases h with
  | none => exact .none
  | @some x y hxy =>
    rw [Option.filter_some, Option.filter_some, hkeep _ _ hxy]
    split
    · exact .some hxy
    · exact .none

theorem rel_any_eq {α β : Type} {R : α → β → Prop} {a : Option α} {b : Option β} {f : α → Bool}
    {g : β → Bool} (h : Option.Rel R a b) (hfg : ∀ x y, R x y → g y = f x) : b.any g = a.any f := by
  cases h with
  | none => rfl
  | some hxy => exact hfg _ _ hxy

theorem rel_getD {α β : Type} {R : α → β → Prop} {a : Option α} {b : Option β} {x : α} {y : β}
    (h : Option.Rel R a b) (hxy : R x y) : R (a.getD x) (b.getD y) := by
  cases h with
  | none => exact hxy
  | some h => exact h

theorem filterMap_eq_of_forall₂ {α β γ : Type} {R : α → β → Prop} {l : List α} {l' : List β}
    {f : α → Option γ} {g : β → Option γ} (h : List.Forall₂ R l l') (hfg : ∀ x y, R x y → g y = f x) :
    l'.filterMap g = l.filterMap f := by
  induction h with
  | nil => rfl
  | cons hxy _ ih => rw [List.filterMap_cons, List.filterMap_cons, hfg _ _ hxy, ih]

theorem forall₂_filter {α β : Type} {R : α → β → Prop} {l : List α} {l' : List β} {keep : α → Bool}
    {keep' : β → Bool} (h : List.Forall₂ R l l') (hkeep : ∀ x y, R x y → keep' y = keep x) :
    List.Forall₂ R (l.filter keep) (l'.filter keep') := by
  induction h with
  | nil => exact .nil
  | @cons x y _ _ hxy _ ih =>
    rw [List.filter_cons, List.filter_cons, hkeep x y hxy]
    split
    · exact .cons hxy ih
    · exact ih

namespace Table

variable {t t' : Table} {i i' j j' : TypeId} (ht : t.WellFormed) (ht' : t'.WellFormed)

include ht ht'

/-! ## Shapes -/

theorem functionShape?_same (h : t.Same t' i i') :
    Option.Rel (FunctionShape.Parallel (t.Same t')) (t.functionShape? i) (t'.functionShape? i') := by
  obtain ⟨data, data', hd, hd', hparallel⟩ := h.level ht ht'
  rw [functionShape?, functionShape?, hd, hd']
  cases hparallel with
  | function hs => exact .some hs
  | _ => exact .none

theorem isFunction_same (h : t.Same t' i i') : t'.isFunction i' = t.isFunction i := by
  obtain ⟨data, data', hd, hd', hparallel⟩ := h.level ht ht'
  rw [isFunction, isFunction, functionShape?, functionShape?, hd, hd']
  cases hparallel <;> rfl

theorem isObject_same (h : t.Same t' i i') : t'.isObject i' = t.isObject i := by
  obtain ⟨data, data', hd, hd', hparallel⟩ := h.level ht ht'
  rw [isObject, isObject, objectShape?, objectShape?, hd, hd']
  cases hparallel <;> rfl

theorem isFree_same (h : t.Same t' i i') : t'.isFree i' = t.isFree i := by
  obtain ⟨data, data', hd, hd', hparallel⟩ := h.level ht ht'
  rw [isFree, isFree, hd, hd']
  cases hparallel <;> rfl

theorem genericParts?_same (h : t.Same t' i i') :
    Option.Rel (fun x y => t.Same t' x.1 y.1 ∧ List.Forall₂ (t.Same t') x.2 y.2)
      (t.genericParts? i) (t'.genericParts? i') := by
  obtain ⟨data, data', hd, hd', hparallel⟩ := h.level ht ht'
  rw [genericParts?, genericParts?, hd, hd']
  cases hparallel with
  | generic hbase hargs => exact .some ⟨hbase, hargs⟩
  | _ => exact .none

theorem arrayElement?_same (h : t.Same t' i i') :
    Option.Rel (t.Same t') (t.arrayElement? i) (t'.arrayElement? i') := by
  obtain ⟨data, data', hd, hd', hparallel⟩ := h.level ht ht'
  rw [arrayElement?, arrayElement?, hd, hd']
  cases hparallel with
  | generic hbase hargs =>
    cases hargs with
    | nil => exact .none
    | cons hfirst hrest =>
      cases hrest with
      | cons _ _ => exact .none
      | nil =>
        simp (disch := decide) only [eq_fixed_iff ht ht' hbase]
        split
        · exact .some hfirst
        · exact .none
  | _ => exact .none

theorem growsFreely_same (h : t.Same t' i i') : i'.growsFreely = i.growsFreely := by
  simp (disch := decide) only [TypeId.growsFreely, eq_fixed_iff ht ht' h]

theorem isSubtype_same (h : t.Same t' i i') (hj : t.Same t' j j') :
    t'.isSubtype i' j' = t.isSubtype i j :=
  (check_same ht ht' h hj).isOk_eq.symm

/-! ## Paths -/

/-- Renamed types are looked through in both tables, each with levels enough for its handles. -/
theorem childWithin?_same (step : Step) {fuel fuel' : Nat} (h : t.Same t' i i')
    (hfuel : i.index < fuel) (hfuel' : i'.index < fuel') :
    Option.Rel (t.Same t') (t.childWithin? fuel i step) (t'.childWithin? fuel' i' step) := by
  induction fuel generalizing fuel' i i' with
  | zero => cases hfuel
  | succ fuel ih =>
    cases fuel' with
    | zero => cases hfuel'
    | succ fuel' =>
      obtain ⟨data, data', hd, hd', hparallel⟩ := h.level ht ht'
      have hpart := partAt?_same hparallel step
      rw [childWithin?, childWithin?, hd, hd']
      cases hparallel with
      | renamed name builtin htarget =>
        have hlt := ht.descends hd _ List.mem_cons_self
        have hlt' := ht'.descends hd' _ List.mem_cons_self
        exact ih htarget (by omega) (by omega)
      | _ => exact hpart

theorem typeAt?_same (h : t.Same t' i i') (path : List Step) :
    Option.Rel (t.Same t') (t.typeAt? i path) (t'.typeAt? i' path) := by
  induction path generalizing i i' with
  | nil => exact .some h
  | cons step path ih =>
    have hchild := childWithin?_same ht ht' step h (Nat.lt_succ_of_lt h.left)
      (Nat.lt_succ_of_lt h.right)
    rw [typeAt?, typeAt?, childAt?, childAt?]
    generalize t.childWithin? (t.size + 1) i step = child at hchild ⊢
    generalize t'.childWithin? (t'.size + 1) i' step = child' at hchild ⊢
    cases hchild with
    | none => exact .none
    | some hchild => exact ih hchild

theorem containsFree_same (h : t.Same t' i i') : t'.containsFree i' = t.containsFree i := by
  have hwithin : ∀ fuel i i', t.Same t' i i' →
      t'.containsFreeWithin fuel i' = t.containsFreeWithin fuel i := by
    intro fuel
    induction fuel with
    | zero => exact fun _ _ _ => rfl
    | succ fuel ih =>
      intro i i' h
      obtain ⟨data, data', hd, hd', hparallel⟩ := h.level ht ht'
      have hparts : data'.parts.any (t'.containsFreeWithin fuel) =
          data.parts.any (t.containsFreeWithin fuel) := by
        have hall := hparallel.parts
        generalize data.parts = parts at hall ⊢
        generalize data'.parts = parts' at hall ⊢
        induction hall with
        | nil => rfl
        | cons hfirst _ ihrest => rw [List.any_cons, List.any_cons, ih _ _ hfirst, ihrest]
      rw [containsFreeWithin, containsFreeWithin, hd, hd']
      cases hparallel with
      | free => rfl
      | _ => exact hparts
  exact hwithin _ i i' h

/-! ## Copies with parts replaced -/

theorem sameMade_instantiate (h : t.Same t' i i') {bindings bindings' : List (List Step × TypeId)}
    (hb : List.Forall₂ (fun x y => y.1 = x.1 ∧ t.Same t' x.2 y.2) bindings bindings') :
    SameMade t t' (t.instantiate i bindings) (t'.instantiate i' bindings') := by
  induction bindings generalizing t t' i i' bindings' with
  | nil =>
    cases hb
    exact sameMade_self ht ht' h
  | cons x rest ih =>
    obtain ⟨y, rest', ⟨hpath, htype⟩, hrest, rfl⟩ := List.forall₂_cons_left_iff.mp hb
    obtain ⟨path, type⟩ := x
    obtain ⟨path', type'⟩ := y
    cases hpath
    have hmade := sameMade_replaceAt? ht ht' h path htype
    rw [instantiate, instantiate]
    generalize t.replaceAt? i path type = made at hmade ⊢
    generalize t'.replaceAt? i' path type' = made' at hmade ⊢
    cases hmade with
    | none => exact ih ht ht' h hrest
    | some hmade =>
      have hlater := hrest.imp fun _ _ hxy => And.imp_right (hmade.extend ht ht') hxy
      exact hmade.trans (ih hmade.left.wellFormed hmade.right.wellFormed hmade.same hlater)

end Table

end HeaderCheck.Types
