import HeaderCheck.Proofs.Types.Again
import HeaderCheck.Proofs.Types.Replacement

/-!
# HeaderCheck.Proofs.Types.History

What operations gave in the history of a table.

* `Operation.again`: an operation that made a type gives it again in every later table, and changes
  nothing there.
* `Table.Gave u op id`: at some time before `u` the operation `op` gave `id`. By `Gave.again` it is then
  as if `op` were run in `u`, so the order in which types were made does not matter.
-/

namespace HeaderCheck.Types
namespace Table

variable {t u : Table} {root : TypeId} {path : List Step}

/-! ## Replacing again -/

/-- Paths from types in use fit in a later table where they fit before. -/
theorem replaceable_iff_of_extends (ht : t.WellFormed) (hx : t.Extends u) (hroot : t.Issued root) :
    u.Replaceable root path ↔ t.Replaceable root path := by
  induction path generalizing root with
  | nil => exact Iff.rfl
  | cons step path ih =>
    rw [Replaceable, Replaceable, hx.lookup_eq hroot]
    refine exists_congr fun data => exists_congr fun child => and_congr_right fun hdata =>
      and_congr_right fun hchild => ih ?_
    exact ht.issued_part hdata (mem_parts_of_partAt? hchild)

theorem replaceAt?_again (ht : t.WellFormed) (hu : u.WellFormed) (hroot : t.Issued root)
    {replacement : TypeId} (hreplacement : t.Issued replacement) {made : TypeId × Table}
    (hmade : t.replaceAt? root path replacement = some made) (hx : made.2.Extends u) :
    u.replaceAt? root path replacement = some (made.1, u) := by
  induction path generalizing root made with
  | nil =>
    cases hmade
    rfl
  | cons step path ih =>
    obtain ⟨data, child, part, t₁, hdata, hchild, hpart, rfl⟩ := replaceAt?_cons_eq_some.mp hmade
    have hparts : ∀ p ∈ data.parts, t.Issued p := fun p hp => ht.issued_part hdata hp
    have hissued := hparts child (mem_parts_of_partAt? hchild)
    have hbelow := grows_replaceAt? ht hissued hreplacement hpart
    have hnew : ∀ p ∈ (withPart data step part).parts, t₁.Issued p := by
      intro p hp
      rcases mem_parts_withPart hp with hp | rfl
      · exact hbelow.extend.issued (hparts p hp)
      · exact hbelow.issued
    have hmakes := makes_make hbelow.wellFormed hnew
    rw [setPart_eq_make hchild] at hx ⊢
    have hx₁ := hmakes.grows.extend.trans hx
    refine replaceAt?_cons_eq_some.mpr ⟨data, child, part, u, (hbelow.extend.trans hx₁) _ _ hdata, hchild,
      ih hissued hpart hx₁, ?_⟩
    rw [setPart_eq_make hchild]
    exact hmakes.again u hu hx

/-- Replacements that are skipped are skipped again, and the others give the same. -/
theorem makes_instantiate {bindings : List (List Step × TypeId)} :
    ∀ {t : Table} {root : TypeId}, t.WellFormed → t.Issued root →
      (∀ binding ∈ bindings, t.Issued binding.2) → t.Makes fun t => t.instantiate root bindings := by
  induction bindings with
  | nil => exact fun ht hroot _ => makes_self ht hroot
  | cons binding rest ih =>
    obtain ⟨path, type⟩ := binding
    intro t root ht hroot hissued
    obtain ⟨htype, hrest⟩ := List.forall_mem_cons.mp hissued
    refine ⟨grows_instantiate ht hroot hissued, fun u hu hx => ?_⟩
    simp only [instantiate] at hx ⊢
    cases hreplaced : t.replaceAt? root path type with
    | some replaced =>
      have hgrows := grows_replaceAt? ht hroot htype hreplaced
      have hmakes := ih hgrows.wellFormed hgrows.issued fun b hb => hgrows.extend.issued (hrest b hb)
      rw [hreplaced] at hx
      rw [replaceAt?_again ht hu hroot htype hreplaced (hmakes.grows.extend.trans hx)]
      exact hmakes.again u hu hx
    | none =>
      have hmakes := ih ht hroot hrest
      rw [hreplaced] at hx
      have hskipped : u.replaceAt? root path type = none := by
        have hno : ¬ t.Replaceable root path := by
          rw [← isSome_replaceAt?, hreplaced]
          exact Bool.false_ne_true
        rwa [← replaceable_iff_of_extends ht (hmakes.grows.extend.trans hx) hroot,
          ← isSome_replaceAt?, Option.not_isSome_iff_eq_none] at hno
      rw [hskipped]
      exact hmakes.again u hu hx

end Table

/-! ## Operations again -/

/-- An operation gives in a later table what it gave before, and adds nothing. -/
theorem Operation.again {t u : Table} (ht : t.WellFormed) (hu : u.WellFormed) {op : Operation}
    {made : TypeId × Table} (hids : ∀ given ∈ op.handles, t.Issued given) (hrun : op.run t = some made)
    (hx : made.2.Extends u) : op.run u = some (made.1, u) := by
  have hafter := (grows_of_run ht hids hrun).extend.trans hx
  cases op with
  | replaceAt root path replacement =>
    exact Table.replaceAt?_again ht hu (hids root (by simp [handles]))
      (hids replacement (by simp [handles])) hrun hx
  | withField whole name type =>
    obtain ⟨shape, hshape, rfl⟩ := Option.map_eq_some_iff.mp hrun
    have hsame := hafter _ _ (Table.objectShape?_eq_some.mp hshape)
    exact Option.map_eq_some_iff.mpr
      ⟨shape, Table.objectShape?_eq_some.mpr hsame, Table.add_again hu hx⟩
  | instantiate root bindings =>
    cases hrun
    have hbound : ∀ binding ∈ bindings, t.Issued binding.2 :=
      fun binding hb => hids binding.2 (List.mem_cons_of_mem _ (List.mem_map_of_mem hb))
    have hmakes := Table.makes_instantiate ht (hids root (by simp [handles])) hbound
    exact congrArg some (hmakes.again u hu hx)
  | withBrand whole brand =>
    cases hrun
    have hmakes := Table.makes_withBrand ht (hids whole (by simp [handles])) brand
    exact congrArg some (hmakes.again u hu hx)
  | union members =>
    cases hrun
    exact congrArg some ((Table.makes_union ht hids).again u hu hx)
  | intersection members =>
    cases hrun
    exact congrArg some ((Table.makes_intersection ht hids).again u hu hx)
  | _ =>
    -- one level is added as it is given
    cases hrun
    exact congrArg some (Table.add_again hu hx)

/-- The operation gave the handle at some time in the history of the table. -/
def Table.Gave (u : Table) (op : Operation) (id : TypeId) : Prop :=
  ∃ t made, Reachable t ∧ (∀ given ∈ op.handles, t.Issued given) ∧ op.run t = some (id, made) ∧
    Reaches made u

theorem Reaches.trans {t u v : Table} (htu : Reaches t u) (huv : Reaches u v) : Reaches t v := by
  induction huv with
  | refl => exact htu
  | step op _ hids ih => exact ih.step op hids

/-- An operation that makes a type has given it. -/
theorem gave_after {t : Table} (ht : Reachable t) (op : Operation)
    (hids : ∀ given ∈ op.handles, t.Issued given)
    {made : TypeId × Table} (hrun : op.run t = some made) : (op.after t).Gave op made.1 := by
  refine ⟨t, made.2, ht, hids, hrun, ?_⟩
  rw [Operation.after, hrun]
  exact .refl

namespace Table.Gave

variable {u : Table} {op : Operation} {id : TypeId}

theorem wellFormed (h : u.Gave op id) : u.WellFormed := by
  obtain ⟨t, made, ht, hids, hrun, hu⟩ := h
  exact (hu.wellFormed_extends (Operation.grows_of_run ht.wellFormed hids hrun).wellFormed).1

/-- What was given once is given again. -/
theorem again (h : u.Gave op id) : op.run u = some (id, u) := by
  obtain ⟨t, made, ht, hids, hrun, hu⟩ := h
  have hgrows := Operation.grows_of_run ht.wellFormed hids hrun
  obtain ⟨hwf, hx⟩ := hu.wellFormed_extends hgrows.wellFormed
  exact Operation.again ht.wellFormed hwf hids hrun hx

/-- What was given before is given in a later table. -/
theorem later (h : u.Gave op id) {v : Table} (hv : Reaches u v) : v.Gave op id := by
  obtain ⟨t, made, ht, hids, hrun, hu⟩ := h
  exact ⟨t, made, ht, hids, hrun, hu.trans hv⟩

end Table.Gave

end HeaderCheck.Types
