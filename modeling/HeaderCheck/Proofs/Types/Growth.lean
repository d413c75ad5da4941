import HeaderCheck.Proofs.Types.Narrowing
import HeaderCheck.Proofs.Types.Parts

/-!
# HeaderCheck.Proofs.Types.Growth

Tables of types only grow, whatever is made of types: no operation changes what a handle stands for.
Parts of a function are replaced in such a way that it stays a function.
-/

namespace HeaderCheck.Types.Table

theorem extends_intersection (t : Table) (members : List TypeId) :
    t.Extends (t.intersection members).2 := by
  unfold intersection
  split
  · exact .refl t
  · exact .refl t
  · exact extends_add t _

theorem extends_withBrand (t : Table) (id : TypeId) (brand : String) :
    t.Extends (t.withBrand id brand).2 := by
  unfold withBrand
  split
  · exact extends_add t _
  · exact extends_add t _
  · exact .refl t

theorem growing_withField (name : String) (type : TypeId) :
    Growing fun t object => t.withField object name type := by
  intro t object made h
  obtain ⟨shape, _, rfl⟩ := Option.map_eq_some_iff.mp h
  exact extends_add t _

theorem extends_setPart (t : Table) (data : TypeData) (step : Step) (part : TypeId) :
    t.Extends (t.setPart data step part).2 := by
  unfold setPart
  split
  case h_6 => exact extends_union t _
  case h_7 => exact extends_intersection t _
  all_goals exact extends_add t _

theorem extends_replaceAt? {t : Table} {root : TypeId} {path : List Step} {replacement : TypeId}
    {made : TypeId × Table} (h : t.replaceAt? root path replacement = some made) :
    t.Extends made.2 := by
  induction path generalizing root made with
  | nil =>
    cases h
    exact .refl t
  | cons step path ih =>
    obtain ⟨data, child, part, u, -, -, hbelow, rfl⟩ := replaceAt?_cons_eq_some.mp h
    exact (ih hbelow).trans (extends_setPart _ _ step _)

theorem extends_instantiate (t : Table) (root : TypeId) (bindings : List (List Step × TypeId)) :
    t.Extends (t.instantiate root bindings).2 := by
  induction bindings generalizing t root with
  | nil => exact .refl t
  | cons binding rest ih =>
    obtain ⟨path, type⟩ := binding
    rw [instantiate]
    split
    · next hreplaced => exact (extends_replaceAt? hreplaced).trans (ih _ _)
    · exact ih t root

/-! ## Functions stay functions -/

theorem functionShape?_eq_some {t : Table} {id : TypeId} {shape : FunctionShape} :
    t.functionShape? id = some shape ↔ t.lookup id = some (.function shape) := by
  unfold functionShape?
  split
  · next found hfound => simp [hfound]
  · next hother => simpa using fun hf => hother shape hf

theorem Extends.functionShape? {t u : Table} (h : t.Extends u) {id : TypeId} {shape : FunctionShape}
    (hs : t.functionShape? id = some shape) : u.functionShape? id = some shape :=
  functionShape?_eq_some.mpr (h id _ (functionShape?_eq_some.mp hs))

theorem functionShape?_function (t : Table) (shape : FunctionShape) :
    (t.function shape).2.functionShape? (t.function shape).1 = some shape :=
  functionShape?_eq_some.mpr (lookup_add_self t _)

/-- A part of a function that a step leads to is put back into a function with as many
parameters. -/
theorem functionShape?_replaceAt? {t : Table} {root : TypeId} {shape : FunctionShape}
    {path : List Step} {replacement : TypeId} {made : TypeId × Table} (hpath : path ≠ [])
    (hroot : t.functionShape? root = some shape)
    (h : t.replaceAt? root path replacement = some made) :
    ∃ shape', made.2.functionShape? made.1 = some shape' ∧
      shape'.params.length = shape.params.length := by
  have hlookup := functionShape?_eq_some.mp hroot
  cases path with
  | nil => exact absurd rfl hpath
  | cons step path =>
    simp only [replaceAt?, hlookup] at h
    split at h
    · cases h
    · next child hpart =>
      split at h
      · cases h
      · cases h
        cases step <;> simp only [partAt?, reduceCtorEq] at hpart <;>
          simp [setPart, functionShape?_function]

theorem functionShape?_instantiate {t : Table} {root : TypeId} {shape : FunctionShape}
    {bindings : List (List Step × TypeId)} (hpaths : ∀ binding ∈ bindings, binding.1 ≠ [])
    (hroot : t.functionShape? root = some shape) :
    ∃ shape', (t.instantiate root bindings).2.functionShape? (t.instantiate root bindings).1 =
      some shape' ∧ shape'.params.length = shape.params.length := by
  induction bindings generalizing t root shape with
  | nil => exact ⟨shape, hroot, rfl⟩
  | cons binding rest ih =>
    obtain ⟨path, type⟩ := binding
    have hrest : ∀ binding ∈ rest, binding.1 ≠ [] :=
      fun binding hmem => hpaths binding (List.mem_cons_of_mem _ hmem)
    rw [instantiate]
    split
    · next hreplaced =>
      obtain ⟨shape₁, hshape₁, hlength₁⟩ :=
        functionShape?_replaceAt? (hpaths _ List.mem_cons_self) hroot hreplaced
      obtain ⟨shape', hshape', hlength'⟩ := ih hrest hshape₁
      exact ⟨shape', hshape', hlength'.trans hlength₁⟩
    · exact ih hrest hroot

end HeaderCheck.Types.Table
