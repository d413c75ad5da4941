import HeaderCheck.Header.Location
import HeaderCheck.Proofs.Header.Lower
import HeaderCheck.Proofs.Types.Replacement
import HeaderCheck.Signature.Build
import HeaderCheck.Verify.Generic

/-!
# HeaderCheck.Proofs.Header.Location

Locations of type variables, from the header to the call.

* `located_of_lowerFunction`: in a function that a header declares, every location leads to a part.
* `Call.error_of_solve`: a call gives up on an empty location, and on no other.
* `function_locations`: what follows for the calls of a declared function. Locations that pass
  through a renamed type are read but not replaced.
-/

namespace HeaderCheck

open HeaderCheck.Project (Error)
open HeaderCheck.Types

/-! ## Declared functions -/

namespace Header

open HeaderCheck.Signature

variable {l l' : Lowering} {lower : TypeExpr → LowerM TypeId} {args : List TypeExpr}
  {result : TypeExpr} {this : Option TypeExpr} {generics : List Descriptor} {brand : String}
  {f : TypeId}

/-- A location has no steps only when nothing is written. -/
theorem eq_nil_of_steps? {location : List Segment} (h : steps? location = .ok []) :
    location = [] := by
  have hprepend : ∀ step rest, prepend step rest ≠ .ok [] := by
    intro step rest
    cases rest <;> simp [prepend]
  unfold steps? at h
  split at h
  · rfl
  all_goals first | exact absurd h (hprepend _ _) | cases h | skip
  split at h <;> cases h

theorem located_of_lowerFunction
    (h : (lowerFunction lower args result this generics brand).run l = (.ok f, l')) :
    ∃ shape, l'.table.functionShape? f = some shape ∧
      List.Forall₂ (fun descriptor occurrence => lowerOccurrence descriptor = .ok occurrence)
        generics shape.generics ∧
      ∀ occurrence ∈ shape.generics, ∃ part, l'.table.typeAt? f occurrence.location = some part := by
  rw [lowerFunction_eq] at h
  obtain ⟨_, _, -, h⟩ := ok_of_run_bind h
  obtain ⟨parts, l₁, -, h⟩ := ok_of_run_bind h
  obtain ⟨occurrences, l₂, hoccurrences, h⟩ := ok_of_run_bind h
  obtain ⟨id, l₃, hid, h⟩ := ok_of_run_bind h
  rw [run_get_bind] at h
  obtain ⟨_, l₄, hinside, h⟩ := ok_of_run_bind h
  cases h
  obtain ⟨-, hlocated⟩ := ok_of_run_mapM hoccurrences
  obtain ⟨rfl, hchecked⟩ := ok_of_run_forM hinside
  have hshape : l'.table.functionShape? f = some
      { params := parts.1, result := parts.2.2, this := parts.2.1, generics := occurrences, brand } := by
    cases hid
    exact Table.functionShape?_function _ _
  refine ⟨_, hshape, hlocated, fun occurrence hmem => ?_⟩
  have hsecond : occurrence ∈ (generics.zip occurrences).map Prod.snd := by
    rw [List.map_snd_zip hlocated.length_eq.ge]
    exact hmem
  obtain ⟨⟨descriptor, _⟩, hzip, rfl⟩ := List.mem_map.mp hsecond
  have hpair := hchecked _ hzip
  rw [checkInside] at hpair
  split at hpair
  · next part hpart => exact ⟨part, hpart⟩
  · cases hpair

end Header

/-! ## Calls -/

namespace Verify.Call

theorem error_of_solve {call : Call} {passed : Passed} {occurrences : List Occurrence}
    {solved : Dict TypeId} {s : State} {e : Error}
    (h : ((call.solve passed occurrences solved).run s).1 = .error e) :
    ∃ occurrence ∈ occurrences,
      occurrence.location = [] ∧ e = .malformedGenericLocation occurrence.name .empty := by
  induction occurrences generalizing s solved with
  | nil => cases h
  | cons occurrence rest ih =>
    -- what is reported ends no call, so an error comes from this location or from those that follow
    have hrest {solved' s'} (h : ((call.solve passed rest solved').run s').1 = .error e) :
        ∃ occurrence' ∈ occurrence :: rest, occurrence'.location = [] ∧
          e = .malformedGenericLocation occurrence'.name .empty := by
      obtain ⟨other, hmem, hother⟩ := ih h
      exact ⟨other, List.mem_cons_of_mem _ hmem, hother⟩
    rw [solve, run_get_bind] at h
    split at h
    · next hlocation =>
      cases h
      exact ⟨occurrence, List.mem_cons_self, hlocation, rfl⟩
    split at h
    · exact hrest h
    · split at h
      · exact hrest h
      · cases h
    · split at h
      · exact hrest h
      · rcases error_of_run_bind h with h | ⟨found, s', -, h⟩
        · rw [solveOne, run_get_bind] at h
          split at h
          · cases h
          · split at h <;> cases h
        · cases found with
          | none => cases h
          | some solved' => exact hrest h

theorem error_of_instantiate {call : Call} {callee : TypeId} {shape : FunctionShape}
    {passed : Passed} {s : State} {e : Error}
    (h : ((call.instantiate callee shape passed).run s).1 = .error e) :
    ∃ occurrence ∈ shape.generics,
      occurrence.location = [] ∧ e = .malformedGenericLocation occurrence.name .empty := by
  rcases error_of_run_bind h with h | ⟨solved, s', -, h⟩
  · exact error_of_solve h
  · cases solved <;> cases h

end Verify.Call

/-! ## Calls of declared functions -/

namespace Header

open HeaderCheck.Signature
open HeaderCheck.Verify (Call)

variable {l l' : Lowering} {lower : TypeExpr → LowerM TypeId} {args : List TypeExpr}
  {result : TypeExpr} {this : Option TypeExpr} {generics : List Descriptor} {brand : String}
  {f : TypeId}

/-- In a function that a header declares, now and in every later table, (a) a location is empty only
if it was written so, and (b) leads to a part. (c) The part can be replaced if and only if no step
of the location starts at a renamed type. (d) A call gives up only on an empty location. (e) If no
location passes through a renamed type and each spares those after it, no solution is skipped. -/
theorem function_locations
    (h : (lowerFunction lower args result this generics brand).run l = (.ok f, l')) {u : Table}
    (hu : l'.table.Extends u) :
    ∃ shape, u.functionShape? f = some shape ∧
      List.Forall₂ (fun descriptor occurrence => occurrence.name = descriptor.name ∧
        (occurrence.location = [] ↔ descriptor.location = [])) generics shape.generics ∧
      (∀ occurrence ∈ shape.generics, (u.typeAt? f occurrence.location).isSome) ∧
      (∀ occurrence ∈ shape.generics, ∀ type,
        (u.replaceAt? f occurrence.location type).isSome ↔
          u.avoidsRenamed f occurrence.location = true) ∧
      (∀ (call : Call) passed s e, ((call.instantiate f shape passed).run s).1 = .error e →
        ∃ occurrence ∈ shape.generics, occurrence.location = [] ∧
          e = .malformedGenericLocation occurrence.name .empty) ∧
      ((∀ occurrence ∈ shape.generics, u.avoidsRenamed f occurrence.location = true) →
        shape.generics.Pairwise (fun a b => spares a.location b.location = true) →
        ∀ solved before binding after,
          Call.bindings shape.generics solved = before ++ binding :: after →
            ((u.instantiate f before).2.replaceAt? (u.instantiate f before).1 binding.1
              binding.2).isSome) := by
  obtain ⟨shape, hshape, hwritten, hparts⟩ := located_of_lowerFunction h
  have hfits : ∀ occurrence ∈ shape.generics,
      (u.Replaceable f occurrence.location ↔ u.avoidsRenamed f occurrence.location = true) := by
    intro occurrence hmem
    obtain ⟨part, hpart⟩ := hparts occurrence hmem
    exact Table.replaceable_iff_avoidsRenamed (Table.typeAt?_extend hu hpart)
  refine ⟨shape, hu.functionShape? hshape, hwritten.imp fun descriptor occurrence hlowered => ?_,
    fun occurrence hmem => ?_, fun occurrence hmem type => ?_,
    fun call passed s e => Call.error_of_instantiate, fun hplain hspares solved before binding after
      hbindings => ?_⟩
  · rw [lowerOccurrence] at hlowered
    split at hlowered <;> cases hlowered
    next steps hsteps =>
    refine ⟨rfl, fun hnil => eq_nil_of_steps? (hnil ▸ hsteps), fun hnil => ?_⟩
    rw [hnil] at hsteps
    exact (Except.ok.inj hsteps).symm
  · obtain ⟨part, hpart⟩ := hparts occurrence hmem
    rw [Table.typeAt?_extend hu hpart]
    rfl
  · rw [Table.isSome_replaceAt?, hfits occurrence hmem]
  · rw [Table.isSome_replaceAt?]
    have hlocated : ∀ b ∈ before ++ binding :: after, ∃ occurrence ∈ shape.generics,
        (solved.get? occurrence.name).map (fun type => (occurrence.location, type)) = some b := by
      intro b hb
      rw [← hbindings] at hb
      exact List.mem_filterMap.mp hb
    refine @Table.replaceable_instantiate _ _ before after binding (fun b hb => ?_) ?_
    · obtain ⟨occurrence, hmem, hb⟩ := hlocated b hb
      obtain ⟨type, -, rfl⟩ := Option.map_eq_some_iff.mp hb
      exact (hfits occurrence hmem).mpr (hplain occurrence hmem)
    · rw [← hbindings, Call.bindings, List.pairwise_filterMap]
      refine hspares.imp fun hab b hb b' hb' => ?_
      obtain ⟨type, -, rfl⟩ := Option.map_eq_some_iff.mp hb
      obtain ⟨type', -, rfl⟩ := Option.map_eq_some_iff.mp hb'
      exact hab

/-- The function `(T) => result`, whose variable `T` is at its argument and at `location`. -/
def functionTo (result : TypeExpr) (location : List Segment) : LowerM TypeId :=
  lowerFunction (lowerWithin 5) [Build.literal "T"] result none
    [⟨"T", [.key "args", .index 0]⟩, ⟨"T", location⟩] Signature.plainBrand

/-- Lowering that begins with the built-in types. -/
def builtinsOnly : Lowering :=
  { table := .initial, path := "" }

/-- `{ x: T }`. -/
def boxed : TypeExpr :=
  Build.object [("x", Build.literal "T")]

/-- The place of `x` in the result of a function. -/
def boxedLocation : List Segment :=
  [.key "result", .key "keyValues", .index 0, .key "value"]

/-- For `(T) => { x: T }` both locations are replaced by a solution, and no call gives up. -/
theorem function_locations_boxed :
    let run := (functionTo boxed boxedLocation).run builtinsOnly
    run.1 = .ok ⟨21⟩ ∧ ∃ shape, run.2.table.functionShape? ⟨21⟩ = some shape ∧
      shape.generics = [⟨"T", [.arg 0]⟩, ⟨"T", [.result, .field 0]⟩] ∧
      (∀ type, (run.2.table.replaceAt? ⟨21⟩ [.result, .field 0] type).isSome) ∧
      (∀ (call : Call) passed s e, ((call.instantiate ⟨21⟩ shape passed).run s).1 ≠ .error e) ∧
      let made := run.2.table.instantiate ⟨21⟩ [([.arg 0], .string)]
      (made.2.replaceAt? made.1 [.result, .field 0] .string).isSome := by
  have hrun : ((functionTo boxed boxedLocation).run builtinsOnly).1 = .ok ⟨21⟩ := by decide +kernel
  have hpair : (functionTo boxed boxedLocation).run builtinsOnly =
      (.ok ⟨21⟩, ((functionTo boxed boxedLocation).run builtinsOnly).2) := by
    rw [← hrun, Prod.mk.eta]
  obtain ⟨shape, hshape, -, -, hreplaced, hcalls, hall⟩ := function_locations hpair (.refl _)
  have hgenerics : shape.generics = [⟨"T", [.arg 0]⟩, ⟨"T", [.result, .field 0]⟩] := by
    have h : (((functionTo boxed boxedLocation).run builtinsOnly).2.table.functionShape? ⟨21⟩).map
        FunctionShape.generics = some [⟨"T", [.arg 0]⟩, ⟨"T", [.result, .field 0]⟩] := by
      decide +kernel
    rw [hshape] at h
    exact Option.some.inj h
  rw [hgenerics] at hreplaced hall
  refine ⟨hrun, shape, hshape, hgenerics, fun type => ?_, fun call passed s e he => ?_, ?_⟩
  · exact (hreplaced ⟨"T", [.result, .field 0]⟩ (by simp) type).mpr (by decide +kernel)
  · obtain ⟨occurrence, hmem, hnil, -⟩ := hcalls call passed s e he
    rw [hgenerics] at hmem
    exact absurd hnil (by rcases List.mem_pair.mp hmem with rfl | rfl <;> simp)
  · exact hall (by decide +kernel) (by decide) (({} : Dict TypeId).insert "T" .string)
      [([.arg 0], .string)] ([.result, .field 0], .string) [] rfl

/-- With the result `Boxed`, another name of `{ x: T }`, the place of `x` is accepted but not
replaced: the result still has the free variable when `T` is solved. An empty location is accepted
too, and every call that comes to it gives up. -/
theorem renamed_part_not_replaced :
    (let run := (functionTo (Build.renamed "Boxed" boxed) boxedLocation).run builtinsOnly
     let table := run.2.table
     run.1 = .ok ⟨22⟩ ∧ table.typeAt? ⟨22⟩ [.result, .field 0] = some ⟨19⟩ ∧
      table.replaceAt? ⟨22⟩ [.result, .field 0] .string = none ∧
      let made := table.instantiate ⟨22⟩ [([.arg 0], .string), ([.result, .field 0], .string)]
      made.2.typeAt? made.1 [.arg 0] = some .string ∧
        made.2.typeAt? made.1 [.result, .field 0] = some ⟨19⟩ ∧
        made.2.lookup ⟨19⟩ = some (.free "T")) ∧
    (let run := (functionTo boxed []).run builtinsOnly
     run.1 = .ok ⟨21⟩ ∧ (run.2.table.functionShape? ⟨21⟩).map FunctionShape.generics =
        some [⟨"T", [.arg 0]⟩, ⟨"T", []⟩]) ∧
    ∀ s, ((Call.solve ⟨.this {}, [.this {}], {}⟩ ⟨[some .string], none⟩
      [⟨"T", [.arg 0]⟩, ⟨"T", []⟩] {}).run s).1 = .error (.malformedGenericLocation "T" .empty) := by
  refine ⟨by decide +kernel, by decide +kernel, fun s => rfl⟩

end Header

end HeaderCheck
