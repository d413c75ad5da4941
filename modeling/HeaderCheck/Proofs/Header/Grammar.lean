import HeaderCheck.Header.Lower
import Mathlib.Data.List.Basic

/-!
# HeaderCheck.Proofs.Header.Grammar

The grammar of locations.

* `Chunk`: what is written for one step of a location.
* `steps?_eq_ok_iff`: a location is read if and only if it is a list of chunks, and then as their
  steps.
* `Segment.merged`: a segment without the choice between unions and intersections, which steps do
  not tell apart.
-/

namespace HeaderCheck.Header

open HeaderCheck.Signature
open HeaderCheck.Types (Occurrence Step)

/-- What is written for one step of a location. -/
inductive Chunk where
  | thisArg
  | result
  | args (index : UInt64)
  | generics (index : UInt64)
  | unions (index : UInt64)
  | intersections (index : UInt64)
  | values (index : UInt64)
  | keyValues (index : UInt64)
deriving DecidableEq, Repr

namespace Chunk

/-- The segments of a chunk. -/
def segments : Chunk → List Segment
  | thisArg => [.key "thisArg"]
  | result => [.key "result"]
  | args i => [.key "args", .index i]
  | generics i => [.key "generics", .index i]
  | unions i => [.key "unions", .index i]
  | intersections i => [.key "intersections", .index i]
  | values i => [.key "values", .index i]
  | keyValues i => [.key "keyValues", .index i, .key "value"]

/-- The step that a chunk stands for. Members of unions and of intersections are both members. -/
def step : Chunk → Step
  | thisArg => .this
  | result => .result
  | args i => .arg i.toNat
  | generics i => .typeArg i.toNat
  | unions i => .member i.toNat
  | intersections i => .member i.toNat
  | values i => .element i.toNat
  | keyValues i => .field i.toNat

end Chunk

/-! ## Reading -/

theorem prepend_eq_ok_iff {step : Step} {rest : Except LocationFault (List Step)}
    {steps : List Step} :
    prepend step rest = .ok steps ↔ ∃ later, rest = .ok later ∧ steps = step :: later := by
  cases rest with
  | error fault => simp [prepend]
  | ok later => simp [prepend, eq_comm]

/-- A chunk is read as its step, whatever is written after it. -/
theorem steps?_segments (chunk : Chunk) (rest : List Segment) :
    steps? (chunk.segments ++ rest) = prepend chunk.step (steps? rest) := by
  cases chunk <;> simp [Chunk.segments, Chunk.step, steps?]

/-- Chunks are read as their steps. -/
theorem steps?_flatMap (chunks : List Chunk) :
    steps? (chunks.flatMap Chunk.segments) = .ok (chunks.map Chunk.step) := by
  induction chunks with
  | nil => rfl
  | cons chunk rest ih => rw [List.flatMap_cons, steps?_segments, ih, prepend, List.map_cons]

/-- Where the rest is a list of chunks if it is read, a chunk and the rest are one too. -/
theorem exists_chunks_of_prepend {rest : List Segment} {step : Step} {steps : List Step}
    (chunk : Chunk) (h : prepend step (steps? rest) = .ok steps)
    (ih : ∀ {later}, steps? rest = .ok later →
      ∃ chunks : List Chunk, rest = chunks.flatMap Chunk.segments) :
    ∃ chunks : List Chunk, chunk.segments ++ rest = chunks.flatMap Chunk.segments := by
  obtain ⟨later, hrest, -⟩ := prepend_eq_ok_iff.mp h
  obtain ⟨chunks, rfl⟩ := ih hrest
  exact ⟨chunk :: chunks, rfl⟩

/-- What is read is a list of chunks. -/
theorem exists_chunks_of_steps? {location : List Segment} {steps : List Step}
    (h : steps? location = .ok steps) :
    ∃ chunks : List Chunk, location = chunks.flatMap Chunk.segments := by
  fun_induction steps? location generalizing steps with
  | case1 => exact ⟨[], rfl⟩
  | case2 rest ih => exact exists_chunks_of_prepend .thisArg h ih
  | case3 rest ih => exact exists_chunks_of_prepend .result h ih
  | case4 i rest ih => exact exists_chunks_of_prepend (.args i) h ih
  | case5 i rest ih => exact exists_chunks_of_prepend (.generics i) h ih
  | case6 i rest ih => exact exists_chunks_of_prepend (.unions i) h ih
  | case7 i rest ih => exact exists_chunks_of_prepend (.intersections i) h ih
  | case8 i rest ih => exact exists_chunks_of_prepend (.values i) h ih
  | case9 i rest ih => exact exists_chunks_of_prepend (.keyValues i) h ih
  | _ => cases h

theorem steps?_eq_ok_iff {location : List Segment} {steps : List Step} :
    steps? location = .ok steps ↔ ∃ chunks : List Chunk,
      location = chunks.flatMap Chunk.segments ∧ steps = chunks.map Chunk.step := by
  constructor
  · intro h
    obtain ⟨chunks, rfl⟩ := exists_chunks_of_steps? h
    rw [steps?_flatMap] at h
    exact ⟨chunks, rfl, (Except.ok.inj h).symm⟩
  · rintro ⟨chunks, rfl, rfl⟩
    exact steps?_flatMap chunks

/-! ## Writing steps again -/

/-- A segment, those of intersections written as those of unions. -/
def mergedSegment : Segment → Segment
  | .key "intersections" => .key "unions"
  | segment => segment

/-- A step as it is written, that to a member as one of a union. -/
def writtenStep : Step → List Segment
  | .this => [.key "thisArg"]
  | .result => [.key "result"]
  | .arg i => [.key "args", .index (UInt64.ofNat i)]
  | .typeArg i => [.key "generics", .index (UInt64.ofNat i)]
  | .member i => [.key "unions", .index (UInt64.ofNat i)]
  | .element i => [.key "values", .index (UInt64.ofNat i)]
  | .field i => [.key "keyValues", .index (UInt64.ofNat i), .key "value"]

theorem map_merged_segments (chunk : Chunk) :
    chunk.segments.map mergedSegment = writtenStep chunk.step := by
  cases chunk <;> simp [Chunk.segments, Chunk.step, writtenStep, mergedSegment]

/-- Steps determine what they were read from, but for unions and intersections. -/
theorem map_merged_of_steps? {location : List Segment} {steps : List Step}
    (h : steps? location = .ok steps) :
    location.map mergedSegment = steps.flatMap writtenStep := by
  obtain ⟨chunks, rfl, rfl⟩ := steps?_eq_ok_iff.mp h
  rw [List.map_flatMap, List.flatMap_map]
  exact List.flatMap_congr fun chunk _ => map_merged_segments chunk

/-! ## Locations of type variables -/

/-- The location of a type variable is (a) read as steps if and only if it is a list of chunks whose
steps these are. (b) The steps tell what was written, but for the choice between unions and
intersections. (c) Every other location is an error that names the variable. -/
theorem location_grammar (descriptor : Descriptor) :
    (∀ occurrence, lowerOccurrence descriptor = .ok occurrence ↔
      occurrence.name = descriptor.name ∧ ∃ chunks : List Chunk,
        descriptor.location = chunks.flatMap Chunk.segments ∧
          occurrence.location = chunks.map Chunk.step) ∧
    (∀ occurrence, lowerOccurrence descriptor = .ok occurrence →
      descriptor.location.map mergedSegment = occurrence.location.flatMap writtenStep) ∧
    ((∀ chunks : List Chunk, descriptor.location ≠ chunks.flatMap Chunk.segments) →
      ∃ fault, lowerOccurrence descriptor =
        .error (.malformedGenericLocation descriptor.name fault)) := by
  have hread (occurrence : Occurrence) : lowerOccurrence descriptor = .ok occurrence ↔
      occurrence.name = descriptor.name ∧ steps? descriptor.location = .ok occurrence.location := by
    obtain ⟨name, location⟩ := occurrence
    rw [lowerOccurrence]
    split
    · next steps hsteps => simp [hsteps, eq_comm]
    · next fault hfault => simp [hfault]
  refine ⟨fun occurrence => ?_, fun occurrence hoccurrence => ?_, fun hother => ?_⟩
  · rw [hread, steps?_eq_ok_iff]
  · exact map_merged_of_steps? ((hread occurrence).mp hoccurrence).2
  · rw [lowerOccurrence]
    split
    · next steps hsteps =>
      obtain ⟨chunks, hchunks⟩ := exists_chunks_of_steps? hsteps
      exact absurd hchunks (hother chunks)
    · next fault _ => exact ⟨fault, rfl⟩

/-- The steps of `args 0 intersections 2 keyValues 1 value`, and the error at a location that ends
before the `value` of its last chunk. -/
theorem location_grammar_mixed :
    (let location : List Segment := [.key "args", .index 0, .key "intersections", .index 2,
      .key "keyValues", .index 1, .key "value"]
    lowerOccurrence ⟨"T", location⟩ = .ok ⟨"T", [.arg 0, .member 2, .field 1]⟩ ∧
      location.map mergedSegment = [.key "args", .index 0, .key "unions", .index 2,
        .key "keyValues", .index 1, .key "value"]) ∧
    (let location : List Segment := [.key "result", .key "keyValues", .index 1]
    (∀ chunks : List Chunk, location ≠ chunks.flatMap Chunk.segments) ∧
      ∃ fault, lowerOccurrence ⟨"T", location⟩ = .error (.malformedGenericLocation "T" fault)) := by
  have hread : lowerOccurrence ⟨"T", [.key "args", .index 0, .key "intersections", .index 2,
      .key "keyValues", .index 1, .key "value"]⟩ = .ok ⟨"T", [.arg 0, .member 2, .field 1]⟩ :=
    ((location_grammar _).1 _).mpr ⟨rfl, [.args 0, .intersections 2, .keyValues 1], rfl, rfl⟩
  have hother : ∀ chunks : List Chunk,
      [.key "result", .key "keyValues", .index 1] ≠ chunks.flatMap Chunk.segments := by
    intro chunks hchunks
    have hsteps := steps?_flatMap chunks
    rw [← hchunks] at hsteps
    cases hsteps
  exact ⟨⟨hread, (location_grammar _).2.1 _ hread⟩, hother, (location_grammar ⟨"T", _⟩).2.2 hother⟩

end HeaderCheck.Header
