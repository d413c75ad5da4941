import HeaderCheck.Text.Path
import Mathlib.Data.List.Basic

/-!
# HeaderCheck.Proofs.Text.Path

Normal paths: normalizing a path twice is normalizing it once. What is kept of a path has no part
that normalizing removes, and it is read back part by part from the text.
-/

namespace HeaderCheck.Text

variable {sep : Char}

theorem not_mem_of_mem_pieces {cs piece : List Char} (h : piece ∈ pieces sep cs) : sep ∉ piece := by
  induction cs generalizing piece with
  | nil => simp_all [pieces]
  | cons c cs ih =>
    rw [pieces] at h
    split at h
    · rcases List.mem_cons.mp h with rfl | h
      · simp
      · exact ih h
    · next hc =>
      split at h
      · next hnil => exact absurd hnil (pieces_ne_nil sep cs)
      · next first rest hpieces =>
        rw [hpieces] at ih
        rcases List.mem_cons.mp h with rfl | h
        · have := ih List.mem_cons_self
          simp_all [eq_comm]
        · exact ih (List.mem_cons_of_mem _ h)

theorem pieces_of_not_mem {cs : List Char} (h : sep ∉ cs) : pieces sep cs = [cs] := by
  induction cs with
  | nil => rfl
  | cons c cs ih =>
    rw [List.mem_cons, not_or] at h
    rw [pieces, if_neg (Ne.symm h.1), ih h.2]

theorem pieces_append {part : List Char} (h : sep ∉ part) (rest : List Char) :
    pieces sep (part ++ sep :: rest) = part :: pieces sep rest := by
  induction part with
  | nil => simp [pieces]
  | cons c part ih =>
    rw [List.mem_cons, not_or] at h
    rw [List.cons_append, pieces, if_neg (Ne.symm h.1), ih h.2]

/-- Pieces that are joined are read back. -/
theorem pieces_join {parts : List (List Char)} (hne : parts ≠ [])
    (h : ∀ part ∈ parts, sep ∉ part) : pieces sep (join [sep] parts) = parts := by
  induction parts with
  | nil => exact absurd rfl hne
  | cons part rest ih =>
    have hpart := h part List.mem_cons_self
    cases rest with
    | nil => exact pieces_of_not_mem hpart
    | cons next rest =>
      rw [join, List.append_assoc, List.singleton_append, pieces_append hpart,
        ih (by simp) fun other hmem => h other (List.mem_cons_of_mem _ hmem)]
      simp

end HeaderCheck.Text

namespace HeaderCheck.Path

open HeaderCheck.Text

/-- Segments that are kept, last one first: no empty ones, none that stay in place, and those that go
up only at the beginning of a relative path. -/
inductive Kept (absolute : Bool) : List (List Char) → Prop where
  | nil : Kept absolute []
  | up {rest : List (List Char)} : absolute = false → (∀ last ∈ rest.head?, last = ['.', '.']) →
      Kept absolute rest → Kept absolute (['.', '.'] :: rest)
  | down {segment : List Char} {rest : List (List Char)} : segment ≠ [] → segment ≠ ['.'] →
      segment ≠ ['.', '.'] → slash ∉ segment → Kept absolute rest → Kept absolute (segment :: rest)

variable {absolute : Bool} {kept : List (List Char)}

theorem Kept.tail {segment : List Char} (h : Kept absolute (segment :: kept)) : Kept absolute kept := by
  cases h with
  | up _ _ h => exact h
  | down _ _ _ _ h => exact h

theorem Kept.push (h : Kept absolute kept) {segment : List Char} (hs : slash ∉ segment) :
    Kept absolute (pushSegment absolute kept segment) := by
  unfold pushSegment
  split
  · exact h
  next hstay =>
  rw [not_or] at hstay
  split
  · next hup =>
    subst hup
    split
    · next last rest =>
      split
      · next hlast =>
        subst hlast
        split
        · exact h
        · next habsolute => exact .up (by simpa using habsolute) (by simp) h
      · exact h.tail
    · split
      · exact .nil
      · next habsolute => exact .up (by simpa using habsolute) (by simp) .nil
  · next hdown => exact .down hstay.1 hstay.2 hdown hs h

theorem Kept.foldl (h : Kept absolute kept) {parts : List (List Char)}
    (hs : ∀ part ∈ parts, slash ∉ part) : Kept absolute (parts.foldl (pushSegment absolute) kept) := by
  induction parts generalizing kept with
  | nil => exact h
  | cons part rest ih =>
    exact ih (h.push (hs part List.mem_cons_self)) fun other hmem =>
      hs other (List.mem_cons_of_mem _ hmem)

/-- A kept segment is kept again. -/
theorem Kept.push_eq {segment : List Char} (h : Kept absolute (segment :: kept)) :
    pushSegment absolute kept segment = segment :: kept := by
  cases h with
  | up habsolute hlast h =>
    subst habsolute
    cases kept with
    | nil => rfl
    | cons last rest =>
      have := hlast last (by simp)
      subst this
      rfl
  | down hne hstay hup _ _ => simp [pushSegment, hne, hstay, hup]

theorem Kept.segments_reverse (h : Kept absolute kept) :
    segments absolute kept.reverse = kept.reverse := by
  have hfold : kept.reverse.foldl (pushSegment absolute) [] = kept := by
    induction kept with
    | nil => rfl
    | cons segment rest ih =>
      rw [List.reverse_cons, List.foldl_append, ih h.tail]
      exact h.push_eq
  rw [segments, hfold]

/-- What is true of segments that go up and of proper ones is true of all that are kept. -/
theorem Kept.forall_mem {P : List Char → Prop} (h : Kept absolute kept) (hup : P ['.', '.'])
    (hdown : ∀ segment, segment ≠ [] → segment ≠ ['.'] → slash ∉ segment → P segment) :
    ∀ segment ∈ kept, P segment := by
  induction h with
  | nil => simp
  | up _ _ _ ih => exact List.forall_mem_cons.mpr ⟨hup, ih⟩
  | down hne hdot _ hs _ ih => exact List.forall_mem_cons.mpr ⟨hdown _ hne hdot hs, ih⟩

theorem Kept.not_mem (h : Kept absolute kept) : ∀ segment ∈ kept, slash ∉ segment :=
  h.forall_mem (by decide) fun _ _ _ hs => hs

theorem Kept.ne_nil (h : Kept absolute kept) : ∀ segment ∈ kept, segment ≠ [] :=
  h.forall_mem (by simp) fun _ hne _ _ => hne

/-- The text of kept segments is cut into them again. -/
theorem Kept.segments_join (h : Kept absolute kept) :
    segments absolute (pieces slash (join [slash] kept.reverse)) = kept.reverse := by
  cases hk : kept with
  | nil => rfl
  | cons segment rest =>
    rw [← hk, pieces_join (by simp [hk]) fun part hmem => h.not_mem part (List.mem_reverse.mp hmem)]
    exact h.segments_reverse

theorem Kept.head_join (h : Kept absolute kept) :
    ∀ c ∈ (join [slash] kept.reverse).head?, c ≠ slash := by
  intro c hc
  cases hk : kept.reverse with
  | nil => simp [hk, join] at hc
  | cons first rest =>
    have hmem : first ∈ kept := List.mem_reverse.mp (by simp [hk])
    have hne := h.ne_nil first hmem
    have hs := h.not_mem first hmem
    cases hf : first with
    | nil => exact absurd hf hne
    | cons d ds =>
      have hd : d = c := by
        cases rest <;> simpa [hk, hf, join] using hc
      rintro rfl
      rw [hf, hd] at hs
      exact hs List.mem_cons_self

/-- The text of a path with kept segments is normal. -/
theorem Kept.normalize_eq (h : Kept absolute kept) :
    normalize (String.ofList (if absolute then slash :: join [slash] kept.reverse
      else join [slash] kept.reverse)) =
      String.ofList (if absolute then slash :: join [slash] kept.reverse
        else join [slash] kept.reverse) := by
  cases absolute with
  | true =>
    have habsolute : isAbsolute (String.ofList (slash :: join [slash] kept.reverse)) = true := by
      simp [isAbsolute]
    have hpieces : pieces slash (slash :: join [slash] kept.reverse) =
        [] :: pieces slash (join [slash] kept.reverse) := by
      rw [pieces, if_pos rfl]
    have hskip : ∀ parts, segments true ([] :: parts) = segments true parts := fun _ => rfl
    simp only [if_true, normalize, habsolute, String.toList_ofList, hpieces, hskip, h.segments_join]
  | false =>
    have habsolute : isAbsolute (String.ofList (join [slash] kept.reverse)) = false := by
      have hhead := h.head_join
      rw [isAbsolute, String.toList_ofList]
      cases hj : join [slash] kept.reverse with
      | nil => rfl
      | cons c cs =>
        rw [hj] at hhead
        simpa using hhead c rfl
    simp only [Bool.false_eq_true, if_false, normalize, habsolute, String.toList_ofList,
      h.segments_join]

theorem normalize_normalize (path : String) : normalize (normalize path) = normalize path := by
  have hkept : Kept (isAbsolute path)
      ((pieces slash path.toList).foldl (pushSegment (isAbsolute path)) []) :=
    Kept.nil.foldl fun part hmem => not_mem_of_mem_pieces hmem
  exact hkept.normalize_eq

end HeaderCheck.Path
