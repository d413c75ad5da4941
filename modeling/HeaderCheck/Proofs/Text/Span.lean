import HeaderCheck.Text.Span
import Mathlib.Data.List.Basic
import Mathlib.Data.Nat.PSub

/-!
# HeaderCheck.Proofs.Text.Span

The text that a span covers, as a part of the whole text.

* `Position.offset`: how many bytes of a text stand before a position.
* `Span.Fits`: a span begins and ends at characters of a text, in this order.
* `Span.snippet?`: a snippet that fails where a line is read that is not there.
* `snippet_covers`: the snippet of a span that fits stands in the text between the two offsets. No
  snippet fails, and where the lines do not fit it is empty.
-/

namespace HeaderCheck

/-! ## Lines -/

namespace Text

variable {sep : Char}

theorem join_cons (part : List Char) {rest : List (List Char)} (h : rest ≠ []) :
    join [sep] (part :: rest) = part ++ sep :: join [sep] rest := by
  cases rest with
  | nil => exact absurd rfl h
  | cons next rest => rw [join, List.append_assoc, List.singleton_append]; simp

/-- A line and the lines after it. -/
theorem join_first (line : List Char) (after : List (List Char)) :
    join [sep] (line :: after) = line ++ after.flatMap (sep :: ·) := by
  induction after generalizing line with
  | nil => simp [join]
  | cons next after ih =>
    rw [join_cons line (List.cons_ne_nil _ _), ih, List.flatMap_cons]
    rfl

/-- A line between the lines before it, each with its end, and those after it. -/
theorem join_split (before : List (List Char)) (line : List Char) (after : List (List Char)) :
    join [sep] (before ++ line :: after) =
      before.flatMap (· ++ [sep]) ++ line ++ after.flatMap (sep :: ·) := by
  induction before with
  | nil => exact join_first line after
  | cons first before ih =>
    rw [List.cons_append, join_cons first (by simp), ih]
    simp

end Text

open Text

namespace Span

@[simp] theorem byteLength_append (cs ds : List Char) :
    byteLength (cs ++ ds) = byteLength cs + byteLength ds := by
  induction cs with
  | nil => simp [byteLength]
  | cons c cs ih => simp [byteLength, ih, Nat.add_assoc]

/-- The length of a text in bytes is that of its characters. -/
theorem utf8ByteSize_ofList (cs : List Char) : (String.ofList cs).utf8ByteSize = byteLength cs := by
  induction cs with
  | nil => rfl
  | cons c cs ih => simp [byteLength, ih]

/-- How many bytes lines take, each with its end. -/
def bytesOfLines : List (List Char) → Nat
  | [] => 0
  | line :: rest => byteLength line + 1 + bytesOfLines rest

@[simp] theorem bytesOfLines_append (lines lines' : List (List Char)) :
    bytesOfLines (lines ++ lines') = bytesOfLines lines + bytesOfLines lines' := by
  induction lines with
  | nil => simp [bytesOfLines]
  | cons line rest ih => simp [bytesOfLines, ih, Nat.add_assoc]

theorem eq_nil_of_byteLength_eq_zero {cs : List Char} (h : byteLength cs = 0) : cs = [] := by
  cases cs with
  | nil => rfl
  | cons c cs =>
    rw [byteLength] at h
    have := c.utf8Size_pos
    omega

theorem byteLength_newline_cons (cs : List Char) : byteLength ('\n' :: cs) = byteLength cs + 1 := by
  rw [byteLength, Nat.add_comm]
  rfl

theorem byteLength_ended (lines : List (List Char)) :
    byteLength (lines.flatMap (· ++ ['\n'])) = bytesOfLines lines := by
  induction lines with
  | nil => rfl
  | cons line rest ih =>
    rw [List.flatMap_cons, byteLength_append, ih, byteLength_append]
    rfl

theorem byteLength_begun (lines : List (List Char)) :
    byteLength (lines.flatMap ('\n' :: ·)) = bytesOfLines lines := by
  induction lines with
  | nil => rfl
  | cons line rest ih =>
    rw [List.flatMap_cons, byteLength_append, ih, byteLength_newline_cons, bytesOfLines]

/-! ## Columns -/

/-- A character takes bytes, and leaves those of the characters after it. -/
theorem byteLength_cons_eq_succ (c : Char) (cs : List Char) :
    ∃ n, byteLength (c :: cs) = n + 1 ∧ c.utf8Size ≤ n + 1 ∧ n + 1 - c.utf8Size = byteLength cs := by
  have hpos := c.utf8Size_pos
  exact ⟨c.utf8Size + byteLength cs - 1, by rw [byteLength]; omega, by omega, by omega⟩

/-- As many bytes as some characters at the beginning take are these characters. -/
theorem takeBytes_append (cs ds : List Char) : takeBytes (byteLength cs) (cs ++ ds) = some cs := by
  induction cs with
  | nil => rw [byteLength, takeBytes]
  | cons c cs ih =>
    obtain ⟨n, hn, hfits, hrest⟩ := byteLength_cons_eq_succ c cs
    rw [hn, List.cons_append, takeBytes, if_pos hfits, hrest, ih]
    rfl

theorem dropBytes_append (cs ds : List Char) : dropBytes (byteLength cs) (cs ++ ds) = some ds := by
  induction cs with
  | nil => rw [byteLength, dropBytes]; rfl
  | cons c cs ih =>
    obtain ⟨n, hn, hfits, hrest⟩ := byteLength_cons_eq_succ c cs
    rw [hn, List.cons_append, dropBytes, if_pos hfits, hrest, ih]

/-- What stands between two columns of a line. -/
theorem sliceColumns_append (before slice after : List Char) :
    sliceColumns (before ++ slice ++ after) (byteLength before) (byteLength (before ++ slice)) =
      slice := by
  have hstop : min (byteLength (before ++ slice)) (byteLength (before ++ slice ++ after)) =
      byteLength (before ++ slice) := by simp
  have hstart : min (byteLength before) (byteLength (before ++ slice)) = byteLength before := by simp
  rw [sliceColumns]
  simp only [hstop, hstart, takeBytes_append, dropBytes_append, Option.bind_some, Option.getD_some]

end Span

/-! ## Spans that fit -/

/-- How many bytes stand before a position in a text with the given lines. -/
def Position.offset (lines : List (List Char)) (p : Position) : Nat :=
  Span.bytesOfLines (lines.take (p.line.toNat - 1)) + p.column.toNat

/-- The position is at a character of one of the lines or at the end of the line. -/
structure Position.In (lines : List (List Char)) (p : Position) : Prop where
  counted : p.line ≠ 0
  column : ∃ before after, lines[p.line.toNat - 1]? = some (before ++ after) ∧
    Span.byteLength before = p.column.toNat

namespace Span

/-- Both ends of the span are in the text, and it does not end before it begins. -/
structure Fits (lines : List (List Char)) (span : Span) : Prop where
  start : span.start.In lines
  stop : span.stop.In lines
  ordered : span.start.line < span.stop.line ∨
    span.start.line = span.stop.line ∧ span.start.column ≤ span.stop.column

variable {span : Span} {lines before middle after : List (List Char)} {line first last : List Char}

/-- The lines before an item and those after it. -/
theorem exists_split_of_getElem? {i : Nat} (h : lines[i]? = some line) :
    ∃ before after, lines = before ++ line :: after ∧ before.length = i := by
  obtain ⟨hi, rfl⟩ := List.getElem?_eq_some_iff.mp h
  refine ⟨lines.take i, lines.drop (i + 1), ?_, by simp; omega⟩
  rw [List.getElem_cons_drop, List.take_append_drop]

/-- Two lines with those before, between and after them, cut before the second one. -/
theorem append_cons_append (before : List (List Char)) (first : List Char)
    (middle rest : List (List Char)) :
    before ++ first :: (middle ++ rest) = (before ++ first :: middle) ++ rest := by
  rw [List.append_assoc, List.cons_append]

/-- The snippet of a span on one line. -/
theorem snippetOfLines_line (hstart : span.start.line.toNat = before.length + 1)
    (hstop : span.stop.line.toNat = before.length + 1) :
    snippetOfLines span (before ++ line :: after) =
      sliceColumns line span.start.column.toNat span.stop.column.toNat := by
  rw [snippetOfLines]
  simp [hstart, hstop]

/-- The snippet of a span on two lines or more. -/
theorem snippetOfLines_lines (hstart : span.start.line.toNat = before.length + 1)
    (hstop : span.stop.line.toNat = before.length + 1 + middle.length + 1) :
    snippetOfLines span (before ++ first :: (middle ++ last :: after)) =
      join ['\n'] (sliceColumns first span.start.column.toNat (byteLength first) :: middle ++
        [sliceColumns last 0 span.stop.column.toNat]) := by
  have hfit : ¬(before.length + 1 = 0 ∨
      before.length + 1 + middle.length + 1 < before.length + 1 ∨
      (before ++ first :: (middle ++ last :: after)).length <
        before.length + 1 + middle.length + 1) := by
    simp only [List.length_append, List.length_cons]
    omega
  have hlast : (before ++ first :: (middle ++ last :: after)).getD
      (before.length + 1 + middle.length + 1 - 1) [] = last := by
    have hindex : before.length + 1 + middle.length + 1 - 1 = (before ++ first :: middle).length := by
      simp only [List.length_append, List.length_cons]
      omega
    rw [append_cons_append, hindex]
    simp
  have hmiddle : ((before ++ first :: (middle ++ last :: after)).drop (before.length + 1)).take
      (before.length + 1 + middle.length + 1 - 1 - (before.length + 1)) = middle := by
    have hcount : before.length + 1 + middle.length + 1 - 1 - (before.length + 1) =
        middle.length := by omega
    rw [hcount]
    simp
  simp only [snippetOfLines, hstart, hstop, hlast, hmiddle]
  rw [if_neg hfit, if_neg (by omega)]
  simp

/-- Of two beginnings of a line the longer one goes on where the shorter one ends. -/
theorem exists_between {head rest head' rest' : List Char} (h : head ++ rest = head' ++ rest')
    (hle : byteLength head ≤ byteLength head') : ∃ slice, head' = head ++ slice := by
  rcases List.append_eq_append_iff.mp h with ⟨slice, hhead, -⟩ | ⟨slice, hhead, -⟩
  · exact ⟨slice, hhead⟩
  · rw [hhead, byteLength_append] at hle
    have hnil : slice = [] := eq_nil_of_byteLength_eq_zero (by omega)
    exact ⟨[], by rw [hhead, hnil, List.append_nil, List.append_nil]⟩

/-- The snippet stands in the text between the two offsets of the span. -/
def Covers (span : Span) (lines : List (List Char)) : Prop :=
  ∃ before after, join ['\n'] lines = before ++ snippetOfLines span lines ++ after ∧
    byteLength before = span.start.offset lines ∧
    byteLength (before ++ snippetOfLines span lines) = span.stop.offset lines

/-- A span on one line covers what stands between its columns. -/
theorem covers_line {head slice rest : List Char}
    (hstart : span.start.line.toNat = before.length + 1)
    (hstop : span.stop.line.toNat = before.length + 1)
    (hhead : byteLength head = span.start.column.toNat)
    (hslice : byteLength (head ++ slice) = span.stop.column.toNat) :
    span.Covers (before ++ (head ++ slice ++ rest) :: after) := by
  have hsnippet : snippetOfLines span (before ++ (head ++ slice ++ rest) :: after) = slice := by
    rw [snippetOfLines_line hstart hstop, ← hhead, ← hslice]
    exact sliceColumns_append head slice rest
  rw [Covers, hsnippet, join_split]
  refine ⟨before.flatMap (· ++ ['\n']) ++ head, rest ++ after.flatMap ('\n' :: ·), by simp, ?_, ?_⟩
  · simp [Position.offset, hstart, hhead, byteLength_ended]
  · simp [Position.offset, hstop, ← hslice, byteLength_ended]

/-- A span on several lines covers the end of the first one, those between and the beginning of the
last one. -/
theorem covers_lines {head rest head' rest' : List Char}
    (hstart : span.start.line.toNat = before.length + 1)
    (hstop : span.stop.line.toNat = before.length + 1 + middle.length + 1)
    (hhead : byteLength head = span.start.column.toNat)
    (hhead' : byteLength head' = span.stop.column.toNat) :
    span.Covers (before ++ (head ++ rest) :: (middle ++ (head' ++ rest') :: after)) := by
  have hbegin : sliceColumns (head ++ rest) span.start.column.toNat (byteLength (head ++ rest)) =
      rest := by
    rw [← hhead]
    simpa using sliceColumns_append head rest []
  have hend : sliceColumns (head' ++ rest') 0 span.stop.column.toNat = head' := by
    rw [← hhead']
    exact sliceColumns_append [] head' rest'
  have htake : (before ++ (head ++ rest) :: (middle ++ (head' ++ rest') :: after)).take
      (span.stop.line.toNat - 1) = before ++ (head ++ rest) :: middle := by
    have hindex : span.stop.line.toNat - 1 = (before ++ (head ++ rest) :: middle).length := by
      simp only [List.length_append, List.length_cons]
      omega
    rw [append_cons_append, hindex]
    exact List.take_left
  rw [Covers, snippetOfLines_lines hstart hstop, hbegin, hend, List.cons_append, join_first,
    join_split]
  refine ⟨before.flatMap (· ++ ['\n']) ++ head, rest' ++ after.flatMap ('\n' :: ·), by simp, ?_, ?_⟩
  · simp [Position.offset, hstart, hhead, byteLength_ended]
  · rw [Position.offset, htake, ← hhead']
    simp only [byteLength_append, byteLength_ended, byteLength_begun, List.flatMap_append,
      List.flatMap_cons, List.flatMap_nil, List.append_nil, byteLength_newline_cons,
      bytesOfLines_append, bytesOfLines]
    omega

theorem Fits.covers (h : span.Fits lines) : span.Covers lines := by
  obtain ⟨⟨hcounted, head, rest, hfirst, hhead⟩, ⟨-, head', rest', hlast, hhead'⟩, hordered⟩ := h
  obtain ⟨before, after, rfl, hbefore⟩ := exists_split_of_getElem? hfirst
  have hstart : span.start.line.toNat = before.length + 1 := by
    have hne : span.start.line.toNat ≠ 0 := fun h => hcounted (UInt32.toNat_inj.mp h)
    omega
  rcases hordered with hless | ⟨heq, hle⟩
  · have hlate : before.length + 1 < span.stop.line.toNat := hstart ▸ UInt32.lt_iff_toNat_lt.mp hless
    have hlater : after[span.stop.line.toNat - 1 - before.length - 1]? = some (head' ++ rest') := by
      rw [List.getElem?_append_right (by omega), List.getElem?_cons,
        if_neg (by omega)] at hlast
      exact hlast
    obtain ⟨middle, after, rfl, hmiddle⟩ := exists_split_of_getElem? hlater
    exact covers_lines hstart (by omega) hhead hhead'
  · have hstop : span.stop.line.toNat = before.length + 1 := heq ▸ hstart
    have hsame : head ++ rest = head' ++ rest' := by
      rw [hstop] at hlast
      simpa using hlast
    obtain ⟨slice, rfl⟩ := exists_between hsame (hhead ▸ hhead' ▸ UInt32.le_iff_toNat_le.mp hle)
    rw [hsame]
    exact covers_line hstart hstop hhead hhead'

/-! ## Snippets -/

/-- The items from `first` up to `last`; nothing where these do not stand in a list in this order. -/
def range? {α : Type} (items : List α) (first last : Nat) : Option (List α) :=
  if first ≤ last ∧ last ≤ items.length then some ((items.drop first).take (last - first)) else none

/-- The text of `span` in a text given by its lines, where reading a line that is not there is a
failure. -/
def snippet? (span : Span) (lines : List (List Char)) : Option (List Char) :=
  let first := span.start.line.toNat
  let last := span.stop.line.toNat
  if first = 0 ∨ last < first ∨ lines.length < last then some []
  else do
    let firstLine ← lines[← first.ppred]?
    if first = last then
      return sliceColumns firstLine span.start.column.toNat span.stop.column.toNat
    else
      let middle ← range? lines first (← last.ppred)
      let lastLine ← lines[← last.ppred]?
      return join ['\n'] (sliceColumns firstLine span.start.column.toNat (byteLength firstLine) ::
        middle ++ [sliceColumns lastLine 0 span.stop.column.toNat])

/-- Every line that a snippet reads is there. -/
theorem snippet?_eq (span : Span) (lines : List (List Char)) :
    snippet? span lines = some (snippetOfLines span lines) := by
  have hread {n : Nat} (hpos : n ≠ 0) (hn : n ≤ lines.length) :
      n.ppred = some (n - 1) ∧ lines[n - 1]? = some (lines.getD (n - 1) []) := by
    refine ⟨Nat.ppred_eq_pred (Nat.pos_of_ne_zero hpos), ?_⟩
    rw [List.getD_eq_getElem?_getD, List.getElem?_eq_getElem (by omega), Option.getD_some]
  rw [snippet?, snippetOfLines]
  split
  · rfl
  next hfit =>
  rw [not_or, not_or] at hfit
  obtain ⟨hfirst, hline⟩ := hread hfit.1 (by omega)
  obtain ⟨hlast, hline'⟩ := @hread span.stop.line.toNat (by omega) (by omega)
  simp only [hfirst, hline, hlast, hline', Option.bind_eq_bind, Option.bind_some]
  split
  · rfl
  next hmany =>
  have hmiddle : range? lines span.start.line.toNat (span.stop.line.toNat - 1) =
      some ((lines.drop span.start.line.toNat).take
        (span.stop.line.toNat - 1 - span.start.line.toNat)) := by
    rw [range?, if_pos (by omega)]
  rw [hmiddle]
  rfl

/-- The lines of a text, with nothing of the line feeds between them. -/
def linesOf (text : String) : List (List Char) :=
  pieces '\n' text.toList

/-- (a) The snippet of a span that fits is the part of the text between the offsets of its two ends.
(b) For every span, all lines that the snippet reads are there. (c) The snippet is empty where the
span begins on no line, ends on a line before that, or ends after the last line. -/
theorem snippet_covers (span : Span) (text : String) :
    (span.Fits (linesOf text) → ∃ before after,
      text = before ++ span.snippet text ++ after ∧
      before.utf8ByteSize = span.start.offset (linesOf text) ∧
      (before ++ span.snippet text).utf8ByteSize = span.stop.offset (linesOf text)) ∧
    snippet? span (linesOf text) = some (span.snippet text).toList ∧
    (¬(0 < span.start.line ∧ span.start.line ≤ span.stop.line ∧
        span.stop.line.toNat ≤ (linesOf text).length) → span.snippet text = "") := by
  refine ⟨fun hfits => ?_, ?_, fun hout => ?_⟩
  · obtain ⟨before, after, htext, hstart, hstop⟩ := hfits.covers
    refine ⟨String.ofList before, String.ofList after, ?_, ?_, ?_⟩
    · rw [linesOf, join_pieces] at htext
      rw [snippet, ← String.ofList_append, ← String.ofList_append, ← String.toList_inj,
        String.toList_ofList]
      exact htext
    · rw [utf8ByteSize_ofList, hstart]
    · rw [snippet, ← String.ofList_append, utf8ByteSize_ofList]
      exact hstop
  · rw [snippet?_eq, snippet, String.toList_ofList, linesOf]
  · have hlines : span.start.line.toNat = 0 ∨ span.stop.line.toNat < span.start.line.toNat ∨
        (pieces '\n' text.toList).length < span.stop.line.toNat := by
      rw [UInt32.lt_iff_toNat_lt, UInt32.le_iff_toNat_le, linesOf, UInt32.toNat_zero] at hout
      omega
    rw [snippet, snippetOfLines]
    simp only [if_pos hlines]

/-- Of the lines `aé`, `b` and `cd`, what stands from the `é` up to the `d`. -/
theorem snippet_covers_lines :
    let span : Span := ⟨⟨1, 1⟩, ⟨3, 1⟩⟩
    span.Fits (linesOf "aé\nb\ncd") ∧ span.snippet "aé\nb\ncd" = "é\nb\nc" ∧
      ∃ before after, "aé\nb\ncd" = before ++ "é\nb\nc" ++ after ∧ before.utf8ByteSize = 1 ∧
        (before ++ "é\nb\nc").utf8ByteSize = 7 := by
  have hfits : Fits (linesOf "aé\nb\ncd") ⟨⟨1, 1⟩, ⟨3, 1⟩⟩ :=
    ⟨⟨by decide, ['a'], ['é'], by decide +kernel, by decide⟩,
      ⟨by decide, ['c'], ['d'], by decide +kernel, by decide⟩, .inl (by decide)⟩
  have hsnippet : snippet ⟨⟨1, 1⟩, ⟨3, 1⟩⟩ "aé\nb\ncd" = "é\nb\nc" := by decide +kernel
  have hoffsets : Position.offset (linesOf "aé\nb\ncd") ⟨1, 1⟩ = 1 ∧
      Position.offset (linesOf "aé\nb\ncd") ⟨3, 1⟩ = 7 := by decide +kernel
  have hcovers := (snippet_covers ⟨⟨1, 1⟩, ⟨3, 1⟩⟩ "aé\nb\ncd").1 hfits
  rw [hsnippet, hoffsets.1, hoffsets.2] at hcovers
  exact ⟨hfits, hsnippet, hcovers⟩

end Span

end HeaderCheck
