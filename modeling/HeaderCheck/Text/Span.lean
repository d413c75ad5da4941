import HeaderCheck.Text.Path

/-!
# HeaderCheck.Text.Span

Positions in a text and the stretches of text between them.

* `Position`: a line counted from 1 and a column counted from 0; `0:0` stands for no position.
* `Span.snippet`: the text that a span covers, columns being offsets in the UTF-8 form of a line.
-/

namespace HeaderCheck

structure Position where
  line : UInt32 := 0
  column : UInt32 := 0
deriving DecidableEq, Repr, Inhabited

/-- The stretch of text from `start` up to `stop`. -/
structure Span where
  start : Position := {}
  stop : Position := {}
deriving DecidableEq, Repr, Inhabited

namespace Span

/-- The span of the columns from `first` up to `last` of one line. -/
def onLine (line first last : UInt32) : Span :=
  ⟨⟨line, first⟩, ⟨line, last⟩⟩

def line (span : Span) : UInt32 :=
  span.start.line

/-- Drop `n` bytes of the UTF-8 form; `none` when the cut falls inside a character or after the
end. -/
def dropBytes : Nat → List Char → Option (List Char)
  | 0, cs => some cs
  | _ + 1, [] => none
  | n + 1, c :: cs => if c.utf8Size ≤ n + 1 then dropBytes (n + 1 - c.utf8Size) cs else none
termination_by _ cs => cs.length

/-- Keep the first `n` bytes of the UTF-8 form; `none` when the cut falls inside a character or
after the end. -/
def takeBytes : Nat → List Char → Option (List Char)
  | 0, _ => some []
  | _ + 1, [] => none
  | n + 1, c :: cs =>
    if c.utf8Size ≤ n + 1 then (takeBytes (n + 1 - c.utf8Size) cs).map (c :: ·) else none
termination_by _ cs => cs.length

/-- Length of the UTF-8 form. -/
def byteLength : List Char → Nat
  | [] => 0
  | c :: cs => c.utf8Size + byteLength cs

/-- The bytes from `start` up to `stop` of a line, both moved back to the end of the line when
they lie beyond it. A cut inside a character gives nothing. -/
def sliceColumns (line : List Char) (start stop : Nat) : List Char :=
  let stop := min stop (byteLength line)
  let start := min start stop
  (((takeBytes stop line).bind fun kept => dropBytes start kept)).getD []

/-- The text of `span` in a text given by its lines; empty when the lines do not fit. -/
def snippetOfLines (span : Span) (lines : List (List Char)) : List Char :=
  let first := span.start.line.toNat
  let last := span.stop.line.toNat
  if first = 0 ∨ last < first ∨ lines.length < last then []
  else
    let firstLine := lines.getD (first - 1) []
    if first = last then
      sliceColumns firstLine span.start.column.toNat span.stop.column.toNat
    else
      let head := sliceColumns firstLine span.start.column.toNat (byteLength firstLine)
      let middle := (lines.drop first).take (last - 1 - first)
      let tail := sliceColumns (lines.getD (last - 1) []) 0 span.stop.column.toNat
      Text.join ['\n'] (head :: middle ++ [tail])

/-- The part of `text` that `span` covers. Lines end at line feeds only. -/
def snippet (span : Span) (text : String) : String :=
  String.ofList (snippetOfLines span (Text.pieces '\n' text.toList))

end Span

end HeaderCheck
