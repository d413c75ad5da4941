import HeaderCheck.Json.Record
import HeaderCheck.Text.Span

/-!
# HeaderCheck.Text.SpanForm

JSON forms of positions and spans.

* `Span.toJson`, `Span.ofJson?`: a record of two positions, each with a line and a column.
* `Span.field`: the span of a node, all zeros when the node has none.
* `Span.shape`: what is looked at when a span is read from a text.
-/

namespace HeaderCheck

def Position.toJson (p : Position) : Json :=
  .object [("line", .ofNat p.line.toNat), ("column", .ofNat p.column.toNat)]

def Span.toJson (span : Span) : Json :=
  .object [("start", span.start.toJson), ("end", span.stop.toJson)]

/-- An integer of at most 32 bits. -/
def Json.word32? (json : Json) : Option UInt32 :=
  json.index?.bind fun n => if n < UInt32.size then some (UInt32.ofNat n) else none

def Position.ofJson? (json : Json) : Option Position := do
  let [line, column] ← json.fields? ["line", "column"] | none
  let line ← Field.required Json.word32? line
  let column ← Field.required Json.word32? column
  return { line, column }

def Span.ofJson? (json : Json) : Option Span := do
  let [start, stop] ← json.fields? ["start", "end"] | none
  let start ← Field.required Position.ofJson? start
  let stop ← Field.required Position.ofJson? stop
  return { start, stop }

def Position.shape : Json.Shape :=
  .record [("line", .whole), ("column", .whole)]

def Span.shape : Json.Shape :=
  .record [("start", Position.shape), ("end", Position.shape)]

/-- The span of a node; a node without one is nowhere. -/
def Span.field (field : Option Json) : Option Span :=
  Field.defaulted {} Span.ofJson? field

end HeaderCheck
