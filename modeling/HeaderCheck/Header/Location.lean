import HeaderCheck.Signature.Tree
import HeaderCheck.Types.Basic

/-!
# HeaderCheck.Header.Location

Locations of type variables: from the written path to the steps through a type.

* `steps?`: reads a path chunk by chunk. A chunk is the name of a part, followed by a place where
  the part is a list.
* `LocationFault`: why a location is of no use.
-/

namespace HeaderCheck.Header

open HeaderCheck.Signature HeaderCheck.Types

/-- Why the location of a type variable is of no use. -/
inductive LocationFault where
  | unexpectedIndex
  | expectedIndex (key : String)
  | expectedValue
  | unknownSegment (key : String)
  /-- The location leads to no part of the function. -/
  | outside (location : List Segment)
  | empty
deriving DecidableEq, Repr

def writeSegment : Segment → String
  | .key name => "Key(\"" ++ name ++ "\")"
  | .index i => "Index(" ++ toString i.toNat ++ ")"

def LocationFault.message : LocationFault → String
  | .unexpectedIndex => "unexpected index"
  | .expectedIndex key => "expected an index after `" ++ key ++ "`"
  | .expectedValue => "expected `value` after a key-value index"
  | .unknownSegment key => "unknown segment `" ++ key ++ "`"
  | .outside location =>
    "[" ++ ", ".intercalate (location.map writeSegment) ++ "] is outside the function type"
  | .empty => "empty location"

/-- Names of parts that are lists. -/
def listParts : List String :=
  ["args", "generics", "unions", "intersections", "values", "keyValues"]

/-- Put a step in front of the steps that follow it. -/
def prepend (step : Step) : Except LocationFault (List Step) → Except LocationFault (List Step)
  | .ok steps => .ok (step :: steps)
  | .error fault => .error fault

/-- The steps of a written location. -/
def steps? : List Segment → Except LocationFault (List Step)
  | [] => .ok []
  | .key "thisArg" :: rest => prepend .this (steps? rest)
  | .key "result" :: rest => prepend .result (steps? rest)
  | .key "args" :: .index i :: rest => prepend (.arg i.toNat) (steps? rest)
  | .key "generics" :: .index i :: rest => prepend (.typeArg i.toNat) (steps? rest)
  | .key "unions" :: .index i :: rest => prepend (.member i.toNat) (steps? rest)
  | .key "intersections" :: .index i :: rest => prepend (.member i.toNat) (steps? rest)
  | .key "values" :: .index i :: rest => prepend (.element i.toNat) (steps? rest)
  | .key "keyValues" :: .index i :: .key "value" :: rest =>
    prepend (.field i.toNat) (steps? rest)
  | .key "keyValues" :: .index _ :: _ => .error .expectedValue
  | .key key :: _ =>
    if listParts.contains key then .error (.expectedIndex key) else .error (.unknownSegment key)
  | .index _ :: _ => .error .unexpectedIndex

end HeaderCheck.Header
