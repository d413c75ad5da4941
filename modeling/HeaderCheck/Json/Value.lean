/-!
# HeaderCheck.Json.Value

JSON values as they are written: members keep their order and may repeat a key.

* `Json.Number`: an integer of 64 bits, or a double given by its bits.
* `Json.depth`: nesting depth of arrays and objects.
* `Json.sorted`: members in ascending order of keys, the last of equal keys taken.
-/

namespace HeaderCheck

/-- A JSON number. A number written without fraction and exponent that fits 64 bits is an
integer, all others are doubles. -/
inductive Json.Number where
  | integer (value : Int)
  | double (bits : UInt64)
deriving DecidableEq, Repr

/-- A JSON value. -/
inductive Json where
  | null
  | bool (value : Bool)
  | number (value : Json.Number)
  | string (value : String)
  | array (items : List Json)
  | object (members : List (String × Json))
deriving Repr, Inhabited

namespace Json

/-- The least number that does not fit 64 bits: `2 ^ 64`. -/
def wordLimit : Nat := 0x10000000000000000

/-- The number as an index: a non-negative integer of at most 64 bits. -/
def Number.index? : Number → Option Nat
  | .integer (.ofNat n) => if n < wordLimit then some n else none
  | _ => none

def ofNat (n : Nat) : Json := .number (.integer n)

def ofInt (i : Int) : Json := .number (.integer i)

/-- `null` for an absent value. -/
def ofOption {α : Type} (encode : α → Json) : Option α → Json
  | none => .null
  | some a => encode a

def string? : Json → Option String
  | .string s => some s
  | _ => none

def bool? : Json → Option Bool
  | .bool b => some b
  | _ => none

def array? : Json → Option (List Json)
  | .array items => some items
  | _ => none

def index? : Json → Option Nat
  | .number n => n.index?
  | _ => none

mutual

/-- How many arrays and objects lie on the longest way down. -/
def depth : Json → Nat
  | .array items => depthItems items + 1
  | .object members => depthMembers members + 1
  | _ => 0

def depthItems : List Json → Nat
  | [] => 0
  | item :: rest => max (depth item) (depthItems rest)

def depthMembers : List (String × Json) → Nat
  | [] => 0
  | (_, value) :: rest => max (depth value) (depthMembers rest)

end

/-- Put a member into members held in ascending order of keys. -/
def insertMember (key : String) (value : Json) : List (String × Json) → List (String × Json)
  | [] => [(key, value)]
  | (other, old) :: rest =>
    if key = other then (key, value) :: rest
    else if key < other then (key, value) :: (other, old) :: rest
    else (other, old) :: insertMember key value rest

mutual

/-- The same value with the members of every object in ascending order of keys; a repeated key
takes its last value. -/
def sorted : Json → Json
  | .array items => .array (sortedItems items)
  | .object members => .object (sortedMembers members [])
  | other => other

def sortedItems : List Json → List Json
  | [] => []
  | item :: rest => sorted item :: sortedItems rest

def sortedMembers : List (String × Json) → List (String × Json) → List (String × Json)
  | [], done => done
  | (key, value) :: rest, done => sortedMembers rest (insertMember key (sorted value) done)

end

end Json

end HeaderCheck
