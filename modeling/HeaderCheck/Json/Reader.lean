import HeaderCheck.Json.Record
import HeaderCheck.Json.Token

/-!
# HeaderCheck.Json.Reader

Values from JSON texts.

* `skipValue`: passes over a value that nothing looks at. It may nest without limit and may hold
  strings and numbers without a value.
* `readValue`: the value that a shape looks at.
* `Json.read`: the one value of a text, with a limit on the nesting of arrays and objects.
* `Json.readAs`: the parts of a tree that a shape looks at.
-/

namespace HeaderCheck.Json

/-! ## Passing over values -/

/-- What has been opened and not yet closed. -/
inductive Bracket where
  | array
  | object
deriving DecidableEq, Repr

mutual

/-- Pass over a value and over the rest of what has been `opened` around it, innermost first. -/
def skipValue : (opened : List Bracket) → List Token → Option (List Token)
  | opened, .null :: ts => skipRest opened ts
  | opened, .bool _ :: ts => skipRest opened ts
  | opened, .number _ :: ts => skipRest opened ts
  | opened, .string _ :: ts => skipRest opened ts
  | opened, .openArray :: .closeArray :: ts => skipRest opened ts
  | opened, .openArray :: ts => skipValue (.array :: opened) ts
  | opened, .openObject :: .closeObject :: ts => skipRest opened ts
  | opened, .openObject :: .string _ :: .colon :: ts => skipValue (.object :: opened) ts
  | _, _ => none

/-- Pass over the rest of what has been opened, after a value in it. -/
def skipRest : (opened : List Bracket) → List Token → Option (List Token)
  | [], ts => some ts
  | .array :: opened, .comma :: ts => skipValue (.array :: opened) ts
  | .array :: opened, .closeArray :: ts => skipRest opened ts
  | .object :: opened, .comma :: .string _ :: .colon :: ts => skipValue (.object :: opened) ts
  | .object :: opened, .closeObject :: ts => skipRest opened ts
  | _, _ => none

end

/-! ## Reading values -/

mutual

/-- The value at the head of the tokens as far as `shape` looks at it, and the tokens after it.
`levels` counts the arrays and objects that may still be opened, `fuel` the tokens. -/
def readValue : (fuel levels : Nat) → (shape : Shape) → List Token → Option (Json × List Token)
  | 0, _, _, _ => none
  | _ + 1, _, _, .null :: ts => some (.null, ts)
  | _ + 1, _, _, .bool b :: ts => some (.bool b, ts)
  | _ + 1, _, _, .number (some n) :: ts => some (.number n, ts)
  | _ + 1, _, _, .string (some s) :: ts => some (.string s, ts)
  | _ + 1, _ + 1, _, .openArray :: .closeArray :: ts => some (.array [], ts)
  | fuel + 1, levels + 1, shape, .openArray :: ts => readItems fuel levels shape.items [] ts
  | _ + 1, _ + 1, _, .openObject :: .closeObject :: ts => some (.object [], ts)
  | fuel + 1, levels + 1, shape, .openObject :: ts => readMembers fuel levels shape [] ts
  | _, _, _, _ => none

/-- The items of an array up to its closing bracket, after those in `done`; `shapes` are those of
the next items. -/
def readItems : (fuel levels : Nat) → (shapes : List Shape) → (done : List Json) → List Token →
    Option (Json × List Token)
  | 0, _, _, _, _ => none
  | fuel + 1, levels, shapes, done, ts =>
    match readValue fuel levels (shapes.headD .whole) ts with
    | some (item, .comma :: ts) => readItems fuel levels shapes.tail (item :: done) ts
    | some (item, .closeArray :: ts) => some (.array (item :: done).reverse, ts)
    | _ => none

/-- The members of an object up to its closing brace, after those in `done`. Members that `shape`
does not look at are left out. -/
def readMembers : (fuel levels : Nat) → (shape : Shape) → (done : List (String × Json)) →
    List Token → Option (Json × List Token)
  | 0, _, _, _, _ => none
  | fuel + 1, levels, shape, done, .string (some key) :: .colon :: ts =>
    let next : Option (List (String × Json) × List Token) :=
      match shape.member? key with
      | none => (skipValue [] ts).map fun ts => (done, ts)
      | some part => (readValue fuel levels part ts).map fun (value, ts) =>
        ((key, value) :: done, ts)
    match next with
    | some (done, .comma :: ts) => readMembers fuel levels shape done ts
    | some (done, .closeObject :: ts) => some (.object done.reverse, ts)
    | _ => none
  | _ + 1, _, _, _, _ => none

end

/-- What `shape` looks at in a text that holds exactly one value, of which the parts that are
looked at nest at most `levels` levels deep. -/
def readWithin (levels : Nat) (shape : Shape) (text : String) : Option Json :=
  match tokens text with
  | none => none
  | some ts =>
    match readValue (2 * ts.length + 1) levels shape ts with
    | some (value, []) => some value
    | _ => none

/-- The value of a text that holds exactly one value of at most `levels` nested levels. -/
def read (levels : Nat) (text : String) : Option Json :=
  readWithin levels .whole text

/-- How deep arrays and objects may nest in a tree that is read from a text. -/
def maxNesting : Nat := 127

/-- What `shape` looks at in the tree of a text. -/
def readAs (shape : Shape) (text : String) : Option Json :=
  readWithin maxNesting shape text

end HeaderCheck.Json
