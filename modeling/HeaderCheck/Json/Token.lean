import HeaderCheck.Json.Value
import HeaderCheck.Json.Double

/-!
# HeaderCheck.Json.Token

The tokens of a JSON text.

* `scanString`: the rest of a string after its opening quote.
* `scanNumber`: a number, with its sign.
* `tokens`: all tokens of a text; `none` when some part of it is no token.

A string or a number may be well written and still stand for nothing: half of a surrogate pair is
no character, and a number may be too large for a double. Such a token has no value, and only a
reader that looks at it refuses it.
-/

namespace HeaderCheck.Json

inductive Token where
  | openArray
  | closeArray
  | openObject
  | closeObject
  | comma
  | colon
  | null
  | bool (value : Bool)
  | number (value : Option Number)
  | string (value : Option String)
deriving DecidableEq, Repr

/-! ## Strings -/

def hexDigit? (c : Char) : Option Nat :=
  if '0' ≤ c ∧ c ≤ '9' then some (c.toNat - '0'.toNat)
  else if 'a' ≤ c ∧ c ≤ 'f' then some (c.toNat - 'a'.toNat + 10)
  else if 'A' ≤ c ∧ c ≤ 'F' then some (c.toNat - 'A'.toNat + 10)
  else none

/-- The number written by four hexadecimal digits. -/
def hexUnit? (a b c d : Char) : Option Nat := do
  let a ← hexDigit? a
  let b ← hexDigit? b
  let c ← hexDigit? c
  let d ← hexDigit? d
  return ((a * 16 + b) * 16 + c) * 16 + d

def isHighSurrogate (unit : Nat) : Bool := 0xD800 ≤ unit && unit < 0xDC00

def isLowSurrogate (unit : Nat) : Bool := 0xDC00 ≤ unit && unit < 0xE000

/-- The character that a backslash and `c` stand for. -/
def simpleEscape? : Char → Option Char
  | '"' => some '"'
  | '\\' => some '\\'
  | '/' => some '/'
  | 'b' => some '\x08'
  | 'f' => some '\x0c'
  | 'n' => some '\n'
  | 'r' => some '\r'
  | 't' => some '\t'
  | _ => none

/-- The character that two surrogates stand for. -/
def joinSurrogates (high low : Nat) : Char :=
  Char.ofNat (0x10000 + (high - 0xD800) * 0x400 + (low - 0xDC00))

/-- Add a character to what was read of a string, unless the string has no value. -/
def addChar (c : Char) (done : Option (List Char)) : Option (List Char) :=
  done.map (c :: ·)

/-- Read up to the closing quote; `done` holds what was read before, last character first. A
surrogate without its partner leaves the string without a value, a bare control character is
refused. -/
def scanString (done : Option (List Char)) : List Char → Option (Option String × List Char)
  | [] => none
  | '"' :: rest => some (done.map fun cs => String.ofList cs.reverse, rest)
  | '\\' :: 'u' :: a :: b :: c :: d :: rest =>
    match hexUnit? a b c d with
    | none => none
    | some unit =>
      if isHighSurrogate unit then
        match rest with
        | '\\' :: 'u' :: a :: b :: c :: d :: rest =>
          match hexUnit? a b c d with
          | none => none
          | some low =>
            if isLowSurrogate low then scanString (addChar (joinSurrogates unit low) done) rest
            else scanString none rest
        | rest => scanString none rest
      else if isLowSurrogate unit then scanString none rest
      else scanString (addChar (Char.ofNat unit) done) rest
  | '\\' :: c :: rest =>
    match simpleEscape? c with
    | some e => scanString (addChar e done) rest
    | none => none
  | c :: rest => if c.toNat < 0x20 ∨ c = '\\' then none else scanString (addChar c done) rest

/-! ## Numbers -/

def digit (c : Char) : Nat := c.toNat - '0'.toNat

/-- Take up digits into a significand as long as it fits 64 bits. Gives the significand, how many
digits it took up and how many it left out. -/
def takeDigits (significand : Nat) : List Char → Nat × Nat × Nat
  | [] => (significand, 0, 0)
  | c :: rest =>
    let next := significand * 10 + digit c
    if next < wordLimit then
      let (total, taken, left) := takeDigits next rest
      (total, taken + 1, left)
    else (significand, 0, rest.length + 1)

/-- Largest exponent that is read digit by digit. -/
def maxExponent : Nat := 0x7fffffff

def decimalValue (digits : List Char) : Nat :=
  digits.foldl (fun n c => n * 10 + digit c) 0

/-- The double with the given parts: integer digits, fraction digits and written exponent; `none`
when it is too large. -/
def doubleOfParts (negative : Bool) (whole fraction : List Char) (expNegative : Bool)
    (expDigits : List Char) : Option Number :=
  let (wholeTotal, _, wholeLeft) := takeDigits 0 whole
  let (significand, fractionTaken, _) := takeDigits wholeTotal fraction
  let exponent := decimalValue expDigits
  if maxExponent < exponent then
    if significand ≠ 0 ∧ ¬ expNegative then none
    else (Double.ofDecimal? negative 0 0).map .double
  else
    let shift : Int := (wholeLeft : Int) - fractionTaken
    let written : Int := if expNegative then -exponent else exponent
    (Double.ofDecimal? negative (UInt64.ofNat significand) (shift + written)).map .double

/-- The number without fraction and exponent: an integer when it fits 64 bits, but `-0` and
what does not fit are doubles. -/
def integerOrDouble (negative : Bool) (whole : List Char) : Option Number :=
  let n := decimalValue whole
  if negative then
    if n = 0 ∨ Double.signBit < n then doubleOfParts true whole [] false []
    else some (.integer (-n))
  else if n < wordLimit then some (.integer n)
  else doubleOfParts false whole [] false []

/-- The written exponent after its mark: whether it is negative, its digits and the rest. -/
def scanExponent (cs : List Char) : Option (Bool × List Char × List Char) :=
  let (negative, cs) :=
    match cs with
    | '+' :: rest => (false, rest)
    | '-' :: rest => (true, rest)
    | _ => (false, cs)
  match cs.takeWhile Char.isDigit with
  | [] => none
  | digits => some (negative, digits, cs.dropWhile Char.isDigit)

/-- A number after its sign. -/
def scanNumber (negative : Bool) (cs : List Char) : Option (Option Number × List Char) :=
  let whole := cs.takeWhile Char.isDigit
  let rest := cs.dropWhile Char.isDigit
  if whole = [] ∨ (whole.length > 1 ∧ whole.head? = some '0') then none
  else
    let fraction? : Option (List Char × List Char) :=
      match rest with
      | '.' :: rest =>
        match rest.takeWhile Char.isDigit with
        | [] => none
        | digits => some (digits, rest.dropWhile Char.isDigit)
      | _ => some ([], rest)
    match fraction? with
    | none => none
    | some (fraction, rest) =>
      match rest with
      | 'e' :: more | 'E' :: more =>
        match scanExponent more with
        | none => none
        | some (expNegative, expDigits, rest) =>
          some (doubleOfParts negative whole fraction expNegative expDigits, rest)
      | _ =>
        if fraction = [] then some (integerOrDouble negative whole, rest)
        else some (doubleOfParts negative whole fraction false [], rest)

/-! ## Tokens -/

/-- The token that starts with `c`. -/
def scanToken (c : Char) (cs : List Char) : Option (Token × List Char) :=
  match c, cs with
  | '[', rest => some (.openArray, rest)
  | ']', rest => some (.closeArray, rest)
  | '\x7b', rest => some (.openObject, rest)
  | '\x7d', rest => some (.closeObject, rest)
  | ',', rest => some (.comma, rest)
  | ':', rest => some (.colon, rest)
  | '"', rest => (scanString (some []) rest).map fun (s, rest) => (.string s, rest)
  | 'n', 'u' :: 'l' :: 'l' :: rest => some (.null, rest)
  | 't', 'r' :: 'u' :: 'e' :: rest => some (.bool true, rest)
  | 'f', 'a' :: 'l' :: 's' :: 'e' :: rest => some (.bool false, rest)
  | '-', rest => (scanNumber true rest).map fun (n, rest) => (.number n, rest)
  | c, rest =>
    if c.isDigit then (scanNumber false (c :: rest)).map fun (n, rest) => (.number n, rest)
    else none

def isBlank (c : Char) : Bool :=
  c = ' ' || c = '\n' || c = '\t' || c = '\r'

/-- The tokens of a text of at most `fuel` characters, after those in `done`. -/
def tokensFrom : (fuel : Nat) → (done : List Token) → List Char → Option (List Token)
  | _, done, [] => some done.reverse
  | 0, _, _ :: _ => none
  | fuel + 1, done, c :: rest =>
    if isBlank c then tokensFrom fuel done rest
    else
      match scanToken c rest with
      | none => none
      | some (token, rest) => tokensFrom fuel (token :: done) rest

def tokens (text : String) : Option (List Token) :=
  tokensFrom text.length [] text.toList

end HeaderCheck.Json
