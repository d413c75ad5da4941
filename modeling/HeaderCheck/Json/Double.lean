/-!
# HeaderCheck.Json.Double

Doubles and decimals.

* `Double.ofDecimal?`: the double for a significand of 64 bits and a power of ten, found with one
  rounded product or quotient for each power that is needed.
* `Double.shortest`: the fewest decimal digits that read back as a given double, and of those the
  nearest to it.
* `Double.render`: the text of a double; positional below `10 ^ 16` and down to `10 ^ -5`.
-/

namespace HeaderCheck.Double

/-! ## From decimals -/

/-- The double nearest to `10 ^ n`. -/
def powerOfTen (n : Nat) : Float :=
  Float.ofScientific 1 false n

/-- Largest power of ten that is a finite double. -/
def maxPower : Nat := 308

/-- Divide by `10 ^ n`, in steps of at most `10 ^ 308`. -/
def divideByPower (f : Float) (n : Nat) : Float :=
  if n ≤ maxPower then f / powerOfTen n
  else if f == 0 then f
  else divideByPower (f / powerOfTen maxPower) (n - maxPower)
termination_by n
decreasing_by simp only [maxPower] at *; omega

/-- The double for `significand * 10 ^ exponent`; `none` when it is too large. -/
def ofDecimal? (negative : Bool) (significand : UInt64) (exponent : Int) : Option UInt64 :=
  let f := significand.toFloat
  let scaled : Option Float :=
    if exponent < 0 then some (divideByPower f exponent.natAbs)
    else if exponent.natAbs ≤ maxPower then
      let product := f * powerOfTen exponent.natAbs
      if product.isInf then none else some product
    else if f == 0 then some f
    else none
  scaled.map fun f => (if negative then -f else f).toBits

/-! ## To decimals -/

/-- The leading bit of a mantissa, which the form of a double leaves out: `2 ^ 52`. -/
def hiddenBit : Nat := 0x10000000000000

/-- The bit that says that a double is negative: `2 ^ 63`. -/
def signBit : Nat := 0x8000000000000000

/-- A positive double as `mantissa * 2 ^ exponent`. -/
def decompose (bits : UInt64) : Nat × Int :=
  let fraction : Nat := bits.toNat % hiddenBit
  let biased : Nat := bits.toNat / hiddenBit % 0x800
  if biased = 0 then (fraction, -1074) else (hiddenBit + fraction, (biased : Int) - 1075)

/-- Numerator and denominator of `n * 2 ^ exponent`. -/
def scaleBinary (n : Nat) (exponent : Int) : Nat × Nat :=
  if exponent < 0 then (n, Nat.pow 2 exponent.natAbs) else (n * Nat.pow 2 exponent.natAbs, 1)

/-- The interval of numbers that round to a double, in quarters of its last place. -/
structure Neighbourhood where
  low : Nat
  value : Nat
  high : Nat
  denominator : Nat
  closed : Bool

def neighbourhood (bits : UInt64) : Neighbourhood :=
  let (mantissa, exponent) := decompose bits
  let step := (scaleBinary 1 (exponent - 2)).1
  let denominator := (scaleBinary 1 (exponent - 2)).2
  let below := if mantissa = hiddenBit ∧ exponent ≠ -1074 then 1 else 2
  { low := (4 * mantissa - below) * step
    value := 4 * mantissa * step
    high := (4 * mantissa + 2) * step
    denominator := denominator
    closed := mantissa % 2 = 0 }

/-- Whether `digits * 10 ^ exponent` rounds to the double of the neighbourhood. -/
def Neighbourhood.holds (n : Neighbourhood) (digits : Nat) (exponent : Int) : Bool :=
  let scaled := if exponent < 0 then digits else digits * Nat.pow 10 exponent.natAbs
  let unit := if exponent < 0 then Nat.pow 10 exponent.natAbs else 1
  let point := scaled * n.denominator
  if n.closed then n.low * unit ≤ point && point ≤ n.high * unit
  else n.low * unit < point && point < n.high * unit

/-- The two multiples of `10 ^ exponent` around the value: the lower one, and whether the value
is nearer to the upper one. A tie goes to the even digit. -/
def Neighbourhood.floor (n : Neighbourhood) (exponent : Int) : Nat × Bool :=
  let numerator := if exponent < 0 then n.value * Nat.pow 10 exponent.natAbs else n.value
  let denominator :=
    if exponent < 0 then n.denominator else n.denominator * Nat.pow 10 exponent.natAbs
  let lower := numerator / denominator
  let rest := numerator % denominator
  (lower, denominator < 2 * rest || (denominator = 2 * rest && lower % 2 = 1))

/-- Search the powers of ten from `exponent` down, at most `fuel` of them. -/
def Neighbourhood.search (n : Neighbourhood) : (fuel : Nat) → (exponent : Int) → Nat × Int
  | 0, exponent => ((n.floor exponent).1, exponent)
  | fuel + 1, exponent =>
    let (lower, up) := n.floor exponent
    let hasLower := n.holds lower exponent
    let hasUpper := n.holds (lower + 1) exponent
    if hasLower && hasUpper then (if up then lower + 1 else lower, exponent)
    else if hasLower then (lower, exponent)
    else if hasUpper then (lower + 1, exponent)
    else n.search fuel (exponent - 1)

/-- Digits and power of ten of the shortest decimal that reads back as a positive double. -/
def shortest (bits : UInt64) : Nat × Int :=
  (neighbourhood bits).search 640 309

/-- Digits with the point after the first `n` of them. -/
def withPoint (digits : List Char) (n : Nat) : List Char :=
  digits.take n ++ '.' :: digits.drop n

/-- The text of a positive finite double. -/
def renderPositive (bits : UInt64) : String :=
  let (digits, exponent) := shortest bits
  let text := (toString digits).toList
  let point : Int := text.length + exponent
  if 0 ≤ exponent ∧ point ≤ 16 then
    String.ofList (text ++ List.replicate exponent.natAbs '0' ++ ['.', '0'])
  else if 0 < point ∧ point ≤ 16 then String.ofList (withPoint text point.natAbs)
  else if -5 < point ∧ point ≤ 0 then
    String.ofList (['0', '.'] ++ List.replicate point.natAbs '0' ++ text)
  else
    let mantissa := if text.length = 1 then text else withPoint text 1
    String.ofList mantissa ++ "e" ++ toString (point - 1)

/-- The text of a finite double. -/
def render (bits : UInt64) : String :=
  let magnitude := bits.toNat % signBit
  let sign := if bits.toNat < signBit then "" else "-"
  sign ++ if magnitude = 0 then "0.0" else renderPositive (UInt64.ofNat magnitude)

end HeaderCheck.Double
