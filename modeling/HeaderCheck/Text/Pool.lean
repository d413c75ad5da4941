import HeaderCheck.Dict

/-!
# HeaderCheck.Text.Pool

A pool of names: each distinct name has a number, given in order of first use.

* `Pool.standard`: the empty name, then the names that every run meets.
* `Pool.add`: the number of a name, which is new when the name is.
* `Pool.find?`, `Pool.name`: from names to numbers and back.
-/

namespace HeaderCheck

/-- Names and their numbers. -/
structure Pool where
  /-- The number of each name. -/
  numbers : Dict Nat := {}
  /-- The names in the order in which they came. -/
  names : List String := []
deriving Repr

namespace Pool

/-- Numbers have 32 bits. -/
def numberLimit : Nat :=
  UInt32.size

def empty : Pool := {}

/-- The number of a name, if the pool holds it. -/
def find? (pool : Pool) (name : String) : Option Nat :=
  pool.numbers.get? name

/-- The number of `name`, and the pool in which it has that number. -/
def add (pool : Pool) (name : String) : Nat × Pool :=
  match pool.find? name with
  | some number => (number, pool)
  | none =>
    let number := pool.names.length % numberLimit
    (number, ⟨pool.numbers.insert name number, pool.names ++ [name]⟩)

/-- The name that has `number`; the empty name for a number that was never given. -/
def name (pool : Pool) (number : Nat) : String :=
  pool.names.getD number ""

def size (pool : Pool) : Nat :=
  pool.names.length

/-- Whether the pool holds at most the empty name. -/
def isEmpty (pool : Pool) : Bool :=
  pool.names.length ≤ 1

/-- Names that every run meets, in the order of their numbers from 1 on. -/
def commonNames : List String :=
  ["this", "prototype", "module", "exports", "require", "length", "push", "slice", "create",
    "keys", "__dirname", "__filename", "undefined", "null"]

/-- The pool of the empty name, which has the number 0. -/
def ofEmptyName : Pool :=
  ⟨Dict.empty.insert "" 0, [""]⟩

def standard : Pool :=
  commonNames.foldl (fun pool name => (pool.add name).2) ofEmptyName

/-- Names that are known by their numbers in every standard pool. -/
def wellKnown : List (String × Nat) :=
  [("this", 1), ("prototype", 2), ("module", 3), ("exports", 4), ("require", 5), ("length", 6)]

end Pool

end HeaderCheck
