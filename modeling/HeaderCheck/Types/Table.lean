import HeaderCheck.Types.Basic

/-!
# HeaderCheck.Types.Table

Tables of types, in which equal types have one handle.

* `Table.find?`: the handle of a type that is in the table. A type is as a rule added after its
  parts, so the search begins after the newest of them.
* `Table.add`: the handle of a type, which is new when the type is.
* `Table.union`, `Table.intersection`: members are flattened and repeated ones dropped.
* `Table.withField`, `Table.withBrand`: changed copies of a type; the type itself stays.

The search misses nothing (`find?_isSome_of_lookup`), and a table only grows:
`lookup_add_of_some` says that no addition changes what a handle stands for.
-/

namespace HeaderCheck.Types

/-- The first place after all parts of a type. -/
def TypeData.bound (data : TypeData) : Nat :=
  data.parts.foldr (fun part bound => max (part.index + 1) bound) 0

/-- Types in the order of their handles. -/
structure Table where
  /-- The types that were added before one of their parts. -/
  forward : List TypeId := []
  types : Array TypeData := #[]
  /-- All other types stand after their parts. -/
  placed : ∀ i data, types[i]? = some data → data.bound ≤ i ∨ ⟨i⟩ ∈ forward := by simp
deriving Repr

namespace Table

def lookup (t : Table) (id : TypeId) : Option TypeData :=
  t.types[id.index]?

def size (t : Table) : Nat :=
  t.types.size

def isEmpty (t : Table) : Bool :=
  t.types.size = 0

/-- The first of the `count` places from `start` on that holds `data`. -/
def findFrom (types : Array TypeData) (data : TypeData) : (count start : Nat) → Option TypeId
  | 0, _ => none
  | count + 1, start =>
    if types[start]? = some data then some ⟨start⟩ else findFrom types data count (start + 1)

/-- The handle of `data`, if the table has it. -/
def find? (t : Table) (data : TypeData) : Option TypeId :=
  (t.forward.find? fun id => t.lookup id = some data).or
    (findFrom t.types data (t.types.size - data.bound) data.bound)

/-- The table with `data` under a new handle. -/
def push (t : Table) (data : TypeData) : Table where
  forward := if t.types.size < data.bound then ⟨t.types.size⟩ :: t.forward else t.forward
  types := t.types.push data
  placed i other h := by
    rw [Array.getElem?_push] at h
    split at h
    · next hi =>
      cases h
      split
      · simp [hi]
      · left; omega
    · rcases t.placed i other h with hb | hm
      · exact .inl hb
      · split
        · exact .inr (List.mem_cons_of_mem _ hm)
        · exact .inr hm

/-- The handle of `data`, and the table in which it has that handle. -/
def add (t : Table) (data : TypeData) : TypeId × Table :=
  match t.find? data with
  | some id => (id, t)
  | none => (⟨t.types.size⟩, t.push data)

/-- The name of each sentinel, in the order of their handles. -/
def sentinelNames : List String :=
  ["%Void%%Uninitialized", "%Void%%UnknownReturn", "%Null%%Default", "%Mixed%%OpenField",
    "%Any%%ModuleExports"]

/-- The types that every table begins with, in the order of their handles. -/
def builtins : List TypeData :=
  (["Any", "Mixed", "String", "Number", "Boolean", "void", "RegExp", "Object", "Array",
      "Function"].map fun name => .literal name true) ++
    [.value "null" "null", .value "undefined" "undefined"] ++
    (sentinelNames.map fun name => .literal name true) ++
    [.object ⟨[], false, plainBrand⟩, .object ⟨[], true, plainBrand⟩]

/-- The table that holds only the built-in types, none of which has parts. -/
def initial : Table where
  types := builtins.toArray
  placed i data h := by
    have hm : data ∈ builtins := by
      simpa using Array.mem_of_getElem? h
    have hb : ∀ data ∈ builtins, data.bound = 0 := by decide
    exact .inl (by simp [hb data hm])

/-! ## Types from their parts -/

def literal (t : Table) (name : String) (builtin : Bool) : TypeId × Table :=
  t.add (.literal name builtin)

def value (t : Table) (value : String) : TypeId × Table :=
  t.add (.value value value)

/-- A closed object without a brand of its own. -/
def object (t : Table) (fields : List Field) : TypeId × Table :=
  t.add (.object ⟨fields, false, plainBrand⟩)

def objectOf (t : Table) (shape : ObjectShape) : TypeId × Table :=
  t.add (.object shape)

def function (t : Table) (shape : FunctionShape) : TypeId × Table :=
  t.add (.function shape)

def generic (t : Table) (base : TypeId) (args : List TypeId) : TypeId × Table :=
  t.add (.generic base args)

/-- `Array<element>`. -/
def array (t : Table) (element : TypeId) : TypeId × Table :=
  t.generic .array [element]

def tuple (t : Table) (elements : List TypeId) : TypeId × Table :=
  t.add (.tuple elements)

def renamed (t : Table) (name : String) (target : TypeId) : TypeId × Table :=
  t.add (.renamed name false target)

def free (t : Table) (name : String) : TypeId × Table :=
  t.add (.free name)

/-- Members without repetition, each at its first place. -/
def distinct (members : List TypeId) : List TypeId :=
  members.foldl (fun kept member => if member ∈ kept then kept else kept ++ [member]) []

/-- What a member of a union contributes: its own members if it is a union. -/
def unionParts (t : Table) (member : TypeId) : List TypeId :=
  match t.lookup member with
  | some (.union inner) => inner
  | _ => [member]

/-- What a member of an intersection contributes. -/
def intersectionParts (t : Table) (member : TypeId) : List TypeId :=
  match t.lookup member with
  | some (.intersection inner) => inner
  | _ => [member]

/-- The union of `members`. One distinct member stands for itself, none for `void`. -/
def union (t : Table) (members : List TypeId) : TypeId × Table :=
  match distinct (members.flatMap t.unionParts) with
  | [] => (.void, t)
  | [member] => (member, t)
  | flat => t.add (.union flat)

def union2 (t : Table) (left right : TypeId) : TypeId × Table :=
  t.union [left, right]

/-- The intersection of `members`. One distinct member stands for itself, none for `Any`. -/
def intersection (t : Table) (members : List TypeId) : TypeId × Table :=
  match distinct (members.flatMap t.intersectionParts) with
  | [] => (.any, t)
  | [member] => (member, t)
  | flat => t.add (.intersection flat)

/-! ## Parts of types -/

def objectShape? (t : Table) (id : TypeId) : Option ObjectShape :=
  match t.lookup id with
  | some (.object shape) => some shape
  | _ => none

def functionShape? (t : Table) (id : TypeId) : Option FunctionShape :=
  match t.lookup id with
  | some (.function shape) => some shape
  | _ => none

def unionMembers? (t : Table) (id : TypeId) : Option (List TypeId) :=
  match t.lookup id with
  | some (.union members) => some members
  | _ => none

def intersectionMembers? (t : Table) (id : TypeId) : Option (List TypeId) :=
  match t.lookup id with
  | some (.intersection members) => some members
  | _ => none

/-- Base and arguments of an applied type. -/
def genericParts? (t : Table) (id : TypeId) : Option (TypeId × List TypeId) :=
  match t.lookup id with
  | some (.generic base args) => some (base, args)
  | _ => none

/-- The element type of `Array<T>`. -/
def arrayElement? (t : Table) (id : TypeId) : Option TypeId :=
  match t.lookup id with
  | some (.generic base [element]) => if base = .array then some element else none
  | _ => none

/-- The name of a literal, a renamed type or a type variable. -/
def name? (t : Table) (id : TypeId) : Option String :=
  match t.lookup id with
  | some (.literal name _) | some (.renamed name _ _) | some (.free name) => some name
  | _ => none

def isFree (t : Table) (id : TypeId) : Bool :=
  (t.lookup id).any TypeData.isFree

def isObject (t : Table) (id : TypeId) : Bool :=
  (t.objectShape? id).isSome

def isFunction (t : Table) (id : TypeId) : Bool :=
  (t.functionShape? id).isSome

/-! ## Changed copies -/

/-- The object with a required field `name`; `none` for what is no object. -/
def withField (t : Table) (object : TypeId) (name : String) (type : TypeId) :
    Option (TypeId × Table) :=
  (t.objectShape? object).map fun shape => t.objectOf (shape.withField name type)

/-- The object or function with another brand; other types stay as they are. -/
def withBrand (t : Table) (id : TypeId) (brand : String) : TypeId × Table :=
  match t.lookup id with
  | some (.object shape) => t.objectOf { shape with brand }
  | some (.function shape) => t.function { shape with brand }
  | _ => (id, t)

/-! ## Looking up after an addition -/

theorem findFrom_eq_some {types : Array TypeData} {data : TypeData} {id : TypeId} :
    ∀ {count start : Nat}, findFrom types data count start = some id →
      types[id.index]? = some data
  | 0, _, h => by simp [findFrom] at h
  | count + 1, start, h => by
    simp only [findFrom] at h
    split at h
    · next hs =>
      cases h
      exact hs
    · exact findFrom_eq_some h

theorem findFrom_isSome {types : Array TypeData} {data : TypeData} {i : Nat}
    (h : types[i]? = some data) :
    ∀ {count start : Nat}, start ≤ i → i < start + count →
      (findFrom types data count start).isSome
  | 0, _, _, _ => by omega
  | count + 1, start, hs, hc => by
    simp only [findFrom]
    split
    · rfl
    · next hne =>
      have : start ≠ i := fun he => hne (he ▸ h)
      exact findFrom_isSome h (by omega) (by omega)

/-- A handle that was found stands for the type. -/
theorem lookup_of_find?_eq_some {t : Table} {data : TypeData} {id : TypeId}
    (h : t.find? data = some id) : t.lookup id = some data := by
  simp only [find?, Option.or_eq_some_iff] at h
  rcases h with h | ⟨_, h⟩
  · simpa using List.find?_some h
  · exact findFrom_eq_some h

/-- A type that a handle stands for is found. -/
theorem find?_isSome_of_lookup {t : Table} {data : TypeData} {id : TypeId}
    (h : t.lookup id = some data) : (t.find? data).isSome := by
  simp only [find?, Option.isSome_or, Bool.or_eq_true]
  rcases t.placed id.index data h with hb | hm
  · have hi : id.index < t.types.size := (Array.getElem?_eq_some_iff.mp h).choose
    exact .inr (findFrom_isSome h hb (by omega))
  · exact .inl (List.find?_isSome.mpr ⟨id, hm, by simpa using h⟩)

/-- An addition changes nothing that a handle stands for. -/
theorem lookup_add_of_some (t : Table) (data old : TypeData) (id : TypeId)
    (h : t.lookup id = some old) : (t.add data).2.lookup id = some old := by
  simp only [add]
  split
  · exact h
  · have hi : id.index < t.types.size := (Array.getElem?_eq_some_iff.mp h).choose
    simp only [lookup, push] at h ⊢
    rw [Array.getElem?_push_lt hi, ← Array.getElem?_eq_getElem hi]
    exact h

/-- The handle of an added type stands for that type. -/
theorem lookup_add_self (t : Table) (data : TypeData) :
    (t.add data).2.lookup (t.add data).1 = some data := by
  simp only [add]
  split
  · next id h => exact lookup_of_find?_eq_some h
  · simp [lookup, push]

/-- A type that is in the table adds nothing to it. -/
theorem add_snd_of_lookup {t : Table} {data : TypeData} {id : TypeId}
    (h : t.lookup id = some data) : (t.add data).2 = t := by
  obtain ⟨found, hf⟩ := Option.isSome_iff_exists.mp (find?_isSome_of_lookup h)
  simp only [add, hf]

end Table

end HeaderCheck.Types
