import HeaderCheck.Types.Table

/-!
# HeaderCheck.Types.Subtype

Structural subtyping: whether a value of one type may stand where another is expected.

* `Failure`: the innermost pair of types that does not fit, and why.
* `Table.checkPair`: the rules for two types, which take the check of their parts as an argument
  and run in any monad that can fail.
* `Checker`: a checker counts the checks under way and gives up when they are too deep.
* `Table.check`, `Table.isSubtype`: the answer of a fresh checker.
-/

namespace HeaderCheck.Types

/-- Why a value of type `actual` does not fit `expected`. -/
inductive Failure where
  | typeClassMismatch (expected actual : TypeId)
  | missingObjectField (field : String) (expected actual : TypeId)
  | brandMismatch (expected actual : TypeId)
  | functionArgCountMismatch (expected actual : TypeId)
deriving DecidableEq, Repr

section Rules

variable {m : Type → Type} [Monad m] [MonadExcept Failure m]

/-- Check each item in turn, up to the first failure. -/
def checkEach {α : Type} (check : α → m Unit) : List α → m Unit
  | [] => pure ()
  | item :: rest => do
    check item
    checkEach check rest

/-- Whether a check passes; its failure is dropped. -/
def passes (check : m Unit) : m Bool :=
  tryCatch (do check; pure true) fun _ => pure false

/-- Whether some item passes; those after the first that does are not looked at. -/
def passesAny {α : Type} (check : α → m Unit) : List α → m Bool
  | [] => pure false
  | item :: rest => do
    if ← passes (check item) then pure true else passesAny check rest

end Rules

namespace TypeId

/-- Types that accept any value: `Any`, `Mixed` and what is not known yet. -/
def acceptsAll (id : TypeId) : Bool :=
  id = any || id = mixed || id = openField || id = moduleExports || id = uninitialized ||
    id = unknownReturn || id = nullDefault

/-- Types whose values are accepted everywhere. -/
def fitsAll (id : TypeId) : Bool :=
  id = any || id = openField || id = unknownReturn

end TypeId

namespace Table

/-- Whether a built-in name accepts a type of another form: `void` accepts `undefined`, `Object`
accepts objects, functions and applied types, `Function` functions and `Array` applied arrays. -/
def coerces (expected : TypeId) (child : TypeData) : Bool :=
  match child with
  | .value _ name => expected = .void && name = "undefined"
  | .object _ => expected = .object
  | .function _ => expected = .object || expected = .function
  | .generic base _ => expected = .object || (expected = .array && base = .array)
  | _ => false

/-- Add the fields of `shape` that `merged` lacks. The first brand of its own wins. -/
def mergeShape (merged shape : ObjectShape) : ObjectShape :=
  { merged with
    brand := if merged.brand = plainBrand then shape.brand else merged.brand
    fields := shape.fields.foldl
      (fun fields field =>
        if fields.any fun other => other.name = field.name then fields else fields ++ [field])
      merged.fields }

/-- One shape with the fields of all `members`; `none` unless all of them are objects. -/
def mergeObjects? (t : Table) (members : List TypeId) : Option ObjectShape :=
  (members.mapM t.objectShape?).map fun shapes =>
    shapes.foldl mergeShape ⟨[], false, plainBrand⟩

section Rules

variable {m : Type → Type} [Monad m] [MonadExcept Failure m]

/-- Every field of `parent` that is not optional must be in `child`, with a type that fits. -/
def checkObject (check : TypeId → TypeId → m Unit) (expected actual : TypeId)
    (parent child : ObjectShape) : m Unit :=
  if parent.brand ≠ plainBrand ∧ parent.brand ≠ child.brand then
    throw (.brandMismatch expected actual)
  else
    checkEach
      (fun field =>
        match child.find? field.name with
        | some found => check field.type found.type
        | none =>
          if field.optional then pure ()
          else throw (.missingObjectField field.name expected actual))
      parent.fields

/-- Parameters fit the other way round, results this way, and so does `this` where both functions
declare it. The child may declare fewer parameters but must not require more. -/
def checkFunction (check : TypeId → TypeId → m Unit) (expected actual : TypeId)
    (parent child : FunctionShape) : m Unit :=
  if parent.params.length < child.requiredParams then
    throw (.functionArgCountMismatch expected actual)
  else do
    checkEach (fun (pair : Param × Param) => check pair.2.type pair.1.type)
      (parent.params.zip child.params)
    check parent.result child.result
    match parent.this, child.this with
    | some p, some c => check p c
    | _, _ => pure ()

/-- Check two types of which neither is a union and the child is no intersection. -/
def checkForms (check : TypeId → TypeId → m Unit) (expected actual : TypeId) :
    (parent child : TypeData) → m Unit
  | .literal p _, .literal c _ => named p c
  | .renamed p _ _, .renamed c _ _ => named p c
  | _, .renamed _ _ target => check expected target
  | .literal .., child => if coerces expected child then pure () else mismatch
  | .value _ p, .value _ c => named p c
  | .object p, .object c => checkObject check expected actual p c
  | .function p, .function c => checkFunction check expected actual p c
  | .generic pb pa, .generic cb ca =>
    if pa.length ≠ ca.length then mismatch
    else do
      check pb cb
      checkEach (fun pair => check pair.1 pair.2) (pa.zip ca)
  | .tuple ps, .tuple cs =>
    if ps.length ≠ cs.length then mismatch
    else checkEach (fun pair => check pair.1 pair.2) (ps.zip cs)
  | _, _ => mismatch
where
  mismatch : m Unit := throw (.typeClassMismatch expected actual)
  named (p c : String) : m Unit := if p = c then pure () else mismatch

/-- Check an intersection against a type that is neither a union nor an intersection: some
member fits, or all members are objects whose fields together fit. -/
def checkIntersection (t : Table) (check : TypeId → TypeId → m Unit)
    (expected actual : TypeId) (parent : TypeData) (members : List TypeId) : m Unit := do
  if ← passesAny (check expected) members then pure ()
  else
    match parent, t.mergeObjects? members with
    | .object p, some merged => checkObject check expected actual p merged
    | _, _ => throw (.typeClassMismatch expected actual)

/-- Check two types by their structure. The members of a union that is given are compared one by
one before those of a union that is expected, so `A | B` fits `A | B | C`. -/
def checkStructure (t : Table) (check : TypeId → TypeId → m Unit)
    (expected actual : TypeId) (parent child : TypeData) : m Unit :=
  match child, parent with
  | .union members, _ => checkEach (check expected) members
  | _, .union members => do
    if ← passesAny (fun member => check member actual) members then pure ()
    else throw (.typeClassMismatch expected actual)
  | _, .intersection members => checkEach (fun member => check member actual) members
  | .intersection members, _ => t.checkIntersection check expected actual parent members
  | _, _ => checkForms check expected actual parent child

/-- Check two different types that are both in the table, `check` comparing their parts. -/
def checkData (t : Table) (check : TypeId → TypeId → m Unit)
    (expected actual : TypeId) (parent child : TypeData) : m Unit :=
  if parent.isFree || child.isFree then pure ()
  else if expected.acceptsAll || actual.fitsAll then pure ()
  else if actual = .nullDefault then check expected .null
  else if actual = .uninitialized then check expected .undefined
  else t.checkStructure check expected actual parent child

/-- Check two types, `check` comparing their parts. A type fits itself. -/
def checkPair (t : Table) (check : TypeId → TypeId → m Unit) (expected actual : TypeId) : m Unit :=
  if expected = actual then pure ()
  else
    match t.lookup expected, t.lookup actual with
    | some parent, some child => t.checkData check expected actual parent child
    | _, _ => throw (.typeClassMismatch expected actual)

end Rules

/-! ## Checkers -/

/-- How many levels of two types are compared. -/
def maxLevels : Nat := 256

end Table

/-- A checker, which counts the checks under way. -/
structure Checker where
  depth : Nat := 0
deriving DecidableEq, Repr

namespace Checker

def enter (c : Checker) : Checker :=
  { c with depth := c.depth + 1 }

def leave (c : Checker) : Checker :=
  { c with depth := c.depth - 1 }

/-- A check by a checker that calls itself at most `rounds` deep. What lies deeper than
`Table.maxLevels` does not fit. -/
def checkWithin (t : Table) :
    (rounds : Nat) → (expected actual : TypeId) → ExceptT Failure (StateM Checker) Unit
  | 0, expected, actual => throw (.typeClassMismatch expected actual)
  | rounds + 1, expected, actual => ExceptT.mk do
    if Table.maxLevels ≤ (← get).depth then
      return .error (.typeClassMismatch expected actual)
    modify enter
    let answer ← (t.checkPair (checkWithin t rounds) expected actual).run
    modify leave
    return answer

/-- The answer of a checker, and the checker afterwards. It goes no deeper than
`Table.maxLevels`, so it needs no more rounds than that. -/
def check (c : Checker) (t : Table) (expected actual : TypeId) :
    Except Failure Unit × Checker :=
  (checkWithin t Table.maxLevels expected actual).run.run c

end Checker

namespace Table

/-- Whether a value of type `actual` may stand where `expected` is required. -/
def check (t : Table) (expected actual : TypeId) : Except Failure Unit :=
  (({} : Checker).check t expected actual).1

def isSubtype (t : Table) (expected actual : TypeId) : Bool :=
  (t.check expected actual).isOk

end Table

end HeaderCheck.Types
