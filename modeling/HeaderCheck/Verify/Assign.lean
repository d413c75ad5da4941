import HeaderCheck.Verify.Call
import HeaderCheck.Verify.Operator

/-!
# HeaderCheck.Verify.Assign

Assignments. The left side is verified as a target, with declared types in place of narrowed ones.
What it stands for decides what the assignment does:

* the exports of the module take the type of the value;
* a variable that waits for its first value takes its type, too;
* a new field of an open object is added to the object;
* everything else must accept the value.
-/

namespace HeaderCheck.Verify

open HeaderCheck.Script (Expr)
open HeaderCheck.Types (TypeId)

/-- The name `F` in `F.prototype`. -/
def prototypeOwner? (object : Expr) : Option String :=
  match Access.ofExpr? object with
  | some access =>
    if access.name? = some prototypeName then access.object.identifier?.map fun id => id.name
    else none
  | none => none

/-- The object of a variable gets a new field of the assigned type. Fields of other objects are
not kept. -/
def widenObject (access : Access) (value : TypeId) : Check Unit := do
  let s ← get
  match access.object, access.name? with
  | .identifier id, some field =>
    match s.declaredType id.name with
    | none => return ()
    | some current =>
      match ← onTable? fun table => table.withField current field value with
      | none => return ()
      | some widened =>
        let _ ← onArena fun a => a.forceUpdateVar s.focus.scope id.name widened
  | _, _ => return ()

/-- The type of `this` in the methods of the constructor `name`. -/
def State.instanceOf? (s : State) (name : String) : Option TypeId := do
  let constructor ← s.typeIn s.focus.scope name .normal
  let shape ← s.table.functionShape? constructor
  shape.this

/-- The type that an assigned value must fit. In `F.prototype.m = function ..` the method is
verified with the objects of `F` as its `this`, unless it declares a `this` of its own. -/
def targetType (left : Expr) (type : TypeId) (right : Expr) : Check TypeId := do
  let s ← get
  match isFunctionExpr right, s.table.functionShape? type with
  | true, some shape =>
    let owner := (Access.ofExpr? left).bind fun access => prototypeOwner? access.object
    match shape.this, owner.bind s.instanceOf? with
    | none, some this => onTable fun table => table.function { shape with this := some this }
    | _, _ => return type
  | _, _ => return type

/-- Take note of an assigned field: of the object that a constructor makes, or of a prototype. -/
def recordField (access : Access) (value : TypeId) : Check Unit := do
  let s ← get
  match access.name? with
  | none => return ()
  | some field =>
    if access.object.isThis then
      if (s.arena.functionInfo? s.focus.scope).any fun info => info.isConstructor then
        onArena fun a => a.addKnownField s.focus.scope field
    else
      match prototypeOwner? access.object with
      | some constructor =>
        if s.inFileScope then
          onArena fun a => a.addPrototypeField s.focus.scope constructor field value
      | none => return ()

/-- Take note of an assigned value: a variable keeps its type for the rest of a branch. -/
def recordAssigned (left : Expr) (value : TypeId) : Check Unit := do
  let s ← get
  match left with
  | .identifier id =>
    if s.inBranch then
      onArena fun a => a.restrict s.focus.scope id.name value
  | left =>
    match Access.ofExpr? left with
    | some access => recordField access value
    | none => return ()

/-- Assign to what accepts a value of type `type`. -/
def assignChecked (v : Visitor) (left : Expr) (type : TypeId) (right : Expr) :
    Check (Option TypeId) := do
  let expected ← targetType left type right
  match ← v.into right (some expected) with
  | none => return none
  | some value =>
    let _ ← checkFits right.span expected value
    recordAssigned left value
    return some value

/-- Assign a value of any type, `accept` taking note of its type. -/
def assignFreely (v : Visitor) (right : Expr) (accept : TypeId → Check Unit) :
    Check (Option TypeId) := do
  match ← v.into right none with
  | none => return none
  | some value =>
    accept value
    return some value

/-- The variable that an assignment gives its type to. -/
def growingName? (left : Expr) (type : TypeId) : Option String :=
  if type.growsFreely then left.identifier?.map fun id => id.name else none

/-- The access that an assignment adds a field by. -/
def growingAccess? (left : Expr) (type : TypeId) : Option Access :=
  if type = .openField then Access.ofExpr? left else none

/-- An assignment to what has been verified as a target of type `type`. -/
def assignTo (v : Visitor) (left : Expr) (type : TypeId) (right : Expr) :
    Check (Option TypeId) := do
  if type = .moduleExports then
    assignFreely v right fun value => modify fun s => { s with exports := some value }
  else
    match growingName? left type, growingAccess? left type with
    | some name, _ =>
      assignFreely v right fun value => do
        let scope := (← get).focus.scope
        let _ ← onArena fun a => a.forceUpdateVar scope name value
    | none, some access => assignFreely v right (widenObject access)
    | none, none => assignChecked v left type right

/-- An assignment, whose value is that of its right side. -/
def verifyAssignment (v : Visitor) (operator : String) (left right : Expr) (span : Span) :
    Check (Option TypeId) := do
  if operator ≠ "=" then verifyCompound v operator left right span
  else
    match ← asTarget (v.expr left) with
    | none => return none
    | some type => assignTo v left type right

end HeaderCheck.Verify
