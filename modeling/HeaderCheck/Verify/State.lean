import HeaderCheck.Project.Session
import HeaderCheck.Scope.Arena
import HeaderCheck.Types.Format

/-!
# HeaderCheck.Verify.State

What is known while one source is verified.

* `State`: the session, the scopes of the source and what has been found out so far.
* `Focus`: how the node at hand is looked at. `withFocus` is the one way to change it, and puts it
  back however the work under it ends.
* `Check`: work on a state. A failure ends the run and keeps the state reached.
* `onTable`, `onArena`, `onSession`: operations on parts of the state.
-/

namespace HeaderCheck.Verify

open HeaderCheck.Project (Error Session SessionM)
open HeaderCheck.Report (Diagnostic)
open HeaderCheck.Scope (Arena LookupMode ScopeId)
open HeaderCheck.Script (Function Source)
open HeaderCheck.Types (Table TypeId)

/-- How the node at hand is looked at. -/
structure Focus where
  /-- The scope that the node belongs to. -/
  scope : ScopeId
  /-- The declared type of the slot that the value of the node goes to. -/
  expected : Option TypeId := none
  mode : LookupMode := .normal
  /-- Whether an assignment writes to the node. -/
  isTarget : Bool := false
deriving DecidableEq, Repr

/-- What is known while one source is verified. -/
structure State where
  session : Session
  source : Source
  arena : Arena
  fileScope : ScopeId
  focus : Focus
  diagnostics : List Diagnostic := []
  /-- The type last assigned to the exports of the module. -/
  exports : Option TypeId := none
  /-- Variables whose initial value has no type; reads of them are not reported again. -/
  unknown : List String := []
  /-- Files required so far, in the order of their first requires. -/
  dependencies : List String := []
  /-- The functions whose bodies have been entered, with the scopes made for them, last one
  first. -/
  entered : List (ScopeId × Function) := []

/-- Work on a state keeps what it learned also when it fails. -/
abbrev Check := ExceptT Error (StateM State)

namespace State

/-- The state in which the verification of a source begins. -/
def start (session : Session) (source : Source) : State :=
  let (fileScope, arena) := ({} : Arena).pushFile
  { session, source, arena, fileScope, focus := { scope := fileScope } }

def table (s : State) : Table :=
  s.session.table

def format (s : State) (type : TypeId) : String :=
  s.table.format type

/-- The type that a name has in a scope. -/
def typeIn (s : State) (scope : ScopeId) (name : String) (mode : LookupMode) : Option TypeId :=
  s.arena.getVar s.session.globals scope name mode

/-- The type of a name as the node at hand sees it. -/
def lookup (s : State) (name : String) : Option TypeId :=
  s.typeIn s.focus.scope name s.focus.mode

/-- The type of a name as assignments at the node at hand see it. -/
def declaredType (s : State) (name : String) : Option TypeId :=
  s.typeIn s.focus.scope name .writable

/-- Whether a function called `name` without a type is in sight. -/
def isUntyped (s : State) (name : String) : Bool :=
  (s.arena.getFunction? s.focus.scope name).isSome

/-- The file or function that variables and functions declared here belong to. -/
def owner (s : State) : ScopeId :=
  s.arena.owner s.focus.scope

def inBranch (s : State) : Bool :=
  (s.arena.scope? s.focus.scope).any fun scope => scope.kind.isBranch

def inFileScope (s : State) : Bool :=
  s.focus.scope = s.fileScope

/-- Whether the owner of the current scope has a scope for a function called `key`. -/
def hasFunctionScope (s : State) (key : String) : Bool :=
  (s.arena.scope? s.owner).any fun scope => scope.functions.contains key

/-- The type that the context gives to a function expression or to the result of a call of an
untyped function: that of the slot, or that of the return statement around it. -/
def contextType? (s : State) : Option TypeId :=
  s.focus.expected.or (s.arena.returnExpressionType? s.focus.scope)

end State

/-! ## Work under another focus -/

/-- Run `m` under a changed focus. Afterwards the focus is what it was, also after a failure. -/
def withFocus {α : Type} (change : Focus → Focus) (m : Check α) : Check α :=
  ExceptT.mk fun s =>
    let (result, after) := m.run { s with focus := change s.focus }
    (result, { after with focus := s.focus })

def inScope {α : Type} (scope : ScopeId) (m : Check α) : Check α :=
  withFocus (fun focus => { focus with scope }) m

/-- Run `m` for a value that goes to a slot of type `expected`. -/
def expecting {α : Type} (expected : Option TypeId) (m : Check α) : Check α :=
  withFocus (fun focus => { focus with expected }) m

/-- Run `m` for what an assignment writes to. -/
def asTarget {α : Type} (m : Check α) : Check α :=
  withFocus (fun focus => { focus with mode := .writable, isTarget := true }) m

/-- Run `m` for what is only read, such as the object of an access that is written to. -/
def asRead {α : Type} (m : Check α) : Check α :=
  withFocus (fun focus => { focus with mode := .normal, isTarget := false }) m

/-! ## Operations on parts of the state -/

/-- Run an operation on the table of types. -/
def onTable {α : Type} (f : Table → α × Table) : Check α :=
  modifyGet fun s =>
    let (a, table) := f s.table
    (a, { s with session := { s.session with table } })

/-- Run an operation on the table of types that may have no result; then nothing changes. -/
def onTable? (f : Table → Option (TypeId × Table)) : Check (Option TypeId) :=
  onTable fun table =>
    match f table with
    | some (type, table) => (some type, table)
    | none => (none, table)

/-- Run an operation on the scopes, whose refusal ends the run. -/
def onArena {α : Type} (f : Arena → Except Scope.Error α × Arena) : Check α :=
  ExceptT.mk fun s =>
    let (result, arena) := f s.arena
    (result.mapError .scope, { s with arena })

/-- Open a branch of the current scope. -/
def openBranch : Check ScopeId :=
  modifyGet fun s =>
    let (branch, arena) := s.arena.pushBranch s.focus.scope
    (branch, { s with arena })

/-- Run work on the session. -/
def onSession {α : Type} (m : SessionM α) : Check α :=
  ExceptT.mk fun s =>
    let (result, session) := m.run s.session
    (result, { s with session })

end HeaderCheck.Verify
