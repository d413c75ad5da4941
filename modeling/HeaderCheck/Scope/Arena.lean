import HeaderCheck.Scope.Basic
import HeaderCheck.Scope.Error

/-!
# HeaderCheck.Scope.Arena

The scopes of one file, in the order in which they were opened.

* `Arena.chain`: a scope and the scopes around it, innermost first. Every look-up is the first
  match on this list.
* `Arena.getVar`: the type that a name has in a scope.
* `Arena.restrict`: a narrowed type, which holds in one scope and below.
* `Arena.addFunction`, `Arena.updateFunction`: functions before and after their type is known.

An operation that can be refused gives its result together with the arena it leaves behind.
-/

namespace HeaderCheck.Scope

open HeaderCheck.Types

structure Arena where
  scopes : Array Scope := #[]

namespace Arena

def size (a : Arena) : Nat :=
  a.scopes.size

def isEmpty (a : Arena) : Bool :=
  a.scopes.size = 0

def scope? (a : Arena) (id : ScopeId) : Option Scope :=
  a.scopes[id.index]?

def modify (a : Arena) (id : ScopeId) (change : Scope → Scope) : Arena :=
  ⟨a.scopes.modify id.index change⟩

def parent? (a : Arena) (id : ScopeId) : Option ScopeId :=
  (a.scope? id).bind Scope.parent

/-- A scope and the scopes around it, at most `fuel` of them. -/
def chainWithin (a : Arena) : (fuel : Nat) → ScopeId → List (ScopeId × Scope)
  | 0, _ => []
  | fuel + 1, id =>
    match a.scope? id with
    | none => []
    | some scope =>
      (id, scope) ::
        match scope.parent with
        | some parent => a.chainWithin fuel parent
        | none => []

/-- A scope and the scopes around it, innermost first. A scope is opened after the one around it,
so there are no more of them than its handle counts. -/
def chain (a : Arena) (id : ScopeId) : List (ScopeId × Scope) :=
  a.chainWithin (id.index + 1) id

/-! ## Opening scopes -/

def push (a : Arena) (scope : Scope) : ScopeId × Arena :=
  (⟨a.scopes.size⟩, ⟨a.scopes.push scope⟩)

def pushFile (a : Arena) : ScopeId × Arena :=
  a.push { parent := none, kind := .file {} }

def pushBranch (a : Arena) (parent : ScopeId) : ScopeId × Arena :=
  a.push { parent := some parent, kind := .branch none }

/-- The file or function that a scope belongs to. -/
def owner (a : Arena) (id : ScopeId) : ScopeId :=
  match (a.chain id).find? fun (_, scope) => !scope.kind.isBranch with
  | some (owner, _) => owner
  | none => id

/-- Open a function scope, registered under its name with the file or function around it. -/
def pushFunction (a : Arena) (parent : ScopeId) (info : FunctionInfo) :
    Except Error ScopeId × Arena :=
  let owner := a.owner parent
  if (a.scope? owner).any fun scope => scope.functions.contains info.name then
    (.error (.duplicateFunctionScope info.name), a)
  else
    let (id, a) := a.push { parent := some parent, kind := .function info }
    (.ok id, a.modify owner fun scope =>
      { scope with functions := scope.functions.insert info.name id })

/-! ## Names -/

/-- Whether a scope itself binds `name`. -/
def hasOwnVar (a : Arena) (id : ScopeId) (name : String) : Bool :=
  (a.scope? id).any fun scope => scope.identifiers.contains name

def bindVar (a : Arena) (id : ScopeId) (name : String) (type : TypeId) : Arena :=
  a.modify id fun scope => { scope with identifiers := scope.identifiers.insert name type }

/-- Bind a name that the scope does not bind yet. -/
def addVar (a : Arena) (id : ScopeId) (name : String) (type : TypeId) :
    Except Error Unit × Arena :=
  if a.hasOwnVar id name then (.error (.duplicateIdentifier name), a)
  else (.ok (), a.bindVar id name type)

/-- What one scope says about a name: its narrowed type, unless declared types are asked for, or
its declared one. -/
def ownType? (scope : Scope) (name : String) (mode : LookupMode) : Option TypeId :=
  match mode with
  | .normal => (scope.restrictions.get? name).or (scope.identifiers.get? name)
  | .writable => scope.identifiers.get? name

/-- The type of a name as seen from a scope, the bindings of all files coming last. -/
def getVar (a : Arena) (globals : Globals) (id : ScopeId) (name : String) (mode : LookupMode) :
    Option TypeId :=
  match (a.chain id).findSome? fun (_, scope) => ownType? scope name mode with
  | some type => some type
  | none => globals.identifiers.get? name

/-- Change the type of a name in the nearest scope that binds it. -/
def forceUpdateVar (a : Arena) (id : ScopeId) (name : String) (type : TypeId) :
    Except Error ScopeId × Arena :=
  match (a.chain id).find? fun (_, scope) => scope.identifiers.contains name with
  | some (holder, _) => (.ok holder, a.bindVar holder name type)
  | none => (.error (.missingIdentifier name), a)

/-! ## Narrowed types -/

/-- The name under which the receiver of a function is narrowed. -/
def thisName : String := "this"

/-- Narrow a name in one scope. A branch may do so again and again and keeps `this` apart; a file
or a function takes each name once and never narrows `this`. -/
def restrict (a : Arena) (id : ScopeId) (name : String) (type : TypeId) :
    Except Error Unit × Arena :=
  match a.scope? id with
  | none => (.ok (), a)
  | some scope =>
    let narrowed := a.modify id fun scope =>
      { scope with restrictions := scope.restrictions.insert name type }
    match scope.kind with
    | .branch _ =>
      if name = thisName then
        (.ok (), a.modify id fun scope => { scope with kind := .branch (some type) })
      else (.ok (), narrowed)
    | _ =>
      if name = thisName then (.error .cannotRestrictThis, a)
      else if scope.restrictions.contains name then (.error (.doubleRestriction name), a)
      else (.ok (), narrowed)

def restrictions (a : Arena) (id : ScopeId) : List (String × TypeId) :=
  match a.scope? id with
  | some scope => scope.restrictions.entries
  | none => []

/-- The narrowed type of `this` in a branch. -/
def restrictedThis? (a : Arena) (id : ScopeId) : Option TypeId :=
  match a.scope? id with
  | some { kind := .branch type, .. } => type
  | _ => none

/-! ## Functions without a type -/

/-- Record a function whose type is not known yet, with the file or function around it. -/
def addFunction (a : Arena) (id : ScopeId) (name : String) (node : Script.Function) :
    Except Error Unit × Arena :=
  let owner := a.owner id
  if a.hasOwnVar owner name then (.error (.shadowedFunction name), a)
  else
    (.ok (), a.modify owner fun scope =>
      { scope with untyped := scope.untyped.insert name ⟨node, owner⟩ })

/-- The nearest function called `name` whose type is not known yet. -/
def getFunction? (a : Arena) (id : ScopeId) (name : String) : Option UntypedFunction :=
  (a.chain id).findSome? fun (_, scope) => scope.untyped.get? name

/-- Bind a function to its type in the scope that declares it. It stops being untyped there even
when the name turns out to be bound. -/
def updateFunction (a : Arena) (id : ScopeId) (name : String) (type : TypeId) :
    Except Error ScopeId × Arena :=
  match (a.chain id).find? fun (_, scope) => scope.untyped.contains name with
  | none => (.error (.missingFunction name), a)
  | some (holder, _) =>
    let a := a.modify holder fun scope => { scope with untyped := scope.untyped.erase name }
    match a.addVar holder name type with
    | (.ok (), a) => (.ok holder, a)
    | (.error e, a) => (.error e, a)

/-- The nearest scope that was opened for a function called `name`. -/
def knownFunction? (a : Arena) (id : ScopeId) (name : String) : Option ScopeId :=
  (a.chain id).findSome? fun (_, scope) => scope.functions.get? name

/-! ## Prototypes -/

/-- Record a prototype field of a constructor of a file. -/
def addPrototypeField (a : Arena) (id : ScopeId) (constructor field : String) (type : TypeId) :
    Except Error Unit × Arena :=
  match a.scope? id with
  | some { kind := .file prototypes, .. } =>
    let fields := ((prototypes.get? constructor).getD {}).insert field type
    (.ok (), a.modify id fun scope =>
      { scope with kind := .file (prototypes.insert constructor fields) })
  | _ => (.error .prototypeOutsideFile, a)

/-- The outermost scope around a scope. -/
def root (a : Arena) (id : ScopeId) : ScopeId :=
  match (a.chain id).getLast? with
  | some (root, _) => root
  | none => id

/-- The prototype fields of a constructor in the file of a scope. -/
def prototypeFields? (a : Arena) (id : ScopeId) (constructor : String) : Option (Dict TypeId) :=
  match a.scope? (a.root id) with
  | some { kind := .file prototypes, .. } => prototypes.get? constructor
  | _ => none

/-! ## The function around a scope -/

/-- The nearest function scope, the scope itself included. -/
def functionScope? (a : Arena) (id : ScopeId) : Option ScopeId :=
  match (a.chain id).find? fun (_, scope) => !scope.kind.isBranch with
  | some (found, scope) => if scope.kind.isFunction then some found else none
  | none => none

def functionInfo? (a : Arena) (id : ScopeId) : Option FunctionInfo :=
  match (a.functionScope? id).bind a.scope? with
  | some { kind := .function info, .. } => some info
  | _ => none

def modifyFunction (a : Arena) (id : ScopeId) (change : FunctionInfo → FunctionInfo) :
    Except Error Unit × Arena :=
  match a.functionScope? id with
  | none => (.error (.notInFunction id.index), a)
  | some found =>
    (.ok (), a.modify found fun scope =>
      match scope.kind with
      | .function info => { scope with kind := .function (change info) }
      | _ => scope)

/-- What one scope says about `this`: `none` to look further out. -/
def ownThis? (scope : Scope) : Option (Option TypeId) :=
  match scope.kind with
  | .branch (some type) => some (some type)
  | .branch none => none
  | .function info => some info.thisType
  | .file _ => some none

/-- The type of `this` in a scope: the nearest branch that narrows it comes before the function. -/
def thisType? (a : Arena) (id : ScopeId) : Option TypeId :=
  ((a.chain id).findSome? fun (_, scope) => ownThis? scope).join

/-- Record that a field was assigned through `this`. -/
def addKnownField (a : Arena) (id : ScopeId) (field : String) : Except Error Unit × Arena :=
  a.modifyFunction id fun info =>
    if info.knownFields.contains field then info
    else { info with knownFields := info.knownFields ++ [field] }

/-- Record the type and place of a return statement. -/
def markReturnType (a : Arena) (id : ScopeId) (type : TypeId) (span : Span) :
    Except Error Unit × Arena :=
  a.modifyFunction id fun info =>
    { info with knownReturnType := some type, returnSpan := some span }

def enterReturn (a : Arena) (id : ScopeId) (expected : TypeId) : Except Error Unit × Arena :=
  a.modifyFunction id fun info => { info with returnExpressionType := some expected }

def exitReturn (a : Arena) (id : ScopeId) : Except Error Unit × Arena :=
  a.modifyFunction id fun info => { info with returnExpressionType := none }

def returnExpressionType? (a : Arena) (id : ScopeId) : Option TypeId :=
  (a.functionInfo? id).bind FunctionInfo.returnExpressionType

end Arena

end HeaderCheck.Scope
