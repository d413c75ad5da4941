/-!
# HeaderCheck.Scope.Error

What an operation on scopes may refuse. Such a refusal ends a run.
-/

namespace HeaderCheck.Scope

inductive Error where
  | duplicateIdentifier (name : String)
  | missingIdentifier (name : String)
  | missingFunction (name : String)
  | shadowedFunction (name : String)
  | duplicateFunctionScope (name : String)
  | doubleRestriction (name : String)
  | cannotRestrictThis
  | prototypeOutsideFile
  | notInFunction (scope : Nat)
deriving DecidableEq, Repr

def Error.message : Error → String
  | .duplicateIdentifier name => "identifier `" ++ name ++ "` must not already exist in this scope"
  | .missingIdentifier name => "identifier `" ++ name ++ "` must already exist to be updated"
  | .missingFunction name => "function `" ++ name ++ "` must exist already"
  | .shadowedFunction name => "cannot shadow identifier `" ++ name ++ "` with an untyped function"
  | .duplicateFunctionScope name => "cannot add function scope twice: " ++ name
  | .doubleRestriction name => "cannot double restrict type: " ++ name
  | .cannotRestrictThis => "cannot restrict `this` outside a branch"
  | .prototypeOutsideFile => "prototype fields can only be declared at file scope"
  | .notInFunction scope => "scope " ++ toString scope ++ " is not inside a function"

end HeaderCheck.Scope
