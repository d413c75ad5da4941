import HeaderCheck.Header.Location
import HeaderCheck.Scope.Error

/-!
# HeaderCheck.Project.Error

What ends a run. Unlike a diagnostic, after which checking goes on, an error leaves a file or a
header without a result.
-/

namespace HeaderCheck.Project

/-- What a text that cannot be read was meant to be. -/
inductive FileKind where
  | source
  | header
deriving DecidableEq, Repr

inductive Error where
  | scope (error : Scope.Error)
  | optionalAssignment (name : String)
  | malformedGenericLocation (name : String) (fault : Header.LocationFault)
  | sourceNotFound (path : String)
  | moduleDepthExceeded (limit : Nat)
  | unsupportedPropertyKind (kind : String)
  | invalidJson (kind : FileKind) (path : String)
  /-- A traversal was given fewer steps than the tree it walks has nodes. -/
  | outOfFuel
deriving DecidableEq, Repr

def FileKind.name : FileKind → String
  | .source => "source"
  | .header => "header"

def Error.message : Error → String
  | .scope error => error.message
  | .optionalAssignment name => "cannot bind `" ++ name ++ "` to an optional type"
  | .malformedGenericLocation name fault =>
    "malformed generic location for `" ++ name ++ "`: " ++ fault.message
  | .sourceNotFound path => "source file not found: " ++ path
  | .moduleDepthExceeded limit => "module nesting exceeds " ++ toString limit ++ " levels"
  | .unsupportedPropertyKind kind => "unsupported object property kind `" ++ kind ++ "`"
  | .invalidJson kind path => "invalid " ++ kind.name ++ " JSON for " ++ path
  | .outOfFuel => "out of fuel"

end HeaderCheck.Project
