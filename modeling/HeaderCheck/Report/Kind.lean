import HeaderCheck.Text.Template

/-!
# HeaderCheck.Report.Kind

The kinds of diagnostics, each with a stable code and a message template.

* `Kind.code`: what consumers match on. Codes begin with the area that reports them: verification
  of a source, subtyping, or a header.
* `Kind.template`: the message, with holes that the fields of a diagnostic fill.
-/

namespace HeaderCheck.Report

/-- What a diagnostic is about. -/
inductive Kind where
  | tooManyArgsInFunc
  | tooFewArgsInFunc
  | tooManyArgsInCall
  | tooFewArgsInCall
  | missingFieldInConstructor
  | nonExistentField
  | unionFieldAccess
  | untypedFunctionCall
  | untypedFunctionFound
  | unknownIdentifier
  | thisOutsideFunction
  | missingThisType
  | nonVoidReturnInConstructor
  | returnStatementInConstructor
  | missingReturnStatement
  | callingConstructorWithoutNew
  | constructorThisTypeMustBeObject
  | constructorMustReturnVoid
  | constructorMustBePascalCase
  | callingNonFunction
  | unresolvedGeneric
  | intersectionOperatorCallMismatch
  | unknownModuleRequire
  | cyclicModuleImport
  | typeClassMismatch
  | missingObjectField
  | brandMismatch
  | functionArgCountMismatch
  | unknownLiteral
  | missingDefinition
  | unresolvedHeaderImport
deriving DecidableEq, Repr

namespace Kind

/-- Stable code of a kind. -/
def code : Kind → String
  | .tooManyArgsInFunc => "jsig.verify.too-many-function-args"
  | .tooFewArgsInFunc => "jsig.verify.too-few-function-args"
  | .tooManyArgsInCall => "jsig.verify.too-many-args-in-call"
  | .tooFewArgsInCall => "jsig.verify.too-few-args-in-call"
  | .missingFieldInConstructor => "jsig.verify.missing-field-in-constructor"
  | .nonExistentField => "jsig.verify.non-existant-field"
  | .unionFieldAccess => "jsig.verify.accessing-field-on-union"
  | .untypedFunctionCall => "jsig.verify.calling-untyped-function"
  | .untypedFunctionFound => "jsig.verify.untyped-function-found"
  | .unknownIdentifier => "jsig.verify.unknown-identifier"
  | .thisOutsideFunction => "jsig.verify.this-outside-function"
  | .missingThisType => "jsig.verify.missing-this-type"
  | .nonVoidReturnInConstructor => "jsig.verify.non-void-return-in-constructor"
  | .returnStatementInConstructor => "jsig.verify.return-statement-in-constructor"
  | .missingReturnStatement => "jsig.verify.missing-return-statement"
  | .callingConstructorWithoutNew => "jsig.verify.constructor-without-new"
  | .constructorThisTypeMustBeObject => "jsig.verify.constructor-this-type-must-be-object"
  | .constructorMustReturnVoid => "jsig.verify.constructor-must-return-void"
  | .constructorMustBePascalCase => "jsig.verify.constructor-must-be-pascal-case"
  | .callingNonFunction => "jsig.verify.calling-non-function"
  | .unresolvedGeneric => "jsig.verify.unresolved-generic"
  | .intersectionOperatorCallMismatch => "jsig.verify.intersection-operator-call-mismatch"
  | .unknownModuleRequire => "jsig.verify.unknown-module-require"
  | .cyclicModuleImport => "jsig.verify.cyclic-module-import"
  | .typeClassMismatch => "jsig.sub-type.type-class-mismatch"
  | .missingObjectField => "jsig.sub-type.missing-object-field"
  | .brandMismatch => "jsig.sub-type.brand-mismatch"
  | .functionArgCountMismatch => "jsig.sub-type.function-arg-count-mismatch"
  | .unknownLiteral => "jsig.header-file.unknown-literal"
  | .missingDefinition => "jsig.header-file.missing-definition"
  | .unresolvedHeaderImport => "jsig.header-file.unresolved-import"

/-- A message that begins with the line it is about. -/
def atLine (message : Template) : Template :=
  "@" :: .hole "line" :: ": " :: message

/-- Message template of a kind. -/
def template : Kind → Template
  | .tooManyArgsInFunc | .tooFewArgsInFunc =>
    atLine ["Expected the function ", .hole "funcName", " to have exactly ", .hole "expectedArgs",
      " arguments but instead has ", .hole "actualArgs", "."]
  | .tooManyArgsInCall =>
    atLine ["Expected the function ", .hole "funcName", " to be called with at most ",
      .hole "expectedArgs", " arguments but got ", .hole "actualArgs", "."]
  | .tooFewArgsInCall =>
    atLine ["Expected the function ", .hole "funcName", " to be called with at least ",
      .hole "expectedArgs", " arguments but got ", .hole "actualArgs", "."]
  | .missingFieldInConstructor =>
    atLine ["Expected the field: ", .hole "fieldName", " to be defined but instead found: ",
      .hole "otherField", "."]
  | .nonExistentField =>
    atLine ["Object ", .hole "objName", " does not have field ", .hole "fieldName", "."]
  | .unionFieldAccess =>
    atLine ["Cannot access field ", .hole "fieldName", " of union type ", .hole "unionType",
      " without narrowing."]
  | .untypedFunctionCall => atLine ["Cannot call untyped function ", .hole "funcName", "."]
  | .untypedFunctionFound =>
    atLine ["Found untyped function ", .hole "funcName", "; it needs a type signature."]
  | .unknownIdentifier => atLine ["Could not find identifier ", .hole "token", "."]
  | .thisOutsideFunction => atLine ["Cannot use `this` outside of a function."]
  | .missingThisType =>
    atLine ["The function ", .hole "funcName", " uses `this` but declares no this type."]
  | .nonVoidReturnInConstructor =>
    atLine ["The constructor ", .hole "funcName", " must not return a value but returns ",
      .hole "returnType", "."]
  | .returnStatementInConstructor =>
    atLine ["The constructor ", .hole "funcName", " must not contain a return statement."]
  | .missingReturnStatement =>
    atLine ["Expected the function ", .hole "funcName", " to return ", .hole "expected",
      " but found no return statement."]
  | .callingConstructorWithoutNew =>
    atLine ["The constructor ", .hole "funcName", " must be called with `new`."]
  | .constructorThisTypeMustBeObject =>
    atLine ["The constructor ", .hole "funcName", " must have an object this type but has ",
      .hole "thisType", "."]
  | .constructorMustReturnVoid =>
    atLine ["The constructor ", .hole "funcName", " must return void but returns ",
      .hole "returnType", "."]
  | .constructorMustBePascalCase =>
    atLine ["The constructor ", .hole "funcName", " must start with an uppercase letter."]
  | .callingNonFunction =>
    atLine ["Cannot call ", .hole "objName", " of type ", .hole "actual", "."]
  | .unresolvedGeneric =>
    atLine ["Could not resolve generic ", .hole "genericName", " when calling ", .hole "funcName",
      "."]
  | .intersectionOperatorCallMismatch =>
    atLine ["No overload of operator ", .hole "operator", " accepts ", .hole "actual", "."]
  | .unknownModuleRequire => atLine ["Could not resolve module ", .hole "moduleName", "."]
  | .cyclicModuleImport =>
    atLine ["Module ", .hole "moduleName",
      " is already being compiled; cyclic imports are not supported."]
  | .typeClassMismatch =>
    atLine ["Expected to get a ", .hole "expected", " but found ", .hole "actual", "."]
  | .missingObjectField =>
    atLine ["Expected ", .hole "actual", " to have the field ", .hole "fieldName", " of ",
      .hole "expected", "."]
  | .brandMismatch => atLine ["Expected a ", .hole "expected", " but found a ", .hole "actual", "."]
  | .functionArgCountMismatch =>
    atLine ["Expected a function like ", .hole "expected", " but found ", .hole "actual", "."]
  | .unknownLiteral => ["Could not resolve ", .hole "literal"]
  | .missingDefinition =>
    ["Could not find a definition for ", .hole "moduleName",
      "; only relative and absolute imports are supported."]
  | .unresolvedHeaderImport => ["Could not resolve header import ", .hole "moduleName", "."]

end Kind

end HeaderCheck.Report
