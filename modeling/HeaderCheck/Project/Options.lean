import HeaderCheck.Json.Record
import HeaderCheck.Text.Path

/-!
# HeaderCheck.Project.Options

Settings for all files of a project.

* `Options.headerPath`: the header that goes with a source.
* `Options.definitionPath?`: the header of a package that is required by its bare name.
-/

namespace HeaderCheck.Project

structure Options where
  /-- The directory with the headers of packages. -/
  definitions : Option String := none
  /-- A header whose assignments add to the bindings of all files. -/
  globalsFile : Option String := none
  headerExtension : String := "hjs"
  sourceExtension : String := "js"
deriving DecidableEq, Repr

namespace Options

/-- The text before `suffix` at the end of `text`. -/
def stem? (text suffix : String) : Option String :=
  if suffix.toList.isSuffixOf text.toList then
    some (String.ofList (text.toList.take (text.length - suffix.length)))
  else none

/-- The header beside a source: the extension of a source is replaced, another one is kept. -/
def headerPath (options : Options) (source : String) : String :=
  (stem? source ("." ++ options.sourceExtension)).getD source ++ "." ++ options.headerExtension

/-- A directory without the separators at its end. -/
def trimSlashes (dir : String) : String :=
  String.ofList (dir.toList.reverse.dropWhile fun c => c = Path.slash).reverse

/-- The header of the package `name`, if there is a directory of such headers. -/
def definitionPath? (options : Options) (name : String) : Option String :=
  options.definitions.map fun dir =>
    trimSlashes dir ++ "/" ++ name ++ "." ++ options.headerExtension

/-- Options from JSON; every setting may be left out. -/
def ofJson? (json : Json) : Option Options := do
  let [definitions, globalsFile, headerExtension, sourceExtension] ←
    json.fields? ["definitions", "globalsFile", "headerExtension", "sourceExtension"] | none
  let definitions ← Field.optional Json.string? definitions
  let globalsFile ← Field.optional Json.string? globalsFile
  let headerExtension ← Field.defaulted "hjs" Json.string? headerExtension
  let sourceExtension ← Field.defaulted "js" Json.string? sourceExtension
  return { definitions, globalsFile, headerExtension, sourceExtension }

def toJson (options : Options) : Json :=
  .object [("definitions", .ofOption .string options.definitions),
    ("globalsFile", .ofOption .string options.globalsFile),
    ("headerExtension", .string options.headerExtension),
    ("sourceExtension", .string options.sourceExtension)]

end Options

end HeaderCheck.Project
