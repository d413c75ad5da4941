import HeaderCheck.Dict
import HeaderCheck.Json.Reader
import HeaderCheck.Project.Error
import HeaderCheck.Script.Decode
import HeaderCheck.Signature.Decode
import HeaderCheck.Text.Path

/-!
# HeaderCheck.Project.Host

The files of a project, by normalized path.

* `Host.addSource`, `Host.addHeader`: a file that replaces an earlier one of the same path.
* `Host.addSourceText`, `Host.addHeaderText`: the same from the JSON text of a tree.
-/

namespace HeaderCheck.Project

structure Host where
  sources : Dict Script.Source := {}
  headers : Dict Signature.Header := {}

namespace Host

def source? (host : Host) (path : String) : Option Script.Source :=
  host.sources.get? (Path.normalize path)

def header? (host : Host) (path : String) : Option Signature.Header :=
  host.headers.get? (Path.normalize path)

def addSource (host : Host) (source : Script.Source) : Host :=
  { host with sources := host.sources.insert (Path.normalize source.path) source }

def addHeader (host : Host) (path : String) (header : Signature.Header) : Host :=
  { host with headers := host.headers.insert (Path.normalize path) header }

/-- Add the source whose tree `json` is the text of. -/
def addSourceText (host : Host) (path text json : String) : Except Error Host :=
  match (Json.readAs Script.Program.shape json).bind Script.Program.ofJson? with
  | some program => .ok (host.addSource { path, text, program })
  | none => .error (.invalidJson .source path)

/-- Add the header whose tree `json` is the text of. -/
def addHeaderText (host : Host) (path json : String) : Except Error Host :=
  match (Json.readAs Signature.Header.shape json).bind Signature.Header.ofJson? with
  | some header => .ok (host.addHeader path header)
  | none => .error (.invalidJson .header path)

end Host

end HeaderCheck.Project
