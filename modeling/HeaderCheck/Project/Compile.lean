import HeaderCheck.Json.Printer
import HeaderCheck.Verify.Visit

/-!
# HeaderCheck.Project.Compile

Checking the sources of a project.

* `checkFile`: the result of a source, which is checked once. A source that is required is checked
  on demand, so it is finished before the source that requires it.
* `requireModule`: what a require gives. A source that is required while it is being checked is a
  cycle.
* `compile`: the result of an entry with the diagnostics of all that it requires; `compileEntry`
  is the same in a session of its own.
* `inspect`: one source with all that was found out about it.
-/

namespace HeaderCheck.Project

open HeaderCheck.Report (Diagnostic)
open HeaderCheck.Script (Source)
open HeaderCheck.Types (TypeId)
open HeaderCheck.Verify (Required State verifySource)

/-- How many sources may require one another in a chain. -/
def maxModuleDepth : Nat := 128

/-! ## Sources -/

/-- The outcome of a verified source. -/
def FileResult.ofState (s : State) : FileResult :=
  { fileName := s.source.path
    diagnostics := s.diagnostics
    exports := s.exports
    dependencies := s.dependencies }

/-- Verify a source, `require` giving the modules that it requires. -/
def verifyFile (host : Host) (options : Options)
    (require : (file request : String) → SessionM Required) (source : Source) :
    SessionM FileResult :=
  ExceptT.mk fun session =>
    let (result, s) := (verifySource host options require).run (State.start session source)
    (result.map fun () => .ofState s, s.session)

/-- Run `m` while the source `path` is being checked. -/
def whileCompiling {α : Type} (path : String) (m : SessionM α) : SessionM α :=
  ExceptT.mk fun s =>
    let (result, s) := m.run { s with compiling := path :: s.compiling }
    (result, { s with compiling := s.compiling.tail })

/-- The result of a source: the known one, or that of `check`, which is known from then on. -/
def checkOnce (host : Host) (path : String) (check : Source → SessionM FileResult) :
    SessionM (Option FileResult) := do
  match (← get).files.get? path, host.source? path with
  | some known, _ => return some known
  | none, none => return none
  | none, some source =>
    let result ← check source
    modify fun s => { s with files := s.files.insert path result }
    return some result

/-- The header of a package as an object of what it assigns. -/
def requireDefinition (host : Host) (options : Options) (name : String) : SessionM Required := do
  match options.definitionPath? name with
  | none => return .notFound
  | some file =>
    let path := Path.normalize file
    match ← resolveHeader host options path with
    | none => return .notFound
    | some header =>
      let fields := header.assignments.map fun (name, type) => { name, type }
      let exports ← modifyGet fun s =>
        let (exports, table) := s.table.object fields
        (exports, { s with table })
      return .resolved path exports

/-- What `request` gives to a file: a package by its bare name, a source by its path. -/
def requireModule (host : Host) (options : Options)
    (check : String → SessionM (Option FileResult)) (file request : String) :
    SessionM Required := do
  if Path.isRequest request then
    let path :=
      Path.withDefaultExtension (Path.resolve file request) options.sourceExtension
    if (← get).compiling.contains path then return .cyclic
    else
      match ← check path with
      | some result => return .resolved path (result.exports.getD .any)
      | none => return .notFound
  else requireDefinition host options request

/-- The result of a source below which requires may go `levels` levels deep. -/
def checkWithin (host : Host) (options : Options) :
    (levels : Nat) → (path : String) → SessionM (Option FileResult)
  | 0, path => checkOnce host path fun _ => throw (.moduleDepthExceeded maxModuleDepth)
  | levels + 1, path =>
    checkOnce host path fun source =>
      whileCompiling path
        (verifyFile host options
          (requireModule host options fun path => checkWithin host options levels path) source)

/-- The result of a source; `none` if there is no such source. -/
def checkFile (host : Host) (options : Options) (path : String) : SessionM (Option FileResult) :=
  checkWithin host options maxModuleDepth path

/-! ## Entries -/

/-- The result of an entry. -/
structure CompileResult where
  fileName : String
  /-- Those of the globals file, of each source that is required, and of the entry. -/
  diagnostics : List Diagnostic
  exports : Option TypeId

namespace CompileResult

def hasErrors (result : CompileResult) : Bool :=
  !result.diagnostics.isEmpty

/-- The diagnostics as a JSON text. -/
def diagnosticsJson (result : CompileResult) : String :=
  (Json.array (result.diagnostics.map Diagnostic.toJson)).pretty

end CompileResult

/-- The diagnostics of what a result depends on, at most `fuel` requires deep, each source once,
and then its own; with them the paths that have been seen. -/
def collectWithin (files : Dict FileResult) :
    (fuel : Nat) → FileResult → (seen : List String) → List String × List Diagnostic
  | 0, result, seen => (seen, result.diagnostics)
  | fuel + 1, result, seen =>
    let (seen, collected) := result.dependencies.foldl
      (fun (seen, collected) path =>
        if seen.contains path then (seen, collected)
        else
          match files.get? path with
          | none => (path :: seen, collected)
          | some file =>
            let (seen, more) := collectWithin files fuel file (path :: seen)
            (seen, collected ++ more))
      (seen, [])
    (seen, collected ++ result.diagnostics)

/-- The diagnostics of an entry and of all sources it depends on. Each source on a chain of
requires is a different one, so no chain is longer than there are sources. -/
def collectDiagnostics (files : Dict FileResult) (path : String) (result : FileResult) :
    List Diagnostic :=
  (collectWithin files (files.size + 1) result [path]).2

/-- Check an entry and everything that it requires. -/
def compile (host : Host) (options : Options) (path : String) : SessionM CompileResult := do
  let path := Path.normalize path
  match ← checkFile host options path with
  | none => throw (.sourceNotFound path)
  | some result =>
    let s ← get
    return { fileName := path
             diagnostics := s.globalDiagnostics ++ collectDiagnostics s.files path result
             exports := result.exports }

/-- Check an entry in a session of its own. -/
def compileEntry (host : Host) (options : Options) (path : String) :
    Except Error CompileResult := do
  let session ← Session.start host options
  ((compile host options path).run session).1

/-- The state at the end of verifying one source, which itself does not count as being checked. -/
def inspect (host : Host) (options : Options) (path : String) : Except Error State := do
  match host.source? path with
  | none => throw (.sourceNotFound path)
  | some source =>
    let session ← Session.start host options
    let require := requireModule host options (checkFile host options)
    match (verifySource host options require).run (State.start session source) with
    | (.ok (), s) => return s
    | (.error e, _) => throw e

end HeaderCheck.Project
