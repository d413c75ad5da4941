import HeaderCheck.Builtins
import HeaderCheck.Header.Lower
import HeaderCheck.Project.Host
import HeaderCheck.Project.Options

/-!
# HeaderCheck.Project.Session

What the files of a project share while they are checked, and the headers among it.

* `Session`: the table of types, the bindings of all files and the results so far.
* `resolveHeader`: what a header contributes. Each header is lowered once; one that is reached
  while it is being lowered counts as missing there.
-/

namespace HeaderCheck.Project

open HeaderCheck.Report (Diagnostic)
open HeaderCheck.Types (Table TypeId)
open HeaderCheck.Header (Lowered Lowering)

/-- The outcome of checking one source. -/
structure FileResult where
  fileName : String
  diagnostics : List Diagnostic
  exports : Option TypeId
  /-- Files that this one required, in the order of their first requires. -/
  dependencies : List String

/-- What the files of a project share. -/
structure Session where
  table : Table := Table.initial
  globals : Globals := {}
  globalDiagnostics : List Diagnostic := []
  /-- Results of checked sources. -/
  files : Dict FileResult := {}
  /-- Lowered headers; `none` for a path without a header. -/
  headers : Dict (Option Lowered) := {}
  /-- Sources that are being checked, innermost first. -/
  compiling : List String := []
  /-- Headers that are being lowered, innermost first. -/
  lowering : List String := []

/-- Work on a session keeps what it learned also when it fails. -/
abbrev SessionM := ExceptT Error (StateM Session)

/-- Run `m` while the header `path` is being lowered. -/
def whileLowering {α : Type} (path : String) (m : SessionM α) : SessionM α :=
  ExceptT.mk fun s =>
    let (result, s) := m.run { s with lowering := path :: s.lowering }
    (result, { s with lowering := s.lowering.tail })

/-- Run a change of a lowering on the table of the session. -/
def onLowering (l : Lowering) (change : Lowering → Lowering) : SessionM Lowering :=
  modifyGet fun s =>
    let l := change { l with table := s.table }
    (l, { s with table := l.table })

/-- Take over the types that one import names. -/
def lowerImport (resolve : String → SessionM (Option Lowered)) (options : Options) (l : Lowering)
    (dependency : String) (items : List Signature.TypeExpr) : SessionM Lowering := do
  if !Path.isRequest dependency then
    return l.report .missingDefinition [("moduleName", dependency)]
  else
    let target :=
      Path.withDefaultExtension (Path.resolve l.path dependency) options.headerExtension
    match ← resolve target with
    | none => return l.report .unresolvedHeaderImport [("moduleName", dependency)]
    | some header => onLowering l fun l => l.importFrom header items

/-- Take over the imports of a header in order. -/
def lowerImports (resolve : String → SessionM (Option Lowered)) (options : Options) :
    Lowering → List Signature.Statement → SessionM Lowering
  | l, [] => return l
  | l, .imports dependency items :: rest => do
    let l ← lowerImport resolve options l dependency items
    lowerImports resolve options l rest
  | l, _ :: rest => lowerImports resolve options l rest

/-- Lower one header, `resolve` giving the headers that it imports. -/
def lowerHeader (resolve : String → SessionM (Option Lowered)) (options : Options) (path : String)
    (header : Signature.Header) : SessionM Lowered := do
  let start : Lowering :=
    { table := (← get).table, path, declarations := Header.declarationsOf header }
  let l ← lowerImports resolve options start header.statements
  ExceptT.mk fun s =>
    let (result, l) := (Header.lowerStatements header).run { l with table := s.table }
    (result, { s with table := l.table })

/-- What the header at `path` contributes, through at most `fuel` nested imports. -/
def resolveWithin (host : Host) (options : Options) :
    (fuel : Nat) → (path : String) → SessionM (Option Lowered)
  | 0, _ => throw .outOfFuel
  | fuel + 1, path => do
    let path := Path.normalize path
    let s ← get
    match s.headers.get? path with
    | some known => return known
    | none =>
      if s.lowering.contains path then return none
      else
        match host.header? path with
        | none =>
          modify fun s => { s with headers := s.headers.insert path none }
          return none
        | some header =>
          let lowered ← whileLowering path
            (lowerHeader (resolveWithin host options fuel) options path header)
          modify fun s => { s with headers := s.headers.insert path (some lowered) }
          return some lowered

/-- What the header at `path` contributes; `none` if there is no such header. Headers that are
being lowered differ, so imports nest no deeper than there are headers. -/
def resolveHeader (host : Host) (options : Options) (path : String) : SessionM (Option Lowered) :=
  resolveWithin host options (host.headers.size + 1) path

/-- Bind what the globals file assigns. -/
def loadGlobals (host : Host) (options : Options) : SessionM Unit :=
  match options.globalsFile with
  | none => return ()
  | some file => do
    let path := Path.normalize file
    match ← resolveHeader host options path with
    | none => throw (.sourceNotFound path)
    | some header =>
      modify fun s =>
        { s with
          globals := header.assignments.foldl (fun g (name, type) => g.bind name type) s.globals
          globalDiagnostics := s.globalDiagnostics ++ header.diagnostics }

/-- A session with the bindings `globals` and those of the globals file. -/
def Session.startWith (host : Host) (options : Options) (globals : Globals) (table : Table) :
    Except Error Session :=
  match (loadGlobals host options).run { table, globals } with
  | (.ok (), session) => .ok session
  | (.error e, _) => .error e

/-- A session with the built-in bindings and those of the globals file. -/
def Session.start (host : Host) (options : Options) : Except Error Session :=
  let builtins := Builtins.globals.run Table.initial
  Session.startWith host options builtins.1 builtins.2

end HeaderCheck.Project
