import HeaderCheck.Proofs.Project.Advance
import HeaderCheck.Proofs.Project.Refusals
import HeaderCheck.Proofs.Project.Termination
import HeaderCheck.Proofs.Verify.Tandem.Source
import HeaderCheck.Signature.Build
import HeaderCheck.Types.Outline

/-!
# HeaderCheck.Proofs.Project.Positions

Projects whose sources differ in positions and texts only.

* `Host.Alike`: the same headers, and sources that are the same programs at other positions.
* `Tandem t t' m m' R`: from sessions of two runs the two pieces of work lead to such sessions, with
  results that belong together or with the same error. One lemma for each step of a compile.
* `observed`: the kinds of diagnostics and the exports of an entry.
* `positions_unobserved`: they are the same for alike projects, `positions_observed`: functions that
  share a key in one project only can be told apart.
-/

namespace HeaderCheck.Project

open HeaderCheck.Header (Lowered Lowering)
open HeaderCheck.Report (Diagnostic Kind)
open HeaderCheck.Script (Source)
open HeaderCheck.Types (Outline Table TypeId)
open HeaderCheck.Verify (Both Comparison Required State verifySource)

variable {α β : Type}

/-! ## Alike projects -/

/-- The same source at other positions, perhaps with another text. -/
structure SourceAlike (source source' : Source) : Prop where
  path : source'.path = source.path
  program : source.program.Alike source'.program

/-- The same files, where nodes of sources may have other positions and sources other texts. -/
structure Host.Moved (host host' : Host) : Prop where
  headers : host'.headers = host.headers
  sources : Dict.Related Eq (fun _ source source' => source'.path = source.path ∧
    source'.program.unplaced = source.program.unplaced) host.sources host'.sources

/-- The same files, where functions of one body share a key in both projects or in neither. -/
structure Host.Alike (host host' : Host) : Prop where
  headers : host'.headers = host.headers
  sources : Dict.Related Eq (fun _ => SourceAlike) host.sources host'.sources

theorem Host.Alike.source?_rel {host host' : Host} (h : host.Alike host') (path : String) :
    Option.Rel SourceAlike (host.source? path) (host'.source? path) :=
  h.sources.get?_rel Dict.oneToOne_eq rfl

/-! ## Two runs on sessions -/

/-- The same error, or results that belong together. -/
inductive Outcome (R : α → α → Prop) : Except Error α → Except Error α → Prop
  | error (e : Error) : Outcome R (.error e) (.error e)
  | ok {a a' : α} (h : R a a') : Outcome R (.ok a) (.ok a')

theorem Outcome.eq {result result' : Except Error α} (h : Outcome Eq result result') :
    result' = result := by
  cases h with
  | error e => rfl
  | ok h => rw [h]

/-- From sessions of two runs the work leads to such sessions, with outcomes that belong together. -/
def Tandem (t t' : Session) (m m' : SessionM α) (R : α → α → Prop) : Prop :=
  t.Twins False t' → Outcome R (m.run t).1 (m'.run t').1 ∧ (m.run t).2.Twins False (m'.run t').2

variable {t t' : Session} {m m' : SessionM α} {R : α → α → Prop} {S : β → β → Prop}

namespace Tandem

theorem matched (h : ∀ t t', Tandem t t' m m' Eq) : Matched False m m' := by
  intro t t' ht
  obtain ⟨houtcome, htwins⟩ := h t t' ht
  exact ⟨houtcome.eq, htwins⟩

theorem pure {a a' : α} (h : R a a') : Tandem t t' (pure a) (pure a') R :=
  fun ht => ⟨.ok h, ht⟩

theorem throw (e : Error) : Tandem t t' (throw e) (throw e) R :=
  fun ht => ⟨.error e, ht⟩

theorem get_bind {f f' : Session → SessionM α}
    (h : t.Twins False t' → Tandem t t' (f t) (f' t') R) :
    Tandem t t' (get >>= f) (get >>= f') R :=
  fun ht => h ht ht

theorem modifyGet {f f' : Session → α × Session}
    (h : t.Twins False t' → R (f t).1 (f' t').1 ∧ (f t).2.Twins False (f' t').2) :
    Tandem t t' (modifyGet f) (modifyGet f') R :=
  fun ht => ⟨.ok (h ht).1, (h ht).2⟩

theorem modify {f f' : Session → Session}
    (h : t.Twins False t' → (f t).Twins False (f' t')) :
    Tandem t t' (modify f) (modify f') fun _ _ => True :=
  modifyGet fun ht => ⟨trivial, h ht⟩

theorem bind {f f' : α → SessionM β} (h : Tandem t t' m m' R)
    (hf : ∀ a a' u u', R a a' → Tandem u u' (f a) (f' a') S) :
    Tandem t t' (m >>= f) (m' >>= f') S := by
  intro ht
  obtain ⟨houtcome, htwins⟩ := h ht
  rcases hrun : m.run t with ⟨result, u⟩
  rcases hrun' : m'.run t' with ⟨result', u'⟩
  rw [hrun, hrun'] at houtcome htwins
  cases houtcome with
  | error e =>
    rw [run_bind_error hrun, run_bind_error hrun']
    exact ⟨.error e, htwins⟩
  | ok hR =>
    rw [run_bind_ok hrun, run_bind_ok hrun']
    exact hf _ _ _ _ hR htwins

/-- Work on the same result. -/
theorem bind_same {f f' : α → SessionM β} (h : Tandem t t' m m' Eq)
    (hf : ∀ a u u', Tandem u u' (f a) (f' a) S) : Tandem t t' (m >>= f) (m' >>= f') S := by
  refine h.bind ?_
  rintro a _ u u' rfl
  exact hf a u u'

end Tandem

/-! ## Headers -/

section Headers

variable {resolve : String → SessionM (Option Lowered)} {options : Options}

theorem tandem_lowerImport (h : ∀ target t t', Tandem t t' (resolve target) (resolve target) Eq)
    (l : Lowering) (dependency : String) (items : List Signature.TypeExpr) :
    Tandem t t' (lowerImport resolve options l dependency items)
      (lowerImport resolve options l dependency items) Eq := by
  rw [lowerImport]
  split
  · exact .pure rfl
  refine (h _ _ _).bind_same fun header u u' => ?_
  cases header with
  | none => exact .pure rfl
  | some header =>
    refine .modifyGet fun hu => ?_
    simp only [hu.table, true_and]
    exact { hu with table := rfl }

theorem tandem_lowerImports (h : ∀ target t t', Tandem t t' (resolve target) (resolve target) Eq)
    (l : Lowering) (statements : List Signature.Statement) :
    Tandem t t' (lowerImports resolve options l statements)
      (lowerImports resolve options l statements) Eq := by
  induction statements generalizing t t' l with
  | nil => exact .pure rfl
  | cons statement rest ih =>
    cases statement with
    | imports dependency items =>
      exact (tandem_lowerImport h l dependency items).bind_same fun l _ _ => ih l
    | declaration name body generics => exact ih l
    | assignment name type => exact ih l
    | comment text => exact ih l

theorem tandem_lowerHeader (h : ∀ target t t', Tandem t t' (resolve target) (resolve target) Eq)
    (path : String) (header : Signature.Header) :
    Tandem t t' (lowerHeader resolve options path header)
      (lowerHeader resolve options path header) Eq := by
  refine .get_bind fun ht => ?_
  rw [ht.table]
  refine (tandem_lowerImports h _ _).bind_same fun l u u' hu => ?_
  simp only [ExceptT.run_mk, hu.table]
  rcases (Header.lowerStatements header).run { l with table := u.table } with ⟨result, l⟩
  refine ⟨?_, { hu with table := rfl }⟩
  cases result with
  | error e => exact .error e
  | ok lowered => exact .ok rfl

theorem tandem_whileLowering (path : String)
    (h : ∀ t t', Tandem t t' m m' R) : Tandem t t' (whileLowering path m) (whileLowering path m') R := by
  intro ht
  obtain ⟨houtcome, htwins⟩ := h { t with lowering := path :: t.lowering }
    { t' with lowering := path :: t'.lowering } { ht with lowering := congrArg (path :: ·) ht.lowering }
  exact ⟨houtcome, { htwins with lowering := congrArg List.tail htwins.lowering }⟩

theorem tandem_resolveWithin (host : Host) (fuel : Nat) (path : String) :
    Tandem t t' (resolveWithin host options fuel path) (resolveWithin host options fuel path) Eq := by
  induction fuel generalizing t t' path with
  | zero => exact .throw _
  | succ fuel ih =>
    refine .get_bind fun ht => ?_
    simp only [ht.headers, ht.lowering]
    split
    · exact .pure rfl
    split
    · exact .pure rfl
    have hinsert {u u' : Session} (path : String) (header : Option Lowered) :
        Tandem u u' (modify fun s => { s with headers := s.headers.insert path header })
          (modify fun s => { s with headers := s.headers.insert path header }) fun _ _ => True :=
      .modify fun hu => { hu with headers := by rw [hu.headers] }
    split
    · exact (hinsert _ _).bind fun _ _ _ _ _ => .pure rfl
    · refine (tandem_whileLowering _ fun _ _ => tandem_lowerHeader (fun target _ _ => ih target) _ _).bind_same
        fun lowered _ _ => ?_
      exact (hinsert _ _).bind fun _ _ _ _ _ => .pure rfl

theorem tandem_resolveHeader (host : Host) (options : Options) (path : String) :
    Tandem t t' (resolveHeader host options path) (resolveHeader host options path) Eq :=
  tandem_resolveWithin host _ path

end Headers

variable {host host' : Host}

/-- Headers are lowered without a look at sources. -/
theorem resolveHeader_congr (h : host'.headers = host.headers) (options : Options) :
    resolveHeader host' options = resolveHeader host options := by
  have hwithin (fuel : Nat) : resolveWithin host' options fuel = resolveWithin host options fuel := by
    induction fuel with
    | zero => rfl
    | succ fuel ih =>
      funext path
      simp only [resolveWithin, Host.header?, h, ih]
  funext path
  rw [resolveHeader, resolveHeader, h, hwithin]

theorem start_congr (h : host'.headers = host.headers) (options : Options) :
    Session.start host' options = Session.start host options := by
  simp only [Session.start, Session.startWith, loadGlobals, resolveHeader_congr h]

/-! ## Sources -/

variable {options : Options}

/-- Places may differ everywhere, and nothing else may. -/
def comparison : Comparison :=
  { exact := False, watched := fun _ => false, narrowing := fun _ => True }

theorem tandem_verifyFile (h : host.Alike host') {source source' : Source}
    (hsource : SourceAlike source source')
    {require require' : (file request : String) → SessionM Required}
    (hrequire : ∀ file request, Matched False (require file request) (require' file request)) :
    Tandem t t' (verifyFile host options require source) (verifyFile host' options require' source')
      (FileResult.Twins False) := by
  intro ht
  obtain ⟨π, hbody⟩ := hsource.program.like
  let p : Both comparison := .start comparison π t t' source source'
  have hp : p.Twins :=
    Verify.Both.twins_start (fun _ => trivial) ht hsource.path False.elim
  have hheaders : ∀ path, Matched comparison.exact (resolveHeader host options path)
      (resolveHeader host' options path) := by
    intro path
    rw [resolveHeader_congr h.headers]
    exact Tandem.matched fun _ _ => tandem_resolveHeader host options path
  have hfile : p.left.Owns p.left.fileScope := ⟨_, rfl, rfl⟩
  have hrun := Verify.matched_verifySource (fun _ => rfl) hheaders hrequire
    (p := p) (π := π) ⟨rfl, trivial⟩ rfl hfile hbody hsource.program.size_eq hp
  rcases hrun with ⟨_, ⟨_, hwatched⟩, _⟩ | ⟨result, q, hrun, hrun', hq, -⟩
  · cases hwatched
  simp only [verifyFile, ExceptT.run_mk]
  change (verifySource host options require).run (State.start t source) = _ at hrun
  change (verifySource host' options require').run (State.start t' source') = _ at hrun'
  rw [hrun, hrun']
  refine ⟨?_, hq.twins.session⟩
  cases result with
  | error e => exact .error e
  | ok _ =>
    refine .ok ⟨hq.twins.path, hq.twins.diagnostics, hq.twins.exports, hq.twins.dependencies⟩

theorem tandem_whileCompiling (path : String) (h : ∀ t t', Tandem t t' m m' R) :
    Tandem t t' (whileCompiling path m) (whileCompiling path m') R := by
  intro ht
  obtain ⟨houtcome, htwins⟩ := h { t with compiling := path :: t.compiling }
    { t' with compiling := path :: t'.compiling }
    { ht with compiling := congrArg (path :: ·) ht.compiling }
  exact ⟨houtcome, { htwins with compiling := congrArg List.tail htwins.compiling }⟩

/-- Results of a source in two runs. -/
abbrev ResultTwins : Option FileResult → Option FileResult → Prop :=
  Option.Rel (FileResult.Twins False)

theorem tandem_checkOnce (h : host.Alike host') (path : String)
    {check check' : Source → SessionM FileResult}
    (hcheck : ∀ source source' t t', SourceAlike source source' →
      Tandem t t' (check source) (check' source') (FileResult.Twins False)) :
    Tandem t t' (checkOnce host path check) (checkOnce host' path check') ResultTwins := by
  refine .get_bind fun ht => ?_
  have hknown := ht.files.get?_rel Dict.oneToOne_eq (rfl : path = path)
  have hsource := h.source?_rel path
  generalize t.files.get? path = known at hknown
  generalize t'.files.get? path = known' at hknown
  cases hknown with
  | some hresult => exact .pure (.some hresult)
  | none =>
    generalize host.source? path = source at hsource
    generalize host'.source? path = source' at hsource
    cases hsource with
    | none => exact .pure .none
    | some hsource =>
      refine (hcheck _ _ _ _ hsource).bind fun result result' u u' hresult => ?_
      refine Tandem.bind (.modify fun hu => ?_) fun _ _ _ _ _ => .pure (.some hresult)
      exact { hu with files := hu.files.insert Dict.oneToOne_eq rfl hresult }

theorem tandem_requireDefinition (h : host.Alike host') (name : String) :
    Tandem t t' (requireDefinition host options name) (requireDefinition host' options name) Eq := by
  rw [requireDefinition, requireDefinition, resolveHeader_congr h.headers]
  split
  · exact .pure rfl
  refine (tandem_resolveHeader host options _).bind_same fun header u u' => ?_
  cases header with
  | none => exact .pure rfl
  | some header =>
    refine Tandem.bind_same (.modifyGet fun hu => ?_) fun exports _ _ => .pure rfl
    simp only [hu.table, true_and]
    exact { hu with table := rfl }

theorem tandem_requireModule (h : host.Alike host')
    {check check' : String → SessionM (Option FileResult)}
    (hcheck : ∀ path t t', Tandem t t' (check path) (check' path) ResultTwins)
    (file request : String) :
    Tandem t t' (requireModule host options check file request)
      (requireModule host' options check' file request) Eq := by
  simp only [requireModule]
  split
  · refine .get_bind fun ht => ?_
    rw [ht.compiling]
    split
    · exact .pure rfl
    refine (hcheck _ _ _).bind fun result result' u u' hresult => ?_
    cases hresult with
    | none => exact .pure rfl
    | some hresult =>
      simp only [hresult.exports]
      exact .pure rfl
  · exact tandem_requireDefinition h request

theorem tandem_checkWithin (h : host.Alike host') (levels : Nat) (path : String) :
    Tandem t t' (checkWithin host options levels path) (checkWithin host' options levels path)
      ResultTwins := by
  induction levels generalizing t t' path with
  | zero => exact tandem_checkOnce h path fun _ _ _ _ _ => .throw _
  | succ levels ih =>
    refine tandem_checkOnce h path fun source source' t t' hsource => ?_
    refine tandem_whileCompiling path fun t t' => tandem_verifyFile h hsource fun file request => ?_
    exact Tandem.matched fun _ _ => tandem_requireModule h (fun path _ _ => ih path) file request

/-! ## Entries -/

/-- What has been collected in two runs. -/
structure CollectedTwins (collected collected' : List String × List Diagnostic) : Prop where
  seen : collected'.1 = collected.1
  diagnostics : List.Forall₂ (Diagnostic.Twins False) collected.2 collected'.2

theorem collectWithin_rel {files files' : Dict FileResult}
    (hfiles : Dict.Related Eq (fun _ => FileResult.Twins False) files files') (fuel : Nat)
    {result result' : FileResult} (hresult : result.Twins False result') (seen : List String) :
    CollectedTwins (collectWithin files fuel result seen)
      (collectWithin files' fuel result' seen) := by
  induction fuel generalizing result result' seen with
  | zero => exact ⟨rfl, hresult.diagnostics⟩
  | succ fuel ih =>
    have hstep {acc acc' : List String × List Diagnostic} (hacc : CollectedTwins acc acc')
        (path : String) :
        CollectedTwins (collectStep files fuel acc path) (collectStep files' fuel acc' path) := by
      have hfile := hfiles.get?_rel Dict.oneToOne_eq (rfl : path = path)
      simp only [collectStep, hacc.seen]
      split
      · exact ⟨rfl, hacc.diagnostics⟩
      generalize files.get? path = file at hfile
      generalize files'.get? path = file' at hfile
      cases hfile with
      | none => exact ⟨rfl, hacc.diagnostics⟩
      | some hfile =>
        obtain ⟨hseen, hmore⟩ := ih hfile (path :: acc.1)
        exact ⟨hseen, List.rel_append hacc.diagnostics hmore⟩
    have hfold (paths : List String) {acc acc' : List String × List Diagnostic}
        (hacc : CollectedTwins acc acc') :
        CollectedTwins (paths.foldl (collectStep files fuel) acc)
          (paths.foldl (collectStep files' fuel) acc') := by
      induction paths generalizing acc acc' with
      | nil => exact hacc
      | cons path rest ih' => exact ih' (hstep hacc path)
    obtain ⟨hseen, hcollected⟩ := hfold result.dependencies
      (⟨rfl, .nil⟩ : CollectedTwins (seen, []) (seen, []))
    rw [collectWithin_succ, collectWithin_succ, hresult.dependencies]
    exact ⟨hseen, List.rel_append hcollected hresult.diagnostics⟩

/-- Results of an entry in two runs. -/
structure CompileResult.Twins (result result' : CompileResult) : Prop where
  fileName : result'.fileName = result.fileName
  kinds : result'.diagnostics.map Diagnostic.kind = result.diagnostics.map Diagnostic.kind
  exports : result'.exports = result.exports

theorem kinds_eq {diagnostics diagnostics' : List Diagnostic}
    (h : List.Forall₂ (Diagnostic.Twins False) diagnostics diagnostics') :
    diagnostics'.map Diagnostic.kind = diagnostics.map Diagnostic.kind := by
  induction h with
  | nil => rfl
  | cons hfirst _ ih => rw [List.map_cons, List.map_cons, hfirst.kind, ih]

theorem tandem_compile (h : host.Alike host') (options : Options) (path : String) :
    Tandem t t' (compile host options path) (compile host' options path) CompileResult.Twins := by
  refine (tandem_checkWithin h maxModuleDepth _).bind fun result result' u u' hresult => ?_
  cases hresult with
  | none => exact .throw _
  | @some result result' hresult =>
    refine .get_bind fun hu => .pure ⟨rfl, ?_, hresult.exports⟩
    have hcollected := (collectWithin_rel hu.files (u.files.size + 1) hresult
      [Path.normalize path]).diagnostics
    simp only [collectDiagnostics, List.map_append, hu.globalDiagnostics, hu.files.size_eq,
      kinds_eq hcollected]

theorem twins_after (h : host.Alike host') (options : Options) (paths : List String)
    (ht : t.Twins False t') :
    (t.after host options paths).Twins False (t'.after host' options paths) := by
  induction paths generalizing t t' with
  | nil => exact ht
  | cons path rest ih => exact ih (tandem_compile h options path ht).2

/-! ## What can be observed -/

/-- The kinds of the diagnostics of an entry and the tree of its exports. -/
def observedIn (host : Host) (options : Options) (path : String) (session : Session) :
    Except Error (List Kind × Option Outline) :=
  match (compile host options path).run session with
  | (.ok result, s) =>
    .ok (result.diagnostics.map Diagnostic.kind, result.exports.map s.table.outline)
  | (.error e, _) => .error e

/-- The same in a session of its own, after compiles of other entries. -/
def observed (host : Host) (options : Options) (earlier : List String) (path : String) :
    Except Error (List Kind × Option Outline) :=
  match Session.start host options with
  | .ok session => observedIn host options path (session.after host options earlier)
  | .error e => .error e

theorem observedIn_eq (h : host.Alike host') (options : Options) (path : String)
    (ht : t.Twins False t') : observedIn host' options path t' = observedIn host options path t := by
  obtain ⟨houtcome, htwins⟩ := tandem_compile h options path ht
  rw [observedIn, observedIn]
  rcases hrun : (compile host options path).run t with ⟨result, u⟩
  rcases hrun' : (compile host' options path).run t' with ⟨result', u'⟩
  rw [hrun, hrun'] at houtcome htwins
  cases houtcome with
  | error e => rfl
  | ok hresult =>
    have htable : u'.table = u.table := htwins.table
    simp only [hresult.kinds, hresult.exports, htable]

/-- Projects whose sources differ in positions and texts only give the same error, or the same
kinds of diagnostics and the same exports. -/
theorem positions_unobserved {host host' : Host} (h : host.Alike host') (options : Options)
    (earlier : List String) (path : String) :
    observed host' options earlier path = observed host options earlier path := by
  rw [observed, observed, start_congr h.headers]
  cases Session.start host options with
  | error e => rfl
  | ok session =>
    exact observedIn_eq h options path (twins_after h options earlier (.refl False session))

/-! ## Two functions in one body -/

/-- A function without a name that gives a value, at the start of a line. -/
def giving (line : UInt32) (value : Script.Expr) : Script.Expr :=
  .function ⟨none, [], [Script.Build.returns (some value)], {}, .onLine line 0 0⟩

/-- Two variables are given functions, of which the second gives a text. -/
def assigning (first second : UInt32) : Script.Program :=
  Script.Build.program
    [Script.Build.expression
        (Script.Build.assign (Script.Build.ident "p") (giving first (Script.Build.number 1))),
      Script.Build.expression
        (Script.Build.assign (Script.Build.ident "q") (giving second (Script.Build.string "a")))]

/-- Both functions are to give numbers. -/
def Host.assigning (first second : UInt32) : Host :=
  let giver := Signature.Build.function [] (Signature.Build.literal "Number")
  (Host.single (Project.assigning first second)).addHeader "/app/main.hjs"
    (Signature.Build.header
      [Signature.Build.assignment "p" giver, Signature.Build.assignment "q" giver])

/-- Two functions on lines of their own may be moved to other lines. -/
theorem positions_unobserved_moved :
    (Host.assigning 1 2).Alike (Host.assigning 7 4) ∧
      observed (Host.assigning 7 4) {} [] "/app/main.js" =
        observed (Host.assigning 1 2) {} [] "/app/main.js" := by
  have halike : (Host.assigning 1 2).Alike (Host.assigning 7 4) :=
    ⟨rfl, .cons ⟨rfl, rfl, rfl, by decide +kernel⟩ .nil⟩
  exact ⟨halike, positions_unobserved halike {} [] "/app/main.js"⟩

def observedKinds (host : Host) : Option (List Kind) :=
  (observed host {} [] "/app/main.js").toOption.map Prod.fst

/-- Of two functions at one position only the first is verified. -/
theorem positions_observed :
    ¬∀ host host' : Host, host.Moved host' → ∀ options earlier path,
      observed host' options earlier path = observed host options earlier path := by
  intro hall
  have hmoved : (Host.assigning 1 2).Moved (Host.assigning 0 0) :=
    ⟨rfl, .cons ⟨rfl, rfl, rfl⟩ .nil⟩
  have hkinds : observedKinds (Host.assigning 1 2) = some [.typeClassMismatch] ∧
      observedKinds (Host.assigning 0 0) = some [] := by
    simp only [observedKinds, observed, Session.start_eq]
    decide +kernel
  have heq : observedKinds (Host.assigning 0 0) = observedKinds (Host.assigning 1 2) := by
    rw [observedKinds, observedKinds, hall _ _ hmoved]
  rw [hkinds.1, hkinds.2] at heq
  cases heq

end HeaderCheck.Project
