import HeaderCheck.Proofs.Project.Check
import HeaderCheck.Proofs.Project.Imports
import HeaderCheck.Proofs.Verify.Frame

/-!
# HeaderCheck.Proofs.Project.Advance

How work on a session changes what is known of files and headers, in every session and however the
work ends.

* `Completed`: results of files in the order in which their checks were completed. What a file
  depends on was completed before it, or is the header of a package.
* `Session.Advances`: results are only added, never for a file or a header that is under way. Those
  of a file have the diagnostics of the header beside it.
* `learning_resolveWithin`, `checksOnce_checkWithin`: headers and files, by induction on the imports
  and requires that may still be followed.
-/

namespace HeaderCheck.Project

open HeaderCheck.Header (Lowered Lowering)
open HeaderCheck.Report (Diagnostic)
open HeaderCheck.Script (Source)
open HeaderCheck.Verify (Contract Framed Required State bindHeader bindSource verifySource)

variable {α : Type} {host : Host} {options : Options} {s s' : Session}

/-! ## Results in the order of completion -/

/-- The path is one for the header of a package. -/
def Options.ForPackage (options : Options) (path : String) : Prop :=
  ∃ name file, options.definitionPath? name = some file ∧ path = Path.normalize file

/-- The path is that of the header of a package. -/
def Host.Defines (host : Host) (options : Options) (path : String) : Prop :=
  (host.header? path).isSome ∧ options.ForPackage path

/-- Results of different sources of the project, each completed after all that it depends on. -/
inductive Completed (host : Host) (options : Options) : List (String × FileResult) → Prop where
  | none : Completed host options []
  | more {entries : List (String × FileResult)} {path : String} {result : FileResult}
      (earlier : Completed host options entries) (source : (host.source? path).isSome)
      (fresh : path ∉ entries.map Prod.fst)
      (dependencies : ∀ dependency ∈ result.dependencies,
        dependency ∈ entries.map Prod.fst ∨ host.Defines options dependency) :
      Completed host options (entries ++ [(path, result)])

/-- The check of a source that was not known has succeeded with this result. -/
def Succeeded (host : Host) (options : Options) (path : String) (result : FileResult) : Prop :=
  ∃ levels s s', s.files.get? path = none ∧
    (checkWithin host options levels path).run s = (.ok (some result), s')

/-- What is known agrees with the files of the project. -/
structure Session.Genuine (host : Host) (options : Options) (s : Session) : Prop where
  headers : ∀ path header, s.headers.get? path = some header →
    header.isSome = (host.header? path).isSome
  handedOn : HandedOn host options s.headers.entries
  files : Completed host options s.files.entries
  succeeded : ∀ path result, s.files.get? path = some result → Succeeded host options path result

theorem Session.Genuine.congr (h : s.Genuine host options) (hheaders : s'.headers = s.headers)
    (hfiles : s'.files = s.files) : s'.Genuine host options := by
  refine ⟨?_, ?_, ?_, ?_⟩
  · rw [hheaders]
    exact h.headers
  · rw [hheaders]
    exact h.handedOn
  · rw [hfiles]
    exact h.files
  · rw [hfiles]
    exact h.succeeded

/-- The path is that of a completed file or of the known header of a package. -/
def Session.Ready (s : Session) (options : Options) (path : String) : Prop :=
  path ∈ s.files.keys ∨ options.ForPackage path ∧ ∃ header, s.headers.get? path = some (some header)

/-! ## Advances -/

/-- Results are only added, and none for what is under way. -/
structure Session.Advances (host : Host) (options : Options) (s s' : Session) : Prop where
  globals : s'.globals = s.globals
  globalDiagnostics : s'.globalDiagnostics = s.globalDiagnostics
  compiling : s'.compiling = s.compiling
  lowering : s'.lowering = s.lowering
  files : s.files.entries <+: s'.files.entries
  headers : s.headers.entries <+: s'.headers.entries
  checking : ∀ path ∈ s.compiling, s'.files.get? path = s.files.get? path
  resolving : ∀ path ∈ s.lowering, s'.headers.get? path = s.headers.get? path
  genuine : s.Genuine host options → s'.Genuine host options
  reports : ∀ path result, s.files.get? path = none → s'.files.get? path = some result →
    s'.Reports (options.headerPath result.fileName) result.diagnostics

namespace Session.Advances

theorem get?_file (h : s.Advances host options s') {path : String} {result : FileResult}
    (hget : s.files.get? path = some result) : s'.files.get? path = some result :=
  Dict.get?_of_prefix h.files hget

theorem get?_header (h : s.Advances host options s') {path : String} {header : Option Lowered}
    (hget : s.headers.get? path = some header) : s'.headers.get? path = some header :=
  Dict.get?_of_prefix h.headers hget

theorem gives (h : s.Advances host options s') {path : String} {header : Option Lowered}
    (hgives : s.Gives path header) : s'.Gives path header := by
  cases header with
  | some lowered => exact h.get?_header hgives
  | none =>
    refine hgives.imp h.get?_header fun ⟨hfree, hmem⟩ => ?_
    exact ⟨(h.resolving _ hmem).trans hfree, h.lowering ▸ hmem⟩

theorem reports_of_reports (h : s.Advances host options s') {path : String}
    {diagnostics : List Diagnostic} (hreports : s.Reports path diagnostics) :
    s'.Reports path diagnostics := by
  obtain ⟨header, hgives, hsub⟩ := hreports
  exact ⟨header, h.gives hgives, hsub⟩

/-- No file is completed. -/
theorem reports_of_files_eq (hfiles : s'.files = s.files) (path : String) (result : FileResult)
    (hfree : s.files.get? path = none) (hget : s'.files.get? path = some result) :
    s'.Reports (options.headerPath result.fileName) result.diagnostics := by
  rw [hfiles, hfree] at hget
  cases hget

theorem refl (s : Session) : s.Advances host options s :=
  ⟨rfl, rfl, rfl, rfl, List.prefix_refl _, List.prefix_refl _, fun _ _ => rfl, fun _ _ => rfl, id,
    reports_of_files_eq rfl⟩

theorem trans {one two three : Session} (h : one.Advances host options two)
    (h' : two.Advances host options three) : one.Advances host options three where
  globals := h'.globals.trans h.globals
  globalDiagnostics := h'.globalDiagnostics.trans h.globalDiagnostics
  compiling := h'.compiling.trans h.compiling
  lowering := h'.lowering.trans h.lowering
  files := h.files.trans h'.files
  headers := h.headers.trans h'.headers
  checking := fun path hmem =>
    (h'.checking path (h.compiling ▸ hmem)).trans (h.checking path hmem)
  resolving := fun path hmem =>
    (h'.resolving path (h.lowering ▸ hmem)).trans (h.resolving path hmem)
  genuine := h'.genuine ∘ h.genuine
  reports := by
    intro path result hfree hget
    cases hmiddle : two.files.get? path with
    | none => exact h'.reports path result hmiddle hget
    | some found =>
      rw [h'.get?_file hmiddle] at hget
      cases hget
      exact h'.reports_of_reports (h.reports path result hfree hmiddle)

theorem withTable (s : Session) (table : Types.Table) :
    s.Advances host options { s with table } :=
  ⟨rfl, rfl, rfl, rfl, List.prefix_refl _, List.prefix_refl _, fun _ _ => rfl, fun _ _ => rfl,
    fun h => h.congr rfl rfl, reports_of_files_eq rfl⟩

/-- A header becomes known. -/
theorem insertHeader {path : String} {header : Option Lowered} (hfree : s.headers.get? path = none)
    (hidle : path ∉ s.lowering) (hgenuine : header.isSome = (host.header? path).isSome)
    (hhears : ∀ lowered, header = some lowered → s.Hears host options path lowered.diagnostics) :
    s.Advances host options { s with headers := s.headers.insert path header } where
  globals := rfl
  globalDiagnostics := rfl
  compiling := rfl
  lowering := rfl
  files := List.prefix_refl _
  headers := by
    rw [Dict.entries_insert hfree]
    exact List.prefix_append _ _
  checking := fun _ _ => rfl
  resolving := by
    intro other hmem
    rw [Dict.get?_insert, if_neg]
    rintro rfl
    exact hidle hmem
  genuine := by
    refine fun h => ⟨fun other found hfound => ?_, ?_, h.files, h.succeeded⟩
    · rw [Dict.get?_insert] at hfound
      split at hfound
      · next heq =>
        subst heq
        cases hfound
        exact hgenuine
      · exact h.headers other found hfound
    · rw [Dict.entries_insert hfree]
      exact h.handedOn.concat hhears
  reports := reports_of_files_eq rfl

/-- A file is completed. -/
theorem insertFile {path : String} {result : FileResult} (hfree : s.files.get? path = none)
    (hidle : path ∉ s.compiling) (hsource : (host.source? path).isSome)
    (hready : ∀ dependency ∈ result.dependencies, s.Ready options dependency)
    (hsucceeded : Succeeded host options path result)
    (hreports : s.Reports (options.headerPath result.fileName) result.diagnostics) :
    s.Advances host options { s with files := s.files.insert path result } where
  globals := rfl
  globalDiagnostics := rfl
  compiling := rfl
  lowering := rfl
  files := by
    rw [Dict.entries_insert hfree]
    exact List.prefix_append _ _
  headers := List.prefix_refl _
  checking := by
    intro other hmem
    rw [Dict.get?_insert, if_neg]
    rintro rfl
    exact hidle hmem
  resolving := fun _ _ => rfl
  genuine := by
    refine fun h => ⟨h.headers, h.handedOn, ?_, fun other found hfound => ?_⟩
    · rw [Dict.entries_insert hfree]
      refine .more h.files hsource (Dict.get?_eq_none_iff.mp hfree) fun dependency hmem => ?_
      rcases hready dependency hmem with hkey | ⟨hpackage, header, hknown⟩
      · exact .inl hkey
      · exact .inr ⟨(h.headers dependency _ hknown).symm, hpackage⟩
    · rw [Dict.get?_insert] at hfound
      split at hfound
      · next heq =>
        subst heq
        cases hfound
        exact hsucceeded
      · exact h.succeeded other found hfound
  reports := by
    intro other found hfree hget
    rw [Dict.get?_insert] at hget
    split at hget
    · cases hget
      exact hreports
    · rw [hfree] at hget
      cases hget

/-- What happens while a source is being checked happens before it is completed. -/
theorem ofCompiling {path : String}
    (h : { s with compiling := path :: s.compiling }.Advances host options s') :
    s.Advances host options { s' with compiling := s'.compiling.tail } ∧
      s'.files.get? path = s.files.get? path :=
  ⟨⟨h.globals, h.globalDiagnostics, congrArg List.tail h.compiling, h.lowering, h.files, h.headers,
      fun other hmem => h.checking other (List.mem_cons_of_mem _ hmem), h.resolving,
      fun hg => (h.genuine (hg.congr rfl rfl)).congr rfl rfl, h.reports⟩,
    h.checking path List.mem_cons_self⟩

end Session.Advances

instance : Std.Refl (Session.Advances host options) :=
  ⟨Session.Advances.refl⟩

instance : IsTrans Session (Session.Advances host options) :=
  ⟨fun _ _ _ => Session.Advances.trans⟩

/-- Work by which a session only advances, whatever its errors. -/
def Advancing (host : Host) (options : Options) (s : Session) (m : SessionM α)
    (Q : α → Session → Prop) : Prop :=
  Safe (Session.Advances host options) (fun _ => True) s m Q

/-! ## Headers -/

/-- Work on headers completes no file. -/
structure Session.Learns (host : Host) (options : Options) (s s' : Session) : Prop extends
    s.Advances host options s' where
  files_eq : s'.files = s.files

namespace Session.Learns

theorem withTable (s : Session) (table : Types.Table) : s.Learns host options { s with table } :=
  ⟨.withTable s table, rfl⟩

/-- What happens while a header is being lowered happens before it is known. -/
theorem ofLowering {path : String}
    (h : { s with lowering := path :: s.lowering }.Learns host options s') :
    s.Learns host options { s' with lowering := s'.lowering.tail } ∧
      s'.headers.get? path = s.headers.get? path :=
  ⟨⟨⟨h.globals, h.globalDiagnostics, h.compiling, congrArg List.tail h.lowering, h.files, h.headers,
      h.checking, fun other hmem => h.resolving other (List.mem_cons_of_mem _ hmem),
      fun hg => (h.genuine (hg.congr rfl rfl)).congr rfl rfl,
      Session.Advances.reports_of_files_eq h.files_eq⟩, h.files_eq⟩,
    h.resolving path List.mem_cons_self⟩

end Session.Learns

instance : Std.Refl (Session.Learns host options) :=
  ⟨fun s => ⟨.refl s, rfl⟩⟩

instance : IsTrans Session (Session.Learns host options) :=
  ⟨fun _ _ _ h h' => ⟨h.toAdvances.trans h'.toAdvances, h'.files_eq.trans h.files_eq⟩⟩

/-- Work on headers, whatever its errors. -/
def Learning (host : Host) (options : Options) (s : Session) (m : SessionM α)
    (Q : α → Session → Prop) : Prop :=
  Safe (Session.Learns host options) (fun _ => True) s m Q

/-- What is resolved is given from then on. -/
def Resolving (host : Host) (options : Options) (resolve : String → SessionM (Option Lowered)) :
    Prop :=
  ∀ target s, Learning host options s (resolve target) fun header s' => s'.Gives target header

variable {resolve : String → SessionM (Option Lowered)}

/-- An import that is a request is answered by the header that it leads to. -/
theorem Resolving.learning_lowerImport (h : Resolving host options resolve) (l : Lowering)
    (dependency : String) (items : List Signature.TypeExpr) :
    Learning host options s (lowerImport resolve options l dependency items) fun l' s' =>
      Gathers l l' ∧ (Path.isRequest dependency = true →
        s'.Reports (options.importTarget l.path dependency) l'.diagnostics) := by
  rw [lowerImport]
  split
  · next hpackage =>
    exact .pure ⟨gathers_report _ _ _, fun hrequest => by simp [hrequest] at hpackage⟩
  refine .bind (h _ s) fun header s₁ _ hgives => ?_
  cases header with
  | none => exact .pure ⟨gathers_report _ _ _, fun _ => ⟨none, hgives, by simp⟩⟩
  | some header =>
    have hgathers := gathers_importFrom { l with table := s₁.table } header items
    refine .modifyGet (.withTable _ _) ⟨⟨(List.prefix_append _ _).trans hgathers.diagnostics,
      hgathers.path, hgathers.declarations⟩, fun _ => ⟨some header, hgives, ?_⟩⟩
    rintro _ ⟨⟩
    exact List.Subset.trans (List.subset_append_right _ _) hgathers.diagnostics.subset

theorem Resolving.learning_lowerImports (h : Resolving host options resolve) (l : Lowering)
    (statements : List Signature.Statement) :
    Learning host options s (lowerImports resolve options l statements) fun l' s' =>
      Gathers l l' ∧
        ∀ dependency items, .imports dependency items ∈ statements →
          Path.isRequest dependency = true →
          s'.Reports (options.importTarget l.path dependency) l'.diagnostics := by
  induction statements generalizing s l with
  | nil => exact .pure ⟨.refl l, nofun⟩
  | cons statement rest ih =>
    cases statement with
    | imports dependency items =>
      refine .bind (h.learning_lowerImport l dependency items)
        fun l₁ s₁ _ ⟨hone, hfirst⟩ => ?_
      refine (ih l₁).mono fun l₂ s₂ hl ⟨hgathers, hrest⟩ => ⟨hone.trans hgathers, ?_⟩
      intro other others hmem hrequest
      rcases List.mem_cons.mp hmem with heq | hmem
      · cases heq
        exact (hl.reports_of_reports (hfirst hrequest)).mono hgathers.diagnostics.subset
      · exact hone.path ▸ hrest other others hmem hrequest
    | declaration name body generics =>
      exact (ih l).mono fun _ _ _ ⟨hgathers, hrest⟩ =>
        ⟨hgathers, fun other others hmem => hrest other others (by simpa using hmem)⟩
    | assignment name type =>
      exact (ih l).mono fun _ _ _ ⟨hgathers, hrest⟩ =>
        ⟨hgathers, fun other others hmem => hrest other others (by simpa using hmem)⟩
    | comment text =>
      exact (ih l).mono fun _ _ _ ⟨hgathers, hrest⟩ =>
        ⟨hgathers, fun other others hmem => hrest other others (by simpa using hmem)⟩

/-- A header is lowered after all that it imports. -/
theorem Resolving.learning_lowerHeader (h : Resolving host options resolve) {path : String}
    {header : Signature.Header} (hheader : host.header? path = some header) :
    Learning host options s (lowerHeader resolve options path header) fun lowered s' =>
      s'.Hears host options path lowered.diagnostics := by
  refine .get_bind (.bind (h.learning_lowerImports _ _) fun l s₁ _ ⟨hgathers, hreports⟩ => ?_)
  refine ⟨.withTable _ _, fun lowered hlowered => ?_, fun _ _ => trivial⟩
  rintro _ found ⟨_, dependency, items, hheader', hmem, hrequest, rfl⟩ hfound
  rw [hheader] at hheader'
  cases hheader'
  obtain ⟨hkeeps, hresult, -⟩ :=
    Header.lowers_lowerStatements (l := { l with table := s₁.table }) hgathers.declarations
  rw [(hresult lowered hlowered).2]
  exact List.Subset.trans ((hreports dependency items hmem hrequest).subset hfound)
    hkeeps.diagnostics.subset

/-- A header is lowered while it counts as being lowered, and becomes known afterwards. -/
theorem resolving_resolveWithin (host : Host) (options : Options) (fuel : Nat) :
    Resolving host options (resolveWithin host options fuel) := by
  induction fuel with
  | zero => exact fun _ _ => .throw trivial
  | succ fuel ih =>
    intro path s
    refine .get_bind ?_
    split
    · next header hknown =>
      refine .pure ?_
      cases header with
      | none => exact .inl hknown
      | some lowered => exact hknown
    next hfree =>
    split
    · next hbusy => exact .pure (.inr ⟨hfree, by simpa using hbusy⟩)
    next hidle =>
    have hidle : Path.normalize path ∉ s.lowering := by simpa using hidle
    have hknown {s : Session} (header : Option Lowered)
        (hfree : s.headers.get? (Path.normalize path) = none)
        (hidle : Path.normalize path ∉ s.lowering)
        (hgenuine : header.isSome = (host.header? (Path.normalize path)).isSome)
        (hhears : ∀ lowered, header = some lowered →
          s.Hears host options (Path.normalize path) lowered.diagnostics) :
        Learning host options s (do
          modify fun s => { s with headers := s.headers.insert (Path.normalize path) header }
          return header) fun header s' => s'.Gives path header := by
      have hnoted : Learning host options s
          (modify fun s => { s with headers := s.headers.insert (Path.normalize path) header })
          fun _ s' => s'.Gives path header := by
        refine .modify ⟨.insertHeader hfree hidle hgenuine hhears, rfl⟩ ?_
        cases header with
        | none => exact .inl (by simp)
        | some lowered => simp [Session.Gives]
      exact .bind hnoted fun _ _ _ hgives => .pure hgives
    split
    · next habsent => exact hknown none hfree hidle (by rw [habsent]; rfl) nofun
    next header hheader =>
    have hinner : Learning host options { s with lowering := Path.normalize path :: s.lowering }
        (lowerHeader (resolveWithin host options fuel) options (Path.normalize path) header)
        fun lowered s' => s'.Hears host options (Path.normalize path) lowered.diagnostics :=
      ih.learning_lowerHeader hheader
    obtain ⟨houter, hsame⟩ := hinner.keeps.ofLowering
    have hlowered : Learning host options s (whileLowering (Path.normalize path)
        (lowerHeader (resolveWithin host options fuel) options (Path.normalize path) header))
        fun lowered s' => s'.headers.get? (Path.normalize path) = none ∧ s'.lowering = s.lowering ∧
          s'.Hears host options (Path.normalize path) lowered.diagnostics :=
      ⟨houter, fun lowered hrun => ⟨hsame.trans hfree, houter.lowering, hinner.result lowered hrun⟩,
        fun _ _ => trivial⟩
    refine .bind hlowered fun lowered s₁ _ ⟨hfree₁, hlowering, hhears⟩ => ?_
    refine hknown (some lowered) hfree₁ (hlowering ▸ hidle) (by rw [hheader]; rfl) ?_
    rintro _ ⟨⟩
    exact hhears

theorem learning_resolveHeader (host : Host) (options : Options) (path : String) :
    Learning host options s (resolveHeader host options path) fun header s' =>
      s'.Gives path header :=
  resolving_resolveWithin host options _ path s

theorem advancing_resolveHeader (host : Host) (options : Options) (path : String) :
    Advancing host options s (resolveHeader host options path) fun header s' =>
      s'.Gives path header :=
  (learning_resolveHeader host options path).weaken (fun _ h => h.toAdvances) fun _ _ => trivial

/-! ## Files -/

/-- What the sources of a project rely on. -/
def completion (host : Host) (options : Options) : Contract where
  Leads := Session.Advances host options
  Ready := fun path s => s.Ready options path
  refl := .refl
  trans := .trans
  table := .withTable
  stable := by
    rintro path s s' hadvances (hkey | ⟨hpackage, header, hknown⟩)
    · obtain ⟨result, hget⟩ := Dict.mem_keys_iff.mp hkey
      exact .inl (Dict.mem_keys_iff.mpr ⟨result, hadvances.get?_file hget⟩)
    · exact .inr ⟨hpackage, header, hadvances.get?_header hknown⟩

/-- What a require resolves is ready. -/
def Resolves (options : Options) (required : Required) (s : Session) : Prop :=
  ∀ path exports, required = .resolved path exports → s.Ready options path

theorem advancing_requireDefinition (host : Host) (options : Options) (name : String) :
    Advancing host options s (requireDefinition host options name) (Resolves options) := by
  rw [requireDefinition]
  split
  · exact .pure (by rintro _ _ ⟨⟩)
  next file hfile =>
  refine .bind (advancing_resolveHeader host options _) fun header s₁ _ hgives => ?_
  cases header with
  | none => exact .pure (by rintro _ _ ⟨⟩)
  | some header =>
    have hknown : s₁.headers.get? (Path.normalize (Path.normalize file)) = _ := hgives
    rw [Path.normalize_normalize] at hknown
    refine .bind (P := fun _ s' => s'.Ready options (Path.normalize file))
      (.modifyGet (.withTable _ _) (.inr ⟨⟨name, file, hfile, rfl⟩, header, hknown⟩))
      fun exports _ _ hready => .pure ?_
    rintro path exports' ⟨⟩
    exact hready

/-- A check that is asked for a source which is not being checked. -/
def ChecksOnce (host : Host) (options : Options) (check : String → SessionM (Option FileResult)) :
    Prop :=
  ∀ path (s : Session), path ∉ s.compiling →
    Advancing host options s (check path)
      fun result s' => ∀ found, result = some found → s'.files.get? path = some found

theorem ChecksOnce.advancing_requireModule {check : String → SessionM (Option FileResult)}
    (h : ChecksOnce host options check) (file request : String) :
    Advancing host options s (requireModule host options check file request) (Resolves options) := by
  rw [requireModule]
  split
  · refine .get_bind ?_
    split
    · exact .pure (by rintro _ _ ⟨⟩)
    next hidle =>
    refine .bind (h _ s (by simpa using hidle)) fun result s₁ _ hfound => ?_
    cases result with
    | none => exact .pure (by rintro _ _ ⟨⟩)
    | some result =>
      refine .pure ?_
      rintro path exports ⟨⟩
      exact .inl (Dict.mem_keys_iff.mpr ⟨result, hfound result rfl⟩)
  · exact advancing_requireDefinition host options request

theorem ChecksOnce.binds {check : String → SessionM (Option FileResult)}
    (h : ChecksOnce host options check) :
    (completion host options).Binds (requireModule host options check) where
  leads := fun file request _ => (h.advancing_requireModule file request).keeps
  ready := fun file request _ path exports hresult =>
    (h.advancing_requireModule file request).result _ hresult path exports rfl

/-- What is bound before the first statement comes with the diagnostics of the header beside the
source. -/
theorem reports_bindSource {state after : State}
    (hrun : (bindSource host options).run state = (.ok (), after)) :
    after.session.Reports (options.headerPath state.source.path) after.diagnostics := by
  rw [bindSource] at hrun
  obtain ⟨_, s₁, hnames, hrun⟩ := ok_of_run_bind hrun
  rw [run_get_bind] at hrun
  obtain ⟨_, s₂, hfunctions, hrun⟩ := ok_of_run_bind hrun
  have hframed := Verify.frames_bindModuleNames (C := completion host options) state
  have hframed' := Verify.frames_registerFunctions (C := completion host options) s₁.source.program.body s₁
  rw [hnames] at hframed
  rw [hfunctions] at hframed'
  have hsource : s₂.source = state.source := hframed'.source.trans hframed.source
  rw [bindHeader, run_get_bind, hsource] at hrun
  obtain ⟨header, s₃, hresolve, hrun⟩ := ok_of_run_bind hrun
  have hresolved := (advancing_resolveHeader (s := s₂.session) host options
    (options.headerPath state.source.path)).result
  rw [Verify.run_onSession] at hresolve
  obtain ⟨hresult, rfl⟩ := Prod.mk.inj hresolve
  have hgives := hresolved header hresult
  cases header with
  | none =>
    cases hrun
    exact ⟨none, hgives, nofun⟩
  | some header =>
    obtain ⟨_, s₄, hrecord, hrun⟩ := ok_of_run_bind hrun
    have hbound := Verify.frames_bindInFile (C := completion host options) header.assignments s₄
    rw [hrun] at hbound
    cases hrecord
    refine ⟨some header, hbound.session.gives hgives, ?_⟩
    rintro _ ⟨⟩
    exact List.Subset.trans (List.subset_append_right _ _) hbound.diagnostics.subset

/-- A result for a source, when all that it depends on is ready and the header beside the source
has been heard. -/
structure FileResult.Complete (options : Options) (result : FileResult) (s : Session) : Prop where
  ready : ∀ path ∈ result.dependencies, s.Ready options path
  reports : s.Reports (options.headerPath result.fileName) result.diagnostics

/-- A source is verified completely. -/
theorem advancing_verifyFile {require : (file request : String) → SessionM Required}
    (h : (completion host options).Binds require) (source : Source) :
    Advancing host options s (verifyFile host options require source) (·.Complete options) := by
  have hframed : Framed (completion host options) (State.start s source)
      ((verifySource host options require).run (State.start s source)) :=
    Verify.frames_verifySource h (fun path _ => (advancing_resolveHeader host options path).keeps) _
  rcases hrun : (verifySource host options require).run (State.start s source) with ⟨e | u, after⟩ <;>
    rw [hrun] at hframed
  · exact .of_error (run_verifyFile hrun) hframed.session trivial
  refine .of_ok (run_verifyFile hrun) hframed.session ⟨fun path hmem => ?_, ?_⟩
  · exact (hframed.ready path hmem).resolve_left List.not_mem_nil
  · rw [verifySource, run_get_bind] at hrun
    obtain ⟨_, s₁, hbind, hrun⟩ := ok_of_run_bind hrun
    have hvisited := (Verify.frames_visitor h ((State.start s source).source.program.size + 1)).statements
      (State.start s source).source.program.body s₁
    rw [hrun] at hvisited
    have hreports := hvisited.session.reports_of_reports (reports_bindSource hbind)
    have hsource : after.source = source := hframed.source
    change after.session.Reports (options.headerPath after.source.path) after.diagnostics
    rw [hsource]
    exact hreports.mono hvisited.diagnostics.subset

/-- A source that is being checked is not completed in the meantime. -/
theorem advancing_whileCompiling {path : String} {m : SessionM FileResult}
    (h : Advancing host options { s with compiling := path :: s.compiling } m (·.Complete options)) :
    Advancing host options s (whileCompiling path m) (·.Complete options) ∧
      ((whileCompiling path m).run s).2.files.get? path = s.files.get? path := by
  obtain ⟨houter, hsame⟩ := h.keeps.ofCompiling
  exact ⟨⟨houter, fun result hresult => ⟨(h.result result hresult).ready,
    (h.result result hresult).reports⟩, fun _ _ => trivial⟩, hsame⟩

/-- A source is completed once its check has succeeded. -/
theorem advancing_checkOnce (levels : Nat) {path : String} {check : Source → SessionM FileResult}
    (hlevels : checkWithin host options levels path = checkOnce host path check)
    (hidle : path ∉ s.compiling)
    (hcheck : ∀ source, Advancing host options s (check source) (·.Complete options) ∧
      ((check source).run s).2.files.get? path = s.files.get? path) :
    Advancing host options s (checkOnce host path check)
      fun result s' => ∀ found, result = some found → s'.files.get? path = some found := by
  cases hknown : s.files.get? path with
  | some known =>
    have hrun : (checkOnce host path check).run s = (.ok (some known), s) := by
      rw [checkOnce, run_get_bind, hknown]
      rfl
    refine .of_ok hrun (.refl s) ?_
    rintro found ⟨⟩
    exact hknown
  | none =>
    cases hsource : host.source? path with
    | none =>
      have hrun : (checkOnce host path check).run s = (.ok none, s) := by
        rw [checkOnce, run_get_bind, hknown, hsource]
        rfl
      exact .of_ok hrun (.refl s) nofun
    | some source =>
      have hopen : (checkOnce host path check).run s = (do
          let result ← check source
          modify fun s => { s with files := s.files.insert path result }
          return some result : SessionM (Option FileResult)).run s := by
        rw [checkOnce, run_get_bind, hknown, hsource]
      obtain ⟨hadvances, hsame⟩ := hcheck source
      have hkeeps := hadvances.keeps
      have hcomplete := hadvances.result
      rcases hrun : (check source).run s with ⟨e | result, s₁⟩ <;> rw [hrun] at hsame hkeeps hcomplete
      · exact .of_error (hopen.trans (run_bind_error hrun _)) hkeeps trivial
      · have hend : (checkOnce host path check).run s =
            (.ok (some result), { s₁ with files := s₁.files.insert path result }) :=
          hopen.trans (run_bind_ok hrun _)
        have hsucceeded : Succeeded host options path result :=
          ⟨levels, s, _, hknown, by rw [hlevels, hend]⟩
        refine .of_ok hend (hkeeps.trans (.insertFile (hsame.trans hknown) (hkeeps.compiling ▸ hidle)
          (by rw [hsource]; rfl) (hcomplete result rfl).ready hsucceeded
          (hcomplete result rfl).reports)) ?_
        rintro found ⟨⟩
        simp

/-- A source whose check gives no result is not completed. -/
theorem get?_of_checkOnce {path : String} {check : Source → SessionM FileResult}
    {result : Except Error (Option FileResult)}
    (hcheck : ∀ source, ((check source).run s).2.files.get? path = s.files.get? path)
    (h : (checkOnce host path check).run s = (result, s')) (hnone : ∀ file, result ≠ .ok (some file)) :
    s'.files.get? path = none := by
  rw [checkOnce, run_get_bind] at h
  split at h
  · cases h
    exact absurd rfl (hnone _)
  · next hfree _ =>
    cases h
    exact hfree
  next source hfree _ =>
  have hsame := hcheck source
  rcases hrun : (check source).run s with ⟨e | file, s₁⟩ <;> rw [hrun] at hsame
  · rw [run_bind_error hrun] at h
    cases h
    exact hsame.trans hfree
  · rw [run_bind_ok hrun] at h
    cases h
    exact absurd rfl (hnone _)

/-- What the check of a source does before it is completed. -/
theorem advancing_check {levels : Nat}
    (h : ChecksOnce host options (checkWithin host options levels)) (path : String) (source : Source) :
    Advancing host options s (whileCompiling path (verifyFile host options
        (requireModule host options fun path => checkWithin host options levels path) source))
        (·.Complete options) ∧
      ((whileCompiling path (verifyFile host options
        (requireModule host options fun path => checkWithin host options levels path) source)).run
          s).2.files.get? path = s.files.get? path :=
  advancing_whileCompiling (advancing_verifyFile h.binds source)

theorem checksOnce_checkWithin (host : Host) (options : Options) (levels : Nat) :
    ChecksOnce host options (checkWithin host options levels) := by
  induction levels with
  | zero =>
    intro path s hidle
    exact advancing_checkOnce 0 rfl hidle fun _ => ⟨.throw trivial, rfl⟩
  | succ levels ih =>
    intro path s hidle
    exact advancing_checkOnce (levels + 1) rfl hidle (advancing_check ih path)

theorem get?_of_checkWithin {levels : Nat} {path : String} {result : Except Error (Option FileResult)}
    (h : (checkWithin host options levels path).run s = (result, s'))
    (hnone : ∀ file, result ≠ .ok (some file)) : s'.files.get? path = none := by
  cases levels with
  | zero => exact get?_of_checkOnce (fun _ => rfl) h hnone
  | succ levels =>
    exact get?_of_checkOnce
      (fun source => (advancing_check (checksOnce_checkWithin host options levels) path source).2)
      h hnone

/-! ## Entries -/

/-- Where nothing is under way, a compile completes its entry. -/
theorem advancing_compile (host : Host) (options : Options) (path : String)
    (hidle : s.compiling = []) :
    Advancing host options s (compile host options path) fun result s' =>
      ∃ file, s'.files.get? (Path.normalize path) = some file ∧
        result = { fileName := Path.normalize path
                   diagnostics := s'.globalDiagnostics ++
                     collectDiagnostics s'.files (Path.normalize path) file
                   exports := file.exports } := by
  have hnot : Path.normalize path ∉ s.compiling := hidle ▸ List.not_mem_nil
  have hcheck : Advancing host options s (checkFile host options (Path.normalize path))
      fun result s' => ∀ found, result = some found →
        s'.files.get? (Path.normalize path) = some found := by
    rw [checkFile]
    exact checksOnce_checkWithin host options maxModuleDepth _ s hnot
  rw [compile]
  refine .bind hcheck fun result s₁ _ hget => ?_
  cases result with
  | none => exact .throw trivial
  | some file => exact .get_bind (.pure ⟨file, hget file rfl, rfl⟩)

/-- An entry whose compile fails is not completed. -/
theorem get?_of_compile_error {path : String} {e : Error}
    (h : ((compile host options path).run s).1 = .error e) :
    ((compile host options path).run s).2.files.get? (Path.normalize path) = none := by
  rcases hrun : (checkFile host options (Path.normalize path)).run s with ⟨e' | file, s₁⟩
  · rw [compile, run_bind_error hrun]
    rw [checkFile] at hrun
    exact get?_of_checkWithin hrun (by rintro _ ⟨⟩)
  · rw [compile, run_bind_ok hrun] at h ⊢
    cases file with
    | none =>
      rw [checkFile] at hrun
      exact get?_of_checkWithin hrun (by rintro _ ⟨⟩)
    | some file => cases h

/-- The session after compiles of the given entries, in order. -/
def Session.after (host : Host) (options : Options) (paths : List String) (s : Session) : Session :=
  paths.foldl (fun s path => ((compile host options path).run s).2) s

theorem Session.advances_after (paths : List String) (hidle : s.compiling = []) :
    s.Advances host options (s.after host options paths) := by
  induction paths generalizing s with
  | nil => exact .refl s
  | cons path rest ih =>
    have hadvances := (advancing_compile host options path hidle).keeps
    exact hadvances.trans (ih (hadvances.compiling.trans hidle))

/-! ## Starts -/

/-- What was reported about the globals file. -/
def Session.ofGlobalsFile (s : Session) (options : Options) : List Diagnostic :=
  match options.globalsFile with
  | none => []
  | some file =>
    match s.headers.get? (Path.normalize file) with
    | some (some header) => header.diagnostics
    | _ => []

/-- Nothing is under way, and what is known is genuine. -/
structure Session.Idle (host : Host) (options : Options) (s : Session) : Prop where
  compiling : s.compiling = []
  lowering : s.lowering = []
  genuine : s.Genuine host options

/-- A session before the first compile. The globals file is known with what it imports, and no file. -/
structure Session.Started (host : Host) (options : Options) (s : Session) : Prop extends
    s.Idle host options where
  reported : s.globalDiagnostics = s.ofGlobalsFile options
  files : s.files = {}
  globals : ∀ file, options.globalsFile = some file →
    ∃ lowered, s.headers.get? (Path.normalize file) = some (some lowered)

theorem Session.Advances.idle (h : s.Advances host options s') (hidle : s.Idle host options) :
    s'.Idle host options :=
  ⟨h.compiling.trans hidle.compiling, h.lowering.trans hidle.lowering, h.genuine hidle.genuine⟩

theorem Session.genuine_of_empty (hfiles : s.files = {}) (hheaders : s.headers = {}) :
    s.Genuine host options := by
  refine ⟨fun path header hget => ?_, ?_, ?_, fun path result hget => ?_⟩
  · rw [hheaders] at hget
    cases hget
  · rw [hheaders]
    exact handedOn_nil
  · rw [hfiles]
    exact .none
  · rw [hfiles] at hget
    cases hget

theorem Session.started_loadGlobals {globals : Globals} {table : Types.Table}
    (h : (loadGlobals host options).run { table, globals } = (.ok (), s)) :
    s.Started host options := by
  have hempty : ({ table, globals } : Session).Genuine host options := genuine_of_empty rfl rfl
  rw [loadGlobals] at h
  split at h
  · next hnone =>
    cases h
    refine ⟨⟨rfl, rfl, hempty⟩, by rw [Session.ofGlobalsFile, hnone], rfl, fun file hfile => ?_⟩
    rw [hnone] at hfile
    cases hfile
  next file hfile =>
  have hresolve := learning_resolveHeader (s := { table, globals }) host options (Path.normalize file)
  have hkeeps := hresolve.keeps
  have hgives := hresolve.result
  rcases hrun : (resolveHeader host options (Path.normalize file)).run { table, globals } with
    ⟨e | header, s₁⟩ <;> rw [hrun] at hkeeps hgives
  · rw [run_bind_error hrun] at h
    cases h
  rw [run_bind_ok hrun] at h
  cases header with
  | none => cases h
  | some header =>
    cases h
    have hknown : s₁.headers.get? (Path.normalize (Path.normalize file)) = _ := hgives _ rfl
    rw [Path.normalize_normalize] at hknown
    have hgenuine := hkeeps.genuine hempty
    have hquiet : s₁.globalDiagnostics = [] := hkeeps.globalDiagnostics
    refine ⟨⟨hkeeps.compiling, hkeeps.lowering, hgenuine.congr rfl rfl⟩, ?_, hkeeps.files_eq, ?_⟩
    · simp only [Session.ofGlobalsFile, hfile, hknown, hquiet, List.nil_append]
    · intro other hother
      rw [hfile] at hother
      cases hother
      exact ⟨header, hknown⟩

theorem Session.started_start (h : Session.start host options = .ok s) :
    s.Started host options := by
  rw [Session.start, Session.startWith] at h
  split at h
  · next session hrun =>
    cases h
    exact started_loadGlobals hrun
  · cases h

end HeaderCheck.Project
