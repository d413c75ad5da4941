import HeaderCheck.Proofs.Project.Advance
import HeaderCheck.Proofs.Project.Refusals
import HeaderCheck.Proofs.Verify.Region.Statements
import HeaderCheck.Signature.Build

/-!
# HeaderCheck.Proofs.Project.Names

Names that scopes refuse: a function that is not there any more when it is to get a type, a name
that is to get another type and is bound in no scope around, and a name that is bound already. Each
of them ends a compile, and each has its reason in the project.

* `Terms.Explains`: the reasons. A function is missing only if an argument of a call of it reaches
  its name; a name is missing only if it is a global one; a name is bound twice only by a variable
  whose initial value reaches a function of that name, by parameters of one function, or by a header.
* `explained_checkWithin`: every error of a check is explained, by induction on the levels of
  requires.
-/

namespace HeaderCheck.Project

open HeaderCheck.Script
open HeaderCheck.Verify (Ground Leads Region Required State confined_verifySource moduleNames
  namesRefused verifySource)

variable {α : Type} {host : Host} {options : Options} {s : Session}

/-! ## Reasons -/

/-- The programs of a project. -/
def Host.programs (host : Host) : List Program :=
  host.sources.entries.map fun entry => entry.2.program

/-- The headers of a project, whether they are imported or not. -/
def Host.allHeaders (host : Host) : List Signature.Header :=
  host.headers.entries.map Prod.snd

theorem Host.mem_programs {path : String} {source : Source} (h : host.source? path = some source) :
    source.program ∈ host.programs :=
  List.mem_map.mpr ⟨_, Dict.mem_entries_of_get? h, rfl⟩

theorem Host.mem_allHeaders {path : String} {header : Signature.Header}
    (h : host.header? path = some header) : header ∈ host.allHeaders :=
  List.mem_map.mpr ⟨_, Dict.mem_entries_of_get? h, rfl⟩

/-- What is relied on while the sources of a project are checked: global names, and that known
headers are those of the project. -/
structure Terms where
  host : Host
  globals : Globals
  faithful : Prop

namespace Terms

variable {T : Terms}

/-- The session is one to which the terms apply. -/
def Holds (T : Terms) (s : Session) : Prop :=
  s.globals = T.globals ∧ (T.faithful → s.Faithful T.host)

def Explains (T : Terms) : Error → Prop
  | .scope (.missingFunction name) => ∃ program ∈ T.host.programs, program.Nests name
  | .scope (.missingIdentifier name) => T.globals.identifiers.contains name
  | .scope (.duplicateIdentifier name) =>
    (∃ program ∈ T.host.programs, program.SelfStarts name ∨ program.Collides) ∨
    (T.faithful → ∃ header ∈ T.host.allHeaders,
      ¬(moduleNames ++ Header.assignedNames header).Nodup)
  | _ => True

theorem explains_of_not_refused {e : Error} (h : namesRefused e = false) : T.Explains e := by
  unfold Explains
  split
  · cases h
  · cases h
  · cases h
  · trivial

theorem Holds.congr {s s' : Session} (h : T.Holds s) (hglobals : s'.globals = s.globals)
    (hheaders : s'.headers = s.headers) : T.Holds s' :=
  ⟨hglobals.trans h.1, fun hf path lowered hget => h.2 hf path lowered (hheaders ▸ hget)⟩

/-- The ground on which a source of the project is verified. -/
def ground (T : Terms) {path : String} {source : Source} (h : T.host.source? path = some source) :
    Ground where
  program := source.program
  session := T.Holds
  accepts := T.Explains
  table := fun _ _ hs => hs.congr rfl rfl
  nested := fun _ hnests => ⟨source.program, Host.mem_programs h, hnests⟩
  global := by
    intro s name hs hname
    rw [hs.1] at hname
    exact hname
  selfStarted := fun _ hstarts => .inl ⟨source.program, Host.mem_programs h, .inl hstarts⟩
  collided := fun hcollides _ => .inl ⟨source.program, Host.mem_programs h, .inr hcollides⟩
  other := fun _ he => explains_of_not_refused he

end Terms

variable {T : Terms}

/-- Work on a session whose errors are explained. -/
def Explained (T : Terms) (s : Session) (m : SessionM α) : Prop :=
  T.Holds s → Safe (Leads T.Holds) T.Explains s m fun _ _ => True

theorem Explained.bind {β : Type} {m : SessionM α} {f : α → SessionM β} (h : Explained T s m)
    (hf : ∀ a s', Explained T s' (f a)) : Explained T s (m >>= f) :=
  fun hs => (h hs).bind fun a s' hl _ => hf a s' (hl.2 hs)

theorem explained_pure (a : α) : Explained T s (pure a) :=
  fun _ => .pure trivial

/-! ## Headers -/

theorem Loads.explained {m : SessionM α} {Q : α → Session → Prop} (h : Loads T.host s m Q) :
    T.Holds s → Safe (Leads T.Holds) T.Explains s m fun a _ =>
      ∃ s', (T.faithful → s'.Faithful T.host) ∧ Q a s' := by
  intro hs
  obtain ⟨⟨hkeeps, hfaithful⟩, hQ, hfailure⟩ := h
  have hholds : T.Holds (m.run s).2 := ⟨hkeeps.globals.trans hs.1, fun hf => hfaithful (hs.2 hf)⟩
  refine ⟨⟨hkeeps.globals, fun _ => hholds⟩, fun a ha => ⟨_, hholds.2, hQ a ha⟩, fun e he => ?_⟩
  have husual := hfailure e he
  cases e <;> trivial

/-- The header beside a source has different names, or it explains that a name is bound twice. -/
theorem explained_resolveHeader (options : Options) (path : String) :
    T.Holds s → Safe (Leads T.Holds) T.Explains s (resolveHeader T.host options path) fun header _ =>
      ∀ found, header = some found →
        (∀ name, T.Explains (.scope (.duplicateIdentifier name))) ∨
          (moduleNames ++ found.assignments.map Prod.fst).Nodup := by
  intro hs
  refine ((loads_resolveHeader T.host options path).explained hs).mono ?_
  rintro header _ _ ⟨s', hfaithful, hlowers⟩ found hfound
  by_cases hnodup : (moduleNames ++ found.assignments.map Prod.fst).Nodup
  · exact .inr hnodup
  · refine .inl fun name => .inr fun hf => ?_
    obtain ⟨lowered, hheader, hnames⟩ := hlowers (hfaithful hf) found hfound
    exact ⟨lowered, Host.mem_allHeaders hheader, hnames ▸ hnodup⟩

theorem explained_requireDefinition (options : Options) (name : String) :
    Explained T s (requireDefinition T.host options name) := by
  rw [requireDefinition]
  split
  · exact explained_pure _
  refine Explained.bind (fun hs => (explained_resolveHeader options _ hs).ignore) fun header s₁ => ?_
  cases header with
  | none => exact explained_pure _
  | some header =>
    exact Explained.bind (fun _ => .modifyGet ⟨rfl, fun h => h.congr rfl rfl⟩ trivial)
      fun _ _ => explained_pure _

/-! ## Sources -/

theorem explained_requireModule {check : String → SessionM (Option FileResult)}
    (h : ∀ path s, Explained T s (check path)) (options : Options) (file request : String) :
    Explained T s (requireModule T.host options check file request) := by
  rw [requireModule]
  split
  · refine fun hs => Safe.get_bind ?_
    split
    · exact .pure trivial
    refine Explained.bind (h _ s) (fun result s₁ => ?_) hs
    cases result with
    | none => exact explained_pure _
    | some result => exact explained_pure _
  · exact explained_requireDefinition options request

theorem explained_verifyFile {path : String} {source : Source}
    (hsource : T.host.source? path = some source) {options : Options}
    {require : (file request : String) → SessionM Required}
    (hr : ∀ file request s, Explained T s (require file request)) :
    Explained T s (verifyFile T.host options require source) := by
  intro hs
  obtain ⟨hl, -, hE⟩ := confined_verifySource (G := T.ground hsource) rfl
    (fun path _ hs => explained_resolveHeader options path hs) hr (State.fits_start hs)
  rcases hrun : (verifySource T.host options require).run (State.start s source) with ⟨e | u, s'⟩ <;>
    rw [hrun] at hl hE
  · exact .of_error (run_verifyFile hrun) ⟨hl.globals, hl.session⟩ (hE e rfl)
  · exact .of_ok (run_verifyFile hrun) ⟨hl.globals, hl.session⟩ trivial

theorem Explained.whileCompiling {path : String} {m : SessionM α}
    (h : Explained T { s with compiling := path :: s.compiling } m) :
    Explained T s (whileCompiling path m) := by
  intro hs
  obtain ⟨⟨hglobals, hholds⟩, -, hE⟩ := h (hs.congr rfl rfl)
  exact ⟨⟨hglobals, fun h => (hholds (h.congr rfl rfl)).congr rfl rfl⟩, fun _ _ => trivial, hE⟩

/-- A check with any number of levels left. -/
theorem explained_checkWithin (T : Terms) (options : Options) (levels : Nat) (path : String)
    (s : Session) : Explained T s (checkWithin T.host options levels path) := by
  have honce {s : Session} {path : String} {check : Source → SessionM FileResult}
      (h : ∀ source, T.host.source? path = some source → Explained T s (check source)) :
      Explained T s (checkOnce T.host path check) := by
    refine fun hs => Safe.get_bind ?_
    split
    · exact .pure trivial
    · exact .pure trivial
    next source _ hsource =>
    refine Explained.bind (h source hsource) (fun result s₁ => ?_) hs
    have hnoted : Explained T s₁ (modify fun s => { s with files := s.files.insert path result }) :=
      fun _ => .modify ⟨rfl, fun h => h.congr rfl rfl⟩ trivial
    exact hnoted.bind fun _ _ => explained_pure _
  induction levels generalizing path s with
  | zero => exact honce fun _ _ _ => .throw trivial
  | succ levels ih =>
    refine honce fun source hsource => .whileCompiling ?_
    exact explained_verifyFile hsource fun file request _ =>
      explained_requireModule ih options file request

theorem explained_compile (T : Terms) (options : Options) (path : String) (s : Session) :
    Explained T s (compile T.host options path) := by
  rw [compile]
  refine Explained.bind (explained_checkWithin T options maxModuleDepth _ s) fun result s₁ => ?_
  cases result with
  | none => exact fun _ => .throw trivial
  | some result => exact fun _ => Safe.get_bind (.pure trivial)

/-! ## Functions that are missing -/

/-- An error of a session of its own is one of the compile in it, or no error of a scope. -/
theorem compileEntry_cases {path : String} {e : Error} (h : compileEntry host options path = .error e) :
    (∃ start, Session.start host options = .ok start ∧
      ((compile host options path).run start).1 = .error e) ∨ e.Usual := by
  rw [compileEntry] at h
  rcases start_cases host options with ⟨start, hstart, _⟩ | ⟨e', hstart, husual⟩ <;> rw [hstart] at h
  · exact .inl ⟨start, hstart, h⟩
  · cases h
    exact .inr husual

/-- Whatever the arguments of a call of an untyped function are, the function is there to be given a
type after them, unless one of them reaches its name. -/
theorem compile_finds_function (host : Host) (options : Options) (path name : String)
    (h : ∀ program ∈ host.programs, ¬program.Nests name) :
    ¬FailsWith host options path (.scope (.missingFunction name)) := by
  have hcompile (session : Session) :
      ((compile host options path).run session).1 ≠ .error (.scope (.missingFunction name)) := by
    intro herror
    let T : Terms := { host, globals := session.globals, faithful := False }
    obtain ⟨program, hmem, hnests⟩ :=
      (explained_compile T options path session ⟨rfl, nofun⟩).failure _ herror
    exact h program hmem hnests
  rintro (hentry | ⟨session, herror⟩)
  · rcases compileEntry_cases hentry with ⟨start, _, herror⟩ | husual
    · exact hcompile start herror
    · exact husual
  · exact hcompile session herror

/-- The argument of the call of `g` calls `f`, as `g` does itself. -/
def relayedCall : Program :=
  Build.program
    [Build.functionDecl "f" ["x"] [Build.returns (some (Build.ident "x"))],
      Build.functionDecl "g" ["y"]
        [Build.returns (some (Build.call (Build.ident "f") [Build.ident "y"]))],
      Build.expression
        (Build.call (Build.ident "g") [Build.call (Build.ident "f") [Build.number 1]])]

theorem compile_finds_function_relayedCall :
    ¬FailsWith (.single relayedCall) {} "/app/main.js" (.scope (.missingFunction "g")) := by
  refine compile_finds_function _ _ _ _ fun program hmem => ?_
  cases List.mem_singleton.mp hmem
  have hclosed : relayedCall.Closed (· ∈ ["f", "x"]) :=
    Program.closed_of_functions (by decide +kernel)
  have harguments : ∀ argument ∈ relayedCall.argumentsFor "g",
      ∀ first ∈ (Node.expr argument).mentions, first ∈ ["f", "x"] := by decide +kernel
  rintro ⟨argument, hargument, hreach⟩
  exact absurd (hclosed.of_reaches (harguments argument hargument) hreach) (by decide)

-- the condition is not empty here: a call of `g` has an argument
example : (relayedCall.argumentsFor "g").length = 1 := by decide +kernel

/-- A function is looked up before its argument, which calls it too, and is given its type after it. -/
theorem nestedCall_misses_function :
    FailsWith (.single nestedCall) {} "/app/main.js" (.scope (.missingFunction "f")) := by
  have herror : errorOf (compileEntry (.single nestedCall) {} "/app/main.js") =
      some (.scope (.missingFunction "f")) := by
    rw [compileEntry, Session.start_eq]
    decide +kernel
  exact Or.inl (eq_of_errorOf herror)

/-! ## Names that are missing -/

/-- A name that is given another type, after an assignment, a new field or a call of a method, is
bound in a scope around, unless it is a global one. -/
theorem compile_updates_own_names (host : Host) (options : Options) (path name : String) :
    (∀ session : Session, session.globals.identifiers.contains name = false →
      ((compile host options path).run session).1 ≠ .error (.scope (.missingIdentifier name))) ∧
    ((∀ start, Session.start host options = .ok start →
        start.globals.identifiers.contains name = false) →
      compileEntry host options path ≠ .error (.scope (.missingIdentifier name))) := by
  have hcompile (session : Session) (hlocal : session.globals.identifiers.contains name = false) :
      ((compile host options path).run session).1 ≠ .error (.scope (.missingIdentifier name)) := by
    intro herror
    let T : Terms := { host, globals := session.globals, faithful := False }
    have hglobal : session.globals.identifiers.contains name :=
      (explained_compile T options path session ⟨rfl, nofun⟩).failure _ herror
    rw [hlocal] at hglobal
    cases hglobal
  refine ⟨hcompile, fun hlocal hentry => ?_⟩
  rcases compileEntry_cases hentry with ⟨start, hstart, herror⟩ | husual
  · exact hcompile start (hlocal start hstart) herror
  · exact husual

/-- A list whose elements are not known yet. -/
def openList : Signature.TypeExpr :=
  Signature.Build.generic (Signature.Build.literal "Array") [Signature.Build.free "T"]

/-- A source with a list `xs` that its own header declares, and a call that shows the elements. -/
def pushing : Program :=
  Build.program
    [Build.expression (Build.call (Build.member (Build.ident "xs") "push") [Build.number 1])]

/-- The list belongs to the header of the source, or it is a global one. -/
def Host.pushing (header : String) : Host :=
  (Host.single Project.pushing).addHeader header
    (Signature.Build.header [Signature.Build.assignment "xs" openList])

/-- The options under which a file binds global names. -/
def withGlobals (file : String) : Options :=
  { globalsFile := some file }

/-- The session of the list in the header of the source. -/
def Session.ofPushing : Session :=
  match Session.start (Host.pushing "/app/main.hjs") {} with
  | .ok session => session
  | .error _ => {}

theorem compile_updates_own_names_pushing :
    Session.ofPushing.globals.identifiers.contains "xs" = false ∧
      ((compile (.pushing "/app/main.hjs") {} "/app/main.js").run .ofPushing).1 ≠
        .error (.scope (.missingIdentifier "xs")) := by
  have hlocal : Session.ofPushing.globals.identifiers.contains "xs" = false := by
    rw [Session.ofPushing, Session.start_eq]
    decide +kernel
  exact ⟨hlocal, (compile_updates_own_names _ _ _ _).1 _ hlocal⟩

/-- The elements of a global list cannot be recorded: it is in sight, but in no scope around. -/
theorem pushing_misses_name :
    FailsWith (.pushing "/g.hjs") (withGlobals "/g.hjs") "/app/main.js"
      (.scope (.missingIdentifier "xs")) := by
  have herror : errorOf (compileEntry (.pushing "/g.hjs") (withGlobals "/g.hjs") "/app/main.js") =
      some (.scope (.missingIdentifier "xs")) := by
    rw [compileEntry, Session.start_eq]
    decide +kernel
  exact Or.inl (eq_of_errorOf herror)

/-! ## Names that are bound twice -/

theorem Session.faithful_loadGlobals {globals : Globals} {table : Types.Table}
    (h : (loadGlobals host options).run { table, globals } = (.ok (), s)) : s.Faithful host := by
  have hempty : ({ table, globals } : Session).Faithful host := fun _ _ hget => by cases hget
  rw [loadGlobals] at h
  split at h
  · cases h
    exact hempty
  next file _ =>
  have hloads := (loads_resolveHeader (s := { table, globals }) host options (Path.normalize file)).keeps
  rcases hrun : (resolveHeader host options (Path.normalize file)).run { table, globals } with
    ⟨e | header, s₁⟩ <;> rw [hrun] at hloads
  · rw [run_bind_error hrun] at h
    cases h
  · rw [run_bind_ok hrun] at h
    cases header with
    | none => cases h
    | some header =>
      cases h
      exact hloads.faithful hempty

theorem Session.faithful_start {start : Session} (h : Session.start host options = .ok start) :
    start.Faithful host := by
  rw [Session.start, Session.startWith] at h
  split at h
  · next hrun =>
    cases h
    exact faithful_loadGlobals hrun
  · cases h

/-- What the terms ask of a session they ask after any compiles. -/
theorem Terms.Holds.after {T : Terms} (h : T.Holds s) (options : Options) (paths : List String) :
    T.Holds (s.after T.host options paths) := by
  induction paths generalizing s with
  | nil => exact h
  | cons path rest ih => exact ih ((explained_compile T options path s h).keeps.2 h)

/-- Where headers and parameter lists have no name twice, and no variable starts with a value that
reaches a function of its name, no name is bound twice: not by declarations, functions and calls in
whatever order, and not in a session that has seen any other compiles. -/
theorem compile_binds_once {host : Host} {name : String} (options : Options) (path : String)
    (hheaders : ∀ header ∈ host.allHeaders, (moduleNames ++ Header.assignedNames header).Nodup)
    (hparams : ∀ program ∈ host.programs, ¬program.Collides)
    (hstarts : ∀ program ∈ host.programs, ¬program.SelfStarts name) :
    compileEntry host options path ≠ .error (.scope (.duplicateIdentifier name)) ∧
      ∀ start, Session.start host options = .ok start → ∀ earlier,
        ((compile host options path).run (start.after host options earlier)).1 ≠
          .error (.scope (.duplicateIdentifier name)) := by
  have hcompile {start : Session} (hstart : Session.start host options = .ok start)
      (earlier : List String) :
      ((compile host options path).run (start.after host options earlier)).1 ≠
        .error (.scope (.duplicateIdentifier name)) := by
    intro herror
    let T : Terms := { host, globals := start.globals, faithful := True }
    have hholds : T.Holds start := ⟨rfl, fun _ => Session.faithful_start hstart⟩
    rcases (explained_compile T options path _ (hholds.after options earlier)).failure _ herror with
      ⟨program, hmem, hself | hcollides⟩ | hheader
    · exact hstarts program hmem hself
    · exact hparams program hmem hcollides
    · obtain ⟨header, hmem, hnodup⟩ := hheader trivial
      exact hnodup (hheaders header hmem)
  refine ⟨fun hentry => ?_, fun start hstart => hcompile hstart⟩
  rcases compileEntry_cases hentry with ⟨start, hstart, herror⟩ | husual
  · exact hcompile hstart [] herror
  · exact husual

/-- The variable `f` starts with the function `f`, which is called first. -/
def selfStarting : Program :=
  Build.program
    [Build.functionDecl "f" ["x"] [Build.returns (some (Build.ident "x"))],
      Build.declare "f" (some
        (Build.conditional (Build.call (Build.ident "f") [Build.number 1]) (Build.ident "f")
          (Build.ident "f")))]

theorem selfStarting_binds_twice :
    (Host.single selfStarting).allHeaders = [] ∧
      (∀ program ∈ (Host.single selfStarting).programs, ¬program.Collides) ∧
      FailsWith (.single selfStarting) {} "/app/main.js" (.scope (.duplicateIdentifier "f")) := by
  have herror : errorOf (compileEntry (.single selfStarting) {} "/app/main.js") =
      some (.scope (.duplicateIdentifier "f")) := by
    rw [compileEntry, Session.start_eq]
    decide +kernel
  refine ⟨rfl, fun program hmem => ?_, Or.inl (eq_of_errorOf herror)⟩
  cases List.mem_singleton.mp hmem
  rw [Program.Collides]
  decide +kernel

/-- The variable `f` has the name of the function, and `y` starts with a call of it. -/
def lateVariable : Program :=
  Build.program
    [Build.functionDecl "f" ["x"] [Build.returns (some (Build.ident "x"))],
      Build.declare "y" (some (Build.call (Build.ident "f") [Build.number 1])),
      Build.declare "f" (some (Build.ident "y"))]

theorem compile_binds_once_lateVariable :
    compileEntry (.single lateVariable) {} "/app/main.js" ≠
      .error (.scope (.duplicateIdentifier "f")) := by
  have hheaders : (Host.single lateVariable).allHeaders = [] := rfl
  refine (compile_binds_once {} "/app/main.js" (by rw [hheaders]; exact fun _ => nofun)
    (fun program hmem => ?_) fun program hmem => ?_).1 <;> cases List.mem_singleton.mp hmem
  · rw [Program.Collides]
    decide +kernel
  · have hclosed : lateVariable.Closed (· ∈ ["y"]) := Program.closed_of_functions (by decide +kernel)
    have hinitials : ∀ init ∈ lateVariable.initialsFor "f",
        ∀ first ∈ (Node.expr init).mentions, first ∈ ["y"] := by decide +kernel
    rintro ⟨⟨init, hinit, hreach⟩, _⟩
    exact absurd (hclosed.of_reaches (hinitials init hinit) hreach) (by decide)

end HeaderCheck.Project
