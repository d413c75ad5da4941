import HeaderCheck.Proofs.Project.Names
import HeaderCheck.Proofs.Verify.Assigned

/-!
# HeaderCheck.Proofs.Project.Assigned

What is read after assignments while a source of a project is verified.

* `assignVariable`: an assignment to a variable, with whatever the value requires.
* `fits_inspect`: the states in which sources end are such that more of them could be verified.
* `assigned_value_fits_read`: what is read next accepts what has been assigned.
-/

namespace HeaderCheck.Project

open HeaderCheck.Script
open HeaderCheck.Types (TypeId)
open HeaderCheck.Verify (Check Ground Region State Visitor confined_verifySource confines_any
  reads_assigned safe_any spares_of_unreached verifyAssignment verifySource visitor)

variable {host : Host} {options : Options}

/-- What a source requires never changes the global names. -/
theorem globals_requireModule (host : Host) (options : Options) (levels : Nat)
    (file request : String) (session : Session) :
    ((requireModule host options (checkWithin host options levels) file request).run
      session).2.globals = session.globals := by
  let T : Terms := { host, globals := session.globals, faithful := False }
  have hexplained : Explained T session
      (requireModule host options (checkWithin host options levels) file request) :=
    explained_requireModule (fun path s => explained_checkWithin T options levels path s) options file
      request
  exact (hexplained ⟨rfl, nofun⟩).keeps.1

/-- At the end of a source more of it could be verified. -/
theorem fits_inspect {path : String} {s : State} (h : inspect host options path = .ok s) :
    ∃ source, host.source? path = some source ∧
      s.Fits (Region.whole (Ground.any source.program)) := by
  rw [inspect] at h
  split at h
  · cases h
  next source hsource =>
  refine ⟨source, hsource, ?_⟩
  rcases hstart : Session.start host options with e | session
  · rw [hstart] at h
    cases h
  rw [hstart] at h
  have hstarted : (State.start session source).Fits
      (Region.whole (Ground.any source.program)) := State.fits_start trivial
  have hrequire (file request : String) (session : Session) :
      ((requireModule host options (checkFile host options) file request).run session).2.globals =
        session.globals := globals_requireModule host options maxModuleDepth file request session
  have hleaves := (confined_verifySource rfl
    (fun path session _ => safe_any (loads_resolveHeader host options path).keeps.keeps.globals
      fun _ _ _ _ => .inl fun _ => trivial)
    (fun file request session _ => safe_any (hrequire file request session) fun _ _ => trivial)
    hstarted).keeps
  simp only [bind, Except.bind] at h
  split at h
  · next hrun =>
    cases h
    rw [hrun] at hleaves
    exact hleaves.fits hstarted
  · cases h

/-- The visitor of a source whose requires may go `levels` levels deep. -/
def requiring (host : Host) (options : Options) (levels fuel : Nat) : Visitor :=
  visitor (requireModule host options (checkWithin host options levels)) fuel

/-- An assignment to a variable. -/
def assignVariable (v : Visitor) (id : Identifier) (right : Expr) (span : Span) :
    Check (Option TypeId) :=
  verifyAssignment v "=" (.identifier id) right span

/-- After an assignment to a variable that reports nothing, the variable is read at a type that
accepts the value: in a branch because the assignment narrows it, elsewhere where no narrowed type
hides the declared one. -/
theorem assigned_value_fits_read (host : Host) (options : Options) (levels fuel : Nat)
    {program : Program} {s s' : State} (hs : s.Fits (Region.whole (Ground.any program)))
    (id : Identifier) (right : Expr) (span : Span) {type value : TypeId}
    (hright : Node.expr right ∈ nodesOf program.body)
    (hdeclared : s.declaredType id.name = some type)
    (hrun : (assignVariable (requiring host options levels fuel) id right span).run s =
      (.ok (some value), s'))
    (hquiet : s'.diagnostics = s.diagnostics)
    (hsight : s.Renews id.name type ∨
      s.Spares (requiring host options levels fuel) right id.name type)
    (hknown : type = .moduleExports →
      (s'.table.lookup .moduleExports).isSome ∧ (s'.table.lookup value).isSome) :
    s'.Reads id.name value :=
  reads_assigned (globals_requireModule host options levels) fuel hs hright hdeclared hrun hquiet
    hsight hknown

/-! ## Branches that agree -/

/-- A header type for texts, or for no text. -/
def textOrNull : Signature.TypeExpr :=
  Signature.Build.union [Signature.Build.literal "String", Signature.Build.value "null"]

/-- Both branches give `x` a text, and then it may get none. -/
def settling : Program :=
  Build.program
    [Build.branch (Build.ident "c")
        [Build.expression (Build.assign (Build.ident "x") (Build.string "a"))]
        (some [Build.expression (Build.assign (Build.ident "x") (Build.string "b"))]),
      Build.expression (Build.assign (Build.ident "x") (Build.ident "d")),
      Build.expression (Build.assign (Build.ident "y") (Build.ident "x"))]

-- no variable of the source has an initial value, all are assigned to
example : (settling.initialsFor "x").isEmpty := by decide +kernel

def Host.settling : Host :=
  (Host.single Project.settling).addHeader "/app/main.hjs"
    (Signature.Build.header
      [Signature.Build.assignment "x" textOrNull, Signature.Build.assignment "d" textOrNull,
        Signature.Build.assignment "c" (Signature.Build.literal "Boolean"),
        Signature.Build.assignment "y" (Signature.Build.literal "String")])

/-- The state in which a source ends. -/
def stateOf : Except Error State → State
  | .ok s => s
  | .error _ => .start {} { path := "", text := "", program := settling }

theorem eq_ok_stateOf {result : Except Error State} (h : result.isOk) : result = .ok (stateOf result) := by
  cases result with
  | ok s => rfl
  | error e => cases h

def settled : State :=
  stateOf (inspect Host.settling {} "/app/main.js")

theorem inspect_settling : inspect Host.settling {} "/app/main.js" = .ok settled :=
  eq_ok_stateOf (by rw [inspect, Session.start_eq]; decide +kernel)

theorem run_eq_of_toOption {α : Type} {m : Check α} {s : State} {a : α}
    (h : (m.run s).1.toOption = some a) : m.run s = (.ok a, (m.run s).2) := by
  rcases hrun : m.run s with ⟨e | b, s'⟩ <;> rw [hrun] at h
  · cases h
  · cases h
    rfl

/-- The visitor of the source. -/
def settler : Visitor :=
  requiring Host.settling {} 1 1

/-- The statement `x = d`. -/
def assignX : Check (Option TypeId) :=
  assignVariable settler { name := "x" } (Build.ident "d") {}

/-- The statement `y = x`. -/
def assignY : Check (Option TypeId) :=
  assignVariable settler { name := "y" } (Build.ident "x") {}

/-- The type that both branches agree on hides what is assigned after them. -/
theorem assignment_missed_by_read :
    ∃ s value s', inspect Host.settling {} "/app/main.js" = .ok s ∧
      s.declaredType "d" = some value ∧ assignX.run s = (.ok (some value), s') ∧
      s'.diagnostics = s.diagnostics ∧ ¬s'.Reads "x" value := by
  have houtcome : (assignX.run settled).1.toOption = some (settled.declaredType "d") ∧
      (assignX.run settled).2.diagnostics = [] ∧ settled.diagnostics = [] ∧
      (assignX.run settled).2.typeIn (assignX.run settled).2.focus.scope "x" .normal = some .string ∧
      (settled.declaredType "d").any fun value =>
        !(assignX.run settled).2.table.isSubtype .string value := by
    rw [settled, inspect, Session.start_eq]
    decide +kernel
  obtain ⟨hvalue, hreported, hclean, hread, hmisfit⟩ := houtcome
  obtain ⟨value, hdeclared, hmisfit⟩ := (Option.any_eq_true _ _).mp hmisfit
  rw [hdeclared] at hvalue
  refine ⟨settled, value, _, inspect_settling, hdeclared, run_eq_of_toOption hvalue,
    hreported.trans hclean.symm, ?_⟩
  rintro ⟨type, htype, hfits⟩
  rw [hread] at htype
  cases htype
  rw [hfits] at hmisfit
  cases hmisfit

/-- What the branches agree on is passed on. -/
theorem assigned_value_fits_read_relayed :
    ∃ value s', assignY.run settled = (.ok (some value), s') ∧ s'.Reads "y" value := by
  have hfits : settled.Fits (Region.whole (Ground.any settling)) := by
    obtain ⟨source, hsource, hfits⟩ := fits_inspect inspect_settling
    cases hsource
    exact hfits
  have houtcome : (assignY.run settled).1.toOption = some (some .string) ∧
      (assignY.run settled).2.diagnostics = [] ∧ settled.diagnostics = [] ∧
      settled.declaredType "y" = some .string ∧ settled.narrows "y" = false := by
    rw [settled, inspect, Session.start_eq]
    decide +kernel
  obtain ⟨hvalue, hreported, hclean, hdeclared, hunnarrowed⟩ := houtcome
  have hunreached : ¬settling.Reaches (.expr (Build.ident "x")) "y" := by
    have hclosed : settling.Closed (· ∈ ["x"]) := Program.closed_of_functions (by decide +kernel)
    have hmentions : ∀ first ∈ (Node.expr (Build.ident "x")).mentions, first ∈ ["x"] := by
      decide +kernel
    exact fun hreach => absurd (hclosed.of_reaches hmentions hreach) (by decide)
  have hstatement : Node.stmt (Build.expression (Build.assign (Build.ident "y") (Build.ident "x"))) ∈
      nodesOf settling.body :=
    List.mem_flatMap.mpr ⟨_, by simp [settling, Build.program], Node.self_mem_nodes _⟩
  have hright : Node.expr (Build.ident "x") ∈ nodesOf settling.body :=
    mem_nodesOf_of_part (mem_nodesOf_of_part hstatement List.mem_cons_self)
      (List.mem_cons_of_mem _ List.mem_cons_self)
  have hspares : settled.Spares settler (Build.ident "x") "y" .string :=
    spares_of_unreached (confines_any (globals_requireModule Host.settling {} 1) 1) hfits hright hdeclared
      hunnarrowed hunreached
  have hrun := run_eq_of_toOption hvalue
  exact ⟨.string, _, hrun, assigned_value_fits_read Host.settling {} 1 1 hfits { name := "y" }
    (Build.ident "x") {} hright hdeclared hrun (hreported.trans hclean.symm)
    (.inr hspares) fun hexports => absurd hexports (by decide)⟩

end HeaderCheck.Project
