import HeaderCheck.Proofs.Header.Lower
import HeaderCheck.Proofs.Text.Path

/-!
# HeaderCheck.Proofs.Project.Imports

A header hands on what was reported for the headers that it imports.

* `Gathers`: what is known while a header is lowered, before and after imports.
* `Session.Gives`: what a session gives for the header at a path.
* `Takes`: a header was lowered when another one, which it imports, was known.
* `HandedOn`: headers report all that was reported for those that they take from. It holds of
  headers in the order in which they became known, one after another.
-/

namespace HeaderCheck.Project

open HeaderCheck.Header (Lowered Lowering)
open HeaderCheck.Report (Diagnostic)

variable {host : Host} {options : Options} {s : Session}

/-! ## One import -/

/-- While imports are taken over, diagnostics are added for the header at the same path. -/
structure Gathers (l l' : Lowering) : Prop where
  diagnostics : l.diagnostics <+: l'.diagnostics
  path : l'.path = l.path
  declarations : l'.declarations = l.declarations

theorem Gathers.refl (l : Lowering) : Gathers l l :=
  ⟨List.prefix_refl _, rfl, rfl⟩

theorem Gathers.trans {one two three : Lowering} (h : Gathers one two) (h' : Gathers two three) :
    Gathers one three :=
  ⟨h.diagnostics.trans h'.diagnostics, h'.path.trans h.path, h'.declarations.trans h.declarations⟩

theorem gathers_report (l : Lowering) (kind : Report.Kind) (fields : List (String × String)) :
    Gathers l (l.report kind fields) :=
  ⟨List.prefix_append _ _, rfl, rfl⟩

theorem gathers_importType (l : Lowering) (declarations : Dict Types.TypeId)
    (item : Signature.TypeExpr) : Gathers l (l.importType declarations item) := by
  unfold Lowering.importType
  split
  · exact .refl l
  split
  · exact gathers_report l _ _
  split <;> exact ⟨List.prefix_refl _, rfl, rfl⟩

theorem gathers_importFrom (l : Lowering) (header : Lowered) (items : List Signature.TypeExpr) :
    Gathers { l with diagnostics := l.diagnostics ++ header.diagnostics }
      (l.importFrom header items) := by
  have hfold : ∀ l : Lowering,
      Gathers l (items.foldl (fun l item => l.importType header.declarations item) l) := by
    induction items with
    | nil => exact .refl
    | cons item rest ih => exact fun l => (gathers_importType l _ item).trans (ih _)
  exact hfold _

/-- What a session gives for the header at a path. It gives none if there is none, and while the
header is being lowered. -/
def Session.Gives (s : Session) (path : String) : Option Lowered → Prop
  | some lowered => s.headers.get? (Path.normalize path) = some (some lowered)
  | none => s.headers.get? (Path.normalize path) = some none ∨
      s.headers.get? (Path.normalize path) = none ∧ Path.normalize path ∈ s.lowering

theorem Session.Gives.eq_some {path : String} {header : Option Lowered} {lowered : Lowered}
    (h : s.Gives path header)
    (hknown : s.headers.get? (Path.normalize path) = some (some lowered)) :
    header = some lowered := by
  cases header with
  | some found => exact Option.some.inj (h.symm.trans hknown)
  | none =>
    rcases h with h | ⟨h, -⟩ <;> rw [hknown] at h <;> cases h

/-- Among the diagnostics are those of the header at a path, if the session gives one. -/
def Session.Reports (s : Session) (path : String) (diagnostics : List Diagnostic) : Prop :=
  ∃ header, s.Gives path header ∧
    ∀ lowered, header = some lowered → lowered.diagnostics ⊆ diagnostics

theorem Session.Reports.subset {path : String} {diagnostics : List Diagnostic} {lowered : Lowered}
    (h : s.Reports path diagnostics)
    (hknown : s.headers.get? (Path.normalize path) = some (some lowered)) :
    lowered.diagnostics ⊆ diagnostics := by
  obtain ⟨header, hgives, hsub⟩ := h
  exact hsub lowered (hgives.eq_some hknown)

theorem Session.Reports.mono {path : String} {diagnostics diagnostics' : List Diagnostic}
    (h : s.Reports path diagnostics) (hsub : diagnostics ⊆ diagnostics') :
    s.Reports path diagnostics' := by
  obtain ⟨header, hgives, hsub'⟩ := h
  exact ⟨header, hgives, fun lowered heq => List.Subset.trans (hsub' lowered heq) hsub⟩

/-! ## Headers one after another -/

/-- Where a header looks for one that it imports. -/
def Options.importTarget (options : Options) (path dependency : String) : String :=
  Path.withDefaultExtension (Path.resolve path dependency) options.headerExtension

/-- The header at a path imports the one that its request leads to. -/
def Host.Imports (host : Host) (options : Options) (path target : String) : Prop :=
  ∃ header dependency items, host.header? path = some header ∧
    .imports dependency items ∈ header.statements ∧ Path.isRequest dependency = true ∧
    target = options.importTarget path dependency

/-- Among the diagnostics are those of all known headers that the one at the path imports. -/
def Session.Hears (host : Host) (options : Options) (s : Session) (path : String)
    (diagnostics : List Diagnostic) : Prop :=
  ∀ target found, host.Imports options path target →
    s.headers.get? (Path.normalize target) = some (some found) → found.diagnostics ⊆ diagnostics

/-- Among the headers that became known one after another, `taking` imports `taken`, which was known
before it. -/
def Takes (host : Host) (options : Options) (known : List (String × Option Lowered))
    (taking taken : String × Lowered) : Prop :=
  ∃ before after target, known = before ++ (taking.1, some taking.2) :: after ∧
    host.Imports options taking.1 target ∧ taken.1 = Path.normalize target ∧
    Dict.lookup taken.1 before = some (some taken.2)

/-- All that was reported for a header is reported for those that take from it. -/
def HandedOn (host : Host) (options : Options) (known : List (String × Option Lowered)) : Prop :=
  ∀ taking taken, Takes host options known taking taken →
    taken.2.diagnostics ⊆ taking.2.diagnostics

theorem handedOn_nil : HandedOn host options [] := by
  rintro taking taken ⟨before, after, target, hknown, -⟩
  simp at hknown

/-- A header hands on what was reported for all that it imports and that are known. -/
theorem HandedOn.concat (h : HandedOn host options s.headers.entries) {path : String}
    {header : Option Lowered}
    (hnew : ∀ lowered, header = some lowered → s.Hears host options path lowered.diagnostics) :
    HandedOn host options (s.headers.entries ++ [(path, header)]) := by
  rintro ⟨taking, lowered⟩ ⟨_, found⟩ ⟨before, after, target, hknown, himports, rfl, hfound⟩
  rcases List.eq_nil_or_concat after with rfl | ⟨rest, last, rfl⟩
  · obtain ⟨rfl, hlast⟩ := List.append_inj' hknown rfl
    cases hlast
    exact hnew lowered rfl target found himports hfound
  · rw [List.concat_eq_append, ← List.cons_append, ← List.append_assoc] at hknown
    obtain ⟨hknown, -⟩ := List.append_inj' hknown rfl
    exact h _ _ ⟨before, rest, target, hknown, himports, rfl, hfound⟩

theorem HandedOn.reachable {known : List (String × Option Lowered)}
    (h : HandedOn host options known) {root header : String × Lowered}
    (htakes : Relation.ReflTransGen (Takes host options known) root header) :
    header.2.diagnostics ⊆ root.2.diagnostics := by
  induction htakes with
  | refl => exact List.Subset.refl _
  | tail _ hlast ih => exact List.Subset.trans (h _ _ hlast) ih

end HeaderCheck.Project
