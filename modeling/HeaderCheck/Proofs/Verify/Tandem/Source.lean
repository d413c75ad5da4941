import HeaderCheck.Proofs.Verify.Alike
import HeaderCheck.Proofs.Verify.Tandem.Statements

/-!
# HeaderCheck.Proofs.Verify.Tandem.Source

Whole sources side by side.

* `Both.start`: the states in which two runs begin.
* `matched_verifySource`: sources that are like one another, under one header, are verified with the
  same result, where each require gives the same to both.
-/

namespace HeaderCheck.Verify

open HeaderCheck.Project (Host Options Session SessionM resolveHeader)
open HeaderCheck.Scope (Arena ScopeId)
open HeaderCheck.Script
open HeaderCheck.Types (TypeId)

variable {C : Comparison} {p q : Both C} {π : Pairing C.exact}

/-! ## Starts -/

/-- The states in which the verification of two sources begins. -/
def Both.start (C : Comparison) (π : Pairing C.exact) (session session' : Session)
    (source source' : Source) : Both C :=
  { world := fun _ => π, left := .start session source, right := .start session' source' }

theorem Both.twins_start {session session' : Session} {source source' : Source}
    (hnarrowing : ∀ id, C.narrowing id) (hsession : session.Twins C.exact session')
    (hpath : source'.path = source.path) (hsource : C.exact → source' = source) :
    (Both.start C π session session' source source').Twins where
  sound := .pushFile
  inside := Nat.zero_lt_one
  fresh := fun id _ => hnarrowing id
  session := hsession
  path := hpath
  source := hsource
  arena := by
    intro id
    change Option.Rel _ (({} : Arena).pushFile.2.scope? id) (({} : Arena).pushFile.2.scope? id)
    rcases hscope : ({} : Arena).pushFile.2.scope? id with _ | scope
    · exact .none
    · obtain ⟨-, rfl⟩ := Arena.scope?_pushFile hscope
      exact .some ⟨rfl, .file _, rfl, rfl, .empty, .empty⟩
  fileScope := rfl
  scope := rfl
  mode := rfl
  isTarget := rfl
  diagnostics := .nil
  exports := rfl
  unknown := rfl
  dependencies := rfl

/-! ## What is in sight at the start -/

theorem matched_bindInFile (hfile : p.left.Owns p.left.fileScope)
    (bindings : List (String × TypeId)) : Matched p (bindInFile bindings) (bindInFile bindings) := by
  induction bindings generalizing p with
  | nil => exact tandem_pure trivial
  | cons binding rest ih =>
    refine tandem_get_bind fun ht => ?_
    rw [ht.fileScope]
    refine (matched_addVar (fun _ => hfile) _ _).bind fun _ q hq => ih ?_
    rw [hq.left.fileScope]
    exact hfile.after hq

theorem matched_bindModuleNames (hfile : p.left.Owns p.left.fileScope) :
    Matched p bindModuleNames bindModuleNames := by
  refine (matched_onTable _).bind fun module q hq => matched_bindInFile ?_ _
  rw [hq.left.fileScope]
  exact hfile.after hq

variable {host host' : Host} {options : Options}

theorem matched_bindHeader (hheaders : ∀ path, Project.Matched C.exact (resolveHeader host options path)
      (resolveHeader host' options path))
    (hfile : p.left.Owns p.left.fileScope) :
    Matched p (bindHeader host options) (bindHeader host' options) := by
  refine tandem_get_bind fun ht => ?_
  rw [ht.path]
  refine (matched_onSession (hheaders _)).bind fun header q hq => ?_
  cases header with
  | none => exact tandem_pure trivial
  | some header =>
    have hreports : List.Forall₂ (Report.Diagnostic.Twins C.exact) header.diagnostics
        header.diagnostics :=
      List.forall₂_same.mpr fun _ _ => ⟨rfl, fun _ => rfl⟩
    refine (matched_record hreports).bind fun _ q₁ hq₁ => matched_bindInFile ?_ _
    have hafter := hq.trans hq₁
    rw [hafter.left.fileScope]
    exact hfile.after hafter

theorem matched_bindSource (hheaders : ∀ path, Project.Matched C.exact (resolveHeader host options path)
      (resolveHeader host' options path)) (hp : p.At π)
    (hfile : p.left.Owns p.left.fileScope)
    (hbody : StmtsLike π p.left.source.program.body p.right.source.program.body) :
    Matched p (bindSource host options) (bindSource host' options) := by
  refine (matched_bindModuleNames hfile).bind fun _ q hq => tandem_get_bind fun _ => ?_
  rw [hq.left.source, hq.right.source]
  refine (matched_registerFunctions (hp.after hq) hbody).bind fun _ q₁ hq₁ => ?_
  have hafter := hq.trans hq₁
  refine matched_bindHeader hheaders ?_
  rw [hafter.left.fileScope]
  exact hfile.after hafter

/-- Sources that are like one another are verified with the same result. -/
theorem matched_verifySource (hwatched : ∀ around, C.watched around = false)
    (hheaders : ∀ path, Project.Matched C.exact (resolveHeader host options path)
      (resolveHeader host' options path))
    {require require' : (file request : String) → SessionM Required}
    (hrequire : ∀ file request, Project.Matched C.exact (require file request) (require' file request))
    (hp : p.At π) (heven : p.Even) (hfile : p.left.Owns p.left.fileScope)
    (hbody : StmtsLike π p.left.source.program.body p.right.source.program.body)
    (hsize : p.right.source.program.size = p.left.source.program.size) :
    Matched p (verifySource host options require) (verifySource host' options require') := by
  refine tandem_get_bind fun _ => (matched_bindSource hheaders hp hfile hbody).bind fun _ q hq => ?_
  rw [hsize]
  exact (tandem_visitor hwatched hrequire _).statements (hp.after hq) (heven.after hq) hbody

end HeaderCheck.Verify
