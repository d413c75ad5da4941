import HeaderCheck.Proofs.Scope.Onward
import HeaderCheck.Proofs.Scope.Twins
import HeaderCheck.Proofs.Verify.Run

/-!
# HeaderCheck.Proofs.Verify.Tandem

Two runs of the verifier side by side, over sources that differ in places at most.

* `Comparison`: what the two runs may differ in.
* `Both`, `Both.Twins`: the states of the two runs, and what they have in common.
* `Tandem p m m' Q`: from twins the two pieces of work end in twins with the same result, for which
  `Q` holds, or with the same error. One rule for each way to put work together and for each
  primitive. Only scopes in `Comparison.narrowing` get other narrowed types.
-/

namespace HeaderCheck

open HeaderCheck.Report (Diagnostic)

/-- One diagnostic in two runs: of the same kind, and the same one in an exact comparison. -/
structure Report.Diagnostic.Twins (exact : Prop) (d d' : Diagnostic) : Prop where
  kind : d'.kind = d.kind
  equal : exact → d' = d

namespace Project

/-- The outcome of one source in two runs. -/
structure FileResult.Twins (exact : Prop) (result result' : FileResult) : Prop where
  fileName : result'.fileName = result.fileName
  diagnostics : List.Forall₂ (Diagnostic.Twins exact) result.diagnostics result'.diagnostics
  exports : result'.exports = result.exports
  dependencies : result'.dependencies = result.dependencies

/-- Sessions of two runs: only diagnostics of sources may differ. -/
structure Session.Twins (exact : Prop) (t t' : Session) : Prop where
  table : t'.table = t.table
  globals : t'.globals = t.globals
  globalDiagnostics : t'.globalDiagnostics = t.globalDiagnostics
  files : Dict.Related Eq (fun _ => FileResult.Twins exact) t.files t'.files
  headers : t'.headers = t.headers
  compiling : t'.compiling = t.compiling
  lowering : t'.lowering = t.lowering

/-- Work that from sessions of two runs leads to such sessions, with the same result. -/
def Matched {α : Type} (exact : Prop) (m m' : SessionM α) : Prop :=
  ∀ t t' : Session, t.Twins exact t' →
    (m'.run t').1 = (m.run t).1 ∧ (m.run t).2.Twins exact (m'.run t').2

/-! ## Equal sessions -/

theorem Session.Twins.refl (exact : Prop) (t : Session) : t.Twins exact t where
  table := rfl
  globals := rfl
  globalDiagnostics := rfl
  files := List.forall₂_same.mpr fun _ _ =>
    ⟨rfl, rfl, List.forall₂_same.mpr fun _ _ => ⟨rfl, fun _ => rfl⟩, rfl, rfl⟩
  headers := rfl
  compiling := rfl
  lowering := rfl

theorem eq_of_forall₂ {α : Type} {R : α → α → Prop} (hR : ∀ a b, R a b → b = a) {l l' : List α}
    (h : List.Forall₂ R l l') : l' = l := by
  have heq : List.Forall₂ Eq l l' := h.imp fun a b hab => (hR a b hab).symm
  rw [List.forall₂_eq_eq_eq] at heq
  exact heq.symm

theorem diagnostics_eq {diagnostics diagnostics' : List Diagnostic}
    (h : List.Forall₂ (Diagnostic.Twins True) diagnostics diagnostics') :
    diagnostics' = diagnostics :=
  eq_of_forall₂ (fun _ _ hd => hd.equal trivial) h

theorem FileResult.Twins.eq {result result' : FileResult} (h : result.Twins True result') :
    result' = result := by
  obtain ⟨fileName, diagnostics, exports, dependencies⟩ := result
  rw [FileResult.mk.injEq]
  exact ⟨h.fileName, diagnostics_eq h.diagnostics, h.exports, h.dependencies⟩

/-- In an exact comparison sessions do not differ. -/
theorem Session.Twins.eq {t t' : Session} (h : t.Twins True t') : t' = t := by
  have hfiles : t'.files = t.files := by
    rw [Dict.mk.injEq]
    exact eq_of_forall₂ (fun x y hxy => Prod.ext hxy.1.symm hxy.2.eq) h.files
  obtain ⟨_, _, _, _, _, _, _⟩ := t
  rw [Session.mk.injEq]
  exact ⟨h.table, h.globals, h.globalDiagnostics, hfiles, h.headers, h.compiling, h.lowering⟩

theorem matched_self {α : Type} (m : SessionM α) : Matched True m m := by
  intro t t' ht
  cases ht.eq
  exact ⟨rfl, .refl True _⟩

end Project

namespace Verify

open HeaderCheck.Project (Error Session SessionM)
open HeaderCheck.Report (Kind)
open HeaderCheck.Scope (Arena LookupMode ScopeId)
open HeaderCheck.Script (Pairing SamePlace)
open HeaderCheck.Types (Table TypeId)

variable {α β : Type}

/-! ## States of two runs -/

/-- What two runs may differ in. -/
structure Comparison where
  /-- Places are the same in both. -/
  exact : Prop
  /-- Functions (or none) in which the context may differ; where it decides, the first run has no
  result. -/
  watched : Option ScopeId → Bool
  /-- Scopes whose narrowed types may change. -/
  narrowing : ScopeId → Prop

/-- The same return statement is under way in the function. -/
def Comparison.SameReturn (C : Comparison) (id : ScopeId) : Prop :=
  C.watched (some id) = false

/-- The first run was given up, since the context decides and may differ. -/
structure Comparison.Pardons (C : Comparison) (s : State) (run : Except Error α × State) : Prop where
  result : run.1 = .error .outOfFuel
  watched : ∃ around, C.watched around
  arena : s.arena.Onward C.narrowing run.2.arena

/-- The states of two runs, with the pairings of the bodies that their scopes are made for. -/
structure Both (C : Comparison) where
  world : Scope.World C.exact
  left : State
  right : State

variable {C : Comparison} {p q r : Both C}

/-- What stays as it is while a source is verified. -/
structure State.Stays (s s' : State) : Prop where
  focus : s'.focus = s.focus
  fileScope : s'.fileScope = s.fileScope
  source : s'.source = s.source

theorem State.Stays.refl (s : State) : s.Stays s :=
  ⟨rfl, rfl, rfl⟩

theorem State.Stays.trans {s s₁ s₂ : State} (h : s.Stays s₁) (h' : s₁.Stays s₂) : s.Stays s₂ :=
  ⟨h'.focus.trans h.focus, h'.fileScope.trans h.fileScope, h'.source.trans h.source⟩

namespace Both

/-- What the two states have in common. What goes into a slot is not among it, as a node may be
verified with another slot. -/
structure Twins (p : Both C) : Prop where
  sound : p.left.arena.Sound
  inside : p.left.focus.scope.index < p.left.arena.size
  fresh : ∀ id : ScopeId, p.left.arena.size ≤ id.index → C.narrowing id
  session : p.left.session.Twins C.exact p.right.session
  path : p.right.source.path = p.left.source.path
  source : C.exact → p.right.source = p.left.source
  arena : p.left.arena.Twins C.SameReturn p.world p.right.arena
  fileScope : p.right.fileScope = p.left.fileScope
  scope : p.right.focus.scope = p.left.focus.scope
  mode : p.right.focus.mode = p.left.focus.mode
  isTarget : p.right.focus.isTarget = p.left.focus.isTarget
  diagnostics : List.Forall₂ (Report.Diagnostic.Twins C.exact) p.left.diagnostics
    p.right.diagnostics
  exports : p.right.exports = p.left.exports
  unknown : p.right.unknown = p.left.unknown
  dependencies : p.right.dependencies = p.left.dependencies

namespace Twins

variable (h : p.Twins)

include h

theorem table_eq : p.right.table = p.left.table :=
  h.session.table

theorem globals_eq : p.right.session.globals = p.left.session.globals :=
  h.session.globals

theorem format_eq : p.right.format = p.left.format := by
  funext type
  rw [State.format, State.format, h.table_eq]

theorem typeIn_eq (id : ScopeId) (name : String) (mode : LookupMode) :
    p.right.typeIn id name mode = p.left.typeIn id name mode := by
  rw [State.typeIn, State.typeIn, h.globals_eq, h.arena.getVar_eq]

theorem lookup_eq (name : String) : p.right.lookup name = p.left.lookup name := by
  rw [State.lookup, State.lookup, h.scope, h.mode, h.typeIn_eq]

theorem declaredType_eq (name : String) : p.right.declaredType name = p.left.declaredType name := by
  rw [State.declaredType, State.declaredType, h.scope, h.typeIn_eq]

theorem isUntyped_eq (name : String) : p.right.isUntyped name = p.left.isUntyped name := by
  have hrel := h.arena.getFunction?_rel p.left.focus.scope name
  simp only [State.isUntyped, h.scope]
  generalize p.left.arena.getFunction? p.left.focus.scope name = x at hrel
  generalize p.right.arena.getFunction? p.left.focus.scope name = y at hrel
  cases hrel <;> rfl

theorem owner_eq : p.right.owner = p.left.owner := by
  rw [State.owner, State.owner, h.scope, h.arena.owner_eq]

theorem owner_lt : p.left.owner.index < p.left.arena.size :=
  h.sound.owner_lt h.inside

theorem inBranch_eq : p.right.inBranch = p.left.inBranch := by
  rw [State.inBranch, State.inBranch, h.scope, h.arena.isBranch_eq]

theorem inFileScope_eq : p.right.inFileScope = p.left.inFileScope := by
  rw [State.inFileScope, State.inFileScope, h.scope, h.fileScope]

end Twins

/-- How two runs go on together. -/
structure After (p q : Both C) : Prop where
  before : p.Twins
  twins : q.Twins
  world : ∀ id : ScopeId, id.index < p.left.arena.size → q.world id = p.world id
  arena : p.left.arena.Onward C.narrowing q.left.arena
  left : p.left.Stays q.left
  right : p.right.Stays q.right

namespace After

theorem refl (h : p.Twins) : p.After p :=
  ⟨h, h, fun _ _ => rfl, .refl _ _, .refl _, .refl _⟩

theorem trans (h : p.After q) (h' : q.After r) : p.After r where
  before := h.before
  twins := h'.twins
  world := by
    intro id hid
    rw [h'.world id (Nat.lt_of_lt_of_le hid h.arena.size_le), h.world id hid]
  arena := h.arena.trans h'.arena
  left := h.left.trans h'.left
  right := h.right.trans h'.right

theorem focus (h : p.After q) : q.left.focus = p.left.focus :=
  h.left.focus

theorem focus' (h : p.After q) : q.right.focus = p.right.focus :=
  h.right.focus

theorem owner_eq_of_lt (h : p.After q) {id : ScopeId} (hid : id.index < p.left.arena.size) :
    q.left.arena.owner id = p.left.arena.owner id :=
  h.arena.keeps.owner_eq h.before.sound.ordered hid

theorem functionScope?_eq_of_lt (h : p.After q) {id : ScopeId}
    (hid : id.index < p.left.arena.size) :
    q.left.arena.functionScope? id = p.left.arena.functionScope? id :=
  h.arena.keeps.functionScope?_eq h.before.sound.ordered hid

theorem owner_eq (h : p.After q) : q.left.owner = p.left.owner := by
  rw [State.owner, State.owner, h.focus, h.owner_eq_of_lt h.before.inside]

end After

end Both

/-! ## The judgement -/

/-- From twins the work ends in twins with the same result, for which `Q` holds. -/
def Tandem (p : Both C) (m m' : Check α) (Q : α → Both C → Prop) : Prop :=
  p.Twins → C.Pardons p.left (m.run p.left) ∨
    ∃ result q, m.run p.left = (result, q.left) ∧ m'.run p.right = (result, q.right) ∧ p.After q ∧
      ∀ a, result = .ok a → Q a q

/-- Of the result nothing need be known. -/
abbrev Matched (p : Both C) (m m' : Check α) : Prop :=
  Tandem p m m' fun _ _ => True

variable {m m' : Check α} {P Q : α → Both C → Prop}

/-- A rule may use that the states are twins. -/
theorem Tandem.of_twins (h : p.Twins → Tandem p m m' Q) : Tandem p m m' Q :=
  fun ht => h ht ht

theorem Tandem.mono (h : Tandem p m m' P) (hPQ : ∀ a q, p.After q → P a q → Q a q) :
    Tandem p m m' Q := by
  intro ht
  refine (h ht).imp_right fun ⟨result, q, hrun, hrun', hq, hP⟩ => ?_
  exact ⟨result, q, hrun, hrun', hq, fun a ha => hPQ a q hq (hP a ha)⟩

theorem Tandem.ignore (h : Tandem p m m' P) : Matched p m m' :=
  h.mono fun _ _ _ _ => trivial

/-- Work that ends well in both runs. -/
theorem tandem_of_run {a : α} (hrun : m.run p.left = (.ok a, q.left))
    (hrun' : m'.run p.right = (.ok a, q.right)) (hq : p.Twins → p.After q)
    (hQ : p.Twins → Q a q) : Tandem p m m' Q := by
  refine fun ht => .inr ⟨.ok a, q, hrun, hrun', hq ht, ?_⟩
  rintro _ ⟨⟩
  exact hQ ht

theorem tandem_pure {a : α} (hQ : Q a p) : Tandem p (pure a) (pure a) Q :=
  tandem_of_run rfl rfl .refl fun _ => hQ

theorem tandem_throw (e : Error) : Tandem p (throw e) (throw e) Q :=
  fun ht => .inr ⟨.error e, p, rfl, rfl, .refl ht, nofun⟩

/-- The first run may be given up where the context may differ. -/
theorem tandem_pardoned {around : Option ScopeId} (h : C.watched around) :
    Tandem p (throw .outOfFuel) m' Q :=
  fun _ => .inl ⟨rfl, ⟨around, h⟩, .refl _ _⟩

theorem tandem_get_bind {f f' : State → Check α}
    (h : p.Twins → Tandem p (f p.left) (f' p.right) Q) :
    Tandem p (get >>= f) (get >>= f') Q :=
  fun ht => h ht ht

/-- Only the first run looks at its state. -/
theorem tandem_get_bind_left {f : State → Check α} (h : Tandem p (f p.left) m' Q) :
    Tandem p (get >>= f) m' Q :=
  h

theorem tandem_bind {f f' : α → Check β} {Q : β → Both C → Prop} (h : Tandem p m m' P)
    (hf : ∀ a q, p.After q → P a q → Tandem q (f a) (f' a) Q) :
    Tandem p (m >>= f) (m' >>= f') Q := by
  intro ht
  rcases h ht with hpardon | ⟨result, q, hrun, hrun', hq, hP⟩
  · obtain ⟨hresult, hwatched, harena⟩ := hpardon
    have hrun : (m >>= f).run p.left = (.error .outOfFuel, (m.run p.left).2) :=
      run_bind_error (Prod.ext hresult rfl) f
    exact .inl ⟨by rw [hrun], hwatched, by rw [hrun]; exact harena⟩
  cases result with
  | error e =>
    exact .inr ⟨.error e, q, run_bind_error hrun f, run_bind_error hrun' f', hq, nofun⟩
  | ok a =>
    rw [run_bind_ok hrun, run_bind_ok hrun']
    refine (hf a q hq (hP a rfl) hq.twins).imp ?_ ?_
    · rintro ⟨hresult, hwatched, harena⟩
      exact ⟨hresult, hwatched, hq.arena.trans harena⟩
    · rintro ⟨result, r, hrun₂, hrun₂', hr, hQ⟩
      exact ⟨result, r, hrun₂, hrun₂', hq.trans hr, hQ⟩

theorem Matched.bind {f f' : α → Check β} {Q : β → Both C → Prop} (h : Matched p m m')
    (hf : ∀ a q, p.After q → Tandem q (f a) (f' a) Q) : Tandem p (m >>= f) (m' >>= f') Q :=
  tandem_bind h fun a q hq _ => hf a q hq

/-- No result after a report. -/
theorem Matched.noResult {m m' : Check Unit} (h : Matched p m m') :
    Matched p (do m; pure none : Check (Option α)) (do m'; pure none) :=
  h.bind fun _ _ _ => tandem_pure trivial

/-- Work on a result that may be missing; without it there is none of this work either. -/
theorem Matched.bind_some {m m' : Check (Option α)} {f f' : Option α → Check (Option β)}
    (h : Matched p m m') (hnone : f none = pure none) (hnone' : f' none = pure none)
    (hf : ∀ a q, p.After q → Matched q (f (some a)) (f' (some a))) :
    Matched p (m >>= f) (m' >>= f') := by
  refine h.bind fun result q hq => ?_
  cases result with
  | none =>
    rw [hnone, hnone']
    exact tandem_pure trivial
  | some a => exact hf a q hq

/-! ## Work under another focus -/

/-- The two states under other foci. -/
def Both.refocus (p : Both C) (focus focus' : Focus) : Both C :=
  { p with left := { p.left with focus }, right := { p.right with focus := focus' } }

theorem tandem_withFocus {change change' : Focus → Focus}
    (hinside : p.Twins → (change p.left.focus).scope.index < p.left.arena.size)
    (hscope : p.Twins → (change' p.right.focus).scope = (change p.left.focus).scope)
    (hmode : p.Twins → (change' p.right.focus).mode = (change p.left.focus).mode)
    (htarget : p.Twins → (change' p.right.focus).isTarget = (change p.left.focus).isTarget)
    (h : Tandem (p.refocus (change p.left.focus) (change' p.right.focus)) m m' P)
    (hPQ : ∀ a q, p.After (q.refocus p.left.focus p.right.focus) → P a q →
      Q a (q.refocus p.left.focus p.right.focus)) :
    Tandem p (withFocus change m) (withFocus change' m') Q := by
  intro ht
  have ht' : (p.refocus (change p.left.focus) (change' p.right.focus)).Twins :=
    { ht with inside := hinside ht, scope := hscope ht, mode := hmode ht, isTarget := htarget ht }
  rw [run_withFocus, run_withFocus]
  refine (h ht').imp (fun ⟨hresult, hwatched, harena⟩ => ⟨hresult, hwatched, harena⟩) ?_
  rintro ⟨result, q, hrun, hrun', hq, hP⟩
  have hinside' : p.left.focus.scope.index < q.left.arena.size :=
    Nat.lt_of_lt_of_le ht.inside hq.arena.size_le
  have hafter : p.After (q.refocus p.left.focus p.right.focus) :=
    { before := ht
      twins := { hq.twins with
        inside := hinside', scope := ht.scope, mode := ht.mode, isTarget := ht.isTarget }
      world := hq.world
      arena := hq.arena
      left := { hq.left with focus := rfl }
      right := { hq.right with focus := rfl } }
  refine ⟨result, q.refocus p.left.focus p.right.focus, ?_, ?_, hafter, fun a ha => ?_⟩
  · exact congrArg (fun run => (run.1, ({ run.2 with focus := p.left.focus } : State))) hrun
  · exact congrArg (fun run => (run.1, ({ run.2 with focus := p.right.focus } : State))) hrun'
  · exact hPQ a q hafter (hP a ha)

/-! ## Reports -/

theorem Both.Twins.after_left_right {left right : State}
    (h : p.Twins → ({ p with left, right } : Both C).Twins) (harena : left.arena = p.left.arena)
    (hleft : p.left.Stays left) (hright : p.right.Stays right) (ht : p.Twins) :
    p.After { p with left, right } :=
  ⟨ht, h ht, fun _ _ => rfl, by rw [harena]; exact .refl _ _, hleft, hright⟩

theorem matched_record {diagnostics diagnostics' : List Report.Diagnostic}
    (h : List.Forall₂ (Report.Diagnostic.Twins C.exact) diagnostics diagnostics') :
    Matched p (record diagnostics) (record diagnostics') := by
  refine tandem_of_run (q := { p with
    left := { p.left with diagnostics := p.left.diagnostics ++ diagnostics }
    right := { p.right with diagnostics := p.right.diagnostics ++ diagnostics' } })
    (run_modify _ _) (run_modify _ _) ?_ fun _ => trivial
  refine Both.Twins.after_left_right (fun ht => ?_) rfl ⟨rfl, rfl, rfl⟩ ⟨rfl, rfl, rfl⟩
  exact { ht with diagnostics := List.rel_append ht.diagnostics h }

theorem Both.Twins.diagnostic (h : p.Twins) (kind : Kind) {span span' : Span}
    (hplace : SamePlace C.exact span span') {fields fields' : List (String × String)}
    (hfields : C.exact → fields' = fields) :
    Report.Diagnostic.Twins C.exact (p.left.diagnostic kind span fields)
      (p.right.diagnostic kind span' fields') where
  kind := rfl
  equal := by
    intro hexact
    rw [State.diagnostic, State.diagnostic, h.path, hplace hexact, hfields hexact]

theorem matched_report {kind : Kind} {span span' : Span} {fields fields' : List (String × String)}
    (hplace : SamePlace C.exact span span') (hfields : p.Twins → C.exact → fields' = fields) :
    Matched p (report kind span fields) (report kind span' fields') := by
  refine .of_twins fun ht => ?_
  exact matched_record (.cons (ht.diagnostic kind hplace (hfields ht)) .nil)

/-- A report whose fields are the same in both runs. -/
theorem matched_report_same {kind : Kind} {span span' : Span} {fields : List (String × String)}
    (hplace : SamePlace C.exact span span') :
    Matched p (report kind span fields) (report kind span' fields) :=
  matched_report hplace fun _ _ => rfl

theorem Both.Twins.failureDiagnostic (h : p.Twins) {span span' : Span}
    (hplace : SamePlace C.exact span span') (failure : Types.Failure) :
    Report.Diagnostic.Twins C.exact (p.left.failureDiagnostic span failure)
      (p.right.failureDiagnostic span' failure) := by
  cases failure <;>
  · simp only [State.failureDiagnostic, h.format_eq]
    exact h.diagnostic _ hplace fun _ => rfl

/-- A value fits in both runs or in none. -/
theorem Both.Twins.mismatch?_rel (h : p.Twins) {span span' : Span}
    (hplace : SamePlace C.exact span span') (expected actual : TypeId) :
    Option.Rel (Report.Diagnostic.Twins C.exact) (p.left.mismatch? span expected actual)
      (p.right.mismatch? span' expected actual) := by
  simp only [State.mismatch?, h.table_eq]
  split
  · exact .none
  · exact .some (h.failureDiagnostic hplace _)

theorem matched_checkFits {span span' : Span} (hplace : SamePlace C.exact span span')
    (expected actual : TypeId) :
    Matched p (checkFits span expected actual) (checkFits span' expected actual) := by
  refine tandem_get_bind fun ht => ?_
  have hrel := ht.mismatch?_rel hplace expected actual
  generalize p.left.mismatch? span expected actual = x at hrel
  generalize p.right.mismatch? span' expected actual = y at hrel
  cases hrel with
  | none => exact tandem_pure trivial
  | some hd => exact (matched_record (.cons hd .nil)).bind fun _ _ _ => tandem_pure trivial

/-! ## Types -/

theorem tandem_onTable (f : Table → α × Table) : Tandem p (onTable f) (onTable f) fun a q =>
    a = (f p.left.table).1 ∧ q.left.table = (f p.left.table).2 ∧ q.left.arena = p.left.arena := by
  refine .of_twins fun ht => ?_
  refine tandem_of_run (q := { p with
    left := p.left.withTable (f p.left.table).2, right := p.right.withTable (f p.right.table).2 })
    (run_onTable f p.left) ?_ ?_ fun _ => ⟨rfl, rfl, rfl⟩
  · rw [run_onTable, ht.table_eq]
  · refine Both.Twins.after_left_right (fun ht => ?_) rfl ⟨rfl, rfl, rfl⟩ ⟨rfl, rfl, rfl⟩
    refine { ht with session := { ht.session with table := ?_ } }
    exact congrArg (fun table => (f table).2) ht.table_eq

theorem matched_onTable (f : Table → α × Table) : Matched p (onTable f) (onTable f) :=
  (tandem_onTable f).ignore

theorem matched_onTable? (f : Table → Option (TypeId × Table)) :
    Matched p (onTable? f) (onTable? f) :=
  matched_onTable _

theorem matched_made (f : Table → TypeId × Table) :
    Matched p (do return some (← onTable f)) (do return some (← onTable f)) :=
  (matched_onTable f).bind fun _ _ _ => tandem_pure trivial

/-! ## Notes about the source at hand -/

/-- Work that changes neither the scopes nor what stays as it is. -/
theorem matched_modify {f f' : State → State}
    (h : p.Twins → ({ p with left := f p.left, right := f' p.right } : Both C).Twins)
    (harena : (f p.left).arena = p.left.arena) (hleft : p.left.Stays (f p.left))
    (hright : p.right.Stays (f' p.right)) :
    Matched p (modify f : Check Unit) (modify f' : Check Unit) :=
  tandem_of_run (run_modify f p.left) (run_modify f' p.right)
    (Both.Twins.after_left_right h harena hleft hright) fun _ => trivial

theorem matched_onSession {m m' : SessionM α} (h : Project.Matched C.exact m m') :
    Matched p (onSession m) (onSession m') := by
  intro ht
  obtain ⟨hresult, hsession⟩ := h _ _ ht.session
  refine .inr ⟨(m.run p.left.session).1, { p with
    left := { p.left with session := (m.run p.left.session).2 }
    right := { p.right with session := (m'.run p.right.session).2 } },
    run_onSession m p.left, ?_, ?_, fun _ _ => trivial⟩
  · rw [run_onSession, hresult]
  · exact Both.Twins.after_left_right (fun ht => { ht with session := hsession }) rfl
      ⟨rfl, rfl, rfl⟩ ⟨rfl, rfl, rfl⟩ ht

/-! ## Scopes -/

/-- The two states with other scopes. -/
def Both.withArenas (p : Both C) (world : Scope.World C.exact) (a a' : Arena) : Both C :=
  { world, left := { p.left with arena := a }, right := { p.right with arena := a' } }

theorem Both.Twins.after_withArenas {world : Scope.World C.exact} {a a' : Arena}
    (hworld : ∀ id : ScopeId, id.index < p.left.arena.size → world id = p.world id)
    (hon : p.left.arena.Onward C.narrowing a) (htwins : a.Twins C.SameReturn world a')
    (ht : p.Twins) : p.After (p.withArenas world a a') where
  before := ht
  twins := { ht with
    sound := hon.sound ht.sound
    inside := Nat.lt_of_lt_of_le ht.inside hon.size_le
    fresh := fun id hid => ht.fresh id (Nat.le_trans hon.size_le hid)
    arena := htwins }
  world := hworld
  arena := hon
  left := ⟨rfl, rfl, rfl⟩
  right := ⟨rfl, rfl, rfl⟩

/-- An operation on scopes that is the same in both runs. -/
theorem tandem_onArena {f f' : Arena → Except Scope.Error α × Arena} (hinfo : p.Twins →
    Arena.Twins.Runs C.SameReturn p.world (f p.left.arena) (f' p.right.arena))
    (hon : p.Twins → p.left.arena.Onward C.narrowing (f p.left.arena).2)
    (hQ : ∀ a, (f p.left.arena).1 = .ok a → p.Twins →
      Q a (p.withArenas p.world (f p.left.arena).2 (f' p.right.arena).2)) :
    Tandem p (onArena f) (onArena f') Q := by
  intro ht
  obtain ⟨hresult, htwins⟩ := hinfo ht
  refine .inr ⟨(f p.left.arena).1.mapError .scope,
    p.withArenas p.world (f p.left.arena).2 (f' p.right.arena).2, run_onArena f p.left, ?_,
    ht.after_withArenas (fun _ _ => rfl) (hon ht) htwins, fun a ha => hQ a ?_ ht⟩
  · rw [run_onArena, hresult]
    rfl
  · cases hrun : (f p.left.arena).1 with
    | error e =>
      rw [hrun] at ha
      cases ha
    | ok b =>
      rw [hrun] at ha
      cases ha
      rfl

theorem matched_onArena {f f' : Arena → Except Scope.Error α × Arena} (hinfo : p.Twins →
    Arena.Twins.Runs C.SameReturn p.world (f p.left.arena) (f' p.right.arena))
    (hon : p.Twins → p.left.arena.Onward C.narrowing (f p.left.arena).2) :
    Matched p (onArena f) (onArena f') :=
  tandem_onArena hinfo hon fun _ _ _ => trivial

end Verify

end HeaderCheck
