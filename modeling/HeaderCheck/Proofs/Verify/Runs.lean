import HeaderCheck.Proofs.Verify.Entered
import HeaderCheck.Proofs.Verify.Narrowing

/-!
# HeaderCheck.Proofs.Verify.Runs

A judgement about runs of the verifier, and its rules.

* `Runs S spared s m m' Q`: from a sound state `s` the work `m` ends in a sound state that keeps what
  `s` has, with a result for which `Q` holds, or with an expected error; and `m'`, the same work
  under watch, does just the same.
* `runs_bind` and the rules after it: one for each way to put work together, and one for each
  primitive.
* `State.At`: a node that may be visited, with enough fuel for it and for all bodies that may still
  be entered on the way.
* `Visits`: what the visitor of the parts of a node must do.
-/

namespace HeaderCheck.Verify

open HeaderCheck.Project (Alike Error Session SessionM)
open HeaderCheck.Report (Diagnostic Kind)
open HeaderCheck.Scope (Arena ScopeId)
open HeaderCheck.Script
open HeaderCheck.Types (Table TypeId)

variable {α β : Type}

/-! ## The judgement -/

/-- What is fixed while a source is verified, alone and under watch. -/
structure Setting where
  /-- The programs of the project are tidy. -/
  tidy : Prop
  /-- The source that is verified. -/
  source : Source
  /-- The sources that are being checked. -/
  compiling : List String
  /-- The work under watch does the same. -/
  agree : Prop
  /-- It need not do the same where something is reported. -/
  loose : Prop

/-- The state belongs to the verification at hand. -/
structure Setting.Within (S : Setting) (s : State) : Prop where
  source : s.source = S.source
  compiling : s.session.compiling = S.compiling

/-- The scopes that may get scopes for functions which they do not bind: one scope at most in tidy
programs. -/
def Setting.Spares (S : Setting) (spared : Option ScopeId) (id : ScopeId) : Prop :=
  S.tidy → spared = some id

/-- A run that reported something or failed. -/
def Marred : Except Error α × State → Prop
  | (.ok _, s) => s.diagnostics ≠ []
  | (.error _, _) => True

/-- What `Q` says of a result, and what is said of every error. -/
def Meets (tidy : Prop) (Q : α → State → Prop) : Except Error α → State → Prop
  | .ok a, s => Q a s
  | .error e, _ => e.Expected tidy

/-- How work that starts in `s` may end. -/
structure Ends (S : Setting) (spared : Option ScopeId) (s : State) (Q : α → State → Prop)
    (run : Except Error α × State) : Prop where
  sound : run.2.Sound S.tidy
  keeps : s.Keeps (S.Spares spared) run.2
  meets : Meets S.tidy Q run.1 run.2

def Runs (S : Setting) (spared : Option ScopeId) (s : State) (m m' : Check α)
    (Q : α → State → Prop) : Prop :=
  s.Sound S.tidy → S.Within s →
    (S.agree → m'.run s = m.run s ∨ S.loose ∧ Marred (m.run s)) ∧ Ends S spared s Q (m.run s)

variable {S : Setting} {spared : Option ScopeId} {s : State} {m m' : Check α}
  {P Q : α → State → Prop}

/-- A rule may use that the state is sound. -/
theorem Runs.of_sound (h : s.Sound S.tidy → Runs S spared s m m' Q) : Runs S spared s m m' Q :=
  fun hs => h hs hs

theorem Runs.mono (h : Runs S spared s m m' P)
    (hPQ : ∀ a s', s.Keeps (S.Spares spared) s' → s'.Sound S.tidy → P a s' → Q a s') :
    Runs S spared s m m' Q := by
  intro hs hc
  obtain ⟨hagree, hsound, hkeeps, hmeets⟩ := h hs hc
  refine ⟨hagree, hsound, hkeeps, ?_⟩
  cases hresult : (m.run s).1 with
  | error e =>
    rw [hresult] at hmeets
    exact hmeets
  | ok a =>
    rw [hresult] at hmeets
    exact hPQ a _ hkeeps hsound hmeets

theorem Runs.weaken (h : Runs S none s m m' Q) : Runs S spared s m m' Q := by
  intro hs hc
  obtain ⟨hagree, hsound, hkeeps, hmeets⟩ := h hs hc
  exact ⟨hagree, hsound, hkeeps.weaken (fun _ hid htidy => nomatch hid htidy), hmeets⟩

theorem runs_pure {a : α} (h : Q a s) : Runs S spared s (pure a) (pure a) Q :=
  fun hs _ => ⟨fun _ => .inl rfl, hs, .refl _ s, h⟩

theorem runs_throw {e : Error} (h : e.Expected S.tidy) :
    Runs S spared s (throw e : Check α) (throw e) Q :=
  fun hs _ => ⟨fun _ => .inl rfl, hs, .refl _ s, h⟩

theorem runs_get_bind {f f' : State → Check α} (h : Runs S spared s (f s) (f' s) Q) :
    Runs S spared s (get >>= f) (get >>= f') Q :=
  h

/-- What follows may spare another scope, if that one is new. -/
theorem runs_bind' {f f' : α → Check β} {spared' : Option ScopeId} {R : β → State → Prop}
    (h : Runs S spared s m m' P)
    (hnew : ∀ id, spared' = some id → spared = some id ∨ s.arena.size ≤ id.index)
    (hf : ∀ a s₁, s.Keeps (S.Spares spared) s₁ → s₁.Sound S.tidy → P a s₁ →
      Runs S spared' s₁ (f a) (f' a) R) :
    Runs S spared s (m >>= f) (m' >>= f') R := by
  intro hs hc
  obtain ⟨hagree, hs₁, hk, hmeets⟩ := h hs hc
  rcases hrun : m.run s with ⟨e | a, s₁⟩ <;> rw [hrun] at hagree hs₁ hk hmeets
  · rw [run_bind_error hrun]
    refine ⟨?_, hs₁, hk, hmeets⟩
    intro hS
    rcases hagree hS with heq | hmarred
    · exact .inl (run_bind_error heq f')
    · exact .inr ⟨hmarred.1, trivial⟩
  · obtain ⟨hagree', hs₂, hk', hmeets'⟩ :=
      hf a s₁ hk hs₁ hmeets hs₁
        ⟨hk.source.trans hc.source, hk.session.compiling.trans hc.compiling⟩
    rw [run_bind_ok hrun]
    refine ⟨?_, hs₂, hk.trans' hk' ?_, hmeets'⟩
    · intro hS
      rcases hagree hS with heq | ⟨hloose, hmarred⟩
      · rw [run_bind_ok heq]
        exact hagree' hS
      · -- once something is reported, it stays so
        refine .inr ⟨hloose, ?_⟩
        rcases hrun' : (f a).run s₁ with ⟨_ | b, s₂⟩ <;> rw [hrun'] at hk'
        · trivial
        · exact hk'.diagnostics_ne hmarred
    · intro id hid
      by_cases htidy : S.tidy
      · exact (hnew id (hid htidy)).imp_left fun hspared _ => hspared
      · exact .inl fun htidy' => absurd htidy' htidy

theorem runs_bind {f f' : α → Check β} {R : β → State → Prop} (h : Runs S spared s m m' P)
    (hf : ∀ a s₁, s.Keeps (S.Spares spared) s₁ → s₁.Sound S.tidy → P a s₁ →
      Runs S spared s₁ (f a) (f' a) R) :
    Runs S spared s (m >>= f) (m' >>= f') R :=
  runs_bind' h (fun _ hid => .inl hid) hf

/-- Work of whose result nothing need be known. -/
theorem runs_then {f f' : α → Check β} {R : β → State → Prop}
    (h : Runs S spared s m m' fun _ _ => True)
    (hf : ∀ a s₁, s.Keeps (S.Spares spared) s₁ → s₁.Sound S.tidy → Runs S spared s₁ (f a) (f' a) R) :
    Runs S spared s (m >>= f) (m' >>= f') R :=
  runs_bind h fun a s₁ hk hs₁ _ => hf a s₁ hk hs₁

theorem Runs.ignore (h : Runs S spared s m m' P) : Runs S spared s m m' fun _ _ => True :=
  h.mono fun _ _ _ _ _ => trivial

/-- Work whose run is known and quiet. -/
theorem runs_quiet {a : α} {s' : State} (hrun : m.run s = (.ok a, s')) (hq : s.Quiet s')
    (hQ : Q a s') : Runs S spared s m m Q := by
  intro hs _
  rw [hrun]
  exact ⟨fun _ => .inl rfl, hq.sound hs, hq.keeps _, hQ⟩

/-- Work that is known to be refused. -/
theorem runs_refused {e : Error} {s' : State} (hrun : m.run s = (.error e, s')) (hq : s.Quiet s')
    (he : e.Expected S.tidy) : Runs S spared s m m Q := by
  intro hs _
  rw [hrun]
  exact ⟨fun _ => .inl rfl, hq.sound hs, hq.keeps _, he⟩

/-! ## Work under another focus -/

theorem State.Keeps.withFocus {spared : ScopeId → Prop} {s s' : State} {focus : Focus}
    (h : ({ s with focus } : State).Keeps spared s') :
    s.Keeps spared { s' with focus := s.focus } :=
  ⟨rfl, h.source, h.fileScope, h.diagnostics, h.arena, h.entered, h.session⟩

theorem runs_withFocus {change : Focus → Focus} {s : State}
    (hscope : s.Sound S.tidy → (change s.focus).scope.index < s.arena.size)
    (h : Runs S spared { s with focus := change s.focus } m m' P)
    (hPQ : ∀ a s', s.Keeps (S.Spares spared) { s' with focus := s.focus } → P a s' →
      Q a { s' with focus := s.focus }) :
    Runs S spared s (withFocus change m) (withFocus change m') Q := by
  intro hs hc
  obtain ⟨hagree, hs', hk, hmeets⟩ := h (hs.withFocus (hscope hs)) ⟨hc.source, hc.compiling⟩
  rw [run_withFocus, run_withFocus]
  rcases hrun : m.run { s with focus := change s.focus } with ⟨e | a, s'⟩ <;>
    rw [hrun] at hagree hs' hk hmeets
  all_goals
    have hfocus : s.focus.scope.index < s'.arena.size :=
      Nat.lt_of_lt_of_le hs.focus hk.arena.size_le
  · refine ⟨?_, hs'.withFocus hfocus, hk.withFocus, hmeets⟩
    intro hS
    rcases hagree hS with heq | hmarred
    · exact .inl (by rw [heq])
    · exact .inr ⟨hmarred.1, trivial⟩
  · refine ⟨?_, hs'.withFocus hfocus, hk.withFocus, hPQ a s' hk.withFocus hmeets⟩
    intro hS
    rcases hagree hS with heq | hmarred
    · exact .inl (by rw [heq])
    · exact .inr hmarred

/-! ## Reports -/

/-- A missing result has been reported, in a program that is proper. -/
def Told (result : Option α) (s : State) : Prop :=
  s.source.program.Proper → result = none → s.diagnostics ≠ []

theorem Told.some {a : α} : Told (some a) s :=
  fun _ h => nomatch h

theorem Told.reported {result : Option α} (h : s.diagnostics ≠ []) : Told result s :=
  fun _ _ => h

theorem Told.keeps {spared : ScopeId → Prop} {result : Option α} {s' : State}
    (h : Told result s) (hk : s.Keeps spared s') :
    Told result s' := by
  intro hproper hnone
  rw [hk.source] at hproper
  exact hk.diagnostics_ne (h hproper hnone)

/-- A result that is missing as another one is. -/
theorem Told.none_of {spared : ScopeId → Prop} {result : Option α} {s' : State}
    (h : Told (none : Option β) s) (hk : s.Keeps spared s') : Told result s' := by
  intro hproper _
  rw [hk.source] at hproper
  exact hk.diagnostics_ne (h hproper rfl)

/-- Work on a result that may be missing; without it there is none of this work either. -/
theorem runs_bind_told {m m' : Check (Option α)} {f f' : Option α → Check (Option β)}
    (h : Runs S spared s m m' Told) (hnone : f none = pure none) (hnone' : f' none = pure none)
    (hf : ∀ a s₁, s.Keeps (S.Spares spared) s₁ → Runs S spared s₁ (f (some a)) (f' (some a)) Told) :
    Runs S spared s (m >>= f) (m' >>= f') Told := by
  refine runs_bind h fun result s₁ hk _ htold => ?_
  cases result with
  | none =>
    rw [hnone, hnone']
    exact runs_pure (htold.none_of (.refl (S.Spares spared) s₁))
  | some a => exact hf a s₁ hk

theorem quiet_record (s : State) (diagnostics : List Diagnostic) :
    s.Quiet { s with diagnostics := s.diagnostics ++ diagnostics } :=
  ⟨rfl, rfl, rfl, List.prefix_append _ _, .refl _, rfl, .refl _, fun _ hne hnil => absurd hnil hne⟩

theorem runs_record {diagnostics : List Diagnostic} {Q : Unit → State → Prop}
    (hQ : Q () { s with diagnostics := s.diagnostics ++ diagnostics }) :
    Runs S spared s (record diagnostics) (record diagnostics) Q :=
  runs_quiet rfl (quiet_record s diagnostics) hQ

theorem runs_report {kind : Kind} {span : Span} {fields : List (String × String)} :
    Runs S spared s (report kind span fields) (report kind span fields)
      fun _ s' => s'.diagnostics ≠ [] :=
  runs_quiet rfl (quiet_record s [s.diagnostic kind span fields]) (by simp)

/-- No result after a report. -/
theorem Runs.none {m m' : Check Unit} (h : Runs S spared s m m' fun _ s' => s'.diagnostics ≠ []) :
    Runs S spared s (do m; pure none) (do m'; pure none)
      fun (result : Option β) s' => Told result s' :=
  runs_bind h fun _ _ _ _ hd => runs_pure (.reported hd)

theorem runs_checkFits {span : Span} {expected actual : TypeId} :
    Runs S spared s (checkFits span expected actual) (checkFits span expected actual)
      fun fits s' => fits = false → s'.diagnostics ≠ [] := by
  rw [checkFits]
  refine runs_get_bind ?_
  cases s.mismatch? span expected actual with
  | none => exact runs_pure nofun
  | some diagnostic =>
    have hrecord : Runs S spared s (record [diagnostic]) (record [diagnostic])
        fun _ s' => s'.diagnostics ≠ [] := runs_record (by simp)
    exact runs_bind hrecord fun _ _ _ _ hd => runs_pure fun _ => hd

/-! ## Types -/

theorem quiet_withTable {table : Table} (h : s.table.Extends table) : s.Quiet (s.withTable table) :=
  ⟨rfl, rfl, rfl, List.prefix_refl _, .refl _, rfl, ⟨h, rfl, rfl, rfl⟩,
    fun _ hne hnil => absurd hnil hne⟩

theorem runs_onTable {f : Table → α × Table} (hgrow : ∀ t : Table, t.Extends (f t).2)
    (hQ : Q (f s.table).1 (s.withTable (f s.table).2)) :
    Runs S spared s (onTable f) (onTable f) Q :=
  runs_quiet (run_onTable f s) (quiet_withTable (hgrow s.table)) hQ

theorem runs_onTable? {f : Table → Option (TypeId × Table)} {Q : Option TypeId → State → Prop}
    (hgrow : ∀ {made}, f s.table = some made → s.table.Extends made.2)
    (hQ : ∀ result table, Q result (s.withTable table)) :
    Runs S spared s (onTable? f) (onTable? f) Q := by
  cases hf : f s.table with
  | none => exact runs_quiet (run_onTable?_none hf) (quiet_withTable (.refl _)) (hQ none s.table)
  | some made => exact runs_quiet (run_onTable?_some hf) (quiet_withTable (hgrow hf)) (hQ _ _)

/-- A new type is the result. -/
theorem runs_made {f : Table → TypeId × Table} (hgrow : ∀ t : Table, t.Extends (f t).2) :
    Runs S spared s (do return some (← onTable f)) (do return some (← onTable f)) Told :=
  runs_then (runs_onTable hgrow trivial) fun _ _ _ _ => runs_pure .some

/-! ## Scopes -/

theorem quiet_withArena {arena : Arena} (h : s.arena.Quiet arena) : s.Quiet { s with arena } :=
  ⟨rfl, rfl, rfl, List.prefix_refl _, h, rfl, .refl _, fun _ hne hnil => absurd hnil hne⟩

theorem runs_onArena {f : Arena → Except Scope.Error α × Arena} {a : α} {arena : Arena}
    (hrun : f s.arena = (.ok a, arena)) (hq : s.arena.Quiet arena) (hQ : Q a { s with arena }) :
    Runs S spared s (onArena f) (onArena f) Q :=
  runs_quiet (run_onArena_ok hrun) (quiet_withArena hq) hQ

/-- A refusal that leaves the scopes as they are. -/
theorem runs_onArena_error {f : Arena → Except Scope.Error α × Arena} {e : Scope.Error}
    (hrun : f s.arena = (.error e, s.arena)) (he : (Error.scope e).Expected S.tidy) :
    Runs S spared s (onArena f) (onArena f) Q :=
  runs_refused (run_onArena_error hrun) (quiet_withArena (.refl _)) he

/-- A name is bound in a file or a function. -/
theorem runs_addVar {id : ScopeId} {name : String} {type : TypeId} {Q : Unit → State → Prop}
    (hid : s.Sound S.tidy → ∃ scope, s.arena.scope? id = some scope ∧ scope.kind.isBranch = false)
    (hQ : ∀ arena, Q () { s with arena }) :
    Runs S spared s (onArena fun a => a.addVar id name type) (onArena fun a => a.addVar id name type)
      Q := by
  refine .of_sound fun hs => ?_
  obtain ⟨scope, hscope, hb⟩ := hid hs
  rcases s.arena.addVar_cases id name type with hrun | hrun
  · exact runs_onArena_error hrun trivial
  · exact runs_onArena hrun (Arena.quiet_bindVar hscope hb) (hQ _)

theorem runs_forceUpdateVar {id : ScopeId} {name : String} {type : TypeId}
    {Q : ScopeId → State → Prop} (hQ : ∀ holder arena, Q holder { s with arena }) :
    Runs S spared s (onArena fun a => a.forceUpdateVar id name type)
      (onArena fun a => a.forceUpdateVar id name type) Q := by
  refine .of_sound fun hs => ?_
  rcases s.arena.forceUpdateVar_cases id name type with hrun | ⟨holder, scope, hmem, hbound, hrun⟩
  · exact runs_onArena_error hrun trivial
  · have hscope := (hs.arena.ordered.mem_chain hmem).1
    have hb := hs.arena.not_branch_of_bound hscope hbound
    exact runs_onArena hrun (Arena.quiet_bindVar hscope hb) (hQ _ _)

theorem runs_restrict {name : String} {type : TypeId} {Q : Unit → State → Prop} {scope : Scope}
    (hscope : s.arena.scope? s.focus.scope = some scope)
    (hfree : scope.kind.isBranch ∨
      name ≠ Arena.thisName ∧ scope.restrictions.contains name = false)
    (hQ : ∀ arena, Q () { s with arena }) :
    Runs S spared s (onArena fun a => a.restrict s.focus.scope name type)
      (onArena fun a => a.restrict s.focus.scope name type) Q := by
  obtain ⟨arena, hrun⟩ := Arena.restrict_ok type hscope hfree
  exact runs_onArena hrun (Arena.quiet_restrict hrun) (hQ arena)

theorem runs_modifyFunction {id found : ScopeId} {change : Scope.FunctionInfo → Scope.FunctionInfo}
    {Q : Unit → State → Prop} (hf : s.arena.functionScope? id = some found)
    (hname : ∀ info, (change info).name = info.name) (hQ : ∀ arena, Q () { s with arena }) :
    Runs S spared s (onArena fun a => a.modifyFunction id change)
      (onArena fun a => a.modifyFunction id change) Q := by
  obtain ⟨arena, hrun, hq⟩ := Arena.quiet_modifyFunction hf hname
  exact runs_onArena hrun hq (hQ arena)

theorem State.Narrowed.quiet {arms : List ScopeId} {s s' : State} (h : s.Narrowed arms s')
    (hf : s.focus.scope.index < s.arena.size) : s.Quiet s' := by
  rw [h.others]
  exact ⟨rfl, rfl, rfl, List.prefix_refl _, .of_narrowed h.arena hf, rfl,
    ⟨h.table, rfl, rfl, rfl⟩, fun _ hne hnil => absurd hnil hne⟩

theorem runs_openBranch {Q : ScopeId → State → Prop}
    (hQ : ∀ branch s', s'.HasArm branch → s.Narrowed [] s' → Q branch s') :
    Runs S spared s openBranch openBranch Q := by
  refine .of_sound fun hs => ?_
  obtain ⟨branch, s', hrun, _, harm, hn⟩ := openBranch_run s
  exact runs_quiet hrun ((hn []).quiet hs.focus) (hQ branch s' harm (hn []))

theorem runs_narrow {test : Expr} {holds fails : ScopeId} {Q : Unit → State → Prop}
    (hh : s.HasArm holds) (hf : s.HasArm fails)
    (hQ : ∀ s', s.Narrowed [holds, fails] s' → Q () s') :
    Runs S spared s (narrow test holds fails) (narrow test holds fails) Q := by
  refine .of_sound fun hs => ?_
  obtain ⟨s', hrun, hn⟩ := narrow_run test holds fails hh hf
  exact runs_quiet hrun (hn.quiet hs.focus) (hQ s' hn)

/-! ## The session -/

theorem runs_onSession {m m' : SessionM α} (h : Alike S.tidy S.agree s.session m m') :
    Runs S spared s (onSession m) (onSession m') fun _ _ => True := by
  intro hs _
  have hquiet : s.Quiet { s with session := (m.run s.session).2 } :=
    ⟨rfl, rfl, rfl, List.prefix_refl _, .refl _, rfl, h.works.keeps,
      fun _ hne hnil => absurd hnil hne⟩
  rw [run_onSession, run_onSession]
  refine ⟨fun hS => .inl (by rw [h.same hS]), hquiet.sound hs, hquiet.keeps _, ?_⟩
  cases hresult : (m.run s.session).1 with
  | error e => exact h.works.failure e hresult
  | ok a => trivial

/-- What requires must do, alone and under watch. -/
def Requires (S : Setting) (require require' : (file request : String) → SessionM Required) : Prop :=
  ∀ file request (session : Session), session.compiling = S.compiling →
    Alike S.tidy S.agree session (require file request) (require' file request)

/-- The module that a node requires. -/
def request? : Node → Option String
  | .expr (.call (.identifier id) [.literal literal] _) =>
    if id.name = Call.requireName then literal.string? else none
  | _ => none

/-- The modules that the calls of a program require. -/
def requestsOf (program : Program) : List String :=
  (nodesOf program.body).filterMap request?

/-- What the requires of the source at hand must do, alone and under watch. -/
def OwnRequires (S : Setting) (require require' : (file request : String) → SessionM Required) : Prop :=
  ∀ request ∈ requestsOf S.source.program, ∀ session : Session, session.compiling = S.compiling →
    Alike S.tidy S.agree session (require S.source.path request) (require' S.source.path request)

theorem Requires.own {require require' : (file request : String) → SessionM Required}
    (h : Requires S require require') : OwnRequires S require require' :=
  fun request _ => h S.source.path request

/-! ## Nodes that may be visited -/

/-- The node stands in the body at hand, and `n` visits suffice for it and for all bodies that may
still be entered on the way. -/
def State.At (s : State) (n : Nat) (node : Node) : Prop :=
  (∃ body, s.HasBody s.owner body ∧ node ∈ ownNodesOf body) ∧ node.own + s.pending ≤ n

namespace State.At

variable {n : Nat} {node : Node}

theorem keeps {tidy : Prop} {spared : ScopeId → Prop} {s' : State} (h : s.At n node) (hs : s.Sound tidy)
    (hk : s.Keeps spared s') : s'.At n node := by
  obtain ⟨⟨body, hbody, hmem⟩, hle⟩ := h
  have hpending := hk.pending_le
  refine ⟨⟨body, ?_, hmem⟩, by omega⟩
  rw [hk.owner_eq hs.arena.ordered hs.focus]
  exact hk.hasBody hbody

theorem part {part : Node} (h : s.At (n + 1) node) (hp : part ∈ node.parts) : s.At n part := by
  obtain ⟨⟨body, hbody, hmem⟩, hle⟩ := h
  have hlt := Node.own_lt_of_mem_parts hp
  exact ⟨⟨body, hbody, mem_ownNodesOf_of_part hmem hp⟩, by omega⟩

theorem pending_le (h : s.At (n + 1) node) : s.pending ≤ n := by
  have hown := Node.own_eq node
  have hle := h.2
  omega

theorem succ (h : s.At n node) : s.At (n + 1) node :=
  ⟨h.1, Nat.le_succ_of_le h.2⟩

/-- The node is seen in the same way from a branch of the scope at hand. -/
theorem withFocus (h : s.At n node) {focus : Focus}
    (howner : s.arena.owner focus.scope = s.owner) : ({ s with focus } : State).At n node := by
  obtain ⟨⟨body, hbody, hmem⟩, hle⟩ := h
  refine ⟨⟨body, ?_, hmem⟩, hle⟩
  have hbody' : ({ s with focus } : State).HasBody s.owner body :=
    hbody.mono rfl rfl (List.Subset.refl _)
  rw [← howner] at hbody'
  exact hbody'

end State.At

/-- What the visitor of the parts of a node must do for nodes that `n` visits suffice for. -/
structure Visits (S : Setting) (n : Nat) (v v' : Visitor) : Prop where
  expr : ∀ {s e}, s.At n (.expr e) → Runs S none s (v.expr e) (v'.expr e) Told
  stmt : ∀ {s stmt}, s.At n (.stmt stmt) →
    Runs S (some s.owner) s (v.stmt stmt) (v'.stmt stmt) fun _ _ => True
  require : OwnRequires S v.require v'.require

end HeaderCheck.Verify
