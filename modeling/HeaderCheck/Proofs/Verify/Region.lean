import HeaderCheck.Proofs.Scope.Limits
import HeaderCheck.Proofs.Script.Mentions
import HeaderCheck.Proofs.Verify.Notes

/-!
# HeaderCheck.Proofs.Verify.Region

Work that keeps within limits while a source is verified.

* `Ground`: a program, what is agreed about the session, and the errors that are accepted. A scope may
  refuse a name only where the program or a global name gives a reason.
* `Region`: the names and the scopes that a piece of the program may deal with.
* `Confined R s m Q`: from a state that fits the region `R` the work `m` leaves the rest alone, and
  fails only as is accepted. One rule for each way to put work together and for each operation.
-/

namespace HeaderCheck.Verify

open HeaderCheck.Project (Error Session SessionM)
open HeaderCheck.Report (Diagnostic Kind)
open HeaderCheck.Scope (Arena FunctionInfo ScopeId Touched touched_bind touched_declare
  touched_forgetFunction touched_kind touched_restrict touched_typeFunction)
open HeaderCheck.Scope.Arena (Placed Quiet Touches)
open HeaderCheck.Script
open HeaderCheck.Types (Table TypeId)

variable {α β : Type}

/-! ## Regions -/

/-- A program with the errors that are accepted while it is verified. -/
structure Ground where
  program : Program
  /-- What holds of the session all the time. -/
  session : Session → Prop
  accepts : Error → Prop
  table : ∀ s table, session s → session { s with table }
  nested : ∀ name, program.Nests name → accepts (.scope (.missingFunction name))
  global : ∀ s name, session s → s.globals.identifiers.contains name →
    accepts (.scope (.missingIdentifier name))
  selfStarted : ∀ name, program.SelfStarts name → accepts (.scope (.duplicateIdentifier name))
  collided : program.Collides → ∀ name, accepts (.scope (.duplicateIdentifier name))
  other : ∀ e, namesRefused e = false → accepts e

/-- What a piece of a program may deal with. With a function it deals with what is in it. -/
structure Region (G : Ground) where
  names : String → Prop
  closed : G.program.Closed names
  isOpen : ScopeId → Prop
  /-- Whether the file or function at hand is open for new names, as it is for statements. -/
  inside : Prop

variable {G : Ground} {R R' : Region G}

/-- All names of the node belong to the region. -/
structure Region.Covers (R : Region G) (n : Node) : Prop where
  mem : n ∈ nodesOf G.program.body
  mentions : ∀ name ∈ n.mentions, R.names name

namespace Region.Covers

variable {n : Node}

theorem visited (h : R.Covers n) {part : Node} (hp : part ∈ n.visited) : R.Covers part where
  mem := mem_nodesOf_of_part h.mem (n.visited_subset hp)
  mentions := fun name hname => h.mentions name (Node.mentions_of_visited hp hname)

theorem body (h : R.Covers n) {s : Stmt} (hs : s ∈ n.body) : R.Covers (.stmt s) where
  mem := mem_nodesOf_of_body h.mem hs
  mentions := fun name hname => h.mentions name (Node.mentions_of_body hs hname)

theorem name (h : R.Covers n) {name : String} (hname : name ∈ n.names) : R.names name :=
  h.mentions name (n.names_subset_mentions hname)

/-- A declared function belongs to a region with its name. -/
theorem declared {f : Function} (hf : G.program.Declares f) (hname : R.names f.name) :
    R.Covers (.stmt (.function f)) :=
  ⟨hf.mem_nodesOf, R.closed f hf hname⟩

theorem identifier {id : Identifier} (h : R.Covers (.expr (.identifier id))) : R.names id.name :=
  h.name (List.mem_singleton_self _)

end Region.Covers

/-- The region of nodes alone: the names that they reach, and scopes that are opened for them. -/
def Region.reach (G : Ground) (nodes : List Node) (size : Nat) : Region G where
  names := fun name => ∃ n ∈ nodes, G.program.Reaches n name
  closed := Program.closed_reaches_any G.program nodes
  isOpen := fun id => size ≤ id.index
  inside := False

theorem Region.covers_reach {nodes : List Node} {n : Node} (hn : n ∈ nodes)
    (hmem : n ∈ nodesOf G.program.body) (size : Nat) : (Region.reach G nodes size).Covers n :=
  ⟨hmem, fun _ hname => ⟨n, hn, Program.reaches_of_mentions hname⟩⟩

/-! ## States -/

namespace State

/-- The state is one in which a piece of the program may be verified. -/
structure Fits (R : Region G) (s : State) : Prop where
  arena : s.arena.Placed G.program.Declares
  focus : s.focus.scope.index < s.arena.size
  fresh : ∀ id, s.arena.size ≤ id.index → R.isOpen id
  owner : R.inside → R.isOpen s.owner
  session : G.session s.session

/-- How work on the region leaves a state. -/
structure Leaves (R : Region G) (s s' : State) : Prop where
  focus : s'.focus = s.focus
  source : s'.source = s.source
  fileScope : s'.fileScope = s.fileScope
  globals : s'.session.globals = s.session.globals
  session : G.session s.session → G.session s'.session
  diagnostics : s.diagnostics <+: s'.diagnostics
  arena : s.arena.Touches R.names R.isOpen s'.arena
  placed : s.arena.Placed G.program.Declares → s'.arena.Placed G.program.Declares

variable {s s' s'' : State}

namespace Leaves

theorem refl (R : Region G) (s : State) : s.Leaves R s :=
  ⟨rfl, rfl, rfl, rfl, id, List.prefix_refl _, .refl _, id⟩

theorem trans (h : s.Leaves R s') (h' : s'.Leaves R s'') : s.Leaves R s'' :=
  ⟨h'.focus.trans h.focus, h'.source.trans h.source, h'.fileScope.trans h.fileScope,
    h'.globals.trans h.globals, h'.session ∘ h.session, h.diagnostics.trans h'.diagnostics,
    h.arena.trans h'.arena, h'.placed ∘ h.placed⟩

/-- A larger region may touch what a smaller one does, and more. -/
theorem weaken (h : s.Leaves R s') (hnames : ∀ name, R.names name → R'.names name)
    (hopen : ∀ id, id.index < s.arena.size → R.isOpen id → R'.isOpen id) : s.Leaves R' s' :=
  ⟨h.focus, h.source, h.fileScope, h.globals, h.session, h.diagnostics,
    h.arena.weaken hnames hopen, h.placed⟩

theorem owner_eq (h : s.Leaves R s') (hs : s.Fits R') : s'.owner = s.owner := by
  rw [State.owner, State.owner, h.focus, h.arena.owner_eq hs.arena.sound.ordered hs.focus]

theorem fits (h : s.Leaves R s') (hs : s.Fits R') : s'.Fits R' where
  arena := h.placed hs.arena
  focus := by
    rw [h.focus]
    exact Nat.lt_of_lt_of_le hs.focus h.arena.size_le
  fresh := fun id hid => hs.fresh id (Nat.le_trans h.arena.size_le hid)
  owner := by
    rw [h.owner_eq hs]
    exact hs.owner
  session := h.session hs.session

end Leaves

instance : Std.Refl (Leaves R) :=
  ⟨Leaves.refl R⟩

instance : IsTrans State (Leaves R) :=
  ⟨fun _ _ _ => Leaves.trans⟩

/-- The scope is that of a file or a function. -/
def Owns (s : State) (id : ScopeId) : Prop :=
  ∃ scope, s.arena.scope? id = some scope ∧ scope.kind.isBranch = false

theorem Leaves.owns (h : s.Leaves R s') {id : ScopeId} (hid : s.Owns id) : s'.Owns id := by
  obtain ⟨scope, hscope, hb⟩ := hid
  obtain ⟨scope', hscope', ht⟩ := h.arena id scope hscope
  exact ⟨scope', hscope', by rwa [ht.retained.kind.isBranch_eq]⟩

/-- What is seen from a scope of the state outside the region stays the same. -/
theorem Leaves.typeIn_eq (h : s.Leaves R s') (hs : s.Fits R') {id : ScopeId}
    (hid : id.index < s.arena.size) {name : String} (hname : ¬R.names name)
    (mode : Scope.LookupMode) : s'.typeIn id name mode = s.typeIn id name mode := by
  rw [State.typeIn, State.typeIn, h.globals]
  exact h.arena.getVar_eq hs.arena.sound.ordered hid hname _ mode

end State

/-! ## The judgement -/

variable {s : State} {m : Check α} {P Q : α → State → Prop}

def Confined (R : Region G) (s : State) (m : Check α) (Q : α → State → Prop) : Prop :=
  s.Fits R → Safe (State.Leaves R) G.accepts s m Q

/-- The work is confined whatever the state. -/
def Confines (R : Region G) (m : Check α) : Prop :=
  ∀ s, Confined R s m fun _ _ => True

/-! ## Work put together -/

theorem Confined.mono (h : Confined R s m P) (hPQ : ∀ a s', s.Leaves R s' → P a s' → Q a s') :
    Confined R s m Q :=
  fun hs => (h hs).mono hPQ

theorem Confined.ignore (h : Confined R s m P) : Confined R s m fun _ _ => True :=
  fun hs => (h hs).ignore

/-- Work on a smaller region is work on a larger one. -/
theorem Confined.weaken (h : Confined R' s m P) (hfits : s.Fits R → s.Fits R')
    (hnames : ∀ name, R'.names name → R.names name)
    (hopen : ∀ id, id.index < s.arena.size → R'.isOpen id → R.isOpen id) : Confined R s m P :=
  fun hs => (h (hfits hs)).weaken (fun _ hl => hl.weaken hnames hopen) fun _ he => he

/-- Work for nodes of a region, which leaves alone what they do not reach. -/
theorem Confined.reached {nodes : List Node} (hcovers : ∀ n ∈ nodes, R.Covers n)
    (h : Confined (.reach G nodes s.arena.size) s m P) :
    Confined R s m fun a s' => s.Leaves (.reach G nodes s.arena.size) s' ∧ P a s' := by
  have hnames : ∀ name, (Region.reach G nodes s.arena.size).names name → R.names name := by
    rintro name ⟨n, hn, hreach⟩
    exact R.closed.of_reaches (hcovers n hn).mentions hreach
  have hkept : Confined (.reach G nodes s.arena.size) s m fun a s' =>
      s.Leaves (.reach G nodes s.arena.size) s' ∧ P a s' :=
    h.mono fun _ _ hl hP => ⟨hl, hP⟩
  refine hkept.weaken (fun hs => ?_) hnames fun id hlt hle => absurd hlt (Nat.not_lt.mpr hle)
  exact ⟨hs.arena, hs.focus, fun _ hid => hid, False.elim, hs.session⟩

theorem confined_pure {a : α} (hQ : Q a s) : Confined R s (pure a) Q :=
  fun _ => .pure hQ

theorem confined_throw {e : Error} (he : namesRefused e = false) : Confined R s (throw e) Q :=
  fun _ => .throw (G.other e he)

theorem confined_get_bind {f : State → Check α} (h : Confined R s (f s) Q) :
    Confined R s (get >>= f) Q :=
  fun hs => (h hs).get_bind

theorem confined_bind {f : α → Check β} {Q : β → State → Prop} (h : Confined R s m P)
    (hf : ∀ a s', s.Fits R → s.Leaves R s' → P a s' → Confined R s' (f a) Q) :
    Confined R s (m >>= f) Q :=
  fun hs => (h hs).bind fun a s' hl hP => hf a s' hs hl hP (hl.fits hs)

theorem confines_pure (a : α) : Confines R (pure a) :=
  fun _ => confined_pure trivial

theorem confines_throw {e : Error} (he : namesRefused e = false) :
    Confines R (throw e : Check α) :=
  fun _ => confined_throw he

theorem confines_get_bind {f : State → Check α} (h : ∀ s, Confines R (f s)) :
    Confines R (get >>= f) :=
  fun s => confined_get_bind (h s s)

theorem confines_bind {f : α → Check β} (h : Confines R m) (hf : ∀ a, Confines R (f a)) :
    Confines R (m >>= f) :=
  fun s => confined_bind (h s) fun a s' _ _ _ => hf a s'

theorem confines_then_unit (h : Confines R m) : Confines R (do let _ ← m) :=
  confines_bind h fun _ => confines_pure _

/-- No result after a report. -/
theorem confines_none {m : Check Unit} (h : Confines R m) :
    Confines R (do m; pure none : Check (Option α)) :=
  confines_bind h fun _ => confines_pure none

/-! ## Work under another focus -/

theorem State.Leaves.withFocus {s s' : State} {focus : Focus}
    (h : ({ s with focus } : State).Leaves R s') : s.Leaves R { s' with focus := s.focus } :=
  ⟨rfl, h.source, h.fileScope, h.globals, h.session, h.diagnostics, h.arena, h.placed⟩

theorem State.Fits.withFocus {s : State} (h : s.Fits R) {focus : Focus}
    (hscope : focus.scope = s.focus.scope) : ({ s with focus } : State).Fits R := by
  refine ⟨h.arena, ?_, h.fresh, ?_, h.session⟩
  · rw [hscope]
    exact h.focus
  · rw [State.owner, hscope]
    exact h.owner

theorem confined_withFocus {L : Region G} {change : Focus → Focus}
    (hfits : s.Fits R → ({ s with focus := change s.focus } : State).Fits L)
    (hnames : ∀ name, L.names name → R.names name)
    (hopen : ∀ id, id.index < s.arena.size → L.isOpen id → R.isOpen id)
    (h : Confined L { s with focus := change s.focus } m P)
    (hPQ : ∀ a s', ({ s with focus := change s.focus } : State).Leaves L s' → P a s' →
      Q a { s' with focus := s.focus }) :
    Confined R s (withFocus change m) Q := by
  intro hs
  obtain ⟨hl, hP, hE⟩ := h (hfits hs)
  rcases hrun : m.run { s with focus := change s.focus } with ⟨e | a, s'⟩ <;> rw [hrun] at hl hP hE
  · have hfailed : (withFocus change m).run s = (.error e, { s' with focus := s.focus }) := by
      rw [run_withFocus, hrun]
    exact .of_error hfailed (hl.withFocus.weaken hnames hopen) (hE e rfl)
  · have hdone : (withFocus change m).run s = (.ok a, { s' with focus := s.focus }) := by
      rw [run_withFocus, hrun]
    exact .of_ok hdone (hl.withFocus.weaken hnames hopen) (hPQ a s' hl (hP a rfl))

/-- Work for a node of the same scope. -/
theorem confines_withFocus {change : Focus → Focus}
    (hscope : ∀ focus, (change focus).scope = focus.scope) (h : Confines R m) :
    Confines R (withFocus change m) :=
  fun s => confined_withFocus (fun hs => hs.withFocus (hscope s.focus)) (fun _ h => h)
    (fun _ _ h => h) (h _) fun _ _ _ _ => trivial

theorem confines_expecting {expected : Option TypeId} (h : Confines R m) :
    Confines R (expecting expected m) :=
  confines_withFocus (fun _ => rfl) h

theorem confines_asRead (h : Confines R m) : Confines R (asRead m) :=
  confines_withFocus (fun _ => rfl) h

theorem confines_asTarget (h : Confines R m) : Confines R (asTarget m) :=
  confines_withFocus (fun _ => rfl) h

/-! ## Primitives that leave scopes alone -/

theorem confined_same {a : α} {s' : State} (hrun : m.run s = (.ok a, s'))
    (hfocus : s'.focus = s.focus) (hsource : s'.source = s.source)
    (hfile : s'.fileScope = s.fileScope) (hsession : s'.session = s.session)
    (hdiagnostics : s'.diagnostics = s.diagnostics) (harena : s'.arena = s.arena) (hQ : Q a s') :
    Confined R s m Q :=
  fun _ => .of_ok hrun ⟨hfocus, hsource, hfile, congrArg _ hsession, fun h => hsession ▸ h,
    hdiagnostics ▸ List.prefix_refl _, harena ▸ .refl _, fun h => harena ▸ h⟩ hQ

/-- Work that only takes notes. -/
theorem Notes.confined (h : Notes m) : Confined R s m fun _ s' => s'.arena = s.arena := by
  obtain ⟨⟨table, diagnostics, hsame⟩, hfailure⟩ := h s
  refine fun _ => ⟨?_, fun _ _ => by rw [hsame]; rfl, fun e he => G.other e (hfailure e he)⟩
  rw [hsame]
  exact ⟨rfl, rfl, rfl, rfl, G.table _ _, List.prefix_append _ _, .refl _, id⟩

theorem Notes.confines (h : Notes m) : Confines R m :=
  fun _ => h.confined.ignore

/-- How work may change a session of which `P` holds all the time. -/
def Leads (P : Session → Prop) (s s' : Session) : Prop :=
  s'.globals = s.globals ∧ (P s → P s')

instance {P : Session → Prop} : Std.Refl (Leads P) :=
  ⟨fun _ => ⟨rfl, id⟩⟩

instance {P : Session → Prop} : IsTrans Session (Leads P) :=
  ⟨fun _ _ _ h h' => ⟨h'.1.trans h.1, h'.2 ∘ h.2⟩⟩

theorem confined_onSession {m : SessionM α} {Q : α → Prop}
    (h : G.session s.session → Safe (Leads G.session) G.accepts s.session m fun a _ => Q a) :
    Confined R s (onSession m) fun a s' => s'.arena = s.arena ∧ Q a := by
  intro hs
  obtain ⟨⟨hglobals, hsession⟩, hQ, hE⟩ := h hs.session
  exact ⟨⟨rfl, rfl, rfl, hglobals, hsession, List.prefix_refl _, .refl _, id⟩,
    fun a ha => ⟨rfl, hQ a ha⟩, hE⟩

/-! ## Operations on scopes -/

section Operations

variable {f : Arena → Except Scope.Error α × Arena} {a : α} {arena : Arena}

/-- An operation that is carried out. -/
theorem confined_onArena (hrun : f s.arena = (.ok a, arena))
    (htouch : s.Fits R → s.arena.Touches R.names R.isOpen arena)
    (hplaced : s.Fits R → arena.Placed G.program.Declares) (hQ : s.Fits R → Q a { s with arena }) :
    Confined R s (onArena f) Q :=
  fun hs => .of_ok (run_onArena_ok hrun)
    ⟨rfl, rfl, rfl, rfl, id, List.prefix_refl _, htouch hs, fun _ => hplaced hs⟩ (hQ hs)

/-- An operation that is refused, with what it leaves behind. -/
theorem confined_refusal {e : Scope.Error} (hrun : f s.arena = (.error e, arena))
    (htouch : s.Fits R → s.arena.Touches R.names R.isOpen arena)
    (hplaced : s.Fits R → arena.Placed G.program.Declares)
    (hE : s.Fits R → G.accepts (.scope e)) : Confined R s (onArena f) Q :=
  fun hs => .of_error (run_onArena_error hrun)
    ⟨rfl, rfl, rfl, rfl, id, List.prefix_refl _, htouch hs, fun _ => hplaced hs⟩ (hE hs)

/-- An operation that is refused without a change. -/
theorem confined_refused {e : Scope.Error} (hrun : f s.arena = (.error e, s.arena))
    (hE : s.Fits R → G.accepts (.scope e)) : Confined R s (onArena f) Q :=
  confined_refusal hrun (fun _ => .refl _) (fun hs => hs.arena) hE

/-- An operation after which nothing new is known about functions. -/
theorem confined_quiet (hrun : f s.arena = (.ok a, arena))
    (htouch : s.Fits R → s.arena.Touches R.names R.isOpen arena)
    (hquiet : s.Fits R → s.arena.Quiet arena) (hQ : s.Fits R → Q a { s with arena }) :
    Confined R s (onArena f) Q :=
  confined_onArena hrun htouch (fun hs => hs.arena.of_quiet (hquiet hs)) hQ

end Operations

theorem confines_openBranch : Confines R openBranch := by
  intro s hs
  have hq : s.arena.Quiet (s.arena.pushBranch s.focus.scope).2 :=
    .of_narrowed (.pushBranch s.focus.scope [] s.arena) hs.focus
  exact .of_ok (run_openBranch s)
    ⟨rfl, rfl, rfl, rfl, id, List.prefix_refl _, .push _ _, fun h => h.of_quiet hq⟩ trivial

section Names

variable {id : ScopeId} {name : String} {type : TypeId}

/-- A name is bound in a file or a function that is open for it. -/
theorem confined_addVar {Q : Unit → State → Prop} (hname : R.names name)
    (hopen : s.Fits R → R.isOpen id)
    (hid : s.Fits R → ∃ scope, s.arena.scope? id = some scope ∧ scope.kind.isBranch = false)
    (hE : s.Fits R → s.arena.hasOwnVar id name → G.accepts (.scope (.duplicateIdentifier name)))
    (hQ : s.Fits R → s.arena.hasOwnVar id name = false →
      Q () { s with arena := s.arena.bindVar id name type }) :
    Confined R s (onArena fun a => a.addVar id name type) Q := by
  cases hown : s.arena.hasOwnVar id name with
  | true => exact confined_refused (by simp [Arena.addVar, hown]) fun hs => hE hs hown
  | false =>
    have hrun : s.arena.addVar id name type = (.ok (), s.arena.bindVar id name type) := by
      simp [Arena.addVar, hown]
    refine confined_quiet hrun ?_ ?_ fun hs => hQ hs hown
    · exact fun hs => .modify fun _ _ => touched_bind hname (.inl (hopen hs)) type
    · intro hs
      obtain ⟨scope, hscope, hb⟩ := hid hs
      exact Arena.quiet_bindVar hscope hb

/-- The scope is a file or a function in which all of the names can be bound, one after another,
unless it is accepted that they cannot. -/
structure Ground.Takes (G : Ground) (a : Arena) (id : ScopeId) (names : List String) : Prop where
  scope : ∃ scope, a.scope? id = some scope ∧ scope.kind.isBranch = false
  free : (∀ name, G.accepts (.scope (.duplicateIdentifier name))) ∨
    names.Nodup ∧ ∀ name ∈ names, a.hasOwnVar id name = false

/-- The first of several names is bound, and the others still can be. -/
theorem confined_bindNext {rest : List String} (hname : R.names name) (hopen : R.isOpen id)
    (h : G.Takes s.arena id (name :: rest)) :
    Confined R s (onArena fun a => a.addVar id name type) fun _ s' =>
      G.Takes s'.arena id rest ∧
        ∀ other, s'.arena.hasOwnVar id other → other = name ∨ s.arena.hasOwnVar id other := by
  obtain ⟨⟨scope, hscope, hb⟩, hfree⟩ := h
  refine confined_addVar hname (fun _ => hopen) (fun _ => ⟨scope, hscope, hb⟩) ?_ ?_
  · intro _ hown
    rcases hfree with haccepts | ⟨_, hfree⟩
    · exact haccepts name
    · rw [hfree name List.mem_cons_self] at hown
      cases hown
  · intro _ _
    have hbound : (s.arena.bindVar id name type).scope? id =
        some { scope with identifiers := scope.identifiers.insert name type } := by
      rw [Arena.bindVar, Arena.scope?_modify, if_pos rfl, hscope]
      rfl
    have hsame {other : String} (hne : name ≠ other) :
        (s.arena.bindVar id name type).hasOwnVar id other = s.arena.hasOwnVar id other := by
      simp [Arena.hasOwnVar, hbound, hscope, Dict.contains, hne]
    have hrest : (∀ name, G.accepts (.scope (.duplicateIdentifier name))) ∨ rest.Nodup ∧
        ∀ other ∈ rest, (s.arena.bindVar id name type).hasOwnVar id other = false := by
      refine hfree.imp_right fun hfresh => ?_
      obtain ⟨hnodup, hfree⟩ := hfresh
      obtain ⟨hfresh, hrest⟩ := List.nodup_cons.mp hnodup
      refine ⟨hrest, fun other hmem => ?_⟩
      have hne : name ≠ other := by
        rintro rfl
        exact hfresh hmem
      rw [hsame hne]
      exact hfree other (List.mem_cons_of_mem _ hmem)
    refine ⟨⟨⟨_, hbound, hb⟩, hrest⟩, fun other hother => ?_⟩
    by_cases heq : name = other
    · exact .inl heq.symm
    · rw [hsame heq] at hother
      exact .inr hother

/-- The type of a name changes where the name is bound. -/
theorem confined_forceUpdateVar {Q : ScopeId → State → Prop} (hname : R.names name)
    (hE : s.Fits R → (∀ x ∈ s.arena.chain id, x.2.identifiers.contains name = false) →
      G.accepts (.scope (.missingIdentifier name)))
    (hQ : ∀ holder scope, (s.arena.chain id).find? (fun x => x.2.identifiers.contains name) =
      some (holder, scope) → Q holder { s with arena := s.arena.bindVar holder name type }) :
    Confined R s (onArena fun a => a.forceUpdateVar id name type) Q := by
  cases hfind : (s.arena.chain id).find? fun x => x.2.identifiers.contains name with
  | none =>
    refine confined_refused (by simp [Arena.forceUpdateVar, hfind]) fun hs => hE hs fun x hx => ?_
    simpa using List.find?_eq_none.mp hfind x hx
  | some x =>
    obtain ⟨holder, scope⟩ := x
    have hmem := List.mem_of_find?_eq_some hfind
    have hbound : scope.identifiers.contains name := by simpa using List.find?_some hfind
    have hscope : s.arena.scope? holder = some scope := Arena.scope?_of_mem_chainWithin hmem
    have hrun : s.arena.forceUpdateVar id name type =
        (.ok holder, s.arena.bindVar holder name type) := by
      simp [Arena.forceUpdateVar, hfind]
    refine confined_quiet hrun ?_ ?_ fun _ => hQ holder scope hfind
    · intro _
      refine .modify fun found hfound => ?_
      rw [hscope] at hfound
      cases hfound
      exact touched_bind hname (.inr hbound) type
    · exact fun hs =>
        Arena.quiet_bindVar hscope (hs.arena.sound.not_branch_of_bound hscope hbound)

theorem restrict_cases {names : String → Prop} (hname : names name) (isOpen : ScopeId → Prop)
    (a : Arena) (id : ScopeId) (type : TypeId) :
    (∃ e, namesRefused (.scope e) = false ∧ a.restrict id name type = (.error e, a)) ∨
      ∃ b, a.restrict id name type = (.ok (), b) ∧ a.Touches names isOpen b := by
  have hnarrow : a.Touches names isOpen (a.modify id fun scope =>
      { scope with restrictions := scope.restrictions.insert name type }) :=
    .modify fun scope _ => touched_restrict hname scope type
  unfold Arena.restrict
  split
  · exact .inr ⟨a, rfl, .refl a⟩
  next scope hscope =>
  simp only
  split
  · next this hkind =>
    split
    · refine .inr ⟨_, rfl, .modify fun found hfound => touched_kind ?_⟩
      rw [hscope] at hfound
      cases hfound
      rw [hkind]
      trivial
    · exact .inr ⟨_, rfl, hnarrow⟩
  · split
    · exact .inl ⟨_, rfl, rfl⟩
    split
    · exact .inl ⟨_, rfl, rfl⟩
    · exact .inr ⟨_, rfl, hnarrow⟩

theorem confines_restrict (hname : R.names name) :
    Confines R (onArena fun a => a.restrict id name type) := by
  intro s
  rcases restrict_cases hname R.isOpen s.arena id type with ⟨e, he, hrun⟩ | ⟨b, hrun, htouch⟩
  · exact confined_refused hrun fun _ => G.other _ he
  · exact confined_quiet hrun (fun _ => htouch) (fun _ => Arena.quiet_restrict hrun) fun _ => trivial

end Names

theorem confines_modifyFunction {id : ScopeId} {change : FunctionInfo → FunctionInfo}
    (hkeeps : ∀ info, (change info).name = info.name) :
    Confines R (onArena fun a => a.modifyFunction id change) := by
  intro s
  cases hfound : s.arena.functionScope? id with
  | none =>
    refine confined_refused (e := .notInFunction id.index) ?_ fun _ => G.other _ rfl
    simp [Arena.modifyFunction, hfound]
  | some found =>
    obtain ⟨b, hrun, hq⟩ := Arena.quiet_modifyFunction hfound hkeeps
    refine confined_quiet hrun ?_ (fun _ => hq) fun _ => trivial
    have hb : (s.arena.modifyFunction id change).2 = b := by rw [hrun]
    rw [← hb, Arena.modifyFunction, hfound]
    refine fun _ => .modify fun scope _ => ?_
    cases hkind : scope.kind with
    | function info =>
      refine touched_kind ?_
      rw [hkind]
      exact hkeeps info
    | file prototypes => exact .refl scope
    | branch this => exact .refl scope

theorem confines_addKnownField {id : ScopeId} {field : String} :
    Confines R (onArena fun a => a.addKnownField id field) := by
  refine confines_modifyFunction fun info => ?_
  split <;> rfl

theorem confines_addPrototypeField {id : ScopeId} {constructor field : String} {type : TypeId} :
    Confines R (onArena fun a => a.addPrototypeField id constructor field type) := by
  intro s
  by_cases hfile : ∃ scope prototypes, s.arena.scope? id = some scope ∧ scope.kind = .file prototypes
  · obtain ⟨scope, prototypes, hscope, hkind⟩ := hfile
    obtain ⟨b, hrun, hq⟩ := Arena.quiet_addPrototypeField hscope hkind constructor field type
    refine confined_quiet hrun ?_ (fun _ => hq) fun _ => trivial
    obtain ⟨parent, kind, identifiers, restrictions, untyped, functions⟩ := scope
    subst hkind
    have hb : (s.arena.addPrototypeField id constructor field type).2 = b := by rw [hrun]
    simp only [← hb, Arena.addPrototypeField, hscope]
    refine fun _ => .modify fun found hfound => touched_kind ?_
    rw [hscope] at hfound
    cases hfound
    trivial
  · refine confined_refused (e := .prototypeOutsideFile) ?_ fun _ => G.other _ rfl
    unfold Arena.addPrototypeField
    split
    · next hscope => exact absurd ⟨_, _, hscope, rfl⟩ hfile
    · rfl

end HeaderCheck.Verify
