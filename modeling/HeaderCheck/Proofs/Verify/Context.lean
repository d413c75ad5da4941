import HeaderCheck.Proofs.Verify.Tandem.Statements

/-!
# HeaderCheck.Proofs.Verify.Context

What the context of an expression has to do with its verification.

The context is the type of the slot that a value goes to and, inside a return statement, the result
of the function around. Function expressions and first calls of functions take their types from it.

* `Part`: the operand of an operator, or the object of an access.
* `guarded`: the visitor that gives up where a type would be taken from the context in question.
* `part_context_free`: where it does not give up, a part is verified alike in all contexts.
-/

namespace HeaderCheck.Verify

open HeaderCheck.Project (Error Session SessionM)
open HeaderCheck.Scope (Arena ScopeId World)
open HeaderCheck.Script
open HeaderCheck.Types (TypeId)

/-! ## Contexts -/

namespace State

/-- The state where the value at hand goes to a slot of type `expected`, and where a return statement
of result `returning` is under way in the function around. -/
def inContext (s : State) (expected returning : Option TypeId) : State :=
  { s with
    focus := { s.focus with expected }
    arena := (s.arena.modifyFunction s.focus.scope fun info =>
      { info with returnExpressionType := returning }).2 }

/-- The function around the node at hand; `none` outside of functions. -/
def around (s : State) : Option ScopeId :=
  s.arena.functionScope? s.focus.scope

/-- The types of the names of a scope. -/
def bindings (s : State) (id : ScopeId) : Dict TypeId :=
  ((s.arena.scope? id).map fun scope => scope.identifiers).getD {}

end State

/-- A part of an expression that does not go to the slot of the whole. -/
inductive Part where
  /-- An operand of an operator. -/
  | operand
  /-- The object of an access. -/
  | object
deriving DecidableEq, Repr

/-- The visit of a part. -/
def Part.visit (v : Visitor) : Part → Expr → Check (Option TypeId)
  | .operand, e => v.value e
  | .object, e => asRead (v.expr e)

/-- Whether an expression is verified outside of slots in one of the functions `watched` and takes its
type from the context there. -/
def takesContext (watched : Option ScopeId → Bool) (s : State) (e : Expr) : Bool :=
  asksContext s e && s.focus.expected.isNone && watched s.around

/-- The visitor that gives up where a type would be taken from the context in a function `watched`. -/
def guarded (watched : Option ScopeId → Bool)
    (require : (file request : String) → SessionM Required) : (fuel : Nat) → Visitor
  | 0 => { expr := fun _ => throw .outOfFuel, stmt := fun _ => throw .outOfFuel, require }
  | fuel + 1 =>
    { expr := fun e => do
        if takesContext watched (← get) e then throw .outOfFuel
        else verifyExpr (guarded watched require fuel) e
      stmt := fun stmt => verifyStmt (guarded watched require fuel) stmt
      require }

/-- The work comes to an end without giving up. -/
def Finishes {α : Type} (m : Check α) (s : State) : Prop :=
  (m.run s).1 ≠ .error .outOfFuel

/-! ## Two runs in two contexts -/

/-- Nothing differs but the context in the functions `watched`. -/
def Comparison.contexts (watched : Option ScopeId → Bool) : Comparison where
  exact := True
  watched
  narrowing := fun _ => True

variable {watched : Option ScopeId → Bool}

theorem tandem_guarded (require : (file request : String) → SessionM Required)
    (fuel : Nat) : (guarded watched require fuel).Tandem (.contexts watched) (visitor require fuel) := by
  have hrequire (file request : String) := Project.matched_self (require file request)
  induction fuel with
  | zero => exact ⟨fun _ _ _ => tandem_throw _, fun _ _ _ => tandem_throw _, hrequire⟩
  | succ fuel ih =>
    refine ⟨fun {p _ e _} hp hlike hslot => ?_, fun hp hlike heven => ?_, hrequire⟩
    · refine tandem_get_bind_left ?_
      split
      · next htakes =>
        simp only [takesContext, Bool.and_eq_true] at htakes
        exact tandem_pardoned htakes.2
      · next htakes =>
        refine matched_verifyExpr ih hp hlike hslot fun hasks => ?_
        -- what asks for the context has a slot of its own, or stands in no function in question
        have hgiven : p.left.focus.expected = none → p.Watched = false := by
          intro hnone
          change watched p.left.around = false
          simpa [takesContext, hasks, hnone] using htakes
        refine ⟨hslot.resolve_right fun ⟨_, hnone, hwatched⟩ => ?_, hgiven⟩
        rw [hgiven hnone] at hwatched
        cases hwatched
    · exact matched_verifyStmt ih hp heven hlike

/-! ## One state in two contexts -/

variable {s : State}

/-- Every scope is a twin of itself, each key belonging to itself. -/
theorem twins_self {exact : Prop} (same : ScopeId → Prop) (a : Arena) :
    a.Twins same (fun _ => Pairing.same exact) a := by
  intro id
  cases a.scope? id with
  | none => exact .none
  | some scope =>
    refine .some ⟨rfl, ?_, rfl, rfl, ?_, ?_⟩
    · cases scope.kind with
      | file prototypes => exact .file prototypes
      | function info => exact .function ⟨rfl, rfl, rfl, rfl, rfl, rfl, fun _ => rfl, fun _ => rfl, fun _ => rfl⟩
      | branch this => exact .branch this
    · exact List.forall₂_same.mpr fun _ _ => ⟨rfl, rfl, ⟨_, Function.Like.refl exact _⟩, rfl⟩
    · exact List.forall₂_same.mpr fun _ _ => ⟨rfl, rfl⟩

theorem inContext_onward (s : State) (expected returning : Option TypeId) :
    s.arena.Onward (fun _ => True) (s.inContext expected returning).arena :=
  Arena.onward_modifyFunction _ fun _ => rfl

theorem around_inContext (hs : s.arena.Sound) (hinside : s.focus.scope.index < s.arena.size)
    (expected returning : Option TypeId) : (s.inContext expected returning).around = s.around :=
  (inContext_onward s expected returning).keeps.functionScope?_eq hs.ordered hinside

/-- One state in two contexts. Return statements of other results may be under way in functions that
are watched only. -/
def Both.contexts (watched : Option ScopeId → Bool) (s : State)
    (expected returning expected' returning' : Option TypeId) : Both (.contexts watched) where
  world := fun _ => Pairing.same True
  left := s.inContext expected returning
  right := s.inContext expected' returning'

theorem twins_contexts (hs : s.arena.Sound) (hinside : s.focus.scope.index < s.arena.size)
    (expected expected' : Option TypeId) {returning returning' : Option TypeId}
    (h : returning' = returning ∨ watched s.around) :
    (Both.contexts watched s expected returning expected' returning').Twins where
  sound := (inContext_onward s expected returning).sound hs
  inside := Nat.lt_of_lt_of_le hinside (inContext_onward s expected returning).size_le
  fresh := fun _ _ => trivial
  session := .refl True _
  path := rfl
  source := fun _ => rfl
  arena := by
    have hruns : Arena.Twins.Runs (Comparison.contexts watched).SameReturn (fun _ => Pairing.same True)
        (s.arena.modifyFunction s.focus.scope fun info =>
          { info with returnExpressionType := returning })
        (s.arena.modifyFunction s.focus.scope fun info =>
          { info with returnExpressionType := returning' }) := by
      refine (twins_self _ s.arena).modifyFunction s.focus.scope fun found info info' hfound hinfo =>
        { hinfo with returnExpressionType := fun hsame => ?_ }
      refine h.resolve_right fun hwatched => ?_
      rw [State.around, hfound] at hwatched
      change watched (some found) = false at hsame
      rw [hsame] at hwatched
      cases hwatched
    exact hruns.twins
  fileScope := rfl
  scope := rfl
  mode := rfl
  isTarget := rfl
  diagnostics := List.forall₂_same.mpr fun _ _ => ⟨rfl, fun _ => rfl⟩
  exports := rfl
  unknown := rfl
  dependencies := rfl

/-! ## Parts of expressions -/

/-- Two runs end with the same result, the same diagnostics and the same types of names. -/
structure SameOutcome {α : Type} (run run' : Except Error α × State) : Prop where
  result : run'.1 = run.1
  diagnostics : run'.2.diagnostics = run.2.diagnostics
  bindings : ∀ id, run'.2.bindings id = run.2.bindings id
  session : run'.2.session = run.2.session

theorem SameOutcome.of_matched {α : Type} {p : Both (.contexts watched)} {m m' : Check α}
    (h : Matched p m m') (ht : p.Twins)
    (hpardons : ¬(Comparison.contexts watched).Pardons p.left (m.run p.left)) :
    SameOutcome (m.run p.left) (m'.run p.right) := by
  obtain ⟨result, q, hrun, hrun', hq, -⟩ := (h ht).resolve_left hpardons
  rw [hrun, hrun']
  refine ⟨rfl, Project.diagnostics_eq hq.twins.diagnostics, fun id => ?_, hq.twins.session.eq⟩
  have hrel := hq.twins.arena id
  simp only [State.bindings]
  generalize q.left.arena.scope? id = scope at hrel
  generalize q.right.arena.scope? id = scope' at hrel
  cases hrel with
  | none => rfl
  | some hscope => simp only [Option.map_some, hscope.identifiers]

theorem SameOutcome.trans_left {α : Type} {run run' run'' : Except Error α × State}
    (h : SameOutcome run run') (h' : SameOutcome run run'') : SameOutcome run' run'' :=
  ⟨h'.result.trans h.result.symm, h'.diagnostics.trans h.diagnostics.symm,
    fun id => (h'.bindings id).trans (h.bindings id).symm, h'.session.trans h.session.symm⟩

/-- A part is verified alike in all contexts, unless outside of any context its verification comes to
take a type from the context. What slot the whole goes to does not matter for an operand. -/
theorem part_context_free (require : (file request : String) → SessionM Required) (fuel : Nat)
    (hs : s.arena.Sound) (hinside : s.focus.scope.index < s.arena.size) (part : Part) (e : Expr)
    (expected expected' returning returning' : Option TypeId)
    (h : part = .operand ∧ returning' = returning ∨
      (part = .object → e.Unslotted) ∧
        Finishes (part.visit (guarded (fun found => found = s.around) require fuel) e)
          (s.inContext none none)) :
    SameOutcome ((part.visit (visitor require fuel) e).run (s.inContext expected returning))
      ((part.visit (visitor require fuel) e).run (s.inContext expected' returning')) := by
  have hlike : Expr.Like (Pairing.same True) e e := .refl True e
  rcases h with ⟨rfl, rfl⟩ | ⟨hslot, hfinishes⟩
  · have hvisitor := tandem_visitor (C := .contexts fun _ => false) (fun _ => rfl)
      (fun file request => Project.matched_self (require file request)) fuel
    let p := Both.contexts (fun _ => false) s expected returning' expected' returning'
    have hp : p.At (Pairing.same True) := ⟨rfl, trivial⟩
    refine .of_matched (p := p) (hvisitor.value hp hlike) (twins_contexts hs hinside _ _ (.inl rfl)) ?_
    rintro ⟨_, ⟨_, hwatched⟩, _⟩
    cases hwatched
  · -- either context gives the same as the guarded visit outside of contexts
    have hguarded (expected returning : Option TypeId) :
        SameOutcome ((part.visit (guarded (fun found => found = s.around) require fuel) e).run
            (s.inContext none none))
          ((part.visit (visitor require fuel) e).run (s.inContext expected returning)) := by
      let p := Both.contexts (fun found => found = s.around) s none none expected returning
      have hp : p.At (Pairing.same True) := ⟨rfl, trivial⟩
      have hwatched : p.Watched := by
        have haround := around_inContext hs hinside none none
        exact decide_eq_true haround
      have hvisit : Matched p (part.visit (guarded (fun found => found = s.around) require fuel) e)
          (part.visit (visitor require fuel) e) := by
        have hv : (guarded (fun found => found = s.around) require fuel).Tandem
            (.contexts fun found => found = s.around) (visitor require fuel) :=
          tandem_guarded require fuel
        cases part with
        | operand => exact hv.value hp hlike
        | object => exact hv.asRead hp hlike (.inr ⟨hslot rfl, rfl, hwatched⟩)
      exact .of_matched hvisit (twins_contexts hs hinside _ _ (.inr (decide_eq_true rfl)))
        fun hpardons => hfinishes hpardons.result
    exact (hguarded expected returning).trans_left (hguarded expected' returning')

end HeaderCheck.Verify
