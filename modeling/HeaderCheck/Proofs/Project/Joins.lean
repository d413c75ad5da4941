import HeaderCheck.Proofs.Project.Assigned
import HeaderCheck.Proofs.Verify.Joins

/-!
# HeaderCheck.Proofs.Project.Joins

What is read after an `if`, a `while` or a `for` while a source of a project is verified.

* `join_conservative`: the declared type, what both arms leave a variable at, or what it was narrowed to
  around the statement.
* `Misses`: a value that is assigned in an arm and not accepted by what is read afterwards: one that the
  arm overwrites, or one in a statement for which a scope around has narrowed the variable.
-/

namespace HeaderCheck.Project

open HeaderCheck.Script
open HeaderCheck.Types (TypeId)
open HeaderCheck.Verify (Check Join State Visitor inScope narrow reads_after_join)

/-- A file of which only the header says something: `x` may have a text. -/
def Host.undecided : Host :=
  (Host.single (Build.program [])).addHeader "/app/main.hjs"
    (Signature.Build.header
      [Signature.Build.assignment "c" (Signature.Build.literal "Boolean"),
        Signature.Build.assignment "x" textOrNull,
        Signature.Build.assignment "y" (Signature.Build.literal "String")])

/-- The state in which the file ends. -/
def undecided : State :=
  stateOf (inspect Host.undecided {} "/app/main.js")

/-- The visitor of the file, with `fuel` levels of nodes left. -/
def decider (fuel : Nat) : Visitor :=
  requiring Host.undecided {} 1 fuel

/-- The statement `x = value`. -/
def setX (value : Expr) : Stmt :=
  Build.expression (Build.assign (Build.ident "x") value)

/-- The statement `if (c) { .. } else { .. }`. -/
def choosing (consequent alternate : List Stmt) : Join :=
  .branch (Build.ident "c") (Build.block consequent) (some (Build.block alternate))

/-- The statement `while (c) { x = null }`. -/
def clearing : Join :=
  .whileLoop (Build.ident "c") (Build.block [setX Build.null])

/-- The statement `if (c) { x = null; x = "a" } else { x = "b" }`. -/
def overwriting : Join :=
  choosing [setX Build.null, setX (Build.string "a")] [setX (Build.string "b")]

/-- The statement `if (c) { x = "a"; while (c) { x = null } } else { x = "b" }`. -/
def deciding : Join :=
  choosing [setX (Build.string "a"), clearing.stmt {}] [setX (Build.string "b")]

/-- The statement `if (c) { x = null } else { x = null }`. -/
def agreeing : Join :=
  choosing [setX Build.null] [setX Build.null]

/-- The statement `if (x) { }`. -/
def testing : Join :=
  .branch (Build.ident "x") (Build.block []) none

/-- Into the arm of `if (x) { }`, where `x` is a text. -/
def enterArm : Check Unit := do
  let (holds, fails) ← testing.head (decider 8)
  testing.arms (decider 8) holds fails
  modify fun s : State => { s with focus := { s.focus with scope := holds } }

/-- The state in this arm. -/
def narrowed : State :=
  (enterArm.run undecided).2

/-- How a statement with two arms ends. -/
def ended (s : State) (join : Join) : Except Error Unit × State :=
  ((decider 8).stmt (join.stmt {})).run s

/-- The statement `if (c) { x = "a" } else { x = "b" }`. -/
def committing : Join :=
  choosing [setX (Build.string "a")] [setX (Build.string "b")]

/-- The state after this statement, by which the file itself has narrowed `x` to a text. -/
def committed : State :=
  (ended undecided committing).2

/-- What is verified in the arm of a statement that tests `c`, where `c` holds. -/
def inArm {α : Type} (join : Join) (m : Check α) : Check α := do
  let (holds, fails) ← join.head (decider 7)
  narrow (Build.ident "c") holds fails
  inScope holds m

/-- The value of `x = null`. -/
def clearX : Check (Option TypeId) :=
  assignVariable (decider 8) { name := "x" } Build.null {}

/-- Nothing is reported of the statement and of an assignment of `null` in it, and yet `x` is read
afterwards at a type that does not accept `null`. -/
def Misses (s : State) (join : Join) (assigned : Check (Option TypeId)) : Prop :=
  (s.declaredType "x").isSome ∧ (ended s join).1.isOk ∧ (ended s join).2.diagnostics = [] ∧
    (assigned.run s).1.toOption = some (some .null) ∧ (assigned.run s).2.diagnostics = [] ∧
      (ended s join).2.typeIn (ended s join).2.focus.scope "x" .normal = some .string ∧
        (ended s join).2.table.isSubtype .string .null = false

instance (s : State) (join : Join) (assigned : Check (Option TypeId)) :
    Decidable (Misses s join assigned) :=
  inferInstanceAs (Decidable (_ ∧ _))

/-- The file, and the arm of `if (x) { }` at its end. -/
theorem checked_undecided :
    (inspect Host.undecided {} "/app/main.js").isOk ∧ undecided.diagnostics = [] ∧
      (enterArm.run undecided).1.toOption = some () ∧ narrowed.diagnostics = [] ∧
      (narrowed.declaredType "x").isSome ∧
      narrowed.typeIn narrowed.focus.scope "x" .normal = some .string := by
  rw [narrowed, undecided, inspect, Session.start_eq]
  decide +kernel

/-- In this arm the arms of an `if` agree on another type. -/
theorem checked_agreeing :
    let head := (agreeing.head (decider 7)).run narrowed
    let after := (ended narrowed agreeing).2
    head.1.toOption = some (⟨3⟩, ⟨4⟩) ∧ head.2.focus.mode = .normal ∧ head.2.inBranch = true ∧
      (ended narrowed agreeing).1.toOption = some () ∧
      after.arena.narrowed? ⟨3⟩ "x" = some .null ∧ after.arena.narrowed? ⟨4⟩ "x" = some .null := by
  rw [narrowed, undecided, inspect, Session.start_eq]
  decide +kernel

theorem inspect_undecided : inspect Host.undecided {} "/app/main.js" = .ok undecided :=
  eq_ok_stateOf checked_undecided.1

theorem run_enterArm : enterArm.run undecided = (.ok (), narrowed) := by
  rw [narrowed]
  exact run_eq_of_toOption checked_undecided.2.2.1

theorem run_ended {s : State} {join : Join} (h : (ended s join).1.toOption = some ()) :
    ((decider 8).stmt (join.stmt {})).run s = (.ok (), (ended s join).2) :=
  run_eq_of_toOption h

/-- In the arm scopes are as they must be. -/
theorem sound_enterArm {s s' : State} (hs : s.arena.Sound) (hinside : s.focus.scope.index < s.arena.size)
    (hrun : enterArm.run s = (.ok (), s')) :
    s'.arena.Sound ∧ s'.focus.scope.index < s'.arena.size := by
  have hv := Verify.alone_visitor (globals_requireModule Host.undecided {} 1) 8
  obtain ⟨⟨holds, fails⟩, opened, hhead, hrest⟩ := ok_of_run_bind hrun
  obtain ⟨⟨⟩, s₁, harms, hmodify⟩ := ok_of_run_bind hrest
  obtain ⟨-, hopened⟩ := testing.opened_head hv hs hinside hhead
  have hafter := hopened.proceeds (testing.proceeds_arms hv hopened harms)
  obtain ⟨scope, hscope, -⟩ := hafter.holds.isArm
  cases hmodify
  exact ⟨hafter.sound, Scope.Arena.index_lt_size hscope⟩

/-- What a run gives that is known to succeed. -/
theorem eq_of_toOption {α : Type} {m : Check α} {s s' : State} {a b : α}
    (h : (m.run s).1.toOption = some a) (hrun : m.run s = (.ok b, s')) : b = a ∧ (m.run s).2 = s' := by
  rw [hrun] at h ⊢
  exact ⟨Option.some.inj h, rfl⟩

/-- What is assigned in an arm after it has decided for a text. -/
def clearDecided : Check (Option TypeId) :=
  inArm deciding do
    (decider 7).stmt (setX (Build.string "a"))
    inArm clearing clearX

/-- Values that are lost because the arm overwrites them, because a branch around has narrowed `x`, because
the arm has decided for a text, and because the file has taken a narrowed type already. -/
theorem checked_misses :
    Misses undecided overwriting (inArm overwriting clearX) ∧
      Misses narrowed clearing (inArm clearing clearX) ∧
      Misses undecided deciding clearDecided ∧
      (ended undecided committing).1.isOk ∧ Misses committed agreeing (inArm agreeing clearX) := by
  rw [committed, narrowed, undecided, inspect, Session.start_eq]
  decide +kernel

end HeaderCheck.Project
