import HeaderCheck.Proofs.Run
import HeaderCheck.Verify.Visit

/-!
# HeaderCheck.Proofs.Verify.Run

Run equations of the operations on parts of the state, and what an expression that is an access looks
like.
-/

namespace HeaderCheck.Verify

open HeaderCheck.Project (SessionM)
open HeaderCheck.Scope (Arena ScopeId)
open HeaderCheck.Types (Table TypeId)

variable {α : Type}

theorem run_withFocus (change : Focus → Focus) (m : Check α) (s : State) :
    (withFocus change m).run s =
      ((m.run { s with focus := change s.focus }).1,
        { (m.run { s with focus := change s.focus }).2 with focus := s.focus }) := rfl

/-- The state with another table of types. -/
def State.withTable (s : State) (table : Table) : State :=
  { s with session := { s.session with table } }

theorem run_onTable (f : Table → α × Table) (s : State) :
    (onTable f).run s = (.ok (f s.table).1, s.withTable (f s.table).2) := rfl

theorem run_onTable?_some {f : Table → Option (TypeId × Table)} {s : State} {type : TypeId}
    {table : Table} (h : f s.table = some (type, table)) :
    (onTable? f).run s = (.ok (some type), s.withTable table) := by
  rw [onTable?, run_onTable, h]

theorem run_onTable?_none {f : Table → Option (TypeId × Table)} {s : State}
    (h : f s.table = none) : (onTable? f).run s = (.ok none, s) := by
  rw [onTable?, run_onTable, h]
  rfl

theorem run_onArena (f : Arena → Except Scope.Error α × Arena) (s : State) :
    (onArena f).run s = ((f s.arena).1.mapError .scope, { s with arena := (f s.arena).2 }) := rfl

theorem run_onArena_ok {f : Arena → Except Scope.Error α × Arena} {s : State} {a : α}
    {arena : Arena} (h : f s.arena = (.ok a, arena)) :
    (onArena f).run s = (.ok a, { s with arena }) := by
  rw [run_onArena, h]
  rfl

theorem run_onArena_error {f : Arena → Except Scope.Error α × Arena} {s : State}
    {e : Scope.Error} {arena : Arena} (h : f s.arena = (.error e, arena)) :
    (onArena f).run s = (.error (.scope e), { s with arena }) := by
  rw [run_onArena, h]
  rfl

theorem run_openBranch (s : State) :
    openBranch.run s = (.ok ⟨s.arena.size⟩, { s with arena := (s.arena.pushBranch s.focus.scope).2 }) :=
  rfl

theorem run_onSession (m : SessionM α) (s : State) :
    (onSession m).run s = ((m.run s.session).1, { s with session := (m.run s.session).2 }) := rfl

theorem Access.eq_of_ofExpr? {e : Script.Expr} {access : Access}
    (h : Access.ofExpr? e = some access) :
    e = .member access.object access.property access.computed access.span := by
  cases e <;> cases h
  rfl

end HeaderCheck.Verify
