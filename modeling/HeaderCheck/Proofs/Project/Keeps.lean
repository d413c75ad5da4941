import HeaderCheck.Proofs.Run
import HeaderCheck.Proofs.Types.WellFormed

/-!
# HeaderCheck.Proofs.Project.Keeps

What work on a session leaves as it is, whether it succeeds or fails, and how it may fail.

* `Session.Keeps`: types stay what they are, and the files and headers under way are the same before
  and after.
* `Error.Expected`: the errors that can end the check of a source.
* `Works`: work that keeps the session in this sense and fails in no other way; `Alike` is the same
  for work that is done in two ways with the same outcome.
-/

namespace HeaderCheck.Project

open HeaderCheck.Types (Table)

/-- Types, global bindings and the work under way stay as they are. -/
structure Session.Keeps (s s' : Session) : Prop where
  table : s.table.Extends s'.table
  globals : s'.globals = s.globals
  compiling : s'.compiling = s.compiling
  lowering : s'.lowering = s.lowering

namespace Session.Keeps

theorem refl (s : Session) : s.Keeps s :=
  ⟨.refl _, rfl, rfl, rfl⟩

theorem trans {one two three : Session} (h : one.Keeps two) (h' : two.Keeps three) :
    one.Keeps three :=
  ⟨h.table.trans h'.table, h'.globals.trans h.globals, h'.compiling.trans h.compiling,
    h'.lowering.trans h.lowering⟩

end Session.Keeps

instance : Std.Refl Session.Keeps :=
  ⟨Session.Keeps.refl⟩

instance : IsTrans Session Session.Keeps :=
  ⟨fun _ _ _ => Session.Keeps.trans⟩

/-- Errors that can end the check of a source. Scopes for functions are made twice only in programs
that are not tidy. -/
def Error.Expected (tidy : Prop) : Error → Prop
  | .outOfFuel => False
  | .scope (.doubleRestriction _) => False
  | .scope .cannotRestrictThis => False
  | .scope .prototypeOutsideFile => False
  | .scope (.notInFunction _) => False
  | .scope (.duplicateFunctionScope _) => ¬tidy
  | _ => True

/-- Errors that can end the lowering of a header. Those of scopes are none of them. -/
def Error.Usual : Error → Prop
  | .outOfFuel => False
  | .scope _ => False
  | _ => True

theorem Error.Usual.expected {e : Error} (h : e.Usual) (tidy : Prop) : e.Expected tidy := by
  cases e <;> trivial

variable {α β : Type} {tidy agree : Prop} {s : Session}

def Works (tidy : Prop) (s : Session) (m : SessionM α) (Q : α → Session → Prop) : Prop :=
  Safe Session.Keeps (Error.Expected tidy) s m Q

/-- The work `m` is as it must be, and `m'` does just the same if the two agree. -/
structure Alike (tidy agree : Prop) (s : Session) (m m' : SessionM α) : Prop where
  same : agree → m'.run s = m.run s
  works : Works tidy s m fun _ _ => True

namespace Alike

theorem of_works {m : SessionM α} {Q : α → Session → Prop} (h : Works tidy s m Q) :
    Alike tidy agree s m m :=
  ⟨fun _ => rfl, h.ignore⟩

theorem pure {a : α} : Alike tidy agree s (pure a) (pure a) :=
  of_works (Safe.pure trivial : Works tidy s _ fun _ _ => True)

theorem get_bind {f f' : Session → SessionM α} (h : Alike tidy agree s (f s) (f' s)) :
    Alike tidy agree s (get >>= f) (get >>= f') :=
  ⟨h.same, h.works.get_bind⟩

theorem bind {m m' : SessionM α} {f f' : α → SessionM β} (h : Alike tidy agree s m m')
    (hf : ∀ a s', s.Keeps s' → Alike tidy agree s' (f a) (f' a)) :
    Alike tidy agree s (m >>= f) (m' >>= f') := by
  refine ⟨?_, h.works.bind fun a s' hk _ => (hf a s' hk).works⟩
  intro hagree
  have hk := h.works.keeps
  rcases hrun : m.run s with ⟨e | a, s'⟩ <;> rw [hrun] at hk
  · rw [run_bind_error hrun, run_bind_error ((h.same hagree).trans hrun)]
  · rw [run_bind_ok hrun, run_bind_ok ((h.same hagree).trans hrun)]
    exact (hf a s' hk).same hagree

end Alike

end HeaderCheck.Project
