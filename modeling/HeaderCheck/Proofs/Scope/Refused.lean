import HeaderCheck.Proofs.Scope.Lawful

/-!
# HeaderCheck.Proofs.Scope.Refused

What a refused operation leaves behind.

* `Forgets`: an operation that gives a type to a function whose name is bound where the function waits.
* `refused_leaves`: every other operation that is refused leaves the arena as it was. Such a one takes
  the function off the functions without a type, and does no more.
-/

namespace HeaderCheck.Scope.Arena

open HeaderCheck.Types

variable {a : Arena} {op : Operation} {holder : ScopeId} {name : String} {e : Error}

/-- The operation gives a type to a function that waits in `holder`, which binds its name already. -/
inductive Forgets (a : Arena) : Operation → ScopeId → String → Prop where
  | update {id holder : ScopeId} {scope : Scope} {name : String} {type : TypeId}
    (hfind : (a.chain id).find? (fun x => x.2.untyped.contains name) = some (holder, scope))
    (hbound : scope.identifiers.contains name) :
    Forgets a (.updateFunction id name type) holder name

namespace Forgets

theorem run_eq (h : a.Forgets op holder name) :
    op.run a = (.error (.duplicateIdentifier name), a.modify holder (forgetFunction name)) := by
  cases h with
  | @update id _ scope _ type hfind hbound =>
    rcases updateFunction_of_find? hfind type with ⟨-, hrun⟩ | ⟨hfree, -⟩
    · rw [Operation.run, hrun]
      rfl
    · rw [hbound] at hfree
      cases hfree

/-- A function is missing that was there. -/
theorem changes (h : a.Forgets op holder name) : a.modify holder (forgetFunction name) ≠ a := by
  cases h with
  | @update id _ scope _ type hfind hbound =>
    intro hsame
    have hs : a.scope? holder = some scope :=
      scope?_of_mem_chainWithin (List.mem_of_find?_eq_some hfind)
    have hafter : (a.modify holder (forgetFunction name)).scope? holder =
        some (forgetFunction name scope) := by
      rw [scope?_modify, if_pos rfl, hs]
      rfl
    rw [hsame, hs] at hafter
    have huntyped : scope.untyped.contains name := by simpa using List.find?_some hfind
    have hfewer := Dict.size_erase_lt huntyped
    have hequal : scope.untyped = scope.untyped.erase name :=
      congrArg Scope.untyped (Option.some.inj hafter)
    rw [← hequal] at hfewer
    exact Nat.lt_irrefl _ hfewer

end Forgets

theorem refused_cases (h : (op.run a).1 = .error e) :
    (op.run a).2 = a ∨ ∃ holder name, a.Forgets op holder name := by
  rcases op.run_cases a with hplain | ⟨parent, info, rfl⟩ | ⟨id, name, type, rfl⟩
  · generalize op.run a = run at hplain h
    cases hplain with
    | refused e => exact .inl rfl
    | unchanged => cases h
    | modified _ => cases h
    | pushed scope => cases h
  · rw [Operation.run] at h ⊢
    rcases a.pushFunction_cases parent info with ⟨hrun, -⟩ | ⟨hrun, -⟩ <;> rw [hrun] at h ⊢
    · exact .inl rfl
    · cases h
  · cases hfind : (a.chain id).find? fun x => x.2.untyped.contains name with
    | none =>
      left
      simp [Operation.run, outcome, updateFunction, hfind]
    | some x =>
      rcases updateFunction_of_find? hfind type with ⟨hbound, -⟩ | ⟨-, hrun⟩
      · exact .inr ⟨x.1, name, .update hfind hbound⟩
      · rw [Operation.run, hrun] at h
        cases h

/-- A refused operation changes nothing, unless it gives a type to a function whose name is bound
beside it: then the function does not wait for a type any more, and everything else is as it was. -/
theorem refused_leaves {a : Arena} {op : Operation} {e : Error} (h : (op.run a).1 = .error e) :
    ((op.run a).2 = a ↔ ∀ holder name, ¬a.Forgets op holder name) ∧
      ∀ holder name, a.Forgets op holder name → e = .duplicateIdentifier name ∧
        (op.run a).2 = a.modify holder (forgetFunction name) := by
  refine ⟨⟨fun hsame holder name hforgets => ?_, fun hnone => ?_⟩, fun holder name hforgets => ?_⟩
  · rw [hforgets.run_eq] at hsame
    exact hforgets.changes hsame
  · rcases refused_cases h with hsame | ⟨holder, name, hforgets⟩
    · exact hsame
    · exact (hnone holder name hforgets).elim
  · rw [hforgets.run_eq] at h ⊢
    exact ⟨(Except.error.inj h).symm, rfl⟩

/-- A file with a function `f` without a type, and a variable of the same name. -/
def boundFunction : Arena :=
  let node : Script.Function := { id := none, params := [], body := [], bodySpan := {}, span := {} }
  [.pushFile, .addFunction ⟨0⟩ "f" node, .addVar ⟨0⟩ "f" .number].foldl
    (fun a (op : Operation) => (op.run a).2) {}

theorem built_boundFunction : Built boundFunction :=
  .step (.step (.step .empty .pushFile trivial) (.addFunction ⟨0⟩ "f" _) Nat.one_pos)
    (.addVar ⟨0⟩ "f" _) Nat.one_pos

/-- The variable is not bound twice, and the function still waits for its type. -/
theorem refused_leaves_boundFunction :
    ((Operation.addVar ⟨0⟩ "f" .string).run boundFunction).2 = boundFunction :=
  (refused_leaves (show ((Operation.addVar ⟨0⟩ "f" .string).run boundFunction).1 =
    .error (.duplicateIdentifier "f") from rfl)).1.mpr nofun

/-- A refused update loses the function. -/
theorem refused_update_forgets :
    let update := Operation.updateFunction ⟨0⟩ "f" .string
    Built boundFunction ∧ update.Proper boundFunction ∧
      (update.run boundFunction).1 = .error (.duplicateIdentifier "f") ∧
      (boundFunction.getFunction? ⟨0⟩ "f").isSome ∧
      (update.run boundFunction).2.getFunction? ⟨0⟩ "f" = none :=
  ⟨built_boundFunction, Nat.one_pos, rfl, rfl, rfl⟩

end HeaderCheck.Scope.Arena
