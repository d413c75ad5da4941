import HeaderCheck.Proofs.Scope.Operations

/-!
# HeaderCheck.Proofs.Scope.Owners

To which file or function a scope belongs, and which functions have a scope there.

* `Arena.Under`: a scope belongs to a file or function by way of branches, and does so for good
  (`Under.retains`).
* `Arena.Registers`: a file or function has a scope for the function with a key. `Arena.MadeIn`
  says the same of the scope itself.
* `Arena.Idle`: an operation that makes no function known which was not known before. All operations
  but two are idle (`Operation.idle`).
-/

namespace HeaderCheck.Scope.Arena

open HeaderCheck.Types

variable {a b c : Arena} {owner id : ScopeId} {key : String}

/-! ## Owners -/

/-- The scope belongs to the file or function `owner`, by way of branches only. -/
inductive Under (a : Arena) (owner : ScopeId) : ScopeId → Prop where
  | self {scope : Scope} (hs : a.scope? owner = some scope) (hb : scope.kind.isBranch = false) :
    Under a owner owner
  | branch {id parent : ScopeId} {scope : Scope} (hs : a.scope? id = some scope)
    (hb : scope.kind.isBranch) (hp : scope.parent = some parent) (hlt : parent.index < id.index)
    (h : Under a owner parent) : Under a owner id

namespace Under

theorem retains (h : a.Under owner id) (hr : a.Retains b) : b.Under owner id := by
  induction h with
  | self hs hb =>
    obtain ⟨scope', hs', hkept⟩ := hr _ _ hs
    exact .self hs' (by rw [hkept.kind.isBranch_eq, hb])
  | branch hs hb hp hlt _ ih =>
    obtain ⟨scope', hs', hkept⟩ := hr _ _ hs
    exact .branch hs' (by rw [hkept.kind.isBranch_eq, hb]) (hkept.parent.trans hp) hlt ih

/-- The owner belongs to itself. -/
theorem owner_self (h : a.Under owner id) : a.Under owner owner := by
  induction h with
  | self hs hb => exact .self hs hb
  | branch _ _ _ _ _ ih => exact ih

/-- The owner is a file or a function. -/
theorem exists_owner (h : a.Under owner id) :
    ∃ scope, a.scope? owner = some scope ∧ scope.kind.isBranch = false := by
  induction h with
  | self hs hb => exact ⟨_, hs, hb⟩
  | branch _ _ _ _ _ ih => exact ih

theorem lt_size (h : a.Under owner id) : id.index < a.size := by
  cases h with
  | self hs _ => exact index_lt_size hs
  | branch hs _ _ _ _ => exact index_lt_size hs

theorem find?_chainWithin (h : a.Under owner id) (fuel : Nat) (hfuel : id.index < fuel) :
    ∃ scope, (a.chainWithin fuel id).find? (fun x => !x.2.kind.isBranch) = some (owner, scope) := by
  induction h generalizing fuel with
  | @self scope hs hb =>
    obtain ⟨fuel, rfl⟩ := Nat.exists_eq_succ_of_ne_zero (Nat.ne_zero_of_lt hfuel)
    exact ⟨scope, by simp [chainWithin_of_some fuel hs, hb]⟩
  | @branch id parent scope hs hb hp hlt _ ih =>
    obtain ⟨fuel, rfl⟩ := Nat.exists_eq_succ_of_ne_zero (Nat.ne_zero_of_lt hfuel)
    obtain ⟨found, hfound⟩ := ih fuel (by omega)
    exact ⟨found, by simp [chainWithin_of_some fuel hs, hb, hp, hfound]⟩

theorem owner_eq (h : a.Under owner id) : a.owner id = owner := by
  obtain ⟨scope, hfound⟩ := h.find?_chainWithin _ (Nat.lt_succ_self id.index)
  unfold Arena.owner chain
  rw [hfound]

end Under

/-! ## Functions that have a scope -/

/-- A file or function has the scope `id` for the function with a key. -/
def Registers (a : Arena) (owner : ScopeId) (key : String) (id : ScopeId) : Prop :=
  ∃ scope, a.scope? owner = some scope ∧ scope.functions.get? key = some id

/-- The scope was made for a function with a key of the file or function. -/
def MadeIn (a : Arena) (owner : ScopeId) (key : String) (id : ScopeId) : Prop :=
  ∃ scope info parent, a.scope? id = some scope ∧ scope.kind = .function info ∧ info.name = key ∧
    scope.parent = some parent ∧ a.Under owner parent

theorem MadeIn.retains (h : a.MadeIn owner key id) (hr : a.Retains b) : b.MadeIn owner key id := by
  obtain ⟨scope, info, parent, hs, hkind, hname, hp, hunder⟩ := h
  obtain ⟨scope', hs', hkept⟩ := hr _ _ hs
  obtain ⟨info', hkind', hname'⟩ := (hkind ▸ hkept.kind).exists_function
  exact ⟨scope', info', parent, hs', hkind', hname'.trans hname, hkept.parent.trans hp,
    hunder.retains hr⟩

/-- The function waits in some scope for its type. -/
def Awaits (a : Arena) (untyped : UntypedFunction) : Prop :=
  ∃ id scope name, a.scope? id = some scope ∧ (name, untyped) ∈ scope.untyped.entries

/-- A function that waits for its type waits where it was declared. -/
def Orderly (a : Arena) : Prop :=
  ∀ untyped, a.Awaits untyped → a.Under untyped.definedIn untyped.definedIn

/-- No function has got a scope, and those that wait for their types did so before or wait where
they were declared. -/
structure Idle (a b : Arena) : Prop where
  registers : ∀ {owner key id}, b.Registers owner key id → a.Registers owner key id
  awaits : ∀ {untyped}, b.Awaits untyped →
    a.Awaits untyped ∨ b.Under untyped.definedIn untyped.definedIn

namespace Idle

theorem refl (a : Arena) : a.Idle a :=
  ⟨fun h => h, .inl⟩

theorem trans (h : a.Idle b) (h' : b.Idle c) (hr : b.Retains c) : a.Idle c := by
  refine ⟨fun hc => h.registers (h'.registers hc), fun hc => ?_⟩
  rcases h'.awaits hc with hb | hunder
  · exact (h.awaits hb).imp_right fun hunder => hunder.retains hr
  · exact .inr hunder

theorem orderly (h : a.Idle b) (hr : a.Retains b) (ha : a.Orderly) : b.Orderly := by
  intro untyped hb
  rcases h.awaits hb with hold | hunder
  · exact (ha _ hold).retains hr
  · exact hunder

theorem push {scope : Scope} (hf : scope.functions = {}) (hu : scope.untyped = {}) :
    a.Idle (a.push scope).2 := by
  refine ⟨?_, ?_⟩
  · rintro owner key id ⟨found, hfound, hget⟩
    rw [scope?_push] at hfound
    split at hfound
    · cases hfound
      rw [hf] at hget
      cases hget
    · exact ⟨found, hfound, hget⟩
  · rintro untyped ⟨id, found, name, hfound, hmem⟩
    rw [scope?_push] at hfound
    split at hfound
    · cases hfound
      rw [hu] at hmem
      cases hmem
    · exact .inl ⟨id, found, name, hfound, hmem⟩

/-- A change of one scope that gives no function a scope. -/
theorem modify_of_under {change : Scope → Scope}
    (hf : ∀ scope, (change scope).functions = scope.functions)
    (hu : ∀ scope, ∀ entry ∈ (change scope).untyped.entries, entry ∈ scope.untyped.entries ∨
      (a.modify id change).Under entry.2.definedIn entry.2.definedIn) :
    a.Idle (a.modify id change) := by
  refine ⟨?_, ?_⟩
  · rintro owner key child ⟨found, hfound, hget⟩
    rw [scope?_modify] at hfound
    split at hfound
    · obtain ⟨scope, hs, rfl⟩ := Option.map_eq_some_iff.mp hfound
      rw [hf] at hget
      exact ⟨scope, hs, hget⟩
    · exact ⟨found, hfound, hget⟩
  · rintro untyped ⟨other, found, name, hfound, hmem⟩
    rw [scope?_modify] at hfound
    split at hfound
    · obtain ⟨scope, hs, rfl⟩ := Option.map_eq_some_iff.mp hfound
      exact (hu scope _ hmem).imp_left fun hold => ⟨other, scope, name, hs, hold⟩
    · exact .inl ⟨other, found, name, hfound, hmem⟩

theorem modify {change : Scope → Scope} (hf : ∀ scope, (change scope).functions = scope.functions)
    (hu : ∀ scope, (change scope).untyped.entries ⊆ scope.untyped.entries) :
    a.Idle (a.modify id change) :=
  modify_of_under hf fun scope _ hmem => .inl (hu scope hmem)

theorem bindVar (name : String) (type : TypeId) : a.Idle (a.bindVar id name type) :=
  .modify (fun _ => rfl) fun _ => List.Subset.refl _

theorem addVar (name : String) (type : TypeId) : a.Idle (a.addVar id name type).2 := by
  rcases a.addVar_cases id name type with hrun | hrun <;> rw [hrun]
  · exact .refl a
  · exact .bindVar name type

theorem forceUpdateVar (name : String) (type : TypeId) :
    a.Idle (a.forceUpdateVar id name type).2 := by
  rcases a.forceUpdateVar_cases id name type with hrun | ⟨_, _, _, _, hrun⟩ <;> rw [hrun]
  · exact .refl a
  · exact .bindVar name type

theorem restrict (name : String) (type : TypeId) : a.Idle (a.restrict id name type).2 := by
  unfold Arena.restrict
  split
  · exact .refl a
  simp only
  split <;> split
  · exact .modify (fun _ => rfl) fun _ => List.Subset.refl _
  · exact .modify (fun _ => rfl) fun _ => List.Subset.refl _
  · exact .refl a
  · split
    · exact .refl a
    · exact .modify (fun _ => rfl) fun _ => List.Subset.refl _

theorem modifyFunction (change : FunctionInfo → FunctionInfo) :
    a.Idle (a.modifyFunction id change).2 := by
  unfold Arena.modifyFunction
  split
  · exact .refl a
  · refine .modify (fun scope => ?_) fun scope => ?_ <;> split <;> first | rfl | exact List.Subset.refl _

theorem addPrototypeField (constructor field : String) (type : TypeId) :
    a.Idle (a.addPrototypeField id constructor field type).2 := by
  unfold Arena.addPrototypeField
  split
  · exact .modify (fun _ => rfl) fun _ => List.Subset.refl _
  · exact .refl a

theorem updateFunction (name : String) (type : TypeId) :
    a.Idle (a.updateFunction id name type).2 := by
  rcases a.updateFunction_cases id name type with hrun | ⟨_, _, _, _, hrun | ⟨_, hrun⟩⟩ <;> rw [hrun]
  · exact .refl a
  · exact .modify (fun _ => rfl) fun _ _ hmem => Dict.mem_entries_erase hmem
  · exact .modify (fun _ => rfl) fun _ _ hmem => Dict.mem_entries_erase hmem

/-- A function that is declared waits where it belongs. -/
theorem addFunction (h : a.Under owner id) (name : String) (node : Script.Function) :
    a.Idle (a.addFunction id name node).2 := by
  have hkept := (show Attempt a (a.addFunction id name node).2 from
    ⟨.addFunction id name node, rfl⟩).retains
  rcases a.addFunction_cases id name node with hrun | hrun <;> rw [hrun] at hkept ⊢
  · exact .refl a
  · refine .modify_of_under (fun _ => rfl) fun scope entry hmem => ?_
    rcases Dict.mem_entries_insert hmem with rfl | hmem
    · simp only [h.owner_eq] at hkept ⊢
      exact .inr (h.owner_self.retains hkept)
    · exact .inl hmem

end Idle

/-- An operation that neither declares a function nor gives one a scope. -/
def Operation.isPassive : Operation → Bool
  | .pushFunction _ _ | .addFunction _ _ _ => false
  | _ => true

theorem Operation.idle (op : Operation) (h : op.isPassive) : a.Idle (op.run a).2 := by
  cases op with
  | pushFile => exact .push rfl rfl
  | pushBranch parent => exact .push rfl rfl
  | pushFunction parent info => cases h
  | addVar id name type => exact .addVar name type
  | forceUpdateVar id name type => exact .forceUpdateVar name type
  | restrict id name type => exact .restrict name type
  | addFunction id name node => cases h
  | updateFunction id name type => exact .updateFunction name type
  | addPrototypeField id constructor field type => exact .addPrototypeField constructor field type
  | addKnownField id field => exact .modifyFunction _
  | markReturnType id type span => exact .modifyFunction _
  | enterReturn id expected => exact .modifyFunction _
  | exitReturn id => exact .modifyFunction _

/-! ## New scopes -/

/-- A branch belongs where the scope around it does. -/
theorem Under.pushBranch (h : a.Under owner id) :
    (a.pushBranch id).2.Under owner (a.pushBranch id).1 := by
  have hnew : (a.pushBranch id).2.scope? (a.pushBranch id).1 =
      some { parent := some id, kind := .branch none } := by
    simp [Arena.pushBranch, push, scope?]
  exact .branch hnew rfl rfl h.lt_size (h.retains (.push a _))

/-- The scopes after a function got one: the new one, its owner and the others. -/
theorem Under.scope?_pushFunction (h : a.Under owner id) {info : FunctionInfo} {child : ScopeId}
    (hrun : a.pushFunction id info = (.ok child, b)) :
    child = ⟨a.size⟩ ∧ ∀ other, b.scope? other =
      if other = child then some { parent := some id, kind := .function info }
      else if owner = other then (a.scope? other).map fun scope =>
        { scope with functions := scope.functions.insert info.name child }
      else a.scope? other := by
  rcases a.pushFunction_cases id info with ⟨hrefused, -⟩ | ⟨hdone, -⟩
  · rw [hrefused] at hrun
    cases hrun
  rw [hdone, h.owner_eq] at hrun
  cases hrun
  refine ⟨rfl, fun other => ?_⟩
  have hlt := h.owner_self.lt_size
  rw [scope?_modify, scope?_push]
  by_cases hnew : other = ⟨a.size⟩
  · subst hnew
    have hne : owner ≠ ⟨a.size⟩ := by
      rintro rfl
      exact Nat.lt_irrefl _ hlt
    simp [hne]
  · have hindex : other.index ≠ a.size := by
      intro heq
      exact hnew (by cases other; simp_all)
    simp [hnew, hindex]

theorem retains_of_pushFunction {info : FunctionInfo} {child : ScopeId}
    (hrun : a.pushFunction id info = (.ok child, b)) : a.Retains b := by
  have hkept := (retains_pushFunction a id info).1
  rwa [hrun] at hkept

/-- A function gets one new scope, with the file or function that it belongs to. -/
theorem Under.pushFunction (h : a.Under owner id) {info : FunctionInfo} {child : ScopeId}
    (hrun : a.pushFunction id info = (.ok child, b)) :
    b.MadeIn owner info.name child ∧ b.Under child child ∧ b.Registers owner info.name child := by
  have hkept := retains_of_pushFunction hrun
  obtain ⟨rfl, hscopes⟩ := h.scope?_pushFunction hrun
  have hnew : b.scope? ⟨a.size⟩ = some { parent := some id, kind := .function info } := by
    rw [hscopes, if_pos rfl]
  refine ⟨⟨_, info, id, hnew, rfl, rfl, rfl, h.retains hkept⟩, .self hnew rfl, ?_⟩
  have hne : owner ≠ ⟨a.size⟩ := by
    rintro rfl
    exact Nat.lt_irrefl _ h.owner_self.lt_size
  obtain ⟨scope, hs⟩ := scope?_of_lt h.owner_self.lt_size
  exact ⟨_, by rw [hscopes, if_neg hne, if_pos rfl, hs]; rfl, by simp⟩

/-- No other function gets a scope, and none is declared. -/
theorem Under.others_pushFunction (h : a.Under owner id) {info : FunctionInfo} {child : ScopeId}
    (hrun : a.pushFunction id info = (.ok child, b)) :
    (∀ {other key found}, b.Registers other key found →
      a.Registers other key found ∨ other = owner ∧ key = info.name ∧ found = child) ∧
    ∀ {untyped}, b.Awaits untyped → a.Awaits untyped := by
  obtain ⟨rfl, hscopes⟩ := h.scope?_pushFunction hrun
  refine ⟨?_, ?_⟩
  · rintro other key found ⟨scope, hs, hget⟩
    rw [hscopes] at hs
    split at hs
    · cases hs
      cases hget
    split at hs
    · next heq =>
      obtain ⟨old, hold, rfl⟩ := Option.map_eq_some_iff.mp hs
      by_cases hkey : info.name = key
      · simp only [Dict.get?_insert, hkey, if_true] at hget
        exact .inr ⟨heq.symm, hkey.symm, (Option.some.inj hget).symm⟩
      · simp only [Dict.get?_insert, hkey, if_false] at hget
        exact .inl ⟨old, hold, hget⟩
    · exact .inl ⟨scope, hs, hget⟩
  · rintro untyped ⟨other, scope, name, hs, hmem⟩
    rw [hscopes] at hs
    split at hs
    · cases hs
      cases hmem
    split at hs
    · obtain ⟨old, hold, rfl⟩ := Option.map_eq_some_iff.mp hs
      exact ⟨other, old, name, hold, hmem⟩
    · exact ⟨other, scope, name, hs, hmem⟩

end HeaderCheck.Scope.Arena
