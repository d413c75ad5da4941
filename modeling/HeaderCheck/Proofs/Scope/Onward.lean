import HeaderCheck.Proofs.Scope.Keeps

/-!
# HeaderCheck.Proofs.Scope.Onward

How work on a file moves its scopes on.

* `Arena.Onward narrowing a b`: every scope of `a` is still there in `b`, only the scopes in
  `narrowing` have got other narrowed types, and a sound arena stays sound.
* `onward_restrict` and the lemmas around it: one for each operation.
-/

namespace HeaderCheck.Scope.Arena

open HeaderCheck.Types

/-- Scopes stay where they are, and only those in `narrowing` get other narrowed types. -/
structure Onward (narrowing : ScopeId → Prop) (a b : Arena) : Prop where
  sound : a.Sound → b.Sound
  old : ∀ id scope, a.scope? id = some scope → ∃ scope', b.scope? id = some scope' ∧
    Grown scope scope' ∧ (narrowing id ∨ scope'.restrictions = scope.restrictions)

namespace Onward

variable {narrowing : ScopeId → Prop} {a b c : Arena} {id : ScopeId}

theorem refl (narrowing : ScopeId → Prop) (a : Arena) : Onward narrowing a a :=
  ⟨fun h => h, fun _ scope hs => ⟨scope, hs, .refl scope, .inr rfl⟩⟩

theorem trans (h : Onward narrowing a b) (h' : Onward narrowing b c) : Onward narrowing a c where
  sound := fun ha => h'.sound (h.sound ha)
  old := by
    intro id scope hs
    obtain ⟨scope', hs', hg, hr⟩ := h.old id scope hs
    obtain ⟨scope'', hs'', hg', hr'⟩ := h'.old id scope' hs'
    refine ⟨scope'', hs'', hg.trans hg', ?_⟩
    rcases hr with hin | hr
    · exact .inl hin
    · exact hr'.imp_right fun hr' => hr'.trans hr

theorem keeps (h : Onward narrowing a b) : Keeps (fun _ => True) a b := by
  intro id scope hs
  obtain ⟨scope', hs', hg, _⟩ := h.old id scope hs
  exact ⟨scope', hs', hg, .inl trivial⟩

theorem size_le (h : Onward narrowing a b) : a.size ≤ b.size :=
  h.keeps.size_le

/-- A scope whose narrowed types may not change has the same ones afterwards. -/
theorem restrictions_eq (h : Onward narrowing a b) (hid : id.index < a.size) (hout : ¬narrowing id) :
    b.restrictions id = a.restrictions id := by
  obtain ⟨scope, hs⟩ := scope?_of_lt hid
  obtain ⟨scope', hs', _, hr⟩ := h.old id scope hs
  rw [restrictions, restrictions, hs, hs']
  exact congrArg Dict.entries (hr.resolve_left hout)

/-- One scope changes, where no function is declared or gets a scope. -/
theorem modify {change : Scope → Scope}
    (h : ∀ scope, a.scope? id = some scope → SameFunctions scope (change scope))
    (hr : narrowing id ∨ ∀ scope, (change scope).restrictions = scope.restrictions) :
    Onward narrowing a (a.modify id change) where
  sound := (Quiet.modify h).sound
  old := by
    intro other scope hs
    rw [scope?_modify]
    split
    · next heq =>
      subst heq
      exact ⟨change scope, by rw [hs]; rfl, (h scope hs).grown, hr.imp_right fun hr => hr scope⟩
    · exact ⟨scope, hs, .refl scope, .inr rfl⟩

/-- The functions of one scope change. -/
theorem modifyFunctions {change : Scope → Scope} (hsound : a.Sound → (a.modify id change).Sound)
    (h : ∀ scope, a.scope? id = some scope → Grown scope (change scope))
    (hr : ∀ scope, (change scope).restrictions = scope.restrictions) :
    Onward narrowing a (a.modify id change) where
  sound := hsound
  old := by
    intro other scope hs
    rw [scope?_modify]
    split
    · next heq =>
      subst heq
      exact ⟨change scope, by rw [hs]; rfl, h scope hs, .inr (hr scope)⟩
    · exact ⟨scope, hs, .refl scope, .inr rfl⟩

end Onward

/-! ## The operations -/

section Operations

variable {narrowing : ScopeId → Prop} {a : Arena} {id : ScopeId}

theorem onward_pushBranch (hid : id.index < a.size) : Onward narrowing a (a.pushBranch id).2 where
  sound := (Quiet.of_narrowed (.pushBranch id [] a) hid).sound
  old := fun _ scope hs => ⟨scope, scope?_push_of_some _ hs, .refl scope, .inr rfl⟩

theorem onward_bindVar {scope : Scope} (hs : a.scope? id = some scope)
    (hb : scope.kind.isBranch = false) (name : String) (type : TypeId) :
    Onward narrowing a (a.bindVar id name type) := by
  refine .modify (fun found hfound => ?_) (.inr fun _ => rfl)
  rw [hs] at hfound
  cases hfound
  refine ⟨rfl, .refl _, fun other h => Dict.contains_insert _ name other type h, ?_, rfl, rfl⟩
  intro hb'
  rw [hb] at hb'
  cases hb'

theorem onward_addVar {scope : Scope} (hs : a.scope? id = some scope)
    (hb : scope.kind.isBranch = false) (name : String) (type : TypeId) :
    Onward narrowing a (a.addVar id name type).2 := by
  rcases a.addVar_cases id name type with hrun | hrun <;> rw [hrun]
  · exact .refl _ a
  · exact onward_bindVar hs hb name type

theorem onward_forceUpdateVar (ha : a.Sound) (id : ScopeId) (name : String) (type : TypeId) :
    Onward narrowing a (a.forceUpdateVar id name type).2 := by
  rcases a.forceUpdateVar_cases id name type with hrun | ⟨holder, scope, hmem, hbound, hrun⟩ <;>
    rw [hrun]
  · exact .refl _ a
  · have hs := (ha.ordered.mem_chain hmem).1
    exact onward_bindVar hs (ha.not_branch_of_bound hs hbound) name type

theorem onward_restrict (hid : narrowing id) (name : String) (type : TypeId) :
    Onward narrowing a (a.restrict id name type).2 where
  sound := (quiet_restrict (Prod.eta (a.restrict id name type)).symm).sound
  old := by
    intro other scope hs
    have hq := quiet_restrict (Prod.eta (a.restrict id name type)).symm
    obtain ⟨scope', hs', hsame⟩ := hq.old other scope hs
    refine ⟨scope', hs', hsame.grown, ?_⟩
    by_cases heq : id = other
    · exact .inl (heq ▸ hid)
    · refine .inr ?_
      have hkept : (a.restrict id name type).2.scope? other = a.scope? other := by
        unfold restrict
        split
        · rfl
        simp only
        split
        · split <;> rw [scope?_modify, if_neg heq]
        · split
          · rfl
          split
          · rfl
          · rw [scope?_modify, if_neg heq]
      rw [hkept, hs] at hs'
      cases hs'
      rfl

theorem onward_addFunction (hid : id.index < a.size) (node : Script.Function) :
    Onward narrowing a (a.addFunction id node.name node).2 := by
  rcases a.addFunction_cases id node.name node with hrun | hrun <;> rw [hrun]
  · exact .refl _ a
  · refine .modifyFunctions (fun ha => ?_) (fun scope _ => ⟨rfl, .refl _, fun _ h => h, fun _ _ h => h⟩)
      fun _ => rfl
    obtain ⟨own, hown, hb, _⟩ := ha.owner_spec hid
    refine ha.modify (fun _ => rfl) ?_ ?_
    · intro scope hs
      rw [hown] at hs
      cases hs
      exact hb
    · intro scope entry hs hentry
      rcases Dict.mem_entries_insert hentry with rfl | hold
      · exact ⟨rfl, rfl⟩
      · exact ha.untyped _ scope entry hs hold

theorem onward_updateFunction (ha : a.Sound) (id : ScopeId) (name : String) (type : TypeId) :
    Onward narrowing a (a.updateFunction id name type).2 := by
  rcases a.updateFunction_cases id name type with hrun | ⟨holder, own, hmem, hu, hrun | ⟨_, hrun⟩⟩ <;>
    rw [hrun]
  · exact .refl _ a
  all_goals
    have hown := scope?_of_mem_chainWithin hmem
    have hb := ha.not_branch_of_untyped hown hu
    have hsound {change : Scope → Scope} (hparent : ∀ scope, (change scope).parent = scope.parent)
        (hkind : ∀ scope, (change scope).kind = scope.kind)
        (huntyped : ∀ scope, (change scope).untyped = scope.untyped.erase name) :
        (a.modify holder change).Sound := by
      refine ha.modify hparent (fun scope hs => ?_) fun scope entry hs hentry => ?_
      · rw [hown] at hs
        cases hs
        rw [hkind, hb]
      · rw [huntyped] at hentry
        exact ha.untyped _ scope entry hs (Dict.mem_entries_erase hentry)
  · refine .modifyFunctions (fun _ => hsound (fun _ => rfl) (fun _ => rfl) fun _ => rfl)
      (fun scope _ => ⟨rfl, .refl _, fun _ h => h, fun _ _ h => h⟩) fun _ => rfl
  · refine .modifyFunctions (fun _ => hsound (fun _ => rfl) (fun _ => rfl) fun _ => rfl)
      (fun scope _ => ⟨rfl, .refl _, ?_, fun _ _ h => h⟩) fun _ => rfl
    exact fun other h => Dict.contains_insert _ name other type h

theorem onward_modifyFunction (id : ScopeId) {change : FunctionInfo → FunctionInfo}
    (hname : ∀ info, (change info).name = info.name) :
    Onward narrowing a (a.modifyFunction id change).2 := by
  unfold modifyFunction
  split
  · exact .refl _ a
  · refine .modify (fun scope _ => ?_) (.inr fun scope => ?_)
    · cases hk : scope.kind with
      | function info =>
        refine ⟨rfl, ?_, fun _ h => h, fun _ => rfl, rfl, rfl⟩
        rw [hk]
        exact hname info
      | file prototypes => exact .refl scope
      | branch this => exact .refl scope
    · split <;> rfl

theorem onward_addPrototypeField (id : ScopeId) (constructor field : String) (type : TypeId) :
    Onward narrowing a (a.addPrototypeField id constructor field type).2 := by
  unfold addPrototypeField
  split
  · next hs =>
    refine .modify (fun found hfound => ?_) (.inr fun _ => rfl)
    rw [hs] at hfound
    cases hfound
    exact ⟨rfl, trivial, fun _ h => h, fun _ => rfl, rfl, rfl⟩
  · exact .refl _ a

theorem onward_pushFunction (hid : id.index < a.size) (ha : a.Sound) (info : FunctionInfo) :
    Onward narrowing a (a.pushFunction id info).2 := by
  rcases a.pushFunction_cases id info with ⟨hrun, _⟩ | ⟨hrun, hfree⟩ <;> rw [hrun]
  · exact .refl _ a
  obtain ⟨own, hown, hb, _⟩ := ha.owner_spec hid
  have hpush : Onward narrowing a (a.push { parent := some id, kind := .function info }).2 := by
    refine ⟨fun ha => ha.push rfl rfl ?_, fun _ scope hs => ?_⟩
    · rintro _ ⟨⟩
      exact hid
    · exact ⟨scope, scope?_push_of_some _ hs, .refl scope, .inr rfl⟩
  have hown' := scope?_push_of_some ({ parent := some id, kind := .function info } : Scope) hown
  refine hpush.trans (.modifyFunctions (fun hpushed => ?_) (fun scope hs => ?_) fun _ => rfl)
  · refine hpushed.modify (fun _ => rfl) (fun scope hs => ?_) fun scope entry hs hentry =>
      hpushed.untyped _ scope entry hs hentry
    rw [hown'] at hs
    cases hs
    exact hb
  · rw [hown'] at hs
    cases hs
    refine ⟨rfl, .refl _, fun _ h => h, fun key found hget => ?_⟩
    have hne : info.name ≠ key := by
      rintro rfl
      have hnone := hfree own hown
      simp [Dict.contains, hget] at hnone
    simpa [hne] using hget

end Operations

end HeaderCheck.Scope.Arena
