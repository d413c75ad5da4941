import HeaderCheck.Scope.Arena
import Mathlib.Data.List.Forall2

/-!
# HeaderCheck.Proofs.Scope.Chain

Chains of scopes, and what a change of the arena does to them.

* `Arena.Ordered`: a scope is opened after the one around it. In an ordered arena the chain of a
  scope is the scope itself and then the chain of the scope around it (`chain_eq`).
* `Arena.chain_rel`: when a change keeps the scope around each scope, the chains before and after
  it go through the same scopes. All look-ups are first matches on chains, so this one lemma says
  what a change does to them.
-/

namespace HeaderCheck.Scope.Arena

open HeaderCheck.Types

/-- A scope is opened after the one around it. -/
def Ordered (a : Arena) : Prop :=
  ∀ id scope parent, a.scope? id = some scope → scope.parent = some parent →
    parent.index < id.index

/-! ## Scopes after a change -/

theorem index_lt_size {a : Arena} {id : ScopeId} {scope : Scope} (h : a.scope? id = some scope) :
    id.index < a.size :=
  (Array.getElem?_eq_some_iff.mp h).choose

theorem scope?_of_lt {a : Arena} {id : ScopeId} (h : id.index < a.size) :
    ∃ scope, a.scope? id = some scope :=
  ⟨_, Array.getElem?_eq_getElem h⟩

@[simp] theorem size_modify (a : Arena) (id : ScopeId) (change : Scope → Scope) :
    (a.modify id change).size = a.size := by
  simp [modify, size]

theorem scope?_modify (a : Arena) (id other : ScopeId) (change : Scope → Scope) :
    (a.modify id change).scope? other =
      if id = other then (a.scope? other).map change else a.scope? other := by
  cases id
  cases other
  simp [modify, scope?, Array.getElem?_modify]

theorem scope?_push (a : Arena) (scope : Scope) (id : ScopeId) :
    (a.push scope).2.scope? id = if id.index = a.size then some scope else a.scope? id := by
  rw [push, scope?, Array.getElem?_push]
  rfl

theorem scope?_push_of_some {a : Arena} {id : ScopeId} {old : Scope} (scope : Scope)
    (h : a.scope? id = some old) : (a.push scope).2.scope? id = some old := by
  have hne : id.index ≠ a.size := Nat.ne_of_lt (index_lt_size h)
  rw [scope?_push, if_neg hne, h]

/-- There is one scope at the start. -/
theorem scope?_pushFile {id : ScopeId} {scope : Scope}
    (h : ({} : Arena).pushFile.2.scope? id = some scope) :
    id = ⟨0⟩ ∧ scope = { parent := none, kind := .file {} } := by
  rcases id with ⟨_ | index⟩
  · cases h
    exact ⟨rfl, rfl⟩
  · simp [pushFile, push, scope?] at h

theorem Ordered.modify {a : Arena} (h : a.Ordered) (id : ScopeId) {change : Scope → Scope}
    (hp : ∀ scope, (change scope).parent = scope.parent) : (a.modify id change).Ordered := by
  intro other scope parent hs hparent
  rw [scope?_modify] at hs
  split at hs
  · obtain ⟨old, hold, rfl⟩ := Option.map_eq_some_iff.mp hs
    exact h other old parent hold (hp old ▸ hparent)
  · exact h other scope parent hs hparent

theorem Ordered.push {a : Arena} (h : a.Ordered) {scope : Scope}
    (hp : ∀ parent, scope.parent = some parent → parent.index < a.size) :
    (a.push scope).2.Ordered := by
  intro id found parent hs hparent
  rw [scope?_push] at hs
  split at hs
  · next hid =>
    cases hs
    rw [hid]
    exact hp parent hparent
  · exact h id found parent hs hparent

/-! ## Chains -/

theorem chainWithin_of_none {a : Arena} {id : ScopeId} (fuel : Nat) (hs : a.scope? id = none) :
    a.chainWithin (fuel + 1) id = [] := by
  rw [chainWithin, hs]

theorem chainWithin_of_some {a : Arena} {id : ScopeId} {scope : Scope} (fuel : Nat)
    (hs : a.scope? id = some scope) :
    a.chainWithin (fuel + 1) id =
      (id, scope) :: (scope.parent.map (a.chainWithin fuel)).getD [] := by
  simp only [chainWithin, hs]
  cases scope.parent <;> rfl

theorem chain_of_none {a : Arena} {id : ScopeId} (hs : a.scope? id = none) : a.chain id = [] :=
  chainWithin_of_none id.index hs

/-- What is on a chain: its first scope, or what is on the chain of the scope around that one. -/
theorem mem_chainWithin_succ {a : Arena} {fuel : Nat} {id : ScopeId} {x : ScopeId × Scope}
    (hx : x ∈ a.chainWithin (fuel + 1) id) :
    ∃ scope, a.scope? id = some scope ∧
      (x = (id, scope) ∨
        ∃ parent, scope.parent = some parent ∧ x ∈ a.chainWithin fuel parent) := by
  cases hs : a.scope? id with
  | none =>
    rw [chainWithin_of_none fuel hs] at hx
    cases hx
  | some scope =>
    rw [chainWithin_of_some fuel hs, List.mem_cons] at hx
    refine ⟨scope, rfl, hx.imp_right fun hx => ?_⟩
    cases hp : scope.parent with
    | none =>
      rw [hp] at hx
      cases hx
    | some parent =>
      rw [hp] at hx
      exact ⟨parent, rfl, hx⟩

/-- In an ordered arena a chain ends before its fuel does. -/
theorem Ordered.chainWithin_eq {a : Arena} (h : a.Ordered) :
    ∀ (fuel : Nat) (id : ScopeId), id.index < fuel → a.chainWithin fuel id = a.chain id := by
  intro fuel
  induction fuel using Nat.strongRecOn with
  | _ fuel ih =>
    intro id hid
    obtain ⟨fuel, rfl⟩ : ∃ n, fuel = n + 1 := ⟨fuel - 1, by omega⟩
    cases hs : a.scope? id with
    | none => rw [chainWithin_of_none fuel hs, chain_of_none hs]
    | some scope =>
      rw [chain, chainWithin_of_some fuel hs, chainWithin_of_some id.index hs]
      cases hp : scope.parent with
      | none => rfl
      | some parent =>
        -- both sides go on with the scope around, which is older
        have hlt := h id scope parent hs hp
        simp only [Option.map_some, Option.getD_some]
        rw [ih fuel (by omega) parent (by omega), ih id.index (by omega) parent hlt]

theorem Ordered.chain_eq {a : Arena} (h : a.Ordered) {id : ScopeId} {scope : Scope}
    (hs : a.scope? id = some scope) :
    a.chain id = (id, scope) :: (scope.parent.map a.chain).getD [] := by
  rw [chain, chainWithin_of_some id.index hs]
  cases hp : scope.parent with
  | none => rfl
  | some parent =>
    simp only [Option.map_some, Option.getD_some]
    rw [h.chainWithin_eq id.index parent (h id scope parent hs hp)]

/-- Each scope of a chain is in the arena. -/
theorem scope?_of_mem_chainWithin {a : Arena} :
    ∀ {fuel : Nat} {id found : ScopeId} {scope : Scope},
      (found, scope) ∈ a.chainWithin fuel id → a.scope? found = some scope := by
  intro fuel
  induction fuel with
  | zero =>
    intro id found scope hm
    cases hm
  | succ fuel ih =>
    intro id found scope hm
    obtain ⟨own, hs, he | ⟨parent, -, hm⟩⟩ := mem_chainWithin_succ hm
    · cases he
      exact hs
    · exact ih hm

/-- No scope of a chain is newer than the first one. -/
theorem Ordered.index_le_of_mem_chainWithin {a : Arena} (h : a.Ordered) :
    ∀ {fuel : Nat} {id : ScopeId} {x : ScopeId × Scope},
      x ∈ a.chainWithin fuel id → x.1.index ≤ id.index := by
  intro fuel
  induction fuel with
  | zero =>
    intro id x hm
    cases hm
  | succ fuel ih =>
    intro id x hm
    obtain ⟨own, hs, rfl | ⟨parent, hp, hm⟩⟩ := mem_chainWithin_succ hm
    · exact Nat.le_refl _
    · exact Nat.le_trans (ih hm) (Nat.le_of_lt (h id own parent hs hp))

theorem Ordered.mem_chain {a : Arena} (h : a.Ordered) {id found : ScopeId} {scope : Scope}
    (hm : (found, scope) ∈ a.chain id) : a.scope? found = some scope ∧ found.index ≤ id.index :=
  ⟨scope?_of_mem_chainWithin hm, h.index_le_of_mem_chainWithin hm⟩

/-- What is around a scope of a chain is in the chain, too. -/
theorem Ordered.chain_subset {a : Arena} (h : a.Ordered) {id : ScopeId} {x : ScopeId × Scope}
    (hx : x ∈ a.chain id) : a.chain x.1 ⊆ a.chain id := by
  obtain ⟨index⟩ := id
  induction index using Nat.strongRecOn with
  | _ index ih =>
    cases hs : a.scope? ⟨index⟩ with
    | none =>
      rw [chain_of_none hs] at hx
      cases hx
    | some scope =>
      have hchain := h.chain_eq hs
      rw [hchain, List.mem_cons] at hx
      rcases hx with rfl | hx
      · exact List.Subset.refl _
      · cases hp : scope.parent with
        | none => simp [hp] at hx
        | some parent =>
          rw [hp] at hx hchain
          rw [hchain]
          exact List.subset_cons_of_subset _ (ih parent.index (h _ scope parent hs hp) hx)

/-- A change that keeps the scope around each scope keeps the scopes of each chain. -/
theorem Ordered.chain_rel {a b : Arena} (h : a.Ordered) {R : ScopeId → Scope → Scope → Prop}
    (hr : ∀ id scope, a.scope? id = some scope →
      ∃ scope', b.scope? id = some scope' ∧ scope'.parent = scope.parent ∧ R id scope scope')
    {id : ScopeId} (hid : id.index < a.size) :
    List.Forall₂ (fun x y => x.1 = y.1 ∧ R x.1 x.2 y.2) (a.chain id) (b.chain id) := by
  suffices hall : ∀ (fuel : Nat) (id : ScopeId), id.index < a.size →
      List.Forall₂ (fun x y => x.1 = y.1 ∧ R x.1 x.2 y.2)
        (a.chainWithin fuel id) (b.chainWithin fuel id) from hall _ id hid
  intro fuel
  induction fuel with
  | zero =>
    intro id _
    exact .nil
  | succ fuel ih =>
    intro id hid
    obtain ⟨scope, hs⟩ := scope?_of_lt hid
    obtain ⟨scope', hs', hparent, hrel⟩ := hr id scope hs
    rw [chainWithin_of_some fuel hs, chainWithin_of_some fuel hs', hparent]
    refine .cons ⟨rfl, hrel⟩ ?_
    cases hp : scope.parent with
    | none => exact .nil
    | some parent =>
      have hlt := h id scope parent hs hp
      exact ih parent (by omega)

/-- A chain depends only on scopes that are no newer than the first one. -/
theorem Ordered.chain_congr {a b : Arena} (h : a.Ordered) {id : ScopeId}
    (hsame : ∀ older : ScopeId, older.index ≤ id.index → b.scope? older = a.scope? older) :
    b.chain id = a.chain id := by
  suffices hall : ∀ (fuel : Nat) (older : ScopeId), older.index ≤ id.index →
      b.chainWithin fuel older = a.chainWithin fuel older from hall _ id (Nat.le_refl _)
  intro fuel
  induction fuel with
  | zero =>
    intro older _
    rfl
  | succ fuel ih =>
    intro older hle
    have hsame := hsame older hle
    cases hs : a.scope? older with
    | none => rw [chainWithin_of_none fuel (hsame.trans hs), chainWithin_of_none fuel hs]
    | some scope =>
      rw [chainWithin_of_some fuel (hsame.trans hs), chainWithin_of_some fuel hs]
      cases hp : scope.parent with
      | none => rfl
      | some parent =>
        have hlt := h older scope parent hs hp
        simp only [Option.map_some, ih parent (by omega)]

/-- What a scope says about a name comes before what the scopes around it say. -/
theorem Ordered.getVar_eq {a : Arena} (h : a.Ordered) {id around : ScopeId} {scope : Scope}
    (hs : a.scope? id = some scope) (hp : scope.parent = some around) (globals : Globals)
    (name : String) (mode : LookupMode) :
    a.getVar globals id name mode =
      (ownType? scope name mode).or (a.getVar globals around name mode) := by
  simp only [getVar, h.chain_eq hs, hp, Option.map_some, Option.getD_some, List.findSome?_cons]
  cases ownType? scope name mode <;> rfl

/-! ## First matches on related chains -/

theorem find?_rel {α β : Type} {P : α → β → Prop} {l : List α} {l' : List β}
    (h : List.Forall₂ P l l') {p : α → Bool} {q : β → Bool} (hpq : ∀ x y, P x y → p x = q y) :
    Option.Rel P (l.find? p) (l'.find? q) := by
  induction h with
  | nil => exact .none
  | @cons x y _ _ hxy _ ih =>
    rw [List.find?_cons, List.find?_cons, ← hpq x y hxy]
    cases p x with
    | true => exact .some hxy
    | false => exact ih

theorem findSome?_rel {α β γ : Type} {P : α → β → Prop} {l : List α} {l' : List β}
    (h : List.Forall₂ P l l') {f : α → Option γ} {g : β → Option γ}
    (hfg : ∀ x y, P x y → f x = g y) : l.findSome? f = l'.findSome? g := by
  induction h with
  | nil => rfl
  | @cons x y _ _ hxy _ ih => rw [List.findSome?_cons, List.findSome?_cons, hfg x y hxy, ih]

/-- When no more elements match than before, the first match stays so as long as it matches. -/
theorem find?_rel_of_fewer {α β : Type} {P : α → β → Prop} {l : List α} {l' : List β}
    (h : List.Forall₂ P l l') {p : α → Bool} {q : β → Bool} (hqp : ∀ x y, P x y → q y → p x)
    {x : α} (hx : l.find? p = some x) (hkept : ∀ y, P x y → q y) :
    ∃ y, l'.find? q = some y ∧ P x y := by
  induction h with
  | nil => cases hx
  | @cons first y _ _ hxy _ ih =>
    rw [List.find?_cons] at hx ⊢
    cases hp : p first with
    | true =>
      rw [hp] at hx
      cases hx
      exact ⟨y, by rw [hkept y hxy], hxy⟩
    | false =>
      rw [hp] at hx
      have hq : q y = false := by
        cases hq : q y with
        | false => rfl
        | true => rw [hqp first y hxy hq] at hp; cases hp
      rw [hq]
      exact ih hx

end HeaderCheck.Scope.Arena
