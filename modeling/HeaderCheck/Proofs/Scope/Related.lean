import HeaderCheck.Proofs.Scope.Keeps

/-!
# HeaderCheck.Proofs.Scope.Related

Dictionaries and arenas of two runs, compared place by place.

* `Dict.Related`: dictionaries with the same entries, up to keys and values that belong together.
* `Arena.Related`: arenas whose scopes belong together. Where that includes the places and kinds of
  the scopes, the two arenas have the same chains, and scopes have the same owners.
-/

namespace HeaderCheck

/-! ## Related dictionaries -/

namespace Dict

variable {α β : Type} {R : String → String → Prop} {S : String → α → β → Prop}

/-- Entries whose keys and values belong together, in the same order. -/
def Related (R : String → String → Prop) (S : String → α → β → Prop) (d : Dict α) (d' : Dict β) :
    Prop :=
  List.Forall₂ (fun x y => R x.1 y.1 ∧ S x.1 x.2 y.2) d.entries d'.entries

/-- Keys that belong together one to one. -/
def OneToOne (R : String → String → Prop) : Prop :=
  ∀ {key key' other other'}, R key key' → R other other' → (key = other ↔ key' = other')

namespace Related

variable {d : Dict α} {d' : Dict β} {key key' : String} {value : α} {value' : β}

theorem empty : Related R S {} {} :=
  .nil

theorem get?_rel (h : Related R S d d') (hone : OneToOne R) (hkey : R key key') :
    Option.Rel (S key) (d.get? key) (d'.get? key') := by
  obtain ⟨es⟩ := d
  obtain ⟨es'⟩ := d'
  simp only [Related] at h
  simp only [get?]
  induction h with
  | nil => exact .none
  | @cons x y _ _ hxy _ ih =>
    have hsame := hone hxy.1 hkey
    simp only [lookup]
    by_cases hfirst : x.1 = key
    · rw [if_pos hfirst, if_pos (hsame.mp hfirst), ← hfirst]
      exact .some hxy.2
    · rw [if_neg hfirst, if_neg fun h => hfirst (hsame.mpr h)]
      exact ih

theorem contains_eq (h : Related R S d d') (hone : OneToOne R) (hkey : R key key') :
    d'.contains key' = d.contains key := by
  have hrel := h.get?_rel hone hkey
  simp only [contains]
  generalize d.get? key = x at hrel
  generalize d'.get? key' = y at hrel
  cases hrel <;> rfl

theorem insert (h : Related R S d d') (hone : OneToOne R) (hkey : R key key')
    (hvalue : S key value value') : Related R S (d.insert key value) (d'.insert key' value') := by
  obtain ⟨es⟩ := d
  obtain ⟨es'⟩ := d'
  simp only [Related] at h
  simp only [Related, Dict.insert]
  induction h with
  | nil => exact .cons ⟨hkey, hvalue⟩ .nil
  | @cons x y _ _ hxy hrest ih =>
    have hsame := hone hxy.1 hkey
    simp only [put]
    by_cases hfirst : x.1 = key
    · rw [if_pos hfirst, if_pos (hsame.mp hfirst)]
      exact .cons ⟨hxy.1, hfirst ▸ hvalue⟩ hrest
    · rw [if_neg hfirst, if_neg fun h => hfirst (hsame.mpr h)]
      exact .cons hxy ih

theorem erase (h : Related R S d d') (hone : OneToOne R) (hkey : R key key') :
    Related R S (d.erase key) (d'.erase key') := by
  obtain ⟨es⟩ := d
  obtain ⟨es'⟩ := d'
  simp only [Related] at h
  simp only [Related, Dict.erase]
  induction h with
  | nil => exact .nil
  | @cons x y _ _ hxy hrest ih =>
    have hsame := hone hxy.1 hkey
    simp only [drop]
    by_cases hfirst : x.1 = key
    · rwa [if_pos hfirst, if_pos (hsame.mp hfirst)]
    · rw [if_neg hfirst, if_neg fun h => hfirst (hsame.mpr h)]
      exact .cons hxy ih

theorem size_eq (h : Related R S d d') : d'.size = d.size :=
  (List.Forall₂.length_eq h).symm

end Related

theorem oneToOne_eq : OneToOne Eq := by
  rintro _ _ _ _ rfl rfl
  exact Iff.rfl

end Dict

namespace Scope

/-- Scopes that belong together stand at the same place and are of the same kind. -/
structure Shaped (P : ScopeId → HeaderCheck.Scope → HeaderCheck.Scope → Prop) : Prop where
  parent : ∀ {id scope scope'}, P id scope scope' → scope'.parent = scope.parent
  isBranch : ∀ {id scope scope'}, P id scope scope' → scope'.kind.isBranch = scope.kind.isBranch
  isFunction : ∀ {id scope scope'}, P id scope scope' →
    scope'.kind.isFunction = scope.kind.isFunction

namespace Arena

variable {P : ScopeId → HeaderCheck.Scope → HeaderCheck.Scope → Prop} {a a' : Arena} {id : ScopeId}

/-- Arenas whose scopes belong together. -/
def Related (P : ScopeId → HeaderCheck.Scope → HeaderCheck.Scope → Prop) (a a' : Arena) : Prop :=
  ∀ id, Option.Rel (P id) (a.scope? id) (a'.scope? id)

namespace Related

theorem exists_counterpart (h : Related P a a') {scope : HeaderCheck.Scope}
    (hs : a.scope? id = some scope) : ∃ scope', a'.scope? id = some scope' ∧ P id scope scope' := by
  have hrel := h id
  rw [hs] at hrel
  generalize a'.scope? id = found at hrel
  cases hrel with
  | some ht => exact ⟨_, rfl, ht⟩

theorem size_eq (h : Related P a a') : a'.size = a.size := by
  have hlt (index : Nat) : index < a'.size ↔ index < a.size := by
    have hrel := h ⟨index⟩
    simp only [scope?] at hrel
    have hlt (a : Arena) : index < a.size ↔ a.scopes[index]?.isSome := by simp [size]
    rw [hlt, hlt]
    generalize a.scopes[index]? = x at hrel
    generalize a'.scopes[index]? = y at hrel
    cases hrel <;> rfl
  have hle := (hlt a.size).mp
  have hge := (hlt a'.size).mpr
  omega

/-! ### Look-ups -/

section Lookups

variable (hP : Shaped P) (h : Related P a a')

include hP h

theorem chain_rel (id : ScopeId) :
    List.Forall₂ (fun x y => x.1 = y.1 ∧ P x.1 x.2 y.2) (a.chain id) (a'.chain id) := by
  suffices hall : ∀ (fuel : Nat) (id : ScopeId),
      List.Forall₂ (fun x y => x.1 = y.1 ∧ P x.1 x.2 y.2) (a.chainWithin fuel id)
        (a'.chainWithin fuel id) from hall _ id
  intro fuel
  induction fuel with
  | zero =>
    intro id
    exact .nil
  | succ fuel ih =>
    intro id
    have hrel := h id
    generalize hs : a.scope? id = x at hrel
    generalize hs' : a'.scope? id = y at hrel
    cases hrel with
    | none =>
      rw [chainWithin_of_none fuel hs, chainWithin_of_none fuel hs']
      exact .nil
    | @some scope scope' ht =>
      rw [chainWithin_of_some fuel hs, chainWithin_of_some fuel hs', hP.parent ht]
      refine .cons ⟨rfl, ht⟩ ?_
      cases scope.parent with
      | none => exact .nil
      | some parent => exact ih parent

theorem nearest?_rel (id : ScopeId) :
    Option.Rel (fun x y => x.1 = y.1 ∧ P x.1 x.2 y.2) (a.nearest? id) (a'.nearest? id) :=
  find?_rel (h.chain_rel hP id) fun x y hxy => by rw [hP.isBranch hxy.2]

theorem owner_eq (id : ScopeId) : a'.owner id = a.owner id := by
  have hrel := h.nearest?_rel hP id
  rw [owner_eq_nearest?, owner_eq_nearest?]
  generalize a.nearest? id = x at hrel
  generalize a'.nearest? id = y at hrel
  cases hrel with
  | none => rfl
  | some hxy => exact hxy.1.symm

theorem functionScope?_eq (id : ScopeId) : a'.functionScope? id = a.functionScope? id := by
  have hrel := h.nearest?_rel hP id
  rw [functionScope?_eq_nearest?, functionScope?_eq_nearest?]
  generalize a.nearest? id = x at hrel
  generalize a'.nearest? id = y at hrel
  cases hrel with
  | none => rfl
  | some hxy => simp only [Option.filter_some, Option.map_if, hxy.1, hP.isFunction hxy.2]

theorem root_eq (id : ScopeId) : a'.root id = a.root id := by
  have hlast : Option.Rel (fun x y => x.1 = y.1 ∧ P x.1 x.2 y.2) (a.chain id).getLast?
      (a'.chain id).getLast? := by
    have hrel := List.forall₂_reverse_iff.mpr (h.chain_rel hP id)
    rw [List.getLast?_eq_head?_reverse, List.getLast?_eq_head?_reverse]
    generalize (a.chain id).reverse = chain at hrel
    generalize (a'.chain id).reverse = chain' at hrel
    cases hrel with
    | nil => exact .none
    | cons hxy _ => exact .some hxy
  simp only [root]
  generalize (a.chain id).getLast? = x at hlast
  generalize (a'.chain id).getLast? = y at hlast
  cases hlast with
  | none => rfl
  | some hxy => exact hxy.1.symm

theorem isBranch_eq (id : ScopeId) :
    (a'.scope? id).any (fun scope => scope.kind.isBranch) =
      (a.scope? id).any fun scope => scope.kind.isBranch := by
  have hrel := h id
  generalize a.scope? id = x at hrel
  generalize a'.scope? id = y at hrel
  cases hrel with
  | none => rfl
  | some ht => simp only [Option.any_some, hP.isBranch ht]

end Lookups

/-! ### Operations -/

theorem modify (h : Related P a a') {change change' : HeaderCheck.Scope → HeaderCheck.Scope}
    (hchange : ∀ scope scope', a.scope? id = some scope → P id scope scope' →
      P id (change scope) (change' scope')) :
    Related P (a.modify id change) (a'.modify id change') := by
  intro other
  rw [scope?_modify, scope?_modify]
  have hrel := h other
  by_cases hid : id = other
  · subst hid
    rw [if_pos rfl, if_pos rfl]
    cases hs : a.scope? id with
    | none =>
      rw [hs] at hrel
      generalize a'.scope? id = y at hrel
      cases hrel
      exact .none
    | some scope =>
      obtain ⟨scope', hs', ht⟩ := h.exists_counterpart hs
      rw [hs']
      exact .some (hchange scope scope' hs ht)
  · rwa [if_neg hid, if_neg hid]

theorem push (h : Related P a a') {scope scope' : HeaderCheck.Scope}
    (ht : P ⟨a.size⟩ scope scope') : Related P (a.push scope).2 (a'.push scope').2 := by
  rintro ⟨index⟩
  rw [scope?_push, scope?_push, h.size_eq]
  by_cases hid : index = a.size
  · subst hid
    rw [if_pos rfl, if_pos rfl]
    exact .some ht
  · rw [if_neg hid, if_neg hid]
    exact h ⟨index⟩

end Related

end Arena

end Scope

end HeaderCheck
