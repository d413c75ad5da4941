import HeaderCheck.Proofs.Scope.Chain

/-!
# HeaderCheck.Proofs.Scope.Narrowed

Arenas that differ by narrowed types of branches.

* `SameNames`: one scope before and after.
* `Arena.Narrowed`: only the narrowed types of some branches differ, and new scopes are branches
  without names. Such steps compose (`Narrowed.trans`).
-/

namespace HeaderCheck.Scope

open HeaderCheck.Types

/-! ## Scopes that differ by narrowed types -/

/-- The same scope with other narrowed types, of `this` only where it is a branch. -/
structure SameNames (scope scope' : Scope) : Prop where
  parent : scope'.parent = scope.parent
  identifiers : scope'.identifiers = scope.identifiers
  untyped : scope'.untyped = scope.untyped
  functions : scope'.functions = scope.functions
  kind : scope'.kind = scope.kind ∨ (scope.kind.isBranch ∧ scope'.kind.isBranch)

theorem SameNames.refl (scope : Scope) : SameNames scope scope :=
  ⟨rfl, rfl, rfl, rfl, .inl rfl⟩

theorem SameNames.isBranch_eq {scope scope' : Scope} (h : SameNames scope scope') :
    scope'.kind.isBranch = scope.kind.isBranch := by
  rcases h.kind with he | ⟨hb, hb'⟩
  · rw [he]
  · rw [hb, hb']

theorem SameNames.trans {one two three : Scope} (h : SameNames one two) (h' : SameNames two three) :
    SameNames one three where
  parent := h'.parent.trans h.parent
  identifiers := h'.identifiers.trans h.identifiers
  untyped := h'.untyped.trans h.untyped
  functions := h'.functions.trans h.functions
  kind := by
    rcases h.kind with he | ⟨hb, hb'⟩
    · rw [← he]
      exact h'.kind
    · exact .inr ⟨hb, by rw [h'.isBranch_eq, hb']⟩

/-- A branch in which no name is bound or declared. -/
structure EmptyBranch (around : ScopeId) (scope : Scope) : Prop where
  parent : scope.parent = some around
  isBranch : scope.kind.isBranch
  identifiers : scope.identifiers = {}
  untyped : scope.untyped = {}
  functions : scope.functions = {}

theorem EmptyBranch.sameNames {around : ScopeId} {scope scope' : Scope}
    (h : EmptyBranch around scope) (h' : SameNames scope scope') : EmptyBranch around scope' where
  parent := h'.parent.trans h.parent
  isBranch := by rw [h'.isBranch_eq, h.isBranch]
  identifiers := h'.identifiers.trans h.identifiers
  untyped := h'.untyped.trans h.untyped
  functions := h'.functions.trans h.functions

namespace Arena

/-- Only the scopes in `arms` are narrowed, and new scopes are empty branches of `around`. -/
structure Narrowed (around : ScopeId) (arms : List ScopeId) (a b : Arena) : Prop where
  old : ∀ id scope, a.scope? id = some scope →
    ∃ scope', b.scope? id = some scope' ∧ SameNames scope scope' ∧ (id ∉ arms → scope' = scope)
  new : ∀ id scope', a.size ≤ id.index → b.scope? id = some scope' → EmptyBranch around scope'

namespace Narrowed

variable {around : ScopeId} {arms : List ScopeId} {a b c : Arena}

theorem refl (around : ScopeId) (arms : List ScopeId) (a : Arena) : Narrowed around arms a a where
  old := fun _ scope hs => ⟨scope, hs, .refl scope, fun _ => rfl⟩
  new := fun _ _ hle hs => absurd (index_lt_size hs) (by omega)

/-- What follows may also narrow scopes that are new. -/
theorem trans {arms' : List ScopeId} (h : Narrowed around arms a b)
    (h' : Narrowed around arms' b c) (hsub : ∀ id ∈ arms', id ∈ arms ∨ a.size ≤ id.index) :
    Narrowed around arms a c where
  old := by
    intro id scope hs
    obtain ⟨scope', hs', hsame, heq⟩ := h.old id scope hs
    obtain ⟨scope'', hs'', hsame', heq'⟩ := h'.old id scope' hs'
    refine ⟨scope'', hs'', hsame.trans hsame', ?_⟩
    intro hout
    have hout' : id ∉ arms' := by
      intro hin
      have hlt := index_lt_size hs
      rcases hsub id hin with hmem | hle
      · exact hout hmem
      · omega
    rw [heq' hout', heq hout]
  new := by
    intro id scope'' hle hs''
    by_cases hlt : id.index < b.size
    · obtain ⟨scope', hs'⟩ := scope?_of_lt hlt
      obtain ⟨found, hfound, hsame, _⟩ := h'.old id scope' hs'
      rw [hs''] at hfound
      cases hfound
      exact (h.new id scope' hle hs').sameNames hsame
    · exact h'.new id scope'' (by omega) hs''

theorem ordered (h : Narrowed around arms a b) (ho : a.Ordered) (haround : around.index < a.size) :
    b.Ordered := by
  intro id scope' parent hs' hp
  by_cases hlt : id.index < a.size
  · obtain ⟨scope, hs⟩ := scope?_of_lt hlt
    obtain ⟨found, hfound, hsame, _⟩ := h.old id scope hs
    rw [hs'] at hfound
    cases hfound
    exact ho id scope parent hs (hsame.parent ▸ hp)
  · have hparent := (h.new id scope' (by omega) hs').parent
    rw [hp] at hparent
    cases hparent
    omega

theorem pushBranch (around : ScopeId) (arms : List ScopeId) (a : Arena) :
    Narrowed around arms a (a.pushBranch around).2 where
  old := fun _ scope hs => ⟨scope, scope?_push_of_some _ hs, .refl scope, fun _ => rfl⟩
  new := by
    intro id scope' hle hs'
    rw [Arena.pushBranch, scope?_push] at hs'
    split at hs'
    · cases hs'
      exact ⟨rfl, rfl, rfl, rfl, rfl⟩
    · exact absurd (index_lt_size hs') (by omega)

/-- Scopes that are no newer than `around` are seen as before when only newer ones are narrowed. -/
theorem getVar_eq (h : Narrowed around arms a b) (ho : a.Ordered)
    (haround : around.index < a.size) (hnew : ∀ arm ∈ arms, around.index < arm.index)
    (globals : Globals) (name : String) (mode : LookupMode) :
    b.getVar globals around name mode = a.getVar globals around name mode := by
  have hchain : b.chain around = a.chain around := by
    refine ho.chain_congr ?_
    intro older hle
    obtain ⟨scope, hs⟩ := scope?_of_lt (show older.index < a.size by omega)
    obtain ⟨scope', hs', _, heq⟩ := h.old older scope hs
    have hout : older ∉ arms := by
      intro hin
      have := hnew older hin
      omega
    rw [hs, hs', heq hout]
  rw [getVar, getVar, hchain]

end Narrowed

/-- A branch with one more narrowed type. -/
def narrowScope (name : String) (type : TypeId) (scope : Scope) : Scope :=
  if name = thisName then { scope with kind := .branch (some type) }
  else { scope with restrictions := scope.restrictions.insert name type }

theorem restrict_branch {a : Arena} {id : ScopeId} {scope : Scope} (hs : a.scope? id = some scope)
    (hb : scope.kind.isBranch) (name : String) (type : TypeId) :
    a.restrict id name type = (.ok (), a.modify id (narrowScope name type)) := by
  obtain ⟨_ | ⟨prototypes⟩, hkind⟩ : ∃ kind, scope.kind = kind := ⟨_, rfl⟩
  · simp [hkind, Kind.isBranch] at hb
  · simp [hkind, Kind.isBranch] at hb
  · next this =>
    simp only [restrict, hs, hkind]
    by_cases hname : name = thisName
    · have hchange : narrowScope name type = fun scope =>
          { scope with kind := .branch (some type) } := by
        funext scope
        simp [narrowScope, hname]
      rw [hchange, if_pos hname]
    · have hchange : narrowScope name type = fun scope =>
          { scope with restrictions := scope.restrictions.insert name type } := by
        funext scope
        simp [narrowScope, hname]
      rw [hchange, if_neg hname]

theorem sameNames_narrowScope {scope : Scope} (hb : scope.kind.isBranch) (name : String)
    (type : TypeId) : SameNames scope (narrowScope name type scope) := by
  simp only [narrowScope]
  split
  · exact ⟨rfl, rfl, rfl, rfl, .inr ⟨hb, rfl⟩⟩
  · exact ⟨rfl, rfl, rfl, rfl, .inl rfl⟩

theorem narrowed_restrict {a : Arena} {arm : ScopeId} {scope : Scope}
    (hs : a.scope? arm = some scope) (hb : scope.kind.isBranch) (around : ScopeId) (name : String)
    (type : TypeId) : Narrowed around [arm] a (a.modify arm (narrowScope name type)) where
  old := by
    intro id found hfound
    rw [scope?_modify]
    split
    · next heq =>
      subst heq
      rw [hs] at hfound
      cases hfound
      refine ⟨_, by rw [hs]; rfl, sameNames_narrowScope hb name type, ?_⟩
      intro hout
      exact absurd (List.mem_singleton_self arm) hout
    · exact ⟨found, hfound, .refl found, fun _ => rfl⟩
  new := by
    intro id scope' hle hs'
    have hlt := index_lt_size hs'
    rw [size_modify] at hlt
    omega

/-- A narrowed name has the narrowed type; `this` is kept apart from the names. -/
theorem ownType?_narrowScope (name other : String) (type : TypeId) (scope : Scope) :
    ownType? (narrowScope name type scope) other .normal =
      if name = other ∧ name ≠ thisName then some type else ownType? scope other .normal := by
  simp only [narrowScope]
  by_cases hthis : name = thisName
  · simp [hthis, ownType?]
  · by_cases hname : name = other
    · subst hname
      simp [hthis, ownType?]
    · simp [hthis, hname, ownType?]

end Arena

end HeaderCheck.Scope
