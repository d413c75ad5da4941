import HeaderCheck.Proofs.Scope.Operations

/-!
# HeaderCheck.Proofs.Scope.Limits

Operations on scopes within limits: names that they may deal with, and scopes that are open for new
names.

* `Touched`: one scope before and after. A scope that is not open gets no function, and gets a name
  only by giving its function of that name a type.
* `Arena.Touches`: the same for all scopes there were. These steps compose.
* `Arena.Placed`: functions without a type come from a given set, and each name has one of them.
-/

namespace HeaderCheck.Scope

open HeaderCheck.Types

/-! ## One scope -/

/-- What a scope says about one name is what it said before. -/
structure SameAbout (name : String) (scope scope' : Scope) : Prop where
  identifiers : scope'.identifiers.get? name = scope.identifiers.get? name
  restrictions : scope'.restrictions.get? name = scope.restrictions.get? name
  untyped : scope'.untyped.get? name = scope.untyped.get? name

/-- Nothing is declared in the scope, up to functions of it that are bound to their types. -/
structure Sealed (scope scope' : Scope) : Prop where
  untyped : ∀ name, scope'.untyped.contains name → scope.untyped.contains name
  bound : ∀ name, scope'.identifiers.contains name →
    scope.identifiers.contains name ∨ scope.untyped.contains name
  apart : ∀ name, scope'.identifiers.contains name → scope'.untyped.contains name →
    scope.identifiers.contains name

/-- A scope changes within limits. -/
structure Touched (names : String → Prop) (isOpen : Prop) (scope scope' : Scope) : Prop where
  retained : Retained scope scope'
  kept : ∀ name, scope.untyped.contains name →
    scope'.untyped.contains name ∨ scope'.identifiers.contains name
  spared : ∀ name, ¬names name → SameAbout name scope scope'
  shut : isOpen ∨ Sealed scope scope'

theorem SameAbout.refl (name : String) (scope : Scope) : SameAbout name scope scope :=
  ⟨rfl, rfl, rfl⟩

theorem Sealed.refl (scope : Scope) : Sealed scope scope :=
  ⟨fun _ h => h, fun _ h => .inl h, fun _ h _ => h⟩

theorem Sealed.trans {one two three : Scope} (h : Sealed one two) (h' : Sealed two three) :
    Sealed one three where
  untyped := fun name hn => h.untyped name (h'.untyped name hn)
  bound := by
    intro name hn
    rcases h'.bound name hn with hbound | huntyped
    · exact h.bound name hbound
    · exact .inr (h.untyped name huntyped)
  apart := fun name hn hu => h.apart name (h'.apart name hn hu) (h'.untyped name hu)

namespace Touched

variable {names names' : String → Prop} {isOpen isOpen' : Prop}

theorem refl (scope : Scope) : Touched names isOpen scope scope :=
  ⟨.refl scope, fun _ h => .inl h, fun name _ => .refl name scope, .inr (.refl scope)⟩

theorem trans {one two three : Scope} (h : Touched names isOpen one two)
    (h' : Touched names isOpen two three) : Touched names isOpen one three where
  retained := h.retained.trans h'.retained
  kept := by
    intro name hn
    rcases h.kept name hn with hn | hn
    · exact h'.kept name hn
    · exact .inr (h'.retained.identifiers name hn)
  spared := by
    intro name hn
    have hone := h.spared name hn
    have htwo := h'.spared name hn
    exact ⟨htwo.identifiers.trans hone.identifiers, htwo.restrictions.trans hone.restrictions,
      htwo.untyped.trans hone.untyped⟩
  shut := by
    rcases h.shut with hopen | hshut
    · exact .inl hopen
    · exact h'.shut.imp_right hshut.trans

theorem weaken {scope scope' : Scope} (h : Touched names isOpen scope scope')
    (hnames : ∀ name, names name → names' name) (hopen : isOpen → isOpen') :
    Touched names' isOpen' scope scope' :=
  ⟨h.retained, h.kept, fun name hn => h.spared name fun hin => hn (hnames name hin),
    h.shut.imp_left hopen⟩

end Touched

/-! ### Changes of one scope -/

section Changes

variable {names : String → Prop} {isOpen : Prop} {name : String}

/-- A change that leaves names and functions without a type alone. -/
theorem touched_of_same {scope scope' : Scope} (hr : Retained scope scope')
    (hi : scope'.identifiers = scope.identifiers) (hu : scope'.untyped = scope.untyped)
    (hn : ∀ name, ¬names name → scope'.restrictions.get? name = scope.restrictions.get? name) :
    Touched names isOpen scope scope' where
  retained := hr
  kept := fun name h => .inl (by rwa [hu])
  spared := fun name h => ⟨by rw [hi], hn name h, by rw [hu]⟩
  shut := .inr ⟨fun name h => by rwa [hu] at h, fun name h => .inl (by rwa [hi] at h),
    fun name h _ => by rwa [hi] at h⟩

theorem get?_insert_of_spared {α : Type} {d : Dict α} (hname : names name) (value : α)
    {other : String} (h : ¬names other) : (d.insert name value).get? other = d.get? other := by
  rw [Dict.get?_insert, if_neg]
  rintro rfl
  exact h hname

theorem get?_erase_of_spared {α : Type} {d : Dict α} (hname : names name) {other : String}
    (h : ¬names other) : (d.erase name).get? other = d.get? other := by
  refine Dict.lookup_drop ?_ d.entries
  rintro rfl
  exact h hname

theorem contains_of_insert {α : Type} {d : Dict α} {value : α} {other : String}
    (h : (d.insert name value).contains other) : name = other ∨ d.contains other := by
  by_cases heq : name = other
  · exact .inl heq
  · rw [Dict.contains, Dict.get?_insert, if_neg heq] at h
    exact .inr h

theorem contains_of_erase {α : Type} {d : Dict α} (hd : d.keys.Nodup) {other : String}
    (h : (d.erase name).contains other) : name ≠ other ∧ d.contains other := by
  have hne : name ≠ other := by
    rintro rfl
    rw [Dict.contains_erase_self hd] at h
    cases h
  exact ⟨hne, by rwa [Dict.contains_erase hne] at h⟩

/-- A name gets a type where names may be bound, or where it has one already. -/
theorem touched_bind (hname : names name) {scope : Scope}
    (h : isOpen ∨ scope.identifiers.contains name) (type : TypeId) :
    Touched names isOpen scope
      { scope with identifiers := scope.identifiers.insert name type } where
  retained := (Arena.mild_bind name type scope).retained
  kept := fun _ h => .inl h
  spared := fun other h => ⟨get?_insert_of_spared hname type h, rfl, rfl⟩
  shut := by
    refine h.imp_right fun hbound => ?_
    have hold : ∀ other, (scope.identifiers.insert name type).contains other →
        scope.identifiers.contains other := by
      intro other hother
      rcases contains_of_insert hother with rfl | hother
      · exact hbound
      · exact hother
    exact ⟨fun _ h => h, fun other h => .inl (hold other h), fun other h _ => hold other h⟩

theorem touched_restrict (hname : names name) (scope : Scope) (type : TypeId) :
    Touched names isOpen scope
      { scope with restrictions := scope.restrictions.insert name type } :=
  touched_of_same (Arena.mild_restrict name type scope).retained rfl rfl fun _ h =>
    get?_insert_of_spared hname type h

theorem touched_kind {scope : Scope} {kind : Kind} (h : scope.kind.Alike kind) :
    Touched names isOpen scope { scope with kind } :=
  touched_of_same ⟨rfl, h, fun _ h => h, fun _ h => h, fun _ h => h⟩ rfl rfl fun _ _ => rfl

theorem touched_declare (hname : names name) (hopen : isOpen) (scope : Scope)
    (untyped : UntypedFunction) :
    Touched names isOpen scope
      { scope with untyped := scope.untyped.insert name untyped } where
  retained := ⟨rfl, .refl _, fun _ h => h, fun _ h => h, fun _ h => h⟩
  kept := fun _ h => .inl (Dict.contains_insert _ name _ untyped h)
  spared := fun _ h => ⟨rfl, rfl, get?_insert_of_spared hname untyped h⟩
  shut := .inl hopen

theorem touched_typeFunction (hname : names name) {scope : Scope} (hd : scope.untyped.keys.Nodup)
    (hu : scope.untyped.contains name) (type : TypeId) :
    Touched names isOpen scope (Arena.typeFunction name type scope) where
  retained := Arena.retained_typeFunction name type scope
  kept := by
    intro other hother
    by_cases heq : name = other
    · subst heq
      exact .inr (by simp [Arena.typeFunction, Dict.contains])
    · exact .inl (by rwa [Arena.typeFunction, Dict.contains_erase heq])
  spared := fun other h =>
    ⟨get?_insert_of_spared hname type h, rfl, get?_erase_of_spared hname h⟩
  shut := by
    refine .inr ⟨fun other h => (contains_of_erase hd h).2, fun other h => ?_, fun other h h' => ?_⟩
    · rcases contains_of_insert h with rfl | h
      · exact .inr hu
      · exact .inl h
    · exact (contains_of_insert h).resolve_left (contains_of_erase hd h').1

theorem touched_forgetFunction (hname : names name) {scope : Scope} (hd : scope.untyped.keys.Nodup)
    (hbound : scope.identifiers.contains name) :
    Touched names isOpen scope (Arena.forgetFunction name scope) where
  retained := Arena.retained_forgetFunction name scope
  kept := by
    intro other hother
    by_cases heq : name = other
    · subst heq
      exact .inr hbound
    · exact .inl (by rwa [Arena.forgetFunction, Dict.contains_erase heq])
  spared := fun other h => ⟨rfl, rfl, get?_erase_of_spared hname h⟩
  shut := .inr ⟨fun other h => (contains_of_erase hd h).2, fun _ h => .inl h, fun _ h _ => h⟩

end Changes

namespace Arena

/-! ## All scopes -/

theorem exists_of_hasOwnVar {a : Arena} {id : ScopeId} {name : String} (h : a.hasOwnVar id name) :
    ∃ scope, a.scope? id = some scope ∧ scope.identifiers.contains name := by
  rwa [hasOwnVar, Option.any_eq_true] at h

theorem Retains.hasOwnVar {a b : Arena} (h : a.Retains b) {id : ScopeId} {name : String}
    (hown : a.hasOwnVar id name) : b.hasOwnVar id name := by
  obtain ⟨scope, hs, hbound⟩ := exists_of_hasOwnVar hown
  obtain ⟨scope', hs', hr⟩ := h id scope hs
  rw [Arena.hasOwnVar, hs']
  exact hr.identifiers name hbound

/-- Every scope there was changes within limits. -/
def Touches (names : String → Prop) (isOpen : ScopeId → Prop) (a b : Arena) : Prop :=
  ∀ id scope, a.scope? id = some scope →
    ∃ scope', b.scope? id = some scope' ∧ Touched names (isOpen id) scope scope'

namespace Touches

variable {names names' : String → Prop} {isOpen isOpen' : ScopeId → Prop} {a b c : Arena}

theorem refl (a : Arena) : Touches names isOpen a a :=
  fun _ scope hs => ⟨scope, hs, .refl scope⟩

theorem trans (h : Touches names isOpen a b) (h' : Touches names isOpen b c) :
    Touches names isOpen a c := by
  intro id scope hs
  obtain ⟨scope', hs', ht⟩ := h id scope hs
  obtain ⟨scope'', hs'', ht'⟩ := h' id scope' hs'
  exact ⟨scope'', hs'', ht.trans ht'⟩

theorem weaken (h : Touches names isOpen a b) (hnames : ∀ name, names name → names' name)
    (hopen : ∀ id, id.index < a.size → isOpen id → isOpen' id) : Touches names' isOpen' a b := by
  intro id scope hs
  obtain ⟨scope', hs', ht⟩ := h id scope hs
  exact ⟨scope', hs', ht.weaken hnames (hopen id (index_lt_size hs))⟩

theorem modify {id : ScopeId} {change : Scope → Scope}
    (h : ∀ scope, a.scope? id = some scope → Touched names (isOpen id) scope (change scope)) :
    Touches names isOpen a (a.modify id change) := by
  intro other scope hs
  rw [scope?_modify]
  split
  · next heq =>
    subst heq
    exact ⟨change scope, by rw [hs]; rfl, h scope hs⟩
  · exact ⟨scope, hs, .refl scope⟩

theorem push (a : Arena) (scope : Scope) : Touches names isOpen a (a.push scope).2 :=
  fun _ old hs => ⟨old, scope?_push_of_some scope hs, .refl old⟩

theorem retains (h : Touches names isOpen a b) : a.Retains b := by
  intro id scope hs
  obtain ⟨scope', hs', ht⟩ := h id scope hs
  exact ⟨scope', hs', ht.retained⟩

theorem size_le (h : Touches names isOpen a b) : a.size ≤ b.size := by
  by_contra hlt
  have hlast : (⟨b.size⟩ : ScopeId).index < a.size := Nat.lt_of_not_le hlt
  obtain ⟨scope, hs⟩ := scope?_of_lt hlast
  obtain ⟨_, hs', _⟩ := h _ scope hs
  exact absurd (index_lt_size hs') (Nat.lt_irrefl _)

/-- Chains go through the same scopes as before. -/
theorem chain_rel (h : Touches names isOpen a b) (ho : a.Ordered) {id : ScopeId}
    (hid : id.index < a.size) :
    List.Forall₂ (fun x y => x.1 = y.1 ∧ b.scope? x.1 = some y.2 ∧
      Touched names (isOpen x.1) x.2 y.2) (a.chain id) (b.chain id) := by
  refine ho.chain_rel (R := fun id scope scope' => b.scope? id = some scope' ∧
    Touched names (isOpen id) scope scope') ?_ hid
  intro id scope hs
  obtain ⟨scope', hs', ht⟩ := h id scope hs
  exact ⟨scope', hs', ht.retained.parent, hs', ht⟩

theorem owner_eq (h : Touches names isOpen a b) (ho : a.Ordered) {id : ScopeId}
    (hid : id.index < a.size) : b.owner id = a.owner id := by
  have hrel : Option.Rel (fun x y => x.1 = y.1 ∧ b.scope? x.1 = some y.2 ∧
      Touched names (isOpen x.1) x.2 y.2) (a.nearest? id) (b.nearest? id) :=
    find?_rel (h.chain_rel ho hid) fun x y hxy => by rw [hxy.2.2.retained.kind.isBranch_eq]
  rw [owner_eq_nearest?, owner_eq_nearest?]
  generalize a.nearest? id = x at hrel
  generalize b.nearest? id = y at hrel
  cases hrel with
  | none => rfl
  | some hxy => exact hxy.1.symm

/-- A name that is in sight stays so. -/
theorem getVar_isSome (h : Touches names isOpen a b) (ho : a.Ordered) {id : ScopeId}
    (hid : id.index < a.size) {globals : Globals} {name : String}
    (hv : (a.getVar globals id name .writable).isSome) :
    (b.getVar globals id name .writable).isSome := by
  rw [getVar_isSome_iff] at hv ⊢
  refine hv.imp_left ?_
  rintro ⟨x, hx, hbound⟩
  obtain ⟨y, hy, _, _, ht⟩ := forall₂_mem_left (h.chain_rel ho hid) hx
  exact ⟨y, hy, ht.retained.identifiers name hbound⟩

/-- What is seen of a name outside the limits stays the same. -/
theorem getVar_eq (h : Touches names isOpen a b) (ho : a.Ordered) {id : ScopeId}
    (hid : id.index < a.size) {name : String} (hname : ¬names name) (globals : Globals)
    (mode : LookupMode) : b.getVar globals id name mode = a.getVar globals id name mode := by
  have hfirst : (a.chain id).findSome? (fun x => ownType? x.2 name mode) =
      (b.chain id).findSome? fun x => ownType? x.2 name mode := by
    refine findSome?_rel (h.chain_rel ho hid) fun x y hxy => ?_
    have hsame := hxy.2.2.spared name hname
    cases mode <;> simp only [ownType?, hsame.identifiers, hsame.restrictions]
  rw [getVar, getVar, hfirst]

/-! ### Functions without a type in sight of scopes that are not open -/

/-- A function outside the limits stays without a type. -/
theorem exists_untyped (h : Touches names isOpen a b) (ho : a.Ordered) {id : ScopeId}
    (hid : id.index < a.size) {name : String} (hname : ¬names name) {x : ScopeId × Scope}
    (hx : x ∈ a.chain id) (hu : x.2.untyped.contains name) :
    ∃ y ∈ b.chain id, y.2.untyped.contains name := by
  obtain ⟨y, hy, -, -, ht⟩ := forall₂_mem_left (h.chain_rel ho hid) hx
  refine ⟨y, hy, ?_⟩
  rw [Dict.contains, (ht.spared name hname).untyped]
  exact hu

/-- A name is bound beside a function without a type only where it was bound. -/
theorem bound_of_both (h : Touches names isOpen a b) (ho : a.Ordered) {id : ScopeId}
    (hid : id.index < a.size) (hshut : ∀ x ∈ a.chain id, ¬isOpen x.1) {name : String}
    {y : ScopeId × Scope} (hy : y ∈ b.chain id) (hbound : y.2.identifiers.contains name)
    (hu : y.2.untyped.contains name) : ∃ x ∈ a.chain id, x.2.identifiers.contains name := by
  obtain ⟨x, hx, -, -, ht⟩ := forall₂_mem_left (h.chain_rel ho hid).flip hy
  exact ⟨x, hx, (ht.shut.resolve_left (hshut x hx)).apart name hbound hu⟩

/-- The nearest function without a type is still that, or has become bound. -/
theorem find?_untyped (h : Touches names isOpen a b) (ho : a.Ordered) {id : ScopeId}
    (hid : id.index < a.size) (hshut : ∀ x ∈ a.chain id, ¬isOpen x.1) {name : String}
    {x : ScopeId × Scope} (hfind : (a.chain id).find? (fun x => x.2.untyped.contains name) = some x) :
    (∃ y, (b.chain id).find? (fun y => y.2.untyped.contains name) = some y ∧ y.1 = x.1) ∨
      b.hasOwnVar x.1 name := by
  have hx := List.mem_of_find?_eq_some hfind
  obtain ⟨y, -, hxy, hy, ht⟩ := forall₂_mem_left (h.chain_rel ho hid) hx
  have huntyped : x.2.untyped.contains name := by simpa using List.find?_some hfind
  rcases ht.kept name huntyped with hu | hbound
  · have hrel := (List.forall₂_and_left _ _).mpr ⟨hshut, h.chain_rel ho hid⟩
    have hfewer : ∃ y, (b.chain id).find? (fun y => y.2.untyped.contains name) = some y ∧ _ :=
      find?_rel_of_fewer hrel
        (fun x y hxy hq => (hxy.2.2.2.shut.resolve_left hxy.1).untyped name hq) hfind
        fun other hother => by
          rw [Option.some.inj (hother.2.2.1.symm.trans hy)]
          exact hu
    obtain ⟨found, hfound, -, hid', -⟩ := hfewer
    exact .inl ⟨found, hfound, hid'.symm⟩
  · right
    rw [Arena.hasOwnVar, hy]
    exact hbound

end Touches

/-! ## Functions without a type -/

theorem find?_of_getFunction? {a : Arena} {id : ScopeId} {name : String} {untyped : UntypedFunction}
    (h : a.getFunction? id name = some untyped) :
    ∃ x, (a.chain id).find? (fun x => x.2.untyped.contains name) = some x ∧
      x.2.untyped.get? name = some untyped := by
  obtain ⟨before, x, after, hchain, hget, hnone⟩ := List.findSome?_eq_some_iff.mp h
  refine ⟨x, List.find?_eq_some_iff_append.mpr ⟨?_, before, after, hchain, ?_⟩, hget⟩
  · simp [Dict.contains, hget]
  · intro y hy
    simp [Dict.contains, hnone y hy]

/-- The functions without a type are among those that are declared, and a scope has one for each
name. -/
structure Placed (declared : Script.Function → Prop) (a : Arena) : Prop where
  sound : a.Sound
  distinct : ∀ id scope, a.scope? id = some scope → scope.untyped.keys.Nodup
  declared : ∀ id scope entry, a.scope? id = some scope → entry ∈ scope.untyped.entries →
    declared entry.2.node

namespace Placed

variable {declared : Script.Function → Prop} {a b : Arena}

theorem pushFile : ({} : Arena).pushFile.2.Placed declared := by
  refine ⟨.pushFile, fun id scope hs => ?_, fun id scope entry hs hentry => ?_⟩ <;>
    obtain ⟨-, rfl⟩ := scope?_pushFile hs
  · exact List.nodup_nil
  · cases hentry

theorem of_quiet (ha : a.Placed declared) (h : Quiet a b) : b.Placed declared where
  sound := h.sound ha.sound
  distinct := by
    intro id scope' hs'
    rcases h.cases hs' with ⟨scope, hs, hsame⟩ | ⟨_, around, _, he⟩
    · rw [hsame.untyped]
      exact ha.distinct id scope hs
    · rw [he.untyped]
      exact List.nodup_nil
  declared := by
    intro id scope' entry hs' hentry
    rcases h.cases hs' with ⟨scope, hs, hsame⟩ | ⟨_, around, _, he⟩
    · rw [hsame.untyped] at hentry
      exact ha.declared id scope entry hs hentry
    · rw [he.untyped] at hentry
      cases hentry

theorem modify (ha : a.Placed declared) {id : ScopeId} {change : Scope → Scope}
    (hparent : ∀ scope, (change scope).parent = scope.parent)
    (hb : ∀ scope, a.scope? id = some scope → (change scope).kind.isBranch = false)
    (hd : ∀ scope, a.scope? id = some scope → (change scope).untyped.keys.Nodup)
    (hu : ∀ scope entry, a.scope? id = some scope → entry ∈ (change scope).untyped.entries →
      entry ∈ scope.untyped.entries ∨
        entry.2.definedIn = id ∧ entry.2.node.name = entry.1 ∧ declared entry.2.node) :
    (a.modify id change).Placed declared where
  sound := by
    refine ha.sound.modify hparent hb fun scope entry hs hentry => ?_
    rcases hu scope entry hs hentry with hold | ⟨hid, hname, _⟩
    · exact ha.sound.untyped id scope entry hs hold
    · exact ⟨hid, hname⟩
  distinct := by
    intro other scope' hs'
    rw [scope?_modify] at hs'
    split at hs'
    · next heq =>
      subst heq
      obtain ⟨scope, hs, rfl⟩ := Option.map_eq_some_iff.mp hs'
      exact hd scope hs
    · exact ha.distinct other scope' hs'
  declared := by
    intro other scope' entry hs' hentry
    rw [scope?_modify] at hs'
    split at hs'
    · next heq =>
      subst heq
      obtain ⟨scope, hs, rfl⟩ := Option.map_eq_some_iff.mp hs'
      rcases hu scope entry hs hentry with hold | ⟨_, _, hnew⟩
      · exact ha.declared id scope entry hs hold
      · exact hnew
    · exact ha.declared other scope' entry hs' hentry

/-- A scope that has functions loses some of them. -/
theorem modify_fewer (ha : a.Placed declared) {id : ScopeId} {own : Scope} {name : String}
    (hown : a.scope? id = some own) (hn : own.untyped.contains name) {change : Scope → Scope}
    (hparent : ∀ scope, (change scope).parent = scope.parent)
    (hkind : ∀ scope, (change scope).kind = scope.kind)
    (hu : ∀ scope, (change scope).untyped = scope.untyped.erase name) :
    (a.modify id change).Placed declared := by
  refine ha.modify hparent ?_ ?_ ?_
  · intro scope hs
    rw [hown] at hs
    cases hs
    rw [hkind]
    exact ha.sound.not_branch_of_untyped hown hn
  · intro scope hs
    rw [hu]
    exact Dict.nodup_keys_erase (ha.distinct id scope hs) name
  · intro scope entry hs hentry
    rw [hu] at hentry
    exact .inl (Dict.mem_entries_erase hentry)

theorem addFunction (ha : a.Placed declared) {id : ScopeId} (hid : id.index < a.size)
    {f : Script.Function} (hf : declared f) :
    (a.modify (a.owner id) fun scope =>
      { scope with untyped := scope.untyped.insert f.name ⟨f, a.owner id⟩ }).Placed declared := by
  obtain ⟨own, hown, hb, _⟩ := ha.sound.owner_spec hid
  refine ha.modify (fun _ => rfl) ?_ ?_ ?_
  · intro scope hs
    rw [hown] at hs
    cases hs
    exact hb
  · exact fun scope hs => Dict.nodup_keys_insert (ha.distinct _ scope hs) _ _
  · intro scope entry hs hentry
    rcases Dict.mem_entries_insert hentry with rfl | hold
    · exact .inr ⟨rfl, rfl, hf⟩
    · exact .inl hold

theorem pushFunction (ha : a.Placed declared) {parent : ScopeId} (hp : parent.index < a.size)
    (info : FunctionInfo) :
    ((a.push { parent := some parent, kind := .function info }).2.modify (a.owner parent)
      fun scope => { scope with functions := scope.functions.insert info.name ⟨a.size⟩ }).Placed
      declared := by
  obtain ⟨own, hown, hb, _⟩ := ha.sound.owner_spec hp
  have hpushed : (a.push { parent := some parent, kind := .function info }).2.Placed declared := by
    refine ⟨ha.sound.push rfl rfl ?_, ?_, ?_⟩
    · rintro _ ⟨⟩
      exact hp
    · intro id scope hs
      rw [scope?_push] at hs
      split at hs
      · cases hs
        exact List.nodup_nil
      · exact ha.distinct id scope hs
    · intro id scope entry hs hentry
      rw [scope?_push] at hs
      split at hs
      · cases hs
        cases hentry
      · exact ha.declared id scope entry hs hentry
  refine hpushed.modify (fun _ => rfl) ?_ (fun scope hs => hpushed.distinct _ scope hs)
    fun _ _ _ hentry => .inl hentry
  intro scope hs
  rw [scope?_push_of_some _ hown] at hs
  cases hs
  exact hb

/-- A function without a type is recorded under its name with the scope that declares it. -/
theorem of_get? (ha : a.Placed declared) {id : ScopeId} {scope : Scope} (hs : a.scope? id = some scope)
    {name : String} {untyped : UntypedFunction} (hget : scope.untyped.get? name = some untyped) :
    untyped.definedIn = id ∧ untyped.node.name = name ∧ declared untyped.node := by
  have hentry := Dict.mem_entries_of_get? hget
  obtain ⟨hid, hname⟩ := ha.sound.untyped id scope _ hs hentry
  exact ⟨hid, hname, ha.declared id scope _ hs hentry⟩

theorem of_contains (ha : a.Placed declared) {id : ScopeId} {scope : Scope}
    (hs : a.scope? id = some scope) {name : String} (hn : scope.untyped.contains name) :
    ∃ f, declared f ∧ f.name = name := by
  obtain ⟨untyped, hget⟩ := Option.isSome_iff_exists.mp hn
  obtain ⟨_, hname, hdeclared⟩ := ha.of_get? hs hget
  exact ⟨untyped.node, hdeclared, hname⟩

end Placed

end Arena

end HeaderCheck.Scope
