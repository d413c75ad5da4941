import HeaderCheck.Proofs.Scope.Narrowed
import HeaderCheck.Script.Query

/-!
# HeaderCheck.Proofs.Scope.Keeps

What operations on scopes leave as it is.

* `Arena.Sound`: scopes are ordered, no name is bound or declared in a branch, and an untyped
  function is recorded with the scope it is declared in.
* `Arena.Keeps`: scopes stay where they are, and what they bind stays bound. Only the scopes
  `spared` may get scopes for functions that they do not bind.
* `Arena.Quiet`: besides, no function is declared or gets a scope. Most operations are quiet.
-/

namespace HeaderCheck.Scope

open HeaderCheck.Types

/-! ## One scope -/

/-- Scopes of one kind; a function keeps its name. -/
def Kind.Alike : Kind → Kind → Prop
  | .file _, .file _ => True
  | .function info, .function info' => info'.name = info.name
  | .branch _, .branch _ => True
  | _, _ => False

namespace Kind.Alike

theorem refl (kind : Kind) : kind.Alike kind := by
  cases kind with
  | file _ => exact trivial
  | function _ => exact rfl
  | branch _ => exact trivial

theorem exists_file {prototypes : Dict (Dict TypeId)} {kind : Kind}
    (h : (Kind.file prototypes).Alike kind) : ∃ prototypes', kind = .file prototypes' := by
  cases kind with
  | file prototypes' => exact ⟨prototypes', rfl⟩
  | function _ => exact h.elim
  | branch _ => exact h.elim

theorem exists_function {info : FunctionInfo} {kind : Kind} (h : (Kind.function info).Alike kind) :
    ∃ info', kind = .function info' ∧ info'.name = info.name := by
  cases kind with
  | file _ => exact h.elim
  | function info' => exact ⟨info', rfl, h⟩
  | branch _ => exact h.elim

theorem exists_branch {this : Option TypeId} {kind : Kind} (h : (Kind.branch this).Alike kind) :
    ∃ this', kind = .branch this' := by
  cases kind with
  | file _ => exact h.elim
  | function _ => exact h.elim
  | branch this' => exact ⟨this', rfl⟩

theorem trans {one two three : Kind} (h : one.Alike two) (h' : two.Alike three) :
    one.Alike three := by
  cases one with
  | file _ =>
    obtain ⟨_, rfl⟩ := exists_file h
    obtain ⟨_, rfl⟩ := exists_file h'
    exact trivial
  | function _ =>
    obtain ⟨_, rfl, hname⟩ := exists_function h
    obtain ⟨_, rfl, hname'⟩ := exists_function h'
    exact hname'.trans hname
  | branch _ =>
    obtain ⟨_, rfl⟩ := exists_branch h
    obtain ⟨_, rfl⟩ := exists_branch h'
    exact trivial

theorem isBranch_eq {kind kind' : Kind} (h : kind.Alike kind') : kind'.isBranch = kind.isBranch := by
  cases kind with
  | file _ =>
    obtain ⟨_, rfl⟩ := exists_file h
    rfl
  | function _ =>
    obtain ⟨_, rfl, _⟩ := exists_function h
    rfl
  | branch _ =>
    obtain ⟨_, rfl⟩ := exists_branch h
    rfl

theorem isFunction_eq {kind kind' : Kind} (h : kind.Alike kind') :
    kind'.isFunction = kind.isFunction := by
  cases kind with
  | file _ =>
    obtain ⟨_, rfl⟩ := exists_file h
    rfl
  | function _ =>
    obtain ⟨_, rfl, _⟩ := exists_function h
    rfl
  | branch _ =>
    obtain ⟨_, rfl⟩ := exists_branch h
    rfl

theorem of_isBranch {kind kind' : Kind} (h : kind.isBranch) (h' : kind'.isBranch) :
    kind.Alike kind' := by
  cases kind with
  | file _ => cases h
  | function _ => cases h
  | branch _ =>
    cases kind' with
    | file _ => cases h'
    | function _ => cases h'
    | branch _ => exact trivial

theorem of_sameNames {scope scope' : Scope} (h : SameNames scope scope') :
    scope.kind.Alike scope'.kind := by
  rcases h.kind with he | ⟨hb, hb'⟩
  · rw [he]
    exact refl _
  · exact of_isBranch hb hb'

end Kind.Alike

/-- What a scope keeps for ever. -/
structure Grown (scope scope' : Scope) : Prop where
  parent : scope'.parent = scope.parent
  kind : scope.kind.Alike scope'.kind
  identifiers : ∀ name, scope.identifiers.contains name → scope'.identifiers.contains name
  functions : ∀ key id, scope.functions.get? key = some id → scope'.functions.get? key = some id

theorem Grown.refl (scope : Scope) : Grown scope scope :=
  ⟨rfl, .refl _, fun _ h => h, fun _ _ h => h⟩

theorem Grown.trans {one two three : Scope} (h : Grown one two) (h' : Grown two three) :
    Grown one three where
  parent := h'.parent.trans h.parent
  kind := h.kind.trans h'.kind
  identifiers := fun name hn => h'.identifiers name (h.identifiers name hn)
  functions := fun key id hk => h'.functions key id (h.functions key id hk)

/-- A scope for a function is new only where the function is bound, or has a key with a place. -/
def FunctionsFrom (scope scope' : Scope) : Prop :=
  ∀ key, scope'.functions.contains key →
    scope.functions.contains key ∨ scope'.identifiers.contains key ∨ '@' ∈ key.toList

namespace Arena

/-! ## Files and functions around a scope -/

/-- The file or function that a scope belongs to. -/
def nearest? (a : Arena) (id : ScopeId) : Option (ScopeId × Scope) :=
  (a.chain id).find? fun x => !x.2.kind.isBranch

theorem owner_eq_nearest? (a : Arena) (id : ScopeId) :
    a.owner id = ((a.nearest? id).map Prod.fst).getD id := by
  unfold owner nearest?
  cases (a.chain id).find? fun x => !x.2.kind.isBranch <;> rfl

theorem functionScope?_eq_nearest? (a : Arena) (id : ScopeId) :
    a.functionScope? id =
      ((a.nearest? id).filter fun x => x.2.kind.isFunction).map Prod.fst := by
  unfold functionScope? nearest?
  cases (a.chain id).find? fun x => !x.2.kind.isBranch with
  | none => rfl
  | some x => cases h : x.2.kind.isFunction <;> simp [h, Option.filter_some]

/-- A name is in sight when some scope around binds it, or all files do. -/
theorem getVar_isSome_iff (a : Arena) (globals : Globals) (id : ScopeId) (name : String) :
    (a.getVar globals id name .writable).isSome ↔
      (∃ x ∈ a.chain id, x.2.identifiers.contains name) ∨
        (globals.identifiers.get? name).isSome := by
  have hfirst : ((a.chain id).findSome? fun x => ownType? x.2 name .writable).isSome ↔
      ∃ x ∈ a.chain id, x.2.identifiers.contains name := by
    rw [List.findSome?_isSome_iff]
    rfl
  unfold getVar
  rw [← hfirst]
  cases (a.chain id).findSome? fun x => ownType? x.2 name .writable with
  | none => simp
  | some type => simp

/-- A name without a declared or narrowed type has no declared one. -/
theorem getVar_writable_eq_none {a : Arena} {globals : Globals} {id : ScopeId} {name : String}
    {mode : LookupMode} (h : a.getVar globals id name mode = none) :
    a.getVar globals id name .writable = none := by
  cases mode with
  | writable => exact h
  | normal =>
    unfold getVar at h ⊢
    split at h
    · cases h
    · next hnone =>
      have hnone' : (a.chain id).findSome? (fun x => ownType? x.2 name .writable) = none := by
        rw [List.findSome?_eq_none_iff] at hnone ⊢
        intro x hx
        exact (Option.or_eq_none_iff.mp (hnone x hx)).2
      rw [hnone']
      exact h

theorem forall₂_mem_left {α β : Type} {P : α → β → Prop} {l : List α} {l' : List β}
    (h : List.Forall₂ P l l') {x : α} (hx : x ∈ l) : ∃ y ∈ l', P x y := by
  induction h with
  | nil => cases hx
  | cons hxy _ ih =>
    rcases List.mem_cons.mp hx with rfl | hx
    · exact ⟨_, List.mem_cons_self, hxy⟩
    · obtain ⟨y, hy, hp⟩ := ih hx
      exact ⟨y, List.mem_cons_of_mem _ hy, hp⟩

/-! ## Growing arenas -/

/-- Scopes stay where they are and what they bind stays bound. -/
def Keeps (spared : ScopeId → Prop) (a b : Arena) : Prop :=
  ∀ id scope, a.scope? id = some scope → ∃ scope', b.scope? id = some scope' ∧
    Grown scope scope' ∧ (spared id ∨ FunctionsFrom scope scope')

namespace Keeps

variable {spared spared' : ScopeId → Prop} {a b c : Arena}

theorem refl (spared : ScopeId → Prop) (a : Arena) : Keeps spared a a :=
  fun _ scope hs => ⟨scope, hs, .refl scope, .inr fun _ h => .inl h⟩

theorem size_le (h : Keeps spared a b) : a.size ≤ b.size := by
  by_contra hlt
  have hlast : (⟨b.size⟩ : ScopeId).index < a.size := Nat.lt_of_not_le hlt
  obtain ⟨scope, hs⟩ := scope?_of_lt hlast
  obtain ⟨_, hs', _⟩ := h _ scope hs
  exact absurd (index_lt_size hs') (Nat.lt_irrefl _)

/-- What follows may spare other scopes, if they are new. -/
theorem trans' (h : Keeps spared a b) (h' : Keeps spared' b c)
    (hnew : ∀ id, spared' id → spared id ∨ a.size ≤ id.index) :
    Keeps spared a c := by
  intro id scope hs
  obtain ⟨scope', hs', hg, hf⟩ := h id scope hs
  obtain ⟨scope'', hs'', hg', hf'⟩ := h' id scope' hs'
  refine ⟨scope'', hs'', hg.trans hg', ?_⟩
  rcases hf with hspared | hf
  · exact .inl hspared
  rcases hf' with hspared | hf'
  · rcases hnew id hspared with hsame | hle
    · exact .inl hsame
    · exact absurd (index_lt_size hs) (by omega)
  refine .inr ?_
  intro key hkey
  rcases hf' key hkey with hkey | hbound | hplace
  · rcases hf key hkey with hkey | hbound | hplace
    · exact .inl hkey
    · exact .inr (.inl (hg'.identifiers key hbound))
    · exact .inr (.inr hplace)
  · exact .inr (.inl hbound)
  · exact .inr (.inr hplace)

theorem trans (h : Keeps spared a b) (h' : Keeps spared b c) : Keeps spared a c :=
  h.trans' h' fun _ hid => .inl hid

theorem weaken (h : Keeps spared a b) (hmore : ∀ id, spared id → spared' id) :
    Keeps spared' a b := by
  intro id scope hs
  obtain ⟨scope', hs', hg, hf⟩ := h id scope hs
  exact ⟨scope', hs', hg, hf.imp_left (hmore id)⟩

theorem chain_rel (h : Keeps spared a b) (ho : a.Ordered) {id : ScopeId} (hid : id.index < a.size) :
    List.Forall₂ (fun x y => x.1 = y.1 ∧ Grown x.2 y.2) (a.chain id) (b.chain id) := by
  refine ho.chain_rel (R := fun _ scope scope' => Grown scope scope') ?_ hid
  intro id scope hs
  obtain ⟨scope', hs', hg, _⟩ := h id scope hs
  exact ⟨scope', hs', hg.parent, hg⟩

theorem nearest?_rel (h : Keeps spared a b) (ho : a.Ordered) {id : ScopeId}
    (hid : id.index < a.size) :
    Option.Rel (fun x y => x.1 = y.1 ∧ Grown x.2 y.2) (a.nearest? id) (b.nearest? id) :=
  find?_rel (h.chain_rel ho hid) fun x y hxy => by rw [hxy.2.kind.isBranch_eq]

theorem owner_eq (h : Keeps spared a b) (ho : a.Ordered) {id : ScopeId} (hid : id.index < a.size) :
    b.owner id = a.owner id := by
  have hrel := h.nearest?_rel ho hid
  rw [owner_eq_nearest?, owner_eq_nearest?]
  generalize a.nearest? id = x at hrel
  generalize b.nearest? id = y at hrel
  cases hrel with
  | none => rfl
  | some hxy => exact hxy.1.symm

theorem functionScope?_eq (h : Keeps spared a b) (ho : a.Ordered) {id : ScopeId}
    (hid : id.index < a.size) : b.functionScope? id = a.functionScope? id := by
  have hrel := h.nearest?_rel ho hid
  rw [functionScope?_eq_nearest?, functionScope?_eq_nearest?]
  generalize a.nearest? id = x at hrel
  generalize b.nearest? id = y at hrel
  cases hrel with
  | none => rfl
  | some hxy =>
    simp only [Option.filter_some, Option.map_if, hxy.1, hxy.2.kind.isFunction_eq]

/-- A name that is in sight stays so. -/
theorem getVar_isSome (h : Keeps spared a b) (ho : a.Ordered) {id : ScopeId}
    (hid : id.index < a.size) {globals : Globals} {name : String}
    (hv : (a.getVar globals id name .writable).isSome) :
    (b.getVar globals id name .writable).isSome := by
  rw [getVar_isSome_iff] at hv ⊢
  rcases hv with ⟨x, hx, hbound⟩ | hglobal
  · obtain ⟨y, hy, hxy⟩ := forall₂_mem_left (h.chain_rel ho hid) hx
    exact .inl ⟨y, hy, hxy.2.identifiers name hbound⟩
  · exact .inr hglobal

end Keeps

/-! ## Sound arenas -/

structure Sound (a : Arena) : Prop where
  ordered : a.Ordered
  branch : ∀ id scope, a.scope? id = some scope → scope.kind.isBranch →
    ∃ around, EmptyBranch around scope
  untyped : ∀ id scope entry, a.scope? id = some scope → entry ∈ scope.untyped.entries →
    entry.2.definedIn = id ∧ entry.2.node.name = entry.1

namespace Sound

theorem pushFile : ({} : Arena).pushFile.2.Sound := by
  refine ⟨fun id scope parent hs hp => ?_, fun id scope hs hb => ?_, fun id scope entry hs hentry => ?_⟩ <;>
    obtain ⟨-, rfl⟩ := scope?_pushFile hs
  · cases hp
  · cases hb
  · cases hentry

variable {a : Arena}

/-- The nearest file or function exists, and every scope on the way to it is an empty branch. -/
theorem nearest?_eq (h : a.Sound) {id : ScopeId} {scope : Scope} (hs : a.scope? id = some scope) :
    a.nearest? id =
      if scope.kind.isBranch then scope.parent.bind a.nearest? else some (id, scope) := by
  rw [nearest?, h.ordered.chain_eq hs, List.find?_cons]
  by_cases hb : scope.kind.isBranch
  · obtain ⟨around, he⟩ := h.branch id scope hs hb
    simp [hb, he.parent, nearest?]
  · simp [hb]

theorem exists_nearest? (h : a.Sound) {id : ScopeId} (hid : id.index < a.size) :
    ∃ x, a.nearest? id = some x ∧ a.scope? x.1 = some x.2 ∧ x.2.kind.isBranch = false ∧
      x.1.index ≤ id.index := by
  obtain ⟨index⟩ := id
  induction index using Nat.strongRecOn with
  | _ index ih =>
    obtain ⟨scope, hs⟩ := scope?_of_lt hid
    rw [h.nearest?_eq hs]
    cases hb : scope.kind.isBranch with
    | false => exact ⟨_, rfl, hs, hb, Nat.le_refl _⟩
    | true =>
      obtain ⟨around, he⟩ := h.branch _ scope hs hb
      have hlt : around.index < index := h.ordered _ scope around hs he.parent
      obtain ⟨x, hx, hfound, hkind, hle⟩ := ih around.index hlt (Nat.lt_trans hlt hid)
      refine ⟨x, by simpa [he.parent] using hx, hfound, hkind, ?_⟩
      exact Nat.le_trans hle (Nat.le_of_lt hlt)

theorem owner_spec (h : a.Sound) {id : ScopeId} (hid : id.index < a.size) :
    ∃ scope, a.scope? (a.owner id) = some scope ∧ scope.kind.isBranch = false ∧
      (a.owner id).index ≤ id.index := by
  obtain ⟨x, hx, hs, hkind, hle⟩ := h.exists_nearest? hid
  rw [owner_eq_nearest?, hx]
  exact ⟨x.2, hs, hkind, hle⟩

theorem owner_lt (h : a.Sound) {id : ScopeId} (hid : id.index < a.size) :
    (a.owner id).index < a.size := by
  obtain ⟨own, hown, _⟩ := h.owner_spec hid
  exact index_lt_size hown

theorem owner_of_not_branch (h : a.Sound) {id : ScopeId} {scope : Scope}
    (hs : a.scope? id = some scope) (hb : scope.kind.isBranch = false) : a.owner id = id := by
  rw [owner_eq_nearest?, h.nearest?_eq hs, hb]
  rfl

theorem owner_of_branch (h : a.Sound) {id around : ScopeId} {scope : Scope}
    (hs : a.scope? id = some scope) (hb : scope.kind.isBranch) (hp : scope.parent = some around) :
    a.owner id = a.owner around := by
  have hlt : around.index < a.size :=
    Nat.lt_trans (h.ordered id scope around hs hp) (index_lt_size hs)
  obtain ⟨x, hx, _⟩ := h.exists_nearest? hlt
  rw [owner_eq_nearest?, owner_eq_nearest?, h.nearest?_eq hs, hb, hp]
  simp [hx]

/-- Branches bind nothing, so a name is in sight from a scope as from its owner. -/
theorem getVar_owner (h : a.Sound) {id : ScopeId} (hid : id.index < a.size) (globals : Globals)
    (name : String) :
    a.getVar globals (a.owner id) name .writable = a.getVar globals id name .writable := by
  obtain ⟨index⟩ := id
  induction index using Nat.strongRecOn with
  | _ index ih =>
    obtain ⟨scope, hs⟩ := scope?_of_lt hid
    cases hb : scope.kind.isBranch with
    | false => rw [h.owner_of_not_branch hs hb]
    | true =>
      obtain ⟨around, he⟩ := h.branch _ scope hs hb
      have hlt : around.index < index := h.ordered _ scope around hs he.parent
      rw [h.owner_of_branch hs hb he.parent, h.ordered.getVar_eq hs he.parent,
        ih around.index hlt (Nat.lt_trans hlt hid), ownType?, he.identifiers]
      rfl

end Sound

/-! ## Quiet operations -/

/-- What a scope keeps when no function is declared or gets a scope. -/
structure SameFunctions (scope scope' : Scope) : Prop where
  parent : scope'.parent = scope.parent
  kind : scope.kind.Alike scope'.kind
  identifiers : ∀ name, scope.identifiers.contains name → scope'.identifiers.contains name
  branch : scope.kind.isBranch → scope'.identifiers = scope.identifiers
  untyped : scope'.untyped = scope.untyped
  functions : scope'.functions = scope.functions

theorem SameFunctions.refl (scope : Scope) : SameFunctions scope scope :=
  ⟨rfl, .refl _, fun _ h => h, fun _ => rfl, rfl, rfl⟩

theorem SameFunctions.grown {scope scope' : Scope} (h : SameFunctions scope scope') :
    Grown scope scope' :=
  ⟨h.parent, h.kind, h.identifiers, fun key id hk => by rw [h.functions, hk]⟩

theorem SameFunctions.functionsFrom {scope scope' : Scope} (h : SameFunctions scope scope') :
    FunctionsFrom scope scope' :=
  fun key hk => .inl (by rwa [h.functions] at hk)

/-- No function is declared or gets a scope, and new scopes are empty branches of old ones. -/
structure Quiet (a b : Arena) : Prop where
  old : ∀ id scope, a.scope? id = some scope →
    ∃ scope', b.scope? id = some scope' ∧ SameFunctions scope scope'
  new : ∀ id scope', a.size ≤ id.index → b.scope? id = some scope' →
    ∃ around, around.index < a.size ∧ EmptyBranch around scope'

namespace Quiet

variable {a b : Arena}

theorem keeps (h : Quiet a b) (spared : ScopeId → Prop) : Keeps spared a b := by
  intro id scope hs
  obtain ⟨scope', hs', hsame⟩ := h.old id scope hs
  exact ⟨scope', hs', hsame.grown, .inr hsame.functionsFrom⟩

/-- Each scope afterwards is an old one or an empty branch. -/
theorem cases (h : Quiet a b) {id : ScopeId} {scope' : Scope} (hs' : b.scope? id = some scope') :
    (∃ scope, a.scope? id = some scope ∧ SameFunctions scope scope') ∨
      (a.size ≤ id.index ∧ ∃ around, around.index < a.size ∧ EmptyBranch around scope') := by
  by_cases hlt : id.index < a.size
  · obtain ⟨scope, hs⟩ := scope?_of_lt hlt
    obtain ⟨found, hfound, hsame⟩ := h.old id scope hs
    rw [hs'] at hfound
    cases hfound
    exact .inl ⟨scope, hs, hsame⟩
  · have hle : a.size ≤ id.index := by omega
    exact .inr ⟨hle, h.new id scope' hle hs'⟩

theorem sound (h : Quiet a b) (ha : a.Sound) : b.Sound where
  ordered := by
    intro id scope' parent hs' hp
    rcases h.cases hs' with ⟨scope, hs, hsame⟩ | ⟨hle, around, hlt, he⟩
    · exact ha.ordered id scope parent hs (hsame.parent ▸ hp)
    · rw [he.parent] at hp
      cases hp
      omega
  branch := by
    intro id scope' hs' hb
    rcases h.cases hs' with ⟨scope, hs, hsame⟩ | ⟨_, around, _, he⟩
    · rw [hsame.kind.isBranch_eq] at hb
      obtain ⟨around, he⟩ := ha.branch id scope hs hb
      exact ⟨around, hsame.parent.trans he.parent, by rw [hsame.kind.isBranch_eq, hb],
        (hsame.branch hb).trans he.identifiers, hsame.untyped.trans he.untyped,
        hsame.functions.trans he.functions⟩
    · exact ⟨around, he⟩
  untyped := by
    intro id scope' entry hs' hu
    rcases h.cases hs' with ⟨scope, hs, hsame⟩ | ⟨_, around, _, he⟩
    · rw [hsame.untyped] at hu
      exact ha.untyped id scope entry hs hu
    · rw [he.untyped] at hu
      cases hu

theorem refl (a : Arena) : Quiet a a where
  old := fun _ scope hs => ⟨scope, hs, .refl scope⟩
  new := fun _ _ hle hs' => absurd (index_lt_size hs') (by omega)

theorem of_narrowed {around : ScopeId} {arms : List ScopeId} (h : Narrowed around arms a b)
    (haround : around.index < a.size) : Quiet a b where
  old := by
    intro id scope hs
    obtain ⟨scope', hs', hsame, _⟩ := h.old id scope hs
    exact ⟨scope', hs', hsame.parent, .of_sameNames hsame, fun name hn => by rwa [hsame.identifiers],
      fun _ => hsame.identifiers, hsame.untyped, hsame.functions⟩
  new := fun id scope' hle hs' => ⟨around, haround, h.new id scope' hle hs'⟩

theorem modify {id : ScopeId} {change : Scope → Scope}
    (h : ∀ scope, a.scope? id = some scope → SameFunctions scope (change scope)) :
    Quiet a (a.modify id change) where
  old := by
    intro other scope hs
    rw [scope?_modify]
    split
    · next heq =>
      subst heq
      exact ⟨change scope, by rw [hs]; rfl, h scope hs⟩
    · exact ⟨scope, hs, .refl scope⟩
  new := by
    intro other scope' hle hs'
    have hlt := index_lt_size hs'
    rw [size_modify] at hlt
    omega

end Quiet

/-! ## The operations -/

section Operations

variable {a b : Arena} {id : ScopeId} {name : String} {type : TypeId}

theorem quiet_restrict {result : Except Error Unit} (h : a.restrict id name type = (result, b)) :
    Quiet a b := by
  unfold restrict at h
  split at h
  · cases h
    exact .refl a
  · next scope hs =>
    have hnarrow : Quiet a (a.modify id fun scope =>
        { scope with restrictions := scope.restrictions.insert name type }) :=
      .modify fun scope _ => ⟨rfl, .refl _, fun _ h => h, fun _ => rfl, rfl, rfl⟩
    simp only at h
    split at h
    · next this hkind =>
      split at h
      · cases h
        refine .modify ?_
        intro found hfound
        rw [hs] at hfound
        cases hfound
        refine ⟨rfl, ?_, fun _ h => h, fun _ => rfl, rfl, rfl⟩
        rw [hkind]
        trivial
      · cases h
        exact hnarrow
    · split at h
      · cases h
        exact .refl a
      · split at h
        · cases h
          exact .refl a
        · cases h
          exact hnarrow

/-- A branch narrows every name, a file or a function each name once and never `this`. -/
theorem restrict_ok (type : TypeId) {scope : Scope} (hs : a.scope? id = some scope)
    (h : scope.kind.isBranch ∨ name ≠ thisName ∧ scope.restrictions.contains name = false) :
    ∃ b, a.restrict id name type = (.ok (), b) := by
  cases hb : scope.kind.isBranch with
  | true => exact ⟨_, restrict_branch hs hb name type⟩
  | false =>
    obtain ⟨hthis, hfree⟩ := h.resolve_left (by simp [hb])
    cases hkind : scope.kind with
    | branch this => simp [hkind, Kind.isBranch] at hb
    | file prototypes => simp [restrict, hs, hkind, hthis, hfree]
    | function info => simp [restrict, hs, hkind, hthis, hfree]

theorem quiet_bindVar {scope : Scope} (hs : a.scope? id = some scope)
    (hb : scope.kind.isBranch = false) : Quiet a (a.bindVar id name type) := by
  refine .modify ?_
  intro found hfound
  rw [hs] at hfound
  cases hfound
  refine ⟨rfl, .refl _, fun other h => Dict.contains_insert _ name other type h, ?_, rfl, rfl⟩
  intro hb'
  rw [hb] at hb'
  cases hb'

theorem addVar_cases (a : Arena) (id : ScopeId) (name : String) (type : TypeId) :
    a.addVar id name type = (.error (.duplicateIdentifier name), a) ∨
      a.addVar id name type = (.ok (), a.bindVar id name type) := by
  unfold addVar
  split
  · exact .inl rfl
  · exact .inr rfl

theorem forceUpdateVar_cases (a : Arena) (id : ScopeId) (name : String) (type : TypeId) :
    a.forceUpdateVar id name type = (.error (.missingIdentifier name), a) ∨
      ∃ holder scope, (holder, scope) ∈ a.chain id ∧ scope.identifiers.contains name ∧
        a.forceUpdateVar id name type = (.ok holder, a.bindVar holder name type) := by
  unfold forceUpdateVar
  split
  · next holder scope hfind =>
    exact .inr ⟨holder, scope, List.mem_of_find?_eq_some hfind,
      by simpa using List.find?_some hfind, rfl⟩
  · exact .inl rfl

/-- A name is bound in files and functions only. -/
theorem Sound.not_branch_of_bound (h : a.Sound) {scope : Scope} (hs : a.scope? id = some scope)
    (hn : scope.identifiers.contains name) : scope.kind.isBranch = false := by
  cases hb : scope.kind.isBranch with
  | false => rfl
  | true =>
    obtain ⟨around, he⟩ := h.branch id scope hs hb
    rw [he.identifiers] at hn
    cases hn

theorem functionScope?_of_info {info : FunctionInfo} (h : a.functionInfo? id = some info) :
    ∃ found, a.functionScope? id = some found := by
  unfold functionInfo? at h
  cases hf : a.functionScope? id with
  | none => simp [hf] at h
  | some found => exact ⟨found, rfl⟩

theorem quiet_modifyFunction {found : ScopeId} (hf : a.functionScope? id = some found)
    {change : FunctionInfo → FunctionInfo} (hname : ∀ info, (change info).name = info.name) :
    ∃ b, a.modifyFunction id change = (.ok (), b) ∧ Quiet a b := by
  unfold modifyFunction
  rw [hf]
  refine ⟨_, rfl, .modify ?_⟩
  intro scope _
  cases hk : scope.kind with
  | function info =>
    refine ⟨rfl, ?_, fun _ h => h, fun _ => rfl, rfl, rfl⟩
    rw [hk]
    exact hname info
  | file prototypes => exact .refl scope
  | branch this => exact .refl scope

theorem quiet_addPrototypeField {scope : Scope} {prototypes : Dict (Dict TypeId)}
    (hs : a.scope? id = some scope) (hk : scope.kind = .file prototypes)
    (constructor field : String) (type : TypeId) :
    ∃ b, a.addPrototypeField id constructor field type = (.ok (), b) ∧ Quiet a b := by
  obtain ⟨parent, kind, identifiers, restrictions, untyped, functions⟩ := scope
  subst hk
  unfold addPrototypeField
  rw [hs]
  refine ⟨_, rfl, .modify ?_⟩
  intro found hfound
  rw [hs] at hfound
  cases hfound
  exact ⟨rfl, trivial, fun _ h => h, fun _ => rfl, rfl, rfl⟩

/-! ## Functions -/

theorem Sound.modify (h : a.Sound) {change : Scope → Scope}
    (hparent : ∀ scope, (change scope).parent = scope.parent)
    (hb : ∀ scope, a.scope? id = some scope → (change scope).kind.isBranch = false)
    (hu : ∀ scope entry, a.scope? id = some scope → entry ∈ (change scope).untyped.entries →
      entry.2.definedIn = id ∧ entry.2.node.name = entry.1) : (a.modify id change).Sound where
  ordered := h.ordered.modify id hparent
  branch := by
    intro other scope' hs' hbranch
    rw [scope?_modify] at hs'
    split at hs'
    · next heq =>
      subst heq
      obtain ⟨scope, hs, rfl⟩ := Option.map_eq_some_iff.mp hs'
      rw [hb scope hs] at hbranch
      cases hbranch
    · exact h.branch other scope' hs' hbranch
  untyped := by
    intro other scope' entry hs' hentry
    rw [scope?_modify] at hs'
    split at hs'
    · next heq =>
      subst heq
      obtain ⟨scope, hs, rfl⟩ := Option.map_eq_some_iff.mp hs'
      exact hu scope entry hs hentry
    · exact h.untyped other scope' entry hs' hentry

theorem Keeps.modify {spared : ScopeId → Prop} {change : Scope → Scope}
    (h : ∀ scope, a.scope? id = some scope →
      Grown scope (change scope) ∧ (spared id ∨ FunctionsFrom scope (change scope))) :
    Keeps spared a (a.modify id change) := by
  intro other scope hs
  rw [scope?_modify]
  split
  · next heq =>
    subst heq
    exact ⟨change scope, by rw [hs]; rfl, h scope hs⟩
  · exact ⟨scope, hs, .refl scope, .inr fun _ hk => .inl hk⟩

theorem Keeps.push (spared : ScopeId → Prop) (a : Arena) (scope : Scope) :
    Keeps spared a (a.push scope).2 :=
  fun _ old hs => ⟨old, scope?_push_of_some scope hs, .refl old, .inr fun _ hk => .inl hk⟩

theorem Sound.push (h : a.Sound) {scope : Scope} (hb : scope.kind.isBranch = false)
    (hu : scope.untyped = {}) (hp : ∀ parent, scope.parent = some parent → parent.index < a.size) :
    (a.push scope).2.Sound where
  ordered := h.ordered.push hp
  branch := by
    intro id found hs hbranch
    rw [scope?_push] at hs
    split at hs
    · cases hs
      rw [hb] at hbranch
      cases hbranch
    · exact h.branch id found hs hbranch
  untyped := by
    intro id found entry hs hentry
    rw [scope?_push] at hs
    split at hs
    · cases hs
      rw [hu] at hentry
      cases hentry
    · exact h.untyped id found entry hs hentry

/-- A declared function is recorded with its owner, or the owner binds its name already. -/
theorem addFunction_cases (a : Arena) (id : ScopeId) (name : String) (node : Script.Function) :
    a.addFunction id name node = (.error (.shadowedFunction name), a) ∨
      a.addFunction id name node = (.ok (), a.modify (a.owner id) fun scope =>
        { scope with untyped := scope.untyped.insert name ⟨node, a.owner id⟩ }) := by
  unfold addFunction
  simp only
  split
  · exact .inl rfl
  · exact .inr rfl

/-- A scope whose function `name` gets a type. -/
def typeFunction (name : String) (type : TypeId) (scope : Scope) : Scope :=
  { scope with
    untyped := scope.untyped.erase name, identifiers := scope.identifiers.insert name type }

theorem modify_modify (a : Arena) (id : ScopeId) (first second : Scope → Scope) :
    (a.modify id first).modify id second = a.modify id (second ∘ first) := by
  unfold modify
  congr 1
  ext1
  · simp
  · next i h1 h2 => simp [Array.getElem_modify]; split <;> rfl

/-- A scope that has lost sight of its function `name`. -/
def forgetFunction (name : String) (scope : Scope) : Scope :=
  { scope with untyped := scope.untyped.erase name }

/-- The nearest function of the name is taken off the functions without a type, and bound to its type
unless the name is bound beside it. -/
theorem updateFunction_of_find? {a : Arena} {id holder : ScopeId} {name : String} {scope : Scope}
    (hfind : (a.chain id).find? (fun x => x.2.untyped.contains name) = some (holder, scope))
    (type : TypeId) :
    scope.identifiers.contains name ∧ a.updateFunction id name type =
        (.error (.duplicateIdentifier name), a.modify holder (forgetFunction name)) ∨
      scope.identifiers.contains name = false ∧ a.updateFunction id name type =
        (.ok holder, a.modify holder (typeFunction name type)) := by
  have hs : a.scope? holder = some scope :=
    scope?_of_mem_chainWithin (List.mem_of_find?_eq_some hfind)
  have hown : (a.modify holder fun scope =>
      { scope with untyped := scope.untyped.erase name }).hasOwnVar holder name =
        scope.identifiers.contains name := by
    rw [hasOwnVar, scope?_modify, if_pos rfl, hs]
    rfl
  simp only [updateFunction, hfind]
  cases hc : scope.identifiers.contains name with
  | true =>
    simp only [addVar, hown, hc, if_true]
    exact .inl ⟨trivial, rfl⟩
  | false =>
    simp only [addVar, hown, hc, Bool.false_eq_true, if_false]
    refine .inr ⟨trivial, ?_⟩
    rw [bindVar, modify_modify]
    rfl

theorem updateFunction_cases (a : Arena) (id : ScopeId) (name : String) (type : TypeId) :
    a.updateFunction id name type = (.error (.missingFunction name), a) ∨
      ∃ holder scope, (holder, scope) ∈ a.chain id ∧ scope.untyped.contains name ∧
        (a.updateFunction id name type =
            (.error (.duplicateIdentifier name), a.modify holder (forgetFunction name)) ∨
          scope.identifiers.contains name = false ∧
            a.updateFunction id name type =
              (.ok holder, a.modify holder (typeFunction name type))) := by
  cases hfind : (a.chain id).find? fun x => x.2.untyped.contains name with
  | none => exact .inl (by simp [updateFunction, hfind])
  | some x =>
    obtain ⟨holder, scope⟩ := x
    have huntyped : scope.untyped.contains name := by simpa using List.find?_some hfind
    exact .inr ⟨holder, scope, List.mem_of_find?_eq_some hfind, huntyped,
      (updateFunction_of_find? hfind type).imp_left And.right⟩

/-- A function gets a scope, or its owner has a scope for its key already. -/
theorem pushFunction_cases (a : Arena) (parent : ScopeId) (info : FunctionInfo) :
    (a.pushFunction parent info = (.error (.duplicateFunctionScope info.name), a) ∧
      ∃ scope, a.scope? (a.owner parent) = some scope ∧ scope.functions.contains info.name) ∨
      a.pushFunction parent info =
        (.ok ⟨a.size⟩, (a.push { parent := some parent, kind := .function info }).2.modify
          (a.owner parent) fun scope =>
            { scope with functions := scope.functions.insert info.name ⟨a.size⟩ }) ∧
      ∀ scope, a.scope? (a.owner parent) = some scope →
        scope.functions.contains info.name = false := by
  unfold pushFunction
  simp only
  split
  · next h =>
    cases hs : a.scope? (a.owner parent) with
    | none => simp [hs] at h
    | some scope => exact .inl ⟨rfl, scope, rfl, by simpa [hs] using h⟩
  · next h =>
    refine .inr ⟨rfl, ?_⟩
    intro scope hs
    rw [hs] at h
    simpa using h

/-- Functions are declared in files and functions only. -/
theorem Sound.not_branch_of_untyped (h : a.Sound) {scope : Scope} (hs : a.scope? id = some scope)
    (hn : scope.untyped.contains name) : scope.kind.isBranch = false := by
  cases hb : scope.kind.isBranch with
  | false => rfl
  | true =>
    obtain ⟨around, he⟩ := h.branch id scope hs hb
    rw [he.untyped] at hn
    cases hn

end Operations

end Arena

end HeaderCheck.Scope
