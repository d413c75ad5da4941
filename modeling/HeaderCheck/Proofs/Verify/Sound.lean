import HeaderCheck.Proofs.Project.Keeps
import HeaderCheck.Proofs.Scope.Keeps
import HeaderCheck.Proofs.Script.Nodes
import HeaderCheck.Proofs.Verify.Run

/-!
# HeaderCheck.Proofs.Verify.Sound

What holds of every state while a source is verified, and what stays as it is.

* `State.Sound`: the invariant. Each scope made for a function belongs to a function of the tree,
  each untyped function is declared in the body that its scope stands for, and a variable without a
  type has been reported. In a tidy program a function that has a scope also has a type in sight.
* `State.Keeps`: what all later states have in common with a state.
* `State.Quiet`: a step after which nothing is known about functions that was not known before.
-/

namespace HeaderCheck.Verify

open HeaderCheck.Project (Session)
open HeaderCheck.Scope (Arena FunctionInfo Kind ScopeId)
open HeaderCheck.Script
open HeaderCheck.Types (TypeId)

/-- The key of the scope made for a function. -/
def keyOf : FunctionKind → Function → String
  | .declared, f => f.name
  | .expression, f => expressionKey f

namespace State

/-- The statements that a file or function scope stands for. -/
inductive HasBody (s : State) : ScopeId → List Stmt → Prop where
  | file : s.HasBody s.fileScope s.source.program.body
  | function {id : ScopeId} {f : Function} : (id, f) ∈ s.entered → s.HasBody id f.body

/-- The function stands in the body of a scope, outside other functions. -/
def Holds (s : State) (id : ScopeId) (f : FunctionKind × Function) : Prop :=
  ∃ body, s.HasBody id body ∧ f ∈ directOf body

theorem HasBody.mono {s s' : State} {id : ScopeId} {body : List Stmt} (h : s.HasBody id body)
    (hfile : s'.fileScope = s.fileScope) (hsource : s'.source = s.source)
    (hentered : s.entered ⊆ s'.entered) : s'.HasBody id body := by
  cases h with
  | file =>
    rw [← hfile, ← hsource]
    exact .file
  | function hf => exact .function (hentered hf)

theorem Holds.mono {s s' : State} {id : ScopeId} {f : FunctionKind × Function} (h : s.Holds id f)
    (hfile : s'.fileScope = s.fileScope) (hsource : s'.source = s.source)
    (hentered : s.entered ⊆ s'.entered) : s'.Holds id f := by
  obtain ⟨body, hb, hf⟩ := h
  exact ⟨body, hb.mono hfile hsource hentered, hf⟩

/-- The scope was made for the function, which stands in the body around it. -/
structure MadeFor (s : State) (id : ScopeId) (f : Function) : Prop where
  made : ∃ kind scope info around outer, s.arena.scope? id = some scope ∧
    scope.kind = .function info ∧ scope.parent = some around ∧ info.name = keyOf kind f ∧
    s.Holds (s.arena.owner around) (kind, f) ∧
    s.arena.scope? (s.arena.owner around) = some outer ∧
    outer.functions.get? info.name = some id

/-- What holds of every state while a source is verified. -/
structure Sound (tidy : Prop) (s : State) : Prop where
  arena : s.arena.Sound
  focus : s.focus.scope.index < s.arena.size
  file : ∃ scope prototypes, s.arena.scope? s.fileScope = some scope ∧
    scope.kind = .file prototypes ∧ scope.parent = none
  declared : ∀ id scope entry, s.arena.scope? id = some scope → entry ∈ scope.untyped.entries →
    s.Holds id (.declared, entry.2.node)
  entered : ∀ id f, (id, f) ∈ s.entered → s.MadeFor id f
  distinct : (s.entered.map Prod.fst).Nodup
  unknown : s.source.program.Proper → s.unknown ≠ [] → s.diagnostics ≠ []
  program : tidy → s.source.program.Tidy
  /-- In a tidy program a function that has a scope has a type in sight of it. -/
  typed : tidy → ∀ id scope name, s.arena.scope? id = some scope →
    scope.functions.contains name → '@' ∉ name.toList → (s.typeIn id name .writable).isSome

/-- What all later states have in common with a state, up to scopes for the functions of `spared`. -/
structure Keeps (spared : ScopeId → Prop) (s s' : State) : Prop where
  focus : s'.focus = s.focus
  source : s'.source = s.source
  fileScope : s'.fileScope = s.fileScope
  diagnostics : s.diagnostics <+: s'.diagnostics
  arena : s.arena.Keeps spared s'.arena
  entered : s.entered <:+ s'.entered
  session : s.session.Keeps s'.session

namespace Keeps

variable {spared spared' : ScopeId → Prop} {s s' s'' : State}

theorem refl (spared : ScopeId → Prop) (s : State) : s.Keeps spared s :=
  ⟨rfl, rfl, rfl, List.prefix_refl _, .refl spared s.arena, List.suffix_refl _, .refl s.session⟩

theorem trans' (h : s.Keeps spared s') (h' : s'.Keeps spared' s'')
    (hnew : ∀ id, spared' id → spared id ∨ s.arena.size ≤ id.index) :
    s.Keeps spared s'' :=
  ⟨h'.focus.trans h.focus, h'.source.trans h.source, h'.fileScope.trans h.fileScope,
    h.diagnostics.trans h'.diagnostics, h.arena.trans' h'.arena hnew, h.entered.trans h'.entered,
    h.session.trans h'.session⟩

theorem trans (h : s.Keeps spared s') (h' : s'.Keeps spared s'') : s.Keeps spared s'' :=
  h.trans' h' fun _ hid => .inl hid

theorem weaken (h : s.Keeps spared s') (hmore : ∀ id, spared id → spared' id) :
    s.Keeps spared' s' :=
  { h with arena := h.arena.weaken hmore }

theorem hasBody (h : s.Keeps spared s') {id : ScopeId} {body : List Stmt} (hb : s.HasBody id body) :
    s'.HasBody id body :=
  hb.mono h.fileScope h.source h.entered.subset

theorem holds (h : s.Keeps spared s') {id : ScopeId} {f : FunctionKind × Function}
    (hf : s.Holds id f) : s'.Holds id f :=
  hf.mono h.fileScope h.source h.entered.subset

theorem madeFor (h : s.Keeps spared s') (ho : s.arena.Ordered) {id : ScopeId} {f : Function}
    (hf : s.MadeFor id f) : s'.MadeFor id f := by
  obtain ⟨kind, scope, info, around, outer, hs, hk, hp, hkey, hholds, houter, hget⟩ := hf
  have hlt : around.index < s.arena.size :=
    Nat.lt_trans (ho id scope around hs hp) (Arena.index_lt_size hs)
  obtain ⟨scope', hs', hg, _⟩ := h.arena id scope hs
  obtain ⟨outer', houter', hg', _⟩ := h.arena _ outer houter
  obtain ⟨info', hk', hname⟩ := (hk ▸ hg.kind).exists_function
  have howner := h.arena.owner_eq ho hlt
  refine ⟨kind, scope', info', around, outer', hs', hk', hg.parent.trans hp, hname.trans hkey, ?_, ?_, ?_⟩
  · rw [howner]
    exact h.holds hholds
  · rw [howner]
    exact houter'
  · rw [hname]
    exact hg'.functions _ _ hget

theorem diagnostics_ne (h : s.Keeps spared s') (hd : s.diagnostics ≠ []) : s'.diagnostics ≠ [] := by
  obtain ⟨more, hmore⟩ := h.diagnostics
  rw [← hmore]
  simp [hd]

theorem owner_eq (h : s.Keeps spared s') (ho : s.arena.Ordered)
    (hf : s.focus.scope.index < s.arena.size) : s'.owner = s.owner := by
  rw [State.owner, State.owner, h.focus, h.arena.owner_eq ho hf]

end Keeps

/-! ## Steps -/

section Steps

variable {tidy : Prop} {spared : ScopeId → Prop} {s s' : State}

/-- What a step has to show about functions for the invariant to last. -/
theorem Sound.step (h : s.Sound tidy) (hk : s.Keeps spared s') (ha : s'.arena.Sound)
    (hentered : s'.entered = s.entered)
    (hdeclared : ∀ id scope entry, s'.arena.scope? id = some scope →
      entry ∈ scope.untyped.entries → s'.Holds id (.declared, entry.2.node))
    (hunknown : s.source.program.Proper → s'.unknown ≠ [] → s.unknown = [] → s'.diagnostics ≠ [])
    (htyped : tidy → ∀ id scope name, s'.arena.scope? id = some scope →
      scope.functions.contains name → '@' ∉ name.toList → (s'.typeIn id name .writable).isSome) :
    s'.Sound tidy where
  arena := ha
  focus := by
    rw [hk.focus]
    exact Nat.lt_of_lt_of_le h.focus hk.arena.size_le
  file := by
    obtain ⟨scope, prototypes, hfile, hkind, hparent⟩ := h.file
    obtain ⟨scope', hfile', hg, _⟩ := hk.arena _ scope hfile
    obtain ⟨prototypes', hkind'⟩ := (hkind ▸ hg.kind).exists_file
    rw [hk.fileScope]
    exact ⟨scope', prototypes', hfile', hkind', hg.parent.trans hparent⟩
  declared := hdeclared
  entered := by
    intro id f hf
    rw [hentered] at hf
    exact hk.madeFor h.arena.ordered (h.entered id f hf)
  distinct := by
    rw [hentered]
    exact h.distinct
  unknown := by
    intro hproper hne
    rw [hk.source] at hproper
    by_cases hold : s.unknown = []
    · exact hunknown hproper hne hold
    · exact hk.diagnostics_ne (h.unknown hproper hold)
  program := by
    rw [hk.source]
    exact h.program
  typed := htyped

/-- A function that had a scope before has a type in sight afterwards. -/
theorem Sound.typed_of_old (h : s.Sound tidy) (hk : s.Keeps spared s') (htidy : tidy) {id : ScopeId}
    {scope : Scope} {name : String} (hs : s.arena.scope? id = some scope)
    (hc : scope.functions.contains name) (hname : '@' ∉ name.toList) :
    (s'.typeIn id name .writable).isSome := by
  have hsome := h.typed htidy id scope name hs hc hname
  rw [State.typeIn] at hsome ⊢
  rw [hk.session.globals]
  exact hk.arena.getVar_isSome h.arena.ordered (Arena.index_lt_size hs) hsome

theorem Sound.withFocus (h : s.Sound tidy) {focus : Focus} (hf : focus.scope.index < s.arena.size) :
    ({ s with focus } : State).Sound tidy where
  arena := h.arena
  focus := hf
  file := h.file
  declared := fun id scope entry hs hentry =>
    (h.declared id scope entry hs hentry).mono rfl rfl (List.Subset.refl _)
  entered := fun id f hf => by
    obtain ⟨kind, scope, info, around, outer, hs, hk, hp, hkey, hholds, houter, hget⟩ :=
      h.entered id f hf
    exact ⟨kind, scope, info, around, outer, hs, hk, hp, hkey,
      hholds.mono rfl rfl (List.Subset.refl _), houter, hget⟩
  distinct := h.distinct
  unknown := h.unknown
  program := h.program
  typed := h.typed

end Steps

/-! ## Quiet steps -/

/-- A step after which nothing is known about functions that was not known before. -/
structure Quiet (s s' : State) : Prop where
  focus : s'.focus = s.focus
  source : s'.source = s.source
  fileScope : s'.fileScope = s.fileScope
  diagnostics : s.diagnostics <+: s'.diagnostics
  arena : s.arena.Quiet s'.arena
  entered : s'.entered = s.entered
  session : s.session.Keeps s'.session
  unknown : s.source.program.Proper → s'.unknown ≠ [] → s.unknown = [] → s'.diagnostics ≠ []

namespace Quiet

variable {tidy : Prop} {s s' : State}

theorem keeps (h : s.Quiet s') (spared : ScopeId → Prop) : s.Keeps spared s' :=
  ⟨h.focus, h.source, h.fileScope, h.diagnostics, h.arena.keeps spared,
    h.entered ▸ List.suffix_refl _, h.session⟩

theorem sound (h : s.Quiet s') (hs : s.Sound tidy) : s'.Sound tidy := by
  refine hs.step (h.keeps fun _ => False) (h.arena.sound hs.arena) h.entered ?_ h.unknown ?_
  · intro id scope' entry hs' hentry
    rcases h.arena.cases hs' with ⟨scope, hold, hsame⟩ | ⟨_, around, _, he⟩
    · rw [hsame.untyped] at hentry
      exact (h.keeps fun _ => False).holds (hs.declared id scope entry hold hentry)
    · rw [he.untyped] at hentry
      cases hentry
  · intro htidy id scope' name hs' hcontains hname
    rcases h.arena.cases hs' with ⟨scope, hold, hsame⟩ | ⟨_, around, _, he⟩
    · rw [hsame.functions] at hcontains
      exact hs.typed_of_old (h.keeps fun _ => False) htidy hold hcontains hname
    · rw [he.functions] at hcontains
      cases hcontains

end Quiet

/-! ## Steps of functions -/

section Functions

variable {tidy : Prop} {spared : ScopeId → Prop} {s : State}

/-- A declared function of the body at hand is recorded as untyped. -/
theorem Sound.addFunction (h : s.Sound tidy) {f : Function} (hf : s.Holds s.owner (.declared, f)) :
    let s' : State := { s with arena := s.arena.modify s.owner fun scope =>
      { scope with untyped := scope.untyped.insert f.name ⟨f, s.owner⟩ } }
    s'.Sound tidy ∧ s.Keeps spared s' := by
  intro s'
  obtain ⟨own, hown, hbranch, _⟩ := h.arena.owner_spec h.focus
  have harena : s.arena.Keeps spared s'.arena := by
    refine .modify ?_
    intro scope _
    exact ⟨⟨rfl, .refl _, fun _ h => h, fun _ _ h => h⟩, .inr fun _ hc => .inl hc⟩
  have hk : s.Keeps spared s' :=
    ⟨rfl, rfl, rfl, List.prefix_refl _, harena, List.suffix_refl _, .refl _⟩
  refine ⟨?_, hk⟩
  refine h.step hk ?_ rfl ?_ (fun _ hne hnil => absurd hnil hne) ?_
  · refine h.arena.modify (fun _ => rfl) ?_ ?_
    · intro scope hs
      rw [State.owner] at hs
      rw [hown] at hs
      cases hs
      exact hbranch
    · intro scope entry hs hentry
      rcases Dict.mem_entries_insert hentry with rfl | hentry
      · exact ⟨rfl, rfl⟩
      · exact h.arena.untyped _ scope entry hs hentry
  · intro id scope' entry hs' hentry
    rw [Arena.scope?_modify] at hs'
    split at hs'
    · next heq =>
      subst heq
      obtain ⟨scope, hs, rfl⟩ := Option.map_eq_some_iff.mp hs'
      rcases Dict.mem_entries_insert hentry with rfl | hentry
      · exact hk.holds hf
      · exact hk.holds (h.declared _ scope entry hs hentry)
    · exact hk.holds (h.declared id scope' entry hs' hentry)
  · intro htidy id scope' name hs' hc hname
    rw [Arena.scope?_modify] at hs'
    split at hs'
    · obtain ⟨scope, hs, rfl⟩ := Option.map_eq_some_iff.mp hs'
      exact h.typed_of_old hk htidy hs hc hname
    · exact h.typed_of_old hk htidy hs' hc hname

/-- A scope that declares a function changes, but no function is declared or gets a scope. -/
theorem Sound.fewerUntyped (h : s.Sound tidy) {holder : ScopeId} {own : Scope} {name : String}
    (hown : s.arena.scope? holder = some own) (hu : own.untyped.contains name)
    {change : Scope → Scope} (hparent : ∀ scope, (change scope).parent = scope.parent)
    (hkind : ∀ scope, (change scope).kind = scope.kind)
    (hbound : ∀ scope other, scope.identifiers.contains other →
      (change scope).identifiers.contains other)
    (hfunctions : ∀ scope, (change scope).functions = scope.functions)
    (huntyped : ∀ scope, (change scope).untyped.entries ⊆ scope.untyped.entries) :
    let s' : State := { s with arena := s.arena.modify holder change }
    s'.Sound tidy ∧ s.Keeps spared s' := by
  intro s'
  have hbranch : own.kind.isBranch = false := h.arena.not_branch_of_untyped hown hu
  have harena : s.arena.Keeps spared s'.arena := by
    refine .modify fun scope _ => ⟨⟨hparent scope, ?_, hbound scope, ?_⟩, .inr ?_⟩
    · rw [hkind]
      exact .refl _
    · intro key id hget
      rwa [hfunctions]
    · intro key hc
      rw [hfunctions] at hc
      exact .inl hc
  have hk : s.Keeps spared s' :=
    ⟨rfl, rfl, rfl, List.prefix_refl _, harena, List.suffix_refl _, .refl _⟩
  refine ⟨?_, hk⟩
  refine h.step hk ?_ rfl ?_ (fun _ hne hnil => absurd hnil hne) ?_
  · refine h.arena.modify hparent ?_ ?_
    · intro scope hs
      rw [hown] at hs
      cases hs
      rw [hkind, hbranch]
    · intro scope entry hs hentry
      exact h.arena.untyped _ scope entry hs (huntyped scope hentry)
  · intro id scope' entry hs' hentry
    rw [Arena.scope?_modify] at hs'
    split at hs'
    · next heq =>
      subst heq
      obtain ⟨scope, hs, rfl⟩ := Option.map_eq_some_iff.mp hs'
      exact hk.holds (h.declared _ scope entry hs (huntyped scope hentry))
    · exact hk.holds (h.declared id scope' entry hs' hentry)
  · intro htidy id scope' other hs' hc hname
    rw [Arena.scope?_modify] at hs'
    split at hs'
    · obtain ⟨scope, hs, rfl⟩ := Option.map_eq_some_iff.mp hs'
      rw [hfunctions] at hc
      exact h.typed_of_old hk htidy hs hc hname
    · exact h.typed_of_old hk htidy hs' hc hname

/-- An untyped function gets a type. -/
theorem Sound.typeFunction (h : s.Sound tidy) {holder : ScopeId} {own : Scope} {name : String}
    (hown : s.arena.scope? holder = some own) (hu : own.untyped.contains name) (type : TypeId) :
    let s' : State := { s with arena := s.arena.modify holder (Arena.typeFunction name type) }
    s'.Sound tidy ∧ s.Keeps spared s' :=
  h.fewerUntyped hown hu (fun _ => rfl) (fun _ => rfl)
    (fun _ other ho => Dict.contains_insert _ name other type ho) (fun _ => rfl)
    fun _ _ hentry => Dict.mem_entries_erase hentry

/-- An untyped function is forgotten. -/
theorem Sound.forgetFunction (h : s.Sound tidy) {holder : ScopeId} {own : Scope} {name : String}
    (hown : s.arena.scope? holder = some own) (hu : own.untyped.contains name) :
    let s' : State := { s with arena := s.arena.modify holder (Arena.forgetFunction name) }
    s'.Sound tidy ∧ s.Keeps spared s' :=
  h.fewerUntyped hown hu (fun _ => rfl) (fun _ => rfl) (fun _ _ ho => ho) (fun _ => rfl)
    fun _ _ hentry => Dict.mem_entries_erase hentry

/-- The arena with a new scope for a function. -/
def withFunction (s : State) (info : FunctionInfo) : State :=
  { s with
    arena := (s.arena.push { parent := some s.focus.scope, kind := .function info }).2.modify s.owner
      fun scope => { scope with functions := scope.functions.insert info.name ⟨s.arena.size⟩ } }

/-- The scopes after a function got one: the new one, its owner and the others. -/
theorem scope?_withFunction (s : State) (info : FunctionInfo) (hf : s.owner.index < s.arena.size)
    (id : ScopeId) :
    (s.withFunction info).arena.scope? id =
      if id.index = s.arena.size then some { parent := some s.focus.scope, kind := .function info }
      else if s.owner = id then (s.arena.scope? id).map fun scope =>
        { scope with functions := scope.functions.insert info.name ⟨s.arena.size⟩ }
      else s.arena.scope? id := by
  simp only [withFunction, Arena.scope?_modify, Arena.scope?_push]
  by_cases hid : id.index = s.arena.size
  · have hne : s.owner ≠ id := by
      rintro heq
      rw [heq] at hf
      omega
    simp [hid, hne]
  · simp [hid]

theorem Sound.owner_lt (h : s.Sound tidy) : s.owner.index < s.arena.size := by
  obtain ⟨own, hown, _⟩ := h.arena.owner_spec h.focus
  exact Arena.index_lt_size hown

/-- A function gets a scope: its owner has none for its key, and binds its name or is spared. -/
theorem Sound.pushFunction (h : s.Sound tidy) {info : FunctionInfo}
    {own : Scope} (hown : s.arena.scope? s.owner = some own)
    (hfree : own.functions.contains info.name = false)
    (htyped : tidy → '@' ∉ info.name.toList → (s.typeIn s.owner info.name .writable).isSome)
    (hbound : spared s.owner ∨ own.identifiers.contains info.name ∨
      '@' ∈ info.name.toList) :
    (s.withFunction info).Sound tidy ∧ s.Keeps spared (s.withFunction info) := by
  have hlt := h.owner_lt
  have hbranch : own.kind.isBranch = false := by
    obtain ⟨found, hfound, hb, _⟩ := h.arena.owner_spec h.focus
    rw [State.owner, hfound] at hown
    cases hown
    exact hb
  have hpush := h.arena.push (show (Kind.function info).isBranch = false from rfl)
    (show ({ parent := some s.focus.scope, kind := .function info } : Scope).untyped = {} from rfl)
    (fun parent hp => by cases hp; exact h.focus)
  have hown' := Arena.scope?_push_of_some
    ({ parent := some s.focus.scope, kind := .function info } : Scope) hown
  have harena : s.arena.Keeps spared (s.withFunction info).arena := by
    refine Arena.Keeps.trans (.push spared s.arena _) (.modify ?_)
    intro scope hs
    rw [hown'] at hs
    cases hs
    refine ⟨⟨rfl, .refl _, fun _ h => h, ?_⟩, ?_⟩
    · intro key id hget
      have hne : info.name ≠ key := by
        rintro rfl
        simp [Dict.contains, hget] at hfree
      simpa [hne] using hget
    · refine hbound.imp_right ?_
      intro hbound key hc
      by_cases hkey : info.name = key
      · subst hkey
        exact .inr hbound
      · exact .inl (by simpa [Dict.contains, hkey] using hc)
  have hk : s.Keeps spared (s.withFunction info) :=
    ⟨rfl, rfl, rfl, List.prefix_refl _, harena, List.suffix_refl _, .refl _⟩
  refine ⟨?_, hk⟩
  refine h.step hk ?_ rfl ?_ (fun _ hne hnil => absurd hnil hne) ?_
  · refine hpush.modify (fun _ => rfl) ?_ ?_
    · intro scope hs
      rw [hown'] at hs
      cases hs
      exact hbranch
    · intro scope entry hs hentry
      exact hpush.untyped _ scope entry hs hentry
  · intro id scope' entry hs' hentry
    rw [scope?_withFunction s info hlt] at hs'
    split at hs'
    · cases hs'
      cases hentry
    · split at hs'
      · obtain ⟨scope, hs, rfl⟩ := Option.map_eq_some_iff.mp hs'
        exact hk.holds (h.declared id scope entry hs hentry)
      · exact hk.holds (h.declared id scope' entry hs' hentry)
  · intro htidy id scope' name hs' hc hname
    rw [scope?_withFunction s info hlt] at hs'
    split at hs'
    · cases hs'
      cases hc
    · split at hs'
      · next heq =>
        subst heq
        obtain ⟨scope, hs, rfl⟩ := Option.map_eq_some_iff.mp hs'
        by_cases hkey : info.name = name
        · subst hkey
          have hsome := htyped htidy hname
          rw [State.typeIn] at hsome ⊢
          exact harena.getVar_isSome h.arena.ordered hlt hsome
        · refine h.typed_of_old hk htidy hs ?_ hname
          simpa [Dict.contains, hkey] using hc
      · exact h.typed_of_old hk htidy hs' hc hname

/-- The new scope is made for the function that stands in the body at hand under its key. -/
theorem Sound.madeFor_withFunction (h : s.Sound tidy) {kind : FunctionKind} {f : Function}
    {info : FunctionInfo} (hk : s.Keeps spared (s.withFunction info))
    (hholds : s.Holds s.owner (kind, f)) (hkey : info.name = keyOf kind f) :
    (s.withFunction info).MadeFor ⟨s.arena.size⟩ f := by
  obtain ⟨own, hown, _⟩ := h.arena.owner_spec h.focus
  have howner : (s.withFunction info).arena.owner s.focus.scope = s.owner :=
    hk.arena.owner_eq h.arena.ordered h.focus
  have hnew : (s.withFunction info).arena.scope? ⟨s.arena.size⟩ =
      some { parent := some s.focus.scope, kind := .function info } := by
    rw [scope?_withFunction s info h.owner_lt, if_pos rfl]
  have hold : (s.withFunction info).arena.scope? s.owner =
      some { own with functions := own.functions.insert info.name ⟨s.arena.size⟩ } := by
    have hne : s.owner.index ≠ s.arena.size := Nat.ne_of_lt h.owner_lt
    rw [scope?_withFunction s info h.owner_lt, if_neg hne, if_pos rfl, State.owner, hown]
    rfl
  have hheld : (s.withFunction info).Holds ((s.withFunction info).arena.owner s.focus.scope)
      (kind, f) := by
    rw [howner]
    exact hk.holds hholds
  rw [← howner] at hold
  exact ⟨kind, _, info, s.focus.scope, _, hnew, rfl, rfl, hkey, hheld, hold, by simp⟩

/-- The body of a function is entered in the scope made for it. -/
theorem Sound.enter (h : s.Sound tidy) {id : ScopeId} {f : Function} (hmade : s.MadeFor id f)
    (hnew : ∀ g, (id, g) ∉ s.entered) :
    let s' : State := { s with entered := (id, f) :: s.entered }
    s'.Sound tidy ∧ s.Keeps spared s' := by
  intro s'
  have hk : s.Keeps spared s' :=
    ⟨rfl, rfl, rfl, List.prefix_refl _, .refl _ _, List.suffix_cons _ _, .refl _⟩
  refine ⟨⟨h.arena, h.focus, h.file, ?_, ?_, ?_, h.unknown, h.program, h.typed⟩, hk⟩
  · intro id scope entry hs hentry
    exact hk.holds (h.declared id scope entry hs hentry)
  · intro other g hg
    rcases List.mem_cons.mp hg with heq | hg
    · cases heq
      exact hk.madeFor h.arena.ordered hmade
    · exact hk.madeFor h.arena.ordered (h.entered other g hg)
  · refine List.nodup_cons.mpr ⟨?_, h.distinct⟩
    intro hmem
    obtain ⟨⟨_, g⟩, hg, rfl⟩ := List.mem_map.mp hmem
    exact hnew g hg

end Functions

end State

end HeaderCheck.Verify
