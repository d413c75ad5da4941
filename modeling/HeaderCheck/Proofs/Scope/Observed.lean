import HeaderCheck.Proofs.Scope.Lawful

/-!
# HeaderCheck.Proofs.Scope.Observed

Who observes a narrowed type.

* `Arena.Sees`: a look-up that starts in a scope comes to another one, as the scopes that it passes on
  the way have nothing to say.
* `findSome?_of_told`: the first match on a chain after one of its scopes has been made to match.
* `restrict_observed`: a narrowed name is observed by the look-ups of that name that come to the scope,
  a narrowed `this` by the look-ups of `this` that come to it, and by nothing else.
-/

namespace HeaderCheck.Scope.Arena

open HeaderCheck.Types

variable {a b : Arena} {s q : ScopeId} {name : String} {type : TypeId}

/-! ## What a look-up passes -/

/-- The scope neither binds nor narrows the name. -/
def passes (name : String) (scope : Scope) : Bool :=
  !scope.identifiers.contains name && !scope.restrictions.contains name

/-- The scope is no function, and no branch that narrows `this`. -/
def passesThis (scope : Scope) : Bool :=
  match scope.kind with
  | .function _ => false
  | .branch type => type.isNone
  | .file _ => true

/-- The part of a chain before it comes to `s`. -/
def before (s : ScopeId) (chain : List (ScopeId × Scope)) : List (ScopeId × Scope) :=
  chain.takeWhile fun x => x.1 ≠ s

theorem before_cons_self {x : ScopeId × Scope} (h : x.1 = s) (chain : List (ScopeId × Scope)) :
    before s (x :: chain) = [] := by
  simp [before, h]

theorem before_cons_of_ne {x : ScopeId × Scope} (h : x.1 ≠ s) (chain : List (ScopeId × Scope)) :
    before s (x :: chain) = x :: before s chain := by
  simp [before, h]

/-- `s` is on the chain of `q`, and all scopes before it are passed. -/
def Sees (a : Arena) (s q : ScopeId) (passed : Scope → Bool) : Prop :=
  s ∈ (a.chain q).map Prod.fst ∧ ∀ x ∈ before s (a.chain q), passed x.2

instance (a : Arena) (s q : ScopeId) (passed : Scope → Bool) : Decidable (a.Sees s q passed) :=
  inferInstanceAs (Decidable (_ ∧ _))

theorem ownType?_eq_none_iff {scope : Scope} :
    ownType? scope name .normal = none ↔ passes name scope := by
  rw [ownType?, Option.or_eq_none_iff, passes, Dict.contains, Dict.contains, Bool.and_eq_true,
    Bool.not_eq_true', Bool.not_eq_true', Option.isSome_eq_false_iff, Option.isSome_eq_false_iff,
    Option.isNone_iff_eq_none, Option.isNone_iff_eq_none]
  exact And.comm

/-- A look-up of `this` ends in a file, though a file says nothing about it. -/
theorem ownThis?_eq_none_iff {scope : Scope} (hfile : ∀ prototypes, scope.kind ≠ .file prototypes) :
    ownThis? scope = none ↔ passesThis scope := by
  cases hkind : scope.kind with
  | file prototypes => exact absurd hkind (hfile prototypes)
  | function info => simp [ownThis?, passesThis, hkind]
  | branch this => cases this <;> simp [ownThis?, passesThis, hkind]

/-! ## Files -/

/-- A file has no scope around it. -/
def Rooted (a : Arena) : Prop :=
  ∀ id scope prototypes, a.scope? id = some scope → scope.kind = .file prototypes →
    scope.parent = none

namespace Rooted

theorem modify (h : a.Rooted) {id : ScopeId} {change : Scope → Scope}
    (hr : ∀ scope, a.scope? id = some scope → Retained scope (change scope)) :
    (a.modify id change).Rooted := by
  intro other scope' prototypes hs' hkind'
  rw [scope?_modify] at hs'
  split at hs'
  · next heq =>
    subst heq
    obtain ⟨scope, hs, rfl⟩ := Option.map_eq_some_iff.mp hs'
    have hretained := hr scope hs
    have halike := hretained.kind
    rw [hretained.parent]
    cases hkind : scope.kind with
    | file old => exact h id scope old hs hkind
    | function info =>
      rw [hkind, hkind'] at halike
      exact halike.elim
    | branch this =>
      rw [hkind, hkind'] at halike
      exact halike.elim
  · exact h other scope' prototypes hs' hkind'

theorem push (h : a.Rooted) {scope : Scope}
    (hscope : ∀ prototypes, scope.kind = .file prototypes → scope.parent = none) :
    (a.push scope).2.Rooted := by
  intro id found prototypes hfound hkind
  rw [scope?_push] at hfound
  split at hfound
  · cases hfound
    exact hscope prototypes hkind
  · exact h id found prototypes hfound hkind

theorem bindVar (h : a.Rooted) (id : ScopeId) (name : String) (type : TypeId) :
    (a.bindVar id name type).Rooted :=
  h.modify fun scope _ => (mild_bind name type scope).retained

theorem restrict (h : a.Rooted) (id : ScopeId) (name : String) (type : TypeId) :
    (a.restrict id name type).2.Rooted := by
  unfold Arena.restrict
  split
  · exact h
  next scope hs =>
  simp only
  split <;> split
  · next hkind _ =>
    refine h.modify fun found hfound => ?_
    rw [hs] at hfound
    cases hfound
    exact ⟨rfl, by rw [hkind]; trivial, fun _ h => h, fun _ h => h, fun _ h => h⟩
  · exact h.modify fun found _ => (mild_restrict name type found).retained
  · exact h
  · split
    · exact h
    · exact h.modify fun found _ => (mild_restrict name type found).retained

theorem modifyFunction (h : a.Rooted) (id : ScopeId) {change : FunctionInfo → FunctionInfo}
    (hname : ∀ info, (change info).name = info.name) :
    (a.modifyFunction id change).2.Rooted := by
  unfold Arena.modifyFunction
  split
  · exact h
  · exact h.modify fun scope _ => (mild_modifyFunction hname scope).retained

theorem addPrototypeField (h : a.Rooted) (id : ScopeId) (constructor field : String) (type : TypeId) :
    (a.addPrototypeField id constructor field type).2.Rooted := by
  unfold Arena.addPrototypeField
  split
  · next hs =>
    refine h.modify fun found hfound => ?_
    rw [hs] at hfound
    cases hfound
    exact ⟨rfl, trivial, fun _ h => h, fun _ h => h, fun _ h => h⟩
  · exact h

end Rooted

theorem Operation.rooted (h : a.Rooted) (op : Operation) : (op.run a).2.Rooted := by
  cases op with
  | pushFile => exact h.push fun _ _ => rfl
  | pushBranch parent => exact h.push fun _ hkind => by cases hkind
  | pushFunction parent info =>
    simp only [Operation.run, outcome]
    rcases a.pushFunction_cases parent info with ⟨hrun, -⟩ | ⟨hrun, -⟩ <;> rw [hrun]
    · exact h
    · refine (h.push fun _ hkind => by cases hkind).modify fun scope _ => ?_
      exact ⟨rfl, .refl _, fun _ h => h, fun _ h => h, fun key h => Dict.contains_insert _ _ key _ h⟩
  | addVar id name type =>
    simp only [Operation.run, outcome]
    rcases a.addVar_cases id name type with hrun | hrun <;> rw [hrun]
    · exact h
    · exact h.bindVar id name type
  | forceUpdateVar id name type =>
    simp only [Operation.run, outcome]
    rcases a.forceUpdateVar_cases id name type with hrun | ⟨holder, _, _, _, hrun⟩ <;> rw [hrun]
    · exact h
    · exact h.bindVar holder name type
  | restrict id name type => exact h.restrict id name type
  | addFunction id name node =>
    simp only [Operation.run, outcome]
    rcases a.addFunction_cases id name node with hrun | hrun <;> rw [hrun]
    · exact h
    · exact h.modify fun scope _ => ⟨rfl, .refl _, fun _ h => h, fun _ h => h, fun _ h => h⟩
  | updateFunction id name type =>
    simp only [Operation.run, outcome]
    rcases a.updateFunction_cases id name type with hrun | ⟨_, _, _, _, hrun | ⟨_, hrun⟩⟩ <;> rw [hrun]
    · exact h
    · exact h.modify fun scope _ => retained_forgetFunction name scope
    · exact h.modify fun scope _ => retained_typeFunction name type scope
  | addPrototypeField id constructor field type => exact h.addPrototypeField id constructor field type
  | addKnownField id field =>
    refine h.modifyFunction id fun info => ?_
    split <;> rfl
  | markReturnType id type span => exact h.modifyFunction id fun _ => rfl
  | enterReturn id expected => exact h.modifyFunction id fun _ => rfl
  | exitReturn id => exact h.modifyFunction id fun _ => rfl

theorem Built.rooted (h : Built a) : a.Rooted := by
  induction h with
  | empty => exact fun id scope _ hs => by simp [scope?] at hs
  | step _ op _ ih => exact op.rooted ih

/-! ## Chains on the way to a scope -/

/-- A scope that is not the last one of a chain has a scope around it. -/
theorem parent_of_before {fuel : Nat} {x : ScopeId × Scope}
    (hs : s ∈ (a.chainWithin fuel q).map Prod.fst)
    (hx : x ∈ before s (a.chainWithin fuel q)) : x.2.parent ≠ none := by
  induction fuel generalizing q with
  | zero => cases hx
  | succ fuel ih =>
    cases hq : a.scope? q with
    | none =>
      rw [chainWithin_of_none fuel hq] at hx
      cases hx
    | some scope =>
      rw [chainWithin_of_some fuel hq] at hs hx
      by_cases heq : q = s
      · subst heq
        rw [before_cons_self (x := (q, scope)) rfl] at hx
        cases hx
      · rw [before_cons_of_ne (x := (q, scope)) heq, List.mem_cons] at hx
        rw [List.map_cons, List.mem_cons] at hs
        have hs := hs.resolve_left (Ne.symm heq)
        cases hp : scope.parent with
        | none =>
          rw [hp] at hs
          cases hs
        | some parent =>
          rw [hp] at hs hx
          rcases hx with rfl | hx
          · rw [hp]
            exact nofun
          · exact ih hs hx

/-- No look-up that starts in another scope comes to `s` from a scope around it or from one beside it. -/
theorem Ordered.not_on_chain (h : a.Ordered) (hne : q ≠ s)
    (hq : q ∈ (a.chain s).map Prod.fst ∨ a.parent? q = a.parent? s) :
    s ∉ (a.chain q).map Prod.fst := by
  have hindex : ∀ {id other : ScopeId}, other ∈ (a.chain id).map Prod.fst → other.index ≤ id.index := by
    intro id other hother
    obtain ⟨x, hx, rfl⟩ := List.mem_map.mp hother
    exact h.index_le_of_mem_chainWithin hx
  intro hs
  have hle := hindex hs
  have hlt : s.index < q.index := by
    refine Nat.lt_of_le_of_ne hle fun heq => hne ?_
    cases q
    cases s
    exact congrArg ScopeId.mk heq.symm
  rcases hq with haround | hbeside
  · have hback := hindex haround
    omega
  · cases hfound : a.scope? q with
    | none =>
      rw [chain_of_none hfound] at hs
      cases hs
    | some scope =>
      rw [h.chain_eq hfound, List.map_cons, List.mem_cons] at hs
      have hs := hs.resolve_left (Ne.symm hne)
      cases hp : scope.parent with
      | none =>
        rw [hp] at hs
        cases hs
      | some parent =>
        rw [hp] at hs
        -- the scope around `q` is the one around `s`, and so is older than `s`
        have hle := hindex hs
        rw [parent?, hfound, Option.bind_some, hp] at hbeside
        obtain ⟨own, hown, hparent⟩ := Option.bind_eq_some_iff.mp hbeside.symm
        have hlt := h s own parent hown hparent
        omega

/-! ## One scope is told something -/

/-- When one scope of a chain has been made to match, it is the first to match for who passes all scopes
before it. -/
theorem findSome?_of_told {γ : Type} {l l' : List (ScopeId × Scope)} {f : Scope → Option γ} (value : γ)
    (h : List.Forall₂
      (fun x y => x.1 = y.1 ∧ f y.2 = if x.1 = s then some value else f x.2) l l') :
    l'.findSome? (fun x => f x.2) =
      if s ∈ l.map Prod.fst ∧ ∀ x ∈ before s l, (f x.2).isNone then some value
      else l.findSome? fun x => f x.2 := by
  induction h with
  | nil => simp
  | @cons x y l l' hxy _ ih =>
    rw [List.findSome?_cons, hxy.2, ih]
    by_cases heq : x.1 = s
    · have hsees : s ∈ (x :: l).map Prod.fst ∧ ∀ x' ∈ before s (x :: l), (f x'.2).isNone := by
        simp [before_cons_self heq, heq]
      rw [if_pos heq, if_pos hsees]
    · have hsees : (s ∈ (x :: l).map Prod.fst ∧ ∀ x' ∈ before s (x :: l), (f x'.2).isNone) ↔
          (f x.2).isNone ∧ s ∈ l.map Prod.fst ∧ ∀ x' ∈ before s l, (f x'.2).isNone := by
        rw [before_cons_of_ne heq, List.map_cons, List.mem_cons, List.forall_mem_cons,
          or_iff_right (Ne.symm heq)]
        exact and_left_comm
      rw [if_neg heq, List.findSome?_cons, if_congr hsees rfl rfl]
      cases hx : f x.2 with
      | none => exact (if_congr (and_iff_right rfl) rfl rfl).symm
      | some found => exact (if_neg fun h => nomatch h.1).symm

/-! ## A scope with one more narrowed type -/

theorem parent_narrowScope (name : String) (type : TypeId) (scope : Scope) :
    (narrowScope name type scope).parent = scope.parent := by
  unfold narrowScope
  split <;> rfl

theorem ownType?_writable_narrowScope (name other : String) (type : TypeId) (scope : Scope) :
    ownType? (narrowScope name type scope) other .writable = ownType? scope other .writable := by
  unfold narrowScope
  split <;> rfl

theorem ownThis?_narrowScope (name : String) (type : TypeId) (scope : Scope) :
    ownThis? (narrowScope name type scope) =
      if name = thisName then some (some type) else ownThis? scope := by
  unfold narrowScope
  split <;> rfl

/-- What is narrowed is one scope, for `this` a branch. -/
theorem restrict_cases (hs : a.Issued s) (hrun : a.restrict s name type = (.ok (), b)) :
    b = a.modify s (narrowScope name type) ∧
      ∃ scope, a.scope? s = some scope ∧ (name = thisName → scope.kind.isBranch) := by
  obtain ⟨scope, hscope⟩ := scope?_of_lt hs
  cases hb : scope.kind.isBranch with
  | true =>
    rw [restrict_branch hscope hb] at hrun
    cases hrun
    exact ⟨rfl, scope, hscope, fun _ => hb⟩
  | false =>
    by_cases hname : name = thisName
    · exfalso
      cases hkind : scope.kind with
      | branch this => simp [hkind, Kind.isBranch] at hb
      | file prototypes => simp [restrict, hscope, hkind, hname] at hrun
      | function info => simp [restrict, hscope, hkind, hname] at hrun
    · have hchange : narrowScope name type = fun scope =>
          { scope with restrictions := scope.restrictions.insert name type } := by
        funext scope
        simp [narrowScope, hname]
      refine ⟨?_, scope, hscope, fun h => absurd h hname⟩
      rw [hchange]
      cases hkind : scope.kind with
      | branch this => simp [hkind, Kind.isBranch] at hb
      | file prototypes =>
        simp only [restrict, hscope, hkind, if_neg hname] at hrun
        split at hrun <;> cases hrun
        rfl
      | function info =>
        simp only [restrict, hscope, hkind, if_neg hname] at hrun
        split at hrun <;> cases hrun
        rfl

/-- All chains go through the same scopes as before. -/
theorem Ordered.chain_narrowed (h : a.Ordered) (s q : ScopeId) (name : String) (type : TypeId) :
    List.Forall₂ (fun x y => x.1 = y.1 ∧ y.2 = if x.1 = s then narrowScope name type x.2 else x.2)
      (a.chain q) ((a.modify s (narrowScope name type)).chain q) := by
  by_cases hq : q.index < a.size
  · refine h.chain_rel (R := fun id scope scope' =>
      scope' = if id = s then narrowScope name type scope else scope) (fun id scope hscope => ?_) hq
    rw [scope?_modify, hscope]
    by_cases heq : s = id
    · exact ⟨_, if_pos heq, parent_narrowScope name type scope, (if_pos heq.symm).symm⟩
    · exact ⟨_, if_neg heq, rfl, (if_neg (Ne.symm heq)).symm⟩
  · have hnone : ∀ {c : Arena}, c.size = a.size → c.scope? q = none := by
      intro c hsize
      exact Array.getElem?_eq_none (Nat.le_of_not_lt (by rwa [← hsize] at hq))
    rw [chain_of_none (hnone rfl), chain_of_none (hnone (size_modify a s _))]
    exact .nil

/-! ## Look-ups after the change -/

/-- Only the look-ups of a name by its narrowed type find a new type, and no look-up of `this` does. -/
theorem Ordered.getVar_narrowed_other (h : a.Ordered) {other : String} {mode : LookupMode}
    (hother : ¬(mode = .normal ∧ other = name ∧ name ≠ thisName)) (globals : Globals) :
    (a.modify s (narrowScope name type)).getVar globals q other mode =
      a.getVar globals q other mode := by
  have hsame : ∀ scope, ownType? (narrowScope name type scope) other mode = ownType? scope other mode := by
    intro scope
    cases mode with
    | writable => exact ownType?_writable_narrowScope name other type scope
    | normal =>
      rw [ownType?_narrowScope, if_neg]
      exact fun ⟨heq, hthis⟩ => hother ⟨rfl, heq.symm, hthis⟩
  have hfind := findSome?_rel (h.chain_narrowed s q name type)
    (f := fun x => ownType? x.2 other mode) (g := fun x => ownType? x.2 other mode) fun x y hxy => by
      rw [hxy.2]
      split
      · exact (hsame x.2).symm
      · rfl
  rw [getVar, getVar, hfind]

/-- The look-ups of a name that come to the scope find the narrowed type. -/
theorem Ordered.getVar_narrowed (h : a.Ordered) (hname : name ≠ thisName) (globals : Globals) :
    (a.modify s (narrowScope name type)).getVar globals q name .normal =
      if a.Sees s q (passes name) then some type else a.getVar globals q name .normal := by
  have htold : ∀ scope, ownType? (narrowScope name type scope) name .normal = some type :=
    fun scope => by rw [ownType?_narrowScope, if_pos ⟨rfl, hname⟩]
  have hfind := findSome?_of_told (s := s) (f := fun scope => ownType? scope name .normal) type
    ((h.chain_narrowed s q name type).imp fun x y hxy => ⟨hxy.1, by
      rw [hxy.2]
      split
      · exact htold x.2
      · rfl⟩)
  have hsees : (s ∈ (a.chain q).map Prod.fst ∧
      ∀ x ∈ before s (a.chain q), (ownType? x.2 name .normal).isNone) ↔ a.Sees s q (passes name) := by
    simp only [Option.isNone_iff_eq_none, ownType?_eq_none_iff]
    rfl
  rw [getVar, hfind, if_congr hsees rfl rfl]
  by_cases hseen : a.Sees s q (passes name)
  · rw [if_pos hseen, if_pos hseen]
  · rw [if_neg hseen, if_neg hseen]
    rfl

theorem Ordered.thisType?_narrowed_other (h : a.Ordered) (hname : name ≠ thisName) :
    (a.modify s (narrowScope name type)).thisType? q = a.thisType? q := by
  have hfind := findSome?_rel (h.chain_narrowed s q name type)
    (f := fun x => ownThis? x.2) (g := fun x => ownThis? x.2) fun x y hxy => by
      rw [hxy.2]
      split
      · rw [ownThis?_narrowScope, if_neg hname]
      · rfl
  rw [thisType?, thisType?, hfind]

/-- The look-ups of `this` that come to the scope find its narrowed type. -/
theorem Ordered.thisType?_narrowed (h : a.Ordered) (hr : a.Rooted) :
    (a.modify s (narrowScope thisName type)).thisType? q =
      if a.Sees s q passesThis then some type else a.thisType? q := by
  have hfind := findSome?_of_told (s := s) (f := ownThis?) (some type)
    ((h.chain_narrowed s q thisName type).imp fun x y hxy => ⟨hxy.1, by
      rw [hxy.2]
      split
      · rw [ownThis?_narrowScope, if_pos rfl]
      · rfl⟩)
  have hsees : (s ∈ (a.chain q).map Prod.fst ∧
      ∀ x ∈ before s (a.chain q), (ownThis? x.2).isNone) ↔ a.Sees s q passesThis := by
    refine and_congr_right fun hs => forall₂_congr fun x hx => ?_
    rw [Option.isNone_iff_eq_none]
    -- a look-up that goes on is not in a file
    refine ownThis?_eq_none_iff fun prototypes hkind => parent_of_before hs hx ?_
    have hmem : x ∈ a.chain q := List.takeWhile_subset _ hx
    exact hr x.1 x.2 prototypes (scope?_of_mem_chainWithin hmem) hkind
  rw [thisType?, thisType?, hfind, if_congr hsees rfl rfl]
  split <;> rfl

/-- When a scope narrows a name, the look-ups of that name by its narrowed type change that come to the
scope past scopes without the name; when a branch narrows `this`, the look-ups of `this` do that come to
it past branches that do not narrow it, in the same function. Nothing else changes, and nothing at all
in the scopes around and beside it. -/
theorem restrict_observed {a b : Arena} {s : ScopeId} {name : String} {type : TypeId} (h : Built a)
    (hs : a.Issued s) (hrun : a.restrict s name type = (.ok (), b)) :
    (name ≠ thisName →
      (∀ globals q other mode, b.getVar globals q other mode =
        if mode = .normal ∧ other = name ∧ a.Sees s q (passes name) then some type
        else a.getVar globals q other mode) ∧
      ∀ q, b.thisType? q = a.thisType? q) ∧
    (name = thisName →
      (∃ scope, a.scope? s = some scope ∧ scope.kind.isBranch) ∧
      (∀ globals q other mode, b.getVar globals q other mode = a.getVar globals q other mode) ∧
      ∀ q, b.thisType? q = if a.Sees s q passesThis then some type else a.thisType? q) ∧
    ∀ q, q ≠ s → q ∈ (a.chain s).map Prod.fst ∨ a.parent? q = a.parent? s →
      (∀ globals other mode, b.getVar globals q other mode = a.getVar globals q other mode) ∧
      b.thisType? q = a.thisType? q := by
  obtain ⟨rfl, scope, hscope, hbranch⟩ := restrict_cases hs hrun
  have ho : a.Ordered := h.lawful.ordered
  have hnamed : name ≠ thisName → ∀ globals q other mode,
      (a.modify s (narrowScope name type)).getVar globals q other mode =
        if mode = .normal ∧ other = name ∧ a.Sees s q (passes name) then some type
        else a.getVar globals q other mode := by
    intro hname globals q other mode
    by_cases hsame : mode = .normal ∧ other = name
    · obtain ⟨rfl, rfl⟩ := hsame
      rw [ho.getVar_narrowed hname]
      exact if_congr (by simp) rfl rfl
    · rw [if_neg fun ⟨hmode, hother, _⟩ => hsame ⟨hmode, hother⟩]
      exact ho.getVar_narrowed_other (fun ⟨hmode, hother, _⟩ => hsame ⟨hmode, hother⟩) globals
  have hthis : ∀ q other mode globals, name = thisName →
      (a.modify s (narrowScope name type)).getVar globals q other mode =
        a.getVar globals q other mode :=
    fun q other mode globals hname =>
      ho.getVar_narrowed_other (fun ⟨_, _, hne⟩ => hne hname) globals
  refine ⟨fun hname => ⟨hnamed hname, fun q => ho.thisType?_narrowed_other hname⟩, fun hname =>
    ⟨⟨scope, hscope, hbranch hname⟩, fun globals q other mode => hthis q other mode globals hname, ?_⟩, ?_⟩
  · subst hname
    exact fun q => ho.thisType?_narrowed h.rooted
  · intro q hne hq
    have hunseen : ∀ passed, ¬a.Sees s q passed := fun passed hsees => ho.not_on_chain hne hq hsees.1
    by_cases hname : name = thisName
    · refine ⟨fun globals other mode => hthis q other mode globals hname, ?_⟩
      subst hname
      rw [ho.thisType?_narrowed h.rooted, if_neg (hunseen _)]
    · refine ⟨fun globals other mode => ?_, ho.thisType?_narrowed_other hname⟩
      rw [hnamed hname, if_neg fun ⟨_, _, hsees⟩ => hunseen _ hsees]

/-- A file that binds `x`, a function in it, a branch of the function with a branch in it, and a second
branch of the function. -/
def twoArms : Arena :=
  let info : FunctionInfo := { name := "f", funcType := .any, isConstructor := false }
  [.pushFile, .addVar ⟨0⟩ "x" .any, .pushFunction ⟨0⟩ info, .pushBranch ⟨1⟩, .pushBranch ⟨2⟩,
    .pushBranch ⟨1⟩].foldl (fun a (op : Operation) => (op.run a).2) {}

/-- The first branch narrows `x` and `this`: the branch in it observes both, and the second branch neither. -/
theorem restrict_observed_twoArms :
    let x := (twoArms.restrict ⟨2⟩ "x" .string).2
    let this := (twoArms.restrict ⟨2⟩ thisName .number).2
    (x.getVar {} ⟨3⟩ "x" .normal = some .string ∧ x.getVar {} ⟨3⟩ "x" .writable = some .any ∧
      x.getVar {} ⟨4⟩ "x" .normal = some .any) ∧
      this.thisType? ⟨3⟩ = some .number ∧ this.thisType? ⟨4⟩ = none := by
  have hbuilt : Built twoArms :=
    .step (.step (.step (.step (.step (.step .empty .pushFile trivial)
      (.addVar ⟨0⟩ "x" .any) Nat.one_pos) (.pushFunction ⟨0⟩ _) ⟨Nat.one_pos, rfl⟩)
      (.pushBranch ⟨1⟩) Nat.one_lt_two) (.pushBranch ⟨2⟩) (Nat.lt_succ_self 2))
      (.pushBranch ⟨1⟩) (Nat.lt_of_sub_eq_succ rfl)
  have hissued : twoArms.Issued ⟨2⟩ := Nat.lt_of_sub_eq_succ rfl
  intro x this
  have hrunx : twoArms.restrict ⟨2⟩ "x" .string = (.ok (), x) := rfl
  have hrunThis : twoArms.restrict ⟨2⟩ thisName .number = (.ok (), this) := rfl
  obtain ⟨hx, -⟩ := restrict_observed hbuilt hissued hrunx
  obtain ⟨-, hthis, hbeside⟩ := restrict_observed hbuilt hissued hrunThis
  obtain ⟨hvar, -⟩ := hx (by decide)
  refine ⟨⟨?_, ?_, ?_⟩, ?_, ?_⟩
  · rw [hvar, if_pos (by decide)]
  · rw [hvar, if_neg (by decide)]
    rfl
  · rw [hvar, if_neg (by decide)]
    rfl
  · rw [(hthis rfl).2.2, if_pos (by decide)]
  · rw [(hbeside ⟨4⟩ (by decide) (.inr rfl)).2]
    rfl

end HeaderCheck.Scope.Arena
