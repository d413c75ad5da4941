import HeaderCheck.Proofs.Scope.Related
import HeaderCheck.Proofs.Types.Same

/-!
# HeaderCheck.Proofs.Scope.Parallel

Scopes of two runs that have the same types under other handles.

* `Dict.Parallel`: dictionaries with the same keys and related values.
* `Scope.Parallel`, `Arena.Parallel`: the same scopes, up to handles that are related.
* Look-ups in parallel arenas give related types, and operations with related types leave them
  parallel and are refused alike.
-/

namespace HeaderCheck

open HeaderCheck.Types (TypeId)

/-! ## Dictionaries -/

namespace Dict

variable {α β : Type} {R S : α → β → Prop} {d : Dict α} {d' : Dict β}

/-- Dictionaries with the same keys, in the same order, and related values. -/
def Parallel (R : α → β → Prop) (d : Dict α) (d' : Dict β) : Prop :=
  Related Eq (fun _ => R) d d'

namespace Parallel

theorem empty : Parallel R {} {} :=
  .nil

theorem get? (h : d.Parallel R d') (key : String) : Option.Rel R (d.get? key) (d'.get? key) :=
  h.get?_rel oneToOne_eq rfl

theorem contains_eq (h : d.Parallel R d') (key : String) : d'.contains key = d.contains key :=
  Related.contains_eq h oneToOne_eq rfl

theorem insert (h : d.Parallel R d') (key : String) {value : α} {value' : β} (hvalue : R value value') :
    (d.insert key value).Parallel R (d'.insert key value') :=
  Related.insert h oneToOne_eq rfl hvalue

theorem mono (h : d.Parallel R d') (hRS : ∀ a b, R a b → S a b) : d.Parallel S d' :=
  List.Forall₂.imp (fun _ _ hxy => ⟨hxy.1, hRS _ _ hxy.2⟩) h

theorem ofList {pairs : List (String × α)} {pairs' : List (String × β)}
    (h : List.Forall₂ (fun x y => x.1 = y.1 ∧ R x.2 y.2) pairs pairs') :
    (Dict.ofList pairs).Parallel R (Dict.ofList pairs') := by
  have hfold : ∀ {d : Dict α} {d' : Dict β}, d.Parallel R d' →
      (pairs.foldl (fun d x => d.insert x.1 x.2) d).Parallel R
        (pairs'.foldl (fun d x => d.insert x.1 x.2) d') := by
    induction h with
    | nil => exact fun hd => hd
    | cons hfirst _ ih =>
      intro d d' hd
      rw [List.foldl_cons, List.foldl_cons, ← hfirst.1]
      exact ih (hd.insert _ hfirst.2)
  exact hfold empty

end Parallel

end Dict

/-- The same bindings for all files, up to handles. -/
structure Globals.Parallel (R : TypeId → TypeId → Prop) (g g' : Globals) : Prop where
  identifiers : g.identifiers.Parallel R g'.identifiers
  operators : g.operators.Parallel R g'.operators
  virtualTypes : g.virtualTypes.Parallel R g'.virtualTypes

namespace Scope

/-! ## Scopes -/

variable {R S : TypeId → TypeId → Prop}

/-- What is known about a function in two runs. -/
structure FunctionInfo.Parallel (R : TypeId → TypeId → Prop) (info info' : FunctionInfo) : Prop where
  name : info'.name = info.name
  thisType : Option.Rel R info.thisType info'.thisType
  returnType : R info.returnType info'.returnType
  funcType : R info.funcType info'.funcType
  isConstructor : info'.isConstructor = info.isConstructor
  knownFields : info'.knownFields = info.knownFields
  knownReturnType : Option.Rel R info.knownReturnType info'.knownReturnType
  returnSpan : info'.returnSpan = info.returnSpan
  returnExpressionType : Option.Rel R info.returnExpressionType info'.returnExpressionType

inductive Kind.Parallel (R : TypeId → TypeId → Prop) : Kind → Kind → Prop
  | file {prototypes prototypes' : Dict (Dict TypeId)}
    (h : prototypes.Parallel (Dict.Parallel R) prototypes') :
    Parallel R (.file prototypes) (.file prototypes')
  | function {info info' : FunctionInfo} (h : info.Parallel R info') :
    Parallel R (.function info) (.function info')
  | branch {this this' : Option TypeId} (h : Option.Rel R this this') :
    Parallel R (.branch this) (.branch this')

/-- One scope in two runs. -/
structure Parallel (R : TypeId → TypeId → Prop) (scope scope' : HeaderCheck.Scope) : Prop where
  parent : scope'.parent = scope.parent
  kind : scope.kind.Parallel R scope'.kind
  identifiers : scope.identifiers.Parallel R scope'.identifiers
  restrictions : scope.restrictions.Parallel R scope'.restrictions
  untyped : scope'.untyped = scope.untyped
  functions : scope'.functions = scope.functions

theorem FunctionInfo.Parallel.mono {info info' : FunctionInfo} (h : info.Parallel R info')
    (hRS : ∀ i i', R i i' → S i i') : info.Parallel S info' where
  name := h.name
  thisType := Types.rel_mono h.thisType hRS
  returnType := hRS _ _ h.returnType
  funcType := hRS _ _ h.funcType
  isConstructor := h.isConstructor
  knownFields := h.knownFields
  knownReturnType := Types.rel_mono h.knownReturnType hRS
  returnSpan := h.returnSpan
  returnExpressionType := Types.rel_mono h.returnExpressionType hRS

theorem Kind.Parallel.mono {kind kind' : Kind} (h : kind.Parallel R kind')
    (hRS : ∀ i i', R i i' → S i i') : kind.Parallel S kind' := by
  cases h with
  | file h => exact .file (h.mono fun _ _ hd => hd.mono hRS)
  | function h => exact .function (h.mono hRS)
  | branch h => exact .branch (Types.rel_mono h hRS)

theorem Kind.Parallel.isBranch_eq {kind kind' : Kind} (h : kind.Parallel R kind') :
    kind'.isBranch = kind.isBranch := by
  cases h <;> rfl

theorem Kind.Parallel.isFunction_eq {kind kind' : Kind} (h : kind.Parallel R kind') :
    kind'.isFunction = kind.isFunction := by
  cases h <;> rfl

theorem Parallel.mono {scope scope' : HeaderCheck.Scope} (h : Parallel R scope scope')
    (hRS : ∀ i i', R i i' → S i i') : Parallel S scope scope' :=
  ⟨h.parent, h.kind.mono hRS, h.identifiers.mono hRS, h.restrictions.mono hRS, h.untyped, h.functions⟩

/-- Parallel scopes stand at the same place and are of the same kind. -/
theorem shaped_parallel (R : TypeId → TypeId → Prop) : Shaped fun _ => Parallel R where
  parent := fun h => h.parent
  isBranch := fun h => h.kind.isBranch_eq
  isFunction := fun h => h.kind.isFunction_eq

namespace Arena

/-! ## Arenas -/

/-- The same scopes in two runs. -/
def Parallel (R : TypeId → TypeId → Prop) (a a' : Arena) : Prop :=
  Related (fun _ => Scope.Parallel R) a a'

namespace Parallel

variable {a a' : Arena} {id : ScopeId} {type type' : TypeId}

theorem mono (h : a.Parallel R a') (hRS : ∀ i i', R i i' → S i i') : a.Parallel S a' := by
  intro id
  have hrel := h id
  generalize a.scope? id = x at hrel
  generalize a'.scope? id = y at hrel
  cases hrel with
  | none => exact .none
  | some hs => exact .some (hs.mono hRS)

theorem pushFile : Arena.Parallel R (({} : Arena).pushFile).2 (({} : Arena).pushFile).2 := by
  refine Related.push (fun id => ?_) ⟨rfl, .file .empty, .empty, .empty, rfl, rfl⟩
  have hnone : ({} : Arena).scope? id = none := by simp [scope?]
  rw [hnone]
  exact .none

variable (h : a.Parallel R a')

include h

/-! ### Look-ups -/

theorem owner_eq (id : ScopeId) : a'.owner id = a.owner id :=
  Related.owner_eq (shaped_parallel R) h id

theorem isBranch_eq (id : ScopeId) :
    (a'.scope? id).any (fun scope => scope.kind.isBranch) =
      (a.scope? id).any fun scope => scope.kind.isBranch :=
  Related.isBranch_eq (shaped_parallel R) h id

/-- What the first scope that says something says is related. -/
theorem findSome?_chain {α β : Type} {K : α → β → Prop} {f : ScopeId × HeaderCheck.Scope → Option α}
    {g : ScopeId × HeaderCheck.Scope → Option β}
    (hfg : ∀ x y, x.1 = y.1 → Scope.Parallel R x.2 y.2 → Option.Rel K (f x) (g y)) (id : ScopeId) :
    Option.Rel K ((a.chain id).findSome? f) ((a'.chain id).findSome? g) := by
  have hrel := Related.chain_rel (shaped_parallel R) h id
  generalize a.chain id = chain at hrel
  generalize a'.chain id = chain' at hrel
  induction hrel with
  | nil => exact .none
  | @cons x y _ _ hxy _ ih =>
    have hfirst := hfg x y hxy.1 hxy.2
    rw [List.findSome?_cons, List.findSome?_cons]
    generalize f x = first at hfirst
    generalize g y = first' at hfirst
    cases hfirst with
    | none => exact ih
    | some hk => exact .some hk

theorem getVar_rel {globals globals' : Globals} (hg : globals.Parallel R globals') (id : ScopeId)
    (name : String) (mode : LookupMode) :
    Option.Rel R (a.getVar globals id name mode) (a'.getVar globals' id name mode) := by
  have hown (scope scope' : HeaderCheck.Scope) (hs : Scope.Parallel R scope scope') :
      Option.Rel R (ownType? scope name mode) (ownType? scope' name mode) := by
    have hbound := hs.identifiers.get? name
    cases mode with
    | writable => exact hbound
    | normal =>
      have hnarrowed := hs.restrictions.get? name
      rw [ownType?, ownType?]
      generalize scope.restrictions.get? name = x at hnarrowed ⊢
      generalize scope'.restrictions.get? name = y at hnarrowed ⊢
      cases hnarrowed with
      | none => exact hbound
      | some hk => exact .some hk
  have hfound := h.findSome?_chain (fun x y _ hs => hown x.2 y.2 hs) id
  rw [getVar, getVar]
  generalize (a.chain id).findSome? (fun x => ownType? x.2 name mode) = x at hfound ⊢
  generalize (a'.chain id).findSome? (fun x => ownType? x.2 name mode) = y at hfound ⊢
  cases hfound with
  | none => exact hg.identifiers.get? name
  | some hk => exact .some hk

theorem thisType?_rel (id : ScopeId) : Option.Rel R (a.thisType? id) (a'.thisType? id) := by
  have hown (scope scope' : HeaderCheck.Scope) (hs : Scope.Parallel R scope scope') :
      Option.Rel (Option.Rel R) (ownThis? scope) (ownThis? scope') := by
    have hkind := hs.kind
    rw [ownThis?, ownThis?]
    generalize scope.kind = kind at hkind
    generalize scope'.kind = kind' at hkind
    cases hkind with
    | file _ => exact .some .none
    | function hinfo => exact .some hinfo.thisType
    | branch hthis =>
      cases hthis with
      | none => exact .none
      | some hk => exact .some (.some hk)
  have hfound := h.findSome?_chain (fun x y _ hs => hown x.2 y.2 hs) id
  rw [thisType?, thisType?]
  generalize (a.chain id).findSome? (fun x => ownThis? x.2) = x at hfound ⊢
  generalize (a'.chain id).findSome? (fun x => ownThis? x.2) = y at hfound ⊢
  cases hfound with
  | none => exact .none
  | some hk => exact hk

/-- Scopes say the same about what is no type. -/
theorem findSome?_chain_eq {α : Type} {f : HeaderCheck.Scope → Option α}
    (hf : ∀ scope scope', Scope.Parallel R scope scope' → f scope' = f scope) (id : ScopeId) :
    (a'.chain id).findSome? (fun x => f x.2) = (a.chain id).findSome? fun x => f x.2 :=
  (findSome?_rel (Related.chain_rel (shaped_parallel R) h id) fun x y hxy =>
    (hf x.2 y.2 hxy.2).symm).symm

theorem getFunction?_eq (id : ScopeId) (name : String) :
    a'.getFunction? id name = a.getFunction? id name :=
  h.findSome?_chain_eq (f := fun scope => scope.untyped.get? name) (fun _ _ hs => by rw [hs.untyped]) id

theorem knownFunction?_eq (id : ScopeId) (name : String) :
    a'.knownFunction? id name = a.knownFunction? id name :=
  h.findSome?_chain_eq (f := fun scope => scope.functions.get? name) (fun _ _ hs => by rw [hs.functions]) id

theorem hasOwnVar_eq (id : ScopeId) (name : String) : a'.hasOwnVar id name = a.hasOwnVar id name := by
  have hrel := h id
  simp only [hasOwnVar]
  generalize a.scope? id = x at hrel
  generalize a'.scope? id = y at hrel
  cases hrel with
  | none => rfl
  | some hs => simp only [Option.any_some, hs.identifiers.contains_eq]

theorem hasFunction_eq (id : ScopeId) (key : String) :
    (a'.scope? id).any (fun scope => scope.functions.contains key) =
      (a.scope? id).any fun scope => scope.functions.contains key := by
  have hrel := h id
  generalize a.scope? id = x at hrel
  generalize a'.scope? id = y at hrel
  cases hrel with
  | none => rfl
  | some hs => simp only [Option.any_some, hs.functions]

theorem restrictions_rel (id : ScopeId) :
    List.Forall₂ (fun x y => x.1 = y.1 ∧ R x.2 y.2) (a.restrictions id) (a'.restrictions id) := by
  have hrel := h id
  simp only [restrictions]
  generalize a.scope? id = x at hrel
  generalize a'.scope? id = y at hrel
  cases hrel with
  | none => exact .nil
  | some hs => exact hs.restrictions

theorem prototypeFields?_rel (id : ScopeId) (constructor : String) :
    Option.Rel (Dict.Parallel R) (a.prototypeFields? id constructor)
      (a'.prototypeFields? id constructor) := by
  have hrel := h (a.root id)
  simp only [prototypeFields?, Related.root_eq (shaped_parallel R) h id]
  generalize a.scope? (a.root id) = x at hrel
  generalize a'.scope? (a.root id) = y at hrel
  cases hrel with
  | none => exact .none
  | @some scope scope' hs =>
    have hkind := hs.kind
    obtain ⟨_, kind, _, _, _, _⟩ := scope
    obtain ⟨_, kind', _, _, _, _⟩ := scope'
    cases hkind with
    | file hp => exact hp.get? constructor
    | function _ => exact .none
    | branch _ => exact .none

theorem functionInfo?_rel (id : ScopeId) :
    Option.Rel (FunctionInfo.Parallel R) (a.functionInfo? id) (a'.functionInfo? id) := by
  simp only [functionInfo?, Related.functionScope?_eq (shaped_parallel R) h id]
  cases a.functionScope? id with
  | none => exact .none
  | some found =>
    have hrel := h found
    simp only [Option.bind_some]
    generalize a.scope? found = x at hrel
    generalize a'.scope? found = y at hrel
    cases hrel with
    | none => exact .none
    | @some scope scope' hs =>
      have hkind := hs.kind
      obtain ⟨_, kind, _, _, _, _⟩ := scope
      obtain ⟨_, kind', _, _, _, _⟩ := scope'
      cases hkind with
      | file _ => exact .none
      | branch _ => exact .none
      | function hinfo => exact .some hinfo

theorem returnExpressionType?_rel (id : ScopeId) :
    Option.Rel R (a.returnExpressionType? id) (a'.returnExpressionType? id) := by
  have hrel := h.functionInfo?_rel id
  simp only [returnExpressionType?]
  generalize a.functionInfo? id = x at hrel
  generalize a'.functionInfo? id = y at hrel
  cases hrel with
  | none => exact .none
  | some hinfo => exact hinfo.returnExpressionType

/-! ### Operations -/

omit h in
/-- An operation that gives the same result in both runs and leaves parallel arenas. -/
structure Runs {α : Type} (R : TypeId → TypeId → Prop) (run run' : Except Error α × Arena) : Prop where
  result : run'.1 = run.1
  parallel : run.2.Parallel R run'.2

theorem modify {change change' : HeaderCheck.Scope → HeaderCheck.Scope}
    (hchange : ∀ scope scope', Scope.Parallel R scope scope' →
      Scope.Parallel R (change scope) (change' scope')) :
    (a.modify id change).Parallel R (a'.modify id change') :=
  Related.modify h fun scope scope' _ => hchange scope scope'

theorem pushBranch (parent : ScopeId) :
    (a'.pushBranch parent).1 = (a.pushBranch parent).1 ∧
      (a.pushBranch parent).2.Parallel R (a'.pushBranch parent).2 :=
  ⟨congrArg ScopeId.mk (Related.size_eq h),
    Related.push h ⟨rfl, .branch .none, .empty, .empty, rfl, rfl⟩⟩

theorem bindVar (id : ScopeId) (name : String) (ht : R type type') :
    (a.bindVar id name type).Parallel R (a'.bindVar id name type') :=
  h.modify fun _ _ hs => { hs with identifiers := hs.identifiers.insert name ht }

theorem addVar (id : ScopeId) (name : String) (ht : R type type') :
    Runs R (a.addVar id name type) (a'.addVar id name type') := by
  unfold Arena.addVar
  rw [h.hasOwnVar_eq]
  split
  · exact ⟨rfl, h⟩
  · exact ⟨rfl, h.bindVar id name ht⟩

theorem forceUpdateVar (id : ScopeId) (name : String) (ht : R type type') :
    Runs R (a.forceUpdateVar id name type) (a'.forceUpdateVar id name type') := by
  have hrel : Option.Rel (fun x y => x.1 = y.1 ∧ Scope.Parallel R x.2 y.2)
      ((a.chain id).find? fun x => x.2.identifiers.contains name)
      ((a'.chain id).find? fun x => x.2.identifiers.contains name) :=
    find?_rel (Related.chain_rel (shaped_parallel R) h id) fun x y hxy => by
      rw [hxy.2.identifiers.contains_eq]
  unfold Arena.forceUpdateVar
  generalize (a.chain id).find? (fun x => x.2.identifiers.contains name) = x at hrel
  generalize (a'.chain id).find? (fun x => x.2.identifiers.contains name) = y at hrel
  cases hrel with
  | none => exact ⟨rfl, h⟩
  | @some x y hxy =>
    obtain ⟨holder, _⟩ := x
    obtain ⟨_, _⟩ := y
    cases hxy.1
    exact ⟨rfl, h.bindVar holder name ht⟩

theorem restrict (id : ScopeId) (name : String) (ht : R type type') :
    Runs R (a.restrict id name type) (a'.restrict id name type') := by
  have hrel := h id
  have hnarrowed : Arena.Parallel R
      (a.modify id fun scope => { scope with restrictions := scope.restrictions.insert name type })
      (a'.modify id fun scope => { scope with restrictions := scope.restrictions.insert name type' }) :=
    h.modify fun _ _ hs => { hs with restrictions := hs.restrictions.insert name ht }
  unfold Arena.restrict
  generalize a.scope? id = x at hrel
  generalize a'.scope? id = y at hrel
  cases hrel with
  | none => exact ⟨rfl, h⟩
  | @some scope scope' hs =>
    have hkind := hs.kind
    have hcontains := hs.restrictions.contains_eq name
    obtain ⟨_, kind, _, restrictions, _, _⟩ := scope
    obtain ⟨_, kind', _, restrictions', _, _⟩ := scope'
    simp only at hcontains hkind ⊢
    cases hkind with
    | branch this =>
      simp only
      split
      · exact ⟨rfl, h.modify fun _ _ hs => { hs with kind := .branch (.some ht) }⟩
      · exact ⟨rfl, hnarrowed⟩
    | file _ =>
      simp only [hcontains]
      split
      · exact ⟨rfl, h⟩
      split
      · exact ⟨rfl, h⟩
      · exact ⟨rfl, hnarrowed⟩
    | function _ =>
      simp only [hcontains]
      split
      · exact ⟨rfl, h⟩
      split
      · exact ⟨rfl, h⟩
      · exact ⟨rfl, hnarrowed⟩

theorem addFunction (id : ScopeId) (name : String) (node : Script.Function) :
    Runs R (a.addFunction id name node) (a'.addFunction id name node) := by
  unfold Arena.addFunction
  simp only [h.owner_eq, h.hasOwnVar_eq]
  split
  · exact ⟨rfl, h⟩
  · exact ⟨rfl, h.modify fun _ _ hs => { hs with untyped := by rw [hs.untyped] }⟩

theorem updateFunction (id : ScopeId) (name : String) (ht : R type type') :
    Runs R (a.updateFunction id name type) (a'.updateFunction id name type') := by
  have hrel : Option.Rel (fun x y => x.1 = y.1 ∧ Scope.Parallel R x.2 y.2)
      ((a.chain id).find? fun x => x.2.untyped.contains name)
      ((a'.chain id).find? fun x => x.2.untyped.contains name) :=
    find?_rel (Related.chain_rel (shaped_parallel R) h id) fun x y hxy => by rw [hxy.2.untyped]
  unfold Arena.updateFunction
  generalize (a.chain id).find? (fun x => x.2.untyped.contains name) = x at hrel
  generalize (a'.chain id).find? (fun x => x.2.untyped.contains name) = y at hrel
  cases hrel with
  | none => exact ⟨rfl, h⟩
  | @some x y hxy =>
    obtain ⟨holder, _⟩ := x
    obtain ⟨_, _⟩ := y
    cases hxy.1
    have herased : Arena.Parallel R
        (a.modify holder fun scope => { scope with untyped := scope.untyped.erase name })
        (a'.modify holder fun scope => { scope with untyped := scope.untyped.erase name }) :=
      h.modify fun _ _ hs => { hs with untyped := by rw [hs.untyped] }
    obtain ⟨hresult, hparallel⟩ := herased.addVar holder name ht
    simp only
    generalize (a.modify holder fun scope => { scope with untyped := scope.untyped.erase name }).addVar
      holder name type = run at hresult hparallel
    generalize (a'.modify holder fun scope => { scope with untyped := scope.untyped.erase name }).addVar
      holder name type' = run' at hresult hparallel
    obtain ⟨result, b⟩ := run
    obtain ⟨result', b'⟩ := run'
    cases hresult
    cases result with
    | ok _ => exact ⟨rfl, hparallel⟩
    | error _ => exact ⟨rfl, hparallel⟩

theorem addPrototypeField (id : ScopeId) (constructor field : String) (ht : R type type') :
    Runs R (a.addPrototypeField id constructor field type)
      (a'.addPrototypeField id constructor field type') := by
  have hrel := h id
  unfold Arena.addPrototypeField
  generalize a.scope? id = x at hrel
  generalize a'.scope? id = y at hrel
  cases hrel with
  | none => exact ⟨rfl, h⟩
  | @some scope scope' hs =>
    have hkind := hs.kind
    obtain ⟨_, kind, _, _, _, _⟩ := scope
    obtain ⟨_, kind', _, _, _, _⟩ := scope'
    cases hkind with
    | @file prototypes prototypes' hp =>
      have hold : Dict.Parallel R ((prototypes.get? constructor).getD {})
          ((prototypes'.get? constructor).getD {}) := by
        have hfields := hp.get? constructor
        generalize prototypes.get? constructor = fields at hfields
        generalize prototypes'.get? constructor = fields' at hfields
        cases hfields with
        | none => exact .empty
        | some hd => exact hd
      exact ⟨rfl, h.modify fun _ _ hs =>
        { hs with kind := .file (hp.insert constructor (hold.insert field ht)) }⟩
    | function _ => exact ⟨rfl, h⟩
    | branch _ => exact ⟨rfl, h⟩

theorem modifyFunction (id : ScopeId) {change change' : FunctionInfo → FunctionInfo}
    (hchange : ∀ info info', info.Parallel R info' → (change info).Parallel R (change' info')) :
    Runs R (a.modifyFunction id change) (a'.modifyFunction id change') := by
  unfold Arena.modifyFunction
  rw [Related.functionScope?_eq (shaped_parallel R) h]
  cases a.functionScope? id with
  | none => exact ⟨rfl, h⟩
  | some found =>
    refine ⟨rfl, h.modify fun scope scope' hs => ?_⟩
    have hkind := hs.kind
    obtain ⟨_, kind, _, _, _, _⟩ := scope
    obtain ⟨_, kind', _, _, _, _⟩ := scope'
    cases hkind with
    | file _ => exact hs
    | branch _ => exact hs
    | function hinfo => exact { hs with kind := .function (hchange _ _ hinfo) }

theorem pushFunction (parent : ScopeId) {info info' : FunctionInfo} (hinfo : info.Parallel R info') :
    Runs R (a.pushFunction parent info) (a'.pushFunction parent info') := by
  have hpushed : Arena.Parallel R (a.push { parent := some parent, kind := .function info }).2
      (a'.push { parent := some parent, kind := .function info' }).2 :=
    Related.push h ⟨rfl, .function hinfo, .empty, .empty, rfl, rfl⟩
  have hid : (a'.push { parent := some parent, kind := .function info' }).1 =
      (a.push { parent := some parent, kind := .function info }).1 :=
    congrArg ScopeId.mk (Related.size_eq h)
  unfold Arena.pushFunction
  simp only [h.owner_eq, h.hasFunction_eq, hinfo.name]
  split
  · exact ⟨rfl, h⟩
  · refine ⟨congrArg Except.ok hid, hpushed.modify fun _ _ hs => { hs with functions := ?_ }⟩
    simp only [hs.functions, hid]

end Parallel

end Arena

end Scope

end HeaderCheck
