import HeaderCheck.Proofs.Scope.Related
import HeaderCheck.Proofs.Verify.Like

/-!
# HeaderCheck.Proofs.Scope.Twins

Arenas of two runs that go through the same scopes.

* `Scope.Twins`: the same scope in two runs. Functions without a type may stand at other places, keys
  of functions may be others that belong together, and a return statement may be under way in one run
  only where the comparison says so.
* `Arena.Twins`: the same for all scopes. Look-ups in twins give the same, and operations on them
  give the same result and leave twins.
-/

namespace HeaderCheck

namespace Scope

open HeaderCheck.Script (Pairing)
open HeaderCheck.Types

/-! ## Scopes of two runs -/

/-- The pairings of the bodies that scopes are made for. -/
abbrev World (exact : Prop) : Type :=
  ScopeId → Pairing exact

/-- What is known about a function in two runs. `same` says whether the same return statement is
under way. -/
structure FunctionInfo.Twins (exact same : Prop) (info info' : FunctionInfo) : Prop where
  thisType : info'.thisType = info.thisType
  returnType : info'.returnType = info.returnType
  funcType : info'.funcType = info.funcType
  isConstructor : info'.isConstructor = info.isConstructor
  knownFields : info'.knownFields = info.knownFields
  knownReturnType : info'.knownReturnType = info.knownReturnType
  name : exact → info'.name = info.name
  returnSpan : exact → info'.returnSpan = info.returnSpan
  returnExpressionType : same → info'.returnExpressionType = info.returnExpressionType

inductive Kind.Twins (exact same : Prop) : Kind → Kind → Prop
  | file (prototypes : Dict (Dict TypeId)) : Twins exact same (.file prototypes) (.file prototypes)
  | function {info info' : FunctionInfo} (h : FunctionInfo.Twins exact same info info') :
    Twins exact same (.function info) (.function info')
  | branch (this : Option TypeId) : Twins exact same (.branch this) (.branch this)

theorem Kind.Twins.isBranch_eq {exact same : Prop} {kind kind' : Kind}
    (h : Kind.Twins exact same kind kind') : kind'.isBranch = kind.isBranch := by
  cases h <;> rfl

theorem Kind.Twins.isFunction_eq {exact same : Prop} {kind kind' : Kind}
    (h : Kind.Twins exact same kind kind') : kind'.isFunction = kind.isFunction := by
  cases h <;> rfl

/-- A function without a type, recorded under `key`, in two runs. -/
structure UntypedFunction.Twins {exact : Prop} (W : World exact) (key : String)
    (untyped untyped' : UntypedFunction) : Prop where
  definedIn : untyped'.definedIn = untyped.definedIn
  node : ∃ within : Pairing exact, Script.Function.Like within untyped.node untyped'.node
  key : (W untyped.definedIn).Pairs key key

/-- One scope in two runs. -/
structure Twins {exact : Prop} (same : Prop) (W : World exact) (id : ScopeId)
    (scope scope' : HeaderCheck.Scope) : Prop where
  parent : scope'.parent = scope.parent
  kind : Kind.Twins exact same scope.kind scope'.kind
  identifiers : scope'.identifiers = scope.identifiers
  restrictions : scope'.restrictions = scope.restrictions
  untyped : Dict.Related Eq (UntypedFunction.Twins W) scope.untyped scope'.untyped
  functions : Dict.Related (W id).Pairs (fun _ => Eq) scope.functions scope'.functions

/-- Twins stand at the same place and are of the same kind. -/
theorem shaped_twins {exact : Prop} (same : ScopeId → Prop) (W : World exact) :
    Shaped fun id => Scope.Twins (same id) W id :=
  ⟨fun h => h.parent, fun h => h.kind.isBranch_eq, fun h => h.kind.isFunction_eq⟩

namespace Arena

/-! ## Arenas of two runs -/

/-- The same scopes in two runs. `same` says where the same return statement is under way. -/
def Twins {exact : Prop} (same : ScopeId → Prop) (W : World exact) (a a' : Arena) : Prop :=
  ∀ id, Option.Rel (Scope.Twins (same id) W id) (a.scope? id) (a'.scope? id)

namespace Twins

variable {exact : Prop} {same : ScopeId → Prop} {W : World exact} {a a' : Arena} {id : ScopeId}
  {name : String} {type : TypeId}

theorem related (h : Twins same W a a') : Related (fun id => Scope.Twins (same id) W id) a a' :=
  h

theorem exists_twin (h : Twins same W a a') {scope : HeaderCheck.Scope}
    (hs : a.scope? id = some scope) :
    ∃ scope', a'.scope? id = some scope' ∧ Scope.Twins (same id) W id scope scope' :=
  h.related.exists_counterpart hs

theorem size_eq (h : Twins same W a a') : a'.size = a.size :=
  h.related.size_eq

/-! ### Look-ups -/

theorem chain_rel (h : Twins same W a a') (id : ScopeId) :
    List.Forall₂ (fun x y => x.1 = y.1 ∧ Scope.Twins (same x.1) W x.1 x.2 y.2) (a.chain id)
      (a'.chain id) :=
  h.related.chain_rel (shaped_twins same W) id

theorem owner_eq (h : Twins same W a a') (id : ScopeId) : a'.owner id = a.owner id :=
  h.related.owner_eq (shaped_twins same W) id

theorem functionScope?_eq (h : Twins same W a a') (id : ScopeId) :
    a'.functionScope? id = a.functionScope? id :=
  h.related.functionScope?_eq (shaped_twins same W) id

theorem root_eq (h : Twins same W a a') (id : ScopeId) : a'.root id = a.root id :=
  h.related.root_eq (shaped_twins same W) id

theorem getVar_eq (h : Twins same W a a') (globals : Globals) (id : ScopeId) (name : String)
    (mode : LookupMode) : a'.getVar globals id name mode = a.getVar globals id name mode := by
  have hfirst : (a.chain id).findSome? (fun x => ownType? x.2 name mode) =
      (a'.chain id).findSome? fun x => ownType? x.2 name mode :=
    findSome?_rel (h.chain_rel id) fun x y hxy => by
      cases mode <;> simp only [ownType?, hxy.2.identifiers, hxy.2.restrictions]
  rw [getVar, getVar, hfirst]

theorem thisType?_eq (h : Twins same W a a') (id : ScopeId) : a'.thisType? id = a.thisType? id := by
  have hfirst : (a.chain id).findSome? (fun x => ownThis? x.2) =
      (a'.chain id).findSome? fun x => ownThis? x.2 := by
    refine findSome?_rel (h.chain_rel id) fun x y hxy => ?_
    have hkind := hxy.2.kind
    simp only [ownThis?]
    generalize x.2.kind = kind at hkind
    generalize y.2.kind = kind' at hkind
    cases hkind with
    | file _ => rfl
    | function hinfo => simp only [hinfo.thisType]
    | branch _ => rfl
  rw [thisType?, thisType?, hfirst]

theorem getFunction?_rel (h : Twins same W a a') (id : ScopeId) (name : String) :
    Option.Rel (UntypedFunction.Twins W name) (a.getFunction? id name) (a'.getFunction? id name) := by
  have hrel := h.chain_rel id
  unfold getFunction?
  generalize a.chain id = chain at hrel
  generalize a'.chain id = chain' at hrel
  induction hrel with
  | nil => exact .none
  | @cons x y _ _ hxy _ ih =>
    have hown := hxy.2.untyped.get?_rel Dict.oneToOne_eq (rfl : name = name)
    rw [List.findSome?_cons, List.findSome?_cons]
    simp only
    generalize x.2.untyped.get? name = untyped at hown
    generalize y.2.untyped.get? name = untyped' at hown
    cases hown with
    | none => exact ih
    | some ht => exact .some ht

theorem hasOwnVar_eq (h : Twins same W a a') (id : ScopeId) (name : String) :
    a'.hasOwnVar id name = a.hasOwnVar id name := by
  have hrel := h id
  simp only [hasOwnVar]
  generalize a.scope? id = x at hrel
  generalize a'.scope? id = y at hrel
  cases hrel with
  | none => rfl
  | some ht => simp only [Option.any_some, ht.identifiers]

theorem isBranch_eq (h : Twins same W a a') (id : ScopeId) :
    (a'.scope? id).any (fun scope => scope.kind.isBranch) =
      (a.scope? id).any fun scope => scope.kind.isBranch :=
  h.related.isBranch_eq (shaped_twins same W) id

theorem restrictions_eq (h : Twins same W a a') (id : ScopeId) :
    a'.restrictions id = a.restrictions id := by
  have hrel := h id
  simp only [restrictions]
  generalize a.scope? id = x at hrel
  generalize a'.scope? id = y at hrel
  cases hrel with
  | none => rfl
  | some ht => simp only [ht.restrictions]

/-- Whether a function has a scope is asked with keys that belong together. -/
theorem hasFunction_eq (h : Twins same W a a') {key key' : String} (hkey : (W id).Pairs key key') :
    (a'.scope? id).any (fun scope => scope.functions.contains key') =
      (a.scope? id).any fun scope => scope.functions.contains key := by
  have hrel := h id
  generalize a.scope? id = x at hrel
  generalize a'.scope? id = y at hrel
  cases hrel with
  | none => rfl
  | some ht => simp only [Option.any_some, ht.functions.contains_eq (W id).unique hkey]

theorem prototypeFields?_eq (h : Twins same W a a') (id : ScopeId) (constructor : String) :
    a'.prototypeFields? id constructor = a.prototypeFields? id constructor := by
  have hrel := h (a.root id)
  simp only [prototypeFields?, h.root_eq id]
  generalize a.scope? (a.root id) = x at hrel
  generalize a'.scope? (a.root id) = y at hrel
  cases hrel with
  | none => rfl
  | @some scope scope' ht =>
    have hkind := ht.kind
    obtain ⟨_, kind, _, _, _, _⟩ := scope
    obtain ⟨_, kind', _, _, _, _⟩ := scope'
    cases hkind <;> rfl

theorem functionInfo?_rel (h : Twins same W a a') (id : ScopeId) :
    Option.Rel (FunctionInfo.Twins exact (∀ found, a.functionScope? id = some found → same found))
      (a.functionInfo? id) (a'.functionInfo? id) := by
  simp only [functionInfo?, h.functionScope?_eq id]
  cases hfound : a.functionScope? id with
  | none => exact .none
  | some found =>
    have hrel := h found
    simp only [Option.bind_some]
    generalize a.scope? found = x at hrel
    generalize a'.scope? found = y at hrel
    cases hrel with
    | none => exact .none
    | @some scope scope' ht =>
      have hkind := ht.kind
      obtain ⟨_, kind, _, _, _, _⟩ := scope
      obtain ⟨_, kind', _, _, _, _⟩ := scope'
      cases hkind with
      | file _ => exact .none
      | branch _ => exact .none
      | function hinfo =>
        refine .some { hinfo with returnExpressionType := fun hsame => ?_ }
        exact hinfo.returnExpressionType (hsame found rfl)

theorem returnExpressionType?_eq (h : Twins same W a a') (id : ScopeId)
    (hsame : ∀ found, a.functionScope? id = some found → same found) :
    a'.returnExpressionType? id = a.returnExpressionType? id := by
  have hrel := h.functionInfo?_rel id
  simp only [returnExpressionType?]
  generalize a.functionInfo? id = x at hrel
  generalize a'.functionInfo? id = y at hrel
  cases hrel with
  | none => rfl
  | some hinfo => exact hinfo.returnExpressionType hsame

/-- A scope that a function has been given is found where the function is declared. -/
theorem knownFunction?_eq (h : Twins same W a a') (ho : a.Ordered) {scope : HeaderCheck.Scope}
    (hs : a.scope? id = some scope) (hknown : scope.functions.contains name)
    (hkey : (W id).Pairs name name) : a'.knownFunction? id name = a.knownFunction? id name := by
  have hchain := h.chain_rel id
  obtain ⟨found, hfound⟩ := Option.isSome_iff_exists.mp hknown
  rw [ho.chain_eq hs] at hchain
  simp only [knownFunction?, ho.chain_eq hs, List.findSome?_cons, hfound]
  generalize a'.chain id = chain' at hchain
  cases hchain with
  | @cons _ y _ _ hxy _ =>
    obtain ⟨other, scope'⟩ := y
    have hown := hxy.2.functions.get?_rel (W id).unique hkey
    rw [hfound] at hown
    simp only [List.findSome?_cons]
    generalize scope'.functions.get? name = found' at hown
    cases hown with
    | some heq => simp only [heq]

/-! ### Operations -/

theorem modify (h : Twins same W a a') {change change' : HeaderCheck.Scope → HeaderCheck.Scope}
    (hchange : ∀ scope scope', a.scope? id = some scope → Scope.Twins (same id) W id scope scope' →
      Scope.Twins (same id) W id (change scope) (change' scope')) :
    Twins same W (a.modify id change) (a'.modify id change') :=
  h.related.modify hchange

theorem push (h : Twins same W a a') {scope scope' : HeaderCheck.Scope}
    (ht : Scope.Twins (same ⟨a.size⟩) W ⟨a.size⟩ scope scope') :
    Twins same W (a.push scope).2 (a'.push scope').2 :=
  h.related.push ht

/-- Scopes that are made later may have any pairing. -/
theorem agree (h : Twins same W a a') (ha : a.Sound) {W' : World exact}
    (hW : ∀ id, id.index < a.size → W' id = W id) : Twins same W' a a' := by
  intro id
  have hrel := h id
  cases hs : a.scope? id with
  | none =>
    rw [hs] at hrel
    generalize a'.scope? id = y at hrel
    cases hrel
    exact .none
  | some scope =>
    obtain ⟨scope', hs', ht⟩ := h.exists_twin hs
    have hid := hW id (index_lt_size hs)
    rw [hs']
    refine .some ⟨ht.parent, ht.kind, ht.identifiers, ht.restrictions, ?_, ?_⟩
    · have hmem := (List.forall₂_and_left _ _).mpr
        ⟨fun _ hentry => hentry, ht.untyped⟩
      refine hmem.imp fun entry entry' ⟨hentry, hname, huntyped⟩ => ⟨hname, ?_⟩
      refine ⟨huntyped.definedIn, huntyped.node, ?_⟩
      have hkey := huntyped.key
      rw [(ha.untyped id scope entry hs hentry).1] at hkey ⊢
      rwa [hid]
    · rw [hid]
      exact ht.functions

/-- An operation that gives the same result in both runs and leaves twins. -/
structure Runs {α : Type} (same : ScopeId → Prop) (W : World exact) (run run' : Except Error α × Arena) :
    Prop where
  result : run'.1 = run.1
  twins : Twins same W run.2 run'.2

theorem pushBranch (h : Twins same W a a') (parent : ScopeId) :
    (a'.pushBranch parent).1 = (a.pushBranch parent).1 ∧
      Twins same W (a.pushBranch parent).2 (a'.pushBranch parent).2 :=
  ⟨congrArg ScopeId.mk h.size_eq, h.push ⟨rfl, .branch none, rfl, rfl, .empty, .empty⟩⟩

theorem bindVar (h : Twins same W a a') (id : ScopeId) (name : String) (type : TypeId) :
    Twins same W (a.bindVar id name type) (a'.bindVar id name type) :=
  h.modify fun _ _ _ ht => { ht with identifiers := congrArg (·.insert name type) ht.identifiers }

theorem addVar (h : Twins same W a a') (id : ScopeId) (name : String) (type : TypeId) :
    Runs same W (a.addVar id name type) (a'.addVar id name type) := by
  unfold Arena.addVar
  rw [h.hasOwnVar_eq]
  split
  · exact ⟨rfl, h⟩
  · exact ⟨rfl, h.bindVar id name type⟩

theorem forceUpdateVar (h : Twins same W a a') (id : ScopeId) (name : String) (type : TypeId) :
    Runs same W (a.forceUpdateVar id name type) (a'.forceUpdateVar id name type) := by
  have hrel : Option.Rel (fun x y => x.1 = y.1 ∧ Scope.Twins (same x.1) W x.1 x.2 y.2)
      ((a.chain id).find? fun x => x.2.identifiers.contains name)
      ((a'.chain id).find? fun x => x.2.identifiers.contains name) :=
    find?_rel (h.chain_rel id) fun x y hxy => by rw [hxy.2.identifiers]
  unfold Arena.forceUpdateVar
  generalize (a.chain id).find? (fun x => x.2.identifiers.contains name) = x at hrel
  generalize (a'.chain id).find? (fun x => x.2.identifiers.contains name) = y at hrel
  cases hrel with
  | none => exact ⟨rfl, h⟩
  | @some x y hxy =>
    obtain ⟨holder, _⟩ := x
    obtain ⟨_, _⟩ := y
    cases hxy.1
    exact ⟨rfl, h.bindVar holder name type⟩

theorem restrict (h : Twins same W a a') (id : ScopeId) (name : String) (type : TypeId) :
    Runs same W (a.restrict id name type) (a'.restrict id name type) := by
  have hrel := h id
  have hnarrowed : Twins same W
      (a.modify id fun scope => { scope with restrictions := scope.restrictions.insert name type })
      (a'.modify id fun scope => { scope with restrictions := scope.restrictions.insert name type }) :=
    h.modify fun _ _ _ ht => { ht with restrictions := congrArg (·.insert name type) ht.restrictions }
  unfold Arena.restrict
  generalize a.scope? id = x at hrel
  generalize a'.scope? id = y at hrel
  cases hrel with
  | none => exact ⟨rfl, h⟩
  | @some scope scope' ht =>
    have hkind := ht.kind
    have hrestrictions := ht.restrictions
    obtain ⟨_, kind, _, restrictions, _, _⟩ := scope
    obtain ⟨_, kind', _, restrictions', _, _⟩ := scope'
    cases hrestrictions
    cases hkind with
    | branch this =>
      simp only
      split
      · exact ⟨rfl, h.modify fun _ _ _ ht => { ht with kind := .branch (some type) }⟩
      · exact ⟨rfl, hnarrowed⟩
    | file _ =>
      simp only
      split
      · exact ⟨rfl, h⟩
      split
      · exact ⟨rfl, h⟩
      · exact ⟨rfl, hnarrowed⟩
    | function _ =>
      simp only
      split
      · exact ⟨rfl, h⟩
      split
      · exact ⟨rfl, h⟩
      · exact ⟨rfl, hnarrowed⟩

theorem addFunction (h : Twins same W a a') {node node' : Script.Function} {within : Pairing exact}
    (hnode : Script.Function.Like within node node') (hkey : (W (a.owner id)).Pairs name name) :
    Runs same W (a.addFunction id name node) (a'.addFunction id name node') := by
  unfold Arena.addFunction
  simp only [h.owner_eq, h.hasOwnVar_eq]
  split
  · exact ⟨rfl, h⟩
  · refine ⟨rfl, h.modify fun _ _ _ ht => { ht with untyped := ?_ }⟩
    exact ht.untyped.insert Dict.oneToOne_eq rfl ⟨rfl, ⟨within, hnode⟩, hkey⟩

theorem updateFunction (h : Twins same W a a') (id : ScopeId) (name : String) (type : TypeId) :
    Runs same W (a.updateFunction id name type) (a'.updateFunction id name type) := by
  have hrel : Option.Rel (fun x y => x.1 = y.1 ∧ Scope.Twins (same x.1) W x.1 x.2 y.2)
      ((a.chain id).find? fun x => x.2.untyped.contains name)
      ((a'.chain id).find? fun x => x.2.untyped.contains name) :=
    find?_rel (h.chain_rel id) fun x y hxy => by
      rw [hxy.2.untyped.contains_eq Dict.oneToOne_eq (rfl : name = name)]
  unfold Arena.updateFunction
  generalize (a.chain id).find? (fun x => x.2.untyped.contains name) = x at hrel
  generalize (a'.chain id).find? (fun x => x.2.untyped.contains name) = y at hrel
  cases hrel with
  | none => exact ⟨rfl, h⟩
  | @some x y hxy =>
    obtain ⟨holder, _⟩ := x
    obtain ⟨_, _⟩ := y
    cases hxy.1
    have herased : Twins same W
        (a.modify holder fun scope => { scope with untyped := scope.untyped.erase name })
        (a'.modify holder fun scope => { scope with untyped := scope.untyped.erase name }) :=
      h.modify fun _ _ _ ht => { ht with untyped := ht.untyped.erase Dict.oneToOne_eq rfl }
    obtain ⟨hresult, htwins⟩ := herased.addVar holder name type
    simp only
    generalize (a.modify holder fun scope => { scope with untyped := scope.untyped.erase name }).addVar
      holder name type = run at hresult htwins
    generalize (a'.modify holder fun scope => { scope with untyped := scope.untyped.erase name }).addVar
      holder name type = run' at hresult htwins
    obtain ⟨result, b⟩ := run
    obtain ⟨result', b'⟩ := run'
    cases hresult
    cases result with
    | ok _ => exact ⟨rfl, htwins⟩
    | error _ => exact ⟨rfl, htwins⟩

theorem addPrototypeField (h : Twins same W a a') (id : ScopeId) (constructor field : String)
    (type : TypeId) : Runs same W (a.addPrototypeField id constructor field type)
      (a'.addPrototypeField id constructor field type) := by
  have hrel := h id
  unfold Arena.addPrototypeField
  generalize a.scope? id = x at hrel
  generalize a'.scope? id = y at hrel
  cases hrel with
  | none => exact ⟨rfl, h⟩
  | @some scope scope' ht =>
    have hkind := ht.kind
    obtain ⟨_, kind, _, _, _, _⟩ := scope
    obtain ⟨_, kind', _, _, _, _⟩ := scope'
    cases hkind with
    | file prototypes => exact ⟨rfl, h.modify fun _ _ _ ht => { ht with kind := .file _ }⟩
    | function _ => exact ⟨rfl, h⟩
    | branch _ => exact ⟨rfl, h⟩

theorem modifyFunction (h : Twins same W a a') (id : ScopeId)
    {change change' : FunctionInfo → FunctionInfo}
    (hchange : ∀ found info info', a.functionScope? id = some found →
      FunctionInfo.Twins exact (same found) info info' →
        FunctionInfo.Twins exact (same found) (change info) (change' info')) :
    Runs same W (a.modifyFunction id change) (a'.modifyFunction id change') := by
  unfold Arena.modifyFunction
  rw [h.functionScope?_eq]
  cases hfound : a.functionScope? id with
  | none => exact ⟨rfl, h⟩
  | some found =>
    refine ⟨rfl, h.modify fun scope scope' _ ht => ?_⟩
    have hkind := ht.kind
    obtain ⟨_, kind, _, _, _, _⟩ := scope
    obtain ⟨_, kind', _, _, _, _⟩ := scope'
    cases hkind with
    | file _ => exact ht
    | branch _ => exact ht
    | function hinfo => exact { ht with kind := .function (hchange _ _ _ hfound hinfo) }

/-- A function gets a scope in both runs or in none of them. -/
theorem pushFunction (h : Twins same W a a') (parent : ScopeId) {info info' : FunctionInfo}
    (hinfo : FunctionInfo.Twins exact True info info')
    (hkey : (W (a.owner parent)).Pairs info.name info'.name)
    (hfresh : info'.name = info.name ∨
      (a.scope? (a.owner parent)).any (fun scope => scope.functions.contains info.name) = false) :
    Runs same W (a.pushFunction parent info) (a'.pushFunction parent info') := by
  have hpushed : Twins same W (a.push { parent := some parent, kind := .function info }).2
      (a'.push { parent := some parent, kind := .function info' }).2 := by
    refine h.push ⟨rfl, .function { hinfo with returnExpressionType := fun _ => ?_ }, rfl, rfl, .empty,
      .empty⟩
    exact hinfo.returnExpressionType trivial
  unfold Arena.pushFunction
  simp only [h.owner_eq, h.hasFunction_eq hkey]
  split
  · next hknown =>
    rcases hfresh with heq | hfresh
    · exact ⟨by rw [heq], h⟩
    · rw [hfresh] at hknown
      cases hknown
  · have hid : (a'.push { parent := some parent, kind := .function info' }).1 =
        (a.push { parent := some parent, kind := .function info }).1 :=
      congrArg ScopeId.mk h.size_eq
    refine ⟨congrArg Except.ok hid, ?_⟩
    refine hpushed.modify fun _ _ _ ht => { ht with functions := ?_ }
    exact ht.functions.insert (W _).unique hkey hid.symm

end Twins

end Arena

end Scope

end HeaderCheck
