import HeaderCheck.Proofs.Scope.Keeps
import Mathlib.Logic.Relation

/-!
# HeaderCheck.Proofs.Scope.Operations

Operations on scopes as data, and what they leave of a scope, whether they are carried out or
refused.

* `Operation.run`: one operation on an arena.
* `Attempt.retains`: every scope keeps its place, its form and all names that it has.
* `Step.settles`: a function stops being untyped only by being bound in the same operation. A
  refused operation may forget it, but a refusal ends a run.
-/

namespace HeaderCheck.Scope

open HeaderCheck.Types

/-! ## One scope -/

/-- What is left of a scope: it stands where it stood, and no name has gone. -/
structure Retained (scope scope' : Scope) : Prop where
  parent : scope'.parent = scope.parent
  kind : scope.kind.Alike scope'.kind
  identifiers : ∀ name, scope.identifiers.contains name → scope'.identifiers.contains name
  restrictions : ∀ name, scope.restrictions.contains name → scope'.restrictions.contains name
  functions : ∀ key, scope.functions.contains key → scope'.functions.contains key

namespace Retained

theorem refl (scope : Scope) : Retained scope scope :=
  ⟨rfl, .refl _, fun _ h => h, fun _ h => h, fun _ h => h⟩

theorem trans {one two three : Scope} (h : Retained one two) (h' : Retained two three) :
    Retained one three where
  parent := h'.parent.trans h.parent
  kind := h.kind.trans h'.kind
  identifiers := fun name hn => h'.identifiers name (h.identifiers name hn)
  restrictions := fun name hn => h'.restrictions name (h.restrictions name hn)
  functions := fun key hk => h'.functions key (h.functions key hk)

end Retained

/-- A function that is not untyped any more has become a name of the scope. -/
def Settled (scope scope' : Scope) : Prop :=
  ∀ name, scope.untyped.contains name → scope'.untyped.contains name = false →
    scope.identifiers.contains name = false ∧ scope'.identifiers.contains name

theorem Settled.of_kept {scope scope' : Scope}
    (h : ∀ name, scope.untyped.contains name → scope'.untyped.contains name) :
    Settled scope scope' := by
  intro name hbefore hafter
  rw [h name hbefore] at hafter
  cases hafter

/-- Names are never given up, so it does not matter in how many steps they were bound. -/
theorem Settled.trans {one two three : Scope} (h : Settled one two) (h' : Settled two three)
    (hr : Retained one two) (hr' : Retained two three) : Settled one three := by
  intro name hone hthree
  cases htwo : two.untyped.contains name with
  | true =>
    obtain ⟨hfree, hbound⟩ := h' name htwo hthree
    refine ⟨?_, hbound⟩
    cases hname : one.identifiers.contains name with
    | false => rfl
    | true =>
      rw [hr.identifiers name hname] at hfree
      cases hfree
  | false =>
    obtain ⟨hfree, hbound⟩ := h name hone htwo
    exact ⟨hfree, hr'.identifiers name hbound⟩

namespace Arena

/-- Every scope of `a` is still there in `b`, with all its names. -/
def Retains (a b : Arena) : Prop :=
  ∀ id scope, a.scope? id = some scope → ∃ scope', b.scope? id = some scope' ∧ Retained scope scope'

/-- Functions of `a` that are not untyped in `b` have been bound. -/
def Settles (a b : Arena) : Prop :=
  ∀ id scope scope', a.scope? id = some scope → b.scope? id = some scope' → Settled scope scope'

namespace Retains

variable {a b c : Arena}

theorem refl (a : Arena) : a.Retains a :=
  fun _ scope hs => ⟨scope, hs, .refl scope⟩

theorem trans (h : a.Retains b) (h' : b.Retains c) : a.Retains c := by
  intro id scope hs
  obtain ⟨scope', hs', hr⟩ := h id scope hs
  obtain ⟨scope'', hs'', hr'⟩ := h' id scope' hs'
  exact ⟨scope'', hs'', hr.trans hr'⟩

theorem modify {id : ScopeId} {change : Scope → Scope}
    (h : ∀ scope, a.scope? id = some scope → Retained scope (change scope)) :
    a.Retains (a.modify id change) := by
  intro other scope hs
  rw [scope?_modify]
  split
  · next heq =>
    subst heq
    exact ⟨change scope, by rw [hs]; rfl, h scope hs⟩
  · exact ⟨scope, hs, .refl scope⟩

theorem push (a : Arena) (scope : Scope) : a.Retains (a.push scope).2 :=
  fun _ old hs => ⟨old, scope?_push_of_some scope hs, .refl old⟩

end Retains

namespace Settles

variable {a b c : Arena}

theorem refl (a : Arena) : a.Settles a := by
  intro id scope scope' hs hs'
  rw [hs] at hs'
  cases hs'
  exact .of_kept fun _ h => h

theorem trans (h : a.Settles b) (h' : b.Settles c) (hr : a.Retains b) (hr' : b.Retains c) :
    a.Settles c := by
  intro id scope scope'' hs hs''
  obtain ⟨scope', hs', hkept⟩ := hr id scope hs
  obtain ⟨found, hfound, hkept'⟩ := hr' id scope' hs'
  rw [hs''] at hfound
  cases hfound
  exact (h id scope scope' hs hs').trans (h' id scope' scope'' hs' hs'') hkept hkept'

theorem modify {id : ScopeId} {change : Scope → Scope}
    (h : ∀ scope, a.scope? id = some scope → Settled scope (change scope)) :
    a.Settles (a.modify id change) := by
  intro other scope scope' hs hs'
  rw [scope?_modify] at hs'
  split at hs'
  · next heq =>
    subst heq
    rw [hs] at hs'
    cases hs'
    exact h scope hs
  · rw [hs] at hs'
    cases hs'
    exact .of_kept fun _ h => h

theorem push (a : Arena) (scope : Scope) : a.Settles (a.push scope).2 := by
  intro id old found hs hfound
  rw [scope?_push_of_some scope hs] at hfound
  cases hfound
  exact .of_kept fun _ h => h

end Settles

/-! ## Operations -/

/-- An operation on the scopes of a file, with its arguments. -/
inductive Operation where
  | pushFile
  | pushBranch (parent : ScopeId)
  | pushFunction (parent : ScopeId) (info : FunctionInfo)
  | addVar (id : ScopeId) (name : String) (type : TypeId)
  | forceUpdateVar (id : ScopeId) (name : String) (type : TypeId)
  | restrict (id : ScopeId) (name : String) (type : TypeId)
  | addFunction (id : ScopeId) (name : String) (node : Script.Function)
  | updateFunction (id : ScopeId) (name : String) (type : TypeId)
  | addPrototypeField (id : ScopeId) (constructor field : String) (type : TypeId)
  | addKnownField (id : ScopeId) (field : String)
  | markReturnType (id : ScopeId) (type : TypeId) (span : Span)
  | enterReturn (id : ScopeId) (expected : TypeId)
  | exitReturn (id : ScopeId)

/-- Whether an operation was refused, and the arena it leaves behind. -/
def outcome {α : Type} (run : Except Error α × Arena) : Except Error Unit × Arena :=
  (run.1.map fun _ => (), run.2)

/-- Carry out an operation. -/
def Operation.run (a : Arena) : Operation → Except Error Unit × Arena
  | .pushFile => (.ok (), a.pushFile.2)
  | .pushBranch parent => (.ok (), (a.pushBranch parent).2)
  | .pushFunction parent info => outcome (a.pushFunction parent info)
  | .addVar id name type => outcome (a.addVar id name type)
  | .forceUpdateVar id name type => outcome (a.forceUpdateVar id name type)
  | .restrict id name type => outcome (a.restrict id name type)
  | .addFunction id name node => outcome (a.addFunction id name node)
  | .updateFunction id name type => outcome (a.updateFunction id name type)
  | .addPrototypeField id constructor field type =>
    outcome (a.addPrototypeField id constructor field type)
  | .addKnownField id field => outcome (a.addKnownField id field)
  | .markReturnType id type span => outcome (a.markReturnType id type span)
  | .enterReturn id expected => outcome (a.enterReturn id expected)
  | .exitReturn id => outcome (a.exitReturn id)

/-- One operation leads from `a` to `b`, carried out or refused. -/
def Attempt (a b : Arena) : Prop :=
  ∃ op : Operation, (op.run a).2 = b

/-- One operation that was carried out leads from `a` to `b`. -/
def Step (a b : Arena) : Prop :=
  ∃ op : Operation, op.run a = (.ok (), b)

theorem Step.attempt {a b : Arena} (h : Step a b) : Attempt a b := by
  obtain ⟨op, hrun⟩ := h
  exact ⟨op, by rw [hrun]⟩

/-! ## What one operation leaves -/

/-- An operation that changes one scope, keeping its place and its names. -/
structure Mild (change : Scope → Scope) (scope : Scope) : Prop where
  retained : Retained scope (change scope)
  untyped : ∀ name, scope.untyped.contains name → (change scope).untyped.contains name
  distinct : scope.restrictions.keys.Nodup → (change scope).restrictions.keys.Nodup

theorem mild_bind (name : String) (type : TypeId) (scope : Scope) :
    Mild (fun scope => { scope with identifiers := scope.identifiers.insert name type }) scope :=
  ⟨⟨rfl, .refl _, fun other h => Dict.contains_insert _ name other type h, fun _ h => h, fun _ h => h⟩,
    fun _ h => h, fun h => h⟩

theorem mild_restrict (name : String) (type : TypeId) (scope : Scope) :
    Mild (fun scope => { scope with restrictions := scope.restrictions.insert name type }) scope :=
  ⟨⟨rfl, .refl _, fun _ h => h, fun other h => Dict.contains_insert _ name other type h, fun _ h => h⟩,
    fun _ h => h, fun h => Dict.nodup_keys_insert h name type⟩

theorem mild_kind {change : Scope → Scope} {scope : Scope} {kind : Kind}
    (h : change scope = { scope with kind }) (hkind : scope.kind.Alike kind) : Mild change scope := by
  refine ⟨?_, ?_, ?_⟩ <;> rw [h]
  · exact ⟨rfl, hkind, fun _ h => h, fun _ h => h, fun _ h => h⟩
  · exact fun _ h => h
  · exact fun h => h

theorem mild_modifyFunction {change : FunctionInfo → FunctionInfo}
    (hname : ∀ info, (change info).name = info.name) (scope : Scope) :
    Mild (fun scope =>
      match scope.kind with
      | .function info => { scope with kind := .function (change info) }
      | _ => scope) scope := by
  have hsame : Mild (fun scope => scope) scope := ⟨.refl scope, fun _ h => h, fun h => h⟩
  obtain ⟨parent, kind, identifiers, restrictions, untyped, functions⟩ := scope
  cases kind with
  | function info => exact mild_kind rfl (hname info)
  | file prototypes => exact ⟨hsame.retained, hsame.untyped, hsame.distinct⟩
  | branch this => exact ⟨hsame.retained, hsame.untyped, hsame.distinct⟩

/-- How operations end other than by a new function: refused without a change, with a change of one
scope, or with a new scope. -/
inductive Plain (a : Arena) : Except Error Unit × Arena → Prop where
  | refused (e : Error) : Plain a (.error e, a)
  | unchanged : Plain a (.ok (), a)
  | modified {id : ScopeId} {change : Scope → Scope}
      (h : ∀ scope, a.scope? id = some scope → Mild change scope) :
      Plain a (.ok (), a.modify id change)
  | pushed (scope : Scope) : Plain a (.ok (), (a.push scope).2)

theorem Plain.retains {a : Arena} {run : Except Error Unit × Arena} (h : Plain a run) :
    a.Retains run.2 := by
  cases h with
  | refused e => exact .refl a
  | unchanged => exact .refl a
  | modified h => exact .modify fun scope hs => (h scope hs).retained
  | pushed scope => exact .push a scope

theorem Plain.settles {a : Arena} {run : Except Error Unit × Arena} (h : Plain a run) :
    a.Settles run.2 := by
  cases h with
  | refused e => exact .refl a
  | unchanged => exact .refl a
  | modified h => exact .modify fun scope hs => .of_kept (h scope hs).untyped
  | pushed scope => exact .push a scope

theorem plain_modifyFunction (a : Arena) (id : ScopeId) {change : FunctionInfo → FunctionInfo}
    (hname : ∀ info, (change info).name = info.name) :
    Plain a (outcome (a.modifyFunction id change)) := by
  unfold modifyFunction
  split
  · exact .refused _
  · exact .modified fun scope _ => mild_modifyFunction hname scope

theorem plain_restrict (a : Arena) (id : ScopeId) (name : String) (type : TypeId) :
    Plain a (outcome (a.restrict id name type)) := by
  unfold restrict
  split
  · exact .unchanged
  next scope hs =>
  simp only
  split
  · next this hkind =>
    split
    · refine .modified fun found hfound => ?_
      rw [hs] at hfound
      cases hfound
      exact mild_kind rfl (by rw [hkind]; trivial)
    · exact .modified fun scope _ => mild_restrict name type scope
  · split
    · exact .refused _
    split
    · exact .refused _
    · exact .modified fun scope _ => mild_restrict name type scope

theorem plain_addPrototypeField (a : Arena) (id : ScopeId) (constructor field : String)
    (type : TypeId) : Plain a (outcome (a.addPrototypeField id constructor field type)) := by
  unfold addPrototypeField
  split
  · next hs =>
    refine .modified fun found hfound => ?_
    rw [hs] at hfound
    cases hfound
    exact mild_kind rfl trivial
  · exact .refused _

theorem plain_addVar (a : Arena) (id : ScopeId) (name : String) (type : TypeId) :
    Plain a (outcome (a.addVar id name type)) := by
  unfold addVar
  split
  · exact .refused _
  · exact .modified fun scope _ => mild_bind name type scope

theorem plain_forceUpdateVar (a : Arena) (id : ScopeId) (name : String) (type : TypeId) :
    Plain a (outcome (a.forceUpdateVar id name type)) := by
  unfold forceUpdateVar
  split
  · exact .modified fun scope _ => mild_bind name type scope
  · exact .refused _

theorem plain_addFunction (a : Arena) (id : ScopeId) (name : String) (node : Script.Function) :
    Plain a (outcome (a.addFunction id name node)) := by
  unfold addFunction
  simp only
  split
  · exact .refused _
  · refine .modified fun scope _ =>
      ⟨?_, fun other h => Dict.contains_insert _ name other _ h, fun h => h⟩
    exact ⟨rfl, .refl _, fun _ h => h, fun _ h => h, fun _ h => h⟩

/-! ## Functions that get a type or a scope -/

theorem retains_pushFunction (a : Arena) (parent : ScopeId) (info : FunctionInfo) :
    a.Retains (a.pushFunction parent info).2 ∧ a.Settles (a.pushFunction parent info).2 := by
  rcases a.pushFunction_cases parent info with ⟨hrun, _⟩ | ⟨hrun, _⟩ <;> rw [hrun]
  · exact ⟨.refl a, .refl a⟩
  · have hinserted (scope : Scope) : Mild (fun scope =>
        { scope with functions := scope.functions.insert info.name ⟨a.size⟩ }) scope :=
      ⟨⟨rfl, .refl _, fun _ h => h, fun _ h => h, fun key h => Dict.contains_insert _ _ key _ h⟩,
        fun _ h => h, fun h => h⟩
    have hpush := Retains.push a { parent := some parent, kind := .function info }
    have hmodify : (a.push { parent := some parent, kind := .function info }).2.Retains
        ((a.push { parent := some parent, kind := .function info }).2.modify (a.owner parent)
          fun scope => { scope with functions := scope.functions.insert info.name ⟨a.size⟩ }) :=
      .modify fun scope _ => (hinserted scope).retained
    exact ⟨hpush.trans hmodify, (Settles.push a _).trans
      (.modify fun scope _ => .of_kept (hinserted scope).untyped) hpush hmodify⟩

theorem retained_forgetFunction (name : String) (scope : Scope) :
    Retained scope (forgetFunction name scope) :=
  ⟨rfl, .refl _, fun _ h => h, fun _ h => h, fun _ h => h⟩

theorem retained_typeFunction (name : String) (type : TypeId) (scope : Scope) :
    Retained scope (typeFunction name type scope) :=
  ⟨rfl, .refl _, fun other h => Dict.contains_insert _ name other type h, fun _ h => h, fun _ h => h⟩

theorem settled_typeFunction {name : String} (type : TypeId) {scope : Scope}
    (hfree : scope.identifiers.contains name = false) : Settled scope (typeFunction name type scope) := by
  intro other hbefore hafter
  by_cases hname : name = other
  · subst hname
    exact ⟨hfree, by simp [typeFunction, Dict.contains]⟩
  · have hkept : (typeFunction name type scope).untyped.contains other := by
      rw [typeFunction, Dict.contains_erase hname, hbefore]
    rw [hkept] at hafter
    cases hafter

/-- An untyped function is bound, or the operation is refused. -/
theorem updateFunction_spec (a : Arena) (id : ScopeId) (name : String) (type : TypeId) :
    a.Retains (a.updateFunction id name type).2 ∧
      ∀ holder, (a.updateFunction id name type).1 = .ok holder →
        a.Settles (a.updateFunction id name type).2 := by
  rcases a.updateFunction_cases id name type with hrun | ⟨holder, scope, hmem, _, hrun | ⟨hfree, hrun⟩⟩ <;>
    rw [hrun]
  · exact ⟨.refl a, nofun⟩
  · exact ⟨.modify fun scope _ => retained_forgetFunction name scope, nofun⟩
  · refine ⟨.modify fun scope _ => retained_typeFunction name type scope, fun _ _ => .modify ?_⟩
    intro found hfound
    rw [scope?_of_mem_chainWithin hmem] at hfound
    cases hfound
    exact settled_typeFunction type hfree

/-! ## All operations -/

/-- Only operations that give a function a scope or a type do more than a plain one. -/
theorem Operation.run_cases (a : Arena) (op : Operation) :
    Plain a (op.run a) ∨ (∃ parent info, op = .pushFunction parent info) ∨
      ∃ id name type, op = .updateFunction id name type := by
  cases op with
  | pushFile => exact .inl (.pushed _)
  | pushBranch parent => exact .inl (.pushed _)
  | pushFunction parent info => exact .inr (.inl ⟨parent, info, rfl⟩)
  | addVar id name type => exact .inl (plain_addVar a id name type)
  | forceUpdateVar id name type => exact .inl (plain_forceUpdateVar a id name type)
  | restrict id name type => exact .inl (plain_restrict a id name type)
  | addFunction id name node => exact .inl (plain_addFunction a id name node)
  | updateFunction id name type => exact .inr (.inr ⟨id, name, type, rfl⟩)
  | addPrototypeField id constructor field type =>
    exact .inl (plain_addPrototypeField a id constructor field type)
  | addKnownField id field =>
    refine .inl (plain_modifyFunction a id fun info => ?_)
    split <;> rfl
  | markReturnType id type span => exact .inl (plain_modifyFunction a id fun _ => rfl)
  | enterReturn id expected => exact .inl (plain_modifyFunction a id fun _ => rfl)
  | exitReturn id => exact .inl (plain_modifyFunction a id fun _ => rfl)

theorem Attempt.retains {a b : Arena} (h : Attempt a b) : a.Retains b := by
  obtain ⟨op, rfl⟩ := h
  rcases op.run_cases a with hplain | ⟨parent, info, rfl⟩ | ⟨id, name, type, rfl⟩
  · exact hplain.retains
  · exact (retains_pushFunction a parent info).1
  · exact (updateFunction_spec a id name type).1

theorem Step.settles {a b : Arena} (h : Step a b) : a.Settles b := by
  obtain ⟨op, hrun⟩ := h
  have hb : b = (op.run a).2 := by rw [hrun]
  subst hb
  rcases op.run_cases a with hplain | ⟨parent, info, rfl⟩ | ⟨id, name, type, rfl⟩
  · exact hplain.settles
  · exact (retains_pushFunction a parent info).2
  · cases hresult : (a.updateFunction id name type).1 with
    | error e => simp [Operation.run, outcome, hresult, Except.map] at hrun
    | ok holder => exact (updateFunction_spec a id name type).2 holder hresult

/-! ## Distinct names -/

/-- The names that are narrowed in a scope are distinct. -/
def Distinct (a : Arena) (id : ScopeId) : Prop :=
  ∃ scope, a.scope? id = some scope ∧ scope.restrictions.keys.Nodup

namespace Distinct

variable {a b : Arena} {id : ScopeId}

theorem modify (h : a.Distinct id) {other : ScopeId} {change : Scope → Scope}
    (hchange : ∀ scope, a.scope? other = some scope → scope.restrictions.keys.Nodup →
      (change scope).restrictions.keys.Nodup) : (a.modify other change).Distinct id := by
  obtain ⟨scope, hs, hd⟩ := h
  rw [Distinct, scope?_modify]
  split
  · next heq =>
    subst heq
    exact ⟨change scope, by rw [hs]; rfl, hchange scope hs hd⟩
  · exact ⟨scope, hs, hd⟩

theorem push (h : a.Distinct id) (scope : Scope) : (a.push scope).2.Distinct id := by
  obtain ⟨old, hs, hd⟩ := h
  exact ⟨old, scope?_push_of_some scope hs, hd⟩

theorem attempt (ha : a.Distinct id) (h : Attempt a b) : b.Distinct id := by
  obtain ⟨op, rfl⟩ := h
  rcases op.run_cases a with hplain | ⟨parent, info, rfl⟩ | ⟨holder, name, type, rfl⟩
  · generalize op.run a = run at hplain
    cases hplain with
    | refused e => exact ha
    | unchanged => exact ha
    | modified hmild => exact ha.modify fun scope hs => (hmild scope hs).distinct
    | pushed scope => exact ha.push scope
  · simp only [Operation.run, outcome]
    rcases a.pushFunction_cases parent info with ⟨hrun, _⟩ | ⟨hrun, _⟩ <;> rw [hrun]
    · exact ha
    · exact (ha.push _).modify fun _ _ hd => hd
  · simp only [Operation.run, outcome]
    rcases a.updateFunction_cases holder name type with hrun | ⟨_, _, _, _, hrun | ⟨_, hrun⟩⟩ <;> rw [hrun]
    · exact ha
    · exact ha.modify fun _ _ hd => hd
    · exact ha.modify fun _ _ hd => hd

/-- However scopes change, the names that are narrowed in one stay distinct. -/
theorem attempts (ha : a.Distinct id) (h : Relation.ReflTransGen Attempt a b) : b.Distinct id := by
  induction h with
  | refl => exact ha
  | tail _ hstep ih => exact ih.attempt hstep

/-- In such a scope a narrowed type stands for the one of its name. -/
theorem get?_of_mem (h : a.Distinct id) {name : String} {type : TypeId}
    (hmem : (name, type) ∈ a.restrictions id) :
    ∃ scope, a.scope? id = some scope ∧ scope.restrictions.get? name = some type := by
  obtain ⟨scope, hs, hd⟩ := h
  rw [restrictions, hs] at hmem
  exact ⟨scope, hs, Dict.get?_of_mem hd hmem⟩

end Distinct

/-! ## Runs of operations -/

theorem attempts_of_steps {a b : Arena} (h : Relation.ReflTransGen Step a b) :
    Relation.ReflTransGen Attempt a b :=
  Relation.ReflTransGen.mono (fun _ _ hstep => Step.attempt hstep) _ _ h

theorem retains_of_attempts {a b : Arena} (h : Relation.ReflTransGen Attempt a b) : a.Retains b := by
  induction h with
  | refl => exact .refl a
  | tail _ hstep ih => exact ih.trans hstep.retains

/-- Functions that are not untyped after a run of operations have been bound in it. -/
theorem settles_of_steps {a b : Arena} (h : Relation.ReflTransGen Step a b) : a.Settles b := by
  induction h with
  | refl => exact .refl a
  | tail hsteps hstep ih =>
    exact ih.trans hstep.settles (retains_of_attempts (attempts_of_steps hsteps))
      hstep.attempt.retains

end HeaderCheck.Scope.Arena
