import HeaderCheck.Proofs.Verify.Assigned

/-!
# HeaderCheck.Proofs.Verify.Lexical

Which declaration of a name is used.

* `State.declaration?`: the innermost declaration in sight, whether it has a type or is a function
  without one. What is bound for all files comes last.
* `State.Unrivalled`: no scope around and no global name has a type for the name.
* `State.Uses`: reads of the name, calls of it and the check of its declaration go by a declaration.
* `declaration_used`: they go by the innermost one, if it has a type or is without rivals.
-/

namespace HeaderCheck.Scope.Arena

open HeaderCheck.Types (TypeId)

variable {a : Arena} {id holder : ScopeId} {name : String} {scope : Scope}

/-- Whether a scope declares a name, with a type or as a function without one. -/
def declares (name : String) (scope : Scope) : Bool :=
  scope.identifiers.contains name || scope.untyped.contains name

/-- The innermost scope that declares a name. -/
def innermost? (a : Arena) (id : ScopeId) (name : String) : Option (ScopeId × Scope) :=
  (a.chain id).find? fun x => declares name x.2

/-- A type that the innermost scope has for a name is the declared one. -/
theorem getVar_of_innermost? (h : a.innermost? id name = some (holder, scope)) {type : TypeId}
    (htype : scope.identifiers.get? name = some type) (globals : Globals) :
    a.getVar globals id name .writable = some type := by
  have hfirst : (a.chain id).findSome? (fun x => ownType? x.2 name .writable) = some type := by
    unfold innermost? at h
    generalize a.chain id = chain at h
    induction chain with
    | nil => cases h
    | cons x rest ih =>
      rw [List.find?_cons] at h
      rw [List.findSome?_cons]
      cases hdeclares : declares name x.2 with
      | true =>
        rw [hdeclares] at h
        cases h
        simp [ownType?, htype]
      | false =>
        rw [hdeclares] at h
        have hnone : x.2.identifiers.get? name = none := by
          simpa [Dict.contains] using (Bool.or_eq_false_iff.mp hdeclares).1
        simpa [ownType?, hnone] using ih h
  rw [getVar, hfirst]

/-- A name that no scope around declares has the type that is bound for all files. -/
theorem getVar_of_innermost?_none (h : a.innermost? id name = none) (globals : Globals) :
    a.getVar globals id name .writable = globals.identifiers.get? name := by
  have hfirst : (a.chain id).findSome? (fun x => ownType? x.2 name .writable) = none := by
    rw [List.findSome?_eq_none_iff]
    intro x hx
    have hdeclares := List.find?_eq_none.mp h x hx
    simp only [declares, Bool.or_eq_true, not_or, Bool.not_eq_true] at hdeclares
    simpa [ownType?, Dict.contains] using hdeclares.1
  rw [getVar, hfirst]

/-- Where no scope has a type for a name, the innermost one that declares it has its function. -/
theorem find?_untyped_of_innermost? (h : a.innermost? id name = some (holder, scope))
    (hfree : ∀ x ∈ a.chain id, tells name x.2 = false) :
    (a.chain id).find? (fun x => x.2.untyped.contains name) = some (holder, scope) := by
  unfold innermost? at h
  generalize a.chain id = chain at h hfree
  induction chain with
  | nil => cases h
  | cons x rest ih =>
    have hsame : declares name x.2 = x.2.untyped.contains name := by
      rw [declares, (Bool.or_eq_false_iff.mp (hfree x List.mem_cons_self)).2, Bool.false_or]
    rw [List.find?_cons, hsame] at h
    rw [List.find?_cons]
    cases hfunction : x.2.untyped.contains name with
    | true => simpa only [hfunction] using h
    | false =>
      rw [hfunction] at h
      exact ih h fun y hy => hfree y (List.mem_cons_of_mem _ hy)

/-- The nearest function of a name stands in the nearest scope that has one. -/
theorem getFunction?_of_find?
    (h : (a.chain id).find? (fun x => x.2.untyped.contains name) = some (holder, scope)) :
    a.getFunction? id name = scope.untyped.get? name := by
  unfold getFunction?
  generalize a.chain id = chain at h
  induction chain with
  | nil => cases h
  | cons x rest ih =>
    rw [List.find?_cons] at h
    rw [List.findSome?_cons]
    cases hfunction : x.2.untyped.get? name with
    | none =>
      simp only [Dict.contains, hfunction, Option.isSome_none] at h
      simpa only [hfunction] using ih h
    | some function =>
      simp only [Dict.contains, hfunction, Option.isSome_some] at h
      cases h
      simp only [hfunction]

end HeaderCheck.Scope.Arena

namespace HeaderCheck.Verify

open HeaderCheck.Project (SessionM)
open HeaderCheck.Scope (Arena ScopeId UntypedFunction)
open HeaderCheck.Script
open HeaderCheck.Types (TypeId)

/-! ## Declarations -/

/-- A declaration of a name. -/
inductive NameDeclaration where
  | typed (type : TypeId)
  /-- A function without a type, and the scope that declares it. -/
  | untyped (holder : ScopeId) (function : UntypedFunction)

def NameDeclaration.isUntyped : NameDeclaration → Bool
  | .typed _ => false
  | .untyped _ _ => true

namespace State

/-- The innermost declaration of a name that is in sight, those of all files coming last. -/
def declaration? (s : State) (name : String) : Option NameDeclaration :=
  match s.arena.innermost? s.focus.scope name with
  | some (holder, scope) =>
    match scope.identifiers.get? name with
    | some type => some (.typed type)
    | none => (scope.untyped.get? name).map (.untyped holder)
  | none => (s.session.globals.identifiers.get? name).map .typed

/-- No scope around has a type for the name, and there is none for all files. -/
structure Unrivalled (s : State) (name : String) : Prop where
  scopes : ∀ x ∈ s.arena.chain s.focus.scope, Arena.tells name x.2 = false
  globals : s.session.globals.identifiers.get? name = none

/-- Reads of the name, calls of it and the check of its declaration go by a type. A read may see a
narrowed type in its place. -/
structure UsesType (s : State) (v : Visitor) (name : String) (type : TypeId) : Prop where
  seen : ∃ seen, (s.narrows name = false ∨ s.focus.mode = .writable → seen = type) ∧
    (∀ span, (verifyIdentifier { name, span }).run s = (.ok (some seen), s)) ∧
    ∀ span arguments place, let call : Call := ⟨.identifier { name, span }, arguments, place⟩
      (call.verify v).run s = (call.verifyTyped v).run s ∧
        (call.calleeType v).run s = (.ok (some (seen, none)), s)
  checked : ∀ f : Function, f.name = name → s.hasFunctionScope name = false →
    (verifyDeclared v f).run s = (verifyFunction v f type name).run s

/-- Reads of the name, calls of it and the check of its declaration go by a function that gets its
type from a call. -/
structure UsesFunction (s : State) (v : Visitor) (name : String) (holder : ScopeId)
    (function : UntypedFunction) : Prop where
  read : name ≠ "undefined" → ∀ span, (verifyIdentifier { name, span }).run s =
    (do reportUntypedFunction span name; return none : Check (Option TypeId)).run s
  called : name ≠ Call.requireName → ∀ span arguments place,
    let call : Call := ⟨.identifier { name, span }, arguments, place⟩
    (call.verify v).run s = (call.infer v name function).run s
  bound : ∀ type, s.arena.updateFunction s.focus.scope name type =
    (.ok holder, s.arena.modify holder (Arena.typeFunction name type))
  checked : ∀ f : Function, f.name = name → s.hasFunctionScope name = false →
    (verifyDeclared v f).run s = (reportUntypedFunction f.span name).run s

/-- Reads of the name, calls of it and the check of its declaration go by a declaration. -/
def Uses (s : State) (v : Visitor) (name : String) : NameDeclaration → Prop
  | .typed type => s.UsesType v name type
  | .untyped holder function => s.UsesFunction v name holder function

end State

variable {s : State} {name : String} {type : TypeId}

/-! ## Names with a type -/

/-- A name with a declared type has one under every focus. -/
theorem State.lookup_of_declaredType (h : s.declaredType name = some type) :
    ∃ seen, s.lookup name = some seen ∧
      (s.narrows name = false ∨ s.focus.mode = .writable → seen = type) := by
  cases hmode : s.focus.mode with
  | writable =>
    refine ⟨type, ?_, fun _ => rfl⟩
    rw [State.lookup, hmode]
    exact h
  | normal =>
    rw [State.lookup, hmode]
    cases hseen : s.typeIn s.focus.scope name .normal with
    | none =>
      have hnone : s.declaredType name = none := Arena.getVar_writable_eq_none hseen
      rw [hnone] at h
      cases h
    | some seen =>
      refine ⟨seen, rfl, ?_⟩
      rintro (hunnarrowed | ⟨⟨⟩⟩)
      rw [State.typeIn_of_narrows_eq_false hunnarrowed, h] at hseen
      exact (Option.some.inj hseen).symm

theorem run_verifyIdentifier_of_lookup {seen : TypeId} (h : s.lookup name = some seen)
    (span : Span) : (verifyIdentifier { name, span }).run s = (.ok (some seen), s) := by
  rw [verifyIdentifier, run_get_bind, h]
  rfl

theorem usesType_of_declaredType (h : s.declaredType name = some type)
    (require : (file request : String) → SessionM Required) (fuel : Nat) :
    s.UsesType (visitor require (fuel + 1)) name type where
  seen := by
    obtain ⟨seen, hseen, hsame⟩ := State.lookup_of_declaredType h
    refine ⟨seen, hsame, run_verifyIdentifier_of_lookup hseen, fun span arguments place => ⟨?_, ?_⟩⟩
    · rw [Call.verify, run_get_bind]
      simp only [hseen, Option.isSome_some, if_true]
    · have hvalue : ((visitor require (fuel + 1)).value (.identifier { name, span })).run s =
          (.ok (some seen), s) := by
        let s₀ : State := { s with focus := { s.focus with expected := none } }
        have hseen₀ : s₀.lookup name = some seen := hseen
        have hread : ((visitor require (fuel + 1)).expr (.identifier { name, span })).run s₀ =
            (.ok (some seen), s₀) := run_verifyIdentifier_of_lookup hseen₀ span
        rw [Visitor.value, expecting, run_withFocus, hread]
      rw [Call.calleeType]
      simp only [Access.ofExpr?]
      rw [run_bind_ok hvalue]
      rfl
  checked := by
    rintro f rfl hscope
    rw [verifyDeclared, run_get_bind]
    simp only [hscope, h, Bool.false_eq_true, if_false]

/-! ## Functions without a type -/

theorem State.Unrivalled.typeIn_eq_none (h : s.Unrivalled name) (mode : Scope.LookupMode) :
    s.typeIn s.focus.scope name mode = none := by
  have hfirst : (s.arena.chain s.focus.scope).findSome?
      (fun x => Arena.ownType? x.2 name mode) = none := by
    rw [List.findSome?_eq_none_iff]
    intro x hx
    have htells := h.scopes x hx
    simp only [Arena.tells, Dict.contains, Bool.or_eq_false_iff, Option.isSome_eq_false_iff,
      Option.isNone_iff_eq_none] at htells
    cases mode <;> simp [Arena.ownType?, htells]
  rw [State.typeIn, Arena.getVar, hfirst]
  exact h.globals

theorem usesFunction_of_innermost? {holder : ScopeId} {scope : Scope} {function : UntypedFunction}
    (hfound : s.arena.innermost? s.focus.scope name = some (holder, scope))
    (hfunction : scope.untyped.get? name = some function) (h : s.Unrivalled name) (v : Visitor) :
    s.UsesFunction v name holder function := by
  have hfind := Arena.find?_untyped_of_innermost? hfound h.scopes
  have huntyped : s.arena.getFunction? s.focus.scope name = some function :=
    (Arena.getFunction?_of_find? hfind).trans hfunction
  have hlookup : s.lookup name = none := h.typeIn_eq_none _
  have hdeclared : s.declaredType name = none := h.typeIn_eq_none _
  refine ⟨?_, ?_, ?_, ?_⟩
  · intro hname span
    rw [verifyIdentifier, run_get_bind]
    simp only [hlookup, hname, State.isUntyped, huntyped, Option.isSome_some, if_true, if_false]
  · intro hname span arguments place call
    rw [Call.verify.eq_def, run_get_bind]
    simp only [call, hlookup, hname, huntyped, Option.isSome_none, Bool.false_eq_true, if_false]
  · intro type
    have hmem : (holder, scope) ∈ s.arena.chain s.focus.scope := List.mem_of_find?_eq_some hfind
    have hfree := (Bool.or_eq_false_iff.mp (h.scopes _ hmem)).2
    rcases Arena.updateFunction_of_find? hfind type with ⟨hbound, _⟩ | ⟨_, hrun⟩
    · rw [hfree] at hbound
      cases hbound
    · exact hrun
  · rintro f rfl hscope
    rw [verifyDeclared, run_get_bind]
    simp only [hscope, hdeclared, Bool.false_eq_true, if_false]

/-! ## The innermost declaration -/

/-- Reads of a name, calls of it and the check of its declaration go by the innermost declaration in
sight. A function without a type is used there only if no scope around and no global name has a type
for the name. -/
theorem declaration_used (require : (file request : String) → SessionM Required) (fuel : Nat)
    {declaration : NameDeclaration} (h : s.declaration? name = some declaration)
    (hunrivalled : ∀ holder function, declaration = .untyped holder function → s.Unrivalled name) :
    s.Uses (visitor require (fuel + 1)) name declaration := by
  unfold State.declaration? at h
  split at h
  · next holder scope hfound =>
    split at h
    · next type htype =>
      cases h
      exact usesType_of_declaredType (Arena.getVar_of_innermost? hfound htype _) require fuel
    · obtain ⟨function, hfunction, rfl⟩ := Option.map_eq_some_iff.mp h
      exact usesFunction_of_innermost? hfound hfunction (hunrivalled holder function rfl) _
  · next hnone =>
    obtain ⟨type, htype, rfl⟩ := Option.map_eq_some_iff.mp h
    have hdeclared : s.declaredType name = some type :=
      (Arena.getVar_of_innermost?_none hnone _).trans htype
    exact usesType_of_declaredType hdeclared require fuel

end HeaderCheck.Verify
