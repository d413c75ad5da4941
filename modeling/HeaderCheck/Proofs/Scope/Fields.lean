import HeaderCheck.Proofs.Scope.Owners

/-!
# HeaderCheck.Proofs.Scope.Fields

The fields that a constructor is known to assign.

* `FunctionInfo.Kept`: a function makes the same object, and the fields that were known come first.
* `Arena.CarriesFunctions`: what is left of all functions. Operations keep them (`Attempt.keepsFunctions`),
  and all but one of the operations leave the known fields as they are (`Operation.sameFields`).
* `pushFunction_ok`: a function starts as it is described.
* `addKnownField_ok`: a field that is new comes last.
* `knownFields_addKnownField`: no other function comes to know it, and nothing else becomes known.
-/

namespace HeaderCheck.Scope

open HeaderCheck.Types

/-- What a function is for good, and the fields that it is known to have assigned. -/
structure FunctionInfo.Kept (info info' : FunctionInfo) : Prop where
  thisType : info'.thisType = info.thisType
  isConstructor : info'.isConstructor = info.isConstructor
  knownFields : info.knownFields <+: info'.knownFields

/-- The function makes the same object and is known to have assigned the same fields. -/
structure FunctionInfo.Same (info info' : FunctionInfo) : Prop where
  thisType : info'.thisType = info.thisType
  isConstructor : info'.isConstructor = info.isConstructor
  knownFields : info'.knownFields = info.knownFields

namespace FunctionInfo.Kept

theorem of_same {info info' : FunctionInfo} (h : info.Same info') : info.Kept info' :=
  ⟨h.thisType, h.isConstructor, h.knownFields ▸ List.prefix_refl _⟩

theorem refl (info : FunctionInfo) : info.Kept info :=
  ⟨rfl, rfl, List.prefix_refl _⟩

theorem trans {one two three : FunctionInfo} (h : one.Kept two) (h' : two.Kept three) : one.Kept three :=
  ⟨h'.thisType.trans h.thisType, h'.isConstructor.trans h.isConstructor, h.knownFields.trans h'.knownFields⟩

end FunctionInfo.Kept

instance : Std.Refl FunctionInfo.Kept :=
  ⟨FunctionInfo.Kept.refl⟩

instance : IsTrans FunctionInfo FunctionInfo.Kept :=
  ⟨fun _ _ _ => FunctionInfo.Kept.trans⟩

instance : Std.Refl FunctionInfo.Same :=
  ⟨fun _ => ⟨rfl, rfl, rfl⟩⟩

instance : IsTrans FunctionInfo FunctionInfo.Same :=
  ⟨fun _ _ _ h h' => ⟨h'.thisType.trans h.thisType, h'.isConstructor.trans h.isConstructor,
    h'.knownFields.trans h.knownFields⟩⟩

/-- The known fields with one more, if it is new. -/
def noteField (fields : List String) (field : String) : List String :=
  if fields.contains field then fields else fields ++ [field]

theorem mem_noteField {fields : List String} {field known : String}
    (h : known ∈ noteField fields field) : known ∈ fields ∨ known = field := by
  rw [noteField] at h
  split at h
  · exact .inl h
  · simpa using h

namespace Arena

variable {a b c : Arena} {id : ScopeId}

/-- The scope is that of a function. -/
def IsFunction (a : Arena) (id : ScopeId) (info : FunctionInfo) : Prop :=
  ∃ scope, a.scope? id = some scope ∧ scope.kind = .function info

/-- Functions go on as functions, and this is left of them. -/
def CarriesFunctions (R : FunctionInfo → FunctionInfo → Prop) (a b : Arena) : Prop :=
  ∀ id info, a.IsFunction id info → ∃ info', b.IsFunction id info' ∧ R info info'

/-- Functions go on making the same objects, and forget none of the known fields. -/
abbrev KeepsFunctions (a b : Arena) : Prop :=
  a.CarriesFunctions FunctionInfo.Kept b

theorem IsFunction.unique {info info' : FunctionInfo} (h : a.IsFunction id info)
    (h' : a.IsFunction id info') : info = info' := by
  obtain ⟨scope, hs, hkind⟩ := h
  obtain ⟨scope', hs', hkind'⟩ := h'
  cases hs.symm.trans hs'
  cases hkind.symm.trans hkind'
  rfl

theorem IsFunction.under {info : FunctionInfo} (h : a.IsFunction id info) : a.Under id id := by
  obtain ⟨scope, hs, hkind⟩ := h
  exact .self hs (by rw [hkind]; rfl)

/-- The function that a scope belongs to is the nearest one. -/
theorem Under.nearest_function {owner : ScopeId} {info : FunctionInfo} (h : a.Under owner id)
    (hinfo : a.IsFunction owner info) :
    a.functionScope? id = some owner ∧ a.functionInfo? id = some info := by
  obtain ⟨⟨parent, kind, identifiers, restrictions, untyped, functions⟩, hs, rfl⟩ := hinfo
  obtain ⟨found, hfound⟩ := h.find?_chainWithin _ (Nat.lt_succ_self id.index)
  have hmem := List.mem_of_find?_eq_some hfound
  cases (scope?_of_mem_chainWithin hmem).symm.trans hs
  have hscope : a.functionScope? id = some owner := by
    rw [functionScope?_eq_nearest?, nearest?, chain, hfound]
    rfl
  refine ⟨hscope, ?_⟩
  simp only [functionInfo?, hscope, Option.bind_some, hs]

/-- A change of names leaves a function as it is. -/
theorem IsFunction.modify_names {info : FunctionInfo} (h : a.IsFunction id info) {other : ScopeId}
    {change : Scope → Scope} (hkind : ∀ scope, (change scope).kind = scope.kind) :
    (a.modify other change).IsFunction id info := by
  obtain ⟨scope, hs, hinfo⟩ := h
  rw [IsFunction, scope?_modify, hs]
  split
  · exact ⟨change scope, rfl, (hkind scope).trans hinfo⟩
  · exact ⟨scope, rfl, hinfo⟩

namespace CarriesFunctions

variable {R : FunctionInfo → FunctionInfo → Prop}

theorem mono {R' : FunctionInfo → FunctionInfo → Prop} (h : a.CarriesFunctions R b)
    (hR : ∀ info info', R info info' → R' info info') : a.CarriesFunctions R' b := by
  intro id info hinfo
  obtain ⟨info', hinfo', hleft⟩ := h id info hinfo
  exact ⟨info', hinfo', hR _ _ hleft⟩

theorem trans [IsTrans FunctionInfo R] (h : a.CarriesFunctions R b) (h' : b.CarriesFunctions R c) :
    a.CarriesFunctions R c := by
  intro id info hinfo
  obtain ⟨info', hinfo', hleft⟩ := h id info hinfo
  obtain ⟨info'', hinfo'', hleft'⟩ := h' id info' hinfo'
  exact ⟨info'', hinfo'', IsTrans.trans _ _ _ hleft hleft'⟩

variable [Std.Refl R]

theorem refl (a : Arena) : a.CarriesFunctions R a :=
  fun _ info h => ⟨info, h, Std.Refl.refl info⟩

theorem push (a : Arena) (scope : Scope) : a.CarriesFunctions R (a.push scope).2 := by
  rintro id info ⟨old, hs, hkind⟩
  exact ⟨info, ⟨old, scope?_push_of_some scope hs, hkind⟩, Std.Refl.refl info⟩

theorem modify {change : Scope → Scope}
    (h : ∀ scope info, a.scope? id = some scope → scope.kind = .function info →
      ∃ info', (change scope).kind = .function info' ∧ R info info') :
    a.CarriesFunctions R (a.modify id change) := by
  rintro other info ⟨scope, hs, hkind⟩
  by_cases hid : id = other
  · subst hid
    obtain ⟨info', hkind', hleft⟩ := h scope info hs hkind
    exact ⟨info', ⟨change scope, by rw [scope?_modify, if_pos rfl, hs]; rfl, hkind'⟩, hleft⟩
  · exact ⟨info, ⟨scope, by rw [scope?_modify, if_neg hid, hs], hkind⟩, Std.Refl.refl info⟩

/-- A change of names only. -/
theorem modify_names {change : Scope → Scope} (h : ∀ scope, (change scope).kind = scope.kind) :
    a.CarriesFunctions R (a.modify id change) :=
  .modify fun scope info _ hkind => ⟨info, (h scope).trans hkind, Std.Refl.refl info⟩

/-- A change of a scope that is no function. -/
theorem modify_other {change : Scope → Scope} {scope : Scope} (hs : a.scope? id = some scope)
    (hno : ∀ info, scope.kind ≠ .function info) : a.CarriesFunctions R (a.modify id change) := by
  refine .modify fun found info hfound hkind => ?_
  cases hs.symm.trans hfound
  exact absurd hkind (hno info)

theorem modifyFunction {change : FunctionInfo → FunctionInfo} (h : ∀ info, R info (change info)) :
    a.CarriesFunctions R (a.modifyFunction id change).2 := by
  unfold Arena.modifyFunction
  split
  · exact .refl a
  · refine .modify fun scope info _ hkind => ⟨change info, ?_, h info⟩
    simp only [hkind]

theorem restrict (name : String) (type : TypeId) : a.CarriesFunctions R (a.restrict id name type).2 := by
  unfold Arena.restrict
  split
  · exact .refl a
  next scope hs =>
  simp only
  split <;> split
  · next hkind _ => exact .modify_other hs fun info h => by cases hkind.symm.trans h
  · exact .modify_names fun _ => rfl
  · exact .refl a
  · split
    · exact .refl a
    · exact .modify_names fun _ => rfl

theorem addPrototypeField (constructor field : String) (type : TypeId) :
    a.CarriesFunctions R (a.addPrototypeField id constructor field type).2 := by
  unfold Arena.addPrototypeField
  split
  · next hs => exact .modify_other hs nofun
  · exact .refl a

end CarriesFunctions

/-- A field that is noted. -/
theorem kept_noteField (field : String) (info : FunctionInfo) :
    info.Kept { info with knownFields := noteField info.knownFields field } := by
  refine ⟨rfl, rfl, ?_⟩
  simp only [noteField]
  split
  · exact List.prefix_refl _
  · exact List.prefix_append _ _

theorem addKnownField_eq (a : Arena) (id : ScopeId) (field : String) :
    a.addKnownField id field = a.modifyFunction id fun info =>
      { info with knownFields := noteField info.knownFields field } := by
  rw [addKnownField]
  congr 1
  funext info
  simp only [noteField]
  split <;> rfl

/-- Whether an operation leaves the known fields of all functions as they are. -/
def Operation.isSilent : Operation → Bool
  | .addKnownField _ _ => false
  | _ => true

/-- All other operations leave the known fields of all functions as they are. -/
theorem Operation.sameFields (op : Operation) (hop : op.isSilent = true) :
    a.CarriesFunctions FunctionInfo.Same (op.run a).2 := by
  cases op with
  | pushFile | pushBranch parent => exact .push a _
  | pushFunction parent info =>
    rcases a.pushFunction_cases parent info with ⟨hrun, -⟩ | ⟨hrun, -⟩ <;>
      simp only [Operation.run, outcome, hrun]
    · exact .refl a
    · exact (CarriesFunctions.push a _).trans (.modify_names fun _ => rfl)
  | addVar id name type =>
    rcases a.addVar_cases id name type with hrun | hrun <;> simp only [Operation.run, outcome, hrun]
    · exact .refl a
    · exact .modify_names fun _ => rfl
  | forceUpdateVar id name type =>
    rcases a.forceUpdateVar_cases id name type with hrun | ⟨_, _, _, _, hrun⟩ <;>
      simp only [Operation.run, outcome, hrun]
    · exact .refl a
    · exact .modify_names fun _ => rfl
  | restrict id name type => exact .restrict name type
  | addFunction id name node =>
    rcases a.addFunction_cases id name node with hrun | hrun <;>
      simp only [Operation.run, outcome, hrun]
    · exact .refl a
    · exact .modify_names fun _ => rfl
  | updateFunction id name type =>
    rcases a.updateFunction_cases id name type with hrun | ⟨_, _, _, _, hrun | ⟨_, hrun⟩⟩ <;>
      simp only [Operation.run, outcome, hrun]
    · exact .refl a
    · exact .modify_names fun _ => rfl
    · exact .modify_names fun _ => rfl
  | addPrototypeField id constructor field type => exact .addPrototypeField constructor field type
  | addKnownField id field => cases hop
  | markReturnType id type span => exact .modifyFunction fun info => ⟨rfl, rfl, rfl⟩
  | enterReturn id expected => exact .modifyFunction fun info => ⟨rfl, rfl, rfl⟩
  | exitReturn id => exact .modifyFunction fun info => ⟨rfl, rfl, rfl⟩

/-- Whatever is done to the scopes, functions are kept. -/
theorem Attempt.keepsFunctions (h : Attempt a b) : a.KeepsFunctions b := by
  obtain ⟨op, rfl⟩ := h
  cases hop : op.isSilent with
  | true => exact (op.sameFields hop).mono fun _ _ => .of_same
  | false =>
    cases op with
    | addKnownField id field =>
      simp only [Operation.run, outcome, addKnownField_eq]
      exact .modifyFunction (kept_noteField field)
    | _ => cases hop

theorem keepsFunctions_of_attempts (h : Relation.ReflTransGen Attempt a b) : a.KeepsFunctions b := by
  induction h with
  | refl => exact .refl a
  | tail _ hstep ih => exact ih.trans hstep.keepsFunctions

/-- A function starts as it is described, in a new scope. -/
theorem pushFunction_ok {parent scope : ScopeId} {info : FunctionInfo}
    (h : a.pushFunction parent info = (.ok scope, b)) : scope = ⟨a.size⟩ ∧ b.IsFunction ⟨a.size⟩ info := by
  rcases a.pushFunction_cases parent info with ⟨hrun, -⟩ | ⟨hrun, -⟩ <;> rw [hrun] at h
  · cases h
  · cases h
    refine ⟨rfl, ?_⟩
    have hpushed : (a.push { parent := some parent, kind := .function info }).2.scope? ⟨a.size⟩ =
        some { parent := some parent, kind := .function info } := by
      rw [scope?_push, if_pos rfl]
    rw [IsFunction, scope?_modify, hpushed]
    split
    · exact ⟨_, rfl, rfl⟩
    · exact ⟨_, rfl, rfl⟩

/-- A field that is new comes last. -/
theorem addKnownField_ok {found : ScopeId} {info : FunctionInfo} (hf : a.functionScope? id = some found)
    (hinfo : a.IsFunction found info) (field : String) :
    ∃ b, a.addKnownField id field = (.ok (), b) ∧
      b.IsFunction found { info with knownFields := noteField info.knownFields field } := by
  obtain ⟨scope, hs, hkind⟩ := hinfo
  rw [addKnownField_eq, modifyFunction, hf]
  refine ⟨_, rfl, { scope with kind := .function { info with knownFields := noteField info.knownFields field } },
    ?_, rfl⟩
  rw [scope?_modify, if_pos rfl, hs, Option.map_some, hkind]

theorem functionScope?_eq_some {owner found : ScopeId} (h : a.Under owner id)
    (hf : a.functionScope? id = some found) : found = owner := by
  obtain ⟨scope, hfirst⟩ := h.find?_chainWithin _ (Nat.lt_succ_self id.index)
  rw [functionScope?, chain, hfirst] at hf
  simp only at hf
  split at hf
  · exact (Option.some.inj hf).symm
  · cases hf

/-- Only the function that the scope belongs to comes to know the field. -/
theorem knownFields_addKnownField {owner other : ScopeId} {info : FunctionInfo} (h : a.Under owner id)
    (hinfo : a.IsFunction other info) (field : String) :
    ∃ info', (a.addKnownField id field).2.IsFunction other info' ∧
      ∀ known ∈ info'.knownFields, known ∈ info.knownFields ∨ other = owner ∧ known = field := by
  cases hf : a.functionScope? id with
  | none =>
    rw [addKnownField_eq, modifyFunction, hf]
    exact ⟨info, hinfo, fun known hknown => .inl hknown⟩
  | some found =>
    cases functionScope?_eq_some h hf
    by_cases hother : other = owner
    · subst hother
      obtain ⟨b, hadd, hnoted⟩ := addKnownField_ok hf hinfo field
      rw [hadd]
      refine ⟨_, hnoted, fun known hknown => ?_⟩
      exact (mem_noteField hknown).imp_right fun heq => ⟨rfl, heq⟩
    · obtain ⟨scope, hs, hkind⟩ := hinfo
      rw [addKnownField_eq, modifyFunction, hf]
      refine ⟨info, ⟨scope, ?_, hkind⟩, fun known hknown => .inl hknown⟩
      rw [scope?_modify, if_neg (Ne.symm hother), hs]

end Arena

end HeaderCheck.Scope
