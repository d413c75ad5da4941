import HeaderCheck.Proofs.Scope.Owners

/-!
# HeaderCheck.Proofs.Scope.Lawful

Arenas that operations on issued handles build, and what holds in all of them.

* `Built`: the arenas that such operations lead to, whether carried out or refused.
* `Regular`: what holds in one scope by itself.
* `Lawful`: scopes are regular and opened after the ones around them, and the functions that a file
  or function has scopes for are those that were opened below it. `Operation.lawful` is the step.
* `built_lawful`: every chain ends in a file, and a function is registered once, where it belongs.
-/

namespace HeaderCheck.Scope.Arena

open HeaderCheck.Types

variable {a b : Arena} {id : ScopeId}

/-! ## Arenas that operations build -/

/-- The arena has issued the handle. -/
def Issued (a : Arena) (id : ScopeId) : Prop :=
  id.index < a.size

/-- An operation on handles that the arena has issued. A function is new, and no field of it is known
yet. -/
def Operation.Proper (a : Arena) : Operation → Prop
  | .pushFile => True
  | .pushFunction parent info => a.Issued parent ∧ info.knownFields = []
  | .pushBranch id | .addVar id _ _ | .forceUpdateVar id _ _ | .restrict id _ _
  | .addFunction id _ _ | .updateFunction id _ _ | .addPrototypeField id _ _ _
  | .addKnownField id _ | .markReturnType id _ _ | .enterReturn id _ | .exitReturn id => a.Issued id

/-- The arenas that operations lead to. -/
inductive Built : Arena → Prop where
  | empty : Built {}
  | step {a : Arena} (h : Built a) (op : Operation) (hproper : op.Proper a) : Built (op.run a).2

/-! ## One scope -/

/-- Only a file has no scope around it, a branch declares no function, functions wait where they are
declared, and nothing is recorded twice. -/
structure Regular (id : ScopeId) (scope : Scope) : Prop where
  outermost : scope.parent = none → ∃ prototypes, scope.kind = .file prototypes
  branch : scope.kind.isBranch → scope.functions = {} ∧ scope.untyped = {}
  functions : scope.functions.keys.Nodup
  untyped : ∀ entry ∈ scope.untyped.entries, entry.2.definedIn = id
  fields : ∀ info, scope.kind = .function info → info.knownFields.Nodup

/-- A scope after an operation that opens no function. -/
structure Stays (id : ScopeId) (scope scope' : Scope) : Prop where
  parent : scope'.parent = scope.parent
  kind : scope.kind.Alike scope'.kind
  functions : scope'.functions = scope.functions
  regular : Regular id scope → Regular id scope'

theorem Stays.refl (id : ScopeId) (scope : Scope) : Stays id scope scope :=
  ⟨rfl, .refl _, rfl, fun h => h⟩

theorem stays_bind (name : String) (type : TypeId) (scope : Scope) :
    Stays id scope { scope with identifiers := scope.identifiers.insert name type } :=
  ⟨rfl, .refl _, rfl, fun h => { h with }⟩

theorem stays_restrict (name : String) (type : TypeId) (scope : Scope) :
    Stays id scope { scope with restrictions := scope.restrictions.insert name type } :=
  ⟨rfl, .refl _, rfl, fun h => { h with }⟩

/-- A kind changes into one of its like. The fields of a function stay distinct. -/
theorem stays_kind {scope : Scope} {kind : Kind} (hkind : scope.kind.Alike kind)
    (hfields : Regular id scope → ∀ info, kind = .function info → info.knownFields.Nodup) :
    Stays id scope { scope with kind } := by
  refine ⟨rfl, hkind, rfl, fun h => { h with outermost := ?_, branch := ?_, fields := hfields h }⟩
  · intro hp
    obtain ⟨prototypes, hfile⟩ := h.outermost hp
    exact (hfile ▸ hkind).exists_file
  · intro hb
    exact h.branch (by rwa [← hkind.isBranch_eq])

theorem stays_modifyFunction {change : FunctionInfo → FunctionInfo}
    (hname : ∀ info, (change info).name = info.name)
    (hfields : ∀ info, info.knownFields.Nodup → (change info).knownFields.Nodup) (scope : Scope) :
    Stays id scope (match scope.kind with
      | .function info => { scope with kind := .function (change info) }
      | _ => scope) := by
  split
  · next info hkind =>
    refine stays_kind (by rw [hkind]; exact hname info) fun h => ?_
    rintro _ ⟨⟩
    exact hfields info (h.fields info hkind)
  · exact .refl id scope

/-- Fewer functions wait for a type. -/
theorem stays_forget (name : String) (scope : Scope) : Stays id scope (forgetFunction name scope) := by
  refine ⟨rfl, .refl _, rfl, fun h => { h with branch := fun hb => ?_, untyped := ?_ }⟩
  · refine ⟨(h.branch hb).1, ?_⟩
    rw [forgetFunction, (h.branch hb).2]
    rfl
  · exact fun entry hentry => h.untyped entry (Dict.mem_entries_erase hentry)

theorem stays_type (name : String) (type : TypeId) (scope : Scope) :
    Stays id scope (typeFunction name type scope) := by
  have hforget : Stays id scope (forgetFunction name scope) := stays_forget name scope
  exact ⟨rfl, .refl _, rfl, fun h => (stays_bind name type _).regular (hforget.regular h)⟩

/-- A function waits for its type in the scope that holds it. -/
theorem stays_declare (name : String) (node : Script.Function) {scope : Scope}
    (hb : scope.kind.isBranch = false) :
    Stays id scope { scope with untyped := scope.untyped.insert name ⟨node, id⟩ } := by
  refine ⟨rfl, .refl _, rfl, fun h => { h with branch := ?_, untyped := ?_ }⟩
  · intro hb'
    rw [hb] at hb'
    cases hb'
  · intro entry hentry
    rcases Dict.mem_entries_insert hentry with rfl | hold
    · rfl
    · exact h.untyped entry hold

/-! ## Operations that open no function -/

/-- A scope that such an operation opens. -/
structure Opens (a : Arena) (id : ScopeId) (scope : Scope) : Prop where
  fresh : a.scope? id = none
  parent : ∀ parent, scope.parent = some parent → parent.index < id.index
  kind : scope.kind.isFunction = false
  functions : scope.functions = {}
  regular : Regular id scope

/-- No scope is new but files and branches, and the others keep their functions. -/
def Plainly (a b : Arena) : Prop :=
  ∀ id scope', b.scope? id = some scope' →
    (∃ scope, a.scope? id = some scope ∧ Stays id scope scope') ∨ Opens a id scope'

namespace Plainly

theorem refl (a : Arena) : a.Plainly a :=
  fun id scope hs => .inl ⟨scope, hs, .refl id scope⟩

theorem modify {change : Scope → Scope}
    (h : ∀ scope, a.scope? id = some scope → Stays id scope (change scope)) :
    a.Plainly (a.modify id change) := by
  intro other scope' hs'
  rw [scope?_modify] at hs'
  split at hs'
  · next heq =>
    subst heq
    obtain ⟨scope, hs, rfl⟩ := Option.map_eq_some_iff.mp hs'
    exact .inl ⟨scope, hs, h scope hs⟩
  · exact .inl ⟨scope', hs', .refl other scope'⟩

theorem push {scope : Scope} (h : Opens a ⟨a.size⟩ scope) : a.Plainly (a.push scope).2 := by
  intro id found hs
  rw [scope?_push] at hs
  split at hs
  · next hid =>
    cases hs
    obtain rfl : id = ⟨a.size⟩ := by cases id; simpa using hid
    exact .inr h
  · exact .inl ⟨found, hs, .refl id found⟩

theorem pushFile (a : Arena) : a.Plainly a.pushFile.2 := by
  refine push ⟨by simp [scope?, size], by rintro _ ⟨⟩, rfl, rfl, ?_⟩
  exact ⟨fun _ => ⟨{}, rfl⟩, fun _ => ⟨rfl, rfl⟩, List.nodup_nil, by rintro _ ⟨⟩, by rintro _ ⟨⟩⟩

theorem pushBranch (h : a.Issued id) : a.Plainly (a.pushBranch id).2 := by
  refine push ⟨by simp [scope?, size], ?_, rfl, rfl, ?_⟩
  · rintro _ ⟨⟩
    exact h
  · exact ⟨by rintro ⟨⟩, fun _ => ⟨rfl, rfl⟩, List.nodup_nil, by rintro _ ⟨⟩, by rintro _ ⟨⟩⟩

theorem bindVar (name : String) (type : TypeId) : a.Plainly (a.bindVar id name type) :=
  modify fun scope _ => stays_bind name type scope

theorem addVar (name : String) (type : TypeId) : a.Plainly (a.addVar id name type).2 := by
  rcases a.addVar_cases id name type with hrun | hrun <;> rw [hrun]
  · exact .refl a
  · exact .bindVar name type

theorem forceUpdateVar (name : String) (type : TypeId) :
    a.Plainly (a.forceUpdateVar id name type).2 := by
  rcases a.forceUpdateVar_cases id name type with hrun | ⟨_, _, _, _, hrun⟩ <;> rw [hrun]
  · exact .refl a
  · exact .bindVar name type

theorem restrict (name : String) (type : TypeId) : a.Plainly (a.restrict id name type).2 := by
  unfold Arena.restrict
  split
  · exact .refl a
  next scope hs =>
  simp only
  split <;> split
  · next hkind _ =>
    refine .modify fun found hfound => ?_
    rw [hs] at hfound
    cases hfound
    exact stays_kind (by rw [hkind]; trivial) fun _ => nofun
  · exact .modify fun found _ => stays_restrict name type found
  · exact .refl a
  · split
    · exact .refl a
    · exact .modify fun found _ => stays_restrict name type found

theorem modifyFunction {change : FunctionInfo → FunctionInfo}
    (hname : ∀ info, (change info).name = info.name)
    (hfields : ∀ info, info.knownFields.Nodup → (change info).knownFields.Nodup) :
    a.Plainly (a.modifyFunction id change).2 := by
  unfold Arena.modifyFunction
  split
  · exact .refl a
  · exact .modify fun scope _ => stays_modifyFunction hname hfields scope

/-- A field is recorded once. -/
theorem addKnownField (field : String) : a.Plainly (a.addKnownField id field).2 := by
  refine .modifyFunction (fun info => ?_) fun info hdistinct => ?_
  · split <;> rfl
  · split
    · exact hdistinct
    · next hnew =>
      simp only [List.contains_iff_mem] at hnew
      exact (List.perm_append_singleton field info.knownFields).nodup_iff.mpr
        (List.nodup_cons.mpr ⟨hnew, hdistinct⟩)

theorem addPrototypeField (constructor field : String) (type : TypeId) :
    a.Plainly (a.addPrototypeField id constructor field type).2 := by
  unfold Arena.addPrototypeField
  split
  · next hs =>
    refine .modify fun found hfound => ?_
    rw [hs] at hfound
    cases hfound
    exact stays_kind trivial fun _ => nofun
  · exact .refl a

theorem addFunction {owner : ScopeId} (h : a.Under owner id) (name : String) (node : Script.Function) :
    a.Plainly (a.addFunction id name node).2 := by
  rcases a.addFunction_cases id name node with hrun | hrun <;> rw [hrun]
  · exact .refl a
  · rw [h.owner_eq]
    refine .modify fun scope hs => stays_declare name node ?_
    obtain ⟨found, hfound, hb⟩ := h.exists_owner
    rw [hs] at hfound
    cases hfound
    exact hb

theorem updateFunction (name : String) (type : TypeId) :
    a.Plainly (a.updateFunction id name type).2 := by
  rcases a.updateFunction_cases id name type with hrun | ⟨_, _, _, _, hrun | ⟨_, hrun⟩⟩ <;> rw [hrun]
  · exact .refl a
  · exact .modify fun scope _ => stays_forget name scope
  · exact .modify fun scope _ => stays_type name type scope

/-- Files and functions have scopes for the same functions as before. -/
theorem registers_iff (hplain : a.Plainly b) (hr : a.Retains b) {owner child : ScopeId}
    {key : String} : b.Registers owner key child ↔ a.Registers owner key child := by
  constructor
  · rintro ⟨scope', hs', hget⟩
    rcases hplain owner scope' hs' with ⟨scope, hs, hstays⟩ | hopens
    · exact ⟨scope, hs, hstays.functions ▸ hget⟩
    · rw [hopens.functions] at hget
      cases hget
  · rintro ⟨scope, hs, hget⟩
    obtain ⟨scope', hs', -⟩ := hr owner scope hs
    rcases hplain owner scope' hs' with ⟨old, hold, hstays⟩ | hopens
    · rw [hs] at hold
      cases hold
      exact ⟨scope', hs', hstays.functions ▸ hget⟩
    · have hfresh := hopens.fresh
      rw [hs] at hfresh
      cases hfresh

end Plainly

/-! ## All operations -/

/-- Scopes are in order, and each function scope is one that a file or function has for a function
below it. -/
structure Lawful (a : Arena) : Prop where
  ordered : a.Ordered
  regular : ∀ id scope, a.scope? id = some scope → Regular id scope
  entries : ∀ owner key child, a.Registers owner key child → a.MadeIn owner key child
  registered : ∀ id scope info, a.scope? id = some scope → scope.kind = .function info →
    ∃ owner, a.Registers owner info.name id

namespace Lawful

theorem empty : ({} : Arena).Lawful := by
  have hnone : ∀ id, ({} : Arena).scope? id = none := fun id => by simp [scope?]
  refine ⟨fun id scope parent hs => ?_, fun id scope hs => ?_, ?_, fun id scope info hs => ?_⟩
  · rw [hnone] at hs
    cases hs
  · rw [hnone] at hs
    cases hs
  · rintro owner key child ⟨scope, hs, -⟩
    rw [hnone] at hs
    cases hs
  · rw [hnone] at hs
    cases hs

/-- Every scope belongs to a file or function. -/
theorem exists_under (h : a.Lawful) (hid : a.Issued id) : ∃ owner, a.Under owner id := by
  obtain ⟨index⟩ := id
  induction index using Nat.strongRecOn with
  | _ index ih =>
    obtain ⟨scope, hs⟩ := scope?_of_lt hid
    cases hb : scope.kind.isBranch with
    | false => exact ⟨_, .self hs hb⟩
    | true =>
      cases hp : scope.parent with
      | none =>
        obtain ⟨prototypes, hfile⟩ := (h.regular _ scope hs).outermost hp
        rw [hfile] at hb
        cases hb
      | some parent =>
        have hlt : parent.index < index := h.ordered _ scope parent hs hp
        obtain ⟨owner, howner⟩ := ih parent.index hlt (Nat.lt_trans hlt hid)
        exact ⟨owner, .branch hs hb hp hlt howner⟩

theorem of_plainly (h : a.Lawful) (hr : a.Retains b) (hplain : a.Plainly b) : b.Lawful where
  ordered := by
    intro id scope' parent hs' hp
    rcases hplain id scope' hs' with ⟨scope, hs, hstays⟩ | hopens
    · exact h.ordered id scope parent hs (hstays.parent ▸ hp)
    · exact hopens.parent parent hp
  regular := by
    intro id scope' hs'
    rcases hplain id scope' hs' with ⟨scope, hs, hstays⟩ | hopens
    · exact hstays.regular (h.regular id scope hs)
    · exact hopens.regular
  entries := fun owner key child hregisters =>
    (h.entries owner key child ((hplain.registers_iff hr).mp hregisters)).retains hr
  registered := by
    intro id scope' info' hs' hkind'
    rcases hplain id scope' hs' with ⟨scope, hs, hstays⟩ | hopens
    · have halike := hstays.kind
      rw [hkind'] at halike
      cases hkind : scope.kind with
      | function info =>
        obtain ⟨owner, hregisters⟩ := h.registered id scope info hs hkind
        rw [hkind] at halike
        have hname : info'.name = info.name := halike
        exact ⟨owner, hname ▸ (hplain.registers_iff hr).mpr hregisters⟩
      | file prototypes =>
        rw [hkind] at halike
        exact halike.elim
      | branch this =>
        rw [hkind] at halike
        exact halike.elim
    · have hfunction := hopens.kind
      rw [hkind'] at hfunction
      cases hfunction

/-- Its name was free, so the entry of a new function takes the place of no other. -/
theorem registers_pushFunction {owner child : ScopeId} {info : FunctionInfo} (h : a.Under owner id)
    (hrun : a.pushFunction id info = (.ok child, b)) {other found : ScopeId} {key : String}
    (hentry : a.Registers other key found) : b.Registers other key found := by
  obtain ⟨rfl, hscopes⟩ := h.scope?_pushFunction hrun
  obtain ⟨scope, hs, hget⟩ := hentry
  have hold : other ≠ ⟨a.size⟩ := by
    rintro rfl
    exact Nat.lt_irrefl _ (index_lt_size hs)
  by_cases howner : owner = other
  · subst howner
    refine ⟨_, by rw [hscopes, if_neg hold, if_pos rfl, hs]; rfl, ?_⟩
    have hne : info.name ≠ key := by
      rintro rfl
      rcases a.pushFunction_cases id info with ⟨hrefused, -⟩ | ⟨-, hfree⟩
      · rw [hrefused] at hrun
        cases hrun
      · have hcontains := hfree scope (by rw [h.owner_eq, hs])
        rw [Dict.contains, hget] at hcontains
        cases hcontains
    rw [Dict.get?_insert, if_neg hne, hget]
  · exact ⟨scope, by rw [hscopes, if_neg hold, if_neg howner, hs], hget⟩

/-- Each scope after a new function is the new one, or was there and has got the entry if it is the
owner. -/
theorem regular_pushFunction (h : a.Lawful) {owner child : ScopeId} {info : FunctionInfo}
    (hunder : a.Under owner id) (hrun : a.pushFunction id info = (.ok child, b))
    (hfields : info.knownFields = []) {other : ScopeId} {scope : Scope}
    (hs : b.scope? other = some scope) : Regular other scope := by
  obtain ⟨-, hscopes⟩ := hunder.scope?_pushFunction hrun
  rw [hscopes] at hs
  split at hs
  · cases hs
    refine ⟨nofun, nofun, List.nodup_nil, nofun, ?_⟩
    rintro _ ⟨⟩
    rw [hfields]
    exact List.nodup_nil
  split at hs
  · next heq =>
    subst heq
    obtain ⟨own, hown, hb⟩ := hunder.exists_owner
    rw [hown] at hs
    cases hs
    have hregular := h.regular owner own hown
    refine { hregular with branch := fun hb' => ?_, functions := ?_ }
    · rw [hb] at hb'
      cases hb'
    · exact Dict.nodup_keys_insert hregular.functions _ _
  · exact h.regular other scope hs

theorem ordered_pushFunction (h : a.Ordered) {owner child : ScopeId} {info : FunctionInfo}
    (hunder : a.Under owner id) (hrun : a.pushFunction id info = (.ok child, b)) : b.Ordered := by
  obtain ⟨rfl, hscopes⟩ := hunder.scope?_pushFunction hrun
  intro other scope parent hs hp
  rw [hscopes] at hs
  split at hs
  · next hnew =>
    cases hs
    cases hp
    rw [hnew]
    exact hunder.lt_size
  split at hs
  · obtain ⟨old, hold, rfl⟩ := Option.map_eq_some_iff.mp hs
    exact h other old parent hold hp
  · exact h other scope parent hs hp

/-- The function scopes are the new one, with its new entry, and those that were there. -/
theorem registered_pushFunction (h : a.Lawful) {owner child : ScopeId} {info : FunctionInfo}
    (hunder : a.Under owner id) (hrun : a.pushFunction id info = (.ok child, b)) {other : ScopeId}
    {scope : Scope} {found : FunctionInfo} (hs : b.scope? other = some scope)
    (hkind : scope.kind = .function found) : ∃ owner, b.Registers owner found.name other := by
  obtain ⟨-, hscopes⟩ := hunder.scope?_pushFunction hrun
  rw [hscopes] at hs
  split at hs
  · next hnew =>
    subst hnew
    cases hs
    cases hkind
    exact ⟨owner, (hunder.pushFunction hrun).2.2⟩
  have hwas : ∃ old, a.scope? other = some old ∧ old.kind = .function found := by
    split at hs
    · obtain ⟨old, hold, rfl⟩ := Option.map_eq_some_iff.mp hs
      exact ⟨old, hold, hkind⟩
    · exact ⟨scope, hs, hkind⟩
  obtain ⟨old, hold, hkind'⟩ := hwas
  obtain ⟨holder, hentry⟩ := h.registered other old found hold hkind'
  exact ⟨holder, registers_pushFunction hunder hrun hentry⟩

theorem pushFunction (h : a.Lawful) (hid : a.Issued id) {info : FunctionInfo}
    (hfields : info.knownFields = []) : (a.pushFunction id info).2.Lawful := by
  obtain ⟨owner, hunder⟩ := h.exists_under hid
  rcases hrun : a.pushFunction id info with ⟨e | child, b⟩
  · rcases a.pushFunction_cases id info with ⟨hrefused, -⟩ | ⟨hdone, -⟩
    · rw [hrefused] at hrun
      cases hrun
      exact h
    · rw [hdone] at hrun
      cases hrun
  · obtain ⟨hmade, -, -⟩ := hunder.pushFunction hrun
    refine ⟨ordered_pushFunction h.ordered hunder hrun,
      fun _ _ hs => h.regular_pushFunction hunder hrun hfields hs, fun other key found hentry => ?_,
      fun _ _ _ hs hkind => h.registered_pushFunction hunder hrun hs hkind⟩
    rcases (hunder.others_pushFunction hrun).1 hentry with hold | ⟨rfl, rfl, rfl⟩
    · exact (h.entries other key found hold).retains (retains_of_pushFunction hrun)
    · exact hmade

/-- The chain of a scope goes on to a file. -/
theorem chain_ends (h : a.Lawful) (hid : a.Issued id) :
    ∃ root scope prototypes, (a.chain id).getLast? = some (root, scope) ∧ scope.parent = none ∧
      scope.kind = .file prototypes := by
  obtain ⟨index⟩ := id
  induction index using Nat.strongRecOn with
  | _ index ih =>
    obtain ⟨scope, hs⟩ := scope?_of_lt hid
    rw [h.ordered.chain_eq hs]
    cases hp : scope.parent with
    | none =>
      obtain ⟨prototypes, hfile⟩ := (h.regular _ scope hs).outermost hp
      exact ⟨⟨index⟩, scope, prototypes, rfl, hp, hfile⟩
    | some parent =>
      have hlt : parent.index < index := h.ordered _ scope parent hs hp
      obtain ⟨root, last, prototypes, hlast, hlast'⟩ := ih parent.index hlt (Nat.lt_trans hlt hid)
      refine ⟨root, last, prototypes, ?_, hlast'⟩
      rw [Option.map_some, Option.getD_some, List.getLast?_cons, hlast]
      rfl

/-- A function scope has one entry, with the file or function that it belongs to. -/
theorem registers_iff (h : a.Lawful) {scope : Scope} {info : FunctionInfo}
    (hs : a.scope? id = some scope) (hkind : scope.kind = .function info) :
    ∃ parent owner, scope.parent = some parent ∧ a.Under owner parent ∧
      ∀ other key, a.Registers other key id ↔ other = owner ∧ key = info.name := by
  have hmade : ∀ other key, a.Registers other key id →
      key = info.name ∧ ∃ parent, scope.parent = some parent ∧ a.Under other parent := by
    intro other key hentry
    obtain ⟨found, info', parent, hfound, hkind', hname, hp, hunder⟩ := h.entries other key id hentry
    rw [hs] at hfound
    cases hfound
    rw [hkind] at hkind'
    cases hkind'
    exact ⟨hname.symm, parent, hp, hunder⟩
  obtain ⟨owner, hentry⟩ := h.registered id scope info hs hkind
  obtain ⟨-, parent, hp, hunder⟩ := hmade owner _ hentry
  refine ⟨parent, owner, hp, hunder, fun other key => ⟨fun hother => ?_, ?_⟩⟩
  · obtain ⟨hname, parent', hp', hunder'⟩ := hmade other key hother
    rw [hp] at hp'
    cases hp'
    exact ⟨hunder'.owner_eq.symm.trans hunder.owner_eq, hname⟩
  · rintro ⟨rfl, rfl⟩
    exact hentry

end Lawful

theorem Operation.lawful (h : a.Lawful) (op : Operation) (hproper : op.Proper a) :
    (op.run a).2.Lawful := by
  have hr : a.Retains (op.run a).2 := Attempt.retains ⟨op, rfl⟩
  cases op with
  | pushFile => exact h.of_plainly hr (.pushFile a)
  | pushBranch parent => exact h.of_plainly hr (.pushBranch hproper)
  | pushFunction parent info => exact h.pushFunction hproper.1 hproper.2
  | addVar id name type => exact h.of_plainly hr (.addVar name type)
  | forceUpdateVar id name type => exact h.of_plainly hr (.forceUpdateVar name type)
  | restrict id name type => exact h.of_plainly hr (.restrict name type)
  | addFunction id name node =>
    obtain ⟨owner, hunder⟩ := h.exists_under hproper
    exact h.of_plainly hr (.addFunction hunder name node)
  | updateFunction id name type => exact h.of_plainly hr (.updateFunction name type)
  | addPrototypeField id constructor field type =>
    exact h.of_plainly hr (.addPrototypeField constructor field type)
  | addKnownField id field => exact h.of_plainly hr (.addKnownField field)
  | markReturnType id type span => exact h.of_plainly hr (.modifyFunction (fun _ => rfl) fun _ h => h)
  | enterReturn id expected => exact h.of_plainly hr (.modifyFunction (fun _ => rfl) fun _ h => h)
  | exitReturn id => exact h.of_plainly hr (.modifyFunction (fun _ => rfl) fun _ h => h)

theorem Built.lawful (h : Built a) : a.Lawful := by
  induction h with
  | empty => exact .empty
  | step _ op hproper ih => exact op.lawful ih hproper

/-- In all arenas that operations build, scopes are in order, chains end in files, and each function
has one entry, with the file or function around it. -/
theorem built_lawful {a : Arena} (h : Built a) :
    a.Lawful ∧
      (∀ id, a.Issued id → ∃ root scope prototypes, (a.chain id).getLast? = some (root, scope) ∧
        scope.parent = none ∧ scope.kind = .file prototypes) ∧
      ∀ id scope info, a.scope? id = some scope → scope.kind = .function info →
        ∃ parent owner, scope.parent = some parent ∧ a.Under owner parent ∧
          ∀ other key, a.Registers other key id ↔ other = owner ∧ key = info.name :=
  ⟨h.lawful, fun _ hid => h.lawful.chain_ends hid, fun _ _ _ hs hkind =>
    h.lawful.registers_iff hs hkind⟩

/-- A branch in a file, and a function in the branch. Its second scope is refused. -/
def branchedFunction : Arena :=
  let info : FunctionInfo := { name := "f", funcType := .any, isConstructor := false }
  [.pushFile, .pushBranch ⟨0⟩, .pushFunction ⟨1⟩ info, .pushFunction ⟨0⟩ info].foldl
    (fun a (op : Operation) => (op.run a).2) {}

/-- The entry of the function is with the file. -/
theorem built_lawful_branchedFunction :
    branchedFunction.Lawful ∧ branchedFunction.size = 3 ∧
      ∀ other key, branchedFunction.Registers other key ⟨2⟩ ↔ other = ⟨0⟩ ∧ key = "f" := by
  have hbuilt : Built branchedFunction :=
    .step (.step (.step (.step .empty .pushFile trivial) (.pushBranch ⟨0⟩) Nat.one_pos)
      (.pushFunction ⟨1⟩ _) ⟨Nat.one_lt_two, rfl⟩) (.pushFunction ⟨0⟩ _) ⟨Nat.succ_pos 2, rfl⟩
  obtain ⟨hlawful, -, hentry⟩ := built_lawful hbuilt
  obtain ⟨parent, owner, hp, hunder, hiff⟩ := hentry ⟨2⟩ _ _ rfl rfl
  cases hp
  obtain rfl : ⟨0⟩ = owner := hunder.owner_eq
  exact ⟨hlawful, rfl, hiff⟩

end HeaderCheck.Scope.Arena
