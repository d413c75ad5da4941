import HeaderCheck.Proofs.Verify.Fields

/-!
# HeaderCheck.Proofs.Verify.Layout

The order in which a constructor assigns the fields of its object.

* `misplacedField?_eq_none_iff`, `misplacedField?_eq_some`: declared fields are compared with the known ones
  position by position, exempt ones among them.
* `misplacedField?_of_exemptLast`: where exempt fields come last, the others are compared as if these
  were not there.
* `run_verifyConstructor`: what a constructor does, up to the checks of its body.
* `assigned_field_noted`: a field that is assigned through `this` is noted as the last one, if it is new.
* `knownFields_of_enterBody`: no field that the body does not assign becomes known.
* `constructor_fields_checked`: what is reported of the fields of a constructor.
-/

namespace HeaderCheck.Verify

open HeaderCheck.Project (SessionM)
open HeaderCheck.Report (Diagnostic Kind)
open HeaderCheck.Scope (Arena FunctionInfo ScopeId isConstructorName noteField)
open HeaderCheck.Scope.Arena (Attempt)
open HeaderCheck.Script
open HeaderCheck.Types (FunctionShape ObjectShape Param Table TypeId)
open Relation (ReflTransGen)

/-! ## Lists of fields -/

section Fields

variable {exempt : String → Bool} {declared known : List String} {field : String}

/-- Each declared field is exempt, or known at the position at which it is declared. -/
def Placed (exempt : String → Bool) (declared known : List String) : Prop :=
  ∀ (i : Nat) (field : String), declared[i]? = some field → exempt field = true ∨ known[i]? = some field

theorem placed_nil (exempt : String → Bool) (known : List String) : Placed exempt [] known := by
  intro i field h
  rw [List.getElem?_nil] at h
  cases h

theorem placed_cons : Placed exempt (field :: declared) known ↔
    (known.head? = some field ∨ exempt field = true) ∧ Placed exempt declared known.tail := by
  constructor
  · intro h
    refine ⟨?_, fun i other hi => ?_⟩
    · rw [List.head?_eq_getElem?]
      exact (h 0 field rfl).symm
    · rw [List.getElem?_tail]
      exact h (i + 1) other hi
  · rintro ⟨hhead, htail⟩ i other hi
    cases i with
    | zero =>
      cases hi
      rw [← List.head?_eq_getElem?]
      exact hhead.symm
    | succ i =>
      rw [← List.getElem?_tail]
      exact htail i other hi

theorem misplacedField?_eq_none_iff :
    misplacedField? exempt declared known = none ↔ Placed exempt declared known := by
  induction declared generalizing known with
  | nil => simp [misplacedField?, placed_nil]
  | cons field declared ih =>
    rw [misplacedField?, placed_cons, ← ih]
    split
    · next h => simp_all
    · next h => simp_all

/-- The first field that is not at its place is named, with what is known there. -/
theorem misplacedField?_eq_some {other : Option String}
    (h : misplacedField? exempt declared known = some (field, other)) :
    ∃ i, declared[i]? = some field ∧ exempt field = false ∧ known[i]? = other ∧ other ≠ some field ∧
      Placed exempt (declared.take i) known := by
  induction declared generalizing known with
  | nil => cases h
  | cons first declared ih =>
    rw [misplacedField?] at h
    split at h
    · next hfirst =>
      obtain ⟨i, hfield, hexempt, hother, hne, hbefore⟩ := ih h
      rw [List.getElem?_tail] at hother
      exact ⟨i + 1, hfield, hexempt, hother, hne, placed_cons.mpr ⟨by simpa using hfirst, hbefore⟩⟩
    · next hfirst =>
      cases h
      simp only [Bool.or_eq_true, decide_eq_true_eq, not_or, Bool.not_eq_true] at hfirst
      exact ⟨0, rfl, hfirst.2, List.head?_eq_getElem?.symm, hfirst.1, placed_nil _ _⟩

/-- The fields that are not exempt. -/
def ordinary (exempt : String → Bool) (fields : List String) : List String :=
  fields.filter fun field => !exempt field

/-- Exempt fields come after all others. -/
def ExemptLast (exempt : String → Bool) (fields : List String) : Prop :=
  fields.Pairwise fun field later => exempt field = true → exempt later = true

/-- The first of the expected fields that is not found at the same position. -/
def MissesFirst (expected found : List String) (field : String) : Prop :=
  ∃ before after, expected = before ++ field :: after ∧ before <+: found ∧ ¬before ++ [field] <+: found

theorem MissesFirst.cons {expected found : List String} (first : String)
    (h : MissesFirst expected found field) : MissesFirst (first :: expected) (first :: found) field := by
  obtain ⟨before, after, rfl, hbefore, hfield⟩ := h
  exact ⟨first :: before, after, rfl, (List.prefix_cons_inj first).mpr hbefore,
    fun h => hfield ((List.prefix_cons_inj first).mp h)⟩

theorem missesFirst_head {expected found : List String} (h : ¬[field] <+: found) :
    MissesFirst (field :: expected) found field :=
  ⟨[], expected, rfl, List.nil_prefix, h⟩

/-- A field that is not exempt does not come first among such fields if it does not so among all. -/
theorem not_prefix_ordinary (hk : ExemptLast exempt known) (hexempt : exempt field = false)
    (hhead : known.head? ≠ some field) : ¬[field] <+: ordinary exempt known := by
  cases known with
  | nil => simp [ordinary]
  | cons other rest =>
    have hne : field ≠ other := fun he => hhead (he ▸ rfl)
    intro hfits
    cases hother : exempt other with
    | true =>
      obtain ⟨hmem, -⟩ := List.mem_filter.mp (hfits.subset (List.mem_singleton_self field))
      have hlater := (List.pairwise_cons.mp hk).1 field ((List.mem_cons.mp hmem).resolve_left hne) hother
      rw [hexempt] at hlater
      cases hlater
    | false =>
      rw [ordinary, List.filter_cons_of_pos (by simp [hother])] at hfits
      exact hne (List.cons_prefix_cons.mp hfits).1

/-- Where exempt fields come last, the others are compared as if these were not there. -/
theorem misplacedField?_of_exemptLast (hd : ExemptLast exempt declared) (hk : ExemptLast exempt known) :
    (ordinary exempt declared <+: ordinary exempt known → misplacedField? exempt declared known = none) ∧
      (¬ordinary exempt declared <+: ordinary exempt known → ∃ field other,
        misplacedField? exempt declared known = some (field, other) ∧
          MissesFirst (ordinary exempt declared) (ordinary exempt known) field) := by
  induction declared generalizing known with
  | nil => exact ⟨fun _ => rfl, fun h => absurd List.nil_prefix h⟩
  | cons field declared ih =>
    obtain ⟨hlater, hd⟩ := List.pairwise_cons.mp hd
    cases hexempt : exempt field with
    | true =>
      -- nothing but exempt fields is left
      have hall : ∀ later ∈ field :: declared, exempt later = true :=
        List.forall_mem_cons.mpr ⟨hexempt, fun later hmem => hlater later hmem hexempt⟩
      have hnone : ordinary exempt (field :: declared) = [] :=
        List.filter_eq_nil_iff.mpr fun later hmem => by simp [hall later hmem]
      rw [hnone]
      refine ⟨fun _ => misplacedField?_eq_none_iff.mpr fun i later hi => ?_, fun h => absurd List.nil_prefix h⟩
      exact .inl (hall later (List.mem_of_getElem? hi))
    | false =>
      have hfirst : ordinary exempt (field :: declared) = field :: ordinary exempt declared :=
        List.filter_cons_of_pos (by simp [hexempt])
      rw [hfirst, misplacedField?]
      by_cases hhead : known.head? = some field
      · obtain ⟨rest, rfl⟩ : ∃ rest, known = field :: rest := ⟨_, (List.cons_head?_tail hhead).symm⟩
        have hknown : ordinary exempt (field :: rest) = field :: ordinary exempt rest :=
          List.filter_cons_of_pos (by simp [hexempt])
        obtain ⟨hright, hwrong⟩ := ih hd (List.pairwise_cons.mp hk).2
        rw [hknown, if_pos (by simp), List.tail_cons, List.prefix_cons_inj]
        refine ⟨hright, fun hno => ?_⟩
        obtain ⟨found, other, hfound, hmisses⟩ := hwrong hno
        exact ⟨found, other, hfound, hmisses.cons field⟩
      · have hno := not_prefix_ordinary hk hexempt hhead
        rw [if_neg (by simp [hhead, hexempt])]
        refine ⟨fun h => absurd ((List.prefix_append [field] _).trans h) hno, fun _ => ?_⟩
        exact ⟨field, _, rfl, missesFirst_head hno⟩

end Fields

/-! ## What is reported of a body -/

section Body

/-- The field is one of the prototype of the constructor. -/
def State.exempts (s : State) (constructor field : String) : Bool :=
  (s.arena.prototypeFields? s.focus.scope constructor).any fun fields => fields.contains field

/-- The state with further diagnostics. -/
def State.reporting (s : State) (diagnostics : List Diagnostic) : State :=
  { s with diagnostics := s.diagnostics ++ diagnostics }

theorem State.reporting_nil (s : State) : s.reporting [] = s := by
  rw [State.reporting, List.append_nil]

/-- Nothing is reported if all is right, and otherwise one field that is missed, and this once. -/
def ReportsFirst (found : List Diagnostic) (right : Prop) (missed : String → Prop) : Prop :=
  (right → found = []) ∧ (¬right → ∃ field d, missed field ∧ found = [d] ∧
    d.kind = .missingFieldInConstructor ∧ d.field? "fieldName" = some field)

/-- What is reported where the fields `known` have been assigned and the fields `declared` should have. -/
structure FieldsReported (found : List Diagnostic) (exempt : String → Bool) (declared known : List String) :
    Prop where
  /-- All fields count for the positions. -/
  placed : ReportsFirst found (Placed exempt declared known) fun field =>
    ∃ i : Nat, declared[i]? = some field ∧ exempt field = false ∧ known[i]? ≠ some field ∧
      Placed exempt (declared.take i) known
  /-- Where exempt fields come last, only the others count. -/
  settled : ExemptLast exempt declared → ExemptLast exempt known →
    ReportsFirst found (ordinary exempt declared <+: ordinary exempt known)
      (MissesFirst (ordinary exempt declared) (ordinary exempt known))

theorem fieldsReported_none {exempt : String → Bool} {declared known : List String}
    (h : misplacedField? exempt declared known = none) : FieldsReported [] exempt declared known where
  placed := ⟨fun _ => rfl, fun hno => absurd (misplacedField?_eq_none_iff.mp h) hno⟩
  settled := by
    refine fun hd hk => ⟨fun _ => rfl, fun hno => ?_⟩
    obtain ⟨field, other, hsome, -⟩ := (misplacedField?_of_exemptLast hd hk).2 hno
    cases h.symm.trans hsome

theorem fieldsReported_some {exempt : String → Bool} {declared known : List String} {field : String}
    {other : Option String} {d : Diagnostic}
    (h : misplacedField? exempt declared known = some (field, other))
    (hkind : d.kind = .missingFieldInConstructor) (hfield : d.field? "fieldName" = some field) :
    FieldsReported [d] exempt declared known where
  placed := by
    refine ⟨fun hright => ?_, fun _ => ?_⟩
    · cases h.symm.trans (misplacedField?_eq_none_iff.mpr hright)
    · obtain ⟨i, hi, hexempt, rfl, hother, hbefore⟩ := misplacedField?_eq_some h
      exact ⟨field, d, ⟨i, hi, hexempt, hother, hbefore⟩, rfl, hkind, hfield⟩
  settled := by
    refine fun hd hk => ⟨fun hright => ?_, fun hno => ?_⟩
    · cases h.symm.trans ((misplacedField?_of_exemptLast hd hk).1 hright)
    · obtain ⟨missed, other', hsome, hmisses⟩ := (misplacedField?_of_exemptLast hd hk).2 hno
      cases h.symm.trans hsome
      exact ⟨field, d, hmisses, rfl, hkind, hfield⟩

/-- At most one field is reported. -/
theorem run_checkFieldOrder (s : State) (f : Function) (info : FunctionInfo) :
    ∃ found, (checkFieldOrder f info).run s = (.ok (), s.reporting found) ∧
      ∀ object, info.thisType.bind s.table.objectShape? = some object →
        FieldsReported found (s.exempts f.name) (object.fields.map fun field => field.name)
          info.knownFields := by
  rw [checkFieldOrder, run_get_bind]
  split
  · next hnone =>
    refine ⟨[], by rw [State.reporting_nil]; rfl, fun object hobject => ?_⟩
    cases hnone.symm.trans hobject
  next object hobject =>
  simp only
  split
  · next h =>
    refine ⟨[], by rw [State.reporting_nil]; rfl, fun _ hsame => ?_⟩
    cases hobject.symm.trans hsame
    exact fieldsReported_none h
  · next field other h =>
    refine ⟨_, rfl, fun _ hsame => ?_⟩
    cases hobject.symm.trans hsame
    exact fieldsReported_some h rfl rfl

/-- A return statement in a constructor is reported as such. -/
theorem run_checkConstructorReturn (s : State) (f : Function) (info : FunctionInfo) :
    ∃ returned, (checkConstructorReturn f info).run s = (.ok (), s.reporting returned) ∧
      ∀ d ∈ returned, d.kind ≠ .missingFieldInConstructor := by
  rw [checkConstructorReturn]
  split
  · exact ⟨[], by rw [State.reporting_nil]; rfl, List.forall_mem_nil _⟩
  simp only
  split
  · have hkind : Kind.returnStatementInConstructor ≠ .missingFieldInConstructor := by decide
    exact ⟨_, rfl, List.forall_mem_singleton.mpr hkind⟩
  · have hkind : Kind.nonVoidReturnInConstructor ≠ .missingFieldInConstructor := by decide
    exact ⟨_, rfl, List.forall_mem_singleton.mpr hkind⟩

end Body

/-! ## Constructors -/

section Constructors

variable {v : Visitor} {s s' : State} {f : Function} {declared : TypeId} {key : String}
  {shape : FunctionShape} {id : ScopeId} {info : FunctionInfo}

/-- Parameters leave a function as it is. -/
theorem isFunction_of_bindParams {scope : ScopeId} {params : List (Identifier × Param)}
    (h : s.arena.IsFunction id info) (hrun : (bindParams scope params).run s = (.ok (), s')) :
    s'.arena.IsFunction id info := by
  induction params generalizing s with
  | nil =>
    cases hrun
    exact h
  | cons param rest ih =>
    have hbound : ∀ {u : State} {type : TypeId}, u.arena.IsFunction id info →
        (do onArena fun a => a.addVar scope param.1.name type
            bindParams scope rest : Check Unit).run u = (.ok (), s') → s'.arena.IsFunction id info := by
      intro u type hu hrun
      obtain ⟨⟨⟩, u', hadd, hrest⟩ := ok_of_run_bind hrun
      refine ih ?_ hrest
      rw [run_onArena] at hadd
      rcases u.arena.addVar_cases scope param.1.name type with hcase | hcase <;> rw [hcase] at hadd <;>
        cases hadd
      exact hu.modify_names fun _ => rfl
    rw [bindParams] at hrun
    split at hrun
    · obtain ⟨type, u, htype, hrest⟩ := ok_of_run_bind hrun
      rw [run_onTable] at htype
      obtain ⟨-, rfl⟩ := Prod.mk.inj htype
      exact hbound (u := s.withTable (s.table.union2 param.2.type .undefined).2) h hrest
    · exact hbound h hrun

/-- What a constructor does up to the checks of its body. -/
theorem run_verifyConstructor (hv : v.Frames Contract.none)
    (hshape : s.table.functionShape? declared = some shape) (hname : isConstructorName f.name = true)
    (harity : f.params.length = shape.params.length)
    (hrun : (verifyFunction v f declared key).run s = (.ok (), s')) :
    ∃ s₀ s₁ start info, s₀.arena.IsFunction ⟨s.arena.size⟩ start ∧ start.knownFields = [] ∧
      start.isConstructor = true ∧ start.thisType = shape.this ∧
      (enterBody v f ⟨s.arena.size⟩).run s₀ = (.ok (), s₁) ∧ s₁.arena.IsFunction ⟨s.arena.size⟩ info ∧ start.Kept info ∧
      (do checkFieldOrder f info; checkConstructorReturn f info : Check Unit).run s₁ = (.ok (), s') := by
  rw [verifyFunction, run_get_bind, hshape] at hrun
  obtain ⟨scope, u, hpush, hrest⟩ := ok_of_run_bind hrun
  let start : FunctionInfo :=
    { name := key, thisType := shape.this, returnType := shape.result, funcType := declared,
      isConstructor := isConstructorName f.name }
  have hstart : scope = ⟨s.arena.size⟩ ∧ u.arena.IsFunction ⟨s.arena.size⟩ start := run_pushFunction hpush
  obtain ⟨rfl, hstart⟩ := hstart
  simp only [harity, ne_eq, not_true, if_false] at hrest
  obtain ⟨⟨⟩, s₀, hparams, hrest⟩ := ok_of_run_bind hrest
  obtain ⟨⟨⟩, s₁, hbody, hrest⟩ := ok_of_run_bind hrest
  have hstart₀ := isFunction_of_bindParams hstart hparams
  have hframed := frames_enterBody hv f ⟨s.arena.size⟩ s₀
  rw [hbody] at hframed
  obtain ⟨info, hinfo, hkept⟩ := Arena.keepsFunctions_of_attempts hframed.attempts _ _ hstart₀
  have hchecks : (checkBody f info).run s₁ = (.ok (), s') := by
    simpa only [run_get_bind, (hinfo.under.nearest_function hinfo).2] using hrest
  rw [checkBody, if_pos (hkept.isConstructor.trans hname)] at hchecks
  exact ⟨s₀, s₁, start, info, hstart₀, rfl, hname, rfl, hbody, hinfo, hkept, hchecks⟩

/-- A field of the object that a constructor makes is noted. -/
theorem run_recordField_this (field : Identifier) (here place : Span) (value : TypeId)
    (hunder : s.arena.Under id s.focus.scope) (hinfo : s.arena.IsFunction id info)
    (hconstructor : info.isConstructor = true) :
    ∃ b, (recordField ⟨.this here, .identifier field, false, place⟩ value).run s =
        (.ok (), { s with arena := b }) ∧
      b.IsFunction id { info with knownFields := noteField info.knownFields field.name } := by
  obtain ⟨hscope, hnearest⟩ := hunder.nearest_function hinfo
  obtain ⟨b, hadd, hnoted⟩ := Arena.addKnownField_ok hscope hinfo field.name
  refine ⟨b, ?_, hnoted⟩
  have hname : Access.name? ⟨.this here, .identifier field, false, place⟩ = some field.name := rfl
  rw [recordField, run_get_bind]
  simp only [hname, Expr.isThis, if_true, hnearest, Option.any_some, hconstructor]
  rw [run_onArena, hadd]
  rfl

/-- A field that is assigned through `this` is noted as the last one, unless it was known. -/
theorem assigned_field_noted (hv : v.Frames Contract.none) {right : Expr} {field : Identifier}
    {here place span : Span} {type value : TypeId} {s₁ : State}
    (hunder : s.arena.Under id s.focus.scope) (hinfo : s.arena.IsFunction id info)
    (hconstructor : info.isConstructor = true)
    (htarget : (asTarget (v.expr (.member (.this here) (.identifier field) false place))).run s =
      (.ok (some type), s₁))
    (hdeclared : type ≠ .moduleExports ∧ type ≠ .openField)
    (hrun : (verifyAssignment v "=" (.member (.this here) (.identifier field) false place) right span).run s =
      (.ok (some value), s')) :
    ∃ before, info.Kept before ∧ s'.arena.IsFunction id
      { before with knownFields := noteField before.knownFields field.name } := by
  let left : Expr := .member (.this here) (.identifier field) false place
  rw [verifyAssignment, if_neg (by decide), run_bind_ok htarget] at hrun
  have hchecked : (assignChecked v left type right).run s₁ = (.ok (some value), s') := by
    have hgrowing : growingName? left type = none := by
      simp only [growingName?, left, Expr.identifier?, Option.map_none, ite_self]
    have haccess : growingAccess? left type = none := if_neg hdeclared.2
    have hassign : (assignTo v left type right).run s₁ = (.ok (some value), s') := hrun
    simpa only [assignTo, if_neg hdeclared.1, hgrowing, haccess] using hassign
  obtain ⟨expected, s₂, hexpected, hrest⟩ := ok_of_run_bind hchecked
  obtain ⟨result, s₃, hinto, hrest⟩ := ok_of_run_bind hrest
  cases result with
  | none => cases hrest
  | some result =>
  obtain ⟨fits, s₄, hfits, hrest⟩ := ok_of_run_bind hrest
  obtain ⟨⟨⟩, s₅, hrecord, hdone⟩ := ok_of_run_bind hrest
  cases hdone
  have hframed : Framed Contract.none s ((.ok fits, s₄) : Except Project.Error Bool × State) := by
    have hfirst : Framed Contract.none s ((asTarget (v.expr left)).run s) :=
      frames_withFocus (hv.expr left) s
    have hsecond : Framed Contract.none s₁ ((targetType left type right).run s₁) :=
      (notes_targetType left type right).frames s₁
    have hthird := hv.into right (some expected) s₂
    have hfourth : Framed Contract.none s₃ ((checkFits right.span expected value).run s₃) :=
      notes_checkFits.frames s₃
    rw [htarget] at hfirst
    rw [hexpected] at hsecond
    rw [hinto] at hthird
    rw [hfits] at hfourth
    exact ((hfirst.trans hsecond).trans hthird).trans hfourth
  obtain ⟨before, hbefore, hkept⟩ := Arena.keepsFunctions_of_attempts hframed.attempts _ _ hinfo
  have hunder' : s₄.arena.Under id s₄.focus.scope :=
    hframed.focus ▸ hunder.retains (Arena.retains_of_attempts hframed.attempts)
  obtain ⟨b, hnote, hnoted⟩ := run_recordField_this field here place value hunder' hbefore
    (hkept.isConstructor.trans hconstructor)
  have hnote' : (recordAssigned left value).run s₄ = (.ok (), { s₄ with arena := b }) := hnote
  rw [hnote'] at hrecord
  cases hrecord
  exact ⟨before, hkept, hnoted⟩

/-- The fields that are assigned through `this` from one arena to another are known in the order of their
first assignments. Those that an open object gets in this way are not among the known ones. -/
def NotesAssigned (v : Visitor) (id : ScopeId) (a b : Arena) (known : List String) : Prop :=
  ∀ (u u₁ u' : State) (field : Identifier) (right : Expr) (here place span : Span) (type value : TypeId),
    ReflTransGen Attempt a u.arena → u.arena.Under id u.focus.scope →
    (asTarget (v.expr (.member (.this here) (.identifier field) false place))).run u = (.ok (some type), u₁) →
    type ≠ .moduleExports → type ≠ .openField →
    (verifyAssignment v "=" (.member (.this here) (.identifier field) false place) right span).run u =
      (.ok (some value), u') →
    ReflTransGen Attempt u'.arena b →
    ∃ earlier, (∀ info, u.arena.IsFunction id info → info.knownFields <+: earlier) ∧
      noteField earlier field.name <+: known

theorem notesAssigned_of_isFunction (hv : v.Frames Contract.none) {a b : Arena} {start : FunctionInfo}
    (hstart : a.IsFunction id start) (hconstructor : start.isConstructor = true)
    (hinfo : b.IsFunction id info) : NotesAssigned v id a b info.knownFields := by
  intro u u₁ u' field right here place span type value hto hunder htarget hexports hopen hrun hfrom
  obtain ⟨now, hnow, hkept⟩ := Arena.keepsFunctions_of_attempts hto _ _ hstart
  obtain ⟨before, hbefore, hnoted⟩ := assigned_field_noted hv hunder hnow
    (hkept.isConstructor.trans hconstructor) htarget ⟨hexports, hopen⟩ hrun
  obtain ⟨last, hlast, hkept'⟩ := Arena.keepsFunctions_of_attempts hfrom _ _ hnoted
  cases hlast.unique hinfo
  refine ⟨before.knownFields, fun other hother => ?_, hkept'.knownFields⟩
  cases hother.unique hnow
  exact hbefore.knownFields

/-- A body makes known only fields that it assigns itself. -/
theorem knownFields_of_enterBody {require : (file request : String) → SessionM Required} {fuel : Nat}
    {start : FunctionInfo} {s₁ : State} (hstart : s.arena.IsFunction id start) (hnone : start.knownFields = [])
    (hbody : (enterBody (visitor require fuel) f id).run s = (.ok (), s₁))
    (hinfo : s₁.arena.IsFunction id info) : info.knownFields ⊆ assignsOf f.body := by
  have hlearns : s.Learns (fun _ field => field ∈ assignsOf f.body) s₁ :=
    learns_enterBody (learns_visitor require fuel) f hstart.under (fun _ hfield => hfield) () s₁ hbody
  obtain ⟨after, hafter, hknown⟩ := hlearns.fields id start hstart
  cases hafter.unique hinfo
  intro field hfield
  exact (hknown field hfield).resolve_left (by simp [hnone])

/-- What is reported of the fields of a constructor once its body has been verified: one field at most,
and the first that is missed. The known fields are such as the body assigns through `this`. -/
theorem constructor_fields_checked {require : (file request : String) → SessionM Required} {fuel : Nat}
    {this : TypeId} {object : ObjectShape} (hshape : s.table.functionShape? declared = some shape)
    (hname : isConstructorName f.name = true) (harity : f.params.length = shape.params.length)
    (hthis : shape.this = some this) (hobject : s'.table.objectShape? this = some object)
    (hrun : (verifyFunction (visitor require fuel) f declared key).run s = (.ok (), s')) :
    ∃ s₀ s₁ start info found returned,
      s₀.arena.IsFunction ⟨s.arena.size⟩ start ∧ start.knownFields = [] ∧
      (enterBody (visitor require fuel) f ⟨s.arena.size⟩).run s₀ = (.ok (), s₁) ∧
      s₁.arena.IsFunction ⟨s.arena.size⟩ info ∧ s'.arena = s₁.arena ∧
      NotesAssigned (visitor require fuel) ⟨s.arena.size⟩ s₀.arena s₁.arena info.knownFields ∧
      info.knownFields ⊆ assignsOf f.body ∧
      s'.diagnostics = s₁.diagnostics ++ found ++ returned ∧
      (∀ d ∈ returned, d.kind ≠ .missingFieldInConstructor) ∧
      FieldsReported found (s'.exempts f.name) (object.fields.map fun field => field.name)
        info.knownFields := by
  have hv := frames_visitor (Contract.binds_none require) fuel
  obtain ⟨s₀, s₁, start, info, hstart, hnone, hconstructor, hsame, hbody, hinfo, hkept, hchecks⟩ :=
    run_verifyConstructor hv hshape hname harity hrun
  obtain ⟨found, horder, hreported⟩ := run_checkFieldOrder s₁ f info
  obtain ⟨returned, hreturn, hother⟩ := run_checkConstructorReturn (s₁.reporting found) f info
  rw [run_bind_ok horder, hreturn] at hchecks
  cases hchecks
  have hthis' : info.thisType = some this := hkept.thisType.trans (hsame.trans hthis)
  have hnotes := notesAssigned_of_isFunction hv hstart hconstructor hinfo
  have hassigned := knownFields_of_enterBody hstart hnone hbody hinfo
  refine ⟨s₀, s₁, start, info, found, returned, hstart, hnone, hbody, hinfo, rfl, hnotes, hassigned, rfl,
    hother, ?_⟩
  exact hreported object (by rw [hthis']; exact hobject)

end Constructors

end HeaderCheck.Verify
