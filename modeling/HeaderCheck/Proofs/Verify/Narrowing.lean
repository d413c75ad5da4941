import HeaderCheck.Proofs.Scope.Narrowed
import HeaderCheck.Proofs.Types.Narrowing
import HeaderCheck.Proofs.Verify.Run

/-!
# HeaderCheck.Proofs.Verify.Narrowing

What a condition says about the values of variables.

* `Evaluates`: the outcome of a test for given values. Tests are built by `!`, `&&` and `||` from
  variables, guards of a variable and other expressions, whose outcome is left open.
* `narrow_run`: a condition only narrows types in its two arms, and never fails.
* `narrow_keeps_values`: in the arm that a test decides for, the value of each variable is still
  one of its type.
-/

namespace HeaderCheck.Verify

open HeaderCheck.Scope (Arena ScopeId)
open HeaderCheck.Script (Expr Identifier Literal)
open HeaderCheck.Types (Table TypeId Value)
open HeaderCheck.Types.Table (Growing Narrows)

/-! ## Tests and their outcomes -/

/-- `left === right` compares one variable with what its values may be, and holds as the last
argument says. -/
inductive Guard (values : String → Value) : (left right : Expr) → Bool → Prop where
  | typeof {id : Identifier} {isPrefix : Bool} {span : Span} {literal : Literal} {tag : String} :
    literal.kind = .string → literal.string? = some tag →
      Guard values (.unary "typeof" (.identifier id) isPrefix span) (.literal literal)
        (decide ((values id.name).typeof = tag))
  | null {id : Identifier} {literal : Literal} :
    literal.kind = .null →
      Guard values (.identifier id) (.literal literal) (decide (values id.name = .null))
  | undefined {id other : Identifier} :
    other.name = "undefined" → values "undefined" = .undefined →
      Guard values (.identifier id) (.identifier other) (decide (values id.name = .undefined))
  | swap {left right : Expr} {outcome : Bool} :
    Guard values left right outcome → Guard values right left outcome

/-- A part of a test that is neither taken apart nor a guard. -/
def IsAtom : Expr → Prop
  | .identifier _ => False
  | .unary operator _ _ _ => operator ≠ "!"
  | .logical operator _ _ _ => operator ≠ "&&" ∧ operator ≠ "||"
  | .binary operator left right _ =>
    comparison? operator = none ∨
      eitherOrder typeofOperand? stringLiteral? left right = none ∧
        eitherOrder guarded? nullish? left right = none
  | _ => True

/-- The outcome of a test for given values of the variables. -/
inductive Evaluates (values : String → Value) : Expr → Bool → Prop where
  | identifier {id : Identifier} : Evaluates values (.identifier id) (values id.name).truthy
  | not {argument : Expr} {outcome isPrefix : Bool} {span : Span} :
    Evaluates values argument outcome → Evaluates values (.unary "!" argument isPrefix span) !outcome
  | andLeft {left right : Expr} {span : Span} :
    Evaluates values left false → Evaluates values (.logical "&&" left right span) false
  | andRight {left right : Expr} {outcome : Bool} {span : Span} :
    Evaluates values left true → Evaluates values right outcome →
      Evaluates values (.logical "&&" left right span) outcome
  | orLeft {left right : Expr} {span : Span} :
    Evaluates values left true → Evaluates values (.logical "||" left right span) true
  | orRight {left right : Expr} {outcome : Bool} {span : Span} :
    Evaluates values left false → Evaluates values right outcome →
      Evaluates values (.logical "||" left right span) outcome
  | same {left right : Expr} {outcome : Bool} {span : Span} :
    Guard values left right outcome → Evaluates values (.binary "===" left right span) outcome
  | different {left right : Expr} {outcome : Bool} {span : Span} :
    Guard values left right outcome → Evaluates values (.binary "!==" left right span) !outcome
  | atom {test : Expr} {outcome : Bool} : IsAtom test → Evaluates values test outcome

/-! ## States that differ by narrowed types -/

namespace State

/-- Only the narrowed types of `arms` differ, besides new types and new empty branches. -/
structure Narrowed (arms : List ScopeId) (s s' : State) : Prop where
  arena : s.arena.Narrowed s.focus.scope arms s'.arena
  table : s.table.Extends s'.table
  others : s' = { s.withTable s'.table with arena := s'.arena }

/-- A branch of the current scope. -/
def HasArm (s : State) (arm : ScopeId) : Prop :=
  ∃ scope, s.arena.scope? arm = some scope ∧ scope.parent = some s.focus.scope ∧
    scope.kind.isBranch

/-- The variable has a ground type in a scope, and `v` is one of its values. -/
def Describes (s : State) (admits : Value → TypeId → Prop) (scope : ScopeId) (name : String)
    (v : Value) : Prop :=
  ∃ type, s.typeIn scope name .normal = some type ∧ s.table.Ground type ∧
    s.table.Inhabits admits v type

namespace Narrowed

variable {arms : List ScopeId} {s s' s'' : State}

theorem refl (arms : List ScopeId) (s : State) : s.Narrowed arms s :=
  ⟨.refl _ arms s.arena, .refl s.table, rfl⟩

theorem focus_eq (h : s.Narrowed arms s') : s'.focus = s.focus := by
  rw [h.others]
  rfl

theorem globals_eq (h : s.Narrowed arms s') : s'.session.globals = s.session.globals := by
  rw [h.others]
  rfl

theorem trans {arms' : List ScopeId} (h : s.Narrowed arms s') (h' : s'.Narrowed arms' s'')
    (hsub : ∀ id ∈ arms', id ∈ arms ∨ s.arena.size ≤ id.index) : s.Narrowed arms s'' where
  arena := h.arena.trans (h.focus_eq ▸ h'.arena) hsub
  table := h.table.trans h'.table
  others := by
    rw [h'.others, h.others]
    rfl

theorem hasArm (h : s.Narrowed arms s') {arm : ScopeId} (ha : s.HasArm arm) : s'.HasArm arm := by
  obtain ⟨scope, hs, hp, hb⟩ := ha
  obtain ⟨scope', hs', hsame, _⟩ := h.arena.old arm scope hs
  exact ⟨scope', hs', by rw [hsame.parent, hp, h.focus_eq], by rw [hsame.isBranch_eq, hb]⟩

end Narrowed

/-- A branch is newer than the scope it is a branch of. -/
theorem HasArm.newer {s : State} {arm : ScopeId} (h : s.HasArm arm) (ho : s.arena.Ordered) :
    s.focus.scope.index < arm.index := by
  obtain ⟨scope, hs, hp, _⟩ := h
  exact ho arm scope s.focus.scope hs hp

theorem HasArm.focus_lt {s : State} {arm : ScopeId} (h : s.HasArm arm) (ho : s.arena.Ordered) :
    s.focus.scope.index < s.arena.size := by
  have hlt := h.newer ho
  obtain ⟨scope, hs, _⟩ := h
  exact Nat.lt_trans hlt (Arena.index_lt_size hs)

/-- In an arm that is not narrowed names have their types as before. -/
theorem Narrowed.typeIn_eq {arms : List ScopeId} {s s' : State} {arm : ScopeId} (h : s.Narrowed arms s')
    (ho : s.arena.Ordered) (ha : s.HasArm arm) (harms : ∀ id ∈ arms, s.HasArm id) (hout : arm ∉ arms)
    (name : String) : s'.typeIn arm name .normal = s.typeIn arm name .normal := by
  have hlt := ha.focus_lt ho
  obtain ⟨scope, hs, hp, hb⟩ := ha
  obtain ⟨scope', hs', _, heq⟩ := h.arena.old arm scope hs
  rw [heq hout] at hs'
  have ho' := h.arena.ordered ho hlt
  have haround := h.arena.getVar_eq ho hlt (fun id hid => (harms id hid).newer ho)
    s.session.globals name .normal
  rw [State.typeIn, State.typeIn, ho.getVar_eq hs hp, ho'.getVar_eq hs' hp, h.globals_eq, haround]

/-- An arm that is not narrowed describes values as before. -/
theorem Describes.narrowed {arms : List ScopeId} {s s' : State} {arm : ScopeId}
    {admits : Value → TypeId → Prop} {name : String} {v : Value}
    (hd : s.Describes admits arm name v) (h : s.Narrowed arms s') (ho : s.arena.Ordered)
    (ha : s.HasArm arm) (harms : ∀ id ∈ arms, s.HasArm id) (hout : arm ∉ arms) :
    s'.Describes admits arm name v := by
  obtain ⟨type, htype, hg, hi⟩ := hd
  exact ⟨type, (h.typeIn_eq ho ha harms hout name).trans htype, hg.extend h.table, hi.extend hg h.table⟩

/-- In an arm that is narrowed the name has the narrowed type; `this` is kept apart from the names. -/
theorem typeIn_narrowScope {s : State} {arm : ScopeId} (ha : s.HasArm arm) (ho : s.arena.Ordered)
    (name other : String) (type : TypeId) (table : Table) :
    State.typeIn { s.withTable table with arena := s.arena.modify arm (Arena.narrowScope name type) } arm
        other .normal =
      if name = other ∧ name ≠ Arena.thisName then some type else s.typeIn arm other .normal := by
  have hlt := ha.focus_lt ho
  have hnewer := ha.newer ho
  obtain ⟨scope, hs, hp, hb⟩ := ha
  have hstep := Arena.narrowed_restrict hs hb s.focus.scope name type
  have hs' : (s.arena.modify arm (Arena.narrowScope name type)).scope? arm =
      some (Arena.narrowScope name type scope) := by
    rw [Arena.scope?_modify, if_pos rfl, hs]
    rfl
  have hp' : (Arena.narrowScope name type scope).parent = some s.focus.scope :=
    (Arena.sameNames_narrowScope hb name type).parent.trans hp
  have haround := hstep.getVar_eq ho hlt (fun id hid => List.mem_singleton.mp hid ▸ hnewer)
    s.session.globals other .normal
  have hlookup := (hstep.ordered ho hlt).getVar_eq hs' hp' s.session.globals other .normal
  rw [haround, Arena.ownType?_narrowScope] at hlookup
  refine hlookup.trans ?_
  rw [State.typeIn, ho.getVar_eq hs hp]
  split
  · rw [Option.some_or]
  · rfl

end State

/-! ## Narrowing one variable -/

theorem run_narrowIn {s : State} {arm : ScopeId} (ha : s.HasArm arm) {name : String} {current : TypeId}
    (htype : s.typeIn arm name .normal = some current)
    (change : Table → TypeId → Option (TypeId × Table)) :
    (narrowIn arm name change).run s =
      (.ok (), match change s.table current with
        | none => s
        | some made =>
          { s.withTable made.2 with arena := s.arena.modify arm (Arena.narrowScope name made.1) }) := by
  obtain ⟨scope, hs, _, hb⟩ := ha
  rw [narrowIn, run_get_bind, htype]
  cases hchange : change s.table current with
  | none =>
    rw [run_bind_ok (run_onTable?_none hchange)]
    rfl
  | some made =>
    rw [run_bind_ok (run_onTable?_some hchange)]
    exact run_onArena_ok (Arena.restrict_branch hs hb name made.1)

/-- Narrowing either finds nothing to do or narrows the type that the variable has in the arm. -/
theorem narrowIn_cases {s : State} {arm : ScopeId} (ha : s.HasArm arm) (name : String)
    (change : Table → TypeId → Option (TypeId × Table)) :
    (narrowIn arm name change).run s = (.ok (), s) ∨
      ∃ current type table, s.typeIn arm name .normal = some current ∧
        change s.table current = some (type, table) ∧
        (narrowIn arm name change).run s =
          (.ok (), { s.withTable table with
            arena := s.arena.modify arm (Arena.narrowScope name type) }) := by
  cases htype : s.typeIn arm name .normal with
  | none =>
    rw [narrowIn, run_get_bind, htype]
    exact .inl rfl
  | some current =>
    have hrun := run_narrowIn ha htype change
    cases hchange : change s.table current with
    | none => exact .inl (by rw [hrun, hchange])
    | some made => exact .inr ⟨current, made.1, made.2, rfl, hchange, by rw [hrun, hchange]⟩

theorem narrowIn_run {s : State} {arm : ScopeId} (ha : s.HasArm arm) (name : String)
    {change : Table → TypeId → Option (TypeId × Table)} (hgrow : Growing change) :
    ∃ s', (narrowIn arm name change).run s = (.ok (), s') ∧ s.Narrowed [arm] s' := by
  rcases narrowIn_cases ha name change with hrun | ⟨current, type, table, _, hchange, hrun⟩
  · exact ⟨s, hrun, .refl _ s⟩
  · obtain ⟨scope, hs, _, hb⟩ := ha
    exact ⟨_, hrun, Arena.narrowed_restrict hs hb _ name type, hgrow hchange, rfl⟩

/-- A narrowing that the value passes loses nothing in the arm. -/
theorem narrowIn_describes {s s' : State} {arm : ScopeId} (ha : s.HasArm arm)
    (ho : s.arena.Ordered) (ht : Table.initial.Extends s.table) {name other : String}
    {change : Table → TypeId → Option (TypeId × Table)} {P : Value → Prop}
    (hgrow : Growing change) (hnarrows : Narrows change P) {admits : Value → TypeId → Prop}
    {v : Value} (hP : name = other → P v) (hd : s.Describes admits arm other v)
    (hrun : (narrowIn arm name change).run s = (.ok (), s')) : s'.Describes admits arm other v := by
  rcases narrowIn_cases ha name change with hsame | ⟨current, type, table, hcur, hchange, hnew⟩
  · rw [hsame] at hrun
    cases hrun
    exact hd
  · rw [hnew] at hrun
    cases hrun
    have hx : s.table.Extends table := hgrow hchange
    obtain ⟨known, hknown, hg, hi⟩ := hd
    have hlookup := State.typeIn_narrowScope ha ho name other type table
    by_cases hname : name = other ∧ name ≠ Arena.thisName
    · -- the variable itself: its type is now the narrowed one
      rw [if_pos hname] at hlookup
      obtain ⟨rfl, _⟩ := hname
      rw [hknown] at hcur
      cases hcur
      obtain ⟨hg', hi'⟩ := hnarrows ht hg hchange
      exact ⟨type, hlookup, hg', hi' (hP rfl) hi⟩
    · rw [if_neg hname] at hlookup
      exact ⟨known, hlookup.trans hknown, hg.extend hx, hi.extend hg hx⟩

/-! ## Narrowing by a condition -/

/-- The state after the scratch branch of a condition was opened, and the branch itself. -/
theorem openBranch_run (s : State) :
    ∃ branch s', openBranch.run s = (.ok branch, s') ∧ branch.index = s.arena.size ∧
      s'.HasArm branch ∧ ∀ arms, s.Narrowed arms s' := by
  refine ⟨⟨s.arena.size⟩, _, run_openBranch s, rfl, ?_, ?_⟩
  · refine ⟨{ parent := some s.focus.scope, kind := .branch none }, ?_, rfl, rfl⟩
    exact (Arena.scope?_push ..).trans (if_pos rfl)
  · intro arms
    exact ⟨.pushBranch _ arms s.arena, .refl s.table, rfl⟩

/-- One variable is narrowed in both arms. -/
theorem narrowBoth_run {s : State} {holds fails : ScopeId} (hh : s.HasArm holds)
    (hf : s.HasArm fails) (name : String)
    {inHolds inFails : Table → TypeId → Option (TypeId × Table)} (hgrow : Growing inHolds)
    (hgrow' : Growing inFails) :
    ∃ s', (do narrowIn holds name inHolds; narrowIn fails name inFails : Check Unit).run s =
        (.ok (), s') ∧ s.Narrowed [holds, fails] s' := by
  obtain ⟨s₁, hrun, hn⟩ := narrowIn_run hh name hgrow
  obtain ⟨s', hrun', hn'⟩ := narrowIn_run (hn.hasArm hf) name hgrow'
  refine ⟨s', by rw [run_bind_ok hrun, hrun'], ?_⟩
  have hsub : s.Narrowed [holds, fails] s₁ := (State.Narrowed.refl _ s).trans hn (by simp)
  exact hsub.trans hn' (by simp)

theorem narrowComparison_run {s : State} {holds fails : ScopeId} (hh : s.HasArm holds)
    (hf : s.HasArm fails) (operator : String) (left right : Expr) :
    ∃ s', (narrowComparison operator left right holds fails).run s = (.ok (), s') ∧
      s.Narrowed [holds, fails] s' := by
  rw [narrowComparison]
  cases comparison? operator with
  | none => exact ⟨s, rfl, .refl _ s⟩
  | some positive =>
    cases eitherOrder typeofOperand? stringLiteral? left right with
    | some found =>
      exact narrowBoth_run hh hf found.1 (Table.growing_narrowByTypeof? found.2 positive)
        (Table.growing_narrowByTypeof? found.2 !positive)
    | none =>
      cases eitherOrder guarded? nullish? left right with
      | some found =>
        exact narrowBoth_run hh hf found.1 (Table.growing_narrowByValue? found.2 positive)
          (Table.growing_narrowByValue? found.2 !positive)
      | none => exact ⟨s, rfl, .refl _ s⟩

/-- Two conditions that narrow in the same arms. -/
theorem narrow_both_run {left right : Expr} {one other : ScopeId}
    (hleft : ∀ {s : State}, s.HasArm one → s.HasArm other →
      ∃ s', (narrow left one other).run s = (.ok (), s') ∧ s.Narrowed [one, other] s')
    (hright : ∀ {s : State}, s.HasArm one → s.HasArm other →
      ∃ s', (narrow right one other).run s = (.ok (), s') ∧ s.Narrowed [one, other] s')
    {s : State} (ho : s.HasArm one) (ho' : s.HasArm other) :
    ∃ s', (do narrow left one other; narrow right one other : Check Unit).run s = (.ok (), s') ∧
      s.Narrowed [one, other] s' := by
  obtain ⟨s₁, hrun, hn⟩ := hleft ho ho'
  obtain ⟨s', hrun', hn'⟩ := hright (hn.hasArm ho) (hn.hasArm ho')
  exact ⟨s', by rw [run_bind_ok hrun, hrun'], hn.trans hn' (by simp)⟩

/-- A condition never fails, and only narrows types in its arms. -/
theorem narrow_run (test : Expr) (holds fails : ScopeId) {s : State} (hh : s.HasArm holds)
    (hf : s.HasArm fails) :
    ∃ s', (narrow test holds fails).run s = (.ok (), s') ∧ s.Narrowed [holds, fails] s' := by
  induction test, holds, fails using narrow.induct generalizing s with
  | case1 id holds fails =>
    rw [narrow]
    exact narrowBoth_run hh hf id.name Table.growing_removeNullish? Table.growing_falsyPart?
  | case2 argument _ span holds fails ih =>
    obtain ⟨s', hrun, hn⟩ := ih hf hh
    refine ⟨s', by rw [narrow, if_pos rfl, hrun], ?_⟩
    exact (State.Narrowed.refl _ s).trans hn (by simp)
  | case3 operator argument _ span holds fails hnot =>
    exact ⟨s, by rw [narrow, if_neg hnot]; rfl, .refl _ s⟩
  | case4 operator left right span holds fails =>
    rw [narrow]
    exact narrowComparison_run hh hf operator left right
  | case5 operator left right span holds fails ihAndLeft ihAndRight ihOrLeft ihOrRight =>
    obtain ⟨scratch, s₁, hopen, hindex, harm, hn⟩ := openBranch_run s
    have hh₁ := (hn []).hasArm hh
    have hf₁ := (hn []).hasArm hf
    rw [narrow, run_bind_ok hopen]
    by_cases hand : operator = "&&"
    · obtain ⟨s', hrun, hn'⟩ := narrow_both_run (ihAndLeft scratch) (ihAndRight scratch) hh₁ harm
      refine ⟨s', by rw [if_pos hand, hrun], (hn _).trans hn' ?_⟩
      simp [hindex]
    · rw [if_neg hand]
      by_cases hor : operator = "||"
      · obtain ⟨s', hrun, hn'⟩ := narrow_both_run (ihOrLeft scratch) (ihOrRight scratch) harm hf₁
        refine ⟨s', by rw [if_pos hor, hrun], (hn _).trans hn' ?_⟩
        simp [hindex]
      · exact ⟨s₁, by rw [if_neg hor]; rfl, hn _⟩
  | case6 test holds fails h1 h2 h3 h4 =>
    refine ⟨s, ?_, .refl _ s⟩
    rw [narrow, run_pure] <;> assumption

/-! ## Guards -/

theorem eitherOrder_comm {α β : Type} {f : Expr → Option α} {g : Expr → Option β}
    (hfg : ∀ e, f e = none ∨ g e = none) (left right : Expr) :
    eitherOrder f g left right = eitherOrder f g right left := by
  simp only [eitherOrder]
  rcases hfg left with hl | hl <;> rcases hfg right with hr | hr <;> simp only [hl, hr]
  cases f left <;> cases f right <;> rfl

theorem typeofOperand?_or_stringLiteral? (e : Expr) :
    typeofOperand? e = none ∨ stringLiteral? e = none := by
  cases e <;> first | exact .inl rfl | exact .inr rfl

theorem guarded?_or_nullish? (e : Expr) : guarded? e = none ∨ nullish? e = none := by
  cases e with
  | identifier id => by_cases h : id.name = "undefined" <;> simp [guarded?, nullish?, h]
  | _ => exact .inl rfl

/-- What a guard is read as. A guard of `undefined` itself is not read. -/
inductive Guard.Read (values : String → Value) (left right : Expr) (outcome : Bool) : Prop where
  | typeof {name tag : String} :
    eitherOrder typeofOperand? stringLiteral? left right = some (name, tag) →
    outcome = decide ((values name).typeof = tag) → Read values left right outcome
  | value {name : String} {type : TypeId} {value : Value} :
    eitherOrder typeofOperand? stringLiteral? left right = none →
    eitherOrder guarded? nullish? left right = some (name, type) →
    (type, value) ∈ [(TypeId.null, Value.null), (.undefined, .undefined)] →
    outcome = decide (values name = value) → Read values left right outcome
  | nothing :
    eitherOrder typeofOperand? stringLiteral? left right = none →
    eitherOrder guarded? nullish? left right = none → Read values left right outcome

theorem Guard.read {values : String → Value} {left right : Expr} {outcome : Bool}
    (h : Guard values left right outcome) : Guard.Read values left right outcome := by
  induction h with
  | @typeof id _ span literal tag hkind htext =>
    refine .typeof ?_ rfl
    simp [eitherOrder, typeofOperand?, stringLiteral?, Expr.identifier?, htext]
  | @null id literal hkind =>
    by_cases hname : id.name = "undefined"
    · refine .nothing ?_ ?_
      · simp [eitherOrder, typeofOperand?]
      · simp [eitherOrder, guarded?, hname]
    · refine .value ?_ ?_ (show (TypeId.null, Value.null) ∈ _ by simp) rfl
      · simp [eitherOrder, typeofOperand?]
      · simp [eitherOrder, guarded?, nullish?, hname, hkind]
  | @undefined id other hother _ =>
    by_cases hname : id.name = "undefined"
    · refine .nothing ?_ ?_
      · simp [eitherOrder, typeofOperand?]
      · simp [eitherOrder, guarded?, hname, hother]
    · refine .value ?_ ?_ (show (TypeId.undefined, Value.undefined) ∈ _ by simp) rfl
      · simp [eitherOrder, typeofOperand?]
      · simp [eitherOrder, guarded?, nullish?, hname, hother]
  | @swap left right outcome _ ih =>
    have htypeof := eitherOrder_comm typeofOperand?_or_stringLiteral? left right
    have hvalue := eitherOrder_comm guarded?_or_nullish? left right
    cases ih with
    | typeof hread houtcome => exact .typeof (htypeof ▸ hread) houtcome
    | value hnone hread hmem houtcome => exact .value (htypeof ▸ hnone) (hvalue ▸ hread) hmem houtcome
    | nothing hnone hnone' => exact .nothing (htypeof ▸ hnone) (hvalue ▸ hnone')

/-! ## What the arm that a test decides for keeps -/

section Sound

variable {admits : Value → TypeId → Prop} {name : String} {v : Value} {holds fails : ScopeId}

/-- Narrowing one variable in both arms keeps the value in the arm whose narrowing it passes. -/
theorem narrowBoth_describes {s s' : State} (hh : s.HasArm holds) (hf : s.HasArm fails)
    (hne : holds ≠ fails) (ho : s.arena.Ordered) (ht : Table.initial.Extends s.table)
    {other : String} {inHolds inFails : Table → TypeId → Option (TypeId × Table)}
    {P Q : Value → Prop} (hgrow : Growing inHolds) (hgrow' : Growing inFails)
    (hnarrows : Narrows inHolds P) (hnarrows' : Narrows inFails Q) {outcome : Bool}
    (hP : outcome = true → other = name → P v) (hQ : outcome = false → other = name → Q v)
    (hd : s.Describes admits (if outcome then holds else fails) name v)
    (hrun : (do narrowIn holds other inHolds; narrowIn fails other inFails : Check Unit).run s =
      (.ok (), s')) :
    s'.Describes admits (if outcome then holds else fails) name v := by
  obtain ⟨s₁, hrun₁, hn₁⟩ := narrowIn_run hh other hgrow
  rw [run_bind_ok hrun₁] at hrun
  have ho₁ := hn₁.arena.ordered ho (hh.focus_lt ho)
  have hh₁ := hn₁.hasArm hh
  have hf₁ := hn₁.hasArm hf
  obtain ⟨s₂, hrun₂, hn₂⟩ := narrowIn_run hf₁ other hgrow'
  rw [hrun] at hrun₂
  cases hrun₂
  cases outcome with
  | true =>
    have hd₁ := narrowIn_describes hh ho ht hgrow hnarrows (hP rfl) hd hrun₁
    refine hd₁.narrowed hn₂ ho₁ hh₁ ?_ (by simpa using hne)
    intro id hid
    exact List.mem_singleton.mp hid ▸ hf₁
  | false =>
    have hd₁ : s₁.Describes admits fails name v := by
      refine hd.narrowed hn₁ ho hf ?_ (by simpa using hne.symm)
      intro id hid
      exact List.mem_singleton.mp hid ▸ hh
    exact narrowIn_describes hf₁ ho₁ (ht.trans hn₁.table) hgrow' hnarrows' (hQ rfl) hd₁ hrun

/-- What a test does to the arm it decides for, whatever the arms are. -/
def KeepsValue (admits : Value → TypeId → Prop) (name : String) (v : Value) (test : Expr)
    (outcome : Bool) : Prop :=
  ∀ ⦃s s' : State⦄ ⦃holds fails : ScopeId⦄, s.HasArm holds → s.HasArm fails → holds ≠ fails →
    s.arena.Ordered → Table.initial.Extends s.table →
    s.Describes admits (if outcome then holds else fails) name v →
    (narrow test holds fails).run s = (.ok (), s') →
      s'.Describes admits (if outcome then holds else fails) name v

theorem keepsValue_identifier {values : String → Value} {id : Identifier} :
    KeepsValue admits name (values name) (.identifier id) (values id.name).truthy := by
  intro s s' holds fails hh hf hne ho ht hd hrun
  rw [narrow] at hrun
  refine narrowBoth_describes hh hf hne ho ht Table.growing_removeNullish? Table.growing_falsyPart?
    Table.narrows_removeNullish? Table.narrows_falsyPart? ?_ ?_ hd hrun
  · rintro htruthy rfl
    exact htruthy
  · rintro hfalsy rfl
    exact hfalsy

theorem keepsValue_guard {values : String → Value} {left right : Expr} {outcome : Bool}
    (h : Guard values left right outcome) {operator : String} {positive : Bool}
    (hop : comparison? operator = some positive) (span : Span) :
    KeepsValue admits name (values name) (.binary operator left right span)
      (outcome == positive) := by
  intro s s' holds fails hh hf hne ho ht hd hrun
  rw [narrow, narrowComparison] at hrun
  simp only [hop] at hrun
  cases h.read with
  | @typeof other tag hread houtcome =>
    simp only [hread] at hrun
    refine narrowBoth_describes hh hf hne ho ht (Table.growing_narrowByTypeof? tag positive)
      (Table.growing_narrowByTypeof? tag !positive) (Table.narrows_narrowByTypeof? tag positive)
      (Table.narrows_narrowByTypeof? tag !positive) ?_ ?_ hd hrun
    · rintro htrue rfl
      rw [← houtcome]
      exact beq_iff_eq.mp htrue
    · rintro hfalse rfl
      rw [← houtcome]
      cases outcome <;> cases positive <;> simp_all
  | @value other type value hnone hread hmem houtcome =>
    simp only [hnone, hread] at hrun
    refine narrowBoth_describes hh hf hne ho ht (Table.growing_narrowByValue? type positive)
      (Table.growing_narrowByValue? type !positive) (Table.narrows_narrowByValue? hmem positive)
      (Table.narrows_narrowByValue? hmem !positive) ?_ ?_ hd hrun
    · rintro htrue rfl
      rw [← houtcome]
      exact beq_iff_eq.mp htrue
    · rintro hfalse rfl
      rw [← houtcome]
      cases outcome <;> cases positive <;> simp_all
  | nothing hnone hnone' =>
    simp only [hnone, hnone', run_pure] at hrun
    cases hrun
    exact hd

/-- Atoms decide nothing. -/
theorem keepsValue_atom {test : Expr} (h : IsAtom test) (outcome : Bool) :
    KeepsValue admits name v test outcome := by
  intro s s' holds fails hh hf hne ho ht hd hrun
  have hsame : ∀ {after}, s.Narrowed [] after → (narrow test holds fails).run s = (.ok (), after) →
      s'.Describes admits (if outcome then holds else fails) name v := by
    intro after hn hrun'
    rw [hrun] at hrun'
    cases hrun'
    refine hd.narrowed hn ho ?_ (by simp) (by simp)
    cases outcome
    · exact hf
    · exact hh
  cases test with
  | identifier id => exact h.elim
  | unary operator argument _ span =>
    exact hsame (.refl _ s) (by rw [narrow, if_neg h]; rfl)
  | binary operator left right span =>
    refine hsame (.refl _ s) ?_
    rw [narrow, narrowComparison]
    rcases h with hnone | ⟨hnone, hnone'⟩
    · rw [hnone]
      rfl
    · cases comparison? operator with
      | none => rfl
      | some positive =>
        rw [hnone, hnone']
        rfl
  | logical operator left right span =>
    obtain ⟨scratch, s₁, hopen, _, _, hn⟩ := openBranch_run s
    refine hsame (hn []) ?_
    rw [narrow, run_bind_ok hopen, if_neg h.1, if_neg h.2]
    rfl
  | _ => exact hsame (.refl _ s) (by rw [narrow, run_pure] <;> simp)

/-- Two conditions that narrow in the same arms keep the value in the arm that both decide for. -/
theorem narrow_both_describes {left right : Expr} {one other : ScopeId} {outcome outcome' : Bool}
    (hleft : KeepsValue admits name v left outcome) (hright : KeepsValue admits name v right outcome')
    (harm : (if outcome' then one else other) = if outcome then one else other) {s s' : State}
    (hone : s.HasArm one) (hother : s.HasArm other) (hne : one ≠ other) (ho : s.arena.Ordered)
    (ht : Table.initial.Extends s.table)
    (hd : s.Describes admits (if outcome then one else other) name v)
    (hrun : (do narrow left one other; narrow right one other : Check Unit).run s = (.ok (), s')) :
    s'.Describes admits (if outcome then one else other) name v := by
  obtain ⟨s₁, hrun₁, hn₁⟩ := narrow_run left one other hone hother
  rw [run_bind_ok hrun₁] at hrun
  have hd₁ := hleft hone hother hne ho ht hd hrun₁
  rw [← harm] at hd₁ ⊢
  exact hright (hn₁.hasArm hone) (hn₁.hasArm hother) hne
    (hn₁.arena.ordered ho (hone.focus_lt ho)) (ht.trans hn₁.table) hd₁ hrun

/-- What holds once the scratch branch of `&&` or `||` is open: it is a third arm. -/
structure Opened (admits : Value → TypeId → Prop) (name : String) (v : Value) (s s₁ : State)
    (scratch : ScopeId) : Prop where
  run : openBranch.run s = (.ok scratch, s₁)
  third : s₁.HasArm scratch
  others : ∀ {arm}, s.HasArm arm → s₁.HasArm arm ∧ arm ≠ scratch
  ordered : s₁.arena.Ordered
  initial : Table.initial.Extends s₁.table
  describes : ∀ {arm}, s.HasArm arm → s.Describes admits arm name v → s₁.Describes admits arm name v

theorem opened (admits : Value → TypeId → Prop) (name : String) (v : Value) {s : State}
    (hh : s.HasArm holds) (ho : s.arena.Ordered)
    (ht : Table.initial.Extends s.table) : ∃ scratch s₁, Opened admits name v s s₁ scratch := by
  obtain ⟨scratch, s₁, hopen, hindex, harm, hn⟩ := openBranch_run s
  refine ⟨scratch, s₁, hopen, harm, ?_, (hn []).arena.ordered ho (hh.focus_lt ho),
    ht.trans (hn []).table, ?_⟩
  · intro arm ha
    refine ⟨(hn []).hasArm ha, ?_⟩
    obtain ⟨scope, hs, _⟩ := ha
    have hlt := Arena.index_lt_size hs
    rintro rfl
    omega
  · intro arm ha hd
    exact hd.narrowed (hn []) ho ha (by simp) (by simp)

/-- The arm in which a scratch branch stands in says nothing. -/
theorem narrow_both_spares {left right : Expr} {one other arm : ScopeId} {s s' : State}
    (hone : s.HasArm one) (hother : s.HasArm other) (harm : s.HasArm arm) (hne : arm ≠ one)
    (hne' : arm ≠ other) (ho : s.arena.Ordered) (hd : s.Describes admits arm name v)
    (hrun : (do narrow left one other; narrow right one other : Check Unit).run s = (.ok (), s')) :
    s'.Describes admits arm name v := by
  obtain ⟨after, hrun', hn⟩ := narrow_both_run (narrow_run left one other)
    (narrow_run right one other) hone hother
  rw [hrun] at hrun'
  cases hrun'
  refine hd.narrowed hn ho harm ?_ (by simp [hne, hne'])
  intro id hid
  simp only [List.mem_cons, List.not_mem_nil, or_false] at hid
  rcases hid with rfl | rfl
  · exact hone
  · exact hother

theorem keepsValue_and {left right : Expr} {outcome : Bool} (span : Span)
    (hleft : outcome = true → KeepsValue admits name v left true)
    (hright : outcome = true → KeepsValue admits name v right true) :
    KeepsValue admits name v (.logical "&&" left right span) outcome := by
  intro s s' holds fails hh hf hne ho ht hd hrun
  obtain ⟨scratch, s₁, hop⟩ := opened admits name v hh ho ht
  obtain ⟨hh₁, hneh⟩ := hop.others hh
  obtain ⟨hf₁, hnef⟩ := hop.others hf
  rw [narrow, run_bind_ok hop.run, if_pos rfl] at hrun
  cases outcome with
  | true =>
    have hkept : s'.Describes admits (if true then holds else scratch) name v :=
      narrow_both_describes (hleft rfl) (hright rfl) rfl hh₁ hop.third hneh hop.ordered
        hop.initial (hop.describes hh hd) hrun
    exact hkept
  | false =>
    exact narrow_both_spares hh₁ hop.third hf₁ hne.symm hnef hop.ordered (hop.describes hf hd) hrun

theorem keepsValue_or {left right : Expr} {outcome : Bool} (span : Span)
    (hleft : outcome = false → KeepsValue admits name v left false)
    (hright : outcome = false → KeepsValue admits name v right false) :
    KeepsValue admits name v (.logical "||" left right span) outcome := by
  intro s s' holds fails hh hf hne ho ht hd hrun
  obtain ⟨scratch, s₁, hop⟩ := opened admits name v hh ho ht
  obtain ⟨hh₁, hneh⟩ := hop.others hh
  obtain ⟨hf₁, hnef⟩ := hop.others hf
  rw [narrow, run_bind_ok hop.run, if_neg (by decide), if_pos rfl] at hrun
  cases outcome with
  | true =>
    exact narrow_both_spares hop.third hf₁ hh₁ hneh hne hop.ordered (hop.describes hh hd) hrun
  | false =>
    have hkept : s'.Describes admits (if false then scratch else fails) name v :=
      narrow_both_describes (hleft rfl) (hright rfl) rfl hop.third hf₁ hnef.symm hop.ordered
        hop.initial (hop.describes hf hd) hrun
    exact hkept

/-- A test loses no value in the arm it decides for. -/
theorem Evaluates.keepsValue {values : String → Value} {test : Expr} {outcome : Bool}
    (h : Evaluates values test outcome) : KeepsValue admits name (values name) test outcome := by
  induction h with
  | identifier => exact keepsValue_identifier
  | @not argument outcome _ span _ ih =>
    intro s s' holds fails hh hf hne ho ht hd hrun
    rw [narrow, if_pos rfl] at hrun
    have hswap : (if !outcome then holds else fails) = if outcome then fails else holds := by
      cases outcome <;> rfl
    rw [hswap] at hd ⊢
    exact ih hf hh hne.symm ho ht hd hrun
  | @andLeft left right span _ _ => exact keepsValue_and span (by simp) (by simp)
  | @andRight left right outcome span _ _ ihLeft ihRight =>
    exact keepsValue_and span (fun _ => ihLeft) (fun houtcome => houtcome ▸ ihRight)
  | @orLeft left right span _ _ => exact keepsValue_or span (by simp) (by simp)
  | @orRight left right outcome span _ _ ihLeft ihRight =>
    exact keepsValue_or span (fun _ => ihLeft) (fun houtcome => houtcome ▸ ihRight)
  | @same left right outcome span hguard =>
    have hkeeps : KeepsValue admits name (values name) (.binary "===" left right span)
        (outcome == true) := keepsValue_guard hguard rfl span
    simpa using hkeeps
  | @different left right outcome span hguard =>
    have hkeeps : KeepsValue admits name (values name) (.binary "!==" left right span)
        (outcome == false) := keepsValue_guard hguard rfl span
    simpa using hkeeps
  | @atom test outcome hatom => exact keepsValue_atom hatom outcome

end Sound

/-! ## Fresh branches -/

/-- A branch of the current scope in which nothing is recorded yet. -/
def State.IsFresh (s : State) (branch : ScopeId) : Prop :=
  s.arena.scope? branch = some { parent := some s.focus.scope, kind := .branch none }

theorem State.IsFresh.hasArm {s : State} {branch : ScopeId} (h : s.IsFresh branch) :
    s.HasArm branch :=
  ⟨_, h, rfl, rfl⟩

theorem State.IsFresh.describes {s : State} {branch : ScopeId} (h : s.IsFresh branch)
    (ho : s.arena.Ordered) {admits : Value → TypeId → Prop} {name : String} {v : Value}
    (hd : s.Describes admits s.focus.scope name v) : s.Describes admits branch name v := by
  obtain ⟨type, htype, hg, hi⟩ := hd
  refine ⟨type, ?_, hg, hi⟩
  rw [State.typeIn, ho.getVar_eq h rfl]
  exact htype

/-- On two fresh branches narrowing by a test succeeds, and in the branch that the test decides for
each variable of a ground type has a ground type that its value is one of. -/
theorem narrow_keeps_values {s : State} {holds fails : ScopeId} {test : Expr} {outcome : Bool}
    {values : String → Value} (ho : s.arena.Ordered) (ht : Table.initial.Extends s.table)
    (hholds : s.IsFresh holds) (hfails : s.IsFresh fails) (hne : holds ≠ fails)
    (htest : Evaluates values test outcome) :
    ∃ s', (narrow test holds fails).run s = (.ok (), s') ∧
      ∀ (admits : Value → TypeId → Prop) (name : String),
        s.Describes admits s.focus.scope name (values name) →
          s'.Describes admits (if outcome then holds else fails) name (values name) := by
  obtain ⟨s', hrun, _⟩ := narrow_run test holds fails hholds.hasArm hfails.hasArm
  refine ⟨s', hrun, ?_⟩
  intro admits name hd
  refine htest.keepsValue hholds.hasArm hfails.hasArm hne ho ht ?_ hrun
  cases outcome
  · exact hfails.describes ho hd
  · exact hholds.describes ho hd

/-- A file with a variable `x` of type `String | null | undefined`, and two branches of it. -/
def optionalText : State where
  session := { table := (Table.initial.union [.string, .null, .undefined]).2 }
  source := { path := "", text := "", program := { body := [] } }
  arena :=
    ⟨#[{ parent := none, kind := .file {}, identifiers := .ofList [("x", ⟨19⟩)] },
      { parent := some ⟨0⟩, kind := .branch none }, { parent := some ⟨0⟩, kind := .branch none }]⟩
  fileScope := ⟨0⟩
  focus := { scope := ⟨0⟩ }

/-- `!(null === x) && (f() || typeof x !== "undefined")` -/
def presenceTest : Expr :=
  .logical "&&"
    (.unary "!" (.binary "===" (.literal { value := .null }) (.identifier { name := "x" }) {})
      true {})
    (.logical "||" (.call (.identifier { name := "f" }) [] {})
      (.binary "!==" (.unary "typeof" (.identifier { name := "x" }) true {})
        (.literal { value := .string "undefined" }) {}) {}) {}

/-- Where the test holds, a text in `x` is one of the narrowed type. -/
theorem narrow_keeps_values_optionalText :
    ∃ s', (narrow presenceTest ⟨1⟩ ⟨2⟩).run optionalText = (.ok (), s') ∧
      s'.Describes (fun _ _ => True) ⟨1⟩ "x" (.string "a") := by
  have ho : optionalText.arena.Ordered := by
    intro id scope parent hs hp
    have hid : id.index < 3 := Arena.index_lt_size hs
    obtain ⟨_ | _ | _ | n⟩ := id
    · cases hs
      cases hp
    · cases hs
      cases hp
      decide
    · cases hs
      cases hp
      decide
    · exact absurd hid (by simp)
  have htest : Evaluates (fun _ => .string "a") presenceTest true :=
    .andRight (.not (.same (.swap (.null rfl)))) (.orLeft (.atom trivial))
  obtain ⟨s', hrun, hkeeps⟩ := narrow_keeps_values ho (Table.extends_union _ _)
    (show optionalText.IsFresh ⟨1⟩ from rfl) (show optionalText.IsFresh ⟨2⟩ from rfl) (by decide)
    htest
  refine ⟨s', hrun, hkeeps _ "x" ⟨⟨19⟩, by decide, by decide, ?_⟩⟩
  exact ⟨.string, by decide, by decide, trivial⟩

end HeaderCheck.Verify
