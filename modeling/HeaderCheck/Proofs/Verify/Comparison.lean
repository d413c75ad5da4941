import HeaderCheck.Proofs.Types.Filtering
import HeaderCheck.Proofs.Verify.Narrowing

/-!
# HeaderCheck.Proofs.Verify.Comparison

What a comparison with `null` or `undefined` leaves of a union in the two arms.

* `sifted`: a filter that would drop all members drops none.
* `State.HasMembers`: the members of the type of a variable in a scope.
* `narrowComparison_members`: the arm in which the variable has the value keeps the members that are this
  value, the other arm keeps the others.

Loose operators are read as strict ones. The value that a loose comparison does not name is equal to it
as well, so where a union has both values one of them is in the wrong arm (`loose_comparison_narrows`).
-/

namespace HeaderCheck.Verify

open HeaderCheck.Scope (Arena ScopeId)
open HeaderCheck.Script (Expr Identifier)
open HeaderCheck.Types (Reachable Table TypeId)

/-! ## Members in a scope -/

/-- The members that a filter leaves; all of them when it would keep none. -/
def sifted (keep : TypeId → Bool) (members : List TypeId) : List TypeId :=
  if members.filter keep = [] then members else members.filter keep

/-- The variable has a type with these members in a scope. -/
def State.HasMembers (s : State) (scope : ScopeId) (name : String) (members : List TypeId) : Prop :=
  ∃ type, s.typeIn scope name .normal = some type ∧ s.table.Issued type ∧ s.table.members type = members

section Arms

variable {s s' : State} {arm : ScopeId} {name : String} {members : List TypeId}

theorem State.HasMembers.fresh (h : s.HasMembers s.focus.scope name members) (ho : s.arena.Ordered)
    (hfresh : s.IsFresh arm) : s.HasMembers arm name members := by
  obtain ⟨type, htype, hrest⟩ := h
  refine ⟨type, ?_, hrest⟩
  rw [State.typeIn, ho.getVar_eq hfresh rfl]
  exact htype

/-- An arm that is not narrowed has the members as before. -/
theorem State.HasMembers.narrowed {arms : List ScopeId} (h : s.HasMembers arm name members)
    (hn : s.Narrowed arms s') (ho : s.arena.Ordered) (ha : s.HasArm arm)
    (harms : ∀ id ∈ arms, s.HasArm id) (hout : arm ∉ arms) : s'.HasMembers arm name members := by
  obtain ⟨type, htype, hissued, hmembers⟩ := h
  refine ⟨type, (hn.typeIn_eq ho ha harms hout name).trans htype, hn.table.issued hissued, ?_⟩
  rw [← hmembers, Table.members, Table.members, hn.table.unionMembers?_eq hissued]

/-- The members after a variable was narrowed; `this` is kept apart from the variables. -/
def membersAfter (name : String) (keep : TypeId → Bool) (members : List TypeId) : List TypeId :=
  if name = Arena.thisName then members else sifted keep members

/-- Narrowing by a filter leaves the members that the filter keeps. -/
theorem narrowIn_members (ha : s.HasArm arm) (ho : s.arena.Ordered) (ht : s.table.WellFormed)
    (change : Table → TypeId → Option (TypeId × Table)) {keep : TypeId → Bool}
    (hchange : ∀ type, s.table.members type = members → change s.table type = s.table.filter? type keep)
    (h : s.HasMembers arm name members) (hrun : (narrowIn arm name change).run s = (.ok (), s')) :
    s'.HasMembers arm name (membersAfter name keep members) ∧ s'.table.WellFormed := by
  obtain ⟨type, htype, hissued, hmembers⟩ := h
  rw [run_narrowIn ha htype, hchange type hmembers] at hrun
  cases hfilter : s.table.filter? type keep with
  | none =>
    rw [hfilter] at hrun
    cases hrun
    refine ⟨⟨type, htype, hissued, ?_⟩, ht⟩
    rw [hmembers, membersAfter, sifted]
    have hsame := Table.filter?_eq_none hfilter
    rw [hmembers] at hsame
    split
    · rfl
    split
    · rfl
    · next hne => exact (hsame.resolve_left hne).symm
  | some made =>
    rw [hfilter] at hrun
    cases hrun
    obtain ⟨-, -, hwf, hx, hmade, -⟩ := Table.filter?_eq_some ht hfilter
    have hkept := ht.members_filter? hfilter
    have htype' := State.typeIn_narrowScope ha ho name name made.1 made.2
    refine ⟨?_, hwf⟩
    by_cases hthis : name = Arena.thisName
    · rw [if_neg (by simp [hthis]), htype] at htype'
      refine ⟨type, htype', hx.issued hissued, ?_⟩
      rw [membersAfter, if_pos hthis, ← hmembers]
      exact congrArg (Option.getD · [type]) (hx.unionMembers?_eq hissued)
    · rw [if_pos ⟨rfl, hthis⟩] at htype'
      refine ⟨made.1, htype', hmade, ?_⟩
      rw [membersAfter, if_neg hthis, sifted, ← hmembers, if_neg (Table.filter?_cases hfilter).1]
      exact hkept

end Arms

/-! ## Both arms -/

/-- A type of several members is neither `Any` nor `Mixed`, so it is narrowed by a filter. -/
theorem narrowByValue?_eq_filter? {t : Table} (ht : t.WellFormed) {type : TypeId}
    (hmany : 2 ≤ (t.members type).length) (value : TypeId) (positive : Bool) :
    t.narrowByValue? type value positive =
      t.filter? type fun member => Table.isValue value member == positive := by
  have hunion : ∃ members, t.lookup type = some (.union members) := by
    cases hunion : t.unionMembers? type with
    | none => simp [Table.members, hunion] at hmany
    | some members => exact ⟨members, Table.unionMembers?_eq_some.mp hunion⟩
  obtain ⟨members, hunion⟩ := hunion
  rw [Table.narrowByValue?, ht.isAnyLike_union hunion, Bool.and_false]
  rfl

section Both

variable {s : State} {holds fails : ScopeId} {name : String} {members : List TypeId}

/-- A comparison of a variable with `null` or `undefined` sifts the members of its type in both arms. -/
theorem narrowComparison_members (hh : s.HasArm holds) (hf : s.HasArm fails) (hne : holds ≠ fails)
    (ho : s.arena.Ordered) (ht : s.table.WellFormed) (hmany : 2 ≤ members.length)
    (hmembers : s.HasMembers holds name members) (hmembers' : s.HasMembers fails name members)
    {operator : String} {positive : Bool} (hop : comparison? operator = some positive)
    {left right : Expr} {value : TypeId}
    (hnone : eitherOrder typeofOperand? stringLiteral? left right = none)
    (hguard : eitherOrder guarded? nullish? left right = some (name, value)) :
    ∃ s', (narrowComparison operator left right holds fails).run s = (.ok (), s') ∧
      s'.HasMembers holds name
        (membersAfter name (fun m => Table.isValue value m == positive) members) ∧
      s'.HasMembers fails name
        (membersAfter name (fun m => Table.isValue value m == !positive) members) := by
  obtain ⟨s₁, hrun₁, hn₁⟩ := narrowIn_run hh name (Table.growing_narrowByValue? value positive)
  have hf₁ := hn₁.hasArm hf
  have ho₁ := hn₁.arena.ordered ho (hh.focus_lt ho)
  obtain ⟨s₂, hrun₂, hn₂⟩ := narrowIn_run hf₁ name (Table.growing_narrowByValue? value !positive)
  have hfilter : ∀ {t : Table}, t.WellFormed → ∀ positive type, t.members type = members →
      t.narrowByValue? type value positive =
        t.filter? type fun m => Table.isValue value m == positive :=
    fun ht positive type htype => narrowByValue?_eq_filter? ht (htype ▸ hmany) value positive
  obtain ⟨hsifted, ht₁⟩ := narrowIn_members hh ho ht (·.narrowByValue? · value positive)
    (hfilter ht positive) hmembers hrun₁
  have hkept := hmembers'.narrowed hn₁ ho hf (fun id hid => List.mem_singleton.mp hid ▸ hh)
    (by simpa using hne.symm)
  obtain ⟨hsifted', -⟩ := narrowIn_members hf₁ ho₁ ht₁ (·.narrowByValue? · value !positive)
    (hfilter ht₁ !positive) hkept hrun₂
  refine ⟨s₂, ?_, ?_, hsifted'⟩
  · simp only [narrowComparison, hop, hnone, hguard]
    rw [run_bind_ok hrun₁, hrun₂]
  · exact hsifted.narrowed hn₂ ho₁ (hn₁.hasArm hh) (fun id hid => List.mem_singleton.mp hid ▸ hf₁)
      (by simpa using hne)

end Both

/-! ## Loose comparisons -/

theorem eq_null_or_undefined {v : Expr} {value : TypeId} (hv : nullish? v = some value) :
    value = .null ∨ value = .undefined := by
  unfold nullish? at hv
  split at hv
  · split at hv
    · exact .inl (Option.some.inj hv).symm
    · cases hv
  · split at hv
    · exact .inr (Option.some.inj hv).symm
    · cases hv
  · cases hv

theorem isValue_of_nullish {value n : TypeId} (hvalue : value = .null ∨ value = .undefined)
    (hn : n ∈ [TypeId.null, .undefined]) : Table.isValue value n = decide (n = value) := by
  simp only [List.mem_cons, List.not_mem_nil, or_false] at hn
  rcases hvalue with rfl | rfl <;> rcases hn with rfl | rfl <;> decide

/-- Of what a variable and `null` or `undefined` are read as, in either order. -/
theorem eitherOrder_nullish {x : Identifier} {v left right : Expr} {value : TypeId}
    (hv : nullish? v = some value) (hsides : (left, right) ∈ [(Expr.identifier x, v), (v, .identifier x)]) :
    eitherOrder typeofOperand? stringLiteral? left right = none ∧
      eitherOrder guarded? nullish? left right =
        if x.name = "undefined" then none else some (x.name, value) := by
  have hguarded : guarded? v = none :=
    (guarded?_or_nullish? v).resolve_right (by simp [hv])
  have htypeof : typeofOperand? v = none := by
    cases v <;> first | rfl | cases hv
  have hforward : eitherOrder typeofOperand? stringLiteral? (.identifier x) v = none ∧
      eitherOrder guarded? nullish? (.identifier x) v =
        if x.name = "undefined" then none else some (x.name, value) := by
    have htypeof' : typeofOperand? (.identifier x) = none := rfl
    have hguarded' : guarded? (.identifier x) =
        if x.name = "undefined" then none else some x.name := rfl
    constructor
    · simp only [eitherOrder, htypeof, htypeof']
    · simp only [eitherOrder, hguarded, hguarded', hv]
      by_cases hname : x.name = "undefined"
      · simp only [hname, if_true]
      · simp only [hname, if_false]
  simp only [List.mem_cons, Prod.mk.injEq, List.not_mem_nil, or_false] at hsides
  rcases hsides with ⟨rfl, rfl⟩ | ⟨rfl, rfl⟩
  · exact hforward
  · rw [eitherOrder_comm typeofOperand?_or_stringLiteral?, eitherOrder_comm guarded?_or_nullish?]
    exact hforward

/-- What loose equality with `null` or `undefined` says about a union: where it holds, both values are
still there, and neither where it does not. -/
def LooseLaw (members equals others : List TypeId) : Prop :=
  ∀ n ∈ [TypeId.null, .undefined], (n ∈ members → n ∈ equals) ∧ n ∉ others

theorem mem_filter_isValue {members : List TypeId} {value n : TypeId} {outcome : Bool} :
    n ∈ members.filter (fun m => Table.isValue value m == outcome) ↔
      n ∈ members ∧ Table.isValue value n = outcome := by
  rw [List.mem_filter, beq_iff_eq]

theorem looseLaw_sifted_iff {members : List TypeId} {value : TypeId}
    (hvalue : value = .null ∨ value = .undefined)
    (hnullish : TypeId.null ∈ members ∨ .undefined ∈ members) :
    LooseLaw members (sifted (fun m => Table.isValue value m == true) members)
        (sifted (fun m => Table.isValue value m == false) members) ↔
      (∀ n ∈ [TypeId.null, .undefined], n ∈ members → n = value) ∧
        ∃ m ∈ members, Table.isValue value m = false := by
  have hothers : ∀ {m}, m ∈ members → Table.isValue value m = false →
      sifted (fun m => Table.isValue value m == false) members =
        members.filter fun m => Table.isValue value m == false :=
    fun hm hother => if_neg (List.ne_nil_of_mem (mem_filter_isValue.mpr ⟨hm, hother⟩))
  constructor
  · intro hlaw
    constructor
    · -- a value that is not named would be in the other arm
      intro n hn hmem
      by_contra hne
      have hother : Table.isValue value n = false := by
        rw [isValue_of_nullish hvalue hn]
        exact decide_eq_false hne
      refine (hlaw n hn).2 ?_
      rw [hothers hmem hother]
      exact mem_filter_isValue.mpr ⟨hmem, hother⟩
    · -- if all members were the value, the other arm would keep them all
      by_contra hnone
      have hnil : (members.filter fun m => Table.isValue value m == false) = [] := by
        rw [List.eq_nil_iff_forall_not_mem]
        exact fun m hm => hnone ⟨m, mem_filter_isValue.mp hm⟩
      have hall : sifted (fun m => Table.isValue value m == false) members = members := if_pos hnil
      rw [hall] at hlaw
      rcases hnullish with hmem | hmem
      · exact (hlaw .null (by simp)).2 hmem
      · exact (hlaw .undefined (by simp)).2 hmem
  · rintro ⟨honly, m, hm, hother⟩ n hn
    have hself : n ∈ members → Table.isValue value n = true := by
      intro hmem
      rw [isValue_of_nullish hvalue hn]
      exact decide_eq_true (honly n hn hmem)
    constructor
    · intro hmem
      have hkept := mem_filter_isValue.mpr ⟨hmem, hself hmem⟩
      rw [sifted, if_neg (List.ne_nil_of_mem hkept)]
      exact hkept
    · rw [hothers hm hother]
      intro hleft
      obtain ⟨hmem, hfalse⟩ := mem_filter_isValue.mp hleft
      rw [hself hmem] at hfalse
      cases hfalse

/-- A comparison with `==` or `!=` follows the law of loose equality just where the union has only the
value that it names, besides something else: the operators are read as strict ones. -/
theorem loose_comparison_narrows {s : State} {holds fails : ScopeId} (ho : s.arena.Ordered)
    (ht : Reachable s.table) (hholds : s.IsFresh holds) (hfails : s.IsFresh fails) (hne : holds ≠ fails)
    {x : Identifier} {type : TypeId} {members : List TypeId}
    (htype : s.typeIn s.focus.scope x.name .normal = some type)
    (hunion : s.table.lookup type = some (.union members))
    (hnullish : TypeId.null ∈ members ∨ .undefined ∈ members) {v : Expr} {value : TypeId}
    (hv : nullish? v = some value) {operator : String} {positive : Bool}
    (hop : (operator, positive) ∈ [("==", true), ("!=", false)]) {left right : Expr}
    (hsides : (left, right) ∈ [(Expr.identifier x, v), (v, .identifier x)]) (span : Span) :
    ∃ s' equals others, (narrow (.binary operator left right span) holds fails).run s = (.ok (), s') ∧
      s'.HasMembers (if positive then holds else fails) x.name equals ∧
      s'.HasMembers (if positive then fails else holds) x.name others ∧
      (LooseLaw members equals others ↔
        x.name ≠ "undefined" ∧ x.name ≠ Arena.thisName ∧
          (∀ n ∈ [TypeId.null, .undefined], n ∈ members → n = value) ∧
          ∃ m ∈ members, Table.isValue value m = false) := by
  have hwf := ht.wellFormed
  have hvalue := eq_null_or_undefined hv
  have hmembers : s.HasMembers s.focus.scope x.name members :=
    ⟨type, htype, Table.issued_of_lookup hunion, Table.members_union hunion⟩
  have hmany : 2 ≤ members.length := (hwf.flat_union hunion).two_le
  have hop' : comparison? operator = some positive := by
    simp only [List.mem_cons, Prod.mk.injEq, List.not_mem_nil, or_false] at hop
    rcases hop with ⟨rfl, rfl⟩ | ⟨rfl, rfl⟩ <;> rfl
  -- where nothing is narrowed the other arm has a value that it should not have
  have hfails_law : ¬ LooseLaw members members members := by
    intro hlaw
    rcases hnullish with hmem | hmem
    · exact (hlaw .null (by simp)).2 hmem
    · exact (hlaw .undefined (by simp)).2 hmem
  obtain ⟨hnone, hguard⟩ := eitherOrder_nullish hv hsides
  have hh := hmembers.fresh ho hholds
  have hf := hmembers.fresh ho hfails
  by_cases hname : x.name = "undefined"
  · rw [if_pos hname] at hguard
    refine ⟨s, members, members, ?_, ?_, ?_, iff_of_false hfails_law fun h => h.1 hname⟩
    · rw [narrow, narrowComparison, hop']
      simp only [hnone, hguard]
      rfl
    · split <;> assumption
    · split <;> assumption
  rw [if_neg hname] at hguard
  obtain ⟨s', hrun, hleft, hright⟩ := narrowComparison_members hholds.hasArm hfails.hasArm hne ho hwf
    hmany hh hf hop' hnone hguard
  refine ⟨s', membersAfter x.name (fun m => Table.isValue value m == true) members,
    membersAfter x.name (fun m => Table.isValue value m == false) members, ?_, ?_, ?_, ?_⟩
  · rw [narrow, hrun]
  · cases positive
    · exact hright
    · exact hleft
  · cases positive
    · exact hleft
    · exact hright
  · unfold membersAfter
    by_cases hthis : x.name = Arena.thisName
    · rw [if_pos hthis, if_pos hthis]
      exact iff_of_false hfails_law fun h => h.2.1 hthis
    · rw [if_neg hthis, if_neg hthis, looseLaw_sifted_iff hvalue hnullish]
      simp [hname, hthis]

/-- A file with a variable `x` of type `String | null`, and two branches of it. -/
def nullableText : State :=
  { optionalText with session := { table := (Types.Operation.union [.string, .null]).after .initial } }

theorem ordered_nullableText : nullableText.arena.Ordered := by
  have hempty : ({} : Arena).Ordered := by
    intro id scope parent hs
    simp [Arena.scope?] at hs
  have hfile : (Arena.push {}
      { parent := none, kind := .file {}, identifiers := .ofList [("x", ⟨19⟩)] }).2.Ordered :=
    hempty.push (by simp)
  have hparent : ∀ parent : ScopeId, some ⟨0⟩ = some parent → parent.index < 1 := by
    rintro parent hp
    cases hp
    decide
  have hbranch : (Arena.push _ { parent := some ⟨0⟩, kind := .branch none }).2.Ordered := hfile.push hparent
  exact hbranch.push fun parent hp => Nat.lt_succ_of_lt (hparent parent hp)

/-- `null != x` follows the law where `x` is a text or `null`. -/
theorem loose_comparison_narrows_nullableText :
    ∃ s' equals others,
      (narrow (.binary "!=" (.literal { value := .null }) (.identifier { name := "x" }) {}) ⟨1⟩ ⟨2⟩).run
          nullableText = (.ok (), s') ∧
        s'.HasMembers ⟨2⟩ "x" equals ∧ s'.HasMembers ⟨1⟩ "x" others ∧
        LooseLaw [.string, .null] equals others := by
  have ht : Reachable nullableText.table :=
    .step (.union [.string, .null]) .refl (by decide)
  have htype : nullableText.typeIn nullableText.focus.scope "x" .normal = some ⟨19⟩ := by decide
  have hunion : nullableText.table.lookup ⟨19⟩ = some (.union [.string, .null]) := by decide
  have hoperator : ("!=", false) ∈ [("==", true), ("!=", false)] := by decide
  have hsides : (Expr.literal { value := .null }, Expr.identifier { name := "x" }) ∈
      [(Expr.identifier { name := "x" }, Expr.literal { value := .null }),
        (.literal { value := .null }, .identifier { name := "x" })] := by simp
  obtain ⟨s', equals, others, hrun, hequals, hothers, hlaw⟩ :=
    loose_comparison_narrows ordered_nullableText ht (show nullableText.IsFresh ⟨1⟩ from rfl)
      (show nullableText.IsFresh ⟨2⟩ from rfl) (by decide) htype hunion (.inl (by decide)) rfl
      hoperator hsides {}
  exact ⟨s', equals, others, hrun, hequals, hothers, hlaw.mpr (by decide)⟩

/-- Where `x` is a text, `null` or `undefined`, the comparison `x == null` leaves `null` in the one arm and
a text or `undefined` in the other, though `undefined` equals `null` as well. -/
theorem loose_comparison_parts_nullish :
    Reachable optionalText.table ∧
      (∃ type, optionalText.typeIn ⟨0⟩ "x" .normal = some type ∧
        optionalText.table.lookup type = some (.union [.string, .null, .undefined])) ∧
      ∃ s', (narrow (.binary "==" (.identifier { name := "x" }) (.literal { value := .null }) {}) ⟨1⟩ ⟨2⟩).run
          optionalText = (.ok (), s') ∧
        s'.typeIn ⟨1⟩ "x" .normal = some .null ∧
        ∃ type, s'.typeIn ⟨2⟩ "x" .normal = some type ∧
          s'.table.lookup type = some (.union [.string, .undefined]) := by
  refine ⟨.step (.union [.string, .null, .undefined]) .refl (by decide), ?_, ?_⟩
  · exact ⟨⟨19⟩, by decide, by decide⟩
  · exact ⟨_, rfl, by decide, ⟨20⟩, by decide, by decide⟩

end HeaderCheck.Verify
