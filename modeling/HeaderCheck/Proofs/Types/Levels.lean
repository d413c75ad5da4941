import HeaderCheck.Proofs.Types.Rules

/-!
# HeaderCheck.Proofs.Types.Levels

The limit on how deep a checker goes, and when it makes no difference.

* `Table.height`: how deep a type is nested.
* `Table.checkFully`: the rules without any limit. They end because the sum of the two handles
  falls with every pair that is asked for (`Calls.index_lt`).
* `Table.checkLevels`: the rules for a number of levels, as a plain function.
* `Checker.check_eq`: a checker gives the answer for the levels it has left, and is afterwards
  what it was before.

`checkLevels_eq` is the main step: `rank` bounds how many levels a pair needs. It is the sum of the
two heights and one more for the step from a variable without a value to `null` or `undefined`,
which does not lead to a part.
-/

namespace HeaderCheck.Types
namespace Table

/-! ## Heights -/

def heightWithin (t : Table) : (levels : Nat) → TypeId → Nat
  | 0, _ => 0
  | levels + 1, id =>
    match t.lookup id with
    | some data => data.parts.foldr (fun part above => max (t.heightWithin levels part + 1) above) 0
    | none => 0

/-- How deep a type is nested; a type without parts has height 0. Handles of parts are smaller
than that of the whole, so no type is higher than its handle. -/
def height (t : Table) (id : TypeId) : Nat :=
  t.heightWithin (id.index + 1) id

theorem lt_foldr_max {f : TypeId → Nat} {parts : List TypeId} {part : TypeId}
    (h : part ∈ parts) : f part < parts.foldr (fun part above => max (f part + 1) above) 0 := by
  induction parts with
  | nil => cases h
  | cons first rest ih =>
    rw [List.foldr_cons]
    rcases List.mem_cons.mp h with rfl | h
    · omega
    · have := ih h
      omega

theorem foldr_max_le {f : TypeId → Nat} {parts : List TypeId} {bound : Nat}
    (h : ∀ part ∈ parts, f part < bound) :
    parts.foldr (fun part above => max (f part + 1) above) 0 ≤ bound := by
  induction parts with
  | nil => exact Nat.zero_le _
  | cons first rest ih =>
    rw [List.foldr_cons]
    have hfirst := h first (List.mem_cons_self ..)
    have hrest := ih fun other ho => h other (List.mem_cons_of_mem _ ho)
    omega

namespace WellFormed

variable {t : Table}

/-- More levels than the handle counts make no difference. -/
theorem heightWithin_stable (h : t.WellFormed) :
    ∀ {levels more : Nat} {id : TypeId}, id.index < levels → id.index < more →
      t.heightWithin levels id = t.heightWithin more id := by
  intro levels
  induction levels with
  | zero => intro more id hi; omega
  | succ levels ih =>
    intro more id hi hm
    obtain ⟨more, rfl⟩ : ∃ k, more = k + 1 := ⟨more - 1, by omega⟩
    simp only [heightWithin]
    cases hd : t.lookup id with
    | none => rfl
    | some data =>
      refine List.foldr_ext _ _ _ fun part hp above => ?_
      have hlt := h.descends hd part hp
      rw [ih (by omega) (by omega : part.index < more)]

theorem height_eq (h : t.WellFormed) {id : TypeId} {data : TypeData}
    (hd : t.lookup id = some data) :
    t.height id = data.parts.foldr (fun part above => max (t.height part + 1) above) 0 := by
  simp only [height, heightWithin, hd]
  refine List.foldr_ext _ _ _ fun part hp above => ?_
  have hlt := h.descends hd part hp
  rw [h.heightWithin_stable hlt (by omega : part.index < part.index + 1)]
  rfl

theorem height_lt (h : t.WellFormed) {part whole : TypeId} (hp : t.PartOf part whole) :
    t.height part < t.height whole := by
  obtain ⟨data, hd, hmem⟩ := hp
  rw [h.height_eq hd]
  exact lt_foldr_max hmem

theorem height_le (h : t.WellFormed) {id : TypeId} {data : TypeData}
    (hd : t.lookup id = some data) {bound : Nat}
    (hb : ∀ part ∈ data.parts, t.height part < bound) : t.height id ≤ bound := by
  rw [h.height_eq hd]
  exact foldr_max_le hb

theorem height_of_parts_nil (h : t.WellFormed) {id : TypeId} {data : TypeData}
    (hd : t.lookup id = some data) (hp : data.parts = []) : t.height id = 0 := by
  rw [h.height_eq hd, hp]
  rfl

theorem lookup_null (h : t.WellFormed) : t.lookup .null = some (.value "null" "null") :=
  h.lookup_fixed (by simp [fixedTypes])

theorem lookup_undefined (h : t.WellFormed) :
    t.lookup .undefined = some (.value "undefined" "undefined") :=
  h.lookup_fixed (by simp [fixedTypes])

end WellFormed

/-- What is there keeps its height when types are added. -/
theorem Extends.height_eq {t u : Table} (hx : t.Extends u) (ht : t.WellFormed) (hu : u.WellFormed)
    {id : TypeId} (hid : t.Issued id) : u.height id = t.height id := by
  obtain ⟨index⟩ := id
  induction index using Nat.strongRecOn with
  | _ index ih =>
    obtain ⟨data, hd⟩ := issued_iff.mp hid
    rw [ht.height_eq hd, hu.height_eq (hx _ _ hd)]
    refine List.foldr_ext _ _ _ fun part hp above => ?_
    rw [ih part.index (ht.descends hd part hp) (ht.issued_part hd hp)]

/-! ## The rules without a limit -/

namespace Calls

variable {t : Table} {e a p q : TypeId}

/-- Every pair that is asked for has a smaller sum of handles. -/
theorem index_lt (h : t.WellFormed) (hc : t.Calls e a p q) :
    p.index + q.index < e.index + a.index := by
  cases hc with
  | null ha =>
    subst ha
    simp [TypeId.null, TypeId.nullDefault]
  | undefined ha =>
    subst ha
    simp [TypeId.undefined, TypeId.uninitialized]
  | actual hq => have := h.index_lt hq; omega
  | expected hp => have := h.index_lt hp; omega
  | both hp hq => have := h.index_lt hp; have := h.index_lt hq; omega
  | swapped hp hq => have := h.index_lt hp; have := h.index_lt hq; omega
  | merged hp hq hm =>
    have := h.index_lt hp
    have := h.index_lt hq
    have := h.index_lt hm
    omega

end Calls

/-- The rules without a limit on the levels, by recursion on the sum of the two handles. -/
def checkFully (t : Table) (expected actual : TypeId) : Except Failure Unit :=
  t.checkPair
    (fun p q =>
      -- always so in a table that can be built, see `checkFully_eq`
      if p.index + q.index < expected.index + actual.index then t.checkFully p q
      else throw (.typeClassMismatch p q))
    expected actual
termination_by expected.index + actual.index

theorem WellFormed.checkFully_eq {t : Table} (h : t.WellFormed) (e a : TypeId) :
    t.checkFully e a = t.checkPair t.checkFully e a := by
  rw [checkFully]
  refine checkPair_congr fun p q hc => ?_
  rw [if_pos (hc.index_lt h)]

/-! ## The rules for a number of levels -/

/-- The rules for `levels` levels; what lies deeper does not fit. -/
def checkLevels (t : Table) : (levels : Nat) → (expected actual : TypeId) → Except Failure Unit
  | 0, expected, actual => throw (.typeClassMismatch expected actual)
  | levels + 1, expected, actual => t.checkPair (t.checkLevels levels) expected actual

/-- The limit rejects more and accepts nothing more. -/
theorem WellFormed.checkFully_of_checkLevels {t : Table} (h : t.WellFormed) :
    ∀ {levels : Nat} {e a : TypeId}, t.checkLevels levels e a = .ok () →
      t.checkFully e a = .ok () := by
  intro levels
  induction levels with
  | zero =>
    intro e a hok
    exact absurd hok throw_ne_ok
  | succ levels ih =>
    intro e a hok
    rw [h.checkFully_eq]
    exact checkPair_mono (.refl t) (fun p q => ih) hok

/-- How many levels below the first a pair needs. -/
def rank (t : Table) (expected actual : TypeId) : Nat :=
  t.height expected + t.height actual +
    if actual = .null ∨ actual = .undefined then 0 else 1

theorem WellFormed.rank_of_partOf {t : Table} (h : t.WellFormed) {part whole e : TypeId}
    (hp : t.PartOf part whole) : t.rank e whole = t.height e + t.height whole + 1 := by
  have hno : ¬ (whole = .null ∨ whole = .undefined) := by
    obtain ⟨data, hd, hmem⟩ := hp
    rintro (rfl | rfl)
    · rw [h.lookup_null] at hd
      cases hd
      cases hmem
    · rw [h.lookup_undefined] at hd
      cases hd
      cases hmem
  rw [rank, if_neg hno]

theorem rank_le (t : Table) (e a : TypeId) : t.rank e a ≤ t.height e + t.height a + 1 := by
  unfold rank
  split <;> omega

theorem Calls.rank_lt {t : Table} {e a p q : TypeId} (h : t.WellFormed)
    (hc : t.Calls e a p q) : t.rank p q < t.rank e a := by
  cases hc with
  | null ha =>
    subst ha
    have hnull := h.height_of_parts_nil h.lookup_null rfl
    rw [rank, rank, if_pos (.inl rfl), if_neg (by decide), hnull]
    omega
  | undefined ha =>
    subst ha
    have hnone := h.height_of_parts_nil h.lookup_undefined rfl
    rw [rank, rank, if_pos (.inr rfl), if_neg (by decide), hnone]
    omega
  | actual hq =>
    have hlt := h.height_lt hq
    have hle := t.rank_le e q
    rw [h.rank_of_partOf hq]
    omega
  | expected hp =>
    have hlt := h.height_lt hp
    unfold rank
    omega
  | both hp hq =>
    have hltp := h.height_lt hp
    have hltq := h.height_lt hq
    have hle := t.rank_le p q
    rw [h.rank_of_partOf hq]
    omega
  | swapped hp hq =>
    -- the two heights change places, and each of them falls
    have hltp := h.height_lt hp
    have hltq := h.height_lt hq
    have hle := t.rank_le p q
    rw [h.rank_of_partOf hq]
    omega
  | merged hp hq hm =>
    have hltp := h.height_lt hp
    have hltq := h.height_lt hq
    have hltm := h.height_lt hm
    have hle := t.rank_le p q
    rw [h.rank_of_partOf hm]
    omega

/-- With more levels than the rank the limit makes no difference. -/
theorem WellFormed.checkLevels_eq {t : Table} (h : t.WellFormed) :
    ∀ {levels : Nat} {e a : TypeId}, t.rank e a < levels →
      t.checkLevels levels e a = t.checkFully e a := by
  intro levels
  induction levels with
  | zero => intro e a hlt; omega
  | succ levels ih =>
    intro e a hlt
    rw [h.checkFully_eq, checkLevels]
    refine checkPair_congr fun p q hc => ?_
    have hrank := hc.rank_lt h
    exact ih (by omega)

end Table

/-! ## Checkers -/

namespace Checker

theorem run_tryCatch {α : Type} (x : ExceptT Failure (StateM Checker) α)
    (handle : Failure → ExceptT Failure (StateM Checker) α) (c : Checker) :
    (tryCatch x handle).run.run c =
      match x.run.run c with
      | (.ok a, c) => (.ok a, c)
      | (.error failure, c) => (handle failure).run.run c := by
  simp only [tryCatch, tryCatchThe, MonadExceptOf.tryCatch, ExceptT.tryCatch, ExceptT.run,
    ExceptT.mk, StateT.run_bind]
  rcases StateT.run x c with ⟨_ | _, d⟩ <;> rfl

/-- A check that leaves the checker as it was and gives a plain answer. -/
def Answers (c : Checker) (α : Type) (check : ExceptT Failure (StateM Checker) α)
    (answer : Except Failure α) : Prop :=
  check.run.run c = (answer, c)

theorem answers_bind {c : Checker} {α β : Type} {x : ExceptT Failure (StateM Checker) α}
    {y : Except Failure α} {f : α → ExceptT Failure (StateM Checker) β}
    {g : α → Except Failure β} (hx : c.Answers α x y) (hf : ∀ a, c.Answers β (f a) (g a)) :
    c.Answers β (x >>= f) (y >>= g) := by
  simp only [Answers] at hx hf ⊢
  rw [ExceptT.run_bind, StateT.run_bind, hx]
  cases y with
  | error failure => rfl
  | ok a => exact hf a

theorem agreement_answers (c : Checker) : Agreement c.Answers where
  pure _ := rfl
  throw _ := rfl
  bind := answers_bind
  passes := by
    intro x y hx
    have hseq : c.Answers Bool (do x; pure true) (do y; pure true) := answers_bind hx fun _ => rfl
    rw [passes_eq]
    simp only [Answers, passes] at hseq ⊢
    rw [run_tryCatch, hseq]
    cases y <;> rfl

theorem run_checkWithin (t : Table) (rounds : Nat) (e a : TypeId) (c : Checker) :
    (checkWithin t (rounds + 1) e a).run.run c =
      if Table.maxLevels ≤ c.depth then (.error (.typeClassMismatch e a), c)
      else
        match (t.checkPair (checkWithin t rounds) e a).run.run c.enter with
        | (answer, c) => (answer, c.leave) := by
  simp only [checkWithin, ExceptT.run_mk, StateT.run_bind, StateT.run_get, pure_bind]
  by_cases h : Table.maxLevels ≤ c.depth
  · simp only [h, if_true]
    rfl
  · simp only [h, if_false]
    rfl

theorem leave_enter (c : Checker) : c.enter.leave = c := by
  simp [enter, leave]

/-- A checker with enough rounds gives the answer for the levels it has left. -/
theorem checkWithin_answers (t : Table) :
    ∀ {rounds : Nat} {c : Checker} {e a : TypeId}, Table.maxLevels - c.depth ≤ rounds →
      c.Answers Unit (checkWithin t rounds e a)
        (t.checkLevels (Table.maxLevels - c.depth) e a) := by
  intro rounds
  induction rounds with
  | zero =>
    intro c e a hle
    rw [Nat.le_zero.mp hle]
    rfl
  | succ rounds ih =>
    intro c e a hle
    rw [Answers, run_checkWithin]
    by_cases hdeep : Table.maxLevels ≤ c.depth
    · rw [if_pos hdeep, Nat.sub_eq_zero_of_le hdeep]
      rfl
    · have hleft : Table.maxLevels - c.depth = Table.maxLevels - c.enter.depth + 1 := by
        simp only [enter]
        omega
      have hinner : c.enter.Answers Unit (t.checkPair (checkWithin t rounds) e a)
          (t.checkPair (t.checkLevels (Table.maxLevels - c.enter.depth)) e a) := by
        refine (agreement_answers c.enter).checkPair fun p q _ => ih ?_
        omega
      rw [Answers] at hinner
      rw [if_neg hdeep, hinner, hleft, Table.checkLevels]
      simp only [leave_enter]

/-- A checker is after a check what it was before, and gives the answer for the levels left. -/
theorem check_eq (c : Checker) (t : Table) (e a : TypeId) :
    c.check t e a = (t.checkLevels (Table.maxLevels - c.depth) e a, c) :=
  checkWithin_answers t (Nat.sub_le ..)

/-- The answers of one checker to one pair of types after the other. -/
def checkAll (c : Checker) (t : Table) :
    List (TypeId × TypeId) → List (Except Failure Unit) × Checker
  | [] => ([], c)
  | (expected, actual) :: rest =>
    let (answer, c) := c.check t expected actual
    let (answers, c) := c.checkAll t rest
    (answer :: answers, c)

theorem checkAll_eq (c : Checker) (t : Table) (pairs : List (TypeId × TypeId)) :
    c.checkAll t pairs = (pairs.map fun pair => (c.check t pair.1 pair.2).1, c) := by
  induction pairs with
  | nil => rfl
  | cons pair rest ih =>
    obtain ⟨expected, actual⟩ := pair
    simp only [checkAll, check_eq] at ih ⊢
    rw [ih]
    rfl

end Checker

namespace Table

theorem check_eq_checkLevels (t : Table) (e a : TypeId) :
    t.check e a = t.checkLevels maxLevels e a := by
  rw [check, Checker.check_eq]
  rfl

theorem checkLevels_extends {t u : Table} (hx : t.Extends u) :
    ∀ {levels : Nat} {e a : TypeId}, t.checkLevels levels e a = .ok () →
      u.checkLevels levels e a = .ok () := by
  intro levels
  induction levels with
  | zero => exact fun hok => absurd hok throw_ne_ok
  | succ levels ih => exact checkPair_mono hx fun _ _ => ih

/-- What fits goes on fitting when types are added. -/
theorem isSubtype_extends {t u : Table} (hx : t.Extends u) {e a : TypeId} (h : t.isSubtype e a) :
    u.isSubtype e a := by
  rw [isSubtype, isOk_iff, check_eq_checkLevels] at h ⊢
  exact checkLevels_extends hx h

theorem WellFormed.check_eq_checkFully {t : Table} (h : t.WellFormed) {e a : TypeId}
    (hh : t.height e + t.height a ≤ 254) : t.check e a = t.checkFully e a := by
  have hrank := t.rank_le e a
  rw [check_eq_checkLevels]
  refine h.checkLevels_eq ?_
  simp only [maxLevels]
  omega

end Table

/-- The limit of a checker against the rules without one, `Table.checkFully`: it only ever rejects
more, it makes no difference for types whose heights add up to at most 250, and it is the same for
every check that one checker makes. -/
theorem check_against_full_rules {t : Table} (h : Reachable t) (e a : TypeId) :
    t.checkFully e a = t.checkPair t.checkFully e a ∧
    (t.check e a = .ok () → t.checkFully e a = .ok ()) ∧
    (t.height e + t.height a ≤ 250 → t.check e a = t.checkFully e a) ∧
    (∀ c : Checker, (c.check t e a).2.depth = c.depth) ∧
    ∀ pairs : List (TypeId × TypeId), ({} : Checker).checkAll t pairs =
      (pairs.map fun pair => t.check pair.1 pair.2, {}) := by
  have hwf := h.wellFormed
  refine ⟨hwf.checkFully_eq e a, ?_, ?_, ?_, ?_⟩
  · intro hok
    rw [Table.check_eq_checkLevels] at hok
    exact hwf.checkFully_of_checkLevels hok
  · intro hh
    exact hwf.check_eq_checkFully (by omega)
  · intro c
    rw [Checker.check_eq]
  · intro pairs
    exact Checker.checkAll_eq {} t pairs

/-- `Array<String | null>` against `String`: the checker answers as the rules do. -/
theorem check_against_full_rules_nullableStrings :
    Reachable nullableStrings ∧
      nullableStrings.height .string + nullableStrings.height ⟨20⟩ ≤ 250 ∧
      nullableStrings.check .string ⟨20⟩ = nullableStrings.checkFully .string ⟨20⟩ ∧
      nullableStrings.check .string ⟨20⟩ = .error (.typeClassMismatch .string ⟨20⟩) := by
  have hh : nullableStrings.height .string + nullableStrings.height ⟨20⟩ ≤ 250 := by decide
  have hr := reachable_nullableStrings
  exact ⟨hr, hh, (check_against_full_rules hr .string ⟨20⟩).2.2.1 hh, by decide +kernel⟩

end HeaderCheck.Types
