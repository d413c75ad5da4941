import HeaderCheck.Proofs.Types.Reachable
import HeaderCheck.Types.Subtype

/-!
# HeaderCheck.Proofs.Types.Rules

What one round of the subtyping rules depends on.

* `Table.Calls t e a p q`: the rules for the pair `(e, a)` may ask for the pair `(p, q)`.
* `Agreement rel`: a relation between checks that run in some monad and plain answers, which is
  kept by every way the rules put checks together.
* `Agreement.checkPair`: related checks of the pairs asked for give related checks of the whole.
  Equality gives congruence (`checkPair_congr`), and the relation of a counting checker to its
  answers is an instance too.
* `checkPair_mono`: the rules never turn the success of a part into the failure of the whole.

The last part reads success off the rules: `checkEach_eq_ok`, `checkObject_eq_ok` and so on.
-/

namespace HeaderCheck.Types

/-! ## What the rules ask for -/

/-- The pairs that the rules for `(e, a)` may ask for. -/
inductive Table.Calls (t : Table) (e a : TypeId) : TypeId → TypeId → Prop where
  /-- A variable set to `null` counts as `null`. -/
  | null : a = .nullDefault → Calls t e a e .null
  /-- A variable without a value counts as `undefined`. -/
  | undefined : a = .uninitialized → Calls t e a e .undefined
  | actual {q : TypeId} : t.PartOf q a → Calls t e a e q
  | expected {p : TypeId} : t.PartOf p e → Calls t e a p a
  | both {p q : TypeId} : t.PartOf p e → t.PartOf q a → Calls t e a p q
  /-- Parameters are compared the other way round. -/
  | swapped {p q : TypeId} : t.PartOf p e → t.PartOf q a → Calls t e a q p
  /-- The fields of an intersection of objects are those of its members. -/
  | merged {p q member : TypeId} :
      t.PartOf p e → t.PartOf q member → t.PartOf member a → Calls t e a p q

namespace Table

theorem mem_mergeShape {merged shape : ObjectShape} {field : Field}
    (h : field ∈ (mergeShape merged shape).fields) :
    field ∈ merged.fields ∨ field ∈ shape.fields := by
  obtain ⟨fields, isOpen, brand⟩ := merged
  simp only [mergeShape] at h ⊢
  generalize shape.fields = added at h ⊢
  induction added generalizing fields with
  | nil => exact .inl h
  | cons new rest ih =>
    rw [List.foldl_cons] at h
    rcases ih _ h with hold | hrest
    · -- a name that is there already keeps its first field
      split at hold
      · exact .inl hold
      · rcases List.mem_append.mp hold with hold | hnew
        · exact .inl hold
        · exact .inr (List.mem_cons.mpr (.inl (List.mem_singleton.mp hnew)))
    · exact .inr (List.mem_cons_of_mem _ hrest)

theorem mem_foldl_mergeShape {shapes : List ObjectShape} :
    ∀ {merged : ObjectShape} {field : Field},
      field ∈ (shapes.foldl mergeShape merged).fields →
      field ∈ merged.fields ∨ ∃ shape ∈ shapes, field ∈ shape.fields := by
  induction shapes with
  | nil =>
    intro merged field h
    exact .inl h
  | cons shape rest ih =>
    intro merged field h
    rcases ih h with h | ⟨other, ho, hf⟩
    · rcases mem_mergeShape h with h | h
      · exact .inl h
      · exact .inr ⟨shape, List.mem_cons_self .., h⟩
    · exact .inr ⟨other, List.mem_cons_of_mem _ ho, hf⟩

theorem mapM_eq_some {α β : Type} {f : α → Option β} {items : List α} {found : List β} :
    items.mapM f = some found ↔ items.map f = found.map some := by
  induction items generalizing found with
  | nil => cases found <;> simp
  | cons item rest ih =>
    cases found with
    | nil => cases hitem : f item <;> cases hrest : rest.mapM f <;> simp [hitem, hrest]
    | cons first others =>
      rw [List.map_cons, List.map_cons, List.cons.injEq, ← ih]
      cases hitem : f item <;> cases hrest : rest.mapM f <;> simp [hitem, hrest]

/-- A field of merged objects is a field of one of them. -/
theorem partOf_of_mergeObjects? {t : Table} {members : List TypeId} {merged : ObjectShape}
    (h : t.mergeObjects? members = some merged) {field : Field} (hf : field ∈ merged.fields) :
    ∃ member ∈ members, t.PartOf field.type member := by
  simp only [mergeObjects?, Option.map_eq_some_iff] at h
  obtain ⟨shapes, hshapes, rfl⟩ := h
  rcases mem_foldl_mergeShape hf with hf | ⟨shape, hs, hf⟩
  · cases hf
  · have hmapped : some shape ∈ members.map t.objectShape? := by
      rw [mapM_eq_some.mp hshapes]
      exact List.mem_map_of_mem hs
    obtain ⟨member, hm, hshape⟩ := List.mem_map.mp hmapped
    exact ⟨member, hm, _, objectShape?_eq_some.mp hshape, List.mem_map.mpr ⟨field, hf, rfl⟩⟩

end Table

/-! ## Checks that agree with plain answers -/

theorem param_mem_parts {shape : FunctionShape} {param : Param} (h : param ∈ shape.params) :
    param.type ∈ (TypeData.function shape).parts := by
  simpa [TypeData.parts] using .inl ⟨param, h, rfl⟩

theorem result_mem_parts (shape : FunctionShape) :
    shape.result ∈ (TypeData.function shape).parts := by
  simp [TypeData.parts]

section Agree

variable {m : Type → Type} [Monad m] [MonadExcept Failure m]

/-- A relation between checks in a monad and plain answers that is kept by the ways in which the
rules put checks together. -/
structure Agreement (rel : (α : Type) → m α → Except Failure α → Prop) : Prop where
  pure : ∀ {α : Type} (x : α), rel α (pure x) (pure x)
  throw : ∀ {α : Type} (failure : Failure), rel α (throw failure) (throw failure)
  bind : ∀ {α β : Type} {x : m α} {y : Except Failure α} {f : α → m β}
    {g : α → Except Failure β}, rel α x y → (∀ a, rel β (f a) (g a)) →
      rel β (x >>= f) (y >>= g)
  passes : ∀ {x : m Unit} {y : Except Failure Unit}, rel Unit x y →
    rel Bool (passes x) (passes y)

namespace Agreement

variable {rel : (α : Type) → m α → Except Failure α → Prop}

theorem checkEach (A : Agreement rel) {α : Type} {check : α → m Unit}
    {answer : α → Except Failure Unit} {items : List α}
    (h : ∀ item ∈ items, rel Unit (check item) (answer item)) :
    rel Unit (checkEach check items) (checkEach answer items) := by
  induction items with
  | nil => exact A.pure ()
  | cons item rest ih =>
    refine A.bind (h item (List.mem_cons_self ..)) fun _ => ?_
    exact ih fun other ho => h other (List.mem_cons_of_mem _ ho)

theorem passesAny (A : Agreement rel) {α : Type} {check : α → m Unit}
    {answer : α → Except Failure Unit} {items : List α}
    (h : ∀ item ∈ items, rel Unit (check item) (answer item)) :
    rel Bool (passesAny check items) (passesAny answer items) := by
  induction items with
  | nil => exact A.pure false
  | cons item rest ih =>
    refine A.bind (A.passes (h item (List.mem_cons_self ..))) fun passed => ?_
    cases passed with
    | true => exact A.pure true
    | false => exact ih fun other ho => h other (List.mem_cons_of_mem _ ho)

variable {check : TypeId → TypeId → m Unit} {answer : TypeId → TypeId → Except Failure Unit}
  {expected actual : TypeId}

theorem checkObject (A : Agreement rel) {parent child : ObjectShape}
    (h : ∀ field ∈ parent.fields, ∀ found ∈ child.fields,
      rel Unit (check field.type found.type) (answer field.type found.type)) :
    rel Unit (Table.checkObject check expected actual parent child)
      (Table.checkObject answer expected actual parent child) := by
  unfold Table.checkObject
  split
  · exact A.throw _
  · refine A.checkEach fun field hf => ?_
    cases hfound : child.find? field.name with
    | some found => exact h field hf found (List.mem_of_find?_eq_some hfound)
    | none =>
      cases ho : field.optional with
      | true => exact A.pure ()
      | false => exact A.throw _

theorem checkFunction (A : Agreement rel) {parent child : FunctionShape}
    (hparams : ∀ p ∈ parent.params, ∀ c ∈ child.params,
      rel Unit (check c.type p.type) (answer c.type p.type))
    (hresult : rel Unit (check parent.result child.result) (answer parent.result child.result))
    (hthis : ∀ p c, parent.this = some p → child.this = some c →
      rel Unit (check p c) (answer p c)) :
    rel Unit (Table.checkFunction check expected actual parent child)
      (Table.checkFunction answer expected actual parent child) := by
  unfold Table.checkFunction
  split
  · exact A.throw _
  · refine A.bind (A.checkEach fun pair hpair => ?_) fun _ => A.bind hresult fun _ => ?_
    · obtain ⟨hp, hc⟩ := List.of_mem_zip hpair
      exact hparams pair.1 hp pair.2 hc
    · cases hp : parent.this with
      | none => exact A.pure ()
      | some p =>
        cases hc : child.this with
        | none => exact A.pure ()
        | some c => exact hthis p c hp hc

variable {t : Table} {parent child : TypeData}

theorem checkForms (A : Agreement rel) (he : t.lookup expected = some parent)
    (ha : t.lookup actual = some child)
    (h : ∀ p q, t.Calls expected actual p q → rel Unit (check p q) (answer p q)) :
    rel Unit (Table.checkForms check expected actual parent child)
      (Table.checkForms answer expected actual parent child) := by
  have hboth : ∀ p ∈ parent.parts, ∀ q ∈ child.parts, rel Unit (check p q) (answer p q) :=
    fun p hp q hq => h p q (.both ⟨parent, he, hp⟩ ⟨child, ha, hq⟩)
  have hzip : ∀ ps qs : List TypeId, (∀ p ∈ ps, p ∈ parent.parts) → (∀ q ∈ qs, q ∈ child.parts) →
      rel Unit (Types.checkEach (fun pair => check pair.1 pair.2) (ps.zip qs))
        (Types.checkEach (fun pair => answer pair.1 pair.2) (ps.zip qs)) := by
    intro ps qs hps hqs
    refine A.checkEach fun pair hpair => ?_
    obtain ⟨hp, hq⟩ := List.of_mem_zip hpair
    exact hboth pair.1 (hps _ hp) pair.2 (hqs _ hq)
  have hmismatch : rel Unit (Table.checkForms.mismatch expected actual)
      (Table.checkForms.mismatch expected actual) := A.throw _
  have hnamed : ∀ p c, rel Unit (Table.checkForms.named expected actual p c)
      (Table.checkForms.named expected actual p c) := by
    intro p c
    unfold Table.checkForms.named
    split
    · exact A.pure ()
    · exact A.throw _
  unfold Table.checkForms
  split
  · exact hnamed _ _
  · exact hnamed _ _
  · next target =>
    -- another name is looked through: only the given type is taken apart
    exact h _ _ (.actual ⟨_, ha, List.mem_singleton.mpr rfl⟩)
  · split
    · exact A.pure ()
    · exact hmismatch
  · exact hnamed _ _
  · next p c =>
    refine A.checkObject fun field hf found hfound => ?_
    exact hboth _ (List.mem_map.mpr ⟨field, hf, rfl⟩) _ (List.mem_map.mpr ⟨found, hfound, rfl⟩)
  · next p c =>
    refine A.checkFunction ?_ (hboth _ (result_mem_parts p) _ (result_mem_parts c)) ?_
    · intro x hx y hy
      exact h _ _ (.swapped ⟨_, he, param_mem_parts hx⟩ ⟨_, ha, param_mem_parts hy⟩)
    · intro x y hx hy
      exact hboth x (by simp [TypeData.parts, hx]) y (by simp [TypeData.parts, hy])
  · next pb pa cb ca =>
    split
    · exact hmismatch
    · refine A.bind (hboth pb (List.mem_cons_self ..) cb (List.mem_cons_self ..)) fun _ => ?_
      exact hzip pa ca (fun _ => List.mem_cons_of_mem _) (fun _ => List.mem_cons_of_mem _)
  · next ps cs =>
    split
    · exact hmismatch
    · exact hzip ps cs (fun _ h => h) (fun _ h => h)
  · exact hmismatch

theorem checkIntersection (A : Agreement rel) {members : List TypeId}
    (he : t.lookup expected = some parent)
    (ha : t.lookup actual = some (.intersection members))
    (h : ∀ p q, t.Calls expected actual p q → rel Unit (check p q) (answer p q)) :
    rel Unit (t.checkIntersection check expected actual parent members)
      (t.checkIntersection answer expected actual parent members) := by
  unfold Table.checkIntersection
  refine A.bind (A.passesAny fun member hm => h _ _ (.actual ⟨_, ha, hm⟩)) fun passed => ?_
  cases passed with
  | true => exact A.pure ()
  | false =>
    simp only [Bool.false_eq_true, if_false]
    split
    · next p merged hmerged =>
      refine A.checkObject fun field hf found hfound => ?_
      obtain ⟨member, hm, hpart⟩ := Table.partOf_of_mergeObjects? hmerged hfound
      exact h _ _ (.merged ⟨_, he, List.mem_map.mpr ⟨field, hf, rfl⟩⟩ hpart ⟨_, ha, hm⟩)
    · exact A.throw _

theorem checkStructure (A : Agreement rel) (he : t.lookup expected = some parent)
    (ha : t.lookup actual = some child)
    (h : ∀ p q, t.Calls expected actual p q → rel Unit (check p q) (answer p q)) :
    rel Unit (t.checkStructure check expected actual parent child)
      (t.checkStructure answer expected actual parent child) := by
  unfold Table.checkStructure
  split
  · exact A.checkEach fun member hm => h _ _ (.actual ⟨_, ha, hm⟩)
  · refine A.bind (A.passesAny fun member hm => h _ _ (.expected ⟨_, he, hm⟩)) fun passed => ?_
    cases passed with
    | true => exact A.pure ()
    | false => exact A.throw _
  · exact A.checkEach fun member hm => h _ _ (.expected ⟨_, he, hm⟩)
  · exact A.checkIntersection he ha h
  · exact A.checkForms he ha h

theorem checkData (A : Agreement rel) (he : t.lookup expected = some parent)
    (ha : t.lookup actual = some child)
    (h : ∀ p q, t.Calls expected actual p q → rel Unit (check p q) (answer p q)) :
    rel Unit (t.checkData check expected actual parent child)
      (t.checkData answer expected actual parent child) := by
  unfold Table.checkData
  split
  · exact A.pure ()
  split
  · exact A.pure ()
  split
  · next hnull => exact h _ _ (.null hnull)
  split
  · next hnone => exact h _ _ (.undefined hnone)
  · exact A.checkStructure he ha h

/-- Two types are compared alike when the pairs that the rules ask for are. -/
theorem checkPair (A : Agreement rel)
    (h : ∀ p q, t.Calls expected actual p q → rel Unit (check p q) (answer p q)) :
    rel Unit (t.checkPair check expected actual) (t.checkPair answer expected actual) := by
  unfold Table.checkPair
  split
  · exact A.pure ()
  · split
    · next he ha => exact A.checkData he ha h
    · exact A.throw _

end Agreement

end Agree

theorem agreement_eq : Agreement (m := Except Failure) fun _ x y => x = y where
  pure _ := rfl
  throw _ := rfl
  bind := by
    intro α β x y f g hx hf
    rw [hx, funext hf]
  passes := by
    intro x y h
    rw [h]

/-- The rules see no more of a check than its answers to the pairs they ask for. -/
theorem Table.checkPair_congr {t : Table} {f g : TypeId → TypeId → Except Failure Unit}
    {e a : TypeId} (h : ∀ p q, t.Calls e a p q → f p q = g p q) :
    t.checkPair f e a = t.checkPair g e a :=
  agreement_eq.checkPair h

/-! ## Success -/

section Success

variable {f g : TypeId → TypeId → Except Failure Unit} {e a : TypeId}

theorem bind_eq_ok {x y : Except Failure Unit} :
    (x >>= fun _ => y) = .ok () ↔ x = .ok () ∧ y = .ok () := by
  cases x with
  | error failure => simp [bind, Except.bind]
  | ok _ => simp [bind, Except.bind]

theorem throw_ne_ok {failure : Failure} : (throw failure : Except Failure Unit) ≠ .ok () := by
  intro h
  cases h

theorem checkEach_eq_ok {α : Type} {answer : α → Except Failure Unit} {items : List α} :
    checkEach answer items = .ok () ↔ ∀ item ∈ items, answer item = .ok () := by
  induction items with
  | nil => simp [checkEach, pure, Except.pure]
  | cons item rest ih => rw [checkEach, bind_eq_ok, ih, List.forall_mem_cons]

theorem passes_eq (x : Except Failure Unit) : passes x = .ok x.isOk := by
  cases x <;> rfl

theorem isOk_iff {x : Except Failure Unit} : x.isOk = true ↔ x = .ok () := by
  cases x <;> simp [Except.isOk, Except.toBool]

theorem passesAny_eq {α : Type} (answer : α → Except Failure Unit) (items : List α) :
    passesAny answer items = .ok (items.any fun item => (answer item).isOk) := by
  induction items with
  | nil => rfl
  | cons item rest ih =>
    rw [passesAny, passes_eq, List.any_cons]
    cases hitem : (answer item).isOk with
    | true => rfl
    | false => exact ih

/-- A choice between members succeeds when one of them does. -/
theorem passesAny_eq_ok {α : Type} {answer : α → Except Failure Unit} {items : List α}
    {otherwise : Except Failure Unit} :
    (do if ← passesAny answer items then pure () else otherwise) = Except.ok () ↔
      (∃ item ∈ items, answer item = .ok ()) ∨ otherwise = .ok () := by
  rw [passesAny_eq]
  by_cases hany : ∃ item ∈ items, answer item = .ok ()
  · have htrue : (items.any fun item => (answer item).isOk) = true := by
      simpa only [List.any_eq_true, isOk_iff] using hany
    rw [htrue]
    exact iff_of_true rfl (.inl hany)
  · have hfalse : (items.any fun item => (answer item).isOk) = false := by
      rw [Bool.eq_false_iff]
      simpa only [ne_eq, List.any_eq_true, isOk_iff] using hany
    rw [hfalse]
    constructor
    · exact fun h => .inr h
    · rintro (h | h)
      · exact absurd h hany
      · exact h

namespace Table

theorem checkObject_eq_ok {parent child : ObjectShape} :
    checkObject f e a parent child = .ok () ↔
      (parent.brand = plainBrand ∨ parent.brand = child.brand) ∧
      ∀ field ∈ parent.fields,
        (∀ found, child.find? field.name = some found → f field.type found.type = .ok ()) ∧
        (child.find? field.name = none → field.optional = true) := by
  unfold checkObject
  by_cases hb : parent.brand ≠ plainBrand ∧ parent.brand ≠ child.brand
  · rw [if_pos hb]
    refine iff_of_false throw_ne_ok ?_
    rintro ⟨h | h, _⟩
    · exact hb.1 h
    · exact hb.2 h
  · rw [if_neg hb, checkEach_eq_ok]
    have hbrand : parent.brand = plainBrand ∨ parent.brand = child.brand := by
      by_contra hno
      exact hb (not_or.mp hno)
    constructor
    · intro h
      refine ⟨hbrand, fun field hf => ?_⟩
      have hfield := h field hf
      cases hfound : child.find? field.name with
      | some found =>
        rw [hfound] at hfield
        refine ⟨?_, nofun⟩
        rintro _ ⟨⟩
        exact hfield
      | none =>
        rw [hfound] at hfield
        refine ⟨nofun, fun _ => ?_⟩
        by_contra hno
        rw [Bool.not_eq_true] at hno
        simp only [hno] at hfield
        exact throw_ne_ok hfield
    · rintro ⟨_, h⟩ field hf
      obtain ⟨hsome, hnone⟩ := h field hf
      cases hfound : child.find? field.name with
      | some found => exact hsome found hfound
      | none =>
        simp only [hnone hfound]
        rfl

theorem checkFunction_eq_ok {parent child : FunctionShape} :
    checkFunction f e a parent child = .ok () ↔
      child.requiredParams ≤ parent.params.length ∧
      (∀ pair ∈ parent.params.zip child.params, f pair.2.type pair.1.type = .ok ()) ∧
      f parent.result child.result = .ok () ∧
      ∀ p c, parent.this = some p → child.this = some c → f p c = .ok () := by
  unfold checkFunction
  by_cases hlen : parent.params.length < child.requiredParams
  · rw [if_pos hlen]
    refine iff_of_false throw_ne_ok ?_
    rintro ⟨h, _⟩
    omega
  · rw [if_neg hlen, bind_eq_ok, bind_eq_ok, checkEach_eq_ok, and_iff_right (Nat.not_lt.mp hlen)]
    refine and_congr_right fun _ => and_congr_right fun _ => ?_
    cases parent.this with
    | none => simp [pure, Except.pure]
    | some p =>
      cases child.this with
      | none => simp [pure, Except.pure]
      | some c => simp

theorem checkIntersection_eq_ok {t : Table} {parent : TypeData} {members : List TypeId} :
    t.checkIntersection f e a parent members = .ok () ↔
      (∃ member ∈ members, f e member = .ok ()) ∨
      ∃ p merged, parent = .object p ∧ t.mergeObjects? members = some merged ∧
        checkObject f e a p merged = .ok () := by
  unfold checkIntersection
  rw [passesAny_eq_ok]
  refine or_congr_right ?_
  split
  · next p merged hmerged =>
    constructor
    · intro h
      exact ⟨p, merged, rfl, hmerged, h⟩
    · rintro ⟨_, _, ⟨⟩, hm, h⟩
      rw [hmerged] at hm
      cases hm
      exact h
  · next hno =>
    refine iff_of_false throw_ne_ok ?_
    rintro ⟨p, merged, hp, hm, _⟩
    exact hno p merged hp hm

/-! ## More success below, more success above -/

theorem checkObject_mono (h : ∀ p q, f p q = .ok () → g p q = .ok ())
    {parent child : ObjectShape} (hf : checkObject f e a parent child = .ok ()) :
    checkObject g e a parent child = .ok () := by
  rw [checkObject_eq_ok] at hf ⊢
  refine ⟨hf.1, fun field hfield => ?_⟩
  obtain ⟨hsome, hnone⟩ := hf.2 field hfield
  exact ⟨fun found hfound => h _ _ (hsome found hfound), hnone⟩

theorem checkForms_mono (h : ∀ p q, f p q = .ok () → g p q = .ok ())
    {parent child : TypeData} (hf : checkForms f e a parent child = .ok ()) :
    checkForms g e a parent child = .ok () := by
  unfold checkForms at hf ⊢
  split at hf
  · exact hf
  · exact hf
  · exact h _ _ hf
  · exact hf
  · exact hf
  · exact checkObject_mono h hf
  · rw [checkFunction_eq_ok] at hf ⊢
    obtain ⟨hlen, hparams, hresult, hthis⟩ := hf
    exact ⟨hlen, fun pair hp => h _ _ (hparams pair hp), h _ _ hresult,
      fun p c hp hc => h _ _ (hthis p c hp hc)⟩
  · next pb pa cb ca =>
    split at hf
    · exact absurd hf throw_ne_ok
    · next hlen =>
      rw [bind_eq_ok, checkEach_eq_ok] at hf
      simp only [hlen, if_false]
      rw [bind_eq_ok, checkEach_eq_ok]
      exact ⟨h _ _ hf.1, fun pair hp => h _ _ (hf.2 pair hp)⟩
  · next ps cs =>
    split at hf
    · exact absurd hf throw_ne_ok
    · next hlen =>
      rw [checkEach_eq_ok] at hf
      simp only [hlen, if_false]
      rw [checkEach_eq_ok]
      exact fun pair hp => h _ _ (hf pair hp)
  · exact absurd hf throw_ne_ok

/-- What members are merged to stays the same when types are added. -/
theorem Extends.mergeObjects? {t u : Table} (hx : t.Extends u) {members : List TypeId}
    {merged : ObjectShape} (h : t.mergeObjects? members = some merged) :
    u.mergeObjects? members = some merged := by
  obtain ⟨shapes, hshapes, hmerged⟩ := Option.map_eq_some_iff.mp h
  rw [mapM_eq_some] at hshapes
  refine Option.map_eq_some_iff.mpr ⟨shapes, mapM_eq_some.mpr (.trans ?_ hshapes), hmerged⟩
  refine List.map_congr_left fun member hm => ?_
  obtain ⟨shape, -, hshape⟩ := List.mem_map.mp (hshapes ▸ List.mem_map_of_mem hm)
  rw [← hshape]
  exact objectShape?_eq_some.mpr (hx _ _ (objectShape?_eq_some.mp hshape.symm))

theorem checkStructure_mono {t u : Table} (hx : t.Extends u)
    (h : ∀ p q, f p q = .ok () → g p q = .ok ()) {parent child : TypeData} :
    t.checkStructure f e a parent child = .ok () →
      u.checkStructure g e a parent child = .ok () := by
  unfold checkStructure
  split
  · rw [checkEach_eq_ok, checkEach_eq_ok]
    exact fun hf member hm => h _ _ (hf member hm)
  · rw [passesAny_eq_ok, passesAny_eq_ok]
    rintro (⟨member, hm, hf⟩ | hf)
    · exact .inl ⟨member, hm, h _ _ hf⟩
    · exact .inr hf
  · rw [checkEach_eq_ok, checkEach_eq_ok]
    exact fun hf member hm => h _ _ (hf member hm)
  · rw [checkIntersection_eq_ok, checkIntersection_eq_ok]
    rintro (⟨member, hm, hf⟩ | ⟨p, merged, hp, hmerged, hf⟩)
    · exact .inl ⟨member, hm, h _ _ hf⟩
    · exact .inr ⟨p, merged, hp, hx.mergeObjects? hmerged, checkObject_mono h hf⟩
  · exact checkForms_mono h

theorem checkData_mono {t u : Table} (hx : t.Extends u)
    (h : ∀ p q, f p q = .ok () → g p q = .ok ()) {parent child : TypeData} :
    t.checkData f e a parent child = .ok () → u.checkData g e a parent child = .ok () := by
  unfold checkData
  split
  · exact fun hf => hf
  split
  · exact fun hf => hf
  split
  · exact h _ _
  split
  · exact h _ _
  · exact checkStructure_mono hx h

/-- No rule needs a part to fail, or a type not to be there. -/
theorem checkPair_mono {t u : Table} (hx : t.Extends u)
    (h : ∀ p q, f p q = .ok () → g p q = .ok ()) :
    t.checkPair f e a = .ok () → u.checkPair g e a = .ok () := by
  unfold checkPair
  split
  · exact fun hf => hf
  · split
    · next parent child hparent hchild =>
      rw [hx _ _ hparent, hx _ _ hchild]
      exact checkData_mono hx h
    · exact fun hf => absurd hf throw_ne_ok

end Table

end Success

end HeaderCheck.Types
