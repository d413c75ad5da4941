import HeaderCheck.Proofs.Types.Levels

/-!
# HeaderCheck.Proofs.Types.Failure

What the failures of a checker say.

* `Table.Holds t failure`: what a failure says is so of the two types that it names.
* `Table.Origin t f e a failure`: the pair `(e, a)` itself does not fit, for the reason given, or a
  pair that its rules ask for fails in the same way.
* `origin_of_checkPair`: every failure of the rules has such an origin.

`checkFully_innermost` follows the pairs that are asked for down to the one that a failure names
(`Table.Asks`). `check_failure_innermost` takes that back to a checker, which has levels enough on the
whole way.
-/

namespace HeaderCheck.Types

namespace Failure

/-- The type that was expected where the failure was found. -/
def expected : Failure → TypeId
  | .typeClassMismatch e _ | .missingObjectField _ e _ | .brandMismatch e _
  | .functionArgCountMismatch e _ => e

/-- The type that was given where the failure was found. -/
def actual : Failure → TypeId
  | .typeClassMismatch _ a | .missingObjectField _ _ a | .brandMismatch _ a
  | .functionArgCountMismatch _ a => a

end Failure

namespace Table

/-- The shape that a type has as one object: its own, or that of the objects it is an intersection
of. -/
def objectView? (t : Table) (id : TypeId) : Option ObjectShape :=
  match t.lookup id with
  | some (.object shape) => some shape
  | some (.intersection members) => t.mergeObjects? members
  | _ => none

/-- What a failure says of the types that it names. -/
def Holds (t : Table) : Failure → Prop
  | .typeClassMismatch _ _ => True
  | .missingObjectField name e a => ∃ parent,
      t.objectShape? e = some parent ∧
        (∃ field ∈ parent.fields, field.name = name ∧ field.optional = false) ∧
        ∀ object ∈ t.intersectionParts a, ∃ shape,
          t.objectShape? object = some shape ∧ shape.find? name = none
  | .brandMismatch e a => ∃ parent child,
      t.objectShape? e = some parent ∧ t.objectView? a = some child ∧
        parent.brand ≠ plainBrand ∧ parent.brand ≠ child.brand
  | .functionArgCountMismatch e a => ∃ parent child,
      t.functionShape? e = some parent ∧ t.functionShape? a = some child ∧
        parent.params.length < child.requiredParams

/-- Where a failure of the rules for `(e, a)` comes from, `f` comparing the parts of the two. -/
inductive Origin (t : Table) (f : TypeId → TypeId → Except Failure Unit) (e a : TypeId)
    (failure : Failure) : Prop where
  /-- The pair itself does not fit. -/
  | here : failure.expected = e → failure.actual = a → t.Holds failure → Origin t f e a failure
  /-- A pair that the rules ask for does not fit. -/
  | below {p q : TypeId} : t.Calls e a p q → f p q = .error failure → Origin t f e a failure

variable {t : Table} {f : TypeId → TypeId → Except Failure Unit} {e a : TypeId} {failure : Failure}

/-! ## Names in merged objects -/

theorem find?_eq_none {shape : ObjectShape} {name : String} :
    shape.find? name = none ↔ ∀ field ∈ shape.fields, field.name ≠ name := by
  simp [ObjectShape.find?]

/-- A name that is not among the merged fields is in neither shape. -/
theorem find?_mergeShape_eq_none {merged shape : ObjectShape} {name : String}
    (h : (mergeShape merged shape).find? name = none) :
    merged.find? name = none ∧ shape.find? name = none := by
  obtain ⟨fields, isOpen, brand⟩ := merged
  simp only [find?_eq_none, mergeShape] at h ⊢
  generalize shape.fields = added at h ⊢
  induction added generalizing fields with
  | nil => exact ⟨h, List.forall_mem_nil _⟩
  | cons new rest ih =>
    rw [List.foldl_cons] at h
    rw [List.forall_mem_cons]
    split at h
    · next hany =>
      obtain ⟨hkept, hrest⟩ := ih _ h
      -- the new name is there already, so it is none that is missing
      obtain ⟨other, hother, hname⟩ := List.any_eq_true.mp hany
      exact ⟨hkept, fun hnew => hkept other hother ((of_decide_eq_true hname).trans hnew), hrest⟩
    · obtain ⟨hkept, hrest⟩ := ih _ h
      exact ⟨fun field hf => hkept field (List.mem_append_left _ hf), hkept new (by simp), hrest⟩

theorem find?_foldl_mergeShape_eq_none {shapes : List ObjectShape} {merged : ObjectShape}
    {name : String} (h : (shapes.foldl mergeShape merged).find? name = none) :
    merged.find? name = none ∧ ∀ shape ∈ shapes, shape.find? name = none := by
  induction shapes generalizing merged with
  | nil => exact ⟨h, List.forall_mem_nil _⟩
  | cons shape rest ih =>
    obtain ⟨hmerged, hrest⟩ := ih h
    obtain ⟨hold, hshape⟩ := find?_mergeShape_eq_none hmerged
    exact ⟨hold, List.forall_mem_cons.mpr ⟨hshape, hrest⟩⟩

/-- A field that is missing in a type as one object is missing in each object that it is made of. -/
theorem find?_objectView? {child : ObjectShape} {name : String} (h : t.objectView? a = some child)
    (hnone : child.find? name = none) : ∀ object ∈ t.intersectionParts a, ∃ shape,
      t.objectShape? object = some shape ∧ shape.find? name = none := by
  rw [objectView?] at h
  split at h
  · next shape ha =>
    cases h
    rw [intersectionParts, ha]
    exact List.forall_mem_singleton.mpr ⟨child, objectShape?_eq_some.mpr ha, hnone⟩
  · next members ha =>
    obtain ⟨shapes, hshapes, rfl⟩ := Option.map_eq_some_iff.mp h
    rw [intersectionParts, ha]
    intro member hm
    rw [mapM_eq_some] at hshapes
    obtain ⟨shape, hs, hshape⟩ := List.mem_map.mp (hshapes ▸ List.mem_map_of_mem hm)
    exact ⟨shape, hshape.symm, (find?_foldl_mergeShape_eq_none hnone).2 shape hs⟩
  · cases h

/-! ## Failures of the ways in which checks are put together -/

theorem bind_eq_error {x y : Except Failure Unit} (h : (x >>= fun _ => y) = .error failure) :
    x = .error failure ∨ y = .error failure := by
  cases x with
  | error _ => exact .inl h
  | ok _ => exact .inr h

theorem checkEach_eq_error {α : Type} {answer : α → Except Failure Unit} {items : List α}
    (h : checkEach answer items = .error failure) : ∃ item ∈ items, answer item = .error failure := by
  induction items with
  | nil => cases h
  | cons item rest ih =>
    rcases bind_eq_error h with hitem | hrest
    · exact ⟨item, List.mem_cons_self, hitem⟩
    · obtain ⟨other, hother, hfails⟩ := ih hrest
      exact ⟨other, List.mem_cons_of_mem _ hother, hfails⟩

/-- When no member is taken, the failure is that of the choice and not of a member. -/
theorem passesAny_eq_error {α : Type} {answer : α → Except Failure Unit} {items : List α}
    {otherwise : Except Failure Unit}
    (h : (do if ← passesAny answer items then pure () else otherwise) = Except.error failure) :
    otherwise = .error failure := by
  rw [passesAny_eq] at h
  cases hany : items.any fun item => (answer item).isOk with
  | true =>
    rw [hany] at h
    cases h
  | false =>
    rw [hany] at h
    exact h

/-! ## Failures of the rules -/

theorem origin_of_mismatch
    (h : (throw (.typeClassMismatch e a) : Except Failure Unit) = .error failure) :
    t.Origin f e a failure := by
  cases h
  exact .here rfl rfl trivial

theorem origin_of_checkObject {parent child : ObjectShape}
    (he : t.lookup e = some (.object parent)) (ha : t.objectView? a = some child)
    (hcalls : ∀ field ∈ parent.fields, ∀ found ∈ child.fields, t.Calls e a field.type found.type)
    (h : checkObject f e a parent child = .error failure) : t.Origin f e a failure := by
  have hparent := objectShape?_eq_some.mpr he
  unfold checkObject at h
  split at h
  · next hbrand =>
    cases h
    exact .here rfl rfl ⟨parent, child, hparent, ha, hbrand⟩
  · obtain ⟨field, hfield, hfails⟩ := checkEach_eq_error h
    split at hfails
    · next found hfound =>
      exact .below (hcalls field hfield found (List.mem_of_find?_eq_some hfound)) hfails
    · next hnone =>
      split at hfails
      · cases hfails
      · next hrequired =>
        cases hfails
        exact .here rfl rfl ⟨parent, hparent,
          ⟨field, hfield, rfl, Bool.eq_false_iff.mpr hrequired⟩, find?_objectView? ha hnone⟩

theorem origin_of_checkFunction {parent child : FunctionShape}
    (he : t.lookup e = some (.function parent)) (ha : t.lookup a = some (.function child))
    (h : checkFunction f e a parent child = .error failure) : t.Origin f e a failure := by
  have hboth : ∀ p ∈ (TypeData.function parent).parts, ∀ q ∈ (TypeData.function child).parts,
      t.Calls e a p q := fun p hp q hq => .both ⟨_, he, hp⟩ ⟨_, ha, hq⟩
  unfold checkFunction at h
  split at h
  · next hcount =>
    cases h
    refine .here rfl rfl ⟨parent, child, ?_, ?_, hcount⟩
    · rw [functionShape?, he]
    · rw [functionShape?, ha]
  · rcases bind_eq_error h with hparams | hrest
    · obtain ⟨⟨p, c⟩, hpair, hfails⟩ := checkEach_eq_error hparams
      obtain ⟨hp, hc⟩ := List.of_mem_zip hpair
      exact .below (.swapped ⟨_, he, param_mem_parts hp⟩ ⟨_, ha, param_mem_parts hc⟩) hfails
    rcases bind_eq_error hrest with hresult | hthis
    · exact .below (hboth _ (result_mem_parts parent) _ (result_mem_parts child)) hresult
    · split at hthis
      · next p c hp hc =>
        exact .below (hboth p (by simp [TypeData.parts, hp]) c (by simp [TypeData.parts, hc])) hthis
      · cases hthis

variable {parent child : TypeData}

theorem origin_of_checkForms (he : t.lookup e = some parent) (ha : t.lookup a = some child)
    (h : checkForms f e a parent child = .error failure) : t.Origin f e a failure := by
  have hzip : ∀ ps qs : List TypeId, (∀ p ∈ ps, p ∈ parent.parts) → (∀ q ∈ qs, q ∈ child.parts) →
      checkEach (fun pair => f pair.1 pair.2) (ps.zip qs) = .error failure → t.Origin f e a failure := by
    intro ps qs hps hqs hfails
    obtain ⟨⟨p, q⟩, hpair, hfails⟩ := checkEach_eq_error hfails
    obtain ⟨hp, hq⟩ := List.of_mem_zip hpair
    exact .below (.both ⟨_, he, hps p hp⟩ ⟨_, ha, hqs q hq⟩) hfails
  have hnamed : ∀ p c : String, checkForms.named e a p c = Except.error failure →
      t.Origin f e a failure := by
    intro p c hfails
    unfold checkForms.named at hfails
    split at hfails
    · cases hfails
    · exact origin_of_mismatch hfails
  unfold checkForms at h
  split at h
  · exact hnamed _ _ h
  · exact hnamed _ _ h
  · exact .below (.actual ⟨_, ha, List.mem_singleton.mpr rfl⟩) h
  · split at h
    · cases h
    · exact origin_of_mismatch h
  · exact hnamed _ _ h
  · next p c =>
    refine origin_of_checkObject he (by rw [objectView?, ha]) (fun field hf found hfound => ?_) h
    exact .both ⟨_, he, List.mem_map_of_mem hf⟩ ⟨_, ha, List.mem_map_of_mem hfound⟩
  · exact origin_of_checkFunction he ha h
  · split at h
    · exact origin_of_mismatch h
    · rcases bind_eq_error h with hbase | hargs
      · exact .below (.both ⟨_, he, List.mem_cons_self⟩ ⟨_, ha, List.mem_cons_self⟩) hbase
      · exact hzip _ _ (fun _ => List.mem_cons_of_mem _) (fun _ => List.mem_cons_of_mem _) hargs
  · split at h
    · exact origin_of_mismatch h
    · exact hzip _ _ (fun _ hp => hp) (fun _ hq => hq) h
  · exact origin_of_mismatch h

theorem origin_of_checkIntersection {members : List TypeId} (he : t.lookup e = some parent)
    (ha : t.lookup a = some (.intersection members))
    (h : t.checkIntersection f e a parent members = .error failure) : t.Origin f e a failure := by
  have hmerge := passesAny_eq_error h
  split at hmerge
  · next p merged hmerged =>
    have hview : t.objectView? a = some merged := by
      rw [objectView?, ha]
      exact hmerged
    refine origin_of_checkObject he hview (fun field hf found hfound => ?_) hmerge
    obtain ⟨member, hm, hpart⟩ := partOf_of_mergeObjects? hmerged hfound
    exact .merged ⟨_, he, List.mem_map_of_mem hf⟩ hpart ⟨_, ha, hm⟩
  · exact origin_of_mismatch hmerge

theorem origin_of_checkStructure (he : t.lookup e = some parent) (ha : t.lookup a = some child)
    (h : t.checkStructure f e a parent child = .error failure) : t.Origin f e a failure := by
  unfold checkStructure at h
  split at h
  · obtain ⟨member, hm, hfails⟩ := checkEach_eq_error h
    exact .below (.actual ⟨_, ha, hm⟩) hfails
  · exact origin_of_mismatch (passesAny_eq_error h)
  · obtain ⟨member, hm, hfails⟩ := checkEach_eq_error h
    exact .below (.expected ⟨_, he, hm⟩) hfails
  · exact origin_of_checkIntersection he ha h
  · exact origin_of_checkForms he ha h

theorem origin_of_checkData (he : t.lookup e = some parent) (ha : t.lookup a = some child)
    (h : t.checkData f e a parent child = .error failure) : t.Origin f e a failure := by
  unfold checkData at h
  split at h
  · cases h
  split at h
  · cases h
  split at h
  · next hnull => exact .below (.null hnull) h
  split at h
  · next hnone => exact .below (.undefined hnone) h
  · exact origin_of_checkStructure he ha h

/-- The rules fail for a reason of their own, or as a pair fails that they ask for. -/
theorem origin_of_checkPair (h : t.checkPair f e a = .error failure) : t.Origin f e a failure := by
  unfold checkPair at h
  split at h
  · cases h
  · split at h
    · next he ha => exact origin_of_checkData he ha h
    · exact origin_of_mismatch h

/-! ## Innermost pairs -/

/-- The pairs that the rules come to, one asking for the next. -/
def Asks (t : Table) : TypeId × TypeId → TypeId × TypeId → Prop :=
  Relation.ReflTransGen fun pair next => t.Calls pair.1 pair.2 next.1 next.2

theorem Asks.rank_le (h : t.WellFormed) {pair last : TypeId × TypeId} (hasks : t.Asks pair last) :
    t.rank last.1 last.2 ≤ t.rank pair.1 pair.2 := by
  induction hasks with
  | refl => exact Nat.le_refl _
  | tail _ hcall ih => exact Nat.le_trans (Nat.le_of_lt (hcall.rank_lt h)) ih

/-- The rules come to the pair that a failure names, and that pair fails by itself in the same way. -/
theorem WellFormed.checkFully_innermost (h : t.WellFormed)
    (hfails : t.checkFully e a = .error failure) :
    t.Asks (e, a) (failure.expected, failure.actual) ∧
      t.checkFully failure.expected failure.actual = .error failure ∧ t.Holds failure := by
  -- every pair that is asked for has a smaller sum of handles
  induction hsum : e.index + a.index using Nat.strongRecOn generalizing e a with
  | _ sum ih =>
    have hpair := hfails
    rw [h.checkFully_eq] at hpair
    cases origin_of_checkPair hpair with
    | here he ha hholds =>
      subst he ha
      exact ⟨.refl, hfails, hholds⟩
    | below hcall hbelow =>
      obtain ⟨hasks, hinner⟩ := ih _ (hsum ▸ hcall.index_lt h) hbelow rfl
      exact ⟨.head hcall hasks, hinner⟩

end Table

/-- A failure tells the truth about the pair of types that it names: the rules come to that pair, a fresh
checker gives the very same failure for it, and what the failure says is so. -/
theorem check_failure_innermost {t : Table} (h : Reachable t) {e a : TypeId}
    (hheights : t.height e + t.height a ≤ 250) {failure : Failure}
    (hfails : t.check e a = .error failure) :
    t.Asks (e, a) (failure.expected, failure.actual) ∧
      t.check failure.expected failure.actual = .error failure ∧ t.Holds failure := by
  have hwf := h.wellFormed
  rw [hwf.check_eq_checkFully (by omega)] at hfails
  obtain ⟨hasks, hinner, hholds⟩ := hwf.checkFully_innermost hfails
  have hheights' : t.height failure.expected + t.height failure.actual ≤ 254 :=
    calc t.height failure.expected + t.height failure.actual
      _ ≤ t.rank failure.expected failure.actual := Nat.le_add_right ..
      _ ≤ t.rank e a := hasks.rank_le hwf
      _ ≤ t.height e + t.height a + 1 := t.rank_le e a
      _ ≤ 254 := by omega
  exact ⟨hasks, (hwf.check_eq_checkFully hheights').trans hinner, hholds⟩

/-- The table after `{ y: Number }` and objects with a field `x` of that type and of type `{}` were
made. -/
def nestedFields : Table :=
  (Operation.object [⟨"x", .emptyObject, false⟩]).after
    ((Operation.object [⟨"x", ⟨19⟩, false⟩]).after
      ((Operation.object [⟨"y", .number, false⟩]).after .initial))

theorem reachable_nestedFields : Reachable nestedFields :=
  .step _ (.step _ (.step _ .refl (by decide)) (by decide)) (by decide)

/-- `{ x: {} }` does not fit `{ x: { y: Number } }` since `{}` has no field `y`. -/
theorem check_failure_innermost_nestedFields :
    nestedFields.check ⟨20⟩ ⟨21⟩ = .error (.missingObjectField "y" ⟨19⟩ .emptyObject) ∧
      nestedFields.check ⟨19⟩ .emptyObject = .error (.missingObjectField "y" ⟨19⟩ .emptyObject) ∧
      nestedFields.Holds (.missingObjectField "y" ⟨19⟩ .emptyObject) := by
  have hfails : nestedFields.check ⟨20⟩ ⟨21⟩ =
      .error (.missingObjectField "y" ⟨19⟩ .emptyObject) := by decide +kernel
  exact ⟨hfails, (check_failure_innermost reachable_nestedFields (by decide) hfails).2⟩

end HeaderCheck.Types
