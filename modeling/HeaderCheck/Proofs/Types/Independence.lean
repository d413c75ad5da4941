import HeaderCheck.Proofs.Types.Levels
import HeaderCheck.Proofs.Types.Same

/-!
# HeaderCheck.Proofs.Types.Independence

What is asked of types does not depend on the handles they have.

* `Failure.Same`, `SameAnswer`: two checks come to the same, as far as trees tell.
* `checkPair_same`: the rules, given the same types in two tables and checks of their parts that
  come to the same, come to the same.
* `answers_independent_of_history`: two tables that were built in different ways give the same
  answers to the same questions.
-/

namespace HeaderCheck.Types

/-- Failures for the same reason, of types with the same trees. -/
inductive Failure.Same (t t' : Table) : Failure → Failure → Prop where
  | typeClassMismatch {e e' a a' : TypeId} : t.Same t' e e' → t.Same t' a a' →
      Failure.Same t t' (.typeClassMismatch e a) (.typeClassMismatch e' a')
  | missingObjectField (field : String) {e e' a a' : TypeId} : t.Same t' e e' → t.Same t' a a' →
      Failure.Same t t' (.missingObjectField field e a) (.missingObjectField field e' a')
  | brandMismatch {e e' a a' : TypeId} : t.Same t' e e' → t.Same t' a a' →
      Failure.Same t t' (.brandMismatch e a) (.brandMismatch e' a')
  | functionArgCountMismatch {e e' a a' : TypeId} : t.Same t' e e' → t.Same t' a a' →
      Failure.Same t t' (.functionArgCountMismatch e a) (.functionArgCountMismatch e' a')

/-- Both checks pass, or both fail for the same reason. -/
inductive SameAnswer (t t' : Table) : Except Failure Unit → Except Failure Unit → Prop where
  | ok : SameAnswer t t' (.ok ()) (.ok ())
  | error {failure failure' : Failure} : failure.Same t t' failure' →
      SameAnswer t t' (.error failure) (.error failure')

variable {t t' : Table} {e e' a a' : TypeId}

namespace SameAnswer

variable {x x' y y' : Except Failure Unit}

theorem isOk_eq (h : SameAnswer t t' x x') : x.isOk = x'.isOk := by
  cases h <;> rfl

theorem bind (h : SameAnswer t t' x x') (hnext : SameAnswer t t' y y') :
    SameAnswer t t' (x >>= fun _ => y) (x' >>= fun _ => y') := by
  cases h with
  | ok => exact hnext
  | error hf => exact .error hf

variable {α β : Type} {check : α → Except Failure Unit} {check' : β → Except Failure Unit}
  {items : List α} {items' : List β}

theorem checkEach (h : List.Forall₂ (fun a b => SameAnswer t t' (check a) (check' b)) items items') :
    SameAnswer t t' (checkEach check items) (Types.checkEach check' items') := by
  induction h with
  | nil => exact .ok
  | cons hfirst _ ih => exact hfirst.bind ih

theorem passesAny (h : List.Forall₂ (fun a b => SameAnswer t t' (check a) (check' b)) items items') :
    passesAny check items = Types.passesAny check' items' := by
  rw [passesAny_eq, passesAny_eq]
  congr 1
  induction h with
  | nil => rfl
  | cons hfirst _ ih => rw [List.any_cons, List.any_cons, hfirst.isOk_eq, ih]

/-- A choice between members: when none passes, what follows decides. -/
theorem choice (h : List.Forall₂ (fun a b => SameAnswer t t' (check a) (check' b)) items items')
    (hnext : SameAnswer t t' y y') :
    SameAnswer t t' (do if ← Types.passesAny check items then pure () else y)
      (do if ← Types.passesAny check' items' then pure () else y') := by
  rw [passesAny h, passesAny_eq]
  cases items'.any fun item => (check' item).isOk with
  | true => exact .ok
  | false => exact hnext

end SameAnswer

namespace Table

/-! ## Merged objects -/

section Merged

variable {R : TypeId → TypeId → Prop} {s s' m m' : ObjectShape}

theorem find?_parallel (h : List.Forall₂ (Field.Parallel R) s.fields s'.fields) (name : String) :
    Option.Rel (Field.Parallel R) (s.find? name) (s'.find? name) := by
  unfold ObjectShape.find?
  generalize s.fields = fields at h ⊢
  generalize s'.fields = fields' at h ⊢
  induction h with
  | nil => exact .none
  | @cons field field' _ _ hfirst _ ih =>
    rw [List.find?_cons, List.find?_cons, hfirst.name]
    split
    · exact .some hfirst
    · exact ih

theorem mergeShape_parallel (hm : m.Parallel R m') (hs : s.Parallel R s') :
    (mergeShape m s).Parallel R (mergeShape m' s') := by
  have hany : ∀ {fields fields' : List Field}, List.Forall₂ (Field.Parallel R) fields fields' →
      ∀ name, (fields'.any fun other => other.name = name) =
        fields.any fun other => other.name = name := by
    intro fields fields' h name
    induction h with
    | nil => rfl
    | cons hfirst _ ih => rw [List.any_cons, List.any_cons, ih, hfirst.name]
  refine ⟨?_, hm.isOpen, ?_⟩
  · have hfields := hm.fields
    have hadded := hs.fields
    simp only [mergeShape]
    generalize m.fields = kept at hfields ⊢
    generalize m'.fields = kept' at hfields ⊢
    generalize s.fields = added at hadded ⊢
    generalize s'.fields = added' at hadded ⊢
    induction hadded generalizing kept kept' with
    | nil => exact hfields
    | @cons field field' rest rest' hfield _ ih =>
      rw [List.foldl_cons, List.foldl_cons, hfield.name, hany hfields]
      refine ih _ _ ?_
      split
      · exact hfields
      · exact List.rel_append hfields (.cons hfield .nil)
  · simp only [mergeShape, hm.brand, hs.brand]

end Merged

variable (ht : t.WellFormed) (ht' : t'.WellFormed)

include ht ht'

theorem mergeObjects?_same {ms ms' : List TypeId} (hms : List.Forall₂ (t.Same t') ms ms') :
    Option.Rel (ObjectShape.Parallel (t.Same t')) (t.mergeObjects? ms) (t'.mergeObjects? ms') := by
  have hshapes : Option.Rel (List.Forall₂ (ObjectShape.Parallel (t.Same t')))
      (ms.mapM t.objectShape?) (ms'.mapM t'.objectShape?) := by
    induction hms with
    | nil => exact .some .nil
    | @cons m m' rest rest' hfirst _ ih =>
      have hrel := objectShape?_same ht ht' hfirst
      rw [List.mapM_cons, List.mapM_cons]
      generalize t.objectShape? m = shape at hrel ⊢
      generalize t'.objectShape? m' = shape' at hrel ⊢
      generalize rest.mapM t.objectShape? = shapes at ih ⊢
      generalize rest'.mapM t'.objectShape? = shapes' at ih ⊢
      cases hrel with
      | none => exact .none
      | some hs =>
        cases ih with
        | none => exact .none
        | some hrest => exact .some (.cons hs hrest)
  unfold mergeObjects?
  generalize ms.mapM t.objectShape? = shapes at hshapes ⊢
  generalize ms'.mapM t'.objectShape? = shapes' at hshapes ⊢
  cases hshapes with
  | none => exact .none
  | some hs =>
    refine .some ?_
    have hfold : ∀ {m m' : ObjectShape} {shapes shapes'}, m.Parallel (t.Same t') m' →
        List.Forall₂ (ObjectShape.Parallel (t.Same t')) shapes shapes' →
        (shapes.foldl mergeShape m).Parallel (t.Same t') (shapes'.foldl mergeShape m') := by
      intro m m' shapes shapes' hm h
      induction h generalizing m m' with
      | nil => exact hm
      | cons hfirst _ ih => exact ih (mergeShape_parallel hm hfirst)
    exact hfold ⟨.nil, rfl, rfl⟩ hs

/-! ## The rules -/

variable {f g : TypeId → TypeId → Except Failure Unit}
  (h : ∀ {p p' q q'}, t.Same t' p p' → t.Same t' q q' → SameAnswer t t' (f p q) (g p' q'))

omit ht ht' in
include h in
theorem checkObject_same (he : t.Same t' e e') (ha : t.Same t' a a') {p p' c c' : ObjectShape}
    (hp : p.Parallel (t.Same t') p') (hc : c.Parallel (t.Same t') c') :
    SameAnswer t t' (checkObject f e a p c) (checkObject g e' a' p' c') := by
  unfold checkObject
  rw [hp.brand, hc.brand]
  split
  · exact .error (.brandMismatch he ha)
  · refine SameAnswer.checkEach (hp.fields.imp fun field field' hfield => ?_)
    have hfound := find?_parallel hc.fields field.name
    rw [hfield.name]
    generalize c.find? field.name = found at hfound ⊢
    generalize c'.find? field.name = found' at hfound ⊢
    cases hfound with
    | some hab => exact h hfield.type hab.type
    | none =>
      simp only [hfield.optional]
      split
      · exact .ok
      · exact .error (.missingObjectField _ he ha)

omit ht ht' in
include h in
theorem checkPairs_same {ps ps' qs qs' : List TypeId} (hp : List.Forall₂ (t.Same t') ps ps')
    (hq : List.Forall₂ (t.Same t') qs qs') :
    SameAnswer t t' (checkEach (fun pair => f pair.1 pair.2) (ps.zip qs))
      (checkEach (fun pair => g pair.1 pair.2) (ps'.zip qs')) :=
  SameAnswer.checkEach ((forall₂_zip hp hq).imp fun _ _ hpair => h hpair.1 hpair.2)

omit ht ht' in
theorem requiredParams_same {p p' : FunctionShape} (hp : p.Parallel (t.Same t') p') :
    p'.requiredParams = p.requiredParams := by
  have hparams := hp.params
  unfold FunctionShape.requiredParams
  generalize p.params = params at hparams ⊢
  generalize p'.params = params' at hparams ⊢
  induction hparams with
  | nil => rfl
  | cons hfirst _ ih => rw [List.countP_cons, List.countP_cons, ih, hfirst.optional]

omit ht ht' in
include h in
theorem checkFunction_same (he : t.Same t' e e') (ha : t.Same t' a a') {p p' c c' : FunctionShape}
    (hp : p.Parallel (t.Same t') p') (hc : c.Parallel (t.Same t') c') :
    SameAnswer t t' (checkFunction f e a p c) (checkFunction g e' a' p' c') := by
  unfold checkFunction
  rw [← hp.params.length_eq, requiredParams_same hc]
  split
  · exact .error (.functionArgCountMismatch he ha)
  · refine SameAnswer.bind ?_ ((h hp.result hc.result).bind ?_)
    · exact SameAnswer.checkEach ((forall₂_zip hp.params hc.params).imp fun _ _ hpair =>
        h hpair.2.type hpair.1.type)
    · have hthis := hp.this
      have hthis' := hc.this
      generalize p.this = x at hthis ⊢
      generalize p'.this = x' at hthis ⊢
      generalize c.this = y at hthis' ⊢
      generalize c'.this = y' at hthis' ⊢
      cases hthis with
      | none => exact .ok
      | some hx =>
        cases hthis' with
        | none => exact .ok
        | some hy => exact h hx hy

variable {parent parent' child child' : TypeData}

theorem coerces_same (he : t.Same t' e e') (hchild : child.Parallel (t.Same t') child') :
    coerces e' child' = coerces e child := by
  cases hchild with
  | generic hbase hargs =>
    simp (disch := decide) only [coerces, eq_fixed_iff ht ht' he, eq_fixed_iff ht ht' hbase]
  | _ => simp (disch := decide) only [coerces, eq_fixed_iff ht ht' he]

include h in
theorem checkForms_same (he : t.Same t' e e') (ha : t.Same t' a a')
    (hparent : parent.Parallel (t.Same t') parent') (hchild : child.Parallel (t.Same t') child') :
    SameAnswer t t' (checkForms f e a parent child) (checkForms g e' a' parent' child') := by
  have hmismatch : SameAnswer t t' (checkForms.mismatch e a) (checkForms.mismatch e' a') :=
    .error (.typeClassMismatch he ha)
  have hnamed (p c : String) : SameAnswer t t' (checkForms.named e a p c)
      (checkForms.named e' a' p c) := by
    unfold checkForms.named
    split
    · exact .ok
    · exact hmismatch
  -- a name is expected and the child is of another form
  have hcoerced : SameAnswer t t' (if coerces e child then pure () else checkForms.mismatch e a)
      (if coerces e' child' then pure () else checkForms.mismatch e' a') := by
    rw [coerces_same ht ht' he hchild]
    split
    · exact .ok
    · exact hmismatch
  cases hchild with
  | renamed name builtin htarget =>
    cases hparent with
    | renamed => exact hnamed _ _
    | _ => exact h he htarget
  | literal =>
    cases hparent with
    | literal => exact hnamed _ _
    | _ => exact hmismatch
  | value =>
    cases hparent with
    | literal => exact hcoerced
    | value => exact hnamed _ _
    | _ => exact hmismatch
  | object hc =>
    cases hparent with
    | literal => exact hcoerced
    | object hp => exact checkObject_same h he ha hp hc
    | _ => exact hmismatch
  | function hc =>
    cases hparent with
    | literal => exact hcoerced
    | function hp => exact checkFunction_same h he ha hp hc
    | _ => exact hmismatch
  | generic hbase hargs =>
    cases hparent with
    | literal => exact hcoerced
    | generic hbase' hargs' =>
      simp only [checkForms, ← hargs.length_eq, ← hargs'.length_eq]
      split
      · exact hmismatch
      · exact (h hbase' hbase).bind (checkPairs_same h hargs' hargs)
    | _ => exact hmismatch
  | tuple hes =>
    cases hparent with
    | literal => exact hcoerced
    | tuple hes' =>
      simp only [checkForms, ← hes.length_eq, ← hes'.length_eq]
      split
      · exact hmismatch
      · exact checkPairs_same h hes' hes
    | _ => exact hmismatch
  | union | intersection | free =>
    cases hparent with
    | literal => exact hcoerced
    | _ => exact hmismatch

include h in
theorem checkIntersection_same (he : t.Same t' e e') (ha : t.Same t' a a') {ms ms' : List TypeId}
    (hparent : parent.Parallel (t.Same t') parent') (hms : List.Forall₂ (t.Same t') ms ms') :
    SameAnswer t t' (t.checkIntersection f e a parent ms)
      (t'.checkIntersection g e' a' parent' ms') := by
  unfold checkIntersection
  refine SameAnswer.choice (hms.imp fun _ _ hm => h he hm) ?_
  have hmerged := mergeObjects?_same ht ht' hms
  have hmismatch : SameAnswer t t' (.error (.typeClassMismatch e a)) (.error (.typeClassMismatch e' a')) :=
    .error (.typeClassMismatch he ha)
  generalize t.mergeObjects? ms = merged at hmerged ⊢
  generalize t'.mergeObjects? ms' = merged' at hmerged ⊢
  cases hmerged with
  | none => cases hparent <;> exact hmismatch
  | some hc =>
    cases hparent with
    | object hp => exact checkObject_same h he ha hp hc
    | _ => exact hmismatch

include h in
theorem checkStructure_same (he : t.Same t' e e') (ha : t.Same t' a a')
    (hparent : parent.Parallel (t.Same t') parent') (hchild : child.Parallel (t.Same t') child') :
    SameAnswer t t' (t.checkStructure f e a parent child)
      (t'.checkStructure g e' a' parent' child') := by
  have hmismatch : SameAnswer t t' (.error (.typeClassMismatch e a)) (.error (.typeClassMismatch e' a')) :=
    .error (.typeClassMismatch he ha)
  have hunion {ms ms' : List TypeId} (hms : List.Forall₂ (t.Same t') ms ms') :
      List.Forall₂ (fun m m' => SameAnswer t t' (f m a) (g m' a')) ms ms' :=
    hms.imp fun _ _ hm => h hm ha
  have hforms := checkForms_same ht ht' h he ha hparent hchild
  cases hchild with
  | union hms => exact SameAnswer.checkEach (hms.imp fun _ _ hm => h he hm)
  | intersection hms =>
    cases hparent with
    | union hps => exact SameAnswer.choice (hunion hps) hmismatch
    | intersection hps => exact SameAnswer.checkEach (hunion hps)
    | literal name builtin => exact checkIntersection_same ht ht' h he ha (.literal name builtin) hms
    | value value name => exact checkIntersection_same ht ht' h he ha (.value value name) hms
    | object hs => exact checkIntersection_same ht ht' h he ha (.object hs) hms
    | function hs => exact checkIntersection_same ht ht' h he ha (.function hs) hms
    | generic hbase hargs =>
      exact checkIntersection_same ht ht' h he ha (.generic hbase hargs) hms
    | tuple hes => exact checkIntersection_same ht ht' h he ha (.tuple hes) hms
    | renamed name builtin htarget =>
      exact checkIntersection_same ht ht' h he ha (.renamed name builtin htarget) hms
    | free name => exact checkIntersection_same ht ht' h he ha (.free name) hms
  | _ =>
    cases hparent with
    | union hps => exact SameAnswer.choice (hunion hps) hmismatch
    | intersection hps => exact SameAnswer.checkEach (hunion hps)
    | _ => exact hforms

include h in
theorem checkPair_same (he : t.Same t' e e') (ha : t.Same t' a a') :
    SameAnswer t t' (t.checkPair f e a) (t'.checkPair g e' a') := by
  have hiff := he.eq_iff ha ht ht'
  by_cases heq : e = a
  · rw [checkPair, checkPair, if_pos heq, if_pos (hiff.mp heq)]
    exact .ok
  obtain ⟨parent, parent', hp, hp', hparent⟩ := he.level ht ht'
  obtain ⟨child, child', hc, hc', hchild⟩ := ha.level ht ht'
  rw [checkPair, checkPair, if_neg heq, if_neg (heq ∘ hiff.mpr), hp, hp', hc, hc']
  have hfree : ∀ {d d' : TypeData}, d.Parallel (t.Same t') d' → d'.isFree = d.isFree := by
    intro d d' hd
    cases hd <;> rfl
  have hall : e'.acceptsAll = e.acceptsAll := by
    simp (disch := decide) only [TypeId.acceptsAll, eq_fixed_iff ht ht' he]
  have hfits : a'.fitsAll = a.fitsAll := by
    simp (disch := decide) only [TypeId.fitsAll, eq_fixed_iff ht ht' ha]
  simp (disch := decide) only [checkData, hfree hparent, hfree hchild, hall, hfits,
    eq_fixed_iff ht ht' ha]
  split
  · exact .ok
  split
  · exact .ok
  split
  · exact h he (same_fixed ht ht' (by decide))
  split
  · exact h he (same_fixed ht ht' (by decide))
  · exact checkStructure_same ht ht' h he ha hparent hchild

/-- A checker comes to the same, however the tables were built. -/
theorem check_same (he : t.Same t' e e') (ha : t.Same t' a a') :
    SameAnswer t t' (t.check e a) (t'.check e' a') := by
  have hlevels : ∀ levels {p p' q q'}, t.Same t' p p' → t.Same t' q q' →
      SameAnswer t t' (t.checkLevels levels p q) (t'.checkLevels levels p' q') := by
    intro levels
    induction levels with
    | zero => exact fun hp hq => .error (.typeClassMismatch hp hq)
    | succ levels ih => exact fun hp hq => checkPair_same ht ht' ih hp hq
  rw [check_eq_checkLevels, check_eq_checkLevels]
  exact hlevels maxLevels he ha

end Table

/-! ## Two histories -/

/-- In two tables that were built by any operations, handles with the same trees are equal to each
other in one when they are in the other, are checked with the same answer and failures of the same
trees, make unions, intersections and changed copies with the same trees, are narrowed to the same
trees, and are written alike. -/
theorem answers_independent_of_history {t t' : Table} (ht : Reachable t) (ht' : Reachable t') :
    (∀ id : TypeId, id.index < Table.builtins.length → t.Same t' id id) ∧
    (∀ i i' j j', t.Same t' i i' → t.Same t' j j' → (i = j ↔ i' = j') ∧
      SameAnswer t t' (t.check i j) (t'.check i' j') ∧ t.isSubtype i j = t'.isSubtype i' j' ∧
      (∀ name, Option.Rel (Table.SameMade t t') (t.withField i name j) (t'.withField i' name j')) ∧
      (∀ path, Option.Rel (Table.SameMade t t') (t.replaceAt? i path j) (t'.replaceAt? i' path j')) ∧
      (∀ positive, Option.Rel (Table.SameMade t t') (t.narrowByValue? i j positive)
        (t'.narrowByValue? i' j' positive))) ∧
    (∀ ms ms', List.Forall₂ (t.Same t') ms ms' →
      Table.SameMade t t' (t.union ms) (t'.union ms') ∧
      Table.SameMade t t' (t.intersection ms) (t'.intersection ms')) ∧
    ∀ i i', t.Same t' i i' →
      (∀ brand, Table.SameMade t t' (t.withBrand i brand) (t'.withBrand i' brand)) ∧
      Option.Rel (Table.SameMade t t') (t.removeNullish? i) (t'.removeNullish? i') ∧
      Option.Rel (Table.SameMade t t') (t.falsyPart? i) (t'.falsyPart? i') ∧
      (∀ tag positive, Option.Rel (Table.SameMade t t') (t.narrowByTypeof? i tag positive)
        (t'.narrowByTypeof? i' tag positive)) ∧
      t.format i = t'.format i' := by
  have hwf := ht.wellFormed
  have hwf' := ht'.wellFormed
  refine ⟨fun id => Table.same_fixed hwf hwf', fun i i' j j' hi hj => ?_, fun ms ms' hms => ?_,
    fun i i' hi => ?_⟩
  · have hcheck := Table.check_same hwf hwf' hi hj
    exact ⟨hi.eq_iff hj hwf hwf', hcheck, hcheck.isOk_eq,
      fun name => Table.sameMade_withField hwf hwf' hi name hj,
      fun path => Table.sameMade_replaceAt? hwf hwf' hi path hj,
      fun positive => Table.sameMade_narrowByValue? hwf hwf' hi hj positive⟩
  · exact ⟨Table.sameMade_union hwf hwf' hms, Table.sameMade_intersection hwf hwf' hms⟩
  · exact ⟨Table.sameMade_withBrand hwf hwf' hi, Table.sameMade_removeNullish? hwf hwf' hi,
      Table.sameMade_falsyPart? hwf hwf' hi, Table.sameMade_narrowByTypeof? hwf hwf' hi,
      Table.format_same hwf hwf' hi⟩

/-- `nullableStrings` with another type made first, so that its own types have other handles. -/
def laterStrings : Table :=
  (Operation.array ⟨20⟩).after ((Operation.union [.string, .null]).after
    ((Operation.free "T").after .initial))

theorem reachable_laterStrings : Reachable laterStrings :=
  .step _ (.step _ (.step _ .refl (by decide)) (by decide)) (by decide)

/-- `Array<String | null>` has the handle 20 in one table and 21 in the other. Against `String` it
fails in both for the same reason, and it is written alike. -/
theorem answers_independent_of_history_nullableStrings :
    Reachable nullableStrings ∧ Reachable laterStrings ∧ nullableStrings.Same laterStrings ⟨20⟩ ⟨21⟩ ∧
      SameAnswer nullableStrings laterStrings (nullableStrings.check .string ⟨20⟩)
        (laterStrings.check .string ⟨21⟩) ∧
      nullableStrings.check .string ⟨20⟩ = .error (.typeClassMismatch .string ⟨20⟩) ∧
      laterStrings.check .string ⟨21⟩ = .error (.typeClassMismatch .string ⟨21⟩) ∧
      nullableStrings.format ⟨20⟩ = laterStrings.format ⟨21⟩ := by
  have hwf := reachable_nullableStrings.wellFormed
  have hwf' := reachable_laterStrings.wellFormed
  have hfixed (id : TypeId) (hid : id.index < Table.builtins.length) :
      nullableStrings.Same laterStrings id id :=
    Table.same_fixed hwf hwf' hid
  have hunion : nullableStrings.Same laterStrings ⟨19⟩ ⟨20⟩ :=
    Table.same_of_level hwf hwf' (by decide +kernel) (by decide +kernel)
      (.union (.cons (hfixed .string (by decide)) (.cons (hfixed .null (by decide)) .nil)))
  have hsame : nullableStrings.Same laterStrings ⟨20⟩ ⟨21⟩ :=
    Table.same_of_level hwf hwf' (by decide +kernel) (by decide +kernel)
      (.generic (hfixed .array (by decide)) (.cons hunion .nil))
  obtain ⟨-, hpairs, -, hone⟩ :=
    answers_independent_of_history reachable_nullableStrings reachable_laterStrings
  obtain ⟨-, hcheck, -⟩ := hpairs _ _ _ _ (hfixed .string (by decide)) hsame
  exact ⟨reachable_nullableStrings, reachable_laterStrings, hsame, hcheck, by decide +kernel,
    by decide +kernel, (hone _ _ hsame).2.2.2.2⟩

end HeaderCheck.Types
