import HeaderCheck.Proofs.Types.Join

/-!
# HeaderCheck.Proofs.Types.Transitive

Subtyping is transitive on plain types.

* `Table.FormFits t e parent child`: when two types that are no unions fit, `child` being no
  intersection (`checkForms_eq_ok`).
* `Table.Plain t id`: a type built without type variables, sentinels, `Any`, other names,
  intersections, optional parts and `this`.
* `fits_trans`: the rules without a limit are transitive on plain types.

The induction is on the sum of the three handles, since parameters make the three types change
places. Unions are taken apart first, on whichever side they stand, by the two union laws; then the
forms of the three types agree, or the first is a built-in name that accepts the other two.
-/

namespace HeaderCheck.Types
namespace Table

/-! ## Forms that fit -/

/-- `child` fits `parent`, the type of the handle `e`. -/
inductive FormFits (t : Table) (e : TypeId) : (parent child : TypeData) → Prop where
  | literal {name : String} {b b' : Bool} : FormFits t e (.literal name b) (.literal name b')
  /-- A built-in name accepts a type of another form. -/
  | coerced {name : String} {b : Bool} {child : TypeData} :
      coerces e child = true → FormFits t e (.literal name b) child
  | value {v v' name : String} : FormFits t e (.value v name) (.value v' name)
  | object {p c : ObjectShape} :
      (p.brand = plainBrand ∨ p.brand = c.brand) →
      (∀ field ∈ p.fields,
        (∀ found, c.find? field.name = some found → t.Fits field.type found.type) ∧
        (c.find? field.name = none → field.optional = true)) →
      FormFits t e (.object p) (.object c)
  | function {p c : FunctionShape} :
      c.requiredParams ≤ p.params.length →
      (∀ pair ∈ p.params.zip c.params, t.Fits pair.2.type pair.1.type) →
      t.Fits p.result c.result →
      (∀ x y, p.this = some x → c.this = some y → t.Fits x y) →
      FormFits t e (.function p) (.function c)
  | generic {pb cb : TypeId} {pa ca : List TypeId} :
      pa.length = ca.length → t.Fits pb cb → (∀ pair ∈ pa.zip ca, t.Fits pair.1 pair.2) →
      FormFits t e (.generic pb pa) (.generic cb ca)
  | tuple {ps cs : List TypeId} :
      ps.length = cs.length → (∀ pair ∈ ps.zip cs, t.Fits pair.1 pair.2) →
      FormFits t e (.tuple ps) (.tuple cs)
  | renamed {name : String} {b b' : Bool} {x y : TypeId} :
      FormFits t e (.renamed name b x) (.renamed name b' y)
  /-- Another name is looked through where none is expected. -/
  | target {parent : TypeData} {name : String} {b : Bool} {target : TypeId} :
      (∀ n b' x, parent ≠ .renamed n b' x) → t.Fits e target →
      FormFits t e parent (.renamed name b target)

theorem named_eq_ok {e a : TypeId} {p c : String} :
    (checkForms.named e a p c : Except Failure Unit) = .ok () ↔ p = c := by
  unfold checkForms.named
  split
  · next heq => exact iff_of_true rfl heq
  · next hne => exact iff_of_false throw_ne_ok hne

theorem formFits_of_checkForms {t : Table} {e a : TypeId} {parent child : TypeData}
    (h : checkForms t.checkFully e a parent child = .ok ()) : t.FormFits e parent child := by
  unfold checkForms at h
  split at h
  · cases named_eq_ok.mp h
    exact .literal
  · cases named_eq_ok.mp h
    exact .renamed
  · next hno => exact .target (fun n b x he => hno n b x he) h
  · split at h
    · next hco => exact .coerced hco
    · exact absurd h throw_ne_ok
  · cases named_eq_ok.mp h
    exact .value
  · rw [checkObject_eq_ok] at h
    exact .object h.1 h.2
  · rw [checkFunction_eq_ok] at h
    obtain ⟨hlen, hparams, hresult, hthis⟩ := h
    exact .function hlen hparams hresult hthis
  · split at h
    · exact absurd h throw_ne_ok
    · next hlen =>
      rw [bind_eq_ok, checkEach_eq_ok] at h
      exact .generic (not_not.mp hlen) h.1 h.2
  · split at h
    · exact absurd h throw_ne_ok
    · next hlen =>
      rw [checkEach_eq_ok] at h
      exact .tuple (not_not.mp hlen) h
  · exact absurd h throw_ne_ok

theorem checkForms_of_formFits {t : Table} {e a : TypeId} {parent child : TypeData}
    (h : t.FormFits e parent child) : checkForms t.checkFully e a parent child = .ok () := by
  cases h with
  | literal => exact named_eq_ok.mpr rfl
  | coerced hco =>
    cases child with
    | literal | union | intersection | tuple | renamed | free => cases hco
    | value | object | function | generic =>
      simp only [checkForms, hco, if_true]
      rfl
  | value => exact named_eq_ok.mpr rfl
  | object hbrand hfields => exact checkObject_eq_ok.mpr ⟨hbrand, hfields⟩
  | function hlen hparams hresult hthis =>
    exact checkFunction_eq_ok.mpr ⟨hlen, hparams, hresult, hthis⟩
  | generic hlen hbase hargs =>
    simp only [checkForms, hlen, ne_eq, not_true_eq_false, if_false]
    exact bind_eq_ok.mpr ⟨hbase, checkEach_eq_ok.mpr hargs⟩
  | tuple hlen helements =>
    simp only [checkForms, hlen, ne_eq, not_true_eq_false, if_false]
    exact checkEach_eq_ok.mpr helements
  | renamed => exact named_eq_ok.mpr rfl
  | target hno htarget =>
    cases parent with
    | renamed n b x => exact absurd rfl (hno n b x)
    | _ => exact htarget

theorem checkForms_eq_ok {t : Table} {e a : TypeId} {parent child : TypeData} :
    checkForms t.checkFully e a parent child = .ok () ↔ t.FormFits e parent child :=
  ⟨formFits_of_checkForms, checkForms_of_formFits⟩

/-! ## Plain types -/

/-- What is asked of one level of a plain type with the handle `id`. -/
def PlainLevel (id : TypeId) : TypeData → Prop
  | .literal _ builtin => builtin = true ∧ id ≠ .any ∧ id.isSentinel = false
  | .value .. => id = .null ∨ id = .undefined
  | .object shape => ∀ field ∈ shape.fields, field.optional = false
  | .union _ | .tuple _ => True
  | .function shape => shape.this = none ∧ ∀ param ∈ shape.params, param.optional = false
  | .generic base _ => base = .array ∨ base = .object
  | .intersection _ | .renamed .. | .free _ => False

/-- A type all of whose levels are plain: built-in names other than `Any` and the sentinels, `null`
and `undefined`, objects without optional fields, unions, functions without optional parameters
and `this`, applications of `Array` and `Object`, and tuples. -/
inductive Plain (t : Table) : TypeId → Prop where
  | mk {id : TypeId} {data : TypeData} :
      t.lookup id = some data → PlainLevel id data → (∀ part ∈ data.parts, Plain t part) →
      Plain t id

/-- Pairing one list with a third one through a second one that is at least as long. -/
theorem forall_zip_trans {α : Type} {R S T : α → α → Prop} {as bs cs : List α}
    (hlen : cs.length ≤ bs.length)
    (h : ∀ x ∈ as, ∀ y ∈ bs, ∀ z ∈ cs, R x y → S y z → T x z)
    (hab : ∀ pair ∈ as.zip bs, R pair.1 pair.2) (hbc : ∀ pair ∈ bs.zip cs, S pair.1 pair.2) :
    ∀ pair ∈ as.zip cs, T pair.1 pair.2 := by
  induction as generalizing bs cs with
  | nil => simp
  | cons x as ih =>
    cases cs with
    | nil => simp
    | cons z cs =>
      cases bs with
      | nil => simp at hlen
      | cons y bs =>
        simp only [List.zip_cons_cons, List.forall_mem_cons] at hab hbc ⊢
        refine ⟨?_, ih (by simpa using hlen) ?_ hab.2 hbc.2⟩
        · exact h x (List.mem_cons_self ..) y (List.mem_cons_self ..) z (List.mem_cons_self ..)
            hab.1 hbc.1
        · intro x' hx y' hy z' hz
          exact h x' (List.mem_cons_of_mem _ hx) y' (List.mem_cons_of_mem _ hy) z'
            (List.mem_cons_of_mem _ hz)

namespace Plain

variable {t : Table} {id e a : TypeId} {data parent child : TypeData}

theorem level (h : t.Plain id) (hd : t.lookup id = some data) : PlainLevel id data := by
  cases h with
  | mk hd' hlevel _ =>
    rw [hd] at hd'
    cases hd'
    exact hlevel

theorem part (h : t.Plain id) (hd : t.lookup id = some data) {p : TypeId}
    (hp : p ∈ data.parts) : t.Plain p := by
  cases h with
  | mk hd' _ hparts =>
    rw [hd] at hd'
    cases hd'
    exact hparts p hp

theorem lookup (h : t.Plain id) : ∃ data, t.lookup id = some data := by
  cases h with
  | mk hd _ _ => exact ⟨_, hd⟩

theorem issued (h : t.Plain id) : t.Issued id :=
  issued_iff.mpr h.lookup

theorem not_isFree (h : t.Plain id) (hd : t.lookup id = some data) : data.isFree = false := by
  have hlevel := h.level hd
  cases data with
  | free name => exact hlevel.elim
  | _ => rfl

/-- Of the handles with rules of their own only `Mixed` is plain. -/
theorem eq_mixed_of_acceptsAll (hwf : t.WellFormed) (h : t.Plain id)
    (hall : id.acceptsAll = true) : id = .mixed := by
  obtain ⟨name, hd⟩ := hwf.literal_of_acceptsAll hall
  obtain ⟨_, hany, hsentinel⟩ := h.level hd
  simp only [TypeId.acceptsAll, Bool.or_eq_true, decide_eq_true_eq] at hall
  rcases hall with (((((hid | hid) | hid) | hid) | hid) | hid) | hid
  · exact absurd hid hany
  · exact hid
  all_goals
    rw [hid] at hsentinel
    cases hsentinel

/-- Plain types that are no unions and not shortcut are compared by their forms. -/
theorem fits_iff_formFits (hwf : t.WellFormed) (he : t.Plain e) (ha : t.Plain a) (hne : e ≠ a)
    (hmixed : e ≠ .mixed) (hparent : t.lookup e = some parent)
    (hchild : t.lookup a = some child) (hnop : ∀ inner, parent ≠ .union inner)
    (hnoc : ∀ inner, child ≠ .union inner) : t.Fits e a ↔ t.FormFits e parent child := by
  have hacc : e.acceptsAll = false := by
    by_contra hall
    exact hmixed (eq_mixed_of_acceptsAll hwf he (Bool.not_eq_false _ ▸ hall))
  have hfits : a.fitsAll = false := by
    by_contra hall
    have hacc : a.acceptsAll = true := by
      by_contra hno
      exact hall (fitsAll_eq_false (Bool.not_eq_true _ ▸ hno))
    rw [eq_mixed_of_acceptsAll hwf ha hacc] at hall
    exact hall rfl
  have hnull : a ≠ .nullDefault := by
    rintro rfl
    exact absurd (eq_mixed_of_acceptsAll hwf ha rfl) (by decide)
  have hnone : a ≠ .uninitialized := by
    rintro rfl
    exact absurd (eq_mixed_of_acceptsAll hwf ha rfl) (by decide)
  rw [hwf.fits_iff_structure hne hparent hchild ⟨he.not_isFree hparent, ha.not_isFree hchild⟩
    ⟨hacc, hfits⟩ hnull hnone, ← checkForms_eq_ok (a := a)]
  have hlevel := he.level hparent
  have hlevel' := ha.level hchild
  unfold checkStructure
  split
  · exact absurd rfl (hnoc _)
  · exact absurd rfl (hnop _)
  · exact hlevel.elim
  · exact hlevel'.elim
  · rfl

/-- The other direction also covers the two shortcuts. -/
theorem fits_of_formFits (hwf : t.WellFormed) (he : t.Plain e) (ha : t.Plain a)
    (hparent : t.lookup e = some parent) (hchild : t.lookup a = some child)
    (hnop : ∀ inner, parent ≠ .union inner) (hnoc : ∀ inner, child ≠ .union inner)
    (hform : t.FormFits e parent child) : t.Fits e a := by
  by_cases hne : e = a
  · rw [hne]
    exact hwf.fits_refl a
  by_cases hmixed : e = .mixed
  · subst hmixed
    exact hwf.fits_of_acceptsAll he.issued ha.issued (.inl (by decide))
  · exact (fits_iff_formFits hwf he ha hne hmixed hparent hchild hnop hnoc).mpr hform

/-- Equal built-in names are one type. -/
theorem eq_of_literals (hwf : t.WellFormed) {name name' : String}
    (hparent : t.lookup e = some (.literal name true))
    (hchild : t.lookup a = some (.literal name' true))
    (hform : t.FormFits e (.literal name true) (.literal name' true)) : e = a := by
  cases hform with
  | literal => exact hwf.injective hparent hchild
  | coerced hco => cases hco

/-- Of the two names that plain types apply, `Array` accepts only itself. -/
theorem eq_array_of_fits (hwf : t.WellFormed) {base : TypeId} (harray : t.Plain .array)
    (hplain : t.Plain base) (hbase : base = .array ∨ base = .object)
    (hfits : t.Fits .array base) : base = .array := by
  rcases hbase with rfl | rfl
  · rfl
  · have hparent : t.lookup .array = some (.literal "Array" true) := hwf.builtin rfl
    have hchild : t.lookup .object = some (.literal "Object" true) := hwf.builtin rfl
    rw [fits_iff_formFits hwf harray hplain (by decide) (by decide) hparent hchild nofun nofun]
      at hfits
    exact (eq_of_literals hwf hparent hchild hfits).symm

/-! ## Transitivity -/

/-- Transitivity for all plain types whose handles add up to less than `bound`. -/
def TransBelow (t : Table) (bound : Nat) : Prop :=
  ∀ {x y z : TypeId}, x.index + y.index + z.index < bound →
    t.Plain x → t.Plain y → t.Plain z → t.Fits x y → t.Fits y z → t.Fits x z

section Forms

variable {A B C : TypeId} {p q r : TypeData}

theorem trans_parts (hwf : t.WellFormed) (ih : TransBelow t (A.index + B.index + C.index))
    (hA : t.Plain A) (hB : t.Plain B) (hC : t.Plain C) (hp : t.lookup A = some p)
    (hq : t.lookup B = some q) (hr : t.lookup C = some r) {x y z : TypeId}
    (hx : x ∈ p.parts) (hy : y ∈ q.parts) (hz : z ∈ r.parts) :
    (t.Fits x y → t.Fits y z → t.Fits x z) ∧ (t.Fits z y → t.Fits y x → t.Fits z x) := by
  have hxlt := hwf.descends hp x hx
  have hylt := hwf.descends hq y hy
  have hzlt := hwf.descends hr z hz
  have hpx := hA.part hp hx
  have hpy := hB.part hq hy
  have hpz := hC.part hr hz
  exact ⟨ih (by omega) hpx hpy hpz, ih (by omega) hpz hpy hpx⟩

/-- Fields are chained through the field that the middle object has under the name. -/
theorem object_trans {p q r : ObjectShape}
    (h : ∀ x ∈ p.fields, ∀ y ∈ q.fields, ∀ z ∈ r.fields,
      t.Fits x.type y.type → t.Fits y.type z.type → t.Fits x.type z.type)
    (hp : ∀ field ∈ p.fields, field.optional = false)
    (hq : ∀ field ∈ q.fields, field.optional = false)
    (hab : t.FormFits A (.object p) (.object q)) (hbc : t.FormFits B (.object q) (.object r)) :
    t.FormFits A (.object p) (.object r) := by
  cases hab with
  | object hbrand hfields =>
  cases hbc with
  | object hbrand' hfields' =>
  refine .object ?_ fun field hf => ?_
  · rcases hbrand with hplain | hsame
    · exact .inl hplain
    · rcases hbrand' with hplain' | hsame'
      · exact .inl (hsame.trans hplain')
      · exact .inr (hsame.trans hsame')
  · obtain ⟨hsome, hnone⟩ := hfields field hf
    obtain ⟨middle, hmiddle⟩ : ∃ middle, q.find? field.name = some middle := by
      cases hfind : q.find? field.name with
      | some middle => exact ⟨middle, rfl⟩
      | none => exact absurd (hnone hfind) (by simp [hp field hf])
    have hmem : middle ∈ q.fields := List.mem_of_find?_eq_some hmiddle
    have hname : middle.name = field.name := by
      simpa using List.find?_some hmiddle
    obtain ⟨hsome', hnone'⟩ := hfields' middle hmem
    rw [hname] at hsome' hnone'
    constructor
    · intro found hfound
      exact h field hf middle hmem found (List.mem_of_find?_eq_some hfound)
        (hsome middle hmiddle) (hsome' found hfound)
    · intro hmissing
      exact absurd (hnone' hmissing) (by simp [hq middle hmem])

theorem requiredParams_eq {shape : FunctionShape}
    (h : ∀ param ∈ shape.params, param.optional = false) :
    shape.requiredParams = shape.params.length := by
  rw [FunctionShape.requiredParams, List.countP_eq_length]
  intro param hp
  rw [h param hp]
  rfl

/-- Parameters are chained the other way round, results this way. -/
theorem function_trans {p q r : FunctionShape}
    (hparams : ∀ x ∈ p.params, ∀ y ∈ q.params, ∀ z ∈ r.params,
      t.Fits z.type y.type → t.Fits y.type x.type → t.Fits z.type x.type)
    (hresult : t.Fits p.result q.result → t.Fits q.result r.result → t.Fits p.result r.result)
    (hq : ∀ param ∈ q.params, param.optional = false)
    (hr : r.this = none ∧ ∀ param ∈ r.params, param.optional = false)
    (hab : t.FormFits A (.function p) (.function q))
    (hbc : t.FormFits B (.function q) (.function r)) :
    t.FormFits A (.function p) (.function r) := by
  cases hab with
  | function hlen hpairs hres _ =>
  cases hbc with
  | function hlen' hpairs' hres' _ =>
  rw [requiredParams_eq hq] at hlen
  rw [requiredParams_eq hr.2] at hlen'
  refine .function ?_ ?_ (hresult hres hres') ?_
  · rw [requiredParams_eq hr.2]
    exact Nat.le_trans hlen' hlen
  · refine forall_zip_trans (R := fun x y => t.Fits y.type x.type)
      (S := fun y z => t.Fits z.type y.type) (T := fun x z => t.Fits z.type x.type)
      hlen' ?_ hpairs hpairs'
    intro x hx y hy z hz hyx hzy
    exact hparams x hx y hy z hz hzy hyx
  · intro _ _ _ hthis
    rw [hr.1] at hthis
    cases hthis

theorem formFits_trans (hwf : t.WellFormed) (ih : TransBelow t (A.index + B.index + C.index))
    (hA : t.Plain A) (hB : t.Plain B) (hC : t.Plain C) (hp : t.lookup A = some p)
    (hq : t.lookup B = some q) (hr : t.lookup C = some r) (hab : t.FormFits A p q)
    (hbc : t.FormFits B q r) : t.FormFits A p r := by
  have hparts : ∀ x ∈ p.parts, ∀ y ∈ q.parts, ∀ z ∈ r.parts,
      t.Fits x y → t.Fits y z → t.Fits x z :=
    fun x hx y hy z hz => (trans_parts hwf ih hA hB hC hp hq hr hx hy hz).1
  have hswapped : ∀ x ∈ p.parts, ∀ y ∈ q.parts, ∀ z ∈ r.parts,
      t.Fits z y → t.Fits y x → t.Fits z x :=
    fun x hx y hy z hz => (trans_parts hwf ih hA hB hC hp hq hr hx hy hz).2
  have hlevelA := hA.level hp
  have hlevelB := hB.level hq
  have hlevelC := hC.level hr
  cases hab with
  | literal =>
    -- the same name is the same type
    obtain ⟨rfl, _⟩ := hlevelA
    obtain ⟨rfl, _⟩ := hlevelB
    rw [hwf.injective hp hq]
    exact hbc
  | coerced hco =>
    -- what the built-in name accepts has the form of the middle type, so of the last one too
    cases hbc with
    | literal | coerced | tuple | renamed => cases hco
    | value | object | function => exact .coerced hco
    | generic _ hbase _ =>
      simp only [coerces, Bool.or_eq_true, Bool.and_eq_true, decide_eq_true_eq] at hco
      rcases hco with hobject | ⟨harray, rfl⟩
      · exact .coerced (by simp [coerces, hobject])
      · have hplainB := hB.part hq (List.mem_cons_self ..)
        have hplainC := hC.part hr (List.mem_cons_self ..)
        have hsame := eq_array_of_fits hwf hplainB hplainC hlevelC hbase
        exact .coerced (by simp [coerces, harray, hsame])
    | target => exact hlevelC.elim
  | value =>
    cases hbc with
    | value => exact .value
    | target => exact hlevelC.elim
  | object hbrand hfields =>
    cases hbc with
    | object hbrand' hfields' =>
      refine object_trans ?_ hlevelA hlevelB (.object hbrand hfields)
        (.object (e := B) hbrand' hfields')
      intro x hx y hy z hz
      exact hparts _ (List.mem_map_of_mem hx) _ (List.mem_map_of_mem hy) _
        (List.mem_map_of_mem hz)
    | target => exact hlevelC.elim
  | function hlen hparams hresult hthis =>
    cases hbc with
    | function hlen' hparams' hresult' hthis' =>
      refine function_trans ?_ ?_ hlevelB.2 hlevelC (.function hlen hparams hresult hthis)
        (.function (e := B) hlen' hparams' hresult' hthis')
      · intro x hx y hy z hz
        exact hswapped _ (param_mem_parts hx) _ (param_mem_parts hy) _ (param_mem_parts hz)
      · exact hparts _ (result_mem_parts _) _ (result_mem_parts _) _ (result_mem_parts _)
    | target => exact hlevelC.elim
  | generic hlen hbase hargs =>
    cases hbc with
    | generic hlen' hbase' hargs' =>
      refine .generic (hlen.trans hlen') ?_ ?_
      · exact hparts _ (List.mem_cons_self ..) _ (List.mem_cons_self ..) _
          (List.mem_cons_self ..) hbase hbase'
      · refine forall_zip_trans (Nat.le_of_eq hlen'.symm) ?_ hargs hargs'
        intro x hx y hy z hz
        exact hparts x (List.mem_cons_of_mem _ hx) y (List.mem_cons_of_mem _ hy) z
          (List.mem_cons_of_mem _ hz)
    | target => exact hlevelC.elim
  | tuple hlen helements =>
    cases hbc with
    | tuple hlen' helements' =>
      exact .tuple (hlen.trans hlen')
        (forall_zip_trans (Nat.le_of_eq hlen'.symm) hparts helements helements')
    | target => exact hlevelC.elim
  | renamed => exact hlevelB.elim
  | target => exact hlevelB.elim

/-- One step of the induction: unions are taken apart, from the type that is given inwards, before
the forms are compared. -/
theorem trans_step (hwf : t.WellFormed) (ih : TransBelow t (A.index + B.index + C.index))
    (hA : t.Plain A) (hB : t.Plain B) (hC : t.Plain C) (hab : t.Fits A B) (hbc : t.Fits B C) :
    t.Fits A C := by
  obtain ⟨p, hp⟩ := hA.lookup
  obtain ⟨q, hq⟩ := hB.lookup
  obtain ⟨r, hr⟩ := hC.lookup
  by_cases hunionC : ∃ members, r = .union members
  · obtain ⟨members, rfl⟩ := hunionC
    rw [hwf.fits_union_iff hr hB.issued] at hbc
    rw [hwf.fits_union_iff hr hA.issued]
    intro m hm
    have hlt := hwf.descends hr m hm
    exact ih (by omega) hA hB (hC.part hr hm) hab (hbc m hm)
  by_cases hunionB : ∃ members, q = .union members
  · obtain ⟨members, rfl⟩ := hunionB
    rw [hwf.fits_union_iff hq hA.issued] at hab
    obtain ⟨m, hm, hmc⟩ := (hwf.union_fits_iff hq hr (not_exists.mp hunionC)).mp hbc
    have hlt := hwf.descends hq m hm
    exact ih (by omega) hA (hB.part hq hm) hC (hab m hm) hmc
  by_cases hunionA : ∃ members, p = .union members
  · obtain ⟨members, rfl⟩ := hunionA
    obtain ⟨m, hm, hmb⟩ := (hwf.union_fits_iff hp hq (not_exists.mp hunionB)).mp hab
    have hlt := hwf.descends hp m hm
    have hmc := ih (by omega) (hA.part hp hm) hB hC hmb hbc
    exact (hwf.union_fits_iff hp hr (not_exists.mp hunionC)).mpr ⟨m, hm, hmc⟩
  have hnop := not_exists.mp hunionA
  have hnoq := not_exists.mp hunionB
  have hnor := not_exists.mp hunionC
  by_cases heqAB : A = B
  · rw [heqAB]
    exact hbc
  by_cases heqBC : B = C
  · rw [← heqBC]
    exact hab
  by_cases hmixedA : A = .mixed
  · subst hmixedA
    exact hwf.fits_of_acceptsAll hA.issued hC.issued (.inl (by decide))
  rw [fits_iff_formFits hwf hA hB heqAB hmixedA hp hq hnop hnoq] at hab
  by_cases hmixedB : B = .mixed
  · -- only `Mixed` itself accepts the name `Mixed`
    subst hmixedB
    have hlit : t.lookup .mixed = some (.literal "Mixed" true) := hwf.builtin rfl
    rw [hlit] at hq
    cases hq
    cases hab with
    | literal =>
      obtain ⟨rfl, _⟩ := hA.level hp
      exact absurd (hwf.injective hp hlit) heqAB
    | coerced hco => cases hco
  rw [fits_iff_formFits hwf hB hC heqBC hmixedB hq hr hnoq hnor] at hbc
  exact fits_of_formFits hwf hA hC hp hr hnop hnor
    (formFits_trans hwf ih hA hB hC hp hq hr hab hbc)

end Forms

/-- The rules without a limit are transitive on plain types, by induction on the three handles. -/
theorem transBelow (hwf : t.WellFormed) (bound : Nat) : TransBelow t bound := by
  induction bound with
  | zero =>
    intro x y z hlt
    omega
  | succ bound ih =>
    intro x y z hlt hx hy hz hxy hyz
    refine trans_step hwf ?_ hx hy hz hxy hyz
    intro x' y' z' hlt'
    exact ih (by omega)

theorem fits_trans (hwf : t.WellFormed) {A B C : TypeId} (hA : t.Plain A) (hB : t.Plain B)
    (hC : t.Plain C) (hab : t.Fits A B) (hbc : t.Fits B C) : t.Fits A C :=
  transBelow hwf _ (Nat.lt_succ_self _) hA hB hC hab hbc

end Plain

end Table

/-- Subtyping is transitive on plain types of height at most 100. -/
theorem check_trans {t : Table} (h : Reachable t) {A B C : TypeId} (hA : t.Plain A)
    (hB : t.Plain B) (hC : t.Plain C) (hhA : t.height A ≤ 100) (hhB : t.height B ≤ 100)
    (hhC : t.height C ≤ 100) (hab : t.check A B = .ok ()) (hbc : t.check B C = .ok ()) :
    t.check A C = .ok () := by
  have hwf := h.wellFormed
  rw [hwf.check_eq_checkFully (by omega)] at hab hbc ⊢
  exact Table.Plain.fits_trans hwf hA hB hC hab hbc

/-- The function with one parameter. -/
def callback (param result : TypeId) : FunctionShape :=
  ⟨[{ name := none, type := param }], result, none, [], plainBrand⟩

/-- The table with `String | Number`, and with the functions from `String` to it, from `String` to
`String` and from it to `String`. -/
def callbacks : Table :=
  (Operation.function (callback ⟨19⟩ .string)).after
    ((Operation.function (callback .string .string)).after
      ((Operation.function (callback .string ⟨19⟩)).after
        ((Operation.union [.string, .number]).after .initial)))

theorem reachable_callbacks : Reachable callbacks :=
  .step _ (.step _ (.step _ (.step _ .refl (by decide)) (by decide)) (by decide)) (by decide)

theorem plain_string : callbacks.Plain .string :=
  have hd : callbacks.lookup .string = some (.literal "String" true) := rfl
  .mk hd ⟨rfl, by decide, by decide⟩ nofun

theorem plain_string_or_number : callbacks.Plain ⟨19⟩ := by
  have hunion : callbacks.lookup ⟨19⟩ = some (.union [.string, .number]) := by decide
  have hnumber : callbacks.lookup .number = some (.literal "Number" true) := rfl
  refine .mk hunion trivial fun part hp => ?_
  rcases List.mem_pair.mp hp with rfl | rfl
  · exact plain_string
  · exact .mk hnumber ⟨rfl, by decide, by decide⟩ nofun

theorem plain_callback {id param result : TypeId}
    (hd : callbacks.lookup id = some (.function (callback param result)))
    (hparam : callbacks.Plain param) (hresult : callbacks.Plain result) :
    callbacks.Plain id := by
  refine .mk hd ⟨rfl, ?_⟩ fun part hp => ?_
  · simp [callback]
  · have hmem : part = param ∨ part = result := by
      simpa [TypeData.parts, callback] using hp
    rcases hmem with rfl | rfl
    · exact hparam
    · exact hresult

/-- A function from `String` to `String` stands between one with the wider result and one with the
wider parameter. -/
theorem check_trans_callbacks :
    Reachable callbacks ∧
      (callbacks.Plain ⟨20⟩ ∧ callbacks.Plain ⟨21⟩ ∧ callbacks.Plain ⟨22⟩) ∧
      (callbacks.height ⟨20⟩ ≤ 100 ∧ callbacks.height ⟨21⟩ ≤ 100 ∧
        callbacks.height ⟨22⟩ ≤ 100) ∧
      callbacks.check ⟨20⟩ ⟨21⟩ = .ok () ∧ callbacks.check ⟨21⟩ ⟨22⟩ = .ok () ∧
      callbacks.check ⟨20⟩ ⟨22⟩ = .ok () := by
  have hA : callbacks.Plain ⟨20⟩ :=
    plain_callback (by decide) plain_string plain_string_or_number
  have hB : callbacks.Plain ⟨21⟩ := plain_callback (by decide) plain_string plain_string
  have hC : callbacks.Plain ⟨22⟩ :=
    plain_callback (by decide) plain_string_or_number plain_string
  have hheights : callbacks.height ⟨20⟩ ≤ 100 ∧ callbacks.height ⟨21⟩ ≤ 100 ∧
      callbacks.height ⟨22⟩ ≤ 100 := by decide +kernel
  have hab : callbacks.check ⟨20⟩ ⟨21⟩ = .ok () := by decide +kernel
  have hbc : callbacks.check ⟨21⟩ ⟨22⟩ = .ok () := by decide +kernel
  exact ⟨reachable_callbacks, ⟨hA, hB, hC⟩, hheights, hab, hbc,
    check_trans reachable_callbacks hA hB hC hheights.1 hheights.2.1 hheights.2.2 hab hbc⟩

end HeaderCheck.Types
