import HeaderCheck.Json.Double
import HeaderCheck.Proofs.Types.WellFormed
import HeaderCheck.Types.Narrow

/-!
# HeaderCheck.Proofs.Types.Narrowing

What narrowing a type means for the values of the type.

* `Value`, `ValueKind`: runtime values, and the kinds into which tests sort them.
* `Table.kind?`: the kind that all values of a type are of. A type is ground when each of its
  members has one.
* `Table.Inhabits`: a value is one of some member of a type. What a member asks of a value beyond
  its kind (fields, elements, signatures) is left open.
* `Narrows change P`: narrowing by `change` keeps every value for which `P` holds. It is shown for
  each narrowing of `HeaderCheck.Types.Narrow`.
-/

namespace HeaderCheck.Types

/-! ## Values -/

inductive ValueKind where
  | undefined
  | null
  | boolean
  | number
  | string
  | regExp
  | object
  | array
  | function
deriving DecidableEq, Repr

/-- A runtime value. A number is given by the bits of its double, and what is passed by reference
by an address. -/
inductive Value where
  | undefined
  | null
  | boolean (b : Bool)
  | number (bits : UInt64)
  | string (text : String)
  | regExp (address : Nat)
  | object (address : Nat)
  | array (address : Nat)
  | function (address : Nat)
deriving DecidableEq, Repr

/-- The tag that `typeof` gives to the values of a kind. -/
def ValueKind.typeof : ValueKind → String
  | .undefined => "undefined"
  | .boolean => "boolean"
  | .number => "number"
  | .string => "string"
  | .function => "function"
  | .null | .regExp | .object | .array => "object"

namespace Value

def kind : Value → ValueKind
  | .undefined => .undefined
  | .null => .null
  | .boolean _ => .boolean
  | .number _ => .number
  | .string _ => .string
  | .regExp _ => .regExp
  | .object _ => .object
  | .array _ => .array
  | .function _ => .function

def typeof (v : Value) : String :=
  v.kind.typeof

/-- The bits of the positive infinity. Those above them stand for no number. -/
def infinityBits : Nat := 0x7FF0000000000000

/-- Zero of either sign, and what is no number, are falsy. -/
def truthyNumber (bits : UInt64) : Bool :=
  let magnitude := bits.toNat % Double.signBit
  0 < magnitude && magnitude ≤ infinityBits

def truthy : Value → Bool
  | .undefined | .null => false
  | .boolean b => b
  | .number bits => truthyNumber bits
  | .string text => text ≠ ""
  | .regExp _ | .object _ | .array _ | .function _ => true

end Value

namespace Table

/-! ## Types and their values -/

/-- The kind of all values of a type, if the type tells it. -/
def kind? (t : Table) (id : TypeId) : Option ValueKind :=
  match t.lookup id with
  | some (.literal _ _) =>
    if id = .string then some .string
    else if id = .number then some .number
    else if id = .boolean then some .boolean
    else if id = .regExp then some .regExp
    else none
  | some (.value _ _) =>
    if id = .null then some .null else if id = .undefined then some .undefined else none
  | some (.object _) => some .object
  | some (.function _) => some .function
  | some (.generic base _) =>
    if base = .array then some .array else if base = .object then some .object else none
  | some (.tuple _) => some .array
  | _ => none

/-- Each member of the type tells the kind of its values. -/
def Ground (t : Table) (id : TypeId) : Prop :=
  ∀ member ∈ t.members id, (t.kind? member).isSome

instance (t : Table) (id : TypeId) : Decidable (t.Ground id) :=
  inferInstanceAs (Decidable (∀ member ∈ t.members id, (t.kind? member).isSome))

/-- The value is one of some member of the type: it has the kind of the member and is as `admits`
says. -/
def Inhabits (t : Table) (admits : Value → TypeId → Prop) (v : Value) (id : TypeId) : Prop :=
  ∃ member ∈ t.members id, t.kind? member = some v.kind ∧ admits v member

theorem lookup_of_kind? {t : Table} {id : TypeId} {c : ValueKind} (h : t.kind? id = some c) :
    ∃ data, t.lookup id = some data := by
  cases hd : t.lookup id with
  | none => simp [kind?, hd] at h
  | some data => exact ⟨data, rfl⟩

theorem unionMembers?_of_kind? {t : Table} {id : TypeId} {c : ValueKind}
    (h : t.kind? id = some c) : t.unionMembers? id = none := by
  cases hd : t.lookup id with
  | none => simp [kind?, hd] at h
  | some data => cases data <;> simp_all [kind?, unionMembers?]

theorem Extends.kind?_eq {t u : Table} (hx : t.Extends u) {id : TypeId} {c : ValueKind}
    (h : t.kind? id = some c) : u.kind? id = some c := by
  obtain ⟨data, hd⟩ := lookup_of_kind? h
  simpa only [kind?, hx id data hd, hd] using h

theorem Ground.lookup {t : Table} {id : TypeId} (h : t.Ground id) :
    ∃ data, t.lookup id = some data := by
  cases hd : t.lookup id with
  | some data => exact ⟨data, rfl⟩
  | none =>
    have hm : t.members id = [id] := by simp [members, unionMembers?, hd]
    have := h id (by simp [hm])
    simp [kind?, hd] at this

theorem Extends.members_eq {t u : Table} (hx : t.Extends u) {id : TypeId} (h : t.Ground id) :
    u.members id = t.members id := by
  obtain ⟨data, hd⟩ := h.lookup
  simp only [members, unionMembers?, hx id data hd, hd]

theorem Ground.extend {t u : Table} {id : TypeId} (h : t.Ground id) (hx : t.Extends u) :
    u.Ground id := by
  intro member hm
  rw [hx.members_eq h] at hm
  obtain ⟨c, hc⟩ := Option.isSome_iff_exists.mp (h member hm)
  simp [hx.kind?_eq hc]

theorem Inhabits.extend {t u : Table} {admits : Value → TypeId → Prop} {v : Value} {id : TypeId}
    (h : t.Inhabits admits v id) (hg : t.Ground id) (hx : t.Extends u) :
    u.Inhabits admits v id := by
  obtain ⟨member, hm, hc, ha⟩ := h
  exact ⟨member, by rwa [hx.members_eq hg], hx.kind?_eq hc, ha⟩

/-! ## Members that are kept -/

theorem extends_union (t : Table) (members : List TypeId) : t.Extends (t.union members).2 := by
  rw [union_eq]
  rcases t.gather_cases .void .union (flatten t.unionMembers? members)
    with ⟨_, he⟩ | ⟨_, _, he⟩ | ⟨_, he⟩
  · rw [he]
    exact .refl t
  · rw [he]
    exact .refl t
  · rw [he]
    exact extends_add t _

/-- A union of types that are no unions has just these as its members. -/
theorem mem_members_union {t : Table} {kept : List TypeId} (hne : kept ≠ [])
    (hk : ∀ member ∈ kept, (t.kind? member).isSome) {member : TypeId} :
    member ∈ (t.union kept).2.members (t.union kept).1 ↔ member ∈ kept := by
  have hsingle : ∀ m ∈ kept, t.unionMembers? m = none := by
    intro m hm
    obtain ⟨c, hc⟩ := Option.isSome_iff_exists.mp (hk m hm)
    exact unionMembers?_of_kind? hc
  have hflat : ∀ m, m ∈ flatten t.unionMembers? kept ↔ m ∈ kept := by
    intro m
    rw [mem_flatten]
    constructor
    · rintro ⟨k, hkm, hexp⟩
      rw [expand, hsingle k hkm, Option.getD_none, List.mem_singleton] at hexp
      exact hexp ▸ hkm
    · intro hm
      exact ⟨m, hm, by simp [expand, hsingle m hm]⟩
  rw [← hflat member, union_eq]
  rcases t.gather_cases .void .union (flatten t.unionMembers? kept)
    with ⟨hnil, _⟩ | ⟨only, hone, he⟩ | ⟨_, he⟩
  · obtain ⟨first, hfirst⟩ := List.exists_mem_of_ne_nil kept hne
    have := (hflat first).mpr hfirst
    simp [hnil] at this
  · have honly : t.unionMembers? only = none :=
      hsingle only ((hflat only).mp (by simp [hone]))
    rw [he]
    simp [members, honly, hone]
  · rw [he]
    have hself := lookup_add_self t (.union (flatten t.unionMembers? kept))
    simp only [members, unionMembers?, hself, Option.getD_some]

theorem filter?_cases {t : Table} {id : TypeId} {keep : TypeId → Bool} {made : TypeId × Table}
    (h : t.filter? id keep = some made) :
    (t.members id).filter keep ≠ [] ∧ made = t.union ((t.members id).filter keep) := by
  simp only [filter?] at h
  split at h
  · cases h
  · next hcond =>
    simp only [Bool.or_eq_true, List.isEmpty_iff, not_or] at hcond
    cases h
    exact ⟨hcond.1, rfl⟩

/-! ## Narrowings -/

/-- Narrowing by `change` leaves a ground type ground and loses no value for which `P` holds. -/
def Narrows (change : Table → TypeId → Option (TypeId × Table)) (P : Value → Prop) : Prop :=
  ∀ {t : Table} {id : TypeId} {made : TypeId × Table}, initial.Extends t → t.Ground id →
    change t id = some made → made.2.Ground made.1 ∧
      ∀ {admits v}, P v → t.Inhabits admits v id → made.2.Inhabits admits v made.1

/-- A narrowing only adds types to the table. -/
def Growing (change : Table → TypeId → Option (TypeId × Table)) : Prop :=
  ∀ {t : Table} {id : TypeId} {made : TypeId × Table}, change t id = some made →
    t.Extends made.2

theorem growing_filter? (keep : Table → TypeId → Bool) :
    Growing fun t id => t.filter? id (keep t) := by
  intro t id made h
  obtain ⟨_, rfl⟩ := filter?_cases h
  exact extends_union t _

theorem narrows_filter? (keep : Table → TypeId → Bool) {P : Value → Prop}
    (hkeep : ∀ {t : Table} {member : TypeId} {v : Value}, initial.Extends t →
      t.kind? member = some v.kind → P v → keep t member = true) :
    Narrows (fun t id => t.filter? id (keep t)) P := by
  intro t id made ht hg h
  have hx := growing_filter? keep h
  obtain ⟨hne, rfl⟩ := filter?_cases h
  have hk : ∀ member ∈ (t.members id).filter (keep t), (t.kind? member).isSome :=
    fun member hm => hg member (List.mem_filter.mp hm).1
  constructor
  · intro member hm
    have hm := (mem_members_union hne hk).mp hm
    obtain ⟨c, hc⟩ := Option.isSome_iff_exists.mp (hk member hm)
    simp [hx.kind?_eq hc]
  · rintro admits v hP ⟨member, hm, hc, ha⟩
    have hkept := List.mem_filter.mpr ⟨hm, hkeep ht hc hP⟩
    exact ⟨member, (mem_members_union hne hk).mpr hkept, hx.kind?_eq hc, ha⟩

/-! ## Kinds and handles -/

theorem isFunction_eq {t : Table} {id : TypeId} {k : ValueKind} (hk : t.kind? id = some k) :
    t.isFunction id = decide (k.typeof = "function") := by
  simp only [kind?] at hk
  simp only [isFunction, functionShape?]
  repeat' split at hk
  all_goals cases hk
  all_goals simp_all [ValueKind.typeof]

section Builtin

variable {t : Table} (ht : initial.Extends t)
include ht

theorem kind?_builtin {id : TypeId} {data : TypeData} (hd : initial.lookup id = some data) :
    t.kind? id = initial.kind? id := by
  simp only [kind?, ht id data hd, hd]

/-- A type that may be anything is not ground. -/
theorem Ground.not_anyLike {id : TypeId} (h : t.Ground id) : id.isAnyLike = false := by
  by_contra hlike
  simp only [TypeId.isAnyLike, Bool.not_eq_false, Bool.or_eq_true, decide_eq_true_eq] at hlike
  have hname : ∃ name, initial.lookup id = some (.literal name true) ∧ initial.kind? id = none := by
    rcases hlike with rfl | rfl
    · exact ⟨"Any", rfl, rfl⟩
    · exact ⟨"Mixed", rfl, rfl⟩
  obtain ⟨name, hd, hnone⟩ := hname
  have hm : t.members id = [id] := by simp [members, unionMembers?, ht id _ hd]
  have := h id (by simp [hm])
  simp [kind?_builtin ht hd, hnone] at this

/-- Values other than `null` and `undefined` are of no type that is named for these. -/
theorem not_isNullish {id : TypeId} {k : ValueKind} (hk : t.kind? id = some k)
    (hnull : k ≠ .null) (hundefined : k ≠ .undefined) : id.isNullish = false := by
  by_contra hn
  simp only [TypeId.isNullish, Bool.not_eq_false, Bool.or_eq_true, decide_eq_true_eq] at hn
  rcases hn with ((rfl | rfl) | rfl) | rfl
  · rw [kind?_builtin ht rfl] at hk
    exact hnull (Option.some.inj hk).symm
  · rw [kind?_builtin ht rfl] at hk
    exact hundefined (Option.some.inj hk).symm
  · rw [kind?_builtin ht rfl] at hk
    cases hk
  · rw [kind?_builtin ht rfl] at hk
    cases hk

/-- A primitive type is known by its handle. -/
theorem eq_iff_of_kind? {id : TypeId} {k : ValueKind} (hk : t.kind? id = some k)
    (fixed : TypeId) (k' : ValueKind) (hfixed : (fixed, k') ∈ [(TypeId.string, ValueKind.string), (.number, .number),
      (.boolean, .boolean), (.regExp, .regExp), (.null, .null), (.undefined, .undefined)]) :
    id = fixed ↔ k = k' := by
  constructor
  · rintro rfl
    have hself : t.kind? id = some k' := by
      simp only [List.mem_cons, Prod.mk.injEq, List.not_mem_nil, or_false] at hfixed
      rcases hfixed with ⟨rfl, rfl⟩ | ⟨rfl, rfl⟩ | ⟨rfl, rfl⟩ | ⟨rfl, rfl⟩ | ⟨rfl, rfl⟩ |
        ⟨rfl, rfl⟩ <;> exact kind?_builtin ht rfl
    rw [hself] at hk
    exact (Option.some.inj hk).symm
  · rintro rfl
    simp only [kind?] at hk
    repeat' split at hk
    all_goals cases hk
    all_goals simp_all

theorem ne_of_kind?_builtin {id fixed : TypeId} {k : ValueKind} {data : TypeData}
    (hk : t.kind? id = some k) (hd : initial.lookup fixed = some data)
    (hnone : initial.kind? fixed = none) : id ≠ fixed := by
  rintro rfl
  rw [kind?_builtin ht hd, hnone] at hk
  cases hk

/-- The tag of a member is that of its values. -/
theorem matchesTypeof_eq {id : TypeId} {k : ValueKind} (hk : t.kind? id = some k) (tag : String) :
    t.matchesTypeof id tag = decide (k.typeof = tag) := by
  simp only [matchesTypeof]
  split
  · simp only [eq_iff_of_kind? ht hk .string .string (by simp)]
    cases k <;> decide
  · simp only [eq_iff_of_kind? ht hk .number .number (by simp)]
    cases k <;> decide
  · simp only [eq_iff_of_kind? ht hk .boolean .boolean (by simp)]
    cases k <;> decide
  · have hne := ne_of_kind?_builtin ht hk (rfl : initial.lookup .uninitialized = _) rfl
    simp only [eq_iff_of_kind? ht hk .undefined .undefined (by simp), hne, decide_false,
      Bool.or_false]
    cases k <;> decide
  · have hne := ne_of_kind?_builtin ht hk (rfl : initial.lookup .function = _) rfl
    simp only [hne, decide_false, Bool.false_or]
    exact isFunction_eq hk
  · have hdefault := ne_of_kind?_builtin ht hk (rfl : initial.lookup .nullDefault = _) rfl
    have hobject := ne_of_kind?_builtin ht hk (rfl : initial.lookup .object = _) rfl
    simp only [eq_iff_of_kind? ht hk .null .null (by simp),
      eq_iff_of_kind? ht hk .regExp .regExp (by simp), hdefault, hobject, decide_false,
      Bool.or_false]
    -- by structure the type is an object, an applied type or a tuple, or it is one of the names
    simp only [kind?] at hk
    repeat' split at hk
    all_goals cases hk
    all_goals simp_all [ValueKind.typeof]
  · cases k <;> simp_all [ValueKind.typeof, eq_comm]

theorem isValue_null_eq {id : TypeId} {k : ValueKind} (hk : t.kind? id = some k) :
    isValue .null id = decide (k = .null) := by
  have hne := ne_of_kind?_builtin ht hk (rfl : initial.lookup .nullDefault = _) rfl
  simp [isValue, eq_iff_of_kind? ht hk .null .null (by simp), hne]

theorem isValue_undefined_eq {id : TypeId} {k : ValueKind} (hk : t.kind? id = some k) :
    isValue .undefined id = decide (k = .undefined) := by
  have hne := ne_of_kind?_builtin ht hk (rfl : initial.lookup .uninitialized = _) rfl
  have hother : TypeId.undefined ≠ .null := by decide
  simp [isValue, eq_iff_of_kind? ht hk .undefined .undefined (by simp), hne, hother]

end Builtin

/-! ## The narrowings -/

theorem narrows_removeNullish? : Narrows removeNullish? fun v => v.truthy = true := by
  refine narrows_filter? (fun _ member => !member.isNullish) ?_
  intro t member v ht hk hv
  have hnot : member.isNullish = false := by
    refine not_isNullish ht hk ?_ ?_
    · cases v <;> simp_all [Value.kind, Value.truthy]
    · cases v <;> simp_all [Value.kind, Value.truthy]
  simp [hnot]

theorem narrows_falsyPart? : Narrows falsyPart? fun v => v.truthy = false := by
  refine narrows_filter? (fun _ member => member.isNullish || member.isAnyLike ||
    member = .string || member = .number || member = .boolean) ?_
  intro t member v ht hk hv
  have hstring := eq_iff_of_kind? ht hk .string .string (by simp)
  have hnumber := eq_iff_of_kind? ht hk .number .number (by simp)
  have hboolean := eq_iff_of_kind? ht hk .boolean .boolean (by simp)
  have hnull := eq_iff_of_kind? ht hk .null .null (by simp)
  have hundefined := eq_iff_of_kind? ht hk .undefined .undefined (by simp)
  -- only five kinds have falsy values, and each has one type
  cases v <;> simp_all [Value.kind, Value.truthy, TypeId.isNullish]

theorem narrows_narrowByTypeof? (tag : String) (positive : Bool) :
    Narrows (fun t id => t.narrowByTypeof? id tag positive)
      fun v => decide (v.typeof = tag) = positive := by
  intro t id made ht hg h
  simp only [narrowByTypeof?, hg.not_anyLike ht, Bool.false_eq_true, if_false] at h
  refine narrows_filter? (fun t member => t.matchesTypeof member tag == positive) ?_ ht hg h
  intro u member v hu hk hv
  rw [matchesTypeof_eq hu hk]
  exact beq_iff_eq.mpr hv

theorem narrows_narrowByValue? {type : TypeId} {value : Value}
    (hvalue : (type, value) ∈ [(TypeId.null, Value.null), (.undefined, .undefined)])
    (positive : Bool) :
    Narrows (fun t id => t.narrowByValue? id type positive)
      fun v => decide (v = value) = positive := by
  intro t id made ht hg h
  simp only [narrowByValue?, hg.not_anyLike ht, Bool.and_false, Bool.false_eq_true,
    if_false] at h
  refine narrows_filter? (fun _ member => isValue type member == positive) ?_ ht hg h
  intro u member v hu hk hv
  have hsame : isValue type member = decide (v = value) := by
    simp only [List.mem_cons, Prod.mk.injEq, List.not_mem_nil, or_false] at hvalue
    rcases hvalue with ⟨rfl, rfl⟩ | ⟨rfl, rfl⟩
    · rw [isValue_null_eq hu hk]
      cases v <;> simp [Value.kind]
    · rw [isValue_undefined_eq hu hk]
      cases v <;> simp [Value.kind]
  simp [hsame, hv]

theorem growing_removeNullish? : Growing removeNullish? :=
  growing_filter? fun _ member => !member.isNullish

theorem growing_falsyPart? : Growing falsyPart? :=
  growing_filter? fun _ member => member.isNullish || member.isAnyLike || member = .string ||
    member = .number || member = .boolean

theorem growing_narrowByTypeof? (tag : String) (positive : Bool) :
    Growing fun t id => t.narrowByTypeof? id tag positive := by
  intro t id made h
  simp only [narrowByTypeof?] at h
  split at h
  · split at h
    · obtain ⟨_, _, rfl⟩ := Option.map_eq_some_iff.mp h
      exact .refl t
    · cases h
  · exact growing_filter? (fun t member => t.matchesTypeof member tag == positive) h

theorem growing_narrowByValue? (type : TypeId) (positive : Bool) :
    Growing fun t id => t.narrowByValue? id type positive := by
  intro t id made h
  simp only [narrowByValue?] at h
  split at h
  · cases h
    exact .refl t
  · exact growing_filter? (fun _ member => isValue type member == positive) h

end Table

end HeaderCheck.Types
