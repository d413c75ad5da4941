import HeaderCheck.Text.Pool
import Mathlib.Data.List.Nodup

/-!
# HeaderCheck.Proofs.Text.Pool

What the numbers of a pool stand for, whatever is called on it.

* `Call`, `after`, `answers`: additions and look-ups one after the other.
* `Lawful`: the dictionary of numbers and the list of names say the same, up to the 32 bits of a
  number. Every call keeps this, in pools of any size (`Lawful.call`).
* `Issued`: the name has got the number, from the start or by an addition. As long as numbers do not
  wrap, the issued numbers are the places in the list of names (`Lawful.issued_iff`).
* `numbers_are_names`: in pools that begin as `empty` or `standard`, numbers and names are one to
  one (`Interned`) after every call.
-/

namespace HeaderCheck.Pool

/-! ## Calls -/

/-- A call on a pool. -/
inductive Call where
  | add (name : String)
  | find (name : String)
deriving DecidableEq, Repr

/-- What the pool answers to a call, and the pool after it. -/
def call (pool : Pool) : Call → Option Nat × Pool
  | .add name => (some (pool.add name).1, (pool.add name).2)
  | .find name => (pool.find? name, pool)

/-- The pool after calls in order. -/
def after (pool : Pool) : List Call → Pool
  | [] => pool
  | c :: rest => (pool.call c).2.after rest

/-- Calls in order, each with the answer to it. -/
def answers (pool : Pool) : List Call → List (Call × Option Nat)
  | [] => []
  | c :: rest => (c, (pool.call c).1) :: (pool.call c).2.answers rest

/-- The pool had the name under the number at the start, or an addition of the name was answered by
the number. -/
def Issued (start : Pool) (calls : List Call) (name : String) (number : Nat) : Prop :=
  start.names[number]? = some name ∨ (.add name, some number) ∈ start.answers calls

variable {pool start : Pool} {c : Call} {calls : List Call} {name : String} {number : Nat}

theorem after_append (pool : Pool) (before later : List Call) :
    pool.after (before ++ later) = (pool.after before).after later := by
  induction before generalizing pool with
  | nil => rfl
  | cons c rest ih => exact ih _

/-! ## Names are never lost -/

theorem add_of_some (h : pool.find? name = some number) : pool.add name = (number, pool) := by
  rw [add, h]

theorem add_of_none (h : pool.find? name = none) :
    pool.add name = (pool.size % numberLimit,
      ⟨pool.numbers.insert name (pool.size % numberLimit), pool.names ++ [name]⟩) := by
  rw [add, h]
  rfl

theorem names_prefix_add (pool : Pool) (name : String) :
    pool.names <+: (pool.add name).2.names := by
  cases h : pool.find? name with
  | some number => exact (add_of_some h).symm ▸ List.prefix_rfl
  | none =>
    rw [add_of_none h]
    exact List.prefix_append _ _

theorem names_prefix_call (pool : Pool) (c : Call) : pool.names <+: (pool.call c).2.names := by
  cases c with
  | add name => exact names_prefix_add pool name
  | find name => exact List.prefix_rfl

theorem names_prefix_after (pool : Pool) (calls : List Call) :
    pool.names <+: (pool.after calls).names := by
  induction calls generalizing pool with
  | nil => exact List.prefix_rfl
  | cons c rest ih => exact (names_prefix_call pool c).trans (ih _)

theorem size_le_after (pool : Pool) (calls : List Call) : pool.size ≤ (pool.after calls).size :=
  (names_prefix_after pool calls).length_le

theorem getElem?_after (h : pool.names[number]? = some name) (calls : List Call) :
    (pool.after calls).names[number]? = some name := by
  obtain ⟨more, hmore⟩ := names_prefix_after pool calls
  rw [← hmore, List.getElem?_append_left (List.getElem?_eq_some_iff.mp h).1, h]

theorem name_of_getElem? (h : pool.names[number]? = some name) : pool.name number = name := by
  rw [Pool.name, List.getD_eq_getElem?_getD, h, Option.getD_some]

/-! ## The dictionary and the list -/

/-- The names are distinct, and each has its place as its number, as far as 32 bits go. -/
structure Lawful (pool : Pool) : Prop where
  distinct : pool.names.Nodup
  numbers : pool.numbers.entries =
    pool.names.zipIdx.map fun entry => (entry.1, entry.2 % numberLimit)

namespace Lawful

theorem keys (h : pool.Lawful) : pool.numbers.keys = pool.names := by
  rw [Dict.keys, h.numbers, List.map_map]
  exact List.zipIdx_map_fst 0 pool.names

theorem find?_eq_none_iff (h : pool.Lawful) : pool.find? name = none ↔ name ∉ pool.names := by
  rw [find?, Dict.get?_eq_none_iff, h.keys]

theorem find?_eq_some_iff (h : pool.Lawful) : pool.find? name = some number ↔
    ∃ place, pool.names[place]? = some name ∧ place % numberLimit = number := by
  have hmem : (name, number) ∈ pool.numbers.entries ↔
      ∃ place, pool.names[place]? = some name ∧ place % numberLimit = number := by
    simp [h.numbers, List.mem_zipIdx_iff_getElem?]
  rw [← hmem]
  exact ⟨Dict.mem_entries_of_get?, Dict.get?_of_mem (h.keys ▸ h.distinct)⟩

/-- A pool that is not too large finds each name at its place. -/
theorem find?_iff_getElem? (h : pool.Lawful) (hsize : pool.size ≤ numberLimit) :
    pool.find? name = some number ↔ pool.names[number]? = some name := by
  have hplace {place : Nat} (hp : pool.names[place]? = some name) : place % numberLimit = place :=
    Nat.mod_eq_of_lt (Nat.lt_of_lt_of_le (List.getElem?_eq_some_iff.mp hp).1 hsize)
  rw [h.find?_eq_some_iff]
  constructor
  · rintro ⟨place, hp, rfl⟩
    rwa [hplace hp]
  · exact fun hp => ⟨number, hp, hplace hp⟩

theorem add (h : pool.Lawful) (name : String) : (pool.add name).2.Lawful := by
  cases hf : pool.find? name with
  | some number => rwa [add_of_some hf]
  | none =>
    rw [add_of_none hf]
    have hnew : name ∉ pool.names := h.find?_eq_none_iff.mp hf
    refine ⟨List.nodup_append.mpr ⟨h.distinct, by simp, ?_⟩, ?_⟩
    · rintro other hother _ hname rfl
      exact hnew (List.mem_singleton.mp hname ▸ hother)
    · rw [Dict.entries_insert hf, h.numbers, List.zipIdx_append, List.map_append]
      simp [size]

theorem call (h : pool.Lawful) (c : Call) : (pool.call c).2.Lawful := by
  cases c with
  | add name => exact h.add name
  | find name => exact h

theorem after (h : pool.Lawful) (calls : List Call) : (pool.after calls).Lawful := by
  induction calls generalizing pool with
  | nil => exact h
  | cons c rest ih => exact ih (h.call c)

end Lawful

theorem lawful_empty : empty.Lawful :=
  ⟨List.nodup_nil, rfl⟩

theorem lawful_ofEmptyName : ofEmptyName.Lawful :=
  ⟨List.nodup_singleton _, rfl⟩

theorem standard_eq_after : standard = ofEmptyName.after (commonNames.map Call.add) :=
  rfl

theorem lawful_standard : standard.Lawful :=
  standard_eq_after ▸ lawful_ofEmptyName.after _

theorem names_standard : standard.names = "" :: commonNames := by
  decide +kernel

/-! ## Numbers that calls give -/

namespace Lawful

/-- A call adds at most the name that it gives a number to. -/
theorem getElem?_names_call (h : pool.Lawful) (hsize : (pool.call c).2.size ≤ numberLimit) :
    (pool.call c).2.names[number]? = some name ↔
      pool.names[number]? = some name ∨ (.add name, some number) = (c, (pool.call c).1) := by
  cases c with
  | find other => simp [Pool.call]
  | add other =>
    cases hf : pool.find? other with
    | some found =>
      rw [Pool.call, add_of_some hf] at hsize ⊢
      have hplace : pool.names[found]? = some other := (h.find?_iff_getElem? hsize).mp hf
      simp only [Prod.mk.injEq, Call.add.injEq, Option.some.injEq, iff_self_or]
      rintro ⟨rfl, rfl⟩
      exact hplace
    | none =>
      rw [Pool.call, add_of_none hf] at hsize ⊢
      have hfits : pool.size < numberLimit := by
        rwa [size, List.length_append, List.length_singleton] at hsize
      rw [Nat.mod_eq_of_lt hfits]
      -- The new name has the place behind all others.
      simp only [List.getElem?_append, List.getElem?_singleton, Prod.mk.injEq, Call.add.injEq,
        Option.some.injEq]
      grind [size]

/-- After calls that do not make the pool too large, the numbers issued are the places of the
names. -/
theorem issued_iff (h : start.Lawful) (hsize : (start.after calls).size ≤ numberLimit) :
    start.Issued calls name number ↔ (start.after calls).names[number]? = some name := by
  induction calls generalizing start with
  | nil => simp [Issued, answers, Pool.after]
  | cons c rest ih =>
    have hcall : (start.call c).2.size ≤ numberLimit := Nat.le_trans (size_le_after _ rest) hsize
    rw [Pool.after, ← ih (h.call c) hsize, Issued, Issued, answers, List.mem_cons,
      h.getElem?_names_call hcall, or_assoc]

end Lawful

/-- What the numbers of a pool mean after calls. -/
structure Interned (start : Pool) (calls : List Call) : Prop where
  /-- Equal numbers were given for equal names. -/
  number_eq_iff : ∀ first second m n, start.Issued calls first m → start.Issued calls second n →
    (m = n ↔ first = second)
  find?_iff : ∀ name number,
    (start.after calls).find? name = some number ↔ start.Issued calls name number
  /-- A number stands for its name, whatever is called later. -/
  name_of_issued : ∀ name number, start.Issued calls name number →
    ∀ later, (start.after (calls ++ later)).name number = name
  name_of_not_issued : ∀ number, (∀ name, ¬start.Issued calls name number) →
    (start.after calls).name number = ""
  /-- The numbers given are those below the size. -/
  dense : ∀ number, (∃ name, start.Issued calls name number) ↔ number < (start.after calls).size
  /-- A new name is given the next number. -/
  next : ∀ name, (∀ number, ¬start.Issued calls name number) →
    ((start.after calls).add name).1 = (start.after calls).size

theorem Lawful.interned (h : start.Lawful) (hsize : (start.after calls).size < numberLimit) :
    start.Interned calls := by
  have hissued (name : String) (number : Nat) :
      start.Issued calls name number ↔ (start.after calls).names[number]? = some name :=
    h.issued_iff (Nat.le_of_lt hsize)
  have hlawful : (start.after calls).Lawful := h.after calls
  have hfind (name : String) (number : Nat) :
      (start.after calls).find? name = some number ↔ start.Issued calls name number := by
    rw [hlawful.find?_iff_getElem? (Nat.le_of_lt hsize), hissued]
  constructor
  case number_eq_iff =>
    intro first second m n hm hn
    rw [hissued] at hm hn
    have hplace : m < (start.after calls).names.length := (List.getElem?_eq_some_iff.mp hm).1
    rw [← List.getElem?_inj hplace hlawful.distinct, hm, hn, Option.some_inj]
  case find?_iff => exact hfind
  case name_of_issued =>
    intro name number hissue later
    rw [after_append]
    exact name_of_getElem? (getElem?_after ((hissued name number).mp hissue) later)
  case name_of_not_issued =>
    intro number hnone
    have hplace : (start.after calls).names[number]? = none :=
      Option.eq_none_iff_forall_ne_some.mpr fun name hname =>
        hnone name ((hissued name number).mpr hname)
    rw [Pool.name, List.getD_eq_getElem?_getD, hplace, Option.getD_none]
  case dense =>
    intro number
    simp only [hissued, List.getElem?_eq_some_iff, size]
    exact ⟨fun ⟨_, hlt, _⟩ => hlt, fun hlt => ⟨_, hlt, rfl⟩⟩
  case next =>
    intro name hnone
    have hnew : (start.after calls).find? name = none :=
      Option.eq_none_iff_forall_ne_some.mpr fun number hfound =>
        hnone number ((hfind name number).mp hfound)
    rw [add_of_none hnew, Nat.mod_eq_of_lt hsize]

/-- In a pool that begins as `empty` or as `standard` and comes to have fewer names than there are
numbers, numbers and names are one to one after every call. Where it began as `standard`, the
well-known names have their numbers. -/
theorem numbers_are_names (hstart : start = empty ∨ start = standard) (calls : List Call)
    (hsize : (start.after calls).size < numberLimit) :
    (∀ before later, calls = before ++ later → start.Interned before) ∧
      (start = standard → ∀ known ∈ wellKnown, (start.after calls).name known.2 = known.1 ∧
        (start.after calls).find? known.1 = some known.2) := by
  have hlawful : start.Lawful := by
    rcases hstart with rfl | rfl
    · exact lawful_empty
    · exact lawful_standard
  constructor
  · rintro before later rfl
    rw [after_append] at hsize
    exact hlawful.interned (Nat.lt_of_le_of_lt (size_le_after _ later) hsize)
  · rintro rfl known hknown
    have hplace : standard.names[known.2]? = some known.1 := by
      rw [names_standard]
      revert known
      decide
    have hlater : (standard.after calls).names[known.2]? = some known.1 :=
      getElem?_after hplace calls
    exact ⟨name_of_getElem? hlater,
      ((hlawful.after calls).find?_iff_getElem? (Nat.le_of_lt hsize)).mpr hlater⟩

theorem numbers_are_names_repeated :
    let calls := [.add "hello", .find "nope", .add "this", .add "hello", .find "hello"]
    (standard.after calls).size < numberLimit ∧
      standard.answers calls = [(.add "hello", some 15), (.find "nope", none),
        (.add "this", some 1), (.add "hello", some 15), (.find "hello", some 15)] ∧
      (∀ before later, calls = before ++ later → standard.Interned before) ∧
      ∀ known ∈ wellKnown, (standard.after calls).name known.2 = known.1 ∧
        (standard.after calls).find? known.1 = some known.2 := by
  intro calls
  have hsize : (standard.after calls).size < numberLimit := by decide +kernel
  obtain ⟨hinterned, hknown⟩ := numbers_are_names (.inr rfl) calls hsize
  exact ⟨hsize, by decide +kernel, hinterned, hknown rfl⟩

end HeaderCheck.Pool
