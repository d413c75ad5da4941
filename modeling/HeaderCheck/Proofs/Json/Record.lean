import HeaderCheck.Json.Record
import Mathlib.Data.List.Nodup

/-!
# HeaderCheck.Proofs.Json.Record

Records and tagged nodes that have been written are read back.

* `fields?_object`: a record with exactly the declared fields gives their values.
* `node?_tagged`, `node?_bind`: a node with the name of its kind gives the kind and the record.
* `RoundTrips`: what is written reads back, and what is read does not change when it is written and
  read again.
-/

namespace HeaderCheck

variable {α : Type}

namespace Json

/-! ## Records -/

/-- Where keys do not repeat, every member is found by its key. -/
theorem membersNamed_of_nodup {members : List (String × Json)}
    (h : (members.map Prod.fst).Nodup) {name : String} {value : Json}
    (hmem : (name, value) ∈ members) : membersNamed name members = [value] := by
  induction members with
  | nil => cases hmem
  | cons first rest ih =>
    obtain ⟨hfresh, hrest⟩ := List.nodup_cons.mp h
    have hother : ∀ member ∈ rest, member.1 ≠ first.1 := by
      rintro member hm heq
      exact hfresh (heq ▸ List.mem_map_of_mem hm)
    unfold membersNamed at ih ⊢
    rcases List.mem_cons.mp hmem with rfl | hmem
    · have hnone : rest.filter (fun member => member.1 = name) = [] := by
        simpa using hother
      simp [hnone]
    · have hne : first.1 ≠ name := fun heq => hother _ hmem heq.symm
      simp only [List.filter_cons, hne, decide_false, Bool.false_eq_true, if_false]
      exact ih hrest hmem

/-- What is found under each key of a record, in the order of its members. -/
theorem mapM_keys {find : String → Option (Option Json)} {members : List (String × Json)}
    (h : ∀ member ∈ members, find member.1 = some (some member.2)) :
    (members.map Prod.fst).mapM find = some (members.map fun member => some member.2) := by
  induction members with
  | nil => rfl
  | cons first rest ih =>
    rw [List.map_cons, List.mapM_cons, h first List.mem_cons_self,
      ih fun member hmem => h member (List.mem_cons_of_mem _ hmem)]
    rfl

/-- A record that is written with the declared fields, in order, gives their values. -/
theorem fields?_object {names : List String} {members : List (String × Json)}
    (hnames : members.map Prod.fst = names) (hnodup : names.Nodup) :
    fields? names (.object members) = some (members.map fun member => some member.2) := by
  subst hnames
  refine mapM_keys fun member hmem => ?_
  rw [membersNamed_of_nodup hnodup hmem]

/-- A declared field that a record lacks has no value. -/
theorem fields?_missing {name : String} {names : List String} {members : List (String × Json)}
    (hname : name ∉ members.map Prod.fst) {values : List (Option Json)}
    (h : fields? (name :: names) (.object members) = some values) :
    ∃ rest, values = none :: rest := by
  have hnone : membersNamed name members = [] := by
    rw [membersNamed, List.map_eq_nil_iff, List.filter_eq_nil_iff]
    intro member hmem heq
    exact hname (of_decide_eq_true heq ▸ List.mem_map_of_mem hmem)
  simp only [fields?, List.mapM_cons, hnone, Option.bind_eq_bind, Option.bind_some,
    Option.bind_eq_some_iff] at h
  obtain ⟨rest, -, hvalues⟩ := h
  exact ⟨rest, (Option.some.inj hvalues).symm⟩

/-- The kind of a node that is written with the name of its kind. -/
theorem node?_tagged {kinds : List String} {kind : String} {nested : Bool}
    {members : List (String × Json)} (hkind : kind ∈ kinds)
    (hmembers : kindKey ∉ members.map Prod.fst) :
    node? kinds nested (.object (("type", .string kind) :: members)) =
      some (kind, .object members) := by
  change node? kinds nested (.object ((kindKey, .string kind) :: members)) = _
  have hother : ∀ member ∈ members, member.1 ≠ kindKey := by
    rintro member hmem heq
    exact hmembers (heq ▸ List.mem_map_of_mem hmem)
  have hkeep : members.filter (fun member => member.1 ≠ kindKey) = members :=
    List.filter_eq_self.mpr fun member hmem => decide_eq_true (hother member hmem)
  have hnone : members.filter (fun member => member.1 = kindKey) = [] :=
    List.filter_eq_nil_iff.mpr fun member hmem heq => hother member hmem (of_decide_eq_true heq)
  have hone : membersNamed kindKey ((kindKey, .string kind) :: members) = [.string kind] := by
    simp [membersNamed, hnone]
  have hrest : ((kindKey, Json.string kind) :: members).filter (fun member => member.1 ≠ kindKey) =
      members := by
    rw [List.filter_cons_of_neg (by simp), hkeep]
  simp only [node?, hone, kind?, List.contains_iff_mem.mpr hkind, if_true, Option.map_some, hrest]

/-- What follows the kind of such a node is told the kind and the record. -/
theorem node?_bind {kinds : List String} {kind : String} {nested : Bool}
    {members : List (String × Json)} (hkind : kind ∈ kinds)
    (hmembers : kindKey ∉ members.map Prod.fst) (f : String × Json → Option α) :
    (node? kinds nested (.object (("type", .string kind) :: members)) >>= f) =
      f (kind, .object members) := by
  rw [node?_tagged hkind hmembers]
  rfl

theorem listOf_array {encode : α → Json} {decode : Json → Option α} {items : List α}
    (h : ∀ item ∈ items, decode (encode item) = some item) :
    listOf decode (.array (items.map encode)) = some items := by
  simp only [listOf, List.mapM_map]
  induction items with
  | nil => rfl
  | cons first rest ih =>
    rw [List.mapM_cons, Function.comp_apply, h first List.mem_cons_self,
      ih fun item hmem => h item (List.mem_cons_of_mem _ hmem)]
    rfl

@[simp] theorem string?_string (s : String) : string? (.string s) = some s := rfl

@[simp] theorem bool?_bool (b : Bool) : bool? (.bool b) = some b := rfl

theorem index?_ofNat {n : Nat} (h : n < wordLimit) : index? (ofNat n) = some n := by
  simp [index?, ofNat, Number.index?, h]

end Json

namespace Field

@[simp] theorem required_some (decode : Json → Option α) (json : Json) :
    required decode (some json) = decode json := rfl

@[simp] theorem defaulted_some (default : α) (decode : Json → Option α) (json : Json) :
    defaulted default decode (some json) = decode json := rfl

/-- What is there reads back when it is not written as `null`. -/
theorem optional_of_ne_null {decode : Json → Option α} {json : Json} {a : α}
    (hnull : json ≠ .null) (h : decode json = some a) :
    optional decode (some json) = some (some a) := by
  unfold optional
  split
  · next heq => cases heq
  · next heq => exact absurd (Option.some.inj heq) hnull
  · next heq => rw [← Option.some.inj heq, h]; rfl

theorem optional_ofOption {encode : α → Json} {decode : Json → Option α} {value : Option α}
    (h : ∀ a, value = some a → decode (encode a) = some a ∧ encode a ≠ .null) :
    optional decode (some (.ofOption encode value)) = some value := by
  cases value with
  | none => rfl
  | some a =>
    obtain ⟨hread, hnull⟩ := h a rfl
    exact optional_of_ne_null hnull hread

@[simp] theorem optional_string (value : Option String) :
    optional Json.string? (some (.ofOption .string value)) = some value :=
  optional_ofOption fun _ _ => ⟨rfl, Json.noConfusion⟩

@[simp] theorem optional_bool (value : Option Bool) :
    optional Json.bool? (some (.ofOption .bool value)) = some value :=
  optional_ofOption fun _ _ => ⟨rfl, Json.noConfusion⟩

end Field

/-- What is written reads back. So what is read from any value is the same when it is written and read
again. -/
structure RoundTrips (encode : α → Json) (decode : Json → Option α) : Prop where
  written : ∀ a, decode (encode a) = some a
  read : ∀ json, ((decode json).bind fun a => decode (encode a)) = decode json

theorem RoundTrips.of_written {encode : α → Json} {decode : Json → Option α}
    (h : ∀ a, decode (encode a) = some a) : RoundTrips encode decode :=
  ⟨h, fun json => by simp [h]⟩

end HeaderCheck
