import HeaderCheck.Proofs.Types.Narrowing
import HeaderCheck.Proofs.Types.Parts
import HeaderCheck.Proofs.Types.Transitive

/-!
# HeaderCheck.Proofs.Types.Acceptance

What a type that accepts another one can be.

* `Reachable.selfNamed`: in a table that can be built, `null` and `undefined` are the only single
  values of their names.
* `Table.Loose`: types that accept more than their name or form tells.
* `fits_cases`: a type that accepts another one is loose, is that type, has its form, or is one of the
  names that accept other forms.
* `Table.tag?`: the tag that `typeof` gives to all values of a type.
* `tag_takes`: a type that accepts one with a tag is loose, has the tag itself as `matchesTypeof` sees it,
  or is one of the three names in `lenientNames`.
* `Table.Lacks`: no value of a type has the tag. `takes_lacking` says which types that `matchesTypeof`
  knows by the tag accept such a type all the same.
-/

namespace HeaderCheck.Types

/-! ## Single values -/

/-- A single value is named after itself. -/
def TypeData.SelfNamed : TypeData → Prop
  | .value v name => v = name
  | _ => True

namespace Table

def SelfNamed (t : Table) : Prop :=
  ∀ id data, t.lookup id = some data → data.SelfNamed

variable {t u : Table} {data parent child : TypeData} {id m g : TypeId}

/-- A level that a step leads into is no single value. -/
theorem selfNamed_withPart {step : Step} {part old : TypeId} (h : partAt? data step = some old) :
    (withPart data step part).SelfNamed := by
  unfold partAt? at h
  split at h
  case h_9 => cases h
  all_goals trivial

namespace SelfNamed

theorem add (h : t.SelfNamed) (hd : data.SelfNamed) : (t.add data).2.SelfNamed := by
  intro id found hfound
  cases hfind : t.find? data with
  | some old =>
    rw [Table.add, hfind] at hfound
    exact h id found hfound
  | none =>
    rw [add_of_find?_eq_none hfind] at hfound
    rcases lookup_push hfound with hold | ⟨-, rfl⟩
    · exact h id found hold
    · exact hd

theorem gather (h : t.SelfNamed) {empty : TypeId} {make : List TypeId → TypeData} {flat : List TypeId}
    (hmake : (make flat).SelfNamed) : (t.gather empty make flat).2.SelfNamed := by
  rcases t.gather_cases empty make flat with ⟨-, he⟩ | ⟨_, -, he⟩ | ⟨-, he⟩
  · rwa [he]
  · rwa [he]
  · rw [he]
    exact h.add hmake

theorem make (h : t.SelfNamed) (hd : data.SelfNamed) : (t.make data).2.SelfNamed := by
  cases data with
  | union members =>
    rw [Table.make, union_eq]
    exact h.gather hd
  | intersection members =>
    rw [Table.make, intersection_eq]
    exact h.gather hd
  | _ => exact h.add hd

theorem replaceAt? (h : t.SelfNamed) {root part : TypeId} {path : List Step} {made : TypeId × Table}
    (hmade : t.replaceAt? root path part = some made) : made.2.SelfNamed := by
  induction path generalizing root made with
  | nil =>
    cases hmade
    exact h
  | cons step path ih =>
    obtain ⟨data, child, changed, u, -, hchild, hbelow, rfl⟩ := replaceAt?_cons_eq_some.mp hmade
    rw [setPart_eq_make hchild]
    exact (ih hbelow).make (selfNamed_withPart hchild)

theorem instantiate (h : t.SelfNamed) {root : TypeId} {bindings : List (List Step × TypeId)} :
    (t.instantiate root bindings).2.SelfNamed := by
  induction bindings generalizing t root with
  | nil => exact h
  | cons binding rest ih =>
    obtain ⟨path, type⟩ := binding
    rw [Table.instantiate]
    split
    · next hmade => exact ih (h.replaceAt? hmade)
    · exact ih h

theorem run (h : t.SelfNamed) {op : Operation} {made : TypeId × Table}
    (hmade : op.run t = some made) : made.2.SelfNamed := by
  cases op with
  | value text =>
    cases hmade
    exact h.add rfl
  | union members =>
    cases hmade
    exact h.make (show (TypeData.union members).SelfNamed from trivial)
  | intersection members =>
    cases hmade
    exact h.make (show (TypeData.intersection members).SelfNamed from trivial)
  | withField whole name type =>
    obtain ⟨shape, -, rfl⟩ := Option.map_eq_some_iff.mp hmade
    exact h.add trivial
  | withBrand whole brand =>
    cases hmade
    unfold Table.withBrand
    split
    · exact h.add trivial
    · exact h.add trivial
    · exact h
  | replaceAt root path part => exact h.replaceAt? hmade
  | instantiate root bindings =>
    cases hmade
    exact h.instantiate
  | _ =>
    cases hmade
    exact h.add trivial

end SelfNamed

theorem selfNamed_initial : initial.SelfNamed := by
  intro id data h
  have hall : ∀ data ∈ builtins, data.SelfNamed := by simp [builtins, TypeData.SelfNamed, sentinelNames]
  exact hall data (List.mem_of_getElem? ((lookup_initial id.index).symm.trans h))

/-! ## What accepts a type -/

/-- A type that may accept more than its name or its form tells. -/
inductive Loose (t : Table) (m : TypeId) : Prop where
  /-- `Any`, `Mixed` and the sentinels. -/
  | acceptsAll : m.acceptsAll = true → Loose t m
  | free {name : String} : t.lookup m = some (.free name) → Loose t m
  | intersection {members : List TypeId} : t.lookup m = some (.intersection members) → Loose t m
  /-- A name that is not built in, though it may be that of a built-in type. -/
  | foreign {name : String} : t.lookup m = some (.literal name false) → Loose t m

/-- Two levels with parts of the same kind. -/
inductive SameForm : (parent child : TypeData) → Prop where
  | object {p c : ObjectShape} : SameForm (.object p) (.object c)
  | function {p c : FunctionShape} : SameForm (.function p) (.function c)
  | generic {pb cb : TypeId} {pa ca : List TypeId} : SameForm (.generic pb pa) (.generic cb ca)
  | tuple {ps cs : List TypeId} : SameForm (.tuple ps) (.tuple cs)

/-- A level whose own form decides where the type fits: it is not taken apart, and no rule of its own
concerns the handle. -/
def Solid (id : TypeId) : TypeData → Prop
  | .literal _ builtin => builtin = true ∧ id.acceptsAll = false
  | .value .. | .object _ | .function _ | .generic .. | .tuple _ => True
  | .union _ | .intersection _ | .renamed .. | .free _ => False

/-- A type that no rule of its own concerns, and that is no union. -/
def Ordinary (t : Table) (id : TypeId) : Prop :=
  ∃ data, t.lookup id = some data ∧ data.isFree = false ∧ id.acceptsAll = false ∧
    ∀ inner, data ≠ .union inner

theorem Solid.whole (h : Solid id data) :
    data.isFree = false ∧ ∀ inner, data ≠ .union inner ∧ data ≠ .intersection inner := by
  cases data with
  | union | intersection | renamed | free => cases h
  | _ => exact ⟨rfl, fun _ => ⟨nofun, nofun⟩⟩

theorem WellFormed.solid_acceptsAll (h : t.WellFormed) (hg : t.lookup g = some child)
    (hsolid : Solid g child) : g.acceptsAll = false := by
  cases child with
  | literal name builtin => exact hsolid.2
  | _ => exact h.acceptsAll_eq_false hg nofun

theorem WellFormed.ordinary_of_solid (h : t.WellFormed) (hg : t.lookup g = some child)
    (hsolid : Solid g child) : t.Ordinary g := by
  obtain ⟨hfree, hwhole⟩ := hsolid.whole
  exact ⟨child, hg, hfree, h.solid_acceptsAll hg hsolid, fun inner => (hwhole inner).1⟩

theorem Ordinary.extend (h : t.Ordinary id) (hx : t.Extends u) : u.Ordinary id := by
  obtain ⟨data, hd, hrest⟩ := h
  exact ⟨data, hx _ _ hd, hrest⟩

theorem Ordinary.acceptsAll_eq (h : t.Ordinary id) : id.acceptsAll = false := by
  obtain ⟨data, -, -, hall, -⟩ := h
  exact hall

theorem members_union {members : List TypeId} (hd : t.lookup id = some (.union members)) :
    t.members id = members := by
  rw [Table.members, unionMembers?_eq_some.mpr hd]
  rfl

theorem members_single (hd : t.lookup id = some data) (hno : ∀ inner, data ≠ .union inner) :
    t.members id = [id] := by
  cases data with
  | union inner => exact absurd rfl (hno inner)
  | _ => simp [members, unionMembers?, hd]

theorem Ordinary.members_eq (h : t.Ordinary id) : t.members id = [id] := by
  obtain ⟨data, hd, -, -, hno⟩ := h
  exact members_single hd hno

/-- What is not loose is compared by its structure. -/
theorem WellFormed.loose_or_structure (h : t.WellFormed) (hm : t.lookup m = some parent)
    (hg : t.lookup g = some child) (hfree : child.isFree = false) (hall : g.acceptsAll = false)
    (hne : m ≠ g) (hfits : t.Fits m g) : t.Loose m ∨
      (∀ members, parent ≠ .intersection members) ∧
        t.checkStructure t.checkFully m g parent child = .ok () := by
  by_cases hacc : m.acceptsAll = true
  · exact .inl (.acceptsAll hacc)
  cases parent with
  | free name => exact .inl (.free hm)
  | intersection members => exact .inl (.intersection hm)
  | _ =>
    refine .inr ⟨nofun, (h.fits_iff_structure hne hm hg ⟨rfl, hfree⟩ ⟨Bool.eq_false_iff.mpr hacc, ?_⟩
      (not_sentinel hall).1 (not_sentinel hall).2).mp hfits⟩
    exact fitsAll_eq_false hall

/-- What is not loose is compared by its form with what is not taken apart. -/
theorem WellFormed.loose_or_form (h : t.WellFormed) (hm : t.lookup m = some parent)
    (hno : ∀ inner, parent ≠ .union inner) (hg : t.lookup g = some child) (hfree : child.isFree = false)
    (hwhole : ∀ inner, child ≠ .union inner ∧ child ≠ .intersection inner) (hall : g.acceptsAll = false)
    (hne : m ≠ g) (hfits : t.Fits m g) : t.Loose m ∨ t.FormFits m parent child := by
  refine (h.loose_or_structure hm hg hfree hall hne hfits).imp_right fun ⟨hinter, hstructure⟩ => ?_
  unfold checkStructure at hstructure
  split at hstructure
  · exact absurd rfl (hwhole _).1
  · exact absurd rfl (hno _)
  · exact absurd rfl (hinter _)
  · exact absurd rfl (hwhole _).2
  · exact formFits_of_checkForms hstructure

/-- A type that accepts a solid one is loose, is the same type, has its form or is a name that accepts
other forms. -/
theorem WellFormed.fits_cases (h : t.WellFormed) (hnamed : t.SelfNamed) (hm : t.lookup m = some parent)
    (hno : ∀ inner, parent ≠ .union inner) (hg : t.lookup g = some child) (hsolid : Solid g child)
    (hfits : t.Fits m g) : m = g ∨ t.Loose m ∨ coerces m child = true ∨ SameForm parent child := by
  by_cases hne : m = g
  · exact .inl hne
  obtain ⟨hfree, hwhole⟩ := hsolid.whole
  rcases h.loose_or_form hm hno hg hfree hwhole (h.solid_acceptsAll hg hsolid) hne hfits with
    hloose | hforms
  · exact .inr (.inl hloose)
  cases hforms with
  | @literal name builtin _ =>
    cases builtin with
    | false => exact .inr (.inl (.foreign hm))
    | true =>
      obtain ⟨rfl, -⟩ := hsolid
      exact .inl (h.injective hm hg)
  | coerced hco => exact .inr (.inr (.inl hco))
  | value =>
    cases hnamed m _ hm
    cases hnamed g _ hg
    exact .inl (h.injective hm hg)
  | object => exact .inr (.inr (.inr .object))
  | function => exact .inr (.inr (.inr .function))
  | generic => exact .inr (.inr (.inr .generic))
  | tuple => exact .inr (.inr (.inr .tuple))
  | renamed | target => cases hsolid

/-! ## Tags -/

theorem WellFormed.extends_initial (h : t.WellFormed) : initial.Extends t := fun id _ hd =>
  h.builtin ((lookup_initial id.index).symm.trans hd)

/-- The tag of all values of a type, if the type tells it; what is an object and more besides is an
object. -/
def tag? (t : Table) (id : TypeId) : Option String :=
  match t.intersectionMembers? id with
  | some members => if members.all t.isObject then some "object" else none
  | none => (t.kind? id).map ValueKind.typeof

/-- The tag of the types of a form. -/
def formTag? : TypeData → Option String
  | .function _ => some "function"
  | .object _ | .generic .. | .tuple _ => some "object"
  | _ => none

/-- The handles that have a tag themselves. -/
def handleTags : List (TypeId × String) :=
  [(.string, "string"), (.number, "number"), (.boolean, "boolean"), (.undefined, "undefined"),
    (.uninitialized, "undefined"), (.function, "function"), (.null, "object"),
    (.nullDefault, "object"), (.object, "object"), (.regExp, "object")]

/-- The names that accept values of a tag, but are not known by it. -/
def lenientNames : List (TypeId × String) :=
  [(.void, "undefined"), (.object, "function"), (.array, "object")]

theorem formTag?_mem {tag : String} (h : (t.lookup m).bind formTag? = some tag) :
    tag ∈ ["function", "object"] := by
  obtain ⟨data, -, htag⟩ := Option.bind_eq_some_iff.mp h
  cases data <;> cases htag <;> simp

theorem matchesTypeof_iff {tag : String} :
    t.matchesTypeof m tag = true ↔ (m, tag) ∈ handleTags ∨ (t.lookup m).bind formTag? = some tag := by
  have hfunction : t.isFunction m = true ↔ (t.lookup m).bind formTag? = some "function" := by
    unfold isFunction functionShape?
    cases t.lookup m with
    | none => simp
    | some data => cases data <;> simp [formTag?]
  have hnoform : ∀ tag, tag ∉ ["function", "object"] → (t.lookup m).bind formTag? ≠ some tag :=
    fun tag hprimitive htag => hprimitive (formTag?_mem htag)
  unfold matchesTypeof
  split
  · simp [handleTags, hnoform "string" (by decide)]
  · simp [handleTags, hnoform "number" (by decide)]
  · simp [handleTags, hnoform "boolean" (by decide)]
  · simp [handleTags, hnoform "undefined" (by decide)]
  · simp [handleTags, hfunction]
  · cases hm : t.lookup m with
    | none => simp [handleTags, or_assoc]
    | some data => cases data <;> simp [handleTags, formTag?, or_assoc]
  · simp_all [handleTags]

/-- The handles that have a tag stand for built-in names and single values. -/
theorem WellFormed.lookup_handleTags (h : t.WellFormed) {tag : String} (hm : (m, tag) ∈ handleTags) :
    (∃ name, t.lookup m = some (.literal name true)) ∨ ∃ v name, t.lookup m = some (.value v name) := by
  simp only [handleTags, List.mem_cons, Prod.mk.injEq, List.not_mem_nil, or_false] at hm
  rcases hm with ⟨rfl, -⟩ | ⟨rfl, -⟩ | ⟨rfl, -⟩ | ⟨rfl, -⟩ | ⟨rfl, -⟩ | ⟨rfl, -⟩ | ⟨rfl, -⟩ |
    ⟨rfl, -⟩ | ⟨rfl, -⟩ | ⟨rfl, -⟩
  all_goals first
    | exact .inl ⟨_, h.builtin rfl⟩
    | exact .inr ⟨_, _, h.builtin rfl⟩

theorem WellFormed.ordinary_of_handleTags (h : t.WellFormed) {tag : String}
    (hm : (m, tag) ∈ handleTags) (hall : m.acceptsAll = false) : t.Ordinary m := by
  rcases h.lookup_handleTags hm with ⟨name, hd⟩ | ⟨v, name, hd⟩
  · exact h.ordinary_of_solid hd ⟨rfl, hall⟩
  · exact h.ordinary_of_solid hd trivial

theorem WellFormed.formTag?_handleTags (h : t.WellFormed) {tag : String} (hm : (m, tag) ∈ handleTags) :
    (t.lookup m).bind formTag? = none := by
  rcases h.lookup_handleTags hm with ⟨name, hd⟩ | ⟨v, name, hd⟩ <;> rw [hd] <;> rfl

/-- A type has at most one tag. -/
theorem WellFormed.matchesTypeof_unique (h : t.WellFormed) {tag other : String}
    (hm : t.matchesTypeof m tag = true) (hm' : t.matchesTypeof m other = true) : tag = other := by
  have hhandles : ∀ a ∈ handleTags, ∀ b ∈ handleTags, a.1 = b.1 → a.2 = b.2 := by decide
  rw [matchesTypeof_iff] at hm hm'
  rcases hm with hm | hm
  · rcases hm' with hm' | hm'
    · exact hhandles _ hm _ hm' rfl
    · rw [h.formTag?_handleTags hm] at hm'
      cases hm'
  · rcases hm' with hm' | hm'
    · rw [h.formTag?_handleTags hm'] at hm
      cases hm
    · exact Option.some.inj (hm.symm.trans hm')

/-- The levels of types with a tag. -/
theorem WellFormed.level_of_matchesTypeof (h : t.WellFormed) {tag : String}
    (hmatch : t.matchesTypeof m tag = true) (hm : t.lookup m = some parent) :
    (∃ name, parent = .literal name true) ∨ (∃ v name, parent = .value v name) ∨
      formTag? parent = some tag := by
  rcases matchesTypeof_iff.mp hmatch with hhandle | hform
  · rcases h.lookup_handleTags hhandle with ⟨name, hd⟩ | ⟨v, name, hd⟩
    · exact .inl ⟨name, Option.some.inj (hm.symm.trans hd)⟩
    · exact .inr (.inl ⟨v, name, Option.some.inj (hm.symm.trans hd)⟩)
  · rw [hm] at hform
    exact .inr (.inr hform)

/-- Of the loose types only the two sentinels that stand for `undefined` and `null` have a tag. -/
theorem WellFormed.matchesTypeof_loose (h : t.WellFormed) {tag : String} (hloose : t.Loose m)
    (hm : t.matchesTypeof m tag = true) :
    (m, tag) ∈ [(TypeId.uninitialized, "undefined"), (.nullDefault, "object")] := by
  have hall : ∀ entry ∈ handleTags, entry.1.acceptsAll = true →
      entry ∈ [(TypeId.uninitialized, "undefined"), (.nullDefault, "object")] := by decide
  cases hloose with
  | acceptsAll hacc =>
    obtain ⟨name, hd⟩ := h.literal_of_acceptsAll hacc
    rw [matchesTypeof_iff, hd] at hm
    rcases hm with hm | hm
    · exact hall _ hm hacc
    · cases hm
  | free hd | intersection hd | foreign hd =>
    rcases h.level_of_matchesTypeof hm hd with ⟨_, he⟩ | ⟨_, _, he⟩ | he <;> cases he

/-- Of the names that are not known by a tag one has another tag. -/
theorem WellFormed.matchesTypeof_lenient (h : t.WellFormed) {tag other : String}
    (hlenient : (m, other) ∈ lenientNames) (hm : t.matchesTypeof m tag = true) :
    (m, tag) = (.object, "object") := by
  have hall : ∀ a ∈ handleTags, ∀ b ∈ lenientNames, a.1 = b.1 → a = (.object, "object") := by decide
  rcases matchesTypeof_iff.mp hm with hm | hm
  · exact hall _ hm _ hlenient rfl
  · simp only [lenientNames, List.mem_cons, Prod.mk.injEq, List.not_mem_nil, or_false] at hlenient
    rcases hlenient with ⟨rfl, -⟩ | ⟨rfl, -⟩ | ⟨rfl, -⟩ <;> rw [h.builtin rfl] at hm <;> cases hm

theorem WellFormed.solid_of_kind? (h : t.WellFormed) {k : ValueKind} (hg : t.lookup g = some child)
    (hk : t.kind? g = some k) : Solid g child := by
  cases child with
  | literal name builtin =>
    have hfixed : g = .string ∨ g = .number ∨ g = .boolean ∨ g = .regExp := by
      by_contra hno
      simp_all [kind?]
    rcases hfixed with rfl | rfl | rfl | rfl
    all_goals
      rw [h.builtin rfl] at hg
      cases hg
      exact ⟨rfl, by decide⟩
  | union | intersection | renamed | free => simp [kind?, hg] at hk
  | _ => trivial

/-- What accepts an object is loose or has its tag. -/
theorem WellFormed.object_takes (h : t.WellFormed) (hnamed : t.SelfNamed) (hm : t.lookup m = some parent)
    (hno : ∀ inner, parent ≠ .union inner) {shape : ObjectShape} (hg : t.lookup g = some (.object shape))
    (hfits : t.Fits m g) : t.Loose m ∨ t.matchesTypeof m "object" = true := by
  simp only [matchesTypeof_iff]
  rcases h.fits_cases hnamed hm hno hg trivial hfits with rfl | hloose | hco | hform
  · exact .inr (.inr (by rw [hg]; rfl))
  · exact .inl hloose
  · cases of_decide_eq_true hco
    exact .inr (.inl (by decide))
  · cases hform
    exact .inr (.inr (by rw [hm]; rfl))

/-- The tag of a form is that of the values. -/
theorem formTag?_of_kind? {k : ValueKind} {tag : String} (hg : t.lookup g = some child)
    (hk : t.kind? g = some k) (htag : formTag? child = some tag) : k.typeof = tag := by
  rw [kind?, hg] at hk
  cases child with
  | object | function | tuple =>
    cases hk
    cases htag
    rfl
  | generic base args =>
    cases htag
    change (if base = .array then some ValueKind.array else
      if base = .object then some ValueKind.object else none) = some k at hk
    split at hk
    · cases hk
      rfl
    split at hk
    · cases hk
      rfl
    · cases hk
  | _ => cases htag

/-- What accepts a type whose values are of one kind is loose, has their tag or is a name that is not
known by it. -/
theorem WellFormed.kind_takes (h : t.WellFormed) (hnamed : t.SelfNamed) (hm : t.lookup m = some parent)
    (hno : ∀ inner, parent ≠ .union inner) {k : ValueKind} (hk : t.kind? g = some k)
    (hfits : t.Fits m g) :
    t.Loose m ∨ t.matchesTypeof m k.typeof = true ∨ (m, k.typeof) ∈ lenientNames := by
  obtain ⟨child, hg⟩ := lookup_of_kind? hk
  rcases h.fits_cases hnamed hm hno hg (h.solid_of_kind? hg hk) hfits with rfl | hloose | hco | hform
  · exact .inr (.inl ((matchesTypeof_eq h.extends_initial hk _).trans (decide_eq_true rfl)))
  · exact .inl hloose
  · right
    rw [matchesTypeof_iff]
    cases child with
    | value v name =>
      simp only [coerces, Bool.and_eq_true, decide_eq_true_eq] at hco
      obtain ⟨rfl, rfl⟩ := hco
      cases hnamed g _ hg
      have hundefined : t.kind? .undefined = some .undefined :=
        (kind?_builtin h.extends_initial rfl).trans rfl
      rw [h.injective hg h.lookup_undefined, hundefined] at hk
      cases hk
      exact .inr (by decide)
    | object shape =>
      rw [formTag?_of_kind? hg hk rfl]
      cases of_decide_eq_true hco
      exact .inl (.inl (by decide))
    | function shape =>
      rw [formTag?_of_kind? hg hk rfl]
      simp only [coerces, Bool.or_eq_true, decide_eq_true_eq] at hco
      rcases hco with rfl | rfl
      · exact .inr (by decide)
      · exact .inl (.inl (by decide))
    | generic base args =>
      rw [formTag?_of_kind? hg hk rfl]
      simp only [coerces, Bool.or_eq_true, Bool.and_eq_true, decide_eq_true_eq] at hco
      rcases hco with rfl | ⟨rfl, -⟩
      · exact .inl (.inl (by decide))
      · exact .inr (by decide)
    | _ => cases hco
  · refine .inr (.inl (matchesTypeof_iff.mpr (.inr ?_)))
    cases hform <;> rw [formTag?_of_kind? hg hk rfl, hm] <;> rfl

/-- What accepts an intersection is loose, accepts a member, or has the tag of objects, all members being
objects. -/
theorem WellFormed.intersection_cases (h : t.WellFormed) (hm : t.lookup m = some parent)
    (hno : ∀ inner, parent ≠ .union inner) {members : List TypeId}
    (hg : t.lookup g = some (.intersection members)) (hfits : t.Fits m g) :
    t.Loose m ∨ (∃ member ∈ members, t.Fits m member) ∨
      t.matchesTypeof m "object" = true ∧
        ∃ member ∈ members, ∃ shape, t.lookup member = some (.object shape) := by
  by_cases hne : m = g
  · exact .inl (.intersection (hne ▸ hg))
  have hgall : g.acceptsAll = false := h.acceptsAll_eq_false hg nofun
  rcases h.loose_or_structure hm hg rfl hgall hne hfits with hloose | ⟨hinter, hstructure⟩
  · exact .inl hloose
  have hcheck : t.checkIntersection t.checkFully m g parent members = .ok () := by
    cases parent with
    | union inner => exact absurd rfl (hno inner)
    | intersection inner => exact absurd rfl (hinter inner)
    | _ => exact hstructure
  rcases checkIntersection_eq_ok.mp hcheck with hmember | ⟨p, merged, rfl, hmerged, -⟩
  · exact .inr (.inl hmember)
  · obtain ⟨first, hfirst⟩ := List.exists_mem_of_length_pos
      (Nat.lt_of_lt_of_le Nat.zero_lt_two (h.flat_intersection hg).two_le)
    obtain ⟨shapes, hshapes, -⟩ := Option.map_eq_some_iff.mp hmerged
    have hshape : t.objectShape? first ∈ shapes.map some :=
      mapM_eq_some.mp hshapes ▸ List.mem_map_of_mem hfirst
    obtain ⟨shape, -, hshape⟩ := List.mem_map.mp hshape
    exact .inr (.inr ⟨matchesTypeof_iff.mpr (.inr (by rw [hm]; rfl)), first, hfirst, shape,
      objectShape?_eq_some.mp hshape.symm⟩)

/-- What accepts an intersection of objects is loose or has their tag. -/
theorem WellFormed.intersection_takes (h : t.WellFormed) (hnamed : t.SelfNamed)
    (hm : t.lookup m = some parent) (hno : ∀ inner, parent ≠ .union inner) {members : List TypeId}
    (hg : t.lookup g = some (.intersection members)) (hall : members.all t.isObject = true)
    (hfits : t.Fits m g) : t.Loose m ∨ t.matchesTypeof m "object" = true := by
  rcases h.intersection_cases hm hno hg hfits with hloose | ⟨member, hmember, hfits⟩ | hobject
  · exact .inl hloose
  · -- one of the objects alone is accepted
    have hobject := List.all_eq_true.mp hall member hmember
    obtain ⟨shape, hshape⟩ := Option.isSome_iff_exists.mp hobject
    exact h.object_takes hnamed hm hno (objectShape?_eq_some.mp hshape) hfits
  · exact .inr hobject.1

/-- What accepts a type with a tag is loose, has the tag itself or is a name that is not known by it. -/
theorem WellFormed.tag_takes (h : t.WellFormed) (hnamed : t.SelfNamed) (hm : t.lookup m = some parent)
    (hno : ∀ inner, parent ≠ .union inner) {tag : String} (htag : t.tag? g = some tag)
    (hfits : t.Fits m g) : t.Loose m ∨ t.matchesTypeof m tag = true ∨ (m, tag) ∈ lenientNames := by
  unfold tag? at htag
  split at htag
  · next members hg =>
    rw [Option.ite_none_right_eq_some] at htag
    obtain ⟨hall, ⟨⟩⟩ := htag
    rcases h.intersection_takes hnamed hm hno (intersectionMembers?_eq_some.mp hg) hall hfits with hl | ho
    · exact .inl hl
    · exact .inr (.inl ho)
  · obtain ⟨k, hk, rfl⟩ := Option.map_eq_some_iff.mp htag
    exact h.kind_takes hnamed hm hno hk hfits

theorem WellFormed.ordinary_of_tag? (h : t.WellFormed) {tag : String} (htag : t.tag? g = some tag) :
    t.Ordinary g := by
  unfold tag? at htag
  split at htag
  · next members hg =>
    have hd := intersectionMembers?_eq_some.mp hg
    exact ⟨_, hd, rfl, h.acceptsAll_eq_false hd nofun, nofun⟩
  · obtain ⟨k, hk, -⟩ := Option.map_eq_some_iff.mp htag
    obtain ⟨child, hg⟩ := lookup_of_kind? hk
    exact h.ordinary_of_solid hg (h.solid_of_kind? hg hk)

/-! ## Types without values of a tag -/

/-- The tags of what the built-in names accept whose values are of no single kind. -/
def nameTags : List (TypeId × String) :=
  [(.void, "undefined"), (.array, "object"), (.function, "function"), (.object, "object"),
    (.object, "function")]

/-- The sentinels that are values, and these values. -/
def sentinelValues : List (TypeId × TypeId) :=
  [(.nullDefault, .null), (.uninitialized, .undefined)]

/-- No value of the type has the tag. An intersection counts as having the values of all its members. -/
inductive Lacks (t : Table) (tag : String) : (g : TypeId) → Prop where
  | kind {g : TypeId} {k : ValueKind} : t.kind? g = some k → k.typeof ≠ tag → Lacks t tag g
  | name {g : TypeId} : g ∈ nameTags.map Prod.fst → (g, tag) ∉ nameTags → Lacks t tag g
  | sentinel {g value : TypeId} : (g, value) ∈ sentinelValues → Lacks t tag value → Lacks t tag g
  | renamed {g original : TypeId} {name : String} {builtin : Bool} :
      t.lookup g = some (.renamed name builtin original) → Lacks t tag original → Lacks t tag g
  | intersection {g : TypeId} {members : List TypeId} :
      t.lookup g = some (.intersection members) → (∀ m ∈ members, Lacks t tag m) → Lacks t tag g
  | union {g : TypeId} {members : List TypeId} :
      t.lookup g = some (.union members) → (∀ m ∈ members, Lacks t tag m) → Lacks t tag g

theorem WellFormed.lookup_nameTags (h : t.WellFormed) (hg : g ∈ nameTags.map Prod.fst) :
    ∃ name, t.lookup g = some (.literal name true) ∧ g.acceptsAll = false := by
  simp only [nameTags, List.map_cons, List.map_nil, List.mem_cons, List.not_mem_nil, or_false] at hg
  rcases hg with rfl | rfl | rfl | rfl | rfl
  all_goals exact ⟨_, h.builtin rfl, by decide⟩

theorem WellFormed.lookup_sentinelValues (h : t.WellFormed) {value : TypeId}
    (hg : (g, value) ∈ sentinelValues) :
    (∃ name, t.lookup g = some (.literal name true)) ∧ ∃ v name, t.lookup value = some (.value v name) := by
  simp only [sentinelValues, List.mem_cons, Prod.mk.injEq, List.not_mem_nil, or_false] at hg
  rcases hg with ⟨rfl, rfl⟩ | ⟨rfl, rfl⟩
  · exact ⟨⟨_, h.builtin rfl⟩, _, _, h.lookup_null⟩
  · exact ⟨⟨_, h.builtin rfl⟩, _, _, h.lookup_undefined⟩

theorem WellFormed.fits_sentinel (h : t.WellFormed) (hm : t.Issued m) {value : TypeId}
    (hg : (g, value) ∈ sentinelValues) : t.Fits m g ↔ t.Fits m value := by
  simp only [sentinelValues, List.mem_cons, Prod.mk.injEq, List.not_mem_nil, or_false] at hg
  rcases hg with ⟨rfl, rfl⟩ | ⟨rfl, rfl⟩
  · exact h.fits_nullDefault hm
  · exact h.fits_uninitialized hm

/-- An object type lacks no values with its tag. -/
theorem WellFormed.lacks_object (h : t.WellFormed) {tag : String} (hg : t.Lacks tag g)
    {shape : ObjectShape} (hd : t.lookup g = some (.object shape)) : tag ≠ "object" := by
  cases hg with
  | kind hk htag =>
    rw [kind?, hd] at hk
    cases hk
    exact htag.symm
  | name hname =>
    obtain ⟨name, hd', -⟩ := h.lookup_nameTags hname
    cases hd.symm.trans hd'
  | sentinel hs =>
    obtain ⟨name, hd'⟩ := (h.lookup_sentinelValues hs).1
    cases hd.symm.trans hd'
  | renamed hd' | intersection hd' | union hd' => cases hd.symm.trans hd'

/-- A type that has a tag and accepts one without values of this tag is one of the two sentinels, or
`Object`. -/
theorem WellFormed.takes_lacking (h : t.WellFormed) (hnamed : t.SelfNamed) (hm : t.lookup m = some parent)
    (hno : ∀ inner, parent ≠ .union inner) {tag : String} (hmatch : t.matchesTypeof m tag = true)
    (hg : t.Lacks tag g) (hfits : t.Fits m g) :
    (m, tag) ∈ [(TypeId.uninitialized, "undefined"), (.nullDefault, "object"), (.object, "object")] := by
  by_cases hloose : t.Loose m
  · exact List.mem_append_left [(TypeId.object, "object")] (h.matchesTypeof_loose hloose hmatch)
  have hlevel := h.level_of_matchesTypeof hmatch hm
  induction hg with
  | kind hk htag =>
    rcases h.kind_takes hnamed hm hno hk hfits with hl | hmatch' | hlenient
    · exact absurd hl hloose
    · exact absurd (h.matchesTypeof_unique hmatch' hmatch) htag
    · rw [h.matchesTypeof_lenient hlenient hmatch]
      simp
  | name hname htag =>
    have hnames : ∀ entry ∈ handleTags, entry.1 ∈ nameTags.map Prod.fst → entry ∈ nameTags := by decide
    obtain ⟨name, hd, hall⟩ := h.lookup_nameTags hname
    rcases h.fits_cases hnamed hm hno hd ⟨rfl, hall⟩ hfits with rfl | hl | hco | hform
    · rcases matchesTypeof_iff.mp hmatch with hhandle | hform
      · exact absurd (hnames _ hhandle hname) htag
      · rw [hd] at hform
        cases hform
    · exact absurd hl hloose
    · cases hco
    · cases hform
  | sentinel hs _ ih => exact ih ((h.fits_sentinel (issued_of_lookup hm) hs).mp hfits)
  | @renamed g original name builtin hd _ ih =>
    have hother : ∀ n b x, parent ≠ .renamed n b x := by
      rintro n b x rfl
      rcases hlevel with ⟨_, he⟩ | ⟨_, _, he⟩ | he <;> cases he
    have hne : m ≠ g := by
      rintro rfl
      exact hother _ _ _ (Option.some.inj (hm.symm.trans hd))
    rcases h.loose_or_form hm hno hd rfl (fun _ => ⟨nofun, nofun⟩) (h.acceptsAll_eq_false hd nofun) hne
      hfits with hl | hform
    · exact absurd hl hloose
    · cases hform with
      | coerced hco => cases hco
      | renamed => exact absurd rfl (hother name _ _)
      | target _ hfits => exact ih hfits
  | intersection hd hmembers ih =>
    rcases h.intersection_cases hm hno hd hfits with hl | ⟨member, hmember, hfits⟩ | hobject
    · exact absurd hl hloose
    · exact ih member hmember hfits
    · -- the fields of all members together are those of an object
      obtain ⟨hobject, member, hmember, shape, hshape⟩ := hobject
      exact absurd (h.matchesTypeof_unique hmatch hobject) (h.lacks_object (hmembers member hmember) hshape)
  | union hd _ ih =>
    obtain ⟨first, hfirst⟩ := List.exists_mem_of_length_pos
      (Nat.lt_of_lt_of_le Nat.zero_lt_two (h.flat_union hd).two_le)
    exact ih first hfirst ((h.fits_union_iff hd (issued_of_lookup hm)).mp hfits first hfirst)

/-! ## Falsy values and the others -/

/-- Types none of whose values is `null` or `undefined`. -/
def isSubstantial (t : Table) (g : TypeId) : Bool :=
  match t.lookup g with
  | some (.object _) | some (.function _) | some (.generic ..) | some (.tuple _) => true
  | _ => g = .string || g = .number || g = .boolean

theorem WellFormed.solid_of_isSubstantial (h : t.WellFormed) (hg : t.isSubstantial g = true) :
    ∃ child, t.lookup g = some child ∧ Solid g child ∧ (∀ v name, child ≠ .value v name) := by
  unfold isSubstantial at hg
  split at hg
  case h_5 =>
    simp only [Bool.or_eq_true, decide_eq_true_eq] at hg
    rcases hg with (rfl | rfl) | rfl
    all_goals exact ⟨_, h.builtin rfl, ⟨rfl, by decide⟩, nofun⟩
  all_goals
    next hd => exact ⟨_, hd, trivial, nofun⟩

/-- What accepts a primitive type is that type, a loose one or `void`. -/
theorem WellFormed.primitive_takes (h : t.WellFormed) (hnamed : t.SelfNamed)
    (hm : t.lookup m = some parent) (hno : ∀ inner, parent ≠ .union inner) {tag : String}
    (hg : (g, tag) ∈ handleTags) (hall : g.acceptsAll = false) (hfits : t.Fits m g) :
    m = g ∨ t.Loose m ∨ m = .void := by
  rcases h.lookup_handleTags hg with ⟨name, hd⟩ | ⟨v, name, hd⟩
  · rcases h.fits_cases hnamed hm hno hd ⟨rfl, hall⟩ hfits with hself | hloose | hco | hform
    · exact .inl hself
    · exact .inr (.inl hloose)
    · cases hco
    · cases hform
  · rcases h.fits_cases hnamed hm hno hd trivial hfits with hself | hloose | hco | hform
    · exact .inl hself
    · exact .inr (.inl hloose)
    · simp only [coerces, Bool.and_eq_true, decide_eq_true_eq] at hco
      exact .inr (.inr hco.1)
    · cases hform

/-- What accepts a type without `null` and `undefined` is neither of these. -/
theorem WellFormed.not_value_of_takes (h : t.WellFormed) (hg : t.isSubstantial g = true)
    (hm : m = .null ∨ m = .undefined) : ¬ t.Fits m g := by
  intro hfits
  obtain ⟨child, hchild, hsolid, hvalue⟩ := h.solid_of_isSubstantial hg
  have hvalue' : ∃ v name, t.lookup m = some (.value v name) := by
    rcases hm with rfl | rfl
    · exact ⟨_, _, h.lookup_null⟩
    · exact ⟨_, _, h.lookup_undefined⟩
  obtain ⟨v, name, hd⟩ := hvalue'
  have hne : m ≠ g := by
    rintro rfl
    cases hd.symm.trans hchild
    exact hvalue v name rfl
  obtain ⟨hfree, hwhole⟩ := hsolid.whole
  rcases h.loose_or_form hd nofun hchild hfree hwhole (h.solid_acceptsAll hchild hsolid) hne hfits with
    hloose | hform
  · cases hloose with
    | acceptsAll hacc => rcases hm with rfl | rfl <;> cases hacc
    | free hd' | intersection hd' | foreign hd' => cases hd.symm.trans hd'
  · cases hform with
    | value => exact hvalue _ _ rfl
    | target => cases hsolid

end Table

theorem Reachable.selfNamed {t : Table} (h : Reachable t) : t.SelfNamed := by
  induction h with
  | refl => exact Table.selfNamed_initial
  | step op _ _ ih =>
    unfold Operation.after
    split
    · next hmade => exact ih.run hmade
    · exact ih

end HeaderCheck.Types
