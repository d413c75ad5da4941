import HeaderCheck.Proofs.Types.Growth

/-!
# HeaderCheck.Proofs.Types.Replacement

Reading a part of a type and replacing it go the same way, but for other names of types.

* `Table.Replaceable`: each step of a path leads to a part of the very type that it starts at. A part is
  replaced exactly where that is so (`isSome_replaceAt?`).
* `Table.avoidsRenamed`: no step starts at a renamed type. It is what separates the paths that are
  read from those that are replaced (`replaceable_iff_avoidsRenamed`).
* `spares`: after a replacement along one path another path still fits
  (`Replaceable.of_replaceAt?`). So a list of replacements of which each spares those after it is made in
  full (`replaceable_instantiate`).
-/

namespace HeaderCheck.Types

/-- Whether the step leads to a member of a union or an intersection. Such members move when one of
them changes: equal ones become one. -/
def Step.isMember : Step → Bool
  | .member _ => true
  | _ => false

/-- Whether a replacement along `changed` keeps `path` open: `path` is not longer, or parts from
`changed` before its end and before a member of a union or an intersection. -/
def spares : (changed path : List Step) → Bool
  | _, [] => true
  | [], _ :: _ => false
  | step :: changed, first :: path =>
    !step.isMember && (step ≠ first || spares changed path)

namespace Table

/-- Whether the handle stands for another name of a type. -/
def isRenamed (t : Table) (id : TypeId) : Bool :=
  match t.lookup id with
  | some (.renamed ..) => true
  | _ => false

/-- Whether no step of the path starts at a renamed type. -/
def avoidsRenamed (t : Table) (root : TypeId) : List Step → Bool
  | [] => true
  | step :: path =>
    !t.isRenamed root && (t.childAt? root step).all fun child => t.avoidsRenamed child path

/-- Each step of the path leads to a part of the type that it starts at. -/
def Replaceable (t : Table) (root : TypeId) : List Step → Prop
  | [] => True
  | step :: path => ∃ data child,
      t.lookup root = some data ∧ partAt? data step = some child ∧ t.Replaceable child path

variable {t u : Table} {root : TypeId} {path : List Step}

/-! ## Reading -/

theorem Extends.size_le (h : t.Extends u) : t.size ≤ u.size := by
  cases hsize : t.size with
  | zero => exact Nat.zero_le _
  | succ n =>
    have hlast : t.Issued ⟨n⟩ := by
      rw [Issued, hsize]
      exact Nat.lt_succ_self n
    exact h.issued hlast

theorem childWithin?_extend (h : t.Extends u) {fuel more : Nat} (hfuel : fuel ≤ more) {id : TypeId}
    {step : Step} {child : TypeId} (hchild : t.childWithin? fuel id step = some child) :
    u.childWithin? more id step = some child := by
  induction fuel generalizing id more with
  | zero => cases hchild
  | succ fuel ih =>
    obtain ⟨more, rfl⟩ : ∃ n, more = n + 1 := ⟨more - 1, by omega⟩
    cases hdata : t.lookup id with
    | none => simp [childWithin?, hdata] at hchild
    | some data =>
      rw [childWithin?, hdata] at hchild
      rw [childWithin?, h id data hdata]
      cases data with
      | renamed name builtin target => exact ih (Nat.le_of_succ_le_succ hfuel) hchild
      | _ => exact hchild

/-- What is read in a table is read in every larger one. -/
theorem typeAt?_extend (h : t.Extends u) {part : TypeId} (hpart : t.typeAt? root path = some part) :
    u.typeAt? root path = some part := by
  induction path generalizing root with
  | nil => exact hpart
  | cons step path ih =>
    rw [typeAt?] at hpart
    split at hpart
    · next child hchild =>
      have hchild' : u.childAt? root step = some child :=
        childWithin?_extend h (Nat.succ_le_succ h.size_le) hchild
      rw [typeAt?, hchild']
      exact ih hpart
    · cases hpart

/-- A type that is not renamed has the parts of its one level. -/
theorem childAt?_of_lookup {id : TypeId} {data : TypeData} (hdata : t.lookup id = some data)
    (hplain : t.isRenamed id = false) (step : Step) : t.childAt? id step = partAt? data step := by
  rw [childAt?, childWithin?, hdata]
  cases data with
  | renamed => simp [isRenamed, hdata] at hplain
  | _ => rfl

/-- A renamed type has no parts of its own. -/
theorem isRenamed_of_partAt? {id child : TypeId} {data : TypeData} {step : Step}
    (hdata : t.lookup id = some data) (hchild : partAt? data step = some child) :
    t.isRenamed id = false := by
  cases data <;> first | cases hchild | simp [isRenamed, hdata]

/-- Of the paths that lead to a part, those fit that start no step at a renamed type. -/
theorem replaceable_iff_avoidsRenamed {part : TypeId} (hpart : t.typeAt? root path = some part) :
    t.Replaceable root path ↔ t.avoidsRenamed root path = true := by
  induction path generalizing root with
  | nil => exact ⟨fun _ => rfl, fun _ => trivial⟩
  | cons step path ih =>
    rw [typeAt?] at hpart
    split at hpart
    case h_2 => cases hpart
    next child hchild =>
    rw [avoidsRenamed, hchild, Option.all_some, Bool.and_eq_true, Bool.not_eq_true', ← ih hpart]
    constructor
    · rintro ⟨data, found, hdata, hfound, hfits⟩
      have hplain := isRenamed_of_partAt? hdata hfound
      rw [childAt?_of_lookup hdata hplain, hfound] at hchild
      cases hchild
      exact ⟨hplain, hfits⟩
    · rintro ⟨hplain, hfits⟩
      cases hdata : t.lookup root with
      | none => simp [childAt?, childWithin?, hdata] at hchild
      | some data =>
        rw [childAt?_of_lookup hdata hplain] at hchild
        exact ⟨data, child, hdata, hchild, hfits⟩

/-! ## Replacing -/

/-- A part is replaced where the path fits, and nowhere else. -/
theorem isSome_replaceAt? {replacement : TypeId} :
    (t.replaceAt? root path replacement).isSome ↔ t.Replaceable root path := by
  induction path generalizing root with
  | nil => exact ⟨fun _ => trivial, fun _ => rfl⟩
  | cons step path ih =>
    rw [replaceAt?, Replaceable]
    cases hdata : t.lookup root with
    | none => simp
    | some data =>
      cases hpart : partAt? data step with
      | none => simp [hpart]
      | some child =>
        have hiff := @ih child
        cases hbelow : t.replaceAt? child path replacement with
        | none => simpa [hpart, hbelow] using hiff
        | some made => simpa [hpart, hbelow] using hiff

theorem Replaceable.extend (h : t.Extends u) (hfits : t.Replaceable root path) : u.Replaceable root path := by
  induction path generalizing root with
  | nil => trivial
  | cons step path ih =>
    obtain ⟨data, child, hdata, hpart, hbelow⟩ := hfits
    exact ⟨data, child, h root data hdata, hpart, ih hbelow⟩

/-- A part that is no member is put in place by adding the changed level. -/
theorem setPart_eq_add {data : TypeData} {step : Step} {child part : TypeId}
    (hpart : partAt? data step = some child) (hstep : step.isMember = false) :
    t.setPart data step part = t.add (withPart data step part) := by
  unfold partAt? at hpart
  split at hpart
  case h_6 | h_7 => cases hstep
  case h_9 => cases hpart
  all_goals rfl

/-- A path that a replacement spares still fits. -/
theorem Replaceable.of_replaceAt? {changed : List Step} {replacement : TypeId} {made : TypeId × Table}
    (hmade : t.replaceAt? root changed replacement = some made) (hspares : spares changed path = true)
    (hfits : t.Replaceable root path) : made.2.Replaceable made.1 path := by
  induction path generalizing root changed made with
  | nil => trivial
  | cons first path ih =>
    cases changed with
    | nil => cases hspares
    | cons step changed =>
      simp only [spares, Bool.and_eq_true, Bool.not_eq_true', Bool.or_eq_true,
        decide_eq_true_eq] at hspares
      obtain ⟨hstep, hspares⟩ := hspares
      obtain ⟨data, child, hdata, hfirst, hbelow⟩ := hfits
      obtain ⟨data₀, found, part, t₁, hdata₀, hfound, hpart, rfl⟩ := replaceAt?_cons_eq_some.mp hmade
      cases hdata.symm.trans hdata₀
      have hx := extends_setPart t₁ data step part
      rw [setPart_eq_add hfound hstep] at hx ⊢
      have hmade := lookup_add_self t₁ (withPart data step part)
      by_cases heq : step = first
      · subst heq
        cases hfound.symm.trans hfirst
        exact ⟨_, part, hmade, partAt?_withPart hfound,
          (ih hpart (hspares.resolve_left fun hne => hne rfl) hbelow).extend hx⟩
      · exact ⟨_, child, hmade, (partAt?_withPart_of_ne heq hfound).trans hfirst,
          hbelow.extend ((extends_replaceAt? hpart).trans hx)⟩

/-- When the paths fit and each replacement spares those after it, none is skipped. -/
theorem replaceable_instantiate {before after : List (List Step × TypeId)} {binding : List Step × TypeId}
    (hfits : ∀ b ∈ before ++ binding :: after, t.Replaceable root b.1)
    (hspares : (before ++ binding :: after).Pairwise fun a b => spares a.1 b.1 = true) :
    (t.instantiate root before).2.Replaceable (t.instantiate root before).1 binding.1 := by
  induction before generalizing t root with
  | nil => exact hfits binding (by simp)
  | cons first before ih =>
    obtain ⟨changed, type⟩ := first
    obtain ⟨hfirst, hrest⟩ := List.pairwise_cons.mp hspares
    obtain ⟨made, hmade⟩ := Option.isSome_iff_exists.mp
      (isSome_replaceAt?.mpr (hfits (changed, type) (by simp)) :
        (t.replaceAt? root changed type).isSome)
    rw [instantiate, hmade]
    exact ih (fun b hb => (hfits b (List.mem_cons_of_mem _ hb)).of_replaceAt? hmade (hfirst b hb)) hrest

end Table

end HeaderCheck.Types
