import HeaderCheck.Proofs.Header.Lower
import HeaderCheck.Proofs.Project.Keeps
import HeaderCheck.Proofs.Text.Path

/-!
# HeaderCheck.Proofs.Project.Session

Headers are lowered to the end. A header that is reached while it is being lowered is left out, so
imports nest no deeper than there are headers, whatever they import.

* `Session.Faithful`: known headers bind the names that the headers of the project assign.
* `loads_resolveHeader`: a header that is resolved leaves the session as it must and faithful.
-/

namespace HeaderCheck.Project

open HeaderCheck.Header (Lowered Lowering)
open HeaderCheck.Types (Table)

variable {α : Type} {host : Host} {tidy : Prop} {s s' : Session}

/-! ## Faithful sessions -/

/-- The header that is lowered binds the names that the one at the path assigns. -/
def Host.Lowers (host : Host) (path : String) (lowered : Lowered) : Prop :=
  ∃ header, host.header? path = some header ∧
    lowered.assignments.map Prod.fst = Header.assignedNames header

def Session.Faithful (host : Host) (s : Session) : Prop :=
  ∀ path lowered, s.headers.get? path = some (some lowered) → host.Lowers path lowered

/-- How the lowering of headers may change a session. -/
structure Session.Loads (host : Host) (s s' : Session) : Prop where
  keeps : s.Keeps s'
  faithful : s.Faithful host → s'.Faithful host

instance : Std.Refl (Session.Loads host) :=
  ⟨fun s => ⟨.refl s, id⟩⟩

instance : IsTrans Session (Session.Loads host) :=
  ⟨fun _ _ _ h h' => ⟨h.keeps.trans h'.keeps, h'.faithful ∘ h.faithful⟩⟩

/-- Work on headers that leaves the session as it must and fails in no unusual way. -/
def Loads (host : Host) (s : Session) (m : SessionM α) (Q : α → Session → Prop) : Prop :=
  Safe (Session.Loads host) Error.Usual s m Q

theorem Loads.works {m : SessionM α} {Q : α → Session → Prop} (h : Loads host s m Q) :
    Works tidy s m Q :=
  h.weaken (fun _ hl => hl.keeps) fun _ he => he.expected tidy

/-! ## Imports -/

theorem extends_importFrom (l : Lowering) (header : Lowered) (items : List Signature.TypeExpr) :
    l.table.Extends (l.importFrom header items).table ∧
      (l.importFrom header items).declarations = l.declarations := by
  have hstep : ∀ (l : Lowering) item, l.table.Extends (l.importType header.declarations item).table ∧
      (l.importType header.declarations item).declarations = l.declarations := by
    intro l item
    unfold Lowering.importType
    split
    · exact ⟨.refl _, rfl⟩
    split
    · exact ⟨.refl _, rfl⟩
    split
    · exact ⟨.refl _, rfl⟩
    · exact ⟨Table.extends_add _ _, rfl⟩
  have hfold : ∀ (l : Lowering), l.table.Extends
        (items.foldl (fun l item => l.importType header.declarations item) l).table ∧
      (items.foldl (fun l item => l.importType header.declarations item) l).declarations =
        l.declarations := by
    induction items with
    | nil => exact fun l => ⟨.refl _, rfl⟩
    | cons item rest ih =>
      intro l
      obtain ⟨htable, hdeclarations⟩ := hstep l item
      obtain ⟨htable', hdeclarations'⟩ := ih (l.importType header.declarations item)
      exact ⟨htable.trans htable', hdeclarations'.trans hdeclarations⟩
  exact hfold { l with diagnostics := l.diagnostics ++ header.diagnostics }

/-- Imports are taken over and leave the declarations of the header as they are. -/
theorem loads_lowerImports {resolve : String → SessionM (Option Lowered)} (options : Options)
    {statements : List Signature.Statement} {l : Lowering}
    (h : ∀ target s', s.Keeps s' → Loads host s' (resolve target) fun _ _ => True) :
    Loads host s (lowerImports resolve options l statements)
      fun l' _ => l'.declarations = l.declarations := by
  induction statements generalizing s l with
  | nil => exact .pure rfl
  | cons statement rest ih =>
    cases statement with
    | imports dependency items =>
      have hone : Loads host s (lowerImport resolve options l dependency items)
          fun l' _ => l'.declarations = l.declarations := by
        rw [lowerImport]
        split
        · exact .pure rfl
        refine .bind (h _ s (.refl s)) fun header s₁ _ _ => ?_
        cases header with
        | none => exact .pure rfl
        | some header =>
          obtain ⟨htable, hdeclarations⟩ :=
            extends_importFrom { l with table := s₁.table } header items
          exact .modifyGet ⟨⟨htable, rfl, rfl, rfl⟩, id⟩ hdeclarations
      refine .bind hone fun l₁ s₁ hk hl => ?_
      refine (ih fun target s' hk' => h target s' (hk.keeps.trans hk')).mono fun _ _ _ hl' => hl'.trans hl
    | declaration name body generics => exact ih h
    | assignment name type => exact ih h
    | comment text => exact ih h

theorem loads_lowerHeader {resolve : String → SessionM (Option Lowered)} (options : Options)
    (path : String) (header : Signature.Header)
    (h : ∀ target s', s.Keeps s' → Loads host s' (resolve target) fun _ _ => True) :
    Loads host s (lowerHeader resolve options path header) fun lowered _ =>
      lowered.assignments.map Prod.fst = Header.assignedNames header := by
  refine .get_bind (.bind (loads_lowerImports options h) fun l s₁ _ hl => ?_)
  obtain ⟨hkeeps, hnames, hfailure⟩ :=
    Header.lowers_lowerStatements (l := { l with table := s₁.table }) hl
  exact ⟨⟨⟨hkeeps.table, rfl, rfl, rfl⟩, id⟩, fun lowered hlowered => (hnames lowered hlowered).1,
    hfailure⟩

/-! ## Headers -/

/-- How many keys have not been seen. -/
def unseen (keys seen : List String) : Nat :=
  (keys.filter fun key => !seen.contains key).length

theorem unseen_le_length (keys seen : List String) : unseen keys seen ≤ keys.length :=
  List.length_filter_le _ _

theorem unseen_anti {keys seen seen' : List String} (h : seen ⊆ seen') :
    unseen keys seen' ≤ unseen keys seen := by
  refine (List.monotone_filter_right keys fun key hkey => ?_).length_le
  simp only [Bool.not_eq_true', List.contains_eq_mem, decide_eq_false_iff_not] at hkey ⊢
  exact fun hmem => hkey (h hmem)

/-- A key that is seen for the first time is one less. -/
theorem unseen_cons_lt {keys seen : List String} {key : String} (hkey : key ∈ keys)
    (hfree : seen.contains key = false) : unseen keys (key :: seen) < unseen keys seen := by
  have hsum : ((keys.filter fun other => !(key :: seen).contains other).map fun _ => 1).sum + 1 ≤
      ((keys.filter fun other => !seen.contains other).map fun _ => 1).sum := by
    refine Header.sum_filter_add_le (f := fun _ => 1) ?_ hkey (by simp) (by simpa using hfree)
    intro other hother
    simp only [List.contains_cons, Bool.not_or, Bool.and_eq_true] at hother
    exact hother.2
  simp only [List.map_const', List.sum_replicate_nat, Nat.mul_one] at hsum
  exact hsum

theorem Loads.whileLowering {path : String} {m : SessionM α} {Q : α → Prop}
    (h : Loads host { s with lowering := path :: s.lowering } m fun a _ => Q a) :
    Loads host s (whileLowering path m) fun a _ => Q a := by
  obtain ⟨⟨hkeeps, hfaithful⟩, hQ, hfailure⟩ := h
  refine ⟨⟨⟨hkeeps.table, hkeeps.globals, hkeeps.compiling, ?_⟩, hfaithful⟩, hQ, hfailure⟩
  exact congrArg List.tail hkeeps.lowering

/-- What is found out about a header is known from then on. -/
theorem loads_insertHeader {path : String} {header : Option Lowered}
    (h : ∀ lowered, header = some lowered → host.Lowers path lowered) :
    Loads host s (modify fun s => { s with headers := s.headers.insert path header })
      fun _ _ => True := by
  refine .modify ⟨⟨.refl _, rfl, rfl, rfl⟩, fun hfaithful other lowered hget => ?_⟩ trivial
  rw [Dict.get?_insert] at hget
  split at hget
  · next heq =>
    subst heq
    exact h lowered (Option.some.inj hget)
  · exact hfaithful other lowered hget

/-- With more fuel than there are headers left, every import is followed to its end. -/
theorem loads_resolveWithin (host : Host) (options : Options) {fuel : Nat}
    (hfuel : unseen host.headers.keys s.lowering < fuel) (path : String) :
    Loads host s (resolveWithin host options fuel path) fun header s' =>
      s'.Faithful host → ∀ lowered, header = some lowered →
        host.Lowers (Path.normalize path) lowered := by
  induction fuel generalizing s path with
  | zero => omega
  | succ fuel ih =>
    refine .get_bind ?_
    split
    · next hknown =>
      refine .pure fun hfaithful lowered hlowered => hfaithful _ lowered ?_
      rw [hknown, hlowered]
    split
    · exact .pure fun _ => nofun
    next hfree =>
    split
    · exact .bind (loads_insertHeader nofun) fun _ _ _ _ => .pure fun _ => nofun
    next header hheader =>
    have hkey : Path.normalize path ∈ host.headers.keys := by
      rw [Host.header?, Path.normalize_normalize] at hheader
      exact List.mem_map.mpr ⟨_, Dict.mem_entries_of_get? hheader, rfl⟩
    have hless := unseen_cons_lt hkey (by simpa using hfree)
    have hlowered : Loads host s (whileLowering (Path.normalize path)
        (lowerHeader (resolveWithin host options fuel) options (Path.normalize path) header))
        fun lowered _ => lowered.assignments.map Prod.fst = Header.assignedNames header := by
      refine .whileLowering (loads_lowerHeader options _ header fun target s' hk => (ih ?_ target).ignore)
      rw [hk.lowering]
      exact Nat.lt_of_lt_of_le hless (Nat.le_of_lt_succ hfuel)
    refine .bind hlowered fun lowered s₁ _ hnames => ?_
    have hlowers : ∀ found, some lowered = some found → host.Lowers (Path.normalize path) found := by
      rintro found ⟨⟩
      exact ⟨header, hheader, hnames⟩
    exact .bind (loads_insertHeader hlowers) fun _ _ _ _ => .pure fun _ => hlowers

theorem loads_resolveHeader (host : Host) (options : Options) (path : String) :
    Loads host s (resolveHeader host options path) fun header s' =>
      s'.Faithful host → ∀ lowered, header = some lowered →
        host.Lowers (Path.normalize path) lowered := by
  refine loads_resolveWithin host options ?_ path
  have hle := unseen_le_length host.headers.keys s.lowering
  rw [Dict.keys, List.length_map] at hle
  exact Nat.lt_succ_of_le hle

theorem works_resolveHeader (host : Host) (options : Options) (path : String) :
    Works tidy s (resolveHeader host options path) fun _ _ => True :=
  (loads_resolveHeader host options path).works.ignore

end HeaderCheck.Project
