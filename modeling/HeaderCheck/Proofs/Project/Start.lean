import HeaderCheck.Proofs.Builtins
import HeaderCheck.Proofs.Project.Acyclic
import HeaderCheck.Proofs.Project.Advance

/-!
# HeaderCheck.Proofs.Project.Start

Sessions before the first compile, in projects whose headers import one another without cycles.

* `wellFormed_builtins`: the types of the built-in bindings make a well-formed table.
* `Session.Settled`: known headers contribute what they do in a session of their own, and bindings
  for all files have types that are in the table.
* `settled_start`: so it is in a session that starts.
-/

namespace HeaderCheck

open HeaderCheck.Types (Table TypeData TypeId)

/-! ## Tables that can be looked through -/

namespace Types.Table

variable {t : Table}

instance (nested : TypeId → Option (List TypeId)) (members : List TypeId) :
    Decidable (FlatList nested members) :=
  decidable_of_iff (2 ≤ members.length ∧ members.Nodup ∧ ∀ member ∈ members, nested member = none)
    ⟨fun h => ⟨h.1, h.2.1, h.2.2⟩, fun h => ⟨h.two_le, h.nodup, h.single⟩⟩

instance (t : Table) : DecidablePred t.FlatData
  | .union members => inferInstanceAs (Decidable (FlatList t.unionMembers? members))
  | .intersection members => inferInstanceAs (Decidable (FlatList t.intersectionMembers? members))
  | .literal .. | .value .. | .object _ | .function _ | .generic .. | .tuple _ | .renamed .. | .free _ =>
    inferInstanceAs (Decidable True)

/-- A table is well formed if its types are, each at its place. -/
theorem wellFormed_of_types (hnodup : t.types.toList.Nodup)
    (hplaced : ∀ i < t.size, ∀ data ∈ t.lookup ⟨i⟩,
      (∀ part ∈ data.parts, part.index < i) ∧ t.FlatData data)
    (hbuiltin : ∀ i < builtins.length, t.lookup ⟨i⟩ = builtins[i]?) : t.WellFormed where
  injective := by
    rintro ⟨i⟩ ⟨j⟩ data hi hj
    have hlt : i < t.types.size := issued_of_lookup hi
    have heq : t.types.toList[i]? = t.types.toList[j]? := by
      rw [Array.getElem?_toList, Array.getElem?_toList]
      exact hi.trans hj.symm
    exact congrArg TypeId.mk ((List.getElem?_inj (by simpa using hlt) hnodup).mp heq)
  descends := fun hi => (hplaced _ (issued_of_lookup hi) _ hi).1
  flat := fun hi => (hplaced _ (issued_of_lookup hi) _ hi).2
  builtin := by
    intro i data hi
    obtain ⟨hlt, -⟩ := List.getElem?_eq_some_iff.mp hi
    exact (hbuiltin i hlt).trans hi

end Types.Table

/-! ## Bindings for all files -/

/-- All bindings have types that are in the table. -/
def Globals.Issued (t : Table) (g : Globals) : Prop :=
  ∀ d ∈ [g.identifiers, g.operators, g.virtualTypes], ∀ entry ∈ d.entries, t.Issued entry.2

instance (t : Table) (g : Globals) : Decidable (g.Issued t) :=
  inferInstanceAs (Decidable (∀ d ∈ [g.identifiers, g.operators, g.virtualTypes],
    ∀ entry ∈ d.entries, t.Issued entry.2))

/-- The types of the built-in bindings are well formed, each at its place. -/
theorem Builtins.checked_globals :
    let built := Builtins.globals.run Table.initial
    built.2.types.toList.Nodup ∧
      (∀ i < built.2.size, ∀ data ∈ built.2.lookup ⟨i⟩,
        (∀ part ∈ data.parts, part.index < i) ∧ built.2.FlatData data) ∧
      (∀ i < Table.builtins.length, built.2.lookup ⟨i⟩ = Table.builtins[i]?) ∧
      built.1.Issued built.2 := by
  rw [globals_eq]
  decide +kernel

theorem Builtins.wellFormed_globals : (Builtins.globals.run Table.initial).2.WellFormed :=
  have ⟨hnodup, hplaced, hbuiltin, _⟩ := Builtins.checked_globals
  Table.wellFormed_of_types hnodup hplaced hbuiltin

section Globals

variable {t : Table} {R S : TypeId → TypeId → Prop} {g g' : Globals}

theorem Types.Table.Issued.same {i : TypeId} (h : t.Issued i) : t.Same t i i :=
  ⟨h, h, rfl⟩

theorem Globals.Issued.parallel (h : g.Issued t) : g.Parallel (t.Same t) g := by
  have hdict {d : Dict TypeId} (hd : ∀ entry ∈ d.entries, t.Issued entry.2) :
      d.Parallel (t.Same t) d :=
    List.forall₂_same.mpr fun entry hmem => ⟨rfl, (hd entry hmem).same⟩
  exact ⟨hdict (h _ (by simp)), hdict (h _ (by simp)), hdict (h _ (by simp))⟩

theorem Globals.Parallel.mono (h : g.Parallel R g') (hRS : ∀ i i', R i i' → S i i') :
    g.Parallel S g' :=
  ⟨h.identifiers.mono hRS, h.operators.mono hRS, h.virtualTypes.mono hRS⟩

theorem Globals.Parallel.bindAll (h : g.Parallel R g') {bindings bindings' : List (String × TypeId)}
    (hbindings : List.Forall₂ (fun x y => x.1 = y.1 ∧ R x.2 y.2) bindings bindings') :
    (bindings.foldl (fun g x => g.bind x.1 x.2) g).Parallel R
      (bindings'.foldl (fun g x => g.bind x.1 x.2) g') := by
  induction hbindings generalizing g g' with
  | nil => exact h
  | @cons x y _ _ hxy _ ih =>
    have hbound : (g.bind x.1 x.2).Parallel R (g'.bind y.1 y.2) := by
      rw [Globals.bind, Globals.bind, ← hxy.1]
      exact { h with identifiers := h.identifiers.insert x.1 hxy.2 }
    exact ih hbound

end Globals

namespace Project

open HeaderCheck.Header (Lowered)

variable {host : Host} {options : Options} {s s' : Session}

/-- Known headers contribute what they do in a session of their own, and the bindings for all files
have types that are in the table. -/
structure Session.Settled (host : Host) (options : Options) (s : Session) : Prop where
  knows : s.KnowsHeaders host options
  globals : s.globals.Parallel (s.table.Same s.table) s.globals

theorem Session.Settled.globals_mono (h : s.Settled host options) {t t' : Table} (ht : t.WellFormed)
    (ht' : t'.WellFormed) (hx : s.table.Extends t) (hx' : s.table.Extends t') :
    s.globals.Parallel (t.Same t') s.globals :=
  h.globals.mono fun _ _ hi => hi.extend h.knows.table h.knows.table ht ht' hx hx'

/-- What a header assigns has types that are in the table. -/
theorem Agrees.self_parallel {t : Table} {header : Lowered}
    {alone : Except Error (Option Lowered) × Session} (h : Agrees Lowered.Parallel t (.ok (some header)) alone) :
    header.Parallel (t.Same t) header := by
  obtain ⟨-, hresult⟩ := h
  generalize alone.1 = result at hresult
  cases hresult with
  | ok hrel =>
    cases hrel with
    | some hheader => exact hheader.join hheader

/-- The globals file leaves a session settled. -/
theorem Session.Settled.loadGlobals
    (hacyclic : ∀ path, ¬Relation.TransGen (host.ImportsFrom options) path path)
    (h : s.Settled host options) (hidle : s.lowering = [])
    (hrun : (loadGlobals host options).run s = (.ok (), s')) : s'.Settled host options := by
  rw [Project.loadGlobals] at hrun
  split at hrun
  · cases hrun
    exact h
  next file _ =>
  have hends := endsAlone_resolveHeader hacyclic h.knows hidle (Path.normalize file)
  have hkept := (learning_resolveHeader (s := s) host options (Path.normalize file)).keeps.globals
  obtain ⟨header, s₁, hresolve, hrun⟩ := ok_of_run_bind hrun
  rw [hresolve] at hends hkept
  have hknows : s₁.KnowsHeaders host options := hends.knows
  have hagrees : Agrees Lowered.Parallel s₁.table (.ok header)
      (resolveAlone host options (Path.normalize file)) :=
    hends.agrees
  cases header with
  | none => cases hrun
  | some header =>
    cases hrun
    refine ⟨hknows.congr rfl rfl, Globals.Parallel.bindAll ?_ hagrees.self_parallel.assignments⟩
    have hglobals : s₁.globals = s.globals := hkept
    rw [hglobals]
    exact h.globals_mono hknows.table hknows.table hends.table hends.table

theorem settled_startWith (hacyclic : ∀ path, ¬Relation.TransGen (host.ImportsFrom options) path path)
    {globals : Globals} {table : Table} (ht : table.WellFormed) (hg : globals.Issued table)
    (h : Session.startWith host options globals table = .ok s) : s.Settled host options := by
  rw [Session.startWith] at h
  split at h
  next session hrun =>
    cases h
    have hfirst : Session.Settled host options { table, globals } :=
      ⟨⟨ht, fun _ _ hknown => by cases hknown⟩, hg.parallel⟩
    exact hfirst.loadGlobals hacyclic rfl hrun
  · cases h

/-- A session that starts is settled. -/
theorem settled_start (hacyclic : ∀ path, ¬Relation.TransGen (host.ImportsFrom options) path path)
    (h : Session.start host options = .ok s) : s.Settled host options :=
  settled_startWith hacyclic Builtins.wellFormed_globals Builtins.checked_globals.2.2.2 h

end Project

end HeaderCheck
