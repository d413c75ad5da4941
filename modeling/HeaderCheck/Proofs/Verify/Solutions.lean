import HeaderCheck.Proofs.Types.Substitution
import HeaderCheck.Proofs.Types.Transitive
import HeaderCheck.Proofs.Verify.Assigned
import HeaderCheck.Proofs.Verify.Calls

/-!
# HeaderCheck.Proofs.Verify.Solutions

The solution of a type variable is the widest of the types that a call passes for it.

* `Call.found`: the types that a call passes at the occurrences of a type variable.
* `Widest t types candidate`: the candidate is one of the types and accepts all of them; there is
  none as long as there are no types.
* `widest_solve`: solving keeps the candidate of each variable the widest of the types found so far,
  as long as these are plain.
* `Call.Substitutes`: what all solutions make of the function when they are put in at once.
* `instantiate_solves`: what is put in for a type variable is the widest type found for it.

Each occurrence either keeps the candidate or replaces it by a type that accepts it, so the types found
before are accepted through it: this is where subtyping has to be transitive.
-/

namespace HeaderCheck.Verify

open HeaderCheck.Types (FunctionShape Occurrence Step Table TypeId)

/-- A plain type whose comparisons end before the limit of the checker. -/
def Comparable (t : Table) (type : TypeId) : Prop :=
  t.Plain type ∧ t.height type ≤ 100

section Comparable

variable {t : Table} {a b c : TypeId}

theorem Comparable.isFree (h : Comparable t a) : t.isFree a = false := by
  obtain ⟨data, hdata⟩ := h.1.lookup
  rw [Table.isFree, hdata, Option.any_some]
  exact h.1.not_isFree hdata

theorem Comparable.isSubtype_iff (hwf : t.WellFormed) (ha : Comparable t a) (hb : Comparable t b) :
    t.isSubtype a b ↔ t.Fits a b := by
  have hheights : t.height a + t.height b ≤ 254 := by
    have := ha.2
    have := hb.2
    omega
  rw [Table.isSubtype, Types.isOk_iff, hwf.check_eq_checkFully hheights, Table.Fits]

theorem Comparable.isSubtype_trans (hwf : t.WellFormed) (ha : Comparable t a) (hb : Comparable t b)
    (hc : Comparable t c) (hab : t.isSubtype a b) (hbc : t.isSubtype b c) : t.isSubtype a c := by
  rw [ha.isSubtype_iff hwf hb] at hab
  rw [hb.isSubtype_iff hwf hc] at hbc
  rw [ha.isSubtype_iff hwf hc]
  exact Table.Plain.fits_trans hwf ha.1 hb.1 hc.1 hab hbc

end Comparable

/-! ## The widest of some types -/

/-- The candidate is one of the types and accepts all of them. -/
inductive Widest (t : Table) : List TypeId → Option TypeId → Prop where
  | missing : Widest t [] none
  | reached {types : List TypeId} {candidate : TypeId} :
      candidate ∈ types → (∀ type ∈ types, t.isSubtype candidate type) →
      Widest t types (some candidate)

section Widest

variable {t : Table} {types : List TypeId} {previous type next : TypeId}

theorem widest_singleton (t : Table) (type : TypeId) : Widest t [type] (some type) := by
  refine .reached (List.mem_singleton.mpr rfl) fun other hother => ?_
  rw [List.mem_singleton.mp hother]
  exact isSubtype_self t type

/-- A candidate that accepts one more type remains. -/
theorem Widest.keep (h : Widest t types (some previous)) (haccepts : t.isSubtype previous type) :
    Widest t (types ++ [type]) (some previous) := by
  cases h with
  | reached hmem hall =>
    refine .reached (List.mem_append_left _ hmem) fun other hother => ?_
    rcases List.mem_append.mp hother with hother | hother
    · exact hall other hother
    · rw [List.mem_singleton.mp hother]
      exact haccepts

/-- A type that accepts the candidate takes its place. -/
theorem Widest.replace (hwf : t.WellFormed) (h : Widest t types (some previous))
    (hcomparable : ∀ other ∈ types ++ [type], Comparable t other)
    (haccepts : t.isSubtype type previous) : Widest t (types ++ [type]) (some type) := by
  have hlast : type ∈ types ++ [type] := List.mem_append_right _ (List.mem_singleton.mpr rfl)
  cases h with
  | reached hmem hall =>
    refine .reached hlast fun other hother => ?_
    rcases List.mem_append.mp hother with hbefore | hother'
    · exact (hcomparable type hlast).isSubtype_trans hwf
        (hcomparable previous (List.mem_append_left _ hmem)) (hcomparable other hother) haccepts
        (hall other hbefore)
    · rw [List.mem_singleton.mp hother']
      exact isSubtype_self t type

/-- Combining the candidate with one more type gives the candidate for all of them. -/
theorem Widest.reconciled (hwf : t.WellFormed) (h : Widest t types (some previous))
    (hcomparable : ∀ other ∈ types ++ [type], Comparable t other)
    (hnext : reconcile? t previous type = some next) : Widest t (types ++ [type]) (some next) := by
  have hfree : t.isFree type = false :=
    (hcomparable type (List.mem_append_right _ (List.mem_singleton.mpr rfl))).isFree
  have hfree' : t.isFree previous = false := by
    cases h with
    | reached hmem _ => exact (hcomparable previous (List.mem_append_left _ hmem)).isFree
  rw [reconcile?, hfree, hfree'] at hnext
  simp only [Bool.false_eq_true, if_false] at hnext
  split at hnext
  · next haccepts =>
    cases hnext
    exact h.keep haccepts
  · split at hnext
    · next haccepts =>
      cases hnext
      exact h.replace hwf hcomparable haccepts
    · cases hnext

end Widest

/-! ## Solving -/

namespace Call

/-- A type found for a variable is taken into account for this variable alone, and changes nothing
else. -/
theorem run_solveOne {solved after : Dict TypeId} {name : String} {type : TypeId} {span : Span}
    {s s' : State} (hrun : (solveOne solved name type span).run s = (.ok (some after), s')) :
    s' = s ∧ ∃ next, after = solved.insert name next ∧
      (solved.get? name = none ∧ next = type ∨
        ∃ previous, solved.get? name = some previous ∧
          reconcile? s.table previous type = some next) := by
  rw [solveOne, run_get_bind] at hrun
  cases hprevious : solved.get? name with
  | none =>
    rw [hprevious] at hrun
    cases hrun
    exact ⟨rfl, type, rfl, .inl ⟨rfl, rfl⟩⟩
  | some previous =>
    simp only [hprevious] at hrun
    cases hnext : reconcile? s.table previous type with
    | none =>
      simp only [hnext] at hrun
      obtain ⟨_, _, _, hrun⟩ := ok_of_run_bind hrun
      cases hrun
    | some next =>
      simp only [hnext] at hrun
      cases hrun
      exact ⟨rfl, next, rfl, .inr ⟨previous, rfl, hnext⟩⟩

/-- The type that a call passes at an occurrence. -/
def found? (call : Call) (passed : Passed) (t : Table) (occurrence : Occurrence) : Option TypeId :=
  match occurrence.location with
  | [] => none
  | first :: path =>
    match call.origin passed first with
    | .passed type _ => t.typeAt? type path
    | _ => none

/-- The types that a call passes at the occurrences of a type variable. -/
def found (call : Call) (passed : Passed) (t : Table) (occurrences : List Occurrence)
    (name : String) : List TypeId :=
  (occurrences.filter fun occurrence => occurrence.name = name).filterMap (call.found? passed t)

section Solve

variable {call : Call} {passed : Passed} {occurrence : Occurrence} {rest : List Occurrence}
  {name : String} {seen : List TypeId} {type : TypeId} {s s' : State} {solved after : Dict TypeId}

theorem found_cons_of_ne (t : Table) (h : occurrence.name ≠ name) :
    call.found passed t (occurrence :: rest) name = call.found passed t rest name := by
  simp [found, h]

theorem found_cons_none {t : Table} (h : call.found? passed t occurrence = none) (name : String) :
    call.found passed t (occurrence :: rest) name = call.found passed t rest name := by
  by_cases hname : occurrence.name = name
  · simp [found, hname, h]
  · exact found_cons_of_ne t hname

theorem found_cons_some {t : Table} (h : call.found? passed t occurrence = some type) :
    call.found passed t (occurrence :: rest) occurrence.name =
      type :: call.found passed t rest occurrence.name := by
  simp [found, h]

/-- One step of the solver: an occurrence at which nothing is passed is left out, any other is taken
into account. -/
theorem run_solve_cons
    (hrun : (call.solve passed (occurrence :: rest) solved).run s = (.ok (some after), s')) :
    (call.found? passed s.table occurrence = none ∧
        (call.solve passed rest solved).run s = (.ok (some after), s')) ∨
      ∃ type span between, call.found? passed s.table occurrence = some type ∧
        (solveOne solved occurrence.name type span).run s = (.ok (some between), s) ∧
        (call.solve passed rest between).run s = (.ok (some after), s') := by
  rw [solve, run_get_bind] at hrun
  cases hlocation : occurrence.location with
  | nil =>
    rw [hlocation] at hrun
    cases hrun
  | cons first path =>
    simp only [hlocation] at hrun
    cases horigin : call.origin passed first with
    | absent =>
      simp only [horigin] at hrun
      exact .inl ⟨by simp [found?, hlocation, horigin], hrun⟩
    | elsewhere =>
      simp only [horigin] at hrun
      split at hrun
      · exact .inl ⟨by simp [found?, hlocation, horigin], hrun⟩
      · obtain ⟨_, _, _, hrun⟩ := ok_of_run_bind hrun
        cases hrun
    | passed source span =>
      simp only [horigin] at hrun
      have hfound : call.found? passed s.table occurrence = s.table.typeAt? source path := by
        simp [found?, hlocation, horigin]
      rw [hfound]
      cases htype : s.table.typeAt? source path with
      | none =>
        simp only [htype] at hrun
        exact .inl ⟨rfl, hrun⟩
      | some type =>
        simp only [htype] at hrun
        obtain ⟨result, s₁, hone, hrest⟩ := ok_of_run_bind hrun
        cases result with
        | none => cases hrest
        | some between =>
          obtain ⟨rfl, _⟩ := run_solveOne hone
          exact .inr ⟨type, span, between, rfl, hone, hrest⟩

/-- Each occurrence that is solved lies inside the function. -/
theorem location_ne_nil_of_solve {occurrences : List Occurrence}
    (hrun : (call.solve passed occurrences solved).run s = (.ok (some after), s')) :
    ∀ occurrence ∈ occurrences, occurrence.location ≠ [] := by
  induction occurrences generalizing solved with
  | nil => exact List.forall_mem_nil _
  | cons occurrence rest ih =>
    refine List.forall_mem_cons.mpr ⟨fun hnil => ?_, ?_⟩
    · rw [solve, run_get_bind, hnil] at hrun
      cases hrun
    · rcases run_solve_cons hrun with ⟨_, hrest⟩ | ⟨_, _, _, _, _, hrest⟩ <;> exact ih hrest

/-- Solving leaves the state as it is. -/
theorem run_solve {occurrences : List Occurrence}
    (hrun : (call.solve passed occurrences solved).run s = (.ok (some after), s')) : s' = s := by
  induction occurrences generalizing solved with
  | nil =>
    cases hrun
    rfl
  | cons occurrence rest ih =>
    rcases run_solve_cons hrun with ⟨_, hrest⟩ | ⟨_, _, _, _, _, hrest⟩ <;> exact ih hrest

/-- One type found for a variable gives the candidate for it and the types seen before. -/
theorem widest_solveOne (hwf : s.table.WellFormed) {span : Span}
    (hcomparable : ∀ other ∈ seen ++ [type], Comparable s.table other)
    (h : Widest s.table seen (solved.get? name))
    (hrun : (solveOne solved name type span).run s = (.ok (some after), s')) :
    Widest s.table (seen ++ [type]) (after.get? name) := by
  obtain ⟨_, next, rfl, hnext⟩ := run_solveOne hrun
  rw [Dict.get?_insert, if_pos rfl]
  rcases hnext with ⟨hnone, rfl⟩ | ⟨previous, hprevious, hnext⟩
  · rw [hnone] at h
    cases h
    exact widest_singleton _ _
  · rw [hprevious] at h
    exact h.reconciled hwf hcomparable hnext

/-- A run of the solver, from the candidate for the types seen before to the one for all types. -/
theorem widest_solve (hwf : s.table.WellFormed) {occurrences : List Occurrence}
    (hcomparable : ∀ type ∈ seen ++ call.found passed s.table occurrences name,
      Comparable s.table type)
    (h : Widest s.table seen (solved.get? name))
    (hrun : (call.solve passed occurrences solved).run s = (.ok (some after), s')) :
    Widest s.table (seen ++ call.found passed s.table occurrences name) (after.get? name) := by
  induction occurrences generalizing seen solved with
  | nil =>
    cases hrun
    simpa [found] using h
  | cons occurrence rest ih =>
    rcases run_solve_cons hrun with ⟨hnone, hrest⟩ | ⟨type, span, between, hsome, hone, hrest⟩
    · rw [found_cons_none hnone] at hcomparable ⊢
      exact ih hcomparable h hrest
    by_cases hname : occurrence.name = name
    · subst hname
      rw [found_cons_some hsome, List.append_cons] at hcomparable ⊢
      refine ih hcomparable (widest_solveOne hwf (fun other hother => ?_) h hone) hrest
      exact hcomparable other (List.mem_append_left _ hother)
    · obtain ⟨_, next, rfl, _⟩ := run_solveOne hone
      rw [found_cons_of_ne _ hname] at hcomparable ⊢
      refine ih hcomparable ?_ hrest
      rwa [Dict.get?_insert, if_neg hname]

end Solve

end Call

/-! ## Putting solutions in -/

/-- What is made of a function by all bindings at once. Its type variables are not those of the function
any more. Outside unions and intersections each binding is found at its location. -/
structure Call.Substitutes (t : Table) (callee made : TypeId) (bindings : List (List Step × TypeId)) :
    Prop where
  whole : ∃ whole shape, t.Substituted bindings callee whole ∧ t.functionShape? whole = some shape ∧
    t.functionShape? made = some { shape with generics := [] }
  found : ∀ binding ∈ bindings, (∀ step ∈ binding.1, step.isMember = false) →
    t.typeAt? made binding.1 = some binding.2

/-- Without its type variables a function has the same parts. -/
theorem typeAt?_of_functionShape? {t : Table} {whole made : TypeId} {shape : FunctionShape}
    (hwhole : t.functionShape? whole = some shape)
    (hmade : t.functionShape? made = some { shape with generics := [] }) {path : List Step}
    (hpath : path ≠ []) : t.typeAt? made path = t.typeAt? whole path := by
  rw [Table.functionShape?_eq_some] at hwhole hmade
  obtain ⟨step, path, rfl⟩ := List.exists_cons_of_ne_nil hpath
  have hchild : t.childAt? made step = t.childAt? whole step := by
    rw [Table.childAt?_of_lookup hmade (by simp [Table.isRenamed, hmade]),
      Table.childAt?_of_lookup hwhole (by simp [Table.isRenamed, hwhole])]
    cases step <;> rfl
  rw [Table.typeAt?, Table.typeAt?, hchild]

/-- Bindings that lie apart and are steady are all put in at once. -/
theorem Call.substitutes_putIn {t : Table} (hwf : t.WellFormed) {callee : TypeId} {shape : FunctionShape}
    (hcallee : t.functionShape? callee = some shape) {bindings : List (List Step × TypeId)}
    (hproper : ∀ binding ∈ bindings, binding.1 ≠ [])
    (hfits : ∀ binding ∈ bindings,
      t.Issued binding.2 ∧ (t.replaceAt? callee binding.1 binding.2).isSome)
    (hapart : Types.Apart bindings) (hsteady : t.steady callee bindings = true) :
    Substitutes (putIn t callee bindings).2 callee (putIn t callee bindings).1 bindings := by
  have hroot : t.Issued callee := Table.issued_of_lookup (Table.functionShape?_eq_some.mp hcallee)
  have hissued : ∀ binding ∈ bindings, t.Issued binding.2 := fun binding hb => (hfits binding hb).1
  have hreplaceable : ∀ binding ∈ bindings, t.Replaceable callee binding.1 :=
    fun binding hb => Table.isSome_replaceAt?.mp (hfits binding hb).2
  have hgrows := Table.grows_instantiate hwf hroot hissued
  obtain ⟨whole, hwhole, -⟩ := Table.functionShape?_instantiate hproper hcallee
  have hput : putIn t callee bindings =
      (t.instantiate callee bindings).2.function { whole with generics := [] } := by
    simp only [putIn, hwhole]
  have hadded : (t.instantiate callee bindings).2.Grows (putIn t callee bindings) := by
    rw [hput]
    exact Table.grows_add hgrows.wellFormed
      (fun part hpart => hgrows.wellFormed.issued_part (Table.functionShape?_eq_some.mp hwhole) hpart) trivial
  have hmade : (putIn t callee bindings).2.functionShape? (putIn t callee bindings).1 =
      some { whole with generics := [] } := by
    rw [hput]
    exact Table.functionShape?_function _ _
  have hsubstituted := Table.substituted_of_steady hwf hroot hissued hapart hreplaceable (.refl _) hsteady
    hadded.wellFormed hadded.extend
  have hwhole' := hadded.extend.functionShape? hwhole
  refine ⟨⟨_, whole, hsubstituted, hwhole', hmade⟩, fun binding hb hpath => ?_⟩
  rw [typeAt?_of_functionShape? hwhole' hmade (hproper binding hb)]
  exact hsubstituted.typeAt?_eq hapart hb
    ((hreplaceable binding hb).extend (hgrows.extend.trans hadded.extend)) hpath

/-- A type variable with plain types passed for it is solved by the widest of them. Where the solutions
are put in steadily they are put in at once. -/
theorem instantiate_solves {call : Call} {callee made : TypeId} {shape : FunctionShape}
    {passed : Passed} {s s' : State} (hwf : s.table.WellFormed)
    (hrun : (call.instantiate callee shape passed).run s = (.ok (some made), s')) :
    ∃ solved : Dict TypeId,
      (made, s'.table) = Call.putIn s.table callee (Call.bindings shape.generics solved) ∧
      (let bindings := Call.bindings shape.generics solved
      s.table.functionShape? callee = some shape →
      (∀ binding ∈ bindings,
        s.table.Issued binding.2 ∧ (s.table.replaceAt? callee binding.1 binding.2).isSome) →
      Types.Apart bindings → s.table.steady callee bindings = true →
        Call.Substitutes s'.table callee made bindings) ∧
      ∀ name, let found := call.found passed s.table shape.generics name
        found ≠ [] → (∀ type ∈ found, s.table.Plain type ∧ s.table.height type ≤ 100) →
        ∃ solution ∈ found,
          (∀ occurrence ∈ shape.generics, occurrence.name = name →
            (occurrence.location, solution) ∈ Call.bindings shape.generics solved) ∧
          ∀ type ∈ found, s.table.isSubtype solution type := by
  rw [Call.instantiate] at hrun
  obtain ⟨result, s₁, hsolve, hrest⟩ := ok_of_run_bind hrun
  cases result with
  | none => cases hrest
  | some solved =>
    obtain rfl := Call.run_solve hsolve
    have hproper := Call.bindings_below solved (Call.location_ne_nil_of_solve hsolve)
    cases hrest
    refine ⟨solved, rfl, fun hcallee => Call.substitutes_putIn hwf hcallee hproper, ?_⟩
    intro name found hsome hplain
    have hwidest : Widest s₁.table ([] ++ found) (solved.get? name) :=
      Call.widest_solve hwf hplain .missing hsolve
    rw [List.nil_append] at hwidest
    generalize hsolution : solved.get? name = solution at hwidest
    generalize found = types at hsome hwidest
    cases hwidest with
    | missing => exact absurd rfl hsome
    | reached hmem hall =>
      refine ⟨_, hmem, fun occurrence hoccurrence hname => ?_, hall⟩
      refine List.mem_filterMap.mpr ⟨occurrence, hoccurrence, ?_⟩
      rw [hname, hsolution]
      rfl

/-! ## A call that passes several types -/

/-- The function `(T, T, T) => T`, `T` being the type variable. -/
def choice : FunctionShape where
  params := [⟨none, ⟨20⟩, false⟩, ⟨none, ⟨20⟩, false⟩, ⟨none, ⟨20⟩, false⟩]
  result := ⟨20⟩
  this := none
  generics := [⟨"T", [.arg 0]⟩, ⟨"T", [.arg 1]⟩, ⟨"T", [.arg 2]⟩, ⟨"T", [.result]⟩]
  brand := Types.plainBrand

/-- The table with `String | Number`, `T` and the type of `choice`. -/
def choices : Table :=
  (Types.Operation.function choice).after
    ((Types.Operation.free "T").after ((Types.Operation.union [.string, .number]).after .initial))

/-- A source before its first statement. -/
def choosing : State :=
  .start { table := choices } { path := "/app/main.js", text := "", program := { body := [] } }

/-- The call `choose(a, b, c)`. -/
def choose : Call where
  callee := .identifier { name := "choose" }
  arguments := [.identifier { name := "a" }, .identifier { name := "b" }, .identifier { name := "c" }]
  span := {}

/-- A text, a text or number, and a number. -/
def given : Passed :=
  ⟨[some .string, some ⟨19⟩, some .number], none⟩

theorem plain_given {type : TypeId} (h : type ∈ [TypeId.string, ⟨19⟩, .number]) :
    choosing.table.Plain type := by
  have hliteral : choosing.table.lookup .string = some (.literal "String" true) := rfl
  have hliteral' : choosing.table.lookup .number = some (.literal "Number" true) := rfl
  have hstring : choosing.table.Plain .string := .mk hliteral ⟨rfl, by decide, by decide⟩ nofun
  have hnumber : choosing.table.Plain .number := .mk hliteral' ⟨rfl, by decide, by decide⟩ nofun
  have hunion : choosing.table.lookup ⟨19⟩ = some (.union [.string, .number]) := by decide
  have heither : choosing.table.Plain ⟨19⟩ := by
    refine .mk hunion trivial fun part hp => ?_
    rcases List.mem_pair.mp hp with rfl | rfl
    · exact hstring
    · exact hnumber
  simp only [List.mem_cons, List.not_mem_nil, or_false] at h
  rcases h with rfl | rfl | rfl
  · exact hstring
  · exact heither
  · exact hnumber

/-- A binding for each occurrence of `T`. -/
def everywhere (solution : TypeId) : List (List Step × TypeId) :=
  choice.generics.map fun occurrence => (occurrence.location, solution)

theorem steady_everywhere {solution : TypeId} (h : solution ∈ [TypeId.string, ⟨19⟩, .number]) :
    (∀ binding ∈ everywhere solution, choosing.table.Issued binding.2 ∧
      (choosing.table.replaceAt? ⟨21⟩ binding.1 binding.2).isSome) ∧
      Types.Apart (everywhere solution) ∧ choosing.table.steady ⟨21⟩ (everywhere solution) = true := by
  refine ⟨?_, by simp [Types.Apart, everywhere, choice], ?_⟩ <;> revert solution <;> decide +kernel

/-- The second argument is the widest, so `T` becomes `String | Number`, also in the result. -/
theorem instantiate_solves_choice :
    ∃ made s', (choose.instantiate ⟨21⟩ choice given).run choosing = (.ok (some made), s') ∧
      choose.found given choosing.table choice.generics "T" = [.string, ⟨19⟩, .number] ∧
      ∃ solved : Dict TypeId,
        (made, s'.table) = Call.putIn choosing.table ⟨21⟩ (Call.bindings choice.generics solved) ∧
        ∃ solution ∈ [TypeId.string, ⟨19⟩, .number],
          ([.result], solution) ∈ Call.bindings choice.generics solved ∧
          s'.table.typeAt? made [.result] = some solution ∧
          ∀ type ∈ [TypeId.string, ⟨19⟩, .number], choosing.table.isSubtype solution type := by
  have hreachable : Types.Reachable choices :=
    .step _ (.step _ (.step _ .refl (by decide)) (by decide)) (by decide)
  have hfound : choose.found given choosing.table choice.generics "T" =
      [.string, ⟨19⟩, .number] := by decide
  have hheights : ∀ type ∈ [TypeId.string, ⟨19⟩, .number], choosing.table.height type ≤ 100 := by
    decide +kernel
  have hmade : ((choose.instantiate ⟨21⟩ choice given).run choosing).1 = .ok (some ⟨26⟩) := by
    decide +kernel
  obtain ⟨solved, hput, hsubstitutes, hsolved⟩ :=
    instantiate_solves (s := choosing) hreachable.wellFormed (Prod.ext (y := (_, _)) hmade rfl)
  obtain ⟨solution, hmem, hbound, hwidest⟩ := hsolved "T" (by rw [hfound]; simp) (by
    rw [hfound]
    exact fun type htype => ⟨plain_given htype, hheights type htype⟩)
  rw [hfound] at hmem hwidest
  have hresult := hbound ⟨"T", [.result]⟩ (by simp [choice]) rfl
  have hbindings : Call.bindings choice.generics solved = everywhere solution := by
    obtain ⟨occurrence, hoccurrence, hbinding⟩ := List.mem_filterMap.mp hresult
    have hname : ∀ occurrence ∈ choice.generics, occurrence.name = "T" := by simp [choice]
    obtain ⟨type, hsolution, hpair⟩ := Option.map_eq_some_iff.mp hbinding
    obtain ⟨-, rfl⟩ := Prod.mk.inj hpair
    rw [hname occurrence hoccurrence] at hsolution
    simp [Call.bindings, everywhere, choice, hsolution]
  obtain ⟨hfits, hapart, hsteady⟩ := steady_everywhere hmem
  rw [← hbindings] at hfits hapart hsteady
  have hcarried := hsubstitutes rfl hfits hapart hsteady
  exact ⟨⟨26⟩, _, Prod.ext hmade rfl, hfound, solved, hput, solution, hmem, hresult,
    hcarried.found _ hresult (by simp [Types.Step.isMember]), hwidest⟩

end HeaderCheck.Verify
