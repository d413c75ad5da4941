import HeaderCheck.Proofs.Verify.Parallel.Functions

/-!
# HeaderCheck.Proofs.Verify.Parallel.Access

Accesses to fields and solutions of type variables in two runs.
-/

namespace HeaderCheck.Verify

open HeaderCheck.Project (Error Pact)
open HeaderCheck.Script (Expr)
open HeaderCheck.Types (FunctionShape Occurrence Step Table TypeId)

variable {P : Pact} {p q r : State × State}

/-! ## Fields -/

/-- The same answer about a field in two runs. -/
inductive FieldLookup.Parallel (R : TypeId → TypeId → Prop) : FieldLookup → FieldLookup → Prop where
  | found {i i' : TypeId} (h : R i i') : Parallel R (.found i) (.found i')
  | growing : Parallel R .growing .growing
  | missing : Parallel R .missing .missing
  | onUnion : Parallel R .onUnion .onUnion

namespace FieldLookup

variable {R : TypeId → TypeId → Prop} {x x' : FieldLookup}

theorem ofOption_parallel {i i' : Option TypeId} (h : Option.Rel R i i') :
    (ofOption i).Parallel R (ofOption i') := by
  cases h with
  | none => exact .missing
  | some hi => exact .found hi

theorem Parallel.found?_rel (h : x.Parallel R x') : Option.Rel R x.found? x'.found? := by
  cases h with
  | found hi => exact .some hi
  | _ => exact .none

end FieldLookup

section Fields

variable {t t' : Table} {i i' : TypeId} (ht : t.WellFormed) (ht' : t'.WellFormed)

include ht ht'

theorem virtualTypeName?_same (h : t.Same t' i i') : virtualTypeName? t' i' = virtualTypeName? t i := by
  have hfixed {id : TypeId} (hid : id.index < Table.builtins.length) : i' = id ↔ i = id :=
    Table.eq_fixed_iff ht ht' h hid
  obtain ⟨data, data', hd, hd', hparallel⟩ := h.level ht ht'
  rw [virtualTypeName?, virtualTypeName?, hd, hd']
  cases hparallel with
  | generic hbase _ => simp (disch := decide) only [Table.eq_fixed_iff ht ht' hbase]
  | _ => simp (disch := decide) only [hfixed]

/-- What a name stands for has the same field in both tables, if fields of types do. -/
theorem findVirtual_same {globals globals' : Globals} (hg : globals.Parallel (t.Same t') globals')
    {find find' : TypeId → FieldLookup}
    (hfind : ∀ i i', t.Same t' i i' → (find i).Parallel (t.Same t') (find' i')) (h : t.Same t' i i') :
    FieldLookup.Parallel (t.Same t')
      (match (virtualTypeName? t i).bind globals.virtualTypes.get? with
        | some type => find type
        | none => .missing)
      (match (virtualTypeName? t' i').bind globals'.virtualTypes.get? with
        | some type => find' type
        | none => .missing) := by
  rw [virtualTypeName?_same ht ht' h]
  cases virtualTypeName? t i with
  | none => exact .missing
  | some name =>
    have htype := hg.virtualTypes.get? name
    simp only [Option.bind_some]
    generalize globals.virtualTypes.get? name = type at htype
    generalize globals'.virtualTypes.get? name = type' at htype
    cases htype with
    | none => exact .missing
    | some hi => exact hfind _ _ hi

/-- A field has the same type in both tables. -/
theorem findField_same {globals globals' : Globals} (hg : globals.Parallel (t.Same t') globals')
    (field : String) (h : t.Same t' i i') :
    (findField t globals field i).Parallel (t.Same t') (findField t' globals' field i') := by
  suffices hall : ∀ levels i i', t.Same t' i i' →
      (findFieldWithin t globals field levels i).Parallel (t.Same t')
        (findFieldWithin t' globals' field levels i') from hall _ i i' h
  intro levels
  induction levels with
  | zero => exact fun _ _ _ => .missing
  | succ levels ih =>
    intro i i' h
    have hvirtual := findVirtual_same ht ht' hg ih h
    have hany : i' = .any ↔ i = .any := Table.eq_fixed_iff ht ht' h (by decide)
    obtain ⟨data, data', hd, hd', hparallel⟩ := h.level ht ht'
    simp only [findFieldWithin, hany, hd, hd']
    split
    · exact .found (Table.same_fixed ht ht' (by decide))
    cases hparallel with
    | object hs =>
      have hfound := Table.find?_parallel hs.fields field
      simp only [hs.isOpen]
      generalize Types.ObjectShape.find? _ field = found at hfound
      generalize Types.ObjectShape.find? _ field = found' at hfound
      cases hfound with
      | some hf => exact .found hf.type
      | none =>
        simp only
        split
        · exact .growing
        · exact .missing
    | function hs =>
      simp only
      split
      · exact FieldLookup.ofOption_parallel hs.this
      · exact .missing
    | union _ => exact .onUnion
    | intersection hms =>
      refine FieldLookup.ofOption_parallel ?_
      clear hd hd'
      induction hms with
      | nil => exact .none
      | cons hfirst _ ihrest =>
        have hfound := (ih _ _ hfirst).found?_rel
        rw [List.findSome?_cons, List.findSome?_cons]
        generalize (findFieldWithin t globals field levels _).found? = found at hfound
        generalize (findFieldWithin t' globals' field levels _).found? = found' at hfound
        cases hfound with
        | none => exact ihrest
        | some hi => exact .some hi
    | renamed _ _ htarget => exact ih _ _ htarget
    | _ => exact hvirtual

end Fields

theorem objectName_eq (access : Access) {s s' : State} (h : s.Parallel P s') :
    access.objectName s' = access.objectName s := by
  rw [Access.objectName, Access.objectName, h.source]

theorem lockstep_fieldType (access : Access) {i i' : TypeId} (hi : Handles P i i' p) (field : String) :
    Lockstep (states P) p (access.fieldType i field) (access.fieldType i' field) (Handles? P) := by
  refine .get_bind fun hp => ?_
  have hmissing : Lockstep (states P) p
      (do reportMissingField access.span field (access.objectName p.1); return none)
      (do reportMissingField access.span field (access.objectName p.2); return none) (Handles? P) :=
    lockstep_report_none _ _ fun _ => by rw [objectName_eq access hp]
  have hfound := findField_same hp.left hp.right (P.globals hp.session) field hi
  rw [hp.format_eq hi, hp.focus.isTarget]
  generalize findField p.1.table p.1.session.globals field i = found at hfound
  generalize findField p.2.table p.2.session.globals field i' = found' at hfound
  cases hfound with
  | found hi => exact .pure fun _ => .some hi
  | growing =>
    simp only
    split
    · exact .pure fun hp => .some ((states P).same_fixed hp (by decide))
    · exact hmissing
  | missing => exact hmissing
  | onUnion => exact lockstep_report_none _ _ fun _ => rfl

theorem lockstep_reportDynamic (access : Access) {R : TypeId → TypeId → State × State → Prop} :
    Lockstep (states P) p (do access.reportDynamic; return none)
      (do access.reportDynamic; return none) fun i i' q => Option.Rel (R · · q) i i' := by
  refine .bind (P := fun _ _ _ => True) (.get_bind fun hp => ?_) fun _ _ _ _ _ => .pure fun _ => .none
  rw [objectName_eq access hp, hp.snippet_eq]
  exact lockstep_report _ _ fun _ => rfl

theorem lockstep_indexed (access : Access) {key key' index index' part part' : TypeId}
    (hkey : Handles P key key' p) (hindex : Handles P index index' p) (hpart : Handles P part part' p) :
    Lockstep (states P) p (access.indexed key index part) (access.indexed key' index' part')
      (Handles? P) := by
  refine .bind (lockstep_checkFits _ hkey hindex) fun fits fits' q hq hfits => ?_
  subst hfits
  split
  · exact .pure fun _ => .some (hq.same hpart)
  · exact .pure fun _ => .none

theorem lockstep_literalPart (access : Access) {i i' : TypeId} (hi : Handles P i i' p) :
    Lockstep (states P) p (access.literalPart i) (access.literalPart i') (Handles? P) := by
  refine .get_bind fun hp => ?_
  have hsame : p.1.table.Same p.2.table i i' := hi
  obtain ⟨data, data', hd, hd', hparallel⟩ := hsame.level hp.left hp.right
  rw [hd, hd']
  generalize access.property = property
  cases hparallel with
  | @tuple elements elements' helements =>
    cases property with
    | literal literal =>
      have helement : Option.Rel ((states P).Same p) (literal.index?.bind fun i => elements[i]?)
          (literal.index?.bind fun i => elements'[i]?) := by
        cases literal.index? with
        | none => exact .none
        | some index => exact Types.rel_getElem? helements index
      dsimp only
      generalize (literal.index?.bind fun i => elements[i]?) = element at helement
      generalize (literal.index?.bind fun i => elements'[i]?) = element' at helement
      cases helement with
      | some hi => exact .pure fun _ => .some hi
      | none => exact lockstep_reportDynamic access
    | _ => exact lockstep_reportDynamic access
  | object _ =>
    cases property with
    | literal literal =>
      dsimp only
      split
      · exact lockstep_fieldType access hi _
      · exact lockstep_reportDynamic access
    | _ => exact lockstep_reportDynamic access
  | _ => exact lockstep_reportDynamic access

section Accesses

variable {v v' : Visitor} (hv : VisitsAlike P v v')

include hv

theorem lockstep_computedType (access : Access) {i i' : TypeId} (hi : Handles P i i' p) :
    Lockstep (states P) p (access.computedType v i) (access.computedType v' i') (Handles? P) := by
  refine lockstep_bind? (hv.asRead access.property) rfl rfl fun index index' q hq hindex => ?_
  refine .of_meets fun hq' => ?_
  have hi' := hq.same hi
  have hany : i' = .any ↔ i = .any := Table.eq_fixed_iff hq'.left hq'.right hi' (by decide)
  simp only [hany]
  split
  · exact .pure fun hq => .some ((states P).same_fixed hq (by decide))
  refine .get_bind fun _ => ?_
  have helement := Table.arrayElement?_same hq'.left hq'.right hi'
  have hparts := Table.genericParts?_same hq'.left hq'.right hi'
  have hliteral := lockstep_literalPart access hi'
  generalize q.1.table.arrayElement? i = element at helement
  generalize q.2.table.arrayElement? i' = element' at helement
  generalize q.1.table.genericParts? i = parts at hparts
  generalize q.2.table.genericParts? i' = parts' at hparts
  cases helement with
  | some hpart =>
    exact lockstep_indexed access ((states P).same_fixed hq' (by decide)) hindex hpart
  | none =>
    cases hparts with
    | none => exact hliteral
    | @some x x' hx =>
      obtain ⟨base, args⟩ := x
      obtain ⟨base', args'⟩ := x'
      obtain ⟨hbase, hargs⟩ := hx
      have hobject : base' = .object ↔ base = .object :=
        Table.eq_fixed_iff hq'.left hq'.right hbase (by decide)
      cases hargs with
      | nil => exact hliteral
      | cons hkey hargs =>
        cases hargs with
        | nil => exact hliteral
        | cons hpart hargs =>
          cases hargs with
          | cons _ _ => exact hliteral
          | nil =>
            simp only [hobject]
            split
            · exact lockstep_indexed access hkey hindex hpart
            · exact hliteral

theorem lockstep_typeOn (access : Access) {i i' : TypeId} (hi : Handles P i i' p) :
    Lockstep (states P) p (access.typeOn v i) (access.typeOn v' i') (Handles? P) := by
  rw [Access.typeOn, Access.typeOn]
  split
  · exact lockstep_computedType hv access hi
  split
  · exact lockstep_fieldType access hi _
  · exact .pure fun _ => .none

theorem Access.lockstep_verify (access : Access) :
    Lockstep (states P) p (access.verify v) (access.verify v') (Handles? P) := by
  refine .bind (hv.asRead access.object) fun object object' q _ hobject => ?_
  cases hobject with
  | none => exact .pure fun _ => .none
  | some hi => exact lockstep_typeOn hv access hi

end Accesses

/-! ## Type variables -/

/-- What a call passes to a function, in two runs. -/
structure Passed.Parallel (R : TypeId → TypeId → Prop) (x x' : Passed) : Prop where
  arguments : List.Forall₂ (Option.Rel R) x.arguments x'.arguments
  receiver : Option.Rel R x.receiver x'.receiver

/-- The same origin of a solution in two runs. -/
inductive Origin.Parallel (R : TypeId → TypeId → Prop) : Origin → Origin → Prop where
  | passed {i i' : TypeId} (h : R i i') (span : Span) : Parallel R (.passed i span) (.passed i' span)
  | absent : Parallel R .absent .absent
  | elsewhere : Parallel R .elsewhere .elsewhere

theorem Passed.Parallel.mono {R S : TypeId → TypeId → Prop} {x x' : Passed} (h : x.Parallel R x')
    (hRS : ∀ i i', R i i' → S i i') : x.Parallel S x' :=
  ⟨h.arguments.imp fun _ _ hi => Types.rel_mono hi hRS, Types.rel_mono h.receiver hRS⟩

theorem Passed.Parallel.origin {R : TypeId → TypeId → Prop} {x x' : Passed} (h : x.Parallel R x')
    (call : Call) (step : Step) : (call.origin x step).Parallel R (call.origin x' step) := by
  cases step with
  | arg i =>
    have hargument := Types.rel_getElem? h.arguments i
    simp only [Call.origin]
    generalize x.arguments[i]? = argument at hargument
    generalize x'.arguments[i]? = argument' at hargument
    cases call.arguments[i]? with
    | none => exact .absent
    | some _ =>
      cases hargument with
      | none => exact .absent
      | some hargument =>
        cases hargument with
        | none => exact .absent
        | some hi => exact .passed hi _
  | this =>
    have hreceiver := h.receiver
    simp only [Call.origin]
    generalize x.receiver = receiver at hreceiver
    generalize x'.receiver = receiver' at hreceiver
    cases hreceiver with
    | none => exact .absent
    | some hi => exact .passed hi _
  | _ => exact .elsewhere

theorem reconcile?_same {t t' : Table} (ht : t.WellFormed) (ht' : t'.WellFormed) {i i' j j' : TypeId}
    (hi : t.Same t' i i') (hj : t.Same t' j j') :
    Option.Rel (t.Same t') (reconcile? t i j) (reconcile? t' i' j') := by
  simp only [reconcile?, Table.isFree_same ht ht' hi, Table.isFree_same ht ht' hj,
    Table.isSubtype_same ht ht' hi hj, Table.isSubtype_same ht ht' hj hi]
  split
  · exact .some hi
  split
  · exact .some hj
  split
  · exact .some hi
  split
  · exact .some hj
  · exact .none

/-- Solutions that stand for the same. -/
abbrev Solutions (P : Pact) (d d' : Dict TypeId) (q : State × State) : Prop :=
  d.Parallel ((states P).Same q) d'

theorem lockstep_solveOne {d d' : Dict TypeId} (hd : Solutions P d d' p) (name : String) {i i' : TypeId}
    (hi : Handles P i i' p) (span : Span) :
    Lockstep (states P) p (Call.solveOne d name i span) (Call.solveOne d' name i' span)
      fun d d' q => Option.Rel (Solutions P · · q) d d' := by
  refine .get_bind fun hp => ?_
  have hprevious := hd.get? name
  generalize d.get? name = previous at hprevious
  generalize d'.get? name = previous' at hprevious
  cases hprevious with
  | none => exact .pure fun _ => .some (hd.insert name hi)
  | some hprevious =>
    have hnext := reconcile?_same hp.left hp.right hprevious hi
    dsimp only
    rw [hp.format_eq hprevious, hp.format_eq hi]
    generalize reconcile? p.1.table _ i = next at hnext
    generalize reconcile? p.2.table _ i' = next' at hnext
    cases hnext with
    | some hnext => exact .pure fun _ => .some (hd.insert name hnext)
    | none => exact lockstep_report_none _ _ fun _ => rfl

theorem lockstep_solve (call : Call) {passed passed' : Passed}
    (hpassed : passed.Parallel ((states P).Same p) passed') (occurrences : List Occurrence)
    {d d' : Dict TypeId} (hd : Solutions P d d' p) :
    Lockstep (states P) p (call.solve passed occurrences d) (call.solve passed' occurrences d')
      fun d d' q => Option.Rel (Solutions P · · q) d d' := by
  induction occurrences generalizing p d d' with
  | nil => exact .pure fun _ => .some hd
  | cons occurrence rest ih =>
    obtain ⟨name, location⟩ := occurrence
    refine .get_bind fun hp => ?_
    cases location with
    | nil => exact .throw _
    | cons first path =>
      have horigin := hpassed.origin call first
      dsimp only
      generalize call.origin passed first = origin at horigin
      generalize call.origin passed' first = origin' at horigin
      cases horigin with
      | absent => exact ih hpassed hd
      | elsewhere =>
        dsimp only
        rw [hd.contains_eq]
        split
        · exact ih hpassed hd
        · exact lockstep_report_none _ _ fun _ => by rw [Call.name, Call.name, hp.snippet_eq]
      | passed hi span =>
        have hfound := Table.typeAt?_same hp.left hp.right hi path
        dsimp only
        generalize p.1.table.typeAt? _ path = found at hfound
        generalize p.2.table.typeAt? _ path = found' at hfound
        cases hfound with
        | none => exact ih hpassed hd
        | some hfound =>
          exact lockstep_bind? (lockstep_solveOne hd name hfound span) rfl rfl fun _ _ q hq hd =>
            ih (hpassed.mono fun _ _ => hq.same) hd

theorem bindings_parallel {R : TypeId → TypeId → Prop} (occurrences : List Occurrence)
    {d d' : Dict TypeId} (hd : d.Parallel R d') :
    List.Forall₂ (fun x y => y.1 = x.1 ∧ R x.2 y.2) (Call.bindings occurrences d)
      (Call.bindings occurrences d') := by
  unfold Call.bindings
  induction occurrences with
  | nil => exact .nil
  | cons occurrence rest ih =>
    have hget := hd.get? occurrence.name
    rw [List.filterMap_cons, List.filterMap_cons]
    generalize d.get? occurrence.name = type at hget
    generalize d'.get? occurrence.name = type' at hget
    cases hget with
    | none => exact ih
    | some hi => exact .cons ⟨rfl, hi⟩ ih

theorem sameMade_putIn {t t' : Table} (ht : t.WellFormed) (ht' : t'.WellFormed) {i i' : TypeId}
    (hi : t.Same t' i i') {bindings bindings' : List (List Step × TypeId)}
    (hb : List.Forall₂ (fun x y => y.1 = x.1 ∧ t.Same t' x.2 y.2) bindings bindings') :
    Table.SameMade t t' (Call.putIn t i bindings) (Call.putIn t' i' bindings') := by
  have hmade := Table.sameMade_instantiate ht ht' hi hb
  have hwf := hmade.left.wellFormed
  have hwf' := hmade.right.wellFormed
  have hshape := Table.functionShape?_same hwf hwf' hmade.same
  simp only [Call.putIn]
  generalize (t.instantiate i bindings).2.functionShape? _ = shape at hshape
  generalize (t'.instantiate i' bindings').2.functionShape? _ = shape' at hshape
  cases hshape with
  | none => exact hmade
  | some hs => exact hmade.trans (Table.sameMade_add hwf hwf'
      (.function { hs with generics := rfl }) trivial trivial)

theorem lockstep_instantiate (call : Call) {i i' : TypeId} (hi : Handles P i i' p)
    {shape shape' : FunctionShape} (hs : shape.Parallel ((states P).Same p) shape')
    {passed passed' : Passed} (hpassed : passed.Parallel ((states P).Same p) passed') :
    Lockstep (states P) p (call.instantiate i shape passed) (call.instantiate i' shape' passed')
      (Handles? P) := by
  rw [Call.instantiate, Call.instantiate, hs.generics]
  refine lockstep_bind? (lockstep_solve call hpassed _ .empty) rfl rfl fun d d' q hq hd => ?_
  exact .bind (lockstep_onTable fun hq' => sameMade_putIn hq'.left hq'.right (hq.same hi)
    (bindings_parallel shape.generics hd)) fun _ _ _ _ hi => .pure fun _ => .some hi

end HeaderCheck.Verify
