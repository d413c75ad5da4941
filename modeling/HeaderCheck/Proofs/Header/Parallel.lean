import HeaderCheck.Proofs.Header.Lower
import HeaderCheck.Proofs.Lockstep
import HeaderCheck.Proofs.Scope.Parallel
import HeaderCheck.Proofs.Types.Counterparts

/-!
# HeaderCheck.Proofs.Header.Parallel

One header lowered in two runs, whose tables give the same types other handles.

* `Lowering.Parallel`: the same lowering in both, up to handles.
* `LowersAlike`: expressions come to handles for the same tree. One lemma for each kind of expression;
  `lowersAlike_lowerWithin` gives it for all.
* `lockstep_lowerStatements`: a header contributes the same in both runs.
-/

namespace HeaderCheck.Header

open HeaderCheck.Project (Error)
open HeaderCheck.Signature
open HeaderCheck.Types (FunctionShape Param Table TypeData TypeId)

/-! ## Lowerings of two runs -/

/-- The same lowering in two runs. -/
structure Lowering.Parallel (l l' : Lowering) : Prop where
  left : l.table.WellFormed
  right : l'.table.WellFormed
  path : l'.path = l.path
  declarations : l'.declarations = l.declarations
  resolved : l.resolved.Parallel (l.table.Same l'.table) l'.resolved
  inProgress : l'.inProgress = l.inProgress
  imported : l.imported.Parallel (l.table.Same l'.table) l'.imported
  typeVars : List.Forall₂ (Dict.Parallel (l.table.Same l'.table)) l.typeVars l'.typeVars
  diagnostics : l'.diagnostics = l.diagnostics

/-- Two runs of the lowering of one header. -/
def lowering : Accord Lowering where
  table := Lowering.table
  Meets := Lowering.Parallel
  left := Lowering.Parallel.left
  right := Lowering.Parallel.right

/-- The same contribution of a header in two runs. -/
structure Lowered.Parallel (R : TypeId → TypeId → Prop) (h h' : Lowered) : Prop where
  assignments : List.Forall₂ (fun x y => x.1 = y.1 ∧ R x.2 y.2) h.assignments h'.assignments
  declarations : h.declarations.Parallel R h'.declarations
  diagnostics : h'.diagnostics = h.diagnostics

theorem Lowered.Parallel.mono {R S : TypeId → TypeId → Prop} {h h' : Lowered} (hp : h.Parallel R h')
    (hRS : ∀ i i', R i i' → S i i') : h.Parallel S h' :=
  ⟨hp.assignments.imp fun _ _ => And.imp_right (hRS _ _), hp.declarations.mono hRS, hp.diagnostics⟩

variable {α β : Type} {p q : Lowering × Lowering}

/-- The handles stand for the same tree after both runs. -/
abbrev Handles (i i' : TypeId) (q : Lowering × Lowering) : Prop :=
  lowering.Same q i i'

/-- Tables that grow keep lowerings parallel. -/
theorem Lowering.Parallel.withTable {l l' : Lowering} (h : l.Parallel l') {t t' : Table}
    (ht : t.WellFormed) (ht' : t'.WellFormed) (hx : l.table.Extends t) (hx' : l'.table.Extends t') :
    Lowering.Parallel { l with table := t } { l' with table := t' } := by
  have hmono : ∀ i i', l.table.Same l'.table i i' → t.Same t' i i' :=
    fun _ _ hi => hi.extend h.left h.right ht ht' hx hx'
  exact ⟨ht, ht', h.path, h.declarations, h.resolved.mono hmono, h.inProgress, h.imported.mono hmono,
    h.typeVars.imp fun _ _ hd => hd.mono hmono, h.diagnostics⟩

theorem Lowering.Parallel.binding? {l l' : Lowering} (h : l.Parallel l') (name : String) :
    Option.Rel (l.table.Same l'.table) (l.binding? name) (l'.binding? name) := by
  have hscopes := h.typeVars
  unfold Lowering.binding?
  generalize l.typeVars = scopes at hscopes
  generalize l'.typeVars = scopes' at hscopes
  induction hscopes with
  | nil => exact .none
  | @cons scope scope' _ _ hfirst _ ih =>
    have hget := hfirst.get? name
    rw [List.findSome?_cons, List.findSome?_cons]
    generalize scope.get? name = found at hget
    generalize scope'.get? name = found' at hget
    cases hget with
    | none => exact ih
    | some hi => exact .some hi

/-! ## Primitives -/

theorem onward_withTable {t t' : Table} (hp : lowering.Meets p.1 p.2) (ht : t.WellFormed)
    (ht' : t'.WellFormed) (hx : p.1.table.Extends t) (hx' : p.2.table.Extends t') :
    lowering.Onward p ({ p.1 with table := t }, { p.2 with table := t' }) :=
  ⟨hp, hp.withTable ht ht' hx hx', hx, hx'⟩

theorem lockstep_onTable {f f' : Table → TypeId × Table} (h : lowering.Meets p.1 p.2 →
    Table.SameMade p.1.table p.2.table (f p.1.table) (f' p.2.table)) :
    Lockstep lowering p (onTable f) (onTable f') Handles := by
  intro hp
  obtain ⟨hleft, hright, hsame⟩ := h hp
  exact ⟨.ok (f p.1.table).1, .ok (f' p.2.table).1, ({ p.1 with table := (f p.1.table).2 },
    { p.2 with table := (f' p.2.table).2 }), rfl, rfl, onward_withTable hp hleft.wellFormed
    hright.wellFormed hleft.extend hright.extend, .ok hsame⟩

/-- A type of the same form, neither a union nor an intersection. -/
theorem lockstep_add {data data' : TypeData} (h : data.Parallel (lowering.Same p) data')
    (hflat : p.1.table.FlatData data) (hflat' : p.2.table.FlatData data') :
    Lockstep lowering p (onTable fun t => t.add data) (onTable fun t => t.add data') Handles :=
  lockstep_onTable fun hp => Table.sameMade_add hp.left hp.right h hflat hflat'

theorem lockstep_report (kind : Report.Kind) (fields : List (String × String)) :
    Lockstep lowering p (modify fun s => s.report kind fields : LowerM Unit)
      (modify fun s => s.report kind fields) fun _ _ _ => True := by
  refine .modify (fun hp => ⟨hp, ?_, .refl _, .refl _⟩) trivial
  have hdiagnostics : (p.2.report kind fields).diagnostics = (p.1.report kind fields).diagnostics := by
    simp only [Lowering.report, hp.path, hp.diagnostics]
  exact { hp with diagnostics := hdiagnostics }

theorem lockstep_withVariables {typeVars typeVars' : Dict TypeId} {m m' : LowerM α}
    {Q : α → α → Lowering × Lowering → Prop} (hvars : typeVars.Parallel (lowering.Same p) typeVars')
    (h : ∀ r, lowering.Onward p r → Lockstep lowering r m m' Q)
    (hQ : ∀ a a' r t t', Q a a' r → Q a a' ({ r.1 with typeVars := t }, { r.2 with typeVars := t' })) :
    Lockstep lowering p (withVariables typeVars m) (withVariables typeVars' m') Q := by
  intro hp
  have hpushed : lowering.Meets { p.1 with typeVars := typeVars :: p.1.typeVars }
      { p.2 with typeVars := typeVars' :: p.2.typeVars } :=
    { hp with typeVars := .cons hvars hp.typeVars }
  obtain ⟨result, result', q, hrun, hrun', hq, hend⟩ := h
    ({ p.1 with typeVars := typeVars :: p.1.typeVars },
      { p.2 with typeVars := typeVars' :: p.2.typeVars }) ⟨hp, hpushed, .refl _, .refl _⟩ hpushed
  refine ⟨result, result', ({ q.1 with typeVars := q.1.typeVars.tail },
    { q.2 with typeVars := q.2.typeVars.tail }), ?_, ?_, ⟨hp, ?_, hq.left, hq.right⟩, ?_⟩
  · exact congrArg (fun run : Except Error α × Lowering =>
      (run.1, { run.2 with typeVars := run.2.typeVars.tail })) hrun
  · exact congrArg (fun run : Except Error α × Lowering =>
      (run.1, { run.2 with typeVars := run.2.typeVars.tail })) hrun'
  · have htails : List.Forall₂ (Dict.Parallel (q.1.table.Same q.2.table)) q.1.typeVars.tail
        q.2.typeVars.tail := by
      have hall := hq.meets.typeVars
      generalize q.1.typeVars = scopes at hall
      generalize q.2.typeVars = scopes' at hall
      cases hall with
      | nil => exact .nil
      | cons _ hrest => exact hrest
    exact { hq.meets with typeVars := htails }
  · exact hend.mono fun a a' h => hQ a a' q _ _ h

theorem lockstep_whileInProgress (key : String) {m m' : LowerM TypeId}
    (h : ∀ r, lowering.Onward p r → Lockstep lowering r m m' Handles) :
    Lockstep lowering p (whileInProgress key m) (whileInProgress key m') Handles := by
  intro hp
  have hstarted : lowering.Meets { p.1 with inProgress := key :: p.1.inProgress }
      { p.2 with inProgress := key :: p.2.inProgress } :=
    { hp with inProgress := congrArg (key :: ·) hp.inProgress }
  obtain ⟨result, result', q, hrun, hrun', hq, hend⟩ := h
    ({ p.1 with inProgress := key :: p.1.inProgress },
      { p.2 with inProgress := key :: p.2.inProgress }) ⟨hp, hstarted, .refl _, .refl _⟩ hstarted
  refine ⟨result, result', ({ q.1 with inProgress := q.1.inProgress.erase key },
    { q.2 with inProgress := q.2.inProgress.erase key }), ?_, ?_, ⟨hp, ?_, hq.left, hq.right⟩, hend⟩
  · exact congrArg (fun run : Except Error TypeId × Lowering =>
      (run.1, { run.2 with inProgress := run.2.inProgress.erase key })) hrun
  · exact congrArg (fun run : Except Error TypeId × Lowering =>
      (run.1, { run.2 with inProgress := run.2.inProgress.erase key })) hrun'
  · exact { hq.meets with inProgress := congrArg (·.erase key) hq.meets.inProgress }

/-! ## Declarations -/

/-- Expressions come to the same types in both runs. -/
def LowersAlike (lower : TypeExpr → LowerM TypeId) : Prop :=
  ∀ p type, Lockstep lowering p (lower type) (lower type) Handles

variable {lower : TypeExpr → LowerM TypeId} (hl : LowersAlike lower)

/-- Names with types that stand for the same. -/
abbrev Bindings (b b' : String × TypeId) (q : Lowering × Lowering) : Prop :=
  b.1 = b'.1 ∧ lowering.Same q b.2 b'.2

theorem Bindings.onward {b b' : String × TypeId} {q r : Lowering × Lowering}
    (hr : lowering.Onward q r) (h : Bindings b b' q) : Bindings b b' r :=
  h.imp_right hr.same

theorem lockstep_free (name : String) :
    Lockstep lowering p (onTable fun t => t.free name) (onTable fun t => t.free name) Handles :=
  lockstep_add (.free name) trivial trivial

theorem lockstep_bindParams (params : List String) {args args' : List TypeId}
    (hargs : List.Forall₂ (lowering.Same p) args args') :
    Lockstep lowering p (bindParams params args) (bindParams params args')
      fun vars vars' q => vars.Parallel (lowering.Same q) vars' := by
  refine .bind (Lockstep.mapM_self (K := Bindings) params.zipIdx Bindings.onward
    fun item q hq => ?_) fun bound bound' q _ hbound => .pure fun _ => Dict.Parallel.ofList hbound
  obtain ⟨param, i⟩ := item
  have harg := Types.rel_getElem? (hq.all hargs) i
  simp only
  generalize args[i]? = arg at harg
  generalize args'[i]? = arg' at harg
  cases harg with
  | some hi => exact .pure fun _ => ⟨rfl, hi⟩
  | none => exact .bind (lockstep_free param) fun i i' r _ hi => .pure fun _ => ⟨rfl, hi⟩

include hl

theorem LowersAlike.plain (name : String) (body : TypeExpr) :
    Lockstep lowering p (lowerPlain lower name body) (lowerPlain lower name body) Handles := by
  refine .get_bind fun hp => ?_
  have hknown := hp.resolved.get? name
  simp only [hp.inProgress]
  generalize p.1.resolved.get? name = known at hknown
  generalize p.2.resolved.get? name = known' at hknown
  cases hknown with
  | some hi => exact .pure fun _ => hi
  | none =>
    simp only
    split
    · exact lockstep_add (.literal name false) trivial trivial
    refine .bind (lockstep_whileInProgress name fun r _ => hl r body) fun i i' q _ hi => ?_
    refine .bind (.modify (Q := fun _ _ r => Handles i i' r) (fun hq => ⟨hq, ?_, .refl _, .refl _⟩) hi)
      fun _ _ r _ hi => .pure fun _ => hi
    exact { hq with resolved := hq.resolved.insert name hi }

theorem LowersAlike.applied (name : String) (declared : Declared) {args args' : List TypeId}
    (hargs : List.Forall₂ (lowering.Same p) args args') :
    Lockstep lowering p (lowerApplied lower name declared args)
      (lowerApplied lower name declared args') Handles := by
  refine .get_bind fun hp => ?_
  rw [hp.inProgress]
  split
  · exact lockstep_add (.literal name false) trivial trivial
  refine lockstep_whileInProgress _ fun r hr => ?_
  refine .bind (lockstep_bindParams declared.params (hr.all hargs)) fun vars vars' q _ hvars => ?_
  exact lockstep_withVariables hvars (fun r _ => hl r declared.body) fun _ _ _ _ _ h => h

theorem LowersAlike.declaration (name : String) {args args' : List TypeId}
    (hargs : List.Forall₂ (lowering.Same p) args args') :
    Lockstep lowering p (lowerDeclaration lower name args) (lowerDeclaration lower name args')
      Handles := by
  refine .get_bind fun hp => ?_
  rw [hp.declarations]
  split
  · exact .pure fun hp => lowering.same_fixed hp (by decide)
  split
  · exact hl.plain name _
  · exact hl.applied name _ hargs

/-! ## Expressions -/

theorem LowersAlike.literal (name : String) (builtin : Bool) :
    Lockstep lowering p (lowerLiteral lower name builtin) (lowerLiteral lower name builtin)
      Handles := by
  refine .get_bind fun hp => ?_
  have hbound := hp.binding? name
  have himported := hp.imported.get? name
  simp only [hp.declarations]
  generalize p.1.binding? name = bound at hbound
  generalize p.2.binding? name = bound' at hbound
  cases hbound with
  | some hi => exact .pure fun _ => hi
  | none =>
    simp only
    split
    · exact lockstep_add (.literal name true) trivial trivial
    split
    · exact hl.declaration name .nil
    generalize p.1.imported.get? name = known at himported
    generalize p.2.imported.get? name = known' at himported
    cases himported with
    | some hi => exact .pure fun _ => hi
    | none =>
      exact .bind (lockstep_report _ _) fun _ _ _ _ _ =>
        .pure fun hq => lowering.same_fixed hq (by decide)

/-- The expressions of a list come to the same types. -/
theorem LowersAlike.all (types : List TypeExpr) :
    Lockstep lowering p (types.mapM lower) (types.mapM lower)
      fun is is' q => List.Forall₂ (lowering.Same q) is is' :=
  .mapM_self (K := Handles) types (fun hr hi => hr.same hi) fun type q _ => hl q type

theorem LowersAlike.generic (base : TypeExpr) (args : List TypeExpr) :
    Lockstep lowering p (lowerGeneric lower base args) (lowerGeneric lower base args) Handles := by
  refine .bind (hl.all args) fun is is' q _ his => .get_bind fun hq => ?_
  have hplain : Lockstep lowering q (do let base ← lower base; onTable fun t => t.generic base is)
      (do let base ← lower base; onTable fun t => t.generic base is') Handles :=
    .bind (hl q base) fun i i' r hr hi => lockstep_add (.generic hi (hr.all his)) trivial trivial
  cases base with
  | literal name _ _ _ =>
    have hbound := hq.binding? name
    simp only [hq.declarations]
    generalize q.1.binding? name = bound at hbound
    generalize q.2.binding? name = bound' at hbound
    cases hbound with
    | some _ => exact hplain
    | none =>
      cases q.1.declarations.contains name with
      | false => exact hplain
      | true => exact hl.declaration name his
  | _ => exact hplain

theorem LowersAlike.field (field : KeyValue) :
    Lockstep lowering p (lowerField lower field) (lowerField lower field)
      fun f f' q => f.Parallel (lowering.Same q) f' :=
  .bind (hl p field.value) fun _ _ _ _ hi => .pure fun _ => ⟨rfl, hi, rfl⟩

theorem LowersAlike.param (arg : TypeExpr) :
    Lockstep lowering p (lowerParam lower arg) (lowerParam lower arg)
      fun a a' q => a.Parallel (lowering.Same q) a' :=
  .bind (hl p arg) fun _ _ _ _ hi => .pure fun _ => ⟨rfl, hi, rfl⟩

theorem LowersAlike.optional (type : Option TypeExpr) :
    Lockstep lowering p (lowerOptional lower type) (lowerOptional lower type)
      fun i i' q => Option.Rel (lowering.Same q) i i' := by
  cases type with
  | none => exact .pure fun _ => .none
  | some type => exact .bind (hl p type) fun _ _ _ _ hi => .pure fun _ => .some hi

/-- Parameters, `this` and result that stand for the same. -/
structure PartsAlike (parts parts' : List Param × Option TypeId × TypeId)
    (q : Lowering × Lowering) : Prop where
  params : List.Forall₂ (Param.Parallel (lowering.Same q)) parts.1 parts'.1
  this : Option.Rel (lowering.Same q) parts.2.1 parts'.2.1
  result : Handles parts.2.2 parts'.2.2 q

theorem LowersAlike.parts (args : List TypeExpr) (this : Option TypeExpr) (result : TypeExpr) :
    Lockstep lowering p (lowerParts lower args this result) (lowerParts lower args this result)
      PartsAlike := by
  refine .bind (.mapM_self (K := fun a a' q => a.Parallel (lowering.Same q) a') args
    (fun hr h => h.mono fun _ _ => hr.same) fun arg q _ => hl.param arg) fun params params' q _ hparams => ?_
  refine .bind (hl.optional this) fun this this' r hr hthis => ?_
  refine .bind (hl r result) fun i i' u hu hi => .pure fun _ => ⟨?_, hu.same? hthis, hi⟩
  exact (hr.trans hu).params hparams

omit hl in
/-- A location leads to a part of the function in both runs or in neither. -/
theorem checkInside_same (hp : lowering.Meets p.1 p.2) {i i' : TypeId} (hi : Handles i i' p)
    (descriptor : Descriptor) (occurrence : Types.Occurrence) :
    checkInside p.2.table i' descriptor occurrence = checkInside p.1.table i descriptor occurrence := by
  have hat := Table.typeAt?_same hp.left hp.right hi occurrence.location
  rw [checkInside, checkInside]
  generalize p.1.table.typeAt? i occurrence.location = found at hat
  generalize p.2.table.typeAt? i' occurrence.location = found' at hat
  cases hat <;> rfl

theorem LowersAlike.function (args : List TypeExpr) (result : TypeExpr) (this : Option TypeExpr)
    (generics : List Descriptor) (brand : String) :
    Lockstep lowering p (lowerFunction lower args result this generics brand)
      (lowerFunction lower args result this generics brand) Handles := by
  refine .bind (.mapM_self (K := Bindings) generics Bindings.onward fun descriptor q _ =>
    .bind (lockstep_free descriptor.name) fun _ _ _ _ hi => .pure fun _ => ⟨rfl, hi⟩)
    fun vars vars' q _ hvars => ?_
  -- what follows the parts does not depend on whether there are variables
  split
  on_goal 1 => refine .bind (hl.parts args this result) ?_
  on_goal 2 => refine .bind (lockstep_withVariables (.ofList hvars)
    (fun r _ => hl.parts args this result) fun _ _ _ _ _ h => ⟨h.params, h.this, h.result⟩) ?_
  all_goals
    rintro ⟨params, this, result⟩ ⟨params', this', result'⟩ r - hparts
    refine .bind (.mapM_self (K := fun o o' _ => o = o') generics (fun _ h => h)
      fun descriptor _ _ => .given _) fun occurrences occurrences' u hu hsame => ?_
    rw [List.forall₂_eq_eq_eq] at hsame
    subst hsame
    refine .bind (lockstep_add (.function ⟨hu.params hparts.params,
      hu.same hparts.result, hu.same? hparts.this, rfl, rfl⟩) trivial trivial) fun i i' w _ hi => ?_
    refine .get_bind fun hw => .bind (.forM _ fun item x _ => ?_) fun _ _ x hx _ =>
      .pure fun _ => hx.same hi
    simp only [checkInside_same hw hi]
    exact (Lockstep.given _).mono fun _ _ _ _ _ => trivial

theorem LowersAlike.level (type : TypeExpr) :
    Lockstep lowering p (lowerLevel lower type) (lowerLevel lower type) Handles := by
  cases type with
  | literal name builtin _ _ => exact hl.literal name _
  | value value _ _ => exact lockstep_add (.value value value) trivial trivial
  | object fields _ _ isOpen brand =>
    refine .bind (.mapM_self (K := fun f f' q => f.Parallel (lowering.Same q) f') fields
      (fun hr h => h.mono fun _ _ => hr.same) fun field q _ => hl.field field) fun fs fs' q _ hfs => ?_
    exact lockstep_add (.object ⟨hfs, rfl, rfl⟩) trivial trivial
  | union members _ _ =>
    exact .bind (hl.all members) fun is is' q _ his =>
      lockstep_onTable fun hq => Table.sameMade_union hq.left hq.right his
  | intersection members _ _ =>
    exact .bind (hl.all members) fun is is' q _ his =>
      lockstep_onTable fun hq => Table.sameMade_intersection hq.left hq.right his
  | function args result this _ _ generics brand => exact hl.function args result this generics brand
  | generic base args _ => exact hl.generic base args
  | tuple elements _ _ =>
    exact .bind (hl.all elements) fun is is' q _ his => lockstep_add (.tuple his) trivial trivial
  | renamed name _ target _ _ =>
    exact .bind (hl p target) fun i i' q _ hi => lockstep_add (.renamed name false hi) trivial trivial
  | free name => exact lockstep_free name

omit hl in
theorem lowersAlike_lowerWithin (fuel : Nat) : LowersAlike (lowerWithin fuel) := by
  induction fuel with
  | zero => exact fun _ _ => .throw _
  | succ fuel ih => exact fun _ type => ih.level type

/-! ## Headers -/

omit hl

theorem sameMade_brandConstructor {t t' : Table} (ht : t.WellFormed) (ht' : t'.WellFormed) (name : String)
    {i i' : TypeId} (h : t.Same t' i i') :
    Table.SameMade t t' (brandConstructor t name i) (brandConstructor t' name i') := by
  have hself := Table.sameMade_self ht ht' h
  have hshape := Table.functionShape?_same ht ht' h
  rw [brandConstructor, brandConstructor]
  generalize t.functionShape? i = shape at hshape
  generalize t'.functionShape? i' = shape' at hshape
  cases hshape with
  | none => exact hself
  | @some shape shape' hs =>
    obtain ⟨params, result, this, generics, brand⟩ := shape
    obtain ⟨params', result', this', generics', brand'⟩ := shape'
    obtain ⟨hparams, hresult, hthis, hgenerics, hbrand⟩ := hs
    cases hthis with
    | none => exact hself
    | @some this this' hi =>
      have hvoid : result' = .void ↔ result = .void := Table.eq_fixed_iff ht ht' hresult (by decide)
      simp only [Table.isObject_same ht ht' hi, hvoid]
      split
      · have hbranded := Table.sameMade_withBrand ht ht' hi name
        refine hbranded.trans (Table.sameMade_add hbranded.left.wellFormed hbranded.right.wellFormed
          (.function ⟨?_, hbranded.extend ht ht' hresult, .some hbranded.same, hgenerics, rfl⟩)
          trivial trivial)
        exact hparams.imp fun _ _ hp => hp.mono fun _ _ => hbranded.extend ht ht'
      · exact hself

theorem lockstep_lowerAssignment (fuel : Nat) (name : String) (type : TypeExpr) :
    Lockstep lowering p (lowerAssignment fuel name type) (lowerAssignment fuel name type) Bindings := by
  rw [lowerAssignment]
  split
  · exact .bind (P := fun _ _ _ => False) (.throw _) fun _ _ _ _ h => h.elim
  refine .bind (lowersAlike_lowerWithin fuel p type) fun i i' r _ hi => ?_
  split
  · exact .bind (lockstep_onTable fun hr => sameMade_brandConstructor hr.left hr.right name hi)
      fun _ _ _ _ hi => .pure fun _ => ⟨rfl, hi⟩
  · exact .pure fun _ => ⟨rfl, hi⟩

/-- A header contributes the same in both runs. -/
theorem lockstep_lowerStatements (header : Header) :
    Lockstep lowering p (lowerStatements header) (lowerStatements header)
      fun h h' q => h.Parallel (lowering.Same q) h' := by
  refine .get_bind fun hp => ?_
  rw [hp.declarations]
  refine .bind (.mapM_self (K := Bindings) _ Bindings.onward fun name q _ =>
    .bind ((lowersAlike_lowerWithin _).declaration name .nil) fun _ _ _ _ hi => .pure fun _ => ⟨rfl, hi⟩)
    fun declarations declarations' q _ hdeclarations => ?_
  refine .bind (.filterMapM_self (K := Bindings) header.statements Bindings.onward
    fun statement r _ => ?_) fun assignments assignments' r hr hassignments => ?_
  · cases statement with
    | assignment name type =>
      exact .bind (lockstep_lowerAssignment _ name type) fun _ _ _ _ h => .pure fun _ => .some h
    | _ => exact .pure fun _ => .none
  · refine .get_bind fun hr' => .pure fun _ => ⟨hassignments, ?_, hr'.diagnostics⟩
    exact .ofList (hdeclarations.imp fun _ _ => And.imp_right hr.same)

/-! ## Imports -/

/-- One type of another header is taken over in both runs. -/
theorem Lowering.Parallel.importType {l l' : Lowering} (h : l.Parallel l') {d d' : Dict TypeId}
    (hd : d.Parallel (l.table.Same l'.table) d') (item : TypeExpr) :
    lowering.Onward (l, l') (l.importType d item, l'.importType d' item) := by
  have hreport : ∀ kind fields, lowering.Onward (l, l') (l.report kind fields, l'.report kind fields) := by
    intro kind fields
    have hdiagnostics : (l'.report kind fields).diagnostics = (l.report kind fields).diagnostics := by
      simp only [Lowering.report, h.path, h.diagnostics]
    exact ⟨h, { h with diagnostics := hdiagnostics }, .refl _, .refl _⟩
  unfold Lowering.importType
  split
  · exact .refl h
  next name target _ =>
  have hget := hd.get? target
  generalize d.get? target = type at hget
  generalize d'.get? target = type' at hget
  cases hget with
  | none => exact hreport _ _
  | some hi =>
    simp only
    split
    · exact ⟨h, { h with imported := h.imported.insert name hi }, .refl _, .refl _⟩
    · have hmade := Table.sameMade_add h.left h.right (.renamed name false hi) trivial trivial
      have hgrown := h.withTable hmade.left.wellFormed hmade.right.wellFormed hmade.left.extend
        hmade.right.extend
      exact ⟨h, { hgrown with imported := hgrown.imported.insert name hmade.same },
        hmade.left.extend, hmade.right.extend⟩

/-- The listed types of another header are taken over in both runs. -/
theorem Lowering.Parallel.importFrom {l l' : Lowering} (h : l.Parallel l') {header header' : Lowered}
    (hh : header.Parallel (l.table.Same l'.table) header') (items : List TypeExpr) :
    lowering.Onward (l, l') (l.importFrom header items, l'.importFrom header' items) := by
  have hfold : ∀ p : Lowering × Lowering, lowering.Onward (l, l') p → lowering.Onward (l, l')
      (items.foldl (fun s item => s.importType header.declarations item) p.1,
        items.foldl (fun s item => s.importType header'.declarations item) p.2) := by
    induction items with
    | nil => exact fun _ hp => hp
    | cons item rest ih =>
      intro p hp
      exact ih _ (hp.trans (Lowering.Parallel.importType hp.meets
        (hh.declarations.mono fun _ _ => hp.same) item))
  refine hfold ({ l with diagnostics := l.diagnostics ++ header.diagnostics },
    { l' with diagnostics := l'.diagnostics ++ header'.diagnostics }) ⟨h, ?_, .refl _, .refl _⟩
  have hdiagnostics : l'.diagnostics ++ header'.diagnostics = l.diagnostics ++ header.diagnostics := by
    rw [h.diagnostics, hh.diagnostics]
  exact { h with diagnostics := hdiagnostics }

end HeaderCheck.Header
