import HeaderCheck.Proofs.Header.Lower
import HeaderCheck.Proofs.Signature.Names
import HeaderCheck.Proofs.Types.Again
import HeaderCheck.Proofs.Types.Same

/-!
# HeaderCheck.Proofs.Header.Again

What has been lowered once comes to the same type when it is lowered again, in a later table.

* `Lowering.Sound`: the types that a lowering knows are types of its table.
* `Lowering.Follows`: a lowering with the types of an earlier one, in which `names` stand for the same.
* `Mirror`, `Mirrors`: the work `m` leads to a state from which on `m'` comes to the same result and
  changes nothing, but for diagnostics. One rule for each way to put work together.
-/

namespace HeaderCheck.Header

open HeaderCheck.Project (Error)
open HeaderCheck.Report (Diagnostic)
open HeaderCheck.Signature
open HeaderCheck.Types (Table TypeId)

/-! ## Sound lowerings -/

/-- Types that a lowering knows are types of its table. -/
structure Lowering.Sound (l : Lowering) : Prop where
  table : l.table.WellFormed
  typeVars : ∀ scope ∈ l.typeVars, ∀ name type, scope.get? name = some type → l.table.Issued type
  resolved : ∀ name type, l.resolved.get? name = some type → l.table.Issued type
  imported : ∀ name type, l.imported.get? name = some type → l.table.Issued type

/-- More type variables in scope. -/
def Lowering.push (l : Lowering) (typeVars : Dict TypeId) : Lowering :=
  { l with typeVars := typeVars :: l.typeVars }

/-- One more declaration in progress. -/
def Lowering.start (l : Lowering) (key : String) : Lowering :=
  { l with inProgress := key :: l.inProgress }

def Lowering.reporting (l : Lowering) (reported : List Diagnostic) : Lowering :=
  { l with diagnostics := l.diagnostics ++ reported }

@[simp] theorem Lowering.reporting_nil (l : Lowering) : l.reporting [] = l := by
  simp [reporting]

theorem Lowering.reporting_reporting (l : Lowering) (first second : List Diagnostic) :
    (l.reporting first).reporting second = l.reporting (first ++ second) := by
  simp [reporting]

/-- A type variable of the innermost scope counts. -/
theorem Lowering.binding?_push (l : Lowering) (typeVars : Dict TypeId) (name : String) :
    (l.push typeVars).binding? name = (typeVars.get? name).or (l.binding? name) := by
  unfold binding? push
  rw [List.findSome?_cons]
  cases typeVars.get? name <;> rfl

theorem Lowering.Sound.issued_binding {l : Lowering} (hl : l.Sound) {name : String} {type : TypeId}
    (h : l.binding? name = some type) : l.table.Issued type := by
  obtain ⟨scope, hscope, hget⟩ := List.exists_of_findSome?_eq_some h
  exact hl.typeVars scope hscope name type hget

theorem Lowering.Sound.push {l : Lowering} (hl : l.Sound) {typeVars : Dict TypeId}
    (h : ∀ name type, typeVars.get? name = some type → l.table.Issued type) :
    (l.push typeVars).Sound :=
  ⟨hl.table, List.forall_mem_cons.mpr ⟨h, hl.typeVars⟩, hl.resolved, hl.imported⟩

theorem Lowering.Sound.withTable {l : Lowering} (hl : l.Sound) {t : Table} (ht : t.WellFormed)
    (hx : l.table.Extends t) : ({ l with table := t } : Lowering).Sound :=
  ⟨ht, fun scope hscope name type hget => hx.issued (hl.typeVars scope hscope name type hget),
    fun name type hget => hx.issued (hl.resolved name type hget),
    fun name type hget => hx.issued (hl.imported name type hget)⟩

/-! ## Lowering again -/

/-- The lowering `r` takes up again where `l` is. It knows of declarations that are not in progress
and have no parameters. -/
structure Lowering.Resumes (l r : Lowering) : Prop where
  inProgress : r.inProgress = l.inProgress
  typeVars : r.typeVars = l.typeVars
  resolved : ∀ name type, l.resolved.get? name = some type → r.resolved.get? name = some type
  plain : ∀ name type, r.resolved.get? name = some type → name ∉ r.inProgress ∧
    ∃ declared, r.declarations.get? name = some declared ∧ declared.params.isEmpty

/-- The lowering `r` has the types of `l` and the same declarations and imports, and the `names` stand
for the same types if they are variables. If it `resumes`, it takes up again where `l` is. -/
structure Lowering.Follows (resumes : Prop) (names : List String) (l r : Lowering) : Prop where
  wellFormed : r.table.WellFormed
  table : l.table.Extends r.table
  path : r.path = l.path
  declarations : ∀ name, r.declarations.get? name = l.declarations.get? name
  imported : ∀ name, r.imported.get? name = l.imported.get? name
  bindings : ∀ name ∈ names, r.binding? name = l.binding? name
  resumes : resumes → l.Resumes r

/-- From `l` on the work comes to `result` and reports `reported`, given enough fuel, in every
lowering that follows. -/
def Lowering.Comes {α : Type} (l : Lowering) (resumes : Prop) (names : List String)
    (work : (fuel : Nat) → LowerM α) (result : Except Error α) (reported : List Diagnostic) : Prop :=
  ∃ enough, ∀ fuel, enough ≤ fuel → ∀ r, l.Follows resumes names r →
    (work fuel).run r = (result, r.reporting reported)

/-- What is asked of lowerings that are mirrored. -/
structure Mirror where
  /-- Whether the mirroring work takes up where the mirrored work is. -/
  resumes : Prop
  /-- What is known from the course of the lowering so far. -/
  known : Lowering → Prop
  /-- When an expression can be lowered. -/
  ready : Lowering → TypeExpr → Prop
  known_congr : ∀ {l l' : Lowering}, known l → l.table.Extends l'.table → l'.path = l.path →
    l'.declarations = l.declarations → l'.imported = l.imported → l'.resolved = l.resolved →
    l.diagnostics <+: l'.diagnostics → known l'
  ready_keeps : ∀ {l l' : Lowering} {type : TypeExpr}, ready l type → l.Keeps l' →
    (∀ name id, l.resolved.get? name = some id → l'.resolved.get? name = some id) → ready l' type
  ready_part : ∀ {l : Lowering} {type part : TypeExpr}, ready l type → type.variables = [] →
    part ∈ type.parts → ready l part
  ready_push : ∀ {l : Lowering} {type part : TypeExpr} {typeVars : Dict TypeId}, ready l type →
    (∀ name ∈ type.variables, (typeVars.get? name).isSome) →
    (∀ name, (typeVars.get? name).isSome → name ∈ type.variables) →
    part ∈ type.parts → ready (l.push typeVars) part

variable {M : Mirror} {α β : Type} {l l' r : Lowering} {names inner : List String}

/-- How mirrored work may change a lowering. -/
structure Mirror.Onward (M : Mirror) (l l' : Lowering) : Prop where
  keeps : l.Keeps l'
  resolved : ∀ name type, l.resolved.get? name = some type → l'.resolved.get? name = some type
  waiting : ∀ name ∈ l.inProgress, l'.resolved.get? name = l.resolved.get? name
  sound : l.Sound → l'.Sound
  known : M.known l → M.known l'

instance : Std.Refl M.Onward :=
  ⟨fun _ => ⟨Std.Refl.refl _, fun _ _ h => h, fun _ _ => rfl, id, id⟩⟩

instance : IsTrans Lowering M.Onward :=
  ⟨fun _ _ _ h h' => ⟨IsTrans.trans _ _ _ h.keeps h'.keeps,
    fun name type hget => h'.resolved name type (h.resolved name type hget),
    fun name hname => (h'.waiting name (h.keeps.inProgress ▸ hname)).trans (h.waiting name hname),
    h'.sound ∘ h.sound, h'.known ∘ h.known⟩⟩

theorem Mirror.Onward.ready (h : M.Onward l l') {type : TypeExpr} (hr : M.ready l type) :
    M.ready l' type :=
  M.ready_keeps hr h.keeps h.resolved

theorem Mirror.Onward.binding?_eq (h : M.Onward l l') (name : String) :
    l'.binding? name = l.binding? name := by
  unfold Lowering.binding?
  rw [h.keeps.typeVars]

/-- More type variables go out of scope again. -/
theorem Mirror.Onward.pop {typeVars : Dict TypeId}
    (hissued : ∀ name type, typeVars.get? name = some type → l.table.Issued type)
    (h : M.Onward (l.push typeVars) l') : M.Onward l { l' with typeVars := l'.typeVars.tail } := by
  have hk := h.keeps
  have htail : l'.typeVars.tail = l.typeVars := congrArg List.tail hk.typeVars
  refine ⟨⟨hk.table, hk.path, hk.declarations, hk.inProgress, hk.imported, htail, hk.diagnostics⟩,
    h.resolved, h.waiting, fun hl => ?_, fun hknown => ?_⟩
  · have hl' := h.sound (hl.push hissued)
    refine ⟨hl'.table, fun scope hscope => hl'.typeVars scope ?_, hl'.resolved, hl'.imported⟩
    exact List.mem_of_mem_tail hscope
  · have hknown' : M.known (l.push typeVars) :=
      M.known_congr hknown (.refl _) rfl rfl rfl rfl (List.prefix_refl _)
    exact M.known_congr (h.known hknown') (.refl _) rfl rfl rfl rfl (List.prefix_refl _)

/-- What follows the later lowering follows the earlier one. -/
theorem Mirror.Onward.follows (h : M.Onward l l') (hr : l'.Follows M.resumes names r) :
    l.Follows M.resumes names r where
  wellFormed := hr.wellFormed
  table := h.keeps.table.trans hr.table
  path := hr.path.trans h.keeps.path
  declarations name := by rw [hr.declarations, h.keeps.declarations]
  imported name := by rw [hr.imported, h.keeps.imported]
  bindings name hname := (hr.bindings name hname).trans (h.binding?_eq name)
  resumes hresumes :=
    have hagain := hr.resumes hresumes
    ⟨hagain.inProgress.trans h.keeps.inProgress, hagain.typeVars.trans h.keeps.typeVars,
      fun name type hget => hagain.resolved name type (h.resolved name type hget), hagain.plain⟩

/-- What work comes to, it comes to later on. -/
theorem Mirror.Onward.comes (h : M.Onward l l') {work : Nat → LowerM α} {result : Except Error α}
    {reported : List Diagnostic} (hc : l.Comes M.resumes names work result reported) :
    l'.Comes M.resumes names work result reported := by
  obtain ⟨enough, hcomes⟩ := hc
  exact ⟨enough, fun fuel hfuel r hr => hcomes fuel hfuel r (h.follows hr)⟩

theorem Lowering.Follows.mono {resumes : Prop} (h : l.Follows resumes names r)
    (hinner : ∀ name ∈ inner, name ∈ names) : l.Follows resumes inner r :=
  { h with bindings := fun name hname => h.bindings name (hinner name hname) }

theorem Lowering.Follows.reporting {resumes : Prop} (h : l.Follows resumes names r)
    (reported : List Diagnostic) : l.Follows resumes names (r.reporting reported) :=
  { h with resumes := fun hresumes => { h.resumes hresumes with } }

/-- Outcomes that are mirrored: all but a lack of fuel, and only good ones when `M` resumes. -/
def Mirror.Counts (M : Mirror) (result : Except Error α) : Prop :=
  result ≠ .error .outOfFuel ∧ (M.resumes → ∃ a, result = .ok a)

/-- What the work `m` comes to from `l` on, the work `m'` comes to again from there on. It reports
nothing that has not been reported, and all that has been, unless it resumes. -/
structure Mirrors (M : Mirror) (names : List String) (l : Lowering) (post : α → Table → Prop)
    (m : LowerM α) (m' : (fuel : Nat) → LowerM α) : Prop where
  onward : M.Onward l (m.run l).2
  result : ∀ a, (m.run l).1 = .ok a → post a (m.run l).2.table
  again : M.Counts (m.run l).1 → ∃ reported,
    (∀ d ∈ reported, d ∈ (m.run l).2.diagnostics) ∧
    (¬M.resumes → ∀ d ∈ (m.run l).2.diagnostics, d ∈ l.diagnostics ∨ d ∈ reported) ∧
    (m.run l).2.Comes M.resumes names m' (m.run l).1 reported

namespace Mirrors

variable {P : α → Table → Prop} {Q : β → Table → Prop}

theorem mono {m : LowerM α} {m' : Nat → LowerM α} (h : Mirrors M inner l P m m')
    (hinner : ∀ name ∈ inner, name ∈ names) {P' : α → Table → Prop} (hP : ∀ a t, P a t → P' a t) :
    Mirrors M names l P' m m' := by
  refine ⟨h.onward, fun a ha => hP a _ (h.result a ha), fun hcounts => ?_⟩
  obtain ⟨reported, hreported, hall, enough, hcomes⟩ := h.again hcounts
  exact ⟨reported, hreported, hall, enough, fun fuel hfuel r hr => hcomes fuel hfuel r (hr.mono hinner)⟩

/-- Work that comes to its result again, whatever the fuel, and reports nothing. -/
theorem of_run {m : LowerM α} {m' : Nat → LowerM α} {result : Except Error α}
    (hrun : m.run l = (result, l')) (honward : M.Onward l l')
    (hdiagnostics : l'.diagnostics = l.diagnostics) (hresult : ∀ a, result = .ok a → P a l'.table)
    (hagain : ∀ fuel r, l'.Follows M.resumes names r → (m' fuel).run r = (result, r)) :
    Mirrors M names l P m m' := by
  refine ⟨?_, ?_, fun _ => ⟨[], by simp, fun _ d hd => ?_, 0, fun fuel _ r hr => ?_⟩⟩
  · rw [hrun]
    exact honward
  · rw [hrun]
    exact hresult
  · rw [hrun, hdiagnostics] at hd
    exact .inl hd
  · rw [hrun] at hr ⊢
    rw [hagain fuel r hr, Lowering.reporting_nil]

/-- Work that does on either side what mirrored work does. -/
theorem congr {m₁ m : LowerM α} {m₁' m' : Nat → LowerM α} (h : Mirrors M names l P m₁ m₁')
    (hrun : m.run l = m₁.run l)
    (hrun' : ∀ fuel r, l.Follows M.resumes names r → (m' fuel).run r = (m₁' fuel).run r) :
    Mirrors M names l P m m' := by
  obtain ⟨honward, hresult, hagain⟩ := h
  refine ⟨?_, ?_, ?_⟩ <;> rw [hrun]
  · exact honward
  · exact hresult
  · intro hcounts
    obtain ⟨reported, hreported, hall, enough, hcomes⟩ := hagain hcounts
    refine ⟨reported, hreported, hall, enough, fun fuel hfuel r hr => ?_⟩
    rw [hrun' fuel r (honward.follows hr)]
    exact hcomes fuel hfuel r hr

/-- More fuel for the mirroring work does no harm. -/
theorem shift {m : LowerM α} {m' : Nat → LowerM α}
    (h : Mirrors M names l P m fun fuel => m' (fuel + 1)) : Mirrors M names l P m m' := by
  refine ⟨h.onward, h.result, fun hcounts => ?_⟩
  obtain ⟨reported, hreported, hall, enough, hcomes⟩ := h.again hcounts
  refine ⟨reported, hreported, hall, enough + 1, fun fuel hfuel r hr => ?_⟩
  obtain ⟨fuel, rfl⟩ : ∃ n, fuel = n + 1 := ⟨fuel - 1, by omega⟩
  exact hcomes fuel (by omega) r hr

/-- Work that lacks fuel need not be mirrored. -/
theorem outOfFuel {m' : Nat → LowerM α} : Mirrors M names l P (throw .outOfFuel) m' :=
  ⟨Std.Refl.refl l, fun _ => nofun, fun hcounts => absurd rfl hcounts.1⟩

theorem pure {a : α} (ha : P a l.table) : Mirrors M names l P (pure a) fun _ => pure a :=
  of_run rfl (Std.Refl.refl l) rfl (by rintro _ ⟨⟩; exact ha) fun _ _ _ => rfl

theorem except {result : Except Error α} (h : ∀ a, result = .ok a → P a l.table) :
    Mirrors M names l P (ExceptT.mk (Pure.pure result)) fun _ => ExceptT.mk (Pure.pure result) :=
  of_run rfl (Std.Refl.refl l) rfl h fun _ _ _ => rfl

theorem get_bind {f : Lowering → LowerM α} {f' : Nat → Lowering → LowerM α} {m' : Nat → LowerM α}
    (h : Mirrors M names l P (f l) m')
    (hsame : ∀ fuel r, l.Follows M.resumes names r → f' fuel r = m' fuel) :
    Mirrors M names l P (get >>= f) fun fuel => get >>= f' fuel := by
  refine ⟨h.onward, h.result, fun hcounts => ?_⟩
  obtain ⟨reported, hreported, hall, enough, hcomes⟩ := h.again hcounts
  refine ⟨reported, hreported, hall, enough, fun fuel hfuel r hr => ?_⟩
  rw [run_get_bind, hsame fuel r (h.onward.follows hr)]
  exact hcomes fuel hfuel r hr

theorem bind {m : LowerM α} {m' : Nat → LowerM α} {f : α → LowerM β} {f' : Nat → α → LowerM β}
    (h : Mirrors M names l P m m')
    (hf : ∀ a l₁, M.Onward l l₁ → P a l₁.table → Mirrors M names l₁ Q (f a) fun fuel => f' fuel a) :
    Mirrors M names l Q (m >>= f) fun fuel => m' fuel >>= f' fuel := by
  have honward := h.onward
  have hresult := h.result
  have hagain := h.again
  rcases hrun : m.run l with ⟨e | a, l₁⟩ <;> rw [hrun] at honward hresult hagain
  · have hfails := run_bind_error hrun f
    refine ⟨?_, ?_, ?_⟩ <;> rw [hfails]
    · exact honward
    · exact fun _ => nofun
    · intro hcounts
      have hcounts' : M.Counts (.error e : Except Error α) :=
        ⟨fun he => hcounts.1 (by cases he; rfl), fun hresumes => nomatch hcounts.2 hresumes⟩
      obtain ⟨reported, hreported, hall, enough, hcomes⟩ := hagain hcounts'
      exact ⟨reported, hreported, hall, enough, fun fuel hfuel r hr =>
        run_bind_error (hcomes fuel hfuel r hr) _⟩
  · obtain ⟨honward', hresult', hagain'⟩ := hf a l₁ honward (hresult a rfl)
    have hgoes := run_bind_ok hrun f
    have hgood : M.Counts (.ok a : Except Error α) := ⟨nofun, fun _ => ⟨a, rfl⟩⟩
    refine ⟨?_, ?_, ?_⟩ <;> rw [hgoes]
    · exact IsTrans.trans _ _ _ honward honward'
    · exact hresult'
    · intro hcounts
      obtain ⟨first, hfirst, hallfirst, enough₁, hcomes₁⟩ := hagain hgood
      obtain ⟨second, hsecond, hallsecond, enough₂, hcomes₂⟩ := hagain' hcounts
      refine ⟨first ++ second, fun d hd => ?_, fun hnew d hd => ?_, max enough₁ enough₂,
        fun fuel hfuel r hr => ?_⟩
      · rcases List.mem_append.mp hd with hd | hd
        · exact honward'.keeps.diagnostics.subset (hfirst d hd)
        · exact hsecond d hd
      · rw [List.mem_append]
        rcases hallsecond hnew d hd with hd | hd
        · exact (hallfirst hnew d hd).imp_right .inl
        · exact .inr (.inr hd)
      · rw [run_bind_ok (hcomes₁ fuel (by omega) r (honward'.follows hr)),
          hcomes₂ fuel (by omega) _ (hr.reporting first), Lowering.reporting_reporting]

/-- The same for each member of a list, where `P` relates the member to what is made of it. -/
theorem mapM {γ : Type} {f : γ → LowerM β} {f' : Nat → γ → LowerM β} {P : γ → β → Table → Prop}
    (hP : ∀ x b t u, t.Extends u → P x b t → P x b u) {items : List γ}
    (h : ∀ x ∈ items, ∀ l₁, M.Onward l l₁ → Mirrors M names l₁ (P x) (f x) fun fuel => f' fuel x) :
    Mirrors M names l (fun bs t => List.Forall₂ (fun x b => P x b t) items bs) (items.mapM f)
      fun fuel => items.mapM (f' fuel) := by
  induction items generalizing l with
  | nil => exact pure .nil
  | cons x rest ih =>
    simp only [List.mapM_cons]
    have hrest : ∀ l₁, M.Onward l l₁ → Mirrors M names l₁
        (fun bs t => List.Forall₂ (fun x b => P x b t) rest bs) (rest.mapM f)
        fun fuel => rest.mapM (f' fuel) :=
      fun l₁ h₁ => ih fun y hy l₂ h₂ => h y (List.mem_cons_of_mem _ hy) l₂ (IsTrans.trans _ _ _ h₁ h₂)
    refine bind (h x List.mem_cons_self l (Std.Refl.refl l)) fun b l₁ h₁ hb => ?_
    have hkept : Mirrors M names l₁ (fun bs t => List.Forall₂ (fun x b => P x b t) rest bs ∧
        l₁.table.Extends t) (rest.mapM f) fun fuel => rest.mapM (f' fuel) :=
      ⟨(hrest l₁ h₁).onward, fun bs hbs => ⟨(hrest l₁ h₁).result bs hbs,
        (hrest l₁ h₁).onward.keeps.table⟩, (hrest l₁ h₁).again⟩
    exact bind hkept fun bs l₂ _ ⟨hbs, hx⟩ => pure (.cons (hP x b _ _ hx hb) hbs)

end Mirrors

/-- The members of a list are mirrored, each of them when its turn comes. -/
def MirrorsEach {γ : Type} (M : Mirror) (names : List String) (P : γ → β → Table → Prop)
    (f : γ → LowerM β) (f' : (fuel : Nat) → γ → LowerM β) : Lowering → List γ → Prop
  | _, [] => True
  | l, x :: rest => (Mirrors M names l (P x) (f x) fun fuel => f' fuel x) ∧
    ∀ b l', (f x).run l = (.ok b, l') → MirrorsEach M names P f f' l' rest

namespace MirrorsEach

variable {γ : Type} {P : γ → β → Table → Prop} {f : γ → LowerM β} {f' : Nat → γ → LowerM β}
  {items : List γ}

/-- The members are mirrored in any order. -/
theorem of_forall (h : ∀ x ∈ items, ∀ l₁, M.Onward l l₁ →
    Mirrors M names l₁ (P x) (f x) fun fuel => f' fuel x) : MirrorsEach M names P f f' l items := by
  induction items generalizing l with
  | nil => trivial
  | cons x rest ih =>
    have hfirst := h x List.mem_cons_self l (Std.Refl.refl l)
    refine ⟨hfirst, fun b l' hrun => ih fun y hy l₁ h₁ => h y (List.mem_cons_of_mem _ hy) l₁ ?_⟩
    have honward := hfirst.onward
    rw [hrun] at honward
    exact IsTrans.trans _ _ _ honward h₁

/-- What becomes of each member, if all come to something. -/
theorem outcomes (h : MirrorsEach M names P f f' l items)
    (hP : ∀ x b t u, t.Extends u → P x b t → P x b u) {bs : List β}
    (hrun : (items.mapM f).run l = (.ok bs, l')) :
    M.Onward l l' ∧ ∃ outcomes : List (β × List Diagnostic), outcomes.map Prod.fst = bs ∧
      List.Forall₂ (fun x o => P x o.1 l'.table ∧ (∀ d ∈ o.2, d ∈ l'.diagnostics) ∧
        l'.Comes M.resumes names (fun fuel => f' fuel x) (.ok o.1) o.2) items outcomes ∧
      (¬M.resumes → ∀ d ∈ l'.diagnostics, d ∈ l.diagnostics ∨ ∃ o ∈ outcomes, d ∈ o.2) := by
  induction items generalizing l bs with
  | nil =>
    cases hrun
    exact ⟨Std.Refl.refl _, [], rfl, .nil, fun _ d hd => .inl hd⟩
  | cons x rest ih =>
    rw [List.mapM_cons] at hrun
    obtain ⟨b, l₁, hfirst, hrun⟩ := ok_of_run_bind hrun
    obtain ⟨others, l₂, hrest, hrun⟩ := ok_of_run_bind hrun
    cases hrun
    obtain ⟨⟨honward, hresult, hagain⟩, hothers⟩ := h
    rw [hfirst] at honward hresult hagain
    obtain ⟨reported, hreported, hall, hcomes⟩ := hagain ⟨nofun, fun _ => ⟨b, rfl⟩⟩
    obtain ⟨honward', found, rfl, hfound, hexplained⟩ := ih (hothers b l₁ hfirst) hrest
    refine ⟨IsTrans.trans _ _ _ honward honward', (b, reported) :: found, rfl,
      .cons ⟨hP x b _ _ honward'.keeps.table (hresult b rfl), fun d hd => ?_, honward'.comes hcomes⟩
        hfound, fun hnew d hd => ?_⟩
    · exact honward'.keeps.diagnostics.subset (hreported d hd)
    · rcases hexplained hnew d hd with hd | ⟨o, ho, hd⟩
      · refine (hall hnew d hd).imp_right fun hd => ?_
        exact ⟨_, List.mem_cons_self, hd⟩
      · exact .inr ⟨o, List.mem_cons_of_mem _ ho, hd⟩

/-- What fails for a list fails for one of its members. -/
theorem failing (hnew : ¬M.resumes) (h : MirrorsEach M names P f f' l items) {e : Error}
    (he : e ≠ .outOfFuel) (hrun : (items.mapM f).run l = (.error e, l')) :
    ∃ x ∈ items, ∃ reported, l'.Comes M.resumes names (fun fuel => f' fuel x) (.error e) reported := by
  induction items generalizing l with
  | nil => cases hrun
  | cons x rest ih =>
    rw [List.mapM_cons] at hrun
    obtain ⟨⟨-, -, hagain⟩, hothers⟩ := h
    rcases hfirst : (f x).run l with ⟨e' | b, l₁⟩
    · rw [run_bind_error hfirst] at hrun
      cases hrun
      rw [hfirst] at hagain
      have hcounts : M.Counts (.error e : Except Error β) :=
        ⟨fun hlack => he (Except.error.inj hlack), fun hresumes => absurd hresumes hnew⟩
      obtain ⟨reported, -, -, hcomes⟩ := hagain hcounts
      exact ⟨x, List.mem_cons_self, reported, hcomes⟩
    · rw [run_bind_ok hfirst] at hrun
      rcases hrest : (rest.mapM f).run l₁ with ⟨e' | bs, l₂⟩
      · rw [run_bind_error hrest] at hrun
        cases hrun
        obtain ⟨y, hy, hfails⟩ := ih (hothers b l₁ hfirst) hrest
        exact ⟨y, List.mem_cons_of_mem _ hy, hfails⟩
      · rw [run_bind_ok hrest] at hrun
        cases hrun

end MirrorsEach

namespace Mirrors

variable {P : α → Table → Prop}

theorem withVariables {typeVars : Dict TypeId} {m : LowerM α} {m' : Nat → LowerM α}
    (hissued : ∀ name type, typeVars.get? name = some type → l.table.Issued type)
    (hinner : ∀ name ∈ inner, typeVars.get? name = none → name ∈ names)
    (h : Mirrors M inner (l.push typeVars) P m m') :
    Mirrors M names l P (withVariables typeVars m) fun fuel =>
      Header.withVariables typeVars (m' fuel) := by
  obtain ⟨honward, hresult, hagain⟩ := h
  have hvars : (m.run (l.push typeVars)).2.typeVars = typeVars :: l.typeVars := honward.keeps.typeVars
  refine ⟨honward.pop hissued, hresult, fun hcounts => ?_⟩
  obtain ⟨reported, hreported, hall, enough, hcomes⟩ := hagain hcounts
  refine ⟨reported, hreported, hall, enough, fun fuel hfuel r hr => ?_⟩
  have hinside : (m.run (l.push typeVars)).2.Follows M.resumes inner (r.push typeVars) := by
    refine ⟨hr.wellFormed, hr.table, hr.path, hr.declarations, hr.imported, fun name hname => ?_,
      fun hresumes => ?_⟩
    · rw [honward.binding?_eq, Lowering.binding?_push, Lowering.binding?_push]
      cases hget : typeVars.get? name with
      | some type => rfl
      | none =>
        have houter := hr.bindings name (hinner name hname hget)
        rw [houter, Lowering.binding?, Lowering.binding?]
        exact congrArg (List.findSome? fun scope => scope.get? name) (congrArg List.tail hvars)
    · obtain ⟨hprogress, houter, hresolved, hplain⟩ := hr.resumes hresumes
      refine ⟨hprogress, ?_, hresolved, hplain⟩
      rw [hvars]
      exact congrArg (typeVars :: ·) (houter.trans (congrArg List.tail hvars))
  have hrun := hcomes fuel hfuel _ hinside
  exact congrArg (fun run => (run.1, { run.2 with typeVars := run.2.typeVars.tail })) hrun

end Mirrors

section

variable {P : α → Table → Prop}

theorem mirrors_onTable {make : Table → TypeId × Table} (h : l.table.Makes make) :
    Mirrors M names l (fun type t => t.Issued type) (onTable make) fun _ => onTable make := by
  have hgrows := h.grows
  refine .of_run rfl ⟨⟨hgrows.extend, rfl, rfl, rfl, rfl, rfl, List.prefix_refl _⟩, fun _ _ h => h,
    fun _ _ => rfl, fun hl => hl.withTable hgrows.wellFormed hgrows.extend, fun hknown => ?_⟩ rfl
    (by rintro _ ⟨⟩; exact hgrows.issued) fun _ r hr => ?_
  · exact M.known_congr hknown hgrows.extend rfl rfl rfl rfl (List.prefix_refl _)
  · have hagain := h.again r.table hr.wellFormed hr.table
    change (Except.ok (make r.table).1, { r with table := (make r.table).2 }) = _
    rw [hagain]

theorem mirrors_report (kind : Report.Kind) (fields : List (String × String)) :
    Mirrors M names l (fun _ _ => True)
      (modify fun l => l.report kind fields : LowerM Unit) fun _ =>
        modify fun l => l.report kind fields := by
  refine ⟨⟨⟨.refl _, rfl, rfl, rfl, rfl, rfl, List.prefix_append _ _⟩, fun _ _ h => h, fun _ _ => rfl,
    fun hl => ⟨hl.table, hl.typeVars, hl.resolved, hl.imported⟩, fun hknown => ?_⟩, fun _ _ => trivial,
    fun _ => ⟨[Diagnostic.of kind l.path none fields], fun d hd => ?_, fun _ d hd => ?_, 0,
      fun _ _ r hr => ?_⟩⟩
  · exact M.known_congr hknown (.refl _) rfl rfl rfl rfl (List.prefix_append _ _)
  · exact List.mem_append_right _ hd
  · exact List.mem_append.mp hd
  · have hpath : r.path = l.path := hr.path
    exact congrArg (fun path => (Except.ok (), r.reporting [Diagnostic.of kind path none fields])) hpath

end

end HeaderCheck.Header
