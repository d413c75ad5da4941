import HeaderCheck.Proofs.Header.Scoping
import HeaderCheck.Proofs.Signature.Occurrences

/-!
# HeaderCheck.Proofs.Header.Tally

How often a name is reported as unknown while expressions are lowered.

* `Lowering.Leaves`: what work that goes well leaves as it is.
* `Tally.total`: the reports of a name that were made, and those that are due because there are
  declarations without parameters to lower that leave it unresolved. Such a declaration is lowered once,
  so lowering it turns what is due into reports, and nothing else does.
* `Tally.Costs`: the work adds at least so much to the total, and no more where the tally is exact. One
  rule for each way to put work together.
* `Tally.costs_lowerWithin`: an expression adds the places at which it leaves the name unresolved.
-/

namespace HeaderCheck.Header

open HeaderCheck.Project (Error)
open HeaderCheck.Report (Diagnostic)
open HeaderCheck.Signature
open HeaderCheck.Types (Table TypeId)

variable {α β γ : Type} {l l' l₁ : Lowering} {k k' : Nat}

/-! ## What work leaves as it is -/

/-- Declarations that are found stay found, but not those in progress. -/
structure Lowering.Leaves (l l' : Lowering) : Prop where
  path : l'.path = l.path
  declarations : l'.declarations = l.declarations
  imported : l'.imported = l.imported
  inProgress : l'.inProgress = l.inProgress
  typeVars : l'.typeVars = l.typeVars
  resolved : ∀ name type, l.resolved.get? name = some type → l'.resolved.get? name = some type
  waiting : ∀ name ∈ l.inProgress, l'.resolved.get? name = l.resolved.get? name

namespace Lowering.Leaves

theorem refl (l : Lowering) : l.Leaves l :=
  ⟨rfl, rfl, rfl, rfl, rfl, fun _ _ => id, fun _ _ => rfl⟩

theorem trans (h : l.Leaves l₁) (h' : l₁.Leaves l') : l.Leaves l' where
  path := h'.path.trans h.path
  declarations := h'.declarations.trans h.declarations
  imported := h'.imported.trans h.imported
  inProgress := h'.inProgress.trans h.inProgress
  typeVars := h'.typeVars.trans h.typeVars
  resolved name type hget := h'.resolved name type (h.resolved name type hget)
  waiting name hname := (h'.waiting name (h.inProgress ▸ hname)).trans (h.waiting name hname)

theorem binding?_eq (h : l.Leaves l') (name : String) : l'.binding? name = l.binding? name := by
  rw [Lowering.binding?, Lowering.binding?, h.typeVars]

theorem pop {typeVars : Dict TypeId} (h : (l.push typeVars).Leaves l') :
    l.Leaves { l' with typeVars := l'.typeVars.tail } :=
  { h with typeVars := congrArg List.tail h.typeVars }

theorem finish {key : String} (h : (l.start key).Leaves l') : l.Leaves (l'.finish key) :=
  { h with
    inProgress := (congrArg (fun keys => keys.erase key) h.inProgress).trans
      (List.erase_cons_head key l.inProgress)
    waiting := fun name hname => h.waiting name (List.mem_cons_of_mem _ hname) }

/-- A declaration is learned that was not found and is not in progress. -/
theorem learn {name : String} {type : TypeId} (h : l.Leaves l') (hnew : l'.resolved.get? name = none)
    (hfree : name ∉ l.inProgress) : l.Leaves (l'.learn name type) :=
  { h with
    resolved := fun other id hget => by
      have hget' := h.resolved other id hget
      rw [Lowering.learn, Dict.get?_insert, if_neg]
      · exact hget'
      · rintro rfl
        rw [hnew] at hget'
        cases hget'
    waiting := fun other hother => by
      rw [Lowering.learn, Dict.get?_insert, if_neg]
      · exact h.waiting other hother
      · rintro rfl
        exact hfree hother }

end Lowering.Leaves

theorem run_withVariables {typeVars : Dict TypeId} {m : LowerM α} {result : Except Error α}
    (h : m.run (l.push typeVars) = (result, l')) :
    (withVariables typeVars m).run l = (result, { l' with typeVars := l'.typeVars.tail }) :=
  congrArg (fun run : Except Error α × Lowering =>
    (run.1, ({ run.2 with typeVars := run.2.typeVars.tail } : Lowering))) h

/-! ## What is counted -/

/-- The report of an unknown name in a header. -/
def unknownName (path name : String) : Diagnostic :=
  Diagnostic.of .unknownLiteral path none [("literal", name)]

theorem unknownName_inj {path name other : String} :
    unknownName path name = unknownName path other ↔ name = other := by
  constructor
  · intro h
    have hfields := congrArg Diagnostic.fields h
    simpa [unknownName, Diagnostic.of, Dict.ofList, Dict.insert, Dict.empty, Dict.put] using hfields
  · rintro rfl
    rfl

/-- A declaration without parameters that is neither found nor in progress. -/
def Lowering.pending (l : Lowering) (name : String) : Bool :=
  (l.resolved.get? name).isNone && !l.inProgress.contains name

/-- A name whose reports are counted, and what names can stand for besides. -/
structure Tally where
  name : String
  declarations : Dict Declared
  imported : Dict TypeId
  /-- No report is made more than once. -/
  exact : Prop

namespace Tally

variable {T : Tally}

/-- Whether a name that is no type variable stands for something. -/
def known (T : Tally) (name : String) : Bool :=
  Table.sentinelNames.contains name || T.declarations.contains name || T.imported.contains name

/-- At how many places a declaration leaves the name unresolved. -/
def weight (T : Tally) (declared : Declared) : Nat :=
  (declared.body.unresolved T.known).count T.name

/-- How many reports are made when the declarations without parameters for which `p` holds are lowered. -/
def dueOf (T : Tally) (p : String → Bool) : Nat :=
  ((T.declarations.entries.filter fun entry => entry.2.params.isEmpty && p entry.1).map
    fun entry => T.weight entry.2).sum

/-- The reports that were made, and those that are due. -/
def total (T : Tally) (l : Lowering) : Nat :=
  l.diagnostics.count (unknownName l.path T.name) + T.dueOf l.pending

/-- At how many places an expression leaves the name unresolved in a lowering. -/
def places (T : Tally) (l : Lowering) (type : TypeExpr) : Nat :=
  if (l.binding? T.name).isSome then 0 else (type.unresolved T.known).count T.name

/-- No declaration without parameters leaves the name unresolved. -/
def PlainClear (T : Tally) : Prop :=
  ∀ name declared, T.declarations.get? name = some declared → declared.params.isEmpty →
    T.weight declared = 0

/-- An expression in which the name is no type variable where it may become that of a declaration which
is lowered there for the first time, and in which no declaration is applied that would be reported
again. -/
structure Suits (T : Tally) (type : TypeExpr) : Prop where
  unbound : T.PlainClear ∨ ∀ node ∈ type.nodes, T.name ∉ node.variables
  single : T.exact → ∀ node ∈ type.nodes, ∀ name declared, node.name? = some name →
    T.declarations.get? name = some declared → declared.params.isEmpty = false → T.weight declared = 0

/-- The bodies of all declarations suit. -/
structure Sound (T : Tally) : Prop where
  distinct : T.declarations.keys.Nodup
  bodies : ∀ name declared, T.declarations.get? name = some declared → T.Suits declared.body
  params : T.PlainClear ∨
    ∀ name declared, T.declarations.get? name = some declared → T.name ∉ declared.params

/-- A lowering with these declarations and imports. -/
structure At (T : Tally) (l : Lowering) : Prop where
  declarations : l.declarations = T.declarations
  imported : l.imported = T.imported
  unbound : T.PlainClear ∨ l.binding? T.name = none

theorem Suits.part {type part : TypeExpr} (h : T.Suits type) (hpart : part ∈ type.parts) :
    T.Suits part where
  unbound := h.unbound.imp_right fun hfree node hnode => hfree node (TypeExpr.nodes_of_part hpart hnode)
  single hexact node hnode := h.single hexact node (TypeExpr.nodes_of_part hpart hnode)

theorem At.leaves (h : T.At l) (hl : l.Leaves l') : T.At l' where
  declarations := hl.declarations.trans h.declarations
  imported := hl.imported.trans h.imported
  unbound := h.unbound.imp_right fun hfree => (hl.binding?_eq _).trans hfree

theorem At.start (h : T.At l) (key : String) : T.At (l.start key) :=
  ⟨h.declarations, h.imported, h.unbound⟩

theorem At.push (h : T.At l) {typeVars : Dict TypeId}
    (hfree : T.PlainClear ∨ typeVars.get? T.name = none) : T.At (l.push typeVars) where
  declarations := h.declarations
  imported := h.imported
  unbound := by
    rcases hfree with hclear | hfree
    · exact .inl hclear
    · exact h.unbound.imp_right fun hnone => by rw [Lowering.binding?_push, hfree, hnone]; rfl

theorem places_leaves (hl : l.Leaves l') (type : TypeExpr) : T.places l' type = T.places l type := by
  rw [places, places, hl.binding?_eq]

/-- The places in the scope of more type variables. -/
theorem places_push (l : Lowering) (typeVars : Dict TypeId) (type : TypeExpr) :
    T.places (l.push typeVars) type =
      if (typeVars.get? T.name).isSome then 0 else T.places l type := by
  rw [places, places, Lowering.binding?_push]
  cases typeVars.get? T.name <;> rfl

/-- The places in an expression that is no name are those in its parts. -/
theorem places_parts {type : TypeExpr} (h : type.name? = none) (l : Lowering) :
    T.places l type =
      if T.name ∈ type.variables then 0 else (type.parts.map (T.places l)).sum := by
  cases hbound : (l.binding? T.name).isSome with
  | true =>
    have hnone : T.places l = fun _ => 0 := funext fun part => by rw [places, hbound, if_pos rfl]
    simp [hnone]
  | false =>
    have hcount : T.places l = fun part => (part.unresolved T.known).count T.name :=
      funext fun part => by rw [places, hbound, if_neg Bool.false_ne_true]
    rw [hcount]
    exact TypeExpr.count_unresolved T.known h T.name

/-- A name that stands for something is left unresolved nowhere. -/
theorem places_known {name : String} {builtin : Option Bool} {label : Option String} {optional : Bool}
    (h : (builtin.getD (isBuiltinName name) || T.known name) = true) (l : Lowering) :
    T.places l (.literal name builtin label optional) = 0 := by
  rw [places, TypeExpr.unresolved, if_pos h]
  exact ite_self 0

/-- Lowered from anywhere, a declaration without parameters leaves the name unresolved in all places. -/
theorem At.places_plain (h : T.At l) {name : String} {declared : Declared}
    (hget : T.declarations.get? name = some declared) (hparams : declared.params.isEmpty) :
    T.places l declared.body = T.weight declared := by
  rw [places, weight]
  rcases h.unbound with hclear | hfree
  · have hnone : (declared.body.unresolved T.known).count T.name = 0 := hclear name declared hget hparams
    rw [hnone, ite_self]
  · rw [hfree]
    rfl

/-! ## What is due -/

/-- What is due is due for one name or for the others. -/
theorem dueOf_split (p : String → Bool) (key : String) :
    T.dueOf p = T.dueOf (fun name => p name && name ≠ key) +
      T.dueOf (fun name => p name && name = key) := by
  simp only [dueOf]
  induction T.declarations.entries with
  | nil => rfl
  | cons first rest ih =>
    simp only [List.filter_cons]
    by_cases hkey : first.1 = key <;> cases first.2.params.isEmpty <;> cases p first.1 <;>
      simp [hkey] at ih ⊢ <;> omega

theorem Sound.dueOf_single (hT : T.Sound) {name : String} {declared : Declared}
    (hget : T.declarations.get? name = some declared) (hparams : declared.params.isEmpty)
    {p : String → Bool} (hp : p name = true) :
    T.dueOf (fun other => p other && other = name) = T.weight declared := by
  have hmem := Dict.mem_entries_of_get? hget
  have hdistinct := hT.distinct
  simp only [Dict.keys] at hdistinct
  simp only [dueOf]
  generalize T.declarations.entries = entries at hmem hdistinct ⊢
  induction entries with
  | nil => cases hmem
  | cons first rest ih =>
    rw [List.map_cons, List.nodup_cons] at hdistinct
    rcases List.mem_cons.mp hmem with rfl | hmem
    · -- no other entry has the name
      have hrest : rest.filter (fun entry => entry.2.params.isEmpty && (p entry.1 && entry.1 = name)) =
          [] := by
        refine List.filter_eq_nil_iff.mpr fun entry hentry hholds => hdistinct.1 ?_
        have heq : entry.1 = name := by simp at hholds; exact hholds.2.2
        exact List.mem_map.mpr ⟨entry, hentry, heq⟩
      simp [hparams, hp, hrest]
    · have hne : first.1 ≠ name := by
        rintro rfl
        exact hdistinct.1 (List.mem_map.mpr ⟨_, hmem, rfl⟩)
      simpa [List.filter_cons, hne] using ih hmem hdistinct.2

theorem pending_start (l : Lowering) (key : String) :
    (l.start key).pending = fun name => l.pending name && name ≠ key := by
  funext name
  by_cases heq : name = key <;> simp [Lowering.pending, Lowering.start, heq]

/-- What is due while a declaration is in progress is due for the others. -/
theorem total_start (l : Lowering) (key : String) :
    T.total l = T.total (l.start key) + T.dueOf fun name => l.pending name && name = key := by
  rw [total, total, pending_start, T.dueOf_split l.pending key, ← Nat.add_assoc]
  rfl

theorem total_finish {key : String} (h : (l.start key).Leaves l') :
    T.total (l'.finish key) = T.total l' + T.dueOf fun name => l.pending name && name = key := by
  have hfinished : l'.inProgress.erase key = l.inProgress := h.finish.inProgress
  have hprogress : l'.inProgress = key :: l.inProgress := h.inProgress
  have hothers : l'.pending = fun name => (l'.finish key).pending name && name ≠ key := by
    funext name
    by_cases heq : name = key <;> simp [Lowering.pending, hprogress, heq, Lowering.finish]
  have hsame : (fun name => (l'.finish key).pending name && decide (name = key)) =
      fun name => l.pending name && decide (name = key) := by
    funext name
    by_cases heq : name = key
    · subst heq
      have hwaits : l'.resolved.get? name = l.resolved.get? name := h.waiting name List.mem_cons_self
      simp [Lowering.pending, hfinished, ← hwaits, Lowering.finish]
    · simp [heq]
  rw [total, total, T.dueOf_split (l'.finish key).pending key, hsame, hothers, ← Nat.add_assoc]
  rfl

/-- A declaration in progress is not due, nor is one that is found. -/
theorem total_learn {name : String} (type : TypeId) (h : (l.start name).Leaves l') :
    T.total ((l'.finish name).learn name type) = T.total l' := by
  have hprogress : l'.inProgress = name :: l.inProgress := h.inProgress
  have hsame : ((l'.finish name).learn name type).pending = l'.pending := by
    funext other
    by_cases heq : name = other
    · subst heq
      simp [Lowering.pending, Lowering.learn, hprogress]
    · have hne : other ≠ name := Ne.symm heq
      simp [Lowering.pending, Lowering.learn, Lowering.finish, hprogress, heq, hne]
  rw [total, total, hsame]
  rfl

/-! ## What work adds -/

/-- So much is added to the total between two lowerings, and no more where the tally is exact. -/
structure Adds (T : Tally) (k : Nat) (l l' : Lowering) : Prop where
  leaves : l.Leaves l'
  least : T.total l + k ≤ T.total l'
  most : T.exact → T.total l' = T.total l + k

theorem Adds.of_total (hl : l.Leaves l') (h : T.total l' = T.total l + k) : T.Adds k l l' :=
  ⟨hl, Nat.le_of_eq h.symm, fun _ => h⟩

theorem Adds.refl (l : Lowering) : T.Adds 0 l l :=
  .of_total (.refl l) rfl

theorem Adds.trans (h : T.Adds k l l₁) (h' : T.Adds k' l₁ l') : T.Adds (k + k') l l' where
  leaves := h.leaves.trans h'.leaves
  least := by
    have hfirst := h.least
    have hsecond := h'.least
    omega
  most hexact := by rw [h'.most hexact, h.most hexact, Nat.add_assoc]

/-- Work that goes well adds so much. -/
def Costs (T : Tally) (k : Nat) (l : Lowering) (m : LowerM α) : Prop :=
  ∀ a l', m.run l = (.ok a, l') → T.Adds k l l'

namespace Costs

/-- An inexact tally need not count everything. -/
theorem mono {m : LowerM α} (h : T.Costs k l m) (hle : k' ≤ k) (hexact : T.exact → k = k') :
    T.Costs k' l m := by
  intro a l' hrun
  obtain ⟨hl, hleast, hmost⟩ := h a l' hrun
  exact ⟨hl, by omega, fun he => by rw [hmost he, hexact he]⟩

theorem of_eq {m : LowerM α} (h : T.Costs k l m) (heq : k = k') : T.Costs k' l m :=
  heq ▸ h

theorem pure (a : α) : T.Costs 0 l (pure a : LowerM α) := by
  intro b l' hrun
  cases hrun
  exact .refl l

theorem throw (e : Error) : T.Costs k l (throw e : LowerM α) :=
  fun _ _ hrun => nomatch hrun

theorem get_bind {f : Lowering → LowerM α} (h : T.Costs k l (f l)) : T.Costs k l (get >>= f) :=
  h

theorem bind {m : LowerM α} {f : α → LowerM β} (h : T.Costs k l m)
    (hf : ∀ a l₁, m.run l = (.ok a, l₁) → l.Leaves l₁ → T.Costs k' l₁ (f a)) :
    T.Costs (k + k') l (m >>= f) := by
  intro b l' hrun
  obtain ⟨a, l₁, hfirst, hsecond⟩ := ok_of_run_bind hrun
  have hadds := h a l₁ hfirst
  exact hadds.trans (hf a l₁ hfirst hadds.leaves b l' hsecond)

/-- What follows adds nothing. -/
theorem andThen {m : LowerM α} {f : α → LowerM β} (h : T.Costs k l m)
    (hf : ∀ a l₁, T.Costs 0 l₁ (f a)) : T.Costs k l (m >>= f) :=
  h.bind fun a l₁ _ _ => hf a l₁

theorem onTable (f : Table → α × Table) : T.Costs 0 l (Header.onTable f) := by
  intro a l' hrun
  cases hrun
  exact .of_total ⟨rfl, rfl, rfl, rfl, rfl, fun _ _ => id, fun _ _ => rfl⟩ rfl

theorem except (result : Except Error α) : T.Costs 0 l (ExceptT.mk (Pure.pure result) : LowerM α) := by
  intro a l' hrun
  cases hrun
  exact .refl l

theorem mapM {f : γ → LowerM β} {items : List γ} {cost : γ → Nat}
    (h : ∀ x ∈ items, ∀ l₁, l.Leaves l₁ → T.Costs (cost x) l₁ (f x)) :
    T.Costs (items.map cost).sum l (items.mapM f) := by
  induction items generalizing l with
  | nil => exact pure []
  | cons x rest ih =>
    rw [List.mapM_cons, List.map_cons, List.sum_cons]
    refine (h x List.mem_cons_self l (.refl l)).bind fun _ l₁ _ hl => ?_
    exact (ih fun y hy l₂ hl₂ => h y (List.mem_cons_of_mem _ hy) l₂ (hl.trans hl₂)).andThen
      fun _ _ => pure _

/-- Items that add nothing. -/
theorem mapM_zero {f : γ → LowerM β} (items : List γ) (h : ∀ x l₁, T.Costs 0 l₁ (f x)) :
    T.Costs 0 l (items.mapM f) := by
  have hsum : T.Costs (items.map fun _ => 0).sum l (items.mapM f) := mapM fun x _ l₁ _ => h x l₁
  exact hsum.of_eq (by simp)

theorem forM {f : γ → LowerM PUnit} {items : List γ} (h : ∀ x ∈ items, ∀ l₁, T.Costs 0 l₁ (f x)) :
    T.Costs 0 l (items.forM f) := by
  induction items generalizing l with
  | nil => exact pure _
  | cons x rest ih =>
    exact (h x List.mem_cons_self l).andThen fun _ l₁ =>
      ih fun y hy => h y (List.mem_cons_of_mem _ hy)

theorem withVariables {typeVars : Dict TypeId} {m : LowerM α} (h : T.Costs k (l.push typeVars) m) :
    T.Costs k l (Header.withVariables typeVars m) := by
  intro a l' hrun
  rcases hinner : m.run (l.push typeVars) with ⟨e | b, l₁⟩ <;> rw [run_withVariables hinner] at hrun <;>
    cases hrun
  obtain ⟨hl, hleast, hmost⟩ := h a l₁ hinner
  exact ⟨hl.pop, hleast, hmost⟩

/-- What is due for a declaration that gets in progress is due again afterwards. -/
theorem whileInProgress {key : String} {m : LowerM α} (h : T.Costs k (l.start key) m) :
    T.Costs k l (Header.whileInProgress key m) := by
  intro a l' hrun
  rcases hinner : m.run (l.start key) with ⟨e | b, l₁⟩ <;> rw [run_whileInProgress hinner] at hrun <;>
    cases hrun
  obtain ⟨hl, hleast, hmost⟩ := h a l₁ hinner
  have hstart := T.total_start l key
  have hfinish := total_finish (T := T) hl
  exact ⟨hl.finish, by omega, fun hexact => by rw [hfinish, hmost hexact, hstart]; omega⟩

end Costs

/-! ## Expressions -/

/-- Expressions that suit add the places at which they leave the name unresolved. -/
def Exprs (T : Tally) (lower : TypeExpr → LowerM TypeId) : Prop :=
  ∀ {l : Lowering} {type : TypeExpr}, T.At l → T.Suits type → T.Costs (T.places l type) l (lower type)

section

variable {lower : TypeExpr → LowerM TypeId} {name : String} {declared : Declared} {types : List TypeExpr}

theorem isSome_ofList_iff {pairs : List (String × TypeId)} :
    ((Dict.ofList pairs).get? name).isSome ↔ name ∈ pairs.map Prod.fst := by
  constructor
  · intro h
    obtain ⟨type, hget⟩ := Option.isSome_iff_exists.mp h
    exact List.mem_map.mpr ⟨_, Dict.mem_of_get?_ofList hget, rfl⟩
  · exact Dict.isSome_get?_ofList

/-- Pairs that are made for keys have these keys. -/
theorem fst_of_run_mapM {f : γ → LowerM (String × TypeId)} (key : γ → String)
    (h : ∀ x l pair l', (f x).run l = (.ok pair, l') → pair.1 = key x) {items : List γ}
    {pairs : List (String × TypeId)} (hrun : (items.mapM f).run l = (.ok pairs, l')) :
    pairs.map Prod.fst = items.map key := by
  induction items generalizing l pairs with
  | nil =>
    cases hrun
    rfl
  | cons x rest ih =>
    rw [List.mapM_cons] at hrun
    obtain ⟨pair, l₁, hfirst, hrun⟩ := ok_of_run_bind hrun
    obtain ⟨others, l₂, hrest, hrun⟩ := ok_of_run_bind hrun
    cases hrun
    rw [List.map_cons, List.map_cons, h x l pair l₁ hfirst, ih hrest]

/-- The type of a variable, with its name. -/
theorem costs_variablesOf (generics : List Descriptor) : T.Costs 0 l (variablesOf generics) :=
  .mapM_zero generics fun _ _ => (Costs.onTable _).andThen fun _ _ => .pure _

theorem fst_of_run_variablesOf {generics : List Descriptor} {pairs : List (String × TypeId)}
    (hrun : (variablesOf generics).run l = (.ok pairs, l')) :
    pairs.map Prod.fst = generics.map Descriptor.name := by
  refine fst_of_run_mapM Descriptor.name (fun descriptor l pair l' hpair => ?_) hrun
  obtain ⟨id, l₁, -, hpair⟩ := ok_of_run_bind hpair
  cases hpair
  rfl

theorem costs_bindParams (params : List String) (args : List TypeId) :
    T.Costs 0 l (bindParams params args) := by
  refine (Costs.mapM_zero params.zipIdx fun item l₁ => ?_).andThen fun _ _ => .pure _
  obtain ⟨param, i⟩ := item
  simp only
  split
  · exact .pure _
  · exact (Costs.onTable _).andThen fun _ _ => .pure _

/-- A declaration binds its parameters. -/
theorem isSome_of_run_bindParams {params : List String} {args : List TypeId} {typeVars : Dict TypeId}
    (hrun : (bindParams params args).run l = (.ok typeVars, l')) (name : String) :
    (typeVars.get? name).isSome ↔ name ∈ params := by
  obtain ⟨pairs, l₁, hpairs, hrun⟩ := ok_of_run_bind hrun
  cases hrun
  rw [isSome_ofList_iff, fst_of_run_mapM Prod.fst (fun item l pair l' hpair => ?_) hpairs,
    List.zipIdx_map_fst]
  obtain ⟨param, i⟩ := item
  simp only at hpair
  split at hpair
  · cases hpair
    rfl
  · obtain ⟨id, l₂, -, hpair⟩ := ok_of_run_bind hpair
    cases hpair
    rfl

/-! ### Declarations -/

/-- A declaration without parameters turns what is due for it into reports. -/
theorem Exprs.plain (h : T.Exprs lower) (hT : T.Sound) (hl : T.At l)
    (hget : T.declarations.get? name = some declared) (hparams : declared.params.isEmpty) :
    T.Costs 0 l (lowerPlain lower name declared.body) := by
  intro a l' hrun
  cases hfound : l.resolved.get? name with
  | some id =>
    rw [run_lowerPlain_known hfound] at hrun
    cases hrun
    exact .refl l
  | none =>
    by_cases hfree : name ∈ l.inProgress
    · rw [run_lowerPlain_inProgress hfound hfree] at hrun
      exact Costs.onTable _ a l' hrun
    rcases hbody : (lower declared.body).run (l.start name) with ⟨e | id, l₁⟩
    · rw [run_lowerPlain_error hfound hfree hbody] at hrun
      cases hrun
    rw [run_lowerPlain_ok hfound hfree hbody] at hrun
    cases hrun
    obtain ⟨hkept, hleast, hmost⟩ := h (hl.start name) (hT.bodies name declared hget) _ l₁ hbody
    rw [(hl.start name).places_plain hget hparams] at hleast hmost
    have hpending : l.pending name = true := by simp [Lowering.pending, hfound, hfree]
    have hstart := T.total_start l name
    rw [hT.dueOf_single hget hparams hpending] at hstart
    have hlearn := total_learn (T := T) a hkept
    have hnew : (l₁.finish name).resolved.get? name = none :=
      (hkept.waiting name List.mem_cons_self).trans hfound
    refine ⟨hkept.finish.learn hnew hfree, ?_, fun hexact => ?_⟩
    · omega
    · rw [hlearn, hmost hexact, hstart]
      rfl

/-- A declaration that is applied is lowered in the scope of its parameters. -/
theorem Exprs.applied (h : T.Exprs lower) (hT : T.Sound) (hl : T.At l)
    (hget : T.declarations.get? name = some declared) (hfree : appliedKey name ∉ l.inProgress)
    (args : List TypeId) :
    T.Costs (if T.name ∈ declared.params then 0 else T.places l declared.body) l
      (lowerApplied lower name declared args) := by
  have hbody : T.Costs (if T.name ∈ declared.params then 0 else T.places l declared.body) l
      (whileInProgress (appliedKey name) (bindParams declared.params args >>= fun typeVars =>
        withVariables typeVars (lower declared.body))) := by
    refine .whileInProgress (((costs_bindParams _ _).bind fun typeVars l₁ hrun hl₁ =>
      .withVariables ?_).of_eq (Nat.zero_add _))
    have hbound := isSome_of_run_bindParams hrun T.name
    have hpush : T.At (l₁.push typeVars) := by
      refine ((hl.start (appliedKey name)).leaves hl₁).push (hT.params.imp_right fun hparams => ?_)
      exact Option.not_isSome_iff_eq_none.mp fun hsome =>
        hparams name declared hget (hbound.mp hsome)
    refine (h hpush (hT.bodies name declared hget)).of_eq ?_
    rw [places_push, if_congr hbound rfl rfl, places_leaves hl₁]
    rfl
  have hcontains : l.inProgress.contains (appliedKey name) = false := by simpa using hfree
  refine Costs.get_bind ?_
  rw [hcontains]
  exact hbody

/-- A declaration that leaves the name unresolved is reported on once if it is not applied. -/
theorem Exprs.declaration (h : T.Exprs lower) (hT : T.Sound) (hl : T.At l) (args : List TypeId)
    (hsingle : T.exact → ∀ declared, T.declarations.get? name = some declared →
      declared.params.isEmpty = false → T.weight declared = 0) :
    T.Costs 0 l (lowerDeclaration lower name args) := by
  refine .get_bind ?_
  rw [hl.declarations]
  split
  · exact .pure _
  next declared hget =>
  split
  · next hparams => exact h.plain hT hl hget hparams
  · next hparams =>
    by_cases hfree : appliedKey name ∈ l.inProgress
    · refine .get_bind ?_
      rw [List.contains_iff_mem.mpr hfree, if_pos rfl]
      exact .onTable _
    · refine (h.applied hT hl hget hfree args).mono (Nat.zero_le _) fun hexact => ?_
      have hweight : (declared.body.unresolved T.known).count T.name = 0 :=
        hsingle hexact declared hget (by simpa using hparams)
      rw [places, hweight, ite_self, ite_self]

/-! ### One level -/

/-- The same for a list of expressions. -/
theorem Exprs.list (h : T.Exprs lower) (hl : T.At l) (hsuits : ∀ type ∈ types, T.Suits type) :
    T.Costs (types.map (T.places l)).sum l (types.mapM lower) :=
  .mapM fun type hmem _ hl₁ => (h (hl.leaves hl₁) (hsuits type hmem)).of_eq (places_leaves hl₁ type)

theorem Exprs.parts (h : T.Exprs lower) (hl : T.At l) {args : List TypeExpr} {this : Option TypeExpr}
    {result : TypeExpr} (hsuits : ∀ type ∈ args ++ this.toList ++ [result], T.Suits type) :
    T.Costs ((args ++ this.toList ++ [result]).map (T.places l)).sum l
      (lowerParts lower args this result) := by
  have hargs : T.Costs (args.map (T.places l)).sum l (args.mapM (lowerParam lower)) :=
    .mapM fun arg hmem l₁ hl₁ =>
      ((h (hl.leaves hl₁) (hsuits arg (by simp [hmem]))).of_eq (places_leaves hl₁ arg)).andThen
        fun _ _ => .pure _
  have hthis : ∀ l₁, l.Leaves l₁ → T.Costs (this.toList.map (T.places l)).sum l₁
      (lowerOptional lower this) := by
    intro l₁ hl₁
    cases this with
    | none => exact .pure _
    | some this =>
      refine ((h (hl.leaves hl₁) (hsuits this (by simp))).andThen fun _ _ => .pure _).of_eq ?_
      simp [places_leaves hl₁]
  have hresult : ∀ l₁, l.Leaves l₁ → T.Costs (T.places l result) l₁ (lower result) := fun l₁ hl₁ =>
    (h (hl.leaves hl₁) (hsuits result (by simp))).of_eq (places_leaves hl₁ result)
  refine (hargs.bind fun params l₁ _ hl₁ => (hthis l₁ hl₁).bind fun this l₂ _ hl₂ =>
    (hresult l₂ (hl₁.trans hl₂)).andThen fun _ _ => .pure _).of_eq ?_
  simp only [List.map_append, List.sum_append, List.map_singleton, List.sum_singleton]
  omega

theorem costs_functionOf (generics : List Descriptor) (brand : String)
    (parts : List Types.Param × Option TypeId × TypeId) :
    T.Costs 0 l (functionOf generics brand parts) := by
  have hlocations : T.Costs 0 l (generics.mapM fun descriptor =>
      (ExceptT.mk (pure (lowerOccurrence descriptor)) : LowerM Types.Occurrence)) :=
    .mapM_zero generics fun _ _ => .except _
  refine hlocations.andThen fun occurrences l₁ => (Costs.onTable _).andThen fun id l₂ => .get_bind ?_
  exact (Costs.forM fun _ _ _ => .except _).andThen fun _ _ => .pure _

theorem Exprs.function (h : T.Exprs lower) (hl : T.At l) {args : List TypeExpr} {result : TypeExpr}
    {this : Option TypeExpr} {label : Option String} {optional : Bool} {generics : List Descriptor}
    {brand : String} (hs : T.Suits (.function args result this label optional generics brand)) :
    T.Costs (T.places l (.function args result this label optional generics brand)) l
      (lowerFunction lower args result this generics brand) := by
  have hparts : ∀ type ∈ args ++ this.toList ++ [result], T.Suits type := fun type hmem => hs.part hmem
  rw [lowerFunction_eq, places_parts rfl]
  refine ((costs_variablesOf generics).bind fun pairs l₁ hrun hl₁ => ?_).of_eq (Nat.zero_add _)
  refine Costs.andThen ?_ fun parts l₂ => costs_functionOf generics brand parts
  have hsum : ((args ++ this.toList ++ [result]).map (T.places l₁)).sum =
      ((args ++ this.toList ++ [result]).map (T.places l)).sum := by
    rw [funext fun type => places_leaves (T := T) hl₁ type]
  by_cases hempty : generics.isEmpty
  · have hnone : T.name ∉ generics.map Descriptor.name := by simp [List.isEmpty_iff.mp hempty]
    rw [if_pos hempty]
    refine (h.parts (hl.leaves hl₁) hparts).of_eq ?_
    rw [hsum]
    exact (if_neg hnone).symm
  · rw [if_neg hempty]
    have hbound : ((Dict.ofList pairs).get? T.name).isSome ↔ T.name ∈ generics.map Descriptor.name := by
      rw [isSome_ofList_iff, fst_of_run_variablesOf hrun]
    have hpush : T.At (l₁.push (Dict.ofList pairs)) := by
      refine (hl.leaves hl₁).push (hs.unbound.imp_right fun hfree => ?_)
      exact Option.not_isSome_iff_eq_none.mp fun hsome =>
        hfree _ (TypeExpr.self_mem_nodes _) (hbound.mp hsome)
    refine .withVariables ((h.parts hpush hparts).of_eq ?_)
    rw [funext fun type => places_push (T := T) l₁ (Dict.ofList pairs) type]
    by_cases hname : T.name ∈ generics.map Descriptor.name
    · simp only [hbound.mpr hname, if_true]
      exact (by simp : ((args ++ this.toList ++ [result]).map fun _ => 0).sum = 0).trans
        (if_pos hname).symm
    · have hnone : ((Dict.ofList pairs).get? T.name).isSome = false := by
        rw [Bool.eq_false_iff]
        exact fun hsome => hname (hbound.mp hsome)
      simp only [hnone, Bool.false_eq_true, if_false]
      exact hsum.trans (if_neg hname).symm

/-- A name is reported where it stands for nothing. -/
theorem Exprs.literal (h : T.Exprs lower) (hT : T.Sound) (hl : T.At l) {name : String}
    {builtin : Option Bool} {label : Option String} {optional : Bool}
    (hs : T.Suits (.literal name builtin label optional)) :
    T.Costs (T.places l (.literal name builtin label optional)) l
      (lowerLiteral lower name (builtin.getD (isBuiltinName name))) := by
  have hnone : (l.binding? name).isSome ∨ (builtin.getD (isBuiltinName name) || T.known name) = true →
      T.places l (.literal name builtin label optional) = 0 := by
    rintro (hbound | hknown)
    · by_cases heq : name = T.name
      · rw [places, ← heq, hbound, if_pos rfl]
      · rw [places, TypeExpr.unresolved]
        split
        · rfl
        split
        · rfl
        · rw [List.count_singleton, if_neg (by simpa using heq)]
    · exact places_known hknown l
  refine .get_bind ?_
  split
  · next bound hbinding =>
    exact (Costs.pure bound).of_eq (hnone (.inl (by rw [hbinding]; rfl))).symm
  next hbinding =>
  rw [hl.declarations, hl.imported]
  split
  · next hbuiltin =>
    refine (Costs.onTable _).of_eq (hnone (.inr ?_)).symm
    rw [known]
    cases hflag : builtin.getD (isBuiltinName name) <;> simp_all
  next hbuiltin =>
  split
  · next hdeclared =>
    refine (h.declaration hT hl [] fun hexact => ?_).of_eq (hnone (.inr (by simp [known, hdeclared]))).symm
    exact fun declared => hs.single hexact _ (TypeExpr.self_mem_nodes _) name declared rfl
  next hdeclared =>
  split
  · next imported himported =>
    refine (Costs.pure imported).of_eq (hnone (.inr ?_)).symm
    simp [known, Dict.contains, himported]
  next himported =>
  have hunknown : ¬(builtin.getD (isBuiltinName name) || T.known name) = true := by
    simp_all [known, Dict.contains]
  intro a l' hrun
  cases hrun
  refine .of_total ⟨rfl, rfl, rfl, rfl, rfl, fun _ _ => id, fun _ _ => rfl⟩ ?_
  have hcount : (l.diagnostics ++ [unknownName l.path name]).count (unknownName l.path T.name) =
      l.diagnostics.count (unknownName l.path T.name) + if name = T.name then 1 else 0 := by
    rw [List.count_append, List.count_singleton]
    simp only [beq_iff_eq, unknownName_inj]
  have hplaces : T.places l (.literal name builtin label optional) = if name = T.name then 1 else 0 := by
    rw [places, TypeExpr.unresolved, if_neg hunknown, List.count_singleton]
    by_cases heq : name = T.name
    · rw [← heq, hbinding]
      simp
    · simp [heq]
  rw [hplaces]
  change (l.diagnostics ++ [unknownName l.path name]).count (unknownName l.path T.name) +
    T.dueOf l.pending = T.total l + _
  rw [hcount, total]
  omega

/-- What is applied is lowered after its arguments. A declaration is no unresolved name. -/
theorem Exprs.generic (h : T.Exprs lower) (hT : T.Sound) (hl : T.At l) {base : TypeExpr}
    {args : List TypeExpr} {label : Option String} (hs : T.Suits (.generic base args label)) :
    T.Costs (T.places l (.generic base args label)) l (lowerGeneric lower base args) := by
  have hargs := h.list hl fun type hmem => hs.part (List.mem_cons_of_mem base hmem)
  have hbase : T.Suits base := hs.part List.mem_cons_self
  refine (hargs.bind fun ids l₁ _ hl₁ => Costs.get_bind (k := T.places l base) ?_).of_eq ?_
  · simp only
    split
    · next name happlied =>
      cases base with
      | literal other builtin label optional =>
        simp only [Option.ite_none_right_eq_some, Option.some.injEq, Bool.and_eq_true] at happlied
        obtain ⟨⟨-, hdeclared⟩, rfl⟩ := happlied
        rw [(hl.leaves hl₁).declarations] at hdeclared
        rw [places_known (by simp [known, hdeclared])]
        exact h.declaration hT (hl.leaves hl₁) ids fun hexact declared =>
          hbase.single hexact _ (TypeExpr.self_mem_nodes _) other declared rfl
      | _ => cases happlied
    · exact ((h (hl.leaves hl₁) hbase).of_eq (places_leaves hl₁ base)).andThen fun _ _ => .onTable _
  · have hplaces : T.places l (.generic base args label) =
        ((base :: args).map (T.places l)).sum := (places_parts rfl l).trans (if_neg List.not_mem_nil)
    rw [hplaces, List.map_cons, List.sum_cons, Nat.add_comm]

/-- One level of an expression adds its places when its parts do. -/
theorem Exprs.level (h : T.Exprs lower) (hT : T.Sound) : T.Exprs (lowerLevel lower) := by
  intro l type hl hs
  -- an expression that binds nothing, made of its parts
  have hmade : ∀ {made : LowerM TypeId}, type.variables = [] → type.name? = none →
      T.Costs (type.parts.map (T.places l)).sum l made → T.Costs (T.places l type) l made := by
    intro made hvariables hname hcosts
    refine hcosts.of_eq ?_
    rw [places_parts hname, hvariables, if_neg List.not_mem_nil]
  have hparts : ∀ part ∈ type.parts, T.Suits part := fun part hpart => hs.part hpart
  cases type with
  | literal name builtin label optional => exact h.literal hT hl hs
  | generic base args label => exact h.generic hT hl hs
  | function args result this label optional generics brand => exact h.function hl hs
  | value value name label => exact hmade rfl rfl (Costs.onTable fun t => t.value value)
  | free name => exact hmade rfl rfl (Costs.onTable fun t => t.free name)
  | object fields label optional isOpen brand =>
    refine hmade rfl rfl (Costs.andThen ?_ fun _ _ => .onTable _)
    rw [TypeExpr.parts, List.map_map]
    refine .mapM fun field hmem l₁ hl₁ => Costs.andThen ?_ fun _ _ => .pure _
    exact (h (hl.leaves hl₁) (hparts field.value (List.mem_map_of_mem hmem))).of_eq
      (places_leaves hl₁ field.value)
  | union members label optional =>
    exact hmade rfl rfl ((h.list hl hparts).andThen fun _ _ => .onTable _)
  | intersection members label optional =>
    exact hmade rfl rfl ((h.list hl hparts).andThen fun _ _ => .onTable _)
  | tuple elements label optional =>
    exact hmade rfl rfl ((h.list hl hparts).andThen fun _ _ => .onTable _)
  | renamed name builtin target label optional =>
    refine hmade rfl rfl (Costs.andThen ?_ fun _ _ => .onTable _)
    exact (h hl (hparts target List.mem_cons_self)).of_eq (by simp [TypeExpr.parts])

end

theorem costs_lowerWithin (hT : T.Sound) (fuel : Nat) : T.Exprs (lowerWithin fuel) := by
  induction fuel with
  | zero => exact fun _ _ => .throw .outOfFuel
  | succ fuel ih => exact ih.level hT

end Tally

end HeaderCheck.Header
