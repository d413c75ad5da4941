import HeaderCheck.Proofs.Header.Tally

/-!
# HeaderCheck.Proofs.Header.Unknown

How often the unknown names of a header are reported.

* `unresolvedNames`: the names that stand for nothing in a header, once for each place.
* `Uncaptured`, `Unapplied`: a name is not taken for a type variable of another declaration, and no
  declaration that leaves it unresolved is applied.
* `unknown_names_reported`: an uncaptured name is reported once for each place at least, and not again
  unless a declaration that leaves it unresolved is applied.
-/

namespace HeaderCheck.Header

open HeaderCheck.Report (Diagnostic)
open HeaderCheck.Signature
open HeaderCheck.Types (Table TypeId)

variable {α β γ : Type} {l l' : Lowering}

/-! ## Names in a header -/

/-- Whether a name that is no type variable stands for something in a header. -/
def stands (header : Header) (imported : Dict TypeId) (name : String) : Bool :=
  Table.sentinelNames.contains name || (declarationsOf header).contains name || imported.contains name

/-- The names that a declaration leaves unresolved, its parameters apart. -/
def Declared.unresolved (known : String → Bool) (declared : Declared) : List String :=
  (declared.body.unresolved known).filter fun name => !declared.params.contains name

/-- The names that a statement leaves unresolved. -/
def statementUnresolved (known : String → Bool) : Statement → List String
  | .declaration _ body generics =>
    Declared.unresolved known ⟨generics.filterMap paramName?, body⟩
  | .assignment _ type => type.unresolved known
  | .imports .. | .comment _ => []

/-- The names that stand for nothing in a header with these imports, once for each place. -/
def unresolvedNames (header : Header) (imported : Dict TypeId) : List String :=
  header.statements.flatMap (statementUnresolved (stands header imported))

/-- The type expression of a statement. -/
def expression? : Statement → Option TypeExpr
  | .declaration _ body _ => some body
  | .assignment _ type => some type
  | .imports .. | .comment _ => none

/-- All type expressions of a header, and all expressions in them. -/
def nodesOf (header : Header) : List TypeExpr :=
  (header.statements.filterMap expression?).flatMap TypeExpr.nodes

/-- The type variables of a header: parameters of declarations and variables of functions. -/
def variablesIn (header : Header) : List String :=
  (declarationsOf header).entries.flatMap (fun entry => entry.2.params) ++
    (nodesOf header).flatMap TypeExpr.variables

/-- No declaration without parameters leaves the name unresolved, or it is no type variable. -/
def Uncaptured (header : Header) (imported : Dict TypeId) (name : String) : Prop :=
  (∀ entry ∈ (declarationsOf header).entries, entry.2.params.isEmpty →
    name ∉ entry.2.body.unresolved (stands header imported)) ∨ name ∉ variablesIn header

/-- No declaration with parameters that leaves the name unresolved is named. -/
def Unapplied (header : Header) (imported : Dict TypeId) (name : String) : Prop :=
  ∀ entry ∈ (declarationsOf header).entries, entry.2.params.isEmpty = false →
    name ∈ entry.2.body.unresolved (stands header imported) →
      entry.1 ∉ (nodesOf header).filterMap TypeExpr.name?

instance (header : Header) (imported : Dict TypeId) (name : String) :
    Decidable (Uncaptured header imported name) :=
  inferInstanceAs (Decidable (_ ∨ _))

instance (header : Header) (imported : Dict TypeId) (name : String) :
    Decidable (Unapplied header imported name) :=
  inferInstanceAs (Decidable (∀ entry ∈ (declarationsOf header).entries, _ → _ → _))

/-! ## Dictionaries of lists without repetition -/

theorem entries_ofList {pairs : List (String × α)} (h : (pairs.map Prod.fst).Nodup) :
    (Dict.ofList pairs).entries = pairs := by
  suffices hfold : ∀ d : Dict α, (d.keys ++ pairs.map Prod.fst).Nodup →
      (pairs.foldl (fun d pair => d.insert pair.1 pair.2) d).entries = d.entries ++ pairs from
    hfold .empty h
  clear h
  induction pairs with
  | nil => exact fun d _ => (List.append_nil _).symm
  | cons first rest ih =>
    intro d h
    rw [List.map_cons, List.nodup_append] at h
    have hnew : d.get? first.1 = none :=
      Dict.get?_eq_none_iff.mpr fun hmem => h.2.2 _ hmem _ List.mem_cons_self rfl
    have hentries : (d.insert first.1 first.2).entries = d.entries ++ [first] :=
      Dict.entries_insert hnew first.2
    rw [List.foldl_cons, ih, hentries, List.append_assoc, List.singleton_append]
    rw [Dict.keys, hentries, List.map_append, List.append_assoc, List.map_singleton]
    exact List.nodup_append.mpr h

/-! ## Parts of a run -/

/-- Work that leaves what it must leaves it for all members of a list. -/
theorem leaves_of_run_mapM {f : γ → LowerM β} {items : List γ} {results : List β}
    (h : ∀ x ∈ items, ∀ l₁ a l₂, l.Leaves l₁ → (f x).run l₁ = (.ok a, l₂) → l₁.Leaves l₂)
    (hrun : (items.mapM f).run l = (.ok results, l')) : l.Leaves l' := by
  induction items generalizing l results with
  | nil =>
    cases hrun
    exact .refl _
  | cons y rest ih =>
    rw [List.mapM_cons] at hrun
    obtain ⟨first, l₁, hfirst, hrun⟩ := ok_of_run_bind hrun
    obtain ⟨others, l₂, hrest, hrun⟩ := ok_of_run_bind hrun
    cases hrun
    have hl₁ := h y List.mem_cons_self l first l₁ (.refl l) hfirst
    exact hl₁.trans (ih (fun x hx l₂ a l₃ hl₂ => h x (List.mem_cons_of_mem _ hx) l₂ a l₃
      (hl₁.trans hl₂)) hrest)

/-- Each member of the list gets its turn. -/
theorem exists_run_of_mem {f : γ → LowerM β} {items : List γ} {results : List β}
    (h : ∀ x ∈ items, ∀ l₁ a l₂, l.Leaves l₁ → (f x).run l₁ = (.ok a, l₂) → l₁.Leaves l₂)
    (hrun : (items.mapM f).run l = (.ok results, l')) {x : γ} (hx : x ∈ items) :
    ∃ l₁ a l₂, l.Leaves l₁ ∧ (f x).run l₁ = (.ok a, l₂) ∧ l₂.Leaves l' := by
  induction items generalizing l results with
  | nil => cases hx
  | cons y rest ih =>
    rw [List.mapM_cons] at hrun
    obtain ⟨first, l₁, hfirst, hrun⟩ := ok_of_run_bind hrun
    obtain ⟨others, l₂, hrest, hrun⟩ := ok_of_run_bind hrun
    cases hrun
    have hl₁ := h y List.mem_cons_self l first l₁ (.refl l) hfirst
    have hlater : ∀ z ∈ rest, ∀ l₂ a l₃, l₁.Leaves l₂ → (f z).run l₂ = (.ok a, l₃) → l₂.Leaves l₃ :=
      fun z hz l₂ a l₃ hl₂ => h z (List.mem_cons_of_mem _ hz) l₂ a l₃ (hl₁.trans hl₂)
    rcases List.mem_cons.mp hx with rfl | hx
    · exact ⟨l, first, l₁, .refl l, hfirst, leaves_of_run_mapM hlater hrest⟩
    · obtain ⟨l₃, a, l₄, hl₃, hturn, hl₄⟩ := ih hlater hrest hx
      exact ⟨l₃, a, l₄, hl₁.trans hl₃, hturn, hl₄⟩

/-! ## The tally of a header -/

/-- What is counted of a name in a header. -/
def tallyOf (header : Header) (imported : Dict TypeId) (name : String) : Tally :=
  { name, declarations := declarationsOf header, imported
    exact := Unapplied header imported name }

/-- A lowering in which nothing is in scope or in progress. -/
structure Idle (T : Tally) (l : Lowering) : Prop where
  declarations : l.declarations = T.declarations
  imported : l.imported = T.imported
  typeVars : l.typeVars = []
  inProgress : l.inProgress = []

section

variable {T : Tally} {header : Header} {imported : Dict TypeId} {name : String} {declared : Declared}

theorem Idle.leaves (h : Idle T l) (hl : l.Leaves l') : Idle T l' :=
  ⟨hl.declarations.trans h.declarations, hl.imported.trans h.imported, hl.typeVars.trans h.typeVars,
    hl.inProgress.trans h.inProgress⟩

theorem Idle.binding?_eq (h : Idle T l) (name : String) : l.binding? name = none := by
  rw [Lowering.binding?, h.typeVars]
  rfl

theorem Idle.at (h : Idle T l) : T.At l :=
  ⟨h.declarations, h.imported, .inr (h.binding?_eq T.name)⟩

theorem Idle.places_eq (h : Idle T l) (type : TypeExpr) :
    T.places l type = (type.unresolved T.known).count T.name := by
  rw [Tally.places, h.binding?_eq]
  rfl

theorem count_declared (T : Tally) (declared : Declared) :
    (declared.unresolved T.known).count T.name =
      if T.name ∈ declared.params then 0 else T.weight declared := by
  rw [Declared.unresolved]
  split
  · next hparam =>
    rw [List.count_eq_zero, List.mem_filter]
    simp [hparam]
  · next hfree => exact List.count_filter (by simpa using hfree)

/-- What a declaration adds when it gets its turn: what is left of its places if it has parameters. -/
def turnCost (T : Tally) (declared : Declared) : Nat :=
  if declared.params.isEmpty then 0 else (declared.unresolved T.known).count T.name

/-- A declaration without parameters is paid for in advance. -/
theorem turnCost_add (T : Tally) (declared : Declared) :
    turnCost T declared + (if declared.params.isEmpty then T.weight declared else 0) =
      (declared.unresolved T.known).count T.name := by
  rw [turnCost]
  split
  · next hparams =>
    rw [count_declared, List.isEmpty_iff.mp hparams, if_neg List.not_mem_nil, Nat.zero_add]
  · rfl

theorem Idle.turn (h : Idle T l) (hT : T.Sound) (hget : T.declarations.get? name = some declared)
    (fuel : Nat) :
    T.Costs (turnCost T declared) l (typed (lowerDeclaration (lowerWithin fuel)) name) := by
  refine Tally.Costs.andThen ?_ fun _ _ => .pure _
  have hexprs : T.Exprs (lowerWithin fuel) := Tally.costs_lowerWithin hT fuel
  refine .get_bind ?_
  rw [h.declarations, hget, turnCost]
  simp only
  split
  · next hparams => exact hexprs.plain hT h.at hget hparams
  · refine (hexprs.applied hT h.at hget (h.inProgress ▸ List.not_mem_nil) []).of_eq ?_
    rw [count_declared, h.places_eq]
    rfl

/-- The turns of all declarations. -/
theorem Idle.turns (h : Idle T l) (hT : T.Sound) (fuel : Nat) :
    T.Costs (T.declarations.entries.map fun entry => turnCost T entry.2).sum l
      (T.declarations.keys.mapM (typed (lowerDeclaration (lowerWithin fuel)))) := by
  rw [Dict.keys, List.mapM_map]
  exact .mapM fun entry hmem l₁ hl₁ =>
    (h.leaves hl₁).turn hT (Dict.get?_of_mem hT.distinct hmem) fuel

/-- All declarations without parameters are found. -/
def Found (T : Tally) (l : Lowering) : Prop :=
  ∀ entry ∈ T.declarations.entries, entry.2.params.isEmpty → l.Knows entry.1

theorem Found.leaves (h : Found T l) (hl : l.Leaves l') : Found T l' :=
  fun entry hmem hparams => Lowering.knows_mono hl.resolved entry.1 (h entry hmem hparams)

/-- Nothing is due when they are. -/
theorem Found.dueOf_eq (h : Found T l) : T.dueOf l.pending = 0 := by
  have hnone : T.declarations.entries.filter
      (fun entry => entry.2.params.isEmpty && l.pending entry.1) = [] := by
    refine List.filter_eq_nil_iff.mpr fun entry hmem hdue => ?_
    rw [Bool.and_eq_true] at hdue
    obtain ⟨type, hfound⟩ := Option.isSome_iff_exists.mp (h entry hmem hdue.1)
    simp [Lowering.pending, hfound] at hdue
  rw [Tally.dueOf, hnone]
  rfl

/-- They are after the turns of all declarations. -/
theorem Idle.found (h : Idle T l) (hT : T.Sound) (fuel : Nat) {pairs : List (String × TypeId)}
    (hrun : (T.declarations.keys.mapM (typed (lowerDeclaration (lowerWithin fuel)))).run l =
      (.ok pairs, l')) : Found T l' := by
  intro entry hmem hparams
  have hsteps : ∀ name ∈ T.declarations.keys, ∀ l₁ pair l₂, l.Leaves l₁ →
      (typed (lowerDeclaration (lowerWithin fuel)) name).run l₁ = (.ok pair, l₂) → l₁.Leaves l₂ := by
    intro name hname l₁ pair l₂ hl₁ hturn
    obtain ⟨declared, hget⟩ := Dict.mem_keys_iff.mp hname
    exact ((h.leaves hl₁).turn hT hget fuel pair l₂ hturn).leaves
  obtain ⟨l₁, pair, l₂, hl₁, hturn, hl₂⟩ :=
    exists_run_of_mem hsteps hrun (List.mem_map_of_mem hmem : entry.1 ∈ T.declarations.keys)
  obtain ⟨id, l₃, hlowered, hpair⟩ := ok_of_run_bind hturn
  cases hpair
  have hidle := h.leaves hl₁
  have hget := Dict.get?_of_mem hT.distinct hmem
  have hknows : l₂.Knows entry.1 := knows_of_run (by rw [hidle.declarations, hget]) hparams
    (hidle.inProgress ▸ List.not_mem_nil) hlowered
  exact Lowering.knows_mono hl₂.resolved entry.1 hknows

/-- The turns and what is due at the beginning make up the places of all declarations. -/
theorem turnCosts_add_due (T : Tally) :
    (T.declarations.entries.map fun entry => turnCost T entry.2).sum + T.dueOf (fun _ => true) =
      (T.declarations.entries.map fun entry => (entry.2.unresolved T.known).count T.name).sum := by
  simp only [Tally.dueOf, Bool.and_true]
  induction T.declarations.entries with
  | nil => rfl
  | cons first rest ih =>
    have hfirst := turnCost_add T first.2
    cases hparams : first.2.params.isEmpty <;> rw [hparams] at hfirst <;>
      simp only [List.filter_cons, hparams, List.map_cons, List.sum_cons, if_true,
        Bool.false_eq_true, if_false] at hfirst ⊢ <;>
      omega

theorem body_mem_of_get? (hget : (declarationsOf header).get? name = some declared) :
    declared.body ∈ header.statements.filterMap expression? := by
  obtain ⟨statement, hstatement, hdeclaration⟩ := List.mem_filterMap.mp (Dict.mem_of_get?_ofList hget)
  refine List.mem_filterMap.mpr ⟨statement, hstatement, ?_⟩
  cases statement <;> cases hdeclaration
  rfl

/-- The type expressions of a header suit its tally. -/
theorem sound_tallyOf (hdistinct : (declarationsOf header).keys.Nodup)
    (huncaptured : Uncaptured header imported name) :
    (tallyOf header imported name).Sound ∧
      ∀ type ∈ header.statements.filterMap expression?, (tallyOf header imported name).Suits type := by
  have hclear : (tallyOf header imported name).PlainClear ∨ name ∉ variablesIn header :=
    huncaptured.imp_left fun hall other declared hget hparams =>
      List.count_eq_zero.mpr (hall _ (Dict.mem_entries_of_get? hget) hparams)
  have hsuits : ∀ type ∈ header.statements.filterMap expression?,
      (tallyOf header imported name).Suits type := by
    intro type htype
    have hnodes : ∀ node ∈ type.nodes, node ∈ nodesOf header := fun node hnode =>
      List.mem_flatMap.mpr ⟨type, htype, hnode⟩
    constructor
    · refine hclear.imp_right fun hfree node hnode hbound => hfree (List.mem_append_right _ ?_)
      exact List.mem_flatMap.mpr ⟨node, hnodes node hnode, hbound⟩
    · intro hunapplied node hnode other declared hother hget hparams
      refine List.count_eq_zero.mpr fun hleft => ?_
      exact hunapplied _ (Dict.mem_entries_of_get? hget) hparams hleft
        (List.mem_filterMap.mpr ⟨node, hnodes node hnode, hother⟩)
  refine ⟨⟨hdistinct, fun other declared hget => hsuits _ (body_mem_of_get? hget),
    hclear.imp_right fun hfree other declared hget hparam => hfree ?_⟩, hsuits⟩
  exact List.mem_append_left _
    (List.mem_flatMap.mpr ⟨(other, declared), Dict.mem_entries_of_get? hget, hparam⟩)

/-- An assignment adds the places of its type. -/
theorem Idle.assignment (h : Idle T l) (hT : T.Sound) {type : TypeExpr} (hs : T.Suits type) (fuel : Nat)
    (name : String) :
    T.Costs ((type.unresolved T.known).count T.name) l (lowerAssignment fuel name type) := by
  rw [lowerAssignment]
  split
  · exact .throw _
  refine (Tally.costs_lowerWithin hT fuel h.at hs).of_eq (h.places_eq type) |>.andThen fun id l₁ => ?_
  split
  · exact (Tally.Costs.onTable _).andThen fun _ _ => .pure _
  · exact .pure _

/-- The places of a header are those of its declarations and of its assignments. -/
theorem count_statements (T : Tally) (statements : List Statement) :
    (statements.flatMap (statementUnresolved T.known)).count T.name =
      ((statements.filterMap declaration?).map fun entry =>
        (entry.2.unresolved T.known).count T.name).sum +
      ((statements.filterMap assignment?).map fun a => (a.2.unresolved T.known).count T.name).sum := by
  induction statements with
  | nil => rfl
  | cons statement rest ih =>
    rw [List.flatMap_cons, List.count_append, ih]
    cases statement <;>
      simp only [statementUnresolved, List.filterMap_cons, declaration?, assignment?, List.map_cons,
        List.sum_cons, List.count_nil] <;>
      omega

/-- From the beginning of a header, its declarations and assignments add their places. -/
theorem total_lowerStatements {start last : Lowering} {lowered : Lowered} (hstart : start.Begins header)
    (hT : T.Sound) (hidle : Idle T start)
    (hdeclarations : T.declarations.entries = header.statements.filterMap declaration?)
    (hsuits : ∀ a ∈ assignmentsOf header, T.Suits a.2)
    (hrun : (lowerStatements header).run start = (.ok lowered, last)) :
    let reports := fun diagnostics : List Diagnostic =>
      diagnostics.count (unknownName start.path T.name)
    let places := (header.statements.flatMap (statementUnresolved T.known)).count T.name
    reports start.diagnostics + places ≤ reports lowered.diagnostics ∧
      (T.exact → reports lowered.diagnostics = reports start.diagnostics + places) := by
  rw [run_lowerStatements hstart.declarations] at hrun
  obtain ⟨pairs, l₁, hturns, hrun⟩ := ok_of_run_bind hrun
  obtain ⟨bindings, l₂, hassignments, hrun⟩ := ok_of_run_bind hrun
  cases hrun
  rw [lowerDeclarations, ← hstart.declarations, hidle.declarations] at hturns
  rw [lowerAssignments_eq] at hassignments
  obtain ⟨hl₁, hleast, hmost⟩ := hidle.turns hT (header.size + 1) pairs l₁ hturns
  have hcosts : T.Costs ((assignmentsOf header).map fun a => (a.2.unresolved T.known).count T.name).sum
      l₁ ((assignmentsOf header).mapM fun a => lowerAssignment (header.size + 1) a.1 a.2) :=
    .mapM fun a ha l₂ hl₂ => ((hidle.leaves hl₁).leaves hl₂).assignment hT (hsuits a ha) _ _
  obtain ⟨hl₂, hleast', hmost'⟩ := hcosts bindings last hassignments
  -- all declarations without parameters are due at the beginning, and none is at the end
  have hfirst : T.total start =
      start.diagnostics.count (unknownName start.path T.name) + T.dueOf fun _ => true := by
    have hpending : start.pending = fun _ => true := by
      funext name
      simp [Lowering.pending, hstart.resolved, hstart.inProgress, Dict.get?, Dict.lookup]
    rw [Tally.total, hpending]
  have hlast : T.total last = last.diagnostics.count (unknownName start.path T.name) := by
    rw [Tally.total, ((hidle.found hT _ hturns).leaves hl₂).dueOf_eq, hl₂.path, hl₁.path]
    rfl
  have hplaces := count_statements T header.statements
  have hdue := turnCosts_add_due T
  rw [hdeclarations] at hleast hmost hdue
  simp only [assignmentsOf] at hleast' hmost'
  dsimp only
  constructor
  · omega
  · intro hexact
    have hturned := hmost hexact
    have hassigned := hmost' hexact
    omega

end

/-- An unknown name is reported once for each place in a header at which it stands, and not again if no
declaration that leaves it unresolved is applied, provided that it is no type variable where a
declaration without parameters leaves it unresolved, and no name is declared twice. -/
theorem unknown_names_reported {header : Header} {start last : Lowering} {lowered : Lowered}
    {name : String} (hstart : start.Begins header)
    (hdistinct : ((header.statements.filterMap declaration?).map Prod.fst).Nodup)
    (huncaptured : Uncaptured header start.imported name)
    (hrun : (lowerStatements header).run start = (.ok lowered, last)) :
    let reports := fun diagnostics : List Diagnostic => diagnostics.count (unknownName start.path name)
    let places := (unresolvedNames header start.imported).count name
    reports start.diagnostics + places ≤ reports lowered.diagnostics ∧
      (Unapplied header start.imported name →
        reports lowered.diagnostics = reports start.diagnostics + places) := by
  have hentries : (declarationsOf header).entries = header.statements.filterMap declaration? :=
    entries_ofList hdistinct
  have hkeys : (declarationsOf header).keys.Nodup := by rwa [Dict.keys, hentries]
  obtain ⟨hT, hsuits⟩ := sound_tallyOf hkeys huncaptured
  have hassigned : ∀ a ∈ assignmentsOf header, (tallyOf header start.imported name).Suits a.2 := by
    intro a ha
    obtain ⟨statement, hstatement, hassigned⟩ := List.mem_filterMap.mp ha
    refine hsuits a.2 (List.mem_filterMap.mpr ⟨statement, hstatement, ?_⟩)
    cases statement <;> cases hassigned
    rfl
  exact total_lowerStatements hstart hT
    ⟨hstart.declarations, rfl, hstart.typeVars, hstart.inProgress⟩ hentries hassigned hrun

/-- `Pair<T>` is `{ left: T, tag: Tag }`, and `Tag` is `{ of: Missing }`. `Pair` is applied twice, and
`Missing` is assigned, too. -/
def pairing : Header :=
  Build.header <| tagged.statements ++ [
    Build.assignment "strings" (Build.generic (Build.literal "Pair") [Build.literal "String"]),
    Build.assignment "tags" (Build.generic (Build.literal "Pair") [Build.literal "Tag"]),
    Build.assignment "other" (Build.literal "Missing")]

/-- `Tag` is reached three times, and `Missing` is reported for its two places. -/
theorem unknown_names_reported_pairing :
    ∃ lowered last, (lowerStatements pairing).run (beginning "/p.hjs" pairing) = (.ok lowered, last) ∧
      unresolvedNames pairing {} = ["Missing", "Missing"] ∧
      lowered.diagnostics.count (unknownName "/p.hjs" "Missing") = 2 := by
  have hplaces : unresolvedNames pairing {} = ["Missing", "Missing"] := by decide +kernel
  have hgoes : ((lowerStatements pairing).run (beginning "/p.hjs" pairing)).1.toOption.isSome := by
    decide +kernel
  rcases hrun : (lowerStatements pairing).run (beginning "/p.hjs" pairing) with ⟨e | lowered, last⟩
  · rw [hrun] at hgoes
    cases hgoes
  · refine ⟨lowered, last, rfl, hplaces, ?_⟩
    have hreports := (@unknown_names_reported pairing (beginning "/p.hjs" pairing) last lowered
      "Missing" (begins_beginning _ _) (by decide +kernel) (by decide +kernel) hrun).2
      (by decide +kernel)
    exact hreports.trans (congrArg (fun names : List String => 0 + names.count "Missing") hplaces)

/-- `Box<T>` is `{ of: T, mark: Missing }`, and `x` is a `Box<String>`. -/
def marking : Header :=
  Build.header [
    Build.declaration "Box" ["T"]
      (Build.object [("of", Build.literal "T"), ("mark", Build.literal "Missing")]),
    Build.assignment "x" (Build.generic (Build.literal "Box") [Build.literal "String"])]

/-- `Missing` stands at one place, and is reported when `Box` gets its turn and when it is applied. -/
theorem unknown_name_reported_again :
    unresolvedNames marking {} = ["Missing"] ∧
      ((lowerStatements marking).run (beginning "/app/main.hjs" marking)).1.toOption.map
        Lowered.diagnostics =
          some [unknownName "/app/main.hjs" "Missing", unknownName "/app/main.hjs" "Missing"] := by
  decide +kernel

end HeaderCheck.Header
