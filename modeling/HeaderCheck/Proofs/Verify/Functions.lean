import HeaderCheck.Proofs.Types.Growth
import HeaderCheck.Proofs.Verify.Visiting

/-!
# HeaderCheck.Proofs.Verify.Functions

Functions, declared ones, expressions, and those that a call gives a type to.

* `runs_verifyFunction`: a body is entered in a new scope, and the nodes in bodies that are left to
  enter become fewer by those of this body.
* `runs_infer`: a function that a call gives a type to. In a tidy program the function that gets the
  type is the one whose body is entered, and no scope has been made for it.
-/

namespace HeaderCheck.Verify

open HeaderCheck.Scope (Arena FunctionInfo ScopeId UntypedFunction)
open HeaderCheck.Script
open HeaderCheck.Types (FunctionShape Param Table TypeId)

variable {S : Setting} {n : Nat} {v v' : Visitor} {spared : Option ScopeId} {s : State}

/-! ## What a body must have done -/

theorem runs_checkFieldOrder (f : Function) (info : FunctionInfo) :
    Runs S spared s (checkFieldOrder f info) (checkFieldOrder f info) fun _ _ => True := by
  refine runs_get_bind ?_
  split
  · exact runs_pure trivial
  simp only
  split
  · exact runs_pure trivial
  · exact Runs.ignore runs_report

theorem runs_checkConstructorReturn (f : Function) (info : FunctionInfo) :
    Runs S spared s (checkConstructorReturn f info) (checkConstructorReturn f info)
      fun _ _ => True := by
  rw [checkConstructorReturn]
  split
  · exact runs_pure trivial
  simp only
  split
  · exact Runs.ignore runs_report
  · exact runs_get_bind (Runs.ignore runs_report)

theorem runs_checkReturned (f : Function) (info : FunctionInfo) :
    Runs S spared s (checkReturned f info) (checkReturned f info) fun _ _ => True := by
  rw [checkReturned]
  split
  · exact runs_pure trivial
  split
  · exact runs_then (Runs.ignore runs_checkFits) fun _ _ _ _ => runs_pure trivial
  split
  · exact runs_get_bind (Runs.ignore runs_report)
  · exact runs_pure trivial

theorem runs_checkBody (f : Function) (info : FunctionInfo) :
    Runs S spared s (checkBody f info) (checkBody f info) fun _ _ => True := by
  rw [checkBody]
  split
  · exact runs_then (runs_checkFieldOrder f info) fun _ _ _ _ => runs_checkConstructorReturn f info
  · exact runs_checkReturned f info

/-! ## Bodies -/

/-- Parameters are bound before the body is entered. -/
theorem runs_bindParams {scope : ScopeId} {params : List (Identifier × Param)}
    (hscope : ∃ found, s.arena.scope? scope = some found ∧ found.kind.isBranch = false) :
    Runs S spared s (bindParams scope params) (bindParams scope params)
      fun _ s' => s'.entered = s.entered := by
  induction params generalizing s with
  | nil => exact runs_pure rfl
  | cons first rest ih =>
    obtain ⟨id, param⟩ := first
    have hbind : ∀ {s₁ : State} type, s₁.arena = s.arena → s₁.entered = s.entered →
        Runs S spared s₁ (do onArena fun a => a.addVar scope id.name type; bindParams scope rest)
          (do onArena fun a => a.addVar scope id.name type; bindParams scope rest)
          fun _ s' => s'.entered = s.entered := by
      intro s₁ type harena hentered
      rw [← harena] at hscope
      have hadd : Runs S spared s₁ (onArena fun a => a.addVar scope id.name type)
          (onArena fun a => a.addVar scope id.name type) fun _ s' => s'.entered = s₁.entered :=
        runs_addVar (fun _ => hscope) fun _ => rfl
      refine runs_bind hadd fun _ s₂ hk _ hentered₂ => ?_
      obtain ⟨found, hfound, hb⟩ := hscope
      obtain ⟨found', hfound', hgrown, _⟩ := hk.arena scope found hfound
      refine (ih ⟨found', hfound', by rw [hgrown.kind.isBranch_eq, hb]⟩).mono ?_
      intro _ s₃ _ _ hentered₃
      rw [hentered₃, hentered₂, hentered]
    rw [bindParams]
    split
    · have htype : Runs S spared s (onTable fun table => table.union2 param.type .undefined)
          (onTable fun table => table.union2 param.type .undefined)
          fun _ s' => s'.arena = s.arena ∧ s'.entered = s.entered :=
        runs_onTable (fun t => Table.extends_union t _) ⟨rfl, rfl⟩
      exact runs_bind htype fun type s₁ _ _ hsame => hbind type hsame.1 hsame.2
    · exact hbind param.type rfl rfl

/-- A body is entered in a scope that was made for it and has not been entered. -/
theorem runs_enterBody (hv : Visits S n v v') {f : Function} {scope : ScopeId} (hn : s.pending ≤ n)
    (hmade : s.MadeFor scope f) (hnew : ∀ g, (scope, g) ∉ s.entered) :
    Runs S (some scope) s (enterBody v f scope) (enterBody v' f scope) fun _ _ => True := by
  have henter : Runs S (some scope) s
      (modify fun s => { s with entered := (scope, f) :: s.entered })
      (modify fun s => { s with entered := (scope, f) :: s.entered })
      fun _ s' => s' = { s with entered := (scope, f) :: s.entered } := by
    intro hs _
    obtain ⟨hs', hk⟩ := hs.enter hmade hnew
    exact ⟨fun _ => .inl rfl, hs', hk, rfl⟩
  refine runs_bind henter ?_
  rintro _ s₁ - hs₁ rfl
  have hpending := hs₁.pending_enter
  obtain ⟨_, found, info, _, _, hfound, hkind, _⟩ := hmade
  have howner : s.arena.owner scope = scope :=
    hs₁.arena.owner_of_not_branch hfound (by rw [hkind]; rfl)
  have hblock : Runs S (some (s.arena.owner scope))
      { s with entered := (scope, f) :: s.entered, focus := { s.focus with scope } }
      (v.block f.body) (v'.block f.body) fun _ _ => True := by
    refine hv.block fun stmt hmem => ⟨⟨f.body, ?_, mem_ownNodesOf hmem⟩, ?_⟩
    · rw [State.owner, howner]
      exact .function List.mem_cons_self
    · have hown := own_le_ownOf hmem
      change _ + State.pending { s with entered := (scope, f) :: s.entered } ≤ n
      omega
  rw [howner] at hblock
  exact runs_withFocus (fun _ => Arena.index_lt_size hfound) hblock fun _ _ _ _ => trivial

/-! ## Functions -/

/-- The function stands in the body at hand. In a tidy program no scope has been made for it, and a
declared one has a type in sight, bound by the scope that will hold its scope unless it is spared. -/
structure State.Ready (S : Setting) (spared : Option ScopeId) (s : State) (kind : FunctionKind)
    (f : Function) : Prop where
  holds : s.Holds s.owner (kind, f)
  free : S.tidy → ∀ own, s.arena.scope? s.owner = some own →
    own.functions.contains (keyOf kind f) = false
  typed : S.tidy → '@' ∉ (keyOf kind f).toList →
    (s.typeIn s.owner (keyOf kind f) .writable).isSome
  bound : S.tidy → ∀ own, s.arena.scope? s.owner = some own → spared = some s.owner ∨
    own.identifiers.contains (keyOf kind f) ∨ '@' ∈ (keyOf kind f).toList

theorem runs_pushFunction {kind : FunctionKind} {f : Function} (hready : s.Ready S spared kind f)
    {info : FunctionInfo} (hkey : info.name = keyOf kind f) :
    Runs S spared s (onArena fun a => a.pushFunction s.focus.scope info)
      (onArena fun a => a.pushFunction s.focus.scope info)
      fun scope s' => scope = ⟨s.arena.size⟩ ∧ s' = s.withFunction info := by
  intro hs hc
  obtain ⟨own, hown, _⟩ := hs.arena.owner_spec hs.focus
  rcases s.arena.pushFunction_cases s.focus.scope info with ⟨hrun, found, hfound, htaken⟩ | ⟨hrun, hfree⟩
  · refine runs_onArena_error hrun ?_ hs hc
    intro htidy
    rw [hkey, hready.free htidy found hfound] at htaken
    cases htaken
  · have hbound : S.Spares spared s.owner ∨ own.identifiers.contains info.name ∨
        '@' ∈ info.name.toList := by
      by_cases htidy : S.tidy
      · rw [hkey]
        exact (hready.bound htidy own hown).imp_left fun hspared _ => hspared
      · exact .inl fun htidy' => absurd htidy' htidy
    obtain ⟨hs', hk⟩ := hs.pushFunction hown (hfree own hown) (by rw [hkey]; exact hready.typed) hbound
    rw [run_onArena_ok hrun]
    exact ⟨fun _ => .inl rfl, hs', hk, rfl, rfl⟩

theorem runs_verifyFunction (hv : Visits S n v v') {kind : FunctionKind} {f : Function}
    (hready : s.Ready S spared kind f) (hn : s.pending ≤ n) (declared : TypeId) :
    Runs S spared s (verifyFunction v f declared (keyOf kind f))
      (verifyFunction v' f declared (keyOf kind f))
      fun _ s' => ∀ shape, s.table.functionShape? declared = some shape →
        f.params.length ≠ shape.params.length → s'.diagnostics ≠ [] := by
  refine .of_sound fun hs => runs_get_bind ?_
  split
  · next hnone =>
    refine runs_report.mono fun _ _ _ _ hreported shape hshape => ?_
    rw [hnone] at hshape
    cases hshape
  next shape hshape =>
  have hnew : ∀ id, some (⟨s.arena.size⟩ : ScopeId) = some id →
      spared = some id ∨ s.arena.size ≤ id.index := by
    rintro id ⟨⟩
    exact .inr (Nat.le_refl _)
  refine runs_bind' (runs_pushFunction hready rfl) hnew ?_
  rintro _ s₁ hk hs₁ ⟨rfl, rfl⟩
  simp only
  split
  · exact runs_report.mono fun _ _ _ _ hreported _ _ _ => hreported
  next hsame =>
  -- the body is entered in the new scope, whose parameters are bound before
  have hmade := hs.madeFor_withFunction hk hready.holds rfl
  obtain ⟨_, scope, info, _, _, hscope, hkind, _⟩ := id hmade
  refine runs_bind (runs_bindParams ⟨scope, hscope, by rw [hkind]; rfl⟩)
    fun _ s₂ hk₂ hs₂ hentered => ?_
  have hfresh : ∀ g, ((⟨s.arena.size⟩ : ScopeId), g) ∉ s₂.entered := by
    intro g hg
    rw [hentered] at hg
    obtain ⟨_, found, _, _, _, hfound, _⟩ := hs.entered _ g hg
    exact absurd (Arena.index_lt_size hfound) (Nat.lt_irrefl _)
  have hpending : s₂.pending ≤ n := 
    Nat.le_trans hk₂.pending_le (Nat.le_trans hk.pending_le hn)
  refine runs_then (runs_enterBody hv hpending (hk₂.madeFor hs₁.arena.ordered hmade) hfresh)
    fun _ s₃ _ _ => runs_get_bind ?_
  have hbody : ∀ {m : Check Unit}, Runs S (some ⟨s.arena.size⟩) s₃ m m (fun _ _ => True) →
      Runs S (some ⟨s.arena.size⟩) s₃ m m fun _ s' => ∀ shape,
        s.table.functionShape? declared = some shape → f.params.length ≠ shape.params.length →
          s'.diagnostics ≠ [] := by
    intro m hrun
    refine hrun.mono fun _ _ _ _ _ other hother hne => ?_
    rw [hshape] at hother
    cases hother
    exact absurd hne hsame
  split
  · exact hbody (runs_checkBody f _)
  · exact hbody (runs_pure trivial)

theorem State.free_of_not_hasFunctionScope {key : String} (h : ¬s.hasFunctionScope key) {own : Scope}
    (hown : s.arena.scope? s.owner = some own) : own.functions.contains key = false := by
  simpa [State.hasFunctionScope, hown] using h

theorem runs_verifyDeclared (hv : Visits S n v v') {f : Function}
    (ha : s.At (n + 1) (.stmt (.function f))) :
    Runs S (some s.owner) s (verifyDeclared v f) (verifyDeclared v' f) fun _ _ => True := by
  refine .of_sound fun hs => runs_get_bind ?_
  split
  · exact runs_pure trivial
  next hfree =>
  split
  · next declared hdeclared =>
    have hready : s.Ready S (some s.owner) .declared f := by
      refine ⟨ha.holds, fun _ _ => State.free_of_not_hasFunctionScope hfree, ?_, fun _ _ _ => .inl rfl⟩
      intro _ _
      rw [State.typeIn, State.owner, hs.arena.getVar_owner hs.focus]
      exact Option.isSome_of_eq_some hdeclared
    exact (runs_verifyFunction hv hready ha.pending_le declared).ignore
  · exact Runs.ignore runs_report

theorem mark_mem_expressionKey (f : Function) : '@' ∈ (expressionKey f).toList := by
  simp [expressionKey]

theorem runs_verifyFunctionExpr (hv : Visits S n v v') {f : Function}
    (ha : s.At (n + 1) (.expr (.function f))) :
    Runs S spared s (verifyFunctionExpr v f) (verifyFunctionExpr v' f) Told := by
  refine runs_get_bind ?_
  split
  · exact .none runs_report
  simp only
  split
  · next hfree =>
    have hholds : s.Holds s.owner (.expression, f) := by
      obtain ⟨⟨body, hbody, hmem⟩, _⟩ := ha
      exact ⟨body, hbody, mem_directOf hmem rfl⟩
    have hready : s.Ready S spared .expression f := by
      refine ⟨hholds, fun _ _ => State.free_of_not_hasFunctionScope (by simpa [keyOf] using hfree), ?_, ?_⟩
      · exact fun _ hmark => absurd (mark_mem_expressionKey f) hmark
      · exact fun _ _ _ => .inr (.inr (mark_mem_expressionKey f))
    exact runs_then (runs_verifyFunction hv hready ha.pending_le _).ignore
      fun _ _ _ _ => runs_pure .some
  · exact runs_pure .some

/-! ## Functions typed by a call -/

theorem runs_inferParams (hv : Visits S n v v') {arguments : List Expr} {names : List Identifier}
    (ha : ∀ e ∈ arguments, s.At n (.expr e)) :
    Runs S spared s (inferParams v arguments names) (inferParams v' arguments names)
      fun params s' => Told params s' ∧
        ∀ found, params = some found → found.length = arguments.length := by
  induction arguments generalizing s names with
  | nil =>
    refine runs_pure ⟨.some, ?_⟩
    rintro _ ⟨⟩
    rfl
  | cons argument rest ih =>
    refine .of_sound fun hs => ?_
    refine runs_bind (hv.value (ha argument List.mem_cons_self)) fun type s₁ hk _ htype => ?_
    cases type with
    | none => exact runs_pure ⟨htype.none_of (.refl (S.Spares spared) _), nofun⟩
    | some type =>
      refine runs_bind (ih fun e hmem => (ha e (List.mem_cons_of_mem _ hmem)).keeps hs hk)
        fun params s₂ _ _ hparams => ?_
      cases params with
      | none => exact runs_pure ⟨hparams.1, nofun⟩
      | some params =>
        refine runs_pure ⟨.some, ?_⟩
        rintro _ ⟨⟩
        simp [hparams.2 params rfl]

/-- An untyped function in sight is declared in a scope around. -/
theorem State.Sound.untyped_found {tidy : Prop} (hs : s.Sound tidy) {name : String}
    {untyped : UntypedFunction}
    (hfound : s.arena.getFunction? s.focus.scope name = some untyped) :
    untyped.node.name = name ∧ s.Holds untyped.definedIn (.declared, untyped.node) ∧
      ∃ scope, (untyped.definedIn, scope) ∈ s.arena.chain s.focus.scope ∧
        scope.untyped.contains name := by
  obtain ⟨⟨holder, scope⟩, hmem, hget⟩ := List.exists_of_findSome?_eq_some hfound
  have hscope := (hs.arena.ordered.mem_chain hmem).1
  have hentry := Dict.mem_entries_of_get? hget
  obtain ⟨hin, hname⟩ := hs.arena.untyped holder scope _ hscope hentry
  have hholds := hs.declared holder scope _ hscope hentry
  simp only at hin hname hholds
  rw [hin]
  exact ⟨hname, hholds, scope, hmem, by simp [Dict.contains, hget]⟩

/-- In a tidy program a function without a type in sight has no mark in its name and no scope. -/
theorem State.Sound.no_scope_of_untyped {tidy : Prop} (hs : s.Sound tidy) (htidy : tidy)
    {name : String} {untyped : UntypedFunction} (hlookup : s.lookup name = none)
    (hfound : s.arena.getFunction? s.focus.scope name = some untyped) :
    '@' ∉ name.toList ∧ ∀ scope, s.arena.scope? untyped.definedIn = some scope →
      scope.functions.contains name = false := by
  obtain ⟨hname, ⟨body, hbody, hmem⟩, holder, hchain, _⟩ := hs.untyped_found hfound
  have hmark : '@' ∉ name.toList := by
    rw [← hname]
    exact (hs.program htidy).names _ (Program.functions_of_bodies (hs.body_of_program hbody) hmem) rfl
  refine ⟨hmark, ?_⟩
  intro scope hscope
  cases hcontains : scope.functions.contains name with
  | false => rfl
  | true =>
    -- its type would be in sight
    have hsome := hs.typed htidy untyped.definedIn scope name hscope hcontains hmark
    have hnone : s.typeIn s.focus.scope name .writable = none :=
      Arena.getVar_writable_eq_none hlookup
    rw [State.typeIn, Arena.getVar_isSome_iff] at hsome
    have hsight : (s.typeIn s.focus.scope name .writable).isSome := by
      rw [State.typeIn, Arena.getVar_isSome_iff]
      refine hsome.imp_left ?_
      rintro ⟨x, hx, hbound⟩
      exact ⟨x, hs.arena.ordered.chain_subset hchain hx, hbound⟩
    rw [hnone] at hsight
    cases hsight

/-- After its arguments a call types the function that it found before, if the program is tidy, and
no scope has been made for it in between. -/
theorem State.Sound.typed_is_found {s₁ : State} (hs : s.Sound S.tidy) (htidy : S.tidy)
    {name : String} {untyped : UntypedFunction} (hlookup : s.lookup name = none)
    (hfound : s.arena.getFunction? s.focus.scope name = some untyped)
    (hk : s.Keeps (S.Spares none) s₁) (hs₁ : s₁.Sound S.tidy) {holder : ScopeId} {scope : Scope}
    (hmem : (holder, scope) ∈ s₁.arena.chain s₁.focus.scope) (hu : scope.untyped.contains name)
    (hunbound : scope.identifiers.contains name = false) :
    holder = untyped.definedIn ∧ scope.functions.contains name = false := by
  obtain ⟨hname, hholds, old, hchain, _⟩ := hs.untyped_found hfound
  have hold := (hs.arena.ordered.mem_chain hchain).1
  have hscope := (hs₁.arena.ordered.mem_chain hmem).1
  obtain ⟨other, hget⟩ := Option.isSome_iff_exists.mp hu
  have hentry := Dict.mem_entries_of_get? hget
  have hothername : other.node.name = name := (hs₁.arena.untyped holder scope _ hscope hentry).2
  have hsame : holder = untyped.definedIn := by
    obtain ⟨⟨_, now⟩, hnow, rfl, _⟩ :=
      Arena.forall₂_mem_left (hk.arena.chain_rel hs.arena.ordered hs.focus) hchain
    rw [← hk.focus] at hnow
    exact hs₁.holder_unique htidy hmem hnow (hs₁.declared holder scope _ hscope hentry)
      (hk.holds hholds) (hothername.trans hname.symm)
  subst hsame
  refine ⟨rfl, ?_⟩
  obtain ⟨hmark, hnoscope⟩ := hs.no_scope_of_untyped htidy hlookup hfound
  obtain ⟨now, hnow, _, hfunctions⟩ := hk.arena _ old hold
  rw [hscope] at hnow
  cases hnow
  cases hcontains : scope.functions.contains name with
  | false => rfl
  | true =>
    rcases hfunctions.resolve_left (fun hspared => nomatch hspared htidy) name hcontains with
      hbefore | hbound | hplace
    · rw [hnoscope old hold] at hbefore
      cases hbefore
    · rw [hunbound] at hbound
      cases hbound
    · exact absurd hplace hmark

/-- The function that a call has typed is ready to be verified. -/
theorem State.Sound.ready_typed {s₁ : State} (hs : s.Sound S.tidy) {name : String}
    {untyped : UntypedFunction} (hlookup : s.lookup name = none)
    (hfound : s.arena.getFunction? s.focus.scope name = some untyped)
    (hk : s.Keeps (S.Spares none) s₁) (hs₁ : s₁.Sound S.tidy) {holder : ScopeId} {scope : Scope}
    (hmem : (holder, scope) ∈ s₁.arena.chain s₁.focus.scope) (hu : scope.untyped.contains name)
    (hunbound : scope.identifiers.contains name = false) (type : TypeId) :
    State.Ready S none
      { s₁ with
        arena := s₁.arena.modify holder (Arena.typeFunction name type)
        focus := { s₁.focus with scope := untyped.definedIn } }
      .declared untyped.node := by
  obtain ⟨hname, hholds, old, hchain, hdeclared⟩ := hs.untyped_found hfound
  have hold := (hs.arena.ordered.mem_chain hchain).1
  have hscope := (hs₁.arena.ordered.mem_chain hmem).1
  obtain ⟨hs₂, hk₂⟩ : _ ∧ s₁.Keeps (S.Spares none) _ := hs₁.typeFunction hscope hu type
  have hk' := hk.trans hk₂
  -- functions are declared in files and functions
  obtain ⟨now, hnow, hgrown, _⟩ := hk'.arena _ old hold
  have hb : now.kind.isBranch = false := by
    rw [hgrown.kind.isBranch_eq]
    exact hs.arena.not_branch_of_untyped hold hdeclared
  have howner := hs₂.arena.owner_of_not_branch hnow hb
  -- in a tidy program this is the function that got the type
  have htyped : S.tidy → now = Arena.typeFunction name type scope ∧
      scope.functions.contains name = false := by
    intro htidy
    obtain ⟨rfl, hfree⟩ :=
      hs.typed_is_found htidy hlookup hfound hk hs₁ hmem hu hunbound
    rw [Arena.scope?_modify, if_pos rfl, hscope] at hnow
    cases hnow
    exact ⟨rfl, hfree⟩
  have hbinds : S.tidy → now.identifiers.contains name := by
    intro htidy
    rw [(htyped htidy).1]
    simp [Arena.typeFunction, Dict.contains]
  have hown : ∀ {own : Scope}, (s₁.arena.modify holder (Arena.typeFunction name type)).scope?
      ((s₁.arena.modify holder (Arena.typeFunction name type)).owner untyped.definedIn) = some own →
      own = now := by
    intro own hown
    rw [howner, hnow] at hown
    exact (Option.some.inj hown).symm
  have hkey : keyOf .declared untyped.node = name := hname
  refine ⟨?_, ?_, ?_, ?_⟩
  · obtain ⟨body, hbody, hmem'⟩ := hk'.holds hholds
    refine ⟨body, ?_, hmem'⟩
    rw [State.owner, howner]
    exact hbody.mono rfl rfl (List.Subset.refl _)
  · intro htidy own hscope'
    rw [hown hscope', hkey, (htyped htidy).1]
    exact (htyped htidy).2
  · intro htidy _
    rw [hkey, State.typeIn, State.owner, howner, Arena.getVar_isSome_iff]
    refine .inl ⟨(untyped.definedIn, now), ?_, hbinds htidy⟩
    rw [hs₂.arena.ordered.chain_eq hnow]
    exact List.mem_cons_self
  · intro htidy own hscope'
    rw [hown hscope', hkey]
    exact .inr (.inl (hbinds htidy))

theorem runs_infer (hv : Visits S n v v') {call : Call} {name : String} {untyped : UntypedFunction}
    (ha : ∀ e ∈ call.arguments, s.At n (.expr e)) (hn : s.pending ≤ n)
    (hlookup : s.lookup name = none)
    (hfound : s.arena.getFunction? s.focus.scope name = some untyped) :
    Runs S none s (call.infer v name untyped) (call.infer v' name untyped) Told := by
  refine .of_sound fun hs => ?_
  obtain ⟨rfl, -, around, hchain, -⟩ := hs.untyped_found hfound
  refine runs_bind (runs_inferParams hv ha) fun params s₁ hk hs₁ hparams => ?_
  cases params with
  | none => exact runs_pure (hparams.1.none_of (.refl (S.Spares none) _))
  | some params =>
    refine runs_get_bind ?_
    simp only
    generalize s₁.contextType?.getD .unknownReturn = result
    let shape : FunctionShape :=
      { params, result, this := none, generics := [], brand := Types.plainBrand }
    have hmade : Runs S none s₁ (onTable fun table => table.function shape)
        (onTable fun table => table.function shape) fun type s' =>
          s'.arena = s₁.arena ∧ s'.table.functionShape? type = some shape :=
      runs_onTable (fun t => Table.extends_add t _) ⟨rfl, Table.functionShape?_function _ _⟩
    refine runs_bind hmade fun type s₂ hk₂ hs₂ ⟨harena, hshape⟩ => ?_
    rw [← hk₂.focus]
    have hupdate : Runs S none s₂
        (onArena fun a => a.updateFunction s₂.focus.scope untyped.node.name type)
        (onArena fun a => a.updateFunction s₂.focus.scope untyped.node.name type) fun _ s' =>
          State.Ready S none { s' with focus := { s'.focus with scope := untyped.definedIn } }
            .declared untyped.node ∧ s'.table = s₂.table := by
      refine runs_updateFunction fun holder scope hmem hu hunbound => ⟨?_, rfl⟩
      exact hs.ready_typed hlookup hfound (hk.trans hk₂) hs₂ hmem hu hunbound type
    refine runs_bind hupdate fun _ s₃ hk₃ hs₃ ⟨hready, htable⟩ => ?_
    have hverify : Runs S none s₃
        (inScope untyped.definedIn (verifyFunction v untyped.node type untyped.node.name))
        (inScope untyped.definedIn (verifyFunction v' untyped.node type untyped.node.name))
        fun _ s' => untyped.node.params.length ≠ params.length → s'.diagnostics ≠ [] := by
      have hk' := (hk.trans hk₂).trans hk₃
      have hlt : untyped.definedIn.index < s₃.arena.size :=
        Nat.lt_of_lt_of_le (Arena.index_lt_size (hs.arena.ordered.mem_chain hchain).1)
          hk'.arena.size_le
      refine runs_withFocus (fun _ => hlt)
        (runs_verifyFunction hv hready (Nat.le_trans hk'.pending_le hn) type) ?_
      intro _ s' _ hreported hne
      rw [← htable] at hshape
      exact hreported shape hshape hne
    refine runs_bind hverify fun _ s₄ _ _ hreported => ?_
    split
    · next hne =>
      rw [← hparams.2 params rfl] at hne
      exact runs_pure (.reported (hreported hne))
    split
    · refine runs_get_bind (runs_then (runs_onTable (fun t => Table.extends_add t _) trivial)
        fun _ s₅ _ _ => ?_)
      exact runs_then (runs_forceUpdateVar fun _ _ => trivial) fun _ _ _ _ => runs_pure .some
    · exact runs_pure .some

end HeaderCheck.Verify
