import HeaderCheck.Proofs.Verify.Functions

/-!
# HeaderCheck.Proofs.Verify.Statements

Declarations of variables, return statements and branches. Work in the arms of a branch belongs to
the body at hand, and what the arms agree on is taken over without a refusal.
-/

namespace HeaderCheck.Verify

open HeaderCheck.Scope (Arena ScopeId)
open HeaderCheck.Script
open HeaderCheck.Types (Table TypeId)

variable {S : Setting} {n : Nat} {v v' : Visitor} {spared : Option ScopeId} {s : State}

/-! ## Variables -/

theorem State.Sound.owner_kind {tidy : Prop} (hs : s.Sound tidy) :
    ∃ scope, s.arena.scope? s.owner = some scope ∧ scope.kind.isBranch = false := by
  obtain ⟨scope, hscope, hb, _⟩ := hs.arena.owner_spec hs.focus
  exact ⟨scope, hscope, hb⟩

theorem runs_verifyDeclaredVariable (hv : Visits S n v v') {init : Expr} (ha : s.At n (.expr init))
    (name : String) (declared : TypeId) :
    Runs S spared s (verifyDeclaredVariable v name declared init)
      (verifyDeclaredVariable v' name declared init) fun _ _ => True := by
  refine runs_then (hv.into ha _).ignore fun actual s₁ _ _ => ?_
  cases actual with
  | none => exact runs_pure trivial
  | some actual =>
    simp only
    split
    · refine runs_get_bind ?_
      exact runs_then (runs_forceUpdateVar fun _ _ => trivial) fun _ _ _ _ => runs_pure trivial
    · exact runs_then (Runs.ignore runs_checkFits) fun _ _ _ _ => runs_pure trivial

/-- A variable becomes unknown only when its initial value has been reported. -/
theorem runs_verifyNewVariable (hv : Visits S n v v') {init : Expr} (ha : s.At n (.expr init))
    (name : String) :
    Runs S spared s (verifyNewVariable v name init) (verifyNewVariable v' name init)
      fun _ _ => True := by
  refine .of_sound fun hs => runs_get_bind ?_
  simp only
  split
  · exact runs_addVar (fun hs => hs.owner_kind) fun _ => trivial
  refine runs_bind (hv.into ha none) fun actual s₁ hk _ htold => ?_
  cases actual with
  | some actual =>
    rw [← hk.owner_eq hs.arena.ordered hs.focus]
    exact runs_addVar (fun hs₁ => hs₁.owner_kind) fun _ => trivial
  | none =>
    refine runs_quiet rfl ?_ trivial
    exact ⟨rfl, rfl, rfl, List.prefix_refl _, .refl _, rfl, .refl _, fun hproper _ _ => htold hproper rfl⟩

theorem runs_verifyDeclarator (hv : Visits S n v v') {declarator : Declarator}
    (ha : ∀ init, declarator.init = some init → s.At n (.expr init)) :
    Runs S spared s (verifyDeclarator v declarator) (verifyDeclarator v' declarator)
      fun _ _ => True := by
  refine runs_get_bind ?_
  simp only
  split
  · next hinit => exact runs_verifyDeclaredVariable hv (ha _ hinit) _ _
  · exact runs_pure trivial
  · exact runs_addVar (fun hs => hs.owner_kind) fun _ => trivial
  · next hinit => exact runs_verifyNewVariable hv (ha _ hinit) _

theorem runs_verifyDeclarators (hv : Visits S n v v') {declarators : List Declarator}
    (ha : ∀ node ∈ Node.initials declarators, s.At n node) :
    Runs S spared s (verifyDeclarators v declarators) (verifyDeclarators v' declarators)
      fun _ _ => True := by
  induction declarators generalizing s with
  | nil => exact runs_pure trivial
  | cons declarator rest ih =>
    have hfirst : ∀ init, declarator.init = some init → s.At n (.expr init) := by
      intro init hinit
      exact ha _ (by simp [Node.initials, hinit])
    have hrest : ∀ node ∈ Node.initials rest, s.At n node := by
      intro node hmem
      rw [Node.initials] at hmem
      exact ha node (by simp only [Node.initials, List.flatMap_cons, List.mem_append, hmem, or_true])
    refine .of_sound fun hs => ?_
    exact runs_then (runs_verifyDeclarator hv hfirst) fun _ s₁ hk _ =>
      ih fun node hmem => (hrest node hmem).keeps hs hk

/-! ## Return statements -/

/-- The mark of the return statement is taken away however its argument ends. -/
theorem run_exitReturn {α : Type} {m : Check α} {scope : ScopeId} {result : Except Project.Error α}
    {after : State} {arena : Arena} (hrun : m.run s = (result, after))
    (hexit : after.arena.exitReturn scope = (.ok (), arena)) :
    ExceptT.run (ExceptT.mk fun s =>
      let (result, after) := m.run s
      match onArena (fun a => a.exitReturn scope) |>.run after with
      | (.ok (), after) => (result, after)
      | (.error e, after) => (.error e, after) : Check α) s = (result, { after with arena }) := by
  have hexit' : (onArena fun a => a.exitReturn scope).run after = (.ok (), { after with arena }) :=
    run_onArena_ok hexit
  simp only [ExceptT.run, ExceptT.mk] at hrun hexit' ⊢
  rw [hrun]
  simp only [hexit']

theorem runs_exitReturn {α : Type} {m m' : Check α} {P : α → State → Prop} {found : ScopeId}
    (hf : s.arena.functionScope? s.focus.scope = some found) (h : Runs S spared s m m' P) :
    Runs S spared s
      (ExceptT.mk fun s₁ =>
        let (result, after) := m.run s₁
        match onArena (fun a => a.exitReturn s.focus.scope) |>.run after with
        | (.ok (), after) => (result, after)
        | (.error e, after) => (.error e, after))
      (ExceptT.mk fun s₁ =>
        let (result, after) := m'.run s₁
        match onArena (fun a => a.exitReturn s.focus.scope) |>.run after with
        | (.ok (), after) => (result, after)
        | (.error e, after) => (.error e, after)) fun _ _ => True := by
  intro hs hc
  obtain ⟨hagree, hs', hk, hmeets⟩ := h hs hc
  rcases hrun : m.run s with ⟨result, after⟩
  rw [hrun] at hagree hs' hk hmeets
  have hf' : after.arena.functionScope? s.focus.scope = some found :=
    (hk.arena.functionScope?_eq hs.arena.ordered hs.focus).trans hf
  obtain ⟨arena, hexit, harena⟩ : ∃ arena,
      after.arena.exitReturn s.focus.scope = (.ok (), arena) ∧ after.arena.Quiet arena :=
    Arena.quiet_modifyFunction hf' fun _ => rfl
  have hquiet := quiet_withArena harena
  rw [run_exitReturn hrun hexit]
  refine ⟨?_, hquiet.sound hs', hk.trans (hquiet.keeps _), ?_⟩
  · intro hS
    rcases hagree hS with heq | ⟨hloose, hmarred⟩
    · exact .inl (run_exitReturn heq hexit)
    · refine .inr ⟨hloose, ?_⟩
      cases result with
      | error e => trivial
      | ok a => exact hmarred
  · cases result with
    | error e => exact hmeets
    | ok a => trivial

theorem runs_returnedType (hv : Visits S n v v') {argument : Option Expr}
    (ha : ∀ e, argument = some e → s.At n (.expr e)) :
    Runs S spared s (returnedType v argument) (returnedType v' argument) fun _ _ => True := by
  cases argument with
  | none => exact runs_pure trivial
  | some argument =>
    exact runs_then (hv.value (ha argument rfl)).ignore fun _ _ _ _ => runs_pure trivial

theorem runs_verifyReturn (hv : Visits S n v v') {argument : Option Expr}
    (ha : ∀ e, argument = some e → s.At n (.expr e)) (span : Span) :
    Runs S spared s (verifyReturn v argument span) (verifyReturn v' argument span)
      fun _ _ => True := by
  refine .of_sound fun hs => runs_get_bind ?_
  cases hinfo : s.arena.functionInfo? s.focus.scope with
  | none =>
    cases argument with
    | none => exact runs_pure trivial
    | some argument =>
      exact runs_then (hv.expr (ha argument rfl)).weaken.ignore fun _ _ _ _ => runs_pure trivial
  | some info =>
    obtain ⟨found, hf⟩ := Arena.functionScope?_of_info hinfo
    have hthere : ∀ {s₁ : State}, s.Keeps (S.Spares spared) s₁ →
        s₁.arena.functionScope? s₁.focus.scope = some found := by
      intro s₁ hk
      rw [hk.focus, hk.arena.functionScope?_eq hs.arena.ordered hs.focus, hf]
    have hreturning : Runs S spared s (whileReturning info.returnType (returnedType v argument))
        (whileReturning info.returnType (returnedType v' argument)) fun _ _ => True := by
      refine runs_get_bind ?_
      refine runs_then (runs_modifyFunction hf (fun _ => rfl) fun _ => trivial) fun _ s₁ hk _ => ?_
      rw [← hk.focus]
      exact runs_exitReturn (hthere hk)
        (runs_returnedType hv fun e he => (ha e he).keeps hs hk)
    refine runs_then hreturning fun returned s₁ hk _ => ?_
    rw [← hk.focus]
    exact runs_modifyFunction (hthere hk) (fun _ => rfl) fun _ => trivial

/-! ## Arms -/

/-- The arms of a condition are branches of the current scope. -/
theorem runs_openArms (test : Expr) :
    Runs S spared s (openArms test) (openArms test)
      fun arms s' => s'.HasArm arms.1 ∧ s'.HasArm arms.2 := by
  refine runs_bind (runs_openBranch fun holds s' harm _ => harm) fun holds s₁ _ _ hholds => ?_
  refine runs_bind (runs_openBranch fun fails s' harm _ => harm) fun fails s₂ hk₂ _ hfails => ?_
  have hholds₂ := hk₂.hasArm hholds
  refine runs_then (runs_narrow hholds₂ hfails fun _ _ => trivial) fun _ s₃ hk₃ _ => ?_
  exact runs_pure ⟨hk₃.hasArm hholds₂, hk₃.hasArm hfails⟩

/-- What arms agree on is taken over: a file or a function takes each name once. -/
theorem runs_settle {agreement : List (String × TypeId)}
    (hthis : ∀ entry ∈ agreement, entry.1 ≠ Arena.thisName) :
    Runs S spared s (settle agreement) (settle agreement) fun _ _ => True := by
  induction agreement generalizing s with
  | nil => exact runs_pure trivial
  | cons entry rest ih =>
    obtain ⟨name, type⟩ := entry
    have hrest : ∀ {s : State}, Runs S spared s (settle rest) (settle rest) fun _ _ => True :=
      ih fun entry hmem => hthis entry (List.mem_cons_of_mem _ hmem)
    refine .of_sound fun hs => runs_get_bind ?_
    simp only
    split
    · next hfree =>
      obtain ⟨scope, hscope⟩ := Arena.scope?_of_lt hs.focus
      refine runs_then (runs_restrict hscope ?_ fun _ => trivial) fun _ _ _ _ => hrest
      simp only [Bool.and_eq_true, Bool.or_eq_true, State.inBranch, hscope, Option.any_some,
        Bool.not_eq_true', Arena.restrictions] at hfree
      refine hfree.2.imp_right fun hknown => ⟨hthis _ List.mem_cons_self, ?_⟩
      cases hcontains : scope.restrictions.contains name with
      | false => rfl
      | true =>
        obtain ⟨old, hold⟩ := Option.isSome_iff_exists.mp hcontains
        have hmem := Dict.mem_entries_of_get? hold
        have := List.any_eq_false.mp hknown _ hmem
        simp at this
    · exact hrest

theorem runs_mergeArms (holds fails : ScopeId) :
    Runs S spared s (mergeArms holds fails) (mergeArms holds fails) fun _ _ => True := by
  refine runs_get_bind (runs_settle ?_)
  intro entry hmem
  obtain ⟨_, hkept⟩ := List.mem_filter.mp hmem
  simp only [ne_eq, Bool.and_eq_true, decide_eq_true_eq] at hkept
  exact hkept.1

/-! ## Branches -/

/-- A statement in an arm. -/
theorem Visits.stmtInArm (hv : Visits S n v v') {stmt : Stmt} (ha : s.At n (.stmt stmt))
    {arm : ScopeId} (harm : s.HasArm arm) :
    Runs S (some s.owner) s (inScope arm (v.stmt stmt)) (inScope arm (v'.stmt stmt))
      fun _ _ => True :=
  runs_inArm harm fun _ hat => hv.stmt (hat ha)

theorem runs_verifyIf (hv : Visits S n v v') {test : Expr} {consequent : Stmt}
    {alternate : Option Stmt} (htest : s.At n (.expr test)) (hc : s.At n (.stmt consequent))
    (ha : ∀ stmt, alternate = some stmt → s.At n (.stmt stmt)) :
    Runs S (some s.owner) s (verifyIf v test consequent alternate)
      (verifyIf v' test consequent alternate) fun _ _ => True := by
  refine .of_sound fun hs => ?_
  refine runs_then (hv.value htest).ignore fun _ s₁ hk₁ hs₁ => ?_
  refine runs_bind (runs_openArms test) fun arms s₂ hk₂ hs₂ ⟨hholds, hfails⟩ => ?_
  have hk := hk₁.trans hk₂
  have howner := hk.owner_eq hs.arena.ordered hs.focus
  rw [← howner]
  refine runs_then (hv.stmtInArm (hc.keeps hs hk) hholds) fun _ s₃ hk₃ _ => ?_
  cases alternate with
  | none => exact runs_mergeArms _ _
  | some alternate =>
    rw [← hk₃.owner_eq hs₂.arena.ordered hs₂.focus]
    refine runs_then (hv.stmtInArm (((ha alternate rfl).keeps hs hk).keeps hs₂ hk₃)
      (hk₃.hasArm hfails)) fun _ s₄ _ _ => ?_
    exact runs_mergeArms _ _

theorem runs_verifyWhile (hv : Visits S n v v') {test : Expr} {body : Stmt}
    (htest : s.At n (.expr test)) (hb : s.At n (.stmt body)) :
    Runs S (some s.owner) s (verifyWhile v test body) (verifyWhile v' test body)
      fun _ _ => True := by
  refine .of_sound fun hs => ?_
  refine runs_then (hv.value htest).ignore fun _ s₁ hk₁ _ => ?_
  refine runs_bind (runs_openArms test) fun arms s₂ hk₂ _ ⟨hholds, _⟩ => ?_
  have hk := hk₁.trans hk₂
  rw [← hk.owner_eq hs.arena.ordered hs.focus]
  exact hv.stmtInArm (hb.keeps hs hk) hholds

theorem runs_verifyForInit (hv : Visits S n v v') {init : Option ForInit}
    (ha : ∀ node ∈ Node.initParts init, s.At n node) :
    Runs S spared s (verifyForInit v init) (verifyForInit v' init) fun _ _ => True := by
  match init with
  | none => exact runs_pure trivial
  | some (.declaration declaration) => exact runs_verifyDeclarators hv ha
  | some (.expression e) =>
    exact runs_then (hv.value (ha _ List.mem_cons_self)).ignore fun _ _ _ _ => runs_pure trivial

/-- The body of a loop and what follows it run in the arm where the test holds. -/
theorem runs_loopBody (hv : Visits S n v v') {body : Stmt} {update : Option Expr} {holds : ScopeId}
    (harm : s.HasArm holds) (hb : s.At n (.stmt body))
    (hupdate : ∀ e, update = some e → s.At n (.expr e)) :
    Runs S (some s.owner) s
      (inScope holds do
        v.stmt body
        match update with
        | some update =>
          let _ ← v.value update
        | none => pure ())
      (inScope holds do
        v'.stmt body
        match update with
        | some update =>
          let _ ← v'.value update
        | none => pure ()) fun _ _ => True := by
  refine runs_inArm harm fun {s₁} _ hat => .of_sound fun hs₁ => ?_
  refine runs_then (hv.stmt (hat hb)) fun _ s₂ hk₂ _ => ?_
  cases update with
  | none => exact runs_pure trivial
  | some update =>
    exact runs_then (hv.value ((hat (hupdate update rfl)).keeps hs₁ hk₂)).ignore
      fun _ _ _ _ => runs_pure trivial

theorem runs_verifyFor (hv : Visits S n v v') {init : Option ForInit} {test update : Option Expr}
    {body : Stmt} (hinit : ∀ node ∈ Node.initParts init, s.At n node)
    (htest : ∀ e, test = some e → s.At n (.expr e))
    (hupdate : ∀ e, update = some e → s.At n (.expr e)) (hb : s.At n (.stmt body)) :
    Runs S (some s.owner) s (verifyFor v init test update body)
      (verifyFor v' init test update body) fun _ _ => True := by
  refine .of_sound fun hs => ?_
  refine runs_then (runs_verifyForInit hv hinit) fun _ s₁ hk₁ _ => ?_
  refine runs_bind (runs_openBranch fun holds s' harm _ => harm) fun holds s₂ hk₂ _ hholds => ?_
  refine runs_bind (runs_openBranch fun fails s' harm _ => harm) fun fails s₃ hk₃ hs₃ hfails => ?_
  have hk := (hk₁.trans hk₂).trans hk₃
  have hholds₃ := hk₃.hasArm hholds
  cases test with
  | none =>
    rw [← hk.owner_eq hs.arena.ordered hs.focus]
    exact runs_loopBody hv hholds₃ (hb.keeps hs hk) fun e he => (hupdate e he).keeps hs hk
  | some test =>
    refine runs_then (hv.value ((htest test rfl).keeps hs hk)).ignore fun _ s₄ hk₄ _ => ?_
    refine runs_then (runs_narrow (hk₄.hasArm hholds₃) (hk₄.hasArm hfails) fun _ _ => trivial)
      fun _ s₅ hk₅ _ => ?_
    have hk' := (hk.trans hk₄).trans hk₅
    rw [← hk'.owner_eq hs.arena.ordered hs.focus]
    exact runs_loopBody hv (hk₅.hasArm (hk₄.hasArm hholds₃)) (hb.keeps hs hk')
      fun e he => (hupdate e he).keeps hs hk'

/-! ## Branching expressions -/

theorem runs_verifyLogical (hv : Visits S n v v') {left right : Expr} (hl : s.At n (.expr left))
    (hr : s.At n (.expr right)) (operator : String) :
    Runs S spared s (verifyLogical v operator left right) (verifyLogical v' operator left right)
      Told := by
  refine .of_sound fun hs => ?_
  refine runs_bind_told (hv.value hl) rfl rfl fun leftType s₁ hk₁ => ?_
  refine runs_bind (runs_openBranch fun taken s' harm _ => harm) fun taken s₂ hk₂ _ htaken => ?_
  refine runs_bind (runs_openBranch fun skipped s' harm _ => harm)
    fun skipped s₃ hk₃ hs₃ hskipped => ?_
  have htaken₃ := hk₃.hasArm htaken
  have hright := hr.keeps hs ((hk₁.trans hk₂).trans hk₃)
  simp only
  split
  · refine runs_then (runs_narrow hskipped htaken₃ fun _ _ => trivial) fun _ s₄ hk₄ _ => ?_
    refine runs_bind_told (hv.inArm (hright.keeps hs₃ hk₄) (hk₄.hasArm htaken₃)) rfl rfl
      fun rightType s₅ _ => ?_
    refine runs_then (runs_onTable? (fun h => Table.growing_removeNullish? h) fun _ _ => trivial)
      fun rest s₆ _ _ => ?_
    exact runs_made fun t => Table.extends_union t _
  · refine runs_then (runs_narrow htaken₃ hskipped fun _ _ => trivial) fun _ s₄ hk₄ _ => ?_
    exact runs_bind_told (hv.inArm (hright.keeps hs₃ hk₄) (hk₄.hasArm htaken₃)) rfl rfl
      fun rightType _ _ => runs_pure .some

theorem runs_verifyConditional (hv : Visits S n v v') {test consequent alternate : Expr}
    (htest : s.At n (.expr test)) (hc : s.At n (.expr consequent))
    (ha : s.At n (.expr alternate)) :
    Runs S spared s (verifyConditional v test consequent alternate)
      (verifyConditional v' test consequent alternate) Told := by
  refine .of_sound fun hs => ?_
  refine runs_then (hv.value htest).ignore fun _ s₁ hk₁ hs₁ => ?_
  refine runs_bind (runs_openArms test) fun arms s₂ hk₂ hs₂ ⟨hholds, hfails⟩ => ?_
  have hk := hk₁.trans hk₂
  refine runs_bind (hv.inArm (hc.keeps hs hk) hholds) fun one s₃ hk₃ _ hone => ?_
  refine runs_bind (hv.inArm ((ha.keeps hs hk).keeps hs₂ hk₃) (hk₃.hasArm hfails))
    fun other s₄ hk₄ _ hother => ?_
  cases one with
  | none => exact runs_pure (hone.none_of hk₄)
  | some one =>
    cases other with
    | none => exact runs_pure hother
    | some other => exact runs_made fun t => Table.extends_union t _

end HeaderCheck.Verify
