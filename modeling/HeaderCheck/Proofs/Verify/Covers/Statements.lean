import HeaderCheck.Proofs.Verify.Covers.Calls
import HeaderCheck.Proofs.Verify.Frame

/-!
# HeaderCheck.Proofs.Verify.Covers.Statements

Statements and branches that report nothing: all their parts have been visited.

* `passes_narrow`: what conditions say about types is not about functions.
* `covers_openArms`: the arms of a condition belong to the file or function around it.
-/

namespace HeaderCheck.Verify

open HeaderCheck.Scope (Arena ScopeId)
open HeaderCheck.Scope.Arena (Operation)
open HeaderCheck.Script
open HeaderCheck.Types (Table TypeId)
open HeaderCheck.Types.Table (Growing)

variable {s : State} {owner : ScopeId} {v : Visitor}

/-! ## Variables -/

theorem covers_verifyDeclaredVariable (hv : v.Covers) (ho : s.Under owner) (name : String)
    (declared : TypeId) (init : Expr) :
    Covers owner [] s (verifyDeclaredVariable v name declared init)
      fun _ => (Node.expr init).direct := by
  refine covers_bind (hv.into ho init _) fun actual s₁ _ => ?_
  cases actual with
  | none => exact covers_pure (List.Subset.refl _)
  | some actual =>
    simp only
    split
    · refine covers_get_bind (covers_pass (passes_onArena (.forceUpdateVar _ _ _) rfl rfl)
        fun _ _ _ => covers_pure (List.Subset.refl _))
    · exact covers_pass passes_checkFits fun _ _ _ => covers_pure (List.Subset.refl _)

theorem direct_of_isNullLiteral {e : Expr} (h : isNullLiteral e) : (Node.expr e).direct = [] := by
  cases e <;> first
    | cases h
    | simp [Node.direct_eq, Node.function?, Node.parts, Node.exprParts]

theorem covers_verifyNewVariable (hv : v.Covers) (ho : s.Under owner) (name : String)
    (init : Expr) :
    Covers owner [] s (verifyNewVariable v name init) fun _ => (Node.expr init).direct := by
  refine covers_get_bind ?_
  simp only
  split
  · next hnull =>
    rw [direct_of_isNullLiteral hnull]
    exact (passes_onArena (.addVar _ _ _) rfl rfl).covers fun _ => List.Subset.refl _
  · refine covers_bind (hv.into ho init none) fun actual s₁ _ => ?_
    cases actual with
    | some actual =>
      exact (passes_onArena (.addVar _ _ _) rfl rfl).covers fun _ => List.Subset.refl _
    | none => exact (passes_modify ⟨_, _, _, rfl⟩).covers fun _ => List.Subset.refl _

theorem covers_verifyDeclarator (hv : v.Covers) (ho : s.Under owner) (declarator : Declarator) :
    Covers owner [] s (verifyDeclarator v declarator)
      fun _ => directIn declarator.init.toList := by
  refine covers_get_bind ?_
  simp only
  split
  · next hinit =>
    simpa [hinit, directIn] using covers_verifyDeclaredVariable hv ho _ _ _
  · next hinit =>
    rw [hinit]
    exact covers_pure (List.Subset.refl _)
  · next hinit =>
    rw [hinit]
    exact (passes_onArena (.addVar _ _ _) rfl rfl).covers fun _ => List.Subset.refl _
  · next hinit =>
    simpa [hinit, directIn] using covers_verifyNewVariable hv ho _ _

/-- The functions in the initial values of variables. -/
theorem direct_initials (declarators : List Declarator) :
    (Node.initials declarators).flatMap Node.direct =
      declarators.flatMap fun declarator => directIn declarator.init.toList := by
  simp [Node.initials, directIn, List.flatMap_assoc, List.flatMap_map]

theorem covers_verifyDeclarators (hv : v.Covers) (ho : s.Under owner)
    (declarators : List Declarator) :
    Covers owner [] s (verifyDeclarators v declarators)
      fun _ => declarators.flatMap fun declarator => directIn declarator.init.toList := by
  induction declarators generalizing s with
  | nil => exact covers_pure (List.Subset.refl _)
  | cons declarator rest ih =>
    refine covers_bind (covers_verifyDeclarator hv ho declarator) fun _ s₁ hl =>
      (ih (hl.under ho)).frame fun _ => ?_
    exact List.Subset.refl _

/-! ## Return statements -/

theorem covers_whileReturning {α : Type} (expected : TypeId) {m : Check α}
    {owed : α → List (FunctionKind × Function)}
    (h : ∀ {s₁}, s.Leads s₁ → Covers owner [] s₁ m owed) :
    Covers owner [] s (whileReturning expected m) owed := by
  refine covers_get_bind (covers_pass (passes_onArena (.enterReturn _ _) rfl rfl) fun _ s₁ hl => ?_)
  have hinOrder : Covers owner [] s₁ (do
      let a ← m
      onArena fun arena => arena.exitReturn s.focus.scope
      pure a) owed :=
    covers_bind (h hl) fun _ _ _ => covers_pass (passes_onArena (.exitReturn _) rfl rfl)
      fun _ _ _ => covers_pure (List.Subset.refl _)
  -- a run that succeeds leaves the return statement after its argument
  intro a s' hrun
  refine hinOrder a s' ?_
  rcases hm : m.run s₁ with ⟨result, after⟩
  rw [ExceptT.run_mk, hm] at hrun
  simp only at hrun
  split at hrun
  · next hexit =>
    cases hrun
    rw [run_bind_ok hm, run_bind_ok hexit]
    rfl
  · cases hrun

theorem covers_returnedType (hv : v.Covers) (ho : s.Under owner) (argument : Option Expr) :
    Covers owner [] s (returnedType v argument) fun _ => directIn argument.toList := by
  cases argument with
  | none => exact covers_pure (List.Subset.refl _)
  | some argument =>
    refine covers_bind (hv.value ho argument) fun type s₁ _ => covers_pure ?_
    simp [directIn]

theorem covers_verifyReturn (hv : v.Covers) (ho : s.Under owner) (argument : Option Expr)
    (span : Span) :
    Covers owner [] s (verifyReturn v argument span) fun _ => directIn argument.toList := by
  refine covers_get_bind ?_
  split
  · next argument _ =>
    refine covers_bind (hv.expr argument ho) fun _ _ _ => covers_pure ?_
    simp [directIn]
  · exact covers_pure (List.Subset.refl _)
  · refine covers_bind (covers_whileReturning _ fun hl => covers_returnedType hv (hl.under ho) _)
      fun _ _ _ => ?_
    exact (passes_onArena (.markReturnType _ _ _) rfl rfl).covers fun _ => List.Subset.refl _

/-! ## Conditions -/

theorem passes_narrowIn (scope : ScopeId) (name : String)
    {change : Table → TypeId → Option (TypeId × Table)} (hgrow : Growing change) :
    Passes s (narrowIn scope name change) := by
  refine passes_get_bind ?_
  split
  · exact passes_pure _
  refine passes_bind (passes_onTable? fun hmade => hgrow hmade) fun narrowed _ _ => ?_
  cases narrowed with
  | none => exact passes_pure _
  | some narrowed => exact passes_onArena (.restrict _ _ _) rfl rfl

theorem passes_narrowComparison (operator : String) (left right : Expr) (holds fails : ScopeId) :
    Passes s (narrowComparison operator left right holds fails) := by
  rw [narrowComparison]
  split
  · exact passes_pure _
  split
  · exact passes_bind (passes_narrowIn _ _ (Table.growing_narrowByTypeof? _ _)) fun _ _ _ =>
      passes_narrowIn _ _ (Table.growing_narrowByTypeof? _ _)
  split
  · exact passes_bind (passes_narrowIn _ _ (Table.growing_narrowByValue? _ _)) fun _ _ _ =>
      passes_narrowIn _ _ (Table.growing_narrowByValue? _ _)
  · exact passes_pure _

theorem passes_narrow (test : Expr) (holds fails : ScopeId) :
    Passes s (narrow test holds fails) := by
  fun_induction narrow test holds fails generalizing s with
  | case1 id holds fails =>
    exact passes_bind (passes_narrowIn _ _ Table.growing_removeNullish?) fun _ _ _ =>
      passes_narrowIn _ _ Table.growing_falsyPart?
  | case2 argument _ _ holds fails ih => exact ih
  | case3 operator argument _ _ holds fails _ => exact passes_pure _
  | case4 operator left right _ holds fails => exact passes_narrowComparison _ _ _ _ _
  | case5 operator left right _ holds fails ihAndLeft ihAndRight ihOrLeft ihOrRight =>
    refine passes_bind passes_openBranch fun scratch _ _ => ?_
    split
    · exact passes_bind (ihAndLeft scratch) fun _ _ _ => ihAndRight scratch
    split
    · exact passes_bind (ihOrLeft scratch) fun _ _ _ => ihOrRight scratch
    · exact passes_pure _
  | case6 => exact passes_pure _

/-! ## Arms -/

section Arms

variable {α : Type} {done : List (FunctionKind × Function)}
  {owed : α → List (FunctionKind × Function)}

theorem covers_openBranch (ho : s.Under owner) {f : ScopeId → Check α}
    (hf : ∀ branch s₁, s.Leads s₁ → s₁.arena.Under owner branch →
      Covers owner done s₁ (f branch) owed) :
    Covers owner done s (openBranch >>= f) owed := by
  refine covers_pass_run passes_openBranch fun branch s₁ hrun hl => hf branch s₁ hl ?_
  cases hrun
  exact ho.focus.pushBranch

/-- The arms of a condition belong to the file or function around it. -/
theorem covers_openArms (ho : s.Under owner) (test : Expr) {f : ScopeId × ScopeId → Check α}
    (hf : ∀ holds fails s₁, s.Leads s₁ → s₁.arena.Under owner holds →
      s₁.arena.Under owner fails → Covers owner done s₁ (f (holds, fails)) owed) :
    Covers owner done s (openArms test >>= f) owed := by
  simp only [openArms, bind_assoc, pure_bind]
  refine covers_openBranch ho fun holds s₁ hl₁ hholds => ?_
  refine covers_openBranch (hl₁.under ho) fun fails s₂ hl₂ hfails => ?_
  refine covers_pass (passes_narrow test holds fails) fun _ s₃ hl₃ => ?_
  exact hf holds fails s₃ ((hl₁.trans hl₂).trans hl₃) (hholds.retains (hl₂.trans hl₃).scopes)
    (hfails.retains hl₃.scopes)

end Arms

theorem passes_settle (entries : List (String × TypeId)) : Passes s (settle entries) := by
  induction entries generalizing s with
  | nil => exact passes_pure _
  | cons entry rest ih =>
    refine passes_get_bind ?_
    simp only
    split
    · exact passes_bind (passes_onArena (.restrict _ _ _) rfl rfl) fun _ _ _ => ih
    · exact ih

theorem passes_mergeArms (holds fails : ScopeId) : Passes s (mergeArms holds fails) :=
  passes_get_bind (passes_settle _)

/-! ## Statements with branches -/

theorem covers_verifyIf (hv : v.Covers) (ho : s.Under owner) (test : Expr) (consequent : Stmt)
    (alternate : Option Stmt) :
    Covers owner [] s (verifyIf v test consequent alternate) fun _ =>
      (Node.expr test).direct ++ (Node.stmt consequent).direct ++ directOf alternate.toList := by
  have hmerge {s : State} (holds fails : ScopeId) {done : List (FunctionKind × Function)} :
      Covers owner done s (mergeArms holds fails) fun _ => done :=
    (passes_mergeArms holds fails).covers fun _ => List.Subset.refl _
  refine covers_bind (hv.value ho test) fun _ s₁ hl₁ => ?_
  refine covers_openArms (hl₁.under ho) test fun holds fails s₂ hl₂ hholds hfails => ?_
  have horderly := (hl₁.trans hl₂).orderly ho.orderly
  refine covers_bind (covers_inScope hholds horderly fun ho' => hv.stmt consequent ho')
    fun _ s₃ hl₃ => ?_
  cases alternate with
  | none => simpa [directOf_eq] using hmerge holds fails
  | some alternate =>
    refine covers_bind (covers_inScope (hfails.retains hl₃.scopes) (hl₃.orderly horderly)
      fun ho' => hv.stmt alternate ho') fun _ s₄ _ => ?_
    simpa [directOf_eq] using hmerge holds fails

theorem covers_verifyWhile (hv : v.Covers) (ho : s.Under owner) (test : Expr) (body : Stmt) :
    Covers owner [] s (verifyWhile v test body) fun _ =>
      (Node.expr test).direct ++ (Node.stmt body).direct := by
  refine covers_bind (hv.value ho test) fun _ s₁ hl₁ => ?_
  refine covers_openArms (hl₁.under ho) test fun holds fails s₂ hl₂ hholds _ => ?_
  exact (covers_inScope hholds ((hl₁.trans hl₂).orderly ho.orderly)
    fun ho' => hv.stmt body ho').frame fun _ => List.Subset.refl _

theorem covers_verifyForInit (hv : v.Covers) (ho : s.Under owner) (init : Option ForInit) :
    Covers owner [] s (verifyForInit v init) fun _ => (Node.initParts init).flatMap Node.direct := by
  match init with
  | none => exact covers_pure (List.Subset.refl _)
  | some (.declaration declaration) =>
    rw [Node.initParts, direct_initials]
    exact covers_verifyDeclarators hv ho _
  | some (.expression e) =>
    refine covers_bind (hv.value ho e) fun _ _ _ => covers_pure ?_
    simp [Node.initParts]

/-- The condition of a loop, if it has one, is verified before its arms are narrowed. -/
theorem covers_verifyTest (hv : v.Covers) (ho : s.Under owner) (test : Option Expr)
    (holds fails : ScopeId) {rest : Check Unit} {done : List (FunctionKind × Function)}
    {owed : Unit → List (FunctionKind × Function)}
    (h : ∀ {s₁}, s.Leads s₁ → Covers owner (done ++ directIn test.toList) s₁ rest owed) :
    Covers owner done s (do
      match test with
      | some test =>
        let _ ← v.value test
        narrow test holds fails
      | none => pure ()
      rest) owed := by
  cases test with
  | none => simpa [directIn] using h (.refl s)
  | some test =>
    simp only
    refine covers_bind (hv.value ho test) fun _ s₁ hl₁ => ?_
    refine covers_pass (passes_narrow test holds fails) fun _ s₂ hl₂ => ?_
    simpa [directIn] using h (hl₁.trans hl₂)

theorem covers_loopBody (hv : v.Covers) (ho : s.Under owner) (body : Stmt) (update : Option Expr) :
    Covers owner [] s (do
      v.stmt body
      match update with
      | some update =>
        let _ ← v.value update
      | none => pure ()) fun _ => (Node.stmt body).direct ++ directIn update.toList := by
  refine covers_bind (hv.stmt body ho) fun _ s₁ hl => ?_
  cases update with
  | none => exact covers_pure (by simp [directIn])
  | some update =>
    exact covers_bind (hv.value (hl.under ho) update) fun _ _ _ => covers_pure (by simp [directIn])

theorem covers_verifyFor (hv : v.Covers) (ho : s.Under owner) (init : Option ForInit)
    (test update : Option Expr) (body : Stmt) :
    Covers owner [] s (verifyFor v init test update body) fun _ =>
      (Node.initParts init).flatMap Node.direct ++ directIn test.toList ++
        ((Node.stmt body).direct ++ directIn update.toList) := by
  refine covers_bind (covers_verifyForInit hv ho init) fun _ s₁ hl₁ => ?_
  refine covers_openBranch (hl₁.under ho) fun holds s₂ hl₂ hholds => ?_
  refine covers_openBranch ((hl₁.trans hl₂).under ho) fun fails s₃ hl₃ _ => ?_
  have hl : s.Leads s₃ := (hl₁.trans hl₂).trans hl₃
  refine covers_verifyTest hv (hl.under ho) test holds fails fun hl₄ => ?_
  exact (covers_inScope (hholds.retains (hl₃.trans hl₄).scopes) ((hl.trans hl₄).orderly ho.orderly)
    fun ho' => covers_loopBody hv ho' body update).frame fun _ => List.Subset.refl _

/-! ## Expressions with branches -/

/-- An operand is all there is to verify where only work that passes comes after it. -/
theorem covers_bind_some {m : Check (Option TypeId)} {next : TypeId → Check (Option TypeId)}
    {done functions : List (FunctionKind × Function)} (h : Covers owner [] s m fun _ => functions)
    (hnext : ∀ {s : State} type, Passes s (next type)) :
    Covers owner done s (do
      match ← m with
      | none => return none
      | some type => next type) (owing (done ++ functions)) := by
  refine covers_bind h fun type s₁ _ => ?_
  cases type with
  | none => exact covers_none
  | some type => exact (hnext type).covers_owing (List.Subset.refl _)

theorem covers_verifyLogical (hv : v.Covers) (ho : s.Under owner) (operator : String)
    (left right : Expr) :
    Covers owner [] s (verifyLogical v operator left right)
      (owing ((Node.expr left).direct ++ (Node.expr right).direct)) := by
  refine covers_bind (hv.value ho left) fun leftType s₁ hl₁ => ?_
  cases leftType with
  | none => exact covers_none
  | some leftType =>
    simp only
    refine covers_openBranch (hl₁.under ho) fun taken s₂ hl₂ htaken => ?_
    refine covers_openBranch ((hl₁.trans hl₂).under ho) fun skipped s₃ hl₃ _ => ?_
    have hright {s₄ : State} (hl₄ : s₃.Leads s₄) :
        Covers owner [] s₄ (inScope taken (v.expr right)) fun _ => (Node.expr right).direct := by
      have horderly := (((hl₁.trans hl₂).trans hl₃).trans hl₄).orderly ho.orderly
      exact covers_inScope (htaken.retains (hl₃.trans hl₄).scopes) horderly
        fun ho' => hv.expr right ho'
    by_cases hor : operator = "||"
    · simp only [hor, if_true]
      refine covers_pass (passes_narrow _ _ _) fun _ s₄ hl₄ => covers_bind_some (hright hl₄) ?_
      intro _ rightType
      exact passes_bind (passes_onTable? fun hmade => Table.growing_removeNullish? hmade)
        fun _ _ _ => passes_made (Table.extends_union _ _)
    · simp only [hor, if_false]
      exact covers_pass (passes_narrow _ _ _) fun _ s₄ hl₄ =>
        covers_bind_some (hright hl₄) fun _ => passes_pure _

theorem covers_verifyConditional (hv : v.Covers) (ho : s.Under owner)
    (test consequent alternate : Expr) :
    Covers owner [] s (verifyConditional v test consequent alternate)
      (owing ((Node.expr test).direct ++ (Node.expr consequent).direct ++
        (Node.expr alternate).direct)) := by
  refine covers_bind (hv.value ho test) fun _ s₁ hl₁ => ?_
  refine covers_openArms (hl₁.under ho) test fun holds fails s₂ hl₂ hholds hfails => ?_
  have horderly := (hl₁.trans hl₂).orderly ho.orderly
  refine covers_bind (covers_inScope hholds horderly fun ho' => hv.expr consequent ho')
    fun consequentType s₃ hl₃ => ?_
  refine covers_bind (covers_inScope (hfails.retains hl₃.scopes) (hl₃.orderly horderly)
    fun ho' => hv.expr alternate ho') fun alternateType s₄ _ => ?_
  split
  · exact (passes_made (Table.extends_union _ _)).covers_owing (List.Subset.refl _)
  · exact covers_none

end HeaderCheck.Verify
