import HeaderCheck.Proofs.Verify.Region.Statements
import HeaderCheck.Proofs.Verify.Tandem.Expressions

/-!
# HeaderCheck.Proofs.Verify.Tandem.Statements

Statements and branches side by side.

* `Both.Arm`: a branch of the scope at hand, in which variables may be narrowed.
* `matched_verifyExpr`, `matched_verifyStmt`: one node, given the visitors of its parts.
* `tandem_visitor`: chains of visits, by induction on their length.
-/

namespace HeaderCheck.Verify

open HeaderCheck.Project (Error SessionM)
open HeaderCheck.Scope (Arena ScopeId)
open HeaderCheck.Script
open HeaderCheck.Types (Table TypeId)

variable {α : Type} {C : Comparison} {p q : Both C} {π : Pairing C.exact} {v v' : Visitor}

/-! ## Variables -/

theorem Both.Twins.ownDeclaredType?_eq (ht : p.Twins) (name : String) :
    p.right.ownDeclaredType? name = p.left.ownDeclaredType? name := by
  rw [State.ownDeclaredType?, State.ownDeclaredType?, ht.owner_eq, ht.arena.hasOwnVar_eq, ht.typeIn_eq]

theorem Both.Twins.owner_owns (ht : p.Twins) : p.left.Owns p.left.owner := by
  obtain ⟨scope, hscope, hb, -⟩ := ht.sound.owner_spec ht.inside
  exact ⟨scope, hscope, hb⟩

theorem matched_verifyDeclaredVariable (hv : v.Tandem C v') (hp : p.At π) (name : String)
    (declared : TypeId) {init init' : Expr} (h : Expr.Like π init init') :
    Matched p (verifyDeclaredVariable v name declared init)
      (verifyDeclaredVariable v' name declared init') := by
  refine (hv.into hp h _).bind fun actual q _ => ?_
  cases actual with
  | none => exact tandem_pure trivial
  | some actual =>
    simp only
    split
    · refine tandem_get_bind fun ht => ?_
      rw [ht.owner_eq]
      exact (matched_forceUpdateVar _ _ _).bind fun _ _ _ => tandem_pure trivial
    · exact (matched_checkFits h.span _ _).bind fun _ _ _ => tandem_pure trivial

theorem matched_verifyNewVariable (hv : v.Tandem C v') (hp : p.At π) (name : String)
    {init init' : Expr} (h : Expr.Like π init init') :
    Matched p (verifyNewVariable v name init) (verifyNewVariable v' name init') := by
  refine tandem_get_bind fun ht => ?_
  simp only [ht.owner_eq, isNullLiteral_eq h]
  split
  · exact matched_addVar (fun ht => ht.owner_owns) _ _
  refine (hv.into hp h _).bind fun actual q hq => ?_
  cases actual with
  | some actual => exact matched_addVar (fun _ => State.Owns.after ht.owner_owns hq) _ _
  | none =>
    exact matched_modify (fun ht => { ht with unknown := congrArg (name :: ·) ht.unknown }) rfl ⟨rfl, rfl, rfl⟩ ⟨rfl, rfl, rfl⟩

theorem matched_verifyDeclarator (hv : v.Tandem C v') (hp : p.At π)
    {declarator declarator' : Declarator} (hname : declarator'.id.name = declarator.id.name)
    (h : ExprLike? π declarator.init declarator'.init) :
    Matched p (verifyDeclarator v declarator) (verifyDeclarator v' declarator') := by
  refine tandem_get_bind fun ht => ?_
  simp only [hname, ht.ownDeclaredType?_eq, ht.owner_eq]
  generalize declarator.init = init at h
  generalize declarator'.init = init' at h
  cases p.left.ownDeclaredType? declarator.id.name with
  | some declared =>
    cases h with
    | some hlike => exact matched_verifyDeclaredVariable hv hp _ declared hlike
    | none => exact tandem_pure trivial
  | none =>
    cases h with
    | some hlike => exact matched_verifyNewVariable hv hp _ hlike
    | none => exact matched_addVar (fun ht => ht.owner_owns) _ _

theorem matched_verifyDeclarators (hv : v.Tandem C v') (hp : p.At π)
    {declarators declarators' : List Declarator} (h : DeclaratorsLike π declarators declarators') :
    Matched p (verifyDeclarators v declarators) (verifyDeclarators v' declarators') := by
  induction declarators generalizing p declarators' with
  | nil =>
    cases h
    exact tandem_pure trivial
  | cons declarator rest ih =>
    cases h with
    | cons hname hinit hothers =>
      exact (matched_verifyDeclarator hv hp hname hinit).bind fun _ q hq => ih (hp.after hq) hothers

/-! ## Return statements -/

/-- The function around, as it is known before and after work. -/
theorem functionScope?_isSome_of_modify {a : Arena} {id : ScopeId}
    {change : Scope.FunctionInfo → Scope.FunctionInfo} {result : Unit}
    (h : (a.modifyFunction id change).1 = .ok result) : ∃ found, a.functionScope? id = some found := by
  cases hfound : a.functionScope? id with
  | some found => exact ⟨found, rfl⟩
  | none =>
    rw [Arena.modifyFunction, hfound] at h
    cases h

/-- The return that is under way is left also after an error. -/
theorem matched_whileReturning (expected : TypeId) {m m' : Check α}
    (h : ∀ q, p.After q → Matched q m m') :
    Matched p (whileReturning expected m) (whileReturning expected m') := by
  refine tandem_get_bind fun ht => ?_
  rw [ht.scope]
  have henter : Tandem p (onArena fun a => a.enterReturn p.left.focus.scope expected)
      (onArena fun a => a.enterReturn p.left.focus.scope expected) fun _ _ =>
        ∃ found, p.left.arena.functionScope? p.left.focus.scope = some found :=
    tandem_onArena (fun ht => ht.arena.modifyFunction _ fun _ _ _ _ hinfo =>
        { hinfo with returnExpressionType := fun _ => rfl })
      (fun _ => Arena.onward_modifyFunction _ fun _ => rfl)
      fun _ hok _ => functionScope?_isSome_of_modify hok
  refine tandem_bind henter fun _ q hq hfunction => ?_
  obtain ⟨found, hfound⟩ := hfunction
  have hinside : p.left.focus.scope.index < q.left.arena.size :=
    Nat.lt_of_lt_of_le ht.inside hq.arena.size_le
  rw [← hq.functionScope?_eq_of_lt ht.inside] at hfound
  intro htq
  rcases h q hq htq with ⟨hresult, hwatched, harena⟩ | ⟨result, r, hrun, hrun', hr, -⟩
  · -- the function around is still there to be left
    rcases hrun : m.run q.left with ⟨result, s⟩
    rw [hrun] at hresult harena
    have hfound' : s.arena.functionScope? p.left.focus.scope = some found := by
      rw [harena.keeps.functionScope?_eq htq.sound.ordered hinside, hfound]
    have hexit : s.arena.Onward C.narrowing (s.arena.exitReturn p.left.focus.scope).2 :=
      Arena.onward_modifyFunction _ fun _ => rfl
    have hok : (s.arena.exitReturn p.left.focus.scope).1 = .ok () := by
      rw [Arena.exitReturn, Arena.modifyFunction, hfound']
    have hleave : (onArena fun a => a.exitReturn p.left.focus.scope).run s =
        (.ok (), { s with arena := (s.arena.exitReturn p.left.focus.scope).2 }) := by
      rw [run_onArena, hok]
      rfl
    refine .inl ⟨?_, hwatched, ?_⟩ <;> rw [ExceptT.run_mk, hrun] <;> simp only [hleave]
    · exact hresult
    · exact harena.trans hexit
  · have hexit : Tandem r (onArena fun a => a.exitReturn p.left.focus.scope)
        (onArena fun a => a.exitReturn p.left.focus.scope) fun _ _ => True :=
      matched_onArena (fun ht => ht.arena.modifyFunction _ fun _ _ _ _ hinfo =>
          { hinfo with returnExpressionType := fun _ => rfl })
        fun _ => Arena.onward_modifyFunction _ fun _ => rfl
    rcases hexit hr.twins with ⟨hleft, -⟩ | ⟨left, r₁, hrun₁, hrun₁', hr₁, -⟩
    · rw [run_onArena] at hleft
      cases hexited : (r.left.arena.exitReturn p.left.focus.scope).1 <;>
      · rw [hexited] at hleft
        cases hleft
    refine .inr ?_
    cases left with
    | error e =>
      refine ⟨.error e, r₁, ?_, ?_, hr.trans hr₁, by rintro _ ⟨⟩⟩
      · rw [ExceptT.run_mk, hrun]
        simp only [hrun₁]
      · rw [ExceptT.run_mk, hrun']
        simp only [hrun₁']
    | ok _ =>
      refine ⟨result, r₁, ?_, ?_, hr.trans hr₁, fun _ _ => trivial⟩
      · rw [ExceptT.run_mk, hrun]
        simp only [hrun₁]
      · rw [ExceptT.run_mk, hrun']
        simp only [hrun₁']

theorem matched_verifyReturn (hv : v.Tandem C v') (hp : p.At π) (heven : p.Even)
    {argument argument' : Option Expr} (h : ExprLike? π argument argument') {span span' : Span}
    (hplace : SamePlace C.exact span span') :
    Matched p (verifyReturn v argument span) (verifyReturn v' argument' span') := by
  have hreturned {q : Both C} (hq : q.At π) :
      Matched q (returnedType v argument) (returnedType v' argument') := by
    cases h with
    | some hlike => exact (hv.value hq hlike).bind fun _ _ _ => tandem_pure trivial
    | none => exact tandem_pure trivial
  refine tandem_get_bind fun ht => ?_
  have hinfo := ht.arena.functionInfo?_rel p.left.focus.scope
  rw [ht.scope]
  generalize p.left.arena.functionInfo? p.left.focus.scope = info at hinfo
  generalize p.right.arena.functionInfo? p.left.focus.scope = info' at hinfo
  cases hinfo with
  | none =>
    cases h with
    | some hlike => exact (hv.expr hp hlike (.inl heven)).bind fun _ _ _ => tandem_pure trivial
    | none => exact tandem_pure trivial
  | some hinfo =>
    simp only [hinfo.returnType]
    refine (matched_whileReturning _ fun q hq => hreturned (hp.after hq)).bind fun returned q _ => ?_
    exact matched_onArena (fun ht => ht.arena.modifyFunction _ fun _ _ _ _ hinfo =>
        { hinfo with
          knownReturnType := rfl
          returnSpan := fun hexact => congrArg some (hplace hexact) })
      fun _ => Arena.onward_modifyFunction _ fun _ => rfl

/-! ## Conditions -/

theorem matched_narrowIn {scope : ScopeId} (hscope : C.narrowing scope) (name : String)
    (change : Table → TypeId → Option (TypeId × Table)) :
    Matched p (narrowIn scope name change) (narrowIn scope name change) := by
  refine tandem_get_bind fun ht => ?_
  rw [ht.typeIn_eq]
  split
  · exact tandem_pure trivial
  refine (matched_onTable? _).bind fun narrowed _ _ => ?_
  cases narrowed with
  | none => exact tandem_pure trivial
  | some narrowed => exact matched_restrict hscope _ _

/-- A branch of the scope at hand. -/
structure Both.Arm (p : Both C) (branch : ScopeId) : Prop where
  inside : branch.index < p.left.arena.size
  owner : p.left.arena.owner branch = p.left.owner
  function : p.left.arena.functionScope? branch = p.left.arena.functionScope? p.left.focus.scope
  narrowing : C.narrowing branch

theorem Both.Arm.after {branch : ScopeId} (h : p.Arm branch) (hq : p.After q) : q.Arm branch where
  inside := Nat.lt_of_lt_of_le h.inside hq.arena.size_le
  owner := by rw [hq.owner_eq_of_lt h.inside, hq.owner_eq, h.owner]
  function := by
    rw [hq.focus, hq.functionScope?_eq_of_lt h.inside,
      hq.functionScope?_eq_of_lt hq.before.inside, h.function]
  narrowing := h.narrowing

theorem tandem_openBranch : Tandem p openBranch openBranch fun branch q => q.Arm branch := by
  refine .of_twins fun ht => ?_
  obtain ⟨hid, htwins⟩ := ht.arena.pushBranch p.left.focus.scope
  have hon : p.left.arena.Onward C.narrowing (p.left.arena.pushBranch p.left.focus.scope).2 :=
    Arena.onward_pushBranch ht.inside
  have hsound := hon.sound ht.sound
  let q := p.withArenas p.world (p.left.arena.pushBranch p.left.focus.scope).2
    (p.right.arena.pushBranch p.left.focus.scope).2
  have hq : p.After q := ht.after_withArenas (fun _ _ => rfl) hon htwins
  have hbranch : q.left.arena.scope? ⟨p.left.arena.size⟩ =
      some { parent := some p.left.focus.scope, kind := .branch none } := by
    simp [q, Both.withArenas, Arena.pushBranch, Arena.scope?_push]
  have hnearest : q.left.arena.nearest? ⟨p.left.arena.size⟩ =
      q.left.arena.nearest? p.left.focus.scope :=
    hsound.nearest?_eq hbranch
  refine tandem_of_run (q := q) (run_openBranch _) ?_ (fun _ => hq) fun _ => ?_
  · rw [run_openBranch, ht.scope, ht.arena.size_eq]
    rfl
  refine ⟨Arena.index_lt_size hbranch, ?_, ?_, ht.fresh _ (Nat.le_refl _)⟩
  · exact hsound.owner_of_branch hbranch rfl rfl
  · rw [Arena.functionScope?_eq_nearest?, Arena.functionScope?_eq_nearest?, hnearest]
    rfl

theorem matched_narrow {test test' : Expr} (h : Expr.Like π test test') {holds fails : ScopeId}
    (hholds : C.narrowing holds) (hfails : C.narrowing fails) :
    Matched p (narrow test holds fails) (narrow test' holds fails) := by
  have htwice {p : Both C} {scope other : ScopeId} (hscope : C.narrowing scope)
      (hother : C.narrowing other) (name : String)
      (change change' : Table → TypeId → Option (TypeId × Table)) :
      Matched p (do narrowIn scope name change; narrowIn other name change')
        (do narrowIn scope name change; narrowIn other name change') :=
    (matched_narrowIn hscope _ _).bind fun _ _ _ => matched_narrowIn hother _ _
  fun_induction narrow test holds fails generalizing p test' with
  | case1 id holds fails =>
    cases h with
    | identifier hname _ =>
      simp only [narrow, hname]
      exact htwice hholds hfails _ _ _
  | case2 argument _ _ holds fails ih =>
    cases h with
    | unary hargument _ =>
      simp only [narrow, if_true]
      exact ih hargument hfails hholds
  | case3 operator argument _ _ holds fails hoperator =>
    cases h with
    | unary hargument _ =>
      simp only [narrow, if_neg hoperator]
      exact tandem_pure trivial
  | case4 operator left right _ holds fails =>
    cases h with
    | binary hleft hright _ =>
      simp only [narrow, narrowComparison, eitherOrder_eq typeofOperand?_eq stringLiteral?_eq hleft hright,
        eitherOrder_eq guarded?_eq nullish?_eq hleft hright]
      split
      · exact tandem_pure trivial
      split
      · exact htwice hholds hfails _ _ _
      split
      · exact htwice hholds hfails _ _ _
      · exact tandem_pure trivial
  | case5 operator left right _ holds fails ihl ihr ihl' ihr' =>
    cases h with
    | logical hleft hright _ =>
      simp only [narrow]
      refine tandem_bind tandem_openBranch fun scratch q _ hscratch => ?_
      split
      · exact (ihl scratch hleft hholds hscratch.narrowing).bind fun _ _ _ =>
          ihr scratch hright hholds hscratch.narrowing
      split
      · exact (ihl' scratch hleft hscratch.narrowing hfails).bind fun _ _ _ =>
          ihr' scratch hright hscratch.narrowing hfails
      · exact tandem_pure trivial
  | case6 e holds fails hid hunary hbinary hlogical =>
    cases h with
    | identifier _ _ => exact (hid _ rfl).elim
    | unary _ _ => exact (hunary _ _ _ _ rfl).elim
    | binary _ _ _ => exact (hbinary _ _ _ _ rfl).elim
    | logical _ _ _ => exact (hlogical _ _ _ _ rfl).elim
    | _ => exact tandem_pure trivial

/-! ## Arms -/

theorem tandem_openArms {test test' : Expr} (h : Expr.Like π test test') :
    Tandem p (openArms test) (openArms test') fun arms q => q.Arm arms.1 ∧ q.Arm arms.2 := by
  refine tandem_bind tandem_openBranch fun holds q _ hholds => ?_
  refine tandem_bind tandem_openBranch fun fails q₁ hq₁ hfails => ?_
  refine (matched_narrow h hholds.narrowing hfails.narrowing).bind fun _ q₂ hq₂ => ?_
  exact tandem_pure ⟨(hholds.after hq₁).after hq₂, hfails.after hq₂⟩

/-- The two states at a branch. -/
def Both.inArm (p : Both C) (branch : ScopeId) : Both C :=
  p.refocus { p.left.focus with scope := branch } { p.right.focus with scope := branch }

namespace Both.Arm

variable {branch : ScopeId} (h : p.Arm branch)

include h

theorem atArm (hworld : p.world p.left.owner = π) : (p.inArm branch).At π where
  world := by
    change p.world (p.left.arena.owner branch) = π
    rw [h.owner, hworld]
  narrowing := h.narrowing

theorem slots {e : Expr} (hslot : p.Slots e) : (p.inArm branch).Slots e := by
  refine hslot.imp_right fun ⟨hu, hnone, hwatched⟩ => ⟨hu, hnone, ?_⟩
  change C.watched (p.left.arena.functionScope? branch)
  rw [h.function]
  exact hwatched

theorem matched_inScope {m m' : Check α} (hm : Matched (p.inArm branch) m m') :
    Matched p (inScope branch m) (inScope branch m') :=
  tandem_withFocus (fun _ => h.inside) (fun _ => rfl) (fun ht => ht.mode) (fun ht => ht.isTarget) hm
    fun _ _ _ _ => trivial

theorem matched_expr (hv : v.Tandem C v') (hp : p.At π) {e e' : Expr} (hlike : Expr.Like π e e')
    (hslot : p.Slots e) : Matched p (inScope branch (v.expr e)) (inScope branch (v'.expr e')) :=
  h.matched_inScope (hv.expr (h.atArm hp.world) hlike (h.slots hslot))

theorem matched_stmt (hv : v.Tandem C v') (hworld : p.world p.left.owner = π) (heven : p.Even)
    {stmt stmt' : Stmt} (hlike : Stmt.Like π stmt stmt') :
    Matched p (inScope branch (v.stmt stmt)) (inScope branch (v'.stmt stmt')) :=
  h.matched_inScope (hv.stmt (h.atArm hworld) hlike heven)

/-- What is verified each time round a loop. -/
theorem matched_loopBody (hv : v.Tandem C v') (hworld : p.world p.left.owner = π) (heven : p.Even)
    {body body' : Stmt} (hbody : Stmt.Like π body body') {update update' : Option Expr}
    (hupdate : ExprLike? π update update') :
    Matched p
      (inScope branch do
        v.stmt body
        match update with
        | some update =>
          let _ ← v.value update
        | none => pure ())
      (inScope branch do
        v'.stmt body'
        match update' with
        | some update =>
          let _ ← v'.value update
        | none => pure ()) := by
  have harm := h.atArm hworld
  refine h.matched_inScope ?_
  refine (hv.stmt harm hbody heven).bind fun _ q hq => ?_
  cases hupdate with
  | none => exact tandem_pure trivial
  | some hlike => exact (hv.value (harm.after hq) hlike).bind fun _ _ _ => tandem_pure trivial

end Both.Arm

theorem matched_settle (hp : p.At π) (narrowed : List (String × TypeId)) :
    Matched p (settle narrowed) (settle narrowed) := by
  induction narrowed generalizing p with
  | nil => exact tandem_pure trivial
  | cons entry rest ih =>
    obtain ⟨name, type⟩ := entry
    refine tandem_get_bind fun ht => ?_
    simp only [ht.scope, ht.arena.restrictions_eq, ht.lookup_eq, ht.inBranch_eq]
    split
    · exact (matched_restrict hp.narrowing _ _).bind fun _ q hq => ih (hp.after hq)
    · exact ih hp

theorem matched_mergeArms (hp : p.At π) (holds fails : ScopeId) :
    Matched p (mergeArms holds fails) (mergeArms holds fails) := by
  refine tandem_get_bind fun ht => ?_
  simp only [ht.arena.restrictions_eq]
  exact matched_settle hp _

theorem matched_verifyIf (hv : v.Tandem C v') (hp : p.At π) (heven : p.Even) {test test' : Expr}
    {consequent consequent' : Stmt} {alternate alternate' : Option Stmt}
    (htest : Expr.Like π test test') (hconsequent : Stmt.Like π consequent consequent')
    (halternate : StmtLike? π alternate alternate') :
    Matched p (verifyIf v test consequent alternate) (verifyIf v' test' consequent' alternate') := by
  refine (hv.value hp htest).bind fun _ q hq => ?_
  refine tandem_bind (tandem_openArms htest) fun (holds, fails) q₁ hq₁ ⟨hholds, hfails⟩ => ?_
  have h₁ := hq.trans hq₁
  refine (hholds.matched_stmt hv (hp.after h₁).world (heven.after h₁) hconsequent).bind fun _ q₂ hq₂ => ?_
  have h₂ := h₁.trans hq₂
  cases halternate with
  | none => exact matched_mergeArms (hp.after h₂) holds fails
  | some hlike =>
    exact ((hfails.after hq₂).matched_stmt hv (hp.after h₂).world (heven.after h₂) hlike).bind
      fun _ _ hq₃ => matched_mergeArms (hp.after (h₂.trans hq₃)) holds fails

theorem matched_verifyWhile (hv : v.Tandem C v') (hp : p.At π) (heven : p.Even) {test test' : Expr}
    {body body' : Stmt} (htest : Expr.Like π test test') (hbody : Stmt.Like π body body') :
    Matched p (verifyWhile v test body) (verifyWhile v' test' body') := by
  refine (hv.value hp htest).bind fun _ q hq => ?_
  refine tandem_bind (tandem_openArms htest) fun (holds, fails) q₁ hq₁ ⟨hholds, _⟩ => ?_
  have h₁ := hq.trans hq₁
  exact hholds.matched_stmt hv (hp.after h₁).world (heven.after h₁) hbody

theorem matched_verifyForInit (hv : v.Tandem C v') (hp : p.At π) {init init' : Option ForInit}
    (h : ForInitLike? π init init') : Matched p (verifyForInit v init) (verifyForInit v' init') := by
  cases h with
  | none => exact tandem_pure trivial
  | declaration hdeclarators => exact matched_verifyDeclarators hv hp hdeclarators
  | expression hlike => exact (hv.value hp hlike).bind fun _ _ _ => tandem_pure trivial

theorem matched_verifyFor (hv : v.Tandem C v') (hp : p.At π) (heven : p.Even)
    {init init' : Option ForInit} {test test' update update' : Option Expr} {body body' : Stmt}
    (hinit : ForInitLike? π init init') (htest : ExprLike? π test test')
    (hupdate : ExprLike? π update update') (hbody : Stmt.Like π body body') :
    Matched p (verifyFor v init test update body) (verifyFor v' init' test' update' body') := by
  refine (matched_verifyForInit hv hp hinit).bind fun _ q hq => ?_
  refine tandem_bind tandem_openBranch fun holds q₁ hq₁ hholds => ?_
  refine tandem_bind tandem_openBranch fun fails q₂ hq₂ hfails => ?_
  have h₂ := (hq.trans hq₁).trans hq₂
  have hloop {r : Both C} (hr : q₂.After r) :=
    ((hholds.after hq₂).after hr).matched_loopBody hv (hp.after (h₂.trans hr)).world
      (heven.after (h₂.trans hr)) hbody hupdate
  cases htest with
  | none => exact .of_twins fun ht => hloop (.refl ht)
  | some hlike =>
    refine (hv.value (hp.after h₂) hlike).bind fun _ q₃ hq₃ => ?_
    exact (matched_narrow hlike hholds.narrowing hfails.narrowing).bind fun _ _ hq₄ =>
      hloop (hq₃.trans hq₄)

/-! ## Expressions with branches -/

theorem matched_verifyLogical (hv : v.Tandem C v') (hp : p.At π) (operator : String)
    {left left' right right' : Expr} (hleft : Expr.Like π left left')
    (hright : Expr.Like π right right') (hslot : p.Slots right) :
    Matched p (verifyLogical v operator left right) (verifyLogical v' operator left' right') := by
  refine (hv.value hp hleft).bind_some rfl rfl fun leftType q hq => ?_
  refine tandem_bind tandem_openBranch fun taken q₁ hq₁ htaken => ?_
  refine tandem_bind tandem_openBranch fun skipped q₂ hq₂ hskipped => ?_
  have h₂ := (hq.trans hq₁).trans hq₂
  have hrest {r : Both C} (hr : q₂.After r) := by
    have hr₂ := h₂.trans hr
    exact ((htaken.after hq₂).after hr).matched_expr hv (hp.after hr₂) hright (hslot.after hr₂)
  simp only
  split
  · refine (matched_narrow hleft hskipped.narrowing htaken.narrowing).bind fun _ q₃ hq₃ => ?_
    refine (hrest hq₃).bind_some rfl rfl fun rightType _ _ => ?_
    exact (matched_onTable? _).bind fun rest _ _ => matched_made _
  · refine (matched_narrow hleft htaken.narrowing hskipped.narrowing).bind fun _ q₃ hq₃ => ?_
    exact (hrest hq₃).bind_some rfl rfl fun rightType _ _ => tandem_pure trivial

theorem matched_verifyConditional (hv : v.Tandem C v') (hp : p.At π)
    {test test' consequent consequent' alternate alternate' : Expr}
    (htest : Expr.Like π test test') (hconsequent : Expr.Like π consequent consequent')
    (halternate : Expr.Like π alternate alternate') (hslot : p.Slots consequent)
    (hslot' : p.Slots alternate) :
    Matched p (verifyConditional v test consequent alternate)
      (verifyConditional v' test' consequent' alternate') := by
  refine (hv.value hp htest).bind fun _ q hq => ?_
  refine tandem_bind (tandem_openArms htest) fun (holds, fails) q₁ hq₁ ⟨hholds, hfails⟩ => ?_
  have h₁ := hq.trans hq₁
  refine (hholds.matched_expr hv (hp.after h₁) hconsequent (hslot.after h₁)).bind
    fun consequent q₂ hq₂ => ?_
  have h₂ := h₁.trans hq₂
  refine ((hfails.after hq₂).matched_expr hv (hp.after h₂) halternate (hslot'.after h₂)).bind
    fun alternate _ _ => ?_
  cases consequent with
  | none => exact tandem_pure trivial
  | some consequent =>
    cases alternate with
    | none => exact tandem_pure trivial
    | some alternate => exact matched_made _

/-! ## Nodes -/

/-- Whether the type of an expression itself may be taken from the context. -/
def asksContext (s : State) : Expr → Bool
  | .function _ => true
  | .call callee arguments span => Call.Infers { callee, arguments, span } s
  | _ => false

theorem matched_verifyExpr (hv : v.Tandem C v') (hp : p.At π) {e e' : Expr} (h : Expr.Like π e e')
    (hslot : p.Slots e) (hsettled : asksContext p.left e → p.Settled) :
    Matched p (verifyExpr v e) (verifyExpr v' e') := by
  cases h with
  | identifier hname hplace => exact matched_verifyIdentifier hname hplace
  | literal hvalue hregex _ =>
    simp only [verifyExpr, literalType, Literal.kind_eq hvalue hregex]
    exact tandem_pure trivial
  | this hplace => exact matched_verifyThis hplace
  | array helements _ =>
    refine matched_verifyArray hv hp (hslot.resolve_right fun hu => ?_) helements
    cases hu.1
  | object hproperties _ =>
    refine matched_verifyObject hv hp hproperties fun hne => hslot.resolve_right fun hu => ?_
    have hunslotted := hu.1
    rw [Expr.Unslotted, hne] at hunslotted
    cases hunslotted
  | function hfunction hkey =>
    exact matched_verifyFunctionExpr hv hp (hsettled rfl) hfunction hkey
  | assignment hleft hright hplace =>
    exact matched_verifyAssignment hv hp _ hleft hright (hslot.part fun hu => hu) hplace
  | member hobject hproperty hplace =>
    refine Access.Like.matched_verify hv hp ⟨hobject, hproperty, rfl, hplace⟩ ⟨?_, fun hc => ?_⟩ <;>
    · refine hslot.part fun hu => ?_
      simp_all [Expr.Unslotted]
  | @call _ callee callee' arguments arguments' span span' hcallee harguments hplace =>
    have hcall : Call.Like π ⟨callee, arguments, span⟩ ⟨callee', arguments', span'⟩ :=
      ⟨hcallee, harguments, hplace⟩
    refine hcall.matched_verify hv hp ?_ hsettled
    intro access haccess
    obtain rfl := Access.eq_of_ofExpr? haccess
    refine ⟨?_, fun hc => ?_⟩ <;>
    · refine hslot.part fun hu => ?_
      simp_all [Expr.Unslotted]
  | new hcallee harguments hplace =>
    exact Call.Like.matched_verifyNew hv hp ⟨hcallee, harguments, hplace⟩
  | binary hleft hright hplace => exact matched_verifyBinary hv hp _ hleft hright hplace
  | logical hleft hright _ =>
    exact matched_verifyLogical hv hp _ hleft hright (hslot.part fun hu => hu)
  | unary hargument hplace => exact matched_verifyUnary hv hp _ hargument hplace
  | update hargument hplace => exact matched_verifyUnary hv hp _ hargument hplace
  | conditional htest hconsequent halternate _ =>
    refine matched_verifyConditional hv hp htest hconsequent halternate
      (hslot.part fun hu => ?_) (hslot.part fun hu => ?_) <;>
    · simp only [Expr.Unslotted, Bool.and_eq_true] at hu
      simp only [hu]

theorem matched_verifyStmt (hv : v.Tandem C v') (hp : p.At π) (heven : p.Even) {stmt stmt' : Stmt}
    (h : Stmt.Like π stmt stmt') : Matched p (verifyStmt v stmt) (verifyStmt v' stmt') := by
  have hexpr {e e' : Expr} (hlike : Expr.Like π e e') :
      Matched p (do let _ ← v.expr e) (do let _ ← v'.expr e') :=
    (hv.expr hp hlike (.inl heven)).bind fun _ _ _ => tandem_pure trivial
  cases h with
  | declaration hdeclarators => exact matched_verifyDeclarators hv hp hdeclarators
  | function hfunction hkey => exact matched_verifyDeclared hv hp heven hfunction hkey
  | expression hlike => exact hexpr hlike
  | throws hlike => exact hexpr hlike
  | block hbody => exact hv.block hp heven hbody
  | branch htest hconsequent halternate =>
    exact matched_verifyIf hv hp heven htest hconsequent halternate
  | whileLoop htest hbody => exact matched_verifyWhile hv hp heven htest hbody
  | forLoop hinit htest hupdate hbody =>
    exact matched_verifyFor hv hp heven hinit htest hupdate hbody
  | returns hargument hplace => exact matched_verifyReturn hv hp heven hargument hplace
  | empty => exact tandem_pure trivial

/-- Two runs that may not differ in any context. -/
theorem tandem_visitor (hwatched : ∀ around, C.watched around = false)
    {require require' : (file request : String) → SessionM Required}
    (hrequire : ∀ file request, Project.Matched C.exact (require file request) (require' file request))
    (fuel : Nat) : (visitor require fuel).Tandem C (visitor require' fuel) := by
  induction fuel with
  | zero => exact ⟨fun _ _ _ => tandem_throw _, fun _ _ _ => tandem_throw _, hrequire⟩
  | succ fuel ih =>
    refine ⟨fun {p} _ _ _ hp hlike hslot => ?_, fun hp hlike heven => ?_, hrequire⟩
    · have heven : p.Even := by
        refine hslot.resolve_right fun ⟨_, _, hw⟩ => ?_
        rw [Both.Watched, hwatched] at hw
        cases hw
      exact matched_verifyExpr ih hp hlike hslot fun _ => ⟨heven, fun _ => hwatched _⟩
    · exact matched_verifyStmt ih hp heven hlike

end HeaderCheck.Verify
