import HeaderCheck.Proofs.Header.Parallel
import HeaderCheck.Proofs.Verify.Frame
import HeaderCheck.Proofs.Verify.Parallel.Statements

/-!
# HeaderCheck.Proofs.Verify.Parallel.Sources

Branches and whole sources in two runs.

* `visitsAlike_visitor`: the visitors of the two runs do the same, by induction on the fuel.
* `lockstep_verifySource`: so does the verification of a source, if headers and requires do.
-/

namespace HeaderCheck.Verify

open HeaderCheck.Header (Lowered)
open HeaderCheck.Project (Error Host Options Pact SessionM resolveHeader)
open HeaderCheck.Scope (Arena ScopeId)
open HeaderCheck.Script (Expr ForInit Stmt)
open HeaderCheck.Types (Table TypeId)

variable {P : Pact} {p q r : State × State}

/-! ## Conditions -/

/-- A change of types does the same to the same type in two tables. -/
def ChangesAlike (change : Table → TypeId → Option (TypeId × Table)) : Prop :=
  ∀ {t t' i i'}, t.WellFormed → t'.WellFormed → t.Same t' i i' →
    Option.Rel (Table.SameMade t t') (change t i) (change t' i')

theorem lockstep_narrowIn (scope : ScopeId) (name : String)
    {change : Table → TypeId → Option (TypeId × Table)} (h : ChangesAlike change) :
    Lockstep (states P) p (narrowIn scope name change) (narrowIn scope name change)
      fun _ _ _ => True := by
  refine .get_bind fun hp => ?_
  have hcurrent := hp.typeIn_rel scope name .normal
  generalize p.1.typeIn scope name .normal = current at hcurrent
  generalize p.2.typeIn scope name .normal = current' at hcurrent
  cases hcurrent with
  | none => exact .pure fun _ => trivial
  | some hi =>
    refine .bind (lockstep_onTable? fun hp => h hp.left hp.right hi) fun narrowed narrowed' q _ hn => ?_
    cases hn with
    | none => exact .pure fun _ => trivial
    | some hn => exact .mono (lockstep_onArena fun hq => hq.arena.restrict _ _ hn) fun _ _ _ _ _ => trivial

theorem changesAlike_narrowByTypeof? (tag : String) (positive : Bool) :
    ChangesAlike fun table type => table.narrowByTypeof? type tag positive :=
  fun ht ht' hi => Table.sameMade_narrowByTypeof? ht ht' hi tag positive

theorem changesAlike_narrowByValue? {value : TypeId} (hvalue : value.index < Table.builtins.length)
    (positive : Bool) : ChangesAlike fun table type => table.narrowByValue? type value positive :=
  fun ht ht' hi => Table.sameMade_narrowByValue? ht ht' hi (Table.same_fixed ht ht' hvalue) positive

theorem nullish?_fixed {e : Expr} {value : TypeId} (h : nullish? e = some value) :
    value.index < Table.builtins.length := by
  unfold nullish? at h
  split at h
  · split at h
    · cases h
      decide
    · cases h
  · split at h
    · cases h
      decide
    · cases h
  · cases h

theorem mem_of_eitherOrder {α β : Type} {f : Expr → Option α} {g : Expr → Option β} {left right : Expr}
    {a : α} {b : β} (h : eitherOrder f g left right = some (a, b)) : ∃ e, g e = some b := by
  unfold eitherOrder at h
  split at h
  next hg =>
    cases h
    exact ⟨_, hg⟩
  · split at h
    next hg =>
      cases h
      exact ⟨_, hg⟩
    · cases h

theorem lockstep_narrowComparison (operator : String) (left right : Expr) (holds fails : ScopeId) :
    Lockstep (states P) p (narrowComparison operator left right holds fails)
      (narrowComparison operator left right holds fails) fun _ _ _ => True := by
  rw [narrowComparison]
  split
  · exact .pure fun _ => trivial
  next positive _ =>
  split
  · exact .bind (lockstep_narrowIn _ _ (changesAlike_narrowByTypeof? _ _)) fun _ _ _ _ _ =>
      lockstep_narrowIn _ _ (changesAlike_narrowByTypeof? _ _)
  split
  next heither =>
    obtain ⟨e, he⟩ := mem_of_eitherOrder heither
    have hvalue := nullish?_fixed he
    exact .bind (lockstep_narrowIn _ _ (changesAlike_narrowByValue? hvalue _)) fun _ _ _ _ _ =>
      lockstep_narrowIn _ _ (changesAlike_narrowByValue? hvalue _)
  · exact .pure fun _ => trivial

theorem lockstep_narrow (test : Expr) (holds fails : ScopeId) :
    Lockstep (states P) p (narrow test holds fails) (narrow test holds fails) fun _ _ _ => True := by
  fun_induction narrow test holds fails generalizing p with
  | case1 id holds fails =>
    exact .bind (lockstep_narrowIn _ _ Table.sameMade_removeNullish?) fun _ _ _ _ _ =>
      lockstep_narrowIn _ _ Table.sameMade_falsyPart?
  | case2 argument _ _ holds fails ih => exact ih
  | case3 => exact .pure fun _ => trivial
  | case4 operator left right _ holds fails =>
    exact lockstep_narrowComparison operator left right holds fails
  | case5 operator left right _ holds fails ihLeftAnd ihRightAnd ihLeftOr ihRightOr =>
    refine .bind lockstep_openBranch fun scratch scratch' q _ hscratch => ?_
    subst hscratch
    split
    · exact .bind (ihLeftAnd scratch) fun _ _ _ _ _ => ihRightAnd scratch
    split
    · exact .bind (ihLeftOr scratch) fun _ _ _ _ _ => ihRightOr scratch
    · exact .pure fun _ => trivial
  | case6 => exact .pure fun _ => trivial

/-! ## Arms -/

theorem lockstep_openArms (test : Expr) :
    Lockstep (states P) p (openArms test) (openArms test) fun arms arms' _ => arms = arms' := by
  refine .bind lockstep_openBranch fun holds holds' _ _ hholds => ?_
  refine .bind lockstep_openBranch fun fails fails' _ _ hfails => ?_
  subst hholds hfails
  exact .bind (lockstep_narrow test holds fails) fun _ _ _ _ _ => .pure fun _ => rfl

/-- Names with types that stand for the same. -/
abbrev Restrictions (P : Pact) (one one' : List (String × TypeId)) (q : State × State) : Prop :=
  List.Forall₂ (fun x y => x.1 = y.1 ∧ (states P).Same q x.2 y.2) one one'

theorem agreed_same (hp : (states P).Meets p.1 p.2) {one one' other other' : List (String × TypeId)}
    (h : Restrictions P one one' p) (hother : Restrictions P other other' p) :
    Restrictions P (agreed one other) (agreed one' other') p := by
  refine Types.forall₂_filter h fun x y hxy => ?_
  have hcontains : other'.contains (y.1, y.2) = other.contains (x.1, x.2) := by
    clear h
    induction hother with
    | nil => rfl
    | @cons z w _ _ hzw _ ih =>
      have htype : x.2 = z.2 ↔ y.2 = w.2 := Table.Same.eq_iff hxy.2 hzw.2 hp.left hp.right
      have heq : ((y.1, y.2) == w) = ((x.1, x.2) == z) := by
        rw [Bool.eq_iff_iff, beq_iff_eq, beq_iff_eq, Prod.ext_iff, Prod.ext_iff, ← hxy.1, ← hzw.1, htype]
      rw [List.contains_cons, List.contains_cons, heq, ih]
  simp only [hcontains, hxy.1]

theorem lockstep_settle {bindings bindings' : List (String × TypeId)}
    (h : Restrictions P bindings bindings' p) :
    Lockstep (states P) p (settle bindings) (settle bindings') fun _ _ _ => True := by
  induction bindings generalizing p bindings' with
  | nil =>
    cases h
    exact .pure fun _ => trivial
  | cons x rest ih =>
    obtain ⟨y, rest', ⟨hname, hi⟩, hrest, rfl⟩ := List.forall₂_cons_left_iff.mp h
    obtain ⟨name, type⟩ := x
    obtain ⟨name', type'⟩ := y
    cases hname
    have hnext : ∀ {q}, (states P).Onward p q → Lockstep (states P) q (settle rest) (settle rest')
        fun _ _ _ => True := fun hq => ih (hrest.imp fun _ _ => And.imp_right hq.same)
    refine .get_bind fun hp => ?_
    have hlookup : p.2.lookup name = some type' ↔ p.1.lookup name = some type := by
      have hrel := hp.lookup_rel name
      generalize p.1.lookup name = found at hrel
      generalize p.2.lookup name = found' at hrel
      cases hrel with
      | none => simp
      | some hj =>
        rw [Option.some_inj, Option.some_inj]
        exact (Table.Same.eq_iff hj hi hp.left hp.right).symm
    have hknown : ((p.2.arena.restrictions p.1.focus.scope).any fun x => x.1 = name) =
        (p.1.arena.restrictions p.1.focus.scope).any fun x => x.1 = name := by
      have hall := hp.arena.restrictions_rel p.1.focus.scope
      generalize p.1.arena.restrictions p.1.focus.scope = restrictions at hall
      generalize p.2.arena.restrictions p.1.focus.scope = restrictions' at hall
      induction hall with
      | nil => rfl
      | cons hfirst _ ih => rw [List.any_cons, List.any_cons, ih, hfirst.1]
    simp only [hp.focus.scope, hp.inBranch_eq, hlookup, hknown, ne_eq]
    split
    · exact .bind (lockstep_onArena fun hp => hp.arena.restrict _ _ hi) fun _ _ _ hq _ => hnext hq
    · exact hnext (.refl hp)

theorem lockstep_mergeArms (holds fails : ScopeId) :
    Lockstep (states P) p (mergeArms holds fails) (mergeArms holds fails) fun _ _ _ => True :=
  .get_bind fun hp => lockstep_settle (agreed_same hp (hp.arena.restrictions_rel holds)
    (hp.arena.restrictions_rel fails))

/-! ## Branches -/

section Branches

variable {v v' : Visitor} (hv : VisitsAlike P v v')

include hv

theorem lockstep_verifyIf (test : Expr) (consequent : Stmt) (alternate : Option Stmt) :
    Lockstep (states P) p (verifyIf v test consequent alternate)
      (verifyIf v' test consequent alternate) fun _ _ _ => True := by
  refine .bind (hv.value test) fun _ _ q _ _ => .bind (lockstep_openArms test) fun arms arms' r _ harms => ?_
  subst harms
  have harm (q : State × State) (scope : ScopeId) (stmt : Stmt) : Lockstep (states P) q
      (inScope scope (v.stmt stmt)) (inScope scope (v'.stmt stmt)) fun _ _ _ => True :=
    lockstep_inScope (fun q _ => hv.stmt q stmt) fun _ _ _ _ _ _ => trivial
  refine .bind (harm r arms.1 consequent) fun _ _ u _ _ => ?_
  split
  · exact .bind (harm u arms.2 _) fun _ _ _ _ _ => lockstep_mergeArms _ _
  · exact lockstep_mergeArms _ _

theorem lockstep_verifyWhile (test : Expr) (body : Stmt) :
    Lockstep (states P) p (verifyWhile v test body) (verifyWhile v' test body) fun _ _ _ => True := by
  refine .bind (hv.value test) fun _ _ q _ _ => .bind (lockstep_openArms test) fun arms arms' r _ harms => ?_
  subst harms
  exact lockstep_inScope (fun q _ => hv.stmt q body) fun _ _ _ _ _ _ => trivial

theorem lockstep_verifyForInit (init : Option ForInit) :
    Lockstep (states P) p (verifyForInit v init) (verifyForInit v' init) fun _ _ _ => True := by
  rw [verifyForInit.eq_def, verifyForInit.eq_def]
  split
  · exact lockstep_verifyDeclarators hv _
  · exact .bind (hv.value _) fun _ _ _ _ _ => .pure fun _ => trivial
  · exact .pure fun _ => trivial

theorem lockstep_verifyFor (init : Option ForInit) (test update : Option Expr) (body : Stmt) :
    Lockstep (states P) p (verifyFor v init test update body) (verifyFor v' init test update body)
      fun _ _ _ => True := by
  refine .bind (lockstep_verifyForInit hv init) fun _ _ _ _ _ => ?_
  refine .bind lockstep_openBranch fun holds holds' _ _ hholds => ?_
  refine .bind lockstep_openBranch fun fails fails' _ _ hfails => ?_
  subst hholds hfails
  have hbody {last last' : Check Unit} (q : State × State)
      (hlast : ∀ r, Lockstep (states P) r last last' fun _ _ _ => True) :
      Lockstep (states P) q (inScope holds do v.stmt body; last) (inScope holds do v'.stmt body; last')
        fun _ _ _ => True :=
    lockstep_inScope (fun r _ => .bind (hv.stmt r body) fun _ _ u _ _ => hlast u)
      fun _ _ _ _ _ _ => trivial
  cases update with
  | some update =>
    have hupdate (r : State × State) : Lockstep (states P) r (do let _ ← v.value update)
        (do let _ ← v'.value update) fun _ _ _ => True :=
      .bind (hv.value update) fun _ _ _ _ _ => .pure fun _ => trivial
    cases test with
    | some test =>
      exact .bind (hv.value test) fun _ _ _ _ _ => .bind (lockstep_narrow _ _ _) fun _ _ q _ _ =>
        hbody q hupdate
    | none => exact hbody _ hupdate
  | none =>
    cases test with
    | some test =>
      exact .bind (hv.value test) fun _ _ _ _ _ => .bind (lockstep_narrow _ _ _) fun _ _ q _ _ =>
        hbody q fun _ => .pure fun _ => trivial
    | none => exact hbody _ fun _ => .pure fun _ => trivial

theorem lockstep_armExpr (scope : ScopeId) (e : Expr) :
    Lockstep (states P) p (inScope scope (v.expr e)) (inScope scope (v'.expr e)) (Handles? P) :=
  lockstep_inScope (fun q _ => hv.expr q e) fun _ _ _ _ _ h => h

theorem lockstep_verifyLogical (operator : String) (left right : Expr) :
    Lockstep (states P) p (verifyLogical v operator left right) (verifyLogical v' operator left right)
      (Handles? P) := by
  refine lockstep_bind? (hv.value left) rfl rfl fun i i' q _ hi => ?_
  refine .bind lockstep_openBranch fun taken taken' r hr htaken => ?_
  refine .bind lockstep_openBranch fun skipped skipped' u hu hskipped => ?_
  subst htaken hskipped
  dsimp only
  split
  · refine .bind (lockstep_narrow left skipped taken) fun _ _ w hw _ => ?_
    refine lockstep_bind? (lockstep_armExpr hv taken right) rfl rfl fun j j' x hx hj => ?_
    have hi' := (((hr.trans hu).trans hw).trans hx).same hi
    refine .bind (lockstep_onTable? fun hx => Table.sameMade_removeNullish? hx.left hx.right hi')
      fun rest rest' y hy hrest => ?_
    exact .bind (lockstep_union2 (Types.rel_getD hrest (hy.same hi')) (hy.same hj))
      fun _ _ _ _ hk => .pure fun _ => .some hk
  · refine .bind (lockstep_narrow left taken skipped) fun _ _ w _ _ => ?_
    exact lockstep_bind? (lockstep_armExpr hv taken right) rfl rfl fun _ _ _ _ hj =>
      .pure fun _ => .some hj

theorem lockstep_verifyConditional (test consequent alternate : Expr) :
    Lockstep (states P) p (verifyConditional v test consequent alternate)
      (verifyConditional v' test consequent alternate) (Handles? P) := by
  refine .bind (hv.value test) fun _ _ q _ _ => .bind (lockstep_openArms test) fun arms arms' r _ harms => ?_
  subst harms
  refine .bind (lockstep_armExpr hv arms.1 consequent) fun _ _ u _ hone => ?_
  refine .bind (lockstep_armExpr hv arms.2 alternate) fun _ _ w hw hother => ?_
  cases hone with
  | none => exact .pure fun _ => .none
  | some hone =>
    cases hother with
    | none => exact .pure fun _ => .none
    | some hother =>
      exact .bind (lockstep_union2 (hw.same hone) hother) fun _ _ _ _ hk => .pure fun _ => .some hk

/-! ## All nodes -/

theorem lockstep_verifyExpr (e : Expr) :
    Lockstep (states P) p (verifyExpr v e) (verifyExpr v' e) (Handles? P) := by
  cases e with
  | identifier id => exact lockstep_verifyIdentifier id
  | literal literal =>
    exact .pure fun hp => .some ((states P).same_fixed hp (literalType_fixed literal))
  | this span => exact lockstep_verifyThis span
  | array elements span => exact lockstep_verifyArray hv elements
  | object properties span => exact lockstep_verifyObject hv properties
  | function f => exact lockstep_verifyFunctionExpr hv f
  | assignment operator left right span => exact lockstep_verifyAssignment hv operator left right span
  | member object property computed span => exact Access.lockstep_verify hv _
  | call callee arguments span => exact Call.lockstep_verify hv _
  | new callee arguments span => exact Call.lockstep_verifyNew hv _
  | binary operator left right span => exact lockstep_verifyBinary hv operator left right span
  | logical operator left right span => exact lockstep_verifyLogical hv operator left right
  | unary operator argument isPrefix span => exact lockstep_verifyUnary hv operator argument span
  | update operator argument isPrefix span => exact lockstep_verifyUnary hv operator argument span
  | conditional test consequent alternate span =>
    exact lockstep_verifyConditional hv test consequent alternate

theorem lockstep_verifyStmt (stmt : Stmt) :
    Lockstep (states P) p (verifyStmt v stmt) (verifyStmt v' stmt) fun _ _ _ => True := by
  cases stmt with
  | declaration declaration => exact lockstep_verifyDeclarators hv declaration.declarators
  | function f => exact lockstep_verifyDeclared hv f
  | expression e span => exact .bind (hv.expr p e) fun _ _ _ _ _ => .pure fun _ => trivial
  | throws e span => exact .bind (hv.expr p e) fun _ _ _ _ _ => .pure fun _ => trivial
  | block body span => exact hv.block body
  | branch test consequent alternate span => exact lockstep_verifyIf hv test consequent alternate
  | whileLoop test body span => exact lockstep_verifyWhile hv test body
  | forLoop init test update body span => exact lockstep_verifyFor hv init test update body
  | returns argument span => exact lockstep_verifyReturn hv argument span
  | empty span => exact .pure fun _ => trivial

end Branches

/-- The requires of the two runs give the same modules. -/
def RequiresAlike (P : Pact) (require require' : (file request : String) → SessionM Required) : Prop :=
  ∀ p file request, Lockstep P.sessions p (require file request) (require' file request)
    fun x x' q => x.Parallel (P.sessions.Same q) x'

theorem visitsAlike_visitor {require require' : (file request : String) → SessionM Required}
    (hr : RequiresAlike P require require') (fuel : Nat) :
    VisitsAlike P (visitor require fuel) (visitor require' fuel) := by
  induction fuel with
  | zero => exact ⟨fun _ _ => .throw _, fun _ _ => .throw _, hr⟩
  | succ fuel ih => exact ⟨fun _ e => lockstep_verifyExpr ih e, fun _ stmt => lockstep_verifyStmt ih stmt, hr⟩

/-! ## Sources -/

theorem lockstep_bindInFile {bindings bindings' : List (String × TypeId)}
    (h : Restrictions P bindings bindings' p) :
    Lockstep (states P) p (bindInFile bindings) (bindInFile bindings') fun _ _ _ => True := by
  induction bindings generalizing p bindings' with
  | nil =>
    cases h
    exact .pure fun _ => trivial
  | cons x rest ih =>
    obtain ⟨y, rest', ⟨hname, hi⟩, hrest, rfl⟩ := List.forall₂_cons_left_iff.mp h
    refine .get_bind fun hp => ?_
    dsimp only
    rw [hp.fileScope, ← hname]
    exact .bind (lockstep_onArena fun hp => hp.arena.addVar _ _ hi) fun _ _ _ hq _ =>
      ih (hrest.imp fun _ _ => And.imp_right hq.same)

theorem lockstep_bindModuleNames :
    Lockstep (states P) p bindModuleNames bindModuleNames fun _ _ _ => True := by
  refine .of_meets fun hp => ?_
  have hfixed {q : State × State} (hq : (states P).Meets q.1 q.2) {id : TypeId}
      (hid : id.index < Table.builtins.length) : Handles P id id q := (states P).same_fixed hq hid
  refine .bind (lockstep_add (.object ⟨.cons ⟨rfl, hfixed hp (by decide), rfl⟩ .nil, rfl, rfl⟩) trivial
    trivial) fun _ _ q hq hi => lockstep_bindInFile ?_
  exact .cons ⟨rfl, hi⟩ (.cons ⟨rfl, hfixed hq.meets (by decide)⟩
    (.cons ⟨rfl, hfixed hq.meets (by decide)⟩ .nil))

/-- Headers contribute the same in both runs. -/
def HeadersAlike (P : Pact) (resolve : String → SessionM (Option Lowered)) : Prop :=
  ∀ p path, Lockstep P.sessions p (resolve path) (resolve path)
    fun h h' q => Option.Rel (Lowered.Parallel (P.sessions.Same q)) h h'

section Sources

variable {host : Host} {options : Options} (hh : HeadersAlike P (resolveHeader host options))

include hh

theorem lockstep_bindHeader :
    Lockstep (states P) p (bindHeader host options) (bindHeader host options) fun _ _ _ => True := by
  refine .get_bind fun hp => ?_
  dsimp only
  rw [hp.source]
  refine .bind (lockstep_onSession (hh _ _)) fun header header' q _ hheader => ?_
  cases hheader with
  | none => exact .pure fun _ => trivial
  | some hheader =>
    exact .bind (lockstep_record hheader.diagnostics) fun _ _ _ hr _ =>
      lockstep_bindInFile (hheader.assignments.imp fun _ _ => And.imp_right hr.same)

theorem lockstep_bindSource :
    Lockstep (states P) p (bindSource host options) (bindSource host options) fun _ _ _ => True := by
  refine .bind lockstep_bindModuleNames fun _ _ q _ _ => .get_bind fun hq => ?_
  rw [hq.source]
  exact .bind (lockstep_registerFunctions _) fun _ _ _ _ _ => lockstep_bindHeader hh

/-- A source is verified to the same end in both runs. -/
theorem lockstep_verifySource {require require' : (file request : String) → SessionM Required}
    (hr : RequiresAlike P require require') :
    Lockstep (states P) p (verifySource host options require) (verifySource host options require')
      fun _ _ _ => True := by
  refine .get_bind fun hp => ?_
  dsimp only
  rw [hp.source]
  exact .bind (lockstep_bindSource hh) fun _ _ _ _ _ => (visitsAlike_visitor hr _).statements _

end Sources

end HeaderCheck.Verify
