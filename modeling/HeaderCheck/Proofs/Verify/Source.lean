import HeaderCheck.Proofs.Project.Session
import HeaderCheck.Proofs.Verify.Calls
import HeaderCheck.Proofs.Verify.Statements

/-!
# HeaderCheck.Proofs.Verify.Source

Whole sources, alone and under watch.

* `Watch`: a look at the type of each expression when its visit ends. `watched` is the visitor with
  such a look at every level.
* `visits_visitor`: the visitor does what `Visits` asks for, by induction on its fuel. One step is
  one lemma for each construct.
* `runs_verifySource`: a source is verified as the judgement says, from the state that it starts in.
-/

namespace HeaderCheck.Verify

open HeaderCheck.Project (Error Host Options Session SessionM resolveHeader
  works_resolveHeader)
open HeaderCheck.Scope (Arena ScopeId)
open HeaderCheck.Script
open HeaderCheck.Types (Table TypeId)

/-! ## Watches -/

/-- A look at expressions: `alarm` runs after a visit whose result trips it. -/
structure Watch where
  trips : Option TypeId → State → Bool
  alarm : Check Unit

/-- A watch that nothing trips. -/
def Watch.off : Watch :=
  { trips := fun _ _ => false, alarm := pure () }

def Watch.over (w : Watch) (m : Check (Option TypeId)) : Check (Option TypeId) := do
  let result ← m
  if w.trips result (← get) then w.alarm
  return result

/-- The visitor that follows chains of at most `fuel` visits, with a look at each expression. -/
def watched (w : Watch) (require : (file request : String) → SessionM Required) :
    (fuel : Nat) → Visitor
  | 0 => { expr := fun _ => throw .outOfFuel, stmt := fun _ => throw .outOfFuel, require }
  | fuel + 1 =>
    { expr := fun e => w.over (verifyExpr (watched w require fuel) e)
      stmt := fun stmt => verifyStmt (watched w require fuel) stmt
      require }

/-- A source under watch. -/
def watchedSource (w : Watch) (host : Host) (options : Options)
    (require : (file request : String) → SessionM Required) : Check Unit := do
  let program := (← get).source.program
  bindSource host options
  (watched w require (program.size + 1)).statements program.body

theorem run_over {w : Watch} {m : Check (Option TypeId)} {result : Option TypeId} {s s' : State}
    (hrun : m.run s = (.ok result, s')) (h : w.trips result s' = false) :
    (w.over m).run s = (.ok result, s') := by
  rw [Watch.over, run_bind_ok hrun, run_get_bind]
  simp [h]

theorem over_off (m : Check (Option TypeId)) : Watch.off.over m = m := by
  funext s
  rcases hrun : m.run s with ⟨e | result, s'⟩
  · exact (run_bind_error hrun _).trans hrun.symm
  · exact (run_over hrun rfl).trans hrun.symm

theorem watched_off (require : (file request : String) → SessionM Required) (fuel : Nat) :
    watched .off require fuel = visitor require fuel := by
  induction fuel with
  | zero => rfl
  | succ fuel ih => simp only [watched, visitor, ih, over_off]

theorem watchedSource_off (host : Host) (options : Options)
    (require : (file request : String) → SessionM Required) :
    watchedSource .off host options require = verifySource host options require := by
  simp only [watchedSource, verifySource, watched_off]

variable {S : Setting} {n : Nat} {v v' : Visitor} {spared : Option ScopeId} {s : State}

/-- What a watch may look for: results that are missing, with nothing reported so far unless the
agreement is loose. The source at hand is proper. -/
structure Watch.Idle (w : Watch) (S : Setting) : Prop where
  none : ∀ {result s}, w.trips result s → result = none
  silent : ∀ {result s}, w.trips result s → S.loose ∨ s.diagnostics = []
  proper : ∀ {result s}, w.trips result s → S.agree → S.source.program.Proper

/-- A missing result has been reported, so the watch stays idle or the run is marred. -/
theorem runs_over {w : Watch} (hw : w.Idle S) {m m' : Check (Option TypeId)}
    (h : Runs S spared s m m' Told) : Runs S spared s m (w.over m') Told := by
  intro hs hc
  obtain ⟨hagree, hends⟩ := h hs hc
  refine ⟨?_, hends⟩
  intro hS
  rcases hagree hS with heq | hmarred
  · rcases hrun : m.run s with ⟨e | result, s'⟩
    · exact .inl (run_bind_error (heq.trans hrun) _)
    · cases htrips : w.trips result s' with
      | false => exact .inl (run_over (heq.trans hrun) htrips)
      | true =>
        have htold : Told result s' := by
          have hmeets := hends.meets
          rwa [hrun] at hmeets
        have hsource : s'.source = S.source := by
          have hk := hends.keeps
          rw [hrun] at hk
          exact hk.source.trans hc.source
        have hreported := htold (hsource ▸ hw.proper htrips hS) (hw.none htrips)
        exact .inr ⟨(hw.silent htrips).resolve_right hreported, hreported⟩
  · exact .inr hmarred

/-! ## One node -/

theorem runs_verifyExpr (hv : Visits S n v v') {e : Expr} (ha : s.At (n + 1) (.expr e)) :
    Runs S none s (verifyExpr v e) (verifyExpr v' e) Told := by
  have hpart : ∀ part ∈ Node.exprParts e, s.At n part := fun part hmem => ha.part hmem
  cases e with
  | identifier id => exact runs_verifyIdentifier id
  | literal literal => exact runs_pure .some
  | this span => exact runs_verifyThis span
  | array elements span =>
    exact runs_verifyArray hv fun e hmem => hpart _ (List.mem_map_of_mem hmem)
  | object properties span =>
    exact runs_verifyObject hv fun property hmem =>
      hpart _ (List.mem_map.mpr ⟨property, hmem, rfl⟩)
  | function f => exact runs_verifyFunctionExpr hv ha
  | assignment operator left right span =>
    exact runs_verifyAssignment hv (hpart _ (by simp [Node.exprParts]))
      (hpart _ (by simp [Node.exprParts])) operator span
  | member object property computed span => exact Access.runs_verify hv ha
  | call callee arguments span => exact Call.runs_verify hv ha
  | new callee arguments span =>
    exact Call.runs_verifyNew hv (hpart _ List.mem_cons_self)
      fun e hmem => hpart _ (List.mem_cons_of_mem _ (List.mem_map_of_mem hmem))
  | binary operator left right span =>
    exact runs_verifyBinary hv (hpart _ (by simp [Node.exprParts]))
      (hpart _ (by simp [Node.exprParts])) operator span
  | logical operator left right span =>
    exact runs_verifyLogical hv (hpart _ (by simp [Node.exprParts]))
      (hpart _ (by simp [Node.exprParts])) operator
  | unary operator argument isPrefix span =>
    exact runs_verifyUnary hv (hpart _ (by simp [Node.exprParts])) operator span
  | update operator argument isPrefix span =>
    exact runs_verifyUnary hv (hpart _ (by simp [Node.exprParts])) operator span
  | conditional test consequent alternate span =>
    exact runs_verifyConditional hv (hpart _ (by simp [Node.exprParts]))
      (hpart _ (by simp [Node.exprParts])) (hpart _ (by simp [Node.exprParts]))

theorem runs_verifyStmt (hv : Visits S n v v') {stmt : Stmt} (ha : s.At (n + 1) (.stmt stmt)) :
    Runs S (some s.owner) s (verifyStmt v stmt) (verifyStmt v' stmt) fun _ _ => True := by
  have hpart : ∀ part ∈ Node.stmtParts stmt, s.At n part := fun part hmem => ha.part hmem
  cases stmt with
  | declaration declaration => exact runs_verifyDeclarators hv hpart
  | function f => exact runs_verifyDeclared hv ha
  | expression e span =>
    exact runs_then (hv.expr (hpart _ List.mem_cons_self)).weaken.ignore fun _ _ _ _ =>
      runs_pure trivial
  | throws e span =>
    exact runs_then (hv.expr (hpart _ List.mem_cons_self)).weaken.ignore fun _ _ _ _ =>
      runs_pure trivial
  | block body span => exact hv.block fun stmt hmem => hpart _ (List.mem_map_of_mem hmem)
  | branch test consequent alternate span =>
    refine runs_verifyIf hv (hpart _ (by simp [Node.stmtParts])) (hpart _ (by simp [Node.stmtParts])) ?_
    rintro stmt rfl
    exact hpart _ (by simp [Node.stmtParts])
  | whileLoop test body span =>
    exact runs_verifyWhile hv (hpart _ (by simp [Node.stmtParts])) (hpart _ (by simp [Node.stmtParts]))
  | forLoop init test update body span =>
    refine runs_verifyFor hv ?_ ?_ ?_ (hpart _ List.mem_cons_self)
    · intro node hmem
      exact hpart node (by simp [Node.stmtParts, hmem])
    · rintro e rfl
      exact hpart _ (by simp [Node.stmtParts])
    · rintro e rfl
      exact hpart _ (by simp [Node.stmtParts])
  | returns argument span =>
    refine runs_verifyReturn hv ?_ span
    rintro e rfl
    exact hpart _ (by simp [Node.stmtParts])
  | empty span => exact runs_pure trivial

/-! ## All nodes -/

theorem State.At.pos {node : Node} (h : s.At n node) : 0 < n := by
  have hown := Node.own_eq node
  have hle := h.2
  omega

theorem visits_visitor {w : Watch} (hw : w.Idle S)
    {require require' : (file request : String) → SessionM Required}
    (hr : OwnRequires S require require') (fuel : Nat) :
    Visits S fuel (visitor require fuel) (watched w require' fuel) := by
  induction fuel with
  | zero =>
    refine ⟨?_, ?_, hr⟩
    · intro s e ha
      exact absurd ha.pos (Nat.lt_irrefl 0)
    · intro s stmt ha
      exact absurd ha.pos (Nat.lt_irrefl 0)
  | succ fuel ih =>
    refine ⟨?_, ?_, hr⟩
    · intro s e ha
      exact runs_over hw (runs_verifyExpr ih ha)
    · intro s stmt ha
      exact runs_verifyStmt ih ha

/-! ## Sources -/

theorem runs_bindInFile (bindings : List (String × TypeId)) :
    Runs S spared s (bindInFile bindings) (bindInFile bindings) fun _ _ => True := by
  induction bindings generalizing s with
  | nil => exact runs_pure trivial
  | cons binding rest ih =>
    refine runs_get_bind (runs_then (runs_addVar ?_ fun _ => trivial) fun _ _ _ _ => ih)
    intro hs
    obtain ⟨scope, prototypes, hscope, hkind, _⟩ := hs.file
    exact ⟨scope, hscope, by rw [hkind]; rfl⟩

theorem runs_bindHeader (host : Host) (options : Options) :
    Runs S spared s (bindHeader host options) (bindHeader host options) fun _ _ => True := by
  refine runs_get_bind ?_
  refine runs_then (runs_onSession (.of_works (works_resolveHeader host options _)))
    fun header s₁ _ _ => ?_
  cases header with
  | none => exact runs_pure trivial
  | some header =>
    exact runs_then (runs_record trivial) fun _ _ _ _ => runs_bindInFile header.assignments

theorem runs_bindSource (host : Host) (options : Options)
    (ha : ∀ stmt ∈ s.source.program.body, s.At n (.stmt stmt)) :
    Runs S spared s (bindSource host options) (bindSource host options) fun _ _ => True := by
  refine .of_sound fun hs => ?_
  have hnames : Runs S spared s bindModuleNames bindModuleNames fun _ _ => True :=
    runs_then (runs_onTable (fun t => Table.extends_add t _) trivial) fun _ _ _ _ => runs_bindInFile _
  refine runs_then hnames fun _ s₁ hk _ => runs_get_bind ?_
  have ha₁ : ∀ stmt ∈ s₁.source.program.body, s₁.At n (.stmt stmt) := by
    intro stmt hmem
    rw [hk.source] at hmem
    exact (ha stmt hmem).keeps hs hk
  exact runs_then (runs_registerFunctions ha₁) fun _ _ _ _ => runs_bindHeader host options

theorem State.sound_start {tidy : Prop} {source : Source} (htidy : tidy → source.program.Tidy)
    (session : Session) : (State.start session source).Sound tidy := by
  refine ⟨.pushFile, Nat.zero_lt_one, ⟨_, _, rfl, rfl, rfl⟩, ?_, nofun, List.nodup_nil,
    fun _ hne => absurd rfl hne, htidy, ?_⟩
  · intro id scope entry hs hentry
    obtain ⟨-, rfl⟩ := Arena.scope?_pushFile hs
    cases hentry
  · intro _ id scope name hs hcontains
    obtain ⟨-, rfl⟩ := Arena.scope?_pushFile hs
    cases hcontains

/-- The fuel of a source suffices for its statements and all bodies in it. -/
theorem State.at_start (session : Session) {source : Source} {stmt : Stmt}
    (hmem : stmt ∈ source.program.body) :
    (State.start session source).At (source.program.size + 1) (.stmt stmt) := by
  have howner : (State.start session source).owner = (State.start session source).fileScope := rfl
  refine ⟨⟨source.program.body, ?_, mem_ownNodesOf hmem⟩, ?_⟩
  · rw [howner]
    exact .file
  · have hown := own_le_ownOf hmem
    have hall := ownOf_add_functionsOf_le source.program.body
    have hsize : source.program.size = stmtsSize source.program.body := rfl
    have hpending : (State.start session source).pending ≤
        ((functionsOf source.program.body).map fun f => ownOf f.2.body).sum := Nat.sub_le _ _
    omega

/-- A source is verified as the judgement says. -/
theorem runs_verifySource {w : Watch} (hw : w.Idle S) (host : Host) (options : Options)
    {require require' : (file request : String) → SessionM Required}
    (hr : OwnRequires S require require') (session : Session) (source : Source) :
    Runs S (some (State.start session source).owner) (State.start session source)
      (verifySource host options require) (watchedSource w host options require')
      fun _ _ => True := by
  refine .of_sound fun hs => runs_get_bind ?_
  refine runs_then (runs_bindSource host options fun stmt hmem => State.at_start session hmem)
    fun _ s₁ hk _ => ?_
  rw [← hk.owner_eq hs.arena.ordered hs.focus]
  exact (visits_visitor hw hr _).statements fun stmt hmem =>
    (State.at_start session hmem).keeps hs hk

end HeaderCheck.Verify
