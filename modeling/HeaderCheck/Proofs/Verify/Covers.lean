import HeaderCheck.Proofs.Scope.Owners
import HeaderCheck.Proofs.Types.Growth
import HeaderCheck.Proofs.Verify.Notes
import HeaderCheck.Proofs.Verify.Sound

/-!
# HeaderCheck.Proofs.Verify.Covers

What a run that reports nothing has seen to.

* `State.HasAll`: functions that have a scope in a file or function.
* `Passes`: work after which no function is known that was not known before.
* `Covers`: after work that reports nothing, the functions that stand in the nodes it was for have a
  scope, and so have those that stand in the bodies it entered. One rule for each way to put work
  together.
-/

namespace HeaderCheck.Verify

open HeaderCheck.Project (Error Session SessionM)
open HeaderCheck.Scope (Arena ScopeId UntypedFunction)
open HeaderCheck.Scope.Arena (Attempt Operation outcome)
open HeaderCheck.Script
open HeaderCheck.Types (Table TypeId)

variable {α β : Type}

namespace State

/-- The node at hand belongs to the file or function. -/
structure Under (s : State) (owner : ScopeId) : Prop where
  focus : s.arena.Under owner s.focus.scope
  orderly : s.arena.Orderly

/-- Each of the functions has a scope in the file or function, or one with its key has. -/
def HasAll (s : State) (owner : ScopeId) (functions : List (FunctionKind × Function)) : Prop :=
  ∀ f ∈ functions, ∃ scope, s.arena.scope? owner = some scope ∧
    scope.functions.contains (keyOf f.1 f.2)

/-- What a run leaves of a state. -/
structure Leads (s s' : State) : Prop where
  focus : s'.focus = s.focus
  silent : s'.diagnostics = [] → s.diagnostics = []
  scopes : s.arena.Retains s'.arena
  table : s.table.Extends s'.table
  orderly : s.arena.Orderly → s'.arena.Orderly

/-- Every function that has a scope has been entered in it. -/
def Calm (s : State) : Prop :=
  ∀ owner key id, s.arena.Registers owner key id →
    s.arena.MadeIn owner key id ∧ ∃ f, (id, f) ∈ s.entered

/-- The functions in the bodies that have been entered since have scopes. -/
def Fills (s s' : State) : Prop :=
  ∀ x ∈ s'.entered, x ∈ s.entered ∨ s'.HasAll x.1 (directOf x.2.body)

variable {s s₁ s' : State} {owner : ScopeId} {functions : List (FunctionKind × Function)}

namespace Leads

theorem refl (s : State) : s.Leads s :=
  ⟨rfl, fun h => h, .refl _, .refl _, fun h => h⟩

theorem trans (h : s.Leads s₁) (h' : s₁.Leads s') : s.Leads s' :=
  ⟨h'.focus.trans h.focus, fun hclean => h.silent (h'.silent hclean), h.scopes.trans h'.scopes,
    h.table.trans h'.table, fun horderly => h'.orderly (h.orderly horderly)⟩

theorem hasAll (h : s.Leads s') (hall : s.HasAll owner functions) : s'.HasAll owner functions := by
  intro f hf
  obtain ⟨scope, hs, hc⟩ := hall f hf
  obtain ⟨scope', hs', hkept⟩ := h.scopes _ _ hs
  exact ⟨scope', hs', hkept.functions _ hc⟩

theorem under (h : s.Leads s') (ho : s.Under owner) : s'.Under owner := by
  refine ⟨?_, h.orderly ho.orderly⟩
  rw [h.focus]
  exact ho.focus.retains h.scopes

end Leads

theorem HasAll.mono (h : s.HasAll owner functions) {fewer : List (FunctionKind × Function)}
    (hsub : fewer ⊆ functions) : s.HasAll owner fewer :=
  fun f hf => h f (hsub hf)

theorem HasAll.append (h : s.HasAll owner functions) {more : List (FunctionKind × Function)}
    (h' : s.HasAll owner more) : s.HasAll owner (functions ++ more) :=
  fun f hf => (List.mem_append.mp hf).elim (h f) (h' f)

/-- What has no new function leaves a calm state calm. -/
theorem Calm.idle (h : s.Calm) (hl : s.Leads s') (hidle : s.arena.Idle s'.arena)
    (hentered : s.entered ⊆ s'.entered) : s'.Calm := by
  intro owner key id hreg
  obtain ⟨hmade, f, hf⟩ := h _ _ _ (hidle.registers hreg)
  exact ⟨hmade.retains hl.scopes, f, hentered hf⟩

end State

/-! ## Work that makes no function known -/

/-- Work after which no function is known that was not known before. -/
def Passes (s : State) (m : Check α) : Prop :=
  ∀ a s', m.run s = (.ok a, s') →
    s.Leads s' ∧ s.arena.Idle s'.arena ∧ s'.entered = s.entered

variable {s : State} {owner : ScopeId}

theorem passes_same {m : Check α} (h : ∀ a s', m.run s = (.ok a, s') →
    s'.focus = s.focus ∧ (s'.diagnostics = [] → s.diagnostics = []) ∧ s'.arena = s.arena ∧
      s.table.Extends s'.table ∧ s'.entered = s.entered) : Passes s m := by
  intro a s' hrun
  obtain ⟨hfocus, hsilent, harena, htable, hentered⟩ := h a s' hrun
  refine ⟨⟨hfocus, hsilent, ?_, htable, fun horderly => ?_⟩, ?_, hentered⟩ <;> rw [harena]
  · exact .refl _
  · exact horderly
  · exact .refl _

theorem passes_pure (a : α) : Passes s (pure a) := by
  refine passes_same ?_
  rintro _ _ ⟨⟩
  exact ⟨rfl, fun h => h, rfl, .refl _, rfl⟩

theorem passes_throw (e : Error) : Passes s (throw e : Check α) := by
  rintro _ _ ⟨⟩

theorem passes_get_bind {f : State → Check α} (h : Passes s (f s)) : Passes s (get >>= f) :=
  h

theorem passes_bind {m : Check α} {f : α → Check β} (h : Passes s m)
    (hf : ∀ a s₁, s.Leads s₁ → Passes s₁ (f a)) : Passes s (m >>= f) := by
  intro b s' hrun
  obtain ⟨a, s₁, hm, hrest⟩ := ok_of_run_bind hrun
  obtain ⟨hl, hidle, hentered⟩ := h a s₁ hm
  obtain ⟨hl', hidle', hentered'⟩ := hf a s₁ hl b s' hrest
  exact ⟨hl.trans hl', hidle.trans hidle' hl'.scopes, hentered'.trans hentered⟩

theorem passes_then_unit {m : Check α} (h : Passes s m) : Passes s (do let _ ← m) :=
  passes_bind h fun _ _ _ => passes_pure _

theorem passes_none {m : Check Unit} (h : Passes s m) :
    Passes s (do m; pure none : Check (Option α)) :=
  passes_bind h fun _ _ _ => passes_pure none

theorem passes_record (diagnostics : List Report.Diagnostic) : Passes s (record diagnostics) := by
  refine passes_same ?_
  rintro _ _ ⟨⟩
  exact ⟨rfl, fun h => (List.append_eq_nil_iff.mp h).1, rfl, .refl _, rfl⟩

theorem passes_report {kind : Report.Kind} {span : Span} {fields : List (String × String)} :
    Passes s (report kind span fields) :=
  passes_record _

theorem passes_onTable {f : Table → α × Table} (hgrow : s.table.Extends (f s.table).2) :
    Passes s (onTable f) := by
  refine passes_same ?_
  rintro _ _ ⟨⟩
  exact ⟨rfl, fun h => h, rfl, hgrow, rfl⟩

theorem passes_onTable? {f : Table → Option (TypeId × Table)}
    (hgrow : ∀ {made}, f s.table = some made → s.table.Extends made.2) : Passes s (onTable? f) := by
  refine passes_onTable ?_
  split
  · next hmade => exact hgrow hmade
  · exact .refl _

theorem passes_made {f : Table → TypeId × Table} (hgrow : s.table.Extends (f s.table).2) :
    Passes s (do return some (← onTable f)) :=
  passes_bind (passes_onTable hgrow) fun _ _ _ => passes_pure _

theorem passes_onSession {m : SessionM α}
    (hgrow : s.session.table.Extends (m.run s.session).2.table) : Passes s (onSession m) := by
  refine passes_same fun a s' hrun => ?_
  rw [run_onSession] at hrun
  obtain ⟨-, rfl⟩ := Prod.mk.inj hrun
  exact ⟨rfl, fun h => h, rfl, hgrow, rfl⟩

/-- A change of the state that is not about functions, types or diagnostics. -/
theorem passes_modify {change : State → State}
    (h : ∃ exports unknown dependencies, change s = { s with exports, unknown, dependencies }) :
    Passes s (modify change) := by
  obtain ⟨exports, unknown, dependencies, hchange⟩ := h
  refine passes_same fun a s' hrun => ?_
  rw [run_modify, hchange] at hrun
  cases hrun
  exact ⟨rfl, fun h => h, rfl, .refl _, rfl⟩

/-- The arena after one operation. -/
theorem leads_arena {arena : Arena} (h : Attempt s.arena arena) (hidle : s.arena.Idle arena) :
    s.Leads { s with arena } :=
  ⟨rfl, fun h => h, h.retains, .refl _, hidle.orderly h.retains⟩

/-- An operation that was carried out, with the arena it leaves. -/
theorem onArena_of_run {f : Arena → Except Scope.Error α × Arena} {a : α} {s' : State}
    (h : (onArena f).run s = (.ok a, s')) :
    ∃ arena, f s.arena = (.ok a, arena) ∧ s' = { s with arena } := by
  rw [run_onArena] at h
  obtain ⟨hresult, rfl⟩ := Prod.mk.inj h
  rcases hf : f s.arena with ⟨_ | b, arena⟩ <;> rw [hf] at hresult
  · cases hresult
  · cases hresult
    exact ⟨arena, rfl, rfl⟩

theorem passes_arena {f : Arena → Except Scope.Error α × Arena} (op : Operation)
    (h : outcome (f s.arena) = op.run s.arena) (hidle : s.arena.Idle (f s.arena).2) :
    Passes s (onArena f) := by
  intro a s' hrun
  rw [run_onArena] at hrun
  obtain ⟨-, rfl⟩ := Prod.mk.inj hrun
  refine ⟨leads_arena ⟨op, ?_⟩ hidle, hidle, rfl⟩
  rw [← h]
  rfl

theorem passes_onArena {f : Arena → Except Scope.Error α × Arena} (op : Operation)
    (h : outcome (f s.arena) = op.run s.arena) (hpassive : op.isPassive) :
    Passes s (onArena f) := by
  refine passes_arena op h ?_
  have hidle := op.idle (a := s.arena) hpassive
  rwa [← h] at hidle

theorem passes_openBranch : Passes s openBranch := by
  rintro _ _ ⟨⟩
  have hidle : s.arena.Idle (s.arena.pushBranch s.focus.scope).2 := .push rfl rfl
  exact ⟨leads_arena ⟨.pushBranch s.focus.scope, rfl⟩ hidle, hidle, rfl⟩

/-! ## The judgement -/

/-- After work that reports nothing the functions of `owed` have scopes, given that those of `done`
have. -/
def Covers (owner : ScopeId) (done : List (FunctionKind × Function)) (s : State) (m : Check α)
    (owed : α → List (FunctionKind × Function)) : Prop :=
  ∀ a s', m.run s = (.ok a, s') → s.Leads s' ∧
    (s.Calm → s'.diagnostics = [] →
      s'.Calm ∧ s.Fills s' ∧ (s.HasAll owner done → s'.HasAll owner (owed a)))

variable {done : List (FunctionKind × Function)} {owed : α → List (FunctionKind × Function)}
  {met : β → List (FunctionKind × Function)}

theorem Passes.covers {m : Check α} (h : Passes s m) (hsub : ∀ a, owed a ⊆ done) :
    Covers owner done s m owed := by
  intro a s' hrun
  obtain ⟨hl, hidle, hentered⟩ := h a s' hrun
  refine ⟨hl, fun hcalm _ => ⟨hcalm.idle hl hidle (hentered ▸ List.Subset.refl _), ?_, ?_⟩⟩
  · intro x hx
    exact .inl (hentered ▸ hx)
  · exact fun hdone => hl.hasAll (hdone.mono (hsub a))

theorem covers_pure {a : α} (hsub : owed a ⊆ done) : Covers owner done s (pure a) owed := by
  rintro _ _ ⟨⟩
  exact ⟨.refl s, fun hcalm _ => ⟨hcalm, fun _ hx => .inl hx, fun hdone => hdone.mono hsub⟩⟩

theorem covers_throw (e : Error) : Covers owner done s (throw e : Check α) owed := by
  rintro _ _ ⟨⟩

theorem covers_get_bind {f : State → Check α} (h : Covers owner done s (f s) owed) :
    Covers owner done s (get >>= f) owed :=
  h

/-- What a first part has seen to is at hand in the rest. -/
theorem covers_then {m : Check β} {f : β → Check α} (h : Covers owner done s m met)
    (hf : ∀ b s₁, s.Leads s₁ → Covers owner (met b) s₁ (f b) owed) :
    Covers owner done s (m >>= f) owed := by
  intro a s' hrun
  obtain ⟨b, s₁, hm, hrest⟩ := ok_of_run_bind hrun
  obtain ⟨hl, hfirst⟩ := h b s₁ hm
  obtain ⟨hl', hthen⟩ := hf b s₁ hl a s' hrest
  refine ⟨hl.trans hl', fun hcalm hclean => ?_⟩
  obtain ⟨hcalm₁, hfills₁, hall₁⟩ := hfirst hcalm (hl'.silent hclean)
  obtain ⟨hcalm', hfills', hall'⟩ := hthen hcalm₁ hclean
  refine ⟨hcalm', ?_, fun hdone => hall' (hall₁ hdone)⟩
  intro x hx
  rcases hfills' x hx with hold | hall
  · exact (hfills₁ x hold).imp_right hl'.hasAll
  · exact .inr hall

theorem Covers.mono {m : Check α} {more : List (FunctionKind × Function)}
    (h : Covers owner done s m owed) (hsub : done ⊆ more) : Covers owner more s m owed := by
  intro a s' hrun
  obtain ⟨hl, hrest⟩ := h a s' hrun
  refine ⟨hl, fun hcalm hclean => ?_⟩
  obtain ⟨hcalm', hfills, hall⟩ := hrest hcalm hclean
  exact ⟨hcalm', hfills, fun hdone => hall (hdone.mono hsub)⟩

/-- More that is at hand before stays so. -/
theorem Covers.keep {m : Check α} (h : Covers owner done s m owed)
    (kept : List (FunctionKind × Function)) :
    Covers owner (kept ++ done) s m fun a => kept ++ owed a := by
  intro a s' hrun
  obtain ⟨hl, hrest⟩ := h a s' hrun
  refine ⟨hl, fun hcalm hclean => ?_⟩
  obtain ⟨hcalm', hfills, hall⟩ := hrest hcalm hclean
  refine ⟨hcalm', hfills, fun hdone => ?_⟩
  exact (hl.hasAll (hdone.mono (List.subset_append_left _ _))).append
    (hall (hdone.mono (List.subset_append_right _ _)))

/-- What is owed by a first part is at hand in the rest, with what was before. -/
theorem covers_bind {m : Check β} {f : β → Check α} (h : Covers owner [] s m met)
    (hf : ∀ b s₁, s.Leads s₁ → Covers owner (done ++ met b) s₁ (f b) owed) :
    Covers owner done s (m >>= f) owed :=
  covers_then ((h.keep done).mono (by rw [List.append_nil]; exact List.Subset.refl _)) hf

/-- What comes after work that passes may depend on how it ran. -/
theorem covers_pass_run {m : Check β} {f : β → Check α} (h : Passes s m)
    (hf : ∀ b s₁, m.run s = (.ok b, s₁) → s.Leads s₁ → Covers owner done s₁ (f b) owed) :
    Covers owner done s (m >>= f) owed := by
  intro a s' hrun
  obtain ⟨b, s₁, hm, hrest⟩ := ok_of_run_bind hrun
  obtain ⟨hl, hidle, hentered⟩ := h b s₁ hm
  obtain ⟨hl', hthen⟩ := hf b s₁ hm hl a s' hrest
  refine ⟨hl.trans hl', fun hcalm hclean => ?_⟩
  have hcalm₁ := hcalm.idle hl hidle (hentered ▸ List.Subset.refl _)
  obtain ⟨hcalm', hfills, hall⟩ := hthen hcalm₁ hclean
  exact ⟨hcalm', fun x hx => hentered ▸ hfills x hx, fun hdone => hall (hl.hasAll hdone)⟩

theorem covers_pass {m : Check β} {f : β → Check α} (h : Passes s m)
    (hf : ∀ b s₁, s.Leads s₁ → Covers owner done s₁ (f b) owed) :
    Covers owner done s (m >>= f) owed :=
  covers_pass_run h fun b s₁ _ hl => hf b s₁ hl

/-- What is at hand before stays so. -/
theorem Covers.frame {m : Check α} {gained : α → List (FunctionKind × Function)}
    (h : Covers owner [] s m gained) (hsub : ∀ a, owed a ⊆ done ++ gained a) :
    Covers owner done s m owed := by
  intro a s' hrun
  obtain ⟨hl, hrest⟩ := h a s' hrun
  refine ⟨hl, fun hcalm hclean => ?_⟩
  obtain ⟨hcalm', hfills, hall⟩ := hrest hcalm hclean
  exact ⟨hcalm', hfills, fun hdone => ((hl.hasAll hdone).append (hall nofun)).mono (hsub a)⟩

/-- What is at hand stays so, whatever is done elsewhere. -/
theorem Covers.elsewhere {m : Check α} {other : ScopeId} {met : α → List (FunctionKind × Function)}
    (h : Covers other [] s m met) : Covers owner done s m fun _ => done := by
  intro a s' hrun
  obtain ⟨hl, hrest⟩ := h a s' hrun
  refine ⟨hl, fun hcalm hclean => ?_⟩
  obtain ⟨hcalm', hfills, -⟩ := hrest hcalm hclean
  exact ⟨hcalm', hfills, hl.hasAll⟩

/-- What is known to have scopes is at hand. -/
theorem Covers.of_hasAll {m : Check α} (hall : s.HasAll owner done)
    (h : Covers owner done s m owed) : Covers owner [] s m owed := by
  intro a s' hrun
  obtain ⟨hl, hrest⟩ := h a s' hrun
  refine ⟨hl, fun hcalm hclean => ?_⟩
  obtain ⟨hcalm', hfills, howed⟩ := hrest hcalm hclean
  exact ⟨hcalm', hfills, fun _ => howed hall⟩

theorem covers_withFocus {change : Focus → Focus} {m : Check α}
    (h : Covers owner done { s with focus := change s.focus } m owed) :
    Covers owner done s (withFocus change m) owed := by
  intro a s' hrun
  rw [run_withFocus] at hrun
  obtain ⟨hresult, rfl⟩ := Prod.mk.inj hrun
  obtain ⟨hl, hrest⟩ := h a _ (Prod.ext hresult rfl)
  exact ⟨⟨rfl, hl.silent, hl.scopes, hl.table, hl.orderly⟩, hrest⟩

theorem diagnostics_ne_of_report {kind : Report.Kind} {span : Span}
    {fields : List (String × String)} {a : Unit} {s' : State}
    (h : (report kind span fields).run s = (.ok a, s')) : s'.diagnostics ≠ [] := by
  cases h
  simp

/-- After a report nothing is owed. -/
theorem covers_report {kind : Report.Kind} {span : Span} {fields : List (String × String)}
    {owed : Unit → List (FunctionKind × Function)} :
    Covers owner done s (report kind span fields) owed := by
  intro a s' hrun
  exact ⟨(passes_report a s' hrun).1, fun _ hclean => absurd hclean (diagnostics_ne_of_report hrun)⟩

/-- What a result owes: nothing, if it is missing. -/
def owing (functions : List (FunctionKind × Function)) : Option α → List (FunctionKind × Function)
  | some _ => functions
  | none => []

/-- A result that is missing owes nothing. -/
theorem covers_none {functions : List (FunctionKind × Function)} :
    Covers owner done s (pure none) (owing (α := α) functions) :=
  covers_pure (List.nil_subset _)

theorem Passes.covers_none {m : Check Unit} (h : Passes s m)
    {functions : List (FunctionKind × Function)} :
    Covers owner done s (do m; pure none) (owing (α := α) functions) :=
  covers_pass h fun _ _ _ => Verify.covers_none

/-- Work after all that is owed has been done. -/
theorem Passes.covers_owing {m : Check (Option α)} (h : Passes s m)
    {functions : List (FunctionKind × Function)} (hsub : functions ⊆ done) :
    Covers owner done s m (owing functions) := by
  refine h.covers fun result => ?_
  cases result with
  | none => exact List.nil_subset _
  | some a => exact hsub

theorem Covers.frame_owing {m : Check (Option α)} {functions : List (FunctionKind × Function)}
    (h : Covers owner [] s m (owing functions)) :
    Covers owner done s m (owing (done ++ functions)) := by
  refine h.frame fun result => ?_
  cases result with
  | none => exact List.nil_subset _
  | some a => exact List.Subset.refl _

/-! ## Visitors -/

/-- What the visitor of the parts of a node must do. -/
structure Visitor.Covers (v : Visitor) : Prop where
  expr : ∀ {s owner} e, s.Under owner →
    Verify.Covers owner [] s (v.expr e) fun _ => (Node.expr e).direct
  stmt : ∀ {s owner} stmt, s.Under owner →
    Verify.Covers owner [] s (v.stmt stmt) fun _ => (Node.stmt stmt).direct
  require : ∀ file request (session : Session),
    session.table.Extends ((v.require file request).run session).2.table

end HeaderCheck.Verify
