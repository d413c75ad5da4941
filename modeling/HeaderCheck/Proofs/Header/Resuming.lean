import HeaderCheck.Proofs.Header.Mirror

/-!
# HeaderCheck.Proofs.Header.Resuming

Lowering takes up where it left off: what it has lowered, it lowers to the same type again.

* `KeysApart`: declarations do not get in the way of one another while they are in progress.
* `resuming_lowerWithin`: the lowering of an expression, and what follows from there on, with
  declarations that are known by then.
* `run_lowerDeclarations`: the types of all declarations, found in turn, are found again.
-/

namespace HeaderCheck.Header

open HeaderCheck.Signature
open HeaderCheck.Types (Table TypeId)

/-- No two declarations have one key while they are in progress. -/
def KeysApart (declarations : Dict Declared) : Prop :=
  ∀ name declared other declared', declarations.get? name = some declared →
    declarations.get? other = some declared' → declared.key name = declared'.key other →
    name = other

/-- What is known are types of declarations without parameters. -/
def Lowering.PlainOnly (l : Lowering) : Prop :=
  ∀ name type, l.resolved.get? name = some type →
    ∃ declared, l.declarations.get? name = some declared ∧ declared.params.isEmpty

/-- Lowering mirrors itself from where it is. -/
def Mirror.resuming : Mirror where
  resumes := True
  known l := KeysApart l.declarations ∧ l.PlainOnly
  ready _ _ := True
  known_congr h _ _ hd _ hresolved _ := by
    rw [Lowering.PlainOnly, hd, hresolved]
    exact h
  ready_keeps _ _ _ := trivial
  ready_part _ _ _ := trivial
  ready_push _ _ _ _ := trivial

variable {α : Type} {l : Lowering} {names inner : List String} {P : α → Table → Prop}
  {m : LowerM α} {m' : Nat → LowerM α}

/-- Where the mirroring work takes up, all names stand for the same. -/
theorem Mirrors.of_resumes (h : Mirrors .resuming inner l P m m') :
    Mirrors .resuming names l P m m' := by
  refine ⟨h.onward, h.result, fun hcounts => ?_⟩
  obtain ⟨reported, hreported, hall, enough, hcomes⟩ := h.again hcounts
  refine ⟨reported, hreported, hall, enough, fun fuel hfuel r hr => hcomes fuel hfuel r ?_⟩
  refine { hr with bindings := fun name _ => ?_ }
  rw [Lowering.binding?, Lowering.binding?, (hr.resumes trivial).typeVars]

/-- Work while a declaration with parameters is in progress. -/
theorem Mirrors.whileInProgress {key : String}
    (hkey : ∀ declared, l.declarations.get? key = some declared → ¬declared.params.isEmpty)
    (h : Mirrors .resuming names (l.start key) P m m') :
    Mirrors .resuming names l P (whileInProgress key m) fun fuel =>
      Header.whileInProgress key (m' fuel) := by
  obtain ⟨honward, hresult, hagain⟩ := h
  have hinside : (m.run (l.start key)).2.inProgress = key :: l.inProgress := honward.keeps.inProgress
  refine ⟨honward.finish, hresult, fun hcounts => ?_⟩
  obtain ⟨reported, hreported, hall, enough, hcomes⟩ := hagain hcounts
  refine ⟨reported, hreported, fun hnot => absurd trivial hnot, enough, fun fuel hfuel r hr => ?_⟩
  have hresumes := hr.resumes trivial
  have hprogress : r.inProgress = l.inProgress := by
    rw [hresumes.inProgress]
    exact (congrArg (fun keys => keys.erase key) hinside).trans (List.erase_cons_head key l.inProgress)
  have hstart : (m.run (l.start key)).2.Follows True names (r.start key) := by
    refine ⟨hr.wellFormed, hr.table, hr.path, hr.declarations, hr.imported, hr.bindings, fun _ => ?_⟩
    refine ⟨?_, hresumes.typeVars, hresumes.resolved, fun name type hget => ?_⟩
    · rw [hinside]
      exact congrArg (key :: ·) hprogress
    · obtain ⟨hfree, declared, hdeclared, hparams⟩ := hresumes.plain name type hget
      refine ⟨fun hmem => ?_, declared, hdeclared, hparams⟩
      rcases List.mem_cons.mp hmem with rfl | hmem
      · refine hkey declared ?_ hparams
        have hsame : (m.run (l.start name)).2.declarations = l.declarations :=
          honward.keeps.declarations
        rw [← hsame]
        exact (hr.declarations name).symm.trans hdeclared
      · exact hfree hmem
  have hrun := hcomes fuel hfuel _ hstart
  refine (run_whileInProgress hrun).trans ?_
  refine congrArg (fun keys => (_, ({ r.reporting reported with inProgress := keys } : Lowering))) ?_
  exact List.erase_cons_head key r.inProgress

theorem Lowering.PlainOnly.learn (h : l.PlainOnly) {name : String} {declared : Declared}
    (hget : l.declarations.get? name = some declared) (hparams : declared.params.isEmpty)
    (type : TypeId) : (l.learn name type).PlainOnly := by
  intro other known hother
  rw [Lowering.learn, Dict.get?_insert] at hother
  split at hother
  · next hsame => exact ⟨declared, hsame ▸ hget, hparams⟩
  · exact h other known hother

variable {lower : TypeExpr → LowerM TypeId} {lower' : Nat → TypeExpr → LowerM TypeId}

/-- A declaration without parameters is found once, and is known from then on. -/
theorem resuming_lowerPlain (h : Mirror.resuming.Exprs lower lower') (hl : Mirror.resuming.Holds l)
    {name : String} {declared : Declared} (hget : l.declarations.get? name = some declared)
    (hparams : declared.params.isEmpty) :
    Mirrors .resuming [] l (fun id t => t.Issued id) (lowerPlain lower name declared.body)
      fun fuel => lowerPlain (lower' fuel) name declared.body := by
  cases hknown : l.resolved.get? name with
  | some id =>
    refine .of_run (run_lowerPlain_known hknown) (Std.Refl.refl l) rfl ?_ fun fuel r hr =>
      run_lowerPlain_known ((hr.resumes trivial).resolved name id hknown)
    rintro _ ⟨⟩
    exact hl.sound.resolved name id hknown
  | none =>
  by_cases hprogress : name ∈ l.inProgress
  · have hliteral : Mirrors .resuming [] l (fun id t => t.Issued id)
        (onTable fun t => t.literal name false) fun _ => onTable fun t => t.literal name false :=
      mirrors_leaf hl.sound rfl trivial
    refine hliteral.congr (run_lowerPlain_inProgress hknown hprogress) fun fuel r hr => ?_
    have hprogress' : name ∈ r.inProgress := by rwa [(hr.resumes trivial).inProgress]
    refine run_lowerPlain_inProgress (Option.eq_none_iff_forall_ne_some.mpr fun id hid => ?_) hprogress'
    exact ((hr.resumes trivial).plain name id hid).1 hprogress'
  · have hbody : Mirrors .resuming declared.body.names (l.start name) (fun id t => t.Issued id)
        (lower declared.body) fun fuel => lower' fuel declared.body := h (hl.start name) trivial
    rcases hrun : (lower declared.body).run (l.start name) with ⟨e | id, l'⟩
    · have hinside := run_lowerPlain_error hknown hprogress hrun
      obtain ⟨honward, -, -⟩ := hbody
      rw [hrun] at honward
      refine ⟨?_, ?_, ?_⟩ <;> rw [hinside]
      · exact honward.finish
      · exact fun _ => nofun
      · exact fun hcounts => nomatch hcounts.2 trivial
    · have hinside := run_lowerPlain_ok hknown hprogress hrun
      obtain ⟨honward, hissued, -⟩ := hbody
      rw [hrun] at honward hissued
      have hnew : (l'.finish name).resolved.get? name = none :=
        (honward.waiting name List.mem_cons_self).trans hknown
      have hget' : (l'.finish name).declarations.get? name = some declared := by
        have hsame : l'.declarations = l.declarations := honward.keeps.declarations
        rw [← hget, ← hsame]
        rfl
      have hlearn : Mirror.resuming.Onward l ((l'.finish name).learn name id) :=
        honward.finish.learn hnew hprogress (hissued id rfl) fun hknown =>
          ⟨hknown.1, hknown.2.learn hget' hparams id⟩
      refine ⟨?_, ?_, fun _ => ⟨[], by simp, fun hnot => absurd trivial hnot, 0, fun fuel _ r hr => ?_⟩⟩
      · rw [hinside]
        exact hlearn
      · rw [hinside]
        exact hissued
      · rw [hinside] at hr ⊢
        rw [Lowering.reporting_nil]
        refine run_lowerPlain_known ((hr.resumes trivial).resolved name id ?_)
        rw [Lowering.learn, Dict.get?_insert, if_pos rfl]

/-- A declaration with parameters is lowered for its arguments each time. -/
theorem resuming_lowerApplied (h : Mirror.resuming.Exprs lower lower') (hl : Mirror.resuming.Holds l)
    {name : String} {declared : Declared} (hget : l.declarations.get? name = some declared)
    (hparams : ¬declared.params.isEmpty) {args : List TypeId}
    (hargs : ∀ arg ∈ args, l.table.Issued arg) :
    Mirrors .resuming [] l (fun id t => t.Issued id) (lowerApplied lower name declared args)
      fun fuel => lowerApplied (lower' fuel) name declared args := by
  have hkey : declared.key name = appliedKey name := by
    rw [Declared.key, if_neg hparams]
  suffices hinside : Mirrors .resuming [] l (fun id t => t.Issued id)
      (if l.inProgress.contains (appliedKey name) then onTable fun t => t.literal name false
        else Header.whileInProgress (appliedKey name) do
          let typeVars ← bindParams declared.params args
          withVariables typeVars (lower declared.body))
      (fun fuel => if l.inProgress.contains (appliedKey name) then onTable fun t => t.literal name false
        else Header.whileInProgress (appliedKey name) do
          let typeVars ← bindParams declared.params args
          withVariables typeVars (lower' fuel declared.body)) from
    hinside.get_bind fun fuel r hr => by rw [(hr.resumes trivial).inProgress]
  split
  · exact mirrors_leaf hl.sound rfl trivial
  · refine .whileInProgress (fun plain hplain hempty => hparams ?_) ?_
    · have hplainKey : plain.key (appliedKey name) = appliedKey name := by
        rw [Declared.key, if_pos hempty]
      have hsame := hl.known.1 _ _ _ _ hplain hget (hplainKey.trans hkey.symm)
      rw [hsame, hget] at hplain
      cases hplain
      exact hempty
    · have hstart := hl.start (appliedKey name)
      refine .bind (mirrors_bindParams hstart.sound declared.params hargs)
        fun typeVars l₁ h₁ hscopes => ?_
      have hbody : Mirrors .resuming [] (l₁.push typeVars) (fun id t => t.Issued id)
          (lower declared.body) fun fuel => lower' fuel declared.body :=
        .of_resumes (h ((h₁.holds hstart).push hscopes.1) trivial)
      exact .withVariables hscopes.1 (by simp) hbody

theorem resuming_lowerDeclaration (h : Mirror.resuming.Exprs lower lower') :
    Mirror.resuming.Declarations (lowerDeclaration lower) fun fuel =>
      lowerDeclaration (lower' fuel) := by
  intro l name _ _ _ args hl _ _ hdeclared hargs
  obtain ⟨declared, hget⟩ := Option.isSome_iff_exists.mp hdeclared
  have hrun : (lowerDeclaration lower name args).run l = _ := run_lowerDeclaration hget args
  have hrun' : ∀ fuel r, l.Follows True [] r → (lowerDeclaration (lower' fuel) name args).run r = _ :=
    fun fuel r hr => run_lowerDeclaration ((hr.declarations name).trans hget) args
  split at hrun
  · next hparams =>
    simp only [hparams, if_true] at hrun'
    exact (resuming_lowerPlain h hl hget hparams).congr hrun hrun'
  · next hparams =>
    simp only [hparams] at hrun'
    exact (resuming_lowerApplied h hl hget hparams hargs).congr hrun hrun'

/-- An expression that has been lowered comes to its type again. -/
theorem resuming_lowerWithin (fuel : Nat) :
    Mirror.resuming.Exprs (lowerWithin fuel) fun more => lowerWithin more := by
  induction fuel with
  | zero => exact fun _ _ => .outOfFuel
  | succ fuel ih =>
    intro l type hl hr
    refine .shift ?_
    simp only [lowerWithin, lowerLevel_eq]
    exact ih.level (resuming_lowerDeclaration ih) hl hr

/-! ## Headers -/

/-- A lowering at the end of its work, with nothing in progress, takes up where it is. -/
theorem Lowering.PlainOnly.follows (h : l.PlainOnly) (hl : l.Sound) (hprogress : l.inProgress = []) :
    l.Follows True names l where
  wellFormed := hl.table
  table := .refl _
  path := rfl
  declarations _ := rfl
  imported _ := rfl
  bindings _ _ := rfl
  resumes _ := by
    refine ⟨rfl, rfl, fun _ _ hget => hget, fun name type hget => ⟨?_, h name type hget⟩⟩
    rw [hprogress]
    exact List.not_mem_nil

/-- Where a header is once its declarations and some more expressions are lowered. -/
structure Resumed (header : Header) (name : String) (type : TypeId) (p : Lowering) : Prop where
  sound : p.Sound
  declarations : p.declarations = declarationsOf header
  typeVars : p.typeVars = []
  issued : p.table.Issued type
  again : ∃ reported enough, ∀ fuel, enough ≤ fuel →
    (lowerDeclaration (lowerWithin fuel) name []).run p = (.ok type, p.reporting reported)

/-- What a header exports, its names come to again while it goes on. -/
theorem exported_again {header : Header} {start last : Lowering} {lowered : Lowered}
    (hstart : start.Begins header) (hkeys : KeysApart (declarationsOf header))
    (hexports : (lowerStatements header).run start = (.ok lowered, last)) :
    ∃ pairs known, (lowerDeclarations header).run start = (.ok pairs, known) ∧
      (∀ name, (declarationsOf header).contains name →
        ∃ type, lowered.declarations.get? name = some type) ∧
      ∀ name type, lowered.declarations.get? name = some type →
        ∀ fuel (types : List TypeExpr) ids p,
          (types.mapM (lowerWithin fuel)).run known = (.ok ids, p) → Resumed header name type p := by
  rw [run_lowerStatements hstart.declarations] at hexports
  obtain ⟨pairs, known, hrun, hexports⟩ := ok_of_run_bind hexports
  obtain ⟨assignments, l, -, hexports⟩ := ok_of_run_bind hexports
  cases hexports
  have hbegins : Mirror.resuming.Holds start := by
    refine ⟨hstart.sound, hstart.declarations ▸ hkeys, fun name type hget => ?_⟩
    rw [hstart.resolved] at hget
    cases hget
  have hdeclarations : Mirror.resuming.Declarations
      (lowerDeclaration (lowerWithin (header.size + 1))) fun fuel => lowerDeclaration (lowerWithin fuel) :=
    resuming_lowerDeclaration (resuming_lowerWithin (header.size + 1))
  have heach : MirrorsEach .resuming [] Typed
      (typed (lowerDeclaration (lowerWithin (header.size + 1))))
      (fun fuel => typed (lowerDeclaration (lowerWithin fuel))) start (declarationsOf header).keys :=
    .of_forall fun name hname l₁ h₁ => by
      refine hdeclarations.typed (h₁.holds hbegins) (h₁.keeps.typeVars.trans hstart.typeVars) ?_ trivial
      rw [h₁.keeps.declarations, hstart.declarations]
      exact contains_of_mem_keys hname
  have hfinds := heach.finds hrun
  refine ⟨pairs, known, hrun, hfinds.found, fun name type hget fuel types ids p hmore => ?_⟩
  obtain ⟨hissued, reported, -, hcomes⟩ := hfinds.again name type hget
  have hknown := hfinds.onward.holds hbegins
  have hcovers : Mirror.resuming.Covers known (typesNames types) types :=
    fun type hmem => ⟨trivial, fun name hname => mem_typesNames hmem hname⟩
  have hexprs : Mirror.resuming.Exprs (lowerWithin fuel) fun more => lowerWithin more :=
    resuming_lowerWithin fuel
  have honward := (hexprs.list hknown hcovers).onward
  rw [hmore] at honward
  have hp := honward.holds hknown
  have hk : start.Keeps p := IsTrans.trans _ _ _ hfinds.onward.keeps honward.keeps
  have hfollows : p.Follows True [] p :=
    hp.known.2.follows hp.sound (hk.inProgress.trans hstart.inProgress)
  obtain ⟨enough, hagain⟩ := honward.comes hcomes
  exact ⟨hp.sound, hk.declarations.trans hstart.declarations, hk.typeVars.trans hstart.typeVars,
    honward.keeps.table.issued hissued, reported, enough,
    fun fuel hfuel => hagain fuel hfuel p hfollows⟩

end HeaderCheck.Header
