import HeaderCheck.Proofs.Verify.Frame
import HeaderCheck.Proofs.Verify.Region.Expressions

/-!
# HeaderCheck.Proofs.Verify.Region.Statements

Statements, branches and whole sources keep within their regions.

* `confined_verifyDeclarator`: a variable is new where it is declared when its initial value is
  verified. It is bound by then only if that value reaches a function of its name.
* `State.Arm`: a branch of the scope at hand, in which only names of the region are narrowed.
* `confines_visitor`: chains of visits, by induction on their length.
* `confined_verifySource`: a whole source with the header beside it.
-/

namespace HeaderCheck.Verify

open HeaderCheck.Project (Error Host Options Session SessionM resolveHeader)
open HeaderCheck.Scope (Arena ScopeId)
open HeaderCheck.Script
open HeaderCheck.Types (Table TypeId)

variable {α : Type} {G : Ground} {R : Region G} {s s' : State} {v : Visitor}

/-! ## Variables -/

theorem State.Fits.owner_scope (hs : s.Fits R) : s.Owns s.owner := by
  obtain ⟨scope, hscope, hb, -⟩ := hs.arena.sound.owner_spec hs.focus
  exact ⟨scope, hscope, hb⟩

/-- What a scope binds itself is in sight from it. -/
theorem State.Fits.typeIn_of_hasOwnVar (hs : s.Fits R) {id : ScopeId} {name : String}
    (h : s.arena.hasOwnVar id name) : (s.typeIn id name .writable).isSome := by
  obtain ⟨scope, hscope, hbound⟩ := Arena.exists_of_hasOwnVar h
  refine (Arena.getVar_isSome_iff _ _ _ _).mpr (.inl ⟨(id, scope), ?_, hbound⟩)
  rw [hs.arena.sound.ordered.chain_eq hscope]
  exact List.mem_cons_self

theorem State.Fits.unbound_of_ownDeclaredType? (hs : s.Fits R) {name : String}
    (h : s.ownDeclaredType? name = none) : s.arena.hasOwnVar s.owner name = false := by
  cases hown : s.arena.hasOwnVar s.owner name with
  | false => rfl
  | true =>
    have hsome := hs.typeIn_of_hasOwnVar hown
    rw [State.ownDeclaredType?, if_pos hown] at h
    rw [h] at hsome
    cases hsome

theorem confined_verifyDeclaredVariable (hv : v.Confines G) {name : String} {declared : TypeId}
    {init : Expr} (hname : R.names name) (hinit : R.Covers (.expr init))
    (hown : s.ownDeclaredType? name = some declared) :
    Confined R s (verifyDeclaredVariable v name declared init) fun _ _ => True := by
  have hsight : (s.typeIn s.owner name .writable).isSome := by
    rw [State.ownDeclaredType?] at hown
    split at hown
    · exact Option.isSome_of_eq_some hown
    · cases hown
  refine confined_bind (hv.into hinit _ s) fun actual s₁ hs hl _ => ?_
  cases actual with
  | none => exact confined_pure trivial
  | some actual =>
    simp only
    split
    · refine confined_get_bind ?_
      obtain ⟨scope, hscope, -⟩ := hs.owner_scope
      have hsight₁ := hl.typeIn_isSome hs (Arena.index_lt_size hscope) hsight
      rw [← hl.owner_eq hs] at hsight₁
      exact confined_bind (confined_update hname fun _ => hsight₁) fun _ _ _ _ _ => confined_pure trivial
    · exact confines_then_unit notes_checkFits.confines s₁

/-- A name that its own initial value binds is that of a function which the value reaches. -/
theorem State.Fits.starts_of_bound (hs : s.Fits R) {init : Expr}
    (hreached : s.Leaves (.reach G [.expr init] s.arena.size) s')
    {name : String} (hunbound : s.arena.hasOwnVar s.owner name = false)
    (hbound : s'.arena.hasOwnVar s.owner name) :
    G.program.Reaches (.expr init) name ∧ ∃ f, G.program.Declares f ∧ f.name = name := by
  obtain ⟨scope, hscope, -⟩ := hs.owner_scope
  obtain ⟨scope', hscope', ht⟩ := hreached.arena _ scope hscope
  have hfree : scope.identifiers.contains name = false := by
    rwa [Arena.hasOwnVar, hscope] at hunbound
  rw [Arena.hasOwnVar, hscope'] at hbound
  constructor
  · by_contra hnot
    have hspared : ¬(Region.reach G [.expr init] s.arena.size).names name := by
      rintro ⟨n, hn, hreach⟩
      exact hnot (List.mem_singleton.mp hn ▸ hreach)
    have hsame := ht.spared name hspared
    rw [Dict.contains, ← hsame.identifiers] at hfree
    rw [Option.any_some, Dict.contains, hfree] at hbound
    cases hbound
  · have hshut := ht.shut.resolve_left (Nat.not_le.mpr (Arena.index_lt_size hscope))
    rcases hshut.bound name hbound with hold | huntyped
    · rw [hfree] at hold
      cases hold
    · exact hs.arena.of_contains hscope huntyped

/-- A new variable is bound, unless its initial value has given a function of its name a type. -/
theorem confined_verifyNewVariable (hv : v.Confines G) (hinside : R.inside) {name : String} {init : Expr}
    (hname : R.names name) (hinit : R.Covers (.expr init)) (hown : s.ownDeclaredType? name = none)
    (hstarts : G.program.Reaches (.expr init) name → (∃ f, G.program.Declares f ∧ f.name = name) →
      G.program.SelfStarts name) :
    Confined R s (verifyNewVariable v name init) fun _ _ => True := by
  refine confined_get_bind ?_
  simp only
  split
  · refine confined_addVar hname (fun hs => hs.owner hinside) (fun hs => hs.owner_scope)
      (fun hs hbound => ?_) fun _ _ => trivial
    rw [hs.unbound_of_ownDeclaredType? hown] at hbound
    cases hbound
  have hnode : ∀ n ∈ [Node.expr init], R.Covers n := by
    intro n hn
    rw [List.mem_singleton.mp hn]
    exact hinit
  have hvalue : Confined R s (v.into init none) fun _ s' =>
      s.Leaves (.reach G [.expr init] s.arena.size) s' ∧ True :=
    Confined.reached hnode
      (hv.into (Region.covers_reach (List.mem_singleton_self _) hinit.mem _) none s)
  refine confined_bind hvalue fun actual s₁ hs hl ⟨hreached, _⟩ => ?_
  cases actual with
  | none => exact confined_same rfl rfl rfl rfl rfl rfl rfl trivial
  | some actual =>
    rw [← hl.owner_eq hs]
    refine confined_addVar hname (fun hs₁ => hs₁.owner hinside) (fun hs₁ => hs₁.owner_scope)
      (fun _ hbound => ?_) fun _ _ => trivial
    rw [hl.owner_eq hs] at hbound
    obtain ⟨hreaches, hfunction⟩ :=
      hs.starts_of_bound hreached (hs.unbound_of_ownDeclaredType? hown) hbound
    exact G.selfStarted name (hstarts hreaches hfunction)

theorem confined_verifyDeclarator (hv : v.Confines G) (hinside : R.inside) {n : Node}
    (h : R.Covers n) {declarator : Declarator} (hmem : declarator ∈ n.declarators) :
    Confined R s (verifyDeclarator v declarator) fun _ _ => True := by
  have hname : R.names declarator.id.name := h.name (Node.mem_names_of_declarator hmem)
  have hinit {init : Expr} (hi : declarator.init = some init) : R.Covers (.expr init) :=
    h.visited (Node.mem_visited_of_declarator hmem hi)
  refine confined_get_bind ?_
  simp only
  split
  · next hown hi => exact confined_verifyDeclaredVariable hv hname (hinit hi) hown
  · exact confined_pure trivial
  · next hown _ =>
    refine confined_addVar hname (fun hs => hs.owner hinside) (fun hs => hs.owner_scope)
      (fun hs hbound => ?_) fun _ _ => trivial
    rw [hs.unbound_of_ownDeclaredType? hown] at hbound
    cases hbound
  · next init hown hi =>
    exact confined_verifyNewVariable hv hinside hname (hinit hi) hown fun hreach hdeclared =>
      ⟨⟨init, Program.mem_initialsFor h.mem hmem hi, hreach⟩, hdeclared⟩

theorem confines_verifyDeclarators (hv : v.Confines G) (hinside : R.inside) {n : Node}
    (h : R.Covers n) {declarators : List Declarator} (hmem : declarators ⊆ n.declarators) :
    Confines R (verifyDeclarators v declarators) := by
  induction declarators with
  | nil => exact confines_pure _
  | cons declarator rest ih =>
    obtain ⟨hfirst, hrest⟩ := List.cons_subset.mp hmem
    exact confines_bind (fun _ => confined_verifyDeclarator hv hinside h hfirst) fun _ => ih hrest

/-! ## Return statements -/

/-- The return that is under way is left also after an error. -/
theorem confines_whileReturning (expected : TypeId) {m : Check α} (h : Confines R m) :
    Confines R (whileReturning expected m) := by
  refine fun s => confined_get_bind ?_
  have henter : Confines R (onArena fun a => a.enterReturn s.focus.scope expected) :=
    confines_modifyFunction fun _ => rfl
  have hexit : Confines R (onArena fun a => a.exitReturn s.focus.scope) :=
    confines_modifyFunction fun _ => rfl
  refine confined_bind (henter s) fun _ s₁ _ _ _ hs₁ => ?_
  obtain ⟨hl, -, hE⟩ := h s₁ hs₁
  obtain ⟨hl', -, hE'⟩ := hexit _ (hl.fits hs₁)
  rcases hrun : m.run s₁ with ⟨result, s₂⟩
  rw [hrun] at hl hE hl' hE'
  rcases hleft : (onArena fun a => a.exitReturn s.focus.scope).run s₂ with ⟨e | _, s₃⟩ <;>
    rw [hleft] at hl' hE'
  · refine .of_error ?_ (hl.trans hl') (hE' e rfl)
    rw [ExceptT.run_mk, hrun]
    simp only [hleft]
  · cases result with
    | error e =>
      refine .of_error ?_ (hl.trans hl') (hE e rfl)
      rw [ExceptT.run_mk, hrun]
      simp only [hleft]
    | ok a =>
      refine .of_ok (a := a) ?_ (hl.trans hl') trivial
      rw [ExceptT.run_mk, hrun]
      simp only [hleft]

theorem confines_verifyReturn (hv : v.Confines G) {argument : Option Expr} (span : Span)
    (h : ∀ e, argument = some e → R.Covers (.expr e)) :
    Confines R (verifyReturn v argument span) := by
  have hreturned : Confines R (returnedType v argument) := by
    cases argument with
    | some argument => exact confines_bind (hv.value (h argument rfl)) fun _ => confines_pure _
    | none => exact confines_pure _
  refine confines_get_bind fun s => ?_
  split
  · exact confines_then_unit (hv.expr R _ (h _ rfl))
  · exact confines_pure _
  · exact confines_bind (confines_whileReturning _ hreturned) fun _ =>
      confines_modifyFunction fun _ => rfl

/-! ## Conditions -/

theorem confines_narrowIn (scope : ScopeId) {name : String} (hname : R.names name)
    (change : Table → TypeId → Option (TypeId × Table)) : Confines R (narrowIn scope name change) := by
  refine confines_get_bind fun s => ?_
  split
  · exact confines_pure _
  refine confines_bind (notes_onTable? _).confines fun narrowed => ?_
  cases narrowed with
  | none => exact confines_pure _
  | some narrowed => exact confines_restrict hname

/-- The variable of a comparison stands on one side of it. -/
theorem names_of_eitherOrder {β : Type} {f : Expr → Option String} {g : Expr → Option β}
    {left right : Expr} {name : String} {value : β}
    (hf : ∀ e, R.Covers (.expr e) → f e = some name → R.names name)
    (hleft : R.Covers (.expr left)) (hright : R.Covers (.expr right))
    (h : eitherOrder f g left right = some (name, value)) : R.names name := by
  unfold eitherOrder at h
  split at h
  · next ha _ =>
    cases h
    exact hf left hleft ha
  split at h
  · next ha _ =>
    cases h
    exact hf right hright ha
  · cases h

theorem names_of_typeofOperand? {e : Expr} {name : String} (h : R.Covers (.expr e))
    (hname : typeofOperand? e = some name) : R.names name := by
  unfold typeofOperand? at hname
  split at hname
  · next argument _ _ =>
    obtain ⟨id, hid, rfl⟩ := Option.map_eq_some_iff.mp hname
    have hargument : R.Covers (.expr argument) := h.visited List.mem_cons_self
    cases argument <;> cases hid
    exact hargument.identifier
  · cases hname

theorem names_of_guarded? {e : Expr} {name : String} (h : R.Covers (.expr e))
    (hname : guarded? e = some name) : R.names name := by
  unfold guarded? at hname
  split at hname
  · split at hname
    · cases hname
    · cases hname
      exact h.identifier
  · cases hname

theorem confines_narrow {test : Expr} (h : R.Covers (.expr test)) (holds fails : ScopeId) :
    Confines R (narrow test holds fails) := by
  have htwice (scope other : ScopeId) {name : String} (hname : R.names name)
      (change change' : Table → TypeId → Option (TypeId × Table)) : Confines R (do
        narrowIn scope name change
        narrowIn other name change') :=
    confines_bind (confines_narrowIn _ hname _) fun _ => confines_narrowIn _ hname _
  fun_induction narrow test holds fails with
  | case1 id holds fails => exact htwice _ _ h.identifier _ _
  | case2 argument _ _ holds fails ih => exact ih (h.visited List.mem_cons_self)
  | case3 => exact confines_pure _
  | case4 operator left right _ holds fails =>
    have hleft : R.Covers (.expr left) := h.visited List.mem_cons_self
    have hright : R.Covers (.expr right) := h.visited (List.mem_cons_of_mem _ List.mem_cons_self)
    rw [narrowComparison]
    split
    · exact confines_pure _
    split
    · next hfound =>
      exact htwice _ _ (names_of_eitherOrder (fun _ => names_of_typeofOperand?) hleft hright hfound) _ _
    split
    · next hfound =>
      exact htwice _ _ (names_of_eitherOrder (fun _ => names_of_guarded?) hleft hright hfound) _ _
    · exact confines_pure _
  | case5 operator left right _ holds fails ihl ihr ihl' ihr' =>
    have hleft : R.Covers (.expr left) := h.visited List.mem_cons_self
    have hright : R.Covers (.expr right) := h.visited (List.mem_cons_of_mem _ List.mem_cons_self)
    refine confines_bind confines_openBranch fun scratch => ?_
    split
    · exact confines_bind (ihl scratch hleft) fun _ => ihr scratch hright
    split
    · exact confines_bind (ihl' scratch hleft) fun _ => ihr' scratch hright
    · exact confines_pure _
  | case6 => exact confines_pure _

/-! ## Arms -/

/-- The scope is a branch of the scope at hand and narrows only names of the region. -/
structure State.Arm (R : Region G) (s : State) (id : ScopeId) : Prop where
  owner : s.arena.owner id = s.owner
  names : ∃ scope, s.arena.scope? id = some scope ∧
    ∀ name, scope.restrictions.contains name → R.names name

theorem State.Leaves.arm (hl : s.Leaves R s') (hs : s.Fits R) {id : ScopeId} (h : s.Arm R id) :
    s'.Arm R id := by
  obtain ⟨scope, hscope, hnames⟩ := h.names
  obtain ⟨scope', hscope', ht⟩ := hl.arena id scope hscope
  refine ⟨?_, scope', hscope', fun name hname => ?_⟩
  · rw [hl.arena.owner_eq hs.arena.sound.ordered (Arena.index_lt_size hscope), h.owner,
      hl.owner_eq hs]
  · by_contra hnot
    rw [Dict.contains, (ht.spared name hnot).restrictions] at hname
    exact hnot (hnames name hname)

theorem confined_openBranch : Confined R s openBranch fun id s' => s'.Arm R id := by
  intro hs
  obtain ⟨hl, -, hE⟩ := confines_openBranch s hs
  refine ⟨hl, fun id hid => ?_, hE⟩
  rw [run_openBranch] at hid hl ⊢
  cases hid
  have hscope : (s.arena.pushBranch s.focus.scope).2.scope? ⟨s.arena.size⟩ =
      some { parent := some s.focus.scope, kind := .branch none } := by
    rw [Arena.pushBranch, Arena.scope?_push, if_pos rfl]
  refine ⟨?_, _, hscope, ?_⟩
  · exact (hl.fits hs).arena.sound.owner_of_branch hscope rfl rfl
  · rintro _ ⟨⟩

/-- Work in an arm. -/
theorem confined_inArm {m : Check α} {id : ScopeId} (h : s.Arm R id) (hm : Confines R m) :
    Confined R s (inScope id m) fun _ _ => True := by
  obtain ⟨scope, hscope, -⟩ := h.names
  refine confined_withFocus (L := R) (fun hs => ?_) (fun _ h => h) (fun _ _ h => h) (hm _)
    fun _ _ _ _ => trivial
  refine ⟨hs.arena, Arena.index_lt_size hscope, hs.fresh, fun hinside => ?_, hs.session⟩
  have howner : ({ s with focus := { s.focus with scope := id } } : State).owner = s.owner := h.owner
  rw [howner]
  exact hs.owner hinside

theorem confined_openArms {test : Expr} (h : R.Covers (.expr test)) :
    Confined R s (openArms test) fun arms s' => s'.Arm R arms.1 ∧ s'.Arm R arms.2 := by
  refine confined_bind confined_openBranch fun holds s₁ _ _ hholds => ?_
  refine confined_bind confined_openBranch fun fails s₂ hs₁ hl₂ hfails => ?_
  refine confined_bind (confines_narrow h holds fails s₂) fun _ s₃ hs₂ hl₃ _ => confined_pure ?_
  exact ⟨hl₃.arm hs₂ (hl₂.arm hs₁ hholds), hl₃.arm hs₂ hfails⟩

theorem confines_settle {types : List (String × TypeId)} (h : ∀ entry ∈ types, R.names entry.1) :
    Confines R (settle types) := by
  induction types with
  | nil => exact confines_pure _
  | cons entry rest ih =>
    have hrest := ih fun entry hmem => h entry (List.mem_cons_of_mem _ hmem)
    refine confines_get_bind fun s => ?_
    simp only
    split
    · exact confines_bind (confines_restrict (h entry List.mem_cons_self)) fun _ => hrest
    · exact hrest

theorem confined_mergeArms {holds : ScopeId} (h : s.Arm R holds) (fails : ScopeId) :
    Confined R s (mergeArms holds fails) fun _ _ => True := by
  refine confined_get_bind (confines_settle (fun entry hmem => ?_) s)
  obtain ⟨scope, hscope, hnames⟩ := h.names
  have hentry := (List.mem_filter.mp hmem).1
  rw [Arena.restrictions, hscope] at hentry
  refine hnames _ ?_
  obtain ⟨type, hget⟩ := Dict.mem_keys_iff.mp (List.mem_map_of_mem hentry)
  exact Option.isSome_of_eq_some hget

/-! ## Statements with branches -/

theorem confines_verifyIf (hv : v.Confines G) (hinside : R.inside) {test : Expr} {consequent : Stmt}
    {alternate : Option Stmt} (htest : R.Covers (.expr test)) (hc : R.Covers (.stmt consequent))
    (ha : ∀ stmt, alternate = some stmt → R.Covers (.stmt stmt)) :
    Confines R (verifyIf v test consequent alternate) := by
  refine confines_bind (hv.value htest) fun _ s => ?_
  refine confined_bind (confined_openArms htest) fun arms s₁ _ _ ⟨hholds, hfails⟩ => ?_
  refine confined_bind (confined_inArm hholds (hv.stmt R _ hinside hc)) fun _ s₂ hs₁ hl₂ _ => ?_
  cases alternate with
  | none => exact confined_mergeArms (hl₂.arm hs₁ hholds) _
  | some alternate =>
    refine confined_bind (confined_inArm (hl₂.arm hs₁ hfails) (hv.stmt R _ hinside (ha alternate rfl)))
      fun _ s₃ hs₂ hl₃ _ => ?_
    exact confined_mergeArms (hl₃.arm hs₂ (hl₂.arm hs₁ hholds)) _

theorem confines_verifyWhile (hv : v.Confines G) (hinside : R.inside) {test : Expr} {body : Stmt}
    (htest : R.Covers (.expr test)) (hb : R.Covers (.stmt body)) :
    Confines R (verifyWhile v test body) := by
  refine confines_bind (hv.value htest) fun _ s => ?_
  refine confined_bind (confined_openArms htest) fun arms s₁ _ _ ⟨hholds, _⟩ => ?_
  exact confined_inArm hholds (hv.stmt R _ hinside hb)

/-- What is verified each time round a loop. -/
theorem confines_loopBody (hv : v.Confines G) {body : Stmt} {update : Option Expr}
    (hbody : Confines R (v.stmt body)) (hupdate : ∀ e, update = some e → R.Covers (.expr e)) :
    Confines R (do
      v.stmt body
      match update with
      | some update =>
        let _ ← v.value update
      | none => pure ()) := by
  refine confines_bind hbody fun _ => ?_
  cases update with
  | some update => exact confines_then_unit (hv.value (hupdate update rfl))
  | none => exact confines_pure _

theorem confines_verifyFor (hv : v.Confines G) (hinside : R.inside) {init : Option ForInit}
    {test update : Option Expr} {body : Stmt} {span : Span}
    (h : R.Covers (.stmt (.forLoop init test update body span))) :
    Confines R (verifyFor v init test update body) := by
  have hpart {e : Expr} (he : Node.expr e ∈ Node.initParts init ++ test.toList.map Node.expr ++
      update.toList.map Node.expr) : R.Covers (.expr e) :=
    h.visited (List.mem_cons_of_mem _ he)
  have hinit : Confines R (verifyForInit v init) := by
    match init with
    | none => exact confines_pure _
    | some (.declaration declaration) =>
      exact confines_verifyDeclarators hv hinside h (List.Subset.refl _)
    | some (.expression e) =>
      exact confines_then_unit (hv.value (hpart (by simp [Node.initParts])))
  have hupdate (e : Expr) (he : update = some e) : R.Covers (.expr e) := hpart (by simp [he])
  have hbody := confines_loopBody hv (hv.stmt R body hinside (h.visited List.mem_cons_self)) hupdate
  refine confines_bind hinit fun _ s => ?_
  refine confined_bind confined_openBranch fun holds s₁ _ _ hholds => ?_
  refine confined_bind confined_openBranch fun fails s₂ hs₁ hl₂ _ => ?_
  have hholds₂ := hl₂.arm hs₁ hholds
  cases test with
  | none => exact confined_inArm hholds₂ hbody
  | some test =>
    have htest : R.Covers (.expr test) := hpart (by simp)
    refine confined_bind (hv.value htest s₂) fun _ s₃ hs₂ hl₃ _ => ?_
    refine confined_bind (confines_narrow htest holds fails s₃) fun _ s₄ hs₃ hl₄ _ => ?_
    exact confined_inArm (hl₄.arm hs₃ (hl₃.arm hs₂ hholds₂)) hbody

/-! ## Expressions with branches -/

/-- What follows an expression runs where the expression has a type. -/
theorem confined_bind_some {m : Check (Option TypeId)} {next : TypeId → Check (Option TypeId)}
    {P : Option TypeId → State → Prop} (h : Confined R s m P)
    (hnext : ∀ type, Confines R (next type)) :
    Confined R s (do
      match ← m with
      | none => return none
      | some type => next type) fun _ _ => True := by
  refine confined_bind h fun type s' _ _ _ => ?_
  cases type with
  | none => exact confined_pure trivial
  | some type => exact hnext type s'

theorem confines_verifyLogical (hv : v.Confines G) (operator : String) {left right : Expr}
    (hleft : R.Covers (.expr left)) (hright : R.Covers (.expr right)) :
    Confines R (verifyLogical v operator left right) := by
  refine confines_bind (hv.value hleft) fun leftType s => ?_
  cases leftType with
  | none => exact confined_pure trivial
  | some leftType =>
    refine confined_bind confined_openBranch fun taken s₁ _ _ htaken => ?_
    refine confined_bind confined_openBranch fun skipped s₂ hs₁ hl₂ _ => ?_
    have htaken₂ := hl₂.arm hs₁ htaken
    have hrest {s₃ : State} (harm : s₃.Arm R taken) :
        Confined R s₃ (inScope taken (v.expr right)) fun _ _ => True :=
      confined_inArm harm (hv.expr R right hright)
    simp only
    split
    · refine confined_bind (confines_narrow hleft _ _ s₂) fun _ s₃ hs₂ hl₃ _ => ?_
      refine confined_bind_some (hrest (hl₃.arm hs₂ htaken₂)) fun _ => ?_
      exact confines_bind (notes_onTable? _).confines fun _ => (notes_made _).confines
    · refine confined_bind (confines_narrow hleft _ _ s₂) fun _ s₃ hs₂ hl₃ _ => ?_
      exact confined_bind_some (hrest (hl₃.arm hs₂ htaken₂)) fun _ => confines_pure _

theorem confines_verifyConditional (hv : v.Confines G) {test consequent alternate : Expr}
    (htest : R.Covers (.expr test)) (hc : R.Covers (.expr consequent))
    (ha : R.Covers (.expr alternate)) :
    Confines R (verifyConditional v test consequent alternate) := by
  refine confines_bind (hv.value htest) fun _ s => ?_
  refine confined_bind (confined_openArms htest) fun arms s₁ _ _ ⟨hholds, hfails⟩ => ?_
  refine confined_bind (confined_inArm hholds (hv.expr R _ hc)) fun _ s₂ hs₁ hl₂ _ => ?_
  refine confined_bind (confined_inArm (hl₂.arm hs₁ hfails) (hv.expr R _ ha)) fun _ s₃ _ _ _ => ?_
  split
  · exact (notes_made _).confines s₃
  · exact confined_pure trivial

/-! ## Nodes -/

theorem confines_verifyExpr (hv : v.Confines G) {e : Expr} (h : R.Covers (.expr e)) :
    Confines R (verifyExpr v e) := by
  cases e with
  | identifier id => exact (notes_verifyIdentifier id).confines
  | literal literal => exact confines_pure _
  | this span => exact (notes_verifyThis span).confines
  | array elements _ =>
    exact confines_verifyArray hv fun e he => h.visited (List.mem_map_of_mem he)
  | object properties _ =>
    exact confines_verifyObject hv fun property hmem => h.visited (List.mem_map.mpr ⟨property, hmem, rfl⟩)
  | function f => exact confines_verifyFunctionExpr hv h
  | assignment operator left right span =>
    exact confines_verifyAssignment hv operator span (h.visited List.mem_cons_self)
      (h.visited (List.mem_cons_of_mem _ List.mem_cons_self))
  | member object property computed span => exact Access.confines_verify hv h
  | call callee arguments span => exact Call.confines_verify hv h
  | new callee arguments span =>
    exact Call.confines_verifyNew hv ⟨h.visited List.mem_cons_self, fun e he =>
      h.visited (List.mem_cons_of_mem _ (List.mem_map_of_mem he))⟩
  | binary operator left right span =>
    exact confines_verifyBinary hv operator span (h.visited List.mem_cons_self)
      (h.visited (List.mem_cons_of_mem _ List.mem_cons_self))
  | logical operator left right _ =>
    exact confines_verifyLogical hv operator (h.visited List.mem_cons_self)
      (h.visited (List.mem_cons_of_mem _ List.mem_cons_self))
  | unary operator argument _ span =>
    exact confines_verifyUnary hv operator span (h.visited List.mem_cons_self)
  | update operator argument _ span =>
    exact confines_verifyUnary hv operator span (h.visited List.mem_cons_self)
  | conditional test consequent alternate _ =>
    exact confines_verifyConditional hv (h.visited List.mem_cons_self)
      (h.visited (List.mem_cons_of_mem _ List.mem_cons_self))
      (h.visited (List.mem_cons_of_mem _ (List.mem_cons_of_mem _ List.mem_cons_self)))

theorem confines_verifyStmt (hv : v.Confines G) (hinside : R.inside) {stmt : Stmt}
    (h : R.Covers (.stmt stmt)) : Confines R (verifyStmt v stmt) := by
  cases stmt with
  | declaration declaration => exact confines_verifyDeclarators hv hinside h (List.Subset.refl _)
  | function f => exact confines_verifyDeclared hv h
  | expression e _ => exact confines_then_unit (hv.expr R e (h.visited List.mem_cons_self))
  | throws e _ => exact confines_then_unit (hv.expr R e (h.visited List.mem_cons_self))
  | block body _ => exact hv.block hinside fun stmt hmem => h.visited (List.mem_map_of_mem hmem)
  | branch test consequent alternate _ =>
    refine confines_verifyIf hv hinside (h.visited List.mem_cons_self)
      (h.visited (List.mem_cons_of_mem _ List.mem_cons_self)) ?_
    rintro stmt rfl
    exact h.visited (List.mem_cons_of_mem _ (List.mem_cons_of_mem _ List.mem_cons_self))
  | whileLoop test body _ =>
    exact confines_verifyWhile hv hinside (h.visited List.mem_cons_self)
      (h.visited (List.mem_cons_of_mem _ List.mem_cons_self))
  | forLoop init test update body _ => exact confines_verifyFor hv hinside h
  | returns argument span =>
    refine confines_verifyReturn hv span ?_
    rintro e rfl
    exact h.visited List.mem_cons_self
  | empty _ => exact confines_pure _

/-- A name is verified in the same way however long the chain of visits may be. -/
theorem identifier_visitor (require : (file request : String) → SessionM Required) (fuel : Nat)
    (id : Identifier) (s : State) (type : Option TypeId) (s' : State)
    (hrun : ((visitor require fuel).expr (.identifier id)).run s = (.ok type, s')) :
    (verifyIdentifier id).run s = (.ok type, s') := by
  cases fuel with
  | zero =>
    have hresult : (.error .outOfFuel : Except Error (Option TypeId)) = .ok type :=
      congrArg Prod.fst hrun
    cases hresult
  | succ fuel => exact hrun

/-- Chains of visits, however long, keep within the regions of their nodes. -/
theorem confines_visitor {require : (file request : String) → SessionM Required}
    (hr : ∀ file request s, G.session s →
      Safe (Leads G.session) G.accepts s (require file request) fun _ _ => True) (fuel : Nat) :
    (visitor require fuel).Confines G := by
  induction fuel with
  | zero =>
    exact ⟨fun _ _ _ => confines_throw rfl, fun _ _ _ _ => confines_throw rfl,
      identifier_visitor require 0, hr⟩
  | succ fuel ih =>
    exact ⟨fun _ _ h => confines_verifyExpr ih h, fun _ _ hinside h => confines_verifyStmt ih hinside h,
      identifier_visitor require (fuel + 1), hr⟩

/-! ## Sources -/

/-- The region of a whole source. -/
def Region.whole (G : Ground) : Region G where
  names := fun _ => True
  closed := fun _ _ _ _ _ => trivial
  isOpen := fun _ => True
  inside := True

theorem Region.covers_whole {stmt : Stmt} (h : stmt ∈ G.program.body) :
    (Region.whole G).Covers (.stmt stmt) :=
  ⟨List.mem_flatMap.mpr ⟨stmt, h, Node.self_mem_nodes _⟩, fun _ _ => trivial⟩

theorem State.fits_start {session : Session} {source : Source} (hsession : G.session session) :
    (State.start session source).Fits (Region.whole G) :=
  ⟨.pushFile, Nat.zero_lt_one, fun _ _ => trivial, fun _ => trivial, hsession⟩

/-- Names that the scope of the file takes are bound there. -/
theorem confined_bindInFile {bindings : List (String × TypeId)}
    (htakes : G.Takes s.arena s.fileScope (bindings.map Prod.fst)) :
    Confined (Region.whole G) s (bindInFile bindings) fun _ s' =>
      ∀ name, s'.arena.hasOwnVar s.fileScope name →
        name ∈ bindings.map Prod.fst ∨ s.arena.hasOwnVar s.fileScope name := by
  induction bindings generalizing s with
  | nil => exact confined_pure fun _ h => .inr h
  | cons binding rest ih =>
    refine confined_get_bind ?_
    refine confined_bind (confined_bindNext trivial trivial htakes) fun _ s₁ _ hl ⟨htakes₁, hold⟩ => ?_
    rw [← hl.fileScope] at htakes₁ hold ⊢
    refine (ih htakes₁).mono fun _ s₂ _ hnew name hname => ?_
    rcases hnew name hname with hmem | hown
    · exact .inl (List.mem_cons_of_mem _ hmem)
    · rcases hold name hown with rfl | hown
      · exact .inl List.mem_cons_self
      · exact .inr hown

/-- The names that every module finds in its scope. -/
def moduleNames : List String :=
  ["module", "__dirname", "__filename"]

theorem confined_bindModuleNames {session : Session} {source : Source} :
    Confined (Region.whole G) (State.start session source) bindModuleNames fun _ s' =>
      ∀ name, s'.arena.hasOwnVar s'.fileScope name → name ∈ moduleNames := by
  refine confined_bind (notes_onTable _).confined fun module s₁ _ hl harena => ?_
  have htakes : G.Takes s₁.arena s₁.fileScope moduleNames := by
    rw [harena, hl.fileScope]
    exact ⟨⟨_, rfl, rfl⟩, .inr ⟨by decide, fun _ _ => rfl⟩⟩
  refine (confined_bindInFile htakes).mono fun _ s₂ hl₂ hnew name hname => ?_
  rw [hl₂.fileScope] at hname
  rcases hnew name hname with hmem | hown
  · exact hmem
  · rw [harena, hl.fileScope] at hown
    cases hown

section Source

variable {host : Host} {options : Options} {session : Session} {source : Source}
  (hprogram : source.program = G.program)
  (hheader : ∀ path s, G.session s →
    Safe (Leads G.session) G.accepts s (resolveHeader host options path) fun header _ =>
      ∀ found, header = some found →
        (∀ name, G.accepts (.scope (.duplicateIdentifier name))) ∨
          (moduleNames ++ found.assignments.map Prod.fst).Nodup)
include hprogram hheader

/-- What is in sight before the first statement of a source. -/
theorem confined_bindSource :
    Confined (Region.whole G) (State.start session source) (bindSource host options)
      fun _ _ => True := by
  have hstmts : ∀ stmt ∈ source.program.body, (Region.whole G).Covers (.stmt stmt) :=
    fun stmt hmem => Region.covers_whole (hprogram ▸ hmem)
  refine confined_bind confined_bindModuleNames fun _ s₁ _ hl₁ hknown => confined_get_bind ?_
  rw [hl₁.source]
  refine confined_bind (confined_registerFunctions trivial hstmts) fun _ s₂ _ hl₂ hsame => ?_
  have hfile : s₂.Owns s₂.fileScope := by
    rw [hl₂.fileScope, hl₁.fileScope]
    exact hl₂.owns (hl₁.owns ⟨_, rfl, rfl⟩)
  refine confined_get_bind (confined_bind (confined_onSession (hheader _ _))
    fun header s₃ _ hl₃ ⟨harena₃, hdistinct⟩ => ?_)
  cases header with
  | none => exact confined_pure trivial
  | some header =>
    refine confined_bind (notes_record _).confined fun _ s₄ _ hl₄ harena₄ => ?_
    refine (confined_bindInFile ⟨?_, ?_⟩).ignore
    · rw [hl₄.fileScope, hl₃.fileScope]
      exact hl₄.owns (hl₃.owns hfile)
    refine (hdistinct header rfl).imp_right fun hnodup => ?_
    obtain ⟨_, hnames, hapart⟩ := List.nodup_append.mp hnodup
    refine ⟨hnames, fun name hname => ?_⟩
    rw [harena₄, harena₃, hl₄.fileScope, hl₃.fileScope, hl₂.fileScope, hsame]
    cases hown : s₁.arena.hasOwnVar s₁.fileScope name with
    | false => rfl
    | true => exact absurd rfl (hapart name (hknown name hown) name hname)

/-- A source with the header beside it. -/
theorem confined_verifySource {require : (file request : String) → SessionM Required}
    (hr : ∀ file request s, G.session s →
      Safe (Leads G.session) G.accepts s (require file request) fun _ _ => True) :
    Confined (Region.whole G) (State.start session source) (verifySource host options require)
      fun _ _ => True := by
  refine confined_get_bind (confined_bind (confined_bindSource hprogram hheader) fun _ s₁ _ _ _ => ?_)
  exact (confines_visitor hr _).statements trivial
    (fun stmt hmem => Region.covers_whole (hprogram ▸ hmem)) s₁

end Source

end HeaderCheck.Verify
