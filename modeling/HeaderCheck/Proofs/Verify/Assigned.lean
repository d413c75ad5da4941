import HeaderCheck.Proofs.Types.Levels
import HeaderCheck.Proofs.Verify.Region.Statements

/-!
# HeaderCheck.Proofs.Verify.Assigned

What a read sees after an assignment to a variable.

* `Arena.narrows`: whether a read of a name sees a narrowed type, one that hides the declared type.
* `State.Renews`: an assignment narrows the name to the type of the value. It does so in branches.
* `State.Spares`: when the value has been verified no narrowed type hides the declared one.
* `reads_assigned`: in both cases what is read next accepts what has been assigned. One lemma for
  each kind of assignment.
-/

namespace HeaderCheck.Scope.Arena

open HeaderCheck.Types (TypeId)

variable {a b : Arena} {id : ScopeId} {name : String}

/-! ## Narrowed names -/

/-- What a scope knows of a name ends a search for it. -/
def tells (name : String) (scope : Scope) : Bool :=
  scope.restrictions.contains name || scope.identifiers.contains name

/-- Whether a read of the name sees a narrowed type. -/
def narrows (a : Arena) (id : ScopeId) (name : String) : Bool :=
  match (a.chain id).find? fun x => tells name x.2 with
  | some (_, scope) => scope.restrictions.contains name
  | none => false

/-- A name that is not narrowed is read at its declared type. -/
theorem getVar_of_narrows_eq_false (h : a.narrows id name = false) (globals : Globals) :
    a.getVar globals id name .normal = a.getVar globals id name .writable := by
  have hfirst : (a.chain id).findSome? (fun x => ownType? x.2 name .normal) =
      (a.chain id).findSome? fun x => ownType? x.2 name .writable := by
    unfold narrows at h
    generalize a.chain id = chain at h
    induction chain with
    | nil => rfl
    | cons x rest ih =>
      rw [List.find?_cons] at h
      rw [List.findSome?_cons, List.findSome?_cons]
      cases htells : tells name x.2 with
      | true =>
        rw [htells] at h
        have hnone : x.2.restrictions.get? name = none := by simpa [Dict.contains] using h
        simp only [tells, Dict.contains, hnone, Option.isSome_none, Bool.false_or,
          Option.isSome_iff_exists] at htells
        obtain ⟨type, htype⟩ := htells
        simp [ownType?, hnone, htype]
      | false =>
        rw [htells] at h
        simp only [tells, Dict.contains, Bool.or_eq_false_iff, Option.isSome_eq_false_iff,
          Option.isNone_iff_eq_none] at htells
        simpa [ownType?, htells] using ih h
  rw [getVar, getVar, hfirst]

/-- A name outside the limits of a change is narrowed after it if it was before. -/
theorem Touches.narrows_eq {names : String → Prop} {isOpen : ScopeId → Prop}
    (h : Touches names isOpen a b) (ho : a.Ordered) (hid : id.index < a.size) (hname : ¬names name) :
    b.narrows id name = a.narrows id name := by
  have hrel : Option.Rel (fun x y => x.1 = y.1 ∧ b.scope? x.1 = some y.2 ∧
      Touched names (isOpen x.1) x.2 y.2) ((a.chain id).find? fun x => tells name x.2)
      ((b.chain id).find? fun x => tells name x.2) := by
    refine find?_rel (h.chain_rel ho hid) fun x y hxy => ?_
    have hsame := hxy.2.2.spared name hname
    simp only [tells, Dict.contains, hsame.identifiers, hsame.restrictions]
  unfold narrows
  generalize (a.chain id).find? (fun x => tells name x.2) = x at hrel
  generalize (b.chain id).find? (fun x => tells name x.2) = y at hrel
  cases hrel with
  | none => rfl
  | some hxy => simp only [Dict.contains, (hxy.2.2.spared name hname).restrictions]

/-- A scope before and after a name is bound to a type in `holder`. -/
structure Binds (holder : ScopeId) (name : String) (type : TypeId) (id : ScopeId)
    (scope scope' : Scope) : Prop where
  restrictions : scope'.restrictions = scope.restrictions
  identifiers : scope'.identifiers.get? name =
    if id = holder then some type else scope.identifiers.get? name

theorem binds_bindVar (a : Arena) (holder : ScopeId) (name : String) (type : TypeId) {id : ScopeId}
    {scope : Scope} (hs : a.scope? id = some scope) :
    ∃ scope', (a.bindVar holder name type).scope? id = some scope' ∧
      scope'.parent = scope.parent ∧ Binds holder name type id scope scope' := by
  rw [bindVar, scope?_modify]
  by_cases hholder : holder = id
  · rw [if_pos hholder, hs]
    exact ⟨_, rfl, rfl, rfl, by simp [hholder]⟩
  · rw [if_neg hholder]
    exact ⟨scope, hs, rfl, rfl, by rw [if_neg (Ne.symm hholder)]⟩

/-- A name that is not narrowed is read at the type that it is bound to last. -/
theorem getVar_bindVar {holder : ScopeId} {scope : Scope} (ho : a.Ordered) (hid : id.index < a.size)
    (hfind : (a.chain id).find? (fun x => x.2.identifiers.contains name) = some (holder, scope))
    (h : a.narrows id name = false) (globals : Globals) (type : TypeId) :
    (a.bindVar holder name type).getVar globals id name .normal = some type := by
  have hrel := ho.chain_rel (fun _ _ hs => binds_bindVar a holder name type hs) hid
  have hfirst : ((a.bindVar holder name type).chain id).findSome?
      (fun x => ownType? x.2 name .normal) = some type := by
    unfold narrows at h
    generalize a.chain id = chain at h hfind hrel
    generalize (a.bindVar holder name type).chain id = chain' at hrel
    -- the first scope that tells of the name is the one that it is bound in
    induction hrel with
    | nil => cases hfind
    | @cons x y _ _ hxy _ ih =>
      obtain ⟨-, hrestrictions, hidentifiers⟩ := hxy
      rw [List.find?_cons] at h hfind
      rw [List.findSome?_cons]
      cases htells : tells name x.2 with
      | true =>
        rw [htells] at h
        have hfree : x.2.restrictions.contains name = false := h
        have hbound : x.2.identifiers.contains name := by simpa [tells, hfree] using htells
        rw [hbound] at hfind
        cases hfind
        have hnone : scope.restrictions.get? name = none := by simpa [Dict.contains] using hfree
        simp [ownType?, hrestrictions, hidentifiers, hnone]
      | false =>
        rw [htells] at h
        obtain ⟨hfree, hunbound⟩ := Bool.or_eq_false_iff.mp htells
        rw [hunbound] at hfind
        have hnone : x.2.restrictions.get? name = none := by simpa [Dict.contains] using hfree
        have hnot : x.2.identifiers.get? name = none := by simpa [Dict.contains] using hunbound
        by_cases hholder : x.1 = holder
        · simp [ownType?, hrestrictions, hidentifiers, hnone, hholder]
        · simpa [ownType?, hrestrictions, hidentifiers, hnone, hnot, hholder] using ih h hfind
  rw [getVar, hfirst]

/-- A branch in which a name is narrowed reads it at that type. -/
theorem getVar_narrowScope {scope : Scope} (ho : a.Ordered) (hs : a.scope? id = some scope)
    (hname : name ≠ thisName) (globals : Globals) (type : TypeId) :
    (a.modify id (narrowScope name type)).getVar globals id name .normal = some type := by
  have hnarrow : narrowScope name type = fun scope =>
      { scope with restrictions := scope.restrictions.insert name type } := by
    funext scope
    rw [narrowScope, if_neg hname]
  have hs' : (a.modify id (narrowScope name type)).scope? id =
      some { scope with restrictions := scope.restrictions.insert name type } := by
    rw [scope?_modify, if_pos rfl, hs, hnarrow]
    rfl
  have ho' : (a.modify id (narrowScope name type)).Ordered :=
    ho.modify id fun scope => by rw [hnarrow]
  rw [getVar, ho'.chain_eq hs', List.findSome?_cons]
  simp [ownType?]

/-- In a branch `this` is narrowed apart from the names. -/
theorem touches_narrowThis {scope : Scope} (hs : a.scope? id = some scope) (hb : scope.kind.isBranch)
    (type : TypeId) :
    a.Touches (fun _ => False) (fun _ => False) (a.modify id (narrowScope thisName type)) := by
  refine .modify fun found hfound => ?_
  rw [narrowScope, if_pos rfl]
  refine touched_kind ?_
  rw [hs] at hfound
  cases hfound
  cases hkind : scope.kind with
  | branch this => trivial
  | _ =>
    rw [hkind] at hb
    cases hb

end HeaderCheck.Scope.Arena

namespace HeaderCheck.Verify

open HeaderCheck.Project (Error Session SessionM)
open HeaderCheck.Scope (Arena ScopeId)
open HeaderCheck.Script
open HeaderCheck.Types (Table TypeId)

variable {G : Ground} {R : Region G} {v : Visitor} {s s' s₁ : State} {id : Identifier} {right : Expr}
  {name : String} {type value : TypeId}

/-! ## Assignments to variables -/

/-- Whether a read of the name at the node at hand sees a narrowed type. -/
def State.narrows (s : State) (name : String) : Bool :=
  s.arena.narrows s.focus.scope name

/-- An assignment to the name of a declared type narrows it to the type of the value. -/
structure State.Renews (s : State) (name : String) (type : TypeId) : Prop where
  inBranch : s.inBranch
  settled : type.growsFreely = false
  notExports : type ≠ .moduleExports
  notThis : name ≠ Arena.thisName

/-- What is read at the node at hand accepts the value. -/
def State.Reads (s : State) (name : String) (value : TypeId) : Prop :=
  ∃ type, s.typeIn s.focus.scope name .normal = some type ∧ s.table.isSubtype type value

/-- A name that is not narrowed is read at its declared type. -/
theorem State.typeIn_of_narrows_eq_false (h : s.narrows name = false) :
    s.typeIn s.focus.scope name .normal = s.declaredType name :=
  Arena.getVar_of_narrows_eq_false h _

theorem isSubtype_self (table : Table) (type : TypeId) : table.isSubtype type type := by
  rw [Table.isSubtype, Table.check_eq_checkLevels, Table.maxLevels, Table.checkLevels,
    Table.checkPair, if_pos rfl]
  rfl

/-- The exports of a module may have any type. -/
theorem isSubtype_moduleExports {table : Table} (hexports : (table.lookup .moduleExports).isSome)
    (hvalue : (table.lookup value).isSome) : table.isSubtype .moduleExports value := by
  obtain ⟨parent, hparent⟩ := Option.isSome_iff_exists.mp hexports
  obtain ⟨child, hchild⟩ := Option.isSome_iff_exists.mp hvalue
  rw [Table.isSubtype, Table.check_eq_checkLevels, Table.maxLevels, Table.checkLevels,
    Table.checkPair]
  split
  · rfl
  · rw [hparent, hchild]
    simp only [Table.checkData]
    split
    · rfl
    · rfl

/-! ### The parts of an assignment -/

/-- The target of an assignment to a variable has the declared type of the variable. -/
theorem run_target {found : Option TypeId}
    (hv : ∀ s found s', (v.expr (.identifier id)).run s = (.ok found, s') →
      (verifyIdentifier id).run s = (.ok found, s'))
    (hdeclared : s.declaredType id.name = some type)
    (hrun : (asTarget (v.expr (.identifier id))).run s = (.ok found, s₁)) :
    found = some type ∧ s₁ = s := by
  rw [asTarget, run_withFocus] at hrun
  generalize hs₀ : ({ s with focus := { s.focus with mode := .writable, isTarget := true } } : State) =
    s₀ at hrun
  have hverify : (verifyIdentifier id).run s₀ = (.ok (some type), s₀) := by
    have hlookup : s₀.lookup id.name = some type := by
      rw [← hs₀]
      exact hdeclared
    rw [verifyIdentifier, run_get_bind, hlookup]
    rfl
  rcases hvisit : (v.expr (.identifier id)).run s₀ with ⟨e | t, s₂⟩ <;> rw [hvisit] at hrun
  · cases hrun
  · rw [hv s₀ t s₂ hvisit] at hverify
    cases hverify
    cases hrun
    rw [← hs₀]
    exact ⟨rfl, rfl⟩

/-- A value that is verified for an assignment leaves alone what it does not reach. -/
theorem leaves_into (hv : v.Confines G) (hs : s.Fits (Region.whole G))
    (hright : Node.expr right ∈ nodesOf G.program.body) {expected result : Option TypeId}
    (hrun : (v.into right expected).run s = (.ok result, s₁)) :
    s.Leaves (.reach G [.expr right] s.arena.size) s₁ := by
  have hfits : s.Fits (.reach G [.expr right] s.arena.size) :=
    ⟨hs.arena, hs.focus, fun _ h => h, False.elim, hs.session⟩
  have hcovers := Region.covers_reach (List.mem_singleton_self _) hright s.arena.size
  have hkeeps := (hv.into hcovers expected s hfits).keeps
  rwa [hrun] at hkeeps

/-- An assigned function is no method when the target is a variable. -/
theorem run_targetType : (targetType (.identifier id) type right).run s = (.ok type, s) := by
  have howner : Access.ofExpr? (.identifier id) = none := rfl
  rw [targetType, run_get_bind, howner]
  split
  · simp only [Option.bind_none]
    split
    · next h => cases h
    · rfl
  · rfl

/-- The name that is given a type is bound in the nearest scope that binds it. -/
theorem run_forceUpdateVar {scope : ScopeId} {holder : ScopeId}
    (hrun : (onArena fun a => a.forceUpdateVar scope name value).run s = (.ok holder, s₁)) :
    ∃ found, (s.arena.chain scope).find? (fun x => x.2.identifiers.contains name) =
        some (holder, found) ∧
      s₁ = { s with arena := s.arena.bindVar holder name value } := by
  rw [run_onArena, Arena.forceUpdateVar] at hrun
  split at hrun
  · next found hfind =>
    cases hrun
    exact ⟨found, hfind, rfl⟩
  · cases hrun

/-- In a branch the variable takes the type of the value. -/
theorem run_recordAssigned (hrun : (recordAssigned (.identifier id) value).run s = (.ok (), s₁)) :
    s₁.session = s.session ∧ s₁.focus = s.focus ∧ s₁.diagnostics = s.diagnostics ∧
      s₁.arena = if s.inBranch then (s.arena.restrict s.focus.scope id.name value).2 else s.arena := by
  rw [recordAssigned, run_get_bind] at hrun
  simp only at hrun
  split at hrun
  · next hbranch =>
    rw [run_onArena] at hrun
    rw [if_pos hbranch, ← (Prod.mk.inj hrun).2]
    exact ⟨rfl, rfl, rfl, rfl⟩
  · next hbranch =>
    cases hrun
    rw [if_neg hbranch]
    exact ⟨rfl, rfl, rfl, rfl⟩

/-- The value fits where nothing is recorded. -/
theorem fits_of_quiet {span : Span} {expected : TypeId} {fits : Bool}
    (hrun : (checkFits span expected value).run s = (.ok fits, s₁))
    (hquiet : s₁.diagnostics <+: s.diagnostics) :
    s₁ = s ∧ s.table.isSubtype expected value := by
  rw [checkFits, run_get_bind, State.mismatch?] at hrun
  split at hrun
  · next h =>
    cases hrun
    have hlength := hquiet.length_le
    rw [List.length_append, List.length_singleton] at hlength
    omega
  · next h =>
    cases hrun
    refine ⟨rfl, ?_⟩
    split at h
    · next hok =>
      rw [Table.isSubtype, hok]
      rfl
    · cases h

/-- A value that a variable must accept is verified, compared and recorded. -/
theorem run_assignChecked_ok
    (hrun : (assignChecked v (.identifier id) type right).run s = (.ok (some value), s')) :
    ∃ s₁ s₂ fits, (v.into right (some type)).run s = (.ok (some value), s₁) ∧
      (checkFits right.span type value).run s₁ = (.ok fits, s₂) ∧
      (recordAssigned (.identifier id) value).run s₂ = (.ok (), s') := by
  rw [assignChecked, run_bind_ok run_targetType] at hrun
  obtain ⟨result, s₁, hinto, hrest⟩ := ok_of_run_bind hrun
  cases result with
  | none => cases hrest
  | some found =>
    obtain ⟨fits, s₂, hcheck, hrest⟩ := ok_of_run_bind hrest
    obtain ⟨⟨⟩, s₃, hrecord, hpure⟩ := ok_of_run_bind hrest
    cases hpure
    exact ⟨s₁, s₂, fits, hinto, hcheck, hrecord⟩

/-- A value that a variable must accept, and that is assigned without a report. -/
theorem run_assignChecked
    (hkeeps : ∀ result s₁, (v.into right (some type)).run s = (.ok result, s₁) →
      s.diagnostics <+: s₁.diagnostics)
    (hrun : (assignChecked v (.identifier id) type right).run s = (.ok (some value), s'))
    (hquiet : s'.diagnostics = s.diagnostics) :
    ∃ s₁, (v.into right (some type)).run s = (.ok (some value), s₁) ∧
      s₁.table.isSubtype type value ∧
      (recordAssigned (.identifier id) value).run s₁ = (.ok (), s') := by
  obtain ⟨s₁, s₂, fits, hinto, hcheck, hrecord⟩ := run_assignChecked_ok hrun
  obtain ⟨rfl, hfits⟩ := fits_of_quiet hcheck (by
    rw [← (run_recordAssigned hrecord).2.2.1, hquiet]
    exact hkeeps _ _ hinto)
  exact ⟨_, hinto, hfits, hrecord⟩

/-! ### The kinds of assignments -/

theorem State.Leaves.narrows_eq (h : s.Leaves R s₁) {R' : Region G} (hs : s.Fits R')
    (hname : ¬R.names name) : s₁.narrows name = s.narrows name := by
  rw [State.narrows, State.narrows, h.focus]
  exact h.arena.narrows_eq hs.arena.sound.ordered hs.focus hname

theorem State.Leaves.declaredType_eq (h : s.Leaves R s₁) {R' : Region G} (hs : s.Fits R')
    (hname : ¬R.names name) : s₁.declaredType name = s.declaredType name := by
  rw [State.declaredType, State.declaredType, h.focus]
  exact h.typeIn_eq hs hs.focus hname _

theorem State.Leaves.inBranch (h : s.Leaves R s₁) (hb : s.inBranch) : s₁.inBranch := by
  obtain ⟨scope, hscope, hbranch⟩ := Option.any_eq_true _ _ |>.mp hb
  obtain ⟨scope', hscope', ht⟩ := h.arena _ scope hscope
  rw [State.inBranch, h.focus, hscope']
  exact ht.retained.kind.isBranch_eq.trans hbranch

/-- The right side of an assignment to the name of a declared type leaves the name without a narrowed
type, and with the declared one unless the assignment replaces it. -/
def State.Spares (s : State) (v : Visitor) (right : Expr) (name : String) (type : TypeId) : Prop :=
  ∀ expected result s₁, (v.into right expected).run s = (.ok result, s₁) →
    s₁.narrows name = false ∧ (type.growsFreely ∨ s₁.declaredType name = some type)

/-- A right side that does not reach the name spares it. -/
theorem spares_of_unreached (hv : v.Confines G) (hs : s.Fits (Region.whole G))
    (hright : Node.expr right ∈ nodesOf G.program.body) (hdeclared : s.declaredType name = some type)
    (hunnarrowed : s.narrows name = false) (hunreached : ¬G.program.Reaches (.expr right) name) :
    s.Spares v right name type := by
  intro expected result s₁ hrun
  have hl := leaves_into hv hs hright hrun
  have hname : ¬(Region.reach G [.expr right] s.arena.size).names name := by
    rintro ⟨n, hn, hreach⟩
    cases List.mem_singleton.mp hn
    exact hunreached hreach
  rw [hl.narrows_eq hs hname, hl.declaredType_eq hs hname]
  exact ⟨hunnarrowed, .inr hdeclared⟩

/-- After its right side a variable of a settled type is read at that type. -/
theorem State.Spares.typeIn_eq (h : s.Spares v right name type) (hsettled : type.growsFreely = false)
    {expected result : Option TypeId} (hrun : (v.into right expected).run s = (.ok result, s₁)) :
    s₁.typeIn s₁.focus.scope name .normal = some type := by
  obtain ⟨hunnarrowed, hgrows | hdeclared⟩ := h expected result s₁ hrun
  · rw [hsettled] at hgrows
    cases hgrows
  · rw [State.typeIn_of_narrows_eq_false hunnarrowed, hdeclared]

section Kinds

variable (hv : v.Confines G) (hs : s.Fits (Region.whole G))
  (hright : Node.expr right ∈ nodesOf G.program.body)

/-- The exports of the module, under another name. -/
theorem reads_of_exports (hsettled : type.growsFreely = false) (h : s.Spares v right id.name type)
    (hrun : (assignFreely v right fun value => modify fun s => { s with exports := some value }).run s =
      (.ok (some value), s')) :
    s'.typeIn s'.focus.scope id.name .normal = some type := by
  obtain ⟨result, s₁, hinto, hrest⟩ := ok_of_run_bind hrun
  cases result with
  | none => cases hrest
  | some found =>
    have hread := h.typeIn_eq hsettled hinto
    cases hrest
    exact hread

include hv hs hright

/-- A variable that waits for its first value. -/
theorem reads_of_growing (h : s.Spares v right id.name type)
    (hrun : (assignFreely v right fun value => do
      let scope := (← get).focus.scope
      let _ ← onArena fun a => a.forceUpdateVar scope id.name value).run s = (.ok (some value), s')) :
    s'.typeIn s'.focus.scope id.name .normal = some value := by
  obtain ⟨result, s₁, hinto, hrest⟩ := ok_of_run_bind hrun
  have hl := leaves_into hv hs hright hinto
  cases result with
  | none => cases hrest
  | some found =>
    obtain ⟨⟨⟩, s₂, haccept, hpure⟩ := ok_of_run_bind hrest
    cases hpure
    rw [run_get_bind] at haccept
    obtain ⟨holder, _, hupdate, hdone⟩ := ok_of_run_bind haccept
    cases hdone
    obtain ⟨scope, hfind, rfl⟩ := run_forceUpdateVar hupdate
    have hfits := hl.fits hs
    have hunnarrowed := (h _ _ _ hinto).1
    exact Arena.getVar_bindVar hfits.arena.sound.ordered hfits.focus hfind hunnarrowed _ _

/-- A variable that must accept the value. -/
theorem reads_of_checked (hsettled : type.growsFreely = false)
    (h : s.Renews id.name type ∨ s.Spares v right id.name type)
    (hrun : (assignChecked v (.identifier id) type right).run s = (.ok (some value), s'))
    (hquiet : s'.diagnostics = s.diagnostics) : s'.Reads id.name value := by
  obtain ⟨s₁, hinto, hfits, hrecord⟩ :=
    run_assignChecked (fun _ _ hinto => (leaves_into hv hs hright hinto).diagnostics) hrun hquiet
  obtain ⟨hsession, hfocus, -, harena⟩ := run_recordAssigned hrecord
  have hl := leaves_into hv hs hright hinto
  have htable : s'.table = s₁.table := congrArg Session.table hsession
  have ho := (hl.fits hs).arena.sound.ordered
  have hfocused := (hl.fits hs).focus
  by_cases hbranch : s₁.inBranch
  · obtain ⟨scope, hscope, hb⟩ := Option.any_eq_true _ _ |>.mp hbranch
    rw [if_pos hbranch, Arena.restrict_branch hscope hb] at harena
    rw [State.Reads, State.typeIn, harena, hfocus]
    by_cases hthis : id.name = Arena.thisName
    · -- `this` is narrowed apart, and the name is read as before
      have hspares := h.resolve_left fun hrenews => hrenews.notThis hthis
      refine ⟨type, ?_, htable ▸ hfits⟩
      rw [← hspares.typeIn_eq hsettled hinto, State.typeIn, hsession, hthis]
      exact (Arena.touches_narrowThis hscope hb value).getVar_eq ho hfocused not_false _ _
    · exact ⟨value, Arena.getVar_narrowScope ho hscope hthis _ _, isSubtype_self _ _⟩
  · have hspares := h.resolve_left fun hrenews => hbranch (hl.inBranch hrenews.inBranch)
    rw [if_neg hbranch] at harena
    refine ⟨type, ?_, htable ▸ hfits⟩
    rw [← hspares.typeIn_eq hsettled hinto, State.typeIn, State.typeIn, harena, hsession, hfocus]

end Kinds

/-- A program of which nothing is known. -/
def Ground.any (program : Program) : Ground where
  program := program
  session := fun _ => True
  accepts := fun _ => True
  table := fun _ _ _ => trivial
  nested := fun _ _ => trivial
  global := fun _ _ _ _ => trivial
  selfStarted := fun _ _ => trivial
  collided := fun _ _ => trivial
  other := fun _ _ => trivial

/-- Work on a session that leaves the global names alone is right on such ground. -/
theorem safe_any {α : Type} {program : Program} {m : SessionM α} {session : Session}
    {Q : α → Session → Prop} (h : (m.run session).2.globals = session.globals)
    (hQ : ∀ a session', Q a session') :
    Safe (Leads (Ground.any program).session) (Ground.any program).accepts session m Q :=
  ⟨⟨h, fun h => h⟩, fun a _ => hQ a _, fun _ _ => trivial⟩

theorem confines_any {program : Program} {require : (file request : String) → SessionM Required}
    (hrequire : ∀ file request session,
      ((require file request).run session).2.globals = session.globals) (fuel : Nat) :
    (visitor require fuel).Confines (Ground.any program) :=
  confines_visitor (fun file request session _ =>
    safe_any (hrequire file request session) fun _ _ => trivial) fuel

theorem growingName?_identifier (id : Identifier) (type : TypeId) :
    growingName? (.identifier id) type = if type.growsFreely then some id.name else none := by
  rw [growingName?]
  rfl

theorem growingAccess?_identifier (id : Identifier) (type : TypeId) :
    growingAccess? (.identifier id) type = none := by
  rw [growingAccess?]
  split <;> rfl

/-- After an assignment to a variable that reports nothing, the variable is read at a type that
accepts the value: in a branch because the assignment narrows it, elsewhere where no narrowed type
hides the declared one. -/
theorem reads_assigned {program : Program}
    {require : (file request : String) → SessionM Required}
    (hrequire : ∀ file request session,
      ((require file request).run session).2.globals = session.globals)
    (fuel : Nat) {s s' : State} (hs : s.Fits (Region.whole (Ground.any program)))
    {id : Identifier} {right : Expr} {span : Span} {type value : TypeId}
    (hright : Node.expr right ∈ nodesOf program.body)
    (hdeclared : s.declaredType id.name = some type)
    (hrun : (verifyAssignment (visitor require fuel) "=" (.identifier id) right span).run s =
      (.ok (some value), s'))
    (hquiet : s'.diagnostics = s.diagnostics)
    (hsight : s.Renews id.name type ∨ s.Spares (visitor require fuel) right id.name type)
    (hknown : type = .moduleExports →
      (s'.table.lookup .moduleExports).isSome ∧ (s'.table.lookup value).isSome) :
    s'.Reads id.name value := by
  have hv : (visitor require fuel).Confines (Ground.any program) := confines_any hrequire fuel
  rw [verifyAssignment, if_neg (by decide)] at hrun
  obtain ⟨found, s₁, htarget, hassign⟩ := ok_of_run_bind hrun
  obtain ⟨rfl, rfl⟩ := run_target (hv.identifier id) hdeclared htarget
  simp only [assignTo] at hassign
  split at hassign
  · next hexports =>
    have hspares := hsight.resolve_left fun hrenews => hrenews.notExports hexports
    obtain ⟨hparent, hchild⟩ := hknown hexports
    subst hexports
    exact ⟨.moduleExports, reads_of_exports rfl hspares hassign,
      isSubtype_moduleExports hparent hchild⟩
  rw [growingName?_identifier, growingAccess?_identifier] at hassign
  cases hgrows : type.growsFreely with
  | true =>
    have hspares := hsight.resolve_left fun hrenews => by
      rw [hrenews.settled] at hgrows
      cases hgrows
    rw [if_pos hgrows] at hassign
    exact ⟨value, reads_of_growing hv hs hright hspares hassign, isSubtype_self _ _⟩
  | false =>
    rw [hgrows] at hassign
    exact reads_of_checked hv hs hright hgrows hsight hassign hquiet

end HeaderCheck.Verify
