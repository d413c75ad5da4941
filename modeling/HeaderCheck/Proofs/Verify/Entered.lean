import HeaderCheck.Proofs.Verify.Sound
import Mathlib.Data.List.Flatten

/-!
# HeaderCheck.Proofs.Verify.Entered

The functions whose bodies have been entered, as a part of the tree.

* `Sound.entered_subperm`: no function of the program is entered more often than it stands there.
  The scopes made for functions form a tree, in which the functions of one body have different
  keys, so level by level they are among the functions of that body.
* `State.pending`: how many nodes there are in bodies that may still be entered.
* `Sound.nested`: a body that is seen from another one stands around it.
-/

namespace HeaderCheck.Scope.Arena

variable {a : Arena}

/-- Of two scopes around a scope one is around the other. -/
theorem Ordered.chain_total (h : a.Ordered) {id : ScopeId} {x y : ScopeId × Scope}
    (hx : x ∈ a.chain id) (hy : y ∈ a.chain id) : y ∈ a.chain x.1 ∨ x ∈ a.chain y.1 := by
  obtain ⟨index⟩ := id
  induction index using Nat.strongRecOn with
  | _ index ih =>
    cases hs : a.scope? ⟨index⟩ with
    | none =>
      rw [chain_of_none hs] at hx
      cases hx
    | some scope =>
      have hchain := h.chain_eq hs
      rw [hchain, List.mem_cons] at hx hy
      rcases hx with rfl | hx
      · left
        rw [hchain]
        exact List.mem_cons.mpr hy
      rcases hy with rfl | hy
      · right
        rw [hchain]
        exact List.mem_cons_of_mem _ hx
      cases hp : scope.parent with
      | none => simp [hp] at hx
      | some parent =>
        rw [hp] at hx hy
        exact ih parent.index (h _ scope parent hs hp) hx hy

/-- Files and functions around a scope are around its owner. -/
theorem Sound.mem_chain_owner (h : a.Sound) {id : ScopeId} {x : ScopeId × Scope}
    (hx : x ∈ a.chain id) (hb : x.2.kind.isBranch = false) : x ∈ a.chain (a.owner id) := by
  obtain ⟨index⟩ := id
  induction index using Nat.strongRecOn with
  | _ index ih =>
    cases hs : a.scope? ⟨index⟩ with
    | none =>
      rw [chain_of_none hs] at hx
      cases hx
    | some scope =>
      cases hbranch : scope.kind.isBranch with
      | false => rwa [h.owner_of_not_branch hs hbranch]
      | true =>
        obtain ⟨around, he⟩ := h.branch _ scope hs hbranch
        rw [h.owner_of_branch hs hbranch he.parent]
        rw [h.ordered.chain_eq hs, List.mem_cons, he.parent] at hx
        rcases hx with rfl | hx
        · rw [hbranch] at hb
          cases hb
        · exact ih around.index (h.ordered _ scope around hs he.parent) hx

end HeaderCheck.Scope.Arena

namespace HeaderCheck.Verify.State

open HeaderCheck.Scope (Arena ScopeId)
open HeaderCheck.Script

variable {tidy : Prop} {s : State}

/-- The file or function around the scope of a function. -/
def ownerAround (s : State) (id : ScopeId) : ScopeId :=
  s.arena.owner ((s.arena.parent? id).getD id)

/-- How the scope of an entered function is found from the scope around it. -/
structure Registered (s : State) (x : ScopeId × Function) (kind : FunctionKind) : Prop where
  older : (s.ownerAround x.1).index < x.1.index
  holds : s.Holds (s.ownerAround x.1) (kind, x.2)
  found : ∃ outer, s.arena.scope? (s.ownerAround x.1) = some outer ∧
    outer.functions.get? (keyOf kind x.2) = some x.1

theorem Sound.registered (h : s.Sound tidy) {x : ScopeId × Function} (hx : x ∈ s.entered) :
    ∃ kind, s.Registered x kind := by
  obtain ⟨kind, scope, info, around, outer, hs, _, hp, hkey, hholds, houter, hget⟩ :=
    h.entered x.1 x.2 hx
  have haround : s.ownerAround x.1 = s.arena.owner around := by
    simp [ownerAround, Arena.parent?, hs, hp]
  have hlt := h.arena.ordered x.1 scope around hs hp
  obtain ⟨_, _, _, hle⟩ := h.arena.owner_spec (Nat.lt_trans hlt (Arena.index_lt_size hs))
  refine ⟨kind, ?_, ?_, ?_⟩
  · rw [haround]
    omega
  · rw [haround]
    exact hholds
  · rw [haround, ← hkey]
    exact ⟨outer, houter, hget⟩

/-- A scope stands for one body. -/
theorem Sound.body_unique (h : s.Sound tidy) {id : ScopeId} {body body' : List Stmt}
    (hb : s.HasBody id body) (hb' : s.HasBody id body') : body = body' := by
  have hfile : ∀ {f : Function}, (s.fileScope, f) ∉ s.entered := by
    intro f hf
    obtain ⟨scope, prototypes, hs, hk, _⟩ := h.file
    obtain ⟨_, scope', info, _, _, hs', hk', _⟩ := h.entered _ f hf
    rw [hs] at hs'
    cases hs'
    rw [hk] at hk'
    cases hk'
  cases hb with
  | file =>
    cases hb' with
    | file => rfl
    | function hf => exact absurd hf hfile
  | function hf =>
    cases hb' with
    | file => exact absurd hf hfile
    | function hf' =>
      have heq := List.inj_on_of_nodup_map h.distinct hf hf' rfl
      cases heq
      rfl

/-! ## The tree of entered functions -/

/-- The entered functions whose scopes belong to a scope. -/
def enteredIn (s : State) (id : ScopeId) : List (ScopeId × Function) :=
  s.entered.filter fun x => s.ownerAround x.1 = id

/-- The entered functions below a scope, at most `levels` levels of them. -/
def enteredBelow (s : State) : (levels : Nat) → ScopeId → List (ScopeId × Function)
  | 0, _ => []
  | levels + 1, id => (s.enteredIn id).flatMap fun x => x :: s.enteredBelow levels x.1

theorem mem_enteredIn {id : ScopeId} {x : ScopeId × Function} :
    x ∈ s.enteredIn id ↔ x ∈ s.entered ∧ s.ownerAround x.1 = id := by
  simp [enteredIn, List.mem_filter]

theorem enteredBelow_succ {levels : Nat} {id : ScopeId} {x : ScopeId × Function}
    (h : x ∈ s.enteredBelow levels id) : x ∈ s.enteredBelow (levels + 1) id := by
  induction levels generalizing id with
  | zero => cases h
  | succ levels ih =>
    rw [enteredBelow, List.mem_flatMap] at h ⊢
    obtain ⟨y, hy, hx⟩ := h
    refine ⟨y, hy, ?_⟩
    rcases List.mem_cons.mp hx with rfl | hx
    · exact List.mem_cons_self
    · exact List.mem_cons_of_mem _ (ih hx)

theorem enteredBelow_mono {levels more : Nat} (hle : levels ≤ more) {id : ScopeId}
    {x : ScopeId × Function} (h : x ∈ s.enteredBelow levels id) : x ∈ s.enteredBelow more id := by
  induction hle with
  | refl => exact h
  | step _ ih => exact enteredBelow_succ ih

/-- What belongs to a function below a scope is below the scope, one level further down. -/
theorem enteredBelow_step {levels : Nat} {id : ScopeId} {x y : ScopeId × Function}
    (hy : y ∈ s.enteredBelow levels id) (hx : x ∈ s.enteredIn y.1) :
    x ∈ s.enteredBelow (levels + 1) id := by
  induction levels generalizing id with
  | zero => cases hy
  | succ levels ih =>
    rw [enteredBelow, List.mem_flatMap] at hy ⊢
    obtain ⟨z, hz, hy⟩ := hy
    refine ⟨z, hz, List.mem_cons_of_mem _ ?_⟩
    rcases List.mem_cons.mp hy with rfl | hy
    · rw [enteredBelow, List.mem_flatMap]
      exact ⟨x, hx, List.mem_cons_self⟩
    · exact ih hy

/-- Every entered function is below the file. -/
theorem Sound.mem_enteredBelow (h : s.Sound tidy) {x : ScopeId × Function} (hx : x ∈ s.entered) :
    x ∈ s.enteredBelow (x.1.index + 1) s.fileScope := by
  induction hn : x.1.index using Nat.strongRecOn generalizing x with
  | _ index ih =>
    obtain ⟨kind, hreg⟩ := h.registered hx
    obtain ⟨body, hbody, _⟩ := hreg.holds
    have hlt := hreg.older
    have hin : x ∈ s.enteredIn (s.ownerAround x.1) := mem_enteredIn.mpr ⟨hx, rfl⟩
    generalize s.ownerAround x.1 = owner at hbody hlt hin
    cases hbody with
    | file =>
      refine enteredBelow_mono (Nat.succ_le_succ (Nat.zero_le index)) ?_
      rw [enteredBelow, List.mem_flatMap]
      exact ⟨x, hin, List.mem_cons_self⟩
    | @function _ g hg =>
      have hstep := enteredBelow_step (ih owner.index (by omega) hg rfl) hin
      exact enteredBelow_mono (by omega) hstep

theorem subperm_flatMap {α β : Type} {l l' : List α} (h : l.Subperm l') (f : α → List β) :
    (l.flatMap f).Subperm (l'.flatMap f) := by
  obtain ⟨mid, hperm, hsub⟩ := h
  exact ⟨mid.flatMap f, hperm.flatMap_right f, hsub.flatMap f⟩

theorem subperm_map {α β : Type} {l l' : List α} (h : l.Subperm l') (f : α → β) :
    (l.map f).Subperm (l'.map f) := by
  obtain ⟨mid, hperm, hsub⟩ := h
  exact ⟨mid.map f, hperm.map f, hsub.map f⟩

theorem subperm_flatMap_of_forall {α β : Type} {l : List α} {f g : α → List β}
    (h : ∀ a ∈ l, (f a).Subperm (g a)) : (l.flatMap f).Subperm (l.flatMap g) := by
  induction l with
  | nil => exact .refl []
  | cons a rest ih =>
    rw [List.flatMap_cons, List.flatMap_cons]
    exact (h a List.mem_cons_self).append (ih fun b hb => h b (List.mem_cons_of_mem _ hb))

/-- The functions that are entered in one body differ, as their keys do. -/
theorem Sound.enteredIn_subperm (h : s.Sound tidy) {id : ScopeId} {body : List Stmt}
    (hbody : s.HasBody id body) {kind : ScopeId × Function → FunctionKind}
    (hkind : ∀ x ∈ s.entered, s.Registered x (kind x)) :
    ((s.enteredIn id).map fun x => (kind x, x.2)).Subperm (directOf body) := by
  refine List.Nodup.subperm ?_ ?_
  · refine List.Nodup.map_on ?_ (h.distinct.of_map.filter _)
    intro x hx y hy hxy
    obtain ⟨hx, hxid⟩ := mem_enteredIn.mp hx
    obtain ⟨hy, hyid⟩ := mem_enteredIn.mp hy
    obtain ⟨outer, houter, hget⟩ := (hkind x hx).found
    obtain ⟨outer', houter', hget'⟩ := (hkind y hy).found
    rw [hxid] at houter
    rw [hyid, houter] at houter'
    cases houter'
    have hkey : keyOf (kind x) x.2 = keyOf (kind y) y.2 := by
      rw [(Prod.mk.inj hxy).1, (Prod.mk.inj hxy).2]
    rw [hkey, hget'] at hget
    exact Prod.ext (Option.some.inj hget).symm (Prod.mk.inj hxy).2
  · intro f hf
    obtain ⟨x, hx, rfl⟩ := List.mem_map.mp hf
    obtain ⟨hx, hxid⟩ := mem_enteredIn.mp hx
    obtain ⟨body', hbody', hmem⟩ := (hkind x hx).holds
    rw [hxid] at hbody'
    rwa [h.body_unique hbody hbody']

theorem Sound.enteredBelow_subperm (h : s.Sound tidy) {kind : ScopeId × Function → FunctionKind}
    (hkind : ∀ x ∈ s.entered, s.Registered x (kind x)) (levels : Nat) {id : ScopeId}
    {body : List Stmt} (hbody : s.HasBody id body) :
    ((s.enteredBelow levels id).map Prod.snd).Subperm ((functionsOf body).map Prod.snd) := by
  induction levels generalizing id body with
  | zero => exact List.nil_subperm
  | succ levels ih =>
    rw [enteredBelow, List.map_flatMap, functionsOf_eq, List.map_flatMap]
    have hdeep : ((s.enteredIn id).flatMap fun x =>
          (x :: s.enteredBelow levels x.1).map Prod.snd).Subperm
        ((s.enteredIn id).flatMap fun x => x.2 :: (functionsOf x.2.body).map Prod.snd) := by
      refine subperm_flatMap_of_forall ?_
      intro x hx
      exact (List.subperm_cons x.2).mpr (ih (.function (mem_enteredIn.mp hx).1))
    have hwide := subperm_flatMap (h.enteredIn_subperm hbody hkind) fun f =>
      f.2 :: (functionsOf f.2.body).map Prod.snd
    rw [List.flatMap_map] at hwide
    exact hdeep.trans hwide

/-- The kinds of all entered functions. -/
theorem Sound.exists_kinds (h : s.Sound tidy) :
    ∃ kind : ScopeId × Function → FunctionKind, ∀ x ∈ s.entered, s.Registered x (kind x) := by
  have hexists : ∀ x, ∃ kind, x ∈ s.entered → s.Registered x kind := by
    intro x
    by_cases hx : x ∈ s.entered
    · obtain ⟨kind, hreg⟩ := h.registered hx
      exact ⟨kind, fun _ => hreg⟩
    · exact ⟨.declared, fun hx' => absurd hx' hx⟩
  choose kind hkind using hexists
  exact ⟨kind, hkind⟩

/-- No function of the program is entered more often than it stands there. -/
theorem Sound.entered_subperm (h : s.Sound tidy) :
    (s.entered.map Prod.snd).Subperm ((functionsOf s.source.program.body).map Prod.snd) := by
  obtain ⟨kind, hkind⟩ := h.exists_kinds
  have hbelow : s.entered ⊆ s.enteredBelow s.arena.size s.fileScope := by
    intro x hx
    obtain ⟨_, scope, _, _, _, hs, _⟩ := h.entered x.1 x.2 hx
    exact enteredBelow_mono (Arena.index_lt_size hs) (h.mem_enteredBelow hx)
  have hsub : s.entered.Subperm (s.enteredBelow s.arena.size s.fileScope) :=
    h.distinct.of_map.subperm hbelow
  exact (subperm_map hsub Prod.snd).trans (h.enteredBelow_subperm hkind _ .file)

/-! ## What is left to enter -/

/-- How many nodes there are in bodies that may still be entered. -/
def pending (s : State) : Nat :=
  ((functionsOf s.source.program.body).map fun f => ownOf f.2.body).sum -
    (s.entered.map fun x => ownOf x.2.body).sum

theorem Sound.entered_le (h : s.Sound tidy) :
    (s.entered.map fun x => ownOf x.2.body).sum ≤
      ((functionsOf s.source.program.body).map fun f => ownOf f.2.body).sum := by
  have hsub := subperm_map h.entered_subperm fun f => ownOf f.body
  rw [List.map_map, List.map_map] at hsub
  obtain ⟨mid, hperm, hsub⟩ := hsub
  calc (s.entered.map fun x => ownOf x.2.body).sum
      = mid.sum := hperm.sum_eq.symm
    _ ≤ ((functionsOf s.source.program.body).map fun f => ownOf f.2.body).sum :=
      hsub.sum_le_sum (by simp)

theorem Keeps.pending_le {spared : ScopeId → Prop} {s' : State} (h : s.Keeps spared s') :
    s'.pending ≤ s.pending := by
  have hle : (s.entered.map fun x => ownOf x.2.body).sum ≤
      (s'.entered.map fun x => ownOf x.2.body).sum :=
    (h.entered.sublist.map _).sum_le_sum (by simp)
  rw [pending, pending, h.source]
  omega

/-- Entering a body leaves the nodes of the others. -/
theorem Sound.pending_enter {id : ScopeId} {f : Function}
    (h : ({ s with entered := (id, f) :: s.entered } : State).Sound tidy) :
    ({ s with entered := (id, f) :: s.entered } : State).pending + ownOf f.body = s.pending := by
  have hle := h.entered_le
  simp only [pending, List.map_cons, List.sum_cons] at hle ⊢
  omega

/-! ## Bodies around bodies -/

theorem Sound.body_of_program (h : s.Sound tidy) {id : ScopeId} {body : List Stmt}
    (hb : s.HasBody id body) : body ∈ s.source.program.bodies := by
  cases hb with
  | file => exact List.mem_cons_self
  | @function _ f hf =>
    have hmem := h.entered_subperm.subset (List.mem_map_of_mem hf)
    obtain ⟨g, hg, hgf⟩ := List.mem_map.mp hmem
    exact List.mem_cons_of_mem _ (List.mem_map.mpr ⟨g, hg, by rw [hgf]⟩)

theorem Sound.not_branch_of_body (h : s.Sound tidy) {id : ScopeId} {body : List Stmt} {scope : Scope}
    (hb : s.HasBody id body) (hs : s.arena.scope? id = some scope) :
    scope.kind.isBranch = false := by
  cases hb with
  | file =>
    obtain ⟨scope', _, hs', hk, _⟩ := h.file
    rw [hs] at hs'
    cases hs'
    rw [hk]
    rfl
  | function hf =>
    obtain ⟨_, scope', _, _, _, hs', hk, _⟩ := h.entered _ _ hf
    rw [hs] at hs'
    cases hs'
    rw [hk]
    rfl

/-- A body that is seen from another one stands around it. -/
theorem Sound.nested (h : s.Sound tidy) {id outer : ScopeId} {scope : Scope}
    {body around : List Stmt} (hb : s.HasBody id body) (houter : s.HasBody outer around)
    (hchain : (outer, scope) ∈ s.arena.chain id) (hne : outer ≠ id) :
    ∃ f ∈ functionsOf around, body = f.2.body := by
  induction hn : id.index using Nat.strongRecOn generalizing id body with
  | _ index ih =>
    cases hb with
    | file =>
      obtain ⟨file, _, hs, _, hparent⟩ := h.file
      rw [h.arena.ordered.chain_eq hs, hparent] at hchain
      exact absurd (Prod.mk.inj (List.mem_singleton.mp hchain)).1 hne
    | @function _ f hf =>
      obtain ⟨kind, own, info, parent, _, hs, _, hp, _, ⟨inner, hinner, hmem⟩, _, _⟩ :=
        h.entered _ f hf
      have hlt := h.arena.ordered _ own parent hs hp
      have hparent : parent.index < s.arena.size := Nat.lt_trans hlt (Arena.index_lt_size hs)
      obtain ⟨_, _, _, hle⟩ := h.arena.owner_spec hparent
      rw [h.arena.ordered.chain_eq hs, hp, List.mem_cons] at hchain
      rcases hchain with heq | hchain
      · exact absurd (Prod.mk.inj heq).1 hne
      have hfound := (h.arena.ordered.mem_chain hchain).1
      have howner := h.arena.mem_chain_owner hchain (h.not_branch_of_body houter hfound)
      by_cases hsame : outer = s.arena.owner parent
      · subst hsame
        rw [h.body_unique houter hinner]
        exact ⟨_, mem_functionsOf_of_direct hmem, rfl⟩
      · obtain ⟨g, hg, rfl⟩ := ih _ (by omega) hinner howner hsame rfl
        have hdeep : g.2.body ∈ (⟨around, {}⟩ : Program).bodies :=
          List.mem_cons_of_mem _ (List.mem_map.mpr ⟨g, hg, rfl⟩)
        exact ⟨_, Program.functions_of_bodies hdeep hmem, rfl⟩

/-- In a tidy program a function that is declared around a body has no namesake declared in it. -/
theorem Sound.holder_unique (h : s.Sound tidy) (htidy : tidy) {id : ScopeId}
    {x y : ScopeId × Scope} {f g : Function} (hx : x ∈ s.arena.chain id) (hy : y ∈ s.arena.chain id)
    (hf : s.Holds x.1 (.declared, f)) (hg : s.Holds y.1 (.declared, g)) (hname : f.name = g.name) :
    x.1 = y.1 := by
  -- one of the two bodies would stand inside the other
  have hlem : ∀ {x y : ScopeId × Scope} {f g : Function}, s.Holds x.1 (.declared, f) →
      s.Holds y.1 (.declared, g) → f.name = g.name → y ∈ s.arena.chain x.1 → x.1 = y.1 := by
    intro x y f g ⟨bodyF, hbodyF, hf⟩ ⟨bodyG, hbodyG, hg⟩ hname hchain
    by_contra hne
    obtain ⟨inner, hinner, rfl⟩ := h.nested hbodyF hbodyG hchain (fun heq => hne heq.symm)
    exact (h.program htidy).unshadowed bodyG (h.body_of_program hbodyG) _ hg rfl inner hinner _ hf
      rfl hname
  rcases h.arena.ordered.chain_total hx hy with hchain | hchain
  · exact hlem hf hg hname hchain
  · exact (hlem hg hf hname.symm hchain).symm

end HeaderCheck.Verify.State
