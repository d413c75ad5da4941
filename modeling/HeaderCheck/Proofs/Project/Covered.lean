import HeaderCheck.Proofs.Verify.Covers.Source
import HeaderCheck.Signature.Build
import Mathlib.Data.List.Nodup
import Mathlib.Logic.Relation

/-!
# HeaderCheck.Proofs.Project.Covered

Where nothing is reported, the body of every function has been verified.

A function is passed over when the file or function around it has a scope for its key. The key of a
declared function is its name, so a second declaration of the same name in one body is never
verified (`repeated_declaration_unverified`). There is no other way to be passed over:

* `Covered`: all functions in the bodies that have been entered have scopes, and these have been
  entered. It holds where a run ends that reports nothing.
* `Sound.entered_perm`: then the functions that have been entered are those of the program, each as
  often as it stands there, if the functions of each body have different keys.
-/

namespace HeaderCheck.Verify

open HeaderCheck.Project
open HeaderCheck.Scope (Arena ScopeId)
open HeaderCheck.Script
open Relation

/-- The functions of each body have different keys. -/
def KeysApart (program : Program) : Prop :=
  ∀ body ∈ program.bodies, ((directOf body).map fun f => keyOf f.1 f.2).Nodup

instance (program : Program) : Decidable (KeysApart program) :=
  inferInstanceAs (Decidable (∀ _ ∈ _, _))

namespace State

variable {tidy : Prop} {s : State}

/-! ## The tree of scopes -/

/-- From the scope of a function to the file or function around it. -/
def Around (s : State) (id outer : ScopeId) : Prop :=
  s.ownerAround id = outer ∧ outer.index < id.index

theorem index_le_of_around {id outer : ScopeId} (h : ReflTransGen s.Around id outer) :
    outer.index ≤ id.index := by
  induction h with
  | refl => exact Nat.le_refl _
  | tail _ hstep ih => exact Nat.le_trans (Nat.le_of_lt hstep.2) ih

theorem Sound.around_of_mem (h : s.Sound tidy) {id : ScopeId} {x : ScopeId × Function}
    (hx : x ∈ s.enteredIn id) : s.Around x.1 id := by
  obtain ⟨hentered, rfl⟩ := mem_enteredIn.mp hx
  obtain ⟨_, hreg⟩ := h.registered hentered
  exact ⟨rfl, hreg.older⟩

theorem Sound.around_of_below (h : s.Sound tidy) {levels : Nat} {id : ScopeId}
    {x : ScopeId × Function} (hx : x ∈ s.enteredBelow levels id) : TransGen s.Around x.1 id := by
  induction levels generalizing id with
  | zero => cases hx
  | succ levels ih =>
    rw [enteredBelow, List.mem_flatMap] at hx
    obtain ⟨y, hy, hx⟩ := hx
    rcases List.mem_cons.mp hx with rfl | hx
    · exact .single (h.around_of_mem hy)
    · exact .tail (ih hx) (h.around_of_mem hy)

theorem entered_of_below {levels : Nat} {id : ScopeId} {x : ScopeId × Function}
    (hx : x ∈ s.enteredBelow levels id) : x ∈ s.entered := by
  induction levels generalizing id with
  | zero => cases hx
  | succ levels ih =>
    rw [enteredBelow, List.mem_flatMap] at hx
    obtain ⟨y, hy, hx⟩ := hx
    rcases List.mem_cons.mp hx with rfl | hx
    · exact (mem_enteredIn.mp hy).1
    · exact ih hx

/-- Of two scopes in one body, nothing is inside both. -/
theorem around_unique {id outer one other : ScopeId} (hone : s.Around one outer)
    (hother : s.Around other outer) (h : ReflTransGen s.Around id one)
    (h' : ReflTransGen s.Around id other) : one = other := by
  have hmeet : ∀ {a b : ScopeId}, s.Around a outer → s.Around b outer →
      ReflTransGen s.Around a b → a = b := by
    intro a b ha hb hab
    rcases hab.cases_head with heq | ⟨next, hnext, hrest⟩
    · exact heq
    · -- the scope around `a` is older than `b`
      have hle := index_le_of_around hrest
      rw [← hnext.1, ha.1] at hle
      exact absurd hb.2 (Nat.not_lt.mpr hle)
  have hright : Relator.RightUnique s.Around := fun _ _ _ h h' => h.1.symm.trans h'.1
  rcases ReflTransGen.total_of_right_unique hright h h' with hbelow | hbelow
  · exact hmeet hone hother hbelow
  · exact (hmeet hother hone hbelow).symm

theorem Sound.nodup_enteredBelow (h : s.Sound tidy) (levels : Nat) (id : ScopeId) :
    (s.enteredBelow levels id).Nodup := by
  induction levels generalizing id with
  | zero => exact List.nodup_nil
  | succ levels ih =>
    rw [enteredBelow, List.nodup_flatMap]
    refine ⟨fun x _ => List.nodup_cons.mpr ⟨fun hx => ?_, ih x.1⟩, ?_⟩
    · obtain ⟨next, hnext, hrest⟩ := TransGen.head'_iff.mp (h.around_of_below hx)
      exact absurd hnext.2 (Nat.not_lt.mpr (index_le_of_around hrest))
    have hin : ∀ {x y : ScopeId × Function}, y ∈ x :: s.enteredBelow levels x.1 →
        ReflTransGen s.Around y.1 x.1 := by
      intro x y hy
      rcases List.mem_cons.mp hy with rfl | hy
      · exact .refl
      · exact (h.around_of_below hy).to_reflTransGen
    refine (h.distinct.of_map.filter _).imp_of_mem fun {x y} hx hy hne => ?_
    intro z hzx hzy
    have hsame := around_unique (h.around_of_mem hx) (h.around_of_mem hy) (hin hzx) (hin hzy)
    exact hne (List.inj_on_of_nodup_map h.distinct (mem_enteredIn.mp hx).1 (mem_enteredIn.mp hy).1
      hsame)

/-- A function in a body has fewer functions in it than the body has. -/
theorem length_functionsOf_lt {body : List Stmt} {f : FunctionKind × Function}
    (hf : f ∈ directOf body) : (functionsOf f.2.body).length < (functionsOf body).length := by
  rw [functionsOf_eq body, List.length_flatMap]
  have hle : (functionsOf f.2.body).length + 1 ≤
      ((directOf body).map fun f => (f :: functionsOf f.2.body).length).sum :=
    List.single_le_sum (by simp) _ (List.mem_map_of_mem hf)
  exact hle

/-! ## Covered states -/

/-- All functions in the bodies that have been entered have scopes, and these have been entered. -/
structure Covered (s : State) : Prop where
  calm : s.Calm
  hasAll : ∀ {id body}, s.HasBody id body → s.HasAll id (directOf body)

variable (h : s.Sound tidy) (hc : s.Covered) {kind : ScopeId × Function → FunctionKind}
  (hkind : ∀ x ∈ s.entered, s.Registered x (kind x))

include h hc hkind

/-- A function in a body that has been entered has been entered itself, or one with its key has. -/
theorem Sound.exists_enteredIn {id : ScopeId} {body : List Stmt} (hbody : s.HasBody id body)
    {f : FunctionKind × Function} (hf : f ∈ directOf body) :
    ∃ x ∈ s.enteredIn id, (kind x, x.2) ∈ directOf body ∧ keyOf (kind x) x.2 = keyOf f.1 f.2 := by
  obtain ⟨scope, hs, hkey⟩ := hc.hasAll hbody f hf
  obtain ⟨child, hchild⟩ := Option.isSome_iff_exists.mp hkey
  obtain ⟨⟨made, info, parent, hmade, hinfo, hname, hparent, hunder⟩, g, hg⟩ :=
    hc.calm id _ child ⟨scope, hs, hchild⟩
  have haround : s.ownerAround child = id := by
    rw [ownerAround, Arena.parent?, hmade]
    exact (congrArg s.arena.owner (by rw [Option.bind_some, hparent]; rfl)).trans hunder.owner_eq
  have hreg := hkind (child, g) hg
  obtain ⟨body', hbody', hmem⟩ := hreg.holds
  obtain ⟨outer, houter, hfound⟩ := hreg.found
  simp only [haround] at hbody' houter
  -- the scope was made for one key only
  obtain ⟨⟨made', info', parent', hmade', hinfo', hname', -⟩, -⟩ :=
    hc.calm id _ child ⟨outer, houter, hfound⟩
  rw [hmade] at hmade'
  cases hmade'
  rw [hinfo] at hinfo'
  cases hinfo'
  rw [h.body_unique hbody' hbody] at hmem
  exact ⟨(child, g), mem_enteredIn.mpr ⟨hg, haround⟩, hmem, hname'.symm.trans hname⟩

variable (hkeys : KeysApart s.source.program)

include hkeys

theorem Sound.enteredIn_perm {id : ScopeId} {body : List Stmt} (hbody : s.HasBody id body) :
    ((s.enteredIn id).map fun x => (kind x, x.2)).Perm (directOf body) := by
  refine (h.enteredIn_subperm hbody hkind).antisymm ?_
  refine (hkeys body (h.body_of_program hbody)).of_map.subperm fun f hf => ?_
  obtain ⟨x, hx, hmem, hkey⟩ := h.exists_enteredIn hc hkind hbody hf
  exact List.mem_map.mpr ⟨x, hx,
    List.inj_on_of_nodup_map (hkeys body (h.body_of_program hbody)) hmem hf hkey⟩

/-- Below a scope all functions of its body have been entered. -/
theorem Sound.enteredBelow_perm {levels : Nat} {id : ScopeId} {body : List Stmt}
    (hbody : s.HasBody id body) (hlevels : (functionsOf body).length < levels) :
    ((s.enteredBelow levels id).map Prod.snd).Perm ((functionsOf body).map Prod.snd) := by
  induction levels generalizing id body with
  | zero => exact absurd hlevels (Nat.not_lt_zero _)
  | succ levels ih =>
    have hin := h.enteredIn_perm hc hkind hkeys hbody
    rw [enteredBelow, List.map_flatMap, functionsOf_eq, List.map_flatMap]
    have hdeep : ((s.enteredIn id).flatMap fun x =>
          (x :: s.enteredBelow levels x.1).map Prod.snd).Perm
        ((s.enteredIn id).flatMap fun x => x.2 :: (functionsOf x.2.body).map Prod.snd) := by
      refine List.Perm.flatMap (.refl _) fun x hx => .cons x.2 (ih (.function (mem_enteredIn.mp hx).1) ?_)
      have hx : (kind x, x.2) ∈ directOf body := hin.subset (List.mem_map_of_mem hx)
      exact Nat.lt_of_lt_of_le (length_functionsOf_lt hx) (Nat.le_of_lt_succ hlevels)
    refine hdeep.trans ?_
    have hwide := hin.flatMap_right fun f => f.2 :: (functionsOf f.2.body).map Prod.snd
    rw [List.flatMap_map] at hwide
    exact hwide

/-- The functions that have been entered are those of the program. -/
theorem Sound.entered_perm :
    (s.entered.map Prod.snd).Perm ((functionsOf s.source.program.body).map Prod.snd) := by
  refine h.entered_subperm.perm_of_length_le ?_
  have hbelow := h.enteredBelow_perm hc hkind hkeys .file (Nat.lt_succ_self _)
  rw [← hbelow.length_eq, List.length_map, List.length_map]
  exact ((h.nodup_enteredBelow _ _).subperm fun x hx => entered_of_below hx).length_le

end State

/-! ## Sources -/

/-- A source that is verified without a report is covered. -/
theorem covered_of_quiet {host : Host} {options : Options} {levels : Nat} {session : Session}
    {source : Source} {s : State} (hproper : source.program.Proper)
    (hrun : (verifySource host options (requireModule host options
      (checkWithin host options levels))).run (State.start session source) = (.ok (), s))
    (hquiet : s.diagnostics = []) : s.Sound False ∧ s.source = source ∧ s.Covered := by
  have hidle := Watch.idle_forMissing (S := watching session source True) (throw .outOfFuel) trivial
    hproper
  obtain ⟨hagree, hends⟩ := runs_source host options levels hidle
  rw [hrun] at hagree hends
  have hwatched := hagree.resolve_right fun hmarred => absurd hquiet hmarred.2
  have hrequire : ∀ file request (session : Session), session.table.Extends
      ((requireModule host options (checkWithin host options levels) file request).run
        session).2.table := by
    intro file request session
    have hrequires : Requires (watching session source True)
        (requireModule host options (checkWithin host options levels))
        (requireModule host options (checkWithin host options levels)) :=
      requires_requireModule options levels nofun
    exact (hrequires file request session rfl).works.keeps.table
  obtain ⟨-, hcovers⟩ := covers_watchedSource host options hrequire session source () s hwatched
  obtain ⟨hcalm, hfills, hall⟩ := hcovers (State.calm_start session source) hquiet
  refine ⟨hends.sound, hends.keeps.source, hcalm, fun hbody => ?_⟩
  cases hbody with
  | file =>
    rw [hends.keeps.fileScope, hends.keeps.source]
    exact hall nofun
  | function hf => exact (hfills _ hf).resolve_left List.not_mem_nil

/-- In a source that is verified without a report, each function in the body of the file or of a
function that has been entered has been entered there, or another one with its key has. If the
functions of each body have different keys, the functions that have been entered are all functions
of the source, each as often as it stands there. -/
theorem quiet_source_enters_functions (host : Host) (options : Options) (levels : Nat)
    (session : Session) (source : Source) (hproper : source.program.Proper) {s : State}
    (hrun : (verifySource host options (requireModule host options
      (checkWithin host options levels))).run (State.start session source) = (.ok (), s))
    (hquiet : s.diagnostics = []) :
    (∀ id body, s.HasBody id body → ∀ f ∈ directOf body, ∃ g ∈ directOf body,
      keyOf g.1 g.2 = keyOf f.1 f.2 ∧ ∃ child, (child, g.2) ∈ s.enteredIn id) ∧
    (KeysApart source.program →
      (s.entered.map Prod.snd).Perm ((functionsOf source.program.body).map Prod.snd)) := by
  obtain ⟨hs, rfl, hc⟩ := covered_of_quiet hproper hrun hquiet
  obtain ⟨kind, hkind⟩ := hs.exists_kinds
  refine ⟨fun id body hbody f hf => ?_, hs.entered_perm hc hkind⟩
  obtain ⟨x, hx, hmem, hkey⟩ := hs.exists_enteredIn hc hkind hbody hf
  exact ⟨(kind x, x.2), hmem, hkey, x.1, hx⟩

/-- A project of one source, whose header types `f` as a function without parameters and result. -/
def typingF (body : List Stmt) : Host :=
  let f := Signature.Build.assignment "f"
    (Signature.Build.function [] (Signature.Build.literal "void"))
  (({} : Host).addSource { path := "/app/main.js", text := "", program := Build.program body }).addHeader
    "/app/main.hjs" (Signature.Build.header [f])

/-- How the verification of the source ends. -/
def endOf (body : List Stmt) : Except Error Unit × State :=
  (verifySource (typingF body) {} (requireModule (typingF body) {}
    (checkWithin (typingF body) {} 0))).run
      (State.start {} { path := "/app/main.js", text := "", program := Build.program body })

/-- A function with another one in it, and with a third in a branch that calls this one. -/
def declaresOnce : List Stmt :=
  let called (name : String) := Build.expression (Build.call (Build.ident name) [])
  [Build.functionDecl "f" []
    [Build.functionDecl "g" [] [], called "g",
      Build.branch (Build.ident "f") [Build.functionDecl "h" [] [called "g"], called "h"] none]]

theorem quiet_source_enters_functions_once :
    ((endOf declaresOnce).2.entered.map Prod.snd).Perm
      ((functionsOf declaresOnce).map Prod.snd) := by
  have hproper : (Build.program declaresOnce).Proper := by decide +kernel
  have hapart : KeysApart (Build.program declaresOnce) := by decide +kernel
  have hends : isQuiet (endOf declaresOnce) := by decide +kernel
  obtain ⟨s, hrun, hquiet⟩ := run_of_isQuiet hends
  have hentered := quiet_source_enters_functions (typingF declaresOnce) {} 0 {} _ hproper hrun hquiet
  rw [hrun]
  exact hentered.2 hapart

/-- A function that is declared twice, with a name that is not in sight the second time. -/
def declaresTwice : List Stmt :=
  [Build.functionDecl "f" [] [],
    Build.functionDecl "f" [] [Build.expression (Build.ident "missing")]]

/-- The second function of two with one name is never verified, and nothing is reported. -/
theorem repeated_declaration_unverified :
    ∃ s f, endOf declaresTwice = (.ok (), s) ∧ s.diagnostics = [] ∧
      (Build.program declaresTwice).Proper ∧ (.declared, f) ∈ functionsOf declaresTwice ∧
      f ∉ s.entered.map Prod.snd := by
  have hproper : (Build.program declaresTwice).Proper := by decide +kernel
  have hends : isQuiet (endOf declaresTwice) := by decide +kernel
  have hempty : (endOf declaresTwice).2.entered.all (fun x => x.2.body.isEmpty) := by decide +kernel
  obtain ⟨s, hrun, hquiet⟩ := run_of_isQuiet hends
  refine ⟨s, Build.function (some "f") [] [Build.expression (Build.ident "missing")], hrun, hquiet,
    hproper, ?_, fun hmem => ?_⟩
  · refine mem_functionsOf_of_direct ?_
    rw [directOf_eq]
    refine List.mem_flatMap.mpr ⟨_, List.mem_cons_of_mem _ List.mem_cons_self, ?_⟩
    rw [Node.direct_eq]
    exact List.mem_cons_self
  · obtain ⟨x, hx, hbody⟩ := List.mem_map.mp hmem
    rw [hrun] at hempty
    have hnone := List.all_eq_true.mp hempty x hx
    rw [hbody] at hnone
    cases hnone

end HeaderCheck.Verify
