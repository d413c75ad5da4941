import HeaderCheck.Proofs.Run
import HeaderCheck.Proofs.Types.Same

/-!
# HeaderCheck.Proofs.Lockstep

Two runs of the same work side by side, on states whose tables give the same types other handles.

* `Accord`: what the states of the two runs have in common.
* `Accord.Same`: two handles, one of each run, that stand for the same tree.
* `Lockstep A p m m' Q`: from a pair in accord the two runs lead to a pair in accord, with results
  for which `Q` holds or with the same error. One rule for each way to put work together.
-/

namespace HeaderCheck

open HeaderCheck.Types (Table TypeId)

variable {ε σ α β : Type}

/-- Both runs end well, or both end with the same error. -/
inductive SameEnd (P : α → β → Prop) : Except ε α → Except ε β → Prop where
  | ok {a : α} {b : β} : P a b → SameEnd P (.ok a) (.ok b)
  | error (e : ε) : SameEnd P (.error e) (.error e)

theorem SameEnd.mono {P P' : α → β → Prop} {x : Except ε α} {y : Except ε β} (h : SameEnd P x y)
    (hP : ∀ a b, P a b → P' a b) : SameEnd P' x y := by
  cases h with
  | ok hab => exact .ok (hP _ _ hab)
  | error e => exact .error e

/-- What the states of two runs have in common. -/
structure Accord (σ : Type) where
  table : σ → Table
  Meets : σ → σ → Prop
  left : ∀ {s s'}, Meets s s' → (table s).WellFormed
  right : ∀ {s s'}, Meets s s' → (table s').WellFormed

namespace Accord

variable (A : Accord σ)

/-- The handles of the two runs stand for the same tree. -/
def Same (p : σ × σ) (i i' : TypeId) : Prop :=
  (A.table p.1).Same (A.table p.2) i i'

/-- How two runs go on together. -/
structure Onward (p q : σ × σ) : Prop where
  before : A.Meets p.1 p.2
  meets : A.Meets q.1 q.2
  left : (A.table p.1).Extends (A.table q.1)
  right : (A.table p.2).Extends (A.table q.2)

variable {A} {p q r : σ × σ}

theorem Onward.refl (h : A.Meets p.1 p.2) : A.Onward p p :=
  ⟨h, h, .refl _, .refl _⟩

theorem Onward.trans (h : A.Onward p q) (h' : A.Onward q r) : A.Onward p r :=
  ⟨h.before, h'.meets, h.left.trans h'.left, h.right.trans h'.right⟩

/-- Handles for the same tree stay so. -/
theorem Onward.same (h : A.Onward p q) {i i' : TypeId} (hi : A.Same p i i') : A.Same q i i' :=
  Table.Same.extend hi (A.left h.before) (A.right h.before) (A.left h.meets) (A.right h.meets) h.left
    h.right

theorem Onward.same? (h : A.Onward p q) {i i' : Option TypeId} (hi : Option.Rel (A.Same p) i i') :
    Option.Rel (A.Same q) i i' :=
  Types.rel_mono hi fun _ _ => h.same

theorem Onward.all (h : A.Onward p q) {is is' : List TypeId} (hi : List.Forall₂ (A.Same p) is is') :
    List.Forall₂ (A.Same q) is is' :=
  hi.imp fun _ _ => h.same

theorem Onward.shapes (h : A.Onward p q) {shape shape' : Option Types.ObjectShape}
    (hs : Option.Rel (Types.ObjectShape.Parallel (A.Same p)) shape shape') :
    Option.Rel (Types.ObjectShape.Parallel (A.Same q)) shape shape' := by
  cases hs with
  | none => exact .none
  | some hs => exact .some { hs with fields := hs.fields.imp fun _ _ hf => hf.mono fun _ _ => h.same }

theorem Onward.params (h : A.Onward p q) {params params' : List Types.Param}
    (hparams : List.Forall₂ (Types.Param.Parallel (A.Same p)) params params') :
    List.Forall₂ (Types.Param.Parallel (A.Same q)) params params' :=
  hparams.imp fun _ _ hparam => hparam.mono fun _ _ => h.same

theorem Onward.function (h : A.Onward p q) {shape shape' : Types.FunctionShape}
    (hs : shape.Parallel (A.Same p) shape') : shape.Parallel (A.Same q) shape' :=
  ⟨h.params hs.params, h.same hs.result, h.same? hs.this, hs.generics, hs.brand⟩

/-- A built-in type has one handle in both runs. -/
theorem same_fixed (h : A.Meets p.1 p.2) {id : TypeId} (hid : id.index < Table.builtins.length) :
    A.Same p id id :=
  Table.same_fixed (A.left h) (A.right h) hid

end Accord

/-- From a pair in accord the two runs lead to a pair in accord, with results for which `Q` holds or
with the same error. -/
def Lockstep (A : Accord σ) (p : σ × σ) (m m' : ExceptT ε (StateM σ) α)
    (Q : α → α → σ × σ → Prop) : Prop :=
  A.Meets p.1 p.2 → ∃ result result' q, m.run p.1 = (result, q.1) ∧ m'.run p.2 = (result', q.2) ∧
    A.Onward p q ∧ SameEnd (fun a a' => Q a a' q) result result'

namespace Lockstep

variable {A : Accord σ} {p q : σ × σ} {m m' : ExceptT ε (StateM σ) α} {P Q : α → α → σ × σ → Prop}

/-- A rule may use that the pair is in accord. -/
theorem of_meets (h : A.Meets p.1 p.2 → Lockstep A p m m' Q) : Lockstep A p m m' Q :=
  fun hp => h hp hp

/-- Work that ends well in both runs. -/
theorem of_run {a a' : α} (hrun : m.run p.1 = (.ok a, q.1)) (hrun' : m'.run p.2 = (.ok a', q.2))
    (hq : A.Meets p.1 p.2 → A.Onward p q) (hQ : A.Meets p.1 p.2 → Q a a' q) :
    Lockstep A p m m' Q :=
  fun hp => ⟨.ok a, .ok a', q, hrun, hrun', hq hp, .ok (hQ hp)⟩

theorem mono (h : Lockstep A p m m' P) (hPQ : ∀ a a' q, A.Onward p q → P a a' q → Q a a' q) :
    Lockstep A p m m' Q := by
  intro hp
  obtain ⟨result, result', q, hrun, hrun', hq, hend⟩ := h hp
  exact ⟨result, result', q, hrun, hrun', hq, hend.mono fun a a' => hPQ a a' q hq⟩

/-- Only the runs matter. -/
theorem congr {n n' : ExceptT ε (StateM σ) α} (h : Lockstep A p m m' Q)
    (hrun : m.run p.1 = n.run p.1) (hrun' : m'.run p.2 = n'.run p.2) : Lockstep A p n n' Q := by
  rw [Lockstep, hrun, hrun'] at h
  exact h

theorem pure {a a' : α} (hQ : A.Meets p.1 p.2 → Q a a' p) : Lockstep A p (pure a : ExceptT ε (StateM σ) α) (pure a') Q :=
  of_run rfl rfl .refl hQ

theorem throw (e : ε) : Lockstep A p (throw e : ExceptT ε (StateM σ) α) (throw e) Q :=
  fun hp => ⟨.error e, .error e, p, rfl, rfl, .refl hp, .error e⟩

theorem get_bind {f f' : σ → ExceptT ε (StateM σ) α}
    (h : A.Meets p.1 p.2 → Lockstep A p (f p.1) (f' p.2) Q) :
    Lockstep A p (get >>= f) (get >>= f') Q :=
  fun hp => h hp hp

theorem bind {f f' : α → ExceptT ε (StateM σ) β} {Q : β → β → σ × σ → Prop}
    (h : Lockstep A p m m' P)
    (hf : ∀ a a' q, A.Onward p q → P a a' q → Lockstep A q (f a) (f' a') Q) :
    Lockstep A p (m >>= f) (m' >>= f') Q := by
  intro hp
  obtain ⟨result, result', q, hrun, hrun', hq, hend⟩ := h hp
  cases hend with
  | error e => exact ⟨.error e, .error e, q, run_bind_error hrun f, run_bind_error hrun' f', hq, .error e⟩
  | ok hP =>
    obtain ⟨result, result', r, hnext, hnext', hr, hend⟩ := hf _ _ q hq hP hq.meets
    exact ⟨result, result', r, (run_bind_ok hrun f).trans hnext, (run_bind_ok hrun' f').trans hnext',
      hq.trans hr, hend⟩

/-- A change of the states. -/
theorem modify {f f' : σ → σ} {Q : PUnit → PUnit → σ × σ → Prop}
    (h : A.Meets p.1 p.2 → A.Onward p (f p.1, f' p.2)) (hQ : Q ⟨⟩ ⟨⟩ (f p.1, f' p.2)) :
    Lockstep A p (modify f : ExceptT ε (StateM σ) PUnit) (modify f') Q :=
  of_run (q := (f p.1, f' p.2)) rfl rfl h fun _ => hQ

/-- The same work for members that belong together. -/
theorem mapM {γ δ : Type} {f : γ → ExceptT ε (StateM σ) β} {f' : δ → ExceptT ε (StateM σ) β}
    {R : γ → δ → Prop} {K : β → β → σ × σ → Prop} {items : List γ} {items' : List δ}
    (hitems : List.Forall₂ R items items')
    (hK : ∀ {b b' q r}, A.Onward q r → K b b' q → K b b' r)
    (h : ∀ x x' q, A.Onward p q → R x x' → Lockstep A q (f x) (f' x') K) :
    Lockstep A p (items.mapM f) (items'.mapM f') fun made made' q =>
      List.Forall₂ (fun b b' => K b b' q) made made' := by
  induction hitems generalizing p with
  | nil => exact pure fun _ => .nil
  | cons hfirst _ ih =>
    rw [List.mapM_cons, List.mapM_cons]
    refine of_meets fun hp => bind (h _ _ p (.refl hp) hfirst) fun b b' q hq hb => ?_
    refine bind (ih fun x x' r hr => h x x' r (hq.trans hr)) fun made made' r hr hmade => ?_
    exact pure fun _ => .cons (hK hr hb) hmade

/-- The same work for each member. -/
theorem mapM_self {γ : Type} {f f' : γ → ExceptT ε (StateM σ) β} {K : β → β → σ × σ → Prop}
    (items : List γ) (hK : ∀ {b b' q r}, A.Onward q r → K b b' q → K b b' r)
    (h : ∀ x q, A.Onward p q → Lockstep A q (f x) (f' x) K) :
    Lockstep A p (items.mapM f) (items.mapM f') fun made made' q =>
      List.Forall₂ (fun b b' => K b b' q) made made' :=
  mapM (R := Eq) (List.forall₂_same.mpr fun _ _ => rfl) hK fun x _ q hq hx => hx ▸ h x q hq

/-- The same work for each member, some of the results being kept. -/
theorem filterMapM_self {γ : Type} {f f' : γ → ExceptT ε (StateM σ) (Option β)}
    {K : β → β → σ × σ → Prop} (items : List γ) (hK : ∀ {b b' q r}, A.Onward q r → K b b' q → K b b' r)
    (h : ∀ x q, A.Onward p q → Lockstep A q (f x) (f' x) fun b b' r => Option.Rel (K · · r) b b') :
    Lockstep A p (items.filterMapM f) (items.filterMapM f') fun made made' q =>
      List.Forall₂ (fun b b' => K b b' q) made made' := by
  induction items generalizing p with
  | nil => exact pure fun _ => .nil
  | cons x rest ih =>
    rw [List.filterMapM_cons, List.filterMapM_cons]
    refine of_meets fun hp => bind (h x p (.refl hp)) fun b b' q hq hb => ?_
    have hrest := ih (p := q) fun y r hr => h y r (hq.trans hr)
    cases hb with
    | none => exact hrest
    | some hb => exact bind hrest fun made made' r hr hmade => pure fun _ => .cons (hK hr hb) hmade

/-- Work that has its result already. -/
theorem given (x : Except ε α) :
    Lockstep A p (ExceptT.mk (Pure.pure x)) (ExceptT.mk (Pure.pure x)) fun a a' _ => a = a' := by
  intro hp
  refine ⟨x, x, p, rfl, rfl, .refl hp, ?_⟩
  cases x with
  | ok a => exact .ok rfl
  | error e => exact .error e

/-- Work for each member, of which no result is kept. -/
theorem forM {γ : Type} {f f' : γ → ExceptT ε (StateM σ) PUnit} (items : List γ)
    (h : ∀ x q, A.Onward p q → Lockstep A q (f x) (f' x) fun _ _ _ => True) :
    Lockstep A p (items.forM f) (items.forM f') fun _ _ _ => True := by
  induction items generalizing p with
  | nil => exact pure fun _ => trivial
  | cons x rest ih =>
    refine of_meets fun hp => bind (h x p (.refl hp)) fun _ _ q hq _ => ?_
    exact ih fun y r hr => h y r (hq.trans hr)

end Lockstep

end HeaderCheck
