import HeaderCheck.Project.Session
import Mathlib.Data.List.Defs
import Mathlib.Order.Defs.Unbundled

/-!
# HeaderCheck.Proofs.Run

Run equations of work that may fail and keeps its state. Proofs about such work use these and never
the make-up of the monad: what follows another piece of work starts from the state it leaves, and
does not start after a failure.

* `Safe R E s m Q`: from `s` the work `m` leads to a state related to `s` by `R`, with a result for
  which `Q` holds or with an error for which `E` holds. One rule for each way to put work together.
-/

namespace HeaderCheck

variable {ε σ α β : Type}

@[simp] theorem run_pure (a : α) (s : σ) :
    (pure a : ExceptT ε (StateM σ) α).run s = (.ok a, s) := rfl

theorem run_bind (m : ExceptT ε (StateM σ) α) (f : α → ExceptT ε (StateM σ) β) (s : σ) :
    (m >>= f).run s =
      match m.run s with
      | (.ok a, after) => (f a).run after
      | (.error e, after) => (.error e, after) := by
  rcases h : m.run s with ⟨_ | _, after⟩ <;>
    · simp only [ExceptT.run] at h
      simp only [ExceptT.run, bind, ExceptT.bind, ExceptT.mk, StateT.bind, h]
      rfl

theorem run_bind_ok {m : ExceptT ε (StateM σ) α} {s after : σ} {a : α}
    (h : m.run s = (.ok a, after)) (f : α → ExceptT ε (StateM σ) β) :
    (m >>= f).run s = (f a).run after := by
  rw [run_bind, h]

theorem run_bind_error {m : ExceptT ε (StateM σ) α} {s after : σ} {e : ε}
    (h : m.run s = (.error e, after)) (f : α → ExceptT ε (StateM σ) β) :
    (m >>= f).run s = (.error e, after) := by
  rw [run_bind, h]

/-- Work that ends well is put together of work that ends well. -/
theorem ok_of_run_bind {m : ExceptT ε (StateM σ) α} {f : α → ExceptT ε (StateM σ) β} {s s' : σ}
    {b : β} (h : (m >>= f).run s = (.ok b, s')) :
    ∃ a after, m.run s = (.ok a, after) ∧ (f a).run after = (.ok b, s') := by
  rcases hrun : m.run s with ⟨e | a, after⟩
  · rw [run_bind_error hrun] at h
    cases h
  · rw [run_bind_ok hrun] at h
    exact ⟨a, after, rfl, h⟩

/-- Work that fails does so in its first part or in what follows it. -/
theorem error_of_run_bind {m : ExceptT ε (StateM σ) α} {f : α → ExceptT ε (StateM σ) β} {s : σ}
    {e : ε} (h : ((m >>= f).run s).1 = .error e) :
    (m.run s).1 = .error e ∨
      ∃ a after, m.run s = (.ok a, after) ∧ ((f a).run after).1 = .error e := by
  rcases hrun : m.run s with ⟨e' | a, after⟩
  · rw [run_bind_error hrun] at h
    cases h
    exact .inl rfl
  · rw [run_bind_ok hrun] at h
    exact .inr ⟨a, after, rfl, h⟩

@[simp] theorem run_get_bind (f : σ → ExceptT ε (StateM σ) β) (s : σ) :
    (get >>= f).run s = (f s).run s := rfl

theorem run_modify (f : σ → σ) (s : σ) :
    (modify f : ExceptT ε (StateM σ) PUnit).run s = (.ok (), f s) := rfl

/-! ## Lists of steps that leave the state as it is -/

theorem ok_of_run_mapM {f : α → Except ε β} {items : List α} {results : List β} {s s' : σ}
    (h : (items.mapM fun x => (ExceptT.mk (pure (f x)) : ExceptT ε (StateM σ) β)).run s =
      (.ok results, s')) :
    s' = s ∧ List.Forall₂ (fun x result => f x = .ok result) items results := by
  induction items generalizing results with
  | nil =>
    cases h
    exact ⟨rfl, .nil⟩
  | cons x rest ih =>
    rw [List.mapM_cons] at h
    obtain ⟨first, s₁, hfirst, h⟩ := ok_of_run_bind h
    obtain ⟨others, s₂, hothers, h⟩ := ok_of_run_bind h
    cases h
    obtain ⟨hx, rfl⟩ : f x = .ok first ∧ s = s₁ := Prod.mk.inj hfirst
    obtain ⟨hs, hall⟩ := ih hothers
    exact ⟨hs, .cons hx hall⟩

theorem ok_of_run_forM {f : α → Except ε PUnit} {items : List α} {s s' : σ}
    (h : (items.forM fun x => (ExceptT.mk (pure (f x)) : ExceptT ε (StateM σ) PUnit)).run s =
      (.ok ⟨⟩, s')) :
    s' = s ∧ ∀ x ∈ items, f x = .ok ⟨⟩ := by
  induction items with
  | nil =>
    cases h
    exact ⟨rfl, by simp⟩
  | cons x rest ih =>
    obtain ⟨_, s₁, hfirst, h⟩ := ok_of_run_bind h
    obtain ⟨hx, rfl⟩ : f x = .ok _ ∧ s = s₁ := Prod.mk.inj hfirst
    obtain ⟨hs, hall⟩ := ih h
    exact ⟨hs, List.forall_mem_cons.mpr ⟨hx, hall⟩⟩

/-! ## Safe work -/

structure Safe (R : σ → σ → Prop) (E : ε → Prop) (s : σ) (m : ExceptT ε (StateM σ) α)
    (Q : α → σ → Prop) : Prop where
  keeps : R s (m.run s).2
  result : ∀ a, (m.run s).1 = .ok a → Q a (m.run s).2
  failure : ∀ e, (m.run s).1 = .error e → E e

namespace Safe

variable {R : σ → σ → Prop} {E : ε → Prop} {s : σ} {m : ExceptT ε (StateM σ) α}
  {P Q : α → σ → Prop}

/-- Work whose run is known. -/
theorem of_ok {a : α} {s' : σ} (hrun : m.run s = (.ok a, s')) (hR : R s s') (hQ : Q a s') :
    Safe R E s m Q := by
  refine ⟨?_, ?_, ?_⟩
  · rw [hrun]
    exact hR
  · rintro b hb
    rw [hrun] at hb ⊢
    cases hb
    exact hQ
  · rintro e he
    rw [hrun] at he
    cases he

theorem of_error {e : ε} {s' : σ} (hrun : m.run s = (.error e, s')) (hR : R s s') (hE : E e) :
    Safe R E s m Q := by
  refine ⟨?_, ?_, ?_⟩
  · rw [hrun]
    exact hR
  · rintro b hb
    rw [hrun] at hb
    cases hb
  · rintro e' he
    rw [hrun] at he
    cases he
    exact hE

theorem mono (h : Safe R E s m P) (hPQ : ∀ a s', R s s' → P a s' → Q a s') : Safe R E s m Q :=
  ⟨h.keeps, fun a ha => hPQ a _ h.keeps (h.result a ha), h.failure⟩

theorem weaken {R' : σ → σ → Prop} {E' : ε → Prop} (h : Safe R E s m P)
    (hR : ∀ s', R s s' → R' s s') (hE : ∀ e, E e → E' e) : Safe R' E' s m P :=
  ⟨hR _ h.keeps, h.result, fun e he => hE e (h.failure e he)⟩

theorem ignore (h : Safe R E s m P) : Safe R E s m fun _ _ => True :=
  h.mono fun _ _ _ _ => trivial

theorem get_bind {f : σ → ExceptT ε (StateM σ) α} (h : Safe R E s (f s) Q) :
    Safe R E s (get >>= f) Q :=
  ⟨h.keeps, h.result, h.failure⟩

theorem bind [IsTrans σ R] {f : α → ExceptT ε (StateM σ) β} {Q : β → σ → Prop}
    (h : Safe R E s m P) (hf : ∀ a s', R s s' → P a s' → Safe R E s' (f a) Q) :
    Safe R E s (m >>= f) Q := by
  rcases hrun : m.run s with ⟨e | a, s'⟩
  · have hE := h.failure e (by rw [hrun])
    have hR := h.keeps
    rw [hrun] at hR
    exact of_error (run_bind_error hrun f) hR hE
  · have hP := h.result a (by rw [hrun])
    have hR := h.keeps
    rw [hrun] at hR hP
    obtain ⟨hR', hQ, hE⟩ := hf a s' hR hP
    rw [← run_bind_ok hrun f] at hR' hQ hE
    exact ⟨IsTrans.trans _ _ _ hR hR', hQ, hE⟩

theorem pure [Std.Refl R] {a : α} (hQ : Q a s) : Safe R E s (pure a) Q :=
  of_ok rfl (Std.Refl.refl s) hQ

theorem throw [Std.Refl R] {e : ε} (hE : E e) : Safe R E s (throw e) Q :=
  of_error rfl (Std.Refl.refl s) hE

theorem modify {f : σ → σ} {Q : Unit → σ → Prop} (hR : R s (f s)) (hQ : Q () (f s)) :
    Safe R E s (modify f) Q :=
  of_ok rfl hR hQ

theorem modifyGet {f : σ → α × σ} (hR : R s (f s).2) (hQ : Q (f s).1 (f s).2) :
    Safe R E s (modifyGet f) Q :=
  of_ok rfl hR hQ

/-- The same work for each member of a list. -/
theorem mapM [Std.Refl R] [IsTrans σ R] {γ : Type} {f : γ → ExceptT ε (StateM σ) β} {l : List γ}
    (h : ∀ x ∈ l, ∀ s', R s s' → Safe R E s' (f x) fun _ _ => True) :
    Safe R E s (l.mapM f) fun _ _ => True := by
  induction l generalizing s with
  | nil => exact pure trivial
  | cons x rest ih =>
    rw [List.mapM_cons]
    refine bind (h x List.mem_cons_self s (Std.Refl.refl s)) fun _ s₁ hR _ => ?_
    refine bind (ih fun y hy s' hR' => ?_) fun _ _ _ _ => pure trivial
    exact h y (List.mem_cons_of_mem _ hy) s' (IsTrans.trans _ _ _ hR hR')

theorem forM [Std.Refl R] [IsTrans σ R] {γ : Type} {f : γ → ExceptT ε (StateM σ) PUnit} {l : List γ}
    (h : ∀ x ∈ l, ∀ s', R s s' → Safe R E s' (f x) fun _ _ => True) :
    Safe R E s (l.forM f) fun _ _ => True := by
  induction l generalizing s with
  | nil => exact pure trivial
  | cons x rest ih =>
    refine bind (h x List.mem_cons_self s (Std.Refl.refl s)) fun _ s₁ hR _ => ih fun y hy s' hR' => ?_
    exact h y (List.mem_cons_of_mem _ hy) s' (IsTrans.trans _ _ _ hR hR')

/-- The same for each member, where `P` relates the member to what is kept of it. -/
theorem filterMapM [Std.Refl R] [IsTrans σ R] {γ : Type} {f : γ → ExceptT ε (StateM σ) (Option β)}
    {P : γ → Option β → Prop} {l : List γ}
    (h : ∀ x ∈ l, ∀ s', R s s' → Safe R E s' (f x) fun kept _ => P x kept) :
    Safe R E s (l.filterMapM f) fun result _ =>
      ∃ kept, List.Forall₂ P l kept ∧ result = kept.filterMap id := by
  induction l generalizing s with
  | nil => exact pure ⟨[], .nil, rfl⟩
  | cons x rest ih =>
    rw [List.filterMapM_cons]
    refine bind (h x List.mem_cons_self s (Std.Refl.refl s)) fun first s₁ hR hfirst => ?_
    have hrest : Safe R E s₁ (rest.filterMapM f) fun result _ =>
        ∃ kept, List.Forall₂ P rest kept ∧ result = kept.filterMap id :=
      ih fun y hy s' hR' => h y (List.mem_cons_of_mem _ hy) s' (IsTrans.trans _ _ _ hR hR')
    cases first with
    | none =>
      refine hrest.mono fun result _ _ ⟨kept, hkept, hresult⟩ => ?_
      exact ⟨none :: kept, .cons hfirst hkept, hresult⟩
    | some b =>
      refine bind hrest fun result _ _ ⟨kept, hkept, hresult⟩ => pure ?_
      exact ⟨some b :: kept, .cons hfirst hkept, congrArg (b :: ·) hresult⟩

end Safe

end HeaderCheck
