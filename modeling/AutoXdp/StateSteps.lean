import Mathlib.Order.Defs.Unbundled
import Mathlib.Tactic.Basic

/-! Programs that read and write one state: what every run relates, the state
before and the state after. -/
namespace StateSteps

variable {σ α β ι : Type}

@[simp] theorem run_pure (a : α) (s : σ) : (pure a : StateM σ α) s = (a, s) := rfl

@[simp] theorem run_bind (m : StateM σ α) (f : α → StateM σ β) (s : σ) :
    (m >>= f) s = f (m s).1 (m s).2 := rfl

@[simp] theorem run_modify (f : σ → σ) (s : σ) : (modify f : StateM σ PUnit) s = (⟨⟩, f s) := rfl

@[simp] theorem run_get_bind (f : σ → StateM σ α) (s : σ) : (get >>= f) s = f s s := rfl

@[simp] theorem run_ite (c : Prop) [Decidable c] (m n : StateM σ α) (s : σ) :
    (if c then m else n) s = if c then m s else n s := by
  split <;> rfl

/-- Every run of `m` relates its first state to its last. -/
def Steps (R : σ → σ → Prop) (m : StateM σ α) : Prop := ∀ s, R s (m s).2

section Steps

variable {R S T : σ → σ → Prop}

theorem steps_mono (m : StateM σ α) (hm : Steps R m) (h : ∀ s t, R s t → S s t) : Steps S m := by
  intro s
  exact h s _ (hm s)

/-- Two programs in a row relate what the two relations compose to. -/
theorem steps_seq (m : StateM σ α) (f : α → StateM σ β) (hm : Steps R m)
    (hf : ∀ a, Steps S (f a)) (h : ∀ s t u, R s t → S t u → T s u) : Steps T (m >>= f) := by
  intro s
  exact h s _ _ (hm s) (hf (m s).1 (m s).2)

theorem steps_get_all (f : σ → StateM σ α) (hf : ∀ s, Steps R (f s)) : Steps R (get >>= f) :=
  fun s => hf s s

theorem steps_discard (m : StateM σ α) (hm : Steps R m) : Steps R (discard m) := hm

theorem steps_ite (c : Prop) [Decidable c] (m n : StateM σ α) (hm : c → Steps R m)
    (hn : ¬c → Steps R n) : Steps R (if c then m else n) := by
  by_cases hc : c
  · rw [if_pos hc]
    exact hm hc
  · rw [if_neg hc]
    exact hn hc

/-- A loop relates what its body relates one element at a time. -/
theorem steps_forM_cons {P : List ι → σ → σ → Prop} {Q : ι → σ → σ → Prop}
    (f : ι → StateM σ PUnit) (hf : ∀ x, Steps (Q x) (f x)) (hnil : ∀ s, P [] s s)
    (hcons : ∀ x xs s t u, Q x s t → P xs t u → P (x :: xs) s u) (xs : List ι) :
    Steps (P xs) (List.forM xs f) := by
  induction xs with
  | nil => exact hnil
  | cons x xs ih => exact steps_seq (f x) _ (hf x) (fun _ => ih) (hcons x xs)

variable [IsPreorder σ R]

theorem steps_pure (a : α) : Steps R (pure a : StateM σ α) := by
  intro s
  exact refl_of R s

theorem steps_bind (m : StateM σ α) (f : α → StateM σ β) (hm : Steps R m)
    (hf : ∀ a, Steps R (f a)) : Steps R (m >>= f) :=
  steps_seq m f hm hf fun _ _ _ => trans_of R

theorem steps_forM (xs : List ι) (f : ι → StateM σ PUnit) (hf : ∀ x ∈ xs, Steps R (f x)) :
    Steps R (List.forM xs f) := by
  induction xs with
  | nil => exact steps_pure _
  | cons x xs ih =>
    have hx := hf x (List.mem_cons_self ..)
    have hxs := ih fun y hy => hf y (List.mem_cons_of_mem x hy)
    exact steps_bind (f x) _ hx fun _ => hxs

theorem steps_foldlM (xs : List ι) (f : α → ι → StateM σ α) (a : α)
    (hf : ∀ a, ∀ x ∈ xs, Steps R (f a x)) : Steps R (xs.foldlM f a) := by
  induction xs generalizing a with
  | nil => exact steps_pure _
  | cons x xs ih =>
    rw [List.foldlM_cons]
    have hx := hf a x (List.mem_cons_self ..)
    apply steps_bind (f a x) _ hx
    intro b
    exact ih b fun a y hy => hf a y (List.mem_cons_of_mem x hy)

end Steps

end StateSteps
