import Mathlib.Tactic.Basic

/-! Finite runs of a deterministic step function, each step guarded by a
condition on the state it starts from. -/
namespace GuardedRun

variable {S A : Type} (step : S → A → S) (ok : S → A → Prop)

/-- Every action of the list meets `ok` in the state it is taken from. -/
def Guarded : S → List A → Prop
  | _, [] => True
  | s, a :: as => ok s a ∧ Guarded (step s a) as

instance decidableGuarded [∀ s a, Decidable (ok s a)] :
    (s : S) → (as : List A) → Decidable (Guarded step ok s as)
  | _, [] => inferInstanceAs (Decidable True)
  | s, a :: as =>
    have := decidableGuarded (step s a) as
    inferInstanceAs (Decidable (ok s a ∧ Guarded step ok (step s a) as))

theorem guarded_append (s : S) (as bs : List A) :
    Guarded step ok s (as ++ bs) ↔
      Guarded step ok s as ∧ Guarded step ok (as.foldl step s) bs := by
  induction as generalizing s with
  | nil => simp only [List.nil_append, Guarded, true_and, List.foldl_nil]
  | cons a as ih => simp only [List.cons_append, Guarded, ih, and_assoc, List.foldl_cons]

/-- What the first state has and every guarded step keeps, the last state has. -/
theorem invariant_run (Inv : S → Prop) (hstep : ∀ s a, Inv s → ok s a → Inv (step s a))
    (s : S) (as : List A) (hs : Inv s) (hg : Guarded step ok s as) :
    Inv (as.foldl step s) := by
  induction as generalizing s with
  | nil => exact hs
  | cons a as ih => exact ih (step s a) (hstep s a hs hg.1) hg.2

/-- What an invariant turns the condition of each step into. -/
theorem guarded_of_inv {ok' : S → A → Prop} (Inv : S → Prop)
    (hstep : ∀ s a, Inv s → ok s a → Inv (step s a)) (h : ∀ s a, Inv s → ok s a → ok' s a) (s : S)
    (as : List A) (hs : Inv s) (hg : Guarded step ok s as) : Guarded step ok' s as := by
  induction as generalizing s with
  | nil => trivial
  | cons a as ih => exact ⟨h s a hs hg.1, ih (step s a) (hstep s a hs hg.1) hg.2⟩

omit ok in
/-- Two conditions that agree wherever an invariant holds guard the same runs. -/
theorem guarded_congr_of_inv {ok ok' : S → A → Prop} (Inv : S → Prop)
    (hstep : ∀ s a, Inv s → Inv (step s a)) (h : ∀ s a, Inv s → (ok s a ↔ ok' s a)) (s : S)
    (as : List A) (hs : Inv s) : Guarded step ok s as ↔ Guarded step ok' s as := by
  induction as generalizing s with
  | nil => rfl
  | cons a as ih => exact and_congr (h s a hs) (ih (step s a) (hstep s a hs))

omit ok in
theorem guarded_congr {ok ok' : S → A → Prop} (h : ∀ s a, ok s a ↔ ok' s a) (s : S)
    (as : List A) : Guarded step ok s as ↔ Guarded step ok' s as :=
  guarded_congr_of_inv step (fun _ => True) (fun _ _ => id) (fun s a _ => h s a) s as trivial

/-- Two conditions that agree wherever an invariant holds guard the same of the runs that
`ok` guards, if each step that meets the second one keeps the invariant. -/
theorem guarded_congr_of_kept {ok₁ ok₂ : S → A → Prop} (Inv : S → Prop)
    (hstep : ∀ s a, Inv s → ok s a → ok₂ s a → Inv (step s a))
    (h : ∀ s a, Inv s → ok s a → (ok₁ s a ↔ ok₂ s a)) (s : S) (as : List A) (hs : Inv s)
    (hg : Guarded step ok s as) : Guarded step ok₁ s as ↔ Guarded step ok₂ s as := by
  induction as generalizing s with
  | nil => rfl
  | cons a as ih =>
    rw [Guarded, Guarded, h s a hs hg.1]
    exact and_congr_right fun hok => ih (step s a) (hstep s a hs hg.1 hok) hg.2

/-- A computable test of every step. -/
def checked (check : S → A → Bool) : S → List A → Bool
  | _, [] => true
  | s, a :: as => check s a && checked check (step s a) as

theorem guarded_of_checked (check : S → A → Bool) (hcheck : ∀ s a, check s a = true → ok s a)
    (s : S) (as : List A) (h : checked step check s as = true) : Guarded step ok s as := by
  induction as generalizing s with
  | nil => trivial
  | cons a as ih =>
    rw [checked, Bool.and_eq_true] at h
    exact ⟨hcheck s a h.1, ih (step s a) h.2⟩

end GuardedRun
