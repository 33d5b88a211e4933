import Mathlib.Data.List.Basic
import Mathlib.Tactic.Basic

/-! A stream cut at a delimiter: its complete lines and what is left behind the last one. -/
namespace DelimitedLines
variable {α : Type*} [DecidableEq α] (d : α)

def split : List α → List (List α) × List α
  | [] => ([], [])
  | b :: bs =>
    if b = d then ([] :: (split bs).1, (split bs).2)
    else match (split bs).1 with
      | [] => ([], b :: (split bs).2)
      | l :: ls => ((b :: l) :: ls, (split bs).2)

/-- The complete lines, without their delimiters. -/
def lines (xs : List α) : List (List α) := (split d xs).1

/-- What stands behind the last delimiter. -/
def tail (xs : List α) : List α := (split d xs).2

@[simp] theorem lines_nil : lines d [] = [] := rfl

@[simp] theorem tail_nil : tail d [] = [] := rfl

theorem split_of_notMem (xs : List α) (h : d ∉ xs) : split d xs = ([], xs) := by
  induction xs with
  | nil => rfl
  | cons b bs ih =>
    have hb : b ≠ d := fun hb => h (hb ▸ List.mem_cons_self)
    have hbs := ih fun hm => h (List.mem_cons_of_mem b hm)
    simp only [split, if_neg hb, hbs]

theorem split_line (l rest : List α) (h : d ∉ l) :
    split d (l ++ d :: rest) = (l :: lines d rest, tail d rest) := by
  induction l with
  | nil =>
    rw [List.nil_append, split, if_pos rfl]
    rfl
  | cons b bs ih =>
    have hb : b ≠ d := fun hb => h (hb ▸ List.mem_cons_self)
    have hbs := ih fun hm => h (List.mem_cons_of_mem b hm)
    rw [List.cons_append, split, if_neg hb, hbs]

theorem lines_line (l rest : List α) (h : d ∉ l) :
    lines d (l ++ d :: rest) = l :: lines d rest := congrArg Prod.fst (split_line d l rest h)

theorem tail_line (l rest : List α) (h : d ∉ l) : tail d (l ++ d :: rest) = tail d rest := by
  rw [tail, split_line d l rest h]

theorem notMem_tail (xs : List α) : d ∉ tail d xs := by
  induction xs with
  | nil => exact List.not_mem_nil
  | cons b bs ih =>
    simp only [tail, split] at ih ⊢
    by_cases hb : b = d
    · rw [if_pos hb]
      exact ih
    · rw [if_neg hb]
      cases (split d bs).1 with
      | nil => exact List.not_mem_cons_of_ne_of_not_mem (Ne.symm hb) ih
      | cons l ls => exact ih

/-- More of the stream completes the line that was left open. -/
theorem split_append (xs ys : List α) :
    split d (xs ++ ys) = (lines d xs ++ lines d (tail d xs ++ ys), tail d (tail d xs ++ ys)) := by
  induction xs with
  | nil => rfl
  | cons b bs ih =>
    by_cases hb : b = d
    · subst hb
      simp only [List.cons_append, lines, tail, split, ih, if_true]
    · simp only [List.cons_append, split, if_neg hb, ih]
      cases hs : (split d bs).1 with
      | nil =>
        simp only [lines, tail, split, if_neg hb, hs, List.nil_append, List.cons_append]
      | cons l ls => simp only [lines, tail, split, if_neg hb, hs, List.cons_append]

theorem lines_append (xs ys : List α) :
    lines d (xs ++ ys) = lines d xs ++ lines d (tail d xs ++ ys) :=
  congrArg Prod.fst (split_append d xs ys)

theorem tail_append (xs ys : List α) : tail d (xs ++ ys) = tail d (tail d xs ++ ys) := by
  rw [tail, split_append]

end DelimitedLines
