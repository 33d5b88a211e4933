import Mathlib.Data.List.Induction
import Mathlib.Logic.Function.Basic
import Mathlib.Order.Lattice
import Mathlib.Tactic.Basic

/-! A record whose words are written one at a time, and of which a write that leaves all
its key words empty clears every word. -/
namespace ClearingWrites

variable {ι α : Type} [DecidableEq ι] [DecidableEq α] (empty : α) (keys : List ι)

/-- The key words are empty. -/
def Blank (w : ι → α) : Prop := ∀ j ∈ keys, w j = empty

instance decidableBlank (w : ι → α) : Decidable (Blank empty keys w) :=
  inferInstanceAs (Decidable (∀ j ∈ keys, w j = empty))

/-- A write of one word, or none. -/
def put (w : ι → α) (x : ι × Option α) : ι → α :=
  match x.2 with
  | none => w
  | some v =>
    if Blank empty keys (Function.update w x.1 v) then fun _ => empty else Function.update w x.1 v

def run (w : ι → α) (xs : List (ι × Option α)) : ι → α := xs.foldl (put empty keys) w

/-- The same write without the clearing. -/
def plainPut (w : ι → α) (x : ι × Option α) : ι → α :=
  match x.2 with
  | none => w
  | some v => Function.update w x.1 v

def plainRun (w : ι → α) (xs : List (ι × Option α)) : ι → α := xs.foldl plainPut w

omit [DecidableEq α] in
theorem plainRun_snoc (w : ι → α) (xs : List (ι × Option α)) (x : ι × Option α) :
    plainRun w (xs ++ [x]) = plainPut (plainRun w xs) x := by
  simp only [plainRun, List.foldl_append, List.foldl_cons, List.foldl_nil]

theorem run_snoc (w : ι → α) (xs : List (ι × Option α)) (x : ι × Option α) :
    run empty keys w (xs ++ [x]) = put empty keys (run empty keys w xs) x := by
  simp only [run, List.foldl_append, List.foldl_cons, List.foldl_nil]

omit [DecidableEq α] in
/-- A word that is not written stays. -/
theorem plainRun_other (w : ι → α) (xs : List (ι × Option α)) (i : ι)
    (h : ∀ x ∈ xs, x.1 = i → x.2 = none) : plainRun w xs i = w i := by
  induction xs generalizing w with
  | nil => rfl
  | cons x xs ih =>
    have hrest := ih (plainPut w x) fun y hy => h y (List.mem_cons_of_mem x hy)
    have hfirst : plainPut w x i = w i := by
      unfold plainPut
      cases hx : x.2 with
      | none => rfl
      | some v =>
        apply Function.update_of_ne
        intro hi
        rw [h x (List.mem_cons_self ..) hi.symm] at hx
        exact absurd hx.symm (Option.some_ne_none v)
    exact hrest.trans hfirst

omit [DecidableEq α] in
/-- A word that is written once holds what was written. -/
theorem plainRun_written (w : ι → α) {xs : List (ι × Option α)} (hnodup : (xs.map Prod.fst).Nodup)
    {i : ι} {v : α} (h : (i, some v) ∈ xs) : plainRun w xs i = v := by
  obtain ⟨pre, post, rfl⟩ := List.append_of_mem h
  have hpost : ∀ y ∈ post, y.1 = i → y.2 = none := by
    intro y hy hi
    rw [List.map_append, List.map_cons, List.nodup_append, List.nodup_cons] at hnodup
    exact absurd (List.mem_map.mpr ⟨y, hy, hi⟩) hnodup.2.1.1
  calc plainRun w (pre ++ (i, some v) :: post) i
      = plainRun (plainPut (plainRun w pre) (i, some v)) post i := by
        unfold plainRun
        rw [List.foldl_append, List.foldl_cons]
    _ = plainPut (plainRun w pre) (i, some v) i := plainRun_other _ post i hpost
    _ = v := Function.update_self ..

section Keys

variable {keys}

theorem put_key {j : ι} (hj : j ∈ keys) (w : ι → α) (x : ι × Option α) :
    put empty keys w x j = plainPut w x j := by
  unfold put plainPut
  cases x.2 with
  | none => rfl
  | some v =>
    by_cases hblank : Blank empty keys (Function.update w x.1 v)
    · simp only [if_pos hblank]
      exact (hblank j hj).symm
    · simp only [if_neg hblank]

omit [DecidableEq α] in
theorem plainPut_congr {w w' : ι → α} (h : ∀ j ∈ keys, w j = w' j) (x : ι × Option α) {j : ι}
    (hj : j ∈ keys) : plainPut w x j = plainPut w' x j := by
  unfold plainPut
  cases x.2 with
  | none => exact h j hj
  | some v =>
    simp only [Function.update_apply]
    split_ifs
    · rfl
    · exact h j hj

/-- The clearing does not show in the key words. -/
theorem run_key (w : ι → α) (xs : List (ι × Option α)) {j : ι} (hj : j ∈ keys) :
    run empty keys w xs j = plainRun w xs j := by
  induction xs using List.reverseRecOn generalizing j with
  | nil => rfl
  | append_singleton xs x ih =>
    rw [run_snoc, plainRun_snoc, put_key empty hj]
    exact plainPut_congr (fun k hk => ih hk) x hj

end Keys

/-- The last write of the word, if any, comes before a write that clears. -/
def Lost (w : ι → α) (xs : List (ι × Option α)) (i : ι) : Prop :=
  ∃ pre x post, xs = pre ++ x :: post ∧ x.2.isSome = true ∧
    Blank empty keys (plainRun w (pre ++ [x])) ∧ ∀ y ∈ post, y.1 = i → y.2 = none

omit [DecidableEq α] in
theorem lost_snoc (w : ι → α) (xs : List (ι × Option α)) (x : ι × Option α) (i : ι) :
    Lost empty keys w (xs ++ [x]) i ↔
      (x.2.isSome = true ∧ Blank empty keys (plainRun w (xs ++ [x]))) ∨
        (Lost empty keys w xs i ∧ (x.1 = i → x.2 = none)) := by
  constructor
  · rintro ⟨pre, y, post, hsplit, hy, hblank, hpost⟩
    obtain rfl | ⟨post', z, rfl⟩ := List.eq_nil_or_concat post
    · obtain ⟨rfl, hxy⟩ := List.append_inj' hsplit rfl
      obtain rfl := List.singleton_inj.mp hxy
      exact Or.inl ⟨hy, hblank⟩
    · have hassoc : xs ++ [x] = (pre ++ y :: post') ++ [z] := by
        rw [hsplit, List.concat_eq_append, List.append_assoc, List.cons_append]
      obtain ⟨rfl, hxz⟩ := List.append_inj' hassoc rfl
      obtain rfl := List.singleton_inj.mp hxz
      rw [List.concat_eq_append] at hpost
      refine Or.inr ⟨⟨pre, y, post', rfl, hy, hblank, ?_⟩, ?_⟩
      · exact fun u hu => hpost u (List.mem_append_left _ hu)
      · exact hpost x (List.mem_append_right _ (List.mem_singleton_self x))
  · rintro (⟨hx, hblank⟩ | ⟨⟨pre, y, post, rfl, hy, hblank, hpost⟩, hx⟩)
    · exact ⟨xs, x, [], rfl, hx, hblank, fun y hy => absurd hy List.not_mem_nil⟩
    · refine ⟨pre, y, post ++ [x], by rw [List.append_assoc, List.cons_append], hy, hblank, ?_⟩
      intro u hu
      obtain hu | hu := List.mem_append.mp hu
      · exact hpost u hu
      · obtain rfl := List.mem_singleton.mp hu
        exact hx

/-- A word is as written, or empty when it is lost. -/
theorem run_word (w : ι → α) (xs : List (ι × Option α)) (i : ι) :
    (Lost empty keys w xs i → run empty keys w xs i = empty) ∧
      (¬Lost empty keys w xs i → run empty keys w xs i = plainRun w xs i) := by
  induction xs using List.reverseRecOn with
  | nil =>
    constructor
    · rintro ⟨pre, x, post, hsplit, -⟩
      exact absurd hsplit.symm (List.append_ne_nil_of_right_ne_nil pre (List.cons_ne_nil x post))
    · exact fun _ => rfl
  | append_singleton xs x ih =>
    rw [lost_snoc, run_snoc, plainRun_snoc]
    cases hx : x.2 with
    | none =>
      have hput : put empty keys (run empty keys w xs) x = run empty keys w xs := by
        simp only [put, hx]
      have hplain : plainPut (plainRun w xs) x = plainRun w xs := by simp only [plainPut, hx]
      rw [hput, hplain]
      simp only [Option.isSome_none, Bool.false_eq_true, false_and, false_or, implies_true, and_true]
      exact ih
    | some v =>
      have hput : put empty keys (run empty keys w xs) x =
          if Blank empty keys (plainPut (run empty keys w xs) x) then fun _ => empty
          else plainPut (run empty keys w xs) x := by
        simp only [put, plainPut, hx]
      have hplain : plainPut (plainRun w xs) x = Function.update (plainRun w xs) x.1 v := by
        simp only [plainPut, hx]
      have hclears : Blank empty keys (plainPut (run empty keys w xs) x) ↔
          Blank empty keys (plainPut (plainRun w xs) x) :=
        forall₂_congr fun j hj => by
          rw [plainPut_congr (fun k hk => run_key empty w xs hk) x hj]
      simp only [Option.isSome_some, true_and, reduceCtorEq, imp_false]
      rw [hput]
      by_cases hblank : Blank empty keys (plainPut (plainRun w xs) x)
      · rw [if_pos (hclears.mpr hblank)]
        exact ⟨fun _ => rfl, fun h => absurd (Or.inl hblank) h⟩
      · rw [if_neg (hclears.not.mpr hblank)]
        simp only [hblank, false_or]
        have hword : plainPut (run empty keys w xs) x i =
            if i = x.1 then v else run empty keys w xs i := by
          simp only [plainPut, hx, Function.update_apply]
        rw [hword, hplain, Function.update_apply]
        by_cases hi : i = x.1
        · rw [if_pos hi, if_pos hi]
          exact ⟨fun h => absurd hi.symm h.2, fun _ => rfl⟩
        · rw [if_neg hi, if_neg hi]
          have hne : ¬x.1 = i := fun h => hi h.symm
          exact ⟨fun h => ih.1 h.1, fun h => ih.2 fun hlost => h ⟨hlost, hne⟩⟩

theorem run_eq_plain_iff (w : ι → α) (xs : List (ι × Option α)) (i : ι) :
    run empty keys w xs i = plainRun w xs i ↔
      plainRun w xs i = empty ∨ ¬Lost empty keys w xs i := by
  obtain ⟨hlost, hkept⟩ := run_word empty keys w xs i
  by_cases h : Lost empty keys w xs i
  · rw [hlost h]
    simp only [h, not_true_eq_false, or_false]
    exact eq_comm
  · simp only [hkept h, h, not_false_eq_true, or_true]

/-! Words written in ascending order. -/

section Ascending

variable [LinearOrder ι] {w : ι → α} {xs : List (ι × Option α)}

omit [DecidableEq α] in
/-- A word below the point reached holds its last value already, the others their first. -/
theorem plainRun_upTo (hsorted : (xs.map Prod.fst).Pairwise (· < ·)) {x : ι × Option α}
    {pre post : List (ι × Option α)} (hsplit : xs = pre ++ x :: post) (j : ι) :
    plainRun w (pre ++ [x]) j = if j ≤ x.1 then plainRun w xs j else w j := by
  subst hsplit
  rw [List.map_append, List.map_cons, List.pairwise_append, List.pairwise_cons] at hsorted
  obtain ⟨-, ⟨hpost, -⟩, hpre⟩ := hsorted
  by_cases hj : j ≤ x.1
  · have hsplit : plainRun w (pre ++ x :: post) = plainRun (plainRun w (pre ++ [x])) post := by
      simp only [plainRun, List.foldl_append, List.foldl_cons, List.foldl_nil]
    have hother : ∀ y ∈ post, y.1 = j → y.2 = none := by
      intro y hy hi
      have hlt := hpost y.1 (List.mem_map_of_mem hy)
      exact absurd (hi ▸ hj) (not_le.mpr hlt)
    rw [if_pos hj, hsplit, plainRun_other _ post j hother]
  · rw [if_neg hj]
    apply plainRun_other
    intro y hy hi
    have hle : y.1 ≤ x.1 := by
      obtain hy | hy := List.mem_append.mp hy
      · exact (hpre y.1 (List.mem_map_of_mem hy) x.1 (List.mem_cons_self ..)).le
      · rw [List.mem_singleton.mp hy]
    exact absurd (hi ▸ hle) hj

omit [DecidableEq α] in
theorem lost_iff (hsorted : (xs.map Prod.fst).Pairwise (· < ·)) (i : ι) :
    Lost empty keys w xs i ↔ ∃ x ∈ xs, x.2.isSome = true ∧
      (∀ j ∈ keys, (if j ≤ x.1 then plainRun w xs j else w j) = empty) ∧
      ∀ y ∈ xs, y.1 = i → x.1 < y.1 → y.2 = none := by
  have hrest {pre post : List (ι × Option α)} {x : ι × Option α} (hsplit : xs = pre ++ x :: post) :
      ∀ y, y ∈ post ↔ y ∈ xs ∧ x.1 < y.1 := by
    subst hsplit
    rw [List.map_append, List.map_cons, List.pairwise_append, List.pairwise_cons] at hsorted
    obtain ⟨-, ⟨hpost, -⟩, hpre⟩ := hsorted
    intro y
    constructor
    · intro hy
      exact ⟨List.mem_append_right _ (List.mem_cons_of_mem x hy),
        hpost y.1 (List.mem_map_of_mem hy)⟩
    · rintro ⟨hy, hlt⟩
      obtain hy | hy := List.mem_append.mp hy
      · have hgt := hpre y.1 (List.mem_map_of_mem hy) x.1 (List.mem_cons_self ..)
        exact absurd hlt (lt_asymm hgt)
      · obtain rfl | hy := List.mem_cons.mp hy
        · exact absurd hlt (lt_irrefl _)
        · exact hy
  constructor
  · rintro ⟨pre, x, post, hsplit, hx, hblank, hpost⟩
    refine ⟨x, hsplit ▸ List.mem_append_right _ (List.mem_cons_self ..), hx, ?_, ?_⟩
    · intro j hj
      rw [← plainRun_upTo hsorted hsplit]
      exact hblank j hj
    · exact fun y hy hi hlt => hpost y ((hrest hsplit y).mpr ⟨hy, hlt⟩) hi
  · rintro ⟨x, hmem, hx, hblank, hpost⟩
    obtain ⟨pre, post, hsplit⟩ := List.append_of_mem hmem
    refine ⟨pre, x, post, hsplit, hx, ?_, ?_⟩
    · intro j hj
      rw [plainRun_upTo hsorted hsplit]
      exact hblank j hj
    · intro y hy hi
      obtain ⟨hyxs, hlt⟩ := (hrest hsplit y).mp hy
      exact hpost y hyxs hi hlt

end Ascending

end ClearingWrites
