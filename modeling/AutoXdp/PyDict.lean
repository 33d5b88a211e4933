import Mathlib.Data.List.Nodup
import Mathlib.Logic.Function.Basic
import Mathlib.Tactic.Basic

/-! Dictionaries of Python as lists of their items, in the order of insertion. -/
namespace PyDict

variable {κ ν : Type} [DecidableEq κ]

/-- `d[k] = v`: the item keeps its place, a new one goes to the end. -/
def set (k : κ) (v : ν) : List (κ × ν) → List (κ × ν)
  | [] => [(k, v)]
  | e :: es => if e.1 = k then (k, v) :: es else e :: set k v es

/-- `d.pop(k, None)`. -/
def pop (k : κ) (es : List (κ × ν)) : List (κ × ν) := es.filter fun e => e.1 ≠ k

theorem lookup_cons_ne {k k' : κ} (h : k' ≠ k) (v : ν) (es : List (κ × ν)) :
    ((k, v) :: es).lookup k' = es.lookup k' := by
  have hne : (k' == k) = false := beq_false_of_ne h
  rw [List.lookup_cons, hne]

theorem lookup_map {ν' : Type} (f : ν → ν') (k : κ) (es : List (κ × ν)) :
    (es.map fun e => (e.1, f e.2)).lookup k = (es.lookup k).map f := by
  induction es with
  | nil => rfl
  | cons e es ih =>
    obtain ⟨key, v⟩ := e
    by_cases hk : k = key
    · subst hk
      rw [List.map_cons, List.lookup_cons_self, List.lookup_cons_self]
      rfl
    · rw [List.map_cons, lookup_cons_ne hk, lookup_cons_ne hk]
      exact ih

theorem lookup_map_key {κ' ν' : Type} [DecidableEq κ'] {f : κ → κ'} (hf : Function.Injective f)
    (g : ν → ν') (k : κ) (es : List (κ × ν)) :
    (es.map fun e => (f e.1, g e.2)).lookup (f k) = (es.lookup k).map g := by
  induction es with
  | nil => rfl
  | cons e es ih =>
    obtain ⟨key, v⟩ := e
    by_cases hk : k = key
    · subst hk
      rw [List.map_cons, List.lookup_cons_self, List.lookup_cons_self]
      rfl
    · have hne : f k ≠ f key := fun heq => hk (hf heq)
      rw [List.map_cons, lookup_cons_ne hne, lookup_cons_ne hk]
      exact ih

theorem lookup_set_self (k : κ) (v : ν) (es : List (κ × ν)) : (set k v es).lookup k = some v := by
  induction es with
  | nil => exact List.lookup_cons_self
  | cons e es ih =>
    rw [set]
    split_ifs with he
    · exact List.lookup_cons_self
    · rw [lookup_cons_ne (Ne.symm he)]
      exact ih

theorem lookup_set_ne {k k' : κ} (h : k' ≠ k) (v : ν) (es : List (κ × ν)) :
    (set k v es).lookup k' = es.lookup k' := by
  induction es with
  | nil => exact lookup_cons_ne h v []
  | cons e es ih =>
    rw [set]
    split_ifs with he
    · subst he
      rw [lookup_cons_ne h, lookup_cons_ne h]
    · by_cases hk : k' = e.1
      · subst hk
        rw [List.lookup_cons_self, List.lookup_cons_self]
      · rw [lookup_cons_ne hk, lookup_cons_ne hk]
        exact ih

theorem keys_set (k : κ) (v : ν) (es : List (κ × ν)) :
    (set k v es).map Prod.fst = if k ∈ es.map Prod.fst then es.map Prod.fst
      else es.map Prod.fst ++ [k] := by
  induction es with
  | nil => rfl
  | cons e es ih =>
    rw [set]
    by_cases he : e.1 = k
    · rw [if_pos he, List.map_cons, List.map_cons, he, if_pos List.mem_cons_self]
    · have hcons : k ∈ e.1 :: es.map Prod.fst ↔ k ∈ es.map Prod.fst := by
        rw [List.mem_cons]
        exact or_iff_right (Ne.symm he)
      rw [if_neg he, List.map_cons, List.map_cons, ih, if_congr hcons rfl rfl]
      split_ifs with hk
      · rfl
      · rfl

theorem mem_set {k : κ} {v : ν} {e : κ × ν} {es : List (κ × ν)} (h : e ∈ set k v es) :
    e = (k, v) ∨ e ∈ es := by
  induction es with
  | nil => exact Or.inl (List.mem_singleton.mp h)
  | cons e' es ih =>
    rw [set] at h
    split_ifs at h with he
    · exact (List.mem_cons.mp h).imp_right (List.mem_cons_of_mem _)
    · rcases List.mem_cons.mp h with rfl | h
      · exact Or.inr List.mem_cons_self
      · exact (ih h).imp_right (List.mem_cons_of_mem _)

theorem nodup_set {k : κ} {v : ν} {es : List (κ × ν)} (h : (es.map Prod.fst).Nodup) :
    ((set k v es).map Prod.fst).Nodup := by
  rw [keys_set]
  split_ifs with hk
  · exact h
  · rw [List.nodup_append]
    refine ⟨h, List.nodup_singleton k, ?_⟩
    rintro a ha b hb rfl
    rw [List.mem_singleton] at hb
    exact hk (hb ▸ ha)

/-- `d.update(items)`: the last item of a key counts. -/
theorem lookup_foldl_set (k : κ) (items es : List (κ × ν)) :
    (items.foldl (fun es e => set e.1 e.2 es) es).lookup k =
      (items.reverse.lookup k).or (es.lookup k) := by
  induction items generalizing es with
  | nil => rfl
  | cons e items ih =>
    rw [List.foldl_cons, ih, List.reverse_cons, List.lookup_append, Option.or_assoc]
    apply congrArg
    by_cases hk : k = e.1
    · subst hk
      rw [lookup_set_self, List.lookup_cons_self]
      rfl
    · rw [lookup_set_ne hk, lookup_cons_ne hk]
      rfl

end PyDict
