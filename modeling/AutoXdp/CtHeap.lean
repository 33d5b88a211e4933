import AutoXdp.XdpInterface
import Mathlib.Tactic.Basic

/-! The conntrack maps as runs on several CPUs share them. A lookup gives the
address of an element; an update puts a new element in its place, and the old one
stays readable to those who looked it up before. -/
namespace AutoXdp
open AtomicProg

structure CtHeap where
  table : CtMap → FlowKey → Option ℕ
  word : ℕ → U64
  fresh : ℕ
  allocated : ∀ m key p, table m key = some p → p < fresh

namespace CtHeap

def empty : CtHeap where
  table _ _ := none
  word _ := 0
  fresh := 0
  allocated := fun _ _ _ h => absurd h nofun

/-- The word in the current element of a flow. -/
def find (s : CtHeap) (m : CtMap) (key : FlowKey) : Option U64 := (s.table m key).map s.word

/-- A new element takes the place of the old one. -/
def store (s : CtHeap) (m : CtMap) (key : FlowKey) (v : U64) : CtHeap where
  table m' key' := if m' = m ∧ key' = key then some s.fresh else s.table m' key'
  word := Function.update s.word s.fresh v
  fresh := s.fresh + 1
  allocated := by
    intro m' key' p h
    split at h
    · obtain rfl := Option.some.inj h
      exact Nat.lt_succ_self _
    · exact (s.allocated m' key' p h).trans (Nat.lt_succ_self _)

def remove (s : CtHeap) (m : CtMap) (key : FlowKey) : CtHeap where
  table m' key' := if m' = m ∧ key' = key then none else s.table m' key'
  word := s.word
  fresh := s.fresh
  allocated := by
    intro m' key' p h
    split at h
    · exact absurd h nofun
    · exact s.allocated m' key' p h

/-- `__sync_val_compare_and_swap` on the element at `p`, whether or not it is still
the current one of its flow. -/
def swap (s : CtHeap) (p : ℕ) (old new : U64) : CtHeap :=
  if s.word p = old then { s with word := Function.update s.word p new } else s

/-- `bpf_map_update_elem`, and whether it returned 0. -/
def update (s : CtHeap) (m : CtMap) (key : FlowKey) (v : U64) : UpdateFlag → Bool × CtHeap
  | .any => (true, s.store m key v)
  | .noexist => if (s.table m key).isSome then (false, s) else (true, s.store m key v)
  | .exist => if (s.table m key).isSome then (true, s.store m key v) else (false, s)

variable (s : CtHeap) (m : CtMap) (key : FlowKey)

theorem find_store (v : U64) : (s.store m key v).find m key = some v := by
  simp only [find, store, and_self, ↓reduceIte, Option.map_some, Function.update_self]

theorem find_remove : (s.remove m key).find m key = none := by
  simp only [find, remove, and_self, ↓reduceIte, Option.map_none]

theorem find_swap_self (p : ℕ) (old new : U64) (hp : s.table m key = some p)
    (hw : s.word p = old) : (s.swap p old new).find m key = some new := by
  simp only [swap, hw, ↓reduceIte, find, hp, Option.map_some, Function.update_self]

theorem find_swap_other (p : ℕ) (old new : U64) (h : ¬(s.word p = old ∧ s.table m key = some p)) :
    (s.swap p old new).find m key = s.find m key := by
  rw [swap]
  split
  · rename_i hw
    cases hq : s.table m key with
    | none => simp only [find, hq, Option.map_none]
    | some q =>
      have hne : q ≠ p := by
        rintro rfl
        exact h ⟨hw, hq⟩
      simp only [find, hq, Option.map_some, Function.update_of_ne hne]
  · rfl

theorem find_update (v : U64) (flag : UpdateFlag) :
    (s.update m key v flag).2.find m key = some v ∨
      (s.update m key v flag).2.find m key = s.find m key := by
  cases flag with
  | any => exact Or.inl (find_store s m key v)
  | noexist =>
    simp only [update]
    split
    · exact Or.inr rfl
    · exact Or.inl (find_store s m key v)
  | exist =>
    simp only [update]
    split
    · exact Or.inl (find_store s m key v)
    · exact Or.inr rfl

end CtHeap

/-- The datapath calls over a heap; `env` answers those that do not touch conntrack. -/
def heapHandler {ε : Type} (env : (o : DpOp ℕ) → ε → o.Res × ε) :
    Handler (dpInterface ℕ) (CtHeap × ε)
  | .ctLookup m key, s => (s.1.table m key, s)
  | .ctLoad p, s => (s.1.word p, s)
  | .ctCas p old new, s => (s.1.word p, s.1.swap p old new, s.2)
  | .ctUpdate m key v flag, s =>
    ((s.1.update m key v flag).1, (s.1.update m key v flag).2, s.2)
  | .ctDelete m key, s => ((s.1.table m key).isSome, s.1.remove m key, s.2)
  | o, s => ((env o s.2).1, s.1, (env o s.2).2)

end AutoXdp
