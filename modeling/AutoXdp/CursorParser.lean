import Mathlib.Data.List.Basic
import Mathlib.Order.Lattice
import Mathlib.Tactic.Basic

/-! Parsers that move a bounds-checked cursor, and the grammars they accept. -/
namespace AutoXdp

/-- The items from a pointer on, up to the end of the buffer; `len` of them belong to the
text that is parsed. -/
structure Cursor (β : Type) where
  data : List β
  len : ℕ
  inBounds : len ≤ data.length

namespace Cursor

variable {β : Type} (c : Cursor β)

/-- The text still to be parsed. -/
def bytes : List β := c.data.take c.len

def advance (n : ℕ) : Cursor β where
  data := c.data.drop n
  len := c.len - n
  inBounds := by
    have h := c.inBounds
    rw [List.length_drop]
    omega

/-- The cursor at the start of a text that fills its buffer. -/
def ofList (text : List β) : Cursor β := ⟨text, text.length, le_rfl⟩

@[simp] theorem bytes_ofList (text : List β) : (ofList text).bytes = text := List.take_length

@[simp] theorem bytes_length : c.bytes.length = c.len := by
  rw [bytes, List.length_take]
  exact min_eq_left c.inBounds

theorem bytes_advance (n : ℕ) : (c.advance n).bytes = c.bytes.drop n := by
  rw [bytes, bytes, advance, List.drop_take]

theorem advance_advance (n k : ℕ) : (c.advance n).advance k = c.advance (n + k) := by
  simp only [advance, List.drop_drop, Nat.sub_sub]

@[simp] theorem advance_zero : c.advance 0 = c := by
  simp only [advance, List.drop_zero, Nat.sub_zero]

theorem bytes_advance_of_append {used rest : List β} (h : c.bytes = used ++ rest) :
    (c.advance used.length).bytes = rest := by
  rw [bytes_advance, h, List.drop_left]

end Cursor

abbrev CursorParser (β : Type) := StateT (Cursor β) Option

section Rules

variable {β α γ : Type}

/-- `p` accepts what starts with a word of the grammar `G`, and moves over that word. -/
def Parses (p : CursorParser β α) (G : α → List β → Prop) : Prop :=
  ∀ c a c', p c = some (a, c') ↔
    ∃ used rest, c.bytes = used ++ rest ∧ G a used ∧ c' = c.advance used.length

theorem parses_pure (a : α) :
    Parses (pure a : CursorParser β α) fun b used => b = a ∧ used = [] := by
  intro c b c'
  have hrun : (pure a : CursorParser β α) c = some (a, c) := rfl
  rw [hrun, Option.some_inj, Prod.mk.injEq]
  constructor
  · rintro ⟨rfl, rfl⟩
    exact ⟨[], c.bytes, rfl, ⟨rfl, rfl⟩, c.advance_zero.symm⟩
  · rintro ⟨used, rest, -, ⟨rfl, rfl⟩, rfl⟩
    exact ⟨rfl, c.advance_zero.symm⟩

theorem parses_bind {p : CursorParser β α} {q : α → CursorParser β γ} {G : α → List β → Prop}
    {H : α → γ → List β → Prop} (hp : Parses p G) (hq : ∀ a, Parses (q a) (H a)) :
    Parses (p >>= q) fun b used => ∃ a u v, used = u ++ v ∧ G a u ∧ H a b v := by
  intro c b c'
  have hrun : (p >>= q) c = (p c).bind fun r => q r.1 r.2 := rfl
  rw [hrun, Option.bind_eq_some_iff]
  constructor
  · rintro ⟨⟨a, c₁⟩, ha, hb⟩
    obtain ⟨u, rest, hu, hG, rfl⟩ := (hp c a c₁).mp ha
    obtain ⟨v, rest', hv, hH, rfl⟩ := (hq a _ b c').mp hb
    rw [c.bytes_advance_of_append hu] at hv
    refine ⟨u ++ v, rest', ?_, ⟨a, u, v, rfl, hG, hH⟩, ?_⟩
    · rw [hu, hv, List.append_assoc]
    · rw [c.advance_advance, List.length_append]
  · rintro ⟨used, rest, hused, ⟨a, u, v, rfl, hG, hH⟩, rfl⟩
    rw [List.append_assoc] at hused
    refine ⟨(a, c.advance u.length), (hp c a _).mpr ⟨u, v ++ rest, hused, hG, rfl⟩, ?_⟩
    apply (hq a _ b _).mpr
    refine ⟨v, rest, c.bytes_advance_of_append hused, hH, ?_⟩
    rw [c.advance_advance, List.length_append]

theorem parses_guard (P : Prop) [Decidable P] :
    Parses (guard P : CursorParser β Unit) fun _ used => P ∧ used = [] := by
  intro c _ c'
  by_cases h : P
  · have hrun : (guard P : CursorParser β Unit) = pure () := if_pos h
    rw [hrun, parses_pure]
    simp only [h, true_and]
  · have hrun : (guard P : CursorParser β Unit) c = none := by rw [guard, if_neg h]; rfl
    rw [hrun]
    refine iff_of_false nofun ?_
    rintro ⟨-, -, -, ⟨hP, -⟩, -⟩
    exact h hP

theorem parses_ite (P : Prop) [Decidable P] {p q : CursorParser β α} {G H : α → List β → Prop}
    (hp : Parses p G) (hq : Parses q H) :
    Parses (if P then p else q) fun a used => if P then G a used else H a used := by
  by_cases h : P
  · simp only [h, if_true]
    exact hp
  · simp only [h, if_false]
    exact hq

theorem parses_congr {p : CursorParser β α} {G H : α → List β → Prop} (hp : Parses p G)
    (h : ∀ a used, G a used ↔ H a used) : Parses p H := by
  intro c a c'
  rw [hp c a c']
  simp only [h]

/-- A text starts with at most one word of the grammar. -/
theorem parses_unique {p : CursorParser β α} {G : α → List β → Prop} (hp : Parses p G)
    {a a' : α} {u u' r r' : List β} (h : G a u) (h' : G a' u') (happend : u ++ r = u' ++ r') :
    a = a' ∧ u = u' ∧ r = r' := by
  have hrun := (hp (.ofList (u ++ r)) a _).mpr ⟨u, r, Cursor.bytes_ofList _, h, rfl⟩
  have hrun' := (hp (.ofList (u ++ r)) a' _).mpr
    ⟨u', r', by rw [happend, Cursor.bytes_ofList], h', rfl⟩
  obtain ⟨ha, hadv⟩ := Prod.mk.inj (Option.some.inj (hrun.symm.trans hrun'))
  have hr : r = r' := by
    have hbytes := congrArg Cursor.bytes hadv
    rw [Cursor.bytes_advance_of_append _ (Cursor.bytes_ofList _),
      Cursor.bytes_advance_of_append _ (by rw [happend, Cursor.bytes_ofList])] at hbytes
    exact hbytes
  subst hr
  exact ⟨ha, List.append_cancel_right happend, rfl⟩

/-- The parser accepts a text as a whole exactly when it is a word of the grammar. -/
theorem parses_whole {p : CursorParser β α} {G : α → List β → Prop} (hp : Parses p G)
    (c : Cursor β) :
    (∃ a c', p c = some (a, c') ∧ c'.len = 0) ↔ ∃ a, G a c.bytes := by
  constructor
  · rintro ⟨a, c', hrun, hlen⟩
    obtain ⟨used, rest, hused, hG, rfl⟩ := (hp c a c').mp hrun
    rw [← Cursor.bytes_length, c.bytes_advance_of_append hused, List.length_eq_zero_iff] at hlen
    rw [hlen, List.append_nil] at hused
    rw [hused]
    exact ⟨a, hG⟩
  · rintro ⟨a, hG⟩
    refine ⟨a, c.advance c.bytes.length, (hp c a _).mpr ⟨c.bytes, [], ?_, hG, rfl⟩, ?_⟩
    · rw [List.append_nil]
    · rw [← Cursor.bytes_length, c.bytes_advance_of_append (List.append_nil _).symm, List.length_nil]

end Rules

end AutoXdp
