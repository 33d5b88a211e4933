import AutoXdp.PyJson
import Mathlib.Tactic.Basic

/-! `json.dumps` with `ensure_ascii`: every character of the text is printable. -/
namespace PyJson

def isPrintable (c : ℕ) : Bool := 0x20 ≤ c ∧ c ≤ 0x7E

def Printable (t : Text) : Prop := ∀ c ∈ t, isPrintable c = true

instance (t : Text) : Decidable (Printable t) :=
  inferInstanceAs (Decidable (∀ c ∈ t, isPrintable c = true))

/-- The text of a float. -/
abbrev FloatText := {t : Text // Printable t}

inductive Scalar where
  | int (n : ℤ)
  | string (t : Text)
  | float (t : FloatText)

def ascii (s : String) : Text := s.toList.map Char.toNat

def hexDigit (n : ℕ) : ℕ := if n < 10 then 0x30+n else 0x61+(n-10)

/-- A backslash, `u` and four digits. -/
def uEscape (u : ℕ) : Text :=
  [0x5C, 0x75, hexDigit (u/4096%16), hexDigit (u/256%16), hexDigit (u/16%16), hexDigit (u%16)]

def dumpsChar (c : ℕ) : Text :=
  if c = 0x22 then [0x5C, 0x22]
  else if c = 0x5C then [0x5C, 0x5C]
  else if c = 0x0A then [0x5C, 0x6E]
  else if c = 0x0D then [0x5C, 0x72]
  else if c = 0x09 then [0x5C, 0x74]
  else if c = 0x0C then [0x5C, 0x66]
  else if c = 0x08 then [0x5C, 0x62]
  else if isPrintable c then [c]
  else if c < 0x10000 then uEscape c
  else uEscape (0xD800 + (c-0x10000)/1024%1024) ++ uEscape (0xDC00 + (c-0x10000)%1024)

def dumpsString (t : Text) : Text := 0x22 :: t.flatMap dumpsChar ++ [0x22]

def dumpsInt (n : ℤ) : Text :=
  (if n < 0 then [0x2D] else []) ++ (Nat.toDigits 10 n.natAbs).map Char.toNat

def dumpsScalar : Scalar → Text
  | .int n => dumpsInt n
  | .string t => dumpsString t
  | .float t => t.val

/-- Items with a comma between them. -/
def joinItems : List Text → Text
  | [] => []
  | [t] => t
  | t :: ts => t ++ 0x2C :: joinItems ts

def dumpsMember (key : Text) (val : Text) : Text := dumpsString key ++ 0x3A :: val

def dumpsDict (members : List (Text × Scalar)) : Text :=
  0x7B :: joinItems (members.map fun m => dumpsMember m.1 (dumpsScalar m.2)) ++ [0x7D]

def dumpsList (items : List Text) : Text := 0x5B :: joinItems items ++ [0x5D]

/-! Printable texts. -/

theorem printable_nil : Printable [] := nofun

theorem printable_cons {c : ℕ} {t : Text} (hc : isPrintable c = true) (ht : Printable t) :
    Printable (c :: t) := List.forall_mem_cons.mpr ⟨hc, ht⟩

theorem printable_append {t u : Text} (ht : Printable t) (hu : Printable u) :
    Printable (t ++ u) := List.forall_mem_append.mpr ⟨ht, hu⟩

theorem printable_enclosed {c d : ℕ} {t : Text} (hc : isPrintable c = true)
    (hd : isPrintable d = true) (ht : Printable t) : Printable (c :: t ++ [d]) :=
  printable_append (printable_cons hc ht) (printable_cons hd printable_nil)

theorem printable_hexDigit (n : ℕ) : isPrintable (hexDigit (n%16)) = true := by
  have hlt : n%16 < 16 := Nat.mod_lt n (by decide)
  have hall : ∀ k < 16, isPrintable (hexDigit k) = true := by decide
  exact hall (n%16) hlt

theorem printable_uEscape (u : ℕ) : Printable (uEscape u) := by
  apply printable_cons (by decide)
  apply printable_cons (by decide)
  apply printable_cons (printable_hexDigit _)
  apply printable_cons (printable_hexDigit _)
  apply printable_cons (printable_hexDigit _)
  exact printable_cons (printable_hexDigit _) printable_nil

theorem printable_dumpsChar (c : ℕ) : Printable (dumpsChar c) := by
  unfold dumpsChar
  split_ifs with _ _ _ _ _ _ _ hprint _
  · decide
  · decide
  · decide
  · decide
  · decide
  · decide
  · decide
  · exact printable_cons hprint printable_nil
  · exact printable_uEscape c
  · exact printable_append (printable_uEscape _) (printable_uEscape _)

theorem printable_dumpsString (t : Text) : Printable (dumpsString t) := by
  apply printable_enclosed (by decide) (by decide)
  intro c hc
  obtain ⟨x, -, hx⟩ := List.mem_flatMap.mp hc
  exact printable_dumpsChar x c hx

theorem printable_dumpsInt (n : ℤ) : Printable (dumpsInt n) := by
  apply printable_append
  · split_ifs
    · decide
    · exact printable_nil
  · intro c hc
    obtain ⟨d, hd, rfl⟩ := List.mem_map.mp hc
    have hdigit : d.isDigit = true := Nat.isDigit_of_mem_toDigits (by decide) (by decide) hd
    rw [Char.isDigit, Bool.and_eq_true, decide_eq_true_eq, decide_eq_true_eq] at hdigit
    obtain ⟨hlow, hhigh⟩ := hdigit
    have hlow' : 0x30 ≤ d.toNat := hlow
    have hhigh' : d.toNat ≤ 0x39 := hhigh
    rw [isPrintable, decide_eq_true_eq]
    omega

theorem printable_dumpsScalar (v : Scalar) : Printable (dumpsScalar v) := by
  cases v with
  | int n => exact printable_dumpsInt n
  | string t => exact printable_dumpsString t
  | float t => exact t.property

theorem printable_joinItems (ts : List Text) (h : ∀ t ∈ ts, Printable t) :
    Printable (joinItems ts) := by
  induction ts with
  | nil => exact printable_nil
  | cons t ts ih =>
    obtain ⟨ht, hts⟩ := List.forall_mem_cons.mp h
    cases ts with
    | nil => exact ht
    | cons u ts => exact printable_append ht (printable_cons (by decide) (ih hts))

theorem printable_dumpsMember (key : Text) {val : Text} (h : Printable val) :
    Printable (dumpsMember key val) :=
  printable_append (printable_dumpsString key) (printable_cons (by decide) h)

theorem printable_dumpsDict (members : List (Text × Scalar)) :
    Printable (dumpsDict members) := by
  apply printable_enclosed (by decide) (by decide)
  apply printable_joinItems
  intro t ht
  obtain ⟨m, -, rfl⟩ := List.mem_map.mp ht
  exact printable_dumpsMember m.1 (printable_dumpsScalar m.2)

theorem printable_dumpsList (items : List Text) (h : ∀ t ∈ items, Printable t) :
    Printable (dumpsList items) :=
  printable_enclosed (by decide) (by decide) (printable_joinItems items h)

end PyJson
