import Mathlib.Data.Nat.ModEq
import Mathlib.Data.List.Range
import Mathlib.Logic.Function.Basic
import Mathlib.Tactic.Basic

/-! A ring of `size` cells under free-running positions: position `p` is cell `p % size`. -/
namespace ByteRing

variable {β : Type*} (size : ℕ) (d : ℕ → β)

def get (p : ℕ) : β := d (p % size)

def put (p : ℕ) (b : β) : ℕ → β := Function.update d (p % size) b

/-- The cells from `p` on. -/
def getAll (p n : ℕ) : List β := (List.range n).map fun i => get size d (p+i)

def putAll : (ℕ → β) → ℕ → List β → ℕ → β
  | d, _, [] => d
  | d, p, b :: bs => putAll (put size d p b) (p+1) bs

@[simp] theorem length_getAll (p n : ℕ) : (getAll size d p n).length = n := by
  rw [getAll, List.length_map, List.length_range]

theorem get_put (p : ℕ) (b : β) : get size (put size d p b) p = b := Function.update_self ..

/-- Two positions of one lap are two cells. -/
theorem mod_ne {p q : ℕ} (hne : p ≠ q) (hp : p < q + size) (hq : q < p + size) :
    p % size ≠ q % size := by
  intro h
  rcases Nat.lt_or_gt_of_ne hne with hlt | hgt
  · have hdvd : size ∣ q - p := (Nat.modEq_iff_dvd' hlt.le).mp h
    exact absurd (Nat.le_of_dvd (by omega) hdvd) (by omega)
  · have hdvd : size ∣ p - q := (Nat.modEq_iff_dvd' hgt.le).mp h.symm
    exact absurd (Nat.le_of_dvd (by omega) hdvd) (by omega)

theorem get_put_ne {p q : ℕ} (b : β) (hne : q ≠ p) (hp : p < q + size) (hq : q < p + size) :
    get size (put size d p b) q = get size d q :=
  Function.update_of_ne (mod_ne size hne hq hp) ..

/-- Positions of the lap that the written cells are not among keep their cells. -/
theorem get_putAll_of_notMem {p q : ℕ} (bs : List β) (hout : q < p ∨ p + bs.length ≤ q)
    (hp : p + bs.length ≤ q + size) (hq : q < p + size) :
    get size (putAll size d p bs) q = get size d q := by
  induction bs generalizing d p with
  | nil => rfl
  | cons b bs ih =>
    rw [List.length_cons] at hout hp
    rw [putAll, ih (put size d p b) (by omega) (by omega) (by omega),
      get_put_ne size d b (by omega) (by omega) hq]

theorem get_putAll {p i : ℕ} (bs : List β) (hi : i < bs.length) (hsize : bs.length ≤ size) :
    get size (putAll size d p bs) (p+i) = bs[i] := by
  induction bs generalizing d p i with
  | nil => exact absurd hi (Nat.not_lt_zero i)
  | cons b bs ih =>
    rw [List.length_cons] at hi hsize
    cases i with
    | zero =>
      have hlater := get_putAll_of_notMem size (put size d p b) bs (Or.inl (Nat.lt_add_one p))
        (by omega) (by omega)
      exact hlater.trans (get_put size d p b)
    | succ i =>
      have hpos : p + (i+1) = p + 1 + i := by omega
      rw [putAll, hpos, ih (put size d p b) (by omega) (by omega), List.getElem_cons_succ]

theorem getAll_putAll {p : ℕ} (bs : List β) (hsize : bs.length ≤ size) :
    getAll size (putAll size d p bs) p bs.length = bs := by
  apply List.ext_getElem
  · rw [length_getAll]
  · intro i _ hi
    simp only [getAll, List.getElem_map, List.getElem_range]
    exact get_putAll size d bs hi hsize

theorem getAll_congr {d d' : ℕ → β} {p n : ℕ}
    (h : ∀ i < n, get size d' (p+i) = get size d (p+i)) : getAll size d' p n = getAll size d p n := by
  apply List.map_congr_left
  intro i hi
  exact h i (List.mem_range.mp hi)

theorem getAll_putAll_left {p : ℕ} (bs cs : List β) (hsize : (bs ++ cs).length ≤ size) :
    getAll size (putAll size d p (bs ++ cs)) p bs.length = bs := by
  apply List.ext_getElem
  · rw [length_getAll]
  · intro i _ hi
    have hlen : i < (bs ++ cs).length := by
      rw [List.length_append]
      omega
    simp only [getAll, List.getElem_map, List.getElem_range]
    rw [get_putAll size d (bs ++ cs) hlen hsize, List.getElem_append_left hi]

/-- Cells of the lap beside those written. -/
theorem getAll_putAll_disjoint {p q n : ℕ} (bs : List β) (hout : q + n ≤ p ∨ p + bs.length ≤ q)
    (hp : p + bs.length ≤ q + size) (hq : q + n ≤ p + size) :
    getAll size (putAll size d p bs) q n = getAll size d q n := by
  apply getAll_congr
  intro i hi
  exact get_putAll_of_notMem size d bs (by omega) (by omega) (by omega)

theorem getAll_put_disjoint {p q n : ℕ} (b : β) (hout : q + n ≤ p ∨ p < q)
    (hp : p < q + size) (hq : q + n ≤ p + size) :
    getAll size (put size d p b) q n = getAll size d q n :=
  getAll_putAll_disjoint size d [b] hout hp hq

theorem getAll_put_self {p n i : ℕ} (b : β) (hi : i < n) (hn : n ≤ size) :
    getAll size (put size d (p+i) b) p n = (getAll size d p n).set i b := by
  apply List.ext_getElem
  · rw [List.length_set, length_getAll, length_getAll]
  · intro j hj _
    rw [length_getAll] at hj
    simp only [getAll, List.getElem_set, List.getElem_map, List.getElem_range]
    split_ifs with hij
    · rw [hij]
      exact get_put size d (p+j) b
    · exact get_put_ne size d b (by omega) (by omega) (by omega)

/-- Positions that name the same cell. -/
theorem getAll_modEq {p q : ℕ} (h : p ≡ q [MOD size]) (n : ℕ) :
    getAll size d p n = getAll size d q n := by
  apply List.map_congr_left
  intro i _
  have hcell : (p+i) % size = (q+i) % size := h.add_right i
  rw [get, get, hcell]

theorem putAll_modEq {p q : ℕ} (h : p ≡ q [MOD size]) (bs : List β) :
    putAll size d p bs = putAll size d q bs := by
  induction bs generalizing d p q with
  | nil => rfl
  | cons b bs ih =>
    have hcell : p % size = q % size := h
    rw [putAll, putAll, put, put, hcell]
    exact ih _ (h.add_right 1)

end ByteRing
