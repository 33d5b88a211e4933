import Mathlib.Data.BitVec
import Mathlib.Data.List.GetD
import Mathlib.Tactic.Basic
import Mathlib.Tactic.IntervalCases

/-! 32-bit words of a machine of either byte order, and the bits of the bytes that they
have in memory, in the order of the network. -/
namespace ByteOrder

inductive Endian where
  | little | big
  deriving DecidableEq, Repr

/-- The four bytes of a word at rising addresses. -/
def store (e : Endian) (w : BitVec 32) : List (BitVec 8) :=
  let bytes := [w.extractLsb' 0 8, w.extractLsb' 8 8, w.extractLsb' 16 8, w.extractLsb' 24 8]
  match e with
  | .little => bytes
  | .big => bytes.reverse

/-- The bytes of a word in the other order. -/
def swap (w : BitVec 32) : BitVec 32 :=
  w.extractLsb' 0 8 ++ (w.extractLsb' 8 8 ++ (w.extractLsb' 16 8 ++ w.extractLsb' 24 8))

/-- From the order of the machine to that of the network. -/
def htonl (e : Endian) (w : BitVec 32) : BitVec 32 :=
  match e with
  | .little => swap w
  | .big => w

/-- Bit `i` of bytes in memory, the most significant bit of the first byte first. -/
def bitAt (bs : List (BitVec 8)) (i : ℕ) : Bool := (bs.getD (i/8) 0).getMsbD (i%8)

def wordBit (e : Endian) (w : BitVec 32) (i : ℕ) : Bool := bitAt (store e w) i

variable {e : Endian} {v w : BitVec 32} {i : ℕ}

@[simp] theorem length_store : (store e w).length = 4 := by cases e <;> rfl

/-- Which bit of the word that is. -/
def place (e : Endian) (i : ℕ) : ℕ :=
  match e with
  | .little => 8*(i/8) + (7 - i%8)
  | .big => 31 - i

theorem wordBit_eq (e : Endian) (w : BitVec 32) (hi : i < 32) :
    wordBit e w i = w.getLsbD (place e i) := by
  interval_cases i <;> cases e <;> simp [wordBit, bitAt, store, place, BitVec.getMsbD]

theorem place_lt (e : Endian) (hi : i < 32) : place e i < 32 := by
  cases e <;> simp only [place] <;> omega

theorem place_place (e : Endian) (hi : i < 32) : place e (place e i) = i := by
  cases e <;> simp only [place] <;> omega

theorem ext_wordBit (h : ∀ i < 32, wordBit e v i = wordBit e w i) : v = w := by
  apply BitVec.eq_of_getLsbD_eq
  intro i hi
  have hbit := h (place e i) (place_lt e hi)
  rwa [wordBit_eq e v (place_lt e hi), wordBit_eq e w (place_lt e hi), place_place e hi] at hbit

theorem wordBit_and (hi : i < 32) : wordBit e (v &&& w) i = (wordBit e v i && wordBit e w i) := by
  rw [wordBit_eq e _ hi, wordBit_eq e v hi, wordBit_eq e w hi, BitVec.getLsbD_and]

theorem wordBit_zero (hi : i < 32) : wordBit e 0 i = false := by
  rw [wordBit_eq e _ hi]
  exact BitVec.getLsbD_zero

theorem getLsbD_swap (w : BitVec 32) (hi : i < 32) :
    (swap w).getLsbD i = w.getLsbD (24 - 8*(i/8) + i%8) := by
  simp only [swap, BitVec.getLsbD_append, BitVec.getLsbD_extractLsb']
  interval_cases i <;> rfl

/-- In memory a converted word has its bits from the most significant on. -/
theorem wordBit_htonl (e : Endian) (w : BitVec 32) (hi : i < 32) :
    wordBit e (htonl e w) i = w.getLsbD (31-i) := by
  rw [wordBit_eq e _ hi]
  cases e with
  | little =>
    have hplace : 24 - 8*(place .little i/8) + place .little i%8 = 31-i := by
      simp only [place]
      omega
    rw [htonl, getLsbD_swap w (place_lt .little hi), hplace]
  | big => rfl

theorem htonl_zero (e : Endian) : htonl e 0 = 0 := by cases e <;> rfl

theorem htonl_and (e : Endian) (v w : BitVec 32) : htonl e (v &&& w) = htonl e v &&& htonl e w := by
  apply ext_wordBit (e := e)
  intro i hi
  rw [wordBit_and hi, wordBit_htonl e _ hi, wordBit_htonl e _ hi, wordBit_htonl e _ hi,
    BitVec.getLsbD_and]

theorem bitAt_append_left {xs ys : List (BitVec 8)} (hi : i < 8*xs.length) :
    bitAt (xs ++ ys) i = bitAt xs i := by
  have hbyte : i/8 < xs.length := by omega
  rw [bitAt, bitAt, List.getD_append _ _ _ _ hbyte]

theorem bitAt_append_right {xs ys : List (BitVec 8)} :
    bitAt (xs ++ ys) (8*xs.length + i) = bitAt ys i := by
  have hbyte : (8*xs.length + i)/8 = xs.length + i/8 := by omega
  have hbit : (8*xs.length + i)%8 = i%8 := by omega
  rw [bitAt, bitAt, hbyte, hbit, List.getD_append_right _ _ _ _ (Nat.le_add_right ..),
    Nat.add_sub_cancel_left]

theorem ext_bitAt {xs ys : List (BitVec 8)} (hlen : xs.length = ys.length)
    (h : ∀ i < 8*xs.length, bitAt xs i = bitAt ys i) : xs = ys := by
  apply List.ext_getElem hlen
  intro k hk hk'
  apply BitVec.eq_of_getMsbD_eq
  intro j hj
  have hbit := h (8*k + j) (by omega)
  have hbyte : (8*k + j)/8 = k := by omega
  have hmod : (8*k + j)%8 = j := by omega
  rwa [bitAt, bitAt, hbyte, hmod, List.getD_eq_getElem _ _ hk, List.getD_eq_getElem _ _ hk'] at hbit

theorem bitAt_zipWith_and {xs ys : List (BitVec 8)} (hlen : xs.length = ys.length)
    (hi : i < 8*xs.length) : bitAt (List.zipWith (· &&& ·) xs ys) i = (bitAt xs i && bitAt ys i) := by
  have hx : i/8 < xs.length := by omega
  have hy : i/8 < ys.length := by omega
  have hz : i/8 < (List.zipWith (· &&& ·) xs ys).length := by
    rw [List.length_zipWith]
    omega
  rw [bitAt, bitAt, bitAt, List.getD_eq_getElem _ _ hx, List.getD_eq_getElem _ _ hy,
    List.getD_eq_getElem _ _ hz, List.getElem_zipWith, BitVec.getMsbD_and]

end ByteOrder
