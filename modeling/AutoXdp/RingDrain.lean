import AutoXdp.GuardedRun
import AutoXdp.RingBuffer
import Mathlib.Tactic.Basic

/-! What `drain` yields over any interleaving with the producer. -/
namespace AutoXdp.Ringbuf
open ByteRing WordBytes GuardedRun

/-! The header word. -/

variable {r : Record}

theorem getLsbD_len (r : Record) (hlen : r.len < 2^30) {i : ℕ} (hi : 30 ≤ i) :
    (BitVec.ofNat 32 r.len).getLsbD i = false := by
  have hbit : r.len.testBit i = false :=
    Nat.testBit_lt_two_pow (hlen.trans_le (Nat.pow_le_pow_right (by decide) hi))
  rw [BitVec.getLsbD_ofNat, hbit, Bool.and_false]

theorem header_busy (hlen : r.len < 2^30) : r.header &&& busyBit = 0 ↔ r.state ≠ .busy := by
  have hbit : busyBit = BitVec.twoPow 32 31 := by decide
  have hlow := getLsbD_len r hlen (show 30 ≤ 31 by decide)
  have hone : ¬BitVec.twoPow 32 31 = 0 := by decide
  rw [hbit, BitVec.and_twoPow, Record.header, BitVec.getLsbD_or, hlow, Bool.false_or]
  cases r.state with
  | busy => exact iff_of_false (by decide) (not_not.mpr rfl)
  | committed | discarded => exact iff_of_true (by decide) nofun

theorem header_discard (hlen : r.len < 2^30) :
    r.header &&& discardBit = 0 ↔ r.state ≠ .discarded := by
  have hbit : discardBit = BitVec.twoPow 32 30 := by decide
  have hlow := getLsbD_len r hlen (show 30 ≤ 30 by decide)
  rw [hbit, BitVec.and_twoPow, Record.header, BitVec.getLsbD_or, hlow, Bool.false_or]
  cases r.state with
  | discarded => exact iff_of_false (by decide) (not_not.mpr rfl)
  | committed | busy => exact iff_of_true (by decide) nofun

theorem header_len (hlen : r.len < 2^30) :
    (r.header &&& ~~~(busyBit ||| discardBit)).toNat = r.len := by
  have hmask : ∀ i < 32, (~~~(busyBit ||| discardBit)).getLsbD i = decide (i < 30) := by decide
  have hflags : ∀ i < 30, busyBit.getLsbD i = false ∧ discardBit.getLsbD i = false := by decide
  have hword : r.header &&& ~~~(busyBit ||| discardBit) = BitVec.ofNat 32 r.len := by
    apply BitVec.eq_of_getLsbD_eq
    intro i hi
    rw [BitVec.getLsbD_and, hmask i hi, Record.header, BitVec.getLsbD_or]
    by_cases hlow : i < 30
    · obtain ⟨hbusy, hdiscard⟩ := hflags i hlow
      rw [decide_eq_true hlow, Bool.and_true]
      cases r.state with
      | busy => rw [hbusy, Bool.or_false]
      | committed =>
        have hzero : (0 : U32).getLsbD i = false := BitVec.getLsbD_zero
        exact (congrArg _ hzero).trans (Bool.or_false _)
      | discarded => rw [hdiscard, Bool.or_false]
    · rw [decide_eq_false hlow, Bool.and_false, getLsbD_len r hlen (not_lt.mp hlow)]
  rw [hword, BitVec.toNat_ofNat]
  exact Nat.mod_eq_of_lt (hlen.trans (by decide))

/-! Sizes and positions. -/

theorem reserved_eq (len : ℕ) : reserved len = hdrSz + roundUp len := by
  unfold reserved roundUp hdrSz
  omega

theorem reserved_room (len : ℕ) : hdrSz + len ≤ reserved len := by
  unfold reserved roundUp hdrSz
  omega

theorem reserved_le (len : ℕ) : reserved len ≤ len + 15 := by
  unfold reserved roundUp hdrSz
  omega

/-- Reduced positions name the same cells. -/
theorem reduced_modEq (cfg : Config) (p : ℕ) : p % 2^64 ≡ p [MOD cfg.size] := by
  have hdvd : cfg.size ∣ 2^64 := pow_dvd_pow 2 cfg.bits_lt.le
  exact (Nat.mod_modEq p (2^64)).of_dvd hdvd

theorem size_le (cfg : Config) : cfg.size ≤ 2^63 :=
  Nat.pow_le_pow_right (by decide) (Nat.le_of_lt_succ cfg.bits_lt)

section Positions

variable {base : ℕ} {rs : List Record} {n i j : ℕ}

theorem boundary_append (xs ys : List Record) :
    boundary base (xs ++ ys) = boundary base xs + (ys.map fun r => reserved r.len).sum := by
  rw [boundary, boundary, List.map_append, List.sum_append, Nat.add_assoc]

theorem boundary_take_succ (h : rs[n]? = some r) :
    boundary base (rs.take (n+1)) = boundary base (rs.take n) + reserved r.len := by
  rw [List.take_add_one, h, Option.toList_some, boundary_append, List.map_singleton,
    List.sum_singleton]

theorem boundary_take_le (h : i ≤ j) :
    boundary base (rs.take i) ≤ boundary base (rs.take j) := by
  have hsplit : rs.take j = rs.take i ++ (rs.take j).drop i := by
    have htake : rs.take i = (rs.take j).take i := by rw [List.take_take, min_eq_left h]
    rw [htake, List.take_append_drop]
  rw [hsplit, boundary_append]
  exact Nat.le_add_right ..

theorem boundary_take_le_all (base : ℕ) (rs : List Record) (i : ℕ) :
    boundary base (rs.take i) ≤ boundary base rs := by
  have hsplit : boundary base rs = boundary base (rs.take i) +
      ((rs.drop i).map fun r => reserved r.len).sum := by
    rw [← boundary_append, List.take_append_drop]
  rw [hsplit]
  exact Nat.le_add_right ..

theorem boundary_take_all (h : rs.length ≤ n) : boundary base (rs.take n) = boundary base rs := by
  rw [List.take_of_length_le h]

/-- A record ends where later ones begin. -/
theorem boundary_later (h : rs[i]? = some r) (hij : i < j) :
    boundary base (rs.take i) + reserved r.len ≤ boundary base (rs.take j) := by
  rw [← boundary_take_succ h]
  exact boundary_take_le hij

theorem boundary_injective (hi : i ≤ rs.length) (hj : j ≤ rs.length)
    (h : boundary base (rs.take i) = boundary base (rs.take j)) : i = j := by
  have hlt {i j : ℕ} (hij : i < j) (hj : j ≤ rs.length) :
      boundary base (rs.take i) < boundary base (rs.take j) := by
    have hrec : rs[i]? = some rs[i] := List.getElem?_eq_getElem (by omega)
    have hlater : boundary base (rs.take i) + reserved rs[i].len ≤ boundary base (rs.take j) :=
      boundary_later hrec hij
    have hroom := reserved_room rs[i].len
    unfold hdrSz at hroom
    omega
  rcases Nat.lt_trichotomy i j with hij | hij | hij
  · exact absurd h (hlt hij hj).ne
  · exact hij
  · exact absurd h (hlt hij hi).ne'

/-- Only the lengths count. -/
theorem boundary_take_set (r' : Record) (h : rs[i]? = some r) (hlen : r'.len = r.len) (k : ℕ) :
    boundary base ((rs.set i r').take k) = boundary base (rs.take k) := by
  have hmap : (rs.set i r').map (fun r => reserved r.len) = rs.map fun r => reserved r.len := by
    rw [List.map_set, hlen]
    obtain ⟨hi, hri⟩ := List.getElem?_eq_some_iff.mp h
    apply List.ext_getElem
    · rw [List.length_set]
    · intro j hj _
      rw [List.getElem_set]
      split_ifs with hij
      · subst hij
        rw [List.getElem_map, hri]
      · rfl
  rw [boundary, boundary, List.map_take, List.map_take, hmap]

end Positions

/-! What holds of every state. -/

/-- None of the first `n` records is busy. -/
def Finished (records : List Record) (n : ℕ) : Prop :=
  ∀ (i : ℕ) (r : Record), i < n → records[i]? = some r → r.state ≠ .busy

/-- The first `n` records are passed, and the others are in the data as they ought to be. -/
structure Layout (cfg : Config) (s : Ring) (n : ℕ) : Prop where
  le : n ≤ s.records.length
  producer : s.producer = BitVec.ofNat 64 (boundary s.base s.records)
  consumer : s.consumer.toNat = boundary s.base (s.records.take n)
  room : boundary s.base s.records ≤ s.consumer.toNat + cfg.size
  pos : ∀ (i : ℕ) (r : Record), s.records[i]? = some r →
    r.pos = boundary s.base (s.records.take i)
  len : ∀ (i : ℕ) (r : Record), s.records[i]? = some r → r.len < 2^30
  finished : Finished s.records n
  header : ∀ (i : ℕ) (r : Record), n ≤ i → s.records[i]? = some r →
    getAll cfg.size s.data r.pos 4 = wordBytes r.header
  payload : ∀ (i : ℕ) (r : Record), n ≤ i → s.records[i]? = some r →
    getAll cfg.size s.data (r.pos+hdrSz) r.len = r.payload

/-- The reader stands at a boundary, and has yielded what is before it. -/
inductive ReaderAt (cfg : Config) (s : Ring) (n : ℕ) : Reader → Prop
  | idle (h : s.yielded = events cfg (s.records.take n)) : ReaderAt cfg s n .idle
  | looping (m : ℕ) (hm : n ≤ m ∧ m ≤ s.records.length)
      (h : s.yielded = events cfg (s.records.take n)) :
      ReaderAt cfg s n (.looping (boundary s.base (s.records.take n))
        (boundary s.base (s.records.take m) % 2^64))
  | copying (m : ℕ) (r : Record) (hm : n < m ∧ m ≤ s.records.length)
      (hr : s.records[n]? = some r) (hcommitted : r.state = .committed)
      (hevent : r.len = cfg.eventSize) (h : s.yielded = events cfg (s.records.take n)) :
      ReaderAt cfg s n (.copying (boundary s.base (s.records.take n)) r.len
        (boundary s.base (s.records.take m) % 2^64))
  | yielded (m : ℕ) (r : Record) (hm : n < m ∧ m ≤ s.records.length)
      (hr : s.records[n]? = some r) (hcommitted : r.state = .committed)
      (h : s.yielded = events cfg (s.records.take (n+1))) :
      ReaderAt cfg s n (.yielded (boundary s.base (s.records.take n)) r.len
        (boundary s.base (s.records.take m) % 2^64))

/-- The invariant. -/
structure Sound (cfg : Config) (s : Ring) (n : ℕ) : Prop where
  layout : Layout cfg s n
  reader : ReaderAt cfg s n s.reader

/-- The reader is about to pass this record. -/
def Reader.Passes (cfg : Config) (r : Record) : Reader → Prop
  | .yielded cpos _ _ => cpos = r.pos
  | .looping cpos ppos => cpos = r.pos ∧ cpos ≠ ppos ∧ r.state ≠ .busy ∧
    ¬(r.state = .committed ∧ r.len = cfg.eventSize)
  | .idle | .copying .. | .failed => False

instance (cfg : Config) (r : Record) : (reader : Reader) → Decidable (reader.Passes cfg r)
  | .yielded cpos _ _ => inferInstanceAs (Decidable (cpos = r.pos))
  | .looping cpos ppos => inferInstanceAs (Decidable (cpos = r.pos ∧ cpos ≠ ppos ∧ _ ∧ _))
  | .idle | .copying .. | .failed => inferInstanceAs (Decidable False)

/-- A record that the reader is about to pass ends before the positions do. -/
def Fits (cfg : Config) (s : Ring) (a : Action) : Prop :=
  a = .next → ∀ r ∈ s.records, s.reader.Passes cfg r → r.pos + reserved r.len < 2^64

instance (cfg : Config) (s : Ring) (a : Action) : Decidable (Fits cfg s a) :=
  inferInstanceAs (Decidable (_ → _))

variable {cfg : Config} {s : Ring} {n : ℕ}

/-- A record not yet passed lies between the two positions. -/
theorem Layout.inside (h : Layout cfg s n) {i : ℕ} (hi : n ≤ i) (hr : s.records[i]? = some r) :
    s.consumer.toNat ≤ r.pos ∧ r.pos + reserved r.len ≤ boundary s.base s.records := by
  rw [h.pos i r hr, h.consumer, ← boundary_take_succ hr]
  exact ⟨boundary_take_le hi, boundary_take_le_all ..⟩

theorem Layout.behind (h : Layout cfg s n) : s.consumer.toNat ≤ boundary s.base s.records := by
  rw [h.consumer]
  exact boundary_take_le_all ..

/-- A drain that began behind some records is at its end when it has passed them. -/
theorem Layout.ends_iff (h : Layout cfg s n) {m : ℕ} (hm : n ≤ m ∧ m ≤ s.records.length) :
    boundary s.base (s.records.take n) = boundary s.base (s.records.take m) % 2^64 ↔ n = m := by
  have hlow : boundary s.base (s.records.take n) ≤ boundary s.base (s.records.take m) :=
    boundary_take_le hm.1
  have hhigh := boundary_take_le_all s.base s.records m
  have hroom := h.room
  have hsize := size_le cfg
  have hlt := s.consumer.isLt
  rw [h.consumer] at hroom hlt
  constructor
  · intro heq
    have hsame : boundary s.base (s.records.take n) = boundary s.base (s.records.take m) := by
      omega
    exact boundary_injective (hm.1.trans hm.2) hm.2 hsame
  · rintro rfl
    exact (Nat.mod_eq_of_lt hlt).symm

/-- Two records do not overlap. -/
theorem Layout.apart (h : Layout cfg s n) {i j : ℕ} {r' : Record} (hij : i ≠ j)
    (hr : s.records[i]? = some r) (hr' : s.records[j]? = some r') :
    r.pos + reserved r.len ≤ r'.pos ∨ r'.pos + reserved r'.len ≤ r.pos := by
  rw [h.pos i r hr, h.pos j r' hr']
  rcases Nat.lt_or_gt_of_ne hij with hlt | hgt
  · exact Or.inl (boundary_later hr hlt)
  · exact Or.inr (boundary_later hr' hgt)

/-! The producer keeps the layout. -/

/-- The reader does not notice the difference. -/
structure Unseen (cfg : Config) (s s' : Ring) : Prop where
  reader : s'.reader = s.reader
  yielded : s'.yielded = s.yielded
  length : s.records.length ≤ s'.records.length
  boundary : ∀ k ≤ s.records.length,
    boundary s'.base (s'.records.take k) = boundary s.base (s.records.take k)
  events : ∀ k ≤ s.records.length, Finished s.records k →
    events cfg (s'.records.take k) = events cfg (s.records.take k)
  kept : ∀ (i : ℕ) (r : Record), s.records[i]? = some r → r.state ≠ .busy →
    s'.records[i]? = some r

theorem finished_succ (h : Finished s.records n) (hr : s.records[n]? = some r)
    (hdone : r.state ≠ .busy) : Finished s.records (n+1) := by
  intro i r' hi hr'
  rcases Nat.lt_or_eq_of_le (Nat.le_of_lt_succ hi) with hlt | rfl
  · exact h i r' hlt hr'
  · obtain rfl := Option.some.inj (hr.symm.trans hr')
    exact hdone

theorem readerAt_unseen {s' : Ring} (h : ReaderAt cfg s n s.reader) (hlayout : Layout cfg s n)
    (hsame : Unseen cfg s s') : ReaderAt cfg s' n s'.reader := by
  have hle := hlayout.le
  have hyielded := hsame.yielded
  have hbefore := hsame.events n hle hlayout.finished
  have hgrown {m : ℕ} (hm : m ≤ s.records.length) : m ≤ s'.records.length :=
    hm.trans hsame.length
  rw [hsame.reader]
  generalize s.reader = reader at h
  cases h with
  | idle h => exact .idle (by rw [hyielded, h, hbefore])
  | looping m hm h =>
    rw [← hsame.boundary n hle, ← hsame.boundary m hm.2]
    exact .looping m ⟨hm.1, hgrown hm.2⟩ (by rw [hyielded, h, hbefore])
  | copying m r hm hr hcommitted hevent h =>
    have hdone : r.state ≠ .busy := by
      rw [hcommitted]
      exact nofun
    rw [← hsame.boundary n hle, ← hsame.boundary m hm.2]
    exact .copying m r ⟨hm.1, hgrown hm.2⟩ (hsame.kept n r hr hdone) hcommitted hevent
      (by rw [hyielded, h, hbefore])
  | yielded m r hm hr hcommitted h =>
    have hdone : r.state ≠ .busy := by
      rw [hcommitted]
      exact nofun
    have hnext := hsame.events (n+1) (Nat.le_trans hm.1 hm.2)
      (finished_succ hlayout.finished hr hdone)
    rw [← hsame.boundary n hle, ← hsame.boundary m hm.2]
    exact .yielded m r ⟨hm.1, hgrown hm.2⟩ (hsame.kept n r hr hdone) hcommitted
      (by rw [hyielded, h, hnext])

section Reserve

variable {len : ℕ} {pgOff : U32}

/-- The new record stands behind the others, at its position beyond 64 bits as at the
reduced one. -/
theorem reserve_eq (h : Layout cfg s n) : reserve cfg len pgOff s =
    let pos := boundary s.base s.records
    let r : Record := ⟨pos, len, .busy, getAll cfg.size s.data (pos+hdrSz) len⟩
    { s with
      data := putAll cfg.size s.data pos (wordBytes r.header ++ wordBytes pgOff)
      producer := BitVec.ofNat 64 (pos + reserved len)
      records := s.records ++ [r] } := by
  have hpos : s.producer.toNat = boundary s.base s.records % 2^64 := by
    rw [h.producer, BitVec.toNat_ofNat]
  have hcells := reduced_modEq cfg (boundary s.base s.records)
  have hproducer : s.producer + BitVec.ofNat 64 (reserved len) =
      BitVec.ofNat 64 (boundary s.base s.records + reserved len) := by
    rw [h.producer, ← BitVec.ofNat_add]
  simp only [reserve, hpos, hproducer, getAll_modEq cfg.size s.data (hcells.add_right hdrSz),
    putAll_modEq cfg.size s.data hcells]

/-- The new record fits before the consumer comes round again. -/
theorem reserve_room (h : Layout cfg s n) (hallowed : allowed cfg s (.reserve len pgOff) = true) :
    len < 2^30 ∧ boundary s.base s.records + reserved len ≤ s.consumer.toNat + cfg.size := by
  rw [allowed, Bool.and_eq_true, decide_eq_true_eq, decide_eq_true_eq] at hallowed
  obtain ⟨hlen, hroom⟩ := hallowed
  refine ⟨hlen, ?_⟩
  have hbehind := h.behind
  have hold := h.room
  have hsize := size_le cfg
  have hspace := reserved_le len
  have hlt := s.consumer.isLt
  rw [h.producer, ← BitVec.ofNat_add, BitVec.toNat_sub, BitVec.toNat_ofNat] at hroom
  omega

theorem getElem?_snoc {rs : List Record} {r' : Record} {i : ℕ}
    (h : (rs ++ [r'])[i]? = some r) : rs[i]? = some r ∨ i = rs.length ∧ r = r' := by
  rcases Nat.lt_or_ge i rs.length with hlt | hge
  · rw [List.getElem?_append_left hlt] at h
    exact Or.inl h
  · rw [List.getElem?_append_right hge] at h
    obtain ⟨hi, hri⟩ := List.getElem?_eq_some_iff.mp h
    rw [List.length_singleton] at hi
    exact Or.inr ⟨by omega, by rw [← hri, List.getElem_singleton]⟩

theorem layout_reserve (h : Layout cfg s n)
    (hallowed : allowed cfg s (.reserve len pgOff) = true) :
    Layout cfg (reserve cfg len pgOff s) n := by
  obtain ⟨hlen, hroom⟩ := reserve_room h hallowed
  have hown := reserved_room len
  unfold hdrSz at hown
  have hbehind := h.behind
  have htake {k : ℕ} (hk : k ≤ s.records.length) (r' : Record) :
      (s.records ++ [r']).take k = s.records.take k := List.take_append_of_le_length hk
  -- Nothing between the positions is written.
  have hold {q k : ℕ} (hq : s.consumer.toNat ≤ q) (hk : q + k ≤ boundary s.base s.records)
      (w : U32) : getAll cfg.size (putAll cfg.size s.data (boundary s.base s.records)
        (wordBytes w ++ wordBytes pgOff)) q k = getAll cfg.size s.data q k := by
    apply getAll_putAll_disjoint
    · exact Or.inl hk
    · rw [List.length_append, length_wordBytes, length_wordBytes]
      omega
    · omega
  rw [reserve_eq h]
  constructor
  case le =>
    rw [List.length_append]
    exact h.le.trans (Nat.le_add_right ..)
  case producer => rw [boundary_append, List.map_singleton, List.sum_singleton]
  case consumer => rw [htake h.le, h.consumer]
  case room =>
    rw [boundary_append, List.map_singleton, List.sum_singleton]
    exact hroom
  case pos =>
    intro i r hr
    rcases getElem?_snoc hr with hr | ⟨rfl, rfl⟩
    · rw [htake (List.getElem?_eq_some_iff.mp hr).1.le]
      exact h.pos i r hr
    · rw [htake le_rfl, List.take_length]
  case len =>
    intro i r hr
    rcases getElem?_snoc hr with hr | ⟨rfl, rfl⟩
    · exact h.len i r hr
    · exact hlen
  case finished =>
    intro i r hi hr
    rcases getElem?_snoc hr with hr | ⟨rfl, rfl⟩
    · exact h.finished i r hi hr
    · exact absurd h.le (Nat.not_le.mpr hi)
  case header =>
    intro i r hi hr
    rcases getElem?_snoc hr with hr | ⟨rfl, rfl⟩
    · obtain ⟨hlow, hhigh⟩ := h.inside hi hr
      have hspace := reserved_room r.len
      unfold hdrSz at hspace
      rw [hold hlow (by omega)]
      exact h.header i r hi hr
    · apply getAll_putAll_left
      rw [List.length_append, length_wordBytes, length_wordBytes]
      omega
  case payload =>
    intro i r hi hr
    rcases getElem?_snoc hr with hr | ⟨rfl, rfl⟩
    · obtain ⟨hlow, hhigh⟩ := h.inside hi hr
      have hspace := reserved_room r.len
      rw [hold (hlow.trans (Nat.le_add_right ..)) (by omega)]
      exact h.payload i r hi hr
    · apply getAll_putAll_disjoint
      · exact Or.inr le_rfl
      · rw [List.length_append, length_wordBytes, length_wordBytes, hdrSz]
        dsimp only
        omega
      · rw [hdrSz]
        dsimp only
        omega

theorem unseen_reserve (s : Ring) (len : ℕ) (pgOff : U32) :
    Unseen cfg s (reserve cfg len pgOff s) where
  reader := rfl
  yielded := rfl
  length := by
    rw [reserve, List.length_append]
    exact Nat.le_add_right ..
  boundary k hk := by rw [reserve, List.take_append_of_le_length hk]
  events k hk _ := by rw [reserve, List.take_append_of_le_length hk]
  kept i r hr _ := by
    rw [reserve, List.getElem?_append_left (List.getElem?_eq_some_iff.mp hr).1]
    exact hr

theorem sound_reserve (h : Sound cfg s n)
    (hallowed : allowed cfg s (.reserve len pgOff) = true) :
    Sound cfg (reserve cfg len pgOff s) n :=
  ⟨layout_reserve h.layout hallowed,
    readerAt_unseen h.reader h.layout (unseen_reserve s len pgOff)⟩

end Reserve

section Write

variable {i : ℕ} {r' : Record}

/-- A record that is busy changes, but for its place and length. -/
theorem layout_set (h : Layout cfg s n) (data : ℕ → U8) (hr : s.records[i]? = some r)
    (hbusy : r.state = .busy) (hlen : r'.len = r.len) (hpos : r'.pos = r.pos)
    (hheader : getAll cfg.size data r.pos 4 = wordBytes r'.header)
    (hpayload : getAll cfg.size data (r.pos+hdrSz) r.len = r'.payload)
    (hothers : ∀ q k, s.consumer.toNat ≤ q → q + k ≤ boundary s.base s.records →
      (q + k ≤ r.pos ∨ r.pos + reserved r.len ≤ q) →
      getAll cfg.size data q k = getAll cfg.size s.data q k) :
    Layout cfg { s with data := data, records := s.records.set i r' } n := by
  obtain ⟨hi, -⟩ := List.getElem?_eq_some_iff.mp hr
  have hcases {j : ℕ} {x : Record} (hx : (s.records.set i r')[j]? = some x) :
      i = j ∧ x = r' ∨ i ≠ j ∧ s.records[j]? = some x := by
    by_cases hij : i = j
    · subst hij
      rw [List.getElem?_set_self hi] at hx
      exact Or.inl ⟨rfl, (Option.some.inj hx).symm⟩
    · rw [List.getElem?_set_ne hij] at hx
      exact Or.inr ⟨hij, hx⟩
  have hboundary (k : ℕ) : boundary s.base ((s.records.set i r').take k) =
      boundary s.base (s.records.take k) := boundary_take_set r' hr hlen k
  have hall : boundary s.base (s.records.set i r') = boundary s.base s.records := by
    have hall := hboundary s.records.length
    rwa [boundary_take_all List.length_set.le, boundary_take_all le_rfl] at hall
  -- The bytes of another record stand beside those of this one.
  have hbeside {j q k : ℕ} {x : Record} (hij : i ≠ j) (hj : n ≤ j) (hx : s.records[j]? = some x)
      (hlow : x.pos ≤ q) (hhigh : q + k ≤ x.pos + reserved x.len) :
      getAll cfg.size data q k = getAll cfg.size s.data q k := by
    obtain ⟨hfrom, hto⟩ := h.inside hj hx
    apply hothers q k (hfrom.trans hlow) (hhigh.trans hto)
    rcases h.apart hij hr hx with hbefore | hbehind
    · exact Or.inr (hbefore.trans hlow)
    · exact Or.inl (hhigh.trans hbehind)
  constructor
  case le =>
    rw [List.length_set]
    exact h.le
  case producer =>
    rw [hall]
    exact h.producer
  case consumer =>
    rw [hboundary n]
    exact h.consumer
  case room =>
    rw [hall]
    exact h.room
  case pos =>
    intro j x hx
    rw [hboundary j]
    rcases hcases hx with ⟨rfl, rfl⟩ | ⟨-, hx⟩
    · rw [hpos]
      exact h.pos i r hr
    · exact h.pos j x hx
  case len =>
    intro j x hx
    rcases hcases hx with ⟨rfl, rfl⟩ | ⟨-, hx⟩
    · rw [hlen]
      exact h.len i r hr
    · exact h.len j x hx
  case finished =>
    intro j x hj hx
    rcases hcases hx with ⟨rfl, rfl⟩ | ⟨-, hx⟩
    · exact absurd hbusy (h.finished i r hj hr)
    · exact h.finished j x hj hx
  case header =>
    intro j x hj hx
    rcases hcases hx with ⟨rfl, rfl⟩ | ⟨hij, hx⟩
    · rw [hpos]
      exact hheader
    · have hspace := reserved_room x.len
      unfold hdrSz at hspace
      rw [hbeside hij hj hx le_rfl (by omega)]
      exact h.header j x hj hx
  case payload =>
    intro j x hj hx
    rcases hcases hx with ⟨rfl, rfl⟩ | ⟨hij, hx⟩
    · rw [hpos, hlen]
      exact hpayload
    · have hspace := reserved_room x.len
      rw [hbeside hij hj hx (Nat.le_add_right ..) (by omega)]
      exact h.payload j x hj hx

theorem unseen_set (data : ℕ → U8) (hr : s.records[i]? = some r) (hbusy : r.state = .busy)
    (hlen : r'.len = r.len) :
    Unseen cfg s { s with data := data, records := s.records.set i r' } where
  reader := rfl
  yielded := rfl
  length := List.length_set.ge
  boundary k _ := boundary_take_set r' hr hlen k
  events k _ hk := by
    have hik : k ≤ i := by
      by_contra hlt
      exact hk i r (Nat.lt_of_not_le hlt) hr hbusy
    rw [List.take_set_of_le hik]
  kept j x hx hdone := by
    have hij : i ≠ j := by
      rintro rfl
      obtain rfl := Option.some.inj (hr.symm.trans hx)
      exact hdone hbusy
    rw [List.getElem?_set_ne hij]
    exact hx

theorem busy_not_passed (h : Layout cfg s n) (hr : s.records[i]? = some r)
    (hbusy : r.state = .busy) : n ≤ i := by
  by_contra hlt
  exact h.finished i r (Nat.lt_of_not_le hlt) hr hbusy

theorem sound_fill (h : Sound cfg s n) (k : ℕ) (b : U8)
    (hallowed : allowed cfg s (.fill i k b) = true) : Sound cfg (fill cfg i k b s) n := by
  rw [fill]
  cases hr : s.records[i]? with
  | none => exact h
  | some r =>
    rw [allowed, hr, Option.any_some, Bool.and_eq_true, decide_eq_true_eq,
      decide_eq_true_eq] at hallowed
    obtain ⟨hbusy, hk⟩ := hallowed
    have hi := busy_not_passed h.layout hr hbusy
    have hspace := reserved_room r.len
    unfold hdrSz at hspace
    obtain ⟨hlow, hhigh⟩ := h.layout.inside hi hr
    have hroom := h.layout.room
    refine ⟨layout_set h.layout _ hr hbusy rfl rfl ?_ ?_ ?_,
      readerAt_unseen h.reader h.layout (unseen_set _ hr hbusy rfl)⟩
    · have hheader := h.layout.header i r hi hr
      rw [getAll_put_disjoint _ _ _ (Or.inl (by unfold hdrSz; omega)) (by unfold hdrSz; omega)
        (by unfold hdrSz; omega)]
      exact hheader
    · rw [getAll_put_self _ _ _ hk (by omega), h.layout.payload i r hi hr]
    · intro q j hq hj hout
      apply getAll_put_disjoint
      · unfold hdrSz
        omega
      · unfold hdrSz
        omega
      · unfold hdrSz
        omega

theorem sound_finish (h : Sound cfg s n) (state : RecordState)
    (hallowed : allowed cfg s (.commit i) = true) : Sound cfg (finish cfg i state s) n := by
  rw [finish]
  cases hr : s.records[i]? with
  | none => exact h
  | some r =>
    rw [allowed, hr, Option.any_some, decide_eq_true_eq] at hallowed
    have hi := busy_not_passed h.layout hr hallowed
    have hspace := reserved_room r.len
    unfold hdrSz at hspace
    obtain ⟨hlow, hhigh⟩ := h.layout.inside hi hr
    have hroom := h.layout.room
    refine ⟨layout_set h.layout _ hr hallowed rfl rfl ?_ ?_ ?_,
      readerAt_unseen h.reader h.layout (unseen_set _ hr hallowed rfl)⟩
    · exact getAll_putAll _ _ _ (by rw [length_wordBytes]; omega)
    · have hpayload := h.layout.payload i r hi hr
      unfold hdrSz at hpayload ⊢
      rw [getAll_putAll_disjoint _ _ _ (Or.inr (by rw [length_wordBytes]; omega))
        (by rw [length_wordBytes]; omega) (by omega)]
      exact hpayload
    · intro q j hq hj hout
      apply getAll_putAll_disjoint
      · rw [length_wordBytes]
        omega
      · rw [length_wordBytes]
        omega
      · omega

end Write

/-! The reader keeps it too. -/

section Read

theorem events_take_succ (hr : s.records[n]? = some r) :
    events cfg (s.records.take (n+1)) = events cfg (s.records.take n) ++
      if r.state = .committed ∧ r.len = cfg.eventSize then [r.payload] else [] := by
  rw [List.take_add_one, hr, Option.toList_some, events, events, List.filter_append,
    List.map_append, List.filter_singleton]
  by_cases hevent : r.state = .committed ∧ r.len = cfg.eventSize
  · rw [decide_eq_true hevent, if_pos hevent]
    rfl
  · rw [decide_eq_false hevent, if_neg hevent]
    rfl

/-- The word at a masked position. -/
theorem word_masked (cfg : Config) (data : ℕ → U8) (p : ℕ) :
    getAll cfg.size data (p &&& (cfg.size-1)) 4 = getAll cfg.size data p 4 := by
  rw [Config.size, Nat.and_two_pow_sub_one_eq_mod]
  exact getAll_modEq (2^cfg.bits) data (Nat.mod_modEq ..) 4

theorem wordAt_self (w : U32) : wordAt (wordBytes w) 0 = w := by
  have hword := wordAt_wordBytes w []
  rw [List.append_nil] at hword
  exact hword

/-- The position passes one record. -/
theorem sound_publish (h : Layout cfg s n) {m : ℕ} (hm : n < m ∧ m ≤ s.records.length)
    (hr : s.records[n]? = some r) (hdone : r.state ≠ .busy)
    (hlt : boundary s.base (s.records.take (n+1)) < 2^64)
    (hyielded : s.yielded = events cfg (s.records.take (n+1))) :
    Sound cfg (publish (boundary s.base (s.records.take n)) r.len
      (boundary s.base (s.records.take m) % 2^64) s) (n+1) := by
  have hnext : boundary s.base (s.records.take (n+1)) = _ := boundary_take_succ hr
  have hconsumer : (BitVec.ofNat 64 (boundary s.base (s.records.take (n+1)))).toNat =
      boundary s.base (s.records.take (n+1)) := by
    rw [BitVec.toNat_ofNat]
    exact Nat.mod_eq_of_lt hlt
  rw [publish, ← reserved_eq, ← hnext, if_pos hlt]
  refine ⟨?_, .looping m ⟨hm.1, hm.2⟩ hyielded⟩
  constructor
  case le => exact Nat.le_trans hm.1 hm.2
  case producer => exact h.producer
  case consumer => exact hconsumer
  case room =>
    have hroom := h.room
    have hback : boundary s.base (s.records.take n) ≤ boundary s.base (s.records.take (n+1)) :=
      boundary_take_le (Nat.le_add_right n 1)
    rw [h.consumer] at hroom
    rw [hconsumer]
    exact hroom.trans (Nat.add_le_add_right hback _)
  case pos => exact h.pos
  case len => exact h.len
  case finished => exact finished_succ h.finished hr hdone
  case header => exact fun i r hi => h.header i r (Nat.le_of_succ_le hi)
  case payload => exact fun i r hi => h.payload i r (Nat.le_of_succ_le hi)

/-- It raises exactly if the record ends beyond the positions. -/
theorem publish_failed (hr : s.records[n]? = some r) (ppos : ℕ) :
    (publish (boundary s.base (s.records.take n)) r.len ppos s).reader = .failed ↔
      ¬boundary s.base (s.records.take (n+1)) < 2^64 := by
  rw [publish, ← reserved_eq, ← boundary_take_succ hr]
  split_ifs with hlt
  · exact iff_of_false nofun (not_not.mpr hlt)
  · exact iff_of_true rfl hlt

theorem publish_not_idle (cpos dataLen ppos : ℕ) (s : Ring) :
    (publish cpos dataLen ppos s).reader ≠ .idle := by
  rw [publish]
  split_ifs <;> exact nofun

/-- What the head of the loop does. -/
theorem look_eq (h : Layout cfg s n) {m : ℕ} (hm : n ≤ m ∧ m ≤ s.records.length) :
    let cpos := boundary s.base (s.records.take n)
    let ppos := boundary s.base (s.records.take m) % 2^64
    look cfg cpos ppos s = match s.records[n]? with
      | none => { s with reader := .idle }
      | some r =>
        if n = m ∨ r.state = .busy then { s with reader := .idle }
        else if r.state = .committed ∧ r.len = cfg.eventSize then
          { s with reader := .copying cpos r.len ppos }
        else publish cpos r.len ppos s := by
  intro cpos ppos
  have hends : cpos = ppos ↔ n = m := h.ends_iff hm
  cases hr : s.records[n]? with
  | none =>
    have hlast : n = m := Nat.le_antisymm hm.1
      (hm.2.trans (List.getElem?_eq_none_iff.mp hr))
    rw [look, if_pos (hends.mpr hlast)]
  | some r =>
    have hlen := h.len n r hr
    have hword : wordAt (getAll cfg.size s.data (cpos &&& (cfg.size-1)) 4) 0 = r.header := by
      have hpos : cpos = r.pos := (h.pos n r hr).symm
      rw [word_masked, hpos, h.header n r le_rfl hr, wordAt_self]
    rw [look]
    by_cases hlast : n = m
    · rw [if_pos (hends.mpr hlast)]
      exact (if_pos (Or.inl hlast)).symm
    · rw [if_neg (mt hends.mp hlast)]
      dsimp only
      rw [hword, header_len hlen]
      by_cases hbusy : r.state = .busy
      · rw [if_pos (mt (header_busy hlen).mp (not_not.mpr hbusy)), if_pos (Or.inr hbusy)]
      · have hclear : ¬(r.header &&& busyBit ≠ 0) := not_not.mpr ((header_busy hlen).mpr hbusy)
        have hcommitted : r.header &&& discardBit = 0 ↔ r.state = .committed := by
          rw [header_discard hlen]
          cases hstate : r.state with
          | busy => exact absurd hstate hbusy
          | committed => exact iff_of_true nofun rfl
          | discarded => exact iff_of_false (not_not.mpr rfl) nofun
        rw [if_neg hclear, if_neg (not_or.mpr ⟨hlast, hbusy⟩)]
        exact if_congr (and_congr_left' hcommitted) rfl rfl

/-- The record at the head of the loop, if the reader is about to pass it. -/
def PassesNext (cfg : Config) (s : Ring) (n m : ℕ) (r : Record) : Prop :=
  s.records[n]? = some r ∧ n ≠ m ∧ r.state ≠ .busy ∧
    ¬(r.state = .committed ∧ r.len = cfg.eventSize)

theorem look_idle_iff (h : Layout cfg s n) {m : ℕ} (hm : n ≤ m ∧ m ≤ s.records.length) :
    (look cfg (boundary s.base (s.records.take n))
      (boundary s.base (s.records.take m) % 2^64) s).reader = .idle ↔
      n = m ∨ ∃ r, s.records[n]? = some r ∧ r.state = .busy := by
  have hlook := look_eq h hm
  dsimp only at hlook
  rw [hlook]
  cases hr : s.records[n]? with
  | none =>
    have hlast : n = m := Nat.le_antisymm hm.1 (hm.2.trans (List.getElem?_eq_none_iff.mp hr))
    exact iff_of_true rfl (Or.inl hlast)
  | some r =>
    have hexists : (∃ r', some r = some r' ∧ r'.state = .busy) ↔ r.state = .busy :=
      ⟨fun ⟨r', heq, hbusy⟩ => Option.some.inj heq ▸ hbusy, fun hbusy => ⟨r, rfl, hbusy⟩⟩
    rw [hexists]
    dsimp only
    by_cases hend : n = m ∨ r.state = .busy
    · rw [if_pos hend]
      exact iff_of_true rfl hend
    · rw [if_neg hend]
      refine iff_of_false ?_ hend
      split_ifs
      · exact nofun
      · exact publish_not_idle _ _ _ s

theorem look_failed_iff (h : Layout cfg s n) {m : ℕ} (hm : n ≤ m ∧ m ≤ s.records.length) :
    (look cfg (boundary s.base (s.records.take n))
      (boundary s.base (s.records.take m) % 2^64) s).reader = .failed ↔
      ∃ r, PassesNext cfg s n m r ∧ ¬boundary s.base (s.records.take (n+1)) < 2^64 := by
  have hlook := look_eq h hm
  dsimp only at hlook
  rw [hlook]
  cases hr : s.records[n]? with
  | none =>
    refine iff_of_false nofun ?_
    rintro ⟨r, ⟨hr', -⟩, -⟩
    exact absurd (hr.symm.trans hr') nofun
  | some r =>
    have hexists : (∃ r', PassesNext cfg s n m r' ∧
        ¬boundary s.base (s.records.take (n+1)) < 2^64) ↔ (n ≠ m ∧ r.state ≠ .busy ∧
        ¬(r.state = .committed ∧ r.len = cfg.eventSize)) ∧
        ¬boundary s.base (s.records.take (n+1)) < 2^64 := by
      constructor
      · rintro ⟨r', ⟨hr', hpasses⟩, hover⟩
        obtain rfl := Option.some.inj (hr.symm.trans hr')
        exact ⟨hpasses, hover⟩
      · rintro ⟨hpasses, hover⟩
        exact ⟨r, ⟨hr, hpasses⟩, hover⟩
    rw [hexists]
    dsimp only
    split_ifs with hend hevent
    · refine iff_of_false nofun ?_
      rintro ⟨⟨hlast, hdone, -⟩, -⟩
      exact hend.elim hlast hdone
    · exact iff_of_false nofun fun hpasses => hpasses.1.2.2 hevent
    · rw [publish_failed hr]
      exact (and_iff_right ⟨mt Or.inl hend, mt Or.inr hend, hevent⟩).symm

theorem sound_look (h : Layout cfg s n) {m : ℕ} (hm : n ≤ m ∧ m ≤ s.records.length)
    (hyielded : s.yielded = events cfg (s.records.take n))
    (hfits : ∀ r, PassesNext cfg s n m r → boundary s.base (s.records.take (n+1)) < 2^64) :
    ∃ n', Sound cfg (look cfg (boundary s.base (s.records.take n))
      (boundary s.base (s.records.take m) % 2^64) s) n' := by
  have hstop : Sound cfg { s with reader := .idle } n := by
    refine ⟨?_, .idle hyielded⟩
    exact ⟨h.le, h.producer, h.consumer, h.room, h.pos, h.len, h.finished, h.header, h.payload⟩
  have hlook := look_eq h hm
  dsimp only at hlook
  rw [hlook]
  cases hr : s.records[n]? with
  | none => exact ⟨n, hstop⟩
  | some r =>
    dsimp only
    by_cases hend : n = m ∨ r.state = .busy
    · rw [if_pos hend]
      exact ⟨n, hstop⟩
    · obtain ⟨hlast, hdone⟩ := not_or.mp hend
      have hlt : n < m := Nat.lt_of_le_of_ne hm.1 hlast
      rw [if_neg hend]
      by_cases hevent : r.state = .committed ∧ r.len = cfg.eventSize
      · rw [if_pos hevent]
        refine ⟨n, ?_, .copying m r ⟨hlt, hm.2⟩ hr hevent.1 hevent.2 hyielded⟩
        exact ⟨h.le, h.producer, h.consumer, h.room, h.pos, h.len, h.finished, h.header,
          h.payload⟩
      · have hnone : s.yielded = events cfg (s.records.take (n+1)) := by
          rw [events_take_succ hr, if_neg hevent, List.append_nil]
          exact hyielded
        rw [if_neg hevent]
        exact ⟨n+1, sound_publish h ⟨hlt, hm.2⟩ hr hdone (hfits r ⟨hr, hlast, hdone, hevent⟩) hnone⟩

theorem sound_copy (h : Layout cfg s n) {m : ℕ} (hm : n < m ∧ m ≤ s.records.length)
    (hr : s.records[n]? = some r) (hcommitted : r.state = .committed)
    (hevent : r.len = cfg.eventSize) (hyielded : s.yielded = events cfg (s.records.take n)) :
    Sound cfg (copy cfg (boundary s.base (s.records.take n)) r.len
      (boundary s.base (s.records.take m) % 2^64) s) n := by
  have hpayload : getAll cfg.size s.data
      ((boundary s.base (s.records.take n) &&& (cfg.size-1)) + hdrSz) r.len = r.payload := by
    have hcell : r.pos % 2^cfg.bits + hdrSz ≡ r.pos + hdrSz [MOD 2^cfg.bits] :=
      (Nat.mod_modEq ..).add_right hdrSz
    rw [← h.pos n r hr, Config.size, Nat.and_two_pow_sub_one_eq_mod,
      getAll_modEq (2^cfg.bits) s.data hcell]
    exact h.payload n r le_rfl hr
  rw [copy, hpayload]
  refine ⟨?_, .yielded m r hm hr hcommitted ?_⟩
  · exact ⟨h.le, h.producer, h.consumer, h.room, h.pos, h.len, h.finished, h.header, h.payload⟩
  · rw [events_take_succ hr, if_pos ⟨hcommitted, hevent⟩, hyielded]

theorem sound_drain (h : Sound cfg s n) (hallowed : allowed cfg s .drain = true) :
    Sound cfg (step cfg s .drain) n := by
  have hyielded : s.yielded = events cfg (s.records.take n) := by
    have hreader := h.reader
    rw [allowed, Bool.or_eq_true, decide_eq_true_eq, decide_eq_true_eq] at hallowed
    rcases hallowed with hidle | hfailed
    · rw [hidle] at hreader
      cases hreader with
      | idle h => exact h
    · rw [hfailed] at hreader
      exact nomatch hreader
  have hl := h.layout
  refine ⟨?_, ?_⟩
  · exact ⟨hl.le, hl.producer, hl.consumer, hl.room, hl.pos, hl.len, hl.finished, hl.header,
      hl.payload⟩
  · have hall : boundary s.base (s.records.take s.records.length) = boundary s.base s.records :=
      boundary_take_all le_rfl
    have hproducer : s.producer.toNat = boundary s.base s.records % 2^64 := by
      rw [hl.producer, BitVec.toNat_ofNat]
    rw [step]
    dsimp only
    rw [hl.consumer, hproducer, ← hall]
    exact .looping s.records.length ⟨hl.le, le_rfl⟩ hyielded

/-- Records stand at different positions. -/
theorem record_at (h : Layout cfg s n) (hr : r ∈ s.records)
    (hpos : boundary s.base (s.records.take n) = r.pos) : s.records[n]? = some r := by
  obtain ⟨i, hi⟩ := List.mem_iff_getElem?.mp hr
  obtain ⟨hlt, -⟩ := List.getElem?_eq_some_iff.mp hi
  have hsame : boundary s.base (s.records.take n) = boundary s.base (s.records.take i) :=
    hpos.trans (h.pos i r hi)
  obtain rfl := boundary_injective h.le hlt.le hsame
  exact hi

/-- The end of the record that the reader stands at. -/
theorem record_end (h : Layout cfg s n) (hr : s.records[n]? = some r) :
    r.pos + reserved r.len = boundary s.base (s.records.take (n+1)) := by
  rw [h.pos n r hr, boundary_take_succ hr]

theorem fits_looping (h : Layout cfg s n) {m : ℕ} (hm : n ≤ m ∧ m ≤ s.records.length)
    (hat : s.reader = .looping (boundary s.base (s.records.take n))
      (boundary s.base (s.records.take m) % 2^64)) :
    Fits cfg s .next ↔
      ∀ r, PassesNext cfg s n m r → boundary s.base (s.records.take (n+1)) < 2^64 := by
  have hpasses (r : Record) : (r ∈ s.records ∧ s.reader.Passes cfg r) ↔
      PassesNext cfg s n m r := by
    rw [hat, Reader.Passes, Ne, h.ends_iff hm, PassesNext]
    constructor
    · rintro ⟨hr, hpos, hrest⟩
      exact ⟨record_at h hr hpos, hrest⟩
    · rintro ⟨hr, hrest⟩
      exact ⟨List.mem_of_getElem? hr, (h.pos n r hr).symm, hrest⟩
  constructor
  · intro hfits r hp
    rw [← record_end h hp.1]
    exact hfits rfl r ((hpasses r).mpr hp).1 ((hpasses r).mpr hp).2
  · intro hfits _ r hr hp
    have hnext := (hpasses r).mp ⟨hr, hp⟩
    rw [record_end h hnext.1]
    exact hfits r hnext

theorem fits_yielded (h : Layout cfg s n) {ppos : ℕ} (hr : s.records[n]? = some r)
    (hat : s.reader = .yielded (boundary s.base (s.records.take n)) r.len ppos) :
    Fits cfg s .next ↔ boundary s.base (s.records.take (n+1)) < 2^64 := by
  rw [← record_end h hr]
  constructor
  · intro hfits
    apply hfits rfl r (List.mem_of_getElem? hr)
    rw [hat]
    exact (h.pos n r hr).symm
  · intro hlt _ r' hr' hpos
    rw [hat] at hpos
    obtain rfl := Option.some.inj (hr.symm.trans (record_at h hr' hpos))
    exact hlt

theorem sound_next (h : Sound cfg s n) (hfits : Fits cfg s .next) :
    ∃ n', Sound cfg (next cfg s) n' := by
  have hreader := h.reader
  rw [next]
  generalize hat : s.reader = reader at hreader
  cases hreader with
  | idle => exact ⟨n, h⟩
  | looping m hm hyielded =>
    exact sound_look h.layout hm hyielded ((fits_looping h.layout hm hat).mp hfits)
  | copying m r hm hr hcommitted hevent hyielded =>
    exact ⟨n, sound_copy h.layout hm hr hcommitted hevent hyielded⟩
  | yielded m r hm hr hcommitted hyielded =>
    have hdone : r.state ≠ .busy := by
      rw [hcommitted]
      exact nofun
    have hlt := (fits_yielded h.layout hr hat).mp hfits
    exact ⟨n+1, sound_publish h.layout hm hr hdone hlt hyielded⟩

/-- A record that ends beyond the positions makes the reader raise. -/
theorem next_fails (h : Sound cfg s n) (hover : ¬Fits cfg s .next) :
    (next cfg s).reader = .failed := by
  have hreader := h.reader
  rw [next]
  generalize hat : s.reader = reader at hreader
  cases hreader with
  | idle =>
    refine absurd (fun _ r _ hp => ?_) hover
    rw [hat] at hp
    exact hp.elim
  | looping m hm hyielded =>
    dsimp only
    rw [look_failed_iff h.layout hm]
    rw [fits_looping h.layout hm hat] at hover
    push Not at hover
    obtain ⟨r, hpasses, hle⟩ := hover
    exact ⟨r, hpasses, Nat.not_lt.mpr hle⟩
  | copying m r hm hr hcommitted hevent hyielded =>
    refine absurd (fun _ r _ hp => ?_) hover
    rw [hat] at hp
    exact hp.elim
  | yielded m r hm hr hcommitted hyielded =>
    dsimp only
    rw [publish_failed hr]
    exact (fits_yielded h.layout hr hat).not.mp hover

end Read

/-! Over a run. -/

theorem sound_start (h : s.Start) : Sound cfg s 0 := by
  have hnone (i : ℕ) (r : Record) : s.records[i]? ≠ some r := by
    rw [h.records_eq, List.getElem?_nil]
    exact nofun
  have hbase : s.producer.toNat = boundary s.base [] := h.base_eq.symm
  have hproducer : s.producer = BitVec.ofNat 64 (boundary s.base []) := by
    rw [← hbase, BitVec.ofNat_toNat, BitVec.setWidth_eq]
  constructor
  · constructor
    case le => exact Nat.zero_le _
    case producer => rw [h.records_eq, hproducer]
    case consumer => rw [h.empty, List.take_zero, hbase]
    case room =>
      rw [h.empty, h.records_eq, hbase]
      exact Nat.le_add_right ..
    case finished => exact fun i r hi => absurd hi (Nat.not_lt_zero i)
    case pos => exact fun i r hr => absurd hr (hnone i r)
    case len => exact fun i r hr => absurd hr (hnone i r)
    case header => exact fun i r _ hr => absurd hr (hnone i r)
    case payload => exact fun i r _ hr => absurd hr (hnone i r)
  · rw [h.reader_eq]
    exact .idle h.yielded_eq

theorem sound_step (a : Action) (h : ∃ n, Sound cfg s n) (hallowed : allowed cfg s a = true)
    (hfits : Fits cfg s a) : ∃ n, Sound cfg (step cfg s a) n := by
  obtain ⟨n, h⟩ := h
  cases a with
  | reserve len pgOff => exact ⟨n, sound_reserve h hallowed⟩
  | fill i k b => exact ⟨n, sound_fill h k b hallowed⟩
  | commit i => exact ⟨n, sound_finish h .committed hallowed⟩
  | discard i => exact ⟨n, sound_finish h .discarded hallowed⟩
  | drain => exact ⟨n, sound_drain h hallowed⟩
  | next => exact sound_next h hfits

theorem finished_take (h : Finished s.records n) : ∀ r ∈ s.records.take n, r.state ≠ .busy := by
  intro r hr
  obtain ⟨i, hi, rfl⟩ := List.mem_iff_getElem.mp hr
  rw [List.length_take] at hi
  rw [List.getElem_take]
  exact h i _ (Nat.lt_of_lt_of_le hi (Nat.min_le_left ..))
    (List.getElem?_eq_getElem (Nat.lt_of_lt_of_le hi (Nat.min_le_right ..)))

theorem right_of_sound (h : Sound cfg s n) : Right cfg s := by
  have hl := h.layout
  have hreader := h.reader
  have hbefore := finished_take hl.finished
  have hstop : StopsRight cfg s n := by
    intro cpos ppos hat
    rw [hat] at hreader
    rw [next, hat, hl.consumer]
    cases hreader with
    | looping m hm hyielded =>
      dsimp only
      rw [look_idle_iff hl hm, hl.ends_iff hm]
  have hexact (hy : s.yielded = events cfg (s.records.take (n + s.reader.ahead)))
      (hf : ∀ r ∈ s.records.take (n + s.reader.ahead), r.state ≠ .busy) : Exact cfg s n := by
    refine ⟨?_, ⟨hl.le, hl.producer⟩, hy, hf⟩
    rw [← hl.consumer, BitVec.ofNat_toNat, BitVec.setWidth_eq]
  refine ⟨n, ?_⟩
  generalize hat : s.reader = reader at hreader hexact
  cases hreader with
  | idle hyielded => exact ⟨hexact hyielded hbefore, hstop, nofun⟩
  | looping m hm hyielded => exact ⟨hexact hyielded hbefore, hstop, nofun⟩
  | copying m r hm hr hcommitted hevent hyielded =>
    exact ⟨hexact hyielded hbefore, hstop, nofun⟩
  | yielded m r hm hr hcommitted hyielded =>
    have hdone : r.state ≠ .busy := by
      rw [hcommitted]
      exact nofun
    exact ⟨hexact hyielded (finished_take (finished_succ hl.finished hr hdone)), hstop, nofun⟩

/-- One step from a sound state. -/
theorem right_step (a : Action) (h : ∃ n, Sound cfg s n) (hallowed : allowed cfg s a = true) :
    Right cfg (step cfg s a) ↔ Fits cfg s a := by
  constructor
  · rintro ⟨-, -, -, hgoes⟩
    by_contra hover
    obtain ⟨n, h⟩ := h
    have hnext : a = .next := by
      by_contra hother
      exact hover fun heq => absurd heq hother
    subst hnext
    exact hgoes (next_fails h hover)
  · intro hfits
    obtain ⟨n', h'⟩ := sound_step a h hallowed hfits
    exact right_of_sound h'

/-- Over any interleaving, as long as the reader passes no record that ends at position `2^64`
or beyond, and no longer, `drain` has yielded the committed events in the order of their
reservation, once each, as far as the position has passed the records; it stops where it
should, and does not fail. -/
theorem drain_exact (cfg : Config) (s : Ring) (actions : List Action) (hs : s.Start)
    (hrun : Guarded (step cfg) (fun s a => allowed cfg s a = true) s actions) :
    Guarded (step cfg) (fun s a => Right cfg (step cfg s a)) s actions ↔
      Guarded (step cfg) (Fits cfg) s actions :=
  guarded_congr_of_kept (step cfg) _ (fun s => ∃ n, Sound cfg s n)
    (fun _ a h hallowed hfits => sound_step a h hallowed hfits)
    (fun _ a h hallowed => right_step a h hallowed) s actions ⟨0, sound_start hs⟩ hrun

/-- A ring of 256 bytes, about to come round, with one of two records left busy. -/
def aroundStart : Ring where
  data := fun _ => 0
  consumer := 200
  producer := 200
  base := 200

def aroundRun : List Action :=
  [.reserve 48 7, .reserve 5 9, .reserve 48 7, .fill 2 0 1, .commit 2, .discard 1, .drain, .next,
    .commit 0, .drain, .next, .next, .next, .next, .next, .next]

theorem drain_exact_around :
    Guarded (step ⟨8, 48, by decide⟩)
      (fun s a => Right ⟨8, 48, by decide⟩ (step ⟨8, 48, by decide⟩ s a)) aroundStart aroundRun :=
  (drain_exact ⟨8, 48, by decide⟩ aroundStart aroundRun ⟨rfl, rfl, rfl, rfl, rfl⟩
    (by decide +kernel)).mpr (by decide +kernel)

/-- A ring whose next record goes eight bytes beyond position `2^64`. -/
def lapStart : Ring where
  data := fun _ => 0
  consumer := BitVec.ofNat 64 (2^64-48)
  producer := BitVec.ofNat 64 (2^64-48)
  base := 2^64-48

def lapRun : List Action := [.reserve 48 7, .commit 0, .drain, .next, .next, .next]

/-- `_set_cpos` raises behind the record, and leaves the consumer in the middle of it. -/
theorem lap_off_boundary :
    ¬∀ (cfg : Config) (s : Ring) (actions : List Action), s.Start →
      Guarded (step cfg) (fun s a => allowed cfg s a = true) s actions →
      ∃ n, Exact cfg (actions.foldl (step cfg) s) n := by
  intro h
  obtain ⟨n, hexact⟩ := h ⟨8, 48, by decide⟩ lapStart lapRun ⟨rfl, rfl, rfl, rfl, rfl⟩
    (by decide +kernel)
  have hlength : (lapRun.foldl (step ⟨8, 48, by decide⟩) lapStart).records.length = 1 := by
    decide +kernel
  have hn := hexact.behind.1
  have hconsumer := hexact.boundary_eq
  rw [hlength] at hn
  rcases Nat.le_one_iff_eq_zero_or_eq_one.mp hn with rfl | rfl
  · exact absurd hconsumer (by decide +kernel)
  · exact absurd hconsumer (by decide +kernel)

end AutoXdp.Ringbuf
