import AutoXdp.ByteOrder
import AutoXdp.NftScript
import AutoXdp.XdpRateLimit
import Mathlib.Tactic.Basic

/-! Source masks of the rate limiter on machines of either byte order
(`bpf/include/rate_limit.h`), and the masks that the nftables backend writes for the
same prefix lengths (`auto_xdp/backends/nftables.py`). -/
namespace AutoXdp.SourceMask
open ByteOrder

/-! The keys of the XDP program. An address stands in memory in network byte order, and
the program loads its words in the order of the machine. -/

/-- `__u32 saddr[4]`. -/
@[ext] structure Words where
  w0 : U32
  w1 : U32
  w2 : U32
  w3 : U32
  deriving DecidableEq, Repr

/-- The sixteen bytes in memory. -/
def Words.bytes (e : Endian) (a : Words) : List U8 :=
  store e a.w0 ++ (store e a.w1 ++ (store e a.w2 ++ store e a.w3))

def ctFamilyIpv4 : U8 := 2
def ctFamilyIpv6 : U8 := 10

def maskSourceWord (e : Endian) (word prefixBits : U32) : U32 :=
  if prefixBits ≥ 32 then word
  else if prefixBits = 0 then 0
  else
    let mask := 0xFFFFFFFF#32 <<< (32 - prefixBits)
    word &&& htonl e mask

def fillMaskedSourceWords (e : Endian) (input : Words) (family : U8) (prefixV4 prefixV6 : U32) :
    Words :=
  if family = ctFamilyIpv4 then
    let prefixV4 := if prefixV4 > 32 then 32 else prefixV4
    ⟨maskSourceWord e input.w0 prefixV4, 0, 0, 0⟩
  else
    let prefixV6 := if prefixV6 > 128 then 128 else prefixV6
    if prefixV6 ≥ 32 then
      let prefixV6 := prefixV6 - 32
      if prefixV6 ≥ 32 then
        let prefixV6 := prefixV6 - 32
        if prefixV6 ≥ 32 then
          let prefixV6 := prefixV6 - 32
          ⟨input.w0, input.w1, input.w2, maskSourceWord e input.w3 prefixV6⟩
        else ⟨input.w0, input.w1, maskSourceWord e input.w2 prefixV6, 0⟩
      else ⟨input.w0, maskSourceWord e input.w1 prefixV6, 0, 0⟩
    else ⟨maskSourceWord e input.w0 prefixV6, 0, 0, 0⟩

/-- `rkey->addr` of `fill_source_rate_key_v4`. -/
def fillSourceRateKeyV4 (e : Endian) (saddr : Words) (prefixV4 : U32) : U32 :=
  let prefixV4 := if prefixV4 > 32 then 32 else prefixV4
  maskSourceWord e saddr.w0 prefixV4

/-- `rkey->addr` of `fill_source_rate_key_v6`. -/
def fillSourceRateKeyV6 (e : Endian) (saddr : Words) (prefixV6 : U32) : Words :=
  fillMaskedSourceWords e saddr ctFamilyIpv6 0 prefixV6

/-! The masks of nftables: the text that `ipaddress` makes of a prefix length, and the
bytes that `nft` reads in it. -/

/-- `_ip_int_from_prefix`. -/
def ipIntFromPrefix (bits prefixlen : ℕ) : BitVec bits :=
  BitVec.allOnes bits ^^^ (BitVec.allOnes bits >>> prefixlen)

/-- An address of `n` bytes as they are sent. -/
def networkBytes (n : ℕ) (ip : BitVec (8*n)) : List U8 :=
  (List.range n).map fun k => ip.extractLsb' (8*(n-1-k)) 8

/-- `IPv4Address._string_from_ip_int`. -/
def dotted (ip : BitVec 32) : List Char :=
  ['.'].intercalate ((networkBytes 4 ip).map fun b => Nat.toDigits 10 b.toNat)

/-- The run of zeros that `_compress_hextets` cuts out: where it starts, and its length. -/
structure ZeroRuns where
  bestStart : ℕ := 0
  bestLen : ℕ := 0
  start : Option ℕ := none
  len : ℕ := 0

def ZeroRuns.next (r : ZeroRuns) (hextet : List Char × ℕ) : ZeroRuns :=
  if hextet.1 == ['0'] then
    let start := r.start.getD hextet.2
    let len := r.len + 1
    if len > r.bestLen then ⟨start, len, some start, len⟩ else { r with start := some start, len := len }
  else { r with start := none, len := 0 }

def compressHextets (hextets : List (List Char)) : List (List Char) :=
  let r := hextets.zipIdx.foldl ZeroRuns.next {}
  if r.bestLen > 1 then
    let stop := r.bestStart + r.bestLen
    let back := if stop = hextets.length then [[]] else []
    let front := if r.bestStart = 0 then [[]] else []
    front ++ hextets.take r.bestStart ++ [[]] ++ hextets.drop stop ++ back
  else hextets

/-- `IPv6Address._string_from_ip_int`. -/
def colons (ip : BitVec 128) : List Char :=
  let hextets := (List.range 8).map fun k => Nat.toDigits 16 (ip.extractLsb' (16*(7-k)) 16).toNat
  [':'].intercalate (compressHextets hextets)

/-- `str(network.netmask)`. -/
def netmask (fam : IpFamily) (prefixlen : ℕ) : String :=
  String.ofList <| match fam with
    | .ipv4 => dotted (ipIntFromPrefix 32 prefixlen)
    | .ipv6 => colons (ipIntFromPrefix 128 prefixlen)

def digit (c : Char) : ℕ :=
  if c.toNat < 58 then c.toNat - 48 else c.toNat - 87

/-- The digits up to `f`, in lower case. -/
def isDigit (b : ℕ) (c : Char) : Bool :=
  (48 ≤ c.toNat && c.toNat < 58 || 97 ≤ c.toNat && c.toNat < 103) && digit c < b

/-- A number in base `b` of at most `digits` digits. -/
def number (b digits : ℕ) (field : List Char) : Option ℕ :=
  if !field.isEmpty && field.length ≤ digits && field.all (isDigit b) then
    some (field.foldl (fun n c => b*n + digit c) 0)
  else none

/-- `inet_pton(AF_INET, ...)`. -/
def inetPton4 (text : List Char) : Option (List U8) := do
  let octets ← (text.splitOn '.').mapM (number 10 3)
  if octets.length = 4 ∧ ∀ o ∈ octets, o < 256 then some (octets.map (BitVec.ofNat 8)) else none

/-- `inet_pton(AF_INET6, ...)` on text without a dotted quad: of two colons in a row the
fields are empty, and they stand for as many zeros as there is room for. -/
def inetPton6 (text : List Char) : Option (List U8) := do
  let fields := text.splitOn ':'
  let front := fields.takeWhile (!·.isEmpty)
  let rest := fields.drop front.length
  let back := (rest.reverse.takeWhile (!·.isEmpty)).reverse
  let gap := rest.length - back.length
  let empty := 1 + (if front.isEmpty then 1 else 0) + (if back.isEmpty then 1 else 0)
  let front ← front.mapM (number 16 4)
  let back ← back.mapM (number 16 4)
  let zeros := 8 - (front.length + back.length)
  let hextets := front ++ List.replicate zeros 0 ++ back
  if hextets.length = 8 && (if rest.isEmpty then zeros == 0 else zeros > 0 && gap == empty) then
    some (hextets.flatMap fun h => [BitVec.ofNat 8 (h/256), BitVec.ofNat 8 h])
  else none

/-- What `nft` takes from the text of `_prefix_mask`. -/
def nftMask (ip : NftScript.IpAddress) (fam : IpFamily) (pfx : ℤ) : Option (List U8) :=
  let text := (NftScript.prefixMask { ip with netmask := netmask } fam pfx).toList
  match fam with
  | .ipv4 => inetPton4 text
  | .ipv6 => inetPton6 text

/-! What a mask does, bit by bit. -/

variable {e : Endian} {i : ℕ}

theorem wordBit_mask (e : Endian) (word p : U32) (hi : i < 32) :
    wordBit e (maskSourceWord e word p) i = (wordBit e word i && decide (i < p.toNat)) := by
  unfold maskSourceWord
  split_ifs with hall hnone
  · have hp : i < p.toNat := by
      have : 32 ≤ p.toNat := hall
      omega
    rw [decide_eq_true hp, Bool.and_true]
  · rw [hnone, wordBit_zero hi]
    exact (Bool.and_false _).symm
  · have hlow : p.toNat < 32 := not_le.mp hall
    have hcount : (32 - p).toNat = 32 - p.toNat := by
      rw [BitVec.toNat_sub_of_le (BitVec.le_def.mpr hlow.le)]
      rfl
    have hpos : 0 < p.toNat := by
      rcases Nat.eq_zero_or_pos p.toNat with hp | hp
      · exact absurd (BitVec.eq_of_toNat_eq hp) hnone
      · exact hp
    rw [wordBit_and hi, wordBit_htonl e _ hi, BitVec.shiftLeft_eq', BitVec.getLsbD_shiftLeft, hcount]
    congr 1
    have hones : (0xFFFFFFFF#32).getLsbD (31 - i - (32 - p.toNat)) = true := by
      change (BitVec.allOnes 32).getLsbD _ = true
      rw [BitVec.getLsbD_allOnes]
      exact decide_eq_true (by omega)
    rw [hones, Bool.and_true, decide_eq_true (by omega : 31 - i < 32), Bool.true_and,
      ← decide_not, decide_eq_decide]
    omega

theorem clamped (p m : U32) : (if p > m then m else p).toNat = min p.toNat m.toNat := by
  split_ifs with h
  · exact (min_eq_right h.le).symm
  · exact (min_eq_left (not_lt.mp h)).symm

/-- The bits of an address are those of its words. -/
theorem bitAt_bytes (e : Endian) (a : Words) (hi : i < 128) :
    bitAt (a.bytes e) i =
      if i < 32 then wordBit e a.w0 i else if i < 64 then wordBit e a.w1 (i-32)
      else if i < 96 then wordBit e a.w2 (i-64) else wordBit e a.w3 (i-96) := by
  have hlen (w : U32) : 8*(store e w).length = 32 := by rw [length_store]
  have hskip (w : U32) (bs : List U8) (j : ℕ) (hj : 32 ≤ j) :
      bitAt (store e w ++ bs) j = bitAt bs (j-32) := by
    have h : bitAt (store e w ++ bs) (8*(store e w).length + (j-32)) = bitAt bs (j-32) :=
      bitAt_append_right
    rwa [hlen, Nat.add_sub_cancel' hj] at h
  have hhead (w : U32) (bs : List U8) (j : ℕ) (hj : j < 32) :
      bitAt (store e w ++ bs) j = wordBit e w j := bitAt_append_left (by rwa [hlen])
  unfold Words.bytes
  split_ifs with h0 h1 h2
  · exact hhead _ _ _ h0
  · rw [hskip _ _ _ (by omega), hhead _ _ _ (by omega)]
  · rw [hskip _ _ _ (by omega), hskip _ _ _ (by omega), hhead _ _ _ (by omega), Nat.sub_sub]
  · rw [hskip _ _ _ (by omega), hskip _ _ _ (by omega), hskip _ _ _ (by omega), Nat.sub_sub,
      Nat.sub_sub]
    rfl

/-- The word behind the first `k` bits has of its bits those before bit `n`. -/
def Kept (e : Endian) (n k : ℕ) (out word : U32) : Prop :=
  ∀ i < 32, wordBit e out i = (wordBit e word i && decide (k + i < n))

theorem kept_whole (word : U32) {n k : ℕ} (h : k + 32 ≤ n) : Kept e n k word word := by
  intro i hi
  have hlow : k + i < n := by omega
  rw [decide_eq_true hlow, Bool.and_true]

theorem kept_none (word : U32) {n k : ℕ} (h : n ≤ k) : Kept e n k 0 word := by
  intro i hi
  have hhigh : ¬k + i < n := by omega
  rw [wordBit_zero hi, decide_eq_false hhigh, Bool.and_false]

theorem kept_mask (word : U32) {p : U32} {n k : ℕ} (h : p.toNat = n-k) :
    Kept e n k (maskSourceWord e word p) word := by
  intro i hi
  have hiff : i < p.toNat ↔ k + i < n := by omega
  rw [wordBit_mask e _ _ hi, decide_eq_decide.mpr hiff]

theorem bitAt_kept {out a : Words} {n : ℕ} (h0 : Kept e n 0 out.w0 a.w0)
    (h1 : Kept e n 32 out.w1 a.w1) (h2 : Kept e n 64 out.w2 a.w2) (h3 : Kept e n 96 out.w3 a.w3)
    (hi : i < 128) : bitAt (out.bytes e) i = (bitAt (a.bytes e) i && decide (i < n)) := by
  rw [bitAt_bytes e out hi, bitAt_bytes e a hi]
  split_ifs with hw0 hw1 hw2
  · rw [h0 i hw0, Nat.zero_add]
  · rw [h1 (i-32) (by omega), Nat.add_sub_cancel' (by omega : 32 ≤ i)]
  · rw [h2 (i-64) (by omega), Nat.add_sub_cancel' (by omega : 64 ≤ i)]
  · rw [h3 (i-96) (by omega), Nat.add_sub_cancel' (by omega : 96 ≤ i)]

/-- The cascade of `fill_masked_source_words` keeps the first `prefix_v6` bits. -/
theorem bitAt_v6 (e : Endian) (a : Words) (p4 p : U32) (hi : i < 128) :
    bitAt ((fillMaskedSourceWords e a ctFamilyIpv6 p4 p).bytes e) i =
      (bitAt (a.bytes e) i && decide (i < p.toNat)) := by
  have hfam : ¬ctFamilyIpv6 = ctFamilyIpv4 := by decide
  have hclamp := clamped p 128
  simp only [fillMaskedSourceWords, if_neg hfam]
  generalize (if p > 128 then 128 else p) = q at hclamp
  have hmax : (128 : U32).toNat = 128 := rfl
  have hq : i < p.toNat ↔ i < q.toNat := by omega
  rw [decide_eq_decide.mpr hq]
  have hless (r : U32) (h : ¬r ≥ 32) : r.toNat < 32 := not_le.mp h
  have hmore (r : U32) (h : r ≥ 32) : 32 ≤ r.toNat ∧ (r - 32).toNat = r.toNat - 32 :=
    ⟨h, BitVec.toNat_sub_of_le h⟩
  split_ifs with h0 h1 h2
  · obtain ⟨hq0, hr0⟩ := hmore _ h0
    obtain ⟨hq1, hr1⟩ := hmore _ h1
    obtain ⟨hq2, hr2⟩ := hmore _ h2
    exact bitAt_kept (kept_whole _ (by omega)) (kept_whole _ (by omega)) (kept_whole _ (by omega))
      (kept_mask _ (by omega)) hi
  · obtain ⟨hq0, hr0⟩ := hmore _ h0
    obtain ⟨hq1, hr1⟩ := hmore _ h1
    have hq2 := hless _ h2
    exact bitAt_kept (kept_whole _ (by omega)) (kept_whole _ (by omega)) (kept_mask _ (by omega))
      (kept_none _ (by omega)) hi
  · obtain ⟨hq0, hr0⟩ := hmore _ h0
    have hq1 := hless _ h1
    exact bitAt_kept (kept_whole _ (by omega)) (kept_mask _ (by omega)) (kept_none _ (by omega))
      (kept_none _ (by omega)) hi
  · have hq0 := hless _ h0
    exact bitAt_kept (kept_mask _ (by omega)) (kept_none _ (by omega)) (kept_none _ (by omega))
      (kept_none _ (by omega)) hi

theorem wordBit_v4 (e : Endian) (word p : U32) (hi : i < 32) :
    wordBit e (maskSourceWord e word (if p > 32 then 32 else p)) i =
      (wordBit e word i && decide (i < p.toNat)) := by
  have hclamp := clamped p 32
  have hmax : (32 : U32).toNat = 32 := rfl
  have hiff : i < min p.toNat 32 ↔ i < p.toNat := lt_min_iff.trans (and_iff_left hi)
  rw [wordBit_mask e _ _ hi, hclamp, hmax, decide_eq_decide.mpr hiff]

/-! The masks of nftables, bit by bit. -/

theorem length_networkBytes (n : ℕ) (ip : BitVec (8*n)) : (networkBytes n ip).length = n := by
  rw [networkBytes, List.length_map, List.length_range]

theorem bitAt_networkBytes {n : ℕ} (ip : BitVec (8*n)) (hi : i < 8*n) :
    bitAt (networkBytes n ip) i = ip.getLsbD (8*n-1-i) := by
  have hbyte : i/8 < (networkBytes n ip).length := by
    rw [length_networkBytes]
    omega
  rw [bitAt, List.getD_eq_getElem _ _ hbyte]
  simp only [networkBytes, List.getElem_map, List.getElem_range, BitVec.getMsbD,
    BitVec.getLsbD_extractLsb']
  rw [decide_eq_true (by omega : i%8 < 8), decide_eq_true (by omega : 8-1-i%8 < 8), Bool.true_and,
    Bool.true_and]
  congr 1
  omega

theorem getLsbD_ipInt {bits k : ℕ} (p : ℕ) (hp : p ≤ bits) (hk : k < bits) :
    (ipIntFromPrefix bits p).getLsbD k = decide (bits - p ≤ k) := by
  rw [ipIntFromPrefix, BitVec.getLsbD_xor, BitVec.getLsbD_ushiftRight, BitVec.getLsbD_allOnes,
    BitVec.getLsbD_allOnes, decide_eq_true hk, Bool.true_xor, ← decide_not, decide_eq_decide]
  omega

theorem inetPton4_dotted : ∀ p < 33,
    inetPton4 (dotted (ipIntFromPrefix 32 p)) = some (networkBytes 4 (ipIntFromPrefix 32 p)) := by
  decide +kernel

theorem inetPton6_colons : ∀ p < 129,
    inetPton6 (colons (ipIntFromPrefix 128 p)) = some (networkBytes 16 (ipIntFromPrefix 128 p)) := by
  decide +kernel

/-! The same masks on addresses as numbers. -/

/-- The words that a machine loads of an IPv6 address. -/
def Words.ofV6 (e : Endian) (a : U128) : Words :=
  ⟨htonl e (a.extractLsb' 96 32), htonl e (a.extractLsb' 64 32), htonl e (a.extractLsb' 32 32),
    htonl e (a.extractLsb' 0 32)⟩

theorem maskSourceWord_htonl (e : Endian) (word p : U32) :
    maskSourceWord e (htonl e word) p = htonl e (AutoXdp.maskSourceWord word p) := by
  unfold maskSourceWord AutoXdp.maskSourceWord
  split_ifs
  · rfl
  · exact (htonl_zero e).symm
  · exact (htonl_and e _ _).symm

theorem fillMaskedSource_v4 (e : Endian) (a p4 p6 : U32) (w1 w2 w3 : U32) :
    fillMaskedSource (.v4 a) p4 p6 = .v4 (AutoXdp.maskSourceWord a (if p4 > 32 then 32 else p4)) ∧
    fillSourceRateKeyV4 e ⟨htonl e a, w1, w2, w3⟩ p4 =
      htonl e (AutoXdp.maskSourceWord a (if p4 > 32 then 32 else p4)) :=
  ⟨rfl, maskSourceWord_htonl e a _⟩

theorem ofV6_append (e : Endian) (w0 w1 w2 w3 : U32) :
    Words.ofV6 e (w0 ++ (w1 ++ (w2 ++ w3))) = ⟨htonl e w0, htonl e w1, htonl e w2, htonl e w3⟩ := by
  have h0 : (w0 ++ (w1 ++ (w2 ++ w3))).extractLsb' 96 32 = w0 := BitVec.extractLsb'_append_eq_left
  have h1 : (w0 ++ (w1 ++ (w2 ++ w3))).extractLsb' 64 32 = w1 :=
    (BitVec.extractLsb'_append_eq_of_add_le (by decide)).trans BitVec.extractLsb'_append_eq_left
  have h2 : (w0 ++ (w1 ++ (w2 ++ w3))).extractLsb' 32 32 = w2 :=
    (BitVec.extractLsb'_append_eq_of_add_le (by decide)).trans <|
      (BitVec.extractLsb'_append_eq_of_add_le (by decide)).trans BitVec.extractLsb'_append_eq_left
  have h3 : (w0 ++ (w1 ++ (w2 ++ w3))).extractLsb' 0 32 = w3 :=
    (BitVec.extractLsb'_append_eq_of_add_le (by decide)).trans <|
      (BitVec.extractLsb'_append_eq_of_add_le (by decide)).trans BitVec.extractLsb'_append_eq_right
  rw [Words.ofV6, h0, h1, h2, h3]

theorem fillMaskedSource_v6 (e : Endian) (a : U128) (p4 p6 : U32) :
    ∃ masked, fillMaskedSource (.v6 a) p4 p6 = .v6 masked ∧
      fillSourceRateKeyV6 e (Words.ofV6 e a) p6 = Words.ofV6 e masked := by
  refine ⟨_, rfl, ?_⟩
  have hfam : ¬ctFamilyIpv6 = ctFamilyIpv4 := by decide
  have hz96 : 0#96 = 0#32 ++ (0#32 ++ 0#32) := by decide
  have hz64 : 0#64 = 0#32 ++ 0#32 := by decide
  have hzero : htonl e 0#32 = 0 := htonl_zero e
  simp only [fillSourceRateKeyV6, fillMaskedSourceWords, if_neg hfam, maskedV6Words]
  generalize (if p6 > 128 then 128 else p6) = q
  have hge (r : U32) (h : r ≥ 32) : ¬r < 32 := fun hr => Nat.lt_irrefl _ (hr.trans_le h)
  have hlt (r : U32) (h : ¬r ≥ 32) : r < 32 := Nat.lt_of_not_le h
  by_cases h0 : q ≥ 32
  · by_cases h1 : q - 32 ≥ 32
    · by_cases h2 : q - 32 - 32 ≥ 32
      · rw [if_pos h0, if_pos h1, if_pos h2, if_neg (hge _ h0), if_neg (hge _ h1),
          if_neg (hge _ h2), ofV6_append, ← maskSourceWord_htonl]
        rfl
      · rw [if_pos h0, if_pos h1, if_neg h2, if_neg (hge _ h0), if_neg (hge _ h1),
          if_pos (hlt _ h2), ofV6_append, ← maskSourceWord_htonl, hzero]
        rfl
    · rw [if_pos h0, if_neg h1, if_neg (hge _ h0), if_pos (hlt _ h1), hz64, ofV6_append,
        ← maskSourceWord_htonl, hzero]
      rfl
  · rw [if_neg h0, if_pos (hlt _ h0), hz96, ofV6_append, ← maskSourceWord_htonl, hzero]
    rfl

/-- The keys of prefix length `p` mask an address of so many bits. -/
structure Exact {α β : Type} (bits : ℕ) (bytes : α → List U8) (keyBytes : β → List U8)
    (key : U32 → α → β) (nft : U32 → Option (List U8)) : Prop where
  groups : ∀ p a b, key p a = key p b ↔
    ∀ i < min p.toNat bits, bitAt (bytes a) i = bitAt (bytes b) i
  idem : ∀ p a c, bytes c = keyBytes (key p a) → key p c = key p a
  comp : ∀ p q a c, bytes c = keyBytes (key p a) → key q c = key (if p ≤ q then p else q) a
  nftables : ∀ p a, ∃ mask, nft p = some mask ∧
    keyBytes (key p a) = List.zipWith (· &&& ·) (bytes a) mask

section Exact

variable {α β : Type} {n : ℕ} {bytes : α → List U8} {keyBytes : β → List U8} {key : U32 → α → β}
variable {nft : U32 → Option (List U8)}

theorem exact_of_bits (hlen : ∀ a, (bytes a).length = n) (hlen' : ∀ k, (keyBytes k).length = n)
    (hinj : ∀ p q a b, keyBytes (key p a) = keyBytes (key q b) → key p a = key q b)
    (hbit : ∀ p a, ∀ i < 8*n, bitAt (keyBytes (key p a)) i =
      (bitAt (bytes a) i && decide (i < p.toNat)))
    (hnft : ∀ p, nft p = some (networkBytes n (ipIntFromPrefix (8*n) (min p.toNat (8*n))))) :
    Exact (8*n) bytes keyBytes key nft := by
  have hext {p q : U32} {a b : α} (h : ∀ i < 8*n, bitAt (keyBytes (key p a)) i =
      bitAt (keyBytes (key q b)) i) : key p a = key q b := by
    apply hinj
    apply ext_bitAt ((hlen' _).trans (hlen' _).symm)
    rwa [hlen']
  have hcomp (p q : U32) (a c : α) (hc : bytes c = keyBytes (key p a)) :
      key q c = key (if p ≤ q then p else q) a := by
    apply hext
    intro i hi
    rw [hbit q c i hi, hc, hbit p a i hi, hbit _ a i hi, Bool.and_assoc, ← Bool.decide_and]
    congr 1
    rw [decide_eq_decide]
    split_ifs with h
    · have : p.toNat ≤ q.toNat := h
      omega
    · have : q.toNat < p.toNat := not_le.mp h
      omega
  refine ⟨fun p a b => ⟨fun h i hi => ?_, fun h => hext fun i hi => ?_⟩, fun p a c hc => ?_, hcomp,
    fun p a => ⟨_, hnft p, ?_⟩⟩
  · obtain ⟨hp, hn⟩ := lt_min_iff.mp hi
    have hab := congrArg (fun k => bitAt (keyBytes k) i) h
    simp only [hbit p _ i hn, decide_eq_true hp, Bool.and_true] at hab
    exact hab
  · rw [hbit p a i hi, hbit p b i hi]
    by_cases hp : i < p.toNat
    · rw [h i (lt_min hp hi)]
    · rw [decide_eq_false hp, Bool.and_false, Bool.and_false]
  · rw [hcomp p p a c hc, ite_self]
  · have hmask := length_networkBytes n (ipIntFromPrefix (8*n) (min p.toNat (8*n)))
    have hboth := (hlen a).trans hmask.symm
    apply ext_bitAt
    · rw [hlen', List.length_zipWith, hlen, hmask, min_self]
    rw [hlen']
    intro i hi
    rw [hbit p a i hi, bitAt_zipWith_and hboth (by rwa [hlen]), bitAt_networkBytes _ hi,
      getLsbD_ipInt _ (min_le_right ..) (by omega)]
    congr 1
    rw [decide_eq_decide]
    omega

end Exact

theorem nftMask_ipv4 (ip : NftScript.IpAddress) (p : ℕ) :
    nftMask ip .ipv4 p = some (networkBytes 4 (ipIntFromPrefix 32 (min p 32))) := by
  have hclamp : (max 0 (min 32 (p : ℤ))).toNat = min p 32 := by omega
  rw [← inetPton4_dotted (min p 32) (by omega), ← hclamp]
  simp only [nftMask, NftScript.prefixMask, netmask, String.toList_ofList]

theorem nftMask_ipv6 (ip : NftScript.IpAddress) (p : ℕ) :
    nftMask ip .ipv6 p = some (networkBytes 16 (ipIntFromPrefix 128 (min p 128))) := by
  have hclamp : (max 0 (min 128 (p : ℤ))).toNat = min p 128 := by omega
  rw [← inetPton6_colons (min p 128) (by omega), ← hclamp]
  simp only [nftMask, NftScript.prefixMask, netmask, String.toList_ofList]

/-- Source masks are exact for both families, as four words and as the key of IPv4. -/
theorem masking_exact (e : Endian) (ip : NftScript.IpAddress) :
    (∀ p4, Exact 128 (Words.bytes e) (Words.bytes e)
      (fun p a => fillMaskedSourceWords e a ctFamilyIpv6 p4 p) fun p => nftMask ip .ipv6 p.toNat) ∧
    (∀ p6, Exact 32 (fun a : Words => store e a.w0) (fun a : Words => store e a.w0)
      (fun p a => fillMaskedSourceWords e a ctFamilyIpv4 p p6) fun p => nftMask ip .ipv4 p.toNat) ∧
    Exact 32 (fun a : Words => store e a.w0) (store e) (fun p a => fillSourceRateKeyV4 e a p)
      fun p => nftMask ip .ipv4 p.toNat := by
  have hstore (v w : U32) (h : store e v = store e w) : v = w :=
    ext_wordBit (e := e) fun i _ => by rw [wordBit, wordBit, h]
  have hlen (a : Words) : (a.bytes e).length = 16 := by
    simp only [Words.bytes, List.length_append, length_store]
  refine ⟨fun p4 => ?_, fun p6 => ?_, ?_⟩
  · apply exact_of_bits hlen hlen
    · intro p q a b h
      generalize fillMaskedSourceWords e a ctFamilyIpv6 p4 p = x at h ⊢
      generalize fillMaskedSourceWords e b ctFamilyIpv6 p4 q = y at h ⊢
      have hsplit := List.append_inj h (by rw [length_store, length_store])
      have hsplit' := List.append_inj hsplit.2 (by rw [length_store, length_store])
      have hsplit'' := List.append_inj hsplit'.2 (by rw [length_store, length_store])
      exact Words.ext (hstore _ _ hsplit.1) (hstore _ _ hsplit'.1) (hstore _ _ hsplit''.1)
        (hstore _ _ hsplit''.2)
    · exact fun p a i hi => bitAt_v6 e a p4 p hi
    · exact fun p => nftMask_ipv6 ip p.toNat
  · apply exact_of_bits (fun _ => length_store) fun _ => length_store
    · intro p q a b h
      exact Words.ext (hstore _ _ h) rfl rfl rfl
    · exact fun p a i hi => wordBit_v4 e a.w0 p hi
    · exact fun p => nftMask_ipv4 ip p.toNat
  · apply exact_of_bits (fun _ => length_store) fun _ => length_store
    · exact fun p q a b h => hstore _ _ h
    · exact fun p a i hi => wordBit_v4 e a.w0 p hi
    · exact fun p => nftMask_ipv4 ip p.toNat

end AutoXdp.SourceMask
