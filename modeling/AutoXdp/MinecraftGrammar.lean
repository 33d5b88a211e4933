import AutoXdp.MinecraftPackets
import Mathlib.Data.BitVec
import Mathlib.Tactic.Basic

/-! The packets of a Minecraft session opening, and which segments the parsers of the
handler accept. -/
namespace AutoXdp.Minecraft

/-- A number of at most `k` bytes of seven bits, the lowest first; every byte but the last
has its top bit set. -/
inductive VarInt : ℕ → ℕ → List U8 → Prop where
  | last (k : ℕ) (b : U8) (hb : b &&& 0x80 = 0) : VarInt (k+1) b.toNat [b]
  | more (k m : ℕ) (b : U8) (bs : List U8) (hb : b &&& 0x80 ≠ 0) (h : VarInt k m bs) :
    VarInt (k+1) (b.toNat % 128 + 128*m) (b :: bs)

/-- A field with its length before it. -/
def Prefixed (lo hi : ℕ) (field : List U8) : Prop :=
  ∃ m len content, field = len ++ content ∧ VarInt 5 m len ∧ content.length = m % 2^32 ∧
    lo ≤ content.length ∧ content.length ≤ hi

def LoginKey (field : List U8) : Prop :=
  field = [0] ∨ ∃ flag expiry key signature, field = flag :: (expiry ++ key ++ signature) ∧
    flag ≠ 0 ∧ expiry.length = 8 ∧ Prefixed 0 512 key ∧ Prefixed 0 4096 signature

def LoginUuid (version : U32) (field : List U8) : Prop :=
  if version.toInt ≥ 764 then field.length = 16
  else field = [0] ∨ ∃ flag uuid, field = flag :: uuid ∧ flag ≠ 0 ∧ uuid.length = 16

/-- A login start after its length: packet id, name, and what the version adds. -/
def LoginFields (version : U32) (body : List U8) : Prop :=
  ∃ name key uuid, body = 0 :: (name ++ key ++ uuid) ∧ Prefixed 1 48 name ∧
    (if version.toInt ≥ 759 ∧ version.toInt < 761 then LoginKey key else key = []) ∧
    (if version.toInt ≥ 760 then LoginUuid version uuid else uuid = [])

/-- What an intention byte may be. -/
def Intention (version : U32) (b : U8) : Prop :=
  b = 1 ∨ b = 2 ∨ (version.toInt ≥ 766 ∧ b = 3)

/-- A handshake after its length: packet id, version, host, port and intention. -/
def HandshakeFields (version : U32) (intention : U8) (body : List U8) : Prop :=
  ∃ m number host port, body = 0 :: (number ++ host ++ port ++ [intention]) ∧
    VarInt 5 m number ∧ version = BitVec.ofNat 32 m ∧ Prefixed 0 765 host ∧ port.length = 2 ∧
    Intention version intention

/-- A declared length of at most `k` bytes and within bounds, and then the fields. -/
structure Framed (k lo hi : ℕ) (Fields : List U8 → Prop) (declared : ℕ) (len body : List U8) :
    Prop where
  length : VarInt k declared len
  lower : lo ≤ declared
  upper : declared ≤ hi
  fields : Fields body

/-- The declared length is the length of the fields. -/
def WellFormed (k lo hi : ℕ) (Fields : List U8 → Prop) (packet : List U8) : Prop :=
  ∃ declared len body, packet = len ++ body ∧ Framed k lo hi Fields declared len body ∧
    declared = body.length

def StatusPacket : List U8 → Prop := WellFormed 1 1 1 fun body => body = [0]

def PingPacket : List U8 → Prop :=
  WellFormed 1 9 9 fun body => ∃ payload, body = 1 :: payload ∧ payload.length = 8

def LoginPacket (version : U32) : List U8 → Prop := WellFormed 3 2 4149 (LoginFields version)

def HandshakePacket (version : U32) (intention : U8) : List U8 → Prop :=
  WellFormed 3 4 786 (HandshakeFields version intention)

/-! What the parsers accept. -/

theorem parses_readByte : Parses readByte fun b used => used = [b] := by
  intro c b c'
  have hin := c.inBounds
  unfold readByte
  cases hdata : c.data with
  | nil =>
    refine iff_of_false (by rintro ⟨⟩) ?_
    rintro ⟨used, rest, hbytes, rfl, -⟩
    rw [Cursor.bytes, hdata, List.take_nil] at hbytes
    exact absurd hbytes (by rintro ⟨⟩)
  | cons x xs =>
    cases hlen : c.len with
    | zero =>
      simp only [if_true]
      refine iff_of_false (by rintro ⟨⟩) ?_
      rintro ⟨used, rest, hbytes, rfl, -⟩
      rw [Cursor.bytes, hlen, List.take_zero] at hbytes
      exact absurd hbytes (by rintro ⟨⟩)
    | succ n =>
      have hbytes : c.bytes = x :: xs.take n := by rw [Cursor.bytes, hdata, hlen, List.take_succ_cons]
      simp only [Nat.add_one_ne_zero, if_false, Option.some_inj, Prod.mk.injEq]
      constructor
      · rintro ⟨rfl, rfl⟩
        exact ⟨[x], xs.take n, hbytes, rfl, rfl⟩
      · rintro ⟨used, rest, hused, rfl, rfl⟩
        rw [hbytes] at hused
        exact ⟨(List.cons.inj hused).1, rfl⟩

theorem parses_consumeBytes (n : U32) (hn : n.toNat < 8192) :
    Parses (consumeBytes n) fun _ used => used.length = n.toNat := by
  intro c _ c'
  have hin := c.inBounds
  have hmask : (n &&& 0x1FFF).toNat = n.toNat := by
    rw [BitVec.toNat_and]
    have hbits : (0x1FFF : U32).toNat = 2^13 - 1 := rfl
    rw [hbits, Nat.and_two_pow_sub_one_eq_mod]
    exact Nat.mod_eq_of_lt hn
  have hrun : consumeBytes n c = if n.toNat > c.len then none else some ((), c.advance n.toNat) := by
    unfold consumeBytes
    simp only [hmask]
    by_cases h : n.toNat > c.len
    · simp only [h, if_true, ite_self]
    · have hdata : ¬n.toNat > c.data.length := by omega
      rw [if_neg hdata]
  rw [hrun]
  by_cases h : n.toNat > c.len
  · rw [if_pos h]
    refine iff_of_false nofun ?_
    rintro ⟨used, rest, hbytes, hused, -⟩
    have hlen := congrArg List.length hbytes
    rw [c.bytes_length, List.length_append] at hlen
    omega
  · rw [if_neg h, Option.some_inj, Prod.mk.injEq]
    constructor
    · rintro ⟨-, rfl⟩
      have htake : (c.bytes.take n.toNat).length = n.toNat := by
        rw [List.length_take, c.bytes_length]
        omega
      refine ⟨c.bytes.take n.toNat, c.bytes.drop n.toNat, (List.take_append_drop ..).symm, htake, ?_⟩
      rw [htake]
    · rintro ⟨used, rest, -, hused, rfl⟩
      rw [hused]
      exact ⟨rfl, rfl⟩

theorem low_bits (b : U8) (m : ℕ) : BitVec.ofNat 32 (b.toNat % 128 + 128*m) =
    (b &&& 0x7F).setWidth 32 ||| (BitVec.ofNat 32 m <<< 7) := by
  apply BitVec.eq_of_toNat_eq
  have hlow : ((b &&& 0x7F).setWidth 32).toNat = b.toNat % 128 := by
    rw [BitVec.toNat_setWidth, BitVec.toNat_and]
    have hbits : (0x7F : U8).toNat = 2^7 - 1 := rfl
    rw [hbits, Nat.and_two_pow_sub_one_eq_mod]
    omega
  have hhigh : (BitVec.ofNat 32 m <<< 7).toNat = (m % 2^25) <<< 7 := by
    rw [BitVec.toNat_shiftLeft, BitVec.toNat_ofNat, Nat.shiftLeft_eq, Nat.shiftLeft_eq]
    omega
  rw [BitVec.toNat_or, hlow, hhigh, Nat.or_comm,
    ← Nat.shiftLeft_add_eq_or_of_lt (by omega : b.toNat % 128 < 2^7), BitVec.toNat_ofNat,
    Nat.shiftLeft_eq]
  omega

theorem last_bits : ∀ b : U8, b &&& 0x80 = 0 ↔ b.toNat < 128 := by
  decide

theorem parses_varintBytes (n shift : ℕ) (result : U32) :
    Parses (varintBytes n shift result) fun v used =>
      ∃ m, VarInt n m used ∧ v = result ||| (BitVec.ofNat 32 m <<< shift) := by
  induction n generalizing shift result with
  | zero =>
    intro c v c'
    refine iff_of_false nofun ?_
    rintro ⟨used, rest, -, ⟨m, hm, -⟩, -⟩
    exact absurd hm nofun
  | succ n ih =>
    have hstep (b : U8) := parses_ite (b &&& 0x80 = 0)
      (parses_pure (β := U8) (result ||| ((b &&& 0x7F).setWidth 32 <<< shift)))
      (ih (shift+7) (result ||| ((b &&& 0x7F).setWidth 32 <<< shift)))
    refine parses_congr (parses_bind parses_readByte hstep) ?_
    intro v used
    constructor
    · rintro ⟨b, _, w, rfl, rfl, hrest⟩
      split_ifs at hrest with hb
      · obtain ⟨rfl, rfl⟩ := hrest
        refine ⟨b.toNat, .last n b hb, ?_⟩
        have hlow := low_bits b 0
        rw [Nat.mul_zero, Nat.add_zero, Nat.mod_eq_of_lt ((last_bits b).mp hb)] at hlow
        rw [hlow, BitVec.ofNat_eq_ofNat, BitVec.zero_shiftLeft, BitVec.or_zero]
      · obtain ⟨m, hm, rfl⟩ := hrest
        refine ⟨b.toNat % 128 + 128*m, .more n m b w hb hm, ?_⟩
        rw [low_bits, BitVec.shiftLeft_or_distrib, Nat.add_comm shift 7, BitVec.shiftLeft_add,
          BitVec.or_assoc]
    · rintro ⟨m, hm, rfl⟩
      cases hm with
      | last _ b hb =>
        refine ⟨b, [b], [], rfl, rfl, ?_⟩
        rw [if_pos hb]
        have hlow := low_bits b 0
        rw [Nat.mul_zero, Nat.add_zero, Nat.mod_eq_of_lt ((last_bits b).mp hb)] at hlow
        rw [hlow, BitVec.ofNat_eq_ofNat, BitVec.zero_shiftLeft, BitVec.or_zero]
        exact ⟨rfl, rfl⟩
      | more _ m b bs hb h =>
        refine ⟨b, [b], bs, rfl, rfl, ?_⟩
        rw [if_neg hb]
        refine ⟨m, h, ?_⟩
        rw [low_bits, BitVec.shiftLeft_or_distrib, Nat.add_comm shift 7, BitVec.shiftLeft_add,
          BitVec.or_assoc]

theorem parses_readVarint (k : ℕ) (hk : k ≤ 5) :
    Parses (readVarint k) fun v used => ∃ m, VarInt k m used ∧ v = BitVec.ofNat 32 m := by
  have h := parses_varintBytes (min k 5) 0 0
  rw [min_eq_left hk] at h
  refine parses_congr (by rw [readVarint, min_eq_left hk]; exact h) ?_
  intro v used
  simp only [BitVec.shiftLeft_zero, BitVec.ofNat_eq_ofNat, BitVec.zero_or]

/-- A number below `2^31` is the same as a `__s32`. -/
theorem toInt_bounds (v : U32) (lo hi : ℕ) (hhi : hi < 2^31) :
    ((lo : ℤ) ≤ v.toInt ∧ v.toInt ≤ (hi : ℤ)) ↔ lo ≤ v.toNat ∧ v.toNat ≤ hi := by
  have hv := v.isLt
  rw [BitVec.toInt_eq_toNat_cond]
  split_ifs <;> omega

theorem parses_sizedBytes (lo hi : ℕ) (hhi : hi < 8192) :
    Parses (sizedBytes lo hi) fun _ field => Prefixed lo hi field := by
  have hconsume (v : U32) : Parses (do
      guard ((lo : ℤ) ≤ v.toInt ∧ v.toInt ≤ (hi : ℤ))
      consumeBytes v) fun _ content => content.length = v.toNat ∧ lo ≤ v.toNat ∧ v.toNat ≤ hi := by
    by_cases hv : lo ≤ v.toNat ∧ v.toNat ≤ hi
    · refine parses_congr (parses_bind (parses_guard _) fun _ => parses_consumeBytes v (by omega)) ?_
      intro _ content
      simp only [toInt_bounds v lo hi (by omega), hv, true_and, and_true]
      constructor
      · rintro ⟨_, _, w, rfl, rfl, hlen⟩
        exact hlen
      · intro hlen
        exact ⟨(), [], content, rfl, rfl, hlen⟩
    · intro c _ c'
      have hguard : ¬((lo : ℤ) ≤ v.toInt ∧ v.toInt ≤ (hi : ℤ)) :=
        fun h => hv ((toInt_bounds v lo hi (by omega)).mp h)
      rw [guard, if_neg hguard]
      refine iff_of_false nofun ?_
      rintro ⟨used, rest, -, ⟨-, hbounds⟩, -⟩
      exact hv hbounds
  refine parses_congr (parses_bind (parses_readVarint 5 (by decide)) hconsume) ?_
  intro _ field
  constructor
  · rintro ⟨_, len, content, rfl, ⟨m, hm, rfl⟩, hlen, hlo, hhi⟩
    rw [BitVec.toNat_ofNat] at hlen hlo hhi
    exact ⟨m, len, content, rfl, hm, hlen, hlen ▸ hlo, hlen ▸ hhi⟩
  · rintro ⟨m, len, content, rfl, hm, hlen, hlo, hhi⟩
    refine ⟨_, len, content, rfl, ⟨m, hm, rfl⟩, ?_⟩
    rw [BitVec.toNat_ofNat]
    exact ⟨hlen, hlen ▸ hlo, hlen ▸ hhi⟩

theorem parses_loginKey (version : U32) : Parses (loginKey version) fun _ field =>
    if version.toInt ≥ 759 ∧ version.toInt < 761 then LoginKey field else field = [] := by
  have hfields := parses_bind (parses_consumeBytes 8 (by decide)) fun _ =>
    parses_bind (parses_sizedBytes 0 512 (by decide)) fun _ => parses_sizedBytes 0 4096 (by decide)
  have hflag := parses_bind parses_readByte fun b =>
    parses_ite (b = 0) (parses_pure (β := U8) ()) hfields
  refine parses_congr (parses_ite _ hflag (parses_pure ())) ?_
  intro _ field
  split_ifs with hversion
  · constructor
    · rintro ⟨flag, _, w, rfl, rfl, hrest⟩
      split_ifs at hrest with hflag
      · obtain ⟨-, rfl⟩ := hrest
        exact Or.inl (congrArg (· :: []) hflag)
      · obtain ⟨_, expiry, _, rfl, hexpiry, _, key, signature, rfl, hkey, hsignature⟩ := hrest
        refine Or.inr ⟨flag, expiry, key, signature, ?_, hflag, hexpiry, hkey, hsignature⟩
        rw [List.append_assoc]
        rfl
    · rintro (rfl | ⟨flag, expiry, key, signature, rfl, hflag, hexpiry, hkey, hsignature⟩)
      · exact ⟨0, [0], [], rfl, rfl, rfl, rfl⟩
      · refine ⟨flag, [flag], _, rfl, rfl, ?_⟩
        rw [if_neg hflag]
        exact ⟨(), expiry, key ++ signature, List.append_assoc .., hexpiry, (), key, signature, rfl,
          hkey, hsignature⟩
  · exact and_iff_right rfl

theorem parses_loginUuid (version : U32) : Parses (loginUuid version) fun _ field =>
    if version.toInt ≥ 760 then LoginUuid version field else field = [] := by
  have h16 := parses_consumeBytes 16 (by decide)
  have hflag := parses_bind parses_readByte fun b =>
    parses_ite (b = 0) (parses_pure (β := U8) ()) h16
  refine parses_congr (parses_ite _ (parses_ite _ h16 hflag) (parses_pure ())) ?_
  intro _ field
  rw [LoginUuid]
  split_ifs with hversion hfixed
  · exact Iff.rfl
  · constructor
    · rintro ⟨flag, _, w, rfl, rfl, hrest⟩
      split_ifs at hrest with hflag
      · obtain ⟨-, rfl⟩ := hrest
        exact Or.inl (congrArg (· :: []) hflag)
      · exact Or.inr ⟨flag, w, rfl, hflag, hrest⟩
    · rintro (rfl | ⟨flag, uuid, rfl, hflag, huuid⟩)
      · exact ⟨0, [0], [], rfl, rfl, rfl, rfl⟩
      · refine ⟨flag, [flag], uuid, rfl, rfl, ?_⟩
        rw [if_neg hflag]
        exact huuid
  · exact and_iff_right rfl

/-- A field of one byte with this value. -/
theorem parses_byte (n : U32) (b : U8) (hb : b.toNat < 128) (hn : n = b.setWidth 32) :
    Parses (do
      let v ← readVarint 1
      guard (v = n)) fun _ field => field = [b] := by
  refine parses_congr (parses_bind (parses_readVarint 1 (by decide)) fun v =>
    parses_guard (v = n)) ?_
  intro _ field
  constructor
  · rintro ⟨_, _, _, rfl, ⟨m, hm, rfl⟩, hvalue, rfl⟩
    cases hm with
    | last _ x hx =>
      have hsame : x = b := by
        apply BitVec.eq_of_toNat_eq
        have hnat := congrArg BitVec.toNat (hvalue.trans hn)
        rw [BitVec.toNat_ofNat, BitVec.toNat_setWidth] at hnat
        have := x.isLt
        omega
      rw [hsame]
      rfl
    | more _ _ _ _ _ h => exact absurd h nofun
  · rintro rfl
    refine ⟨_, [b], [], rfl, ⟨b.toNat, .last 0 b ((last_bits b).mpr hb), rfl⟩, ?_, rfl⟩
    rw [hn]
    apply BitVec.eq_of_toNat_eq
    rw [BitVec.toNat_ofNat, BitVec.toNat_setWidth]

theorem parses_byte_then {α : Type} (n : U32) (b : U8) (hb : b.toNat < 128)
    (hn : n = b.setWidth 32) {p : McParser α} {G : α → List U8 → Prop} (hp : Parses p G) :
    Parses (do
      let v ← readVarint 1
      guard (v = n)
      p) fun a field => ∃ rest, field = b :: rest ∧ G a rest := by
  have h := parses_bind (parses_byte n b hb hn) fun _ => hp
  rw [bind_assoc] at h
  refine parses_congr h ?_
  intro a field
  constructor
  · rintro ⟨_, _, rest, rfl, rfl, hrest⟩
    exact ⟨rest, rfl, hrest⟩
  · rintro ⟨rest, rfl, hrest⟩
    exact ⟨(), [b], rest, rfl, rfl, hrest⟩

theorem parses_loginFields (version : U32) :
    Parses (loginFields version) fun _ body => LoginFields version body := by
  refine parses_congr (parses_byte_then 0 0 (by decide) rfl (parses_bind
    (parses_sizedBytes 1 48 (by decide)) fun _ => parses_bind (parses_loginKey version) fun _ =>
      parses_loginUuid version)) ?_
  intro _ body
  constructor
  · rintro ⟨_, rfl, _, name, _, rfl, hname, _, key, uuid, rfl, hkey, huuid⟩
    refine ⟨name, key, uuid, ?_, hname, hkey, huuid⟩
    rw [List.append_assoc]
  · rintro ⟨name, key, uuid, rfl, hname, hkey, huuid⟩
    exact ⟨_, congrArg (0 :: ·) (List.append_assoc ..), (), name, _, rfl, hname, (), key, uuid, rfl,
      hkey, huuid⟩

theorem varInt_lt {k m : ℕ} {bs : List U8} (h : VarInt k m bs) : m < 128^k := by
  induction h with
  | last k b hb =>
    have hlt := (last_bits b).mp hb
    calc b.toNat < 128 := hlt
      _ ≤ 128^k*128 := Nat.le_mul_of_pos_left 128 (Nat.pow_pos (by decide))
      _ = 128^(k+1) := (pow_succ 128 k).symm
  | more k m b bs _ _ ih =>
    have hlow : b.toNat % 128 < 128 := Nat.mod_lt _ (by decide)
    calc b.toNat % 128 + 128*m < 128*(m+1) := by omega
      _ ≤ 128*128^k := Nat.mul_le_mul_left 128 ih
      _ = 128^(k+1) := (pow_succ' 128 k).symm

/-- A declared length, then the rest of a packet. -/
theorem parses_framed {α : Type} (lo hi : ℕ) (hhi : hi < 2^31) {p : McParser α}
    {G : α → List U8 → Prop} (hp : Parses p G) :
    Parses (do
      let v ← readVarint maxPacketLenBytes
      guard ((lo : ℤ) ≤ v.toInt ∧ v.toInt ≤ (hi : ℤ))
      p) fun a packet => ∃ declared len body, packet = len ++ body ∧
        Framed 3 lo hi (G a) declared len body := by
  refine parses_congr (parses_bind (parses_readVarint 3 (by decide)) fun v =>
    parses_bind (parses_guard _) fun _ => hp) ?_
  intro a packet
  have hvalue {m : ℕ} {len : List U8} (hm : VarInt 3 m len) : (BitVec.ofNat 32 m).toNat = m := by
    have hlt := varInt_lt hm
    rw [BitVec.toNat_ofNat]
    omega
  simp only [toInt_bounds _ lo hi hhi]
  constructor
  · rintro ⟨_, len, _, rfl, ⟨m, hm, rfl⟩, _, _, body, rfl, ⟨hbounds, rfl⟩, hbody⟩
    rw [hvalue hm] at hbounds
    exact ⟨m, len, body, rfl, hm, hbounds.1, hbounds.2, hbody⟩
  · rintro ⟨m, len, body, rfl, hm, hlo, hhi, hbody⟩
    refine ⟨_, len, body, rfl, ⟨m, hm, rfl⟩, (), [], body, rfl, ⟨?_, rfl⟩, hbody⟩
    rw [hvalue hm]
    exact ⟨hlo, hhi⟩

theorem parses_loginPacket (version : U32) : Parses (loginPacket version) fun _ packet =>
    ∃ declared len body, packet = len ++ body ∧
      Framed 3 2 4149 (LoginFields version) declared len body :=
  parses_framed 2 4149 (by decide) (parses_loginFields version)

theorem parses_handshakeIntention (version : U32) :
    Parses (handshakeIntention version) fun v field => ∃ host port b,
      field = host ++ port ++ [b] ∧ Prefixed 0 765 host ∧ port.length = 2 ∧
        v = b.setWidth 32 ∧ Intention version b := by
  refine parses_congr (parses_bind (parses_sizedBytes 0 765 (by decide)) fun _ =>
    parses_bind (parses_consumeBytes 2 (by decide)) fun _ =>
      parses_bind (parses_readVarint 1 (by decide)) fun v =>
        parses_bind (parses_guard _) fun _ => parses_pure v) ?_
  have hsame (b n : U8) (hn : n.toNat < 128) : b.setWidth 32 = n.setWidth 32 ↔ b = n := by
    constructor
    · intro h
      apply BitVec.eq_of_toNat_eq
      have hnat := congrArg BitVec.toNat h
      rw [BitVec.toNat_setWidth, BitVec.toNat_setWidth] at hnat
      have := b.isLt
      omega
    · rintro rfl
      rfl
  have hallowed (b : U8) : (b.setWidth 32 = (1 : U32) ∨ b.setWidth 32 = (2 : U32) ∨
      (version.toInt ≥ 766 ∧ b.setWidth 32 = (3 : U32))) ↔ Intention version b := by
    rw [Intention, ← hsame b 1 (by decide), ← hsame b 2 (by decide), ← hsame b 3 (by decide)]
    rfl
  have hone (b : U8) : BitVec.ofNat 32 b.toNat = b.setWidth 32 := by
    apply BitVec.eq_of_toNat_eq
    rw [BitVec.toNat_ofNat, BitVec.toNat_setWidth]
  intro v field
  constructor
  · rintro ⟨_, host, _, rfl, hhost, _, port, _, rfl, hport, _, _, _, rfl, ⟨m, hm, rfl⟩, _, _, _,
      rfl, ⟨hv, rfl⟩, rfl, rfl⟩
    cases hm with
    | last _ b hb =>
      rw [hone, hallowed] at hv
      refine ⟨host, port, b, ?_, hhost, hport, hone b, hv⟩
      rw [List.append_assoc]
      rfl
    | more _ _ _ _ _ h => exact absurd h nofun
  · rintro ⟨host, port, b, rfl, hhost, hport, rfl, hv⟩
    have hb : b &&& 0x80 = 0 := by
      rcases hv with rfl | rfl | ⟨-, rfl⟩ <;> decide
    refine ⟨(), host, port ++ [b], List.append_assoc .., hhost, (), port, [b], rfl, hport,
      b.setWidth 32, [b], [], rfl, ⟨b.toNat, .last 0 b hb, (hone b).symm⟩, (), [], [], rfl,
      ⟨(hallowed b).mpr hv, rfl⟩, rfl, rfl⟩

/-- The handshake parser as a whole. -/
def handshake : McParser (U32 × U32) := do
  let version ← handshakeVersion
  let intention ← handshakeIntention version
  return (version, intention)

theorem parses_handshake : Parses handshake fun r packet => ∃ intention : U8,
    r.2 = intention.setWidth 32 ∧ ∃ declared len body, packet = len ++ body ∧
      Framed 3 4 786 (HandshakeFields r.1 intention) declared len body := by
  have hfields : Parses (do
      let v ← readVarint 1
      guard (v = 0)
      let version ← readVarint maxPacketIdBytes
      let intention ← handshakeIntention version
      return (version, intention)) fun r body => ∃ intention : U8,
        r.2 = intention.setWidth 32 ∧ HandshakeFields r.1 intention body := by
    refine parses_congr (parses_byte_then 0 0 (by decide) rfl (parses_bind
      (parses_readVarint 5 (by decide)) fun version => parses_bind
        (parses_handshakeIntention version) fun intention => parses_pure (version, intention))) ?_
    intro r body
    constructor
    · rintro ⟨_, rfl, version, number, _, rfl, ⟨m, hm, hversion⟩, v, _, _, rfl,
        ⟨host, port, b, rfl, hhost, hport, rfl, hb⟩, rfl, rfl⟩
      refine ⟨b, rfl, m, number, host, port, ?_, hm, hversion, hhost, hport, hb⟩
      simp only [List.append_assoc, List.append_nil]
    · obtain ⟨version, v⟩ := r
      rintro ⟨b, rfl, m, number, host, port, rfl, hm, hversion, hhost, hport, hb⟩
      refine ⟨_, rfl, version, number, host ++ port ++ [b], ?_, ⟨m, hm, hversion⟩, b.setWidth 32,
        host ++ port ++ [b], [], (List.append_nil _).symm, ⟨host, port, b, rfl, hhost, hport, rfl,
          hb⟩, rfl, rfl⟩
      simp only [List.append_assoc]
  have hrun : handshake = (do
      let v ← readVarint maxPacketLenBytes
      guard (((4 : ℕ) : ℤ) ≤ v.toInt ∧ v.toInt ≤ ((786 : ℕ) : ℤ))
      let v ← readVarint 1
      guard (v = 0)
      let version ← readVarint maxPacketIdBytes
      let intention ← handshakeIntention version
      return (version, intention)) := by
    simp only [handshake, handshakeVersion, bind_assoc]
    rfl
  rw [hrun]
  refine parses_congr (parses_framed 4 786 (by decide) hfields) ?_
  intro r packet
  constructor
  · rintro ⟨declared, len, body, rfl, hlen, hlo, hhi, b, hb, hbody⟩
    exact ⟨b, hb, declared, len, body, rfl, hlen, hlo, hhi, hbody⟩
  · rintro ⟨b, hb, declared, len, body, rfl, hlen, hlo, hhi, hbody⟩
    exact ⟨declared, len, body, rfl, hlen, hlo, hhi, b, hb, hbody⟩

end AutoXdp.Minecraft
