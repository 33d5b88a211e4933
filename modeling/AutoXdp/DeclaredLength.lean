import AutoXdp.MinecraftGrammar
import Mathlib.Tactic.Basic
import Mathlib.Tactic.SplitIfs

/-! The packet parsers of the Minecraft handler against the packets: the declared length
of a handshake or a login is bounded, and not compared with what follows it. -/
namespace AutoXdp.Minecraft

/-- The handshake is accepted: neither refused nor taken for a legacy ping. -/
def Accepted (s : Option McState) : Prop := s ≠ none ∧ s ≠ some .legacyPing

/-- The state a handshake leads to. -/
def stateAfter (intention : U32) (c : Cursor U8) : McState :=
  if c.len = 0 then if intention = 1 then .awaitStatusRequest else .awaitLogin
  else if intention = 1 then .directStatus else .directLogin

section Segment

variable (seg : Cursor U8) (version : U32) (next : Cursor U8)

structure HandshakeExact : Prop where
  /-- What is accepted is a packet, and the cursor is set to its end. -/
  sound : ∀ s v c, inspectHandshake seg version next = (some s, v, c) → Accepted (some s) →
    ∃ intention packet rest, seg.bytes = packet ++ rest ∧ HandshakePacket v intention packet ∧
      s = stateAfter (intention.setWidth 32) (seg.advance packet.length) ∧
      c = seg.advance packet.length
  complete : ∀ v intention packet rest, seg.bytes = packet ++ rest →
    HandshakePacket v intention packet → Accepted (inspectHandshake seg version next).1

structure PacketsExact : Prop where
  status : inspectStatusRequest seg = true ↔ StatusPacket seg.bytes
  ping : inspectPingRequest seg = true ↔ PingPacket seg.bytes
  login : inspectLoginPacket seg version = true ↔ LoginPacket version seg.bytes
  handshake : HandshakeExact seg version next

/-- Where the fields of a login follow a declared length, it is their length; and so for
a handshake, unless its first byte is that of a legacy ping. No handshake is the whole
segment, for which the cursor is not set, unless the cursor is at its end already. -/
structure LengthsAgree : Prop where
  login : ∀ declared len body, seg.bytes = len ++ body →
    Framed 3 2 4149 (LoginFields version) declared len body → declared = body.length
  handshake : ∀ v intention declared len body rest, seg.bytes = len ++ body ++ rest →
    Framed 3 4 786 (HandshakeFields v intention) declared len body →
      (declared = body.length ↔ seg.bytes.head? ≠ some 0xFE)
  lone : ∀ v intention declared len body, seg.bytes = len ++ body →
    Framed 3 4 786 (HandshakeFields v intention) declared len body →
      seg.bytes.head? ≠ some 0xFE → next = seg.advance (len ++ body).length

theorem any_whole {p : McParser Unit} {G : Unit → List U8 → Prop} (hp : Parses p G) :
    (p seg).any (fun r => r.2.len = 0) = true ↔ G () seg.bytes := by
  have hwhole := parses_whole hp seg
  rw [Option.any_eq_true]
  constructor
  · rintro ⟨⟨⟨⟩, c'⟩, hrun, hlen⟩
    obtain ⟨⟨⟩, hG⟩ := hwhole.mp ⟨(), c', hrun, of_decide_eq_true hlen⟩
    exact hG
  · intro hG
    obtain ⟨⟨⟩, c', hrun, hlen⟩ := hwhole.mpr ⟨(), hG⟩
    exact ⟨((), c'), hrun, decide_eq_true hlen⟩

/-- A packet whose length is one byte. -/
theorem wellFormed_one (n : U8) (hn : n.toNat < 128) (Fields : List U8 → Prop)
    (hfields : ∀ body, Fields body → body.length = n.toNat) (packet : List U8) :
    WellFormed 1 n.toNat n.toNat Fields packet ↔ ∃ body, packet = n :: body ∧ Fields body := by
  constructor
  · rintro ⟨declared, len, body, rfl, ⟨hlen, hlo, hhi, hbody⟩, -⟩
    cases hlen with
    | last _ b hb =>
      have hsame : b = n := by
        apply BitVec.eq_of_toNat_eq
        omega
      subst hsame
      exact ⟨body, rfl, hbody⟩
    | more _ _ _ _ _ h => exact absurd h nofun
  · rintro ⟨body, rfl, hbody⟩
    exact ⟨n.toNat, [n], body, rfl,
      ⟨.last 0 n ((last_bits n).mpr hn), le_rfl, le_rfl, hbody⟩, (hfields body hbody).symm⟩

theorem status_exact : inspectStatusRequest seg = true ↔ StatusPacket seg.bytes := by
  have hwhole := any_whole seg
    (parses_byte_then 1 1 (by decide) rfl (parses_byte 0 0 (by decide) rfl))
  refine hwhole.trans (wellFormed_one 1 (by decide) _ ?_ _).symm
  rintro body rfl
  rfl

theorem ping_exact : inspectPingRequest seg = true ↔ PingPacket seg.bytes := by
  have hwhole := any_whole seg (parses_byte_then 9 9 (by decide) rfl
    (parses_byte_then 1 1 (by decide) rfl (parses_consumeBytes 8 (by decide))))
  refine hwhole.trans (wellFormed_one 9 (by decide) _ ?_ _).symm
  rintro body ⟨payload, rfl, hlen⟩
  rw [List.length_cons, hlen]
  rfl

/-- A length is read up to its last byte. -/
theorem varInt_unique {m m' : ℕ} {len len' r r' : List U8} (h : VarInt 3 m len)
    (h' : VarInt 3 m' len') (hbytes : len ++ r = len' ++ r') : m = m' ∧ len = len' ∧ r = r' := by
  obtain ⟨hvalue, hlen, hrest⟩ := parses_unique (parses_readVarint 3 (by decide))
    ⟨m, h, rfl⟩ ⟨m', h', rfl⟩ hbytes
  have hlt := varInt_lt h
  have hlt' := varInt_lt h'
  have hnat := congrArg BitVec.toNat hvalue
  rw [BitVec.toNat_ofNat, BitVec.toNat_ofNat] at hnat
  exact ⟨by omega, hlen, hrest⟩

/-- A login is accepted with any declared length within bounds. -/
theorem login_accepts : inspectLoginPacket seg version = true ↔
    ∃ declared len body, seg.bytes = len ++ body ∧
      Framed 3 2 4149 (LoginFields version) declared len body :=
  any_whole seg (parses_loginPacket version)

theorem login_exact : (inspectLoginPacket seg version = true ↔ LoginPacket version seg.bytes) ↔
    ∀ declared len body, seg.bytes = len ++ body →
      Framed 3 2 4149 (LoginFields version) declared len body → declared = body.length := by
  rw [login_accepts]
  constructor
  · intro hexact declared len body hbytes hframed
    obtain ⟨declared', len', body', hbytes', hframed', hlen⟩ :=
      hexact.mp ⟨declared, len, body, hbytes, hframed⟩
    obtain ⟨rfl, -, rfl⟩ := varInt_unique hframed.length hframed'.length
      (hbytes.symm.trans hbytes')
    exact hlen
  · intro hlengths
    constructor
    · rintro ⟨declared, len, body, hbytes, hframed⟩
      exact ⟨declared, len, body, hbytes, hframed, hlengths declared len body hbytes hframed⟩
    · rintro ⟨declared, len, body, hbytes, hframed, -⟩
      exact ⟨declared, len, body, hbytes, hframed⟩

theorem head_bytes (h : ¬seg.len < 1) : seg.data.head? = seg.bytes.head? := by
  rw [Cursor.bytes]
  cases hdata : seg.data with
  | nil => rw [List.take_nil]
  | cons b bs =>
    cases hlen : seg.len with
    | zero => omega
    | succ n => rfl

/-- A segment that does not start as a legacy ping is taken for a handshake when it starts
with the fields of one. -/
theorem inspectHandshake_spec :
    (seg.bytes.head? = some 0xFE ∧
      inspectHandshake seg version next = (some .legacyPing, version, next)) ∨
    (seg.bytes.head? ≠ some 0xFE ∧ handshake seg = none ∧
      (inspectHandshake seg version next).1 = none) ∨
    ∃ v i c, seg.bytes.head? ≠ some 0xFE ∧ handshake seg = some ((v, i), c) ∧
      inspectHandshake seg version next =
        (some (stateAfter i c), v, if c.len = 0 then next else c) := by
  unfold inspectHandshake
  by_cases hempty : seg.len < 1
  · have hbytes : seg.bytes = [] := by
      rw [← List.length_eq_zero_iff, seg.bytes_length]
      omega
    have hnone : handshake seg = none := by
      rw [Option.eq_none_iff_forall_ne_some]
      rintro ⟨r, c⟩ hrun
      obtain ⟨used, rest, hused, ⟨b, -, declared, len, body, rfl, hframed⟩, -⟩ :=
        (parses_handshake seg r c).mp hrun
      rw [hbytes] at hused
      cases hframed.length <;> exact absurd hused nofun
    rw [if_pos hempty, hbytes]
    exact Or.inr (Or.inl ⟨nofun, hnone, rfl⟩)
  · rw [if_neg hempty, head_bytes seg hempty]
    by_cases hlegacy : seg.bytes.head? = some 0xFE
    · rw [if_pos hlegacy]
      exact Or.inl ⟨hlegacy, rfl⟩
    · rw [if_neg hlegacy]
      right
      have hrun : handshake seg = (handshakeVersion seg).bind fun r =>
          (handshakeIntention r.1 r.2).bind fun q => some ((r.1, q.1), q.2) := rfl
      rw [hrun]
      cases hversion : handshakeVersion seg with
      | none => exact Or.inl ⟨hlegacy, rfl, rfl⟩
      | some r =>
        obtain ⟨v, c⟩ := r
        cases hintention : handshakeIntention v c with
        | none =>
          left
          simp only [Option.bind_some, hintention, Option.bind_none, and_true]
          exact hlegacy
        | some q =>
          obtain ⟨i, c'⟩ := q
          right
          refine ⟨v, i, c', hlegacy, ?_, ?_⟩
          · simp only [Option.bind_some, hintention]
          · simp only [hintention, stateAfter]
            split_ifs <;> rfl

theorem accepted_iff : Accepted (inspectHandshake seg version next).1 ↔
    seg.bytes.head? ≠ some 0xFE ∧ ∃ r c, handshake seg = some (r, c) := by
  rcases inspectHandshake_spec seg version next with ⟨hlegacy, hrun⟩ | ⟨-, hnone, hrun⟩ |
    ⟨v, i, c, hlegacy, hsome, hrun⟩
  · rw [hrun]
    exact iff_of_false (fun h => h.2 rfl) fun h => h.1 hlegacy
  · rw [hrun, hnone]
    refine iff_of_false (fun h => h.1 rfl) ?_
    rintro ⟨-, r, c, hsome⟩
    exact absurd hsome nofun
  · rw [hrun]
    refine iff_of_true ⟨nofun, ?_⟩ ⟨hlegacy, _, _, hsome⟩
    unfold stateAfter
    split_ifs <;> nofun

section Fields

variable {seg version next} {v : U32} {i : U8} {declared : ℕ} {len body rest : List U8}
  (hbytes : seg.bytes = len ++ body ++ rest)
  (hframed : Framed 3 4 786 (HandshakeFields v i) declared len body)

include hbytes hframed

theorem handshake_of_framed :
    handshake seg = some ((v, i.setWidth 32), seg.advance (len ++ body).length) :=
  (parses_handshake seg _ _).mpr
    ⟨len ++ body, rest, hbytes, ⟨i, rfl, declared, len, body, rfl, hframed⟩, rfl⟩

/-- Fields of a handshake are accepted, whatever their length; the cursor is set only if
something follows them. -/
theorem inspect_of_framed (hlegacy : seg.bytes.head? ≠ some 0xFE) :
    let c := seg.advance (len ++ body).length
    inspectHandshake seg version next =
      (some (stateAfter (i.setWidth 32) c), v, if c.len = 0 then next else c) := by
  have hrun := handshake_of_framed hbytes hframed
  rcases inspectHandshake_spec seg version next with ⟨h, -⟩ | ⟨-, hnone, -⟩ |
    ⟨v', i', c, -, hsome, hinspect⟩
  · exact absurd h hlegacy
  · rw [hrun] at hnone
    exact absurd hnone nofun
  · obtain ⟨hread, rfl⟩ := Prod.mk.inj (Option.some.inj (hrun.symm.trans hsome))
    obtain ⟨rfl, rfl⟩ := Prod.mk.inj hread
    exact hinspect

/-- What is accepted with these fields is the packet that they make, and the cursor is behind
them. -/
theorem reads_of_exact (hexact : HandshakeExact seg version next)
    (hlegacy : seg.bytes.head? ≠ some 0xFE) : declared = body.length ∧
      (inspectHandshake seg version next).2.2 = seg.advance (len ++ body).length := by
  have hrun := handshake_of_framed hbytes hframed
  have hinspect : inspectHandshake seg version next = _ :=
    inspect_of_framed hbytes hframed hlegacy
  have haccepted := (accepted_iff seg version next).mpr ⟨hlegacy, _, _, hrun⟩
  rw [hinspect] at haccepted
  obtain ⟨i₂, packet, rest₂, hbytes₂, hpacket, -, hend⟩ := hexact.sound _ _ _ hinspect haccepted
  obtain ⟨declared₂, len₂, body₂, rfl, hframed₂, hlen₂⟩ := hpacket
  -- the fields that were read and those of the packet are the same
  obtain ⟨-, hsame, -⟩ := @parses_unique U8 (U32 × U32) handshake _ parses_handshake
    (v, i.setWidth 32) (v, i₂.setWidth 32) (len ++ body) (len₂ ++ body₂) rest rest₂
    ⟨i, rfl, declared, len, body, rfl, hframed⟩
    ⟨i₂, rfl, declared₂, len₂, body₂, rfl, hframed₂⟩ (hbytes.symm.trans hbytes₂)
  obtain ⟨rfl, rfl, rfl⟩ := varInt_unique hframed.length hframed₂.length hsame
  rw [hinspect]
  exact ⟨hlen₂, hend⟩

end Fields

theorem handshake_exact : HandshakeExact seg version next ↔
    (∀ v intention declared len body rest, seg.bytes = len ++ body ++ rest →
      Framed 3 4 786 (HandshakeFields v intention) declared len body →
        (declared = body.length ↔ seg.bytes.head? ≠ some 0xFE)) ∧
    ∀ v intention declared len body, seg.bytes = len ++ body →
      Framed 3 4 786 (HandshakeFields v intention) declared len body →
        seg.bytes.head? ≠ some 0xFE → next = seg.advance (len ++ body).length := by
  constructor
  · intro hexact
    constructor
    · intro v i declared len body rest hbytes hframed
      constructor
      · intro hlen
        have hpacket : HandshakePacket v i (len ++ body) :=
          ⟨declared, len, body, rfl, hframed, hlen⟩
        exact ((accepted_iff seg version next).mp
          (hexact.complete v i (len ++ body) rest hbytes hpacket)).1
      · intro hlegacy
        exact (reads_of_exact hbytes hframed hexact hlegacy).1
    · intro v i declared len body hbytes hframed hlegacy
      have hwhole : seg.bytes = len ++ body ++ [] := by rw [List.append_nil, hbytes]
      have hempty : (seg.advance (len ++ body).length).len = 0 := by
        rw [← Cursor.bytes_length, seg.bytes_advance_of_append hwhole, List.length_nil]
      rw [← (reads_of_exact hwhole hframed hexact hlegacy).2,
        inspect_of_framed hwhole hframed hlegacy, if_pos hempty]
  · rintro ⟨hlengths, hlone⟩
    constructor
    · intro s v c hinspect haccepted
      have hrest : seg.bytes.head? ≠ some 0xFE ∧ ∃ r c, handshake seg = some (r, c) := by
        rw [← accepted_iff seg version next, hinspect]
        exact haccepted
      rcases inspectHandshake_spec seg version next with ⟨h, -⟩ | ⟨-, hnone, -⟩ |
        ⟨v', i', c', hlegacy, hsome, hrun⟩
      · exact absurd h hrest.1
      · obtain ⟨-, r, c, hsome⟩ := hrest
        rw [hnone] at hsome
        exact absurd hsome nofun
      · rw [hrun, Prod.mk.injEq, Prod.mk.injEq, Option.some_inj] at hinspect
        obtain ⟨rfl, rfl, rfl⟩ := hinspect
        obtain ⟨used, rest, hused, ⟨i, rfl, declared, len, body, rfl, hframed⟩, rfl⟩ :=
          (parses_handshake seg _ _).mp hsome
        have hlen := (hlengths v' i declared len body rest hused hframed).mpr hlegacy
        refine ⟨i, len ++ body, rest, hused, ⟨declared, len, body, rfl, hframed, hlen⟩, rfl, ?_⟩
        have hbytes := seg.bytes_advance_of_append hused
        split_ifs with hend
        · rw [← Cursor.bytes_length, hbytes, List.length_eq_zero_iff] at hend
          subst hend
          rw [List.append_nil] at hused
          exact hlone v' i declared len body hused hframed hlegacy
        · rfl
    · rintro v i packet rest hbytes ⟨declared, len, body, rfl, hframed, hlen⟩
      have hlegacy := (hlengths v i declared len body rest hbytes hframed).mp hlen
      exact (accepted_iff seg version next).mpr ⟨hlegacy, _, _, handshake_of_framed hbytes hframed⟩

/-- The parsers accept exactly the well-formed packets, and hand on their ends, where no
declared length disagrees with the fields, no handshake starts as a legacy ping, and none is
alone. -/
theorem packets_exact : PacketsExact seg version next ↔ LengthsAgree seg version next := by
  constructor
  · intro hexact
    obtain ⟨hlengths, hlone⟩ := (handshake_exact seg version next).mp hexact.handshake
    exact ⟨(login_exact seg version).mp hexact.login, hlengths, hlone⟩
  · intro hlengths
    exact ⟨status_exact seg, ping_exact seg, (login_exact seg version).mpr hlengths.login,
      (handshake_exact seg version next).mpr ⟨hlengths.handshake, hlengths.lone⟩⟩

end Segment

/-- A login start of version 47 that declares nine bytes, and has three. -/
def overstatedLogin : Cursor U8 := .ofList [9, 0, 1, 0x41]

theorem overstated_accepted : ¬∀ (seg : Cursor U8) (version : U32) (next : Cursor U8),
    PacketsExact seg version next := by
  intro h
  have haccepted : inspectLoginPacket overstatedLogin 47 = true := by decide
  obtain ⟨declared, len, body, hbytes, hframed, hlen⟩ :=
    ((h overstatedLogin 47 overstatedLogin).login).mp haccepted
  rw [overstatedLogin, Cursor.bytes_ofList] at hbytes
  have hnine : VarInt 3 9 [9] := .last 2 9 (by decide)
  obtain ⟨rfl, -, rfl⟩ := varInt_unique hnine hframed.length
    (by rw [← hbytes]; rfl : [9] ++ [0, 1, 0x41] = len ++ body)
  exact absurd hlen (by decide)

end AutoXdp.Minecraft
