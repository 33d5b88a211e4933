import AutoXdp.PassedSession
import Mathlib.Tactic.Basic
import Mathlib.Tactic.SplitIfs

/-! Which ways of cutting a session opening into segments pass the Minecraft handler. -/
namespace AutoXdp.Minecraft

/-- The packets of a client: a handshake, and either a status request with an optional
ping or a login start. -/
structure ClientOpening where
  version : U32
  intention : U8
  hs : List U8
  next : List U8
  ping : Option (List U8)
  handshake : HandshakePacket version intention hs
  status : intention = 1 → StatusPacket next ∧ ∀ p ∈ ping, PingPacket p
  login : intention ≠ 1 → LoginPacket version next ∧ ping = none

def ClientOpening.packets (o : ClientOpening) : List (List U8) := o.hs :: o.next :: o.ping.toList

namespace Dispatched

variable {key : FlowKey} (pkt : Dispatched key)

/-- The offsets that the handler accepts. -/
def Small : Prop := pkt.l3.toNat ≤ 255 ∧ pkt.inner.toNat ≤ 255

/-- The TCP header is whole. -/
def Whole : Prop := 20 ≤ pkt.hdrLen ∧ pkt.inner.toNat + pkt.hdrLen ≤ pkt.frame.length

/-- A segment with ACK at this sequence number, with this payload. -/
structure Carries (seq : U32) (payload : List U8) : Prop where
  whole : pkt.Whole
  ack : hasFlag pkt.flags tcpFlagAck = true
  seq : pkt.seq = seq
  payload : ∃ c, pkt.cursor = some c ∧ c.bytes = payload

end Dispatched

section Delivery

variable {key : FlowKey}

/-- Segments one after the other, each within the timeout of the one before. -/
inductive Carried : U32 → U64 → List (List (List U8)) → List (U64 × Dispatched key) → Prop where
  | nil (seq : U32) (prev : U64) : Carried seq prev [] []
  | cons (seq : U32) (prev now : U64) (group : List (List U8)) (groups : List (List (List U8)))
    (pkt : Dispatched key) (pkts : List (U64 × Dispatched key))
    (hcarries : pkt.Carries seq group.flatten) (htime : now - prev ≤ mcTimeoutNs)
    (h : Carried (seq + BitVec.ofNat 32 group.flatten.length) now groups pkts) :
    Carried seq prev (group :: groups) ((now, pkt) :: pkts)

/-- The verdicts of the handler, and the maps at the end. Once the flow is in `tcp_ct` the
XDP program passes it without the handler. -/
def deliver : McMaps → List (U64 × Dispatched key) → List XdpAction × McMaps
  | s, [] => ([], s)
  | s, (now, pkt) :: pkts =>
    let r := pkt.handle now s
    if r.1 = .pass ∧ r.2.pendingMc.lookup key = none then ([r.1], r.2)
    else
      let q := deliver r.2 pkts
      (r.1 :: q.1, q.2)

/-- A segment that is dropped passes when it is sent again. -/
def Resent : McMaps → List (U64 × Dispatched key) → Prop
  | _, [] => True
  | s, (now, pkt) :: pkts =>
    let r := pkt.handle now s
    (r.1 = .drop → ∀ later, later - now ≤ mcTimeoutNs → (pkt.handle later r.2).1 = .pass) ∧
      ((r.1 = .pass ∧ r.2.pendingMc.lookup key = none) ∨ Resent r.2 pkts)

structure Completes (o : ClientOpening) (s : McMaps) (pkts : List (U64 × Dispatched key)) :
    Prop where
  passes : ∀ verdict ∈ (deliver s pkts).1, verdict = .pass
  enters : o.intention ≠ 1 →
    ∃ raw, (deliver s pkts).2.tcpCt.lookup key = some raw ∧ isPending raw = false
  resent : Resent s pkts

/-- The first segment is the handshake and the packet behind it, and the ping has its own.
A handshake whose bytes are a login start of its version passes for one. -/
structure Joined (o : ClientOpening) (cuts : List (List (List U8)))
    (pkts : List (U64 × Dispatched key)) : Prop where
  legacy : o.hs.head? ≠ some 0xFE
  cut : (cuts = [o.hs, o.next] :: o.ping.toList.map (fun p => [p]) ∧ ∀ q ∈ pkts, q.2.Small) ∨
    (o.intention ≠ 1 ∧ cuts = [[o.hs], [o.next]] ∧ (∀ q ∈ pkts.head?, q.2.Small) ∧
      inspectLoginPacket (.ofList o.hs) o.version = true)

theorem resent_of_pass (s : McMaps) (pkts : List (U64 × Dispatched key))
    (h : ∀ verdict ∈ (deliver s pkts).1, verdict = .pass) : Resent s pkts := by
  induction pkts generalizing s with
  | nil => trivial
  | cons q pkts ih =>
    obtain ⟨now, pkt⟩ := q
    rw [deliver] at h
    rw [Resent]
    split_ifs at h with hentered
    · refine ⟨fun hdrop => ?_, Or.inl hentered⟩
      rw [hentered.1] at hdrop
      exact absurd hdrop nofun
    · refine ⟨fun hdrop => ?_, Or.inr (ih _ fun v hv => h v (List.mem_cons_of_mem _ hv))⟩
      have hpass := h _ (List.mem_cons_self ..)
      rw [hpass] at hdrop
      exact absurd hdrop nofun

/-! One segment. -/

section One

variable {s : McMaps} {now : U64} {pkt : Dispatched key}

theorem isSynOnly_of_ack (hack : hasFlag pkt.flags tcpFlagAck = true) :
    isSynOnly pkt.flags = false := by
  rw [isSynOnly, hack, Bool.not_true, Bool.and_false]

/-- A segment that is small enough reaches the entry of its flow. -/
theorem handle_pending (now : U64) {p : McPendingVal} {c : Cursor U8} (hsmall : pkt.Small)
    (hwhole : pkt.Whole) (hack : hasFlag pkt.flags tcpFlagAck = true)
    (hp : s.pendingMc.lookup key = some p) (htime : now - p.lastSeenNs ≤ mcTimeoutNs)
    (hc : pkt.cursor = some c) :
    pkt.handle now s = inspectPending key now s true pkt.seq p c := by
  obtain ⟨hhdr, hfit⟩ := hwhole
  have hfits := pkt.fits
  have hoff : ¬(pkt.l3.toNat > 255 ∨ pkt.inner.toNat > 255) := by
    obtain ⟨h3, hi⟩ := hsmall
    omega
  have hdoff : ¬(pkt.frame.byte (pkt.inner.toNat + 12) >>> 4).toNat < 5 := by
    rw [Dispatched.hdrLen] at hhdr
    omega
  have hroom : ¬pkt.inner.toNat + (pkt.frame.byte (pkt.inner.toNat + 12) >>> 4).toNat*4 >
      pkt.frame.length := by
    rw [Dispatched.hdrLen] at hfit
    omega
  have hhead : ¬pkt.inner.toNat + 20 > pkt.frame.length := by omega
  have hlate : ¬now - p.lastSeenNs > mcTimeoutNs := by
    rw [gt_iff_lt, BitVec.not_lt]
    exact htime
  have hsyn : ¬isSynOnly (tcpFlags pkt.frame pkt.inner.toNat) = true := by
    have h := isSynOnly_of_ack hack
    rw [Dispatched.flags] at h
    rw [h]
    exact Bool.false_ne_true
  rw [Dispatched.handle_eq, if_neg hoff]
  unfold handleTcp
  simp only [hhead, hdoff, hroom, hsyn, hp, hlate, if_false]
  have hcursor : tcpPayload pkt.frame pkt.inner.toNat
      ((pkt.frame.byte (pkt.inner.toNat + 12) >>> 4).toNat*4) pkt.l4Len = some c := hc
  rw [hcursor]
  simp only
  rw [← Dispatched.flags, hack, Dispatched.seq]
  rfl

theorem handle_large (hlarge : ¬pkt.Small) : pkt.handle now s = (.drop, s) := by
  have hoff : pkt.l3.toNat > 255 ∨ pkt.inner.toNat > 255 := by
    rw [Dispatched.Small, not_and_or] at hlarge
    omega
  rw [Dispatched.handle_eq, if_pos hoff]

end One

theorem status_length {w : List U8} (h : StatusPacket w) : w.length = 2 := by
  obtain ⟨body, rfl, rfl⟩ := (wellFormed_one 1 (by decide) _ (by rintro _ rfl; rfl) w).mp h
  rfl

theorem ping_length {w : List U8} (h : PingPacket w) : w.length = 10 := by
  have hbody : ∀ body : List U8, (∃ payload, body = 1 :: payload ∧ payload.length = 8) →
      body.length = (9 : U8).toNat := by
    rintro _ ⟨payload, rfl, hlen⟩
    rw [List.length_cons, hlen]
    rfl
  obtain ⟨body, rfl, payload, rfl, hlen⟩ := (wellFormed_one 9 (by decide) _ hbody w).mp h
  rw [List.length_cons, List.length_cons, hlen]

theorem handshake_length {v : U32} {i : U8} {w : List U8} (h : HandshakePacket v i w) :
    5 ≤ w.length := by
  obtain ⟨declared, len, body, rfl, hframed, hlen⟩ := h
  have hlower := hframed.lower
  have hpos : 0 < len.length := by
    cases hframed.length <;> exact Nat.succ_pos _
  rw [List.length_append]
  omega

section First

variable {seq : U32} (o : ClientOpening) {s : McMaps} {now : U64} {p : McPendingVal} {c : Cursor U8}
  {rest : List U8} (hstate : p.state = .awaitHandshake) (hbytes : c.bytes = o.hs ++ rest)

include hbytes

theorem payload_long : 5 ≤ c.len := by
  have h := handshake_length o.handshake
  rw [← c.bytes_length, hbytes, List.length_append]
  omega

omit hbytes in
theorem hs_ne_nil : o.hs ≠ [] := by
  intro h
  have hlen := handshake_length o.handshake
  rw [h] at hlen
  exact absurd hlen (by decide)

/-- What the handler reads of the first payload. -/
theorem read_handshake (hlegacy : o.hs.head? ≠ some 0xFE) (v : U32) :
    inspectHandshake c v c = (some (stateAfter (o.intention.setWidth 32) (c.advance o.hs.length)),
      o.version, if rest = [] then c else c.advance o.hs.length) := by
  obtain ⟨declared, len, body, hhs, hframed, -⟩ := o.handshake
  have hsome : handshake c = some ((o.version, o.intention.setWidth 32), c.advance o.hs.length) :=
    (parses_handshake c _ _).mpr
      ⟨o.hs, rest, hbytes, ⟨o.intention, rfl, declared, len, body, hhs, hframed⟩, rfl⟩
  have hhead : c.bytes.head? ≠ some 0xFE := by
    rw [hbytes, List.head?_append_of_ne_nil _ (hs_ne_nil o)]
    exact hlegacy
  have hend : (c.advance o.hs.length).len = 0 ↔ rest = [] := by
    rw [← Cursor.bytes_length, c.bytes_advance_of_append hbytes, List.length_eq_zero_iff]
  rcases inspectHandshake_spec c v c with ⟨h, -⟩ | ⟨-, hnone, -⟩ | ⟨v', i', c', -, hsome', hrun⟩
  · exact absurd h hhead
  · rw [hsome] at hnone
    exact absurd hnone nofun
  · rw [hsome] at hsome'
    obtain ⟨hvi, rfl⟩ := Prod.mk.inj (Option.some.inj hsome')
    obtain ⟨rfl, rfl⟩ := Prod.mk.inj hvi
    rw [hrun]
    simp only [hend]

include hstate

theorem inspect_first (hseq : p.expectedSeq = seq) :
    inspectPending key now s true seq p c = inspectOpening key now s p c := by
  have hlen := payload_long o hbytes
  have hpos : c.len > 0 := by omega
  rw [inspectPending, hstate, if_neg (by rintro ⟨⟩), inspectPayload, if_pos hpos]
  simp only [Bool.not_true, Bool.false_eq_true, if_false, hseq, ne_eq, not_true_eq_false]

/-- A first byte of a legacy ping ends the flow. -/
theorem opening_legacy (hlegacy : o.hs.head? = some 0xFE) :
    (inspectOpening key now s p c).1 = .drop := by
  have hhead : c.bytes.head? = some 0xFE := by
    rw [hbytes, List.head?_append_of_ne_nil _ (hs_ne_nil o)]
    exact hlegacy
  rw [inspectOpening, if_pos hstate]
  split_ifs
  · rfl
  · rcases inspectHandshake_spec c p.protocolVersion c with ⟨-, hrun⟩ | ⟨h, -⟩ | ⟨_, _, _, h, -⟩
    · rw [hrun]
      rfl
    · exact absurd hhead h
    · exact absurd hhead h

/-- The rest of the first segment is a status request, or the segment is dropped. -/
theorem opening_status (hlegacy : o.hs.head? ≠ some 0xFE) (hi : o.intention = 1)
    (hrate : (mcRateCheck s.mcStatusRate (fillRateKey key) now
      mcStatusRateWindowNs mcStatusRateMax).1 = false) :
    (¬StatusPacket rest ∧ (inspectOpening key now s p c).1 = .drop) ∨
    (StatusPacket rest ∧ (inspectOpening key now s p c).1 = .pass ∧
      (inspectOpening key now s p c).2.pendingMc.lookup key =
        some ⟨now, p.expectedSeq + BitVec.ofNat 32 c.len, o.version, .awaitPing, 0⟩) := by
  have hlong := payload_long o hbytes
  have hin := c.inBounds
  have hroom : ¬c.data.length < maxPacketLenBytes := by rw [maxPacketLenBytes]; omega
  have hread := read_handshake o hbytes hlegacy p.protocolVersion
  have hone : o.intention.setWidth 32 = (1 : U32) := by rw [hi]; rfl
  rw [inspectOpening, if_pos hstate, if_neg hroom, hread]
  rw [stateAfter, if_pos hone, if_pos hone, ← Cursor.bytes_length,
    c.bytes_advance_of_append hbytes]
  by_cases hmore : rest = []
  · left
    subst hmore
    rw [List.append_nil] at hbytes
    simp only [List.length_nil, if_true, inspectSession]
    have hno : inspectStatusRequest c = false := by
      rw [← Bool.not_eq_true, status_exact, hbytes]
      intro h
      have hlen := handshake_length o.handshake
      rw [status_length h] at hlen
      exact absurd hlen (by decide)
    rw [hno]
    refine ⟨fun h => absurd (status_length h) (by decide), rfl⟩
  · have hlen : rest.length ≠ 0 := fun h => hmore (List.length_eq_zero_iff.mp h)
    simp only [hlen, if_false, hmore, inspectSession]
    have hexact := status_exact (c.advance o.hs.length)
    rw [c.bytes_advance_of_append hbytes] at hexact
    cases hreq : inspectStatusRequest (c.advance o.hs.length) with
    | false =>
      left
      rw [hreq] at hexact
      exact ⟨fun h => absurd (hexact.mpr h) (by rintro ⟨⟩), rfl⟩
    | true =>
      right
      rw [hreq] at hexact
      refine ⟨hexact.mp rfl, ?_⟩
      simp only [Bool.not_true, Bool.false_eq_true, if_false, hrate]
      exact ⟨rfl, setPending_lookup ..⟩

/-- The rest of the first segment is a login, or there is none and the handshake itself
is one, or the segment is dropped. -/
theorem opening_login (hlegacy : o.hs.head? ≠ some 0xFE) (hi : o.intention ≠ 1)
    (hrate : (mcRateCheck s.mcLoginRate (fillRateKey key) now
      mcLoginRateWindowNs mcLoginRateMax).1 = false) :
    (inspectLoginPacket (.ofList (if rest = [] then o.hs else rest)) o.version = false ∧
      (inspectOpening key now s p c).1 = .drop) ∨
    (inspectLoginPacket (.ofList (if rest = [] then o.hs else rest)) o.version = true ∧
      (inspectOpening key now s p c).1 = .pass ∧
      (inspectOpening key now s p c).2.pendingMc.lookup key = none ∧
      (inspectOpening key now s p c).2.tcpCt.lookup key = some now) := by
  have hlong := payload_long o hbytes
  have hin := c.inBounds
  have hroom : ¬c.data.length < maxPacketLenBytes := by rw [maxPacketLenBytes]; omega
  have hread := read_handshake o hbytes hlegacy p.protocolVersion
  have hone : ¬o.intention.setWidth 32 = (1 : U32) := by
    intro h
    apply hi
    apply BitVec.eq_of_toNat_eq
    have hnat := congrArg BitVec.toNat h
    rw [BitVec.toNat_setWidth] at hnat
    have := o.intention.isLt
    change _ % 2^32 = 1 at hnat
    change _ = 1
    omega
  have hsession (d : Cursor U8) (q : McPendingVal) (hq : q.state = .awaitLogin)
      (hversion : q.protocolVersion = o.version) (n : ℕ) :
      (inspectLoginPacket d o.version = false ∧ (inspectSession key now s q d n).1 = .drop) ∨
      (inspectLoginPacket d o.version = true ∧ (inspectSession key now s q d n).1 = .pass ∧
        (inspectSession key now s q d n).2.pendingMc.lookup key = none ∧
        (inspectSession key now s q d n).2.tcpCt.lookup key = some now) := by
    unfold inspectSession
    rw [hq]
    simp only [hversion]
    cases hlogin : inspectLoginPacket d o.version with
    | false => exact Or.inl ⟨rfl, rfl⟩
    | true =>
      right
      simp only [Bool.not_true, Bool.false_eq_true, if_false, hrate]
      exact ⟨trivial, rfl, cleanupPending_lookup .., AList.lookup_insert _⟩
  rw [inspectOpening, if_pos hstate, if_neg hroom, hread]
  rw [stateAfter, if_neg hone, if_neg hone, ← Cursor.bytes_length,
    c.bytes_advance_of_append hbytes]
  by_cases hmore : rest = []
  · subst hmore
    rw [List.append_nil] at hbytes
    have hsame : inspectLoginPacket (.ofList o.hs) o.version = inspectLoginPacket c o.version := by
      rw [Bool.eq_iff_iff, ← login_bytes c, hbytes]
    simp only [List.length_nil, if_true, hsame]
    exact hsession c _ rfl rfl c.len
  · have hlen : rest.length ≠ 0 := fun h => hmore (List.length_eq_zero_iff.mp h)
    have hsame : inspectLoginPacket (.ofList rest) o.version =
        inspectLoginPacket (c.advance o.hs.length) o.version := by
      rw [Bool.eq_iff_iff, ← login_bytes (c.advance o.hs.length),
        c.bytes_advance_of_append hbytes]
    simp only [hlen, if_false, hmore, hsame]
    exact hsession (c.advance o.hs.length) _ rfl rfl c.len

end First

/-! The opening as a whole. -/

/-- A SYN, and an ACK without payload. -/
structure Greeting (isn : U32) (syn ack : Dispatched key) (t₀ t₁ : U64) : Prop where
  syn : isSynOnly syn.flags = true ∧ syn.seq = isn ∧ syn.Whole ∧ syn.Small
  ack : ack.Carries (isn + 1) [] ∧ ack.Small
  time : t₁ - t₀ ≤ mcTimeoutNs

/-- The maps after the greeting. -/
def greeted (s₀ : McMaps) (syn ack : Dispatched key) (t₀ t₁ : U64) : McMaps :=
  (ack.handle t₁ (syn.handle t₀ s₀).2).2

theorem handle_syn (s : McMaps) (now : U64) {pkt : Dispatched key} (hsmall : pkt.Small)
    (hwhole : pkt.Whole) (hsyn : isSynOnly pkt.flags = true) :
    (pkt.handle now s).2.pendingMc.lookup key = some ⟨now, pkt.seq + 1, 0, .awaitAck, 0⟩ ∧
      (pkt.handle now s).2.mcStatusRate = s.mcStatusRate ∧
      (pkt.handle now s).2.mcLoginRate = s.mcLoginRate := by
  obtain ⟨hhdr, hfit⟩ := hwhole
  have hfits := pkt.fits
  have hoff : ¬(pkt.l3.toNat > 255 ∨ pkt.inner.toNat > 255) := by
    obtain ⟨h3, hi⟩ := hsmall
    omega
  have hdoff : ¬(pkt.frame.byte (pkt.inner.toNat + 12) >>> 4).toNat < 5 := by
    rw [Dispatched.hdrLen] at hhdr
    omega
  have hroom : ¬pkt.inner.toNat + (pkt.frame.byte (pkt.inner.toNat + 12) >>> 4).toNat*4 >
      pkt.frame.length := by
    rw [Dispatched.hdrLen] at hfit
    omega
  have hhead : ¬pkt.inner.toNat + 20 > pkt.frame.length := by omega
  rw [Dispatched.handle_eq, if_neg hoff]
  unfold handleTcp
  rw [Dispatched.flags] at hsyn
  simp only [hhead, hdoff, hroom, hsyn, if_false, if_true]
  exact ⟨setPending_lookup .., rfl, rfl⟩

/-- After the greeting the entry waits for the handshake. -/
theorem greeted_entry (s₀ : McMaps) {isn : U32} {syn ack : Dispatched key} {t₀ t₁ : U64}
    (h : Greeting isn syn ack t₀ t₁) :
    (greeted s₀ syn ack t₀ t₁).pendingMc.lookup key =
        some ⟨t₁, isn + 1, 0, .awaitHandshake, 0⟩ ∧
      (greeted s₀ syn ack t₀ t₁).mcStatusRate = s₀.mcStatusRate ∧
      (greeted s₀ syn ack t₀ t₁).mcLoginRate = s₀.mcLoginRate := by
  obtain ⟨⟨hsyn, hseq, hwhole, hsmall⟩, ⟨hcarries, hsmall'⟩, htime⟩ := h
  obtain ⟨hentry, hstatus, hlogin⟩ := handle_syn s₀ t₀ hsmall hwhole hsyn
  obtain ⟨c, hc, hempty⟩ := hcarries.payload
  have hlen : c.len = 0 := by rw [← c.bytes_length, hempty]; rfl
  have hrun := handle_pending t₁ hsmall' hcarries.whole hcarries.ack hentry htime hc
  rw [greeted, hrun, inspectPending, if_pos rfl]
  simp only [Bool.not_true, Bool.false_eq_true, hseq, hcarries.seq, ne_eq, not_true_eq_false,
    or_self, if_false, hlen, if_true]
  exact ⟨setPending_lookup .., hstatus, hlogin⟩

/-- The first group of an opening, and what is left of it. -/
theorem first_group (o : ClientOpening) {cuts : List (List (List U8))}
    (hcut : cuts.flatten = o.packets) (hne : [] ∉ cuts) :
    ∃ group groups, cuts = (o.hs :: group) :: groups ∧
      group ++ groups.flatten = o.next :: o.ping.toList ∧ [] ∉ groups := by
  cases cuts with
  | nil => exact absurd hcut nofun
  | cons first groups =>
    cases first with
    | nil => exact absurd (List.mem_cons_self ..) hne
    | cons w group =>
      rw [List.flatten_cons, List.cons_append, ClientOpening.packets, List.cons.injEq] at hcut
      obtain ⟨rfl, htail⟩ := hcut
      exact ⟨group, groups, rfl, htail, fun h => hne (List.mem_cons_of_mem _ h)⟩

/-- A group without packets is not sent, so one packet is one group. -/
theorem one_group {w : List U8} {groups : List (List (List U8))} (h : groups.flatten = [w])
    (hne : [] ∉ groups) : groups = [[w]] := by
  cases groups with
  | nil => exact absurd h nofun
  | cons first groups =>
    cases first with
    | nil => exact absurd (List.mem_cons_self ..) hne
    | cons x xs =>
      rw [List.flatten_cons, List.cons_append, List.cons.injEq] at h
      obtain ⟨rfl, htail⟩ := h
      obtain ⟨rfl, hrest⟩ := List.append_eq_nil_iff.mp htail
      cases groups with
      | nil => rfl
      | cons y ys =>
        cases y with
        | nil => exact absurd (List.mem_cons_of_mem _ (List.mem_cons_self ..)) hne
        | cons z zs => exact absurd hrest nofun

theorem no_group {groups : List (List (List U8))} (h : groups.flatten = []) (hne : [] ∉ groups) :
    groups = [] := by
  cases groups with
  | nil => rfl
  | cons first groups =>
    cases first with
    | nil => exact absurd (List.mem_cons_self ..) hne
    | cons x xs => exact absurd h nofun

theorem deliver_dropped {s : McMaps} {now : U64} {pkt : Dispatched key}
    {pkts : List (U64 × Dispatched key)} (hdrop : (pkt.handle now s).1 = .drop)
    (h : ∀ verdict ∈ (deliver s ((now, pkt) :: pkts)).1, verdict = .pass) : False := by
  rw [deliver, if_neg (by rw [hdrop]; exact fun h => absurd h.1 nofun)] at h
  have hpass := h _ (List.mem_cons_self ..)
  rw [hdrop] at hpass
  exact absurd hpass nofun

/-- A flow that passed and whose entry stays goes on with the next segment. -/
theorem deliver_next {s : McMaps} {now : U64} {pkt : Dispatched key}
    {pkts : List (U64 × Dispatched key)} {p : McPendingVal}
    (hentry : (pkt.handle now s).2.pendingMc.lookup key = some p) :
    deliver s ((now, pkt) :: pkts) =
      ((pkt.handle now s).1 :: (deliver (pkt.handle now s).2 pkts).1,
        (deliver (pkt.handle now s).2 pkts).2) := by
  rw [deliver, if_neg (by rw [hentry]; exact fun h => absurd h.2 nofun)]

/-- A flow that entered `tcp_ct` is done. -/
theorem deliver_entered {s : McMaps} {now : U64} {pkt : Dispatched key}
    (pkts : List (U64 × Dispatched key)) (hpass : (pkt.handle now s).1 = .pass)
    (hentry : (pkt.handle now s).2.pendingMc.lookup key = none) :
    deliver s ((now, pkt) :: pkts) = ([.pass], (pkt.handle now s).2) := by
  rw [deliver, if_pos ⟨hpass, hentry⟩, hpass]

theorem handle_ping {s : McMaps} {now : U64} {pkt : Dispatched key} {p : McPendingVal}
    {w : List U8} (hsmall : pkt.Small) (hcarries : pkt.Carries p.expectedSeq w)
    (hp : s.pendingMc.lookup key = some p) (hstate : p.state = .awaitPing)
    (htime : now - p.lastSeenNs ≤ mcTimeoutNs) (hping : PingPacket w) :
    (pkt.handle now s).1 = .pass ∧ ∃ q, (pkt.handle now s).2.pendingMc.lookup key = some q := by
  obtain ⟨c, hc, rfl⟩ := hcarries.payload
  have hlen : c.len > 0 := by
    rw [← c.bytes_length, ping_length hping]
    decide
  rw [handle_pending _ hsmall hcarries.whole hcarries.ack hp htime hc, inspectPending, hstate,
    if_neg (by rintro ⟨⟩), inspectPayload, if_pos hlen, inspectOpening, hstate]
  simp only [Bool.not_true, Bool.false_eq_true, if_false, hcarries.seq, ne_eq, not_true_eq_false,
    reduceCtorEq, inspectSession, hstate, (ping_exact c).mpr hping]
  exact ⟨rfl, _, setPending_lookup ..⟩

theorem completes_of_pass {o : ClientOpening} {s : McMaps} {pkts : List (U64 × Dispatched key)}
    (hpass : ∀ verdict ∈ (deliver s pkts).1, verdict = .pass)
    (henters : o.intention ≠ 1 →
      ∃ raw, (deliver s pkts).2.tcpCt.lookup key = some raw ∧ isPending raw = false) :
    Completes o s pkts :=
  ⟨hpass, henters, resent_of_pass s pkts hpass⟩

section Opening

variable (o : ClientOpening) {s : McMaps} {now : U64} {pkt : Dispatched key}
  {pkts : List (U64 × Dispatched key)} {p : McPendingVal} {group : List (List U8)}
  {groups : List (List (List U8))}
  (hgroup : group ++ groups.flatten = o.next :: o.ping.toList) (hne : [] ∉ groups)
  (hp : s.pendingMc.lookup key = some p) (hstate : p.state = .awaitHandshake)
  (hcarries : pkt.Carries p.expectedSeq ((o.hs :: group).flatten))
  (htime : now - p.lastSeenNs ≤ mcTimeoutNs) (hsmall : pkt.Small)
  (hlegacy : o.hs.head? ≠ some 0xFE)

include hgroup hne hp hstate hcarries htime hsmall hlegacy

theorem completes_status (hi : o.intention = 1)
    (hrate : (mcRateCheck s.mcStatusRate (fillRateKey key) now
      mcStatusRateWindowNs mcStatusRateMax).1 = false)
    (hrest : Carried (p.expectedSeq + BitVec.ofNat 32 (o.hs :: group).flatten.length) now
      groups pkts) :
    Completes o s ((now, pkt) :: pkts) ↔ Joined o ((o.hs :: group) :: groups) ((now, pkt) :: pkts) := by
  obtain ⟨hnext, hping⟩ := o.status hi
  obtain ⟨c, hc, hbytes⟩ := hcarries.payload
  have hrun : pkt.handle now s = inspectOpening key now s p c := by
    rw [handle_pending _ hsmall hcarries.whole hcarries.ack hp htime hc]
    exact inspect_first o hstate hbytes hcarries.seq.symm
  rcases opening_status o hstate hbytes hlegacy hi hrate with ⟨hno, hdrop⟩ | ⟨hyes, hpass, hentry⟩
  · refine iff_of_false (fun h => deliver_dropped (hrun ▸ hdrop) h.passes) ?_
    rintro ⟨-, ⟨hcut, -⟩ | ⟨h, -⟩⟩
    · obtain ⟨hfirst, -⟩ := List.cons.inj hcut
      obtain rfl : group = [o.next] := (List.cons.inj hfirst).2
      apply hno
      rw [List.flatten_cons, List.flatten_nil, List.append_nil]
      exact hnext
    · exact h hi
  · -- the lengths leave only the status request for the rest of the first segment
    have hsplit : group = [o.next] ∧ groups.flatten = o.ping.toList := by
      have hlen := status_length hyes
      cases group with
      | nil => exact absurd hlen (by decide)
      | cons w ws =>
        rw [List.cons_append, List.cons.injEq] at hgroup
        obtain ⟨rfl, htail⟩ := hgroup
        cases ws with
        | nil => exact ⟨rfl, htail⟩
        | cons x xs =>
          exfalso
          rw [List.cons_append] at htail
          have hx : x ∈ o.ping := by
            have hmem : x ∈ o.ping.toList := htail ▸ List.mem_cons_self ..
            exact Option.mem_toList.mp hmem
          have hxlen := ping_length (hping x hx)
          have hnlen := status_length hnext
          rw [List.flatten_cons, List.flatten_cons, List.length_append, List.length_append] at hlen
          omega
    obtain ⟨rfl, hflat⟩ := hsplit
    rw [← hrun] at hpass hentry
    have hlast : p.expectedSeq + BitVec.ofNat 32 c.len =
        p.expectedSeq + BitVec.ofNat 32 [o.hs, o.next].flatten.length := by
      rw [← c.bytes_length, hbytes]
    cases hp2 : o.ping with
    | none =>
      rw [hp2] at hflat
      obtain rfl := no_group hflat hne
      cases hrest with
      | nil =>
        refine iff_of_true (completes_of_pass ?_ fun h => absurd hi h)
          ⟨hlegacy, Or.inl ⟨by rw [hp2]; rfl, ?_⟩⟩
        · rw [deliver_next hentry, hpass]
          exact fun v hv => List.mem_singleton.mp hv
        · intro q hq
          rw [List.mem_singleton.mp hq]
          exact hsmall
    | some w =>
      rw [hp2] at hflat
      obtain rfl := one_group hflat hne
      cases hrest with
      | cons _ _ now₂ _ _ pkt₂ pkts₂ hcarries₂ htime₂ hrest₂ =>
        cases hrest₂ with
        | nil =>
          rw [← hlast, List.flatten_singleton] at hcarries₂
          by_cases hsmall₂ : pkt₂.Small
          · obtain ⟨hpass₂, q, hq⟩ := handle_ping hsmall₂ hcarries₂ hentry rfl htime₂
              (hping w (hp2 ▸ rfl))
            refine iff_of_true (completes_of_pass ?_ fun h => absurd hi h)
              ⟨hlegacy, Or.inl ⟨by rw [hp2]; rfl, ?_⟩⟩
            · rw [deliver_next hentry, deliver_next hq, hpass, hpass₂]
              intro v hv
              rcases List.mem_cons.mp hv with rfl | hv
              · rfl
              · exact List.mem_singleton.mp hv
            · intro x hx
              rcases List.mem_cons.mp hx with rfl | hx
              · exact hsmall
              · rw [List.mem_singleton.mp hx]
                exact hsmall₂
          · refine iff_of_false ?_ ?_
            · intro h
              have hpasses := h.passes
              rw [deliver_next hentry] at hpasses
              exact deliver_dropped (congrArg Prod.fst (handle_large hsmall₂))
                fun v hv => hpasses v (List.mem_cons_of_mem _ hv)
            · rintro ⟨-, ⟨-, hall⟩ | ⟨h, -⟩⟩
              · exact hsmall₂ (hall (now₂, pkt₂) (List.mem_cons_of_mem _ (List.mem_cons_self ..)))
              · exact h hi

theorem completes_login (hi : o.intention ≠ 1)
    (hrate : (mcRateCheck s.mcLoginRate (fillRateKey key) now
      mcLoginRateWindowNs mcLoginRateMax).1 = false) (hclock : now.toNat < 2^63)
    (hrest : Carried (p.expectedSeq + BitVec.ofNat 32 (o.hs :: group).flatten.length) now
      groups pkts) :
    Completes o s ((now, pkt) :: pkts) ↔ Joined o ((o.hs :: group) :: groups) ((now, pkt) :: pkts) := by
  obtain ⟨hnext, hping⟩ := o.login hi
  obtain ⟨c, hc, hbytes⟩ := hcarries.payload
  have hrun : pkt.handle now s = inspectOpening key now s p c := by
    rw [handle_pending _ hsmall hcarries.whole hcarries.ack hp htime hc]
    exact inspect_first o hstate hbytes hcarries.seq.symm
  have hlogin : inspectLoginPacket (.ofList o.next) o.version = true := by
    obtain ⟨declared, len, body, hword, hframed, -⟩ := hnext
    exact (login_accepts _ _).mpr ⟨declared, len, body, by rw [Cursor.bytes_ofList]; exact hword, hframed⟩
  have hnextne : o.next ≠ [] := by
    obtain ⟨declared, len, body, hword, hframed, -⟩ := hnext
    rw [hword]
    cases hframed.length <;> exact nofun
  rw [hping] at hgroup
  rcases opening_login o hstate hbytes hlegacy hi hrate with ⟨hno, hdrop⟩ |
    ⟨hyes, hpass, hentry, hct⟩
  · refine iff_of_false (fun h => deliver_dropped (hrun ▸ hdrop) h.passes) ?_
    rintro ⟨-, ⟨hcut, -⟩ | ⟨-, hcut, -, halone⟩⟩
    · obtain ⟨hfirst, -⟩ := List.cons.inj hcut
      obtain rfl : group = [o.next] := (List.cons.inj hfirst).2
      rw [List.flatten_cons, List.flatten_nil, List.append_nil, if_neg hnextne, hlogin] at hno
      exact absurd hno nofun
    · obtain ⟨hfirst, -⟩ := List.cons.inj hcut
      obtain rfl : group = [] := (List.cons.inj hfirst).2
      rw [List.flatten_nil, if_pos rfl, halone] at hno
      exact absurd hno nofun
  · rw [← hrun] at hpass hentry hct
    have hdone := deliver_entered pkts hpass hentry
    have hcompletes : Completes o s ((now, pkt) :: pkts) := by
      apply completes_of_pass
      · rw [hdone]
        exact fun v hv => List.mem_singleton.mp hv
      · rw [hdone]
        exact fun _ => ⟨now, hct, isPending_of_lt now hclock⟩
    refine iff_of_true hcompletes ⟨hlegacy, ?_⟩
    cases group with
    | nil =>
      right
      rw [List.flatten_nil, if_pos rfl] at hyes
      refine ⟨hi, ?_, ?_, hyes⟩
      · rw [one_group hgroup hne]
      · intro q hq
        rw [← Option.some.inj hq]
        exact hsmall
    | cons w ws =>
      left
      rw [List.cons_append, List.cons.injEq] at hgroup
      obtain ⟨rfl, htail⟩ := hgroup
      obtain ⟨rfl, hflat⟩ := List.append_eq_nil_iff.mp htail
      obtain rfl := no_group hflat hne
      cases hrest with
      | nil =>
        refine ⟨by rw [hping]; rfl, ?_⟩
        intro q hq
        rw [List.mem_singleton.mp hq]
        exact hsmall

end Opening

/-- An opening passes the handler exactly when its handshake does not start as a legacy
ping, and travels with the packet behind it and nothing else. -/
theorem opening_completes (o : ClientOpening) (s₀ : McMaps) (isn : U32)
    (syn ack : Dispatched key) (t₀ t₁ : U64) (hgreet : Greeting isn syn ack t₀ t₁)
    (cuts : List (List (List U8))) (hcut : cuts.flatten = o.packets) (hne : [] ∉ cuts)
    (pkts : List (U64 × Dispatched key)) (hsent : Carried (isn + 1) t₁ cuts pkts)
    (hrate : ∀ q ∈ pkts,
      (mcRateCheck s₀.mcStatusRate (fillRateKey key) q.1
        mcStatusRateWindowNs mcStatusRateMax).1 = false ∧
      (mcRateCheck s₀.mcLoginRate (fillRateKey key) q.1
        mcLoginRateWindowNs mcLoginRateMax).1 = false)
    (hclock : ∀ q ∈ pkts, q.1.toNat < 2^63) :
    Completes o (greeted s₀ syn ack t₀ t₁) pkts ↔ Joined o cuts pkts := by
  obtain ⟨hentry, hstatus, hlogin⟩ := greeted_entry s₀ hgreet
  obtain ⟨group, groups, rfl, hgroup, hgroups⟩ := first_group o hcut hne
  cases hsent with
  | cons _ _ now _ _ pkt pkts hcarries htime hrest =>
    have hmem : (now, pkt) ∈ (now, pkt) :: pkts := List.mem_cons_self ..
    obtain ⟨hsrate, hlrate⟩ := hrate _ hmem
    rw [← hstatus] at hsrate
    rw [← hlogin] at hlrate
    by_cases hsmall : pkt.Small
    · by_cases hlegacy : o.hs.head? = some 0xFE
      · refine iff_of_false ?_ fun h => h.legacy hlegacy
        intro h
        obtain ⟨c, hc, hbytes⟩ := hcarries.payload
        have hrun := handle_pending now hsmall hcarries.whole hcarries.ack hentry htime hc
        rw [inspect_first o rfl hbytes hcarries.seq.symm] at hrun
        exact deliver_dropped (hrun ▸ opening_legacy o rfl hbytes hlegacy) h.passes
      · by_cases hi : o.intention = 1
        · exact completes_status o hgroup hgroups hentry rfl hcarries htime hsmall hlegacy hi
            hsrate hrest
        · exact completes_login o hgroup hgroups hentry rfl hcarries htime hsmall hlegacy hi
            hlrate (hclock _ hmem) hrest
    · refine iff_of_false ?_ ?_
      · exact fun h => deliver_dropped (congrArg Prod.fst (handle_large hsmall)) h.passes
      · rintro ⟨-, ⟨-, hall⟩ | ⟨-, -, hhead, -⟩⟩
        · exact hsmall (hall _ hmem)
        · exact hsmall (hhead _ rfl)

end Delivery

/-! A status of version 47, in one segment and in two. -/

def statusOpening : ClientOpening where
  version := 47
  intention := 1
  hs := askedBytes.take 7
  next := askedBytes.drop 7
  ping := none
  handshake := ⟨6, [6], [0, 47, 0, 99, 221, 1], rfl,
    ⟨.last 2 6 (by decide), by decide, by decide, 47, [47], [0], [99, 221], rfl,
      .last 4 47 (by decide), rfl, ⟨0, [0], [], rfl, .last 4 0 (by decide), rfl, le_rfl, by decide⟩,
      rfl, Or.inl rfl⟩, rfl⟩
  status _ := ⟨⟨1, [1], [0], rfl, ⟨.last 0 1 (by decide), le_rfl, le_rfl, rfl⟩, rfl⟩, nofun⟩
  login h := absurd rfl h

def ackPacket : Dispatched clientKey := clientPacket 0x10 8 []

theorem greeting_sample : Greeting 7 synPacket ackPacket 1 2 where
  syn := by
    refine ⟨?_, ?_, ⟨?_, ?_⟩, ?_, ?_⟩ <;> decide +kernel
  ack := by
    refine ⟨⟨⟨?_, ?_⟩, ?_, ?_, .ofList [], rfl, rfl⟩, ?_, ?_⟩ <;> decide +kernel
  time := by decide

theorem asked_carried : Carried (8 : U32) 2 [[statusOpening.hs, statusOpening.next]]
    [(3, askedPacket)] := by
  refine .cons 8 2 3 _ [] askedPacket [] ⟨⟨?_, ?_⟩, ?_, ?_, .ofList askedBytes, rfl, ?_⟩ ?_ (.nil _ 3)
    <;> decide +kernel

theorem opening_completes_sample :
    Completes statusOpening (greeted {} synPacket ackPacket 1 2) [(3, askedPacket)] ↔
      Joined statusOpening [[statusOpening.hs, statusOpening.next]] [(3, askedPacket)] :=
  opening_completes statusOpening {} 7 synPacket ackPacket 1 2 greeting_sample
    [[statusOpening.hs, statusOpening.next]] rfl (by decide) [(3, askedPacket)] asked_carried
    (fun q hq => by rw [List.mem_singleton.mp hq]; decide +kernel)
    (fun q hq => by rw [List.mem_singleton.mp hq]; decide)

/-- The status request behind the handshake, in a segment of its own. -/
def laterRequest : Dispatched clientKey := clientPacket 0x18 15 (askedBytes.drop 7)

theorem cut_carried : Carried (8 : U32) 2 [[statusOpening.hs], [statusOpening.next]]
    [(3, handshakePacket), (4, laterRequest)] := by
  refine .cons 8 2 3 _ _ handshakePacket _
    ⟨⟨?_, ?_⟩, ?_, ?_, .ofList (askedBytes.take 7), rfl, ?_⟩ ?_
    (.cons _ 3 4 _ [] laterRequest []
      ⟨⟨?_, ?_⟩, ?_, ?_, .ofList (askedBytes.drop 7), rfl, ?_⟩ ?_ (.nil _ 4)) <;> decide +kernel

theorem cut_opening_dropped : ¬∀ (key : FlowKey) (o : ClientOpening) (s₀ : McMaps) (isn : U32)
    (syn ack : Dispatched key) (t₀ t₁ : U64) (_ : Greeting isn syn ack t₀ t₁)
    (cuts : List (List (List U8))) (_ : cuts.flatten = o.packets) (_ : [] ∉ cuts)
    (pkts : List (U64 × Dispatched key)) (_ : Carried (isn + 1) t₁ cuts pkts)
    (_ : ∀ q ∈ pkts,
      (mcRateCheck s₀.mcStatusRate (fillRateKey key) q.1
        mcStatusRateWindowNs mcStatusRateMax).1 = false ∧
      (mcRateCheck s₀.mcLoginRate (fillRateKey key) q.1
        mcLoginRateWindowNs mcLoginRateMax).1 = false)
    (_ : ∀ q ∈ pkts, q.1.toNat < 2^63),
    Completes o (greeted s₀ syn ack t₀ t₁) pkts := by
  intro h
  have hcompletes := h clientKey statusOpening {} 7 synPacket ackPacket 1 2 greeting_sample
    [[statusOpening.hs], [statusOpening.next]] rfl (by decide)
    [(3, handshakePacket), (4, laterRequest)] cut_carried (by decide +kernel) (by decide)
  have hdrop : (handshakePacket.handle 3 (greeted {} synPacket ackPacket 1 2)).1 = .drop := by
    decide +kernel
  exact deliver_dropped hdrop hcompletes.passes

end AutoXdp.Minecraft
