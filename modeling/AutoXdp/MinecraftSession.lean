import AutoXdp.DeclaredLength
import AutoXdp.MinecraftHandler
import Mathlib.Tactic.Basic
import Mathlib.Tactic.SplitIfs
import Mathlib.Tactic.Tauto

/-! What the Minecraft handler lets through of one flow: the session that its passed
segments spell, unless a handshake was taken apart from the packet behind it. -/
namespace AutoXdp.Minecraft

/-! One segment of a flow with a pending entry. -/

/-- The entry still waits for the handshake, and this segment may bring it. -/
def Opens (state : McState) : Prop := state = .awaitAck ∨ state = .awaitHandshake

/-- The states a session rests in when every handshake comes with the next packet. -/
def Resting (state : McState) : Prop :=
  state = .awaitAck ∨ state = .awaitHandshake ∨ state = .awaitPing ∨ state = .pingComplete

/-- The entry after a segment that was not taken. -/
structure Follows (p p' : McPendingVal) : Prop where
  seq : p'.expectedSeq = p.expectedSeq
  state : p'.state = p.state ∨ (p.state = .awaitAck ∧ p'.state = .awaitHandshake)

/-- The handshake of the payload is accepted, and what follows it is not: it is dropped
with the state moved on. -/
def Splits (version : U32) (payload : Cursor U8) : Prop :=
  match inspectHandshake payload version payload with
  | (some .directStatus, _, c) => inspectStatusRequest c = false
  | (some .directLogin, v, c) => inspectLoginPacket c v = false
  | (s, _, _) => Accepted s

/-- How a segment may leave the maps and the entry of the flow. -/
inductive Outcome (key : FlowKey) (now : U64) (s : McMaps) (p : McPendingVal) (seq : U32)
    (payload : Cursor U8) : McResult → Prop where
  | refused (verdict : XdpAction) (s' : McMaps) (hct : s'.tcpCt = s.tcpCt)
    (hverdict : verdict = .drop ∨ (verdict = .pass ∧ payload.len = 0))
    (hentry : s'.pendingMc.lookup key = none ∨
      ∃ p', s'.pendingMc.lookup key = some p' ∧ Follows p p') :
    Outcome key now s p seq payload (verdict, s')
  | status (s' : McMaps) (hct : s'.tcpCt = s.tcpCt) (hlen : 0 < payload.len)
    (hseq : p.expectedSeq = seq) (hstate : Opens p.state) (v : U32) (c : Cursor U8)
    (hhs : inspectHandshake payload p.protocolVersion payload = (some .directStatus, v, c))
    (hreq : inspectStatusRequest c = true) (p' : McPendingVal)
    (hentry : s'.pendingMc.lookup key = some p') (hnext : p'.state = .awaitPing)
    (hexp : p'.expectedSeq = p.expectedSeq + BitVec.ofNat 32 payload.len) :
    Outcome key now s p seq payload (.pass, s')
  | login (s' : McMaps) (hlen : 0 < payload.len)
    (hseq : p.expectedSeq = seq) (hstate : Opens p.state) (v : U32) (c : Cursor U8)
    (hhs : inspectHandshake payload p.protocolVersion payload = (some .directLogin, v, c))
    (hlogin : inspectLoginPacket c v = true) (hct : s'.tcpCt = s.tcpCt.insert key now)
    (hentry : s'.pendingMc.lookup key = none) :
    Outcome key now s p seq payload (.pass, s')
  | ping (s' : McMaps) (hct : s'.tcpCt = s.tcpCt) (hlen : 0 < payload.len)
    (hseq : p.expectedSeq = seq) (hstate : p.state = .awaitPing)
    (hping : inspectPingRequest payload = true) (p' : McPendingVal)
    (hentry : s'.pendingMc.lookup key = some p') (hnext : p'.state = .pingComplete)
    (hexp : p'.expectedSeq = p.expectedSeq + BitVec.ofNat 32 payload.len) :
    Outcome key now s p seq payload (.pass, s')

section Segment

variable (key : FlowKey) (now : U64) (s : McMaps) (seq : U32) (payload : Cursor U8)

@[simp] theorem setPending_lookup (p : McPendingVal) :
    (setPending key s p).pendingMc.lookup key = some p := AList.lookup_insert _

@[simp] theorem setPending_ct (p : McPendingVal) : (setPending key s p).tcpCt = s.tcpCt := rfl

@[simp] theorem cleanupPending_lookup : (cleanupPending key s).pendingMc.lookup key = none :=
  AList.lookup_erase ..

@[simp] theorem cleanupPending_ct : (cleanupPending key s).tcpCt = s.tcpCt := rfl

variable {key now s seq payload} {p : McPendingVal}

theorem outcome_drop (q : McPendingVal) (hq : Follows p q) :
    Outcome key now s p seq payload (.drop, setPending key s q) :=
  .refused .drop _ rfl (Or.inl rfl) (Or.inr ⟨q, setPending_lookup key s q, hq⟩)

/-- The entry goes, whatever was written to the maps of other programs. -/
theorem outcome_cleanup (s' : McMaps) (hct : s'.tcpCt = s.tcpCt) :
    Outcome key now s p seq payload (.drop, cleanupPending key s') :=
  .refused .drop _ hct (Or.inl rfl) (Or.inl (cleanupPending_lookup key s'))

/-- After the ACK a handshake with its next packet is taken, or the segment is dropped. -/
theorem inspectOpening_outcome (q : McPendingVal) (hq : Follows p q)
    (hstate : q.state = .awaitHandshake) (hp : Opens p.state)
    (hversion : q.protocolVersion = p.protocolVersion) (hlen : 0 < payload.len)
    (hseq : p.expectedSeq = seq) (hwhole : ¬Splits p.protocolVersion payload) :
    Outcome key now s p seq payload (inspectOpening key now s q payload) := by
  rw [inspectOpening, if_pos hstate]
  split_ifs with hshort
  · exact outcome_drop _ ⟨hq.seq, hq.state⟩
  · rw [hversion]
    rw [Splits] at hwhole
    rcases hhs : inspectHandshake payload p.protocolVersion payload with ⟨next, v, c⟩
    rw [hhs] at hwhole
    have hdrop : Outcome key now s p seq payload
        (touch key now s { q with protocolVersion := v } .drop) := outcome_drop _ ⟨hq.seq, hq.state⟩
    cases next with
    | none => exact hdrop
    | some state =>
      cases state with
      | legacyPing => exact outcome_cleanup _ rfl
      | directStatus =>
        simp only [Bool.not_eq_false] at hwhole
        simp only [inspectSession, hwhole, Bool.not_true, Bool.false_eq_true, if_false]
        split_ifs
        · exact outcome_cleanup _ rfl
        · refine .status _ rfl hlen hseq hp v c hhs hwhole _ (setPending_lookup ..) rfl ?_
          exact congrArg (· + BitVec.ofNat 32 payload.len) hq.seq
      | directLogin =>
        simp only [Bool.not_eq_false] at hwhole
        simp only [inspectSession, hwhole, Bool.not_true, Bool.false_eq_true, if_false]
        split_ifs
        · exact outcome_cleanup _ rfl
        · exact .login _ hlen hseq hp v c hhs hwhole rfl (cleanupPending_lookup ..)
      | _ => exact absurd ⟨nofun, nofun⟩ hwhole

/-- The segment takes a handshake apart: it is at hand, and `Splits`. -/
def TakesApart (p : McPendingVal) (ack : Bool) (seq : U32) (payload : Cursor U8) : Prop :=
  Opens p.state ∧ ack = true ∧ p.expectedSeq = seq ∧ 0 < payload.len ∧
    Splits p.protocolVersion payload

theorem inspectPayload_outcome (ack : Bool) (q : McPendingVal) (hq : Follows p q)
    (hversion : q.protocolVersion = p.protocolVersion)
    (hstate : (q.state = .awaitHandshake ∧ Opens p.state) ∨ q = p ∧ Resting p.state)
    (hack : p.state = .awaitAck → q.state = .awaitHandshake)
    (hwhole : ¬TakesApart p ack seq payload) :
    Outcome key now s p seq payload (inspectPayload key now s ack seq q payload) := by
  rw [inspectPayload]
  have hfails (fails : U16) : Outcome key now s p seq payload
      (if fails > mcMaxOutOfOrder
        then penalizeAndDrop key now (setPending key s { q with fails := fails, lastSeenNs := now })
        else (.drop, setPending key s { q with fails := fails, lastSeenNs := now })) := by
    split_ifs
    · exact outcome_cleanup _ rfl
    · exact outcome_drop _ ⟨hq.seq, hq.state⟩
  split_ifs with hlen hnoack hmismatch hcount hwait
  · exact outcome_cleanup _ rfl
  · exact hfails (q.fails + 1)
  · exact hfails q.fails
  · have hseq : p.expectedSeq = seq := hq.seq.symm.trans (not_not.mp hmismatch)
    have hackset : ack = true := by simpa using hnoack
    have hopen (hp : Opens p.state) (hwait : q.state = .awaitHandshake) :
        Outcome key now s p seq payload (inspectOpening key now s q payload) :=
      inspectOpening_outcome q hq hwait hp hversion hlen hseq
        fun h => hwhole ⟨hp, hackset, hseq, hlen, h⟩
    rcases hstate with ⟨hwait, hp⟩ | ⟨rfl, hrest⟩
    · exact hopen hp hwait
    · rcases hrest with hwait | hwait | hwait | hwait
      · exact hopen (Or.inl hwait) (hack hwait)
      · exact hopen (Or.inr hwait) hwait
      · rw [inspectOpening, if_neg (by rw [hwait]; decide), inspectSession, hwait]
        simp only
        cases hping : inspectPingRequest payload with
        | false => exact outcome_drop _ ⟨rfl, Or.inl rfl⟩
        | true =>
          exact .ping _ rfl hlen hseq hwait hping _ (setPending_lookup ..) rfl rfl
      · rw [inspectOpening, if_neg (by rw [hwait]; decide), inspectSession, hwait]
        exact outcome_cleanup _ rfl
  · exact outcome_drop _ ⟨hq.seq, hq.state⟩
  · have hempty : payload.len = 0 := by omega
    exact .refused .pass _ rfl (Or.inr ⟨rfl, hempty⟩)
      (Or.inr ⟨_, setPending_lookup .., hq.seq, hq.state⟩)

theorem inspectPending_outcome (ack : Bool) (hrest : Resting p.state)
    (hwhole : ¬TakesApart p ack seq payload) :
    Outcome key now s p seq payload (inspectPending key now s ack seq p payload) := by
  rw [inspectPending]
  split_ifs with hwait hrefuse hempty
  · exact outcome_drop _ ⟨rfl, Or.inl rfl⟩
  · exact outcome_drop _ ⟨rfl, Or.inr ⟨hwait, rfl⟩⟩
  · exact inspectPayload_outcome ack _ ⟨rfl, Or.inr ⟨hwait, rfl⟩⟩ rfl
      (Or.inl ⟨rfl, Or.inl hwait⟩) (fun _ => rfl) hwhole
  · exact inspectPayload_outcome ack p ⟨rfl, Or.inl rfl⟩ rfl (Or.inr ⟨rfl, hrest⟩)
      (fun h => absurd h hwait) hwhole

end Segment

/-! A packet that the main program hands to the handler. -/

/-- A TCP packet of the flow, parsed by the main program: behind its IP header there is
room for a TCP header. -/
structure Dispatched (key : FlowKey) where
  frame : Frame
  l3 : U16
  inner : U16
  header : l3.toNat + ipHeaderMin key ≤ inner.toNat
  fits : inner.toNat + 20 ≤ frame.length

namespace Dispatched

variable {key : FlowKey} (pkt : Dispatched key)

def slotCtx : XdpSlotCtx := ⟨ipprotoTcp, pkt.l3, pkt.inner, some key⟩

def handle (now : U64) (s : McMaps) : McResult :=
  xdpMinecraftHandler now (some pkt.slotCtx) pkt.frame s

def flags : U8 := tcpFlags pkt.frame pkt.inner.toNat

def seq : U32 := pkt.frame.be32 (pkt.inner.toNat + 4)

/-- The length that the IP header gives to TCP header and payload. -/
def l4Len : ℕ := (l4AndPayloadLen key pkt.frame pkt.l3.toNat pkt.inner.toNat).getD 0

def hdrLen : ℕ := (pkt.frame.byte (pkt.inner.toNat + 12) >>> 4).toNat*4

def cursor : Option (Cursor U8) := tcpPayload pkt.frame pkt.inner.toNat pkt.hdrLen pkt.l4Len

def payload : List U8 := pkt.cursor.elim [] Cursor.bytes

variable (now : U64) (s : McMaps)

/-- Of what the handler checks first, only the size of the offsets can fail. -/
theorem handle_eq : pkt.handle now s =
    if pkt.l3.toNat > 255 ∨ pkt.inner.toNat > 255 then (.drop, s)
    else handleTcp key now s pkt.frame pkt.inner.toNat pkt.l4Len := by
  have hheader := pkt.header
  have hfits := pkt.fits
  have hlen : l4AndPayloadLen key pkt.frame pkt.l3.toNat pkt.inner.toNat = some pkt.l4Len := by
    unfold l4Len
    unfold l4AndPayloadLen at *
    unfold ipHeaderMin at hheader
    cases key with
    | v4 =>
      have h : ¬pkt.l3.toNat + 20 > pkt.frame.length := by simp only at hheader; omega
      simp only [h, if_false, Option.getD_some]
    | v6 =>
      have h : ¬pkt.l3.toNat + 40 > pkt.frame.length := by simp only at hheader; omega
      simp only [h, if_false, Option.getD_some]
  have hinner : ¬pkt.inner.toNat < pkt.l3.toNat + ipHeaderMin key := by omega
  have hhead : ¬pkt.inner.toNat + ethHlen > pkt.frame.length := by rw [ethHlen]; omega
  unfold handle xdpMinecraftHandler slotCtx
  simp only [ne_eq, not_true_eq_false, if_false, hinner, hlen, hhead]

/-- What a packet may do to the maps. -/
theorem handle_cases
    (hrest : ∀ p, s.pendingMc.lookup key = some p → Resting p.state)
    (hwhole : ∀ p c, s.pendingMc.lookup key = some p → pkt.cursor = some c →
      ¬TakesApart p (hasFlag pkt.flags tcpFlagAck) pkt.seq c) :
    (isSynOnly pkt.flags = true ∧ (pkt.handle now s).1 = .pass ∧
      (pkt.handle now s).2.tcpCt = s.tcpCt ∧
      ∃ p, (pkt.handle now s).2.pendingMc.lookup key = some p ∧ p.state = .awaitAck ∧
        p.expectedSeq = pkt.seq + 1) ∨
    ((pkt.handle now s).1 = .drop ∧ (pkt.handle now s).2.tcpCt = s.tcpCt ∧
      ((pkt.handle now s).2.pendingMc.lookup key = s.pendingMc.lookup key ∨
        (pkt.handle now s).2.pendingMc.lookup key = none)) ∨
    (isSynOnly pkt.flags = false ∧ ∃ p c, s.pendingMc.lookup key = some p ∧ pkt.cursor = some c ∧
      Outcome key now s p pkt.seq c (pkt.handle now s)) := by
  have hkeep (r : McResult) (hr : r = (.drop, s)) : r.1 = .drop ∧ r.2.tcpCt = s.tcpCt ∧
      (r.2.pendingMc.lookup key = s.pendingMc.lookup key ∨ r.2.pendingMc.lookup key = none) := by
    rw [hr]
    exact ⟨rfl, rfl, Or.inl rfl⟩
  rw [handle_eq]
  split_ifs with hoff
  · exact Or.inr (Or.inl (hkeep _ rfl))
  · unfold handleTcp
    simp only
    split_ifs with hfit hdoff hhdr hsyn
    · exact Or.inr (Or.inl (hkeep _ rfl))
    · exact Or.inr (Or.inl (hkeep _ rfl))
    · exact Or.inr (Or.inl (hkeep _ rfl))
    · exact Or.inl ⟨hsyn, rfl, rfl, _, setPending_lookup .., rfl, rfl⟩
    · cases hlookup : s.pendingMc.lookup key with
      | none => exact Or.inr (Or.inl ⟨rfl, rfl, Or.inl hlookup⟩)
      | some p =>
        simp only
        split_ifs with htime
        · exact Or.inr (Or.inl ⟨rfl, rfl, Or.inr (cleanupPending_lookup key s)⟩)
        · have hcursor : tcpPayload pkt.frame pkt.inner.toNat
              ((pkt.frame.byte (pkt.inner.toNat + 12) >>> 4).toNat*4) pkt.l4Len = pkt.cursor := rfl
          rw [hcursor]
          cases hc : pkt.cursor with
          | none => exact Or.inr (Or.inl ⟨rfl, rfl, Or.inl hlookup⟩)
          | some c =>
            refine Or.inr (Or.inr ⟨Bool.eq_false_of_not_eq_true hsyn, p, c, rfl, rfl, ?_⟩)
            exact inspectPending_outcome _ (hrest p hlookup) (hwhole p c hlookup hc)

end Dispatched

end AutoXdp.Minecraft
