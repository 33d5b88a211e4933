import AutoXdp.MinecraftSession
import Mathlib.Tactic.Basic
import Mathlib.Tactic.SplitIfs

/-! The sessions that pass the Minecraft handler: over every run of one flow, whatever
the flow sends, the passed segments spell a session opening. -/
namespace AutoXdp.Minecraft

/-- `hs` on its own is a handshake that leads to `state`. -/
def HandshakeAlone (version : U32) (state : McState) (hs : List U8) : Prop :=
  ∃ v next, inspectHandshake (.ofList hs) v (.ofList hs) = (some state, version, next)

/-- A handshake and a status request. -/
def StatusAsked (passed : List U8) : Prop :=
  ∃ version hs request, passed = hs ++ request ∧
    HandshakeAlone version .awaitStatusRequest hs ∧ inspectStatusRequest (.ofList request) = true

/-- A handshake, a status request and a ping. -/
def StatusOpening (passed : List U8) : Prop :=
  ∃ asked ping, passed = asked ++ ping ∧ StatusAsked asked ∧
    inspectPingRequest (.ofList ping) = true

/-- A handshake and a login of its version. -/
def LoginOpening (passed : List U8) : Prop :=
  ∃ version hs login, passed = hs ++ login ∧ HandshakeAlone version .awaitLogin hs ∧
    inspectLoginPacket (.ofList login) version = true

def Opening (passed : List U8) : Prop :=
  (∃ whole, StatusOpening whole ∧ passed <+: whole) ∨ LoginOpening passed

/-- What is seen of one call: the segment, the verdict, and whether `tcp_ct` changed. -/
structure Sight where
  syn : Bool
  seq : U32
  payload : List U8
  verdict : XdpAction
  wrote : Bool

/-- The segments passed since the last SYN that passed, up to the entry into `tcp_ct`. -/
structure Session where
  synSeq : U32
  passed : List U8
  entered : Bool
  deriving DecidableEq

/-- The session of a run, its newest call first. -/
def sessionOf : List Sight → Option Session
  | [] => none
  | o :: os =>
    if o.syn = true ∧ o.verdict = .pass then some ⟨o.seq, [], false⟩
    else (sessionOf os).map fun t =>
      if o.verdict = .pass ∧ t.entered = false then
        { t with passed := t.passed ++ o.payload, entered := o.wrote }
      else t

/-- What holds of the newest call of a run. -/
structure SafeCall (o : Sight) (os : List Sight) : Prop where
  expected : o.verdict = .pass → o.syn = false → o.payload ≠ [] → ∃ t, sessionOf os = some t ∧
    t.entered = false ∧ o.seq = t.synSeq + 1 + BitVec.ofNat 32 t.passed.length
  entered : o.wrote = true → ∃ t, sessionOf (o :: os) = some t ∧ LoginOpening t.passed
  opening : ∀ t, sessionOf (o :: os) = some t → Opening t.passed

def Safe : List Sight → Prop
  | [] => True
  | o :: os => Safe os ∧ SafeCall o os

def Dispatched.sight {key : FlowKey} (pkt : Dispatched key) (now : U64) (s : McMaps) : Sight where
  syn := isSynOnly pkt.flags
  seq := pkt.seq
  payload := pkt.payload
  verdict := (pkt.handle now s).1
  wrote := decide ((pkt.handle now s).2.tcpCt.entries ≠ s.tcpCt.entries)

/-- The runs of one flow: packets that meet `ok`, and between them whatever the other
flows and programs do, also the eviction of the entry. -/
inductive McRun (key : FlowKey) (ok : McMaps → U64 → Dispatched key → Prop) (s₀ : McMaps) :
    List Sight → McMaps → Prop where
  | start : McRun key ok s₀ [] s₀
  | packet (os : List Sight) (s : McMaps) (now : U64) (pkt : Dispatched key)
    (h : McRun key ok s₀ os s) (hok : ok s now pkt) :
    McRun key ok s₀ (pkt.sight now s :: os) (pkt.handle now s).2
  | others (os : List Sight) (s s' : McMaps) (h : McRun key ok s₀ os s)
    (hentry : s'.pendingMc.lookup key = s.pendingMc.lookup key ∨ s'.pendingMc.lookup key = none) :
    McRun key ok s₀ os s'

/-- The packet does not take a handshake apart from the packet behind it. -/
def KeepsWhole {key : FlowKey} (s : McMaps) (_ : U64) (pkt : Dispatched key) : Prop :=
  ∀ p c, s.pendingMc.lookup key = some p → pkt.cursor = some c →
    ¬TakesApart p (hasFlag pkt.flags tcpFlagAck) pkt.seq c

/-! The words of a session. -/

/-- A handshake before another packet stands there on its own. -/
theorem handshake_alone {payload : Cursor U8} {v₀ version : U32} {state : McState}
    {c : Cursor U8} (hhs : inspectHandshake payload v₀ payload = (some state, version, c))
    (hstate : state = .directStatus ∨ state = .directLogin) :
    ∃ hs, payload.bytes = hs ++ c.bytes ∧ HandshakeAlone version
      (if state = .directStatus then .awaitStatusRequest else .awaitLogin) hs := by
  rcases inspectHandshake_spec payload v₀ payload with ⟨-, hrun⟩ | ⟨-, -, hrun⟩ |
    ⟨v, i, c', hlegacy, hsome, hrun⟩
  · rw [hrun] at hhs
    obtain rfl := Option.some.inj (Prod.mk.inj hhs).1
    rcases hstate with h | h <;> exact absurd h (by rintro ⟨⟩)
  · rw [hhs] at hrun
    exact absurd hrun (by rintro ⟨⟩)
  · rw [hrun, Prod.mk.injEq, Prod.mk.injEq, Option.some_inj] at hhs
    obtain ⟨rfl, rfl, rfl⟩ := hhs
    have hmore : c'.len ≠ 0 := by
      intro hlen
      rw [stateAfter, if_pos hlen] at hstate
      rcases hstate with h | h <;> split_ifs at h
    obtain ⟨used, rest, hused, hG, rfl⟩ := (parses_handshake payload _ _).mp hsome
    rw [if_neg hmore, payload.bytes_advance_of_append hused]
    refine ⟨used, hused, 0, .ofList used, ?_⟩
    have hhead : (Cursor.ofList used).bytes.head? ≠ some 0xFE := by
      rw [Cursor.bytes_ofList]
      intro h
      rw [hused] at hlegacy
      cases used with
      | nil => exact absurd h (by rintro ⟨⟩)
      | cons b bs => exact hlegacy h
    have halone : handshake (.ofList used) = some ((v, i), (Cursor.ofList used).advance used.length) :=
      (parses_handshake _ _ _).mpr
        ⟨used, [], by rw [Cursor.bytes_ofList, List.append_nil], hG, rfl⟩
    have hend : ((Cursor.ofList used).advance used.length).len = 0 := Nat.sub_self _
    rcases inspectHandshake_spec (.ofList used) 0 (.ofList used) with ⟨h, -⟩ | ⟨-, hnone, -⟩ |
      ⟨v', i', c', -, hsome', hrun'⟩
    · exact absurd h hhead
    · rw [halone] at hnone
      exact absurd hnone (by rintro ⟨⟩)
    · rw [halone] at hsome'
      obtain ⟨hvi, rfl⟩ := Prod.mk.inj (Option.some.inj hsome')
      obtain ⟨rfl, rfl⟩ := Prod.mk.inj hvi
      rw [hrun', if_pos hend, stateAfter, if_pos hend, stateAfter, if_neg hmore]
      split_ifs <;> first | rfl | contradiction

theorem status_bytes (c : Cursor U8) :
    inspectStatusRequest (.ofList c.bytes) = true ↔ inspectStatusRequest c = true := by
  rw [status_exact, status_exact, Cursor.bytes_ofList]

theorem ping_bytes (c : Cursor U8) :
    inspectPingRequest (.ofList c.bytes) = true ↔ inspectPingRequest c = true := by
  rw [ping_exact, ping_exact, Cursor.bytes_ofList]

theorem login_bytes (c : Cursor U8) (version : U32) :
    inspectLoginPacket (.ofList c.bytes) version = true ↔ inspectLoginPacket c version = true := by
  rw [login_accepts, login_accepts, Cursor.bytes_ofList]

/-- A ping request. -/
def pingBytes : List U8 := [9, 1, 0, 0, 0, 0, 0, 0, 0, 0]

theorem opening_asked {passed : List U8} (h : StatusAsked passed) : Opening passed :=
  Or.inl ⟨passed ++ pingBytes, ⟨passed, pingBytes, rfl, h, by decide⟩, List.prefix_append ..⟩

/-- A handshake of version 47 for a status, and a status request. -/
def askedBytes : List U8 := [6, 0, 47, 0, 99, 221, 1, 1, 0]

theorem asked_sample : StatusAsked askedBytes :=
  ⟨47, [6, 0, 47, 0, 99, 221, 1], [1, 0], rfl, ⟨0, _, rfl⟩, by decide⟩

theorem opening_nil : Opening [] :=
  Or.inl ⟨askedBytes ++ pingBytes, ⟨askedBytes, pingBytes, rfl, asked_sample, by decide⟩,
    List.nil_prefix⟩

/-! Every run. -/

/-- The entry of the flow agrees with the session. -/
structure Tracks (p : McPendingVal) (t : Session) : Prop where
  resting : Resting p.state
  pending : t.entered = false
  seq : p.expectedSeq = t.synSeq + 1 + BitVec.ofNat 32 t.passed.length
  first : Opens p.state → t.passed = []
  asked : p.state = .awaitPing → StatusAsked t.passed

structure RunInv (key : FlowKey) (os : List Sight) (s : McMaps) : Prop where
  opening : ∀ t, sessionOf os = some t → Opening t.passed
  tracked : ∀ p, s.pendingMc.lookup key = some p → ∃ t, sessionOf os = some t ∧ Tracks p t

section Step

variable {key : FlowKey} {os : List Sight} {s : McMaps} (hinv : RunInv key os s)

include hinv

theorem inv_others {s' : McMaps}
    (hentry : s'.pendingMc.lookup key = s.pendingMc.lookup key ∨ s'.pendingMc.lookup key = none) :
    RunInv key os s' where
  opening := hinv.opening
  tracked p hp := by
    rcases hentry with hsame | hnone
    · exact hinv.tracked p (hsame ▸ hp)
    · rw [hnone] at hp
      exact absurd hp nofun

/-- A segment that is dropped leaves the session as it was. -/
theorem inv_drop {o : Sight} {s' : McMaps} (hverdict : o.verdict = .drop) (hwrote : o.wrote = false)
    (htracked : ∀ p, s'.pendingMc.lookup key = some p →
      ∃ t, sessionOf os = some t ∧ Tracks p t) :
    RunInv key (o :: os) s' ∧ SafeCall o os := by
  have hsession : sessionOf (o :: os) = sessionOf os := by
    simp only [sessionOf, hverdict, reduceCtorEq, and_false, if_false, false_and]
    exact Option.map_id'
  refine ⟨⟨?_, ?_⟩, ?_, ?_, ?_⟩
  · rw [hsession]
    exact hinv.opening
  · rw [hsession]
    exact htracked
  · intro hpass
    rw [hverdict] at hpass
    exact absurd hpass nofun
  · intro h
    rw [hwrote] at h
    exact absurd h nofun
  · rw [hsession]
    exact hinv.opening

omit hinv in
/-- A segment that passes is appended to the session. -/
theorem session_pass {o : Sight} {t : Session} (hsyn : o.syn = false) (hverdict : o.verdict = .pass)
    (ht : sessionOf os = some t) (hpending : t.entered = false) :
    sessionOf (o :: os) =
      some { t with passed := t.passed ++ o.payload, entered := o.wrote } := by
  simp only [sessionOf, hsyn, hverdict, ht, hpending, Bool.false_eq_true, false_and, if_false,
    and_self, if_true, Option.map_some]

omit hinv in
theorem inv_pass {o : Sight} {s' : McMaps} {t : Session} (hsyn : o.syn = false)
    (hverdict : o.verdict = .pass) (ht : sessionOf os = some t) (hpending : t.entered = false)
    (hseq : o.payload ≠ [] → o.seq = t.synSeq + 1 + BitVec.ofNat 32 t.passed.length)
    (hopening : Opening (t.passed ++ o.payload))
    (hwrote : o.wrote = true → LoginOpening (t.passed ++ o.payload))
    (htracked : ∀ p, s'.pendingMc.lookup key = some p →
      Tracks p { t with passed := t.passed ++ o.payload, entered := o.wrote }) :
    RunInv key (o :: os) s' ∧ SafeCall o os := by
  have hsession := session_pass hsyn hverdict ht hpending
  have hafter (t' : Session) (ht' : sessionOf (o :: os) = some t') : Opening t'.passed := by
    rw [hsession] at ht'
    obtain rfl := Option.some.inj ht'
    exact hopening
  refine ⟨⟨hafter, fun p hp => ⟨_, hsession, htracked p hp⟩⟩, ?_, ?_, hafter⟩
  · intro _ _ hmore
    exact ⟨t, ht, hpending, hseq hmore⟩
  · intro h
    exact ⟨_, hsession, hwrote h⟩

theorem inv_packet (now : U64) (pkt : Dispatched key) (hok : KeepsWhole s now pkt) :
    RunInv key (pkt.sight now s :: os) (pkt.handle now s).2 ∧
      SafeCall (pkt.sight now s) os := by
  have hrest (p : McPendingVal) (hp : s.pendingMc.lookup key = some p) : Resting p.state := by
    obtain ⟨t, -, htracks⟩ := hinv.tracked p hp
    exact htracks.resting
  have hwrote (hct : (pkt.handle now s).2.tcpCt = s.tcpCt) : (pkt.sight now s).wrote = false :=
    decide_eq_false fun h => h (congrArg _ hct)
  rcases pkt.handle_cases now s hrest hok with ⟨hsyn, hverdict, hct, p, hp, hstate, hexp⟩ |
    ⟨hverdict, hct, hentry⟩ | ⟨hsyn, p, c, hp, hc, houtcome⟩
  · -- a SYN starts a session anew
    have hsession : sessionOf (pkt.sight now s :: os) = some ⟨pkt.seq, [], false⟩ :=
      if_pos ⟨hsyn, hverdict⟩
    have hafter (t : Session) (ht : sessionOf (pkt.sight now s :: os) = some t) :
        Opening t.passed := by
      rw [hsession] at ht
      obtain rfl := Option.some.inj ht
      exact opening_nil
    refine ⟨⟨hafter, ?_⟩, ?_, ?_, hafter⟩
    · intro p' hp'
      obtain rfl := Option.some.inj (hp.symm.trans hp')
      refine ⟨_, hsession, Or.inl hstate, rfl, ?_, fun _ => rfl, ?_⟩
      · rw [hexp]
        exact (BitVec.add_zero _).symm
      · intro h
        rw [hstate] at h
        exact absurd h nofun
    · intro _ hnosyn
      exact absurd (hnosyn.symm.trans hsyn) nofun
    · intro h
      rw [hwrote hct] at h
      exact absurd h nofun
  · exact inv_drop hinv hverdict (hwrote hct) (inv_others hinv hentry).tracked
  · obtain ⟨t, ht, htracks⟩ := hinv.tracked p hp
    have hpayload : (pkt.sight now s).payload = c.bytes := by
      change pkt.cursor.elim [] Cursor.bytes = c.bytes
      rw [hc]
      rfl
    have hlength : c.bytes.length = c.len := c.bytes_length
    have hadd (n : ℕ) : p.expectedSeq + BitVec.ofNat 32 n =
        t.synSeq + 1 + BitVec.ofNat 32 (t.passed.length + n) := by
      rw [htracks.seq, BitVec.ofNat_add, BitVec.add_assoc]
    generalize hresult : pkt.handle now s = r at houtcome
    have hverdict : (pkt.sight now s).verdict = r.1 := congrArg Prod.fst hresult
    rw [hresult] at hwrote
    cases houtcome with
    | refused verdict s' hct hkind hentry =>
      have htracked (q : McPendingVal) (hq : s'.pendingMc.lookup key = some q) : Tracks q t := by
        rcases hentry with hnone | ⟨q', hq', hfollows⟩
        · rw [hnone] at hq
          exact absurd hq nofun
        · obtain rfl := Option.some.inj (hq'.symm.trans hq)
          rcases hfollows.state with hstate | ⟨hack, hwait⟩
          · exact ⟨hstate ▸ htracks.resting, htracks.pending, hfollows.seq.trans htracks.seq,
              fun h => htracks.first (hstate ▸ h), fun h => htracks.asked (hstate ▸ h)⟩
          · refine ⟨Or.inr (Or.inl hwait), htracks.pending, hfollows.seq.trans htracks.seq,
              fun _ => htracks.first (Or.inl hack), ?_⟩
            intro h
            rw [hwait] at h
            exact absurd h nofun
      rcases hkind with rfl | ⟨rfl, hempty⟩
      · exact inv_drop hinv hverdict (hwrote hct) fun q hq => ⟨t, ht, htracked q hq⟩
      · have hnil : (pkt.sight now s).payload = [] := by
          rw [hpayload, ← List.length_eq_zero_iff, hlength]
          exact hempty
        have hsame : t.passed ++ (pkt.sight now s).payload = t.passed := by
          rw [hnil, List.append_nil]
        refine inv_pass hsyn hverdict ht htracks.pending (fun h => absurd hnil h) ?_ ?_ ?_
        · rw [hsame]
          exact hinv.opening t ht
        · intro h
          rw [hwrote hct] at h
          exact absurd h nofun
        · intro q hq
          rw [hsame, hwrote hct]
          have hq' := htracked q hq
          exact ⟨hq'.resting, rfl, hq'.seq, hq'.first, hq'.asked⟩
    | status s' hct hlen hseq hstate v c' hhs hreq p' hentry hnext hexp =>
      obtain ⟨hs, hbytes, halone⟩ := handshake_alone hhs (Or.inl rfl)
      have hword : t.passed ++ (pkt.sight now s).payload = hs ++ c'.bytes := by
        rw [htracks.first hstate, hpayload, hbytes, List.nil_append]
      have hasked : StatusAsked (t.passed ++ (pkt.sight now s).payload) :=
        ⟨v, hs, c'.bytes, hword, halone, (status_bytes c').mpr hreq⟩
      refine inv_pass hsyn hverdict ht htracks.pending
        (fun _ => hseq.symm.trans htracks.seq) (opening_asked hasked) ?_ ?_
      · intro h
        rw [hwrote hct] at h
        exact absurd h nofun
      · intro q hq
        obtain rfl := Option.some.inj (hentry.symm.trans hq)
        rw [hwrote hct]
        refine ⟨Or.inr (Or.inr (Or.inl hnext)), rfl, ?_, ?_, fun _ => hasked⟩
        · rw [hexp, hadd, List.length_append, hpayload, hlength]
        · rintro (h | h) <;> rw [hnext] at h <;> exact absurd h nofun
    | login s' hlen hseq hstate v c' hhs hlogin hct hentry =>
      obtain ⟨hs, hbytes, halone⟩ := handshake_alone hhs (Or.inr rfl)
      have hword : t.passed ++ (pkt.sight now s).payload = hs ++ c'.bytes := by
        rw [htracks.first hstate, hpayload, hbytes, List.nil_append]
      have hlogged : LoginOpening (t.passed ++ (pkt.sight now s).payload) :=
        ⟨v, hs, c'.bytes, hword, halone, (login_bytes c' v).mpr hlogin⟩
      refine inv_pass hsyn hverdict ht htracks.pending
        (fun _ => hseq.symm.trans htracks.seq) (Or.inr hlogged) (fun _ => hlogged) ?_
      intro q hq
      rw [hentry] at hq
      exact absurd hq nofun
    | ping s' hct hlen hseq hstate hping p' hentry hnext hexp =>
      have hwhole : StatusOpening (t.passed ++ (pkt.sight now s).payload) :=
        ⟨t.passed, c.bytes, by rw [hpayload], htracks.asked hstate, (ping_bytes c).mpr hping⟩
      refine inv_pass hsyn hverdict ht htracks.pending
        (fun _ => hseq.symm.trans htracks.seq) (Or.inl ⟨_, hwhole, List.prefix_refl _⟩) ?_ ?_
      · intro h
        rw [hwrote hct] at h
        exact absurd h nofun
      · intro q hq
        obtain rfl := Option.some.inj (hentry.symm.trans hq)
        rw [hwrote hct]
        refine ⟨Or.inr (Or.inr (Or.inr hnext)), rfl, ?_, ?_, ?_⟩
        · rw [hexp, hadd, List.length_append, hpayload, hlength]
        · rintro (h | h) <;> rw [hnext] at h <;> exact absurd h nofun
        · intro h
          rw [hnext] at h
          exact absurd h nofun

end Step

/-- Where no handshake is taken apart from the packet behind it, whatever passes is the
beginning of a session opening, in order, and only a whole login enters `tcp_ct`. -/
theorem passed_session (key : FlowKey) (s₀ s : McMaps) (os : List Sight)
    (hstart : s₀.pendingMc.lookup key = none) (hrun : McRun key KeepsWhole s₀ os s) : Safe os := by
  suffices h : Safe os ∧ RunInv key os s from h.1
  induction hrun with
  | start =>
    refine ⟨trivial, nofun, ?_⟩
    intro p hp
    rw [hstart] at hp
    exact absurd hp nofun
  | packet os s now pkt _ hok ih =>
    obtain ⟨hinv, hcall⟩ := inv_packet ih.2 now pkt hok
    exact ⟨⟨ih.1, hcall⟩, hinv⟩
  | others os s s' _ hentry ih => exact ⟨ih.1, inv_others ih.2 hentry⟩

/-! A client that sends its handshake on its own. -/

/-- An IPv4 frame with a TCP header of 20 bytes. -/
def tcpFrame (flags : U8) (seq : U32) (payload : List U8) : Frame :=
  let total : U16 := BitVec.ofNat 16 (40 + payload.length)
  List.replicate 16 0 ++ [total.extractLsb' 8 8, total.setWidth 8] ++ List.replicate 20 0 ++
    [seq.extractLsb' 24 8, seq.extractLsb' 16 8, seq.extractLsb' 8 8, seq.setWidth 8] ++
    List.replicate 4 0 ++ [0x50, flags] ++ List.replicate 6 0 ++ payload

def clientKey : FlowKey := .v4 50000 25565 0xC6336401 0xC0000201

def clientPacket (flags : U8) (seq : U32) (payload : List U8) : Dispatched clientKey where
  frame := tcpFrame flags seq payload
  l3 := 14
  inner := 34
  header := by decide
  fits := by
    simp only [tcpFrame, List.length_append, List.length_replicate, List.length_cons,
      List.length_nil]
    change 34 + 20 ≤ _
    omega

def synPacket : Dispatched clientKey := clientPacket 0x02 7 []

/-- The handshake of `askedBytes`. -/
def handshakePacket : Dispatched clientKey := clientPacket 0x18 8 (askedBytes.take 7)

/-- The status request, at the sequence number of the handshake. -/
def requestPacket : Dispatched clientKey := clientPacket 0x18 8 (askedBytes.drop 7)

def afterSyn : McMaps := (synPacket.handle 1 {}).2

def afterHandshake : McMaps := (handshakePacket.handle 2 afterSyn).2

/-- The handshake and the status request in one segment. -/
def askedPacket : Dispatched clientKey := clientPacket 0x18 8 askedBytes

theorem askedPacket_keepsWhole : KeepsWhole afterSyn 2 askedPacket := by
  intro p c hp hc htakes
  have hp' : afterSyn.pendingMc.lookup clientKey = some ⟨1, 8, 0, .awaitAck, 0⟩ := by decide +kernel
  obtain rfl := Option.some.inj (hp'.symm.trans hp)
  have hwhole : ∀ d : Cursor U8, askedPacket.cursor = some d →
      (inspectHandshake d 0 d).1 = some .directStatus ∧
        inspectStatusRequest (inspectHandshake d 0 d).2.2 = true := by
    intro d hd
    have hsome : askedPacket.cursor = some (.ofList askedBytes) := rfl
    obtain rfl := Option.some.inj (hsome.symm.trans hd)
    decide +kernel
  obtain ⟨hstate, hrequest⟩ := hwhole c hc
  obtain ⟨-, -, -, -, hsplits⟩ := htakes
  rw [Splits] at hsplits
  rcases hhs : inspectHandshake c 0 c with ⟨next, v, d⟩
  rw [hhs] at hstate hrequest hsplits
  obtain rfl : next = some .directStatus := hstate
  exact absurd (hrequest.symm.trans hsplits) (by rintro ⟨⟩)

theorem passed_session_sample :
    Safe [askedPacket.sight 2 afterSyn, synPacket.sight 1 {}] := by
  have hsyn : McRun clientKey KeepsWhole {} [synPacket.sight 1 {}] afterSyn :=
    .packet [] {} 1 synPacket .start fun p c hp => absurd hp nofun
  exact passed_session clientKey {} _ _ rfl
    (.packet _ afterSyn 2 askedPacket hsyn askedPacket_keepsWhole)

theorem first_byte {b : U8} {rest : List U8} (hb : b &&& 0x80 = 0) (h : Opening (b :: rest)) :
    4 ≤ b.toNat := by
  have halone : ∃ version state hs w, b :: rest <+: hs ++ w ∧ state ≠ .legacyPing ∧
      HandshakeAlone version state hs := by
    rcases h with ⟨whole, ⟨asked, ping, rfl, ⟨version, hs, request, rfl, halone, -⟩, -⟩, hprefix⟩ |
      ⟨version, hs, login, hword, halone, -⟩
    · rw [List.append_assoc] at hprefix
      exact ⟨version, .awaitStatusRequest, hs, request ++ ping, hprefix, nofun, halone⟩
    · exact ⟨version, .awaitLogin, hs, login, hword ▸ List.prefix_refl _, nofun, halone⟩
  obtain ⟨version, state, hs, w, ⟨more, hprefix⟩, hstate, v, next, hhs⟩ := halone
  have haccepted := (accepted_iff (.ofList hs) v (.ofList hs)).mp (by
    rw [hhs]
    exact ⟨nofun, fun h => hstate (Option.some.inj h)⟩)
  obtain ⟨-, r, c, hsome⟩ := haccepted
  obtain ⟨used, tail, hused, ⟨i, -, declared, len, body, rfl, hframed⟩, -⟩ :=
    (parses_handshake _ _ _).mp hsome
  rw [Cursor.bytes_ofList] at hused
  have hbytes : [b] ++ (rest ++ more) = len ++ (body ++ tail ++ w) := by
    rw [hused] at hprefix
    simp only [List.append_assoc] at hprefix ⊢
    exact hprefix
  obtain ⟨rfl, -, -⟩ := varInt_unique (.last 2 b hb) hframed.length hbytes
  exact hframed.lower

/-- The request passes, and the handshake never did. -/
theorem handshake_taken_apart : ¬∀ (key : FlowKey) (s₀ s : McMaps) (os : List Sight),
    s₀.pendingMc.lookup key = none → McRun key (fun _ _ _ => True) s₀ os s → Safe os := by
  intro h
  have hsyn : McRun clientKey (fun _ _ _ => True) {} [synPacket.sight 1 {}] afterSyn :=
    .packet [] {} 1 synPacket .start trivial
  have hhs := McRun.packet _ afterSyn 2 handshakePacket hsyn trivial
  have hrequest := McRun.packet _ afterHandshake 3 requestPacket hhs trivial
  obtain ⟨-, hcall⟩ := h clientKey {} _ _ rfl hrequest
  have hopening : Opening [1, 0] := hcall.opening ⟨7, [1, 0], false⟩ (by decide +kernel)
  exact absurd (first_byte (by decide) hopening) (by decide)

end AutoXdp.Minecraft
