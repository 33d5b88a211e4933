import AutoXdp.CtFrames
import AutoXdp.GuardedRun
import Mathlib.Tactic.Basic

/-! Age tests under concurrent refresh: any number of packets on any number of
CPUs, one call at a time, in any order, whatever the maps and the clocks answer. -/
namespace AutoXdp
open AtomicProg GuardedRun

/-- The timestamp is in the past by more than the timeout. -/
def Overdue (t timeout now : U64) : Prop := t.toNat + timeout.toNat < now.toNat

/-- The timestamp is newer than the clock reading, and `now - t` wraps to more
than the timeout. -/
def Ahead (t timeout now : U64) : Prop := now < t ∧ timeout < now - t

theorem overdue_of_gt (t timeout now : U64) (h : now - t > timeout) (ha : ¬Ahead t timeout now) :
    Overdue t timeout now := by
  have hle : t ≤ now := BitVec.not_lt.mp fun hlt => ha ⟨hlt, h⟩
  have hsub : (now - t).toNat = now.toNat - t.toNat := BitVec.toNat_sub_of_le hle
  have hgt : timeout.toNat < (now - t).toNat := BitVec.lt_def.mp h
  rw [hsub] at hgt
  rw [Overdue]
  omega

/-- The segment flags, or none when the frame carries no TCP header. -/
def segmentFlags (f : Frame) : Option U8 :=
  (transport f).bind fun t => if t.1 = ipprotoTcp then some (tcpFlags f t.2.2) else none

/-- The timestamp and the timeout an inbound frame tests: those of a TCP word when it
carries a segment, else those of a UDP word. -/
def ageTest (f : Frame) (raw : U64) (cfg : Option XdpRuntimeCfg) : U64 × U64 :=
  if (segmentFlags f).isSome then (stamp raw, cfgCtTimeoutNs raw cfg)
  else (raw, cfgUdpTimeoutNs cfg)

/-- A `FIN` without `ACK` removes its entry untested. -/
def testsAge (f : Frame) : Bool :=
  (segmentFlags f).all fun flags =>
    !hasFlag flags tcpFlagFin || hasFlag flags tcpFlagAck || hasFlag flags tcpFlagRst

/-- The segment itself ends the connection. -/
def endsConnection (f : Frame) : Bool :=
  (segmentFlags f).any fun flags => hasFlag flags tcpFlagRst || hasFlag flags tcpFlagFin

variable {P σ ι : Type}

/-- The calls of an inbound frame that show it took the entry for expired. -/
def TakesForExpired (f : Frame) : DpOp P → Prop
  | .count .tcpCtMiss => True
  | .count .udpDrop => segmentFlags f = none
  | .ctDelete _ _ | .recordClose _ _ _ => endsConnection f = false
  | _ => False

/-- Every word that an inbound frame read is overdue. -/
def ReadOverdue (f : Frame) (H : List (DpCall P)) : Prop :=
  ∀ x ∈ wordsRead H, ∃ now cfg, x.2 = some (now, cfg) ∧
    Overdue (ageTest f x.1 cfg).1 (ageTest f x.1 cfg).2 now

/-- Every word that an outbound segment read is overdue. -/
def TcReadOverdue (H : List (DpCall P)) : Prop :=
  ∀ p raw, ⟨.ctLoad p, raw⟩ ∈ H → ∃ now cfg, ⟨.ktimeGetNs, now⟩ ∈ H ∧ ⟨.runtimeCfg, cfg⟩ ∈ H ∧
    Overdue (stamp raw) (cfgTcpTimeoutNs cfg) now

/-- A packet that made the calls `H` takes an entry for expired only if it is. -/
def ExpiresRightly (p : Packet) (H : List (DpCall P)) (o : DpOp P) : Prop :=
  match p with
  | .ingress f => TakesForExpired f o → ReadOverdue f H
  | .egress f => ∀ m key, o = .ctDelete m key →
    (segmentFlags f).any (hasFlag · tcpFlagRst) = true ∨ TcReadOverdue H

/-- No age test meets a timestamp that is ahead of the clock reading it uses. -/
def ReadsInOrder (p : Packet) (H : List (DpCall P)) (c : DpCall P) : Prop :=
  match p, c with
  | .ingress f, ⟨.ctLoad _, raw⟩ => testsAge f = true → ∀ now cfg, inUse H = some (now, cfg) →
    ¬Ahead (ageTest f raw cfg).1 (ageTest f raw cfg).2 now
  | .egress _, ⟨.runtimeCfg, cfg⟩ => ∀ key q raw now, TcReadEntry key H q raw now →
    ¬Ahead (stamp raw) (cfgTcpTimeoutNs cfg) now
  | _, _ => True

/-- The reads of one packet so far were in order. -/
def InOrder : Packet → List (DpCall P) → Prop
  | .ingress f, H => testsAge f = true → ∀ x ∈ wordsRead H, ∀ now cfg, x.2 = some (now, cfg) →
    ¬Ahead (ageTest f x.1 cfg).1 (ageTest f x.1 cfg).2 now
  | .egress _, H => ∀ cfg H' key q raw now, H = ⟨.runtimeCfg, cfg⟩ :: H' →
    TcReadEntry key H' q raw now → ¬Ahead (stamp raw) (cfgTcpTimeoutNs cfg) now

theorem inOrder_push (p : Packet) (H : List (DpCall P)) (o : DpOp P) (r : o.Res)
    (hH : InOrder p H) (hc : ReadsInOrder p H ⟨o, r⟩) : InOrder p (⟨o, r⟩ :: H) := by
  cases p with
  | ingress f =>
    intro htest x hx now cfg hu
    cases hw : wordRead (⟨o, r⟩ : DpCall P) with
    | none =>
      rw [wordsRead_cons _ H hw] at hx
      exact hH htest x hx now cfg hu
    | some raw =>
      obtain ⟨q, hq⟩ := wordRead_eq _ raw hw
      obtain ⟨rfl, hr⟩ := Prog.Call.mk.inj hq
      obtain rfl := eq_of_heq hr
      rcases List.mem_cons.mp hx with rfl | hx
      · exact hc htest now cfg hu
      · exact hH htest x hx now cfg hu
  | egress f =>
    intro cfg H' key q raw now heq hread
    obtain ⟨hhead, rfl⟩ := List.cons.inj heq
    obtain ⟨rfl, hr⟩ := Prog.Call.mk.inj hhead
    obtain rfl := eq_of_heq hr
    exact hc key q raw now hread

theorem segmentFlags_tcp (f : Frame) (key : FlowKey) (l4 : ℕ)
    (hf : transport f = some (ipprotoTcp, key, l4)) : segmentFlags f = some (tcpFlags f l4) := by
  simp only [segmentFlags, hf, Option.bind_some, ↓reduceIte]

theorem segmentFlags_udp (f : Frame) (key : FlowKey) (l4 : ℕ)
    (hf : transport f = some (ipprotoUdp, key, l4)) : segmentFlags f = none := by
  have hne : ipprotoUdp ≠ ipprotoTcp := by decide
  simp only [segmentFlags, hf, Option.bind_some, hne, ↓reduceIte]

/-- An inbound segment. -/
theorem tcp_expiresRightly (f : Frame) (key : FlowKey) (l4 : ℕ) (H : List (DpCall P))
    (o : DpOp P) (next : o.Res → DpProg P XdpAction)
    (hf : transport f = some (ipprotoTcp, key, l4))
    (hnode : XdpTcpNode key (tcpFlags f l4) H o next) (hH : InOrder (.ingress f) H) :
    ExpiresRightly (.ingress f) H o := by
  have hflags := segmentFlags_tcp f key l4 hf
  have htest (raw : U64) (cfg : Option XdpRuntimeCfg) :
      ageTest f raw cfg = (stamp raw, cfgCtTimeoutNs raw cfg) := by
    rw [ageTest, hflags, Option.isSome_some, if_pos rfl]
  have hover (x : U64 × Option (U64 × Option XdpRuntimeCfg)) (hx : x ∈ wordsRead H)
      (ht : testsAge f = true) (haged : Aged x.1 x.2) : ∃ now cfg, x.2 = some (now, cfg) ∧
        Overdue (ageTest f x.1 cfg).1 (ageTest f x.1 cfg).2 now := by
    obtain ⟨now, cfg, hu, hage⟩ := haged
    refine ⟨now, cfg, hu, overdue_of_gt _ _ _ ?_ (hH ht x hx now cfg hu)⟩
    rwa [htest]
  -- an entry that is removed although nothing ends the connection is old
  have hremoved (p : P) (raw : U64) (H' : List (DpCall P)) (hread : JustRead key H' p raw)
      (hwords : wordsRead H = wordsRead H') (hwhy : Removes (tcpFlags f l4) raw H')
      (hends : endsConnection f = false) : ReadOverdue f H := by
    simp only [endsConnection, hflags, Option.any_some, Bool.or_eq_false_iff] at hends
    have ht : testsAge f = true := by
      simp only [testsAge, hflags, Option.all_some, hends.2, Bool.not_false, Bool.true_or]
    rcases hwhy with haged | hrst | hfin
    · intro x hx
      refine hover x hx ht ?_
      rw [hwords, justRead_words key H' p raw hread, List.mem_singleton] at hx
      subst hx
      exact haged
    · exact absurd (hends.1.symm.trans hrst) nofun
    · exact absurd (hends.2.symm.trans hfin) nofun
  intro htakes
  cases o with
  | count c =>
    cases c with
    | tcpCtMiss =>
      obtain ⟨hack, haged⟩ := hnode rfl
      have ht : testsAge f = true := by
        simp only [testsAge, hflags, Option.all_some]
        rcases hack with h | h <;> simp only [h, Bool.or_true, Bool.true_or]
      exact fun x hx => hover x hx ht (haged x hx)
    | udpDrop => exact absurd (hflags.symm.trans htakes) nofun
    | _ => exact htakes.elim
  | ctDelete m k =>
    obtain ⟨-, -, p, raw, hread, hwhy, -⟩ := hnode
    exact hremoved p raw H hread rfl hwhy htakes
  | recordClose k now destPort =>
    obtain ⟨-, -, p, raw, b, H', rfl, hread, hwhy, -⟩ := hnode
    exact hremoved p raw H' hread rfl hwhy htakes
  | _ => exact htakes.elim

/-- An inbound datagram. -/
theorem udp_expiresRightly (f : Frame) (key : FlowKey) (l4 : ℕ) (H : List (DpCall P))
    (o : DpOp P) (next : o.Res → DpProg P XdpAction)
    (hf : transport f = some (ipprotoUdp, key, l4)) (hnode : XdpUdpNode key H o next)
    (hH : InOrder (.ingress f) H) : ExpiresRightly (.ingress f) H o := by
  have hflags := segmentFlags_udp f key l4 hf
  have ht : testsAge f = true := by rw [testsAge, hflags, Option.all_none]
  have hover (haged : ∀ x ∈ wordsRead H, UdpAged x.1 x.2) : ReadOverdue f H := by
    intro x hx
    obtain ⟨now, cfg, hu, hage⟩ := haged x hx
    refine ⟨now, cfg, hu, overdue_of_gt _ _ _ ?_ (hH ht x hx now cfg hu)⟩
    simp only [ageTest, hflags, Option.isSome_none, Bool.false_eq_true, ↓reduceIte]
    exact hage
  intro htakes
  cases o with
  | count c =>
    cases c with
    | tcpCtMiss => exact absurd rfl hnode.2
    | udpDrop => exact hover (hnode.1 rfl)
    | _ => exact htakes.elim
  | ctDelete m k => exact hover hnode.2.2
  | recordClose k now destPort => exact hnode.elim
  | _ => exact htakes.elim

/-- An outbound frame. -/
theorem tc_expiresRightly (f : Frame) (H : List (DpCall P)) (o : DpOp P)
    (hnode : TcFrameNode f H o) (hH : InOrder (.egress f) H) :
    ExpiresRightly (.egress f) H o := by
  rintro m k rfl
  rcases hnode with ⟨key, l4, hf, -, -, p, raw, now, ⟨hrst, -⟩ | ⟨cfg, H', rfl, hread, hage⟩⟩ |
    ⟨m', key, -, hnode⟩
  · left
    rw [segmentFlags_tcp f key l4 hf, Option.any_some]
    exact hrst
  · right
    have hahead := hH cfg H' _ p raw now rfl hread
    obtain rfl := hread
    intro q raw' hm
    simp only [List.mem_cons, List.not_mem_nil, or_false] at hm
    rcases hm with heq | heq | heq | heq
    · exact absurd (congrArg Prog.Call.op heq) nofun
    · obtain rfl : raw' = raw := eq_of_heq (Prog.Call.mk.inj heq).2
      refine ⟨now, cfg, ?_, List.mem_cons_self .., overdue_of_gt _ _ _ hage hahead⟩
      exact List.mem_cons_of_mem _ (List.mem_cons_of_mem _ (List.mem_cons_of_mem _
        (List.mem_cons_self ..)))
    · exact absurd (congrArg Prog.Call.op heq) nofun
    · exact absurd (congrArg Prog.Call.op heq) nofun
  · exact hnode.elim

theorem node_expiresRightly (p : Packet) (H : List (DpCall P)) (o : DpOp P)
    (next : o.Res → DpProg P XdpAction) (hnode : PacketNode p H o next) (hH : InOrder p H) :
    ExpiresRightly p H o := by
  cases p with
  | egress f => exact tc_expiresRightly f H o hnode hH
  | ingress f =>
    rcases hnode with hcalm | ⟨key, l4, ⟨hf, hnode⟩ | ⟨hf, hnode⟩⟩
    · intro htakes
      cases o with
      | count c =>
        cases c with
        | tcpCtMiss => exact absurd rfl hcalm.1
        | udpDrop => exact absurd rfl hcalm.2
        | _ => exact htakes.elim
      | ctDelete m k => exact hcalm.elim
      | recordClose k now destPort => exact hcalm.elim
      | _ => exact htakes.elim
    · exact tcp_expiresRightly f key l4 H o next hf hnode hH
    · exact udp_expiresRightly f key l4 H o next hf hnode hH

section Pool

variable [DecidableEq ι] (h : Handler (dpInterface P) σ) (pkt : ι → Packet)

/-- Every packet at its own start. -/
def packetPool (s : σ) : Pool (dpInterface P) ι σ XdpAction :=
  Pool.start s fun i => datapath (pkt i)

/-- No packet takes an entry for expired whose timestamp was newer than its clock
reading, or in the past by no more than the timeout, when it read the entry. -/
def NoFalseExpiry (c : Pool (dpInterface P) ι σ XdpAction) : Prop :=
  EachEntry (fun e before => ExpiresRightly (pkt e.who) (Pool.calls before e.who) e.op) c.log

/-- The next call of packet `i` reads in order. -/
def NextReadsInOrder (c : Pool (dpInterface P) ι σ XdpAction) (i : ι) : Prop :=
  ∀ o k, c.thread i = .op o k → ReadsInOrder (pkt i) (Pool.calls c.log i) ⟨o, (h o c.shared).1⟩

/-- What every call of the pool keeps. -/
structure ExpiryInv (c : Pool (dpInterface P) ι σ XdpAction) : Prop where
  nodes : ∀ i, Prog.Always Prog.push (PacketNode (pkt i)) (Pool.calls c.log i) (c.thread i)
  inOrder : ∀ i, InOrder (pkt i) (Pool.calls c.log i)
  rightly : NoFalseExpiry pkt c

theorem expiryInv_start (s : σ) : ExpiryInv pkt (packetPool (P := P) pkt s) where
  nodes i := datapath_nodes (pkt i)
  inOrder i := by
    cases hp : pkt i with
    | ingress f => exact fun _ x hx => absurd hx List.not_mem_nil
    | egress f => exact fun cfg H' key q raw now heq => absurd heq nofun
  rightly := trivial

theorem expiryInv_step (c : Pool (dpInterface P) ι σ XdpAction) (i : ι) (hc : ExpiryInv pkt c)
    (hok : NextReadsInOrder h pkt c i) : ExpiryInv pkt (Pool.step h c i) := by
  have hnodes := Pool.always_step (fun _ => []) h c i hc.nodes
  cases hi : c.thread i with
  | ret a =>
    rw [Pool.step_of_ret h c i a hi]
    exact hc
  | op o k =>
    refine ⟨hnodes, ?_, ?_⟩
    · intro j
      rw [Pool.calls_step h c i j o k hi]
      split
      · subst j
        exact inOrder_push (pkt i) _ o _ (hc.inOrder i) (hok o k hi)
      · exact hc.inOrder j
    · rw [Pool.step_of_op h c i o k hi]
      have hnode := hc.nodes i
      rw [hi] at hnode
      exact ⟨node_expiresRightly (pkt i) _ o k hnode.1 (hc.inOrder i), hc.rightly⟩

/-- In every interleaving in which no age test meets a timestamp ahead of its clock
reading, no packet takes a fresh entry for expired: it is neither reported missing
nor deleted, and no close is recorded for it. -/
theorem no_false_expiry (s : σ) (sched : List ι)
    (hok : Guarded (Pool.step h) (NextReadsInOrder h pkt) (packetPool pkt s) sched) :
    NoFalseExpiry pkt ((packetPool pkt s).run h sched) :=
  (invariant_run (Pool.step h) (NextReadsInOrder h pkt) (ExpiryInv pkt)
    (fun c i => expiryInv_step h pkt c i) _ sched (expiryInv_start pkt s) hok).rightly

end Pool

/-- No clock reading of the packet is older than a word it read. -/
def allPast (H : List (DpCall P)) : Bool :=
  (wordsRead H).all fun x => H.all fun c => (clockRead c).all fun now => decide (x.1 ≤ now)

theorem past_of_allPast (H : List (DpCall P)) (h : allPast H = true)
    (x : U64 × Option (U64 × Option XdpRuntimeCfg)) (hx : x ∈ wordsRead H) (now : U64)
    (hm : ⟨.ktimeGetNs, now⟩ ∈ H) : x.1 ≤ now ∧ stamp x.1 ≤ now := by
  have hle : x.1 ≤ now := by
    have hall := List.all_eq_true.mp (List.all_eq_true.mp h x hx) _ hm
    simpa only [clockRead, Option.all_some, decide_eq_true_eq] using hall
  refine ⟨hle, BitVec.le_def.mpr ?_⟩
  rw [stamp_toNat]
  exact (Nat.mod_le _ _).trans (BitVec.le_def.mp hle)

theorem not_ahead_of_le (t timeout now : U64) (h : t ≤ now) : ¬Ahead t timeout now :=
  fun ha => BitVec.not_lt.mpr h ha.1

theorem readsInOrder_of_allPast (p : Packet) (H : List (DpCall P)) (c : DpCall P)
    (h : allPast (c :: H) = true) : ReadsInOrder p H c := by
  obtain ⟨o, r⟩ := c
  cases p with
  | ingress f =>
    cases o with
    | ctLoad q =>
      intro _ now cfg hu
      have hpast := past_of_allPast _ h (r, inUse H) (List.mem_cons_self ..) now
        (List.mem_cons_of_mem _ (inUse_mem H now cfg hu).1)
      rw [ageTest]
      split
      · exact not_ahead_of_le _ _ _ hpast.2
      · exact not_ahead_of_le _ _ _ hpast.1
    | _ => trivial
  | egress f =>
    cases o with
    | runtimeCfg =>
      rintro key q raw now rfl
      have hpast := past_of_allPast _ h (raw, _) (List.mem_cons_self ..) now (by simp)
      exact not_ahead_of_le _ _ _ hpast.2
    | _ => trivial

/-- The next call of packet `i` reads no word newer than one of its clock readings. -/
def nextPast [DecidableEq ι] (h : Handler (dpInterface P) σ)
    (c : Pool (dpInterface P) ι σ XdpAction) (i : ι) : Bool :=
  match c.thread i with
  | .ret _ => true
  | .op o _ => allPast (⟨o, (h o c.shared).1⟩ :: Pool.calls c.log i)

theorem nextReadsInOrder_of_nextPast [DecidableEq ι] (h : Handler (dpInterface P) σ)
    (pkt : ι → Packet) (c : Pool (dpInterface P) ι σ XdpAction) (i : ι)
    (hpast : nextPast h c i = true) : NextReadsInOrder h pkt c i := by
  intro o k hi
  rw [nextPast, hi] at hpast
  exact readsInOrder_of_allPast (pkt i) _ _ hpast

/-- A host with one established connection, last seen at one second. -/
def answeredHost (seconds : List ℕ) : World where
  maps := { tcpCt := AList.singleton (.v4 40000 80 0x08080808 0x01020304) 1000000000 }
  clock := clockOf seconds

/-- An inbound and an outbound `ACK` of that connection. -/
def ackPair (outbound : Bool) : Packet :=
  if outbound then .egress (ipv4Segment 80 40000 0x01020304 0x08080808 0x10)
  else .ingress (ipv4Segment 40000 80 0x08080808 0x01020304 0x10)

/-- The inbound `ACK` reads the clock, the outbound one runs as a whole, and the
inbound one looks the entry up. -/
def overtaken : List Bool :=
  [false, false, false, false] ++ List.replicate 7 true ++ [false, false, false]

/-- The clock of the outbound `ACK` is behind. -/
theorem no_false_expiry_behind :
    NoFalseExpiry ackPair
      ((packetPool ackPair (answeredHost [42, 42, 41])).run serial overtaken) :=
  no_false_expiry serial ackPair (answeredHost [42, 42, 41]) overtaken
    (guarded_of_checked _ _ (nextPast serial) (nextReadsInOrder_of_nextPast serial ackPair) _ _
      (by decide +kernel))

/-- The call deletes a conntrack entry. -/
def deletes : DpOp P → Bool
  | .ctDelete _ _ => true
  | _ => false

/-- The outbound `ACK` refreshes the entry a second later than the clock reading of
the inbound one, which then deletes it. -/
theorem refreshed_entry_expired :
    ¬NoFalseExpiry ackPair
      ((packetPool ackPair (answeredHost [40, 40, 41])).run serial overtaken) := by
  intro h
  have hlast : (((packetPool ackPair (answeredHost [40, 40, 41])).run serial overtaken).log.map
      fun e => (e.who, deletes e.op)).head? = some (false, true) := by
    decide +kernel
  have hread : wordsRead (Pool.calls
      ((packetPool ackPair (answeredHost [40, 40, 41])).run serial overtaken).log.tail false) =
      [(41000000000, some (40000000000, some {}))] := by
    decide +kernel
  rw [NoFalseExpiry] at h
  generalize ((packetPool ackPair (answeredHost [40, 40, 41])).run serial overtaken).log = log
    at h hlast hread
  obtain _ | ⟨⟨i, o, r, w, w'⟩, before⟩ := log
  · exact absurd hlast nofun
  obtain ⟨rfl, hdelete⟩ : i = false ∧ deletes o = true := by simpa using hlast
  cases o with
  | ctDelete m k =>
    have hends : endsConnection (ipv4Segment 40000 80 0x08080808 0x01020304 0x10) = false := by
      decide +kernel
    have hmem : (41000000000, some (40000000000, some {})) ∈
        wordsRead (Pool.calls before false) := by
      rw [List.tail_cons] at hread
      rw [hread]
      exact List.mem_cons_self ..
    obtain ⟨now, cfg, hu, hover⟩ := h.1 hends _ hmem
    obtain ⟨rfl, rfl⟩ := Prod.mk.inj (Option.some.inj hu)
    rw [Overdue] at hover
    exact absurd hover (by decide +kernel)
  | _ => exact absurd hdelete nofun

end AutoXdp
