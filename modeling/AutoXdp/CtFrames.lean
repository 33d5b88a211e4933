import AutoXdp.CtCalls
import Mathlib.Tactic.Basic

/-! `CtCalls` for the remaining programs: UDP at XDP, the tc program, and whole
frames. -/
namespace AutoXdp
open AtomicProg

variable {P : Type}

/-- A call that has nothing to do with conntrack. -/
def Calm : DpOp P → Prop
  | .ctLookup _ _ | .ctLoad _ | .ctCas _ _ _ | .ctUpdate _ _ _ _ | .ctDelete _ _
  | .recordEstablished _ _ _ _ | .recordClose _ _ _ => False
  | .count c => c ≠ .tcpCtMiss ∧ c ≠ .udpDrop
  | _ => True

theorem calm_wordRead (o : DpOp P) (r : o.Res) (ho : Calm o) :
    wordRead (⟨o, r⟩ : DpCall P) = none := by
  cases o with
  | ctLoad => exact ho.elim
  | _ => rfl

/-! Whole frames at XDP. -/

section Frames

variable {Q : List (DpCall P) → (o : DpOp P) → (o.Res → DpProg P XdpAction) → Prop}
  (hcalm : ∀ H o k, Calm o → Q H o k)

include hcalm

theorem calm_nodes (p : DpProg P XdpAction) (H : List (DpCall P)) (hp : Prog.Only Calm p) :
    Prog.Always Prog.push Q H p := by
  induction p generalizing H with
  | ret a => trivial
  | op o k ih => exact ⟨hcalm H o k hp.1, fun r => ih r _ (hp.2 r)⟩

omit hcalm

theorem calmOther (reason : Counter) (v : XdpAction)
    (h : reason ≠ .tcpCtMiss ∧ reason ≠ .udpDrop) :
    Prog.Only Calm (do count reason; return v : DpProg P XdpAction) := ⟨h, fun _ => trivial⟩

theorem dispatchToSlot_calm (ipProto : U8) :
    Prog.Only Calm (dispatchToSlot ipProto : DpProg P XdpAction) := by
  refine ⟨⟨nofun, nofun⟩, fun _ => ⟨trivial, fun verdict => ?_⟩⟩
  cases verdict with
  | some v => trivial
  | none =>
    refine ⟨trivial, fun cfg => Prog.only_ite _ _ _ _ (fun _ => ?_) (fun _ => ?_)⟩
    · exact ⟨⟨nofun, nofun⟩, fun _ => ⟨trivial, fun _ => trivial⟩⟩
    · exact ⟨⟨nofun, nofun⟩, fun _ => trivial⟩

theorem checkEcho_calm (saddr : Addr) (other : Counter)
    (h : other ≠ .tcpCtMiss ∧ other ≠ .udpDrop) :
    Prog.Only Calm (checkEcho saddr other : DpProg P XdpAction) := by
  refine ⟨trivial, fun t => Prog.only_ite _ _ _ _ (fun _ => calmOther other .pass h) (fun _ => ?_)⟩
  refine ⟨trivial, fun now => ⟨trivial, fun cfg => ⟨trivial, fun v => ?_⟩⟩⟩
  exact Prog.only_ite _ _ _ _ (fun _ => calmOther .icmpDrop .drop ⟨nofun, nofun⟩)
    (fun _ => calmOther other .pass h)

theorem checkIcmpV4_calm (f : Frame) (saddr : Addr) (icmp : ℕ) :
    Prog.Only Calm (checkIcmpV4 f saddr icmp : DpProg P XdpAction) := by
  have hpass := calmOther (P := P) .ipv4Other .pass ⟨nofun, nofun⟩
  exact Prog.only_ite _ _ _ _ (fun _ => hpass) (fun _ =>
    Prog.only_ite _ _ _ _ (fun _ => hpass) (fun _ =>
      Prog.only_ite _ _ _ _ (fun _ => checkEcho_calm saddr _ ⟨nofun, nofun⟩) (fun _ => hpass)))

theorem checkIcmpV6_calm (f : Frame) (saddr : Addr) (icmp : ℕ) :
    Prog.Only Calm (checkIcmpV6 f saddr icmp : DpProg P XdpAction) := by
  have hpass := calmOther (P := P) .ipv6Other .pass ⟨nofun, nofun⟩
  exact Prog.only_ite _ _ _ _ (fun _ => hpass) (fun _ =>
    Prog.only_ite _ _ _ _ (fun _ => checkEcho_calm saddr _ ⟨nofun, nofun⟩) (fun _ => hpass))

theorem checkSit4_calm (saddr : U32) : Prog.Only Calm (checkSit4 saddr : DpProg P XdpAction) :=
  ⟨trivial, fun _ => Prog.only_ite _ _ _ _ (fun _ => calmOther _ .pass ⟨nofun, nofun⟩)
    (fun _ => calmOther _ .drop ⟨nofun, nofun⟩)⟩

/-- A condition on calls holds of the whole run of a frame if it allows every call
that has nothing to do with conntrack and holds of the TCP and the UDP check of
the transport header that the frame carries. -/
theorem xdpFw_always (f : Frame) (hcalm : ∀ H o k, Calm o → Q H o k)
    (htcp : ∀ key l4, transport f = some (ipprotoTcp, key, l4) → ∀ H, Unread H →
      Prog.Always Prog.push Q H (checkTcp f key l4))
    (hudp : ∀ key l4 bytes, transport f = some (ipprotoUdp, key, l4) → ∀ H, Unread H →
      Prog.Always Prog.push Q H (checkUdp f key l4 bytes)) :
    Prog.Always Prog.push Q [] (xdpFw f) := by
  have hother (reason : Counter) (v : XdpAction) (h : reason ≠ .tcpCtMiss ∧ reason ≠ .udpDrop)
      (H : List (DpCall P)) :
      Prog.Always Prog.push Q H (do count reason; return v : DpProg P XdpAction) :=
    calm_nodes hcalm _ H (calmOther reason v h)
  have hread (H : List (DpCall P)) (o : DpOp P) (r : o.Res) (hH : Unread H) (ho : Calm o) :
      Unread (⟨o, r⟩ :: H) := unread_cons H o r hH (calm_wordRead o r ho)
  simp only [xdpFw, ktimeGetNs_bind]
  refine ⟨hcalm _ _ _ trivial, fun now => Prog.always_ite _ _ _ _ (fun _ => trivial) (fun heth => ?_)⟩
  have hH₁ : Unread [(⟨.ktimeGetNs, now⟩ : DpCall P)] :=
    hread [] .ktimeGetNs now rfl trivial
  cases hstrip : stripVlanTags f vlanMaxDepth (f.be16 12) 14 with
  | none => trivial
  | some res =>
    obtain ⟨ethProto, l3⟩ := res
    refine Prog.always_ite _ _ _ _
      (fun _ => hother .vlanDrop .drop ⟨(by rintro ⟨⟩), (by rintro ⟨⟩)⟩ _) (fun _ => ?_)
    refine Prog.always_ite _ _ _ _ (fun hip => ?_) (fun hip => ?_)
    · refine Prog.always_ite _ _ _ _ (fun _ => trivial) (fun hlen => ?_)
      refine Prog.always_ite _ _ _ _ (fun _ => trivial) (fun hhlen => ?_)
      refine Prog.always_ite _ _ _ _
        (fun _ => hother .fragDrop .drop ⟨(by rintro ⟨⟩), (by rintro ⟨⟩)⟩ _)
        (fun hfrag => ?_)
      refine ⟨hcalm _ _ _ trivial, fun cfg => ?_⟩
      have hH₂ := hread _ .runtimeCfg cfg hH₁ trivial
      have htrans (proto : U8) (hproto : f.byte (l3+9) = proto) : transport f =
          some (proto, flowKeyV4 f l3 (l3 + ipHlen f l3), l3 + ipHlen f l3) := by
        simp only [transport, heth, hstrip, hip, hlen, hhlen, hfrag, hproto, ↓reduceIte, or_self,
          Bool.false_eq_true]
      refine Prog.always_ite _ _ _ _
        (fun _ => hother .bogonDrop .drop ⟨(by rintro ⟨⟩), (by rintro ⟨⟩)⟩ _) (fun _ => ?_)
      refine Prog.always_ite _ _ _ _ (fun hp => htcp _ _ (htrans _ hp) _ hH₂) (fun _ => ?_)
      refine Prog.always_ite _ _ _ _ (fun hp => hudp _ _ _ (htrans _ hp) _ hH₂) (fun _ => ?_)
      refine Prog.always_ite _ _ _ _ (fun _ => calm_nodes hcalm _ _ (checkIcmpV4_calm f _ _))
        (fun _ => ?_)
      exact Prog.always_ite _ _ _ _ (fun _ => calm_nodes hcalm _ _ (checkSit4_calm _))
        (fun _ => calm_nodes hcalm _ _ (dispatchToSlot_calm _))
    · refine Prog.always_ite _ _ _ _ (fun hip6 => ?_)
        (fun _ => hother .nonIp .pass ⟨(by rintro ⟨⟩), (by rintro ⟨⟩)⟩ _)
      refine Prog.always_ite _ _ _ _ (fun _ => trivial) (fun hlen => ?_)
      cases hskip : skipIpv6Exthdr f ipv6ExthdrMax (l3+40) (f.byte (l3+6)) with
      | mk nexthdr l4 =>
      dsimp only
      refine Prog.always_ite _ _ _ _
        (fun _ => hother .fragDrop .drop ⟨(by rintro ⟨⟩), (by rintro ⟨⟩)⟩ _)
        (fun hsent => ?_)
      refine Prog.always_ite _ _ _ _ (fun _ => trivial) (fun hnone => ?_)
      refine ⟨hcalm _ _ _ trivial, fun cfg => ?_⟩
      have hH₂ := hread _ .runtimeCfg cfg hH₁ trivial
      have htrans (proto : U8) (hproto : nexthdr = proto) : transport f =
          some (proto, flowKeyV6 f l3 l4, l4) := by
        have hne : ethPIpv6 ≠ ethPIp := by decide
        subst hproto
        simp only [transport, heth, hstrip, hip6, hne, hlen, hskip, hsent, hnone, ↓reduceIte, or_self]
      refine Prog.always_ite _ _ _ _
        (fun _ => hother .bogonDrop .drop ⟨(by rintro ⟨⟩), (by rintro ⟨⟩)⟩ _) (fun _ => ?_)
      refine Prog.always_ite _ _ _ _ (fun hp => htcp _ _ (htrans _ hp) _ hH₂) (fun _ => ?_)
      refine Prog.always_ite _ _ _ _ (fun hp => hudp _ _ _ (htrans _ hp) _ hH₂) (fun _ => ?_)
      exact Prog.always_ite _ _ _ _ (fun _ => calm_nodes hcalm _ _ (checkIcmpV6_calm f _ _))
        (fun _ => calm_nodes hcalm _ _ (dispatchToSlot_calm _))

end Frames

theorem tcpMalformedReason_calm (f : Frame) (tcp : ℕ) (c : Counter)
    (h : tcpMalformedReason f tcp = some c) : c ≠ .tcpCtMiss ∧ c ≠ .udpDrop := by
  simp only [tcpMalformedReason] at h
  split_ifs at h <;> obtain rfl := Option.some.inj h <;> exact ⟨nofun, nofun⟩

theorem udpMalformedReason_calm (f : Frame) (udp : ℕ) (c : Counter)
    (h : udpMalformedReason f udp = some c) : c ≠ .tcpCtMiss ∧ c ≠ .udpDrop := by
  simp only [udpMalformedReason] at h
  split_ifs at h <;> obtain rfl := Option.some.inj h <;> exact ⟨nofun, nofun⟩

theorem checkTcp_nodes (f : Frame) (key : FlowKey) (tcp : ℕ) (H : List (DpCall P))
    (hunread : Unread H) :
    Prog.Always Prog.push (XdpTcpNode key (tcpFlags f tcp)) H (checkTcp f key tcp) := by
  refine Prog.always_ite _ _ _ _ (fun _ => trivial) (fun _ => ?_)
  cases hm : tcpMalformedReason f tcp with
  | none => exact checkTcpFlow_nodes key _ H hunread
  | some c =>
    exact ⟨fun h => absurd h (tcpMalformedReason_calm f tcp c hm).1,
      fun _ => ⟨fun h => absurd h nofun, fun _ => ⟨trivial, fun _ => trivial⟩⟩⟩

/-! UDP at XDP. -/

/-- The outbound datagram is longer ago than the reading in use allows. -/
def UdpAged (raw : U64) (u : Option (U64 × Option XdpRuntimeCfg)) : Prop :=
  ∃ now cfg, u = some (now, cfg) ∧ now - raw > cfgUdpTimeoutNs cfg

/-- The calls a datagram with this tuple may make at XDP. -/
def XdpUdpNode (key : FlowKey) (H : List (DpCall P)) :
    (o : DpOp P) → (o.Res → DpProg P XdpAction) → Prop
  | .ctLookup m k, _ => m = .udp ∧ k = key
  | .ctLoad p, _ => ∃ H', H = ⟨.ctLookup .udp key, some p⟩ :: H' ∧ Unread H'
  | .ctDelete m k, _ => m = .udp ∧ k = key ∧ ∀ x ∈ wordsRead H, UdpAged x.1 x.2
  | .ctUpdate m k v flag, _ => m = .udp ∧ k = key ∧ flag = .exist ∧
    ∃ cfg, inUse H = some (v, cfg)
  | .count c, _ => (c = .udpDrop → ∀ x ∈ wordsRead H, UdpAged x.1 x.2) ∧
    c ≠ .tcpCtMiss
  | .ctCas _ _ _, _ | .recordEstablished _ _ _ _, _ | .recordClose _ _ _, _ => False
  | _, _ => True

theorem calm_xdpUdpNode (key : FlowKey) (H : List (DpCall P)) (o : DpOp P)
    (k : o.Res → DpProg P XdpAction) (ho : Calm o) : XdpUdpNode key H o k := by
  cases o with
  | count c => exact ⟨fun h => absurd h ho.2, ho.1⟩
  | ctLookup => exact ho.elim
  | ctLoad => exact ho.elim
  | ctCas => exact ho.elim
  | ctUpdate => exact ho.elim
  | ctDelete => exact ho.elim
  | recordEstablished => exact ho.elim
  | recordClose => exact ho.elim
  | _ => trivial

section Udp

variable (key : FlowKey) (now : U64) (cfg : Option XdpRuntimeCfg)

/-- What was read of the entry, if anything, was old. -/
def UdpOld (H : List (DpCall P)) : Prop := ∀ x ∈ wordsRead H, UdpAged x.1 x.2

theorem udpOld_unread (H : List (DpCall P)) (h : Unread H) : UdpOld H := by
  rw [UdpOld, h]
  exact fun x hx => absurd hx List.not_mem_nil

theorem udpOld_calm (H : List (DpCall P)) (o : DpOp P) (r : o.Res) (ho : Calm o)
    (h : UdpOld H) : UdpOld (⟨o, r⟩ :: H) := by
  rw [UdpOld, wordsRead_cons _ H (calm_wordRead o r ho)]
  exact h

theorem udp_calm_bind {β : Type} (p : DpProg P β) (f : β → DpProg P XdpAction)
    (H : List (DpCall P)) (hp : Prog.Only Calm p) (hH : UdpOld H)
    (hf : ∀ b H', UdpOld H' → Prog.Always Prog.push (XdpUdpNode key) H' (f b)) :
    Prog.Always Prog.push (XdpUdpNode key) H (p >>= f) :=
  Prog.always_bind Calm UdpOld p f hp udpOld_calm (calm_xdpUdpNode key) H hH hf

theorem dropUdp_nodes (reason : Counter) (H : List (DpCall P)) (hH : UdpOld H)
    (hreason : reason ≠ .tcpCtMiss ∧ reason ≠ .udpDrop) :
    Prog.Always Prog.push (XdpUdpNode key) H (dropUdp reason) :=
  ⟨calm_xdpUdpNode key H (.count reason) _ hreason, fun _ =>
    ⟨⟨fun _ => udpOld_calm H (.count reason) () hreason hH, nofun⟩, fun _ => trivial⟩⟩

theorem passUdp_nodes (H : List (DpCall P)) :
    Prog.Always Prog.push (XdpUdpNode key) H passUdp := ⟨⟨nofun, nofun⟩, fun _ => trivial⟩

/-- One limiter of the UDP path. -/
theorem udpLimit_nodes (q : Limiter) (reason : Counter) (rest : DpProg P XdpAction)
    (H : List (DpCall P)) (hH : UdpOld H)
    (hreason : reason ≠ .tcpCtMiss ∧ reason ≠ .udpDrop)
    (hrest : ∀ H', UdpOld H' → Prog.Always Prog.push (XdpUdpNode key) H' rest) :
    Prog.Always Prog.push (XdpUdpNode key) H (do
      if (← limit q) = .drop then dropUdp reason else rest) := by
  refine udp_calm_bind key (limit q) _ H ⟨trivial, fun _ => trivial⟩ hH (fun v H' h' => ?_)
  exact Prog.always_ite _ _ _ _ (fun _ => dropUdp_nodes key reason H' h' hreason)
    (fun _ => hrest H' h')

theorem checkUdpLimits_nodes (bytes : U64) (H : List (DpCall P)) (hH : UdpOld H) :
    Prog.Always Prog.push (XdpUdpNode key) H
      (checkUdpLimits key key.destPort bytes now cfg) := by
  refine udp_calm_bind key (udpPolicy key.destPort) _ H ⟨trivial, fun _ => trivial⟩ hH
    (fun policy H₁ h₁ => ?_)
  refine udpLimit_nodes key _ _ _ H₁ h₁ ⟨nofun, nofun⟩ (fun H₂ h₂ => ?_)
  refine udpLimit_nodes key _ _ _ H₂ h₂ ⟨nofun, nofun⟩ (fun H₃ h₃ => ?_)
  refine udpLimit_nodes key _ _ _ H₃ h₃ ⟨nofun, nofun⟩ (fun H₄ h₄ => ?_)
  refine ⟨⟨nofun, nofun⟩, fun _ => ⟨trivial, fun verdict => ?_⟩⟩
  cases verdict with
  | some v => trivial
  | none => exact passUdp_nodes key _

omit now cfg in
theorem udpAbuseipdbBlocks_calm : Prog.Only Calm (udpAbuseipdbBlocks key : DpProg P Bool) := by
  cases key with
  | v6 sport dport saddr daddr => trivial
  | v4 sport dport saddr daddr =>
    refine ⟨trivial, fun cfg => Prog.only_ite _ _ _ _ (fun _ => ?_) (fun _ => trivial)⟩
    exact ⟨trivial, fun _ => trivial⟩

omit now cfg in
theorem isHandlerBlocked_calm : Prog.Only Calm (isHandlerBlocked key : DpProg P Bool) := by
  refine ⟨trivial, fun r => ?_⟩
  cases r with
  | none => trivial
  | some til => exact ⟨trivial, fun _ => trivial⟩

theorem checkUdpNew_nodes (bytes : U64) (H : List (DpCall P)) (hH : UdpOld H) :
    Prog.Always Prog.push (XdpUdpNode key) H (checkUdpNew key key.destPort bytes now cfg) := by
  refine udp_calm_bind key (whitelist .udp key.destPort) _ H ⟨trivial, fun _ => trivial⟩ hH
    (fun allow H₁ h₁ => Prog.always_ite _ _ _ _ (fun _ => ⟨⟨fun _ => h₁, nofun⟩, fun _ => trivial⟩)
      (fun _ => ?_))
  refine udp_calm_bind key (isTrusted key.saddr) _ H₁ ⟨trivial, fun _ => trivial⟩ h₁
    (fun t H₂ h₂ => Prog.always_ite _ _ _ _ (fun _ => passUdp_nodes key H₂) (fun _ => ?_))
  refine udp_calm_bind key _ _ H₂ (udpAbuseipdbBlocks_calm key) h₂
    (fun blocks H₃ h₃ => Prog.always_ite _ _ _ _
      (fun _ => dropUdp_nodes key _ H₃ h₃ ⟨nofun, nofun⟩) (fun _ => ?_))
  refine udpLimit_nodes key _ _ _ H₃ h₃ ⟨nofun, nofun⟩ (fun H₄ h₄ => ?_)
  refine udp_calm_bind key (udpValidUntil key) _ H₄ ⟨trivial, fun _ => trivial⟩ h₄
    (fun valid H₅ h₅ => Prog.always_ite _ _ _ _ (fun _ => passUdp_nodes key H₅) (fun _ => ?_))
  refine udp_calm_bind key (acl .udp key.saddr) _ H₅ ⟨trivial, fun _ => trivial⟩ h₅
    (fun av H₆ h₆ => Prog.always_ite _ _ _ _ (fun _ => passUdp_nodes key H₆) (fun _ => ?_))
  refine udp_calm_bind key _ _ H₆ (isHandlerBlocked_calm key) h₆
    (fun blocked H₇ h₇ => Prog.always_ite _ _ _ _
      (fun _ => dropUdp_nodes key _ H₇ h₇ ⟨nofun, nofun⟩) (fun _ => ?_))
  exact checkUdpLimits_nodes key now cfg bytes H₇ h₇

theorem checkUdpFlow_nodes (bytes : U64) (H : List (DpCall P))
    (hu : inUse H = some (now, cfg)) (hunread : Unread H) :
    Prog.Always Prog.push (XdpUdpNode key) H (checkUdpFlow key bytes now cfg) := by
  simp only [checkUdpFlow, ctLookup_bind]
  refine ⟨⟨rfl, rfl⟩, fun found => ?_⟩
  have hunread' : Unread ((⟨.ctLookup .udp key, found⟩ : DpCall P) :: H) :=
    unread_cons _ (.ctLookup .udp key) found hunread rfl
  have hu₁ : inUse ((⟨.ctLookup .udp key, found⟩ : DpCall P) :: H) = some (now, cfg) :=
    (inUse_cons _ _ rfl).trans hu
  cases found with
  | none => exact checkUdpNew_nodes key now cfg bytes _ (udpOld_unread _ hunread')
  | some p =>
    refine ⟨⟨H, rfl, hunread⟩, fun raw => ?_⟩
    refine Prog.always_ite _ _ _ _ (fun _ => ?_) (fun hage => ?_)
    · split
      · exact ⟨⟨rfl, rfl, rfl, cfg, (inUse_cons _ _ rfl).trans hu₁⟩, fun _ => passUdp_nodes key _⟩
      · exact passUdp_nodes key _
    · have hold : UdpOld ((⟨.ctLoad p, raw⟩ : DpCall P) :: ⟨.ctLookup .udp key, some p⟩ :: H) := by
        intro x hx
        have hwords : wordsRead ((⟨.ctLoad p, raw⟩ : DpCall P) ::
            ⟨.ctLookup .udp key, some p⟩ :: H) = [(raw, some (now, cfg))] := by
          rw [← hu₁]
          exact congrArg _ hunread'
        rw [hwords, List.mem_singleton] at hx
        subst hx
        exact ⟨now, cfg, rfl, BitVec.not_le.mp hage⟩
      exact ⟨⟨rfl, rfl, hold⟩, fun b => checkUdpNew_nodes key now cfg bytes _ hold⟩

omit now cfg

theorem checkUdp_nodes (f : Frame) (udp : ℕ) (bytes : U64) (H : List (DpCall P))
    (hunread : Unread H) :
    Prog.Always Prog.push (XdpUdpNode key) H (checkUdp f key udp bytes) := by
  simp only [checkUdp, ktimeGetNs_bind, runtimeCfg_bind]
  refine ⟨trivial, fun now => ⟨trivial, fun cfg => ?_⟩⟩
  have hu : inUse ((⟨.runtimeCfg, cfg⟩ : DpCall P) :: ⟨.ktimeGetNs, now⟩ :: H) =
      some (now, cfg) := rfl
  have hunread' : Unread ((⟨.runtimeCfg, cfg⟩ : DpCall P) :: ⟨.ktimeGetNs, now⟩ :: H) :=
    unread_cons _ .runtimeCfg cfg (unread_cons _ .ktimeGetNs now hunread rfl) rfl
  refine Prog.always_ite _ _ _ _ (fun _ => trivial) (fun _ => ?_)
  cases hm : udpMalformedReason f udp with
  | none => exact checkUdpFlow_nodes key now cfg bytes _ hu hunread'
  | some c =>
    exact dropUdp_nodes key c _ (udpOld_unread _ hunread') (udpMalformedReason_calm f udp c hm)

end Udp

/-- The calls a frame may make at XDP. -/
def XdpFrameNode (f : Frame) (H : List (DpCall P)) (o : DpOp P)
    (next : o.Res → DpProg P XdpAction) : Prop :=
  Calm o ∨ ∃ key l4,
    (transport f = some (ipprotoTcp, key, l4) ∧ XdpTcpNode key (tcpFlags f l4) H o next) ∨
    (transport f = some (ipprotoUdp, key, l4) ∧ XdpUdpNode key H o next)

theorem xdpFw_nodes (f : Frame) : Prog.Always Prog.push (XdpFrameNode (P := P) f) [] (xdpFw f) := by
  refine xdpFw_always f (fun H o k ho => Or.inl ho) (fun key l4 hf H hH => ?_)
    (fun key l4 bytes hf H hH => ?_)
  · exact Prog.always_mono H _ (fun H o k h => Or.inr ⟨key, l4, Or.inl ⟨hf, h⟩⟩)
      (checkTcp_nodes f key l4 H hH)
  · exact Prog.always_mono H _ (fun H o k h => Or.inr ⟨key, l4, Or.inr ⟨hf, h⟩⟩)
      (checkUdp_nodes key f l4 bytes H hH)

/-! The tc program. -/

/-- The calls of an outbound segment up to the age test. -/
def TcReadEntry (key : FlowKey) (H : List (DpCall P)) (p : P) (raw now : U64) : Prop :=
  H = [⟨.ctLoad p, raw⟩, ⟨.ctLookup .tcp key, some p⟩, ⟨.ktimeGetNs, now⟩]

/-- The calls an outbound segment may make at tc; `key` is the reverse of its tuple. -/
def TcTcpNode (key : FlowKey) (flags : U8) (H : List (DpCall P)) : DpOp P → Prop
  | .ktimeGetNs | .runtimeCfg => True
  | .ctLookup m k => m = .tcp ∧ k = key
  | .ctLoad p => ⟨.ctLookup .tcp key, some p⟩ ∈ H
  | .ctDelete m k => m = .tcp ∧ k = key ∧ ∃ p raw now,
    (hasFlag flags tcpFlagRst = true ∧ TcReadEntry key H p raw now) ∨
    ∃ cfg H', H = ⟨.runtimeCfg, cfg⟩ :: H' ∧ TcReadEntry key H' p raw now ∧
      now - stamp raw > cfgTcpTimeoutNs cfg
  | .ctUpdate m k v flag => m = .tcp ∧ k = key ∧
    ((flag = .any ∧ isSynOnly flags = true ∧ H = [⟨.ktimeGetNs, v⟩]) ∨
      (flag = .exist ∧ isSynOnly flags = false ∧ hasFlag flags tcpFlagRst = false ∧
        ∃ p raw raw₀ cfg₁ cfg₂ now H', H = ⟨.ctLoad p, raw⟩ :: ⟨.runtimeCfg, cfg₂⟩ ::
            ⟨.runtimeCfg, cfg₁⟩ :: H' ∧ TcReadEntry key H' p raw₀ now ∧
          now - stamp raw₀ ≤ cfgTcpTimeoutNs cfg₁ ∧ cfgCtRefreshNs cfg₂ < now - stamp raw₀ ∧
          v = (raw &&& ctSynPending) ||| now))
  | _ => False

theorem tcTcp_nodes (key : FlowKey) (flags : U8) :
    Prog.Always Prog.push (fun H o _ => TcTcpNode key flags H o) []
      (tcTcp key flags : DpProg P Unit) := by
  simp only [tcTcp, ktimeGetNs_bind, ctUpdate_bind, ctLookup_bind]
  refine ⟨trivial, fun now => Prog.always_ite _ _ _ _ (fun hsyn => ?_) (fun hsyn => ?_)⟩
  · exact ⟨⟨rfl, rfl, Or.inl ⟨rfl, hsyn, rfl⟩⟩, fun _ => trivial⟩
  rw [Bool.not_eq_true] at hsyn
  refine ⟨⟨rfl, rfl⟩, fun found => ?_⟩
  cases found with
  | none => trivial
  | some p =>
    simp only [ctLoad_bind, tcDelete, ctDelete_bind, tcTcpTimeoutNs, tcRefresh, tcRefreshNs,
      runtimeCfg_bind, ctUpdate_bind, Prog.op_bind, Prog.pure_eq, Prog.ret_bind]
    refine ⟨List.mem_cons_self .., fun raw₀ => ?_⟩
    refine Prog.always_ite _ _ _ _ (fun hrst => ?_) (fun hrst => ⟨trivial, fun cfg₁ => ?_⟩)
    · exact ⟨⟨rfl, rfl, p, raw₀, now, Or.inl ⟨hrst, rfl⟩⟩, fun _ => trivial⟩
    rw [Bool.not_eq_true] at hrst
    refine Prog.always_ite _ _ _ _ (fun hage => ?_) (fun hage => ⟨trivial, fun cfg₂ => ?_⟩)
    · exact ⟨⟨rfl, rfl, p, raw₀, now, Or.inr ⟨cfg₁, _, rfl, rfl, hage⟩⟩, fun _ => trivial⟩
    refine Prog.always_ite _ _ _ _ (fun hrefresh => ?_) (fun _ => trivial)
    refine ⟨?_, fun raw => ⟨?_, fun _ => trivial⟩⟩
    · exact List.mem_cons_of_mem _ (List.mem_cons_of_mem _ (List.mem_cons_of_mem _
        (List.mem_cons_self ..)))
    · exact ⟨rfl, rfl, Or.inr ⟨rfl, hsyn, hrst, p, raw, raw₀, cfg₁, cfg₂, now, _, rfl, rfl,
        BitVec.not_lt.mp hage, hrefresh, rfl⟩⟩

/-- The calls an outbound datagram may make at tc. -/
def TcTouchNode (m : CtMap) (key : FlowKey) : DpOp P → Prop
  | .ktimeGetNs | .runtimeCfg | .ctLoad _ => True
  | .ctLookup m' k => m' = m ∧ k = key
  | .ctUpdate m' k _ flag => m' = m ∧ k = key ∧ flag = .any
  | _ => False

theorem tcTouch_nodes (m : CtMap) (key : FlowKey) (H : List (DpCall P)) :
    Prog.Always Prog.push (fun _ o _ => TcTouchNode m key o) H
      (tcTouch m key : DpProg P Unit) := by
  simp only [tcTouch, ktimeGetNs_bind, ctLookup_bind]
  refine ⟨trivial, fun now => ⟨⟨rfl, rfl⟩, fun found => ?_⟩⟩
  cases found with
  | none => exact ⟨⟨rfl, rfl, rfl⟩, fun _ => trivial⟩
  | some p =>
    simp only [ctLoad_bind, tcRefreshNs, runtimeCfg_bind, ctUpdate_bind, Prog.op_bind,
      Prog.pure_eq, Prog.ret_bind]
    refine ⟨trivial, fun raw => ⟨trivial, fun cfg => ?_⟩⟩
    exact Prog.always_ite _ _ _ _ (fun _ => ⟨⟨rfl, rfl, rfl⟩, fun _ => trivial⟩) (fun _ => trivial)

/-- The calls an outbound frame may make at tc. -/
def TcFrameNode (f : Frame) (H : List (DpCall P)) (o : DpOp P) : Prop :=
  (∃ key l4, transport f = some (ipprotoTcp, key, l4) ∧
    TcTcpNode key.reverse (tcpFlags f l4) H o) ∨
  ∃ m key, m ≠ .tcp ∧ TcTouchNode m key o

theorem tcEgressTrack_nodes (f : Frame) :
    Prog.Always Prog.push (fun H o _ => TcFrameNode f H o) []
      (tcEgressTrack f : DpProg P Unit) := by
  have htouch (m : CtMap) (key : FlowKey) (hm : m ≠ .tcp) :
      Prog.Always Prog.push (fun H o _ => TcFrameNode f H o) [] (tcTouch m key : DpProg P Unit) :=
    Prog.always_mono [] _ (fun H o k h => Or.inr ⟨m, key, hm, h⟩) (tcTouch_nodes m key [])
  rw [tcEgressTrack_eq]
  cases htr : transport f with
  | none => trivial
  | some t =>
    obtain ⟨proto, key, l4⟩ := t
    simp only [tcDispatch]
    refine Prog.always_ite _ _ _ _ (fun htcp => ?_) (fun _ => ?_)
    · subst htcp
      refine Prog.always_ite _ _ _ _ (fun _ => trivial) (fun _ => ?_)
      exact Prog.always_mono [] _ (fun H o k h => Or.inl ⟨key, l4, htr, h⟩)
        (tcTcp_nodes key.reverse _)
    · refine Prog.always_ite _ _ _ _ (fun _ => ?_) (fun _ => ?_)
      · exact Prog.always_ite _ _ _ _ (fun _ => trivial) (fun _ => htouch .udp _ (by rintro ⟨⟩))
      · refine Prog.always_ite _ _ _ _ (fun _ => ?_) (fun _ => trivial)
        exact Prog.always_ite _ _ _ _ (fun _ => trivial) (fun _ => htouch .sctp _ (by rintro ⟨⟩))

/-! Either side of the host. -/

/-- A frame, and on which side of the host it passes. -/
inductive Packet where
  | ingress (f : Frame)
  | egress (f : Frame)

/-- The program a packet runs; at tc it always ends in `TC_ACT_OK`. -/
def datapath : Packet → DpProg P XdpAction
  | .ingress f => xdpFw f
  | .egress f => do
    tcEgressTrack f
    return .pass

/-- The calls a packet may make. -/
def PacketNode : Packet → List (DpCall P) → (o : DpOp P) → (o.Res → DpProg P XdpAction) → Prop
  | .ingress f, H, o, next => XdpFrameNode f H o next
  | .egress f, H, o, _ => TcFrameNode f H o

theorem datapath_nodes (p : Packet) :
    Prog.Always Prog.push (PacketNode (P := P) p) [] (datapath p) := by
  cases p with
  | ingress f => exact xdpFw_nodes f
  | egress f => exact Prog.always_map [] _ XdpAction.pass (tcEgressTrack_nodes f)

end AutoXdp
