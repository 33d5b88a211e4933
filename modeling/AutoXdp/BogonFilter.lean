import AutoXdp.DefaultDeny
import AutoXdp.NftRuleset
import Mathlib.Tactic.Basic

/-! Bogon sources in both backends: the masks of `trust_acl.h` against the CIDRs of
`backends/nftables.py`, and the place of either test among the checks before it. -/
namespace AutoXdp
open AtomicProg

/-! The two sets of addresses. -/

theorem and_mask_toNat {w : ℕ} (a : BitVec w) (k : ℕ) :
    (a &&& (BitVec.allOnes w <<< k)).toNat = a.toNat / 2^k * 2^k := by
  have h : a &&& (BitVec.allOnes w <<< k) = (a >>> k) <<< k := by
    apply BitVec.eq_of_getLsbD_eq
    intro i hi
    simp only [BitVec.getLsbD_and, BitVec.getLsbD_shiftLeft, BitVec.getLsbD_allOnes,
      BitVec.getLsbD_ushiftRight, hi, decide_true, Bool.true_and]
    by_cases hk : i < k
    · simp [hk]
    · have : k + (i - k) = i := by omega
      simp [hk, this]
      omega
  rw [h, BitVec.toNat_shiftLeft, BitVec.toNat_ushiftRight, Nat.shiftLeft_eq, Nat.shiftRight_eq_div_pow]
  apply Nat.mod_eq_of_lt
  exact lt_of_le_of_lt (Nat.div_mul_le_self _ _) a.isLt

theorem network_eq_iff {w : ℕ} (a b : BitVec w) (k : ℕ) :
    a &&& (BitVec.allOnes w <<< k) = b &&& (BitVec.allOnes w <<< k) ↔
      a.toNat / 2^k = b.toNat / 2^k := by
  rw [← BitVec.toNat_inj, and_mask_toNat, and_mask_toNat]
  exact Nat.mul_left_inj (Nat.two_pow_pos k).ne'

theorem covers_v4 (n : ℕ) (a b : U32) :
    LpmKey.covers ⟨n, .v4 b⟩ (.v4 a) = decide (a.toNat / 2^(32-n) = b.toNat / 2^(32-n)) := by
  simp only [LpmKey.covers, Addr.network, ← network_eq_iff]
  rw [beq_eq_decide]
  simp only [Addr.v4.injEq]

theorem covers_v6 (n : ℕ) (a b : U128) :
    LpmKey.covers ⟨n, .v6 b⟩ (.v6 a) = decide (a.toNat / 2^(128-n) = b.toNat / 2^(128-n)) := by
  simp only [LpmKey.covers, Addr.network, ← network_eq_iff]
  rw [beq_eq_decide]
  simp only [Addr.v6.injEq]

/-- A masked comparison in `is_bogon_v4` and `is_bogon_v6`. -/
theorem masked_eq (a c : U32) (k : ℕ) (m : U32) (hm : m = BitVec.allOnes 32 <<< k) (hc : c &&& m = c) :
    (a &&& m == c) = decide (a.toNat / 2^k = c.toNat / 2^k) := by
  subst hm
  rw [beq_eq_decide]
  conv_lhs => rw [← hc]
  simp only [network_eq_iff]

theorem octet_eq (a c : U32) : (a >>> 24 == c) = decide (a.toNat / 2^24 = c.toNat) := by
  rw [beq_eq_decide, decide_eq_decide, ← BitVec.toNat_inj, BitVec.toNat_ushiftRight,
    Nat.shiftRight_eq_div_pow]

theorem isBogonV4_covers (a : U32) : isBogonV4 a = bogonV4.any fun k => k.covers (.v4 a) := by
  simp only [isBogonV4, bogonV4, List.any_cons, List.any_nil, covers_v4, Bool.or_false]
  rw [octet_eq, octet_eq, octet_eq, masked_eq a 0x64400000 22 0xFFC00000 (by decide) (by decide),
    masked_eq a 0xA9FE0000 16 0xFFFF0000 (by decide) (by decide),
    masked_eq a 0xAC100000 20 0xFFF00000 (by decide) (by decide),
    masked_eq a 0xC0A80000 16 0xFFFF0000 (by decide) (by decide),
    masked_eq a 0xE0000000 28 0xF0000000 (by decide) (by decide),
    masked_eq a 0xF0000000 28 0xF0000000 (by decide) (by decide), Bool.eq_iff_iff]
  simp only [Bool.or_eq_true, decide_eq_true_eq, BitVec.reduceToNat, Nat.reduceSub, Nat.reducePow,
    Nat.reduceDiv]
  omega

theorem word_eq (a : U128) (s : ℕ) (c : U32) :
    (a.extractLsb' s 32 == c) = decide (a.toNat / 2^s % 2^32 = c.toNat) := by
  rw [beq_eq_decide, decide_eq_decide, ← BitVec.toNat_inj, BitVec.extractLsb'_toNat,
    Nat.shiftRight_eq_div_pow]

theorem isBogonV6_covers (a : U128) : isBogonV6 a = bogonV6.any fun k => k.covers (.v6 a) := by
  have ha := a.isLt
  simp only [isBogonV6, bogonV6, List.any_cons, List.any_nil, covers_v6, Bool.or_false]
  rw [masked_eq _ 0xFC000000 25 0xFE000000 (by decide) (by decide),
    masked_eq _ 0xFE800000 22 0xFFC00000 (by decide) (by decide),
    masked_eq _ 0xFF000000 24 0xFF000000 (by decide) (by decide), Bool.eq_iff_iff]
  simp only [word_eq, BitVec.extractLsb'_toNat, Nat.shiftRight_eq_div_pow, Bool.or_eq_true,
    Bool.and_eq_true, decide_eq_true_eq, BitVec.reduceToNat, Nat.reduceSub,
    Nat.reducePow, Nat.reduceDiv] at ha ⊢
  omega

/-! Only the bogon test counts a bogon. -/

variable {P : Type}

/-- A call that does not count a bogon. -/
def NoBogon (o : DpOp P) : Prop := o ≠ .count .bogonDrop

section Spared

variable (key : FlowKey) (flags : U8) (destPort : U32) (raw now : U64)
  (cfg : Option XdpRuntimeCfg)

theorem count_noBogon (reason : Counter) (v : XdpAction) (h : reason ≠ .bogonDrop) :
    Prog.Only NoBogon (do count reason; return v : DpProg P XdpAction) := by
  simp [NoBogon, h]

theorem dropTcp_noBogon (reason : Counter) (h : reason ≠ .bogonDrop) :
    Prog.Only NoBogon (dropTcp reason : DpProg P XdpAction) := by
  simp [dropTcp, NoBogon, h]

theorem dropUdp_noBogon (reason : Counter) (h : reason ≠ .bogonDrop) :
    Prog.Only NoBogon (dropUdp reason : DpProg P XdpAction) := by
  simp [dropUdp, NoBogon, h]

theorem tryPortDispatch_noBogon (t : ProgArray) (port : U32) (rest : DpProg P XdpAction)
    (h : Prog.Only NoBogon rest) : Prog.Only NoBogon (tryPortDispatch t port rest) := by
  simp only [tryPortDispatch, count_bind, tailCall_bind, Prog.only_op]
  refine ⟨by simp [NoBogon], fun _ => ⟨by simp [NoBogon], fun v => ?_⟩⟩
  cases v <;> simp [h]

theorem limitOr_noBogon (q : Limiter) (reason : Counter) (rest : DpProg P XdpAction)
    (hreason : reason ≠ .bogonDrop) (h : Prog.Only NoBogon rest) :
    Prog.Only NoBogon (limitOr q reason rest) :=
  ⟨nofun, fun _ => Prog.only_ite _ _ _ _ (fun _ => dropTcp_noBogon reason hreason) (fun _ => h)⟩

theorem precheckNewTcpSyn_noBogon (bypassRate : Bool) :
    Prog.Only NoBogon (precheckNewTcpSyn key destPort bypassRate now cfg : DpProg P XdpAction) := by
  refine ⟨nofun, fun policy => ?_⟩
  have hconns (a b c : Limiter) : Prog.Only NoBogon
      (limitOr (P := P) a .tcpConnLimitDrop <| limitOr b .tcpConnPrefixLimitDrop <|
        limitOr c .tcpConnPortLimitDrop <| return .pass) :=
    limitOr_noBogon _ _ _ nofun (limitOr_noBogon _ _ _ nofun (limitOr_noBogon _ _ _ nofun trivial))
  refine Prog.only_ite _ _ _ _ (fun _ => hconns _ _ _) (fun _ => ?_)
  exact limitOr_noBogon _ _ _ nofun (limitOr_noBogon _ _ _ nofun (hconns _ _ _))

theorem ctRemove_noBogon : Prog.Only NoBogon (ctRemove key raw now destPort : DpProg P Unit) :=
  ⟨nofun, fun _ => Prog.only_ite _ _ _ _ (fun _ => trivial) (fun _ => ⟨nofun, fun _ => trivial⟩)⟩

theorem insertHalfOpen_noBogon (bypassRate prechecked : Bool) :
    Prog.Only NoBogon
      (insertHalfOpen key destPort bypassRate prechecked now cfg : DpProg P XdpAction) := by
  have henter : Prog.Only NoBogon (do
      let _ ← ctUpdate .tcp key (now ||| ctSynPending) .any
      count .tcpNewAllow
      return .pass : DpProg P XdpAction) := ⟨nofun, fun _ => ⟨nofun, fun _ => trivial⟩⟩
  refine Prog.only_ite _ _ _ _ (fun _ => henter) (fun _ => ?_)
  refine Prog.only_bind _ _ _ (precheckNewTcpSyn_noBogon key destPort now cfg bypassRate) ?_
  exact fun v => Prog.only_ite _ _ _ _ (fun _ => trivial) (fun _ => henter)

theorem allowNewTcpSyn_noBogon (bypassRate prechecked : Bool) :
    Prog.Only NoBogon
      (allowNewTcpSyn key destPort bypassRate prechecked now cfg : DpProg P XdpAction) := by
  refine ⟨nofun, fun found => ?_⟩
  cases found with
  | none => exact insertHalfOpen_noBogon key destPort now cfg bypassRate prechecked
  | some lastSeen =>
    have hpass := count_noBogon (P := P) .tcpNewAllow .pass nofun
    refine ⟨nofun, fun raw => Prog.only_ite _ _ _ _ (fun _ => ?_) (fun _ => ?_)⟩
    · exact Prog.only_bind _ _ _ (ctRemove_noBogon key destPort raw now)
        (fun _ => insertHalfOpen_noBogon key destPort now cfg bypassRate prechecked)
    · refine Prog.only_ite _ _ _ _ (fun _ => ?_) (fun _ => hpass)
      exact ⟨nofun, fun _ => ⟨nofun, fun _ => hpass⟩⟩

theorem checkTcpRst_noBogon :
    Prog.Only NoBogon (checkTcpRst key flags destPort now cfg : DpProg P XdpAction) := by
  have hmiss := dropTcp_noBogon (P := P) .tcpCtMiss nofun
  refine Prog.only_ite _ _ _ _ (fun _ => count_noBogon _ _ nofun) (fun _ => ⟨nofun, fun found => ?_⟩)
  cases found with
  | none => exact hmiss
  | some lastSeen =>
    refine ⟨nofun, fun raw => Prog.only_ite _ _ _ _ (fun _ => ?_) (fun _ => ?_)⟩
    · exact Prog.only_bind _ _ _ (ctRemove_noBogon key destPort raw now) (fun _ => hmiss)
    · exact Prog.only_bind _ _ _ (ctRemove_noBogon key destPort raw now)
        (fun _ => count_noBogon _ _ nofun)

theorem touchEstablished_noBogon (lastSeen : P) :
    Prog.Only NoBogon (touchEstablished key lastSeen raw now destPort cfg) := by
  refine Prog.only_ite _ _ _ _ (fun _ => ⟨nofun, fun r => ?_⟩) (fun _ => ?_)
  · exact Prog.only_ite _ _ _ _ (fun _ => ⟨nofun, fun _ => trivial⟩) (fun _ => trivial)
  · exact Prog.only_ite _ _ _ _ (fun _ => ⟨nofun, fun _ => ⟨nofun, fun _ => trivial⟩⟩)
      (fun _ => trivial)

theorem checkTcpAck_noBogon :
    Prog.Only NoBogon (checkTcpAck key flags destPort now cfg : DpProg P XdpAction) := by
  have hmiss := dropTcp_noBogon (P := P) .tcpCtMiss nofun
  have hpass := count_noBogon (P := P) .tcpEstablished .pass nofun
  refine ⟨nofun, fun found => ?_⟩
  cases found with
  | none =>
    refine ⟨nofun, fun pending => ?_⟩
    cases pending with
    | none => exact hmiss
    | some port => exact tryPortDispatch_noBogon _ _ _ hmiss
  | some lastSeen =>
    refine ⟨nofun, fun raw => Prog.only_ite _ _ _ _ (fun _ => ?_) (fun _ => ?_)⟩
    · exact Prog.only_bind _ _ _ (ctRemove_noBogon key destPort raw now) (fun _ => hmiss)
    · refine Prog.only_ite _ _ _ _ (fun _ => ?_) (fun _ => ?_)
      · exact Prog.only_bind _ _ _ (ctRemove_noBogon key destPort raw now) (fun _ => hpass)
      · exact Prog.only_bind _ _ _ (touchEstablished_noBogon key destPort raw now cfg lastSeen)
          (fun _ => hpass)

theorem checkTcpFin_noBogon :
    Prog.Only NoBogon (checkTcpFin key destPort now : DpProg P XdpAction) := by
  refine ⟨nofun, fun found => ?_⟩
  cases found with
  | none => exact count_noBogon _ _ nofun
  | some lastSeen =>
    have hpass := count_noBogon (P := P) .tcpEstablished .pass nofun
    refine ⟨nofun, fun raw => ?_⟩
    change Prog.Only NoBogon (ctRemove key raw now destPort >>= fun _ => _)
    exact Prog.only_bind _ _ _ (ctRemove_noBogon key destPort raw now) (fun _ => hpass)

theorem isHandlerBlocked_noBogon :
    Prog.Only NoBogon (isHandlerBlocked key : DpProg P Bool) := by
  refine ⟨nofun, fun til => ?_⟩
  cases til with
  | none => trivial
  | some til => exact ⟨nofun, fun _ => trivial⟩

theorem abuseipdbBlocks_noBogon : Prog.Only NoBogon (abuseipdbBlocks key : DpProg P Bool) := by
  refine ⟨nofun, fun cfg => Prog.only_ite _ _ _ _ (fun _ => ?_) (fun _ => trivial)⟩
  cases key with
  | v4 sport dport saddr daddr => exact ⟨nofun, fun _ => trivial⟩
  | v6 sport dport saddr daddr => trivial

theorem checkTcpSyn_noBogon :
    Prog.Only NoBogon (checkTcpSyn key destPort now cfg : DpProg P XdpAction) := by
  refine ⟨nofun, fun white => Prog.only_ite _ _ _ _ (fun _ => count_noBogon _ _ nofun) (fun _ => ?_)⟩
  refine Prog.only_bind _ _ _ (abuseipdbBlocks_noBogon key) (fun listed => ?_)
  refine Prog.only_ite _ _ _ _ (fun _ => dropTcp_noBogon _ nofun) (fun _ => ?_)
  refine Prog.only_bind _ _ _ (isHandlerBlocked_noBogon key) (fun blocked => ?_)
  refine Prog.only_ite _ _ _ _ (fun _ => dropTcp_noBogon _ nofun) (fun _ => ?_)
  refine Prog.only_bind _ _ _ (precheckNewTcpSyn_noBogon key destPort now cfg false) (fun v => ?_)
  refine Prog.only_ite _ _ _ _ (fun _ => trivial) (fun _ => ?_)
  exact tryPortDispatch_noBogon _ _ _ (allowNewTcpSyn_noBogon key destPort now cfg false true)

theorem checkTcpConntrack_noBogon :
    Prog.Only NoBogon (checkTcpConntrack key flags destPort : DpProg P XdpAction) := by
  refine ⟨nofun, fun now => ⟨nofun, fun cfg => ?_⟩⟩
  refine Prog.only_ite _ _ _ _ (fun _ => checkTcpRst_noBogon key flags destPort now cfg) (fun _ => ?_)
  refine Prog.only_ite _ _ _ _ (fun _ => checkTcpAck_noBogon key flags destPort now cfg) (fun _ => ?_)
  refine Prog.only_ite _ _ _ _ (fun _ => checkTcpFin_noBogon key destPort now) (fun _ => ?_)
  exact Prog.only_ite _ _ _ _ (fun _ => checkTcpSyn_noBogon key destPort now cfg)
    (fun _ => count_noBogon _ _ nofun)

theorem checkTcpFlow_noBogon : Prog.Only NoBogon (checkTcpFlow key flags : DpProg P XdpAction) := by
  have hct := checkTcpConntrack_noBogon (P := P) key flags key.destPort
  refine Prog.only_ite _ _ _ _ (fun _ => ⟨nofun, fun now => ⟨nofun, fun cfg => ?_⟩⟩) (fun _ => hct)
  have hallow := allowNewTcpSyn_noBogon (P := P) key key.destPort now cfg true false
  refine ⟨nofun, fun trust => Prog.only_ite _ _ _ _ (fun _ => hallow) (fun _ => ⟨nofun, fun v => ?_⟩)⟩
  exact Prog.only_ite _ _ _ _ (fun _ => hallow) (fun _ => hct)

theorem checkTcp_noBogon (f : Frame) (tcp : ℕ) :
    Prog.Only NoBogon (checkTcp f key tcp : DpProg P XdpAction) := by
  refine Prog.only_ite _ _ _ _ (fun _ => trivial) (fun _ => ?_)
  cases hm : tcpMalformedReason f tcp with
  | none => exact checkTcpFlow_noBogon key _
  | some c =>
    have hc : c ≠ .bogonDrop := by
      simp only [tcpMalformedReason] at hm
      split_ifs at hm <;> obtain rfl := Option.some.inj hm <;> nofun
    exact ⟨fun h => hc (DpOp.count.inj h), fun _ => ⟨nofun, fun _ => ⟨nofun, fun _ => trivial⟩⟩⟩

theorem checkUdpLimits_noBogon (pktBytes : U64) :
    Prog.Only NoBogon (checkUdpLimits key destPort pktBytes now cfg : DpProg P XdpAction) := by
  refine ⟨nofun, fun policy => ⟨nofun, fun v => ?_⟩⟩
  refine Prog.only_ite _ _ _ _ (fun _ => dropUdp_noBogon _ nofun) (fun _ => ⟨nofun, fun v => ?_⟩)
  refine Prog.only_ite _ _ _ _ (fun _ => dropUdp_noBogon _ nofun) (fun _ => ⟨nofun, fun v => ?_⟩)
  refine Prog.only_ite _ _ _ _ (fun _ => dropUdp_noBogon _ nofun) (fun _ => ?_)
  exact tryPortDispatch_noBogon _ _ _ (count_noBogon _ _ nofun)

theorem checkUdpNew_noBogon (pktBytes : U64) :
    Prog.Only NoBogon (checkUdpNew key destPort pktBytes now cfg : DpProg P XdpAction) := by
  have hpass : Prog.Only NoBogon (passUdp : DpProg P XdpAction) := count_noBogon _ _ nofun
  have hlist : Prog.Only NoBogon (udpAbuseipdbBlocks key : DpProg P Bool) := by
    cases key with
    | v4 sport dport saddr daddr => exact abuseipdbBlocks_noBogon (.v4 sport dport saddr daddr)
    | v6 sport dport saddr daddr => trivial
  refine ⟨nofun, fun white => Prog.only_ite _ _ _ _ (fun _ => count_noBogon _ _ nofun) (fun _ => ?_)⟩
  refine ⟨nofun, fun trust => Prog.only_ite _ _ _ _ (fun _ => hpass) (fun _ => ?_)⟩
  refine Prog.only_bind _ _ _ hlist (fun listed => ?_)
  refine Prog.only_ite _ _ _ _ (fun _ => dropUdp_noBogon _ nofun) (fun _ => ⟨nofun, fun v => ?_⟩)
  refine Prog.only_ite _ _ _ _ (fun _ => dropUdp_noBogon _ nofun) (fun _ => ⟨nofun, fun til => ?_⟩)
  refine Prog.only_ite _ _ _ _ (fun _ => hpass) (fun _ => ⟨nofun, fun v => ?_⟩)
  refine Prog.only_ite _ _ _ _ (fun _ => hpass) (fun _ => ?_)
  refine Prog.only_bind _ _ _ (isHandlerBlocked_noBogon key) (fun blocked => ?_)
  exact Prog.only_ite _ _ _ _ (fun _ => dropUdp_noBogon _ nofun)
    (fun _ => checkUdpLimits_noBogon key destPort now cfg pktBytes)

theorem checkUdpFlow_noBogon (pktBytes : U64) :
    Prog.Only NoBogon (checkUdpFlow key pktBytes now cfg : DpProg P XdpAction) := by
  have hpass : Prog.Only NoBogon (passUdp : DpProg P XdpAction) := count_noBogon _ _ nofun
  have hnew := checkUdpNew_noBogon (P := P) key key.destPort now cfg pktBytes
  refine ⟨nofun, fun found => ?_⟩
  cases found with
  | none => exact hnew
  | some lastSeen =>
    refine ⟨nofun, fun stamp => Prog.only_ite _ _ _ _ (fun _ => ?_) (fun _ => ⟨nofun, fun _ => hnew⟩)⟩
    exact Prog.only_ite _ _ _ _ (fun _ => ⟨nofun, fun _ => hpass⟩) (fun _ => hpass)

theorem checkUdp_noBogon (f : Frame) (udp : ℕ) (pktBytes : U64) :
    Prog.Only NoBogon (checkUdp f key udp pktBytes : DpProg P XdpAction) := by
  refine ⟨nofun, fun now => ⟨nofun, fun cfg => Prog.only_ite _ _ _ _ (fun _ => trivial) (fun _ => ?_)⟩⟩
  cases hm : udpMalformedReason f udp with
  | none => exact checkUdpFlow_noBogon key now cfg pktBytes
  | some c =>
    refine dropUdp_noBogon c ?_
    simp only [udpMalformedReason] at hm
    split_ifs at hm <;> obtain rfl := Option.some.inj hm <;> nofun

theorem dispatchToSlot_noBogon (ipProto : U8) :
    Prog.Only NoBogon (dispatchToSlot ipProto : DpProg P XdpAction) := by
  refine ⟨nofun, fun _ => ⟨nofun, fun verdict => ?_⟩⟩
  cases verdict with
  | some v => trivial
  | none =>
    refine ⟨nofun, fun cfg => Prog.only_ite _ _ _ _ (fun _ => ?_) (fun _ => count_noBogon _ _ nofun)⟩
    exact ⟨nofun, fun _ => ⟨nofun, fun _ => trivial⟩⟩

theorem checkEcho_noBogon (saddr : Addr) (other : Counter) (h : other ≠ .bogonDrop) :
    Prog.Only NoBogon (checkEcho saddr other : DpProg P XdpAction) := by
  have hpass := count_noBogon (P := P) other .pass h
  refine ⟨nofun, fun trust => Prog.only_ite _ _ _ _ (fun _ => hpass) (fun _ => ?_)⟩
  refine ⟨nofun, fun now => ⟨nofun, fun cfg => ⟨nofun, fun v => ?_⟩⟩⟩
  exact Prog.only_ite _ _ _ _ (fun _ => count_noBogon _ _ nofun) (fun _ => hpass)

theorem dispatchV4_noBogon (f : Frame) (ip trans : ℕ) :
    Prog.Only NoBogon (dispatchV4 f ip trans : DpProg P XdpAction) := by
  have hpass := count_noBogon (P := P) .ipv4Other .pass nofun
  refine Prog.only_ite _ _ _ _ (fun _ => checkTcp_noBogon _ f _) (fun _ => ?_)
  refine Prog.only_ite _ _ _ _ (fun _ => checkUdp_noBogon _ f _ _) (fun _ => ?_)
  refine Prog.only_ite _ _ _ _ (fun _ => ?_) (fun _ => ?_)
  · refine Prog.only_ite _ _ _ _ (fun _ => hpass) (fun _ => ?_)
    refine Prog.only_ite _ _ _ _ (fun _ => hpass) (fun _ => ?_)
    exact Prog.only_ite _ _ _ _ (fun _ => checkEcho_noBogon _ _ nofun) (fun _ => hpass)
  · refine Prog.only_ite _ _ _ _ (fun _ => ?_) (fun _ => dispatchToSlot_noBogon _)
    exact ⟨nofun, fun _ => Prog.only_ite _ _ _ _ (fun _ => hpass) (fun _ => count_noBogon _ _ nofun)⟩

theorem dispatchV6_noBogon (f : Frame) (ip : ℕ) (nexthdr : U8) (trans : ℕ) :
    Prog.Only NoBogon (dispatchV6 f ip nexthdr trans : DpProg P XdpAction) := by
  have hpass := count_noBogon (P := P) .ipv6Other .pass nofun
  refine Prog.only_ite _ _ _ _ (fun _ => checkTcp_noBogon _ f _) (fun _ => ?_)
  refine Prog.only_ite _ _ _ _ (fun _ => checkUdp_noBogon _ f _ _) (fun _ => ?_)
  refine Prog.only_ite _ _ _ _ (fun _ => ?_) (fun _ => dispatchToSlot_noBogon _)
  refine Prog.only_ite _ _ _ _ (fun _ => hpass) (fun _ => ?_)
  exact Prog.only_ite _ _ _ _ (fun _ => checkEcho_noBogon _ _ nofun) (fun _ => hpass)

end Spared

/-! The place of the test. -/

/-- The run drops its packet and counts it as a bogon. -/
def DropsAsBogon (p : DpProg CtRef XdpAction) (w : World) : Prop :=
  (Prog.exec serial p w).1 = .drop ∧
    ∃ c ∈ Prog.trace serial p w [], c.op = .count .bogonDrop

theorem dropsAsBogon_op (o : DpOp CtRef) (k : o.Res → DpProg CtRef XdpAction) (w : World)
    (ho : NoBogon o) :
    DropsAsBogon (.op o k) w ↔ DropsAsBogon (k (serial o w).1) (serial o w).2 := by
  have htrace : Prog.trace serial (.op o k) w [] =
      Prog.trace serial (k (serial o w).1) (serial o w).2 [] ++ [⟨o, (serial o w).1⟩] :=
    Prog.trace_append serial (k (serial o w).1) (serial o w).2 [_]
  unfold DropsAsBogon
  rw [htrace]
  constructor
  · rintro ⟨hdrop, c, hc, hcount⟩
    refine ⟨hdrop, c, (List.mem_append.mp hc).resolve_right fun hlast => ?_, hcount⟩
    obtain rfl := List.mem_singleton.mp hlast
    exact ho hcount
  · rintro ⟨hdrop, c, hc, hcount⟩
    exact ⟨hdrop, c, List.mem_append_left _ hc, hcount⟩

/-- A program that counts no bogon drops nothing as one. -/
theorem not_dropsAsBogon (p : DpProg CtRef XdpAction) (w : World) (hp : Prog.Only NoBogon p) :
    ¬DropsAsBogon p w := by
  induction p generalizing w with
  | ret a => exact fun ⟨_, c, hc, _⟩ => absurd hc nofun
  | op o k ih =>
    rw [dropsAsBogon_op o k w hp.1]
    exact ih _ _ (hp.2 _)

theorem dropsAsBogon_drop (w : World) : DropsAsBogon (dropOther .bogonDrop) w :=
  ⟨rfl, _, List.mem_singleton_self _, rfl⟩

/-- `bogon_filter_active()` in this state of the maps. -/
def BogonActive (w : World) : Prop :=
  (w.maps.runtimeCfg.all fun cfg => cfg.cfgFlags &&& xdpCfgFlagBogonDisabled == 0) = true

/-- The test itself, in front of the rest of the program. -/
theorem dropsAsBogon_test (w : World) (c : Bool) (rest : DpProg CtRef XdpAction)
    (hactive : BogonActive w) (hrest : Prog.Only NoBogon rest) :
    DropsAsBogon (do
      if (← bogonFilterActive) && c then dropOther .bogonDrop
      else rest) w ↔ c = true := by
  have hnext : DropsAsBogon (do
      if (← bogonFilterActive) && c then dropOther .bogonDrop
      else rest) w ↔ DropsAsBogon
      (if (w.maps.runtimeCfg.all fun cfg => cfg.cfgFlags &&& xdpCfgFlagBogonDisabled == 0) && c
        then dropOther .bogonDrop else rest) w :=
    dropsAsBogon_op .runtimeCfg _ w (by exact nofun)
  unfold BogonActive at hactive
  rw [hnext, hactive, Bool.true_and]
  cases c with
  | true => exact iff_of_true (dropsAsBogon_drop w) rfl
  | false => exact iff_of_false (not_dropsAsBogon rest w hrest) nofun

/-! Packets as either backend sees them. -/

/-- `IPPROTO_AH`. -/
def ipprotoAh : U8 := 51

/-- `exthdr frag exists`: the first fragment header behind at most `fuel` extension
headers, which the kernel walks through without a bound of its own. -/
def exthdrFragExists (f : Frame) : ℕ → ℕ → U8 → Bool
  | 0, _, _ => false
  | fuel+1, off, nexthdr =>
    if nexthdr == ipprotoFragment then decide (off + 8 ≤ f.length)
    else if off + 2 > f.length then false
    else if nexthdr == ipprotoAh then
      exthdrFragExists f fuel (off + ((f.byte (off+1)).toNat + 2)*4) (f.byte off)
    else if isOptionsHdr nexthdr then
      exthdrFragExists f fuel (off + ((f.byte (off+1)).toNat + 1)*8) (f.byte off)
    else false

/-- The frame carries an IP header behind some VLAN tags, and the input chain sees
that header in `p`. An extension header has at least eight bytes, so the length of
the frame bounds their number. -/
inductive CarriesIp (f : Frame) (p : NftPacket) : Prop
  | v4 (tags l3 : ℕ) (heth : 14 ≤ f.length) (htags : VlanTags f tags (f.be16 12) 14 ethPIp l3)
      (hip : l3 + 20 ≤ f.length) (hihl : 20 ≤ ipHlen f l3)
      (hsaddr : p.saddr = .v4 (f.be32 (l3+12))) (hfrag : p.fragOff = f.be16 (l3+6))
      (hexthdr : p.exthdrFrag = false)
  | v6 (tags l3 : ℕ) (heth : 14 ≤ f.length) (htags : VlanTags f tags (f.be16 12) 14 ethPIpv6 l3)
      (hip : l3 + 40 ≤ f.length) (hsaddr : p.saddr = .v6 (f.be128 (l3+8)))
      (hexthdr : p.exthdrFrag = exthdrFragExists f f.length (l3+40) (f.byte (l3+6)))

def isBogon : Addr → Bool
  | .v4 a => isBogonV4 a
  | .v6 a => isBogonV6 a

/-- The XDP program ends before it tests the source: too many VLAN tags, a fragment,
no next header (or a header chain cut short), neighbour discovery. -/
def bogonExempt (f : Frame) : Bool :=
  match stripVlanTags f vlanMaxDepth (f.be16 12) 14 with
  | none => true
  | some (ethProto, l3) =>
    if ethProto = ethPIp then isFragmentV4 f l3
    else if ethProto = ethPIpv6 then
      let (nexthdr, l4) := skipIpv6Exthdr f ipv6ExthdrMax (l3+40) (f.byte (l3+6))
      nexthdr == ipv6FragDropSentinel || nexthdr == ipprotoNone || ndpControl f nexthdr l4
    else true

/-- A fragment rule of the chain takes the packet. -/
def nftFragment (p : NftPacket) : Bool :=
  NftMatch.holds (fun _ _ => false) p .ipFragOff || NftMatch.holds (fun _ _ => false) p .exthdrFrag

/-- The bogon rule of some family decides the packet. -/
def NftDropsAsBogon (meters : NftMeters) (chain : List NftRule) (p : NftPacket) : Prop :=
  ∃ fam, nftDecides meters chain p = some (NftablesBackend.bogonRule fam)

/-! The XDP side. -/

/-- More tags than are stripped leave a VLAN type. -/
theorem stripVlanTags_deep (f : Frame) (n depth : ℕ) (ethProto inner : U16) (off l3 : ℕ)
    (h : VlanTags f n ethProto off inner l3) (hn : depth < n) :
    ∃ e l, stripVlanTags f depth ethProto off = some (e, l) ∧ isVlanProto e = true := by
  induction h generalizing depth with
  | none ethProto l3 hno => exact absurd hn (Nat.not_lt_zero depth)
  | tag n ethProto inner off l3 hvlan hlen rest ih =>
    cases depth with
    | zero => exact ⟨ethProto, off, rfl, hvlan⟩
    | succ depth =>
      have hbound : ¬off + 4 > f.length := Nat.not_lt.mpr hlen
      simp only [stripVlanTags, hvlan, hbound, ↓reduceIte]
      exact ih depth (Nat.lt_of_succ_lt_succ hn)

theorem xdpFwV4_bogon (w : World) (f : Frame) (ip : ℕ) (hactive : BogonActive w)
    (hip : ip + 20 ≤ f.length) (hihl : 20 ≤ ipHlen f ip) :
    DropsAsBogon (xdpFwV4 f ip) w ↔
      isFragmentV4 f ip = false ∧ isBogonV4 (f.be32 (ip+12)) = true := by
  unfold xdpFwV4
  rw [if_neg (Nat.not_lt.mpr hip), if_neg (Nat.not_lt.mpr hihl)]
  by_cases hfrag : isFragmentV4 f ip = true
  · rw [if_pos hfrag]
    exact iff_of_false (not_dropsAsBogon _ w (count_noBogon _ _ nofun)) (by simp [hfrag])
  · rw [if_neg hfrag]
    rw [dropsAsBogon_test w _ _ hactive (dispatchV4_noBogon f ip _)]
    simp only [hfrag, true_and]

theorem xdpFwV6_bogon (w : World) (f : Frame) (ip : ℕ) (hactive : BogonActive w)
    (hip : ip + 40 ≤ f.length) (nexthdr : U8) (l4 : ℕ)
    (hskip : skipIpv6Exthdr f ipv6ExthdrMax (ip+40) (f.byte (ip+6)) = (nexthdr, l4)) :
    DropsAsBogon (xdpFwV6 f ip) w ↔
      (nexthdr == ipv6FragDropSentinel || nexthdr == ipprotoNone || ndpControl f nexthdr l4) = false ∧
        isBogonV6 (f.be128 (ip+8)) = true := by
  unfold xdpFwV6
  rw [if_neg (Nat.not_lt.mpr hip), hskip]
  dsimp only
  by_cases hsent : nexthdr = ipv6FragDropSentinel
  · rw [if_pos hsent]
    exact iff_of_false (not_dropsAsBogon _ w (count_noBogon _ _ nofun)) (by simp [hsent])
  by_cases hnone : nexthdr = ipprotoNone
  · rw [if_neg hsent, if_pos hnone]
    exact iff_of_false (not_dropsAsBogon _ w trivial) (by simp [hnone])
  rw [if_neg hsent, if_neg hnone]
  simp only [Bool.and_assoc]
  rw [dropsAsBogon_test w _ _ hactive (dispatchV6_noBogon f ip nexthdr l4)]
  simp only [hsent, hnone, Bool.and_eq_true, Bool.not_eq_true', Bool.or_eq_false_iff,
    beq_eq_false_iff_ne, ne_eq, not_false_eq_true, true_and]

/-- The run of a frame that carries an IP header. -/
theorem xdpFw_bogon (w : World) (f : Frame) (p : NftPacket) (hactive : BogonActive w)
    (hp : CarriesIp f p) :
    DropsAsBogon (xdpFw f) w ↔ bogonExempt f = false ∧ isBogon p.saddr = true := by
  have hne : ethPIpv6 ≠ ethPIp := by decide
  have hentry (ethProto : U16) (l3 : ℕ) (heth : 14 ≤ f.length)
      (hstrip : stripVlanTags f vlanMaxDepth (f.be16 12) 14 = some (ethProto, l3)) :
      DropsAsBogon (xdpFw f) w ↔ DropsAsBogon
        (if isVlanProto ethProto then dropOther .vlanDrop
        else if ethProto = ethPIp then xdpFwV4 f l3
        else if ethProto = ethPIpv6 then xdpFwV6 f l3
        else passOther .nonIp) w.tick := by
    have hlen : ¬14 > f.length := Nat.not_lt.mpr heth
    simp only [xdpFw, ktimeGetNs_bind, hlen, hstrip, ↓reduceIte]
    exact dropsAsBogon_op .ktimeGetNs _ w (by rintro ⟨⟩)
  have hactive' : BogonActive w.tick := hactive
  -- deeper tags leave a VLAN type on both sides
  have hdeep (e : U16) (l : ℕ) (heth : 14 ≤ f.length) (hvlan : isVlanProto e = true)
      (hstrip : stripVlanTags f vlanMaxDepth (f.be16 12) 14 = some (e, l)) :
      DropsAsBogon (xdpFw f) w ↔ bogonExempt f = false ∧ isBogon p.saddr = true := by
    rw [hentry e l heth hstrip, if_pos hvlan]
    have h4 : e ≠ ethPIp := by rintro rfl; exact absurd hvlan (by decide)
    have h6 : e ≠ ethPIpv6 := by rintro rfl; exact absurd hvlan (by decide)
    have hexempt : bogonExempt f = true := by simp only [bogonExempt, hstrip, h4, h6, ↓reduceIte]
    exact iff_of_false (not_dropsAsBogon _ _ (count_noBogon _ _ (by rintro ⟨⟩))) (by simp [hexempt])
  cases hp with
  | v4 tags l3 heth htags hip hihl hsaddr hfrag hexthdr =>
    by_cases hn : tags ≤ vlanMaxDepth
    · have hstrip := stripVlanTags_tags f tags _ _ _ _ _ htags hn
      rw [hentry _ _ heth hstrip, if_neg (by decide), if_pos rfl,
        xdpFwV4_bogon _ f l3 hactive' hip hihl, hsaddr]
      simp only [bogonExempt, hstrip, ↓reduceIte, isBogon]
    · obtain ⟨e, l, hstrip, hvlan⟩ := stripVlanTags_deep f tags _ _ _ _ _ htags (Nat.not_le.mp hn)
      exact hdeep e l heth hvlan hstrip
  | v6 tags l3 heth htags hip hsaddr hexthdr =>
    by_cases hn : tags ≤ vlanMaxDepth
    · have hstrip := stripVlanTags_tags f tags _ _ _ _ _ htags hn
      cases hskip : skipIpv6Exthdr f ipv6ExthdrMax (l3+40) (f.byte (l3+6)) with
      | mk nexthdr l4 =>
      rw [hentry _ _ heth hstrip, if_neg (by decide), if_neg hne, if_pos rfl,
        xdpFwV6_bogon _ f l3 hactive' hip _ _ hskip, hsaddr]
      simp only [bogonExempt, hstrip, hne, hskip, ↓reduceIte, isBogon]
    · obtain ⟨e, l, hstrip, hvlan⟩ := stripVlanTags_deep f tags _ _ _ _ _ htags (Nat.not_le.mp hn)
      exact hdeep e l heth hvlan hstrip

/-! The nftables side. -/

theorem isBogon_sets (a : Addr) :
    isBogon a = (bogonV4.any (fun k => k.covers a) || bogonV6.any fun k => k.covers a) := by
  have h46 (k : LpmKey) (hk : k ∈ bogonV6) (b : U32) : k.covers (.v4 b) = false := by
    simp only [bogonV6, List.mem_cons, List.not_mem_nil, or_false] at hk
    rcases hk with rfl | rfl | rfl | rfl | rfl | rfl <;> rfl
  have h64 (k : LpmKey) (hk : k ∈ bogonV4) (b : U128) : k.covers (.v6 b) = false := by
    simp only [bogonV4, List.mem_cons, List.not_mem_nil, or_false] at hk
    rcases hk with rfl | rfl | rfl | rfl | rfl | rfl | rfl | rfl | rfl <;> rfl
  cases a with
  | v4 b =>
    have hno : (bogonV6.any fun k => k.covers (.v4 b)) = false :=
      List.any_eq_false.mpr fun k hk => by simp [h46 k hk b]
    rw [hno, Bool.or_false]
    exact isBogonV4_covers b
  | v6 b =>
    have hno : (bogonV4.any fun k => k.covers (.v6 b)) = false :=
      List.any_eq_false.mpr fun k hk => by simp [h64 k hk b]
    rw [hno, Bool.false_or]
    exact isBogonV6_covers b

open NftablesBackend

theorem mem_onlyIf (c : Bool) (rules : List NftRule) (r : NftRule) (h : r ∈ onlyIf c rules) :
    c = true ∧ r ∈ rules := by
  cases c with
  | true => exact ⟨rfl, h⟩
  | false => exact absurd h List.not_mem_nil

theorem mem_bogonRules (cfg : NftConfig) (desired : DesiredState) (r : NftRule)
    (h : r ∈ bogonRules cfg desired) : ∃ fam, bogonRule fam = r := by
  rcases List.mem_append.mp h with h | h
  · exact ⟨.ipv4, (List.mem_singleton.mp (mem_onlyIf _ _ r h).2).symm⟩
  · exact ⟨.ipv6, (List.mem_singleton.mp (mem_onlyIf _ _ r h).2).symm⟩

theorem bogonRule_not_fragment (cfg : NftConfig) (fam : IpFamily) :
    bogonRule fam ∉ fragmentRules cfg := by
  intro h
  rcases List.mem_append.mp h with h | h <;>
  · have heq := List.mem_singleton.mp (mem_onlyIf _ _ _ h).2
    cases fam <;> exact absurd heq nofun

theorem bogonRules_any (meters : NftMeters) (cfg : NftConfig) (desired : DesiredState)
    (p : NftPacket) (hinet : cfg.nftFamily = .inet) (henabled : desired.bogonFilterEnabled = true) :
    nftAny meters p (bogonRules cfg desired) = isBogon p.saddr := by
  have h4 : hasV4 cfg = true := by rw [hasV4, hinet]; rfl
  have h6 : hasV6 cfg = true := by rw [hasV6, hinet]; rfl
  rw [bogonRules, nftAny_append, nftAny_onlyIf, nftAny_onlyIf, h4, h6, henabled, isBogon_sets]
  simp only [nftAny, bogonRule, NftRule.holds, NftMatch.holds, List.any_cons, List.any_nil,
    List.all_cons, List.all_nil, Bool.and_true, Bool.or_false, Bool.true_and]

theorem fragmentRules_any (meters : NftMeters) (cfg : NftConfig) (p : NftPacket)
    (hinet : cfg.nftFamily = .inet) :
    nftAny meters p (fragmentRules cfg) = nftFragment p := by
  have h4 : hasV4 cfg = true := by rw [hasV4, hinet]; rfl
  have h6 : hasV6 cfg = true := by rw [hasV6, hinet]; rfl
  rw [fragmentRules, nftAny_append, nftAny_onlyIf, nftAny_onlyIf, h4, h6]
  simp only [nftAny, nftFragment, NftRule.holds, NftMatch.holds, List.any_cons, List.any_nil,
    List.all_cons, List.all_nil, Bool.and_true, Bool.or_false, Bool.true_and]

theorem nft_bogon (meters : NftMeters) (cfg : NftConfig) (desired : DesiredState) (p : NftPacket)
    (hlo : p.iifname ≠ "lo") (hinet : cfg.nftFamily = .inet)
    (henabled : desired.bogonFilterEnabled = true) :
    NftDropsAsBogon meters (renderRuleset cfg desired) p ↔
      nftFragment p = false ∧ isBogon p.saddr = true := by
  have hloop : loopbackRule.holds meters p = false := by
    simp only [loopbackRule, NftRule.holds, NftMatch.holds, List.all_cons, List.all_nil,
      Bool.and_true, beq_eq_false_iff_ne]
    exact hlo
  have hfrag := fragmentRules_any meters cfg p hinet
  have hbogon := bogonRules_any meters cfg desired p hinet henabled
  -- what the rules after the bogon rules are does not matter
  obtain ⟨rest, hrest⟩ : ∃ rest, renderRuleset cfg desired =
      loopbackRule :: (fragmentRules cfg ++ (bogonRules cfg desired ++ rest)) :=
    ⟨_, by simp only [renderRuleset, List.append_assoc]; rfl⟩
  unfold NftDropsAsBogon
  rw [hrest, nftDecides_cons, hloop, if_neg Bool.false_ne_true]
  cases hf : nftFragment p with
  | true =>
    obtain ⟨r, hr, hdecides⟩ := nftDecides_block meters p _
      (bogonRules cfg desired ++ rest) (hfrag.trans hf)
    refine iff_of_false (fun ⟨fam, h⟩ => ?_) nofun
    obtain rfl := Option.some.inj (hdecides.symm.trans h)
    exact bogonRule_not_fragment cfg fam hr
  | false =>
    rw [nftDecides_skip meters p _ _ (hfrag.trans hf)]
    constructor
    · rintro ⟨fam, h⟩
      have hholds : (bogonRule fam).holds meters p = true := List.find?_some h
      refine ⟨rfl, ?_⟩
      rw [isBogon_sets]
      cases fam <;>
      · simp only [bogonRule, NftRule.holds, NftMatch.holds, List.all_cons, List.all_nil,
          Bool.and_true] at hholds
        simp only [hholds, Bool.true_or, Bool.or_true]
    · rintro ⟨-, h⟩
      obtain ⟨r, hr, hdecides⟩ := nftDecides_block meters p _ rest (hbogon.trans h)
      obtain ⟨fam, rfl⟩ := mem_bogonRules cfg desired r hr
      exact ⟨fam, hdecides⟩

/-- The XDP program and the chain drop a packet that arrives on a real interface as
a bogon in the same cases exactly when its source is no bogon, or the program's
exemptions and the chain's fragment rules take it or leave it together. -/
theorem bogon_agreement (w : World) (f : Frame) (p : NftPacket) (meters : NftMeters)
    (cfg : NftConfig) (desired : DesiredState) (hp : CarriesIp f p) (hlo : p.iifname ≠ "lo")
    (hactive : BogonActive w) (hinet : cfg.nftFamily = .inet)
    (henabled : desired.bogonFilterEnabled = true) :
    (DropsAsBogon (xdpFw f) w ↔ NftDropsAsBogon meters (renderRuleset cfg desired) p) ↔
      (isBogon p.saddr = true → bogonExempt f = nftFragment p) := by
  rw [xdpFw_bogon w f p hactive hp, nft_bogon meters cfg desired p hlo hinet henabled]
  cases isBogon p.saddr with
  | false => exact iff_of_true (by simp only [Bool.false_eq_true, and_false]) nofun
  | true =>
    simp only [and_true, forall_const]
    cases bogonExempt f <;> cases nftFragment p <;> simp

/-- The packet that the input chain sees of a frame with an IPv6 header at `l3` and its
transport header at `l4`, on a real interface. -/
def ipv6Packet (f : Frame) (l3 l4 : ℕ) (l4proto : U8) : NftPacket where
  iifname := "eth0"
  saddr := .v6 (f.be128 (l3+8))
  exthdrFrag := exthdrFragExists f f.length (l3+40) (f.byte (l3+6))
  l4proto := l4proto
  icmpType := f.byte l4

/-- A host with the default runtime configuration, on which the filter is on. -/
def bogonHost : World where
  clock := clockOf [1]

/-- A segment from 2001:db8::1, which no list names. -/
theorem bogon_agreement_segment :
    (DropsAsBogon (xdpFw (ipv6Segment 0 0x02)) bogonHost ↔
      NftDropsAsBogon (fun _ _ => false) (renderRuleset {} { bogonFilterEnabled := true })
        (ipv6Packet (ipv6Segment 0 0x02) 14 54 ipprotoTcp)) :=
  (bogon_agreement bogonHost _ _ (fun _ _ => false) {} { bogonFilterEnabled := true }
    (.v6 0 14 (by decide +kernel) (.none ethPIpv6 14 (by decide)) (by decide +kernel) rfl rfl)
    (by decide +kernel) (by unfold BogonActive; decide +kernel) rfl rfl).mpr (by decide +kernel)

/-- A neighbour solicitation from fe80::1 to ff02::1. -/
def neighbourSolicitation : Frame :=
  List.replicate 12 0 ++ wireU16 ethPIpv6 ++ [0x60, 0, 0, 0, 0, 24, ipprotoIcmpv6, 255] ++
  [0xFE, 0x80] ++ List.replicate 13 0 ++ [1] ++ [0xFF, 0x02] ++ List.replicate 13 0 ++ [1] ++
  135 :: List.replicate 23 0

/-- The program lets a solicitation from a link-local source through, the chain drops
it by its bogon rule. -/
theorem solicitation_disagreement :
    ¬∀ w f p meters cfg desired, CarriesIp f p → p.iifname ≠ "lo" → nftFragment p = false →
      BogonActive w → cfg.nftFamily = .inet → desired.bogonFilterEnabled = true →
      (DropsAsBogon (xdpFw f) w ↔ NftDropsAsBogon meters (renderRuleset cfg desired) p) := by
  intro h
  have hp : CarriesIp neighbourSolicitation (ipv6Packet neighbourSolicitation 14 54 ipprotoIcmpv6) :=
    .v6 0 14 (by decide +kernel) (.none ethPIpv6 14 (by decide)) (by decide +kernel) rfl rfl
  have hagree := h bogonHost _ _ (fun _ _ => false) {} { bogonFilterEnabled := true } hp
    (by decide +kernel) (by decide +kernel) (by unfold BogonActive; decide +kernel) rfl rfl
  have hnft : NftDropsAsBogon (fun _ _ => false) (renderRuleset {} { bogonFilterEnabled := true })
      (ipv6Packet neighbourSolicitation 14 54 ipprotoIcmpv6) :=
    (nft_bogon _ _ _ _ (by decide +kernel) rfl rfl).mpr (by decide +kernel)
  have hxdp : (Prog.exec serial (xdpFw neighbourSolicitation) bogonHost).1 = .pass := by
    decide +kernel
  exact absurd (hxdp.symm.trans (hagree.mpr hnft).1) nofun

end AutoXdp
