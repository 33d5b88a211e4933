import AutoXdp.XdpFirewall
import Mathlib.Tactic.Basic

/-! Default deny: which segments the XDP program lets through. The frame format is
described on its own, by the headers a frame carries, and the parser is proved to
find the TCP header of every such frame. -/
namespace AutoXdp
open AtomicProg

/-! The frame format. -/

/-- `n` VLAN tags lead from an EtherType, with its payload offset, to an inner one. -/
inductive VlanTags (f : Frame) : ℕ → U16 → ℕ → U16 → ℕ → Prop
  | none (ethProto : U16) (l3 : ℕ) (h : isVlanProto ethProto = false) :
      VlanTags f 0 ethProto l3 ethProto l3
  | tag (n : ℕ) (ethProto inner : U16) (off l3 : ℕ) (h : isVlanProto ethProto = true)
      (hlen : off + 4 ≤ f.length) (rest : VlanTags f n (f.be16 (off+2)) (off+4) inner l3) :
      VlanTags f (n+1) ethProto off inner l3

/-- A chain of `n` extension headers that starts at an offset and ends at a TCP
header at `l4`. -/
inductive ExtHeaders (f : Frame) : ℕ → U8 → ℕ → ℕ → Prop
  | tcp (l4 : ℕ) : ExtHeaders f 0 ipprotoTcp l4 l4
  | options (n : ℕ) (nexthdr : U8) (off l4 : ℕ) (h : isOptionsHdr nexthdr = true)
      (hlen : off + ((f.byte (off+1)).toNat + 1)*8 ≤ f.length)
      (rest : ExtHeaders f n (f.byte off) (off + ((f.byte (off+1)).toNat + 1)*8) l4) :
      ExtHeaders f (n+1) nexthdr off l4
  | fragment (n : ℕ) (off l4 : ℕ) (hlen : off + 8 ≤ f.length)
      (h : f.be16 (off+2) &&& 0xFFF8 = 0) (rest : ExtHeaders f n (f.byte off) (off+8) l4) :
      ExtHeaders f (n+1) ipprotoFragment off l4

/-- A complete TCP header of the tuple `key` at `l4`, behind `n` IPv6 extension
headers. -/
inductive CarriesTcp (f : Frame) : ℕ → FlowKey → ℕ → Prop
  | v4 (tags l3 : ℕ) (heth : 14 ≤ f.length) (hmax : tags ≤ vlanMaxDepth)
      (htags : VlanTags f tags (f.be16 12) 14 ethPIp l3) (hip : l3 + 20 ≤ f.length)
      (hihl : 20 ≤ ipHlen f l3) (hproto : f.byte (l3+9) = ipprotoTcp)
      (htcp : l3 + ipHlen f l3 + 20 ≤ f.length) :
      CarriesTcp f 0 (flowKeyV4 f l3 (l3 + ipHlen f l3)) (l3 + ipHlen f l3)
  | v6 (tags n l3 l4 : ℕ) (heth : 14 ≤ f.length) (hmax : tags ≤ vlanMaxDepth)
      (htags : VlanTags f tags (f.be16 12) 14 ethPIpv6 l3) (hip : l3 + 40 ≤ f.length)
      (hext : ExtHeaders f n (f.byte (l3+6)) (l3+40) l4) (htcp : l4 + 20 ≤ f.length) :
      CarriesTcp f n (flowKeyV6 f l3 l4) l4

theorem stripVlanTags_tags (f : Frame) (n depth : ℕ) (ethProto inner : U16) (off l3 : ℕ)
    (h : VlanTags f n ethProto off inner l3) (hn : n ≤ depth) :
    stripVlanTags f depth ethProto off = some (inner, l3) := by
  induction h generalizing depth with
  | none ethProto l3 hno =>
    cases depth with
    | zero => rfl
    | succ depth => simp only [stripVlanTags, hno, Bool.false_eq_true, ↓reduceIte]
  | tag n ethProto inner off l3 hvlan hlen rest ih =>
    cases depth with
    | zero => exact absurd hn (Nat.not_succ_le_zero n)
    | succ depth =>
      have hbound : ¬off + 4 > f.length := Nat.not_lt.mpr hlen
      simp only [stripVlanTags, hvlan, hbound, ↓reduceIte]
      exact ih depth (Nat.le_of_succ_le_succ hn)

theorem skipIpv6Exthdr_chain (f : Frame) (n fuel : ℕ) (nexthdr : U8) (off l4 : ℕ)
    (h : ExtHeaders f n nexthdr off l4) (hn : n ≤ fuel) :
    skipIpv6Exthdr f fuel off nexthdr = (ipprotoTcp, l4) := by
  induction h generalizing fuel with
  | tcp l4 =>
    cases fuel with
    | zero => rfl
    | succ fuel => rfl
  | options n nexthdr off l4 hopt hlen rest ih =>
    cases fuel with
    | zero => exact absurd hn (Nat.not_succ_le_zero n)
    | succ fuel =>
      have hhdr : ¬off + 2 > f.length := by omega
      have hnext : ¬off + ((f.byte (off+1)).toNat + 1)*8 > f.length := Nat.not_lt.mpr hlen
      simp only [skipIpv6Exthdr, hopt, hhdr, hnext, ↓reduceIte]
      exact ih fuel (Nat.le_of_succ_le_succ hn)
  | fragment n off l4 hlen hfirst rest ih =>
    cases fuel with
    | zero => exact absurd hn (Nat.not_succ_le_zero n)
    | succ fuel =>
      have hhdr : ¬off + 8 > f.length := Nat.not_lt.mpr hlen
      have hopt : isOptionsHdr ipprotoFragment = false := by decide
      have hoff : ¬f.be16 (off+2) &&& 0xFFF8 ≠ 0 := fun hne => hne hfirst
      simp only [skipIpv6Exthdr, hopt, hhdr, hoff, beq_self_eq_true, Bool.false_eq_true, ↓reduceIte]
      exact ih fuel (Nat.le_of_succ_le_succ hn)

/-- A walk that ends at TCP followed a chain. -/
theorem skipIpv6Exthdr_sound (f : Frame) (fuel off l4 : ℕ) (nexthdr : U8)
    (h : skipIpv6Exthdr f fuel off nexthdr = (ipprotoTcp, l4)) :
    ∃ n ≤ fuel, ExtHeaders f n nexthdr off l4 := by
  induction fuel generalizing off nexthdr with
  | zero =>
    obtain ⟨rfl, rfl⟩ := Prod.mk.inj h
    exact ⟨0, Nat.le_refl 0, .tcp off⟩
  | succ fuel ih =>
    have hnone : ipprotoNone ≠ ipprotoTcp := by decide
    have hsent : ipv6FragDropSentinel ≠ ipprotoTcp := by decide
    simp only [skipIpv6Exthdr] at h
    split_ifs at h with hopt hhdr hnext hfrag hhdr hoff
    · exact absurd (Prod.mk.inj h).1 hnone
    · exact absurd (Prod.mk.inj h).1 hnone
    · obtain ⟨n, hn, hrest⟩ := ih _ _ h
      exact ⟨n + 1, Nat.succ_le_succ hn, .options n nexthdr off l4 hopt (Nat.not_lt.mp hnext) hrest⟩
    · exact absurd (Prod.mk.inj h).1 hnone
    · exact absurd (Prod.mk.inj h).1 hsent
    · obtain ⟨n, hn, hrest⟩ := ih _ _ h
      obtain rfl : nexthdr = ipprotoFragment := beq_iff_eq.mp hfrag
      exact ⟨n + 1, Nat.succ_le_succ hn,
        .fragment n off l4 (Nat.not_lt.mp hhdr) (not_not.mp hoff) hrest⟩
    · obtain ⟨rfl, rfl⟩ := Prod.mk.inj h
      exact ⟨0, Nat.zero_le _, .tcp off⟩

/-! What lets a segment through. -/

/-- A `FIN` that carries neither `ACK` nor `RST`. -/
def isLoneFin (flags : U8) : Bool :=
  hasFlag flags tcpFlagFin && !hasFlag flags tcpFlagAck && !hasFlag flags tcpFlagRst

/-- `abuseipdb_active()` and the source is on the list, which holds IPv4 only. -/
def onBlocklist (m : Maps) : FlowKey → Bool
  | .v4 _ _ saddr _ =>
    m.runtimeCfg.any (fun cfg => cfg.cfgFlags &&& xdpCfgFlagAbuseipdbEnabled != 0) &&
      isSet (lpmLookup m.abuseipdb (.v4 saddr))
  | .v6 .. => false

/-- The maps that a handler is called on: the slot call has been counted. -/
def World.slotMaps (w : World) : Maps :=
  { w.maps with
    pktCounters := Function.update w.maps.pktCounters .slotCall
      (w.maps.pktCounters .slotCall + 1) }

/-- The handler registered for the port that the flow waits on answers `XDP_PASS`. -/
def HandlerPasses (w : World) (key : FlowKey) : Prop :=
  ∃ port h, w.handlers .tcpPortHandlers port = some h ∧
    w.maps.tcpPd.lookup key = some port ∧ (h w.slotMaps).1 = .pass

/-- The reasons for which the firewall lets a segment of this tuple through. -/
inductive Admitted (w : World) (key : FlowKey) (flags : U8) : Prop
  | tracked (raw : U64) (hl : w.maps.tcpCt.lookup key = some raw)
      (hage : isLoneFin flags = false →
        w.clock (w.reads + 1) - stamp raw ≤ cfgCtTimeoutNs raw w.maps.runtimeCfg)
  | allowed (hsyn : isSynOnly flags = true)
      (h : isSet (lpmLookup w.maps.trusted key.saddr) = true ∨
        (lpmLookup w.maps.tcpAcl key.saddr).any (aclPortMatch · key.destPort) = true)
  | opened (hsyn : isSynOnly flags = true)
      (hwhite : isSet (arrayLookup 65536 w.maps.tcpWhitelist key.destPort) = true)
      (hlist : onBlocklist w.maps key = false)
      (hblk : ∀ til, w.maps.hblk.lookup key.saddr = some til → til ≤ w.clock (w.reads + 3))
      (hlimits : ∃ r, (Prog.exec serial (precheckNewTcpSyn key key.destPort false
        (w.clock (w.reads + 2)) w.maps.runtimeCfg) { w with reads := r }).1 ≠ .drop)
  | handled (h : HandlerPasses w key)

/-! What the checks of one segment let through. -/

section Checks

variable (w : World) (key : FlowKey) (flags : U8) (now : U64) (cfg : Option XdpRuntimeCfg)

@[simp] theorem exec_dropTcp (reason : Counter) :
    (Prog.exec serial (dropTcp reason) w).1 = .drop := rfl

/-- An entry of the flow that this clock reading finds unexpired. -/
def Unexpired : Prop :=
  ∃ raw, w.maps.tcpCt.lookup key = some raw ∧ now - stamp raw ≤ cfgCtTimeoutNs raw cfg

theorem checkTcpRst_pass (destPort : U32)
    (h : (Prog.exec serial (checkTcpRst key flags destPort now cfg) w).1 = .pass) :
    hasFlag flags tcpFlagAck = true ∧ Unexpired w key now cfg := by
  by_cases hack : hasFlag flags tcpFlagAck = true
  · cases hl : w.maps.tcpCt.lookup key with
    | none =>
      have hm : key ∉ w.maps.tcpCt := AList.lookup_eq_none.mp hl
      simp only [checkTcpRst, hack, ctLookup_bind, Prog.exec_op, serial, Maps.ct, hm,
        Bool.not_true, Bool.false_eq_true, ↓reduceIte, exec_dropTcp, reduceCtorEq] at h
    | some raw =>
      have hm : key ∈ w.maps.tcpCt := AList.lookup_isSome.mp (by rw [hl]; rfl)
      by_cases hage : now - stamp raw > cfgCtTimeoutNs raw cfg
      · simp only [checkTcpRst, hack, ctLookup_bind, ctLoad_bind, Prog.exec_op, serial, Maps.ct, hm,
          World.ctLoad, hl, Option.getD_some, hage, Bool.not_true, Bool.false_eq_true, ↓reduceIte,
          Prog.exec_bind, exec_dropTcp, reduceCtorEq] at h
      · exact ⟨hack, raw, hl, BitVec.not_lt.mp hage⟩
  · simp only [checkTcpRst, hack, count_bind, Prog.exec_op, Prog.pure_eq, Prog.exec_ret,
      Bool.not_false, ↓reduceIte, reduceCtorEq] at h

theorem checkTcpAck_pass (destPort : U32)
    (h : (Prog.exec serial (checkTcpAck key flags destPort now cfg) w).1 = .pass) :
    Unexpired w key now cfg ∨ HandlerPasses w key := by
  cases hl : w.maps.tcpCt.lookup key with
  | none =>
    right
    have hm : key ∉ w.maps.tcpCt := AList.lookup_eq_none.mp hl
    cases hpd : w.maps.tcpPd.lookup key with
    | none =>
      simp only [checkTcpAck, ctLookup_bind, tcpPending_bind, Prog.exec_op, serial, Maps.ct, hm,
        ↓reduceIte, hpd, exec_dropTcp, reduceCtorEq] at h
    | some port =>
      cases hh : w.handlers .tcpPortHandlers port with
      | none =>
        simp only [checkTcpAck, ctLookup_bind, tcpPending_bind, tryPortDispatch, count_bind,
          tailCall_bind, Prog.exec_op, serial, Maps.ct, hm, ↓reduceIte, hpd, hh, exec_dropTcp,
          reduceCtorEq] at h
      | some hd =>
        simp only [checkTcpAck, ctLookup_bind, tcpPending_bind, tryPortDispatch, count_bind,
          tailCall_bind, Prog.exec_op, serial, Maps.ct, hm, ↓reduceIte, hpd, hh, Prog.pure_eq,
          Prog.exec_ret] at h
        exact ⟨port, hd, hh, hpd, h⟩
  | some raw =>
    left
    have hm : key ∈ w.maps.tcpCt := AList.lookup_isSome.mp (by rw [hl]; rfl)
    by_cases hage : now - stamp raw > cfgCtTimeoutNs raw cfg
    · simp only [checkTcpAck, ctLookup_bind, ctLoad_bind, Prog.exec_op, serial, Maps.ct, hm,
        World.ctLoad, hl, Option.getD_some, hage, ↓reduceIte, Prog.exec_bind, exec_dropTcp,
        reduceCtorEq] at h
    · exact ⟨raw, hl, BitVec.not_lt.mp hage⟩

theorem checkTcpFin_pass (destPort : U32)
    (h : (Prog.exec serial (checkTcpFin key destPort now) w).1 = .pass) :
    ∃ raw, w.maps.tcpCt.lookup key = some raw := by
  cases hl : w.maps.tcpCt.lookup key with
  | none =>
    have hm : key ∉ w.maps.tcpCt := AList.lookup_eq_none.mp hl
    simp only [checkTcpFin, ctLookup_bind, count_bind, Prog.exec_op, serial, Maps.ct, hm,
      ↓reduceIte, Prog.pure_eq, Prog.exec_ret, reduceCtorEq] at h
  | some raw => exact ⟨raw, rfl⟩

theorem exec_abuseipdbBlocks :
    Prog.exec serial (abuseipdbBlocks key) w = (onBlocklist w.maps key, w) := by
  cases hcfg : w.maps.runtimeCfg.any
      (fun cfg => cfg.cfgFlags &&& xdpCfgFlagAbuseipdbEnabled != 0) with
  | false =>
    simp only [abuseipdbBlocks, abuseipdbActive, runtimeCfg_bind, Prog.op_bind, Prog.pure_eq,
      Prog.ret_bind, Prog.exec_op, serial, hcfg, Bool.false_eq_true, ↓reduceIte, Prog.exec_ret]
    cases key <;> simp only [onBlocklist, hcfg, Bool.false_and]
  | true =>
    cases key <;>
    simp only [abuseipdbBlocks, abuseipdbActive, isAbuseipdbV4, abuseipdb_bind, runtimeCfg_bind,
      Prog.op_bind, Prog.pure_eq, Prog.ret_bind, Prog.exec_op, serial, hcfg, ↓reduceIte,
      Prog.exec_ret, onBlocklist, Bool.true_and]

/-- A source without a block entry takes no second clock reading. -/
theorem exec_isHandlerBlocked :
    ∃ r, Prog.exec serial (isHandlerBlocked key) w =
      ((w.maps.hblk.lookup key.saddr).any fun til => decide (w.clock w.reads < til),
        { w with reads := r }) := by
  cases hb : w.maps.hblk.lookup key.saddr with
  | none =>
    refine ⟨w.reads, ?_⟩
    simp only [isHandlerBlocked, hblk_bind, Prog.exec_op, serial, hb, Prog.pure_eq, Prog.exec_ret,
      Option.any_none]
  | some til =>
    refine ⟨w.reads + 1, ?_⟩
    simp only [isHandlerBlocked, hblk_bind, ktimeGetNs_bind, Prog.exec_op, serial, hb, Prog.pure_eq,
      Prog.exec_ret, Option.any_some]
    rfl

/-- What `check_tcp_conntrack` asks of a lone `SYN`. -/
structure Opens : Prop where
  white : isSet (arrayLookup 65536 w.maps.tcpWhitelist key.destPort) = true
  list : onBlocklist w.maps key = false
  blk : ∀ til, w.maps.hblk.lookup key.saddr = some til → til ≤ w.clock w.reads
  limits : ∃ r, (Prog.exec serial (precheckNewTcpSyn key key.destPort false now cfg)
    { w with reads := r }).1 ≠ .drop

theorem checkTcpSyn_pass
    (h : (Prog.exec serial (checkTcpSyn key key.destPort now cfg) w).1 = .pass) :
    Opens w key now cfg := by
  obtain ⟨r, hblocked⟩ := exec_isHandlerBlocked w key
  by_cases hwhite : isSet (arrayLookup 65536 w.maps.tcpWhitelist key.destPort) = true
  · simp only [checkTcpSyn, whitelist_bind, Prog.exec_op, serial, Maps.whitelist, hwhite,
      Bool.not_true, Bool.false_eq_true, ↓reduceIte] at h
    simp only [Prog.exec_bind, Prog.exec_ite, exec_abuseipdbBlocks, hblocked] at h
    split_ifs at h with hlist hblk hlimits
    · exact absurd h (by rintro ⟨⟩)
    · exact absurd h (by rintro ⟨⟩)
    · exact absurd h (by rintro ⟨⟩)
    refine ⟨hwhite, (Bool.not_eq_true _).mp hlist, fun til htil => ?_, r, hlimits⟩
    rw [htil, Option.any_some, decide_eq_true_eq] at hblk
    exact BitVec.not_lt.mp hblk
  · simp only [checkTcpSyn, whitelist_bind, count_bind, Prog.exec_op, serial, Maps.whitelist, hwhite,
      Bool.not_false, ↓reduceIte, Prog.pure_eq, Prog.exec_ret, reduceCtorEq] at h

theorem checkTcpConntrack_pass
    (h : (Prog.exec serial (checkTcpConntrack key flags key.destPort) w).1 = .pass) :
    (hasFlag flags tcpFlagAck = true ∧
      (Unexpired w key (w.clock w.reads) w.maps.runtimeCfg ∨ HandlerPasses w key)) ∨
    (isLoneFin flags = true ∧ ∃ raw, w.maps.tcpCt.lookup key = some raw) ∨
    (isSynOnly flags = true ∧ Opens w.tick key (w.clock w.reads) w.maps.runtimeCfg) := by
  simp only [checkTcpConntrack, ktimeGetNs_bind, runtimeCfg_bind, Prog.exec_op, serial] at h
  by_cases hrst : hasFlag flags tcpFlagRst = true
  · simp only [hrst, ↓reduceIte] at h
    obtain ⟨hack, hlive⟩ := checkTcpRst_pass _ key flags _ _ _ h
    exact Or.inl ⟨hack, Or.inl hlive⟩
  by_cases hack : hasFlag flags tcpFlagAck = true
  · simp only [hrst, hack, Bool.false_eq_true, ↓reduceIte] at h
    exact Or.inl ⟨hack, checkTcpAck_pass w.tick key flags _ _ _ h⟩
  by_cases hfin : hasFlag flags tcpFlagFin = true
  · simp only [hrst, hack, hfin, Bool.false_eq_true, ↓reduceIte] at h
    refine Or.inr (Or.inl ⟨?_, checkTcpFin_pass w.tick key _ _ h⟩)
    simp only [isLoneFin, hfin, hack, hrst, Bool.not_false, Bool.and_self]
  by_cases hsyn : isSynOnly flags = true
  · simp only [hrst, hack, hfin, hsyn, Bool.false_eq_true, ↓reduceIte] at h
    exact Or.inr (Or.inr ⟨hsyn, checkTcpSyn_pass w.tick key _ _ h⟩)
  · simp only [hrst, hack, hfin, hsyn, Bool.false_eq_true, ↓reduceIte, count_bind, Prog.exec_op,
      Prog.pure_eq, Prog.exec_ret, reduceCtorEq] at h

end Checks

/-! Whole segments and whole frames. -/

section Segments

variable (w : World) (key : FlowKey) (flags : U8)

/-- The segment check, when the frame's own clock reading was taken. -/
theorem checkTcpFlow_pass (h : (Prog.exec serial (checkTcpFlow key flags) w.tick).1 = .pass) :
    Admitted w key flags := by
  by_cases hsyn : isSynOnly flags = true
  · simp only [checkTcpFlow, hsyn, ↓reduceIte, ktimeGetNs_bind, runtimeCfg_bind, Prog.exec_op, serial,
      isTrusted, trusted_bind, Prog.op_bind, Prog.pure_eq, Prog.ret_bind, acl_bind, World.tick] at h
    by_cases htrusted : isSet (lpmLookup w.maps.trusted key.saddr) = true
    · exact .allowed hsyn (Or.inl htrusted)
    simp only [htrusted, Bool.false_eq_true, ↓reduceIte, Prog.exec_op, serial, Maps.acl] at h
    by_cases hacl : (lpmLookup w.maps.tcpAcl key.saddr).any (aclPortMatch · key.destPort) = true
    · exact .allowed hsyn (Or.inr hacl)
    simp only [hacl, Bool.false_eq_true, ↓reduceIte] at h
    rcases checkTcpConntrack_pass _ key flags h with ⟨hack, -⟩ | ⟨hfin, raw, hl⟩ | ⟨-, hopens⟩
    · rw [isSynOnly, hack, Bool.not_true, Bool.and_false] at hsyn
      exact absurd hsyn (by rintro ⟨⟩)
    · exact .tracked raw hl fun hno => absurd (hno.symm.trans hfin) (by rintro ⟨⟩)
    · exact .opened hsyn hopens.white hopens.list hopens.blk hopens.limits
  · simp only [checkTcpFlow, hsyn, Bool.false_eq_true, ↓reduceIte] at h
    rcases checkTcpConntrack_pass _ key flags h with ⟨-, hlive | hhandled⟩ | ⟨hfin, raw, hl⟩ | ⟨hyes, -⟩
    · obtain ⟨raw, hl, hage⟩ := hlive
      exact .tracked raw hl fun _ => hage
    · exact .handled hhandled
    · exact .tracked raw hl fun hno => absurd (hno.symm.trans hfin) (by rintro ⟨⟩)
    · exact absurd hyes hsyn

theorem checkTcp_pass (f : Frame) (tcp : ℕ) (w' : World)
    (h : (Prog.exec serial (checkTcp f key tcp) w').1 = .pass) :
    (Prog.exec serial (checkTcpFlow key (tcpFlags f tcp)) w').1 = .pass := by
  by_cases hlen : tcp + 20 > f.length
  · simp only [checkTcp, hlen, ↓reduceIte, Prog.pure_eq, Prog.exec_ret, reduceCtorEq] at h
  cases hm : tcpMalformedReason f tcp with
  | none => simpa only [checkTcp, hlen, ↓reduceIte, hm] using h
  | some c =>
    simp only [checkTcp, hlen, ↓reduceIte, hm, count_bind, ktimeGetNs_bind, Prog.exec_op, Prog.pure_eq,
      Prog.exec_ret, reduceCtorEq] at h

/-- A frame that carries a TCP header passes only if the segment check lets it pass. -/
theorem xdpFw_carriesTcp (f : Frame) (n l4 : ℕ) (hf : CarriesTcp f n key l4)
    (hn : n ≤ ipv6ExthdrMax) (h : (Prog.exec serial (xdpFw f) w).1 = .pass) :
    (Prog.exec serial (checkTcpFlow key (tcpFlags f l4)) w.tick).1 = .pass := by
  cases hf with
  | v4 tags l3 heth hmax htags hip hihl hproto htcp =>
    have hvlan : isVlanProto ethPIp = false := by decide
    simp only [xdpFw, ktimeGetNs_bind, Prog.exec_op, Nat.not_lt.mpr heth, gt_iff_lt,
      ↓reduceIte, stripVlanTags_tags f tags vlanMaxDepth _ _ _ _ htags hmax, hvlan,
      Bool.false_eq_true, xdpFwV4, Nat.not_lt.mpr hip, Nat.not_lt.mpr hihl, bogonFilterActive,
      runtimeCfg_bind, Prog.op_bind, Prog.pure_eq, Prog.ret_bind, dispatchV4, hproto,
      Prog.exec_ite] at h
    split_ifs at h
    · exact absurd h nofun
    · exact absurd h nofun
    · exact checkTcp_pass _ f _ w.tick h
  | v6 tags n l3 l4 heth hmax htags hip hext htcp =>
    have hvlan : isVlanProto ethPIpv6 = false := by decide
    have hip4 : ethPIpv6 ≠ ethPIp := by decide
    have hsent : ipprotoTcp ≠ ipv6FragDropSentinel := by decide
    have hnone : ipprotoTcp ≠ ipprotoNone := by decide
    simp only [xdpFw, ktimeGetNs_bind, Prog.exec_op, Nat.not_lt.mpr heth, gt_iff_lt,
      ↓reduceIte, stripVlanTags_tags f tags vlanMaxDepth _ _ _ _ htags hmax, hvlan, hip4, hsent, hnone,
      Bool.false_eq_true, xdpFwV6, Nat.not_lt.mpr hip, bogonFilterActive,
      skipIpv6Exthdr_chain f n ipv6ExthdrMax _ _ _ hext hn,
      runtimeCfg_bind, Prog.op_bind, Prog.pure_eq, Prog.ret_bind, dispatchV6, Prog.exec_ite] at h
    split_ifs at h
    · exact absurd h nofun
    · exact checkTcp_pass _ f _ w.tick h

/-- A frame that carries a complete TCP header behind at most six extension headers
passes only for one of the reasons of `Admitted`. -/
theorem default_deny (f : Frame) (n l4 : ℕ) (hf : CarriesTcp f n key l4)
    (hn : n ≤ ipv6ExthdrMax) (h : (Prog.exec serial (xdpFw f) w).1 = .pass) :
    Admitted w key (tcpFlags f l4) :=
  checkTcpFlow_pass w key _ (xdpFw_carriesTcp w key f n l4 hf hn h)

end Segments

/-- An IPv6 segment from 2001:db8::1 to port 80, behind `n` extension headers. -/
def ipv6Segment (n : ℕ) (flags : U8) : Frame :=
  let addr : List U8 := [0x20, 0x01, 0x0d, 0xb8] ++ List.replicate 11 0 ++ [1]
  List.replicate 12 0 ++ wireU16 ethPIpv6 ++
  [0x60, 0, 0, 0, 0, 0, if n = 0 then ipprotoTcp else ipprotoDstopts, 64] ++ addr ++ addr ++
  ((List.range n).flatMap fun i =>
    (if i + 1 = n then ipprotoTcp else ipprotoDstopts) :: List.replicate 7 0) ++
  wireU16 40000 ++ wireU16 80 ++ List.replicate 8 0 ++ [0x50, flags] ++ List.replicate 6 0

theorem ipv6Segment_carriesTcp (n : ℕ) (flags : U8) (l4 fuel : ℕ)
    (hlen : l4 + 20 ≤ (ipv6Segment n flags).length)
    (htype : (ipv6Segment n flags).be16 12 = ethPIpv6) (hip : 14 + 40 ≤ (ipv6Segment n flags).length)
    (hskip : skipIpv6Exthdr (ipv6Segment n flags) fuel (14+40) ((ipv6Segment n flags).byte (14+6)) =
      (ipprotoTcp, l4)) :
    ∃ m ≤ fuel, CarriesTcp (ipv6Segment n flags) m (flowKeyV6 (ipv6Segment n flags) 14 l4) l4 := by
  obtain ⟨m, hm, hext⟩ := skipIpv6Exthdr_sound _ _ _ _ _ hskip
  refine ⟨m, hm, .v6 0 m 14 l4 (by omega) (Nat.zero_le _) ?_ hip hext hlen⟩
  rw [htype]
  exact .none ethPIpv6 14 (by decide)

/-- A host that accepts TCP on every port, or on none. -/
def portHost (allow : U32) : World where
  maps := { tcpWhitelist := fun _ => allow }
  clock := clockOf [1]

/-- A `SYN` behind six extension headers to an open port. -/
theorem default_deny_six_headers :
    (Prog.exec serial (xdpFw (ipv6Segment 6 0x02)) (portHost 1)).1 = .pass ∧
      Admitted (portHost 1) (flowKeyV6 (ipv6Segment 6 0x02) 14 102)
        (tcpFlags (ipv6Segment 6 0x02) 102) := by
  obtain ⟨m, hm, hcarries⟩ := ipv6Segment_carriesTcp 6 0x02 102 6 (by decide +kernel)
    (by decide +kernel) (by decide +kernel) (by decide +kernel)
  have hpass : (Prog.exec serial (xdpFw (ipv6Segment 6 0x02)) (portHost 1)).1 = .pass := by
    decide +kernel
  exact ⟨hpass, default_deny (portHost 1) _ (ipv6Segment 6 0x02) m 102 hcarries hm hpass⟩

/-- A `SYN` behind seven extension headers passes a host without open ports. -/
theorem default_deny_seven_headers :
    ¬∀ w key f n l4, CarriesTcp f n key l4 → (Prog.exec serial (xdpFw f) w).1 = .pass →
      Admitted w key (tcpFlags f l4) := by
  intro h
  obtain ⟨m, -, hcarries⟩ := ipv6Segment_carriesTcp 7 0x02 110 7 (by decide +kernel)
    (by decide +kernel) (by decide +kernel) (by decide +kernel)
  have hpass : (Prog.exec serial (xdpFw (ipv6Segment 7 0x02)) (portHost 0)).1 = .pass := by
    decide +kernel
  cases h (portHost 0) _ _ m 110 hcarries hpass with
  | tracked raw hl => exact absurd hl nofun
  | allowed _ hallow =>
    revert hallow
    decide +kernel
  | opened _ hwhite =>
    revert hwhite
    decide +kernel
  | handled hhandled =>
    obtain ⟨port, hd, hreg, -⟩ := hhandled
    exact absurd hreg nofun

end AutoXdp
