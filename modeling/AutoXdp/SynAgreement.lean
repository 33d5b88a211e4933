import AutoXdp.BogonFilter
import AutoXdp.FirstReconcile
import AutoXdp.LpmSets
import Mathlib.Tactic.Basic

/-! Which lone `SYN`s the XDP program lets through over the maps of a first
reconcile, and which the input chain of the same desired state accepts. -/
namespace AutoXdp
open AtomicProg StateSteps

/-! What the desired state says of a source. -/

namespace DesiredState

variable (desired : DesiredState) (a : Addr) (port : U16)

def trusts : Bool := desired.trustedCidrs.any fun k => k.covers a

def opens : Bool := desired.tcpPorts.contains (port.setWidth 32)

/-- Some TCP rule that covers the source lists the port. -/
def ruleLists : Bool :=
  (dictItems desired.aclRules).any fun e =>
    e.1.1 == "tcp" && e.1.2.covers a && e.2.contains port

/-- The ports of the TCP rule with the longest prefix that covers the source. -/
def specificRule : Option (List U16) :=
  (List.range (a.bits + 1)).reverse.findSome? fun n =>
    desired.aclRules.lookup ("tcp", ⟨n, a.network n⟩)

/-- The longest prefix lists the port among as many as a map value holds. -/
def specificRuleLists : Bool :=
  (desired.specificRule a).any fun ports => (ports.take aclMaxPorts).contains port

end DesiredState

/-! The maps of a first reconcile. -/

theorem aclFold_lookup (rules : List ((String × LpmKey) × List U16)) (t : BpfMap LpmKey AclVal)
    (hnodup : (rules.map Prod.fst).Nodup) (hnetwork : ∀ e ∈ rules, e.1.2.normalize = e.1.2)
    (k : LpmKey) (ports : Option (List U16))
    (hports : ports = (rules.find? fun e => e.1 = ("tcp", k)).map Prod.snd) :
    (rules.foldl (aclInsert .tcp) t).lookup k =
      (ports.map BpfAclMaps.packVal).or (t.lookup k) := by
  induction rules generalizing t ports with
  | nil => rw [hports]; rfl
  | cons e rules ih =>
    rw [List.map_cons, List.nodup_cons] at hnodup
    have hrest : ∀ e ∈ rules, e.1.2.normalize = e.1.2 :=
      fun e he => hnetwork e (List.mem_cons_of_mem _ he)
    rw [List.foldl_cons, ih _ hnodup.2 hrest _ rfl, hports, List.find?_cons]
    have htcp (proto : String) : BpfAclMaps.mapFor proto = .tcp ↔ proto = "tcp" := by
      unfold BpfAclMaps.mapFor
      split_ifs with h <;> simp [h]
    by_cases he : e.1 = ("tcp", k)
    · -- the key does not come again
      have hnone : rules.find? (fun e => decide (e.1 = ("tcp", k))) = none := by
        rw [List.find?_eq_none]
        intro e' he' heq
        rw [decide_eq_true_eq] at heq
        exact hnodup.1 (List.mem_map.mpr ⟨e', he', heq.trans he.symm⟩)
      have hnorm : k.normalize = k := by
        have h := hnetwork e List.mem_cons_self
        rwa [he] at h
      simp [aclInsert, htcp, he, hnone, hnorm]
    · have hskip : (aclInsert .tcp t e).lookup k = t.lookup k := by
        unfold aclInsert
        split_ifs with hp
        · rw [hnetwork e List.mem_cons_self]
          apply AList.lookup_insert_ne
          rintro rfl
          exact he (Prod.ext ((htcp _).mp hp) rfl)
        · rfl
      rw [hskip, decide_eq_false he]

theorem lookup_eq_find {κ ν : Type} [DecidableEq κ] (t : BpfMap κ ν) (k : κ) :
    t.lookup k = ((dictItems t).find? fun e => e.1 = k).map Prod.snd := by
  cases h : (dictItems t).find? fun e => e.1 = k with
  | none =>
    rw [Option.map_none, AList.lookup_eq_none]
    intro hmem
    obtain ⟨v, hv⟩ := Option.isSome_iff_exists.mp (AList.lookup_isSome.mpr hmem)
    rw [List.find?_eq_none] at h
    exact h (k, v) ((mem_dictItems t _).mpr hv) (by simp)
  | some e =>
    have hk : e.1 = k := by simpa using List.find?_some h
    rw [Option.map_some, ← hk]
    exact (mem_dictItems t e).mp (List.mem_of_find?_eq_some h)

section Reconciled

variable {cfg : Config} {desired : DesiredState} {m : Maps} (hm : FirstMaps cfg desired m)
  (hsound : desired.Sound)

include hm hsound

theorem lpm_trusted (a : Addr) : isSet (lpmLookup m.trusted a) = desired.trusts a := by
  have hlookup (key : LpmKey) : m.trusted.lookup key =
      if ∃ k ∈ desired.trustedCidrs, k.normalize = key then some 1 else none := by
    rw [hm.trusted, trustedFold_lookup]
    rfl
  have hlisted (key : LpmKey) : (∃ k ∈ desired.trustedCidrs, k.normalize = key) ↔
      key ∈ desired.trustedCidrs := by
    constructor
    · rintro ⟨k, hk, rfl⟩
      rw [(hsound.trusted k hk).1]
      exact hk
    · exact fun hk => ⟨key, hk, (hsound.trusted key hk).1⟩
  simp only [hlisted] at hlookup
  rw [Bool.eq_iff_iff, DesiredState.trusts, List.any_eq_true,
    isSet_lpmLookup m.trusted (· ∈ desired.trustedCidrs) hlookup hsound.trusted]

theorem lpm_acl (a : Addr) :
    lpmLookup m.tcpAcl a = (desired.specificRule a).map BpfAclMaps.packVal := by
  rw [lpmLookup, DesiredState.specificRule, List.map_findSome?, hm.acl]
  congr 1
  funext n
  have hnodup : ((dictItems desired.aclRules).map Prod.fst).Nodup := by
    rw [dictItems, List.map_map]
    exact desired.aclRules.nodupKeys
  have hnetwork : ∀ e ∈ dictItems desired.aclRules, e.1.2.normalize = e.1.2 := by
    intro e he
    have hkey : e.1 ∈ desired.aclRules.keys :=
      AList.mem_keys.mp (AList.lookup_isSome.mp (by rw [(mem_dictItems _ e).mp he]; rfl))
    exact (hsound.acl e.1 hkey).1
  rw [aclFold_lookup _ _ hnodup hnetwork _ _ (lookup_eq_find _ _)]
  exact Option.or_none

end Reconciled

theorem aclPortMatch_packVal (ports : List U16) (port : U16) :
    aclPortMatch (BpfAclMaps.packVal ports) (port.setWidth 32) =
      (ports.take aclMaxPorts).contains port := by
  have hlen : (ports.take aclMaxPorts).length ≤ aclMaxPorts := List.length_take_le _ _
  have hcount : (BitVec.ofNat 32 (ports.take aclMaxPorts).length).toNat =
      (ports.take aclMaxPorts).length := by
    rw [BitVec.toNat_ofNat]
    apply Nat.mod_eq_of_lt
    exact Nat.lt_of_le_of_lt hlen (by decide)
  have hport : (port.setWidth 32).setWidth 16 = port := by
    apply BitVec.eq_of_toNat_eq
    rw [BitVec.toNat_setWidth, BitVec.toNat_setWidth]
    omega
  unfold aclPortMatch BpfAclMaps.packVal
  dsimp only
  rw [hcount, List.take_take, Nat.min_eq_left hlen, List.take_left, hport]
  exact List.any_beq'

/-! The segment check over such maps. -/

section Segment

variable (w : World) (key : FlowKey)

theorem precheck_unlimited (destPort : U32) (bypassRate : Bool) (now : U64)
    (cfg : Option XdpRuntimeCfg) (hpolicy : w.maps.tcpPortPolicies.lookup destPort = none) :
    Prog.exec serial (precheckNewTcpSyn key destPort bypassRate now cfg) w = (.pass, w) := by
  have hpol : w.tcpPolicy destPort = none := by rw [World.tcpPolicy, hpolicy, Option.map_none]
  -- a zero limit passes and writes nothing
  have hzero (q : Limiter) (hq : ∀ l, q.run l = (.pass, l)) (reason : Counter)
      (rest : DpProg CtRef XdpAction) :
      Prog.exec serial (limitOr q reason rest) w = Prog.exec serial rest w := by
    simp only [limitOr, limit_bind, Prog.exec_op, serial, hq, World.setLimits, reduceCtorEq,
      ↓reduceIte]
  have hlast : Prog.exec serial (return .pass : DpProg CtRef XdpAction) w = (.pass, w) := rfl
  unfold precheckNewTcpSyn
  rw [tcpPolicy_bind, Prog.exec_op]
  simp only [serial, hpol, Option.getD_none, noTcpPolicy, Prog.exec_ite]
  split_ifs
  · rw [hzero _ fun _ => rfl, hzero _ fun _ => rfl, hzero _ fun _ => rfl, hlast]
  · rw [hzero _ fun _ => rfl, hzero _ fun _ => rfl, hzero _ fun _ => rfl, hzero _ fun _ => rfl,
      hzero _ fun _ => rfl, hlast]

theorem allowNewTcpSyn_new (bypassRate prechecked : Bool) (now : U64) (cfg : Option XdpRuntimeCfg)
    (hpolicy : w.maps.tcpPortPolicies.lookup key.destPort = none)
    (hct : w.maps.tcpCt.lookup key = none) :
    (Prog.exec serial (allowNewTcpSyn key key.destPort bypassRate prechecked now cfg) w).1 =
      .pass := by
  have hm : key ∉ w.maps.tcpCt := AList.lookup_eq_none.mp hct
  unfold allowNewTcpSyn
  rw [ctLookup_bind, Prog.exec_op]
  simp only [serial, Maps.ct, hm, ↓reduceIte, insertHalfOpen]
  cases prechecked with
  | true => rfl
  | false =>
    simp only [Bool.false_eq_true, ↓reduceIte, Prog.exec_bind,
      precheck_unlimited w key key.destPort bypassRate now cfg hpolicy]
    rfl

/-- What the maps say of an unblocked source whose port has no handler decides its
first `SYN`. -/
structure Unhindered (w : World) (key : FlowKey) : Prop where
  policy : w.maps.tcpPortPolicies.lookup key.destPort = none
  ct : w.maps.tcpCt.lookup key = none
  list : onBlocklist w.maps key = false
  blk : ∀ til, w.maps.hblk.lookup key.saddr = some til → ∀ i ≥ w.reads, til ≤ w.clock i
  handler : w.handlers .tcpPortHandlers key.destPort = none

theorem checkTcpSyn_pass_iff (now : U64) (cfg : Option XdpRuntimeCfg) (h : Unhindered w key) :
    (Prog.exec serial (checkTcpSyn key key.destPort now cfg) w).1 = .pass ↔
      isSet (arrayLookup 65536 w.maps.tcpWhitelist key.destPort) = true := by
  constructor
  · intro hpass
    exact (checkTcpSyn_pass w key now cfg hpass).white
  · intro hwhite
    obtain ⟨r, hblocked⟩ := exec_isHandlerBlocked w key
    have hfree : ((w.maps.hblk.lookup key.saddr).any fun til => decide (w.clock w.reads < til)) =
        false := by
      cases hb : w.maps.hblk.lookup key.saddr with
      | none => rfl
      | some til => exact decide_eq_false (BitVec.not_lt.mpr (h.blk til hb _ (Nat.le_refl _)))
    rw [hfree] at hblocked
    have hpre := precheck_unlimited { w with reads := r } key key.destPort false now cfg h.policy
    simp only [checkTcpSyn, whitelist_bind, Prog.exec_op, serial, Maps.whitelist, hwhite,
      Bool.not_true, Bool.false_eq_true, ↓reduceIte, Prog.exec_bind, exec_abuseipdbBlocks, h.list,
      hblocked, hpre, reduceCtorEq, tryPortDispatch, count_bind, tailCall_bind, h.handler]
    exact allowNewTcpSyn_new _ key false true now cfg h.policy h.ct

theorem checkTcpFlow_pass_iff (flags : U8) (hsyn : isSynOnly flags = true)
    (hfin : hasFlag flags tcpFlagFin = false) (hrst : hasFlag flags tcpFlagRst = false)
    (h : Unhindered w key) :
    (Prog.exec serial (checkTcpFlow key flags) w).1 = .pass ↔
      isSet (lpmLookup w.maps.trusted key.saddr) = true ∨
        (lpmLookup w.maps.tcpAcl key.saddr).any (aclPortMatch · key.destPort) = true ∨
        isSet (arrayLookup 65536 w.maps.tcpWhitelist key.destPort) = true := by
  have hack : hasFlag flags tcpFlagAck = false := by
    rw [isSynOnly, Bool.and_eq_true, Bool.not_eq_true'] at hsyn
    exact hsyn.2
  simp only [checkTcpFlow, hsyn, ↓reduceIte, ktimeGetNs_bind, runtimeCfg_bind, Prog.exec_op, serial,
    isTrusted, trusted_bind, Prog.op_bind, Prog.pure_eq, Prog.ret_bind, acl_bind]
  by_cases htrusted : isSet (lpmLookup w.maps.trusted key.saddr) = true
  · simp only [htrusted, ↓reduceIte, true_or, iff_true]
    exact allowNewTcpSyn_new w.tick key true false _ _ h.policy h.ct
  simp only [htrusted, Bool.false_eq_true, ↓reduceIte, Prog.exec_op, serial, Maps.acl, false_or]
  by_cases hacl : (lpmLookup w.maps.tcpAcl key.saddr).any (aclPortMatch · key.destPort) = true
  · simp only [hacl, ↓reduceIte, true_or, iff_true]
    exact allowNewTcpSyn_new w.tick key true false _ _ h.policy h.ct
  simp only [hacl, Bool.false_eq_true, ↓reduceIte, false_or, checkTcpConntrack, ktimeGetNs_bind,
    runtimeCfg_bind, Prog.exec_op, serial, hrst, hack, hfin, hsyn]
  have hlater : ∀ til, w.maps.hblk.lookup key.saddr = some til →
      ∀ i ≥ w.tick.tick.reads, til ≤ w.clock i :=
    fun til htil i hi => h.blk til htil i (Nat.le_of_succ_le (Nat.le_of_succ_le hi))
  exact checkTcpSyn_pass_iff w.tick.tick key _ _ ⟨h.policy, h.ct, h.list, hlater, h.handler⟩

end Segment

/-! Frames. -/

/-- Extension headers that lead from an offset to a TCP header. -/
inductive TcpChain (f : Frame) : U8 → ℕ → ℕ → Prop
  | tcp (l4 : ℕ) : TcpChain f ipprotoTcp l4 l4
  | options (nexthdr : U8) (off l4 : ℕ) (h : isOptionsHdr nexthdr = true)
      (hlen : off + ((f.byte (off+1)).toNat + 1)*8 ≤ f.length)
      (rest : TcpChain f (f.byte off) (off + ((f.byte (off+1)).toNat + 1)*8) l4) :
      TcpChain f nexthdr off l4
  | fragment (off l4 : ℕ) (hlen : off + 8 ≤ f.length) (h : f.be16 (off+2) &&& 0xFFF8 = 0)
      (rest : TcpChain f (f.byte off) (off+8) l4) : TcpChain f ipprotoFragment off l4
  | ah (off l4 : ℕ) (hlen : off + ((f.byte (off+1)).toNat + 2)*4 ≤ f.length)
      (rest : TcpChain f (f.byte off) (off + ((f.byte (off+1)).toNat + 2)*4) l4) :
      TcpChain f ipprotoAh off l4

/-- A complete TCP header of the tuple `key` at `l4`, behind any number of VLAN tags and
IPv6 extension headers and in no IPv4 fragment; whether the input chain finds a
fragment header on the way. -/
inductive TcpSegment (f : Frame) : FlowKey → ℕ → Bool → Prop
  | v4 (tags l3 : ℕ) (heth : 14 ≤ f.length) (htags : VlanTags f tags (f.be16 12) 14 ethPIp l3)
      (hip : l3 + 20 ≤ f.length) (hihl : 20 ≤ ipHlen f l3) (hwhole : isFragmentV4 f l3 = false)
      (hproto : f.byte (l3+9) = ipprotoTcp) (htcp : l3 + ipHlen f l3 + 20 ≤ f.length) :
      TcpSegment f (flowKeyV4 f l3 (l3 + ipHlen f l3)) (l3 + ipHlen f l3) false
  | v6 (tags l3 l4 : ℕ) (heth : 14 ≤ f.length)
      (htags : VlanTags f tags (f.be16 12) 14 ethPIpv6 l3) (hip : l3 + 40 ≤ f.length)
      (hext : TcpChain f (f.byte (l3+6)) (l3+40) l4) (htcp : l4 + 20 ≤ f.length) :
      TcpSegment f (flowKeyV6 f l3 l4) l4 (exthdrFragExists f f.length (l3+40) (f.byte (l3+6)))

/-- A header type at which `skip_ipv6_exthdr` may stop on its way to TCP. -/
def isExtHdr (nexthdr : U8) : Bool :=
  isOptionsHdr nexthdr || nexthdr == ipprotoFragment || nexthdr == ipprotoAh

/-- The walk reaches the TCP header, or stops on the way. -/
theorem skipIpv6Exthdr_tcpChain (f : Frame) (fuel : ℕ) (nexthdr : U8) (off l4 : ℕ)
    (h : TcpChain f nexthdr off l4) :
    skipIpv6Exthdr f fuel off nexthdr = (ipprotoTcp, l4) ∨
      isExtHdr (skipIpv6Exthdr f fuel off nexthdr).1 = true := by
  induction h generalizing fuel with
  | tcp l4 =>
    left
    cases fuel <;> rfl
  | options nexthdr off l4 hopt hlen rest ih =>
    cases fuel with
    | zero =>
      right
      simp only [skipIpv6Exthdr, isExtHdr, hopt, Bool.true_or]
    | succ fuel =>
      have hhdr : ¬off + 2 > f.length := by omega
      have hnext : ¬off + ((f.byte (off+1)).toNat + 1)*8 > f.length := Nat.not_lt.mpr hlen
      simp only [skipIpv6Exthdr, hopt, hhdr, hnext, ↓reduceIte]
      exact ih fuel
  | fragment off l4 hlen hfirst rest ih =>
    cases fuel with
    | zero => exact Or.inr rfl
    | succ fuel =>
      have hhdr : ¬off + 8 > f.length := Nat.not_lt.mpr hlen
      have hopt : isOptionsHdr ipprotoFragment = false := by decide
      have hoff : ¬f.be16 (off+2) &&& 0xFFF8 ≠ 0 := fun hne => hne hfirst
      simp only [skipIpv6Exthdr, hopt, hhdr, hoff, beq_self_eq_true, Bool.false_eq_true, ↓reduceIte]
      exact ih fuel
  | ah off l4 hlen rest ih =>
    right
    cases fuel <;> rfl

theorem isExtHdr_ne (nexthdr proto : U8) (h : isExtHdr nexthdr = true)
    (hproto : isExtHdr proto = false) : nexthdr ≠ proto := by
  rintro rfl
  exact Bool.false_ne_true (hproto.symm.trans h)

/-- `dispatch_to_slot` passes a packet of this protocol. -/
def slotAdmits (w : World) (proto : U8) : Bool :=
  match w.handlers .protoHandlers (proto.setWidth 32) with
  | some h => (h (serial (.count .slotCall) w).2.maps).1 == .pass
  | none => !w.maps.runtimeCfg.any fun cfg => cfg.cfgFlags &&& xdpCfgFlagSlotDrop != 0

theorem dispatchToSlot_pass_iff (w : World) (proto : U8) :
    (Prog.exec serial (dispatchToSlot proto) w).1 = .pass ↔ slotAdmits w proto = true := by
  unfold dispatchToSlot slotAdmits
  rw [count_bind, Prog.exec_op, tailCall_bind, Prog.exec_op]
  cases hh : w.handlers .protoHandlers (proto.setWidth 32) with
  | some h => simp only [serial, hh, Prog.pure_eq, Prog.exec_ret, beq_iff_eq]
  | none =>
    simp only [serial, hh]
    rw [runtimeCfg_bind, Prog.exec_op]
    change (Prog.exec serial (if w.maps.runtimeCfg.any
      (fun cfg => cfg.cfgFlags &&& xdpCfgFlagSlotDrop != 0) then _ else _) _).1 =
        XdpAction.pass ↔ _
    split_ifs with hdrop
    · rw [hdrop]
      exact iff_of_false (by rintro ⟨⟩) (by rintro ⟨⟩)
    · rw [(Bool.not_eq_true _).mp hdrop]
      exact iff_of_true rfl rfl

/-- The bogon filter is switched off in the maps. -/
def BogonOff (w : World) : Prop :=
  (w.maps.runtimeCfg.all fun cfg => cfg.cfgFlags &&& xdpCfgFlagBogonDisabled == 0) = false

/-- The verdict on such a segment: more tags than are stripped drop it, a walk that
stops on the way leaves it to the slot of the header it stopped at. -/
theorem xdpFw_segment (w : World) (f : Frame) (key : FlowKey) (l4 : ℕ) (frag : Bool)
    (hf : TcpSegment f key l4 frag) (hwell : tcpMalformedReason f l4 = none) (hoff : BogonOff w) :
    (Prog.exec serial (xdpFw f) w).1 = .pass ↔
      ∃ proto, (transport f).map Prod.fst = some proto ∧
        if proto = ipprotoTcp then
          (Prog.exec serial (checkTcpFlow key (tcpFlags f l4)) w.tick).1 = .pass
        else slotAdmits w proto = true := by
  have hbogon (p : DpProg CtRef XdpAction) (c : Bool) (w : World) (hoff : BogonOff w) :
      Prog.exec serial (bogonFilterActive >>= fun b => if b && c then dropOther .bogonDrop else p) w =
        Prog.exec serial p w := by
    unfold BogonOff at hoff
    simp only [bogonFilterActive, runtimeCfg_bind, Prog.op_bind, Prog.pure_eq, Prog.ret_bind,
      Prog.exec_op, serial, hoff, Bool.false_and, Bool.false_eq_true, ↓reduceIte]
  have htick : BogonOff w.tick := hoff
  have hcheck (w : World) (hlen : l4 + 20 ≤ f.length) :
      Prog.exec serial (checkTcp f key l4) w =
        Prog.exec serial (checkTcpFlow key (tcpFlags f l4)) w := by
    unfold checkTcp
    rw [if_neg (Nat.not_lt.mpr hlen), hwell]
  have hentry (heth : 14 ≤ f.length) (e : U16) (l3 : ℕ)
      (hstrip : stripVlanTags f vlanMaxDepth (f.be16 12) 14 = some (e, l3)) :
      Prog.exec serial (xdpFw f) w = Prog.exec serial
        (if isVlanProto e then dropOther .vlanDrop
        else if e = ethPIp then xdpFwV4 f l3
        else if e = ethPIpv6 then xdpFwV6 f l3
        else passOther .nonIp) w.tick := by
    unfold xdpFw
    rw [ktimeGetNs_bind, Prog.exec_op, if_neg (Nat.not_lt.mpr heth), hstrip]
    rfl
  -- too many tags
  have hdeep (heth : 14 ≤ f.length) (e : U16) (l3 : ℕ) (hvlan : isVlanProto e = true)
      (hstrip : stripVlanTags f vlanMaxDepth (f.be16 12) 14 = some (e, l3)) :
      (Prog.exec serial (xdpFw f) w).1 ≠ .pass ∧ transport f = none := by
    have h4 : e ≠ ethPIp := by rintro rfl; exact absurd hvlan (by decide)
    have h6 : e ≠ ethPIpv6 := by rintro rfl; exact absurd hvlan (by decide)
    constructor
    · rw [hentry heth e l3 hstrip, if_pos hvlan]
      rintro ⟨⟩
    · rw [transport, if_neg (Nat.not_lt.mpr heth), hstrip]
      simp only [h4, h6, ↓reduceIte]
  cases hf with
  | v4 tags l3 heth htags hip hihl hwhole hproto htcp =>
    by_cases hn : tags ≤ vlanMaxDepth
    · have hstrip := stripVlanTags_tags f tags _ _ _ _ _ htags hn
      have htransport : transport f =
          some (ipprotoTcp, flowKeyV4 f l3 (l3 + ipHlen f l3), l3 + ipHlen f l3) := by
        rw [transport, if_neg (Nat.not_lt.mpr heth), hstrip]
        simp only [Nat.not_lt.mpr hip, Nat.not_lt.mpr hihl, hwhole, hproto,
          Bool.false_eq_true, or_self, ↓reduceIte]
      rw [htransport, hentry heth _ _ hstrip, if_neg (by decide), if_pos rfl, xdpFwV4,
        if_neg (Nat.not_lt.mpr hip), if_neg (Nat.not_lt.mpr hihl), hwhole,
        if_neg Bool.false_ne_true, hbogon _ _ _ htick, dispatchV4]
      simp only [hproto, ↓reduceIte, hcheck _ htcp, Option.map_some, Option.some.injEq,
        exists_eq_left']
    · obtain ⟨e, l, hstrip, hvlan⟩ := stripVlanTags_deep f tags _ _ _ _ _ htags (Nat.not_le.mp hn)
      obtain ⟨hdrop, hnone⟩ := hdeep heth e l hvlan hstrip
      rw [hnone]
      exact iff_of_false hdrop (by simp)
  | v6 tags l3 l4 heth htags hip hext htcp =>
    by_cases hn : tags ≤ vlanMaxDepth
    · have hstrip := stripVlanTags_tags f tags _ _ _ _ _ htags hn
      cases hskip : skipIpv6Exthdr f ipv6ExthdrMax (l3+40) (f.byte (l3+6)) with
      | mk nexthdr off =>
      have hends := skipIpv6Exthdr_tcpChain f ipv6ExthdrMax _ _ _ hext
      rw [hskip, Prod.mk.injEq] at hends
      have hne (proto : U8) (htcp : ipprotoTcp ≠ proto) (hproto : isExtHdr proto = false) :
          nexthdr ≠ proto := by
        rcases hends with ⟨rfl, -⟩ | hstop
        · exact htcp
        · exact isExtHdr_ne nexthdr proto hstop hproto
      have hsent := hne ipv6FragDropSentinel (by decide) (by decide)
      have hnone := hne ipprotoNone (by decide) (by decide)
      have htransport : (transport f).map Prod.fst = some nexthdr := by
        rw [transport, if_neg (Nat.not_lt.mpr heth), hstrip]
        simp only [show ethPIpv6 ≠ ethPIp by decide, Nat.not_lt.mpr hip, hskip, hsent, hnone, or_self,
          ↓reduceIte, Option.map_some]
      rw [htransport, hentry heth _ _ hstrip, if_neg (by decide), if_neg (by decide), if_pos rfl,
        xdpFwV6, if_neg (Nat.not_lt.mpr hip), hskip]
      dsimp only
      rw [if_neg hsent, if_neg hnone]
      simp only [Bool.and_assoc, Option.some.injEq, exists_eq_left']
      rw [hbogon _ _ _ htick, dispatchV6]
      by_cases hreach : nexthdr = ipprotoTcp
      · obtain ⟨-, rfl⟩ := hends.resolve_right (by
          change ¬isExtHdr nexthdr = true
          rw [hreach]
          decide)
        rw [if_pos hreach, if_pos hreach, hcheck _ htcp]
      · rw [if_neg hreach, if_neg (hne ipprotoUdp (by decide) (by decide)),
          if_neg (hne ipprotoIcmpv6 (by decide) (by decide)), if_neg hreach,
          dispatchToSlot_pass_iff]
        rfl
    · obtain ⟨e, l, hstrip, hvlan⟩ := stripVlanTags_deep f tags _ _ _ _ _ htags (Nat.not_le.mp hn)
      obtain ⟨hdrop, hnone⟩ := hdeep heth e l hvlan hstrip
      rw [hnone]
      exact iff_of_false hdrop (by simp)

/-! The input chain. -/

open NftablesBackend

/-- What the input chain sees of a segment that belongs to no known connection. -/
def tcpPacket (iifname : String) (key : FlowKey) (flags : U8) (exthdrFrag : Bool) : NftPacket where
  iifname := iifname
  saddr := key.saddr
  exthdrFrag := exthdrFrag
  l4proto := ipprotoTcp
  sport := key.sport
  dport := key.dport
  tcpFlags := flags

/-- The chain does not ask further: the loopback interface, or a family whose packets
the table does not see. -/
def nftUnasked (cfg : NftConfig) (p : NftPacket) : Bool :=
  p.iifname == "lo" || !familyFlag cfg p.saddr.family

/-- The rendered ruleset lets a packet through. -/
def nftAdmits (meters : NftMeters) (cfg : NftConfig) (desired : DesiredState) (p : NftPacket) :
    Bool :=
  !familyFlag cfg p.saddr.family || nftVerdict meters (renderRuleset cfg desired) p == .accept

section Chain

variable (meters : NftMeters) (cfg : NftConfig) (desired : DesiredState) (p : NftPacket)

theorem trustedSet_any (fam : IpFamily) (hfam : p.saddr.family = fam) :
    ((trustedSet desired fam).any fun k => k.covers p.saddr) = desired.trusts p.saddr := by
  rw [trustedSet, DesiredState.trusts, List.any_filter]
  congr 1
  funext k
  cases hcovers : k.covers p.saddr with
  | false => rw [Bool.and_false]
  | true => rw [covers_family k p.saddr hcovers, hfam, beq_self_eq_true, Bool.and_true]

theorem trustedSet_none (fam : IpFamily) (hfam : p.saddr.family ≠ fam) :
    ((trustedSet desired fam).any fun k => k.covers p.saddr) = false := by
  rw [List.any_eq_false]
  intro k hk hcovers
  rw [trustedSet, List.mem_filter, beq_iff_eq] at hk
  exact hfam ((covers_family k p.saddr hcovers).symm.trans hk.2)

/-- The ACL rules of one family that match a lone `SYN`. -/
theorem aclRules_any (fam : IpFamily) (hproto : p.l4proto = ipprotoTcp)
    (hsyn : p.tcpFlags &&& 0x12 = 0x02) :
    nftAny meters p (aclRules desired .tcp fam) =
      (p.saddr.family == fam && desired.ruleLists p.saddr p.dport) := by
  have hports (ports : List U16) :
      (ports.map BitVec.toNat).contains p.dport.toNat = ports.contains p.dport := by
    rw [Bool.eq_iff_iff, List.contains_iff_mem, List.contains_iff_mem, List.mem_map]
    constructor
    · rintro ⟨q, hq, heq⟩
      exact BitVec.eq_of_toNat_eq heq ▸ hq
    · exact fun h => ⟨_, h, rfl⟩
  rw [Bool.eq_iff_iff, Bool.and_eq_true, beq_iff_eq, DesiredState.ruleLists, List.any_eq_true, nftAny,
    List.any_eq_true]
  simp only [aclRules, List.mem_map, List.mem_filter, Bool.and_eq_true, beq_iff_eq]
  constructor
  · rintro ⟨r, ⟨e, ⟨he, ⟨htcp, hfam⟩, -⟩, rfl⟩, hr⟩
    simp only [NftRule.holds, NftMatch.holds, synOnly, List.all_cons, List.all_nil, List.any_cons,
      List.any_nil, Bool.and_true, Bool.or_false, Bool.and_eq_true, hports] at hr
    exact ⟨(covers_family _ _ hr.1).symm.trans hfam, e, he, ⟨htcp, hr.1⟩, hr.2.2.2⟩
  · rintro ⟨hfam, e, he, ⟨htcp, hcovers⟩, hport⟩
    have hne : (!e.2.isEmpty) = true := by
      cases hl : e.2 with
      | nil => rw [hl] at hport; exact absurd hport (by rintro ⟨⟩)
      | cons => rfl
    refine ⟨_, ⟨e, ⟨he, ⟨htcp, (covers_family _ _ hcovers).trans hfam⟩, hne⟩, rfl⟩, ?_⟩
    simp only [NftRule.holds, NftMatch.holds, synOnly, List.all_cons, List.all_nil, List.any_cons,
      List.any_nil, Bool.and_true, Bool.or_false, hports, hcovers, hproto, hsyn, hport,
      beq_self_eq_true]

theorem tcpAllowRules_any (fam : IpFamily) (hproto : p.l4proto = ipprotoTcp)
    (hsyn : p.tcpFlags &&& 0x12 = 0x02) :
    nftAny meters p (tcpAllowRules desired fam) =
      (p.saddr.family == fam && (desired.trusts p.saddr || desired.ruleLists p.saddr p.dport)) := by
  have hacl := aclRules_any meters desired p fam hproto hsyn
  rw [nftAny] at hacl ⊢
  rw [tcpAllowRules, List.any_cons, hacl]
  simp only [NftRule.holds, NftMatch.holds, synOnly, List.all_cons, List.all_nil, Bool.and_true,
    hproto, hsyn, beq_self_eq_true]
  by_cases hfam : p.saddr.family = fam
  · rw [trustedSet_any desired p fam hfam, hfam, beq_self_eq_true, Bool.true_and, Bool.true_and]
  · rw [trustedSet_none desired p fam hfam, beq_false_of_ne hfam, Bool.false_and, Bool.false_and,
      Bool.or_false]

theorem nftVerdict_skip (rules rest : List NftRule) (h : nftAny meters p rules = false) :
    nftVerdict meters (rules ++ rest) p = nftVerdict meters rest p := by
  rw [nftVerdict, nftDecides_skip meters p rules rest h, nftVerdict]

theorem fragmentRules_seen (hfamily : familyFlag cfg p.saddr.family = true) :
    nftAny meters p (fragmentRules cfg) = nftFragment p := by
  rw [fragmentRules, nftAny_append, nftAny_onlyIf, nftAny_onlyIf]
  simp only [nftAny, nftFragment, NftRule.holds, NftMatch.holds, List.any_cons, List.any_nil,
    List.all_cons, List.all_nil, Bool.and_true, Bool.or_false]
  cases hfam : p.saddr.family with
  | ipv4 =>
    have h4 : hasV4 cfg = true := by rwa [hfam] at hfamily
    have hne : (IpFamily.ipv4 == IpFamily.ipv6) = false := rfl
    simp [h4, hne]
  | ipv6 =>
    have h6 : hasV6 cfg = true := by rwa [hfam] at hfamily
    have hne : (IpFamily.ipv6 == IpFamily.ipv4) = false := rfl
    simp [h6, hne]

theorem fragmentRules_drop (r : NftRule) (h : r ∈ fragmentRules cfg) : r.verdict = .drop := by
  rcases List.mem_append.mp h with h | h <;>
  · rw [List.mem_singleton.mp (mem_onlyIf _ _ r h).2]

/-- Limits of zero give no rules. -/
theorem tcpPolicyRules_nil (fam : IpFamily) (hlimits : desired.Unlimited) :
    tcpPolicyRules desired fam = [] := by
  have hnone (limits : BpfMap U32 U32) (hmem : limits ∈ [desired.tcpSynRateLimits,
      desired.tcpSynAggRateLimits, desired.tcpConnLimits, desired.tcpConnPrefixLimits,
      desired.tcpConnPortLimits, desired.udpRateLimits, desired.udpAggRateLimits]) (port : U32)
      (exprs : List NftMatch) (limit : ℕ → NftLimit) : limitRule limits port exprs limit = [] := by
    have hzero : ((limits.lookup port).getD 0).toNat = 0 := by
      cases hl : limits.lookup port with
      | none => rfl
      | some n => rw [Option.getD_some, hlimits limits hmem port n hl]; rfl
    simp only [limitRule, hzero, onlyIf, Nat.lt_irrefl, decide_false, Bool.false_eq_true, ↓reduceIte]
  rw [tcpPolicyRules, List.flatMap_eq_nil_iff]
  intro port _
  simp only [tcpPortRules, hnone desired.tcpSynRateLimits (by simp),
    hnone desired.tcpSynAggRateLimits (by simp), hnone desired.tcpConnLimits (by simp),
    hnone desired.tcpConnPrefixLimits (by simp), hnone desired.tcpConnPortLimits (by simp),
    List.append_nil]

/-- The rules that let a `SYN` in. -/
def tcpAccepts : List NftRule :=
  onlyIf (hasV4 cfg) (tcpAllowRules desired .ipv4) ++
  onlyIf (hasV6 cfg) (tcpAllowRules desired .ipv6) ++
  [⟨[synOnly, .dport ipprotoTcp (portSet desired.tcpPorts)], .accept⟩]

theorem tcpAccepts_verdict (r : NftRule) (h : r ∈ tcpAccepts cfg desired) : r.verdict = .accept := by
  have hallow (fam : IpFamily) (h : r ∈ tcpAllowRules desired fam) : r.verdict = .accept := by
    rcases List.mem_cons.mp h with rfl | h
    · rfl
    · obtain ⟨e, -, rfl⟩ := List.mem_map.mp h
      rfl
  rcases List.mem_append.mp h with h | h
  · rcases List.mem_append.mp h with h | h
    · exact hallow .ipv4 (mem_onlyIf _ _ r h).2
    · exact hallow .ipv6 (mem_onlyIf _ _ r h).2
  · rw [List.mem_singleton.mp h]

theorem portSet_contains (ports : List U32) (port : U16) :
    (portSet ports).contains port.toNat = ports.contains (port.setWidth 32) := by
  rw [Bool.eq_iff_iff, List.contains_iff_mem, List.contains_iff_mem, portSet, List.mem_map]
  have hwidth : (port.setWidth 32).toNat = port.toNat := by
    rw [BitVec.toNat_setWidth]
    exact Nat.mod_eq_of_lt (by omega)
  constructor
  · rintro ⟨q, hq, heq⟩
    rwa [← BitVec.eq_of_toNat_eq (heq.trans hwidth.symm)]
  · exact fun h => ⟨_, h, hwidth⟩

theorem tcpAccepts_any (hfamily : familyFlag cfg p.saddr.family = true)
    (hproto : p.l4proto = ipprotoTcp) (hsyn : p.tcpFlags &&& 0x12 = 0x02) :
    nftAny meters p (tcpAccepts cfg desired) =
      (desired.trusts p.saddr || desired.ruleLists p.saddr p.dport || desired.opens p.dport) := by
  have hopen : nftAny meters p [⟨[synOnly, .dport ipprotoTcp (portSet desired.tcpPorts)], .accept⟩] =
      desired.opens p.dport := by
    simp only [nftAny, NftRule.holds, NftMatch.holds, synOnly, List.any_cons, List.any_nil,
      List.all_cons, List.all_nil, Bool.and_true, Bool.or_false, hproto, hsyn, beq_self_eq_true,
      Bool.true_and, portSet_contains, DesiredState.opens]
  rw [tcpAccepts, nftAny_append, nftAny_append, nftAny_onlyIf, nftAny_onlyIf, hopen,
    tcpAllowRules_any meters desired p .ipv4 hproto hsyn,
    tcpAllowRules_any meters desired p .ipv6 hproto hsyn]
  cases hfam : p.saddr.family with
  | ipv4 =>
    have h4 : hasV4 cfg = true := by rwa [hfam] at hfamily
    have hne : (IpFamily.ipv4 == IpFamily.ipv6) = false := rfl
    simp [h4, hne]
  | ipv6 =>
    have h6 : hasV6 cfg = true := by rwa [hfam] at hfamily
    have hne : (IpFamily.ipv6 == IpFamily.ipv4) = false := rfl
    simp [h6, hne]

/-- The verdict on a well-formed lone `SYN` of no known connection, without limits and
with the bogon filter off. -/
theorem nftVerdict_syn (hlo : p.iifname ≠ "lo") (hfamily : familyFlag cfg p.saddr.family = true)
    (hproto : p.l4proto = ipprotoTcp) (hsyn : p.tcpFlags &&& 0x12 = 0x02)
    (hnew : p.ctState = .new) (hwell : nftAny meters p malformedRules = false)
    (hlimits : desired.Unlimited) (hbogon : desired.bogonFilterEnabled = false) :
    nftVerdict meters (renderRuleset cfg desired) p = .accept ↔
      nftFragment p = false ∧ (desired.trusts p.saddr || desired.ruleLists p.saddr p.dport ||
        desired.opens p.dport) = true := by
  have hloop : nftAny meters p [loopbackRule] = false := by
    simpa [nftAny, loopbackRule, NftRule.holds, NftMatch.holds] using hlo
  have hct : nftAny meters p ctRules = false := by
    simp only [nftAny, ctRules, NftRule.holds, NftMatch.holds, hnew, List.any_cons, List.any_nil,
      List.all_cons, List.all_nil]
    rfl
  have hnobogon : bogonRules cfg desired = [] := by
    simp only [bogonRules, onlyIf, hbogon, Bool.and_false, Bool.false_eq_true, ↓reduceIte,
      List.append_nil]
  have htcp : tcpRules cfg desired =
      tcpAccepts cfg desired ++ [⟨[.l4proto ipprotoTcp], .drop⟩] := by
    simp only [tcpRules, tcpAccepts, tcpPolicyRules_nil desired _ hlimits, onlyIf, ite_self,
      List.append_nil, List.append_assoc, List.cons_append, List.nil_append]
  obtain ⟨rest, hrest⟩ : ∃ rest, renderRuleset cfg desired =
      [loopbackRule] ++ (fragmentRules cfg ++ (malformedRules ++ (ctRules ++
        (tcpAccepts cfg desired ++ ([⟨[.l4proto ipprotoTcp], .drop⟩] ++ rest))))) := by
    refine ⟨udpRules cfg desired ++ sctpRules desired ++ icmpRules cfg desired ++ sit4Rules cfg ++
      [slotRule cfg], ?_⟩
    simp only [renderRuleset, hnobogon, htcp, List.append_nil, List.append_assoc, List.cons_append,
      List.nil_append]
  rw [hrest, nftVerdict_skip meters p _ _ hloop]
  cases hfrag : nftFragment p with
  | true =>
    have hany := (fragmentRules_seen meters cfg p hfamily).trans hfrag
    rw [nftVerdict_block meters p _ _ .drop (fragmentRules_drop cfg) hany]
    exact iff_of_false (by rintro ⟨⟩) fun h => absurd h.1 (by rintro ⟨⟩)
  | false =>
    rw [nftVerdict_skip meters p _ _ ((fragmentRules_seen meters cfg p hfamily).trans hfrag),
      nftVerdict_skip meters p _ _ hwell, nftVerdict_skip meters p _ _ hct]
    have haccepts := tcpAccepts_any meters cfg desired p hfamily hproto hsyn
    rw [← haccepts]
    cases hany : nftAny meters p (tcpAccepts cfg desired) with
    | true =>
      rw [nftVerdict_block meters p _ _ .accept (tcpAccepts_verdict cfg desired) hany]
      exact iff_of_true rfl ⟨rfl, rfl⟩
    | false =>
      -- the last rule drops what is left of TCP
      have hdrop : nftAny meters p [⟨[.l4proto ipprotoTcp], .drop⟩] = true := by
        simp [nftAny, NftRule.holds, NftMatch.holds, hproto]
      rw [nftVerdict_skip meters p _ _ hany, nftVerdict_block meters p _ _ .drop (by simp) hdrop]
      exact iff_of_false (by rintro ⟨⟩) fun h => absurd h.2 (by rintro ⟨⟩)

end Chain

/-! Both backends on one segment. -/

/-- The maps that the daemon writes are as it left them. -/
structure Installed (m : Maps) (w : World) : Prop where
  whitelist : w.maps.tcpWhitelist = m.tcpWhitelist
  trusted : w.maps.trusted = m.trusted
  acl : w.maps.tcpAcl = m.tcpAcl
  policies : w.maps.tcpPortPolicies = m.tcpPortPolicies
  runtime : w.maps.runtimeCfg = m.runtimeCfg

/-- No conntrack entry, block or handler concerns the segment. -/
structure Unclaimed (w : World) (key : FlowKey) : Prop where
  ct : w.maps.tcpCt.lookup key = none
  list : onBlocklist w.maps key = false
  blk : ∀ til, w.maps.hblk.lookup key.saddr = some til → ∀ i ≥ w.reads, til ≤ w.clock i
  handler : w.handlers .tcpPortHandlers key.destPort = none

/-- Where the two backends agree. Where the program reads the TCP header and the chain
is asked about a whole packet, a rule that lists the port must be the most specific one
of the source and list it among its first ports, unless the source is trusted or the
port open. The other cases: a packet the chain does not ask about, one with an IPv6
fragment header, and one whose TCP header the program does not reach. -/
def SynsAgree (w : World) (f : Frame) (key : FlowKey) (frag unasked : Bool)
    (desired : DesiredState) : Prop :=
  let plain := desired.trusts key.saddr || desired.opens key.dport
  let listed := desired.ruleLists key.saddr key.dport
  match (transport f).map Prod.fst with
  | none => unasked = false ∧ (frag = false → plain = false ∧ listed = false)
  | some proto =>
    if proto = ipprotoTcp then
      let found := plain = true ∨ desired.specificRuleLists key.saddr key.dport = true
      if unasked then found
      else if frag then ¬found
      else listed = true → found
    else slotAdmits w proto = (unasked || !frag && (plain || listed))

theorem syn_flags : ∀ flags : U8, isSynOnly flags = true → flags &&& 0x03 ≠ 0x03 →
    flags &&& 0x06 ≠ 0x06 → hasFlag flags tcpFlagFin = false ∧ hasFlag flags tcpFlagRst = false ∧
      flags &&& 0x12 = 0x02 := by
  decide +kernel

theorem wellFormed_flags (f : Frame) (l4 : ℕ) (hwell : tcpMalformedReason f l4 = none) :
    f.be16 l4 ≠ 0 ∧ f.be16 (l4+2) ≠ 0 ∧ tcpFlags f l4 ≠ 0 ∧ tcpFlags f l4 &&& 0x03 ≠ 0x03 ∧
      tcpFlags f l4 &&& 0x06 ≠ 0x06 ∧ tcpFlags f l4 &&& 0x05 ≠ 0x05 ∧
      tcpFlags f l4 &&& 0x29 ≠ 0x29 := by
  unfold tcpMalformedReason at hwell
  dsimp only at hwell
  split_ifs at hwell with hdoff hlen hport hnull h3 h6 h5 h29
  rw [not_or] at hport
  exact ⟨hport.1, hport.2, hnull, h3, h6, h5, h29⟩

/-- The malformed rules ask what `tcp_malformed_reason` asks. -/
theorem malformedRules_none (meters : NftMeters) (iifname : String) (f : Frame) (key : FlowKey)
    (l4 : ℕ) (frag : Bool) (hf : TcpSegment f key l4 frag)
    (hwell : tcpMalformedReason f l4 = none) :
    nftAny meters (tcpPacket iifname key (tcpFlags f l4) frag) malformedRules = false := by
  obtain ⟨hsport, hdport, hnull, h3, h6, h5, h29⟩ := wellFormed_flags f l4 hwell
  have hports : key.sport = f.be16 l4 ∧ key.dport = f.be16 (l4+2) := by
    cases hf <;> exact ⟨rfl, rfl⟩
  have hzero (port : U16) (h : port ≠ 0) : ([0] : List ℕ).contains port.toNat = false := by
    rw [List.contains_eq_mem, decide_eq_false_iff_not, List.mem_singleton]
    exact fun hz => h (BitVec.eq_of_toNat_eq hz)
  have hall : tcpFlags f l4 &&& 0xFF = tcpFlags f l4 := BitVec.and_allOnes
  have hudp : (ipprotoTcp == ipprotoUdp) = false := by decide
  simp only [nftAny, malformedRules, tcpPacket, NftRule.holds, NftMatch.holds, List.any_cons,
    List.any_nil, List.all_cons, List.all_nil, hports.1, hports.2, hzero _ hsport, hzero _ hdport,
    hall, hudp, beq_eq_false_iff_ne.mpr hnull, beq_eq_false_iff_ne.mpr h3,
    beq_eq_false_iff_ne.mpr h6, beq_eq_false_iff_ne.mpr h5, beq_eq_false_iff_ne.mpr h29,
    Bool.and_false, Bool.false_and, Bool.or_false]

theorem nftAdmits_syn (meters : NftMeters) (cfg : NftConfig) (desired : DesiredState)
    (iifname : String) (f : Frame) (key : FlowKey) (l4 : ℕ) (frag : Bool)
    (hf : TcpSegment f key l4 frag) (hwell : tcpMalformedReason f l4 = none)
    (hsyn : isSynOnly (tcpFlags f l4) = true) (hlimits : desired.Unlimited)
    (hbogon : desired.bogonFilterEnabled = false) :
    nftAdmits meters cfg desired (tcpPacket iifname key (tcpFlags f l4) frag) =
      (nftUnasked cfg (tcpPacket iifname key (tcpFlags f l4) frag) ||
        !frag && (desired.trusts key.saddr || desired.ruleLists key.saddr key.dport ||
          desired.opens key.dport)) := by
  set p := tcpPacket iifname key (tcpFlags f l4) frag with hp
  obtain ⟨-, -, -, h3, h6, -, -⟩ := wellFormed_flags f l4 hwell
  have hfrag : nftFragment p = frag := by
    have hoff : (p.fragOff &&& 0x3FFF != 0) = false := by
      change ((0 : U16) &&& 0x3FFF != 0) = false
      decide
    simp only [nftFragment, NftMatch.holds, hoff, Bool.and_false, Bool.false_or]
    cases hf with
    | v4 => rfl
    | v6 => rfl
  rw [Bool.eq_iff_iff]
  by_cases hlo : p.iifname = "lo"
  · have hloop : loopbackRule.holds meters p = true := by
      simp [loopbackRule, NftRule.holds, NftMatch.holds, hlo]
    have haccept : nftVerdict meters (renderRuleset cfg desired) p = .accept := by
      rw [nftVerdict, renderRuleset, nftDecides_cons, if_pos hloop]
      rfl
    simp [nftAdmits, nftUnasked, haccept, hlo]
  cases hfamily : familyFlag cfg p.saddr.family with
  | false => simp [nftAdmits, nftUnasked, hfamily]
  | true =>
    have hverdict := nftVerdict_syn meters cfg desired p hlo hfamily rfl
      (syn_flags _ hsyn h3 h6).2.2 rfl (malformedRules_none meters iifname f key l4 frag hf hwell)
      hlimits hbogon
    rw [hfrag] at hverdict
    have hkey : p.saddr = key.saddr ∧ p.dport = key.dport := ⟨rfl, rfl⟩
    rw [hkey.1, hkey.2] at hverdict
    rw [nftAdmits, nftUnasked, hfamily, beq_eq_false_iff_ne.mpr hlo]
    simp only [Bool.not_true, Bool.false_or, beq_iff_eq, hverdict, Bool.and_eq_true,
      Bool.not_eq_true']

section Agreement

variable {cfg : NftConfig} {desired : DesiredState} {monotonicNs : ℕ → U64} {w : World}
  (hsound : desired.Sound) (hlimits : desired.Unlimited)
  (hmaps : Installed (reconciled cfg.toConfig desired monotonicNs) w)

include hsound hlimits hmaps

theorem installed_maps : FirstMaps cfg.toConfig desired w.maps := by
  have h := reconciled_maps cfg.toConfig desired monotonicNs hsound hlimits
  refine ⟨?_, ?_, ?_, ?_, ?_⟩
  · rw [hmaps.whitelist]
    exact h.whitelist
  · rw [hmaps.trusted]
    exact h.trusted
  · rw [hmaps.acl]
    exact h.acl
  · rw [hmaps.policies]
    exact h.policies
  · rw [hmaps.runtime]
    exact h.runtime

theorem installed_bogonOff (hbogon : desired.bogonFilterEnabled = false) : BogonOff w := by
  have hflag (rest : U32) :
      (xdpCfgFlagBogonDisabled ||| rest) &&& xdpCfgFlagBogonDisabled = xdpCfgFlagBogonDisabled := by
    rw [BitVec.and_comm, BitVec.and_or_distrib_left, BitVec.and_self]
    apply BitVec.eq_of_getLsbD_eq
    intro i hi
    simp only [BitVec.getLsbD_or, BitVec.getLsbD_and]
    cases xdpCfgFlagBogonDisabled.getLsbD i <;> rfl
  unfold BogonOff
  rw [(installed_maps hsound hlimits hmaps).runtime, Option.all_some, XdpBackend.computeCfgFlags,
    hbogon, if_neg Bool.false_ne_true, BitVec.or_assoc, BitVec.or_assoc, hflag]
  decide

/-- The segment check over the maps of a first reconcile. -/
theorem installed_pass (key : FlowKey) (flags : U8) (hfree : Unclaimed w key)
    (hsyn : isSynOnly flags = true) (h3 : flags &&& 0x03 ≠ 0x03) (h6 : flags &&& 0x06 ≠ 0x06) :
    (Prog.exec serial (checkTcpFlow key flags) w.tick).1 = .pass ↔
      (desired.trusts key.saddr || desired.opens key.dport) = true ∨
        desired.specificRuleLists key.saddr key.dport = true := by
  have hm := installed_maps hsound hlimits hmaps
  have hpolicy : w.tick.maps.tcpPortPolicies.lookup key.destPort = none := by
    change w.maps.tcpPortPolicies.lookup key.destPort = none
    rw [hm.policies]
    rfl
  have hwhite : isSet (arrayLookup 65536 w.maps.tcpWhitelist key.destPort) =
      desired.opens key.dport := by
    have hlt : key.destPort.toNat < 65536 := by
      rw [FlowKey.destPort, BitVec.toNat_setWidth]
      exact Nat.lt_of_le_of_lt (Nat.mod_le _ _) key.dport.isLt
    rw [arrayLookup, if_pos hlt, hm.whitelist, Bool.eq_iff_iff, DesiredState.opens,
      List.contains_iff_mem]
    by_cases hmem : key.destPort ∈ desired.tcpPorts
    · rw [if_pos hmem]
      exact iff_of_true rfl hmem
    · rw [if_neg hmem]
      exact iff_of_false (by decide) hmem
  have hacl : (lpmLookup w.maps.tcpAcl key.saddr).any (aclPortMatch · key.destPort) =
      desired.specificRuleLists key.saddr key.dport := by
    rw [lpm_acl hm hsound, DesiredState.specificRuleLists]
    cases desired.specificRule key.saddr with
    | none => rfl
    | some ports => exact aclPortMatch_packVal ports key.dport
  have hlater : ∀ til, w.maps.hblk.lookup key.saddr = some til →
      ∀ i ≥ w.tick.reads, til ≤ w.clock i :=
    fun til htil i hi => hfree.blk til htil i (Nat.le_of_succ_le hi)
  obtain ⟨hfin, hrst, -⟩ := syn_flags flags hsyn h3 h6
  rw [checkTcpFlow_pass_iff w.tick key flags hsyn hfin hrst
    ⟨hpolicy, hfree.ct, hfree.list, hlater, hfree.handler⟩]
  change isSet (lpmLookup w.maps.trusted key.saddr) = true ∨
    (lpmLookup w.maps.tcpAcl key.saddr).any (aclPortMatch · key.destPort) = true ∨
    isSet (arrayLookup 65536 w.maps.tcpWhitelist key.destPort) = true ↔ _
  rw [lpm_trusted hm hsound, hacl, hwhite, Bool.or_eq_true]
  constructor
  · rintro (h | h | h)
    · exact Or.inl (Or.inl h)
    · exact Or.inr h
    · exact Or.inl (Or.inr h)
  · rintro ((h | h) | h)
    · exact Or.inl h
    · exact Or.inr (Or.inr h)
    · exact Or.inr (Or.inl h)

end Agreement

/-- The most specific rule is one of those that cover the source. -/
theorem specificRule_listed (desired : DesiredState) (a : Addr) (port : U16)
    (h : desired.specificRuleLists a port = true) : desired.ruleLists a port = true := by
  rw [DesiredState.specificRuleLists, DesiredState.specificRule] at h
  cases hr : (List.range (a.bits + 1)).reverse.findSome? fun n =>
      desired.aclRules.lookup ("tcp", ⟨n, a.network n⟩) with
  | none => rw [hr] at h; exact absurd h nofun
  | some ports =>
    rw [hr, Option.any_some, List.contains_iff_mem] at h
    obtain ⟨n, -, hn⟩ := List.exists_of_findSome?_eq_some hr
    have hcovers : LpmKey.covers ⟨n, a.network n⟩ a = true := by
      rw [LpmKey.covers, network_network, beq_self_eq_true]
    rw [DesiredState.ruleLists, List.any_eq_true]
    refine ⟨(("tcp", ⟨n, a.network n⟩), ports), (mem_dictItems _ _).mpr hn, ?_⟩
    rw [hcovers, List.contains_iff_mem.mpr (List.mem_of_mem_take h)]
    rfl

/-- Over the maps of a first reconcile, without limits and with the bogon filter off, the
XDP program passes a well-formed lone `SYN` exactly where the ruleset of the same
desired state accepts it, if and only if `SynsAgree`. -/
theorem syn_agreement (cfg : NftConfig) (desired : DesiredState) (monotonicNs : ℕ → U64)
    (meters : NftMeters) (w : World) (f : Frame) (iifname : String) (key : FlowKey) (l4 : ℕ)
    (frag : Bool) (hf : TcpSegment f key l4 frag) (hwell : tcpMalformedReason f l4 = none)
    (hsyn : isSynOnly (tcpFlags f l4) = true) (hsound : desired.Sound)
    (hlimits : desired.Unlimited) (hbogon : desired.bogonFilterEnabled = false)
    (hmaps : Installed (reconciled cfg.toConfig desired monotonicNs) w)
    (hfree : Unclaimed w key) :
    ((Prog.exec serial (xdpFw f) w).1 = .pass ↔
        nftAdmits meters cfg desired (tcpPacket iifname key (tcpFlags f l4) frag) = true) ↔
      SynsAgree w f key frag (nftUnasked cfg (tcpPacket iifname key (tcpFlags f l4) frag))
        desired := by
  obtain ⟨-, -, -, h3, h6, -, -⟩ := wellFormed_flags f l4 hwell
  have hoff := installed_bogonOff hsound hlimits hmaps hbogon
  rw [xdpFw_segment w f key l4 frag hf hwell hoff,
    nftAdmits_syn meters cfg desired iifname f key l4 frag hf hwell hsyn hlimits hbogon,
    installed_pass hsound hlimits hmaps key _ hfree hsyn h3 h6]
  have hlisted := specificRule_listed desired key.saddr key.dport
  unfold SynsAgree
  generalize nftUnasked cfg (tcpPacket iifname key (tcpFlags f l4) frag) = unasked
  generalize desired.trusts key.saddr = trusts at *
  generalize desired.opens key.dport = opens at *
  generalize desired.ruleLists key.saddr key.dport = listed at *
  generalize desired.specificRuleLists key.saddr key.dport = found at *
  cases (transport f).map Prod.fst with
  | none => cases unasked <;> cases frag <;> cases trusts <;> cases opens <;> cases listed <;> simp
  | some proto =>
    by_cases hp : proto = ipprotoTcp
    · simp only [Option.some.injEq, exists_eq_left', hp, ↓reduceIte]
      cases unasked <;> cases frag <;> cases trusts <;> cases opens <;> cases listed <;>
        cases found <;> simp_all
    · simp only [Option.some.injEq, exists_eq_left', hp, ↓reduceIte, ← Bool.eq_iff_iff]
      cases unasked <;> cases frag <;> cases trusts <;> cases opens <;> cases listed <;> simp

/-- HTTP for 198.51.0.0/16 and HTTPS for 198.51.100.0/24. -/
def overlapping : DesiredState where
  aclRules := ((∅ : BpfMap (String × LpmKey) (List U16)).insert
    ("tcp", ⟨16, .v4 0xC6330000⟩) [80]).insert ("tcp", ⟨24, .v4 0xC6336400⟩) [443]

theorem overlapping_sound : overlapping.Sound where
  ports port hport := by
    have hnone : overlapping.tcpPorts ++ overlapping.udpPorts ++ overlapping.sctpPorts ++
      overlapping.tcpRateMapEntries.keys ++ overlapping.udpRateMapEntries.keys = [] := rfl
    rw [hnone] at hport
    exact absurd hport List.not_mem_nil
  trusted := nofun
  acl k hk := by
    have hkeys : overlapping.aclRules.keys =
        [("tcp", ⟨24, .v4 0xC6336400⟩), ("tcp", ⟨16, .v4 0xC6330000⟩)] := by decide +kernel
    rw [hkeys, List.mem_cons, List.mem_singleton] at hk
    rcases hk with rfl | rfl
    · exact ⟨by decide +kernel, by decide +kernel⟩
    · exact ⟨by decide +kernel, by decide +kernel⟩

theorem overlapping_unlimited : overlapping.Unlimited := by
  intro limits hmem port limit hl
  have hempty : limits = ∅ := by
    simp only [overlapping, List.mem_cons, List.not_mem_nil, or_false, or_self] at hmem
    exact hmem
  rw [hempty] at hl
  exact absurd hl nofun

/-- A host after its first reconcile. -/
def ruledHost : World where
  maps := reconciled {} overlapping fun _ => 0
  clock := clockOf [1]

/-- A `SYN` from 198.51.100.7. -/
def ruledSyn (dport : U16) : Frame := ipv4Segment 40000 dport 0xC6336407 0xC0000201 0x02

theorem ruledSyn_segment (dport : U16) (hlen : (ruledSyn dport).length = 54)
    (htype : (ruledSyn dport).be16 12 = ethPIp) (hihl : ipHlen (ruledSyn dport) 14 = 20)
    (hwhole : isFragmentV4 (ruledSyn dport) 14 = false)
    (hproto : (ruledSyn dport).byte (14+9) = ipprotoTcp) :
    TcpSegment (ruledSyn dport) (flowKeyV4 (ruledSyn dport) 14 34) 34 false := by
  have h : TcpSegment (ruledSyn dport)
      (flowKeyV4 (ruledSyn dport) 14 (14 + ipHlen (ruledSyn dport) 14))
      (14 + ipHlen (ruledSyn dport) 14) false := by
    refine .v4 0 14 (by omega) ?_ (by omega) (by omega) hwhole hproto (by omega)
    rw [htype]
    exact .none ethPIp 14 (by decide)
  rwa [hihl] at h

theorem ruledHost_unclaimed (dport : U16)
    (hct : ruledHost.maps.tcpCt.lookup (flowKeyV4 (ruledSyn dport) 14 34) = none)
    (hblk : ruledHost.maps.hblk.lookup (flowKeyV4 (ruledSyn dport) 14 34).saddr = none) :
    Unclaimed ruledHost (flowKeyV4 (ruledSyn dport) 14 34) where
  ct := hct
  list := by
    have hoff : (ruledHost.maps.runtimeCfg.any
        fun cfg => cfg.cfgFlags &&& xdpCfgFlagAbuseipdbEnabled != 0) = false := by decide +kernel
    rw [flowKeyV4, onBlocklist, hoff, Bool.false_and]
  blk til htil := absurd (hblk.symm.trans htil) nofun
  handler := rfl

/-- HTTPS from a source whose longest prefix allows it. -/
theorem syn_agreement_longest :
    ((Prog.exec serial (xdpFw (ruledSyn 443)) ruledHost).1 = .pass ↔
        nftAdmits (fun _ _ => false) {} overlapping (tcpPacket "eth0"
          (flowKeyV4 (ruledSyn 443) 14 34) (tcpFlags (ruledSyn 443) 34) false) = true) :=
  (syn_agreement {} overlapping (fun _ => 0) (fun _ _ => false) ruledHost (ruledSyn 443) "eth0" _ 34
    false (ruledSyn_segment 443 (by decide +kernel) (by decide +kernel) (by decide +kernel)
      (by decide +kernel) (by decide +kernel)) (by decide +kernel) (by decide +kernel)
    overlapping_sound overlapping_unlimited rfl ⟨rfl, rfl, rfl, rfl, rfl⟩
    (ruledHost_unclaimed 443 (by decide +kernel) (by decide +kernel))).mpr (by
      have hreached : (transport (ruledSyn 443)).map Prod.fst = some ipprotoTcp := by decide +kernel
      have hasked : nftUnasked {} (tcpPacket "eth0" (flowKeyV4 (ruledSyn 443) 14 34)
        (tcpFlags (ruledSyn 443) 34) false) = false := by decide +kernel
      have hfound : overlapping.specificRuleLists (flowKeyV4 (ruledSyn 443) 14 34).saddr
        (flowKeyV4 (ruledSyn 443) 14 34).dport = true := by decide +kernel
      simp only [SynsAgree, hreached, hasked, hfound, Bool.false_eq_true, ↓reduceIte, or_true,
        implies_true])

/-- HTTP is allowed by the shorter prefix: the chain accepts it, the program finds the
longer prefix and drops it. -/
theorem shadowed_syn :
    ¬∀ (cfg : NftConfig) (desired : DesiredState) (monotonicNs : ℕ → U64) (meters : NftMeters)
      (w : World) (f : Frame) (iifname : String) (key : FlowKey) (l4 : ℕ),
      TcpSegment f key l4 false → tcpMalformedReason f l4 = none →
      isSynOnly (tcpFlags f l4) = true → desired.Sound → desired.Unlimited →
      desired.bogonFilterEnabled = false →
      Installed (reconciled cfg.toConfig desired monotonicNs) w → Unclaimed w key →
      ((Prog.exec serial (xdpFw f) w).1 = .pass ↔
        nftAdmits meters cfg desired (tcpPacket iifname key (tcpFlags f l4) false) = true) := by
  intro h
  have hagree := h {} overlapping (fun _ => 0) (fun _ _ => false) ruledHost (ruledSyn 80) "eth0" _ 34
    (ruledSyn_segment 80 (by decide +kernel) (by decide +kernel) (by decide +kernel)
      (by decide +kernel) (by decide +kernel)) (by decide +kernel) (by decide +kernel)
    overlapping_sound overlapping_unlimited rfl ⟨rfl, rfl, rfl, rfl, rfl⟩
    (ruledHost_unclaimed 80 (by decide +kernel) (by decide +kernel))
  have hdrop : (Prog.exec serial (xdpFw (ruledSyn 80)) ruledHost).1 = .drop := by decide +kernel
  have haccept : nftAdmits (fun _ _ => false) {} overlapping (tcpPacket "eth0"
      (flowKeyV4 (ruledSyn 80) 14 34) (tcpFlags (ruledSyn 80) 34) false) = true := by decide +kernel
  exact absurd (hdrop.symm.trans (hagree.mpr haccept)) nofun

end AutoXdp
