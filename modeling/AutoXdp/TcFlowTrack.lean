import AutoXdp.XdpConntrack
import AutoXdp.XdpParse
import Mathlib.Tactic.Basic

/-! The tc egress program (`tc_flow_track.c`): outbound packets write the state
that admits the replies, under the reverse tuple. Its verdict is always
`TC_ACT_OK`. -/
namespace AutoXdp
open AtomicProg

variable {P : Type}

/-- `tc_tcp_timeout_ns`. -/
def tcTcpTimeoutNs : DpProg P U64 := do return cfgTcpTimeoutNs (← runtimeCfg)

/-- `tc_refresh_ns`. -/
def tcRefreshNs : DpProg P U64 := do return cfgCtRefreshNs (← runtimeCfg)

def tcDelete (key : FlowKey) : DpProg P Unit := do
  let _ ← ctDelete .tcp key
  return ()

/-- The `else if` of the TCP case: an old entry gets the time of this packet and
keeps its pending bit, which is read from the element once more. -/
def tcRefresh (key : FlowKey) (lastSeen : P) (ts now : U64) : DpProg P Unit := do
  if now - ts > (← tcRefreshNs) then
    let raw ← ctLoad lastSeen
    let _ ← ctUpdate .tcp key ((raw &&& ctSynPending) ||| now) .exist
    return ()
  else return ()

/-- The TCP case on the reverse tuple of an outbound segment. -/
def tcTcp (key : FlowKey) (flags : U8) : DpProg P Unit := do
  let now ← ktimeGetNs
  if isSynOnly flags then
    let _ ← ctUpdate .tcp key now .any
    return ()
  else
    match ← ctLookup .tcp key with
    | none => return ()
    | some lastSeen =>
      let ts := stamp (← ctLoad lastSeen)
      if hasFlag flags tcpFlagRst then tcDelete key
      else if now - ts > (← tcTcpTimeoutNs) then tcDelete key
      else tcRefresh key lastSeen ts now

/-- The UDP and SCTP cases on the reverse tuple of an outbound packet. -/
def tcTouch (m : CtMap) (key : FlowKey) : DpProg P Unit := do
  let now ← ktimeGetNs
  match ← ctLookup m key with
  | none =>
    let _ ← ctUpdate m key now .any
    return ()
  | some lastSeen =>
    if now - (← ctLoad lastSeen) > (← tcRefreshNs) then
      let _ ← ctUpdate m key now .any
      return ()
    else return ()

def tcUdp (key : FlowKey) : DpProg P Unit := tcTouch .udp key

def tcSctp (key : FlowKey) : DpProg P Unit := tcTouch .sctp key

/-- The protocol switch behind the network header; `l4` is where the transport
header starts. -/
def tcDispatch (f : Frame) (proto : U8) (l4 : ℕ) (key : FlowKey) : DpProg P Unit :=
  if proto = ipprotoTcp then
    if l4 + 20 > f.length then return ()
    else tcTcp key.reverse (tcpFlags f l4)
  else if proto = ipprotoUdp then
    if l4 + 8 > f.length then return () else tcUdp key.reverse
  else if proto = ipprotoSctp then
    if l4 + 4 > f.length then return () else tcSctp key.reverse
  else return ()

/-- `tc_egress_track`. -/
def tcEgressTrack (f : Frame) : DpProg P Unit :=
  if 14 > f.length then return ()
  else match stripVlanTags f vlanMaxDepth (f.be16 12) 14 with
    | none => return ()
    | some (ethProto, l3) =>
      if ethProto = ethPIp then
        if l3 + 20 > f.length then return ()
        else
          let l4 := l3 + ipHlen f l3
          if ipHlen f l3 < 20 then return ()
          else if isFragmentV4 f l3 then return ()
          else tcDispatch f (f.byte (l3+9)) l4 (flowKeyV4 f l3 l4)
      else if ethProto = ethPIpv6 then
        if l3 + 40 > f.length then return ()
        else
          let (nexthdr, l4) := skipIpv6Exthdr f ipv6ExthdrMax (l3+40) (f.byte (l3+6))
          if nexthdr = ipprotoNone ∨ nexthdr = ipv6FragDropSentinel then return ()
          else tcDispatch f nexthdr l4 (flowKeyV6 f l3 l4)
      else return ()

/-- The parser half of `tc_egress_track` makes no call. -/
theorem tcEgressTrack_eq (f : Frame) : (tcEgressTrack f : DpProg P Unit) =
    match transport f with
    | none => return ()
    | some (proto, key, l4) => tcDispatch f proto l4 key := by
  simp only [tcEgressTrack, transport]
  by_cases heth : 14 > f.length
  · simp only [heth, ↓reduceIte]
  simp only [heth, ↓reduceIte]
  rcases stripVlanTags f vlanMaxDepth (f.be16 12) 14 with _ | ⟨ethProto, l3⟩
  · rfl
  by_cases hip : ethProto = ethPIp
  · by_cases hlen : l3 + 20 > f.length
    · simp only [hip, hlen, ↓reduceIte, true_or]
    by_cases hhlen : ipHlen f l3 < 20
    · simp only [hip, hlen, hhlen, ↓reduceIte, true_or, or_true]
    by_cases hfrag : isFragmentV4 f l3 = true
    · simp only [hip, hlen, hhlen, hfrag, ↓reduceIte, or_true]
    · simp only [hip, hlen, hhlen, hfrag, ↓reduceIte, or_self, Bool.false_eq_true]
  by_cases hip6 : ethProto = ethPIpv6
  · have hne : ethPIpv6 ≠ ethPIp := by decide
    by_cases hlen : l3 + 40 > f.length
    · simp only [hip6, hne, hlen, ↓reduceIte]
    · simp only [hip6, hne, hlen, ↓reduceIte]
      split_ifs <;> rfl
  · simp only [hip, hip6, ↓reduceIte]

/-! What an outbound packet does to the maps. -/

/-- The TCP conntrack after an outbound segment. -/
def tcTcpCt (key : FlowKey) (flags : U8) (now : U64) (cfg : Option XdpRuntimeCfg)
    (t : BpfMap FlowKey U64) : BpfMap FlowKey U64 :=
  if isSynOnly flags then t.insert key now
  else match t.lookup key with
    | none => t
    | some raw =>
      if hasFlag flags tcpFlagRst ∨ now - stamp raw > cfgTcpTimeoutNs cfg then t.erase key
      else if now - stamp raw > cfgCtRefreshNs cfg then
        t.insert key ((raw &&& ctSynPending) ||| now)
      else t

/-- The UDP or SCTP conntrack after an outbound packet. -/
def tcTouchCt (key : FlowKey) (now : U64) (cfg : Option XdpRuntimeCfg)
    (t : BpfMap FlowKey U64) : BpfMap FlowKey U64 :=
  match t.lookup key with
  | none => t.insert key now
  | some raw => if now - raw > cfgCtRefreshNs cfg then t.insert key now else t

theorem exec_tcTcp (key : FlowKey) (flags : U8) (w : World) :
    (Prog.exec serial (tcTcp key flags) w).2 =
      w.tick.setCt .tcp (tcTcpCt key flags (w.clock w.reads) w.maps.runtimeCfg w.maps.tcpCt) := by
  by_cases hsyn : isSynOnly flags = true
  · simp only [tcTcp, tcTcpCt, hsyn, ↓reduceIte, ktimeGetNs_bind, ctUpdate_bind, Prog.exec_op,
      Prog.pure_eq, Prog.exec_ret, serial, mapUpdate]
    rfl
  cases hl : w.maps.tcpCt.lookup key with
  | none =>
    have hm : key ∉ w.maps.tcpCt := AList.lookup_eq_none.mp hl
    simp only [tcTcp, tcTcpCt, hsyn, hl, hm, ↓reduceIte, ktimeGetNs_bind, ctLookup_bind,
      Prog.exec_op, Prog.pure_eq, Prog.exec_ret, serial, Maps.ct, Bool.false_eq_true]
    rfl
  | some raw =>
    have hm : key ∈ w.maps.tcpCt := AList.lookup_isSome.mp (by rw [hl]; rfl)
    by_cases hrst : hasFlag flags tcpFlagRst = true
    · simp only [tcTcp, tcTcpCt, tcDelete, hsyn, hl, hm, hrst, ↓reduceIte, ktimeGetNs_bind,
        ctLookup_bind, ctLoad_bind, ctDelete_bind, Prog.exec_op, Prog.pure_eq, Prog.exec_ret, serial,
        Maps.ct, true_or, Bool.false_eq_true]
      rfl
    by_cases hage : w.clock w.reads - stamp raw > cfgTcpTimeoutNs w.maps.runtimeCfg
    · simp only [tcTcp, tcTcpCt, tcDelete, tcTcpTimeoutNs, hsyn, hl, hm, hrst, hage, ↓reduceIte,
        ktimeGetNs_bind, ctLookup_bind, ctLoad_bind, ctDelete_bind, runtimeCfg_bind, Prog.op_bind,
        Prog.ret_bind, Prog.exec_op, Prog.pure_eq, Prog.exec_ret, serial, World.ctLoad,
        Option.getD_some, Maps.ct, or_true, Bool.false_eq_true]
      rfl
    by_cases hrefresh : w.clock w.reads - stamp raw > cfgCtRefreshNs w.maps.runtimeCfg
    · simp only [tcTcp, tcTcpCt, tcTcpTimeoutNs, tcRefresh, tcRefreshNs, hsyn, hl, hm, hrst, hage,
        hrefresh, ↓reduceIte, ktimeGetNs_bind, ctLookup_bind, ctLoad_bind, ctUpdate_bind,
        runtimeCfg_bind, Prog.op_bind, Prog.ret_bind, Prog.exec_op, Prog.pure_eq, Prog.exec_ret,
        serial, World.ctLoad, Option.getD_some, Maps.ct, mapUpdate, or_self, Bool.false_eq_true]
      rfl
    · simp only [tcTcp, tcTcpCt, tcTcpTimeoutNs, tcRefresh, tcRefreshNs, hsyn, hl, hm, hrst, hage,
        hrefresh, ↓reduceIte, ktimeGetNs_bind, ctLookup_bind, ctLoad_bind, runtimeCfg_bind,
        Prog.op_bind, Prog.ret_bind, Prog.exec_op, Prog.pure_eq, Prog.exec_ret, serial,
        World.ctLoad, Option.getD_some, Maps.ct, or_self, Bool.false_eq_true]
      rfl

theorem exec_tcTouch (m : CtMap) (key : FlowKey) (w : World) :
    (Prog.exec serial (tcTouch m key) w).2 =
      w.tick.setCt m (tcTouchCt key (w.clock w.reads) w.maps.runtimeCfg (w.maps.ct m)) := by
  cases hl : (w.maps.ct m).lookup key with
  | none =>
    have hm : key ∉ w.maps.ct m := AList.lookup_eq_none.mp hl
    simp only [tcTouch, tcTouchCt, hl, hm, ↓reduceIte, ktimeGetNs_bind, ctLookup_bind,
      ctUpdate_bind, Prog.exec_op, Prog.pure_eq, Prog.exec_ret, serial, mapUpdate]
    rfl
  | some raw =>
    have hm : key ∈ w.maps.ct m := AList.lookup_isSome.mp (by rw [hl]; rfl)
    by_cases hrefresh : w.clock w.reads - raw > cfgCtRefreshNs w.maps.runtimeCfg
    · simp only [tcTouch, tcTouchCt, tcRefreshNs, hl, hm, hrefresh, ↓reduceIte, ktimeGetNs_bind,
        ctLookup_bind, ctLoad_bind, ctUpdate_bind, runtimeCfg_bind, Prog.op_bind, Prog.ret_bind,
        Prog.exec_op, Prog.pure_eq, Prog.exec_ret, serial, World.ctLoad, Option.getD_some, mapUpdate]
      rfl
    · simp only [tcTouch, tcTouchCt, tcRefreshNs, hl, hm, hrefresh, ↓reduceIte, ktimeGetNs_bind,
        ctLookup_bind, ctLoad_bind, runtimeCfg_bind, Prog.op_bind, Prog.ret_bind, Prog.exec_op,
        Prog.pure_eq, Prog.exec_ret, serial, World.ctLoad, Option.getD_some]
      cases m <;> rfl

/-- An outbound frame does nothing, or what its transport header asks for. -/
theorem exec_tcEgressTrack (f : Frame) (w : World) :
    (Prog.exec serial (tcEgressTrack f) w).2 = w ∨
    (∃ key l4, transport f = some (ipprotoTcp, key, l4) ∧
      (Prog.exec serial (tcEgressTrack f) w).2 =
        (Prog.exec serial (tcTcp key.reverse (tcpFlags f l4)) w).2) ∨
    ∃ m key, m ≠ .tcp ∧
      (Prog.exec serial (tcEgressTrack f) w).2 = (Prog.exec serial (tcTouch m key) w).2 := by
  rw [tcEgressTrack_eq]
  rcases htr : transport f with _ | ⟨proto, key, l4⟩
  · exact Or.inl rfl
  simp only [tcDispatch]
  by_cases htcp : proto = ipprotoTcp
  · subst htcp
    simp only [↓reduceIte]
    split
    · exact Or.inl rfl
    · exact Or.inr (Or.inl ⟨key, l4, rfl, rfl⟩)
  simp only [htcp, ↓reduceIte]
  by_cases hudp : proto = ipprotoUdp
  · simp only [hudp, ↓reduceIte]
    split
    · exact Or.inl rfl
    · exact Or.inr (Or.inr ⟨.udp, key.reverse, nofun, rfl⟩)
  simp only [hudp, ↓reduceIte]
  by_cases hsctp : proto = ipprotoSctp
  · simp only [hsctp, ↓reduceIte]
    split
    · exact Or.inl rfl
    · exact Or.inr (Or.inr ⟨.sctp, key.reverse, nofun, rfl⟩)
  simp only [hsctp, ↓reduceIte]
  exact Or.inl rfl

end AutoXdp
