import AutoXdp.AtomicWord
import AutoXdp.XdpMaps
import Mathlib.Tactic.Basic

/-! Rate windows and connection counters (`bpf/include/rate_limit.h`). Both pack
a tick and a count into one shared 64-bit word. -/
namespace AutoXdp
open AtomicProg AtomicWord

/-! Source prefixes. -/

def maskSourceWord (word prefixBits : U32) : U32 :=
  if prefixBits ≥ 32 then word
  else if prefixBits = 0 then 0
  else word &&& (0xFFFFFFFF#32 <<< (32 - prefixBits))

/-- `fill_masked_source_words` for `CT_FAMILY_IPV6`: word by word, the first word
the prefix does not cover whole is masked and the rest is zero. -/
def maskedV6Words (w0 w1 w2 w3 prefixV6 : U32) : U128 :=
  let p := if prefixV6 > 128 then 128 else prefixV6
  if p < 32 then maskSourceWord w0 p ++ (0#96)
  else if p - 32 < 32 then w0 ++ (maskSourceWord w1 (p - 32) ++ (0#64))
  else if p - 32 - 32 < 32 then w0 ++ (w1 ++ (maskSourceWord w2 (p - 32 - 32) ++ (0#32)))
  else w0 ++ (w1 ++ (w2 ++ maskSourceWord w3 (p - 32 - 32 - 32)))

/-- `fill_source_rate_key_v4`, `fill_source_rate_key_v6`, and the address of the
prefix keys. -/
def fillMaskedSource (a : Addr) (prefixV4 prefixV6 : U32) : Addr :=
  match a with
  | .v4 a => .v4 (maskSourceWord a (if prefixV4 > 32 then 32 else prefixV4))
  | .v6 a =>
    .v6 (maskedV6Words (a.extractLsb' 96 32) (a.extractLsb' 64 32) (a.extractLsb' 32 32)
      (a.extractLsb' 0 32) prefixV6)

/-! The tick and the count of a state word. -/

/-- `rate_state_pack`, `conn_state_pack`. -/
def statePack (tick countValue : U32) : U64 :=
  (tick.setWidth 64 <<< 32) ||| countValue.setWidth 64

/-- `(__u32)(current >> 32)`. -/
def stateTick (w : U64) : U32 := (w >>> 32).setWidth 32

/-- `(__u32)(current & 0xFFFFFFFF)`. -/
def stateCount (w : U64) : U32 := w.setWidth 32

@[simp] theorem stateTick_pack (t c : U32) : stateTick (statePack t c) = t := by
  apply BitVec.eq_of_getLsbD_eq
  intro i hi
  simp [stateTick, statePack, hi, show 32+i < 64 by omega]

@[simp] theorem stateCount_pack (t c : U32) : stateCount (statePack t c) = c := by
  apply BitVec.eq_of_getLsbD_eq
  intro i hi
  simp [stateCount, statePack, hi]

/-- `ceil(ns / tick)` clamped to `1 .. 0x7FFFFFFF`: `rate_state_window_ticks` and
`conn_state_timeout_ticks`. -/
def clampTicks (tickNs ns : U64) : U32 :=
  let ticks := if ns % tickNs ≠ 0 then ns / tickNs + 1 else ns / tickNs
  if ticks = 0 then 1
  else if ticks > 0x7FFFFFFF then 0x7FFFFFFF
  else ticks.setWidth 32

theorem clampTicks_toNat (tickNs ns : U64) (ht : 1 < tickNs.toNat) :
    (clampTicks tickNs ns).toNat = max 1 (min 0x7FFFFFFF
      (ns.toNat/tickNs.toNat + if ns.toNat % tickNs.toNat = 0 then 0 else 1)) := by
  have hq : ns.toNat/tickNs.toNat ≤ ns.toNat/2 := Nat.div_le_div_left ht (by decide)
  have hn := ns.isLt
  have hdiv : (ns / tickNs).toNat = ns.toNat/tickNs.toNat := BitVec.toNat_udiv
  have hmod : ns % tickNs = 0 ↔ ns.toNat % tickNs.toNat = 0 := by
    rw [← BitVec.toNat_inj, BitVec.toNat_umod]
    rfl
  have hsucc : (ns / tickNs + 1).toNat = ns.toNat/tickNs.toNat + 1 := by
    rw [BitVec.toNat_add, hdiv]
    exact Nat.mod_eq_of_lt (show ns.toNat/tickNs.toNat + 1 < 2^64 by omega)
  have hclamp (ticks : U64) : (if ticks = 0 then (1:U32) else if ticks > 0x7FFFFFFF
      then 0x7FFFFFFF else ticks.setWidth 32).toNat = max 1 (min 0x7FFFFFFF ticks.toNat) := by
    split_ifs with h0 hbig
    · subst h0
      rfl
    · have hb : 0x7FFFFFFF < ticks.toNat := hbig
      change 0x7FFFFFFF = _
      omega
    · have hb : ticks.toNat ≤ 0x7FFFFFFF := by simpa [BitVec.lt_def] using hbig
      have h1 : ticks.toNat ≠ 0 := fun h => h0 (BitVec.eq_of_toNat_eq h)
      rw [BitVec.toNat_setWidth]
      omega
  simp only [clampTicks, hclamp, ne_eq, hmod]
  split_ifs with h
  · rw [hdiv, Nat.add_zero]
  · rw [hsucc]

theorem clampTicks_pos (tickNs ns : U64) (ht : 1 < tickNs.toNat) :
    0 < (clampTicks tickNs ns).toNat := by
  rw [clampTicks_toNat tickNs ns ht]
  omega

theorem le_clampTicks (tickNs ns : U64) (ht : 1 < tickNs.toNat)
    (hns : ns.toNat ≤ 0x7FFFFFFF*tickNs.toNat) :
    ns.toNat ≤ (clampTicks tickNs ns).toNat*tickNs.toNat := by
  rw [clampTicks_toNat tickNs ns ht]
  have hd := Nat.div_add_mod ns.toNat tickNs.toNat
  set t := tickNs.toNat
  set q := ns.toNat/t
  by_cases hr : ns.toNat % t = 0
  · have hle : q ≤ 0x7FFFFFFF := Nat.div_le_of_le_mul (by rwa [Nat.mul_comm])
    calc ns.toNat = q*t := by rw [← hd, hr, Nat.add_zero, Nat.mul_comm]
      _ ≤ _ := Nat.mul_le_mul_right t (by simp only [hr, ↓reduceIte]; omega)
  · have hlt : q < 0x7FFFFFFF := by
      by_contra hge
      have := Nat.mul_le_mul_left t (Nat.le_of_not_lt hge)
      omega
    have hmod := Nat.mod_lt ns.toNat (show t > 0 by omega)
    calc ns.toNat ≤ (q+1)*t := by rw [Nat.add_mul, Nat.mul_comm q t]; omega
      _ ≤ _ := Nat.mul_le_mul_right t (by simp only [hr, ↓reduceIte]; omega)

/-! Window rate limits. -/

def rateStateTickNs : U64 := 1000000
def rateStateRetries : ℕ := 16

def rateStateTick (now : U64) : U32 := (now / rateStateTickNs).setWidth 32
def rateStateWindowTicks (windowNs : U64) : U32 := clampTicks rateStateTickNs windowNs

/-- The `for` loop of `WINDOW_RATE_CHECK`, with the attempts that are left. -/
def windowRateLoop (inc limit nowTick windowTicks : U32) : ℕ → Prog wordInterface XdpAction
  | 0 => return .drop
  | attempts+1 => do
    if ← lookupWord then
      let current ← loadWord
      if nowTick - stateTick current ≥ windowTicks then
        if (← casWord current (statePack nowTick inc)) = current then return .pass
        else windowRateLoop inc limit nowTick windowTicks attempts
      else if stateCount current > limit ∨ inc > limit - stateCount current then return .drop
      else
        let next := statePack (stateTick current) (stateCount current + inc)
        if (← casWord current next) = current then return .pass
        else windowRateLoop inc limit nowTick windowTicks attempts
    else if ← insertWord (statePack nowTick inc) then return .pass
    else windowRateLoop inc limit nowTick windowTicks attempts

/-- `WINDOW_RATE_CHECK`. -/
def windowRateCheck (now windowNs increment max : U64) : Prog wordInterface XdpAction :=
  if increment > max ∨ increment > 0xFFFFFFFF then return .drop
  else windowRateLoop (increment.setWidth 32) (max.setWidth 32) (rateStateTick now)
    (rateStateWindowTicks windowNs) rateStateRetries

/-! Connection counters. -/

def connStateTickNs : U64 := 100000000
def connStateRetries : ℕ := 16

def connStateTick (now : U64) : U32 := (now / connStateTickNs).setWidth 32
def connStateTimeoutTicks (timeoutNs : U64) : U32 := clampTicks connStateTickNs timeoutNs

def connStateExpired (nowTick lastTick timeoutTicks : U32) : Bool :=
  nowTick - lastTick > timeoutTicks

def sharedConnCountCheck (now timeoutNs : U64) (limit : U32) : Prog wordInterface XdpAction := do
  let current ← loadWord
  if stateCount current = 0 then return .pass
  else if connStateExpired (connStateTick now) (stateTick current)
      (connStateTimeoutTicks timeoutNs) then return .pass
  else if stateCount current ≥ limit then return .drop
  else return .pass

/-- `enum shared_conn_count_op`. -/
inductive ConnCountOp where
  | record | activity | close
  deriving DecidableEq, Repr

/-- The count one operation writes over the word it read. -/
def connNextCount (op : ConnCountOp) (nowTick timeoutTicks : U32) (current : U64) : U32 :=
  match op with
  | .record =>
    if stateCount current = 0 ∨ connStateExpired nowTick (stateTick current) timeoutTicks then 1
    else if stateCount current < 0xFFFFFFFF then stateCount current + 1
    else stateCount current
  | .activity => if stateCount current = 0 then 1 else stateCount current
  | .close => if stateCount current > 0 then stateCount current - 1 else stateCount current

/-- The retry loop of `shared_conn_count_update`; out of attempts it saturates
the counter (`shared_conn_count_fail_closed`). -/
def connUpdateLoop (op : ConnCountOp) (nowTick timeoutTicks : U32) :
    ℕ → Prog wordInterface Unit
  | 0 => do
    let _ ← swapWord (statePack nowTick 0xFFFFFFFF)
    return ()
  | attempts+1 => do
    let current ← loadWord
    let next := statePack nowTick (connNextCount op nowTick timeoutTicks current)
    if (← casWord current next) = current then return ()
    else connUpdateLoop op nowTick timeoutTicks attempts

def sharedConnCountUpdate (now timeoutNs : U64) (op : ConnCountOp) : Prog wordInterface Unit :=
  connUpdateLoop op (connStateTick now)
    (if op = .record then connStateTimeoutTicks timeoutNs else 0) connStateRetries

/-- One counter of `tcp_src_conn_record_established`: a fresh counter starts at
one, an existing one is updated. -/
def connRecord (now timeoutNs : U64) : Prog wordInterface Unit := do
  if ← lookupWord then sharedConnCountUpdate now timeoutNs .record
  else if ← insertWord (statePack (connStateTick now) 1) then return ()
  else if ← lookupWord then sharedConnCountUpdate now timeoutNs .record
  else return ()

/-- One counter of `tcp_src_conn_record_activity` and `tcp_src_conn_record_close`. -/
def connUpdateIfPresent (now : U64) (op : ConnCountOp) : Prog wordInterface Unit := do
  if ← lookupWord then sharedConnCountUpdate now 0 op
  else return ()

/-- One counter of the `tcp_conn_*limit_check` functions. -/
def connLimitCheck (now timeoutNs : U64) (limit : U32) : Prog wordInterface XdpAction := do
  if ← lookupWord then sharedConnCountCheck now timeoutNs limit
  else return .pass

/-! The limiters on their maps. -/

/-- Runs a word program on the word stored under one key. -/
def runWord {κ α : Type} [DecidableEq κ] (m : BpfMap κ U64) (k : κ)
    (p : Prog wordInterface α) : α × BpfMap κ U64 :=
  let r := p.exec wordHandler (m.lookup k)
  match r.2 with
  | some w => (r.1, m.insert k w)
  | none => (r.1, m)

/-- A `WINDOW_RATE_CHECK` in the inner map of a slot. An empty slot passes. -/
def innerRateCheck (slot : Option (BpfMap Addr U64)) (rkey : Addr)
    (p : Prog wordInterface XdpAction) : XdpAction × Option (BpfMap Addr U64) :=
  match slot with
  | none => (.pass, none)
  | some inner => ((runWord inner rkey p).1, some (runWord inner rkey p).2)

def synRateCheck (key : FlowKey) (now : U64) (destPort rateMax prefixV4 prefixV6 : U32)
    (cfg : Option XdpRuntimeCfg) (l : Limits) : XdpAction × Limits :=
  let rkey := fillMaskedSource key.saddr prefixV4 prefixV6
  let check := windowRateCheck now (cfgRateWindowNs cfg) 1 (rateMax.setWidth 64)
  if rateMax = 0 then (.pass, l)
  else match key with
    | .v4 .. =>
      let r := innerRateCheck (l.syn4 destPort) rkey check
      (r.1, { l with syn4 := Function.update l.syn4 destPort r.2 })
    | .v6 .. =>
      let r := innerRateCheck (l.syn6 destPort) rkey check
      (r.1, { l with syn6 := Function.update l.syn6 destPort r.2 })

def udpRateCheck (key : FlowKey) (now : U64) (destPort rateMax prefixV4 prefixV6 : U32)
    (cfg : Option XdpRuntimeCfg) (l : Limits) : XdpAction × Limits :=
  let rkey := fillMaskedSource key.saddr prefixV4 prefixV6
  let check := windowRateCheck now (cfgRateWindowNs cfg) 1 (rateMax.setWidth 64)
  if rateMax = 0 then (.pass, l)
  else match key with
    | .v4 .. =>
      let r := innerRateCheck (l.udprt4 destPort) rkey check
      (r.1, { l with udprt4 := Function.update l.udprt4 destPort r.2 })
    | .v6 .. =>
      let r := innerRateCheck (l.udprt6 destPort) rkey check
      (r.1, { l with udprt6 := Function.update l.udprt6 destPort r.2 })

def synAggRateCheck (key : FlowKey) (now : U64) (destPort rateMax prefixV4 prefixV6 : U32)
    (cfg : Option XdpRuntimeCfg) (l : Limits) : XdpAction × Limits :=
  if rateMax = 0 then (.pass, l)
  else
    let r := runWord l.synag (fillMaskedSource key.saddr prefixV4 prefixV6, destPort)
      (windowRateCheck now (cfgRateWindowNs cfg) 1 (rateMax.setWidth 64))
    (r.1, { l with synag := r.2 })

def udpAggRateCheck (key : FlowKey) (now : U64) (destPort : U32) (pktBytes : U64)
    (rateMax prefixV4 prefixV6 : U32) (cfg : Option XdpRuntimeCfg) (l : Limits) :
    XdpAction × Limits :=
  if rateMax = 0 then (.pass, l)
  else
    let r := runWord l.udpag (fillMaskedSource key.saddr prefixV4 prefixV6, destPort)
      (windowRateCheck now (cfgRateWindowNs cfg) pktBytes (rateMax.setWidth 64))
    (r.1, { l with udpag := r.2 })

def tcpConnLimitCheck (key : FlowKey) (now : U64) (destPort connMax : U32)
    (cfg : Option XdpRuntimeCfg) (l : Limits) : XdpAction × Limits :=
  if connMax = 0 then (.pass, l)
  else
    let r := runWord l.tsc (key.saddr, destPort) (connLimitCheck now (cfgTcpTimeoutNs cfg) connMax)
    (r.1, { l with tsc := r.2 })

def tcpConnPrefixLimitCheck (key : FlowKey) (now : U64)
    (destPort prefixV4 prefixV6 connMax : U32) (cfg : Option XdpRuntimeCfg) (l : Limits) :
    XdpAction × Limits :=
  if connMax = 0 then (.pass, l)
  else
    let r := runWord l.tscPfx (fillMaskedSource key.saddr prefixV4 prefixV6, destPort)
      (connLimitCheck now (cfgTcpTimeoutNs cfg) connMax)
    (r.1, { l with tscPfx := r.2 })

/-- Runs a word program on an entry of the `tsc_port` array. -/
def runPortWord {α : Type} (l : Limits) (destPort : U32) (p : Prog wordInterface α) :
    α × Limits :=
  let r := p.exec wordHandler (some (l.tscPort destPort))
  (r.1, { l with tscPort := Function.update l.tscPort destPort (r.2.getD 0) })

def tcpConnPortLimitCheck (destPort : U32) (now : U64) (connMax : U32)
    (cfg : Option XdpRuntimeCfg) (l : Limits) : XdpAction × Limits :=
  if connMax = 0 then (.pass, l)
  else if destPort.toNat < 65536 then
    runPortWord l destPort (connLimitCheck now (cfgTcpTimeoutNs cfg) connMax)
  else (.pass, l)

/-- `policy ? policy->source_prefix_v4 : 32`, and 128 for IPv6. -/
def policyPrefixes (policy : Option TcpPortPolicyCfg) : U32 × U32 :=
  match policy with
  | some p => (p.sourcePrefixV4, p.sourcePrefixV6)
  | none => (32, 128)

/-- The three counters of a connection: source, prefix and port, in this order.
`tcp_src_conn_record_established` and `tcp_src_conn_record_close` differ in what they do to
each word. -/
def tcpSrcConnUpdate (word : Prog wordInterface Unit) (key : FlowKey) (destPort : U32)
    (policy : Option TcpPortPolicyCfg) (l : Limits) : Limits :=
  let prefixes := policyPrefixes policy
  let tsc := (runWord l.tsc (key.saddr, destPort) word).2
  let tscPfx := (runWord l.tscPfx
    (fillMaskedSource key.saddr prefixes.1 prefixes.2, destPort) word).2
  let l := { l with tsc := tsc, tscPfx := tscPfx }
  if destPort.toNat < 65536 then (runPortWord l destPort word).2 else l

def tcpSrcConnRecordEstablished (key : FlowKey) (now : U64) (destPort : U32)
    (cfg : Option XdpRuntimeCfg) : Option TcpPortPolicyCfg → Limits → Limits :=
  tcpSrcConnUpdate (connRecord now (cfgTcpTimeoutNs cfg)) key destPort

/-- A source without a counter returns early, before the counters of its prefix and port. -/
def tcpSrcConnRecordActivity (key : FlowKey) (now : U64) (destPort : U32)
    (policy : Option TcpPortPolicyCfg) (l : Limits) : Limits :=
  if (key.saddr, destPort) ∈ l.tsc then
    tcpSrcConnUpdate (connUpdateIfPresent now .activity) key destPort policy l
  else l

def tcpSrcConnRecordClose (key : FlowKey) (now : U64) (destPort : U32) :
    Option TcpPortPolicyCfg → Limits → Limits :=
  tcpSrcConnUpdate (connUpdateIfPresent now .close) key destPort

/-- Once the counter of its source is evicted, a connection counts down on the port when it
closes, and its activity no longer keeps the port's counter from expiring. -/
theorem port_word_no_source {key : FlowKey} {destPort : U32} {l : Limits} (now : U64)
    (policy : Option TcpPortPolicyCfg) (hport : destPort.toNat < 65536)
    (hsource : (key.saddr, destPort) ∉ l.tsc) :
    (tcpSrcConnRecordActivity key now destPort policy l).tscPort destPort =
      l.tscPort destPort ∧
    (tcpSrcConnRecordClose key now destPort policy l).tscPort destPort =
      (((connUpdateIfPresent now .close).exec wordHandler
        (some (l.tscPort destPort))).2).getD 0 := by
  constructor
  · unfold tcpSrcConnRecordActivity
    rw [if_neg hsource]
  · unfold tcpSrcConnRecordClose tcpSrcConnUpdate runPortWord
    rw [if_pos hport]
    exact Function.update_self ..

/-! The global UDP limit and the ICMP token bucket. -/

def udpGlobalBatchBytes : U64 := 65536

def udpGlobalBlockFastPath (now : U64) (loc : UdpPercpuLocal) : XdpAction × UdpPercpuLocal :=
  if loc.blockedUntilNs ≠ 0 then
    if now < loc.blockedUntilNs then (.drop, { loc with localBytes := 0 })
    else (.pass, { loc with blockedUntilNs := 0 })
  else (.pass, loc)

/-- The two-bucket window under the spin lock when no block is active: the new
state, `block_until` and `ret`. -/
def udpGlobalWindow (now toFlush windowNs : U64) (g : UdpGlobalState) :
    UdpGlobalState × U64 × XdpAction :=
  if g.windowStartNs = 0 then
    ({ g with windowStartNs := now, prevBytes := 0, currBytes := toFlush }, 0, .pass)
  else
    let elapsed := now - g.windowStartNs
    if elapsed ≥ 2 * windowNs then
      ({ g with windowStartNs := now, prevBytes := 0, currBytes := toFlush }, 0, .pass)
    else
      let rolled := elapsed ≥ windowNs
      let g := if rolled then { g with prevBytes := g.currBytes, currBytes := 0,
                                       windowStartNs := g.windowStartNs + windowNs } else g
      let elapsed := if rolled then elapsed - windowNs else elapsed
      let weighted := g.prevBytes * (windowNs - elapsed) + g.currBytes * windowNs
      let threshold := g.byteRateMax.setWidth 64 * windowNs
      if weighted + toFlush * windowNs > threshold then
        ({ g with blockedUntilNs := now + windowNs }, now + windowNs, .drop)
      else ({ g with currBytes := g.currBytes + toFlush }, 0, .pass)

/-- The critical section of `udp_global_rate_check`. -/
def udpGlobalFlush (now toFlush windowNs : U64) (g : UdpGlobalState) :
    UdpGlobalState × U64 × XdpAction :=
  if g.blockedUntilNs ≠ 0 ∧ now < g.blockedUntilNs then (g, g.blockedUntilNs, .pass)
  else
    let g := if g.blockedUntilNs ≠ 0 then { g with blockedUntilNs := 0, windowStartNs := 0,
                                                   prevBytes := 0, currBytes := 0 } else g
    udpGlobalWindow now toFlush windowNs g

def udpGlobalRateCheck (now pktBytes : U64) (cfg : Option XdpRuntimeCfg) (l : Limits) :
    XdpAction × Limits :=
  if l.udpGlobalRl.byteRateMax = 0 then (.pass, l)
  else
    let fast := udpGlobalBlockFastPath now l.udpPercpuAcc
    if fast.1 = .drop then (.drop, { l with udpPercpuAcc := fast.2 })
    else
      let loc := { fast.2 with localBytes := fast.2.localBytes + pktBytes }
      if loc.localBytes < udpGlobalBatchBytes then (.pass, { l with udpPercpuAcc := loc })
      else
        let (g, blockUntil, ret) :=
          udpGlobalFlush now loc.localBytes (cfgUdpGlobalWindowNs cfg) l.udpGlobalRl
        let loc := { loc with localBytes := 0 }
        if blockUntil ≠ 0 then
          (.drop, { l with udpGlobalRl := g,
                           udpPercpuAcc := { loc with blockedUntilNs := blockUntil } })
        else (ret, { l with udpGlobalRl := g, udpPercpuAcc := loc })

/-- `icmp_rate_limit` below its clock and tunables. -/
def icmpRateLimit (now tokenMax nsPerToken : U64) (tb : IcmpTokenBucket) :
    XdpAction × IcmpTokenBucket :=
  let newTokens := (now - tb.lastRefillNs) / nsPerToken
  let tb :=
    if tb.lastRefillNs = 0 then { tb with tokens := tokenMax, lastRefillNs := now }
    else if newTokens > 0 then
      { tokens := if tb.tokens + newTokens > tokenMax then tokenMax else tb.tokens + newTokens
        lastRefillNs := tb.lastRefillNs + newTokens * nsPerToken }
    else tb
  if tb.tokens > 0 then (.pass, { tb with tokens := tb.tokens - 1 }) else (.drop, tb)

end AutoXdp
