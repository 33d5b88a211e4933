import AutoXdp.XdpRateLimit
import Mathlib.Tactic.Basic

/-! The calls the datapath programs make: clock, map and tail-call operations.
`P` is what a conntrack lookup answers, a pointer to the element it found. -/
namespace AutoXdp
open AtomicProg

/-- The limiter functions of `rate_limit.h`, with their arguments. -/
inductive Limiter where
  | synRate (key : FlowKey) (now : U64) (destPort rateMax prefixV4 prefixV6 : U32)
      (cfg : Option XdpRuntimeCfg)
  | synAggRate (key : FlowKey) (now : U64) (destPort rateMax prefixV4 prefixV6 : U32)
      (cfg : Option XdpRuntimeCfg)
  | udpRate (key : FlowKey) (now : U64) (destPort rateMax prefixV4 prefixV6 : U32)
      (cfg : Option XdpRuntimeCfg)
  | udpAggRate (key : FlowKey) (now : U64) (destPort : U32) (pktBytes : U64)
      (rateMax prefixV4 prefixV6 : U32) (cfg : Option XdpRuntimeCfg)
  | tcpConn (key : FlowKey) (now : U64) (destPort connMax : U32) (cfg : Option XdpRuntimeCfg)
  | tcpConnPrefix (key : FlowKey) (now : U64) (destPort prefixV4 prefixV6 connMax : U32)
      (cfg : Option XdpRuntimeCfg)
  | tcpConnPort (destPort : U32) (now : U64) (connMax : U32) (cfg : Option XdpRuntimeCfg)
  | udpGlobalBlock (now : U64)
  | udpGlobalRate (now pktBytes : U64) (cfg : Option XdpRuntimeCfg)
  | icmpRate (now tokenMax nsPerToken : U64)

def Limiter.run (l : Limits) : Limiter → XdpAction × Limits
  | synRate key now destPort rateMax p4 p6 cfg => synRateCheck key now destPort rateMax p4 p6 cfg l
  | synAggRate key now destPort rateMax p4 p6 cfg =>
    synAggRateCheck key now destPort rateMax p4 p6 cfg l
  | udpRate key now destPort rateMax p4 p6 cfg => udpRateCheck key now destPort rateMax p4 p6 cfg l
  | udpAggRate key now destPort bytes rateMax p4 p6 cfg =>
    udpAggRateCheck key now destPort bytes rateMax p4 p6 cfg l
  | tcpConn key now destPort connMax cfg => tcpConnLimitCheck key now destPort connMax cfg l
  | tcpConnPrefix key now destPort p4 p6 connMax cfg =>
    tcpConnPrefixLimitCheck key now destPort p4 p6 connMax cfg l
  | tcpConnPort destPort now connMax cfg => tcpConnPortLimitCheck destPort now connMax cfg l
  | udpGlobalBlock now =>
    let r := udpGlobalBlockFastPath now l.udpPercpuAcc
    (r.1, { l with udpPercpuAcc := r.2 })
  | udpGlobalRate now bytes cfg => udpGlobalRateCheck now bytes cfg l
  | icmpRate now tokenMax nsPerToken =>
    let r := icmpRateLimit now tokenMax nsPerToken l.icmpTb
    (r.1, { l with icmpTb := r.2 })

/-- The three program arrays of tail calls. -/
inductive ProgArray where
  | protoHandlers | tcpPortHandlers | udpPortHandlers
  deriving DecidableEq, Repr

inductive DpOp (P : Type) where
  | ktimeGetNs
  | runtimeCfg
  | count (c : Counter)
  | trusted (a : Addr)
  | acl (p : Proto) (a : Addr)
  | abuseipdb (a : U32)
  | whitelist (p : Proto) (destPort : U32)
  | hblk (a : Addr)
  | sit4Endpoint (a : U32)
  | tcpPolicy (destPort : U32)
  | udpPolicy (destPort : U32)
  | limit (q : Limiter)
  | recordEstablished (key : FlowKey) (now : U64) (destPort : U32) (cfg : Option XdpRuntimeCfg)
  | recordActivity (key : FlowKey) (now : U64) (destPort : U32)
  | recordClose (key : FlowKey) (now : U64) (destPort : U32)
  | ctLookup (m : CtMap) (key : FlowKey)
  | ctLoad (p : P)
  | ctCas (p : P) (old new : U64)
  | ctUpdate (m : CtMap) (key : FlowKey) (v : U64) (flag : UpdateFlag)
  | ctDelete (m : CtMap) (key : FlowKey)
  | tcpPending (key : FlowKey)
  | udpValidUntil (key : FlowKey)
  | tailCall (t : ProgArray) (idx : U32)

abbrev DpOp.Res {P : Type} : DpOp P → Type
  | ktimeGetNs => U64
  | runtimeCfg => Option XdpRuntimeCfg
  | count _ => Unit
  | trusted _ => Option U32
  | acl _ _ => Option AclVal
  | abuseipdb _ => Option U32
  | whitelist _ _ => Option U32
  | hblk _ => Option U64
  | sit4Endpoint _ => Option U32
  | tcpPolicy _ => Option TcpPortPolicyCfg
  | udpPolicy _ => Option UdpPortPolicyCfg
  | limit _ => XdpAction
  | recordEstablished .. => Unit
  | recordActivity .. => Unit
  | recordClose .. => Unit
  | ctLookup _ _ => Option P
  | ctLoad _ => U64
  | ctCas _ _ _ => U64
  | ctUpdate _ _ _ _ => Bool
  | ctDelete _ _ => Bool
  | tcpPending _ => Option U32
  | udpValidUntil _ => Option U64
  | tailCall _ _ => Option XdpAction

abbrev dpInterface (P : Type) : Interface := ⟨DpOp P, DpOp.Res⟩

abbrev DpProg (P α : Type) := Prog (dpInterface P) α

section Calls

variable {P α : Type}

def ktimeGetNs : DpProg P U64 := .op .ktimeGetNs .ret
def runtimeCfg : DpProg P (Option XdpRuntimeCfg) := .op .runtimeCfg .ret
def count (c : Counter) : DpProg P Unit := .op (.count c) .ret
def trusted (a : Addr) : DpProg P (Option U32) := .op (.trusted a) .ret
def acl (p : Proto) (a : Addr) : DpProg P (Option AclVal) := .op (.acl p a) .ret
def abuseipdb (a : U32) : DpProg P (Option U32) := .op (.abuseipdb a) .ret
def whitelist (p : Proto) (destPort : U32) : DpProg P (Option U32) :=
  .op (.whitelist p destPort) .ret
def hblk (a : Addr) : DpProg P (Option U64) := .op (.hblk a) .ret
def sit4Endpoint (a : U32) : DpProg P (Option U32) := .op (.sit4Endpoint a) .ret
def tcpPolicy (destPort : U32) : DpProg P (Option TcpPortPolicyCfg) :=
  .op (.tcpPolicy destPort) .ret
def udpPolicy (destPort : U32) : DpProg P (Option UdpPortPolicyCfg) :=
  .op (.udpPolicy destPort) .ret
def limit (q : Limiter) : DpProg P XdpAction := .op (.limit q) .ret
def recordEstablished (key : FlowKey) (now : U64) (destPort : U32)
    (cfg : Option XdpRuntimeCfg) : DpProg P Unit :=
  .op (.recordEstablished key now destPort cfg) .ret
def recordActivity (key : FlowKey) (now : U64) (destPort : U32) : DpProg P Unit :=
  .op (.recordActivity key now destPort) .ret
def recordClose (key : FlowKey) (now : U64) (destPort : U32) : DpProg P Unit :=
  .op (.recordClose key now destPort) .ret
def ctLookup (m : CtMap) (key : FlowKey) : DpProg P (Option P) := .op (.ctLookup m key) .ret
def ctLoad (p : P) : DpProg P U64 := .op (.ctLoad p) .ret
def ctCas (p : P) (old new : U64) : DpProg P U64 := .op (.ctCas p old new) .ret
def ctUpdate (m : CtMap) (key : FlowKey) (v : U64) (flag : UpdateFlag) : DpProg P Bool :=
  .op (.ctUpdate m key v flag) .ret
def ctDelete (m : CtMap) (key : FlowKey) : DpProg P Bool := .op (.ctDelete m key) .ret
def tcpPending (key : FlowKey) : DpProg P (Option U32) := .op (.tcpPending key) .ret
def udpValidUntil (key : FlowKey) : DpProg P (Option U64) := .op (.udpValidUntil key) .ret
def tailCall (t : ProgArray) (idx : U32) : DpProg P (Option XdpAction) :=
  .op (.tailCall t idx) .ret

@[simp] theorem ktimeGetNs_bind (f : U64 → DpProg P α) :
    ktimeGetNs >>= f = .op .ktimeGetNs f := rfl

@[simp] theorem runtimeCfg_bind (f : Option XdpRuntimeCfg → DpProg P α) :
    runtimeCfg >>= f = .op .runtimeCfg f := rfl

@[simp] theorem count_bind (c : Counter) (f : Unit → DpProg P α) :
    count c >>= f = .op (.count c) f := rfl

@[simp] theorem trusted_bind (a : Addr) (f : Option U32 → DpProg P α) :
    trusted a >>= f = .op (.trusted a) f := rfl

@[simp] theorem acl_bind (p : Proto) (a : Addr) (f : Option AclVal → DpProg P α) :
    acl p a >>= f = .op (.acl p a) f := rfl

@[simp] theorem abuseipdb_bind (a : U32) (f : Option U32 → DpProg P α) :
    abuseipdb a >>= f = .op (.abuseipdb a) f := rfl

@[simp] theorem whitelist_bind (p : Proto) (destPort : U32) (f : Option U32 → DpProg P α) :
    whitelist p destPort >>= f = .op (.whitelist p destPort) f := rfl

@[simp] theorem hblk_bind (a : Addr) (f : Option U64 → DpProg P α) :
    hblk a >>= f = .op (.hblk a) f := rfl

@[simp] theorem sit4Endpoint_bind (a : U32) (f : Option U32 → DpProg P α) :
    sit4Endpoint a >>= f = .op (.sit4Endpoint a) f := rfl

@[simp] theorem tcpPolicy_bind (destPort : U32) (f : Option TcpPortPolicyCfg → DpProg P α) :
    tcpPolicy destPort >>= f = .op (.tcpPolicy destPort) f := rfl

@[simp] theorem udpPolicy_bind (destPort : U32) (f : Option UdpPortPolicyCfg → DpProg P α) :
    udpPolicy destPort >>= f = .op (.udpPolicy destPort) f := rfl

@[simp] theorem limit_bind (q : Limiter) (f : XdpAction → DpProg P α) :
    limit q >>= f = .op (.limit q) f := rfl

@[simp] theorem recordEstablished_bind (key : FlowKey) (now : U64) (destPort : U32)
    (cfg : Option XdpRuntimeCfg) (f : Unit → DpProg P α) :
    recordEstablished key now destPort cfg >>= f =
      .op (.recordEstablished key now destPort cfg) f := rfl

@[simp] theorem recordActivity_bind (key : FlowKey) (now : U64) (destPort : U32)
    (f : Unit → DpProg P α) :
    recordActivity key now destPort >>= f = .op (.recordActivity key now destPort) f := rfl

@[simp] theorem recordClose_bind (key : FlowKey) (now : U64) (destPort : U32)
    (f : Unit → DpProg P α) :
    recordClose key now destPort >>= f = .op (.recordClose key now destPort) f := rfl

@[simp] theorem ctLookup_bind (m : CtMap) (key : FlowKey) (f : Option P → DpProg P α) :
    ctLookup m key >>= f = .op (.ctLookup m key) f := rfl

@[simp] theorem ctLoad_bind (p : P) (f : U64 → DpProg P α) :
    ctLoad p >>= f = .op (.ctLoad p) f := rfl

@[simp] theorem ctCas_bind (p : P) (old new : U64) (f : U64 → DpProg P α) :
    ctCas p old new >>= f = .op (.ctCas p old new) f := rfl

@[simp] theorem ctUpdate_bind (m : CtMap) (key : FlowKey) (v : U64) (flag : UpdateFlag)
    (f : Bool → DpProg P α) :
    ctUpdate m key v flag >>= f = .op (.ctUpdate m key v flag) f := rfl

@[simp] theorem ctDelete_bind (m : CtMap) (key : FlowKey) (f : Bool → DpProg P α) :
    ctDelete m key >>= f = .op (.ctDelete m key) f := rfl

@[simp] theorem tcpPending_bind (key : FlowKey) (f : Option U32 → DpProg P α) :
    tcpPending key >>= f = .op (.tcpPending key) f := rfl

@[simp] theorem udpValidUntil_bind (key : FlowKey) (f : Option U64 → DpProg P α) :
    udpValidUntil key >>= f = .op (.udpValidUntil key) f := rfl

@[simp] theorem tailCall_bind (t : ProgArray) (idx : U32) (f : Option XdpAction → DpProg P α) :
    tailCall t idx >>= f = .op (.tailCall t idx) f := rfl

end Calls

/-! One packet at a time: the programs on the maps. -/

/-- The maps, the readings that the clock will give, in order, with the number
already taken, and the loaded handlers: what each answers and does to the maps. -/
structure World where
  maps : Maps := {}
  clock : ℕ → U64
  reads : ℕ := 0
  handlers : ProgArray → U32 → Option (Maps → XdpAction × Maps) := fun _ _ => none

/-- A clock that gives these seconds in order, the last one for ever. -/
def clockOf (seconds : List ℕ) (i : ℕ) : U64 :=
  BitVec.ofNat 64 (seconds.getD i (seconds.getLast?.getD 0)*1000000000)

/-- In a run alone an element pointer is as good as the key it was found under. -/
abbrev CtRef := CtMap × FlowKey

namespace World

/-- The clock is read once. -/
def tick (w : World) : World := { w with reads := w.reads + 1 }

def ctLoad (w : World) (p : CtRef) : U64 := ((w.maps.ct p.1).lookup p.2).getD 0

def setCt (w : World) (m : CtMap) (t : BpfMap FlowKey U64) : World :=
  { w with maps := w.maps.setCt m t }

def setLimits (w : World) (l : Limits) : World := { w with maps := { w.maps with limits := l } }

def tcpPolicy (w : World) (destPort : U32) : Option TcpPortPolicyCfg :=
  (w.maps.tcpPortPolicies.lookup destPort).map tcpPolicyOfBytes

end World

def serial : Handler (dpInterface CtRef) World
  | .ktimeGetNs, w => (w.clock w.reads, { w with reads := w.reads + 1 })
  | .runtimeCfg, w => (w.maps.runtimeCfg, w)
  | .count c, w =>
    ((), { w with maps := { w.maps with
      pktCounters := Function.update w.maps.pktCounters c (w.maps.pktCounters c + 1) } })
  | .trusted a, w => (lpmLookup w.maps.trusted a, w)
  | .acl p a, w => (lpmLookup (w.maps.acl p) a, w)
  | .abuseipdb a, w => (lpmLookup w.maps.abuseipdb (.v4 a), w)
  | .whitelist p destPort, w => (arrayLookup 65536 (w.maps.whitelist p) destPort, w)
  | .hblk a, w => (w.maps.hblk.lookup a, w)
  | .sit4Endpoint a, w => (w.maps.sit4Endpoints.lookup a, w)
  | .tcpPolicy destPort, w => (w.tcpPolicy destPort, w)
  | .udpPolicy destPort, w =>
    ((w.maps.udpPortPolicies.lookup destPort).map udpPolicyOfBytes, w)
  | .limit q, w => ((q.run w.maps.limits).1, w.setLimits (q.run w.maps.limits).2)
  | .recordEstablished key now destPort cfg, w =>
    ((), w.setLimits (tcpSrcConnRecordEstablished key now destPort cfg (w.tcpPolicy destPort)
      w.maps.limits))
  | .recordActivity key now destPort, w =>
    ((), w.setLimits (tcpSrcConnRecordActivity key now destPort (w.tcpPolicy destPort)
      w.maps.limits))
  | .recordClose key now destPort, w =>
    ((), w.setLimits (tcpSrcConnRecordClose key now destPort (w.tcpPolicy destPort)
      w.maps.limits))
  | .ctLookup m key, w => (if key ∈ w.maps.ct m then some (m, key) else none, w)
  | .ctLoad p, w => (w.ctLoad p, w)
  | .ctCas p old new, w =>
    (w.ctLoad p,
      if p.2 ∈ w.maps.ct p.1 ∧ w.ctLoad p = old then
        w.setCt p.1 ((w.maps.ct p.1).insert p.2 new) else w)
  | .ctUpdate m key v flag, w =>
    ((mapUpdate (w.maps.ct m) key v flag).1, w.setCt m (mapUpdate (w.maps.ct m) key v flag).2)
  | .ctDelete m key, w => (decide (key ∈ w.maps.ct m), w.setCt m ((w.maps.ct m).erase key))
  | .tcpPending key, w => (w.maps.tcpPd.lookup key, w)
  | .udpValidUntil key, w => (w.maps.udpHv.lookup key, w)
  | .tailCall t idx, w =>
    match w.handlers t idx with
    | some h => (some (h w.maps).1, { w with maps := (h w.maps).2 })
    | none => (none, w)

/-! What one call leaves alone. -/

/-- Loaded handlers do not write the tunables, and write no half-open entry
(`verify_and_pass` of `minecraft_handler.c` writes established ones). -/
def HandlersAddNoHalfOpen (w : World) : Prop :=
  ∀ t idx h m, w.handlers t idx = some h → (h m).2.runtimeCfg = m.runtimeCfg ∧
    ∀ key raw, (h m).2.tcpCt.lookup key = some raw → isPending raw = true →
      m.tcpCt.lookup key = some raw

/-- A call that may write the TCP conntrack. -/
def WritesTcp : DpOp CtRef → Prop
  | .ctCas p _ _ => p.1 = .tcp
  | .ctUpdate m _ _ _ => m = .tcp
  | .ctDelete m _ => m = .tcp
  | .tailCall _ _ => True
  | _ => False

section Frame

variable (o : DpOp CtRef) (w : World)

@[simp] theorem setCt_clock (m : CtMap) (t : BpfMap FlowKey U64) : (w.setCt m t).clock = w.clock :=
  rfl

@[simp] theorem setCt_reads (m : CtMap) (t : BpfMap FlowKey U64) : (w.setCt m t).reads = w.reads :=
  rfl

@[simp] theorem setCt_handlers (m : CtMap) (t : BpfMap FlowKey U64) :
    (w.setCt m t).handlers = w.handlers := rfl

@[simp] theorem setCt_runtimeCfg (m : CtMap) (t : BpfMap FlowKey U64) :
    (w.setCt m t).maps.runtimeCfg = w.maps.runtimeCfg := by cases m <;> rfl

@[simp] theorem setCt_tcp (t : BpfMap FlowKey U64) : (w.setCt .tcp t).maps.tcpCt = t := rfl

theorem setCt_tcpCt (m : CtMap) (t : BpfMap FlowKey U64) (hm : m ≠ .tcp) :
    (w.setCt m t).maps.tcpCt = w.maps.tcpCt := by
  cases m with
  | tcp => exact absurd rfl hm
  | _ => rfl

/-- A compare-and-swap writes its entry or nothing. -/
theorem serial_ctCas_cases (p : CtRef) (old new : U64) :
    (serial (.ctCas p old new) w).2 = w.setCt p.1 ((w.maps.ct p.1).insert p.2 new) ∨
      (serial (.ctCas p old new) w).2 = w := by
  change (if p.2 ∈ w.maps.ct p.1 ∧ w.ctLoad p = old then _ else w) = _ ∨
    (if p.2 ∈ w.maps.ct p.1 ∧ w.ctLoad p = old then _ else w) = _
  split_ifs
  · exact Or.inl rfl
  · exact Or.inr rfl

/-- A tail call runs the loaded handler, if there is one. -/
theorem serial_tailCall_cases (t : ProgArray) (idx : U32) :
    (∃ h, w.handlers t idx = some h ∧
      (serial (.tailCall t idx) w).2 = { w with maps := (h w.maps).2 }) ∨
    (serial (.tailCall t idx) w).2 = w := by
  simp only [serial]
  cases w.handlers t idx with
  | none => exact Or.inr rfl
  | some h => exact Or.inl ⟨h, rfl, rfl⟩

theorem serial_clock : (serial o w).2.clock = w.clock := by
  cases o with
  | ctCas p old new =>
    obtain h | h := serial_ctCas_cases w p old new
    · rw [h, setCt_clock]
    · rw [h]
  | tailCall t idx =>
    obtain ⟨f, -, h⟩ | h := serial_tailCall_cases w t idx
    · rw [h]
    · rw [h]
  | _ => rfl

theorem serial_handlers : (serial o w).2.handlers = w.handlers := by
  cases o with
  | ctCas p old new =>
    obtain h | h := serial_ctCas_cases w p old new
    · rw [h, setCt_handlers]
    · rw [h]
  | tailCall t idx =>
    obtain ⟨f, -, h⟩ | h := serial_tailCall_cases w t idx
    · rw [h]
    · rw [h]
  | _ => rfl

theorem serial_reads : w.reads ≤ (serial o w).2.reads := by
  cases o with
  | ktimeGetNs => exact Nat.le_succ _
  | ctCas p old new =>
    obtain h | h := serial_ctCas_cases w p old new
    · rw [h, setCt_reads]
    · rw [h]
  | tailCall t idx =>
    obtain ⟨f, -, h⟩ | h := serial_tailCall_cases w t idx
    · rw [h]
    · rw [h]
  | _ => exact Nat.le_refl _

theorem serial_runtimeCfg (hw : HandlersAddNoHalfOpen w) :
    (serial o w).2.maps.runtimeCfg = w.maps.runtimeCfg := by
  cases o with
  | ctCas p old new =>
    obtain h | h := serial_ctCas_cases w p old new
    · rw [h, setCt_runtimeCfg]
    · rw [h]
  | ctUpdate m k v flag => exact setCt_runtimeCfg w m _
  | ctDelete m k => exact setCt_runtimeCfg w m _
  | tailCall t idx =>
    obtain ⟨f, hf, h⟩ | h := serial_tailCall_cases w t idx
    · rw [h]
      exact (hw t idx f w.maps hf).1
    · rw [h]
  | _ => rfl

theorem serial_tcpCt (ho : ¬WritesTcp o) :
    (serial o w).2.maps.tcpCt = w.maps.tcpCt := by
  cases o with
  | ctCas p old new =>
    obtain h | h := serial_ctCas_cases w p old new
    · rw [h, setCt_tcpCt w p.1 _ ho]
    · rw [h]
  | ctUpdate m k v flag => exact setCt_tcpCt w m _ ho
  | ctDelete m k => exact setCt_tcpCt w m _ ho
  | tailCall t idx => exact absurd trivial ho
  | _ => rfl

/-- A tail call adds no half-open entry. -/
theorem serial_tailCall_halfOpen (hw : HandlersAddNoHalfOpen w) (t : ProgArray) (idx : U32)
    (key : FlowKey) (raw : U64)
    (hl : (serial (.tailCall t idx) w).2.maps.tcpCt.lookup key = some raw)
    (hp : isPending raw = true) : w.maps.tcpCt.lookup key = some raw := by
  obtain ⟨f, hf, h⟩ | h := serial_tailCall_cases w t idx
  · rw [h] at hl
    exact (hw t idx f w.maps hf).2 key raw hl hp
  · rw [h] at hl
    exact hl

theorem serial_handlersAddNoHalfOpen (hw : HandlersAddNoHalfOpen w) :
    HandlersAddNoHalfOpen (serial o w).2 := by
  rw [HandlersAddNoHalfOpen, serial_handlers]
  exact hw

end Frame

end AutoXdp
