import AutoXdp.BackendMaps
import Mathlib.Tactic.Basic

/-! Desired and applied state, the plan between them, and its application by the
XDP backend (`auto_xdp/state.py`, `backends/xdp.py`). What only the log messages
use is left out. -/
namespace AutoXdp
open StateSteps

/-! `auto_xdp/state.py`. -/

structure DesiredState where
  tcpPorts : List U32 := []
  udpPorts : List U32 := []
  sctpPorts : List U32 := []
  trustedCidrs : List LpmKey := []
  conntrackEntries : List FlowKey := []
  tcpSynRateLimits : BpfMap U32 U32 := ∅
  tcpSynAggRateLimits : BpfMap U32 U32 := ∅
  tcpConnLimits : BpfMap U32 U32 := ∅
  tcpConnPrefixLimits : BpfMap U32 U32 := ∅
  tcpConnPortLimits : BpfMap U32 U32 := ∅
  udpRateLimits : BpfMap U32 U32 := ∅
  udpAggRateLimits : BpfMap U32 U32 := ∅
  tcpRateMapEntries : BpfMap U32 U32 := ∅
  udpRateMapEntries : BpfMap U32 U32 := ∅
  aclRules : BpfMap (String × LpmKey) (List U16) := ∅
  bogonFilterEnabled : Bool := false
  dropEventsEnabled : Bool := true
  rateLimitSourcePrefixV4 : U32 := 32
  rateLimitSourcePrefixV6 : U32 := 128
  udpGlobalByteRate : U32 := 0
  xdpRuntimeConfig : XdpRuntimeCfg :=
    { tcpTimeoutNs := 300*nsPerSec
      udpTimeoutNs := 60*nsPerSec
      ctRefreshNs := 30*nsPerSec
      icmpTokenMax := 100
      icmpNsPerToken := 10000000
      udpGlobalWindowNs := nsPerSec
      rateWindowNs := nsPerSec
      synTimeoutNs := 30*nsPerSec }

structure AppliedState where
  tcpPorts : List U32
  udpPorts : List U32
  sctpPorts : List U32
  trustedCidrs : List LpmKey
  conntrackEntries : List FlowKey
  tcpSynRateLimits : BpfMap U32 U32
  tcpSynAggRateLimits : BpfMap U32 U32
  tcpConnLimits : BpfMap U32 U32
  tcpConnPrefixLimits : BpfMap U32 U32
  tcpConnPortLimits : BpfMap U32 U32
  udpRateLimits : BpfMap U32 U32
  udpAggRateLimits : BpfMap U32 U32
  aclRules : BpfMap (String × LpmKey) (List U16)
  bogonFilterEnabled : Option Bool
  dropEventsEnabled : Option Bool
  udpGlobalByteRate : Option U32
  xdpRuntimeConfig : Option XdpRuntimeCfg

structure ReconcilePlan where
  tcpPortsToAdd : List U32 := []
  tcpPortsToRemove : List U32 := []
  udpPortsToAdd : List U32 := []
  udpPortsToRemove : List U32 := []
  sctpPortsToAdd : List U32 := []
  sctpPortsToRemove : List U32 := []
  trustedCidrsToAdd : List LpmKey := []
  trustedCidrsToRemove : List LpmKey := []
  conntrackEntriesToAdd : List FlowKey := []
  conntrackEntriesToRemove : List FlowKey := []
  tcpSynRateLimitsToUpsert : List (U32 × U32) := []
  tcpSynRateLimitsToRemove : List U32 := []
  tcpSynAggRateLimitsToUpsert : List (U32 × U32) := []
  tcpSynAggRateLimitsToRemove : List U32 := []
  tcpConnLimitsToUpsert : List (U32 × U32) := []
  tcpConnLimitsToRemove : List U32 := []
  tcpConnPrefixLimitsToUpsert : List (U32 × U32) := []
  tcpConnPrefixLimitsToRemove : List U32 := []
  tcpConnPortLimitsToUpsert : List (U32 × U32) := []
  tcpConnPortLimitsToRemove : List U32 := []
  udpRateLimitsToUpsert : List (U32 × U32) := []
  udpRateLimitsToRemove : List U32 := []
  udpAggRateLimitsToUpsert : List (U32 × U32) := []
  udpAggRateLimitsToRemove : List U32 := []
  aclRulesToUpsert : List ((String × LpmKey) × List U16) := []
  aclRulesToRemove : List (String × LpmKey) := []
  bogonFilterUpdate : Option Bool := none
  dropEventsUpdate : Option Bool := none
  udpGlobalByteRateUpdate : Option U32 := none

section Dicts

variable {κ ν : Type} [DecidableEq κ] [DecidableEq ν]

def dictItems (t : BpfMap κ ν) : List (κ × ν) := t.entries.map fun e => (e.1, e.2)

/-- `_dict_upserts` and `_acl_upserts`. -/
def dictUpserts (desired applied : BpfMap κ ν) : List (κ × ν) :=
  (dictItems desired).filter fun e => applied.lookup e.1 ≠ some e.2

/-- `_dict_removals`. -/
def dictRemovals (desired applied : BpfMap κ ν) : List κ := setDiff applied.keys desired.keys

end Dicts

/-- The update that a missing or different applied value asks for. -/
def updateOf {α : Type} [DecidableEq α] (desired : α) (applied : Option α) : Option α :=
  if applied = some desired then none else some desired

def computeReconcilePlan (desired : DesiredState) (applied : AppliedState) : ReconcilePlan where
  tcpPortsToAdd := setDiff desired.tcpPorts applied.tcpPorts
  tcpPortsToRemove := setDiff applied.tcpPorts desired.tcpPorts
  udpPortsToAdd := setDiff desired.udpPorts applied.udpPorts
  udpPortsToRemove := setDiff applied.udpPorts desired.udpPorts
  sctpPortsToAdd := setDiff desired.sctpPorts applied.sctpPorts
  sctpPortsToRemove := setDiff applied.sctpPorts desired.sctpPorts
  trustedCidrsToAdd := setDiff desired.trustedCidrs applied.trustedCidrs
  trustedCidrsToRemove := setDiff applied.trustedCidrs desired.trustedCidrs
  conntrackEntriesToAdd := setDiff desired.conntrackEntries applied.conntrackEntries
  conntrackEntriesToRemove := setDiff applied.conntrackEntries desired.conntrackEntries
  tcpSynRateLimitsToUpsert := dictUpserts desired.tcpSynRateLimits applied.tcpSynRateLimits
  tcpSynRateLimitsToRemove := dictRemovals desired.tcpSynRateLimits applied.tcpSynRateLimits
  tcpSynAggRateLimitsToUpsert :=
    dictUpserts desired.tcpSynAggRateLimits applied.tcpSynAggRateLimits
  tcpSynAggRateLimitsToRemove :=
    dictRemovals desired.tcpSynAggRateLimits applied.tcpSynAggRateLimits
  tcpConnLimitsToUpsert := dictUpserts desired.tcpConnLimits applied.tcpConnLimits
  tcpConnLimitsToRemove := dictRemovals desired.tcpConnLimits applied.tcpConnLimits
  tcpConnPrefixLimitsToUpsert :=
    dictUpserts desired.tcpConnPrefixLimits applied.tcpConnPrefixLimits
  tcpConnPrefixLimitsToRemove :=
    dictRemovals desired.tcpConnPrefixLimits applied.tcpConnPrefixLimits
  tcpConnPortLimitsToUpsert := dictUpserts desired.tcpConnPortLimits applied.tcpConnPortLimits
  tcpConnPortLimitsToRemove := dictRemovals desired.tcpConnPortLimits applied.tcpConnPortLimits
  udpRateLimitsToUpsert := dictUpserts desired.udpRateLimits applied.udpRateLimits
  udpRateLimitsToRemove := dictRemovals desired.udpRateLimits applied.udpRateLimits
  udpAggRateLimitsToUpsert := dictUpserts desired.udpAggRateLimits applied.udpAggRateLimits
  udpAggRateLimitsToRemove := dictRemovals desired.udpAggRateLimits applied.udpAggRateLimits
  aclRulesToUpsert := dictUpserts desired.aclRules applied.aclRules
  aclRulesToRemove := dictRemovals desired.aclRules applied.aclRules
  bogonFilterUpdate := updateOf desired.bogonFilterEnabled applied.bogonFilterEnabled
  dropEventsUpdate := updateOf desired.dropEventsEnabled applied.dropEventsEnabled
  udpGlobalByteRateUpdate := updateOf desired.udpGlobalByteRate applied.udpGlobalByteRate

namespace ReconcilePlan

def portsToAdd (plan : ReconcilePlan) : Proto → List U32
  | .tcp => plan.tcpPortsToAdd
  | .udp => plan.udpPortsToAdd

def portsToRemove (plan : ReconcilePlan) : Proto → List U32
  | .tcp => plan.tcpPortsToRemove
  | .udp => plan.udpPortsToRemove

end ReconcilePlan

/-- `rate_map_entries_v6` of `auto_xdp/policy.py`. -/
def rateMapEntriesV6 (cfg : Config) (v4Entries : U32) : U32 :=
  if v4Entries = cfg.rateMapEntriesV4 then cfg.rateMapEntriesV6
  else BitVec.ofNat 32 (max (v4Entries.toNat / 4) 64)

/-! `auto_xdp/backends/xdp.py`. -/

namespace XdpBackend

def xdpCfgFlagDropEventsDisabled : U32 := 1#32 <<< 2

/-- `_compute_cfg_flags`. -/
def computeCfgFlags (cfg : Config) (desired : DesiredState) : U32 :=
  (if desired.bogonFilterEnabled then 0 else xdpCfgFlagBogonDisabled) |||
  (if desired.dropEventsEnabled then 0 else xdpCfgFlagDropEventsDisabled) |||
  (if cfg.abuseipdbEnabled then xdpCfgFlagAbuseipdbEnabled else 0) |||
  (if cfg.slotDefaultDrop then xdpCfgFlagSlotDrop else 0)

/-- The eight timing fields, without the flags. -/
def timings (raw : XdpRuntimeCfg) : XdpRuntimeCfg := { raw with cfgFlags := 0 }

/-- `_cfg_flag_bogon` and `_cfg_flag_drop_events`: `not bool(flags & mask)`. -/
def cfgFlagClear (mask : U32) : DaemonM (Option Bool) := do
  let d ← get
  if d.opened .runtimeConfig then
    let raw ← BpfRuntimeConfigMap.lookupRaw
    return raw.map fun c => c.cfgFlags &&& mask == 0
  else return none

/-- The limits that a view of an open policy map shows. -/
def activeLimits (d : Daemon) (p : Proto) (index : Fin 8) : BpfMap U32 U32 :=
  if d.opened (.policy p) then BpfPortPolicyViewMap.active d ⟨p, index⟩ else ∅

/-- `global_rl_map.get()`, of a map that exists. -/
def readGlobalRl : DaemonM (Option U32) := do
  let d ← get
  if d.opened .globalRl then
    let rate ← BpfGlobalRlMap.get
    return some rate
  else return none

/-- `runtime_config_map.get()`, of a map that exists. -/
def readRuntimeConfig : DaemonM (Option XdpRuntimeCfg) := do
  let d ← get
  if d.opened .runtimeConfig then
    let raw ← BpfRuntimeConfigMap.lookupRaw
    return raw.map timings
  else return none

/-- The applied state as the caches show it, with the four values read. -/
def cachedState (d : Daemon) (bogon dropEvents : Option Bool) (rate : Option U32)
    (runtime : Option XdpRuntimeCfg) : AppliedState where
  tcpPorts := BpfArrayMap.activePorts d .tcp
  udpPorts := BpfArrayMap.activePorts d .udp
  sctpPorts := if d.opened .sctp then BpfArrayMap.activePorts d .sctp else []
  trustedCidrs := BpfTrustedMaps.activeKeys d
  conntrackEntries := BpfConntrackMaps.activeKeys d .tcp
  tcpSynRateLimits := activeLimits d .tcp 0
  tcpSynAggRateLimits := activeLimits d .tcp 1
  tcpConnLimits := activeLimits d .tcp 2
  tcpConnPrefixLimits := activeLimits d .tcp 5
  tcpConnPortLimits := activeLimits d .tcp 6
  udpRateLimits := activeLimits d .udp 0
  udpAggRateLimits := activeLimits d .udp 1
  aclRules := if d.opened .acl then BpfAclMaps.activeEntries d else ∅
  bogonFilterEnabled := bogon
  dropEventsEnabled := dropEvents
  udpGlobalByteRate := rate
  xdpRuntimeConfig := runtime

def getAppliedState : DaemonM AppliedState := do
  let d ← get
  let bogon ← cfgFlagClear xdpCfgFlagBogonDisabled
  let dropEvents ← cfgFlagClear xdpCfgFlagDropEventsDisabled
  let rate ← readGlobalRl
  let runtime ← readRuntimeConfig
  return cachedState d bogon dropEvents rate runtime

/-- `self._conntrack_stale_rounds.pop(key, None)`. -/
def popStaleRounds (key : FlowKey) (d : Daemon) : Daemon :=
  { d with conntrackStaleRounds := d.conntrackStaleRounds.erase key }

def setStaleRounds (key : FlowKey) (rounds : ℕ) (d : Daemon) : Daemon :=
  { d with conntrackStaleRounds := d.conntrackStaleRounds.insert key rounds }

/-- One more round without `key`; it is ready after enough of them. -/
def missStale (cfg : Config) (ready : List FlowKey) (key : FlowKey) : DaemonM (List FlowKey) := do
  let d ← get
  let rounds := (d.conntrackStaleRounds.lookup key).getD 0 + 1
  modify (setStaleRounds key rounds)
  return if cfg.xdpConntrackStaleReconciles ≤ rounds then ready ++ [key] else ready

/-- The bookkeeping of `build_reconcile_plan`: the keys of `toRemove` that have been
missing for enough rounds. -/
def countStaleRounds (cfg : Config) (desiredKeys toRemove : List FlowKey) :
    DaemonM (List FlowKey) := do
  desiredKeys.forM fun key => modify (popStaleRounds key)
  let staleReady ← toRemove.foldlM (missStale cfg) []
  let d ← get
  (setDiff d.conntrackStaleRounds.keys toRemove).forM fun key => modify (popStaleRounds key)
  return staleReady

def buildReconcilePlan (cfg : Config) (desired : DesiredState) (applied : AppliedState) :
    DaemonM ReconcilePlan := do
  let plan := computeReconcilePlan desired applied
  let presentDesired ← BpfConntrackMaps.existingKeys .tcp desired.conntrackEntries
  let staleReady ← countStaleRounds cfg desired.conntrackEntries plan.conntrackEntriesToRemove
  return { plan with
    conntrackEntriesToAdd := setDiff desired.conntrackEntries presentDesired
    conntrackEntriesToRemove := staleReady }

/-- `_ok`. -/
def ok (m : DaemonM Bool) : DaemonM Bool := do
  let result ← m
  if !result then modify fun d => { d with lastApplyFailures := d.lastApplyFailures + 1 }
  return result

/-- `for port in sorted(ports): self._ok(port_map.set(port, val, dry_run))`. -/
def setPorts (m : PortMap) (ports : List U32) (val : U32) (dryRun : Bool) : DaemonM PUnit :=
  (sorted ports).forM fun port => discard (ok (BpfArrayMap.set m port val dryRun))

def seedConntrack (keys : List FlowKey) (dryRun : Bool) : DaemonM PUnit :=
  keys.forM fun key => do
    if ← ok (BpfConntrackMaps.set .tcp key dryRun) then modify (popStaleRounds key)

def removeStaleConntrack (keys : List FlowKey) (dryRun : Bool) : DaemonM PUnit :=
  keys.forM fun key => do
    if ← ok (BpfConntrackMaps.delete .tcp .ok key dryRun) then modify (popStaleRounds key)

def applySctpDelta (plan : ReconcilePlan) (dryRun : Bool) : DaemonM PUnit := do
  let d ← get
  if d.opened .sctp then
    setPorts .sctp plan.sctpPortsToAdd 1 dryRun
    setPorts .sctp plan.sctpPortsToRemove 0 dryRun

def applyTrustedDelta (cfg : Config) (plan : ReconcilePlan) (dryRun : Bool) : DaemonM PUnit := do
  plan.trustedCidrsToAdd.forM fun cidr => discard (ok (BpfTrustedMaps.set cidr 1 dryRun))
  (setDiff plan.trustedCidrsToRemove cfg.trustedSrcIps).forM fun cidr =>
    discard (ok (BpfTrustedMaps.delete cidr dryRun))

/-- `_apply_rate_map_delta`, on a view that exists. -/
def applyRateMapDelta (cfg : Config) (view : PolicyView) (upserts : List (U32 × U32))
    (removals : List U32) (dryRun : Bool) : DaemonM PUnit := do
  let d ← get
  if d.opened (.policy view.proto) then
    upserts.forM fun e => discard (ok (BpfPortPolicyViewMap.set cfg view e.1 e.2 dryRun))
    removals.forM fun port => discard (ok (BpfPortPolicyViewMap.delete view port dryRun))

def applyTcpLimits (cfg : Config) (plan : ReconcilePlan) (dryRun : Bool) : DaemonM PUnit := do
  applyRateMapDelta cfg ⟨.tcp, 0⟩ plan.tcpSynRateLimitsToUpsert plan.tcpSynRateLimitsToRemove dryRun
  applyRateMapDelta cfg ⟨.tcp, 1⟩ plan.tcpSynAggRateLimitsToUpsert
    plan.tcpSynAggRateLimitsToRemove dryRun
  applyRateMapDelta cfg ⟨.tcp, 2⟩ plan.tcpConnLimitsToUpsert plan.tcpConnLimitsToRemove dryRun
  applyRateMapDelta cfg ⟨.tcp, 5⟩ plan.tcpConnPrefixLimitsToUpsert
    plan.tcpConnPrefixLimitsToRemove dryRun
  applyRateMapDelta cfg ⟨.tcp, 6⟩ plan.tcpConnPortLimitsToUpsert
    plan.tcpConnPortLimitsToRemove dryRun

def applyUdpLimits (cfg : Config) (plan : ReconcilePlan) (dryRun : Bool) : DaemonM PUnit := do
  applyRateMapDelta cfg ⟨.udp, 0⟩ plan.udpRateLimitsToUpsert plan.udpRateLimitsToRemove dryRun
  applyRateMapDelta cfg ⟨.udp, 1⟩ plan.udpAggRateLimitsToUpsert plan.udpAggRateLimitsToRemove
    dryRun

/-- `_apply_rate_outer_delta`, on a map that exists. -/
def applyRateOuterDelta (m : OuterMap) (desired : List (U32 × U32)) (dryRun : Bool) :
    DaemonM PUnit := do
  let d ← get
  if d.opened (.rateOuter m) then
    let current := BpfRateOuterMap.active d m
    desired.forM fun e => do
      if current.lookup e.1 ≠ some e.2 then discard (ok (BpfRateOuterMap.set m e.1 e.2 dryRun))
    (setDiff current.keys (desired.map Prod.fst)).forM fun port =>
      discard (ok (BpfRateOuterMap.delete m port dryRun))

def applyRateOuters (cfg : Config) (desired : DesiredState) (dryRun : Bool) : DaemonM PUnit := do
  let tcpEntries := dictItems desired.tcpRateMapEntries
  let udpEntries := dictItems desired.udpRateMapEntries
  let v6 (e : U32 × U32) := (e.1, rateMapEntriesV6 cfg e.2)
  applyRateOuterDelta .syn4 tcpEntries dryRun
  applyRateOuterDelta .syn6 (tcpEntries.map v6) dryRun
  applyRateOuterDelta .udprt4 udpEntries dryRun
  applyRateOuterDelta .udprt6 (udpEntries.map v6) dryRun

/-- The ports with some limit, `tcp_policy_ports` and `udp_policy_ports`. -/
def policyPorts (desired : DesiredState) : Proto → List U32
  | .tcp => (desired.tcpSynRateLimits.keys ++ desired.tcpSynAggRateLimits.keys ++
      desired.tcpConnLimits.keys ++ desired.tcpConnPrefixLimits.keys ++
      desired.tcpConnPortLimits.keys).dedup
  | .udp => (desired.udpRateLimits.keys ++ desired.udpAggRateLimits.keys).dedup

def ensurePolicyPrefixes (p : Proto) (desired : DesiredState) (dryRun : Bool) : DaemonM PUnit := do
  let d ← get
  if d.opened (.policy p) then
    BpfPortPolicyMap.ensurePrefixes p (policyPorts desired p) desired.rateLimitSourcePrefixV4
      desired.rateLimitSourcePrefixV6 dryRun

/-- `_apply_acl_delta`. -/
def applyAclDelta (plan : ReconcilePlan) (dryRun : Bool) : DaemonM PUnit := do
  let d ← get
  if d.opened .acl then
    plan.aclRulesToUpsert.forM fun e => discard (ok (BpfAclMaps.set e.1.1 e.1.2 e.2 dryRun))
    plan.aclRulesToRemove.forM fun e => discard (ok (BpfAclMaps.delete e.1 e.2 dryRun))

def applyRuntimeConfig (cfg : Config) (desired : DesiredState) (dryRun : Bool) :
    DaemonM PUnit := do
  let d ← get
  if d.opened .runtimeConfig then
    let cfgFlags := computeCfgFlags cfg desired
    let current ← BpfRuntimeConfigMap.lookupRaw
    let raw ← BpfRuntimeConfigMap.lookupRaw
    let currentFlags := (raw.map XdpRuntimeCfg.cfgFlags).getD 0
    if some (timings desired.xdpRuntimeConfig) ≠ current.map timings ∨ cfgFlags ≠ currentFlags then
      discard (ok (BpfRuntimeConfigMap.set desired.xdpRuntimeConfig cfgFlags dryRun))

def applyGlobalRl (plan : ReconcilePlan) (dryRun : Bool) : DaemonM PUnit := do
  let d ← get
  match plan.udpGlobalByteRateUpdate with
  | some rate => if d.opened .globalRl then discard (ok (BpfGlobalRlMap.set rate dryRun))
  | none => return ⟨⟩

def applySit4 (cfg : Config) (dryRun : Bool) : DaemonM PUnit := do
  let d ← get
  if d.opened .sit4 then
    let current := BpfSit4EndpointsMap.activeKeys d
    (setDiff cfg.sit4Endpoints current).forM fun a =>
      discard (ok (BpfSit4EndpointsMap.set a dryRun))
    (setDiff current cfg.sit4Endpoints).forM fun a =>
      discard (ok (BpfSit4EndpointsMap.delete a dryRun))

/-! `apply_reconcile_plan` in three parts: ports close, protection is set up, ports
open. -/

def closeTcp (plan : ReconcilePlan) (dryRun : Bool) : DaemonM PUnit := do
  setPorts .tcp plan.tcpPortsToRemove 0 dryRun
  BpfConntrackMaps.deleteDestPorts .tcp plan.tcpPortsToRemove dryRun
  seedConntrack plan.conntrackEntriesToAdd dryRun
  removeStaleConntrack plan.conntrackEntriesToRemove dryRun

def closeUdp (plan : ReconcilePlan) (dryRun : Bool) : DaemonM PUnit := do
  setPorts .udp plan.udpPortsToRemove 0 dryRun
  BpfConntrackMaps.deleteDestPorts .udp plan.udpPortsToRemove dryRun

/-- The limits, from the SYN rates to `ensure_prefixes`. -/
def applyLimits (cfg : Config) (plan : ReconcilePlan) (dryRun : Bool) (desired : DesiredState) :
    DaemonM PUnit := do
  applyTcpLimits cfg plan dryRun
  applyUdpLimits cfg plan dryRun
  applyRateOuters cfg desired dryRun
  ensurePolicyPrefixes .tcp desired dryRun
  ensurePolicyPrefixes .udp desired dryRun

/-- What follows the limits. -/
def applyGlobals (cfg : Config) (plan : ReconcilePlan) (dryRun : Bool) (desired : DesiredState) :
    DaemonM PUnit := do
  applyAclDelta plan dryRun
  applyRuntimeConfig cfg desired dryRun
  applyGlobalRl plan dryRun
  applySit4 cfg dryRun

/-- Everything between the closing and the opening of TCP and UDP ports. -/
def protect (cfg : Config) (plan : ReconcilePlan) (dryRun : Bool) (desired : DesiredState) :
    DaemonM PUnit := do
  applySctpDelta plan dryRun
  applyTrustedDelta cfg plan dryRun
  applyLimits cfg plan dryRun desired
  applyGlobals cfg plan dryRun desired

def prepare (cfg : Config) (plan : ReconcilePlan) (dryRun : Bool) (desired : DesiredState) :
    DaemonM PUnit := do
  modify fun d => { d with lastApplyFailures := 0 }
  closeTcp plan dryRun
  closeUdp plan dryRun
  protect cfg plan dryRun desired

def expose (plan : ReconcilePlan) (dryRun : Bool) : DaemonM PUnit := do
  setPorts .tcp plan.tcpPortsToAdd 1 dryRun
  setPorts .udp plan.udpPortsToAdd 1 dryRun

/-- New ports open only when nothing counted failed. -/
def applyReconcilePlan (cfg : Config) (plan : ReconcilePlan) (dryRun : Bool)
    (desired : DesiredState) : DaemonM PUnit := do
  prepare cfg plan dryRun desired
  let d ← get
  if d.lastApplyFailures = 0 then expose plan dryRun

def reconcile (cfg : Config) (desired : DesiredState) (dryRun : Bool) : DaemonM PUnit := do
  let before ← get
  let applied ← getAppliedState
  let plan ← buildReconcilePlan cfg desired applied
  applyReconcilePlan cfg plan dryRun desired
  if dryRun then
    modify fun d => { d with conntrackStaleRounds := before.conntrackStaleRounds }

/-- `run_ct_gc`, with the three timeouts in nanoseconds. A map that cannot be listed ends
it. -/
def runCtGc (tcpTimeoutNs synTimeoutNs udpTimeoutNs : ℕ) : DaemonM PUnit := do
  if ← BpfConntrackMaps.gcExpired .tcp tcpTimeoutNs (some synTimeoutNs) then
    discard (BpfConntrackMaps.gcExpired .udp udpTimeoutNs none)

end XdpBackend

end AutoXdp
