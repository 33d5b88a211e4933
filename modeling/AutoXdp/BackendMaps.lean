import AutoXdp.BackendState
import Mathlib.Data.Fin.VecNotation
import Mathlib.Data.List.AList

/-! The map classes of `auto_xdp/bpf/maps.py`. A method that returns `False` has
caught an `OSError`. -/
namespace AutoXdp
open StateSteps WordBytes

namespace BpfArrayMap

def activePorts (d : Daemon) (m : PortMap) : List U32 := d.portCache m

def set (m : PortMap) (port val : U32) (dryRun : Bool) : DaemonM Bool :=
  cachedCall dryRun .ok (.setPort m port val) fun d =>
    d.setPortCache m
      (if val ≠ 0 then setAdd port (d.portCache m) else setDiscard port (d.portCache m))

end BpfArrayMap

namespace LpmKey

/-- `normalize_cidr` and `_pack_key`: the host bits are cleared. -/
def normalize (k : LpmKey) : LpmKey := ⟨k.prefixlen, k.addr.network k.prefixlen⟩

end LpmKey

namespace BpfTrustedMaps

def activeKeys (d : Daemon) : List LpmKey := d.trustedCache

def delete (cidr : LpmKey) (dryRun : Bool) : DaemonM Bool :=
  cachedCall dryRun .ok (.deleteTrusted cidr.normalize) fun d =>
    { d with trustedCache := setDiscard cidr.normalize d.trustedCache }

def set (cidr : LpmKey) (val : U32) (dryRun : Bool) : DaemonM Bool :=
  if val = 0 then delete cidr dryRun
  else
    cachedCall dryRun .ok (.updateTrusted cidr.normalize 1) fun d =>
      { d with trustedCache := setAdd cidr.normalize d.trustedCache }

end BpfTrustedMaps

/-! A `frozenset` of ports is the list of its members in ascending order. -/

namespace BpfAclMaps

/-- `_map_for`: everything that is not `"tcp"` is UDP. -/
def mapFor (proto : String) : Proto := if proto = "tcp" then .tcp else .udp

/-- `_pack_val`. -/
def packVal (ports : List U16) : AclVal :=
  let clamped := ports.take aclMaxPorts
  ⟨BitVec.ofNat 32 clamped.length, clamped ++ List.replicate (aclMaxPorts - clamped.length) 0⟩

def activeEntries (d : Daemon) : BpfMap (String × LpmKey) (List U16) :=
  let ofProto (proto : String) (p : Proto) : List (Σ _ : String × LpmKey, List U16) :=
    (d.aclCache p).entries.map fun e => ⟨(proto, e.1), e.2⟩
  (ofProto "tcp" .tcp ++ ofProto "udp" .udp).toAList

def set (proto : String) (cidr : LpmKey) (ports : List U16) (dryRun : Bool) : DaemonM Bool :=
  let p := mapFor proto
  cachedCall dryRun .ok (.updateAcl p cidr.normalize (packVal ports)) fun d =>
    d.setAclCache p ((d.aclCache p).insert cidr.normalize ports)

def delete (proto : String) (cidr : LpmKey) (dryRun : Bool) : DaemonM Bool :=
  let p := mapFor proto
  cachedCall dryRun .ok (.deleteAcl p cidr.normalize) fun d =>
    d.setAclCache p ((d.aclCache p).erase cidr.normalize)

end BpfAclMaps

namespace FlowKey

def isV4 : FlowKey → Bool
  | v4 .. => true
  | v6 .. => false

end FlowKey

namespace BpfConntrackMaps

/-- The loops run over the IPv4 map before the IPv6 map. -/
def byFamily (keys : List FlowKey) : List FlowKey :=
  keys.filter FlowKey.isV4 ++ keys.filter fun key => !key.isV4

@[simp] theorem mem_byFamily (key : FlowKey) (keys : List FlowKey) :
    key ∈ byFamily keys ↔ key ∈ keys := by
  simp only [byFamily, List.mem_append, List.mem_filter]
  cases key.isV4 <;> simp

def activeKeys (d : Daemon) (p : Proto) : List FlowKey := d.ctCache p

/-- One key of the loop of `existing_keys`, with the keys found so far. -/
def existingKey (p : Proto) (present : List FlowKey) (key : FlowKey) : DaemonM (List FlowKey) := do
  let ok ← bpf .reader (.lookupCt p key)
  let d ← get
  if ok then
    if key ∈ d.maps.ct p.ctMap then
      modify fun d => d.setCtCache p (setAdd key (d.ctCache p))
      return present ++ [key]
    else
      -- ENOENT
      modify fun d => d.setCtCache p (setDiscard key (d.ctCache p))
      return present
  else if key ∈ d.ctCache p then return present ++ [key]
  else return present

def existingKeys (p : Proto) (keys : List FlowKey) : DaemonM (List FlowKey) :=
  (byFamily keys).foldlM (existingKey p) []

def delete (p : Proto) (caller : Caller) (key : FlowKey) (dryRun : Bool) : DaemonM Bool :=
  cachedCall dryRun caller (.deleteCt p key) fun d =>
    d.setCtCache p (setDiscard key (d.ctCache p))

/-- Only cached keys are looked at, and no outcome is. -/
def deleteDestPorts (p : Proto) (ports : List U32) (dryRun : Bool) : DaemonM PUnit := do
  let d ← get
  let keys := byFamily ((d.ctCache p).filter fun key => key.destPort ∈ ports)
  keys.forM fun key => discard (delete p .deleteDestPorts key dryRun)

def set (p : Proto) (key : FlowKey) (dryRun : Bool) : DaemonM Bool := do
  let d ← get
  cachedCall dryRun .ok (.updateCt p key (d.monotonicNs d.log.length)) fun d =>
    d.setCtCache p (setAdd key (d.ctCache p))

/-- The entry test of `gc_expired`, on unbounded integers. -/
def gcStale (timeoutNs : ℕ) (synTimeoutNs : Option ℕ) (now raw : U64) : Bool :=
  let limit := if isPending raw then synTimeoutNs.getD timeoutNs else timeoutNs
  decide (limit + (stamp raw).toNat < now.toNat)

/-- `gc_expired` of the IPv4 or the IPv6 map, with whether it returned: the listing of the
keys may raise. A key that vanished or whose lookup fails is skipped. -/
def gcFamily (p : Proto) (isV4 : Bool) (timeoutNs : ℕ) (synTimeoutNs : Option ℕ) :
    DaemonM Bool := do
  let d ← get
  let now := d.monotonicNs d.log.length
  if !(← bpf .gcExpired (.iterateCt p)) then return false
  else
    let allKeys := (d.maps.ct p.ctMap).keys.filter fun key => key.isV4 == isV4
    let toDelete ← allKeys.foldlM (fun found key => do
      let ok ← bpf .gcExpired (.lookupCt p key)
      let d ← get
      match (d.maps.ct p.ctMap).lookup key with
      | some raw =>
        if ok && gcStale timeoutNs synTimeoutNs now raw then return found ++ [key]
        else return found
      | none => return found) []
    toDelete.forM fun key => discard (delete p .gcExpired key false)
    return true

/-- `gc_expired` of the pair: the IPv6 map is left alone when the IPv4 map raises. -/
def gcExpired (p : Proto) (timeoutNs : ℕ) (synTimeoutNs : Option ℕ) : DaemonM Bool := do
  if ← gcFamily p true timeoutNs synTimeoutNs then gcFamily p false timeoutNs synTimeoutNs
  else return false

end BpfConntrackMaps

namespace BpfRateOuterMap

def active (d : Daemon) (m : OuterMap) : BpfMap U32 U32 := d.outerCache m

def set (m : OuterMap) (port capacity : U32) (dryRun : Bool) : DaemonM Bool := do
  let d ← get
  if (d.outerCache m).lookup port = some capacity then return true
  else if dryRun then return true
  else if !(← bpf .ok (.createInner m port capacity)) then return false
  else
    cachedCall false .ok (.updateSlot m port) fun d =>
      d.setOuterCache m ((d.outerCache m).insert port capacity)

def delete (m : OuterMap) (port : U32) (dryRun : Bool) : DaemonM Bool := do
  let d ← get
  if port ∈ d.outerCache m then
    cachedCall dryRun .ok (.deleteSlot m port) fun d =>
      d.setOuterCache m ((d.outerCache m).erase port)
  else return true

end BpfRateOuterMap

namespace BpfPortPolicyMap

def setFields (p : Proto) (caller : Caller) (port : U32) (fields : PolicyFields) (dryRun : Bool) :
    DaemonM Bool :=
  cachedCall dryRun caller (.updatePolicy p port (packFields fields)) fun d =>
    d.setPolicyCache p ((d.policyCache p).insert port fields)

/-- The tuple with the two prefixes replaced. -/
def withPrefixes (prefixV4 prefixV6 : U32) (fields : PolicyFields) : PolicyFields :=
  Function.update (Function.update fields 3 prefixV4) 4 prefixV6

/-- One port of the loop of `ensure_prefixes`; the outcome is not looked at. -/
def ensurePrefix (p : Proto) (prefixV4 prefixV6 : U32) (dryRun : Bool) (port : U32) :
    DaemonM PUnit := do
  let d ← get
  match (d.policyCache p).lookup port with
  | none => return ⟨⟩
  | some current =>
    let fields := withPrefixes prefixV4 prefixV6 current
    if fields ≠ current then discard (setFields p .ensurePrefixes port fields dryRun)
    else return ⟨⟩

def ensurePrefixes (p : Proto) (ports : List U32) (prefixV4 prefixV6 : U32) (dryRun : Bool) :
    DaemonM PUnit :=
  (sorted ports).forM (ensurePrefix p prefixV4 prefixV6 dryRun)

def delete (p : Proto) (port : U32) (dryRun : Bool) : DaemonM Bool :=
  cachedCall dryRun .ok (.deletePolicy p port) fun d =>
    d.setPolicyCache p ((d.policyCache p).erase port)

end BpfPortPolicyMap

/-- One limit of the shared policy structs: the map and the word. -/
structure PolicyView where
  proto : Proto
  index : Fin 8
  deriving DecidableEq, Repr

namespace BpfPortPolicyViewMap

/-- The tuple a new entry starts from. -/
def defaultFields (cfg : Config) : PolicyFields :=
  ![0, 0, 0, cfg.rateLimitSourcePrefixV4, cfg.rateLimitSourcePrefixV6, 0, 0, 0]

/-- `fields[:3] == (0, 0, 0)`. -/
def firstThreeZero (fields : PolicyFields) : Bool :=
  fields 0 = 0 && fields 1 = 0 && fields 2 = 0

def active (d : Daemon) (view : PolicyView) : BpfMap U32 U32 :=
  (((d.policyCache view.proto).entries.map fun e =>
    (⟨e.1, e.2 view.index⟩ : Σ _ : U32, U32)).filter fun e => e.2 ≠ 0).toAList

/-- The end of `set` and `delete`. -/
def store (view : PolicyView) (port : U32) (fields : PolicyFields) (dryRun : Bool) :
    DaemonM Bool :=
  if firstThreeZero fields then BpfPortPolicyMap.delete view.proto port dryRun
  else BpfPortPolicyMap.setFields view.proto .ok port fields dryRun

def set (cfg : Config) (view : PolicyView) (port rateMax : U32) (dryRun : Bool) :
    DaemonM Bool := do
  let d ← get
  let current := ((d.policyCache view.proto).lookup port).getD (defaultFields cfg)
  store view port (Function.update current view.index rateMax) dryRun

def delete (view : PolicyView) (port : U32) (dryRun : Bool) : DaemonM Bool := do
  let d ← get
  match (d.policyCache view.proto).lookup port with
  | none => BpfPortPolicyMap.delete view.proto port dryRun
  | some current => store view port (Function.update current view.index 0) dryRun

end BpfPortPolicyViewMap

namespace BpfRuntimeConfigMap

/-- `_lookup_raw`. -/
def lookupRaw : DaemonM (Option XdpRuntimeCfg) := do
  let ok ← bpf .reader .lookupRuntimeCfg
  let d ← get
  return if ok then d.maps.runtimeCfg else none

def set (fields : XdpRuntimeCfg) (cfgFlags : U32) (dryRun : Bool) : DaemonM Bool :=
  cachedCall dryRun .ok (.updateRuntimeCfg { fields with cfgFlags := cfgFlags }) id

end BpfRuntimeConfigMap

namespace BpfGlobalRlMap

/-- `get`: a failed lookup reads as zero. -/
def get : DaemonM U32 := do
  let ok ← bpf .reader .lookupGlobalRl
  let d ← MonadState.get
  return if ok then d.maps.limits.udpGlobalRl.byteRateMax else 0

def set (byteRateMax : U32) (dryRun : Bool) : DaemonM Bool :=
  cachedCall dryRun .ok (.updateGlobalRl byteRateMax) id

end BpfGlobalRlMap

namespace BpfSit4EndpointsMap

def activeKeys (d : Daemon) : List U32 := d.sit4Cache

def set (a : U32) (dryRun : Bool) : DaemonM Bool :=
  cachedCall dryRun .ok (.updateSit4 a 1) fun d => { d with sit4Cache := setAdd a d.sit4Cache }

def delete (a : U32) (dryRun : Bool) : DaemonM Bool :=
  cachedCall dryRun .ok (.deleteSit4 a) fun d => { d with sit4Cache := setDiscard a d.sit4Cache }

end BpfSit4EndpointsMap

end AutoXdp
