import AutoXdp.XdpMaps
import AutoXdp.StateSteps
import Mathlib.Data.List.Sort

/-! The daemon's view of the maps (`auto_xdp/bpf/syscall.py`, `bpf/maps.py`): the
kernel maps, a cache of each, and the system calls that may fail. A Python set is
the list of its members in the order a loop visits them; a CIDR string is its
prefix length and address. -/
namespace AutoXdp
open StateSteps WordBytes

/-! Kernel maps by name. -/

/-- The three port arrays. -/
inductive PortMap where
  | tcp | udp | sctp
  deriving DecidableEq, Repr

/-- The four arrays of per-port rate maps. -/
inductive OuterMap where
  | syn4 | syn6 | udprt4 | udprt6
  deriving DecidableEq, Repr

namespace Proto

def portMap : Proto → PortMap
  | tcp => .tcp
  | udp => .udp

def ctMap : Proto → CtMap
  | tcp => .tcp
  | udp => .udp

end Proto

namespace Maps

def portMap (m : Maps) : PortMap → U32 → U32
  | .tcp => m.tcpWhitelist
  | .udp => m.udpWhitelist
  | .sctp => m.sctpWhitelist

def setPortMap (m : Maps) : PortMap → (U32 → U32) → Maps
  | .tcp, f => { m with tcpWhitelist := f }
  | .udp, f => { m with udpWhitelist := f }
  | .sctp, f => { m with sctpWhitelist := f }

def setAcl (m : Maps) : Proto → BpfMap LpmKey AclVal → Maps
  | .tcp, t => { m with tcpAcl := t }
  | .udp, t => { m with udpAcl := t }

def setPortPolicies (m : Maps) : Proto → BpfMap U32 (List U8) → Maps
  | .tcp, t => { m with tcpPortPolicies := t }
  | .udp, t => { m with udpPortPolicies := t }

def rateOuter (m : Maps) : OuterMap → U32 → Option (BpfMap Addr U64)
  | .syn4 => m.limits.syn4
  | .syn6 => m.limits.syn6
  | .udprt4 => m.limits.udprt4
  | .udprt6 => m.limits.udprt6

def setRateOuter (m : Maps) : OuterMap → (U32 → Option (BpfMap Addr U64)) → Maps
  | .syn4, f => { m with limits := { m.limits with syn4 := f } }
  | .syn6, f => { m with limits := { m.limits with syn6 := f } }
  | .udprt4, f => { m with limits := { m.limits with udprt4 := f } }
  | .udprt6, f => { m with limits := { m.limits with udprt6 := f } }

end Maps

/-! System calls. -/

/-- One `bpf(2)` call with what the daemon packed into its attribute. -/
inductive BpfOp where
  | setPort (m : PortMap) (port val : U32)
  | iterateCt (p : Proto)
  | lookupCt (p : Proto) (key : FlowKey)
  | updateCt (p : Proto) (key : FlowKey) (raw : U64)
  | deleteCt (p : Proto) (key : FlowKey)
  | updateTrusted (key : LpmKey) (val : U32)
  | deleteTrusted (key : LpmKey)
  | updateAcl (p : Proto) (key : LpmKey) (val : AclVal)
  | deleteAcl (p : Proto) (key : LpmKey)
  | updatePolicy (p : Proto) (port : U32) (val : List U8)
  | deletePolicy (p : Proto) (port : U32)
  | createInner (m : OuterMap) (port capacity : U32)
  | updateSlot (m : OuterMap) (port : U32)
  | deleteSlot (m : OuterMap) (port : U32)
  | lookupRuntimeCfg
  | updateRuntimeCfg (cfg : XdpRuntimeCfg)
  | lookupGlobalRl
  | updateGlobalRl (byteRateMax : U32)
  | updateSit4 (a val : U32)
  | deleteSit4 (a : U32)
  deriving DecidableEq, Repr

namespace BpfOp

/-- An array has 65536 slots. -/
def inRange : BpfOp → Bool
  | setPort _ port _ => port.toNat < 65536
  | updateSlot _ port => port.toNat < 65536
  | _ => true

/-- What a call that succeeds does to the kernel maps. An update copies as many
bytes as the map's value size; a deletion of an absent key is ENOENT, which every
caller takes for success. -/
def effect : BpfOp → Maps → Maps
  | setPort m port val, s => s.setPortMap m (Function.update (s.portMap m) port val)
  | updateCt p key raw, s => s.setCt p.ctMap ((s.ct p.ctMap).insert key raw)
  | deleteCt p key, s => s.setCt p.ctMap ((s.ct p.ctMap).erase key)
  | updateTrusted key val, s => { s with trusted := s.trusted.insert key val }
  | deleteTrusted key, s => { s with trusted := s.trusted.erase key }
  | updateAcl p key val, s => s.setAcl p ((s.acl p).insert key val)
  | deleteAcl p key, s => s.setAcl p ((s.acl p).erase key)
  | updatePolicy p port val, s =>
    s.setPortPolicies p ((s.portPolicies p).insert port (val.take (policyValueSize p)))
  | deletePolicy p port, s => s.setPortPolicies p ((s.portPolicies p).erase port)
  | updateSlot m port, s => s.setRateOuter m (Function.update (s.rateOuter m) port (some ∅))
  | deleteSlot m port, s => s.setRateOuter m (Function.update (s.rateOuter m) port none)
  | updateRuntimeCfg cfg, s => { s with runtimeCfg := some cfg }
  | updateGlobalRl rate, s =>
    { s with limits := { s.limits with udpGlobalRl := { byteRateMax := rate } } }
  | updateSit4 a val, s => { s with sit4Endpoints := s.sit4Endpoints.insert a val }
  | deleteSit4 a, s => { s with sit4Endpoints := s.sit4Endpoints.erase a }
  | _, s => s

end BpfOp

/-- Who looks at the outcome of a call: `_ok` counts it; `delete_dest_ports`,
`ensure_prefixes` and `gc_expired` go on; the readers of `existing_keys` and of the
runtime configuration have a fallback. -/
inductive Caller where
  | ok | deleteDestPorts | ensurePrefixes | gcExpired | reader
  deriving DecidableEq, Repr

structure BpfCall where
  caller : Caller
  op : BpfOp
  ok : Bool
  deriving DecidableEq, Repr

/-! The daemon. -/

/-- The eight words of `BpfPortPolicyMap._STRUCT_FMT`. -/
abbrev PolicyFields := Fin 8 → U32

instance policyWords : NeZero 8 := ⟨by decide⟩

def packFields (fields : PolicyFields) : List U8 := packWords (List.ofFn fields)

/-- The maps that `XdpBackend.__init__` may do without. -/
inductive OptionalMap where
  | policy (p : Proto) | acl | runtimeConfig | globalRl | sctp | sit4 | rateOuter (m : OuterMap)
  deriving DecidableEq, Repr

/-- The globals of `auto_xdp/config.py` that the backend reads. -/
structure Config where
  rateLimitSourcePrefixV4 : U32 := 32
  rateLimitSourcePrefixV6 : U32 := 128
  rateMapEntriesV4 : U32 := 16384
  rateMapEntriesV6 : U32 := 4096
  trustedSrcIps : List LpmKey := []
  sit4Endpoints : List U32 := []
  xdpConntrackStaleReconciles : ℕ := 2
  abuseipdbEnabled : Bool := false
  slotDefaultDrop : Bool := true
  deriving Repr

/-- The kernel maps, which calls the kernel will fail, the calls made so far (newest
first), the time each call would read, and the fields of `XdpBackend`. -/
structure Daemon where
  maps : Maps := {}
  fault : ℕ → Bool := fun _ => false
  log : List BpfCall := []
  monotonicNs : ℕ → U64 := fun _ => 0
  opened : OptionalMap → Bool := fun _ => true
  portCache : PortMap → List U32 := fun _ => []
  ctCache : Proto → List FlowKey := fun _ => []
  trustedCache : List LpmKey := []
  aclCache : Proto → BpfMap LpmKey (List U16) := fun _ => ∅
  policyCache : Proto → BpfMap U32 PolicyFields := fun _ => ∅
  outerCache : OuterMap → BpfMap U32 U32 := fun _ => ∅
  sit4Cache : List U32 := []
  conntrackStaleRounds : BpfMap FlowKey ℕ := ∅
  lastApplyFailures : ℕ := 0

abbrev DaemonM := StateM Daemon

namespace Daemon

def setPortCache (d : Daemon) (m : PortMap) (ports : List U32) : Daemon :=
  { d with portCache := Function.update d.portCache m ports }

def setCtCache (d : Daemon) (p : Proto) (keys : List FlowKey) : Daemon :=
  { d with ctCache := Function.update d.ctCache p keys }

def setAclCache (d : Daemon) (p : Proto) (t : BpfMap LpmKey (List U16)) : Daemon :=
  { d with aclCache := Function.update d.aclCache p t }

def setPolicyCache (d : Daemon) (p : Proto) (t : BpfMap U32 PolicyFields) : Daemon :=
  { d with policyCache := Function.update d.policyCache p t }

def setOuterCache (d : Daemon) (m : OuterMap) (t : BpfMap U32 U32) : Daemon :=
  { d with outerCache := Function.update d.outerCache m t }

/-- The state after a call that ended with `ok`. -/
def called (d : Daemon) (caller : Caller) (op : BpfOp) (ok : Bool) : Daemon :=
  { d with
    log := ⟨caller, op, ok⟩ :: d.log
    maps := if ok then op.effect d.maps else d.maps }

end Daemon

/-! Python sets and sorted loops. -/

def setAdd {α : Type} [DecidableEq α] (x : α) (s : List α) : List α :=
  if x ∈ s then s else s ++ [x]

def setDiscard {α : Type} [DecidableEq α] (x : α) (s : List α) : List α := s.filter (· ≠ x)

def setDiff {α : Type} [DecidableEq α] (s t : List α) : List α := s.filter (· ∉ t)

def sorted (ports : List U32) : List U32 := ports.insertionSort fun a b => a.toNat ≤ b.toNat

@[simp] theorem mem_setAdd {α : Type} [DecidableEq α] (x y : α) (s : List α) :
    y ∈ setAdd x s ↔ y = x ∨ y ∈ s := by
  unfold setAdd
  split
  · constructor
    · exact Or.inr
    · rintro (rfl | h)
      · assumption
      · exact h
  · rw [List.mem_append, List.mem_singleton, or_comm]

@[simp] theorem mem_setDiscard {α : Type} [DecidableEq α] (x y : α) (s : List α) :
    y ∈ setDiscard x s ↔ y ∈ s ∧ y ≠ x := by
  rw [setDiscard, List.mem_filter, decide_eq_true_eq]

@[simp] theorem mem_setDiff {α : Type} [DecidableEq α] (y : α) (s t : List α) :
    y ∈ setDiff s t ↔ y ∈ s ∧ y ∉ t := by
  rw [setDiff, List.mem_filter, decide_eq_true_eq]

@[simp] theorem mem_sorted (port : U32) (ports : List U32) : port ∈ sorted ports ↔ port ∈ ports :=
  List.mem_insertionSort _

/-! One call, and the shape that the map methods share. -/

/-- `bpf`, with whether it returned without `OSError`. -/
def bpf (caller : Caller) (op : BpfOp) : DaemonM Bool := fun d =>
  let ok := !d.fault d.log.length && op.inRange
  (ok, d.called caller op ok)

/-- A method that does nothing in a dry run and otherwise makes one call and, when
that succeeds, updates its cache. -/
def cachedCall (dryRun : Bool) (caller : Caller) (op : BpfOp) (note : Daemon → Daemon) :
    DaemonM Bool :=
  if dryRun then pure true
  else do
    let ok ← bpf caller op
    if ok then modify note
    return ok

theorem bpf_run (caller : Caller) (op : BpfOp) (d : Daemon) :
    ∃ ok, bpf caller op d = (ok, d.called caller op ok) := ⟨_, rfl⟩

/-- What such a method may do. -/
theorem cachedCall_cases (dryRun : Bool) (caller : Caller) (op : BpfOp) (note : Daemon → Daemon)
    (d : Daemon) :
    (dryRun = true ∧ cachedCall dryRun caller op note d = (true, d)) ∨
    (dryRun = false ∧
      cachedCall dryRun caller op note d = (true, note (d.called caller op true))) ∨
    (dryRun = false ∧ cachedCall dryRun caller op note d = (false, d.called caller op false)) := by
  cases dryRun with
  | true => exact Or.inl ⟨rfl, rfl⟩
  | false =>
    obtain ⟨ok, hok⟩ := bpf_run caller op d
    right
    cases ok with
    | true =>
      refine Or.inl ⟨rfl, ?_⟩
      simp only [cachedCall, Bool.false_eq_true, ↓reduceIte, run_bind, hok, run_modify, run_pure]
    | false =>
      refine Or.inr ⟨rfl, ?_⟩
      simp only [cachedCall, Bool.false_eq_true, ↓reduceIte, run_bind, hok, run_pure]

end AutoXdp
