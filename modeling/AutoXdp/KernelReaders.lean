import AutoXdp.BackendReconcile
import AutoXdp.NftRuleset
import Mathlib.Data.List.AList
import Mathlib.Tactic.Basic

/-! `_read_kernel` and `verify` of the map classes (`auto_xdp/bpf/maps.py`), and
`verify_kernel_state` of the backend: the caches are read anew from the kernel. -/
namespace AutoXdp
open StateSteps WordBytes

/-- A system call of the readers. In one pass each is made at most once. -/
inductive ReadOp where
  | portBatch (m : PortMap)
  | portLookup (m : PortMap) (port : U32)
  | trustedNext (fam : IpFamily) (i : ℕ)
  | trustedLookup (key : LpmKey)
  | aclNext (p : Proto) (fam : IpFamily) (i : ℕ)
  | aclLookup (p : Proto) (key : LpmKey)
  | policyBatch (p : Proto)
  | slotLookup (m : OuterMap) (port : U32)
  | innerFd (m : OuterMap) (port : U32)
  | innerInfo (m : OuterMap) (port : U32)
  | sit4Next (i : ℕ)
  deriving DecidableEq, Repr

/-- The calls that fail, with another error than ENOENT. -/
abbrev ReadFaults := ReadOp → Bool

/-- The `max_entries` of the inner map in an occupied slot. -/
abbrev InnerEntries := OuterMap → U32 → U32

/-- A map with a cache that `verify` repairs. -/
inductive VerifiedMap where
  | port (m : PortMap)
  | trusted (fam : IpFamily)
  | policy (p : Proto)
  | acl (p : Proto) (fam : IpFamily)
  | sit4
  | outer (m : OuterMap)
  deriving DecidableEq, Repr

/-! Python sets and dicts. -/

section Python

variable {κ ν : Type} [DecidableEq κ] [DecidableEq ν]

/-- `len(set(kernel) ^ set(cache))`; it is zero when the two sets are equal. -/
def setDrift (kernel cache : List κ) : ℕ :=
  (setDiff kernel cache).dedup.length + (setDiff cache kernel).dedup.length

/-- The keys on which two dicts differ; there are none when they are equal. -/
def dictDrift (kernel cache : BpfMap κ ν) : ℕ :=
  ((kernel.keys ++ cache.keys).dedup.filter fun k => kernel.lookup k ≠ cache.lookup k).length

/-- The items whose key is kept. -/
def dictFilter (keep : κ → Bool) (t : BpfMap κ ν) : BpfMap κ ν :=
  ⟨t.entries.filter fun e => keep e.1, t.nodupKeys.sublist List.filter_sublist⟩

/-- The items whose key and value are kept, the value changed. -/
def dictFilterMap {μ : Type} (f : κ → ν → Option μ) (t : BpfMap κ ν) : BpfMap κ μ :=
  (t.entries.filterMap fun e => (f e.1 e.2).map fun v => (⟨e.1, v⟩ : Σ _ : κ, μ)).toAList

end Python

/-- `frozenset(ports)`, its members in ascending order. -/
def frozenset (ports : List U16) : List U16 :=
  ports.dedup.insertionSort fun a b => a.toNat ≤ b.toNat

/-- `_iter_raw_keys`: GET_NEXT_KEY up to the end of the map or the first failure. -/
def iterRawKeys {κ : Type} (fails : ℕ → Bool) : ℕ → List κ → List κ
  | _, [] => []
  | i, key :: keys => if fails i then [] else key :: iterRawKeys fails (i+1) keys

/-- Some GET_NEXT_KEY fails, the one that finds the end included. -/
def iterRaises {κ : Type} (fails : ℕ → Bool) (keys : List κ) : Bool :=
  (List.range (keys.length + 1)).any fails

/-- The slots of an array. -/
def slots : List U32 := (List.range 65536).map (BitVec.ofNat 32)

variable (faults : ReadFaults)

namespace BpfArrayMap

/-- One batch lookup or, when that fails, one lookup a slot; a slot whose lookup fails
is left out. -/
def readKernel (m : PortMap) (d : Daemon) : List U32 :=
  if faults (.portBatch m) then
    slots.filter fun port => !faults (.portLookup m port) && d.maps.portMap m port ≠ 0
  else slots.filter fun port => d.maps.portMap m port ≠ 0

end BpfArrayMap

namespace BpfLpmMap

/-- The keys of one family, in the order GET_NEXT_KEY finds them. -/
def rawKeys {ν : Type} (fam : IpFamily) (t : BpfMap LpmKey ν) : List LpmKey :=
  t.keys.filter fun key => key.addr.family = fam

/-- A key whose lookup fails is left out, and so is everything after a failed
GET_NEXT_KEY. -/
def readKernel (fam : IpFamily) (d : Daemon) : List LpmKey :=
  (iterRawKeys (fun i => faults (.trustedNext fam i)) 0 (rawKeys fam d.maps.trusted)).filter
    fun key => !faults (.trustedLookup key) && (d.maps.trusted.lookup key).any fun v => v ≠ 0

end BpfLpmMap

namespace BpfAclMap

/-- `_unpack_val`. -/
def unpackVal (val : AclVal) : List U16 :=
  frozenset (val.ports.take (min val.count.toNat aclMaxPorts))

def readKernel (p : Proto) (fam : IpFamily) (d : Daemon) : BpfMap LpmKey (List U16) :=
  let keys := iterRawKeys (fun i => faults (.aclNext p fam i)) 0 (BpfLpmMap.rawKeys fam (d.maps.acl p))
  dictFilterMap (fun key val =>
    if key ∈ keys ∧ faults (.aclLookup p key) = false then some (unpackVal val) else none)
    (d.maps.acl p)

end BpfAclMap

namespace BpfPortPolicyMap

/-- The bytes of one value: as many as the map's value size. -/
def valueBytes (p : Proto) (val : List U8) : List U8 :=
  (List.range (policyValueSize p)).map fun i => val.getD i 0

/-- `vals_buf` after a batch lookup: the values follow each other at the map's value
size, and the rest is zero. -/
def batchValues (p : Proto) (t : BpfMap U32 (List U8)) : List U8 :=
  t.entries.flatMap fun e => valueBytes p e.2

/-- `struct.unpack_from(_STRUCT_FMT, vals_buf, i * _STRUCT_SIZE)`. -/
def unpackFrom (buf : List U8) (i : ℕ) : PolicyFields := fun j => wordAt buf (32*i + 4*j)

/-- A batch lookup that fails reads as an empty map. -/
def readKernel (p : Proto) (d : Daemon) : BpfMap U32 PolicyFields :=
  if faults (.policyBatch p) then ∅
  else
    let t := d.maps.portPolicies p
    ((t.keys.mapIdx fun i port =>
      (⟨port, unpackFrom (batchValues p t) i⟩ : Σ _ : U32, PolicyFields))).toAList

end BpfPortPolicyMap

namespace BpfRateOuterMap

variable (inner : InnerEntries)

/-- The scan, one slot after the other. A failed lookup passes for an empty slot, and a
map that cannot be opened is left out; `none` is an `OSError`. -/
def readKernel (m : OuterMap) (d : Daemon) : Option (BpfMap U32 U32) :=
  slots.foldlM (fun out port =>
    if (d.maps.rateOuter m port).isSome && !faults (.slotLookup m port) &&
        !faults (.innerFd m port) then
      if faults (.innerInfo m port) then none else some (out.insert port (inner m port))
    else some out) ∅

end BpfRateOuterMap

namespace BpfSit4EndpointsMap

/-- Here a failed GET_NEXT_KEY is an `OSError`. -/
def readKernel (d : Daemon) : Option (List U32) :=
  let keys := d.maps.sit4Endpoints.keys
  if iterRaises (fun i => faults (.sit4Next i)) keys then none else some keys

end BpfSit4EndpointsMap

namespace CacheVerifyMixin

variable (inner : InnerEntries)

/-- `verify`: the number of discrepancies, or `none` for an `OSError`; a cache that
differs from what was read is replaced. -/
def verify (m : VerifiedMap) : DaemonM (Option ℕ) := fun d =>
  match m with
  | .port m =>
    let kernel := BpfArrayMap.readKernel faults m d
    let diff := setDrift kernel (d.portCache m)
    (some diff, if diff = 0 then d else d.setPortCache m kernel)
  | .trusted fam =>
    let kernel := BpfLpmMap.readKernel faults fam d
    let cache := d.trustedCache.filter fun key => key.addr.family = fam
    let diff := setDrift kernel cache
    (some diff, if diff = 0 then d
      else { d with trustedCache := (d.trustedCache.filter fun key => key.addr.family ≠ fam) ++ kernel })
  | .policy p =>
    let kernel := BpfPortPolicyMap.readKernel faults p d
    let diff := dictDrift kernel (d.policyCache p)
    (some diff, if diff = 0 then d else d.setPolicyCache p kernel)
  | .acl p fam =>
    let kernel := BpfAclMap.readKernel faults p fam d
    let diff := dictDrift kernel (dictFilter (fun key => key.addr.family = fam) (d.aclCache p))
    (some diff, if diff = 0 then d
      else d.setAclCache p
        (kernel ∪ dictFilter (fun key => key.addr.family ≠ fam) (d.aclCache p)))
  | .sit4 =>
    match BpfSit4EndpointsMap.readKernel faults d with
    | none => (none, d)
    | some kernel =>
      let diff := setDrift kernel d.sit4Cache
      (some diff, if diff = 0 then d else { d with sit4Cache := kernel })
  | .outer m =>
    match BpfRateOuterMap.readKernel faults inner m d with
    | none => (none, d)
    | some kernel =>
      let diff := dictDrift kernel (d.outerCache m)
      (some diff, if diff = 0 then d else d.setOuterCache m kernel)

end CacheVerifyMixin

namespace VerifiedMap

/-- The daemon has this map open. -/
def isOpen (d : Daemon) : VerifiedMap → Bool
  | port .sctp => d.opened .sctp
  | policy p => d.opened (.policy p)
  | acl _ _ => d.opened .acl
  | sit4 => d.opened .sit4
  | outer m => d.opened (.rateOuter m)
  | _ => true

end VerifiedMap

namespace XdpBackend

variable (inner : InnerEntries)

/-- The maps in the order they are verified. -/
def verifiedMaps : List VerifiedMap :=
  [.port .tcp, .port .udp, .port .sctp, .trusted .ipv4, .trusted .ipv6, .policy .tcp, .policy .udp,
    .acl .tcp .ipv4, .acl .tcp .ipv6, .acl .udp .ipv4, .acl .udp .ipv6, .sit4,
    .outer .syn4, .outer .syn6, .outer .udprt4, .outer .udprt6]

/-- One map after the other; an `OSError` ends the pass. -/
def verifyMaps : List VerifiedMap → ℕ → DaemonM (Option ℕ)
  | [], total => pure (some total)
  | m :: ms, total => do
    let d ← get
    if m.isOpen d then
      match ← CacheVerifyMixin.verify faults inner m with
      | none => return none
      | some diff => verifyMaps ms (total + diff)
    else verifyMaps ms total

def verifyKernelState : DaemonM (Option ℕ) := verifyMaps faults inner verifiedMaps 0

end XdpBackend

end AutoXdp
