import AutoXdp.XdpKeys
import AutoXdp.WordBytes
import Mathlib.Tactic.Basic

/-! The maps shared by the XDP program, the tc program, the handlers and the
daemon (`bpf/include/maps.h`, `keys.h`, `trust_acl.h`). -/
namespace AutoXdp
open WordBytes

/-- `struct trusted_v4_key` and `trusted_v6_key`. The daemon stores the address
with its host bits cleared. -/
structure LpmKey where
  prefixlen : ℕ
  addr : Addr
  deriving DecidableEq, Repr

namespace Addr

/-- The address with everything below the first `n` bits cleared. -/
def network (n : ℕ) : Addr → Addr
  | v4 a => .v4 (a &&& (BitVec.allOnes 32 <<< (32 - n)))
  | v6 a => .v6 (a &&& (BitVec.allOnes 128 <<< (128 - n)))

def bits : Addr → ℕ
  | v4 _ => 32
  | v6 _ => 128

end Addr

/-- `bpf_map_lookup_elem` on an `LPM_TRIE`: the longest stored prefix of a full
address. -/
def lpmLookup {ν : Type} (m : BpfMap LpmKey ν) (a : Addr) : Option ν :=
  (List.range (a.bits + 1)).reverse.findSome? fun n => m.lookup ⟨n, a.network n⟩

/-- `bpf_map_lookup_elem` on an `ARRAY` of `n` entries. -/
def arrayLookup {ν : Type} (n : ℕ) (f : U32 → ν) (k : U32) : Option ν :=
  if k.toNat < n then some (f k) else none

def aclMaxPorts : ℕ := 64

/-- `struct acl_val`. -/
structure AclVal where
  count : U32
  ports : List U16
  deriving DecidableEq, Repr

/-- `acl_port_match`: only the first `count` of at most `aclMaxPorts` ports are
compared. -/
def aclPortMatch (v : AclVal) (port : U32) : Bool :=
  ((v.ports.take aclMaxPorts).take v.count.toNat).any fun p => p == port.setWidth 16

/-- `struct tcp_port_policy_cfg` without its padding. -/
structure TcpPortPolicyCfg where
  synRateMax : U32
  synAggRateMax : U32
  connLimitMax : U32
  sourcePrefixV4 : U32
  sourcePrefixV6 : U32
  connPrefixLimitMax : U32
  connPortLimitMax : U32
  deriving DecidableEq, Repr

/-- `struct udp_port_policy_cfg` without its padding. -/
structure UdpPortPolicyCfg where
  rateMax : U32
  aggRateMax : U32
  sourcePrefixV4 : U32
  sourcePrefixV6 : U32
  deriving DecidableEq, Repr

/-- The C layout of a `tcp_port_policies` value: eight words. -/
def tcpPolicyOfBytes (bs : List U8) : TcpPortPolicyCfg where
  synRateMax := wordAt bs 0
  synAggRateMax := wordAt bs 4
  connLimitMax := wordAt bs 8
  sourcePrefixV4 := wordAt bs 12
  sourcePrefixV6 := wordAt bs 16
  connPrefixLimitMax := wordAt bs 20
  connPortLimitMax := wordAt bs 24

/-- The C layout of a `udp_port_policies` value: six words. -/
def udpPolicyOfBytes (bs : List U8) : UdpPortPolicyCfg where
  rateMax := wordAt bs 0
  aggRateMax := wordAt bs 4
  sourcePrefixV4 := wordAt bs 8
  sourcePrefixV6 := wordAt bs 12

/-- `sizeof` of the two policy structs. -/
def policyValueSize : Proto → ℕ
  | .tcp => 32
  | .udp => 24

/-- `struct icmp_token_bucket` below its lock. -/
structure IcmpTokenBucket where
  tokens : U64 := 0
  lastRefillNs : U64 := 0
  deriving DecidableEq, Repr

/-- `struct udp_global_state` below its lock. -/
structure UdpGlobalState where
  byteRateMax : U32 := 0
  windowStartNs : U64 := 0
  prevBytes : U64 := 0
  currBytes : U64 := 0
  blockedUntilNs : U64 := 0
  deriving DecidableEq, Repr

/-- `struct udp_percpu_local`. -/
structure UdpPercpuLocal where
  localBytes : U64 := 0
  blockedUntilNs : U64 := 0
  deriving DecidableEq, Repr

/-- The state of the rate, connection and token limiters. `syn4`, `syn6`, `udprt4`
and `udprt6` hold an inner map in each slot that the daemon filled; the IPv4 and
IPv6 map of the other pairs are one map on a tagged address. The per-CPU
accumulator is that of the CPU that runs. -/
structure Limits where
  syn4 : U32 → Option (BpfMap Addr U64) := fun _ => none
  syn6 : U32 → Option (BpfMap Addr U64) := fun _ => none
  udprt4 : U32 → Option (BpfMap Addr U64) := fun _ => none
  udprt6 : U32 → Option (BpfMap Addr U64) := fun _ => none
  synag : BpfMap (Addr × U32) U64 := ∅
  udpag : BpfMap (Addr × U32) U64 := ∅
  tsc : BpfMap (Addr × U32) U64 := ∅
  tscPfx : BpfMap (Addr × U32) U64 := ∅
  tscPort : U32 → U64 := fun _ => 0
  icmpTb : IcmpTokenBucket := {}
  udpGlobalRl : UdpGlobalState := {}
  udpPercpuAcc : UdpPercpuLocal := {}

/-- The kernel maps; again a pair of IPv4 and IPv6 maps is one map. -/
structure Maps where
  tcpCt : BpfMap FlowKey U64 := ∅
  udpCt : BpfMap FlowKey U64 := ∅
  sctpConntrack : BpfMap FlowKey U64 := ∅
  tcpPd : BpfMap FlowKey U32 := ∅
  udpHv : BpfMap FlowKey U64 := ∅
  trusted : BpfMap LpmKey U32 := ∅
  tcpAcl : BpfMap LpmKey AclVal := ∅
  udpAcl : BpfMap LpmKey AclVal := ∅
  abuseipdb : BpfMap LpmKey U32 := ∅
  hblk : BpfMap Addr U64 := ∅
  sit4Endpoints : BpfMap U32 U32 := ∅
  tcpWhitelist : U32 → U32 := fun _ => 0
  udpWhitelist : U32 → U32 := fun _ => 0
  sctpWhitelist : U32 → U32 := fun _ => 0
  tcpPortPolicies : BpfMap U32 (List U8) := ∅
  udpPortPolicies : BpfMap U32 (List U8) := ∅
  limits : Limits := {}
  runtimeCfg : Option XdpRuntimeCfg := some {}
  pktCounters : Counter → U64 := fun _ => 0

/-- The three conntrack maps. -/
inductive CtMap where
  | tcp | udp | sctp
  deriving DecidableEq, Repr

namespace Maps

def ct (m : Maps) : CtMap → BpfMap FlowKey U64
  | .tcp => m.tcpCt
  | .udp => m.udpCt
  | .sctp => m.sctpConntrack

def setCt (m : Maps) : CtMap → BpfMap FlowKey U64 → Maps
  | .tcp, t => { m with tcpCt := t }
  | .udp, t => { m with udpCt := t }
  | .sctp, t => { m with sctpConntrack := t }

def acl (m : Maps) : Proto → BpfMap LpmKey AclVal
  | .tcp => m.tcpAcl
  | .udp => m.udpAcl

def whitelist (m : Maps) : Proto → U32 → U32
  | .tcp => m.tcpWhitelist
  | .udp => m.udpWhitelist

def portPolicies (m : Maps) : Proto → BpfMap U32 (List U8)
  | .tcp => m.tcpPortPolicies
  | .udp => m.udpPortPolicies

end Maps

/-- Flags of `bpf_map_update_elem`. -/
inductive UpdateFlag where
  | any | noexist | exist
  deriving DecidableEq, Repr

/-- `bpf_map_update_elem` on a hash map, and whether it returned 0. -/
def mapUpdate {κ ν : Type} [DecidableEq κ] (m : BpfMap κ ν) (k : κ) (v : ν) :
    UpdateFlag → Bool × BpfMap κ ν
  | .any => (true, m.insert k v)
  | .noexist => if k ∈ m then (false, m) else (true, m.insert k v)
  | .exist => if k ∈ m then (true, m.insert k v) else (false, m)

theorem mapUpdate_cases {κ ν : Type} [DecidableEq κ] (m : BpfMap κ ν) (k : κ) (v : ν)
    (flag : UpdateFlag) :
    mapUpdate m k v flag = (true, m.insert k v) ∨ mapUpdate m k v flag = (false, m) := by
  cases flag with
  | any => exact Or.inl rfl
  | noexist =>
    simp only [mapUpdate]
    split
    · exact Or.inr rfl
    · exact Or.inl rfl
  | exist =>
    simp only [mapUpdate]
    split
    · exact Or.inl rfl
    · exact Or.inr rfl

/-- What an erased map still holds, it held before. -/
theorem lookup_of_erase {κ ν : Type} [DecidableEq κ] (m : BpfMap κ ν) (k k' : κ) (v : ν)
    (h : (m.erase k).lookup k' = some v) : m.lookup k' = some v := by
  by_cases hk : k' = k
  · subst hk
    rw [AList.lookup_erase] at h
    simp only [reduceCtorEq] at h
  · rwa [AList.lookup_erase_ne hk] at h

theorem lookup_insert_cases {κ ν : Type} [DecidableEq κ] (m : BpfMap κ ν) (k k' : κ) (v v' : ν)
    (h : (m.insert k v).lookup k' = some v') : (k' = k ∧ v' = v) ∨ m.lookup k' = some v' := by
  by_cases hk : k' = k
  · subst hk
    rw [AList.lookup_insert] at h
    exact Or.inl ⟨rfl, (Option.some.inj h).symm⟩
  · rw [AList.lookup_insert_ne hk] at h
    exact Or.inr h

end AutoXdp
