import Mathlib.Data.List.AList
import Mathlib.Data.BitVec
import Mathlib.Tactic.Basic

/-! Words, verdicts, runtime tunables and map keys of the XDP program
(`bpf/include/common.h`, `ct_flags.h`, `keys.h`). Fields in network byte order
are the numbers they denote, so `bpf_ntohs` and `bpf_ntohl` are the identity. -/
namespace AutoXdp

abbrev U8 := BitVec 8
abbrev U16 := BitVec 16
abbrev U32 := BitVec 32
abbrev U64 := BitVec 64
abbrev U128 := BitVec 128

instance lawfulBEqU32 : LawfulBEq U32 := inferInstance

/-- A BPF hash map: at most one value for each key. -/
abbrev BpfMap (κ ν : Type) := AList fun _ : κ => ν

inductive XdpAction where
  | aborted | drop | pass | tx | redirect
  deriving DecidableEq, Repr

inductive Proto where
  | tcp | udp
  deriving DecidableEq, Repr

/-- `CT_FAMILY_IPV4` and `CT_FAMILY_IPV6` select the constructor; the four words
of an IPv6 address are one 128-bit number. -/
inductive Addr where
  | v4 (a : U32)
  | v6 (a : U128)
  deriving DecidableEq, Repr

/-- `struct flow_key`. The pair `tcp_ct4`, `tcp_ct6` (likewise `udp_ct*`,
`tcp_pd*`, `udp_hv*`) is one map on this tagged key, which holds what
`fill_ct_key_v4_map` and `fill_ct_key_v6_map` copy. -/
inductive FlowKey where
  | v4 (sport dport : U16) (saddr daddr : U32)
  | v6 (sport dport : U16) (saddr daddr : U128)
  deriving DecidableEq, Repr

namespace FlowKey

def sport : FlowKey → U16
  | v4 s _ _ _ => s
  | v6 s _ _ _ => s

def dport : FlowKey → U16
  | v4 _ d _ _ => d
  | v6 _ d _ _ => d

def saddr : FlowKey → Addr
  | v4 _ _ s _ => .v4 s
  | v6 _ _ s _ => .v6 s

/-- `(__u32)bpf_ntohs(tcp->dest)`. -/
def destPort (k : FlowKey) : U32 := k.dport.setWidth 32

end FlowKey

def nsPerSec : U64 := 1000000000

/-- `CT_SYN_PENDING`, `1ULL << 63`. -/
def ctSynPending : U64 := BitVec.twoPow 64 63

/-- `raw & CT_SYN_PENDING` as a truth value. -/
def isPending (raw : U64) : Bool := raw &&& ctSynPending != 0

/-- `raw & ~CT_SYN_PENDING`. -/
def stamp (raw : U64) : U64 := raw &&& ~~~ctSynPending

/-- `struct xdp_runtime_cfg`. -/
structure XdpRuntimeCfg where
  tcpTimeoutNs : U64 := 0
  udpTimeoutNs : U64 := 0
  ctRefreshNs : U64 := 0
  icmpTokenMax : U64 := 0
  icmpNsPerToken : U64 := 0
  udpGlobalWindowNs : U64 := 0
  rateWindowNs : U64 := 0
  synTimeoutNs : U64 := 0
  cfgFlags : U32 := 0
  deriving DecidableEq, Repr

def xdpCfgFlagBogonDisabled : U32 := 1#32 <<< 0
def xdpCfgFlagAbuseipdbEnabled : U32 := 1#32 <<< 1
def xdpCfgFlagSlotDrop : U32 := 1#32 <<< 3

/-- A zero or missing tunable reads as its default. -/
def cfgOr (field : XdpRuntimeCfg → U64) (dflt : U64) (cfg : Option XdpRuntimeCfg) : U64 :=
  match cfg with
  | some c => if field c ≠ 0 then field c else dflt
  | none => dflt

def cfgTcpTimeoutNs := cfgOr XdpRuntimeCfg.tcpTimeoutNs (300 * nsPerSec)
def cfgSynTimeoutNs := cfgOr XdpRuntimeCfg.synTimeoutNs (30 * nsPerSec)
def cfgUdpTimeoutNs := cfgOr XdpRuntimeCfg.udpTimeoutNs (60 * nsPerSec)
def cfgCtRefreshNs := cfgOr XdpRuntimeCfg.ctRefreshNs (30 * nsPerSec)
def cfgUdpGlobalWindowNs := cfgOr XdpRuntimeCfg.udpGlobalWindowNs nsPerSec
def cfgRateWindowNs := cfgOr XdpRuntimeCfg.rateWindowNs nsPerSec

/-- The timeout of a conntrack word: half-open words use the SYN timeout. -/
def cfgCtTimeoutNs (raw : U64) (cfg : Option XdpRuntimeCfg) : U64 :=
  if isPending raw then cfgSynTimeoutNs cfg else cfgTcpTimeoutNs cfg

/-- `enum xdp_counter_idx`. -/
inductive Counter where
  | tcpNewAllow | tcpEstablished | tcpDrop | udpPass | udpDrop | ipv4Other | ipv6Other
  | fragDrop | nonIp | tcpCtMiss | icmpDrop | synRateDrop | udpRateDrop | udpGlobalRateDrop
  | tcpMalformNull | tcpMalformXmas | tcpMalformSynFin | tcpMalformSynRst | tcpMalformRstFin
  | tcpMalformDoff | tcpMalformPort0 | vlanDrop | slotCall | slotPass | slotDrop
  | udpMalformPort0 | udpMalformLen | bogonDrop | tcpConnLimitDrop | synAggRateDrop
  | udpAggRateDrop | handlerBlockDrop | tcpConnPrefixLimitDrop | tcpConnPortLimitDrop
  | abuseipdbDrop
  deriving DecidableEq, Repr

/-- `TCP_FLAG_*`. -/
def tcpFlagFin : U8 := 0x01
def tcpFlagSyn : U8 := 0x02
def tcpFlagRst : U8 := 0x04
def tcpFlagAck : U8 := 0x10

/-- `flags & mask` as a truth value. -/
def hasFlag (flags mask : U8) : Bool := flags &&& mask != 0

/-- `(tcp_flags & TCP_FLAG_SYN) && !(tcp_flags & TCP_FLAG_ACK)`. -/
def isSynOnly (flags : U8) : Bool := hasFlag flags tcpFlagSyn && !hasFlag flags tcpFlagAck

/-! The pending bit and the stamp below it. -/

theorem isPending_eq (raw : U64) : isPending raw = raw.getLsbD 63 := by
  rw [isPending, ctSynPending, BitVec.and_twoPow]
  cases raw.getLsbD 63 <;> decide

theorem isPending_iff (raw : U64) : isPending raw = true ↔ 2^63 ≤ raw.toNat := by
  rw [isPending_eq, ← BitVec.msb_eq_getLsbD_last raw, BitVec.msb_eq_decide, decide_eq_true_eq]

/-- A clock reading below 2^63 is an established word. -/
theorem isPending_of_lt (now : U64) (h : now.toNat < 2^63) : isPending now = false := by
  rw [← Bool.not_eq_true, isPending_iff]
  omega

theorem stamp_halfOpen (now : U64) (h : now.toNat < 2^63) : stamp (now ||| ctSynPending) = now := by
  have hbit : now.getLsbD 63 = false := (isPending_eq now).symm.trans (isPending_of_lt now h)
  apply BitVec.eq_of_getLsbD_eq
  intro i hi
  simp only [stamp, ctSynPending, BitVec.getLsbD_and, BitVec.getLsbD_or, BitVec.getLsbD_not,
    BitVec.getLsbD_twoPow, hi, decide_true, Bool.true_and]
  by_cases h63 : 63 = i
  · subst h63
    rw [hbit]
    rfl
  · simp only [h63, decide_false, Bool.and_false, Bool.or_false, Bool.not_false, Bool.and_true]

theorem stamp_toNat (raw : U64) : (stamp raw).toNat = raw.toNat % 2^63 := by
  have hs : stamp raw = (raw.setWidth 63).setWidth 64 := by
    apply BitVec.eq_of_getLsbD_eq
    intro i hi
    simp only [stamp, ctSynPending, BitVec.getLsbD_and, BitVec.getLsbD_not,
      BitVec.getLsbD_twoPow, BitVec.getLsbD_setWidth, hi, decide_true, Bool.true_and]
    by_cases h63 : i = 63
    · subst h63; simp
    · have hlt : i < 63 := by omega
      simp [hlt, Ne.symm h63]
  rw [hs, BitVec.toNat_setWidth, BitVec.toNat_setWidth]
  omega

end AutoXdp
