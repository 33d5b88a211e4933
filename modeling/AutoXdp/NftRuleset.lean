import AutoXdp.BackendReconcile
import AutoXdp.XdpParse
import Mathlib.Tactic.Basic

/-! The input chain that the nftables backend renders
(`auto_xdp/backends/nftables.py`). A rule is what it matches and its verdict; the
first rule that matches decides. An address set is the list of its CIDRs, which
`_collapse_cidrs` does not change as a set of addresses. -/
namespace AutoXdp

/-- `ct state`. -/
inductive CtState where
  | invalid | established | related | new | untracked
  deriving DecidableEq, Repr

/-- What the input chain sees of a packet; the constructor of `saddr` is its family. -/
structure NftPacket where
  iifname : String
  saddr : Addr
  fragOff : U16 := 0
  exthdrFrag : Bool := false
  l4proto : U8
  sport : U16 := 0
  dport : U16 := 0
  tcpFlags : U8 := 0
  udpLength : U16 := 0
  icmpType : U8 := 0
  ctState : CtState := .new
  deriving DecidableEq, Repr

inductive IpFamily where
  | ipv4 | ipv6
  deriving DecidableEq, Repr

namespace Addr

def family : Addr → IpFamily
  | v4 _ => .ipv4
  | v6 _ => .ipv6

end Addr

namespace LpmKey

/-- The CIDR covers an address. -/
def covers (k : LpmKey) (a : Addr) : Bool := a.network k.prefixlen == k.addr.network k.prefixlen

end LpmKey

/-- What a limiting statement counts. -/
inductive NftUnit where
  | packets | bytes | connections
  deriving DecidableEq, Repr

/-- A limiting statement: its amount and burst, and its key, the bits of the source
or, without them, the chain or the port. -/
structure NftLimit where
  unit : NftUnit
  sourceBits : Option ℕ
  amount : ℕ
  burst : ℕ := 0
  deriving DecidableEq, Repr

inductive NftMatch where
  | iifname (name : String)
  | ipFragOff
  | exthdrFrag
  | family (fam : IpFamily)
  | saddr (cidrs : List LpmKey)
  | l4proto (proto : U8)
  | tcpFlags (mask value : U8)
  | sport (proto : U8) (ports : List ℕ)
  | dport (proto : U8) (ports : List ℕ)
  | udpLengthBelow (n : ℕ)
  | ctState (states : List CtState)
  | icmpType (proto : U8) (types : List U8)
  | limitOver (limit : NftLimit)
  deriving DecidableEq, Repr

inductive NftVerdict where
  | accept | drop
  deriving DecidableEq, Repr

structure NftRule where
  exprs : List NftMatch
  verdict : NftVerdict
  deriving DecidableEq, Repr

/-- The counters behind the limiting statements: whether a packet is over a limit. -/
abbrev NftMeters := NftLimit → NftPacket → Bool

/-- An expression on a header implies the family or the protocol of that header. -/
def NftMatch.holds (meters : NftMeters) (p : NftPacket) : NftMatch → Bool
  | iifname name => p.iifname == name
  | ipFragOff => p.saddr.family == .ipv4 && p.fragOff &&& 0x3FFF != 0
  | exthdrFrag => p.saddr.family == .ipv6 && p.exthdrFrag
  | family fam => p.saddr.family == fam
  | saddr cidrs => cidrs.any fun k => k.covers p.saddr
  | l4proto proto => p.l4proto == proto
  | tcpFlags mask value => p.l4proto == ipprotoTcp && p.tcpFlags &&& mask == value
  | sport proto ports => p.l4proto == proto && ports.contains p.sport.toNat
  | dport proto ports => p.l4proto == proto && ports.contains p.dport.toNat
  | udpLengthBelow n => p.l4proto == ipprotoUdp && decide (p.udpLength.toNat < n)
  | ctState states => states.contains p.ctState
  | icmpType proto types => p.l4proto == proto && types.contains p.icmpType
  | limitOver limit => meters limit p

def NftRule.holds (meters : NftMeters) (p : NftPacket) (r : NftRule) : Bool :=
  r.exprs.all (NftMatch.holds meters p)

/-- The rule that decides a packet. -/
def nftDecides (meters : NftMeters) (chain : List NftRule) (p : NftPacket) : Option NftRule :=
  chain.find? fun r => r.holds meters p

/-- The verdict of the chain, whose policy is `accept`. -/
def nftVerdict (meters : NftMeters) (chain : List NftRule) (p : NftPacket) : NftVerdict :=
  ((nftDecides meters chain p).map NftRule.verdict).getD .accept

/-- `cfg.NFT_FAMILY`. -/
inductive NftFamily where
  | inet | ip | ip6
  deriving DecidableEq, Repr

/-- The globals of `auto_xdp/config.py` that only this backend reads. The packet
rate is rounded up. -/
structure NftConfig extends Config where
  nftFamily : NftFamily := .inet
  xdpIcmpRatePps : ℕ := 100
  xdpIcmpBurstPackets : ℕ := 100

/-- `_BOGON_V4`. -/
def bogonV4 : List LpmKey :=
  [⟨8, .v4 0x00000000⟩, ⟨8, .v4 0x0A000000⟩, ⟨10, .v4 0x64400000⟩, ⟨8, .v4 0x7F000000⟩,
    ⟨16, .v4 0xA9FE0000⟩, ⟨12, .v4 0xAC100000⟩, ⟨16, .v4 0xC0A80000⟩, ⟨4, .v4 0xE0000000⟩,
    ⟨4, .v4 0xF0000000⟩]

/-- `_BOGON_V6`. -/
def bogonV6 : List LpmKey :=
  [⟨128, .v6 0⟩, ⟨128, .v6 1⟩, ⟨96, .v6 0xFFFF00000000⟩,
    ⟨7, .v6 0xFC000000000000000000000000000000⟩, ⟨10, .v6 0xFE800000000000000000000000000000⟩,
    ⟨8, .v6 0xFF000000000000000000000000000000⟩]

/-- `rules.append` under an `if`. -/
def onlyIf (c : Bool) (rules : List NftRule) : List NftRule := if c then rules else []

namespace NftablesBackend

def hasV4 (cfg : NftConfig) : Bool := cfg.nftFamily == .inet || cfg.nftFamily == .ip

def hasV6 (cfg : NftConfig) : Bool := cfg.nftFamily == .inet || cfg.nftFamily == .ip6

/-- `_family_flags`. -/
def familyFlag (cfg : NftConfig) : IpFamily → Bool
  | .ipv4 => hasV4 cfg
  | .ipv6 => hasV6 cfg

/-- `_rate` of a whole number. -/
def rate (value : ℕ) : ℕ := max 1 value

/-- `tcp flags & (syn | ack) == syn`. -/
def synOnly : NftMatch := .tcpFlags 0x12 0x02

def portSet (ports : List U32) : List ℕ := ports.map BitVec.toNat

/-- The elements of `NFT_TRUSTED_SET4` and `NFT_TRUSTED_SET6`. -/
def trustedSet (desired : DesiredState) (fam : IpFamily) : List LpmKey :=
  desired.trustedCidrs.filter fun k => k.addr.family == fam

/-- `_acl_rules`. -/
def aclRules (desired : DesiredState) (proto : Proto) (fam : IpFamily) : List NftRule :=
  ((dictItems desired.aclRules).filter fun e =>
    e.1.1 == (match proto with | .tcp => "tcp" | .udp => "udp") &&
      e.1.2.addr.family == fam && !e.2.isEmpty).map fun e =>
    let ports := e.2.map BitVec.toNat
    match proto with
    | .tcp => ⟨[.saddr [e.1.2], synOnly, .dport ipprotoTcp ports], .accept⟩
    | .udp => ⟨[.saddr [e.1.2], .dport ipprotoUdp (portSet desired.udpPorts),
        .dport ipprotoUdp ports], .accept⟩

/-- The source prefix of a family, cut to its bits. -/
def prefixOf (desired : DesiredState) : IpFamily → ℕ
  | .ipv4 => min 32 desired.rateLimitSourcePrefixV4.toNat
  | .ipv6 => min 128 desired.rateLimitSourcePrefixV6.toNat

def bitsOf : IpFamily → ℕ
  | .ipv4 => 32
  | .ipv6 => 128

/-- One `if limit > 0` of `_tcp_policy_rules` and `_udp_policy_rules`. -/
def limitRule (limits : BpfMap U32 U32) (port : U32) (exprs : List NftMatch)
    (limit : ℕ → NftLimit) : List NftRule :=
  let amount := ((limits.lookup port).getD 0).toNat
  onlyIf (decide (0 < amount)) [⟨exprs ++ [.limitOver (limit amount)], .drop⟩]

/-- The rules of one port in `_tcp_policy_rules`. The key `ip saddr` of a meter
implies the family. -/
def tcpPortRules (desired : DesiredState) (fam : IpFamily) (port : U32) : List NftRule :=
  let dport := NftMatch.dport ipprotoTcp [port.toNat]
  let pfx := prefixOf desired fam
  limitRule desired.tcpSynRateLimits port [.family fam, dport, synOnly]
    (fun n => ⟨.packets, some (bitsOf fam), rate n, rate n⟩) ++
  limitRule desired.tcpSynAggRateLimits port [.family fam, dport, synOnly]
    (fun n => ⟨.packets, some pfx, rate n, rate n⟩) ++
  limitRule desired.tcpConnLimits port [.family fam, dport, .ctState [.new]]
    (fun n => ⟨.connections, some (bitsOf fam), n, 0⟩) ++
  limitRule desired.tcpConnPrefixLimits port [.family fam, dport, .ctState [.new]]
    (fun n => ⟨.connections, some pfx, n, 0⟩) ++
  limitRule desired.tcpConnPortLimits port [dport, .ctState [.new]]
    (fun n => ⟨.connections, none, n, 0⟩)

/-- `_tcp_policy_rules`. -/
def tcpPolicyRules (desired : DesiredState) (fam : IpFamily) : List NftRule :=
  (sorted desired.tcpPorts).flatMap (tcpPortRules desired fam)

/-- The rules of one port in `_udp_policy_rules`. -/
def udpPortRules (desired : DesiredState) (fam : IpFamily) (port : U32) : List NftRule :=
  let dport := NftMatch.dport ipprotoUdp [port.toNat]
  limitRule desired.udpRateLimits port [.family fam, dport]
    (fun n => ⟨.packets, some (bitsOf fam), rate n, rate n⟩) ++
  limitRule desired.udpAggRateLimits port [.family fam, dport]
    (fun n => ⟨.bytes, some (prefixOf desired fam), rate n, rate n⟩)

/-- `_udp_policy_rules`. -/
def udpPolicyRules (desired : DesiredState) (fam : IpFamily) : List NftRule :=
  (sorted desired.udpPorts).flatMap (udpPortRules desired fam)

/-! The rules of `_render_ruleset`, in its order. -/

def loopbackRule : NftRule := ⟨[.iifname "lo"], .accept⟩

def fragmentRules (cfg : NftConfig) : List NftRule :=
  onlyIf (hasV4 cfg) [⟨[.ipFragOff], .drop⟩] ++ onlyIf (hasV6 cfg) [⟨[.exthdrFrag], .drop⟩]

/-- `ip saddr @bogon_v4` and `ip6 saddr @bogon_v6`. -/
def bogonRule : IpFamily → NftRule
  | .ipv4 => ⟨[.saddr bogonV4], .drop⟩
  | .ipv6 => ⟨[.saddr bogonV6], .drop⟩

def bogonRules (cfg : NftConfig) (desired : DesiredState) : List NftRule :=
  onlyIf (hasV4 cfg && desired.bogonFilterEnabled) [bogonRule .ipv4] ++
  onlyIf (hasV6 cfg && desired.bogonFilterEnabled) [bogonRule .ipv6]

def malformedRules : List NftRule :=
  [⟨[.sport ipprotoTcp [0]], .drop⟩, ⟨[.dport ipprotoTcp [0]], .drop⟩,
    ⟨[.tcpFlags 0xFF 0], .drop⟩, ⟨[.tcpFlags 0x03 0x03], .drop⟩, ⟨[.tcpFlags 0x06 0x06], .drop⟩,
    ⟨[.tcpFlags 0x05 0x05], .drop⟩, ⟨[.tcpFlags 0x29 0x29], .drop⟩,
    ⟨[.sport ipprotoUdp [0]], .drop⟩, ⟨[.dport ipprotoUdp [0]], .drop⟩,
    ⟨[.udpLengthBelow 8], .drop⟩]

def ctRules : List NftRule :=
  [⟨[.ctState [.invalid]], .drop⟩, ⟨[.ctState [.established, .related]], .accept⟩]

/-- The trusted sources and the ACL of one family, for TCP. -/
def tcpAllowRules (desired : DesiredState) (fam : IpFamily) : List NftRule :=
  ⟨[.saddr (trustedSet desired fam), synOnly], .accept⟩ :: aclRules desired .tcp fam

def tcpRules (cfg : NftConfig) (desired : DesiredState) : List NftRule :=
  onlyIf (hasV4 cfg) (tcpAllowRules desired .ipv4) ++
  onlyIf (hasV6 cfg) (tcpAllowRules desired .ipv6) ++
  onlyIf (hasV4 cfg) (tcpPolicyRules desired .ipv4) ++
  onlyIf (hasV6 cfg) (tcpPolicyRules desired .ipv6) ++
  [⟨[synOnly, .dport ipprotoTcp (portSet desired.tcpPorts)], .accept⟩,
    ⟨[.l4proto ipprotoTcp], .drop⟩]

/-- The trusted sources and the ACL of one family, for UDP. -/
def udpAllowRules (desired : DesiredState) (fam : IpFamily) : List NftRule :=
  ⟨[.saddr (trustedSet desired fam), .dport ipprotoUdp (portSet desired.udpPorts)], .accept⟩ ::
    aclRules desired .udp fam

def udpRules (cfg : NftConfig) (desired : DesiredState) : List NftRule :=
  let ports := NftMatch.dport ipprotoUdp (portSet desired.udpPorts)
  let global := desired.udpGlobalByteRate.toNat
  onlyIf (hasV4 cfg) (udpAllowRules desired .ipv4) ++
  onlyIf (hasV6 cfg) (udpAllowRules desired .ipv6) ++
  onlyIf (decide (0 < global))
    [⟨[ports, .limitOver ⟨.bytes, none, rate global, rate global⟩], .drop⟩] ++
  onlyIf (hasV4 cfg) (udpPolicyRules desired .ipv4) ++
  onlyIf (hasV6 cfg) (udpPolicyRules desired .ipv6) ++
  [⟨[ports], .accept⟩, ⟨[.l4proto ipprotoUdp], .drop⟩]

def sctpRules (desired : DesiredState) : List NftRule :=
  [⟨[.dport ipprotoSctp (portSet desired.sctpPorts)], .accept⟩, ⟨[.l4proto ipprotoSctp], .drop⟩]

/-- Destination unreachable, time exceeded and parameter problem; the trusted
sources; the echo limit; the rest. -/
def icmpRules (cfg : NftConfig) (desired : DesiredState) : List NftRule :=
  let limit : NftMatch :=
    .limitOver ⟨.packets, none, rate cfg.xdpIcmpRatePps, max 1 cfg.xdpIcmpBurstPackets⟩
  let limited := decide (0 < cfg.xdpIcmpRatePps)
  onlyIf (hasV4 cfg)
    ([⟨[.family .ipv4, .icmpType ipprotoIcmp [3, 11, 12]], .accept⟩,
      ⟨[.saddr (trustedSet desired .ipv4), .l4proto ipprotoIcmp], .accept⟩] ++
      onlyIf limited [⟨[.family .ipv4, .icmpType ipprotoIcmp [8], limit], .drop⟩] ++
      [⟨[.family .ipv4, .l4proto ipprotoIcmp], .accept⟩]) ++
  onlyIf (hasV6 cfg)
    ([⟨[.saddr (trustedSet desired .ipv6), .l4proto ipprotoIcmpv6], .accept⟩] ++
      onlyIf limited [⟨[.icmpType ipprotoIcmpv6 [128], limit], .drop⟩] ++
      [⟨[.l4proto ipprotoIcmpv6], .accept⟩])

def sit4Rules (cfg : NftConfig) : List NftRule :=
  onlyIf (hasV4 cfg && !cfg.sit4Endpoints.isEmpty)
    [⟨[.family .ipv4, .l4proto ipprotoIpv6, .saddr (cfg.sit4Endpoints.map fun a => ⟨32, .v4 a⟩)],
      .accept⟩,
      ⟨[.family .ipv4, .l4proto ipprotoIpv6], .drop⟩]

def slotRule (cfg : NftConfig) : NftRule := ⟨[], if cfg.slotDefaultDrop then .drop else .accept⟩

/-- `_render_ruleset`: the input chain. -/
def renderRuleset (cfg : NftConfig) (desired : DesiredState) : List NftRule :=
  loopbackRule :: (fragmentRules cfg ++ bogonRules cfg desired ++ malformedRules ++ ctRules ++
    tcpRules cfg desired ++ udpRules cfg desired ++ sctpRules desired ++ icmpRules cfg desired ++
    sit4Rules cfg ++ [slotRule cfg])

end NftablesBackend

/-! Which rule decides. -/

section Decides

variable (meters : NftMeters) (p : NftPacket)

/-- Some rule of a list matches. -/
def nftAny (rules : List NftRule) : Bool := rules.any fun r => r.holds meters p

theorem nftDecides_cons (r : NftRule) (rules : List NftRule) :
    nftDecides meters (r :: rules) p =
      if r.holds meters p then some r else nftDecides meters rules p := by
  unfold nftDecides
  rw [List.find?_cons]
  split <;> rename_i h <;> simp only [h, ↓reduceIte, Bool.false_eq_true]

/-- Rules none of which matches are passed over. -/
theorem nftDecides_skip (rules rest : List NftRule) (h : nftAny meters p rules = false) :
    nftDecides meters (rules ++ rest) p = nftDecides meters rest p := by
  induction rules with
  | nil => rfl
  | cons r rules ih =>
    rw [nftAny, List.any_cons, Bool.or_eq_false_iff] at h
    rw [List.cons_append, nftDecides_cons, h.1]
    exact ih h.2

/-- A block of which some rule matches decides. -/
theorem nftDecides_block (rules rest : List NftRule) (h : nftAny meters p rules = true) :
    ∃ r ∈ rules, nftDecides meters (rules ++ rest) p = some r := by
  induction rules with
  | nil => exact absurd h nofun
  | cons r rules ih =>
    rw [List.cons_append, nftDecides_cons]
    by_cases hr : r.holds meters p = true
    · rw [if_pos hr]
      exact ⟨r, List.mem_cons_self, rfl⟩
    · rw [if_neg hr]
      rw [nftAny, List.any_cons, Bool.or_eq_true] at h
      obtain ⟨r', hr', hdecides⟩ := ih (h.resolve_left hr)
      exact ⟨r', List.mem_cons_of_mem r hr', hdecides⟩

/-- A block of rules of one verdict of which some matches gives that verdict. -/
theorem nftVerdict_block (rules rest : List NftRule) (v : NftVerdict)
    (hv : ∀ r ∈ rules, r.verdict = v) (h : nftAny meters p rules = true) :
    nftVerdict meters (rules ++ rest) p = v := by
  obtain ⟨r, hr, hdecides⟩ := nftDecides_block meters p rules rest h
  rw [nftVerdict, hdecides]
  exact hv r hr

theorem nftAny_onlyIf (c : Bool) (rules : List NftRule) :
    nftAny meters p (onlyIf c rules) = (c && nftAny meters p rules) := by
  cases c <;> rfl

theorem nftAny_append (rules rest : List NftRule) :
    nftAny meters p (rules ++ rest) = (nftAny meters p rules || nftAny meters p rest) :=
  List.any_append

end Decides

end AutoXdp
