import AutoXdp.NftRuleset
import Mathlib.Data.Finmap
import Mathlib.Data.Finset.Sort
import Mathlib.Data.Prod.Lex
import Mathlib.Data.Rat.Floor
import Mathlib.Data.String.Basic
import Mathlib.Order.Interval.Finset.Defs
import Mathlib.Tactic.Basic

/-! The text that the nftables backend hands to `nft -f -`, the signature by which it
decides whether to, and its runs (`auto_xdp/backends/nftables.py`). A Python set is a
`Finset`, a dict a `Finmap`. -/
namespace AutoXdp.NftScript

/-! What is read. -/

/-- A Python float. -/
inductive PyFloat where
  | finite (q : ℚ) | inf (negative : Bool) | nan
  deriving DecidableEq, Repr

/-- The globals of `auto_xdp/config.py` that a reload may change and the renderer
reads; the names of the sets are constants. -/
structure Globals where
  nftFamily : String := "inet"
  nftTable : String := "auto_xdp"
  sit4Endpoints : List String := []
  slotDefaultAction : String := "drop"
  xdpIcmpRatePps : PyFloat := .finite 100
  xdpIcmpBurstPackets : ℤ := 100
  deriving DecidableEq, Repr

abbrev Dict (κ ν : Type) := Finmap fun _ : κ => ν

/-- The fields of `DesiredState` that the backend reads. -/
structure DesiredState where
  tcpPorts : Finset ℤ := ∅
  udpPorts : Finset ℤ := ∅
  sctpPorts : Finset ℤ := ∅
  trustedCidrs : Finset String := ∅
  tcpSynRateLimits : Dict ℤ ℤ := ∅
  tcpSynAggRateLimits : Dict ℤ ℤ := ∅
  tcpConnLimits : Dict ℤ ℤ := ∅
  tcpConnPrefixLimits : Dict ℤ ℤ := ∅
  tcpConnPortLimits : Dict ℤ ℤ := ∅
  udpRateLimits : Dict ℤ ℤ := ∅
  udpAggRateLimits : Dict ℤ ℤ := ∅
  aclRules : Dict (String ×ₗ String) (Finset ℤ) := ∅
  bogonFilterEnabled : Bool := false
  dropEventsEnabled : Bool := true
  rateLimitSourcePrefixV4 : ℤ := 32
  rateLimitSourcePrefixV6 : ℤ := 128
  udpGlobalByteRate : ℤ := 0

/-- `d.get(port, 0)`. -/
def Dict.get (d : Dict ℤ ℤ) (port : ℤ) : ℤ := (d.lookup port).getD 0

section Items

variable {κ ν : Type} [LinearOrder κ]

/-- `sorted(d.items())`. The keys differ, so the values are never compared. -/
def Dict.sortedItems (d : Dict κ ν) : List (κ × ν) :=
  d.keys.sort.filterMap fun k => (d.lookup k).map fun v => (k, v)

end Items

/-- What the `ipaddress` module of Python computes for `_collapse_cidrs`, which raises
where some CIDR does not parse, and for `_prefix_mask`. -/
structure IpAddress where
  collapse : List String → Option (List String)
  netmask : IpFamily → ℕ → String

/-! The signature. -/

structure PolicySignature where
  tcpPorts : Finset ℤ
  udpPorts : Finset ℤ
  sctpPorts : Finset ℤ
  trustedCidrs : Finset String
  tcpSynRateLimits : List (ℤ × ℤ)
  tcpSynAggRateLimits : List (ℤ × ℤ)
  tcpConnLimits : List (ℤ × ℤ)
  tcpConnPrefixLimits : List (ℤ × ℤ)
  tcpConnPortLimits : List (ℤ × ℤ)
  udpRateLimits : List (ℤ × ℤ)
  udpAggRateLimits : List (ℤ × ℤ)
  aclRules : List ((String ×ₗ String) × List ℤ)
  bogonFilterEnabled : Bool
  dropEventsEnabled : Bool
  rateLimitSourcePrefixV4 : ℤ
  rateLimitSourcePrefixV6 : ℤ
  udpGlobalByteRate : ℤ
  sit4Endpoints : List String
  slotDefaultAction : String
  nftFamily : String
  nftTable : String
  deriving DecidableEq

/-- `_policy_signature`. -/
def policySignature (cfg : Globals) (desired : DesiredState) : PolicySignature where
  tcpPorts := desired.tcpPorts
  udpPorts := desired.udpPorts
  sctpPorts := desired.sctpPorts
  trustedCidrs := desired.trustedCidrs
  tcpSynRateLimits := desired.tcpSynRateLimits.sortedItems
  tcpSynAggRateLimits := desired.tcpSynAggRateLimits.sortedItems
  tcpConnLimits := desired.tcpConnLimits.sortedItems
  tcpConnPrefixLimits := desired.tcpConnPrefixLimits.sortedItems
  tcpConnPortLimits := desired.tcpConnPortLimits.sortedItems
  udpRateLimits := desired.udpRateLimits.sortedItems
  udpAggRateLimits := desired.udpAggRateLimits.sortedItems
  aclRules := desired.aclRules.sortedItems.map fun e => (e.1, e.2.sort)
  bogonFilterEnabled := desired.bogonFilterEnabled
  dropEventsEnabled := desired.dropEventsEnabled
  rateLimitSourcePrefixV4 := desired.rateLimitSourcePrefixV4
  rateLimitSourcePrefixV6 := desired.rateLimitSourcePrefixV6
  udpGlobalByteRate := desired.udpGlobalByteRate
  sit4Endpoints := cfg.sit4Endpoints
  slotDefaultAction := cfg.slotDefaultAction
  nftFamily := cfg.nftFamily
  nftTable := cfg.nftTable

/-! The sets. -/

def nftSchemaMarker : String := "policy_schema_v2"
def nftTcpSet : String := "tcp_ports"
def nftUdpSet : String := "udp_ports"
def nftSctpSet : String := "sctp_ports"
def nftTrustedSet4 : String := "trusted_v4"
def nftTrustedSet6 : String := "trusted_v6"

/-- `_BOGON_V4` and `_BOGON_V6`. -/
def bogonTexts : IpFamily → List String
  | .ipv4 => ["0.0.0.0/8", "10.0.0.0/8", "100.64.0.0/10", "127.0.0.0/8", "169.254.0.0/16",
      "172.16.0.0/12", "192.168.0.0/16", "224.0.0.0/4", "240.0.0.0/4"]
  | .ipv6 => ["::/128", "::1/128", "::ffff:0:0/96", "fc00::/7", "fe80::/10", "ff00::/8"]

/-- The lines of `_set_block`, its flags as one line. -/
def setLines (name valueType : String) (elements flags : List String) : List String :=
  let joined := ", ".intercalate elements
  [s!"    set {name} \x7b", s!"        type {valueType}"] ++ flags ++
    (if elements.isEmpty then [] else [s!"        elements = \x7b {joined} \x7d"]) ++ ["    \x7d"]

/-- `_set_block`. -/
def setBlock (name valueType : String) (elements : List String) (interval : Bool) : String :=
  "\n".intercalate (setLines name valueType elements
    (if interval then ["        flags interval"] else []))

/-- An empty block whose closing line `replace` has turned into the flag and itself. -/
def dynamicSet (name valueType : String) : String :=
  "\n".intercalate (setLines name valueType [] ["        flags dynamic"])

/-- `_family_flags`. -/
def familyFlag (cfg : Globals) : IpFamily → Bool
  | .ipv4 => cfg.nftFamily = "inet" || cfg.nftFamily = "ip"
  | .ipv6 => cfg.nftFamily = "inet" || cfg.nftFamily = "ip6"

def familyDigit : IpFamily → String
  | .ipv4 => "4"
  | .ipv6 => "6"

def valueType : IpFamily → String
  | .ipv4 => "ipv4_addr"
  | .ipv6 => "ipv6_addr"

def addrExpr : IpFamily → String
  | .ipv4 => "ip saddr"
  | .ipv6 => "ip6 saddr"

def trustedSetName : IpFamily → String
  | .ipv4 => nftTrustedSet4
  | .ipv6 => nftTrustedSet6

/-- A CIDR of a family: IPv6 ones have a colon. -/
def ofFamily (fam : IpFamily) (cidr : String) : Bool :=
  match fam with
  | .ipv4 => !cidr.toList.contains ':'
  | .ipv6 => cidr.toList.contains ':'

/-- `_rate` of a whole number. -/
def rate (value : ℤ) : ℤ := max 1 value

/-- `_prefix_mask`. -/
def prefixMask (ip : IpAddress) (fam : IpFamily) (pfx : ℤ) : String :=
  let bits : ℤ := match fam with
    | .ipv4 => 32
    | .ipv6 => 128
  ip.netmask fam (max 0 (min bits pfx)).toNat

/-- The source prefix of a family. -/
def sourcePrefix (desired : DesiredState) : IpFamily → ℤ
  | .ipv4 => desired.rateLimitSourcePrefixV4
  | .ipv6 => desired.rateLimitSourcePrefixV6

/-- `append` under an `if`. -/
def lineIf (c : Bool) (line : String) : List String := if c then [line] else []

/-- The sets of one port in `_tcp_policy_objects`. -/
def tcpPortObjects (desired : DesiredState) (fam : IpFamily) (port : ℤ) : List String :=
  let digit := familyDigit fam
  lineIf (0 < desired.tcpConnLimits.get port) (dynamicSet s!"tc{digit}s_{port}" (valueType fam)) ++
  lineIf (0 < desired.tcpConnPrefixLimits.get port)
    (dynamicSet s!"tc{digit}p_{port}" (valueType fam))

/-- `_tcp_policy_objects`. -/
def tcpPolicyObjects (desired : DesiredState) (fam : IpFamily) : List String :=
  desired.tcpPorts.sort.flatMap (tcpPortObjects desired fam)

/-! The rules. -/

/-- `_acl_rules`, for one entry. -/
def aclRule (proto : String) (fam : IpFamily) (e : (String ×ₗ String) × Finset ℤ) : List String :=
  let (ruleProto, cidr) := ofLex e.1
  let ports := ", ".intercalate (e.2.sort.map toString)
  if ruleProto ≠ proto ∨ ofFamily fam cidr = false ∨ e.2 = ∅ then []
  else if proto = "tcp" then
    [s!"        {addrExpr fam} {cidr} tcp flags & (syn | ack) == syn " ++
      s!"tcp dport \x7b {ports} \x7d counter accept"]
  else
    [s!"        {addrExpr fam} {cidr} udp dport @{nftUdpSet} " ++
      s!"udp dport \x7b {ports} \x7d counter accept"]

/-- `_acl_rules`. -/
def aclRules (desired : DesiredState) (proto : String) (fam : IpFamily) : List String :=
  desired.aclRules.sortedItems.flatMap (aclRule proto fam)

/-- The rules of one port in `_tcp_policy_rules`. -/
def tcpPortRules (ip : IpAddress) (desired : DesiredState) (fam : IpFamily) (port : ℤ) :
    List String :=
  let digit := familyDigit fam
  let addr := addrExpr fam
  let mask := prefixMask ip fam (sourcePrefix desired fam)
  let perSrc := desired.tcpSynRateLimits.get port
  let perPrefix := desired.tcpSynAggRateLimits.get port
  let connSrc := desired.tcpConnLimits.get port
  let connPrefix := desired.tcpConnPrefixLimits.get port
  let connPort := desired.tcpConnPortLimits.get port
  lineIf (0 < perSrc)
    (s!"        tcp dport {port} tcp flags & (syn | ack) == syn " ++
      s!"meter ts{digit}_{port} \x7b {addr} limit rate over {rate perSrc}/second " ++
      s!"burst {rate perSrc} packets \x7d counter drop") ++
  lineIf (0 < perPrefix)
    (s!"        tcp dport {port} tcp flags & (syn | ack) == syn " ++
      s!"meter tp{digit}_{port} \x7b {addr} & {mask} limit rate over {rate perPrefix}/second " ++
      s!"burst {rate perPrefix} packets \x7d counter drop") ++
  lineIf (0 < connSrc)
    (s!"        tcp dport {port} ct state new add @tc{digit}s_{port} " ++
      s!"\x7b {addr} ct count over {connSrc} \x7d counter drop") ++
  lineIf (0 < connPrefix)
    (s!"        tcp dport {port} ct state new add @tc{digit}p_{port} " ++
      s!"\x7b {addr} & {mask} ct count over {connPrefix} \x7d counter drop") ++
  lineIf (0 < connPort)
    (s!"        tcp dport {port} ct state new add @tcp_conn_ports " ++
      s!"\x7b tcp dport ct count over {connPort} \x7d counter drop")

/-- `_tcp_policy_rules`. -/
def tcpPolicyRules (ip : IpAddress) (desired : DesiredState) (fam : IpFamily) : List String :=
  desired.tcpPorts.sort.flatMap (tcpPortRules ip desired fam)

/-- The rules of one port in `_udp_policy_rules`. -/
def udpPortRules (ip : IpAddress) (desired : DesiredState) (fam : IpFamily) (port : ℤ) :
    List String :=
  let digit := familyDigit fam
  let addr := addrExpr fam
  let mask := prefixMask ip fam (sourcePrefix desired fam)
  let perSrc := desired.udpRateLimits.get port
  let perPrefix := desired.udpAggRateLimits.get port
  lineIf (0 < perSrc)
    (s!"        udp dport {port} meter us{digit}_{port} \x7b {addr} limit rate over " ++
      s!"{rate perSrc}/second burst {rate perSrc} packets \x7d counter drop") ++
  lineIf (0 < perPrefix)
    (s!"        udp dport {port} meter up{digit}_{port} \x7b {addr} & {mask} limit rate over " ++
      s!"{rate perPrefix} bytes/second burst {rate perPrefix} bytes \x7d counter drop")

/-- `_udp_policy_rules`. -/
def udpPolicyRules (ip : IpAddress) (desired : DesiredState) (fam : IpFamily) : List String :=
  desired.udpPorts.sort.flatMap (udpPortRules ip desired fam)

/-- Lines that are there for a family. -/
def forFamily (cfg : Globals) (fam : IpFamily) (lines : List String) : List String :=
  if familyFlag cfg fam then lines else []

/-- The sets of `_render_ruleset`, with the collapsed trusted networks. -/
def renderBlocks (cfg : Globals) (desired : DesiredState) (trustedV4 trustedV6 : List String) :
    List String :=
  let ports (s : Finset ℤ) := s.sort.map toString
  [setBlock nftSchemaMarker "mark" [] false,
    setBlock nftTcpSet "inet_service" (ports desired.tcpPorts) false,
    setBlock nftUdpSet "inet_service" (ports desired.udpPorts) false,
    setBlock nftSctpSet "inet_service" (ports desired.sctpPorts) false,
    setBlock nftTrustedSet4 "ipv4_addr" trustedV4 true,
    setBlock nftTrustedSet6 "ipv6_addr" trustedV6 true] ++
  lineIf (familyFlag cfg .ipv4 && desired.bogonFilterEnabled)
    (setBlock "bogon_v4" "ipv4_addr" (bogonTexts .ipv4) true) ++
  lineIf (familyFlag cfg .ipv6 && desired.bogonFilterEnabled)
    (setBlock "bogon_v6" "ipv6_addr" (bogonTexts .ipv6) true) ++
  forFamily cfg .ipv4 (tcpPolicyObjects desired .ipv4) ++
  forFamily cfg .ipv6 (tcpPolicyObjects desired .ipv6) ++
  lineIf (desired.tcpPorts.sort.any fun port => 0 < desired.tcpConnPortLimits.get port)
    (dynamicSet "tcp_conn_ports" "inet_service")

/-- The rules of `_render_ruleset` up to the ones on TCP. -/
def openingRules (cfg : Globals) (desired : DesiredState) : List String :=
  ["        iifname \"lo\" counter accept"] ++
  forFamily cfg .ipv4 ["        ip frag-off & 0x3fff != 0 counter drop"] ++
  forFamily cfg .ipv6 ["        exthdr frag exists counter drop"] ++
  lineIf (familyFlag cfg .ipv4 && desired.bogonFilterEnabled)
    "        ip saddr @bogon_v4 counter drop" ++
  lineIf (familyFlag cfg .ipv6 && desired.bogonFilterEnabled)
    "        ip6 saddr @bogon_v6 counter drop" ++
  ["        tcp sport 0 counter drop",
    "        tcp dport 0 counter drop",
    "        tcp flags == 0 counter drop",
    "        tcp flags & (syn | fin) == (syn | fin) counter drop",
    "        tcp flags & (syn | rst) == (syn | rst) counter drop",
    "        tcp flags & (rst | fin) == (rst | fin) counter drop",
    "        tcp flags & (fin | psh | urg) == (fin | psh | urg) counter drop",
    "        udp sport 0 counter drop",
    "        udp dport 0 counter drop",
    "        udp length < 8 counter drop",
    "        ct state invalid counter drop",
    "        ct state established,related counter accept"]

/-- The trusted sources and the ACL of one family, for TCP. -/
def tcpAllowRules (desired : DesiredState) (fam : IpFamily) : List String :=
  s!"        {addrExpr fam} @{trustedSetName fam} tcp flags & (syn | ack) == syn counter accept" ::
    aclRules desired "tcp" fam

/-- The trusted sources and the ACL of one family, for UDP. -/
def udpAllowRules (desired : DesiredState) (fam : IpFamily) : List String :=
  s!"        {addrExpr fam} @{trustedSetName fam} udp dport @{nftUdpSet} counter accept" ::
    aclRules desired "udp" fam

def transportRules (ip : IpAddress) (cfg : Globals) (desired : DesiredState) : List String :=
  let global := rate desired.udpGlobalByteRate
  forFamily cfg .ipv4 (tcpAllowRules desired .ipv4) ++
  forFamily cfg .ipv6 (tcpAllowRules desired .ipv6) ++
  forFamily cfg .ipv4 (tcpPolicyRules ip desired .ipv4) ++
  forFamily cfg .ipv6 (tcpPolicyRules ip desired .ipv6) ++
  [s!"        tcp flags & (syn | ack) == syn tcp dport @{nftTcpSet} counter accept",
    "        meta l4proto tcp counter drop"] ++
  forFamily cfg .ipv4 (udpAllowRules desired .ipv4) ++
  forFamily cfg .ipv6 (udpAllowRules desired .ipv6) ++
  lineIf (0 < desired.udpGlobalByteRate)
    (s!"        udp dport @{nftUdpSet} limit rate over {global} bytes/second " ++
      s!"burst {global} bytes counter drop") ++
  forFamily cfg .ipv4 (udpPolicyRules ip desired .ipv4) ++
  forFamily cfg .ipv6 (udpPolicyRules ip desired .ipv6) ++
  [s!"        udp dport @{nftUdpSet} counter accept",
    "        meta l4proto udp counter drop",
    s!"        sctp dport @{nftSctpSet} counter accept",
    "        meta l4proto sctp counter drop"]

/-- `icmp_rate`. The ceiling of an infinite rate raises. -/
def icmpRate : PyFloat → Option ℕ
  | .finite q => some (if 0 < q then (max 1 ⌈q⌉).toNat else 0)
  | .inf negative => if negative then some 0 else none
  | .nan => some 0

/-- `icmp_burst`. -/
def icmpBurst (cfg : Globals) : ℕ := (max 1 cfg.xdpIcmpBurstPackets).toNat

/-- The echo limit, under `if icmp_rate`. -/
def echoRule (fam : IpFamily) (icmpRate icmpBurst : ℕ) : List String :=
  let icmp := match fam with
    | .ipv4 => "ip protocol icmp icmp"
    | .ipv6 => "meta l4proto ipv6-icmp icmpv6"
  lineIf (icmpRate ≠ 0)
    (s!"        {icmp} type echo-request limit rate over {icmpRate}/second " ++
      s!"burst {icmpBurst} packets counter drop")

def icmpRules (cfg : Globals) (icmpRate icmpBurst : ℕ) : List String :=
  forFamily cfg .ipv4
    (["        ip protocol icmp icmp type \x7b destination-unreachable, " ++
        "time-exceeded, parameter-problem \x7d counter accept",
      s!"        ip saddr @{nftTrustedSet4} ip protocol icmp counter accept"] ++
      echoRule .ipv4 icmpRate icmpBurst ++ ["        ip protocol icmp counter accept"]) ++
  forFamily cfg .ipv6
    ([s!"        ip6 saddr @{nftTrustedSet6} meta l4proto ipv6-icmp counter accept"] ++
      echoRule .ipv6 icmpRate icmpBurst ++ ["        meta l4proto ipv6-icmp counter accept"])

/-- `sorted` of strings. -/
def sortedStrings (l : List String) : List String := l.insertionSort (· ≤ ·)

/-- The tunnels and the default action. -/
def closingRules (cfg : Globals) : List String :=
  let endpoints := ", ".intercalate (sortedStrings cfg.sit4Endpoints)
  (if familyFlag cfg .ipv4 && !cfg.sit4Endpoints.isEmpty then
    [s!"        ip protocol ipv6 ip saddr \x7b {endpoints} \x7d counter accept",
      "        ip protocol ipv6 counter drop"]
  else []) ++
  [if cfg.slotDefaultAction = "drop" then "        counter drop" else "        counter accept"]

/-- The trusted networks of a family, collapsed. -/
def trustedNetworks (ip : IpAddress) (desired : DesiredState) (fam : IpFamily) :
    Option (List String) :=
  ip.collapse (desired.trustedCidrs.filter (ofFamily fam ·)).sort

/-- The script, with what the raising parts have computed. -/
def scriptText (ip : IpAddress) (cfg : Globals) (desired : DesiredState) (replace : Bool)
    (trustedV4 trustedV6 : List String) (icmpRate : ℕ) : String :=
  let table := s!"{cfg.nftFamily} {cfg.nftTable}"
  let deletion := if replace then s!"delete table {table}\n" else ""
  let body := "\n\n".intercalate (renderBlocks cfg desired trustedV4 trustedV6)
  let chain := "\n".intercalate (openingRules cfg desired ++ transportRules ip cfg desired ++
    icmpRules cfg icmpRate (icmpBurst cfg) ++ closingRules cfg)
  s!"{deletion}table {table} \x7b\n" ++ s!"{body}\n\n" ++ "    chain input \x7b\n" ++
    "        type filter hook input priority filter; policy accept;\n" ++ s!"{chain}\n" ++
    "    \x7d\n" ++ "\x7d\n"

/-- `_render_ruleset`; `none` where it raises. -/
def renderRuleset (ip : IpAddress) (cfg : Globals) (desired : DesiredState) (replace : Bool) :
    Option String := do
  let trustedV4 ← trustedNetworks ip desired .ipv4
  let trustedV6 ← trustedNetworks ip desired .ipv6
  let icmpRate ← icmpRate cfg.xdpIcmpRatePps
  return scriptText ip cfg desired replace trustedV4 trustedV6 icmpRate

/-! Runs. -/

/-- The configuration now, the signature that the backend remembers, and what the
kernel holds for each family and table. -/
structure NftState where
  cfg : Globals
  signature : Option PolicySignature
  tables : String × String → Option String

inductive NftEvent where
  | reload (cfg : Globals)
  | reconcile (desired : DesiredState) (dryRun : Bool)

/-- `apply_reconcile_plan` with a transaction that succeeds. A renderer that raises
installs nothing. -/
def applyReconcilePlan (ip : IpAddress) (s : NftState) (desired : DesiredState) (dryRun : Bool) :
    NftState :=
  let signature := policySignature s.cfg desired
  if s.signature = some signature then s
  else
    match renderRuleset ip s.cfg desired true with
    | none => s
    | some script =>
      if dryRun then s
      else
        { s with
          tables := Function.update s.tables (s.cfg.nftFamily, s.cfg.nftTable) (some script)
          signature := some signature }

def nftStep (ip : IpAddress) (s : NftState) : NftEvent → NftState
  | .reload cfg => { s with cfg := cfg }
  | .reconcile desired dryRun => applyReconcilePlan ip s desired dryRun

/-- The table that the current configuration names. -/
def NftState.installed (s : NftState) : Option String :=
  s.tables (s.cfg.nftFamily, s.cfg.nftTable)

end AutoXdp.NftScript
