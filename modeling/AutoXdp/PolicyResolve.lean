import AutoXdp.KernelReaders
import AutoXdp.LimitConvergence
import AutoXdp.RiskMaps
import Mathlib.Tactic.Basic

/-! The desired state that `auto_xdp/policy.py` resolves from the configuration, the
service names and what was observed. -/
namespace AutoXdp
open XdpBackend BpfRiskMaps

/-! `auto_xdp/services.py`. -/

/-- `service_name`. -/
def serviceName (services : List ((Text × ℤ) × Text)) (port : U32) (proto : Text) : Text :=
  (services.lookup (proto, (port.toNat : ℤ))).getD []

/-! `auto_xdp/policy.py`. -/

/-- A limit by process and by service, with the default of each tier. -/
structure LimitTable where
  byProc : List (Text × ℤ) := []
  byService : List (Text × ℤ) := []
  strict : ℤ
  default : ℤ

/-- The globals of `config.py` that the policy reads; those that it passes on are fields of
the resolved state. -/
structure PolicySettings where
  syn : LimitTable := { strict := 5, default := 100 }
  synAgg : LimitTable := { strict := 50, default := 1000 }
  tcpConn : LimitTable := { strict := 5, default := 50 }
  tcpConnPrefix : LimitTable := { strict := 20, default := 200 }
  tcpConnPort : LimitTable := { strict := 200, default := 5000 }
  udpRateByProc : List (Text × ℤ) := []
  udpRateByService : List (Text × ℤ) := []
  udpAggBytesByProc : List (Text × ℤ) := []
  udpAggBytesByService : List (Text × ℤ) := []
  rateMapEntriesByProc : List (Text × ℤ) := []
  rateMapEntriesByService : List (Text × ℤ) := []
  rateMapEntriesV4 : ℤ := 16384
  sensitivePortThreshold : ℤ := 5
  tcpPermanent : List U32 := []
  udpPermanent : List U32 := []
  sctpPermanent : List U32 := []
  trustedSrcIps : List LpmKey := []
  aclRules : List ((String × LpmKey) × List U16) := []

structure ObservedState where
  tcp : List U32 := []
  udp : List U32 := []
  sctp : List U32 := []
  established : List FlowKey := []
  tcpProcesses : List (U32 × Text) := []
  udpProcesses : List (U32 × Text) := []

namespace Policy

variable (services : List ((Text × ℤ) × Text))

def tcpName : Text := "tcp".toList

def udpName : Text := "udp".toList

/-- `_explicit_lookup`; `none` is a missing entry, zero is an explicit one. -/
def explicitLookup (port : U32) (proc : Text) (procLimits serviceLimits : List (Text × ℤ)) :
    Option ℤ :=
  if proc ≠ [] ∧ (procLimits.lookup proc).isSome then procLimits.lookup proc
  else
    let svc := serviceName services port tcpName
    if svc ≠ [] then serviceLimits.lookup svc else none

/-- The entry makes the port sensitive. -/
def sensitiveRate (threshold : ℤ) (rate : Option ℤ) : Bool :=
  rate.any fun rate => 0 < rate && rate ≤ threshold

def isSensitive (s : PolicySettings) (port : U32) (proc : Text) : Bool :=
  let svc := serviceName services port tcpName
  (proc ≠ [] && sensitiveRate s.sensitivePortThreshold (s.syn.byProc.lookup proc)) ||
    (svc ≠ [] && sensitiveRate s.sensitivePortThreshold (s.syn.byService.lookup svc))

def resolveServiceLimit (port : U32) (proto proc : Text)
    (procLimits serviceLimits : List (Text × ℤ)) : ℤ :=
  match if proc ≠ [] then procLimits.lookup proc else none with
  | some limit => limit
  | none =>
    let svc := serviceName services port proto
    if svc = [] then 0 else (serviceLimits.lookup svc).getD 0

/-- `_port_rate_limit`. -/
def portRateLimit (s : PolicySettings) (port : U32) (proc : Text) : ℤ :=
  if proc ≠ [] ∧ (s.syn.byProc.lookup proc).isSome then (s.syn.byProc.lookup proc).getD 0
  else if isSensitive services s port proc then s.syn.strict
  else (explicitLookup services port proc s.syn.byProc s.syn.byService).getD s.syn.default

/-- The other limits of a TCP port: the explicit entry, or the default of the tier. -/
def tierLimit (s : PolicySettings) (table : LimitTable) (port : U32) (proc : Text) : ℤ :=
  (explicitLookup services port proc table.byProc table.byService).getD
    (if isSensitive services s port proc then table.strict else table.default)

def synAggregateRateLimit (s : PolicySettings) : U32 → Text → ℤ := tierLimit services s s.synAgg

def tcpConnLimit (s : PolicySettings) : U32 → Text → ℤ := tierLimit services s s.tcpConn

def tcpConnPrefixLimit (s : PolicySettings) : U32 → Text → ℤ :=
  tierLimit services s s.tcpConnPrefix

def tcpConnPortLimit (s : PolicySettings) : U32 → Text → ℤ := tierLimit services s s.tcpConnPort

def rateMapEntries (s : PolicySettings) (port : U32) (proc : Text) : ℤ :=
  (explicitLookup services port proc s.rateMapEntriesByProc s.rateMapEntriesByService).getD
    s.rateMapEntriesV4

def udpPortRateLimit (s : PolicySettings) (port : U32) (proc : Text) : ℤ :=
  resolveServiceLimit services port udpName proc s.udpRateByProc s.udpRateByService

def udpAggregateByteLimit (s : PolicySettings) (port : U32) (proc : Text) : ℤ :=
  let limit := resolveServiceLimit services port udpName proc s.udpAggBytesByProc
    s.udpAggBytesByService
  if 0 < limit then limit
  else
    let base := udpPortRateLimit services s port proc
    if 0 < base then base*1200 else 0

/-- A dict over a set of ports. -/
def byPort {α : Type} (ports : List U32) (f : U32 → α) : BpfMap U32 α :=
  (ports.map fun port => (⟨port, f port⟩ : Σ _ : U32, α)).toAList

/-- `_resolve_port_limits`. -/
def resolvePortLimits (ports : List U32) (processNames : List (U32 × Text))
    (resolver : U32 → Text → ℤ) : BpfMap U32 ℤ :=
  byPort ports fun port => resolver port ((processNames.lookup port).getD [])

/-- The entries of the ports whose rate is positive. -/
def limitedEntries (s : PolicySettings) (limits : BpfMap U32 ℤ)
    (processNames : List (U32 × Text)) : BpfMap U32 ℤ :=
  byPort ((limits.entries.filter fun e => 0 < e.2).map Sigma.fst) fun port =>
    rateMapEntries services s port ((processNames.lookup port).getD [])

def desiredAclRules (rules : List ((String × LpmKey) × List U16)) :
    BpfMap (String × LpmKey) (List U16) :=
  rules.foldl (fun desired rule =>
    if rule.2 = [] then desired else desired.insert rule.1 (frozenset rule.2)) ∅

/-- The values in the 32-bit words that they are packed into. -/
def packed (limits : BpfMap U32 ℤ) : BpfMap U32 U32 :=
  ⟨limits.entries.map fun e => ⟨e.1, BitVec.ofInt 32 e.2⟩,
    limits.nodupKeys.map₂ fun _ limit => BitVec.ofInt 32 limit⟩

/-- `resolve_desired_state`; `passed` has the fields that are settings as they are. -/
def resolveDesiredState (s : PolicySettings) (observed : ObservedState) (passed : DesiredState) :
    DesiredState :=
  let tcpPorts := (observed.tcp ++ s.tcpPermanent).dedup
  let udpPorts := (observed.udp ++ s.udpPermanent).dedup
  let tcpLimits := resolvePortLimits tcpPorts observed.tcpProcesses
  let udpLimits := resolvePortLimits udpPorts observed.udpProcesses
  let tcpSynRateLimits := tcpLimits (portRateLimit services s)
  let udpRateLimits := udpLimits (udpPortRateLimit services s)
  { passed with
    tcpPorts := tcpPorts
    udpPorts := udpPorts
    sctpPorts := (observed.sctp ++ s.sctpPermanent).dedup
    trustedCidrs := s.trustedSrcIps
    conntrackEntries := observed.established
    tcpSynRateLimits := packed tcpSynRateLimits
    tcpSynAggRateLimits := packed (tcpLimits (synAggregateRateLimit services s))
    tcpConnLimits := packed (tcpLimits (tcpConnLimit services s))
    tcpConnPrefixLimits := packed (tcpLimits (tcpConnPrefixLimit services s))
    tcpConnPortLimits := packed (tcpLimits (tcpConnPortLimit services s))
    udpRateLimits := packed udpRateLimits
    udpAggRateLimits := packed (udpLimits (udpAggregateByteLimit services s))
    tcpRateMapEntries := packed (limitedEntries services s tcpSynRateLimits observed.tcpProcesses)
    udpRateMapEntries := packed (limitedEntries services s udpRateLimits observed.udpProcesses)
    aclRules := desiredAclRules s.aclRules }

/-! What the dicts hold. -/

section Dicts

theorem byPort_lookup {α : Type} (ports : List U32) (f : U32 → α) (q : U32) :
    (byPort ports f).lookup q = if q ∈ ports then some (f q) else none := by
  rw [byPort, AList.lookup_to_alist]
  induction ports with
  | nil => rfl
  | cons port ports ih =>
    rw [List.map_cons]
    by_cases hq : q = port
    · subst hq
      rw [List.dlookup_cons_eq, if_pos (List.mem_cons_self ..)]
    · rw [List.dlookup_cons_ne _ _ hq, ih]
      simp only [List.mem_cons, hq, false_or]

theorem packed_lookup (limits : BpfMap U32 ℤ) (q : U32) :
    (packed limits).lookup q = (limits.lookup q).map (BitVec.ofInt 32) := by
  have hmap (entries : List (Σ _ : U32, ℤ)) :
      (List.dlookup q (entries.map fun e => (⟨e.1, BitVec.ofInt 32 e.2⟩ : Σ _ : U32, U32)) :
        Option U32) = (List.dlookup q entries : Option ℤ).map (BitVec.ofInt 32) := by
    induction entries with
    | nil => rfl
    | cons e es ih =>
      obtain ⟨port, limit⟩ := e
      rw [List.map_cons]
      by_cases hq : q = port
      · subst hq
        rw [List.dlookup_cons_eq, List.dlookup_cons_eq, Option.map_some]
      · rw [List.dlookup_cons_ne _ _ hq, List.dlookup_cons_ne _ _ hq, ih]
  exact hmap limits.entries

variable (s : PolicySettings)

/-- The owning process of a port. -/
def owner (processNames : List (U32 × Text)) (port : U32) : Text :=
  (processNames.lookup port).getD []

theorem resolved_lookup (ports : List U32) (names : List (U32 × Text)) (resolver : U32 → Text → ℤ)
    (q : U32) : (packed (resolvePortLimits ports names resolver)).lookup q =
      if q ∈ ports then some (BitVec.ofInt 32 (resolver q (owner names q))) else none := by
  rw [packed_lookup, resolvePortLimits, byPort_lookup]
  split_ifs <;> rfl

/-- An entry for each port with a positive rate, and for no other. -/
theorem mem_limitedEntries (ports : List U32) (names : List (U32 × Text))
    (resolver : U32 → Text → ℤ) (q : U32) :
    q ∈ packed (limitedEntries services s (resolvePortLimits ports names resolver) names) ↔
      q ∈ ports ∧ 0 < resolver q (owner names q) := by
  rw [← AList.lookup_isSome, packed_lookup, Option.isSome_map, limitedEntries, byPort_lookup]
  have hmem : q ∈ ((resolvePortLimits ports names resolver).entries.filter
      fun e => 0 < e.2).map Sigma.fst ↔ q ∈ ports ∧ 0 < resolver q (owner names q) := by
    rw [List.mem_map]
    constructor
    · rintro ⟨e, he, rfl⟩
      rw [List.mem_filter, decide_eq_true_eq] at he
      have hlookup := AList.mem_lookup_iff.mpr he.1
      rw [resolvePortLimits, byPort_lookup] at hlookup
      by_cases hport : e.1 ∈ ports
      · rw [if_pos hport, Option.mem_def, Option.some_inj] at hlookup
        rw [owner, hlookup]
        exact ⟨hport, he.2⟩
      · rw [if_neg hport] at hlookup
        exact absurd hlookup.symm (Option.some_ne_none e.2)
    · rintro ⟨hport, hrate⟩
      have hlookup : (resolvePortLimits ports names resolver).lookup q =
          some (resolver q (owner names q)) := by
        rw [resolvePortLimits, byPort_lookup, if_pos hport]
        rfl
      refine ⟨⟨q, _⟩, List.mem_filter.mpr ⟨AList.mem_lookup_iff.mp hlookup, ?_⟩, rfl⟩
      exact decide_eq_true hrate
  by_cases hq : q ∈ ports ∧ 0 < resolver q (owner names q)
  · rw [if_pos (hmem.mpr hq)]
    exact iff_of_true rfl hq
  · rw [if_neg (hmem.not.mpr hq)]
    exact iff_of_false Bool.false_ne_true hq

end Dicts

/-! Which limits are zero. -/

section Zero

variable (s : PolicySettings)

/-- The table of a TCP limit, by its word in the policy. -/
def tcpTable : Fin 8 → LimitTable
  | 0 => s.syn
  | 1 => s.synAgg
  | 2 => s.tcpConn
  | 5 => s.tcpConnPrefix
  | _ => s.tcpConnPort

def tcpResolver : Fin 8 → U32 → Text → ℤ
  | 0 => portRateLimit services s
  | 1 => synAggregateRateLimit services s
  | 2 => tcpConnLimit services s
  | 5 => tcpConnPrefixLimit services s
  | _ => tcpConnPortLimit services s

def udpResolver : Fin 8 → U32 → Text → ℤ
  | 0 => udpPortRateLimit services s
  | _ => udpAggregateByteLimit services s

/-- The defaults that `_coerce_positive_int` accepts. -/
def PositiveDefaults : Prop :=
  ∀ i ∈ limitWords .tcp, 0 < (tcpTable s i).strict ∧ 0 < (tcpTable s i).default

/-- The operator's entry for the port sets the limit to zero. -/
def PinnedOff (i : Fin 8) (port : U32) (proc : Text) : Prop :=
  explicitLookup services port proc (tcpTable s i).byProc (tcpTable s i).byService = some 0

theorem tierLimit_zero_iff {table : LimitTable} (hstrict : 0 < table.strict)
    (hdefault : 0 < table.default) (port : U32) (proc : Text) :
    tierLimit services s table port proc = 0 ↔
      explicitLookup services port proc table.byProc table.byService = some 0 := by
  unfold tierLimit
  cases explicitLookup services port proc table.byProc table.byService with
  | some limit => rw [Option.getD_some, Option.some_inj]
  | none =>
    rw [Option.getD_none]
    refine iff_of_false ?_ (Option.some_ne_none 0).symm
    split_ifs <;> omega

/-- A SYN rate at or under the threshold is a mark of the port, not its rate. -/
theorem portRateLimit_zero_iff (hstrict : 0 < s.syn.strict) (hdefault : 0 < s.syn.default)
    (port : U32) (proc : Text) :
    portRateLimit services s port proc = 0 ↔
      explicitLookup services port proc s.syn.byProc s.syn.byService = some 0 := by
  unfold portRateLimit
  by_cases hproc : proc ≠ [] ∧ (s.syn.byProc.lookup proc).isSome
  · obtain ⟨rate, hrate⟩ := Option.isSome_iff_exists.mp hproc.2
    rw [if_pos hproc, explicitLookup, if_pos hproc, hrate, Option.getD_some, Option.some_inj]
  · rw [if_neg hproc]
    by_cases hsensitive : isSensitive services s port proc = true
    · rw [if_pos hsensitive]
      refine iff_of_false hstrict.ne' ?_
      intro hzero
      rw [explicitLookup, if_neg hproc] at hzero
      -- the port is sensitive by its service, whose rate is then positive
      have hservice : (serviceName services port tcpName ≠ [] &&
          sensitiveRate s.sensitivePortThreshold
            (s.syn.byService.lookup (serviceName services port tcpName))) = true := by
        rw [isSensitive, Bool.or_eq_true] at hsensitive
        apply hsensitive.resolve_left
        intro hbyProc
        rw [Bool.and_eq_true, decide_eq_true_eq, sensitiveRate, Option.any_eq_true] at hbyProc
        obtain ⟨hnamed, rate, hrate, -⟩ := hbyProc
        exact hproc ⟨hnamed, by rw [hrate]; rfl⟩
      rw [Bool.and_eq_true, decide_eq_true_eq] at hservice
      rw [if_pos hservice.1] at hzero
      rw [hzero, sensitiveRate] at hservice
      simp at hservice
    · rw [if_neg hsensitive]
      cases hexplicit : explicitLookup services port proc s.syn.byProc s.syn.byService with
      | some limit => rw [Option.getD_some, Option.some_inj]
      | none => exact iff_of_false hdefault.ne' (Option.some_ne_none 0).symm

theorem tcpWord_cases : ∀ {i : Fin 8}, i ∈ limitWords .tcp →
    i = 0 ∨ i = 1 ∨ i = 2 ∨ i = 5 ∨ i = 6 := by
  decide

theorem udpWord_cases : ∀ {i : Fin 8}, i ∈ limitWords .udp → i = 0 ∨ i = 1 := by
  decide

/-- A limit is zero when the operator has pinned it off, and only then. -/
theorem limit_zero_iff (hpos : PositiveDefaults s) {i : Fin 8} (hi : i ∈ limitWords .tcp)
    (port : U32) (proc : Text) :
    tcpResolver services s i port proc = 0 ↔ PinnedOff services s i port proc := by
  obtain ⟨hstrict, hdefault⟩ := hpos i hi
  obtain rfl | rfl | rfl | rfl | rfl := tcpWord_cases hi
  · exact portRateLimit_zero_iff services s hstrict hdefault port proc
  all_goals exact tierLimit_zero_iff services s hstrict hdefault port proc

end Zero

/-! From the policy to the kernel. -/

/-- The value has its place in a word. -/
def Fits (n : ℤ) : Prop := 0 ≤ n ∧ n < 2^32

theorem word_of_fits {n : ℤ} (h : Fits n) : ((BitVec.ofInt 32 n).toNat : ℤ) = n := by
  obtain ⟨hle, hlt⟩ := h
  rw [BitVec.toNat_ofInt]
  omega

theorem word_zero_iff {n : ℤ} (h : Fits n) : BitVec.ofInt 32 n = 0 ↔ n = 0 := by
  constructor
  · intro hzero
    have hword := word_of_fits h
    rw [hzero] at hword
    exact hword.symm
  · rintro rfl
    rfl

section Resolved

variable (s : PolicySettings) (observed : ObservedState) (passed : DesiredState)

/-- Every limit that is resolved has its place in a word. -/
structure ResolvedFits : Prop where
  tcp : ∀ q ∈ observed.tcp ++ s.tcpPermanent, ∀ i ∈ limitWords .tcp,
    Fits (tcpResolver services s i q (owner observed.tcpProcesses q))
  udp : ∀ q ∈ observed.udp ++ s.udpPermanent, ∀ i ∈ limitWords .udp,
    Fits (udpResolver services s i q (owner observed.udpProcesses q))

/-- What the policy asks for a limit. -/
def resolvedLimit : Proto → Fin 8 → U32 → ℤ
  | .tcp, i, q => tcpResolver services s i q (owner observed.tcpProcesses q)
  | .udp, i, q => udpResolver services s i q (owner observed.udpProcesses q)

theorem resolved_limits (p : Proto) {i : Fin 8} (hi : i ∈ limitWords p) (q : U32) :
    (((resolveDesiredState services s observed passed).limits p).lookup i).bind
        (fun limits => limits.lookup q) =
      if q ∈ (resolveDesiredState services s observed passed).ports p then
        some (BitVec.ofInt 32 (resolvedLimit services s observed p i q))
      else none := by
  cases p with
  | tcp =>
    obtain rfl | rfl | rfl | rfl | rfl := tcpWord_cases hi
    all_goals exact resolved_lookup ..
  | udp =>
    obtain rfl | rfl := udpWord_cases hi
    all_goals exact resolved_lookup ..

theorem mem_resolvedPorts (p : Proto) (q : U32) :
    q ∈ (resolveDesiredState services s observed passed).ports p ↔
      q ∈ (match p with
        | .tcp => observed.tcp ++ s.tcpPermanent
        | .udp => observed.udp ++ s.udpPermanent) := by
  cases p <;> exact List.mem_dedup

theorem resolved_fits (hfits : ResolvedFits services s observed) (p : Proto) {i : Fin 8}
    (hi : i ∈ limitWords p) {q : U32}
    (hq : q ∈ (resolveDesiredState services s observed passed).ports p) :
    Fits (resolvedLimit services s observed p i q) := by
  rw [mem_resolvedPorts] at hq
  cases p with
  | tcp => exact hfits.tcp q hq i hi
  | udp => exact hfits.udp q hq i hi

/-- Of a listed port the desired limit is what the policy asks for; of another, none. -/
theorem resolved_desiredLimit (p : Proto) {i : Fin 8} (hi : i ∈ limitWords p) (q : U32) :
    desiredLimit (resolveDesiredState services s observed passed) p i q =
      if q ∈ (resolveDesiredState services s observed passed).ports p then
        BitVec.ofInt 32 (resolvedLimit services s observed p i q)
      else 0 := by
  rw [desiredLimit, resolved_limits services s observed passed p hi q]
  split_ifs <;> rfl

/-- The policy lists inner maps for exactly the ports that it limits. -/
theorem resolved_entriesMatch (hfits : ResolvedFits services s observed) :
    (resolveDesiredState services s observed passed).EntriesMatch := by
  have hfirst (p : Proto) : (0 : Fin 8) ∈ limitWords p := by cases p <;> decide
  have hrate (p : Proto) (q : U32) :
      desiredRate (resolveDesiredState services s observed passed) p q =
        desiredLimit (resolveDesiredState services s observed passed) p 0 q := by
    cases p <;> rfl
  have hentry (p : Proto) (q : U32) :
      q ∈ (resolveDesiredState services s observed passed).rateMapEntries p ↔
        q ∈ (resolveDesiredState services s observed passed).ports p ∧
          0 < resolvedLimit services s observed p 0 q := by
    cases p <;> exact mem_limitedEntries ..
  constructor
  · intro p q hq hlimited
    rw [hrate, resolved_desiredLimit services s observed passed p (hfirst p), if_pos hq] at hlimited
    have hfit := resolved_fits services s observed passed hfits p (hfirst p) hq
    have hne : resolvedLimit services s observed p 0 q ≠ 0 := by
      intro hzero
      exact hlimited ((word_zero_iff hfit).mpr hzero)
    exact (hentry p q).mpr ⟨hq, lt_of_le_of_ne hfit.1 hne.symm⟩
  · intro p q hq
    obtain ⟨hport, hpositive⟩ := (hentry p q).mp hq
    rw [hrate, resolved_desiredLimit services s observed passed p (hfirst p), if_pos hport, ne_eq,
      word_zero_iff (resolved_fits services s observed passed hfits p (hfirst p) hport)]
    exact hpositive.ne'

/-- After a reconcile that counts no failure the datapath limits the ports as the policy
resolves them: every open port with a rate has its inner maps and no other port keeps one,
a UDP port has its two limits, a TCP port whose SYN rate the operator has not pinned off
its five, and a port that is not listed none. -/
theorem policy_in_force (hpos : PositiveDefaults s) (hfits : ResolvedFits services s observed)
    (cfg : Config) {d : Daemon} (hmatch : CachesMatch d)
    (hpolicy : ∀ p, d.opened (.policy p) = true) (houter : ∀ m, d.opened (.rateOuter m) = true)
    (hzero : (reconcile cfg (resolveDesiredState services s observed passed) false
      d).2.lastApplyFailures = 0) :
    let desired := resolveDesiredState services s observed passed
    let m := (reconcile cfg desired false d).2.maps
    RatesArmed desired m ∧
    (∀ q ∈ desired.udpPorts, ∀ i ∈ limitWords .udp, ((kernelLimit m .udp i q).toNat : ℤ) =
      udpResolver services s i q (owner observed.udpProcesses q)) ∧
    (∀ q ∈ desired.tcpPorts, ¬PinnedOff services s 0 q (owner observed.tcpProcesses q) →
      ∀ i ∈ limitWords .tcp, ((kernelLimit m .tcp i q).toNat : ℤ) =
        tcpResolver services s i q (owner observed.tcpProcesses q)) ∧
    ∀ p, ∀ q ∉ desired.ports p, ∀ i ∈ limitWords p, kernelLimit m p i q = 0 := by
  intro desired m
  refine ⟨?_, ?_, ?_, ?_⟩
  · exact armed_of_entriesMatch cfg desired d hmatch hpolicy houter hzero
      (resolved_entriesMatch services s observed passed hfits)
  · intro q hq i hi
    have hport : q ∈ (resolveDesiredState services s observed passed).ports .udp := hq
    have hlimit := udp_converges cfg desired hzero q (hmatch.policies .udp) (hpolicy .udp) hi
    rw [resolved_desiredLimit services s observed passed .udp hi, if_pos hport] at hlimit
    rw [hlimit]
    exact word_of_fits (resolved_fits services s observed passed hfits .udp hi hport)
  · intro q hq hpinned i hi
    have hport : q ∈ (resolveDesiredState services s observed passed).ports .tcp := hq
    have hrated : desiredLimit desired .tcp 0 q ≠ 0 := by
      have hfirst : (0 : Fin 8) ∈ limitWords .tcp := by decide
      rw [resolved_desiredLimit services s observed passed .tcp hfirst, if_pos hport, ne_eq,
        word_zero_iff (resolved_fits services s observed passed hfits .tcp hfirst hport)]
      exact (limit_zero_iff services s hpos hfirst q _).not.mpr hpinned
    have hlimit := rated_converges cfg desired hzero q (hmatch.policies .tcp) (hpolicy .tcp)
      hrated hi
    rw [resolved_desiredLimit services s observed passed .tcp hi, if_pos hport] at hlimit
    rw [hlimit]
    exact word_of_fits (resolved_fits services s observed passed hfits .tcp hi hport)
  · intro p q hq i hi
    have hlisted : q ∉ policyPorts desired p := by
      rw [mem_policyPorts]
      rintro ⟨x, hx, hmem⟩
      have hnone := resolved_limits services s observed passed p (i := x.1)
        (limits_words desired p ▸ List.mem_map_of_mem hx) q
      rw [limits_lookup desired hx, if_neg hq] at hnone
      exact AList.lookup_eq_none.mp hnone hmem
    have hlimited := (unwanted_limits cfg desired d p q (hpolicy p) hzero hlisted).not
    by_contra hne
    refine hlimited.mpr ?_ ⟨i, hi, hne⟩
    rintro ⟨⟨j, hj, hlimit⟩, hshown⟩
    have hnone := hshown j hj
    rw [shownLimit_kernel (hmatch.policies p) q hj, if_neg hlimit] at hnone
    exact absurd hnone (Option.some_ne_none _)

end Resolved

/-- A SYN rate of 20 for the process `sshd`. -/
def sshSettings : PolicySettings :=
  { syn := { byProc := [("sshd".toList, 20)], strict := 5, default := 100 } }

def sshObserved : ObservedState := { tcp := [22], tcpProcesses := [(22, "sshd".toList)] }

theorem ssh_positive : PositiveDefaults sshSettings := by
  intro i hi
  obtain rfl | rfl | rfl | rfl | rfl := tcpWord_cases hi <;> exact ⟨by decide, by decide⟩

theorem ssh_fits : ResolvedFits [] sshSettings sshObserved where
  tcp q hq i hi := by
    obtain rfl : q = 22 := List.mem_singleton.mp hq
    obtain rfl | rfl | rfl | rfl | rfl := tcpWord_cases hi <;> exact ⟨by decide, by decide⟩
  udp q hq := absurd hq List.not_mem_nil

theorem policy_in_force_ssh :
    ((kernelLimit (reconcile {} (resolveDesiredState [] sshSettings sshObserved {}) false
      {}).2.maps .tcp 6 22).toNat : ℤ) = 5000 := by
  have hforce := policy_in_force [] sshSettings sshObserved {} ssh_positive ssh_fits {}
    fresh_cachesMatch (fun _ => rfl) (fun _ => rfl) (by decide +kernel)
  have hssh : ¬PinnedOff [] sshSettings 0 22 (owner sshObserved.tcpProcesses 22) := by
    unfold PinnedOff
    decide
  exact (hforce.2.2.1 22 (by decide) hssh 6 (by decide)).trans (by decide)

end Policy

end AutoXdp
