import AutoXdp.KernelReaders
import AutoXdp.CacheTruth
import Mathlib.Data.List.Count
import Mathlib.Tactic.Basic
import Mathlib.Tactic.Tauto

/-! UDP discovery (`auto_xdp/discovery.py`): the sockets of a dump are folded into one
record for each port, and the records decide which ports are reported. -/
namespace AutoXdp
open WordBytes

/-- A socket of a SOCK_DIAG dump, ports in host byte order. -/
structure DiagSock where
  src : Addr
  sport : U16
  dport : U16
  inode : U32
  rqueue : U32
  deriving DecidableEq, Repr

/-- The settings of discovery. From Python 3.13 on `ipaddress` judges an IPv4-mapped
address by the IPv4 address in it (`mapped`). -/
structure DiscoveryCfg where
  excludeLoopback : Bool := true
  excludePorts : List U16 := []
  excludeNets : List LpmKey := []
  mapped : Bool := false

namespace Addr

/-- `ipaddress.IPv6Address.ipv4_mapped`. -/
def ipv4Mapped : Addr → Option U32
  | v4 _ => none
  | v6 a => if a.extractLsb' 32 96 = 0xFFFF then some (a.setWidth 32) else none

def isLoopback : Addr → Bool
  | v4 a => a >>> 24 = 127
  | v6 a => a = 1

def isMulticast : Addr → Bool
  | v4 a => a >>> 28 = 0xE
  | v6 a => a >>> 120 = 0xFF

def isLinkLocal : Addr → Bool
  | v4 a => a >>> 16 = 0xA9FE
  | v6 a => a >>> 118 = 0x3FA

def isUnspecified : Addr → Bool
  | v4 a => a = 0
  | v6 a => a = 0

end Addr

/-- The address whose properties `ipaddress` reads. -/
def judgedAddr (cfg : DiscoveryCfg) (a : Addr) : Addr :=
  if cfg.mapped then a.ipv4Mapped.elim a .v4 else a

/-- `_bind_ip_is_exposed`. -/
def bindIpIsExposed (cfg : DiscoveryCfg) (a : Addr) : Bool :=
  if a.isUnspecified then true
  else if cfg.excludeLoopback && (judgedAddr cfg a).isLoopback then false
  else if (judgedAddr cfg a).isMulticast then false
  else if (judgedAddr cfg a).isLinkLocal then false
  else !cfg.excludeNets.any fun net => net.covers a

/-- The record of a port in `udp_agg`. -/
structure UdpInfo where
  src : Addr
  inode : U32
  rqueue : ℕ
  count : ℕ
  connectedOnly : Bool
  deriving DecidableEq, Repr

/-- One socket of the dump. -/
def aggregateUdp (agg : BpfMap U16 UdpInfo) (s : DiagSock) : BpfMap U16 UdpInfo :=
  if s.sport = 0 then agg
  else
    match agg.lookup s.sport with
    | none => agg.insert s.sport
      { src := s.src, inode := s.inode, rqueue := s.rqueue.toNat, count := 1,
        connectedOnly := s.dport ≠ 0 }
    | some info => agg.insert s.sport
      { info with
        rqueue := info.rqueue + s.rqueue.toNat
        count := info.count + 1
        connectedOnly := if s.dport = 0 then false else info.connectedOnly }

def udpAgg (dump : List DiagSock) : BpfMap U16 UdpInfo := dump.foldl aggregateUdp ∅

inductive UdpSockOpt where
  | soReuseport | rxQueue | drops
  deriving DecidableEq, Repr

/-- What is reported of a port: its process and its socket options. -/
structure UdpReport where
  process : String
  opts : List UdpSockOpt

/-- The UDP part of `_get_listening_ports_netlink`: the dump of the IPv4 sockets, then
that of the IPv6 sockets, with the drops of `/proc/net/udp` and `udp6`, and the process
name of an inode. -/
def getListeningUdp (cfg : DiscoveryCfg) (drops : U16 → ℕ) (procName : U32 → U16 → String)
    (dump4 dump6 : List DiagSock) : BpfMap U16 UdpReport :=
  dictFilterMap (fun port info =>
    if !bindIpIsExposed cfg info.src then none
    else if port ∈ cfg.excludePorts then none
    else
      let serverSignal := info.count > 1 ∨ info.rqueue > 0 ∨ drops port > 0
      if info.connectedOnly ∧ ¬serverSignal then none
      else some
        { process := procName info.inode port
          opts := (if info.count > 1 then [.soReuseport] else []) ++
            (if info.rqueue > 0 then [.rxQueue] else []) ++
            (if drops port > 0 then [.drops] else []) })
    (udpAgg (dump4 ++ dump6))

/-! The record of a port is a summary of its sockets. -/

def socketsOn (dump : List DiagSock) (port : U16) : List DiagSock :=
  dump.filter fun s => s.sport = port

theorem socketsOn_append (d d' : List DiagSock) (port : U16) :
    socketsOn (d ++ d') port = socketsOn d port ++ socketsOn d' port := List.filter_append ..

/-- The first address and inode, and sums over all sockets. -/
def summary : List DiagSock → Option UdpInfo
  | [] => none
  | s :: ss => some
    { src := s.src
      inode := s.inode
      rqueue := ((s :: ss).map fun s => s.rqueue.toNat).sum
      count := (s :: ss).length
      connectedOnly := (s :: ss).all fun s => s.dport ≠ 0 }

theorem summary_append (ss : List DiagSock) (s : DiagSock) :
    summary (ss ++ [s]) = match summary ss with
      | none => some { src := s.src, inode := s.inode, rqueue := s.rqueue.toNat, count := 1,
                       connectedOnly := s.dport ≠ 0 }
      | some info => some
        { info with
          rqueue := info.rqueue + s.rqueue.toNat
          count := info.count + 1
          connectedOnly := if s.dport = 0 then false else info.connectedOnly } := by
  cases ss with
  | nil => simp [summary]
  | cons x xs =>
    simp only [summary, List.cons_append, List.map_cons, List.map_append, List.map_nil,
      List.sum_cons, List.sum_append, List.sum_nil, List.length_cons, List.length_append,
      List.length_nil, List.all_cons, List.all_append, List.all_nil, Option.some_inj,
      UdpInfo.mk.injEq, true_and]
    refine ⟨by omega, ?_⟩
    by_cases h : s.dport = 0
    · simp only [h, ne_eq, not_true_eq_false, decide_false, Bool.and_true, Bool.and_false, if_true]
    · simp only [h, ne_eq, not_false_eq_true, decide_true, Bool.and_true, if_false]

theorem udpAgg_lookup (dump : List DiagSock) (port : U16) (hport : port ≠ 0) :
    (udpAgg dump).lookup port = summary (socketsOn dump port) := by
  induction dump using List.reverseRecOn with
  | nil => rfl
  | append_singleton dump s ih =>
    have hstep : udpAgg (dump ++ [s]) = aggregateUdp (udpAgg dump) s := by
      rw [udpAgg, udpAgg, List.foldl_append, List.foldl_cons, List.foldl_nil]
    rw [hstep, socketsOn_append]
    by_cases h : s.sport = port
    · have hne : s.sport ≠ 0 := h ▸ hport
      have hone : socketsOn [s] port = [s] := List.filter_cons_of_pos (decide_eq_true h)
      rw [hone, summary_append, ← ih, aggregateUdp, if_neg hne, h]
      cases (udpAgg dump).lookup port with
      | none => rw [AList.lookup_insert]
      | some info => rw [AList.lookup_insert]
    · have hnone : socketsOn [s] port = [] :=
        List.filter_cons_of_neg fun hs => h (of_decide_eq_true hs)
      rw [hnone, List.append_nil, ← ih, aggregateUdp]
      by_cases hzero : s.sport = 0
      · rw [if_pos hzero]
      · rw [if_neg hzero]
        have hne : port ≠ s.sport := fun hp => h hp.symm
        cases (udpAgg dump).lookup s.sport with
        | none => rw [AList.lookup_insert_ne hne]
        | some info => rw [AList.lookup_insert_ne hne]

/-! Which ports ought to be reported. -/

section Reported

variable (cfg : DiscoveryCfg) (drops : U16 → ℕ)

/-- A socket that is bound to an exposed address. -/
def DiagSock.Exposed (s : DiagSock) : Prop := bindIpIsExposed cfg s.src = true

instance (s : DiagSock) : Decidable (s.Exposed cfg) := by unfold DiagSock.Exposed; infer_instance

/-- Some socket is not connected, or they look like those of a server. -/
def Serves (port : U16) (socks : List DiagSock) : Prop :=
  (∃ s ∈ socks, s.dport = 0) ∨ 1 < socks.length ∨ (∃ s ∈ socks, 0 < s.rqueue.toNat) ∨
    0 < drops port

/-- An exposed socket, and an unconnected one or a server signal among the exposed. -/
structure OughtReport (dump : List DiagSock) (port : U16) : Prop where
  bound : port ≠ 0
  included : port ∉ cfg.excludePorts
  exposed : ∃ s ∈ socketsOn dump port, s.Exposed cfg
  serves : Serves drops port ((socketsOn dump port).filter fun s => s.Exposed cfg)

variable {cfg drops}

theorem summary_serves (drops : U16 → ℕ) (port : U16) (socks : List DiagSock) (info : UdpInfo)
    (h : summary socks = some info) :
    Serves drops port socks ↔
      ¬(info.connectedOnly = true ∧ ¬(info.count > 1 ∨ info.rqueue > 0 ∨ drops port > 0)) := by
  cases socks with
  | nil => exact absurd h nofun
  | cons x xs =>
    obtain rfl := Option.some.inj h
    have hconn : (((x :: xs).all fun s => decide (s.dport ≠ 0)) = true) ↔
        ¬∃ s ∈ x :: xs, s.dport = 0 := by
      rw [List.all_eq_true]
      simp only [decide_eq_true_eq, not_exists, not_and, ne_eq]
    have hqueue : ((x :: xs).map fun s => s.rqueue.toNat).sum > 0 ↔
        ∃ s ∈ x :: xs, 0 < s.rqueue.toNat := by
      rw [gt_iff_lt, List.sum_pos_iff_exists_pos_nat]
      simp only [List.mem_map, exists_exists_and_eq_and]
    simp only [hconn, hqueue, Serves, gt_iff_lt]
    exact or_iff_not_and_not

/-- A port is reported by its first socket's address and the signals of all of them. -/
theorem reported_iff (procName : U32 → U16 → String) (dump4 dump6 : List DiagSock) (port : U16)
    (hport : port ≠ 0) : port ∈ getListeningUdp cfg drops procName dump4 dump6 ↔
      ∃ s ss, socketsOn (dump4 ++ dump6) port = s :: ss ∧ s.Exposed cfg ∧
        port ∉ cfg.excludePorts ∧ Serves drops port (s :: ss) := by
  rw [← AList.lookup_isSome, getListeningUdp, filterMap_lookup, udpAgg_lookup _ _ hport]
  cases hsocks : socketsOn (dump4 ++ dump6) port with
  | nil =>
    refine iff_of_false nofun ?_
    rintro ⟨s, ss, h, -⟩
    exact absurd h nofun
  | cons s ss =>
    have hserves := summary_serves drops port (s :: ss) _ rfl
    rw [summary, Option.bind_some]
    constructor
    · intro h
      refine ⟨s, ss, rfl, ?_⟩
      by_cases hexp : bindIpIsExposed cfg s.src = true
      · by_cases hexcl : port ∈ cfg.excludePorts
        · simp only [hexp, Bool.not_true, Bool.false_eq_true, if_false, hexcl, if_true,
            Option.isSome_none] at h
        · refine ⟨hexp, hexcl, hserves.mpr fun hquiet => ?_⟩
          simp only [hexp, Bool.not_true, Bool.false_eq_true, if_false, hexcl] at h
          rw [if_pos hquiet] at h
          exact absurd h nofun
      · simp only [hexp, Bool.not_false, if_true, Option.isSome_none] at h
        exact absurd h nofun
    · rintro ⟨s', ss', heq, hexp, hexcl, h⟩
      obtain ⟨rfl, rfl⟩ := List.cons.inj heq
      rw [hserves] at h
      rw [DiagSock.Exposed] at hexp
      simp only [hexp, Bool.not_true, Bool.false_eq_true, if_false, hexcl]
      rw [if_neg h]
      rfl

theorem unbound_unreported (procName : U32 → U16 → String) (dump4 dump6 : List DiagSock) :
    (0 : U16) ∉ getListeningUdp cfg drops procName dump4 dump6 := by
  have hnone (dump : List DiagSock) : (udpAgg dump).lookup 0 = none := by
    induction dump using List.reverseRecOn with
    | nil => rfl
    | append_singleton dump s ih =>
      have hstep : udpAgg (dump ++ [s]) = aggregateUdp (udpAgg dump) s := by
        rw [udpAgg, udpAgg, List.foldl_append, List.foldl_cons, List.foldl_nil]
      rw [hstep, aggregateUdp]
      by_cases hzero : s.sport = 0
      · rw [if_pos hzero]
        exact ih
      · rw [if_neg hzero]
        have hne : (0 : U16) ≠ s.sport := fun h => hzero h.symm
        cases (udpAgg dump).lookup s.sport with
        | none => rw [AList.lookup_insert_ne hne, ih]
        | some info => rw [AList.lookup_insert_ne hne, ih]
  rw [← AList.lookup_isSome, getListeningUdp, filterMap_lookup, hnone]
  exact nofun

/-! The order of the dump. -/

theorem serves_perm (port : U16) {socks socks' : List DiagSock} (h : socks.Perm socks') :
    Serves drops port socks ↔ Serves drops port socks' := by
  simp only [Serves, h.mem_iff, h.length_eq]

theorem serves_mono (port : U16) {socks socks' : List DiagSock} (h : socks.Sublist socks')
    (hserves : Serves drops port socks) : Serves drops port socks' := by
  rcases hserves with ⟨s, hs, hconn⟩ | hcount | ⟨s, hs, hqueue⟩ | hdrops
  · exact Or.inl ⟨s, h.subset hs, hconn⟩
  · exact Or.inr (Or.inl (hcount.trans_le h.length_le))
  · exact Or.inr (Or.inr (Or.inl ⟨s, h.subset hs, hqueue⟩))
  · exact Or.inr (Or.inr (Or.inr hdrops))

/-- The sockets that may come first on a port: those of the dump that has any. -/
def firstSockets (u4 u6 : List DiagSock) (port : U16) : List DiagSock :=
  if socketsOn u4 port = [] then socketsOn u6 port else socketsOn u4 port

section Order

variable {u4 u6 d4 d6 : List DiagSock} {port : U16}

theorem socketsOn_perm (port : U16) {d u : List DiagSock} (h : d.Perm u) :
    (socketsOn d port).Perm (socketsOn u port) := h.filter _

theorem first_mem (h4 : d4.Perm u4) (h6 : d6.Perm u6) {s : DiagSock} {ss : List DiagSock}
    (h : socketsOn (d4 ++ d6) port = s :: ss) : s ∈ firstSockets u4 u6 port := by
  have hp4 := socketsOn_perm port h4
  have hp6 := socketsOn_perm port h6
  rw [socketsOn_append] at h
  rw [firstSockets]
  cases hd4 : socketsOn d4 port with
  | nil =>
    rw [hd4] at h hp4
    rw [if_pos hp4.symm.eq_nil, ← hp6.mem_iff]
    rw [List.nil_append] at h
    rw [h]
    exact List.mem_cons_self ..
  | cons x xs =>
    rw [hd4, List.cons_append] at h
    obtain ⟨rfl, -⟩ := List.cons.inj h
    have hx : x ∈ socketsOn u4 port := by
      rw [← hp4.mem_iff, hd4]
      exact List.mem_cons_self ..
    rw [if_neg (List.ne_nil_of_mem hx)]
    exact hx

theorem exists_first {s : DiagSock} (hs : s ∈ firstSockets u4 u6 port) :
    ∃ d4 d6 ss, d4.Perm u4 ∧ d6.Perm u6 ∧ socketsOn (d4 ++ d6) port = s :: ss := by
  have hfront {u : List DiagSock} (hu : s ∈ socketsOn u port) :
      (s :: u.erase s).Perm u ∧ socketsOn (s :: u.erase s) port = s :: socketsOn (u.erase s) port := by
    rw [socketsOn, List.mem_filter] at hu
    exact ⟨(List.perm_cons_erase hu.1).symm, List.filter_cons_of_pos hu.2⟩
  rw [firstSockets] at hs
  split_ifs at hs with hnone
  · obtain ⟨hperm, hfirst⟩ := hfront hs
    refine ⟨u4, s :: u6.erase s, socketsOn (u6.erase s) port, List.Perm.refl u4, hperm, ?_⟩
    rw [socketsOn_append, hnone, hfirst, List.nil_append]
  · obtain ⟨hperm, hfirst⟩ := hfront hs
    refine ⟨s :: u4.erase s, u6, socketsOn (u4.erase s) port ++ socketsOn u6 port, hperm,
      List.Perm.refl u6, ?_⟩
    rw [socketsOn_append, hfirst, List.cons_append]

theorem first_subset : firstSockets u4 u6 port ⊆ socketsOn (u4 ++ u6) port := by
  rw [firstSockets, socketsOn_append]
  split_ifs
  · exact List.subset_append_right ..
  · exact List.subset_append_left ..

end Order

variable (cfg drops)

/-- Every order of the two dumps reports the ports that ought to be reported. -/
def OrderFree (u4 u6 : List DiagSock) : Prop :=
  ∀ d4 d6, d4.Perm u4 → d6.Perm u6 → ∀ procName port,
    port ∈ getListeningUdp cfg drops procName d4 d6 ↔ OughtReport cfg drops (u4 ++ u6) port

/-- On a port with an exposed socket, the sockets that may come first are all exposed, and
the others add no signal; or none of them is, and the exposed ones show no signal. -/
def FirstDecides (u4 u6 : List DiagSock) : Prop :=
  ∀ port, port ≠ 0 → port ∉ cfg.excludePorts →
    (∃ s ∈ socketsOn (u4 ++ u6) port, s.Exposed cfg) →
    let exposed := (socketsOn (u4 ++ u6) port).filter fun s => s.Exposed cfg
    ((∀ s ∈ firstSockets u4 u6 port, s.Exposed cfg) ∧
        (Serves drops port (socketsOn (u4 ++ u6) port) → Serves drops port exposed)) ∨
      ((∀ s ∈ firstSockets u4 u6 port, ¬s.Exposed cfg) ∧ ¬Serves drops port exposed)

theorem report_order_free (u4 u6 : List DiagSock) :
    OrderFree cfg drops u4 u6 ↔ FirstDecides cfg drops u4 u6 := by
  constructor
  · intro h port hport hincluded hexposed
    set socks := socketsOn (u4 ++ u6) port with hsocks
    -- each socket that may come first decides alike
    have hfirst (s : DiagSock) (hs : s ∈ firstSockets u4 u6 port) :
        (s.Exposed cfg ∧ Serves drops port socks) ↔
          Serves drops port (socks.filter fun s => s.Exposed cfg) := by
      obtain ⟨d4, d6, ss, h4, h6, hfront⟩ := exists_first hs
      have hperm : (s :: ss).Perm socks := by
        rw [← hfront, hsocks]
        exact socketsOn_perm _ (h4.append h6)
      have hreport := h d4 d6 h4 h6 (fun _ _ => "") port
      rw [reported_iff _ _ _ _ hport] at hreport
      constructor
      · rintro ⟨hexp, hserves⟩
        exact (hreport.mp ⟨s, ss, hfront, hexp, hincluded, (serves_perm port hperm).mpr hserves⟩).serves
      · intro hserves
        obtain ⟨s', ss', hfront', hexp, -, hserves'⟩ :=
          hreport.mpr ⟨hport, hincluded, hexposed, hserves⟩
        obtain ⟨rfl, rfl⟩ := List.cons.inj (hfront.symm.trans hfront')
        exact ⟨hexp, (serves_perm port hperm).mp hserves'⟩
    by_cases hexpserves : Serves drops port (socks.filter fun s => s.Exposed cfg)
    · exact Or.inl ⟨fun s hs => ((hfirst s hs).mpr hexpserves).1, fun _ => hexpserves⟩
    · by_cases hserves : Serves drops port socks
      · exact Or.inr ⟨fun s hs hexp => hexpserves ((hfirst s hs).mp ⟨hexp, hserves⟩), hexpserves⟩
      · -- without any signal there is but one socket
        left
        refine ⟨?_, fun h => absurd h hserves⟩
        have hone : socks.length ≤ 1 := by
          by_contra hmany
          exact hserves (Or.inr (Or.inl (by omega)))
        obtain ⟨x, hx, hexp⟩ := hexposed
        intro s hs
        have hmem := first_subset hs
        rw [← hsocks] at hmem
        obtain ⟨y, hy⟩ : ∃ y, ∀ z ∈ socks, z = y := by
          cases hcases : socks with
          | nil => exact ⟨x, nofun⟩
          | cons y ys =>
            rw [hcases, List.length_cons] at hone
            have hnil : ys = [] := List.length_eq_zero_iff.mp (by omega)
            exact ⟨y, fun z hz => List.mem_singleton.mp (hnil ▸ hz)⟩
        rw [hy s hmem, ← hy x hx]
        exact hexp
  · intro h d4 d6 h4 h6 procName port
    by_cases hport : port = 0
    · subst hport
      exact iff_of_false (unbound_unreported procName d4 d6) fun hought => hought.bound rfl
    · rw [reported_iff _ _ _ _ hport]
      have hperm := socketsOn_perm port (h4.append h6)
      constructor
      · rintro ⟨s, ss, hfront, hexp, hincluded, hserves⟩
        rw [hfront] at hperm
        have hexposed : ∃ s ∈ socketsOn (u4 ++ u6) port, s.Exposed cfg :=
          ⟨s, hperm.mem_iff.mp (List.mem_cons_self ..), hexp⟩
        have hmem := first_mem h4 h6 hfront
        rcases h port hport hincluded hexposed with ⟨-, hsame⟩ | ⟨hnone, -⟩
        · exact ⟨hport, hincluded, hexposed, hsame ((serves_perm port hperm).mp hserves)⟩
        · exact absurd hexp (hnone s hmem)
      · rintro ⟨-, hincluded, hexposed, hserves⟩
        cases hfront : socketsOn (d4 ++ d6) port with
        | nil =>
          rw [hfront] at hperm
          obtain ⟨s, hs, -⟩ := hexposed
          rw [hperm.symm.eq_nil] at hs
          exact absurd hs nofun
        | cons s ss =>
          have hmem := first_mem h4 h6 hfront
          rcases h port hport hincluded hexposed with ⟨hall, -⟩ | ⟨-, hquiet⟩
          · refine ⟨s, ss, rfl, hall s hmem, hincluded, ?_⟩
            rw [← hfront, serves_perm port hperm]
            exact serves_mono port List.filter_sublist hserves
          · exact absurd hserves hquiet

end Reported

/-- A resolver on the loopback address before one on a public address. -/
def loopbackFirst : List DiagSock :=
  [⟨.v4 0x7F000001, 53, 0, 0, 0⟩, ⟨.v4 0xC0000201, 53, 0, 0, 0⟩]

theorem loopback_hides : ¬∀ (cfg : DiscoveryCfg) (drops : U16 → ℕ) (u4 u6 : List DiagSock),
    OrderFree cfg drops u4 u6 := by
  intro h
  have hought : OughtReport {} (fun _ => 0) (loopbackFirst ++ []) 53 :=
    ⟨by decide, nofun, ⟨_, List.mem_cons_of_mem _ (List.mem_cons_self ..), rfl⟩,
      Or.inl ⟨⟨.v4 0xC0000201, 53, 0, 0, 0⟩, by decide, rfl⟩⟩
  have hreported := (h {} (fun _ => 0) loopbackFirst [] loopbackFirst [] (List.Perm.refl _)
    (List.Perm.refl _) (fun _ _ => "") 53).mpr hought
  rw [reported_iff _ _ _ _ (by decide)] at hreported
  obtain ⟨s, ss, hfront, hexp, -⟩ := hreported
  have hfirst : socketsOn (loopbackFirst ++ []) 53 = loopbackFirst := by decide
  obtain ⟨rfl, -⟩ := List.cons.inj (hfirst.symm.trans hfront)
  exact absurd hexp (by decide)

end AutoXdp
