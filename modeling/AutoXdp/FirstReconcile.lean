import AutoXdp.AppliedMaps
import AutoXdp.FailClosed
import AutoXdp.LpmSets
import Mathlib.Tactic.Basic

/-! The maps that a first reconcile leaves behind: nothing is applied yet, and the
kernel refuses no call. -/
namespace AutoXdp
open StateSteps XdpBackend

namespace DesiredState

/-- Port numbers are below 2^16, and CIDRs are networks. -/
structure Sound (desired : DesiredState) : Prop where
  ports : ∀ port ∈ desired.tcpPorts ++ desired.udpPorts ++ desired.sctpPorts ++
    desired.tcpRateMapEntries.keys ++ desired.udpRateMapEntries.keys, port.toNat < 65536
  trusted : ∀ k ∈ desired.trustedCidrs, k.IsNetwork
  acl : ∀ k ∈ desired.aclRules.keys, k.2.IsNetwork

theorem Sound.slots {desired : DesiredState} (h : desired.Sound) (m : OuterMap) (port : U32)
    (hport : port ∈ (match m with
      | .syn4 | .syn6 => desired.tcpRateMapEntries
      | .udprt4 | .udprt6 => desired.udpRateMapEntries)) : port.toNat < 65536 := by
  have hkeys := h.ports port
  simp only [List.mem_append] at hkeys
  cases m with
  | syn4 => exact hkeys (Or.inl (Or.inr (AList.mem_keys.mp hport)))
  | syn6 => exact hkeys (Or.inl (Or.inr (AList.mem_keys.mp hport)))
  | udprt4 => exact hkeys (Or.inr (AList.mem_keys.mp hport))
  | udprt6 => exact hkeys (Or.inr (AList.mem_keys.mp hport))

/-- All rate and connection limits are zero. -/
def Unlimited (desired : DesiredState) : Prop :=
  ∀ limits ∈ [desired.tcpSynRateLimits, desired.tcpSynAggRateLimits, desired.tcpConnLimits,
    desired.tcpConnPrefixLimits, desired.tcpConnPortLimits, desired.udpRateLimits,
    desired.udpAggRateLimits], ∀ port limit, limits.lookup port = some limit → limit = 0

end DesiredState

/-- The daemon before its first reconcile, with this clock. -/
def firstDaemon (monotonicNs : ℕ → U64) : Daemon := { monotonicNs := monotonicNs }

def reconciled (cfg : Config) (desired : DesiredState) (monotonicNs : ℕ → U64) : Maps :=
  (reconcile cfg desired false (firstDaemon monotonicNs)).2.maps

/-! The plan. -/

theorem dictUpserts_empty {κ ν : Type} [DecidableEq κ] [DecidableEq ν] (desired : BpfMap κ ν) :
    dictUpserts desired ∅ = dictItems desired := by
  rw [dictUpserts, List.filter_eq_self]
  intro e _
  simp only [AList.lookup_empty, ne_eq, reduceCtorEq, not_false_eq_true, decide_true]

theorem setDiff_nil {α : Type} [DecidableEq α] (s : List α) : setDiff s [] = s := by
  rw [setDiff, List.filter_eq_self]
  intro x _
  simp only [List.not_mem_nil, not_false_eq_true, decide_true]

/-- The plan of a first reconcile adds what is desired and removes nothing. -/
structure FirstPlan (desired : DesiredState) (plan : ReconcilePlan) : Prop where
  tcpAdd : plan.tcpPortsToAdd = desired.tcpPorts
  tcpRemove : plan.tcpPortsToRemove = []
  udpAdd : plan.udpPortsToAdd = desired.udpPorts
  udpRemove : plan.udpPortsToRemove = []
  sctpAdd : plan.sctpPortsToAdd = desired.sctpPorts
  sctpRemove : plan.sctpPortsToRemove = []
  trustedAdd : plan.trustedCidrsToAdd = desired.trustedCidrs
  trustedRemove : plan.trustedCidrsToRemove = []
  seeds : ∀ key ∈ plan.conntrackEntriesToAdd, key ∈ desired.conntrackEntries
  aclUpsert : plan.aclRulesToUpsert = dictItems desired.aclRules
  aclRemove : plan.aclRulesToRemove = []
  limits : plan.tcpSynRateLimitsToUpsert = dictItems desired.tcpSynRateLimits ∧
    plan.tcpSynAggRateLimitsToUpsert = dictItems desired.tcpSynAggRateLimits ∧
    plan.tcpConnLimitsToUpsert = dictItems desired.tcpConnLimits ∧
    plan.tcpConnPrefixLimitsToUpsert = dictItems desired.tcpConnPrefixLimits ∧
    plan.tcpConnPortLimitsToUpsert = dictItems desired.tcpConnPortLimits ∧
    plan.udpRateLimitsToUpsert = dictItems desired.udpRateLimits ∧
    plan.udpAggRateLimitsToUpsert = dictItems desired.udpAggRateLimits

section First

variable (cfg : Config) (desired : DesiredState) (monotonicNs : ℕ → U64)

theorem firstPlan :
    FirstPlan desired (plannedAt cfg desired (firstDaemon monotonicNs)).1 := by
  obtain ⟨bogon, dropEvents, rate, runtime, happlied⟩ := appliedAt_run (firstDaemon monotonicNs)
  have hacl : BpfAclMaps.activeEntries (firstDaemon monotonicNs) = ∅ := rfl
  have hview (view : PolicyView) :
      BpfPortPolicyViewMap.active (firstDaemon monotonicNs) view = ∅ := rfl
  rw [plannedAt_run, happlied]
  refine ⟨setDiff_nil _, rfl, setDiff_nil _, rfl, setDiff_nil _, rfl, setDiff_nil _, rfl, ?_, ?_,
    rfl, ?_⟩
  · intro key hkey
    exact ((mem_setDiff _ _ _).mp hkey).1
  · exact dictUpserts_empty _
  · exact ⟨dictUpserts_empty _, dictUpserts_empty _, dictUpserts_empty _, dictUpserts_empty _,
      dictUpserts_empty _, dictUpserts_empty _, dictUpserts_empty _⟩

end First

theorem mem_dictItems {κ ν : Type} [DecidableEq κ] (t : BpfMap κ ν) (e : κ × ν) :
    e ∈ dictItems t ↔ t.lookup e.1 = some e.2 := by
  rw [← Option.mem_def, AList.mem_lookup_iff, dictItems, List.mem_map]
  constructor
  · rintro ⟨s, hs, rfl⟩
    exact hs
  · exact fun h => ⟨⟨e.1, e.2⟩, h, rfl⟩

/-! Limits of zero leave no policy. -/

/-- Neither the kernel nor the cache holds a TCP policy. -/
def NoTcpPolicy (d : Daemon) : Prop :=
  d.policyCache .tcp = ∅ ∧ d.maps.portPolicies .tcp = ∅

def KeepsNoTcpPolicy (d d' : Daemon) : Prop := NoTcpPolicy d → NoTcpPolicy d'

instance : IsPreorder Daemon KeepsNoTcpPolicy where
  refl _ h := h
  trans _ _ _ h h' hd := h' (h hd)

theorem keepsNoTcpPolicy_stage {T : KernelMap → Prop} {d d' : Daemon} (hT : ¬T (.policy .tcp))
    (h : Moves (Within T) d d') : KeepsNoTcpPolicy d d' := by
  obtain ⟨hmap, hcache⟩ := stage_kept (.policy .tcp) hT h
  exact fun hd => ⟨hcache.trans hd.1, hmap.trans hd.2⟩

theorem policyDelete_keeps (port : U32) (d : Daemon) :
    KeepsNoTcpPolicy d (BpfPortPolicyMap.delete .tcp port false d).2 := by
  rintro ⟨hcache, hmap⟩
  rcases cachedCall_cases false .ok (.deletePolicy .tcp port)
    (fun d => d.setPolicyCache .tcp ((d.policyCache .tcp).erase port)) d with
    ⟨h, -⟩ | ⟨-, h⟩ | ⟨-, h⟩
  · exact absurd h Bool.false_ne_true
  · have herase (ν : Type) : (∅ : BpfMap U32 ν).erase port = ∅ := rfl
    rw [BpfPortPolicyMap.delete, h]
    constructor
    · change Function.update d.policyCache .tcp ((d.policyCache .tcp).erase port) .tcp = ∅
      rw [Function.update_self, hcache, herase]
    · change (d.maps.portPolicies .tcp).erase port = ∅
      rw [hmap, herase]
  · rw [BpfPortPolicyMap.delete, h]
    exact ⟨hcache, hmap⟩

theorem ok_keeps (m : DaemonM Bool) (d : Daemon) (h : KeepsNoTcpPolicy d (m d).2) :
    KeepsNoTcpPolicy d (ok m d).2 := by
  intro hd
  simp only [ok, run_bind]
  cases (m d).1 with
  | true => exact h hd
  | false => exact h hd

/-- A zero written over the default tuple is a deletion. -/
theorem viewSet_keeps (cfg : Config) (i : Fin 8) (port : U32) (d : Daemon) :
    KeepsNoTcpPolicy d (ok (BpfPortPolicyViewMap.set cfg ⟨.tcp, i⟩ port 0 false) d).2 := by
  apply ok_keeps
  intro hd
  have hzero : BpfPortPolicyViewMap.firstThreeZero
      (Function.update (BpfPortPolicyViewMap.defaultFields cfg) i 0) = true := by
    have hkeep (j : Fin 8) (hj : BpfPortPolicyViewMap.defaultFields cfg j = 0) :
        Function.update (BpfPortPolicyViewMap.defaultFields cfg) i 0 j = 0 := by
      rw [Function.update_apply, hj, ite_self]
    simp only [BpfPortPolicyViewMap.firstThreeZero, hkeep 0 rfl, hkeep 1 rfl, hkeep 2 rfl,
      decide_true, Bool.and_self]
  have hnone : (d.policyCache .tcp).lookup port = none := by rw [hd.1]; rfl
  have hrun : BpfPortPolicyViewMap.set cfg ⟨.tcp, i⟩ port 0 false d =
      BpfPortPolicyMap.delete .tcp port false d := by
    simp only [BpfPortPolicyViewMap.set, BpfPortPolicyViewMap.store, run_get_bind, hnone,
      Option.getD_none, hzero, ↓reduceIte]
  rw [hrun]
  exact policyDelete_keeps port d hd

theorem viewDelete_keeps (i : Fin 8) (port : U32) (d : Daemon) :
    KeepsNoTcpPolicy d (ok (BpfPortPolicyViewMap.delete ⟨.tcp, i⟩ port false) d).2 := by
  apply ok_keeps
  intro hd
  have hnone : (d.policyCache .tcp).lookup port = none := by rw [hd.1]; rfl
  have hrun : BpfPortPolicyViewMap.delete ⟨.tcp, i⟩ port false d =
      BpfPortPolicyMap.delete .tcp port false d := by
    simp only [BpfPortPolicyViewMap.delete, run_get_bind, hnone]
  rw [hrun]
  exact policyDelete_keeps port d hd

theorem applyRateMapDelta_keeps (cfg : Config) (i : Fin 8) (upserts : List (U32 × U32))
    (removals : List U32) (hzero : ∀ e ∈ upserts, e.2 = 0) :
    Steps KeepsNoTcpPolicy (applyRateMapDelta cfg ⟨.tcp, i⟩ upserts removals false) := by
  have hupsert : Steps KeepsNoTcpPolicy (upserts.forM fun e =>
      discard (ok (BpfPortPolicyViewMap.set cfg ⟨.tcp, i⟩ e.1 e.2 false))) := by
    apply steps_forM
    intro e he
    rw [hzero e he]
    exact viewSet_keeps cfg i e.1
  apply steps_get_all
  intro d
  apply steps_ite
  · intro _
    apply steps_bind _ _ hupsert
    intro _
    apply steps_forM
    intro port _
    exact viewDelete_keeps i port
  · exact fun _ => steps_pure _

theorem ensurePolicyPrefixes_keeps (desired : DesiredState) :
    Steps KeepsNoTcpPolicy (ensurePolicyPrefixes .tcp desired false) := by
  apply steps_get_all
  intro d
  apply steps_ite
  · intro _
    apply steps_forM
    intro port _ d hd
    have hnone : (d.policyCache .tcp).lookup port = none := by rw [hd.1]; rfl
    have hrun : (BpfPortPolicyMap.ensurePrefix .tcp desired.rateLimitSourcePrefixV4
        desired.rateLimitSourcePrefixV6 false port d).2 = d := by
      simp only [BpfPortPolicyMap.ensurePrefix, run_get_bind, hnone]
      rfl
    rw [hrun]
    exact hd
  · exact fun _ => steps_pure _

/-- The part that sets limits up. -/
theorem applyLimits_keeps (cfg : Config) (desired : DesiredState) (plan : ReconcilePlan)
    (hplan : FirstPlan desired plan) (hlimits : desired.Unlimited) (hsound : desired.Sound) :
    Steps KeepsNoTcpPolicy (applyLimits cfg plan false desired) := by
  have hzero (limits : BpfMap U32 U32) (hmem : limits ∈ [desired.tcpSynRateLimits,
      desired.tcpSynAggRateLimits, desired.tcpConnLimits, desired.tcpConnPrefixLimits,
      desired.tcpConnPortLimits, desired.udpRateLimits, desired.udpAggRateLimits])
      (upserts : List (U32 × U32)) (h : upserts = dictItems limits) : ∀ e ∈ upserts, e.2 = 0 := by
    intro e he
    rw [h, mem_dictItems] at he
    exact hlimits limits hmem e.1 e.2 he
  obtain ⟨h0, h1, h2, h5, h6, -, -⟩ := hplan.limits
  unfold applyLimits
  apply steps_bind
  · unfold applyTcpLimits
    apply steps_bind _ _ (applyRateMapDelta_keeps cfg 0 _ _ (hzero _ (by simp) _ h0))
    intro _
    apply steps_bind _ _ (applyRateMapDelta_keeps cfg 1 _ _ (hzero _ (by simp) _ h1))
    intro _
    apply steps_bind _ _ (applyRateMapDelta_keeps cfg 2 _ _ (hzero _ (by simp) _ h2))
    intro _
    apply steps_bind _ _ (applyRateMapDelta_keeps cfg 5 _ _ (hzero _ (by simp) _ h5))
    intro _
    exact applyRateMapDelta_keeps cfg 6 _ _ (hzero _ (by simp) _ h6)
  intro _
  apply steps_bind
  · intro d
    refine keepsNoTcpPolicy_stage (T := (· = .policy .udp)) (by simp) ?_
    exact applyUdpLimits_steps (moves_stepwise false) cfg plan (K := Within (· = .policy .udp))
      (fun port val => within_write _ _ rfl rfl rfl) (fun port => within_write _ _ rfl rfl rfl) d
  intro _
  apply steps_bind
  · intro d
    refine keepsNoTcpPolicy_stage (T := fun m => ∃ o, m = .outer o) (by simp)
      (applyRateOuters_steps (moves_stepwise false) cfg desired ?_ ?_ d)
    · intro m port capacity hport
      have hrange : (BpfOp.updateSlot m port).inRange = true :=
        decide_eq_true (hsound.slots m port hport)
      exact ⟨within_read _ rfl rfl, within_write _ _ hrange rfl ⟨m, rfl⟩⟩
    · exact fun m port => within_write _ _ rfl rfl ⟨m, rfl⟩
  intro _
  apply steps_bind _ _ (ensurePolicyPrefixes_keeps desired)
  intro _ d
  refine keepsNoTcpPolicy_stage (T := (· = .policy .udp)) (by simp) ?_
  exact ensurePolicyPrefixes_steps (moves_stepwise false) desired .udp
    (K := Within (· = .policy .udp)) (fun port val => within_write _ _ rfl rfl rfl) d

/-! Every stage of a first reconcile, and the maps after the last one. -/

/-- The state after the ports were closed and the SCTP ports written. -/
def closed (plan : ReconcilePlan) (d : Daemon) : Daemon :=
  (applySctpDelta plan false (closeUdp plan false
    (closeTcp plan false { d with lastApplyFailures := 0 }).2).2).2

/-- What follows the runtime configuration. -/
def applyTail (cfg : Config) (plan : ReconcilePlan) : DaemonM PUnit := do
  applyGlobalRl plan false
  applySit4 cfg false

theorem prepare_run (cfg : Config) (plan : ReconcilePlan) (desired : DesiredState) (d : Daemon) :
    (prepare cfg plan false desired d).2 = (applyTail cfg plan
      (applyRuntimeConfig cfg desired false (applyAclDelta plan false
        (applyLimits cfg plan false desired (applyTrustedDelta cfg plan false
          (closed plan d)).2).2).2).2).2 := by
  simp only [prepare, protect, applyGlobals, applyTail, closed, run_bind, run_modify]

section Stages

variable (cfg : Config) (desired : DesiredState) (plan : ReconcilePlan)

/-- Reads only. -/
theorem planned_stage (d : Daemon) :
    Moves (Within fun _ => False) d (plannedAt cfg desired d).2 := by
  have happlied : Moves (Within fun _ => False) d (appliedAt d).2 :=
    getAppliedState_steps (moves_stepwise false) (within_read _ rfl rfl) (within_read _ rfl rfl) d
  have hbuilt := buildReconcilePlan_steps (moves_stepwise false) cfg desired moves_rounds (appliedAt d).1
    (K := Within fun _ => False) (fun _ => within_read _ rfl rfl) (appliedAt d).2
  exact happlied.trans hbuilt

theorem closed_stage (d : Daemon) (hplan : FirstPlan desired plan) (hsound : desired.Sound) :
    Moves (Within fun m => (∃ p, m = .ct p) ∨ m = .port .sctp) d (closed plan d) := by
  have hreset : Moves (Within fun m => (∃ p, m = .ct p) ∨ m = .port .sctp) d
      { d with lastApplyFailures := 0 } := moves_step (.counter d 0)
  have htcp := closeTcp_steps (moves_stepwise false) plan moves_rounds
    (K := Within fun m => (∃ p, m = .ct p) ∨ m = .port .sctp)
    (by rw [hplan.tcpRemove]; exact nofun)
    (fun key => within_write _ _ rfl rfl (Or.inl ⟨_, rfl⟩))
    (fun key _ raw => within_write _ _ rfl rfl (Or.inl ⟨_, rfl⟩)) { d with lastApplyFailures := 0 }
  have hudp := closeUdp_steps (moves_stepwise false) plan
    (K := Within fun m => (∃ p, m = .ct p) ∨ m = .port .sctp)
    (by rw [hplan.udpRemove]; exact nofun)
    (fun key => within_write _ _ rfl rfl (Or.inl ⟨_, rfl⟩))
    (closeTcp plan false { d with lastApplyFailures := 0 }).2
  have hsctp := applySctpDelta_steps (moves_stepwise false) plan
    (K := Within fun m => (∃ p, m = .ct p) ∨ m = .port .sctp)
    (by
      rw [hplan.sctpAdd]
      intro port hport
      have hlt := hsound.ports port (by simp only [List.mem_append, hport, or_true, true_or])
      exact within_write _ _ (decide_eq_true hlt) rfl (Or.inr rfl))
    (by rw [hplan.sctpRemove]; exact nofun)
    (closeUdp plan false (closeTcp plan false { d with lastApplyFailures := 0 }).2).2
  exact hreset.trans (htcp.trans (hudp.trans hsctp))

theorem trusted_stage (d : Daemon) :
    Moves (Within fun m => m = .trusted) d (applyTrustedDelta cfg plan false d).2 :=
  applyTrustedDelta_steps (moves_stepwise false) cfg plan (K := Within fun m => m = .trusted)
    (fun _ _ => within_write _ _ rfl rfl rfl) (fun _ _ => within_write _ _ rfl rfl rfl) d

theorem limits_stage (d : Daemon) (hsound : desired.Sound) :
    Moves (Within fun m => (∃ p, m = .policy p) ∨ ∃ o, m = .outer o) d
      (applyLimits cfg plan false desired d).2 := by
  refine applyLimits_steps (moves_stepwise false) cfg desired plan ?_ ?_ ?_ ?_ d
  · exact fun p port val => within_write _ _ rfl rfl (Or.inl ⟨p, rfl⟩)
  · exact fun p port => within_write _ _ rfl rfl (Or.inl ⟨p, rfl⟩)
  · intro m port capacity hport
    have hrange : (BpfOp.updateSlot m port).inRange = true :=
      decide_eq_true (hsound.slots m port hport)
    exact ⟨within_read _ rfl rfl, within_write _ _ hrange rfl (Or.inr ⟨m, rfl⟩)⟩
  · exact fun m port => within_write _ _ rfl rfl (Or.inr ⟨m, rfl⟩)

theorem acl_stage (d : Daemon) :
    Moves (Within fun m => ∃ p, m = .acl p) d (applyAclDelta plan false d).2 :=
  applyAclDelta_steps (moves_stepwise false) plan
    (fun _ _ => within_write _ _ rfl rfl ⟨_, rfl⟩) (fun _ _ => within_write _ _ rfl rfl ⟨_, rfl⟩) d

theorem runtime_stage (d : Daemon) :
    Moves (Within fun m => m = .runtimeConfig) d (applyRuntimeConfig cfg desired false d).2 :=
  applyRuntimeConfig_steps (moves_stepwise false) cfg desired
    (K := Within fun m => m = .runtimeConfig) (within_read _ rfl rfl)
    (fun _ => within_write _ _ rfl rfl rfl) d

theorem tail_stage (d : Daemon) :
    Moves (Within fun m => m = .globalRl ∨ m = .sit4) d (applyTail cfg plan d).2 := by
  have hrate := applyGlobalRl_steps (moves_stepwise false) plan
    (K := Within fun m => m = .globalRl ∨ m = .sit4)
    (fun _ => within_write _ _ rfl rfl (Or.inl rfl)) d
  have hsit := applySit4_steps (moves_stepwise false) cfg
    (K := Within fun m => m = .globalRl ∨ m = .sit4)
    (fun _ => within_write _ _ rfl rfl (Or.inr rfl)) (fun _ => within_write _ _ rfl rfl (Or.inr rfl))
    (applyGlobalRl plan false d).2
  exact hrate.trans hsit

theorem expose_stage (d : Daemon) (hplan : FirstPlan desired plan) (hsound : desired.Sound) :
    Moves (Within fun m => m = .port .tcp ∨ m = .port .udp) d (expose plan false d).2 := by
  refine expose_steps (moves_stepwise false) plan ?_ ?_ d
  · rw [hplan.tcpAdd]
    intro port hport
    have hlt := hsound.ports port (by simp only [List.mem_append, hport, true_or])
    exact within_write _ _ (decide_eq_true hlt) rfl (Or.inl rfl)
  · rw [hplan.udpAdd]
    intro port hport
    have hlt := hsound.ports port (by simp only [List.mem_append, hport, or_true, true_or])
    exact within_write _ _ (decide_eq_true hlt) rfl (Or.inr rfl)

/-- Opening the TCP ports, when every call succeeds. -/
theorem expose_does :
    Steps (Does fun d d' => ∀ port, d'.maps.portMap .tcp port =
      if port ∈ plan.tcpPortsToAdd then 1 else d.maps.portMap .tcp port) (expose plan false) := by
  have hudp : Steps (Does fun d d' => d'.maps.portMap .tcp = d.maps.portMap .tcp)
      (setPorts .udp plan.udpPortsToAdd 1 false) := by
    apply does_of_leaves (fun s => s.portMap .tcp)
    apply setPorts_steps (moves_stepwise false)
    intro port _ s
    exact (BpfOp.setPort .udp port 1).effect_portMap s .tcp nofun
  refine steps_seq _ _ (setPorts_does .tcp plan.tcpPortsToAdd 1) (fun _ => hudp) ?_
  intro d e f h h'
  exact does_trans h h' fun h h' port => (congrFun h' port).trans (h port)

end Stages

/-- What the datapath reads of the maps for a lone `SYN`. -/
structure FirstMaps (cfg : Config) (desired : DesiredState) (m : Maps) : Prop where
  whitelist : ∀ port, m.tcpWhitelist port = if port ∈ desired.tcpPorts then 1 else 0
  trusted : m.trusted = desired.trustedCidrs.foldl trustedInsert ∅
  acl : m.tcpAcl = (dictItems desired.aclRules).foldl (aclInsert .tcp) ∅
  policies : m.tcpPortPolicies = ∅
  runtime : m.runtimeCfg =
    some { desired.xdpRuntimeConfig with cfgFlags := computeCfgFlags cfg desired }

theorem reconciled_maps (cfg : Config) (desired : DesiredState) (monotonicNs : ℕ → U64)
    (hsound : desired.Sound) (hlimits : desired.Unlimited) :
    FirstMaps cfg desired (reconciled cfg desired monotonicNs) := by
  have hplan := firstPlan cfg desired monotonicNs
  set start := firstDaemon monotonicNs
  set plan := (plannedAt cfg desired start).1
  set d0 := (plannedAt cfg desired start).2 with hd0
  set d1 := closed plan d0 with hd1
  set d2 := (applyTrustedDelta cfg plan false d1).2 with hd2
  set d3 := (applyLimits cfg plan false desired d2).2 with hd3
  set d4 := (applyAclDelta plan false d3).2 with hd4
  set d5 := (applyRuntimeConfig cfg desired false d4).2 with hd5
  set d6 := (applyTail cfg plan d5).2 with hd6
  set d7 := (expose plan false d6).2 with hd7
  have h0 : Moves _ start d0 := planned_stage cfg desired start
  have h1 : Moves _ d0 d1 := closed_stage desired plan d0 hplan hsound
  have h2 : Moves _ d1 d2 := trusted_stage cfg plan d1
  have h3 : Moves _ d2 d3 := limits_stage cfg desired plan d2 hsound
  have h4 : Moves _ d3 d4 := acl_stage plan d3
  have h5 : Moves _ d4 d5 := runtime_stage cfg desired d4
  have h6 : Moves _ d5 d6 := tail_stage cfg plan d5
  have h7 : Moves _ d6 d7 := expose_stage desired plan d6 hplan hsound
  obtain ⟨f0, o0⟩ := stage_clean h0 fun _ => rfl
  obtain ⟨f1, o1⟩ := stage_clean h1 f0
  obtain ⟨f2, o2⟩ := stage_clean h2 f1
  obtain ⟨f3, o3⟩ := stage_clean h3 f2
  obtain ⟨f4, o4⟩ := stage_clean h4 f3
  obtain ⟨f5, o5⟩ := stage_clean h5 f4
  obtain ⟨f6, -⟩ := stage_clean h6 f5
  have hopen3 (m : OptionalMap) : d3.opened m = true := by rw [o3, o2, o1, o0]; rfl
  have hopen4 (m : OptionalMap) : d4.opened m = true := by rw [o4]; exact hopen3 m
  have hprepared : (prepare cfg plan false desired d0).2 = d6 := prepare_run cfg plan desired d0
  -- no call of the preparation fails, so the ports open
  have hlast : reconciled cfg desired monotonicNs = d7.maps := by
    have hany {T : KernelMap → Prop} {d d' : Daemon} (h : Moves (Within T) d d') :
        Moves (Within fun _ => True) d d' := moves_mono (fun _ hop => ⟨hop.1, fun _ _ => trivial⟩) h
    have hmoves : Moves (Within fun _ => True) d0 d6 :=
      (hany h1).trans ((hany h2).trans ((hany h3).trans ((hany h4).trans
        ((hany h5).trans (hany h6)))))
    obtain ⟨new, hlog, -, hok⟩ := moves_log hmoves
    have hzero : (prepare cfg plan false desired d0).2.lastApplyFailures = 0 := by
      rw [prepare_counter, hprepared, callsSince_eq hlog]
      exact fun c hc _ => hok f0 (fun op hop => hop.1) c hc
    rw [reconciled, reconcile_run, applyReconcilePlan_run]
    change (if (prepare cfg plan false desired d0).2.lastApplyFailures = 0 then
      (expose plan false (prepare cfg plan false desired d0).2).2
      else (prepare cfg plan false desired d0).2).maps = _
    rw [if_pos hzero, hprepared]
  rw [hlast]
  constructor
  · intro port
    have hopened := stage_does h7 (expose_does plan d6) f6 port
    have hclosed : d6.maps.portMap .tcp port = 0 := by
      rw [(stage_kept (.port .tcp) (by simp) h6).1, (stage_kept (.port .tcp) (by simp) h5).1,
        (stage_kept (.port .tcp) (by simp) h4).1, (stage_kept (.port .tcp) (by simp) h3).1,
        (stage_kept (.port .tcp) (by simp) h2).1, (stage_kept (.port .tcp) (by simp) h1).1,
        (stage_kept (.port .tcp) (by simp) h0).1]
      rfl
    rw [hplan.tcpAdd, hclosed] at hopened
    exact hopened
  · have hset := stage_does h2 (applyTrustedDelta_does cfg plan d1) f1
    rw [hplan.trustedAdd, hplan.trustedRemove] at hset
    rw [(stage_kept .trusted (by simp) h7).1, (stage_kept .trusted (by simp) h6).1, (stage_kept .trusted (by simp) h5).1,
      (stage_kept .trusted (by simp) h4).1, (stage_kept .trusted (by simp) h3).1, hset,
      (stage_kept .trusted (by simp) h1).1, (stage_kept .trusted (by simp) h0).1]
    rfl
  · have hset := stage_does h4 (applyAclDelta_does plan d3) f3 (hopen3 .acl) .tcp
    rw [hplan.aclUpsert, hplan.aclRemove] at hset
    have hbefore : d3.maps.acl .tcp = ∅ := by
      rw [(stage_kept (.acl .tcp) (by simp) h3).1, (stage_kept (.acl .tcp) (by simp) h2).1, (stage_kept (.acl .tcp) (by simp) h1).1,
        (stage_kept (.acl .tcp) (by simp) h0).1]
      rfl
    change d7.maps.acl .tcp = _
    rw [(stage_kept (.acl .tcp) (by simp) h7).1, (stage_kept (.acl .tcp) (by simp) h6).1, (stage_kept (.acl .tcp) (by simp) h5).1,
      hset, hbefore]
    rfl
  · have hbefore : NoTcpPolicy d2 := keepsNoTcpPolicy_stage (by simp) h2
      (keepsNoTcpPolicy_stage (by simp) h1 (keepsNoTcpPolicy_stage (by simp) h0 ⟨rfl, rfl⟩))
    have hkept : NoTcpPolicy d3 :=
      applyLimits_keeps cfg desired plan hplan hlimits hsound d2 hbefore
    change d7.maps.portPolicies .tcp = _
    rw [(stage_kept (.policy .tcp) (by simp) h7).1, (stage_kept (.policy .tcp) (by simp) h6).1,
      (stage_kept (.policy .tcp) (by simp) h5).1, (stage_kept (.policy .tcp) (by simp) h4).1]
    exact hkept.2
  · have hset := stage_does h5 (applyRuntimeConfig_does cfg desired d4) f4 (hopen4 .runtimeConfig)
    rw [stage_kept .runtimeConfig (by simp) h7, stage_kept .runtimeConfig (by simp) h6]
    exact hset

end AutoXdp
