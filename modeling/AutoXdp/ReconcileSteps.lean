import AutoXdp.BackendFrames
import Mathlib.Logic.Relation
import Mathlib.Tactic.Basic

/-! What the reconciler is made of: calls of the kernel, each with a change of the
cache that belongs to it, and its own counters. A relation that these keep, a whole
part of the reconciler keeps. -/
namespace AutoXdp
open StateSteps

/-- The change of a cache that a map method may make around this call. -/
def BpfOp.Notes (d d' : Daemon) : BpfOp → Prop
  | setPort m _ _ => ∃ ports, d' = d.setPortCache m ports
  | iterateCt p => ∃ keys, d' = d.setCtCache p keys
  | lookupCt p _ => ∃ keys, d' = d.setCtCache p keys
  | updateCt p _ _ => ∃ keys, d' = d.setCtCache p keys
  | deleteCt p _ => ∃ keys, d' = d.setCtCache p keys
  | updateTrusted _ _ => ∃ cidrs, d' = { d with trustedCache := cidrs }
  | deleteTrusted _ => ∃ cidrs, d' = { d with trustedCache := cidrs }
  | updateAcl p _ _ => ∃ t, d' = d.setAclCache p t
  | deleteAcl p _ => ∃ t, d' = d.setAclCache p t
  | updatePolicy p _ _ => ∃ t, d' = d.setPolicyCache p t
  | deletePolicy p _ => ∃ t, d' = d.setPolicyCache p t
  | updateSlot m _ => ∃ t, d' = d.setOuterCache m t
  | deleteSlot m _ => ∃ t, d' = d.setOuterCache m t
  | updateSit4 _ _ => ∃ l, d' = { d with sit4Cache := l }
  | deleteSit4 _ => ∃ l, d' = { d with sit4Cache := l }
  | _ => d' = d

/-- The calls that only read. -/
def BpfOp.reads : BpfOp → Bool
  | lookupCt _ _ => true
  | lookupRuntimeCfg => true
  | lookupGlobalRl => true
  | _ => false

namespace XdpBackend

/-- The relation is kept by everything the reconciler does with calls in `K`, its
stale rounds apart. -/
structure Stepwise (dryRun : Bool) (R : Daemon → Daemon → Prop) (K : BpfOp → Prop) : Prop where
  counted : ∀ op note, K op → (∀ d, op.Notes d (note d)) →
    Steps R (ok (cachedCall dryRun .ok op note))
  /-- The calls of `delete_dest_ports` and `ensure_prefixes`. -/
  quiet : ∀ caller op note, caller = .deleteDestPorts ∨ caller = .ensurePrefixes → K op →
    (∀ d, op.Notes d (note d)) → Steps R (cachedCall dryRun caller op note)
  read : ∀ op, op.reads = true → K op → Steps R (bpf .reader op)
  noted : ∀ op note, K op → (∀ d, op.Notes d (note d)) → Steps R (modify note : DaemonM PUnit)
  outerSet : ∀ m port capacity, K (.createInner m port capacity) → K (.updateSlot m port) →
    Steps R (ok (BpfRateOuterMap.set m port capacity dryRun))

/-- So does every change of the stale rounds. -/
def RoundSteps (R : Daemon → Daemon → Prop) : Prop :=
  ∀ f : Daemon → BpfMap FlowKey ℕ,
    Steps R (modify fun d => { d with conntrackStaleRounds := f d } : DaemonM PUnit)

section Parts

variable {R : Daemon → Daemon → Prop} [IsPreorder Daemon R] {K : BpfOp → Prop} {dryRun : Bool}
  (h : Stepwise dryRun R K) (cfg : Config) (desired : DesiredState) (plan : ReconcilePlan)

include h

/-! The map methods. -/

omit [IsPreorder Daemon R] in
theorem viewStore_steps (view : PolicyView) (port : U32) (fields : PolicyFields)
    (hset : ∀ val, K (.updatePolicy view.proto port val)) (hdel : K (.deletePolicy view.proto port)) :
    Steps R (ok (BpfPortPolicyViewMap.store view port fields dryRun)) := by
  unfold BpfPortPolicyViewMap.store
  split
  · exact h.counted _ _ hdel fun _ => ⟨_, rfl⟩
  · exact h.counted _ _ (hset _) fun _ => ⟨_, rfl⟩

omit [IsPreorder Daemon R] in
theorem viewSet_steps (view : PolicyView) (port rateMax : U32)
    (hset : ∀ val, K (.updatePolicy view.proto port val)) (hdel : K (.deletePolicy view.proto port)) :
    Steps R (ok (BpfPortPolicyViewMap.set cfg view port rateMax dryRun)) := by
  intro d
  exact viewStore_steps h view port _ hset hdel d

omit [IsPreorder Daemon R] in
theorem viewDelete_steps (view : PolicyView) (port : U32)
    (hset : ∀ val, K (.updatePolicy view.proto port val)) (hdel : K (.deletePolicy view.proto port)) :
    Steps R (ok (BpfPortPolicyViewMap.delete view port dryRun)) := by
  intro d
  cases hl : (d.policyCache view.proto).lookup port with
  | none =>
    have hrun : BpfPortPolicyViewMap.delete view port dryRun d =
        BpfPortPolicyMap.delete view.proto port dryRun d := by
      simp only [BpfPortPolicyViewMap.delete, run_get_bind, hl]
    have hcall := h.counted _ (fun d => d.setPolicyCache view.proto
      ((d.policyCache view.proto).erase port)) hdel (fun _ => ⟨_, rfl⟩) d
    simp only [ok, run_bind, hrun] at hcall ⊢
    exact hcall
  | some current =>
    have hrun : BpfPortPolicyViewMap.delete view port dryRun d =
        BpfPortPolicyViewMap.store view port (Function.update current view.index 0) dryRun d := by
      simp only [BpfPortPolicyViewMap.delete, run_get_bind, hl]
    have hcall := viewStore_steps h view port (Function.update current view.index 0) hset hdel d
    simp only [ok, run_bind, hrun] at hcall ⊢
    exact hcall

theorem outerDelete_steps (m : OuterMap) (port : U32) (hdel : K (.deleteSlot m port)) :
    Steps R (ok (BpfRateOuterMap.delete m port dryRun)) := by
  intro d
  by_cases hp : port ∈ d.outerCache m
  · have hrun : BpfRateOuterMap.delete m port dryRun d = cachedCall dryRun .ok (.deleteSlot m port)
        (fun d => d.setOuterCache m ((d.outerCache m).erase port)) d := by
      simp only [BpfRateOuterMap.delete, run_get_bind, hp, ↓reduceIte]
    have hcall := h.counted (.deleteSlot m port)
      (fun d => d.setOuterCache m ((d.outerCache m).erase port)) hdel (fun _ => ⟨_, rfl⟩) d
    simp only [ok, run_bind, hrun] at hcall ⊢
    exact hcall
  · have hrun : BpfRateOuterMap.delete m port dryRun d = (true, d) := by
      simp only [BpfRateOuterMap.delete, run_get_bind, hp, ↓reduceIte, run_pure]
    have hstay : (ok (BpfRateOuterMap.delete m port dryRun) d).2 = d := by
      simp only [ok, run_bind, hrun]
      rfl
    rw [hstay]
    exact refl_of R d

omit [IsPreorder Daemon R] in
theorem portSet_steps (m : PortMap) (port val : U32) (hset : K (.setPort m port val)) :
    Steps R (ok (BpfArrayMap.set m port val dryRun)) :=
  h.counted _ _ hset fun _ => ⟨_, rfl⟩

omit [IsPreorder Daemon R] in
theorem trustedSet_steps (cidr : LpmKey) (hset : K (.updateTrusted cidr.normalize 1)) :
    Steps R (ok (BpfTrustedMaps.set cidr 1 dryRun)) :=
  h.counted _ _ hset fun _ => ⟨_, rfl⟩

theorem existingKeys_steps (p : Proto) (keys : List FlowKey) (hread : ∀ key, K (.lookupCt p key)) :
    Steps R (BpfConntrackMaps.existingKeys p keys) := by
  apply steps_foldlM
  intro present key _
  apply steps_bind _ _ (h.read _ rfl (hread key))
  intro b
  apply steps_get_all
  intro d
  have hnote (f : Daemon → List FlowKey) :
      Steps R (modify fun d => d.setCtCache p (f d) : DaemonM PUnit) :=
    h.noted (.lookupCt p key) _ (hread key) fun d => ⟨f d, rfl⟩
  apply steps_ite
  · intro _
    apply steps_ite
    · exact fun _ => steps_bind _ _ (hnote _) fun _ => steps_pure _
    · exact fun _ => steps_bind _ _ (hnote _) fun _ => steps_pure _
  · intro _
    exact steps_ite _ _ _ (fun _ => steps_pure _) fun _ => steps_pure _

theorem deleteDestPorts_steps (p : Proto) (ports : List U32)
    (hdel : ∀ key, key.destPort ∈ ports → K (.deleteCt p key)) :
    Steps R (BpfConntrackMaps.deleteDestPorts p ports dryRun) := by
  apply steps_get_all
  intro d
  apply steps_forM
  intro key hkey
  rw [BpfConntrackMaps.mem_byFamily, List.mem_filter, decide_eq_true_eq] at hkey
  exact steps_discard _ (h.quiet _ _ _ (Or.inl rfl) (hdel key hkey.2) fun _ => ⟨_, rfl⟩)

theorem ensurePrefixes_steps (p : Proto) (ports : List U32) (prefixV4 prefixV6 : U32)
    (hset : ∀ port val, K (.updatePolicy p port val)) :
    Steps R (BpfPortPolicyMap.ensurePrefixes p ports prefixV4 prefixV6 dryRun) := by
  apply steps_forM
  intro port _
  apply steps_get_all
  intro d
  split
  · exact steps_pure _
  · apply steps_ite
    · intro _
      exact steps_discard _ (h.quiet _ _ _ (Or.inr rfl) (hset port _) fun _ => ⟨_, rfl⟩)
    · exact fun _ => steps_pure _

theorem lookupRaw_steps (hread : K .lookupRuntimeCfg) :
    Steps R BpfRuntimeConfigMap.lookupRaw := by
  apply steps_bind _ _ (h.read _ rfl hread)
  intro b
  exact steps_get_all _ fun d => steps_pure _

theorem globalRlGet_steps (hread : K .lookupGlobalRl) : Steps R BpfGlobalRlMap.get := by
  apply steps_bind _ _ (h.read _ rfl hread)
  intro b
  exact steps_get_all _ fun d => steps_pure _

/-! The parts of the reconciler. -/

theorem setPorts_steps (m : PortMap) (ports : List U32) (val : U32)
    (hset : ∀ port ∈ ports, K (.setPort m port val)) : Steps R (setPorts m ports val dryRun) := by
  apply steps_forM
  intro port hport
  exact steps_discard _ (portSet_steps h m port val (hset port ((mem_sorted port ports).mp hport)))

omit h in
/-- A counted call on each key; when it succeeds the key's stale rounds are dropped. -/
theorem okThenPop_steps (m : DaemonM Bool) (key : FlowKey) (hm : Steps R (ok m))
    (hrounds : RoundSteps R) : Steps R (do if ← ok m then modify (popStaleRounds key)) := by
  apply steps_bind _ _ hm
  intro b
  exact steps_ite _ _ _ (fun _ => hrounds _) fun _ => steps_pure _

theorem seedConntrack_steps (hrounds : RoundSteps R) (keys : List FlowKey)
    (hset : ∀ key ∈ keys, ∀ raw, K (.updateCt .tcp key raw)) :
    Steps R (seedConntrack keys dryRun) := by
  apply steps_forM
  intro key hkey
  refine okThenPop_steps _ key (fun d => ?_) hrounds
  exact h.counted _ (fun d => d.setCtCache .tcp (setAdd key (d.ctCache .tcp)))
    (hset key hkey (d.monotonicNs d.log.length)) (fun _ => ⟨_, rfl⟩) d

theorem removeStaleConntrack_steps (hrounds : RoundSteps R) (keys : List FlowKey)
    (hdel : ∀ key ∈ keys, K (.deleteCt .tcp key)) :
    Steps R (removeStaleConntrack keys dryRun) := by
  apply steps_forM
  intro key hkey
  exact okThenPop_steps _ key (h.counted _ _ (hdel key hkey) fun _ => ⟨_, rfl⟩) hrounds

theorem applySctpDelta_steps (hadd : ∀ port ∈ plan.sctpPortsToAdd, K (.setPort .sctp port 1))
    (hremove : ∀ port ∈ plan.sctpPortsToRemove, K (.setPort .sctp port 0)) :
    Steps R (applySctpDelta plan dryRun) := by
  apply steps_get_all
  intro d
  apply steps_ite
  · intro _
    apply steps_bind _ _ (setPorts_steps h .sctp _ 1 hadd)
    intro _
    exact setPorts_steps h .sctp _ 0 hremove
  · exact fun _ => steps_pure _

theorem applyTrustedDelta_steps
    (hset : ∀ cidr ∈ plan.trustedCidrsToAdd, K (.updateTrusted cidr.normalize 1))
    (hdel : ∀ cidr ∈ plan.trustedCidrsToRemove, K (.deleteTrusted cidr.normalize)) :
    Steps R (applyTrustedDelta cfg plan dryRun) := by
  have hadd : Steps R (plan.trustedCidrsToAdd.forM fun cidr =>
      discard (ok (BpfTrustedMaps.set cidr 1 dryRun))) := by
    apply steps_forM
    intro cidr hcidr
    exact steps_discard _ (trustedSet_steps h cidr (hset cidr hcidr))
  apply steps_bind _ _ hadd
  intro _
  apply steps_forM
  intro cidr hcidr
  exact steps_discard _ (h.counted _ _ (hdel cidr ((mem_setDiff _ _ _).mp hcidr).1)
    fun _ => ⟨_, rfl⟩)

theorem applyRateMapDelta_steps (view : PolicyView) (upserts : List (U32 × U32))
    (removals : List U32) (hset : ∀ port val, K (.updatePolicy view.proto port val))
    (hdel : ∀ port, K (.deletePolicy view.proto port)) :
    Steps R (applyRateMapDelta cfg view upserts removals dryRun) := by
  have hupsert : Steps R (upserts.forM fun e =>
      discard (ok (BpfPortPolicyViewMap.set cfg view e.1 e.2 dryRun))) := by
    apply steps_forM
    intro e _
    exact steps_discard _ (viewSet_steps h cfg view e.1 e.2 (hset e.1) (hdel e.1))
  apply steps_get_all
  intro d
  apply steps_ite
  · intro _
    apply steps_bind _ _ hupsert
    intro _
    apply steps_forM
    intro port _
    exact steps_discard _ (viewDelete_steps h view port (hset port) (hdel port))
  · exact fun _ => steps_pure _

theorem applyTcpLimits_steps (hset : ∀ port val, K (.updatePolicy .tcp port val))
    (hdel : ∀ port, K (.deletePolicy .tcp port)) : Steps R (applyTcpLimits cfg plan dryRun) := by
  have hview : ∀ i upserts removals,
      Steps R (applyRateMapDelta cfg ⟨.tcp, i⟩ upserts removals dryRun) :=
    fun i upserts removals =>
      applyRateMapDelta_steps h cfg ⟨.tcp, i⟩ upserts removals hset hdel
  unfold applyTcpLimits
  apply steps_bind _ _ (hview 0 _ _)
  intro _
  apply steps_bind _ _ (hview 1 _ _)
  intro _
  apply steps_bind _ _ (hview 2 _ _)
  intro _
  apply steps_bind _ _ (hview 5 _ _)
  intro _
  exact hview 6 _ _

theorem applyUdpLimits_steps (hset : ∀ port val, K (.updatePolicy .udp port val))
    (hdel : ∀ port, K (.deletePolicy .udp port)) : Steps R (applyUdpLimits cfg plan dryRun) := by
  apply steps_bind _ _ (applyRateMapDelta_steps h cfg ⟨.udp, 0⟩ _ _ hset hdel)
  intro _
  exact applyRateMapDelta_steps h cfg ⟨.udp, 1⟩ _ _ hset hdel

theorem applyRateOuterDelta_steps (m : OuterMap) (entries : List (U32 × U32))
    (hset : ∀ e ∈ entries, K (.createInner m e.1 e.2) ∧ K (.updateSlot m e.1))
    (hdel : ∀ port, K (.deleteSlot m port)) :
    Steps R (applyRateOuterDelta m entries dryRun) := by
  apply steps_get_all
  intro d
  apply steps_ite
  · intro _
    apply steps_bind
    · apply steps_forM
      intro e he
      apply steps_ite
      · exact fun _ => steps_discard _ (h.outerSet m e.1 e.2 (hset e he).1 (hset e he).2)
      · exact fun _ => steps_pure _
    · intro _
      apply steps_forM
      intro port _
      exact steps_discard _ (outerDelete_steps h m port (hdel port))
  · exact fun _ => steps_pure _

/-- The four arrays, filled from two dicts. -/
theorem applyRateOuters_steps (hset : ∀ m port capacity,
      port ∈ (match m with
        | .syn4 | .syn6 => desired.tcpRateMapEntries
        | .udprt4 | .udprt6 => desired.udpRateMapEntries) →
      K (.createInner m port capacity) ∧ K (.updateSlot m port))
    (hdel : ∀ m port, K (.deleteSlot m port)) :
    Steps R (applyRateOuters cfg desired dryRun) := by
  have hmem (t : BpfMap U32 U32) (e : U32 × U32) (he : e ∈ dictItems t) : e.1 ∈ t := by
    obtain ⟨s, hs, rfl⟩ := List.mem_map.mp he
    exact List.mem_map.mpr ⟨s, hs, rfl⟩
  have hmem6 (t : BpfMap U32 U32) (e : U32 × U32)
      (he : e ∈ (dictItems t).map fun e => (e.1, rateMapEntriesV6 cfg e.2)) : e.1 ∈ t := by
    obtain ⟨s, hs, rfl⟩ := List.mem_map.mp he
    exact hmem t s hs
  unfold applyRateOuters
  apply steps_bind _ _ (applyRateOuterDelta_steps h .syn4 _
    (fun e he => hset .syn4 e.1 e.2 (hmem _ e he)) (hdel _))
  intro _
  apply steps_bind _ _ (applyRateOuterDelta_steps h .syn6 _
    (fun e he => hset .syn6 e.1 e.2 (hmem6 _ e he)) (hdel _))
  intro _
  apply steps_bind _ _ (applyRateOuterDelta_steps h .udprt4 _
    (fun e he => hset .udprt4 e.1 e.2 (hmem _ e he)) (hdel _))
  intro _
  exact applyRateOuterDelta_steps h .udprt6 _
    (fun e he => hset .udprt6 e.1 e.2 (hmem6 _ e he)) (hdel _)

theorem ensurePolicyPrefixes_steps (p : Proto) (hset : ∀ port val, K (.updatePolicy p port val)) :
    Steps R (ensurePolicyPrefixes p desired dryRun) := by
  apply steps_get_all
  intro d
  apply steps_ite
  · exact fun _ => ensurePrefixes_steps h p _ _ _ hset
  · exact fun _ => steps_pure _

theorem applyAclDelta_steps
    (hset : ∀ e ∈ plan.aclRulesToUpsert, K (.updateAcl (BpfAclMaps.mapFor e.1.1) e.1.2.normalize
      (BpfAclMaps.packVal e.2)))
    (hdel : ∀ e ∈ plan.aclRulesToRemove, K (.deleteAcl (BpfAclMaps.mapFor e.1) e.2.normalize)) :
    Steps R (applyAclDelta plan dryRun) := by
  apply steps_get_all
  intro d
  apply steps_ite
  · intro _
    apply steps_bind
    · apply steps_forM
      intro e he
      exact steps_discard _ (h.counted _ _ (hset e he) fun _ => ⟨_, rfl⟩)
    · intro _
      apply steps_forM
      intro e he
      exact steps_discard _ (h.counted _ _ (hdel e he) fun _ => ⟨_, rfl⟩)
  · exact fun _ => steps_pure _

theorem applyRuntimeConfig_steps (hread : K .lookupRuntimeCfg)
    (hset : ∀ c, K (.updateRuntimeCfg c)) : Steps R (applyRuntimeConfig cfg desired dryRun) := by
  apply steps_get_all
  intro d
  apply steps_ite
  · intro _
    apply steps_bind _ _ (lookupRaw_steps h hread)
    intro current
    apply steps_bind _ _ (lookupRaw_steps h hread)
    intro raw
    apply steps_ite
    · exact fun _ => steps_discard _ (h.counted _ _ (hset _) fun _ => rfl)
    · exact fun _ => steps_pure _
  · exact fun _ => steps_pure _

theorem applyGlobalRl_steps (hset : ∀ rate, K (.updateGlobalRl rate)) :
    Steps R (applyGlobalRl plan dryRun) := by
  apply steps_get_all
  intro d
  split
  · apply steps_ite
    · exact fun _ => steps_discard _ (h.counted _ _ (hset _) fun _ => rfl)
    · exact fun _ => steps_pure _
  · exact steps_pure _

theorem applySit4_steps (hset : ∀ a, K (.updateSit4 a 1)) (hdel : ∀ a, K (.deleteSit4 a)) :
    Steps R (applySit4 cfg dryRun) := by
  apply steps_get_all
  intro d
  apply steps_ite
  · intro _
    apply steps_bind
    · apply steps_forM
      intro a _
      exact steps_discard _ (h.counted _ _ (hset a) fun _ => ⟨_, rfl⟩)
    · intro _
      apply steps_forM
      intro a _
      exact steps_discard _ (h.counted _ _ (hdel a) fun _ => ⟨_, rfl⟩)
  · exact fun _ => steps_pure _

/-! The parts of the preparation, and the exposure. -/

theorem closeTcp_steps (hrounds : RoundSteps R)
    (hport : ∀ port ∈ plan.tcpPortsToRemove, K (.setPort .tcp port 0))
    (hdel : ∀ key, K (.deleteCt .tcp key))
    (hset : ∀ key ∈ plan.conntrackEntriesToAdd, ∀ raw, K (.updateCt .tcp key raw)) :
    Steps R (closeTcp plan dryRun) := by
  apply steps_bind _ _ (setPorts_steps h .tcp _ 0 hport)
  intro _
  apply steps_bind _ _ (deleteDestPorts_steps h .tcp _ fun key _ => hdel key)
  intro _
  apply steps_bind _ _ (seedConntrack_steps h hrounds _ hset)
  intro _
  exact removeStaleConntrack_steps h hrounds _ fun key _ => hdel key

theorem closeUdp_steps (hport : ∀ port ∈ plan.udpPortsToRemove, K (.setPort .udp port 0))
    (hdel : ∀ key, K (.deleteCt .udp key)) : Steps R (closeUdp plan dryRun) := by
  apply steps_bind _ _ (setPorts_steps h .udp _ 0 hport)
  intro _
  exact deleteDestPorts_steps h .udp _ fun key _ => hdel key

theorem applyLimits_steps (hset : ∀ p port val, K (.updatePolicy p port val))
    (hdel : ∀ p port, K (.deletePolicy p port))
    (hslot : ∀ m port capacity,
      port ∈ (match m with
        | .syn4 | .syn6 => desired.tcpRateMapEntries
        | .udprt4 | .udprt6 => desired.udpRateMapEntries) →
      K (.createInner m port capacity) ∧ K (.updateSlot m port))
    (hfree : ∀ m port, K (.deleteSlot m port)) :
    Steps R (applyLimits cfg plan dryRun desired) := by
  apply steps_bind _ _ (applyTcpLimits_steps h cfg plan (hset .tcp) (hdel .tcp))
  intro _
  apply steps_bind _ _ (applyUdpLimits_steps h cfg plan (hset .udp) (hdel .udp))
  intro _
  apply steps_bind _ _ (applyRateOuters_steps h cfg desired hslot hfree)
  intro _
  apply steps_bind _ _ (ensurePolicyPrefixes_steps h desired .tcp (hset .tcp))
  intro _
  exact ensurePolicyPrefixes_steps h desired .udp (hset .udp)

/-- What follows the ACL: the runtime configuration, the global rate, the tunnels. -/
theorem applyRest_steps (hread : K .lookupRuntimeCfg) (hruntime : ∀ c, K (.updateRuntimeCfg c))
    (hrate : ∀ rate, K (.updateGlobalRl rate)) (hsit : ∀ a, K (.updateSit4 a 1))
    (hunsit : ∀ a, K (.deleteSit4 a)) :
    Steps R (do
      applyRuntimeConfig cfg desired dryRun
      applyGlobalRl plan dryRun
      applySit4 cfg dryRun) := by
  apply steps_bind _ _ (applyRuntimeConfig_steps h cfg desired hread hruntime)
  intro _
  apply steps_bind _ _ (applyGlobalRl_steps h plan hrate)
  intro _
  exact applySit4_steps h cfg hsit hunsit

theorem expose_steps (htcp : ∀ port ∈ plan.tcpPortsToAdd, K (.setPort .tcp port 1))
    (hudp : ∀ port ∈ plan.udpPortsToAdd, K (.setPort .udp port 1)) :
    Steps R (expose plan dryRun) := by
  apply steps_bind _ _ (setPorts_steps h .tcp _ 1 htcp)
  intro _
  exact setPorts_steps h .udp _ 1 hudp

/-! What the plan is computed from. -/

theorem cfgFlagClear_steps (mask : U32) (hread : K .lookupRuntimeCfg) :
    Steps R (cfgFlagClear mask) := by
  apply steps_get_all
  intro d
  apply steps_ite
  · intro _
    exact steps_bind _ _ (lookupRaw_steps h hread) fun _ => steps_pure _
  · exact fun _ => steps_pure _

theorem getAppliedState_steps (hread : K .lookupRuntimeCfg) (hglobal : K .lookupGlobalRl) :
    Steps R getAppliedState := by
  have hrate : Steps R readGlobalRl := by
    apply steps_get_all
    intro d
    apply steps_ite
    · intro _
      exact steps_bind _ _ (globalRlGet_steps h hglobal) fun _ => steps_pure _
    · exact fun _ => steps_pure _
  have hruntime : Steps R readRuntimeConfig := by
    apply steps_get_all
    intro d
    apply steps_ite
    · intro _
      exact steps_bind _ _ (lookupRaw_steps h hread) fun _ => steps_pure _
    · exact fun _ => steps_pure _
  apply steps_get_all
  intro d
  apply steps_bind _ _ (cfgFlagClear_steps h _ hread)
  intro bogon
  apply steps_bind _ _ (cfgFlagClear_steps h _ hread)
  intro dropEvents
  apply steps_bind _ _ hrate
  intro rate
  apply steps_bind _ _ hruntime
  intro runtime
  exact steps_pure _

omit h in
theorem countStaleRounds_steps (hrounds : RoundSteps R) (desiredKeys toRemove : List FlowKey) :
    Steps R (countStaleRounds cfg desiredKeys toRemove) := by
  have hpop : ∀ keys : List FlowKey, Steps R
      (keys.forM fun key => (modify (popStaleRounds key) : DaemonM PUnit)) :=
    fun keys => steps_forM _ _ fun key _ => hrounds _
  apply steps_bind _ _ (hpop _)
  intro _
  apply steps_bind
  · apply steps_foldlM
    intro ready key _
    apply steps_get_all
    intro d
    exact steps_bind _ _ (hrounds _) fun _ => steps_pure _
  intro ready
  apply steps_get_all
  intro d
  exact steps_bind _ _ (hpop _) fun _ => steps_pure _

theorem buildReconcilePlan_steps (hrounds : RoundSteps R) (applied : AppliedState)
    (hread : ∀ key, K (.lookupCt .tcp key)) :
    Steps R (buildReconcilePlan cfg desired applied) := by
  apply steps_bind _ _ (existingKeys_steps h .tcp _ hread)
  intro present
  apply steps_bind _ _ (countStaleRounds_steps cfg hrounds _ _)
  intro ready
  exact steps_pure _

end Parts

end XdpBackend

end AutoXdp
