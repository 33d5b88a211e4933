import AutoXdp.ReconcileSteps
import Mathlib.Tactic.Basic

/-! Which maps each part of one reconcile touches. -/
namespace AutoXdp.XdpBackend
open StateSteps

section Blocks

variable {S : Set MapId}

theorem notes_of_op (op : BpfOp) (note : Daemon → Daemon) (hop : op.mapId ∈ S)
    (h : ∀ d, op.Notes d (note d)) : Notes S note := by
  have hcases : ∀ f : Daemon → Daemon, note = f → Notes S f → Notes S note := fun f hf hn => hf ▸ hn
  cases op with
  | setPort m _ _ =>
    choose f hf using h
    exact hcases _ (funext hf) (notes_portCache m f hop)
  | iterateCt p =>
    choose f hf using h
    exact hcases _ (funext hf) (notes_ctCache p f hop)
  | lookupCt p _ =>
    choose f hf using h
    exact hcases _ (funext hf) (notes_ctCache p f hop)
  | updateCt p _ _ =>
    choose f hf using h
    exact hcases _ (funext hf) (notes_ctCache p f hop)
  | deleteCt p _ =>
    choose f hf using h
    exact hcases _ (funext hf) (notes_ctCache p f hop)
  | updatePolicy p _ _ =>
    choose f hf using h
    exact hcases _ (funext hf) (notes_policyCache p f hop)
  | deletePolicy p _ =>
    choose f hf using h
    exact hcases _ (funext hf) (notes_policyCache p f hop)
  | createInner _ _ _ => exact hcases id (funext h) notes_id
  | lookupRuntimeCfg => exact hcases id (funext h) notes_id
  | updateRuntimeCfg _ => exact hcases id (funext h) notes_id
  | lookupGlobalRl => exact hcases id (funext h) notes_id
  | updateGlobalRl _ => exact hcases id (funext h) notes_id
  | _ =>
    -- the caches of the other maps are not followed
    choose f hf using h
    exact hcases _ (funext hf) (notes_other _ fun _ => ⟨rfl, rfl, rfl, rfl, rfl, rfl, rfl⟩)

theorem touches_stepwise (dryRun : Bool) :
    Stepwise dryRun (Touches S) fun op => op.mapId ∈ S where
  counted op note hop hnote :=
    touches_ok _ (reports_cachedCall dryRun op note hop (notes_of_op op note hop hnote))
  quiet caller op note hcaller hop hnote := by
    have hne : caller ≠ .ok := by rcases hcaller with rfl | rfl <;> nofun
    exact touches_cachedCall dryRun caller op note hne (fun _ => hcaller) hop
      (notes_of_op op note hop hnote)
  read op hread hop := by
    have hprotects : op.protects = false := by cases op <;> first | rfl | exact absurd hread nofun
    exact touches_read op hprotects hop
  noted op note hop hnote := touches_modify note (notes_of_op op note hop hnote)
  outerSet m port capacity hcreate _ :=
    touches_ok _ (outerSet_reports m port capacity dryRun hcreate)

theorem touches_rounds : RoundSteps (Touches S) :=
  fun _ => touches_modify _ (notes_other _ fun _ => ⟨rfl, rfl, rfl, rfl, rfl, rfl, rfl⟩)

theorem setPorts_touches (m : PortMap) (ports : List U32) (val : U32) (dryRun : Bool)
    (hS : .port m ∈ S) : Steps (Touches S) (setPorts m ports val dryRun) :=
  setPorts_steps (touches_stepwise dryRun) m ports val fun _ _ => hS

theorem deleteDestPorts_touches (p : Proto) (ports : List U32) (dryRun : Bool) (hS : .ct p ∈ S) :
    Steps (Touches S) (BpfConntrackMaps.deleteDestPorts p ports dryRun) :=
  deleteDestPorts_steps (touches_stepwise dryRun) p ports fun _ _ => hS

theorem seedConntrack_touches (keys : List FlowKey) (dryRun : Bool) (hS : .ct .tcp ∈ S) :
    Steps (Touches S) (seedConntrack keys dryRun) :=
  seedConntrack_steps (touches_stepwise dryRun) touches_rounds keys fun _ _ _ => hS

theorem removeStaleConntrack_touches (keys : List FlowKey) (dryRun : Bool) (hS : .ct .tcp ∈ S) :
    Steps (Touches S) (removeStaleConntrack keys dryRun) :=
  removeStaleConntrack_steps (touches_stepwise dryRun) touches_rounds keys fun _ _ => hS

theorem applySctpDelta_touches (plan : ReconcilePlan) (dryRun : Bool) (hS : .port .sctp ∈ S) :
    Steps (Touches S) (applySctpDelta plan dryRun) :=
  applySctpDelta_steps (touches_stepwise dryRun) plan (fun _ _ => hS) fun _ _ => hS

theorem applyTrustedDelta_touches (cfg : Config) (plan : ReconcilePlan) (dryRun : Bool)
    (hS : .other ∈ S) : Steps (Touches S) (applyTrustedDelta cfg plan dryRun) :=
  applyTrustedDelta_steps (touches_stepwise dryRun) cfg plan (fun _ _ => hS) fun _ _ => hS

/-! The parts of the preparation. -/

theorem closeTcp_touches (plan : ReconcilePlan) (dryRun : Bool) (hport : .port .tcp ∈ S)
    (hct : .ct .tcp ∈ S) : Steps (Touches S) (closeTcp plan dryRun) :=
  closeTcp_steps (touches_stepwise dryRun) plan touches_rounds (fun _ _ => hport) (fun _ => hct) fun _ _ _ => hct

theorem closeUdp_touches (plan : ReconcilePlan) (dryRun : Bool) (hport : .port .udp ∈ S)
    (hct : .ct .udp ∈ S) : Steps (Touches S) (closeUdp plan dryRun) :=
  closeUdp_steps (touches_stepwise dryRun) plan (fun _ _ => hport) fun _ => hct

theorem applyLimits_touches (cfg : Config) (plan : ReconcilePlan) (dryRun : Bool)
    (desired : DesiredState) (hpolicy : ∀ p, .policy p ∈ S) (hother : .other ∈ S) :
    Steps (Touches S) (applyLimits cfg plan dryRun desired) :=
  applyLimits_steps (touches_stepwise dryRun) cfg desired plan (fun p _ _ => hpolicy p)
    (fun p _ => hpolicy p) (fun _ _ _ _ => ⟨hother, hother⟩) fun _ _ => hother

theorem applyGlobals_touches (cfg : Config) (plan : ReconcilePlan) (dryRun : Bool)
    (desired : DesiredState) (hS : .other ∈ S) :
    Steps (Touches S) (applyGlobals cfg plan dryRun desired) := by
  apply steps_bind _ _
    (applyAclDelta_steps (touches_stepwise dryRun) plan (fun _ _ => hS) fun _ _ => hS)
  intro _
  exact applyRest_steps (touches_stepwise dryRun) cfg desired plan hS (fun _ => hS) (fun _ => hS)
    (fun _ => hS) fun _ => hS

theorem protect_touches (cfg : Config) (plan : ReconcilePlan) (dryRun : Bool)
    (desired : DesiredState) (hport : .port .sctp ∈ S) (hpolicy : ∀ p, .policy p ∈ S)
    (hother : .other ∈ S) : Steps (Touches S) (protect cfg plan dryRun desired) := by
  apply steps_bind _ _ (applySctpDelta_touches plan dryRun hport)
  intro _
  apply steps_bind _ _ (applyTrustedDelta_touches cfg plan dryRun hother)
  intro _
  apply steps_bind _ _
    (applyLimits_touches cfg plan dryRun desired hpolicy hother)
  intro _
  exact applyGlobals_touches cfg plan dryRun desired hother

theorem expose_touches (plan : ReconcilePlan) (dryRun : Bool) (htcp : .port .tcp ∈ S)
    (hudp : .port .udp ∈ S) : Steps (Touches S) (expose plan dryRun) :=
  expose_steps (touches_stepwise dryRun) plan (fun _ _ => htcp) fun _ _ => hudp

/-! What the plan is computed from. -/

theorem getAppliedState_touches (hS : .other ∈ S) : Steps (Touches S) getAppliedState :=
  getAppliedState_steps (touches_stepwise false) hS hS

theorem countStaleRounds_touches (cfg : Config) (desiredKeys toRemove : List FlowKey) :
    Steps (Touches S) (countStaleRounds cfg desiredKeys toRemove) :=
  countStaleRounds_steps cfg touches_rounds desiredKeys toRemove

theorem buildReconcilePlan_touches (cfg : Config) (desired : DesiredState)
    (applied : AppliedState) (hS : .ct .tcp ∈ S) :
    Steps (Touches S) (buildReconcilePlan cfg desired applied) :=
  buildReconcilePlan_steps (touches_stepwise false) cfg desired touches_rounds applied fun _ => hS

end Blocks

/-! The whole application and the whole reconcile. -/

theorem applyReconcilePlan_run (cfg : Config) (plan : ReconcilePlan) (dryRun : Bool)
    (desired : DesiredState) (d : Daemon) :
    (applyReconcilePlan cfg plan dryRun desired d).2 =
      if (prepare cfg plan dryRun desired d).2.lastApplyFailures = 0 then
        (expose plan dryRun (prepare cfg plan dryRun desired d).2).2
      else (prepare cfg plan dryRun desired d).2 := by
  let prepared := (prepare cfg plan dryRun desired d).2
  change ((if prepared.lastApplyFailures = 0 then expose plan dryRun else pure ⟨⟩ :
    DaemonM PUnit) prepared).2 = _
  rw [run_ite]
  split <;> rfl

/-- The applied state and the plan of a reconcile from `d`, with the state after each. -/
def appliedAt (d : Daemon) : AppliedState × Daemon := getAppliedState d

def plannedAt (cfg : Config) (desired : DesiredState) (d : Daemon) : ReconcilePlan × Daemon :=
  buildReconcilePlan cfg desired (appliedAt d).1 (appliedAt d).2

theorem appliedAt_run (d : Daemon) :
    ∃ bogon dropEvents rate runtime,
      (appliedAt d).1 = cachedState d bogon dropEvents rate runtime := by
  unfold appliedAt getAppliedState
  rw [run_get_bind, run_bind, run_bind, run_bind, run_bind, run_pure]
  exact ⟨_, _, _, _, rfl⟩

theorem plannedAt_run (cfg : Config) (desired : DesiredState) (d : Daemon) :
    let found := BpfConntrackMaps.existingKeys .tcp desired.conntrackEntries (appliedAt d).2
    let plan := computeReconcilePlan desired (appliedAt d).1
    let ready := countStaleRounds cfg desired.conntrackEntries plan.conntrackEntriesToRemove found.2
    plannedAt cfg desired d =
      ({ plan with
        conntrackEntriesToAdd := setDiff desired.conntrackEntries found.1
        conntrackEntriesToRemove := ready.1 }, ready.2) := by
  unfold plannedAt buildReconcilePlan
  rw [run_bind, run_bind, run_pure]

theorem reconcile_run (cfg : Config) (desired : DesiredState) (d : Daemon) :
    (reconcile cfg desired false d).2 =
      (applyReconcilePlan cfg (plannedAt cfg desired d).1 false desired
        (plannedAt cfg desired d).2).2 := by
  unfold reconcile plannedAt appliedAt
  rw [run_get_bind, run_bind, run_bind, run_bind, if_neg Bool.false_ne_true, run_pure]

end AutoXdp.XdpBackend
