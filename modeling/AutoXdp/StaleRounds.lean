import AutoXdp.ReconcileEffects
import Mathlib.Data.List.TakeWhile
import Mathlib.Tactic.Basic

/-! Stale connections: one call of `XdpBackend.reconcile`, also when it raises, and the
counts that it keeps over any history of calls (`auto_xdp/backends/xdp.py`). The reads
before the plan catch `OSError`; what can raise is the application of the plan. -/
namespace AutoXdp.XdpBackend
open StateSteps

/-- Where `apply_reconcile_plan` ends: each of its first four loops may raise after
`n` of its items; what follows them returns or raises. -/
inductive Stop where
  | closing (n : ℕ) | purging (n : ℕ) | seeding (n : ℕ) | removing (n : ℕ) | later
  deriving DecidableEq, Repr

/-- `delete_dest_ports` on its first `n` matches. -/
def deleteDestPortsUntil (n : ℕ) (ports : List U32) (dryRun : Bool) : DaemonM PUnit := do
  let d ← get
  let keys := BpfConntrackMaps.byFamily ((d.ctCache .tcp).filter fun key => key.destPort ∈ ports)
  (keys.take n).forM fun key =>
    discard (BpfConntrackMaps.delete .tcp .deleteDestPorts key dryRun)

/-- The first four loops, as far as they get. -/
def closeTcpUntil (plan : ReconcilePlan) (dryRun : Bool) : Stop → DaemonM PUnit
  | .closing n => setPorts .tcp ((sorted plan.tcpPortsToRemove).take n) 0 dryRun
  | .purging n => do
    setPorts .tcp plan.tcpPortsToRemove 0 dryRun
    deleteDestPortsUntil n plan.tcpPortsToRemove dryRun
  | .seeding n => do
    setPorts .tcp plan.tcpPortsToRemove 0 dryRun
    BpfConntrackMaps.deleteDestPorts .tcp plan.tcpPortsToRemove dryRun
    seedConntrack (plan.conntrackEntriesToAdd.take n) dryRun
  | .removing n => do
    setPorts .tcp plan.tcpPortsToRemove 0 dryRun
    BpfConntrackMaps.deleteDestPorts .tcp plan.tcpPortsToRemove dryRun
    seedConntrack plan.conntrackEntriesToAdd dryRun
    removeStaleConntrack (plan.conntrackEntriesToRemove.take n) dryRun
  | .later => closeTcp plan dryRun

/-- What the rest of `apply_reconcile_plan` may have done when it returns or raises. -/
structure Later (dryRun : Bool) (d d' : Daemon) : Prop where
  rounds : d'.conntrackStaleRounds = d.conntrackStaleRounds
  calls : ∃ new, d'.log = new ++ d.log ∧
    ∀ c ∈ new, c.caller = .reader ∨ c.op.mapId ≠ .ct .tcp
  maps : dryRun = true → d'.maps = d.maps

inductive Applied (plan : ReconcilePlan) (dryRun : Bool) : Stop → Daemon → Daemon → Prop
  | raised (stop : Stop) (d : Daemon) (hstop : stop ≠ .later) :
      Applied plan dryRun stop d
        (closeTcpUntil plan dryRun stop { d with lastApplyFailures := 0 }).2
  | later (d d' : Daemon)
      (h : Later dryRun (closeTcp plan dryRun { d with lastApplyFailures := 0 }).2 d') :
      Applied plan dryRun .later d d'

/-- The `finally` of `reconcile`. -/
def restoreRounds (dryRun : Bool) (before d : Daemon) : Daemon :=
  if dryRun then { d with conntrackStaleRounds := before.conntrackStaleRounds } else d

/-- One call of `reconcile`, with the state before it and the state it leaves when it
returns or raises. -/
structure Call where
  cfg : Config
  desired : DesiredState
  dryRun : Bool
  stop : Stop
  before : Daemon
  after : Daemon

def Call.Ends (c : Call) : Prop :=
  ∃ e, Applied (plannedAt c.cfg c.desired c.before).1 c.dryRun c.stop
      (plannedAt c.cfg c.desired c.before).2 e ∧
    c.after = restoreRounds c.dryRun c.before e

/-- A call of the loop over `plan.conntrack_entries_to_remove`. -/
def staleOf (c : BpfCall) : Option (FlowKey × Bool) :=
  match c with
  | ⟨.ok, .deleteCt .tcp key, ok⟩ => some (key, ok)
  | _ => none

/-- The keys deleted as stale, each with the outcome. -/
def Call.staleDeletes (c : Call) : List (FlowKey × Bool) :=
  (callsSince c.before c.after).filterMap staleOf

/-- The calls so far, newest first, and the state now. Between two calls everything
but the counts may change; the cache is a set. -/
inductive Run : List Call → Daemon → Prop
  | start (d : Daemon) (h : d.conntrackStaleRounds = ∅) : Run [] d
  | between {history : List Call} {d : Daemon} (d' : Daemon) (hrun : Run history d)
      (h : d'.conntrackStaleRounds = d.conntrackStaleRounds) : Run history d'
  | reconcile {history : List Call} (c : Call) (hrun : Run history c.before)
      (hcache : (c.before.ctCache .tcp).Nodup) (hends : c.Ends) : Run (c :: history) c.after

/-- The calls that are not dry runs. -/
def recent (history : List Call) : List Call := history.filter fun c => !c.dryRun

/-- How many of the last of these did not desire the key. -/
def misses (key : FlowKey) (history : List Call) : ℕ :=
  ((recent history).takeWhile fun c => key ∉ c.desired.conntrackEntries).length

/-! The rest of the application, as the model computes it. -/

instance (dryRun : Bool) : IsPreorder Daemon (Later dryRun) where
  refl d := ⟨rfl, ⟨[], rfl, nofun⟩, fun _ => rfl⟩
  trans d e f h h' := by
    obtain ⟨new, hlog, hnew⟩ := h.calls
    obtain ⟨new', hlog', hnew'⟩ := h'.calls
    refine ⟨h'.rounds.trans h.rounds, ⟨new' ++ new, ?_, ?_⟩, ?_⟩
    · rw [hlog', hlog, List.append_assoc]
    · intro c hc
      rcases List.mem_append.mp hc with hc | hc
      · exact hnew' c hc
      · exact hnew c hc
    · intro hdry
      exact (h'.maps hdry).trans (h.maps hdry)

/-- A change of a cache keeps the counts. -/
theorem notes_rounds {op : BpfOp} {d d' : Daemon} (h : op.Notes d d') :
    d'.conntrackStaleRounds = d.conntrackStaleRounds := by
  cases op <;> · obtain ⟨x, rfl⟩ := h; rfl

theorem reads_effect {op : BpfOp} (h : op.reads = true) (s : Maps) : op.effect s = s := by
  cases op <;> first | rfl | exact absurd h Bool.false_ne_true

section Later

variable {dryRun : Bool}

theorem later_note {op : BpfOp} {d d' : Daemon} (h : op.Notes d d') : Later dryRun d d' := by
  obtain ⟨hmaps, hlog, -⟩ := notes_rest h
  exact ⟨notes_rounds h, ⟨[], hlog, nofun⟩, fun _ => hmaps⟩

theorem later_call (caller : Caller) (op : BpfOp) (ok : Bool) (d : Daemon)
    (hop : caller = .reader ∨ op.mapId ≠ .ct .tcp)
    (hmaps : dryRun = true → (d.called caller op ok).maps = d.maps) :
    Later dryRun d (d.called caller op ok) := by
  refine ⟨rfl, ⟨[⟨caller, op, ok⟩], rfl, ?_⟩, hmaps⟩
  intro c hc
  rw [List.mem_singleton.mp hc]
  exact hop

theorem later_cachedCall (caller : Caller) (op : BpfOp) (note : Daemon → Daemon)
    (hop : dryRun = true ∨ op.mapId ≠ .ct .tcp) (hnote : ∀ d, op.Notes d (note d)) :
    Steps (Later dryRun) (cachedCall dryRun caller op note) := by
  intro d
  rcases cachedCall_cases dryRun caller op note d with ⟨-, h⟩ | ⟨hdry, h⟩ | ⟨hdry, h⟩
  · rw [h]
    exact refl_of (Later dryRun) d
  all_goals
    have hct : caller = .reader ∨ op.mapId ≠ .ct .tcp := by
      rcases hop with hop | hop
      · exact absurd (hdry.symm.trans hop) Bool.false_ne_true
      · exact Or.inr hop
    have hcall (b : Bool) : Later dryRun d (d.called caller op b) :=
      later_call caller op b d hct fun h => absurd (hdry.symm.trans h) Bool.false_ne_true
    rw [h]
  · exact trans_of (Later dryRun) (hcall true) (later_note (hnote _))
  · exact hcall false

theorem later_ok (m : DaemonM Bool) (hm : Steps (Later dryRun) m) :
    Steps (Later dryRun) (ok m) := by
  have hcount : Steps (Later dryRun)
      (modify fun d => { d with lastApplyFailures := d.lastApplyFailures + 1 } : DaemonM PUnit) :=
    fun d => ⟨rfl, ⟨[], rfl, nofun⟩, fun _ => rfl⟩
  apply steps_bind _ _ hm
  intro b
  cases b with
  | true => exact steps_pure _
  | false => exact steps_bind _ _ hcount fun _ => steps_pure _

theorem later_stepwise (dryRun : Bool) :
    Stepwise dryRun (Later dryRun) fun op => dryRun = true ∨ op.mapId ≠ .ct .tcp where
  counted op note hop hnote := later_ok _ (later_cachedCall .ok op note hop hnote)
  quiet caller op note _ hop hnote := later_cachedCall caller op note hop hnote
  read op hread _ := by
    intro d
    obtain ⟨b, hb⟩ := bpf_run .reader op d
    rw [hb]
    apply later_call .reader op b d (Or.inl rfl)
    intro _
    cases b with
    | true => exact reads_effect hread d.maps
    | false => rfl
  noted op note _ hnote := fun d => later_note (hnote d)
  outerSet m port capacity _ _ := by
    apply later_ok
    apply steps_get_all
    intro d
    apply steps_ite
    · exact fun _ => steps_pure _
    intro _
    apply steps_ite
    · exact fun _ => steps_pure _
    intro hdry
    have hcreate : Steps (Later dryRun) (bpf .ok (.createInner m port capacity)) := by
      intro d
      obtain ⟨b, hb⟩ := bpf_run .ok (.createInner m port capacity) d
      rw [hb]
      exact later_call .ok _ b d (Or.inr nofun) fun h => absurd h hdry
    have hslot : Steps (Later false) (cachedCall false .ok (.updateSlot m port)
        fun d => d.setOuterCache m ((d.outerCache m).insert port capacity)) :=
      later_cachedCall .ok _ _ (Or.inr nofun) fun _ => ⟨_, rfl⟩
    rw [Bool.not_eq_true] at hdry
    subst hdry
    apply steps_bind _ _ hcreate
    intro b
    exact steps_ite _ _ _ (fun _ => steps_pure _) fun _ => hslot

/-- What follows the first four loops, run to its end. -/
theorem rest_later (cfg : Config) (desired : DesiredState) (plan : ReconcilePlan) :
    Steps (Later dryRun) (do
      closeUdp plan dryRun
      protect cfg plan dryRun desired
      let d ← get
      if d.lastApplyFailures = 0 then expose plan dryRun) := by
  have h := later_stepwise dryRun
  have hne {op : BpfOp} (hop : op.mapId ≠ .ct .tcp) : dryRun = true ∨ op.mapId ≠ .ct .tcp :=
    Or.inr hop
  apply steps_bind _ _ (closeUdp_steps h plan (fun _ _ => hne nofun) fun _ => hne nofun)
  intro _
  apply steps_bind
  · apply steps_bind _ _ (applySctpDelta_steps h plan (fun _ _ => hne nofun) fun _ _ => hne nofun)
    intro _
    apply steps_bind _ _
      (applyTrustedDelta_steps h cfg plan (fun _ _ => hne nofun) fun _ _ => hne nofun)
    intro _
    apply steps_bind _ _ (applyLimits_steps h cfg desired plan (fun _ _ _ => hne nofun)
      (fun _ _ => hne nofun) (fun _ _ _ _ => ⟨hne nofun, hne nofun⟩) fun _ _ => hne nofun)
    intro _
    apply steps_bind _ _ (applyAclDelta_steps h plan (fun _ _ => hne nofun) fun _ _ => hne nofun)
    intro _
    exact applyRest_steps h cfg desired plan (hne nofun) (fun _ => hne nofun) (fun _ => hne nofun)
      (fun _ => hne nofun) fun _ => hne nofun
  intro _
  apply steps_get_all
  intro d
  apply steps_ite
  · exact fun _ => expose_steps h plan (fun _ _ => hne nofun) fun _ _ => hne nofun
  · exact fun _ => steps_pure _

theorem applyReconcilePlan_later (cfg : Config) (plan : ReconcilePlan) (desired : DesiredState)
    (d : Daemon) :
    Later dryRun (closeTcp plan dryRun { d with lastApplyFailures := 0 }).2
      (applyReconcilePlan cfg plan dryRun desired d).2 := by
  unfold applyReconcilePlan prepare
  simp only [run_bind, run_modify]
  exact rest_later cfg desired plan _

/-- A call that nothing interrupts ends where the model's `reconcile` ends. -/
theorem reconcile_ends (cfg : Config) (desired : DesiredState) (dryRun : Bool) (d : Daemon) :
    Call.Ends ⟨cfg, desired, dryRun, .later, d, (reconcile cfg desired dryRun d).2⟩ := by
  refine ⟨(applyReconcilePlan cfg (plannedAt cfg desired d).1 dryRun desired
    (plannedAt cfg desired d).2).2, ?_, ?_⟩
  · exact .later _ _ (applyReconcilePlan_later cfg _ desired _)
  · unfold reconcile plannedAt appliedAt restoreRounds
    rw [run_get_bind, run_bind, run_bind, run_bind]
    cases dryRun with
    | true => rw [if_pos rfl, if_pos rfl, run_modify]
    | false => rw [if_neg Bool.false_ne_true, if_neg Bool.false_ne_true, run_pure]

end Later

end AutoXdp.XdpBackend
