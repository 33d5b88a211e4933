import AutoXdp.StaleRounds
import Mathlib.Tactic.Basic

/-! A connection is deleted as stale after enough consecutive calls without it. -/
namespace AutoXdp.XdpBackend
open StateSteps

/-! The counts that a plan leaves. -/

/-- The count of a key, in a state. -/
def roundsOf (d : Daemon) (key : FlowKey) : Option ℕ := d.conntrackStaleRounds.lookup key

/-- One more than the count before, for the cached keys that are not desired. -/
def counted (d : Daemon) (desiredKeys : List FlowKey) (key : FlowKey) : Option ℕ :=
  if key ∈ d.ctCache .tcp ∧ key ∉ desiredKeys then some ((roundsOf d key).getD 0 + 1) else none

/-- The keys whose count is high enough. -/
def readyOf (cfg : Config) (d : Daemon) (toRemove : List FlowKey) : List FlowKey :=
  toRemove.filter fun key => cfg.xdpConntrackStaleReconciles ≤ (roundsOf d key).getD 0 + 1

theorem popStaleRounds_roundsOf (key k : FlowKey) (d : Daemon) :
    roundsOf (popStaleRounds key d) k = if k = key then none else roundsOf d k := by
  unfold roundsOf popStaleRounds
  split
  · next h => rw [h, AList.lookup_erase]
  · next h => exact AList.lookup_erase_ne h

theorem setStaleRounds_roundsOf (key k : FlowKey) (n : ℕ) (d : Daemon) :
    roundsOf (setStaleRounds key n d) k = if k = key then some n else roundsOf d k := by
  unfold roundsOf setStaleRounds
  split
  · next h => rw [h, AList.lookup_insert]
  · next h => exact AList.lookup_insert_ne h

/-- Only the counts differ. -/
def Recounted (d d' : Daemon) : Prop := ∃ t, d' = { d with conntrackStaleRounds := t }

instance : IsPreorder Daemon Recounted where
  refl d := ⟨d.conntrackStaleRounds, rfl⟩
  trans d e f h h' := by
    obtain ⟨t, rfl⟩ := h
    obtain ⟨u, rfl⟩ := h'
    exact ⟨u, rfl⟩

theorem popAll_run (keys : List FlowKey) (d : Daemon) :
    let d' := (keys.forM (fun key => (modify (popStaleRounds key) : DaemonM PUnit)) d).2
    Recounted d d' ∧ ∀ k, roundsOf d' k = if k ∈ keys then none else roundsOf d k := by
  induction keys generalizing d with
  | nil => exact ⟨⟨d.conntrackStaleRounds, rfl⟩, fun k => (if_neg List.not_mem_nil).symm⟩
  | cons key keys ih =>
    obtain ⟨hsame, hrounds⟩ := ih (popStaleRounds key d)
    refine ⟨trans_of Recounted ⟨_, rfl⟩ hsame, ?_⟩
    intro k
    refine (hrounds k).trans ?_
    rw [popStaleRounds_roundsOf]
    by_cases hk : k = key
    · have hmem : k ∈ key :: keys := List.mem_cons.mpr (Or.inl hk)
      rw [if_pos hk, if_pos hmem, ite_self]
    · have hmem : k ∈ key :: keys ↔ k ∈ keys := by rw [List.mem_cons, or_iff_right hk]
      rw [if_neg hk]
      exact if_congr hmem.symm rfl rfl

/-- The loop of increments. Each key is counted once, so a count depends on the state
before the loop only. -/
theorem missAll_run (cfg : Config) (keys ready : List FlowKey) (hkeys : keys.Nodup)
    (d : Daemon) :
    let r := keys.foldlM (missStale cfg) ready d
    r.1 = ready ++ readyOf cfg d keys ∧ Recounted d r.2 ∧
      ∀ k, roundsOf r.2 k =
        if k ∈ keys then some ((roundsOf d k).getD 0 + 1) else roundsOf d k := by
  induction keys generalizing ready d with
  | nil =>
    exact ⟨(List.append_nil ready).symm, ⟨d.conntrackStaleRounds, rfl⟩,
      fun k => (if_neg List.not_mem_nil).symm⟩
  | cons key keys ih =>
    obtain ⟨hkey, hnodup⟩ := List.nodup_cons.mp hkeys
    let n := (roundsOf d key).getD 0 + 1
    let e := setStaleRounds key n d
    have hne (k : FlowKey) (hk : k ∈ keys) : roundsOf e k = roundsOf d k := by
      have hkk : k ≠ key := ne_of_mem_of_not_mem hk hkey
      rw [setStaleRounds_roundsOf, if_neg hkk]
    have hstep : missStale cfg ready key d =
        (if cfg.xdpConntrackStaleReconciles ≤ n then ready ++ [key] else ready, e) := rfl
    obtain ⟨hready, hsame, hrounds⟩ :=
      ih (if cfg.xdpConntrackStaleReconciles ≤ n then ready ++ [key] else ready) hnodup e
    have hrest : readyOf cfg e keys = readyOf cfg d keys := by
      apply List.filter_congr
      intro k hk
      rw [hne k hk]
    simp only [List.foldlM_cons, run_bind, hstep]
    refine ⟨?_, trans_of Recounted ⟨_, rfl⟩ hsame, ?_⟩
    · rw [hready, hrest]
      by_cases hn : cfg.xdpConntrackStaleReconciles ≤ n
      · have hcons : readyOf cfg d (key :: keys) = key :: readyOf cfg d keys :=
          List.filter_cons_of_pos (decide_eq_true hn)
        rw [if_pos hn, hcons, List.append_assoc]
        rfl
      · have hcons : readyOf cfg d (key :: keys) = readyOf cfg d keys :=
          List.filter_cons_of_neg fun h => hn (of_decide_eq_true h)
        rw [if_neg hn, hcons]
    · intro k
      rw [hrounds k]
      by_cases hk : k ∈ keys
      · rw [if_pos hk, if_pos (List.mem_cons_of_mem key hk), hne k hk]
      · rw [if_neg hk, setStaleRounds_roundsOf]
        by_cases hkk : k = key
        · have hmem : k ∈ key :: keys := List.mem_cons.mpr (Or.inl hkk)
          rw [if_pos hkk, if_pos hmem, hkk]
        · have hmem : k ∉ key :: keys := by
            rw [List.mem_cons, not_or]
            exact ⟨hkk, hk⟩
          rw [if_neg hkk, if_neg hmem]

theorem countStaleRounds_run (cfg : Config) (desiredKeys toRemove : List FlowKey)
    (hnodup : toRemove.Nodup) (hdisjoint : ∀ k ∈ toRemove, k ∉ desiredKeys) (d : Daemon) :
    let r := countStaleRounds cfg desiredKeys toRemove d
    r.1 = readyOf cfg d toRemove ∧ Recounted d r.2 ∧
      ∀ k, roundsOf r.2 k =
        if k ∈ toRemove then some ((roundsOf d k).getD 0 + 1) else none := by
  obtain ⟨hpop, hpopped⟩ := popAll_run desiredKeys d
  let e := (desiredKeys.forM (fun key => (modify (popStaleRounds key) : DaemonM PUnit)) d).2
  obtain ⟨hready, hmiss, hmissed⟩ := missAll_run cfg toRemove [] hnodup e
  let f := (toRemove.foldlM (missStale cfg) [] e).2
  obtain ⟨hlast, hrounds⟩ := popAll_run (setDiff f.conntrackStaleRounds.keys toRemove) f
  have hkept (k : FlowKey) (hk : k ∈ toRemove) : roundsOf e k = roundsOf d k := by
    rw [hpopped k, if_neg (hdisjoint k hk)]
  refine ⟨?_, trans_of Recounted (trans_of Recounted hpop hmiss) hlast, ?_⟩
  · refine hready.trans ?_
    rw [List.nil_append]
    apply List.filter_congr
    intro k hk
    rw [hkept k hk]
  · intro k
    refine (hrounds k).trans ?_
    by_cases hk : k ∈ toRemove
    · have hleft : k ∉ setDiff f.conntrackStaleRounds.keys toRemove :=
        fun h => ((mem_setDiff _ _ _).mp h).2 hk
      rw [if_neg hleft, hmissed k, if_pos hk, if_pos hk, hkept k hk]
    · rw [if_neg hk]
      by_cases hf : k ∈ f.conntrackStaleRounds.keys
      · exact if_pos ((mem_setDiff _ _ _).mpr ⟨hf, hk⟩)
      · have hnone : roundsOf f k = none := AList.lookup_eq_none.mpr hf
        rw [hnone, ite_self]

/-! What the other parts of a call do to the counts. -/

/-- No deletion as stale; the counts of the keys in `S` may go. -/
structure Quiet (S : FlowKey → Prop) (d d' : Daemon) : Prop where
  calls : ∃ new, d'.log = new ++ d.log ∧ new.filterMap staleOf = []
  rounds : ∀ k, roundsOf d' k = roundsOf d k ∨ S k ∧ roundsOf d' k = none

instance (S : FlowKey → Prop) : IsPreorder Daemon (Quiet S) where
  refl d := ⟨⟨[], rfl, rfl⟩, fun _ => Or.inl rfl⟩
  trans d e f h h' := by
    obtain ⟨new, hlog, hnew⟩ := h.calls
    obtain ⟨new', hlog', hnew'⟩ := h'.calls
    refine ⟨⟨new' ++ new, ?_, ?_⟩, ?_⟩
    · rw [hlog', hlog, List.append_assoc]
    · rw [List.filterMap_append, hnew, hnew', List.append_nil]
    · intro k
      rcases h'.rounds k with hk | hk
      · rw [hk]
        exact h.rounds k
      · exact Or.inr hk

section Quiet

variable {S : FlowKey → Prop}

theorem staleOf_none (c : BpfCall) (h : c.caller = .reader ∨ c.op.mapId ≠ .ct .tcp) :
    staleOf c = none := by
  obtain ⟨caller, op, ok⟩ := c
  unfold staleOf
  split
  · next heq =>
    obtain ⟨rfl, rfl, rfl⟩ := BpfCall.mk.inj heq
    rcases h with h | h
    · exact absurd h nofun
    · exact absurd rfl h
  · rfl

theorem quiet_of_later {dryRun : Bool} {d d' : Daemon} (h : Later dryRun d d') : Quiet S d d' := by
  obtain ⟨new, hlog, hnew⟩ := h.calls
  refine ⟨⟨new, hlog, ?_⟩, ?_⟩
  · rw [List.filterMap_eq_nil_iff]
    exact fun c hc => staleOf_none c (hnew c hc)
  · exact fun k => Or.inl (congrArg (AList.lookup k) h.rounds)

theorem quiet_cachedCall (dryRun : Bool) (caller : Caller) (op : BpfOp) (note : Daemon → Daemon)
    (hcall : ∀ b, staleOf ⟨caller, op, b⟩ = none) (hnote : ∀ d, op.Notes d (note d)) :
    Steps (Quiet S) (cachedCall dryRun caller op note) := by
  intro d
  have hcalled (b : Bool) : Quiet S d (d.called caller op b) :=
    ⟨⟨[⟨caller, op, b⟩], rfl, List.filterMap_eq_nil_iff.mpr (by
      intro c hc
      rw [List.mem_singleton.mp hc]
      exact hcall b)⟩, fun _ => Or.inl rfl⟩
  rcases cachedCall_cases dryRun caller op note d with ⟨-, h⟩ | ⟨-, h⟩ | ⟨-, h⟩
  · rw [h]
    exact refl_of (Quiet S) d
  · rw [h]
    have hlater : Later false (d.called caller op true) (note (d.called caller op true)) :=
      later_note (hnote _)
    exact trans_of (Quiet S) (hcalled true) (quiet_of_later hlater)
  · rw [h]
    exact hcalled false

theorem quiet_ok (m : DaemonM Bool) (hm : Steps (Quiet S) m) : Steps (Quiet S) (ok m) := by
  have hcount : Steps (Quiet S)
      (modify fun d => { d with lastApplyFailures := d.lastApplyFailures + 1 } : DaemonM PUnit) :=
    fun d => ⟨⟨[], rfl, rfl⟩, fun _ => Or.inl rfl⟩
  apply steps_bind _ _ hm
  intro b
  cases b with
  | true => exact steps_pure _
  | false => exact steps_bind _ _ hcount fun _ => steps_pure _

theorem quiet_pop (key : FlowKey) (hkey : S key) :
    Steps (Quiet S) (modify (popStaleRounds key) : DaemonM PUnit) := by
  refine fun d => ⟨⟨[], rfl, rfl⟩, fun k => ?_⟩
  have hrounds := popStaleRounds_roundsOf key k d
  by_cases hk : k = key
  · exact Or.inr ⟨hk ▸ hkey, hrounds.trans (if_pos hk)⟩
  · exact Or.inl (hrounds.trans (if_neg hk))

theorem setPorts_quiet (ports : List U32) (dryRun : Bool) :
    Steps (Quiet S) (setPorts .tcp ports 0 dryRun) := by
  have hports := setPorts_steps (later_stepwise dryRun) .tcp ports 0 fun _ _ => Or.inr nofun
  exact fun d => quiet_of_later (hports d)

theorem deleteKeys_quiet (keys : List FlowKey) (dryRun : Bool) :
    Steps (Quiet S) (keys.forM fun key =>
      discard (BpfConntrackMaps.delete .tcp .deleteDestPorts key dryRun)) := by
  apply steps_forM
  intro key _
  exact steps_discard _ (quiet_cachedCall dryRun _ _ _ (fun _ => rfl) fun _ => ⟨_, rfl⟩)

theorem seedConntrack_quiet (keys : List FlowKey) (dryRun : Bool) (hS : ∀ key ∈ keys, S key) :
    Steps (Quiet S) (seedConntrack keys dryRun) := by
  apply steps_forM
  intro key hkey
  apply steps_bind
  · refine quiet_ok _ fun d => ?_
    exact quiet_cachedCall dryRun .ok (.updateCt .tcp key (d.monotonicNs d.log.length))
      (fun d => d.setCtCache .tcp (setAdd key (d.ctCache .tcp))) (fun _ => rfl)
      (fun _ => ⟨_, rfl⟩) d
  · intro b
    exact steps_ite _ _ _ (fun _ => quiet_pop key (hS key hkey)) fun _ => steps_pure _

/-- Everything before the loop of stale deletions. -/
theorem beforeRemoval_quiet (ports : List U32) (keys : List FlowKey) (dryRun : Bool)
    (hS : ∀ key ∈ keys, S key) :
    Steps (Quiet S) (do
      setPorts .tcp ports 0 dryRun
      BpfConntrackMaps.deleteDestPorts .tcp ports dryRun
      seedConntrack keys dryRun) := by
  apply steps_bind _ _ (setPorts_quiet _ dryRun)
  intro _
  apply steps_bind
  · apply steps_get_all
    exact fun d => deleteKeys_quiet _ dryRun
  · exact fun _ => seedConntrack_quiet _ dryRun hS

end Quiet

/-! The loop of stale deletions. -/

/-- A counted deletion, and the count that goes with it. -/
theorem okThenPop_run (m : DaemonM Bool) (key : FlowKey) (b : Bool) (d e : Daemon)
    (hm : m d = (b, e)) :
    ∃ n, ((do if ← ok m then modify (popStaleRounds key) : DaemonM PUnit) d).2 =
      if b then popStaleRounds key e else { e with lastApplyFailures := n } := by
  cases b with
  | true =>
    refine ⟨0, ?_⟩
    simp only [ok, run_bind, hm]
    rfl
  | false =>
    refine ⟨e.lastApplyFailures + 1, ?_⟩
    simp only [ok, run_bind, hm]
    rfl

/-- One item of the loop of `removeStaleConntrack`. -/
def removeStale (key : FlowKey) : DaemonM PUnit := do
  if ← ok (BpfConntrackMaps.delete .tcp .ok key false) then modify (popStaleRounds key)

/-- A call on the key, whose count goes when the call succeeds. -/
theorem removeStale_run (key : FlowKey) (d : Daemon) :
    let d' := (removeStale key d).2
    ∃ b, d'.log = ⟨.ok, .deleteCt .tcp key, b⟩ :: d.log ∧
      ∀ k, roundsOf d' k = if k = key ∧ b = true then none else roundsOf d k := by
  let note : Daemon → Daemon := fun d => d.setCtCache .tcp (setDiscard key (d.ctCache .tcp))
  rcases cachedCall_cases false .ok (.deleteCt .tcp key) note d with ⟨h, -⟩ | ⟨-, h⟩ | ⟨-, h⟩
  · exact absurd h Bool.false_ne_true
  · obtain ⟨n, hrun⟩ := okThenPop_run (BpfConntrackMaps.delete .tcp .ok key false) key _ d _ h
    refine ⟨true, congrArg Daemon.log hrun, fun k => ?_⟩
    refine (congrArg (roundsOf · k) hrun).trans ?_
    rw [if_pos rfl, popStaleRounds_roundsOf]
    exact if_congr (and_iff_left rfl).symm rfl rfl
  · obtain ⟨n, hrun⟩ := okThenPop_run (BpfConntrackMaps.delete .tcp .ok key false) key _ d _ h
    refine ⟨false, congrArg Daemon.log hrun, fun k => ?_⟩
    refine (congrArg (roundsOf · k) hrun).trans ?_
    rw [if_neg Bool.false_ne_true, if_neg fun hh => Bool.false_ne_true hh.2]
    rfl

/-- Each key is tried once, in order; a count goes exactly when its key is deleted. -/
theorem removeStaleConntrack_run (keys : List FlowKey) (d : Daemon) :
    let d' := (removeStaleConntrack keys false d).2
    ∃ new, d'.log = new ++ d.log ∧ (new.filterMap staleOf).map Prod.fst = keys.reverse ∧
      ∀ k, roundsOf d' k = if (k, true) ∈ new.filterMap staleOf then none else roundsOf d k := by
  induction keys generalizing d with
  | nil => exact ⟨[], rfl, rfl, fun k => (if_neg List.not_mem_nil).symm⟩
  | cons key keys ih =>
    obtain ⟨b, hlog, hrounds⟩ := removeStale_run key d
    obtain ⟨new, hnewlog, hkeys, hnew⟩ := ih (removeStale key d).2
    have hcons : (new ++ [(⟨.ok, .deleteCt .tcp key, b⟩ : BpfCall)]).filterMap staleOf =
        new.filterMap staleOf ++ [(key, b)] := by
      rw [List.filterMap_append]
      rfl
    refine ⟨new ++ [⟨.ok, .deleteCt .tcp key, b⟩], ?_, ?_, ?_⟩
    · rw [List.append_assoc, List.singleton_append, ← hlog]
      exact hnewlog
    · rw [hcons, List.map_append, hkeys, List.reverse_cons]
      rfl
    · intro k
      rw [hcons]
      refine (hnew k).trans ?_
      rw [hrounds k]
      simp only [List.mem_append, List.mem_singleton, Prod.mk.injEq, eq_comm]
      by_cases hk : (k, true) ∈ new.filterMap staleOf
      · rw [if_pos hk, if_pos (Or.inl hk)]
      · rw [if_neg hk]
        exact if_congr (or_iff_right hk).symm rfl rfl

/-! One whole call. -/

/-- The keys that the plan deletes as stale. -/
def readyKeys (cfg : Config) (desired : DesiredState) (d : Daemon) : List FlowKey :=
  readyOf cfg d (setDiff (d.ctCache .tcp) desired.conntrackEntries)

/-- Computing the plan counts one more round, and deletes nothing. -/
theorem plannedAt_counts (cfg : Config) (desired : DesiredState) (d : Daemon)
    (hcache : (d.ctCache .tcp).Nodup) :
    let p := plannedAt cfg desired d
    p.1.conntrackEntriesToRemove = readyKeys cfg desired d ∧
      (∀ key ∈ p.1.conntrackEntriesToAdd, key ∈ desired.conntrackEntries) ∧
      (∃ new, p.2.log = new ++ d.log ∧ new.filterMap staleOf = []) ∧ p.2.maps = d.maps ∧
      ∀ k, roundsOf p.2 k = counted d desired.conntrackEntries k := by
  obtain ⟨bogon, dropEvents, rate, runtime, happlied⟩ := appliedAt_run d
  let toRemove := setDiff (d.ctCache .tcp) desired.conntrackEntries
  have htoRemove : (computeReconcilePlan desired (appliedAt d).1).conntrackEntriesToRemove =
      toRemove := by
    rw [happlied]
    rfl
  let found := BpfConntrackMaps.existingKeys .tcp desired.conntrackEntries (appliedAt d).2
  have hread : Later true d found.2 :=
    trans_of (Later true)
      (getAppliedState_steps (later_stepwise true) (Or.inl rfl) (Or.inl rfl) d)
      (existingKeys_steps (later_stepwise true) .tcp _ (fun _ => Or.inl rfl) _)
  have hkept (k : FlowKey) : roundsOf found.2 k = roundsOf d k :=
    congrArg (AList.lookup k) hread.rounds
  obtain ⟨hready, ⟨t, hsame⟩, hrounds⟩ := countStaleRounds_run cfg desired.conntrackEntries
    toRemove (hcache.filter _) (fun k hk => ((mem_setDiff _ _ _).mp hk).2) found.2
  have hplan := plannedAt_run cfg desired d
  simp only [htoRemove] at hplan
  simp only [hplan]
  refine ⟨?_, ?_, ?_, ?_, ?_⟩
  · refine hready.trans ?_
    apply List.filter_congr
    intro k _
    rw [hkept k]
  · exact fun key hkey => ((mem_setDiff _ _ _).mp hkey).1
  · have hquiet : Quiet (fun _ => False) d found.2 := quiet_of_later hread
    obtain ⟨new, hlog, hnew⟩ := hquiet.calls
    exact ⟨new, (congrArg Daemon.log hsame).trans hlog, hnew⟩
  · exact (congrArg Daemon.maps hsame).trans (hread.maps rfl)
  · intro k
    refine (hrounds k).trans ?_
    rw [hkept k, counted]
    exact if_congr (mem_setDiff _ _ _) rfl rfl

/-- Where the maps are kept and nothing is deleted as stale. -/
structure Calm (d d' : Daemon) : Prop where
  maps : d'.maps = d.maps
  calls : ∃ new, d'.log = new ++ d.log ∧ new.filterMap staleOf = []

instance : IsPreorder Daemon Calm where
  refl d := ⟨rfl, [], rfl, rfl⟩
  trans d e f h h' := by
    obtain ⟨new, hlog, hnew⟩ := h.calls
    obtain ⟨new', hlog', hnew'⟩ := h'.calls
    refine ⟨h'.maps.trans h.maps, new' ++ new, ?_, ?_⟩
    · rw [hlog', hlog, List.append_assoc]
    · rw [List.filterMap_append, hnew, hnew', List.append_nil]

theorem calm_of_later {d d' : Daemon} (h : Later true d d') : Calm d d' :=
  ⟨h.maps rfl, (quiet_of_later (S := fun _ => False) h).calls⟩

theorem calm_stepwise : Stepwise true Calm fun _ => True where
  counted op note _ hnote :=
    steps_mono _ ((later_stepwise true).counted op note (Or.inl rfl) hnote) fun _ _ => calm_of_later
  quiet caller op note hcaller _ hnote :=
    steps_mono _ ((later_stepwise true).quiet caller op note hcaller (Or.inl rfl) hnote)
      fun _ _ => calm_of_later
  read op hread _ :=
    steps_mono _ ((later_stepwise true).read op hread (Or.inl rfl)) fun _ _ => calm_of_later
  noted op note _ hnote :=
    steps_mono _ ((later_stepwise true).noted op note (Or.inl rfl) hnote) fun _ _ => calm_of_later
  outerSet m port capacity _ _ :=
    steps_mono _ ((later_stepwise true).outerSet m port capacity (Or.inl rfl) (Or.inl rfl))
      fun _ _ => calm_of_later

theorem calm_rounds : RoundSteps Calm := fun _ _ => ⟨rfl, [], rfl, rfl⟩

theorem closeTcpUntil_calm (plan : ReconcilePlan) (stop : Stop) :
    Steps Calm (closeTcpUntil plan true stop) := by
  have hports (ports : List U32) : Steps Calm (setPorts .tcp ports 0 true) :=
    setPorts_steps calm_stepwise .tcp ports 0 fun _ _ => trivial
  have hpurge : Steps Calm (BpfConntrackMaps.deleteDestPorts .tcp plan.tcpPortsToRemove true) :=
    deleteDestPorts_steps calm_stepwise .tcp _ fun _ _ => trivial
  have hseed (keys : List FlowKey) : Steps Calm (seedConntrack keys true) :=
    seedConntrack_steps calm_stepwise calm_rounds keys fun _ _ _ => trivial
  have hremove (keys : List FlowKey) : Steps Calm (removeStaleConntrack keys true) :=
    removeStaleConntrack_steps calm_stepwise calm_rounds keys fun _ _ => trivial
  cases stop with
  | closing n => exact hports _
  | purging n =>
    apply steps_bind _ _ (hports _)
    intro _
    apply steps_get_all
    intro d
    apply steps_forM
    intro key _
    exact steps_discard _ (calm_stepwise.quiet _ _ _ (Or.inl rfl) trivial fun _ => ⟨_, rfl⟩)
  | seeding n =>
    exact steps_bind _ _ (hports _) fun _ => steps_bind _ _ hpurge fun _ => hseed _
  | removing n =>
    exact steps_bind _ _ (hports _) fun _ => steps_bind _ _ hpurge fun _ =>
      steps_bind _ _ (hseed _) fun _ => hremove _
  | later =>
    exact steps_bind _ _ (hports _) fun _ => steps_bind _ _ hpurge fun _ =>
      steps_bind _ _ (hseed _) fun _ => hremove _

/-- How many keys the loop of stale deletions gets to. -/
def Stop.removed : Stop → List FlowKey → List FlowKey
  | .removing n, keys => keys.take n
  | .later, keys => keys
  | _, _ => []

/-- The first four loops from a state in which no key to add has a count. -/
theorem closeTcpUntil_run (plan : ReconcilePlan) (stop : Stop) (d : Daemon)
    (hadd : ∀ key ∈ plan.conntrackEntriesToAdd, roundsOf d key = none) :
    let d' := (closeTcpUntil plan false stop d).2
    ∃ new, d'.log = new ++ d.log ∧
      (new.filterMap staleOf).map Prod.fst = (stop.removed plan.conntrackEntriesToRemove).reverse ∧
      ∀ k, roundsOf d' k = if (k, true) ∈ new.filterMap staleOf then none else roundsOf d k := by
  let S : FlowKey → Prop := (· ∈ plan.conntrackEntriesToAdd)
  -- a quiet part drops the counts of keys to add only, and these have none
  have hsame {e : Daemon} (h : Quiet S d e) (k : FlowKey) : roundsOf e k = roundsOf d k := by
    rcases h.rounds k with hk | ⟨hk, hnone⟩
    · exact hk
    · rw [hnone, hadd k hk]
  have hquiet {e : Daemon} (h : Quiet S d e) (hstop : stop.removed plan.conntrackEntriesToRemove = []) :
      ∃ new, e.log = new ++ d.log ∧
        (new.filterMap staleOf).map Prod.fst = (stop.removed plan.conntrackEntriesToRemove).reverse ∧
        ∀ k, roundsOf e k = if (k, true) ∈ new.filterMap staleOf then none else roundsOf d k := by
    obtain ⟨new, hlog, hnew⟩ := h.calls
    refine ⟨new, hlog, by rw [hnew, hstop]; rfl, fun k => ?_⟩
    rw [hnew, if_neg List.not_mem_nil]
    exact hsame h k
  have hremove {e : Daemon} (h : Quiet S d e) (keys : List FlowKey)
      (hstop : stop.removed plan.conntrackEntriesToRemove = keys) :
      ∃ new, (removeStaleConntrack keys false e).2.log = new ++ d.log ∧
        (new.filterMap staleOf).map Prod.fst = (stop.removed plan.conntrackEntriesToRemove).reverse ∧
        ∀ k, roundsOf (removeStaleConntrack keys false e).2 k =
          if (k, true) ∈ new.filterMap staleOf then none else roundsOf d k := by
    obtain ⟨new, hlog, hnew⟩ := h.calls
    obtain ⟨deleted, hdlog, hkeys, hrounds⟩ := removeStaleConntrack_run keys e
    have hmap : (deleted ++ new).filterMap staleOf = deleted.filterMap staleOf := by
      rw [List.filterMap_append, hnew, List.append_nil]
    refine ⟨deleted ++ new, ?_, ?_, fun k => ?_⟩
    · rw [List.append_assoc, ← hlog]
      exact hdlog
    · rw [hmap, hstop]
      exact hkeys
    · rw [hmap, ← hsame h k]
      exact hrounds k
  have hbefore : Quiet S d _ :=
    beforeRemoval_quiet plan.tcpPortsToRemove plan.conntrackEntriesToAdd false (fun _ hkey => hkey) d
  cases stop with
  | closing n => exact hquiet (setPorts_quiet _ false d) rfl
  | purging n =>
    refine hquiet ?_ rfl
    refine trans_of (Quiet S) (setPorts_quiet plan.tcpPortsToRemove false d) ?_
    exact deleteKeys_quiet _ false _
  | seeding n =>
    refine hquiet ?_ rfl
    exact beforeRemoval_quiet plan.tcpPortsToRemove _ false (fun _ => List.mem_of_mem_take) d
  | removing n => exact hremove hbefore _ rfl
  | later => exact hremove hbefore _ rfl

/-- The whole application, which may raise. -/
theorem Applied.run {plan : ReconcilePlan} {stop : Stop} {d e : Daemon}
    (h : Applied plan false stop d e)
    (hadd : ∀ key ∈ plan.conntrackEntriesToAdd, roundsOf d key = none) :
    ∃ new, e.log = new ++ d.log ∧
      (new.filterMap staleOf).map Prod.fst = (stop.removed plan.conntrackEntriesToRemove).reverse ∧
      ∀ k, roundsOf e k = if (k, true) ∈ new.filterMap staleOf then none else roundsOf d k := by
  cases h with
  | raised stop d hstop => exact closeTcpUntil_run plan stop { d with lastApplyFailures := 0 } hadd
  | later d e hlater =>
    obtain ⟨new, hlog, hkeys, hrounds⟩ :=
      closeTcpUntil_run plan .later { d with lastApplyFailures := 0 } hadd
    have hquiet : Quiet (fun _ => False) _ e := quiet_of_later hlater
    obtain ⟨rest, hrlog, hrnew⟩ := hquiet.calls
    have hmap : (rest ++ new).filterMap staleOf = new.filterMap staleOf := by
      rw [List.filterMap_append, hrnew, List.nil_append]
    refine ⟨rest ++ new, ?_, ?_, fun k => ?_⟩
    · rw [List.append_assoc, hrlog]
      exact congrArg (rest ++ ·) hlog
    · rw [hmap]
      exact hkeys
    · rw [hmap]
      exact (congrArg (AList.lookup k) hlater.rounds).trans (hrounds k)

theorem Applied.calm {plan : ReconcilePlan} {stop : Stop} {d e : Daemon}
    (h : Applied plan true stop d e) : Calm d e := by
  have hreset (d : Daemon) : Calm d { d with lastApplyFailures := 0 } := ⟨rfl, [], rfl, rfl⟩
  cases h with
  | raised stop d hstop => exact trans_of Calm (hreset d) (closeTcpUntil_calm plan stop _)
  | later d e hlater =>
    have hclose := closeTcpUntil_calm plan .later { d with lastApplyFailures := 0 }
    exact trans_of Calm (hreset d) (trans_of Calm hclose (calm_of_later hlater))

/-- What a call that is not a dry run does, returning or raising: the stale keys that it
gets to are tried once each, and a count stays unless its key is deleted. -/
theorem Call.Ends.run {c : Call} (h : c.Ends) (hdry : c.dryRun = false)
    (hcache : (c.before.ctCache .tcp).Nodup) :
    c.staleDeletes.map Prod.fst =
        (c.stop.removed (readyKeys c.cfg c.desired c.before)).reverse ∧
      ∀ k, roundsOf c.after k =
        if (k, true) ∈ c.staleDeletes then none
        else counted c.before c.desired.conntrackEntries k := by
  obtain ⟨e, happlied, hafter⟩ := h
  rw [hdry] at happlied hafter
  obtain ⟨hremove, hadd, ⟨new, hlog, hnew⟩, -, hrounds⟩ :=
    plannedAt_counts c.cfg c.desired c.before hcache
  obtain ⟨applied, halog, hkeys, hcounts⟩ := happlied.run fun key hkey =>
    (hrounds key).trans (if_neg fun hh => hh.2 (hadd key hkey))
  have hafter' : c.after = e := hafter
  have hall : c.after.log = (applied ++ new) ++ c.before.log := by
    rw [hafter', halog, hlog, List.append_assoc]
  have hdeletes : c.staleDeletes = applied.filterMap staleOf := by
    rw [Call.staleDeletes, callsSince_eq hall, List.filterMap_append, hnew, List.append_nil]
  rw [hdeletes, hafter']
  refine ⟨?_, fun k => ?_⟩
  · rw [hkeys, hremove]
  · rw [hcounts k, hrounds k]

/-- A dry run deletes nothing, and leaves the kernel and the counts. -/
theorem Call.Ends.dry {c : Call} (h : c.Ends) (hdry : c.dryRun = true)
    (hcache : (c.before.ctCache .tcp).Nodup) :
    c.staleDeletes = [] ∧ c.after.conntrackStaleRounds = c.before.conntrackStaleRounds ∧
      c.after.maps = c.before.maps := by
  obtain ⟨e, happlied, hafter⟩ := h
  rw [hdry] at happlied hafter
  obtain ⟨-, -, hplanned, hmaps, -⟩ := plannedAt_counts c.cfg c.desired c.before hcache
  have hcalm : Calm c.before e := trans_of Calm ⟨hmaps, hplanned⟩ happlied.calm
  obtain ⟨new, hlog, hnew⟩ := hcalm.calls
  have hafter' : c.after = { e with conntrackStaleRounds := c.before.conntrackStaleRounds } := hafter
  have hall : c.after.log = new ++ c.before.log := by
    rw [hafter']
    exact hlog
  refine ⟨?_, by rw [hafter'], by rw [hafter']; exact hcalm.maps⟩
  rw [Call.staleDeletes, callsSince_eq hall]
  exact hnew

/-- A key whose deletion failed is deleted under no other entry of the same call. -/
theorem Call.Ends.failed {c : Call} (h : c.Ends) (hdry : c.dryRun = false)
    (hcache : (c.before.ctCache .tcp).Nodup) {key : FlowKey} (hkey : (key, false) ∈ c.staleDeletes) :
    (key, true) ∉ c.staleDeletes := by
  have hready : (readyKeys c.cfg c.desired c.before).Nodup := (hcache.filter _).filter _
  have hremoved : (c.stop.removed (readyKeys c.cfg c.desired c.before)).Nodup := by
    cases c.stop with
    | removing n => exact hready.take
    | later => exact hready
    | _ => exact List.nodup_nil
  have hnodup : (c.staleDeletes.map Prod.fst).Nodup := by
    rw [(h.run hdry hcache).1]
    exact List.nodup_reverse.mpr hremoved
  intro htrue
  have heq := List.inj_on_of_nodup_map hnodup hkey htrue rfl
  exact Bool.false_ne_true (Prod.mk.inj heq).2

/-- The keys tried are cached, not desired, and counted often enough. -/
theorem mem_readyKeys (cfg : Config) (desired : DesiredState) (d : Daemon) (key : FlowKey) :
    key ∈ readyKeys cfg desired d ↔
      (key ∈ d.ctCache .tcp ∧ key ∉ desired.conntrackEntries) ∧
        cfg.xdpConntrackStaleReconciles ≤ (roundsOf d key).getD 0 + 1 := by
  rw [readyKeys, readyOf, List.mem_filter, mem_setDiff, decide_eq_true_eq]

theorem removed_subset (stop : Stop) (keys : List FlowKey) {key : FlowKey}
    (h : key ∈ stop.removed keys) : key ∈ keys := by
  cases stop with
  | removing n => exact List.mem_of_mem_take h
  | later => exact h
  | _ => exact absurd h List.not_mem_nil

/-! Every run. -/

/-- A call that ended, in a run of calls. -/
theorem Run.last {c : Call} {history : List Call} {d : Daemon} (h : Run (c :: history) d) :
    Run history c.before ∧ (c.before.ctCache .tcp).Nodup ∧ c.Ends ∧
      d.conntrackStaleRounds = c.after.conntrackStaleRounds := by
  generalize hl : c :: history = l at h
  induction h with
  | start d h => exact absurd hl (List.cons_ne_nil c history)
  | between d' hrun hsame ih =>
    obtain ⟨hbefore, hcache, hends, hrounds⟩ := ih hl
    exact ⟨hbefore, hcache, hends, hsame.trans hrounds⟩
  | reconcile c' hrun hcache hends ih =>
    obtain ⟨rfl, rfl⟩ := List.cons.inj hl
    exact ⟨hrun, hcache, hends, rfl⟩

theorem recent_cons (c : Call) (history : List Call) :
    recent (c :: history) = if c.dryRun then recent history else c :: recent history := by
  unfold recent
  cases h : c.dryRun with
  | true => exact List.filter_cons_of_neg (by rw [h]; exact Bool.false_ne_true)
  | false => exact List.filter_cons_of_pos (by rw [h]; rfl)

theorem misses_cons (key : FlowKey) (c : Call) (history : List Call) (hdry : c.dryRun = false) :
    misses key (c :: history) =
      if key ∈ c.desired.conntrackEntries then 0 else misses key history + 1 := by
  unfold misses
  rw [recent_cons, hdry, if_neg Bool.false_ne_true]
  by_cases hkey : key ∈ c.desired.conntrackEntries
  · rw [if_pos hkey, List.takeWhile_cons_of_neg (by simpa using hkey), List.length_nil]
  · rw [if_neg hkey, List.takeWhile_cons_of_pos (by simpa using hkey), List.length_cons]

/-- A count never exceeds the number of last calls that did not desire its key. -/
theorem Run.rounds_le {history : List Call} {d : Daemon} (h : Run history d) (key : FlowKey) :
    (roundsOf d key).getD 0 ≤ misses key history := by
  induction h with
  | start d h => exact Nat.le_of_eq (by rw [roundsOf, h]; rfl)
  | between d' hrun hsame ih =>
    have hkept : roundsOf d' key = _ := congrArg (AList.lookup key) hsame
    rw [hkept]
    exact ih
  | reconcile c hrun hcache hends ih =>
    cases hdry : c.dryRun with
    | true =>
      have hkept : roundsOf c.after key = roundsOf c.before key :=
        congrArg (AList.lookup key) (hends.dry hdry hcache).2.1
      rw [hkept, misses, recent_cons, hdry, if_pos rfl]
      exact ih
    | false =>
      rw [(hends.run hdry hcache).2 key, misses_cons key c _ hdry, counted]
      by_cases hkey : key ∈ c.desired.conntrackEntries
      · have hnot : ¬(key ∈ c.before.ctCache .tcp ∧ key ∉ c.desired.conntrackEntries) :=
          fun hh => hh.2 hkey
        rw [if_neg hnot, ite_self]
        exact Nat.zero_le _
      · rw [if_neg hkey]
        split
        · exact Nat.zero_le _
        · split
          · exact Nat.succ_le_succ ih
          · exact Nat.zero_le _

/-- The last `n` calls are there, and none of them desired the key. -/
theorem missed_of_le {key : FlowKey} {history : List Call} {n : ℕ} (h : n ≤ misses key history)
    {i : ℕ} (hi : i < n) :
    ∃ c, (recent history)[i]? = some c ∧ key ∉ c.desired.conntrackEntries := by
  have hlen : i < ((recent history).takeWhile fun c => key ∉ c.desired.conntrackEntries).length :=
    hi.trans_le h
  have hmiss := List.mem_takeWhile_imp (p := fun c : Call => key ∉ c.desired.conntrackEntries)
    (List.getElem_mem hlen)
  refine ⟨_, ?_, of_decide_eq_true hmiss⟩
  have hfront := List.takeWhile_prefix (l := recent history)
    (fun c : Call => decide (key ∉ c.desired.conntrackEntries))
  rw [hfront.getElem hlen]
  exact List.getElem?_eq_getElem _

/-- Dry runs leave the counts as the last other call left them. -/
theorem Run.skip_dry {dry older : List Call} {c : Call} {d : Daemon}
    (h : Run (dry ++ c :: older) d) (hdry : ∀ x ∈ dry, x.dryRun = true) :
    d.conntrackStaleRounds = c.after.conntrackStaleRounds := by
  induction dry generalizing d with
  | nil => exact h.last.2.2.2
  | cons x dry ih =>
    obtain ⟨hbefore, hcache, hends, hrounds⟩ := h.last
    have hx := (hends.dry (hdry x (List.mem_cons_self ..)) hcache).2.1
    exact hrounds.trans (hx.trans (ih hbefore fun y hy => hdry y (List.mem_cons_of_mem x hy)))

theorem Run.older {newer history : List Call} {d : Daemon} (h : Run (newer ++ history) d) :
    ∃ d', Run history d' := by
  induction newer generalizing d with
  | nil => exact ⟨d, h⟩
  | cons x newer ih => exact ih h.last.1

/-- Only calls that are not dry runs delete, and only keys that are ready. -/
theorem Call.Ends.mem_deletes {c : Call} (h : c.Ends) (hcache : (c.before.ctCache .tcp).Nodup)
    {key : FlowKey} (hkey : key ∈ c.staleDeletes.map Prod.fst) :
    c.dryRun = false ∧ key ∈ readyKeys c.cfg c.desired c.before := by
  cases hdry : c.dryRun with
  | true =>
    rw [(h.dry hdry hcache).1] at hkey
    exact absurd hkey List.not_mem_nil
  | false =>
    rw [(h.run hdry hcache).1, List.mem_reverse] at hkey
    exact ⟨rfl, removed_subset c.stop _ hkey⟩

theorem Call.Ends.keeps {c : Call} (h : c.Ends) (hcache : (c.before.ctCache .tcp).Nodup)
    {key : FlowKey} (hkey : (key, false) ∈ c.staleDeletes) :
    roundsOf c.after key = some ((roundsOf c.before key).getD 0 + 1) := by
  obtain ⟨hdry, hready⟩ := h.mem_deletes hcache (List.mem_map_of_mem hkey)
  have hcached := ((mem_readyKeys c.cfg c.desired c.before key).mp hready).1
  rw [(h.run hdry hcache).2 key, if_neg (h.failed hdry hcache hkey)]
  exact if_pos hcached

/-- In every run, in its last call: a key deleted as stale was desired by none of the
last `XDP_CONNTRACK_STALE_RECONCILES` calls that were not dry runs; a call that desires
a key leaves it no count; a key whose deletion failed keeps its count, and the next call
tries it again; a dry run leaves the counts and the kernel. -/
theorem stale_needs_misses {c : Call} {history : List Call} {d : Daemon}
    (h : Run (c :: history) d) :
    (∀ key ∈ c.staleDeletes.map Prod.fst, ∀ i < c.cfg.xdpConntrackStaleReconciles,
      ∃ c', (recent (c :: history))[i]? = some c' ∧ key ∉ c'.desired.conntrackEntries) ∧
    (c.dryRun = false → ∀ key ∈ c.desired.conntrackEntries, roundsOf c.after key = none) ∧
    (∀ key, (key, false) ∈ c.staleDeletes →
      roundsOf c.after key = some ((roundsOf c.before key).getD 0 + 1)) ∧
    (∀ dry older c₀ key, history = dry ++ c₀ :: older → (∀ x ∈ dry, x.dryRun = true) →
      (key, false) ∈ c₀.staleDeletes →
      c.cfg.xdpConntrackStaleReconciles ≤ c₀.cfg.xdpConntrackStaleReconciles →
      c.dryRun = false → c.stop = .later → key ∈ c.before.ctCache .tcp →
      key ∉ c.desired.conntrackEntries → key ∈ c.staleDeletes.map Prod.fst) ∧
    (c.dryRun = true → c.after.conntrackStaleRounds = c.before.conntrackStaleRounds ∧
      c.after.maps = c.before.maps) := by
  obtain ⟨hrun, hcache, hends, -⟩ := h.last
  refine ⟨?_, ?_, fun key => hends.keeps hcache, ?_, fun hdry => (hends.dry hdry hcache).2⟩
  · intro key hkey i hi
    obtain ⟨hdry, hready⟩ := hends.mem_deletes hcache hkey
    obtain ⟨⟨-, hdesired⟩, hcount⟩ := (mem_readyKeys _ _ _ key).mp hready
    have hmisses : misses key (c :: history) = misses key history + 1 := by
      rw [misses_cons key c history hdry, if_neg hdesired]
    refine missed_of_le ?_ hi
    calc c.cfg.xdpConntrackStaleReconciles ≤ (roundsOf c.before key).getD 0 + 1 := hcount
      _ ≤ misses key history + 1 := Nat.succ_le_succ (hrun.rounds_le key)
      _ = misses key (c :: history) := hmisses.symm
  · intro hdry key hkey
    have hcounted : counted c.before c.desired.conntrackEntries key = none :=
      if_neg fun hh => hh.2 hkey
    rw [(hends.run hdry hcache).2 key, hcounted, ite_self]
  · intro dry older c₀ key hhistory hdries hfailed hN hdry hstop hcached hdesired
    subst hhistory
    obtain ⟨d₀, hrun₀⟩ := hrun.older
    obtain ⟨-, hcache₀, hends₀, -⟩ := hrun₀.last
    have hready₀ := (hends₀.mem_deletes hcache₀ (List.mem_map_of_mem hfailed)).2
    have hcount₀ := ((mem_readyKeys _ _ _ key).mp hready₀).2
    have hkept : roundsOf c.before key = some ((roundsOf c₀.before key).getD 0 + 1) :=
      (congrArg (AList.lookup key) (hrun.skip_dry hdries)).trans (hends₀.keeps hcache₀ hfailed)
    have hready : key ∈ readyKeys c.cfg c.desired c.before := by
      rw [mem_readyKeys, hkept, Option.getD_some]
      exact ⟨⟨hcached, hdesired⟩, (hN.trans hcount₀).trans (Nat.le_succ _)⟩
    rw [(hends.run hdry hcache).1, hstop, List.mem_reverse]
    exact hready

/-! A connection that two calls in a row do not desire. -/

def vanishedKey : FlowKey := .v4 192 0 443 1

/-- A daemon without the optional maps that has the connection in its cache. -/
def vanishedStart : Daemon where
  opened := fun _ => false
  ctCache := fun p => if p = .tcp then [vanishedKey] else []

def vanishedCall (d : Daemon) : Call :=
  ⟨{}, {}, false, .later, d, (reconcile {} {} false d).2⟩

theorem stale_needs_misses_twice :
    let c₁ := vanishedCall vanishedStart
    let c₂ := vanishedCall c₁.after
    c₂.staleDeletes = [(vanishedKey, true)] ∧
      ∀ i < 2, ∃ c', (recent [c₂, c₁])[i]? = some c' ∧ vanishedKey ∉ c'.desired.conntrackEntries := by
  have hrun₁ : Run [vanishedCall vanishedStart] (vanishedCall vanishedStart).after :=
    .reconcile _ (.start vanishedStart rfl) (by decide) (reconcile_ends _ _ _ _)
  have hrun₂ := Run.reconcile (vanishedCall (vanishedCall vanishedStart).after) hrun₁
    (by decide +kernel) (reconcile_ends _ _ _ _)
  have hdeletes : (vanishedCall (vanishedCall vanishedStart).after).staleDeletes =
      [(vanishedKey, true)] := by
    decide +kernel
  refine ⟨hdeletes, ?_⟩
  apply (stale_needs_misses hrun₂).1 vanishedKey
  rw [hdeletes]
  exact List.mem_singleton_self _

end AutoXdp.XdpBackend
