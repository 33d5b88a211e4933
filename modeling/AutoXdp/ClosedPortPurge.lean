import AutoXdp.ReconcileFrames
import AutoXdp.DefaultDeny
import AutoXdp.CtFrames
import AutoXdp.GuardedRun
import Mathlib.Tactic.Basic

/-! Which conntrack entries of a stopped port a reconcile leaves behind. -/
namespace AutoXdp
open StateSteps AtomicProg GuardedRun XdpBackend BpfConntrackMaps

/-! What the conntrack methods do when their calls succeed. -/

/-- Kernel and cache lose exactly the keys of `D`. -/
def Deletes (p : Proto) (D : FlowKey → Prop) (d d' : Daemon) : Prop :=
  ∀ key, (key ∈ d'.maps.ct p.ctMap ↔ key ∈ d.maps.ct p.ctMap ∧ ¬D key) ∧
    (key ∈ d'.ctCache p ↔ key ∈ d.ctCache p ∧ ¬D key)

/-- Kernel and cache gain exactly the keys of `A`. -/
def Adds (p : Proto) (A : FlowKey → Prop) (d d' : Daemon) : Prop :=
  ∀ key, (key ∈ d'.maps.ct p.ctMap ↔ key ∈ d.maps.ct p.ctMap ∨ A key) ∧
    (key ∈ d'.ctCache p ↔ key ∈ d.ctCache p ∨ A key)

theorem deletes_one (p : Proto) (caller : Caller) (key : FlowKey) (d : Daemon) :
    Deletes p (· = key) d (let e := d.called caller (.deleteCt p key) true
      e.setCtCache p (setDiscard key (e.ctCache p))) := by
  intro k
  constructor
  · simp only [Daemon.called, Daemon.setCtCache, BpfOp.effect, ↓reduceIte, ct_setCt]
    rw [AList.mem_erase, and_comm]
  · simp only [Daemon.called, Daemon.setCtCache, Function.update_self, mem_setDiscard]

theorem adds_one (p : Proto) (key : FlowKey) (raw : U64) (d : Daemon) :
    Adds p (· = key) d (let e := d.called .ok (.updateCt p key raw) true
      e.setCtCache p (setAdd key (e.ctCache p))) := by
  intro k
  constructor
  · simp only [Daemon.called, Daemon.setCtCache, BpfOp.effect, ↓reduceIte, ct_setCt]
    rw [AList.mem_insert, or_comm]
  · simp only [Daemon.called, Daemon.setCtCache, Function.update_self, mem_setAdd]
    exact or_comm

theorem deletes_cons (p : Proto) (key : FlowKey) (keys : List FlowKey) (d e f : Daemon)
    (h : Deletes p (· = key) d e) (h' : Deletes p (· ∈ keys) e f) :
    Deletes p (· ∈ key :: keys) d f := by
  intro k
  simp only [(h' k).1, (h' k).2, (h k).1, (h k).2, List.mem_cons, not_or, and_assoc, and_self]

theorem adds_cons (p : Proto) (key : FlowKey) (keys : List FlowKey) (d e f : Daemon)
    (h : Adds p (· = key) d e) (h' : Adds p (· ∈ keys) e f) : Adds p (· ∈ key :: keys) d f := by
  intro k
  simp only [(h' k).1, (h' k).2, (h k).1, (h k).2, List.mem_cons, or_assoc, and_self]

theorem deletes_nil (p : Proto) (d : Daemon) : Deletes p (· ∈ []) d d := by
  intro k
  simp

/-- `delete_dest_ports`: the cached keys of the ports, and no others. -/
theorem deleteDestPorts_does (p : Proto) (ports : List U32) (d : Daemon) :
    Does (Deletes p fun key => key ∈ d.ctCache p ∧ key.destPort ∈ ports) d
      (deleteDestPorts p ports false d).2 := by
  have hloop := steps_forM_cons (P := fun keys => Does (Deletes p (· ∈ keys)))
    (Q := fun key => Does (Deletes p (· = key)))
    (fun key => discard (delete p .deleteDestPorts key false))
    (fun key => steps_mono _ (cachedCall_does _ _ _ fun _ => rfl)
      fun s t h => does_mono h fun ht => ht ▸ deletes_one p _ key s)
    (fun s => ⟨[], rfl, fun _ => deletes_nil p s⟩)
    (fun key keys s t u h h' => does_trans h h' (deletes_cons p key keys s t u))
  have hkeys : ∀ key, key ∈ byFamily ((d.ctCache p).filter fun key => key.destPort ∈ ports) ↔
      key ∈ d.ctCache p ∧ key.destPort ∈ ports := by
    intro key
    rw [mem_byFamily, List.mem_filter, decide_eq_true_eq]
  refine does_mono (hloop _ d) fun h key => ?_
  have hkey := h key
  simp only [hkeys key] at hkey
  exact hkey

/-- Dropping the stale rounds of a key changes neither kernel nor cache. -/
theorem okThenPop_does (m : DaemonM Bool) (key : FlowKey) (E : Daemon → Daemon → Prop)
    (hE : ∀ d e f : Daemon, E d e → f.maps = e.maps → f.ctCache = e.ctCache → E d f)
    (hm : Steps (Does E) (ok m)) :
    Steps (Does E) (do if ← ok m then modify (popStaleRounds key)) := by
  refine steps_seq (R := Does E)
    (S := fun d d' => d'.log = d.log ∧ d'.maps = d.maps ∧ d'.ctCache = d.ctCache) _ _ hm ?_ ?_
  · intro b
    exact steps_ite _ _ _ (fun _ _ => ⟨rfl, rfl, rfl⟩) fun _ _ => ⟨rfl, rfl, rfl⟩
  · rintro d e f ⟨new, hlog, h⟩ ⟨hlog', hmaps, hcache⟩
    exact ⟨new, hlog'.trans hlog, fun hall => hE d e f (h hall) hmaps hcache⟩

theorem seedConntrack_does (keys : List FlowKey) :
    Steps (Does (Adds .tcp (· ∈ keys))) (seedConntrack keys false) := by
  refine steps_forM_cons (P := fun keys => Does (Adds .tcp (· ∈ keys)))
    (Q := fun key => Does (Adds .tcp (· = key))) _ ?_ ?_ ?_ keys
  · intro key
    apply okThenPop_does
    · intro d e f h hmaps hcache k
      rw [hmaps, hcache]
      exact h k
    · intro d
      have hset := okCachedCall_does (.updateCt .tcp key (d.monotonicNs d.log.length))
        (fun d => d.setCtCache .tcp (setAdd key (d.ctCache .tcp))) (fun _ => rfl) d
      exact does_mono hset fun h => h ▸ adds_one .tcp key _ d
  · intro s
    exact ⟨[], rfl, fun _ k => by simp⟩
  · intro key keys s t u h h'
    exact does_trans h h' (adds_cons .tcp key keys s t u)

theorem removeStaleConntrack_does (keys : List FlowKey) :
    Steps (Does (Deletes .tcp (· ∈ keys))) (removeStaleConntrack keys false) := by
  refine steps_forM_cons (P := fun keys => Does (Deletes .tcp (· ∈ keys)))
    (Q := fun key => Does (Deletes .tcp (· = key))) _ ?_ ?_ ?_ keys
  · intro key
    apply okThenPop_does
    · intro d e f h hmaps hcache k
      rw [hmaps, hcache]
      exact h k
    · intro d
      have hdelete := okCachedCall_does (.deleteCt .tcp key)
        (fun d => d.setCtCache .tcp (setDiscard key (d.ctCache .tcp))) (fun _ => rfl) d
      exact does_mono hdelete fun h => h ▸ deletes_one .tcp .ok key d
  · intro s
    exact ⟨[], rfl, fun _ => deletes_nil .tcp s⟩
  · intro key keys s t u h h'
    exact does_trans h h' (deletes_cons .tcp key keys s t u)

/-! The lookups of the plan. -/

/-- Of the keys asked for, those in the kernel map are found, and the cache now agrees
with it on them. -/
structure Found (p : Proto) (keys : FlowKey → Prop) (present found : List FlowKey)
    (d d' : Daemon) : Prop where
  maps : d'.maps = d.maps
  found : ∀ key, key ∈ found ↔ key ∈ present ∨ (keys key ∧ key ∈ d.maps.ct p.ctMap)
  asked : ∀ key, keys key → (key ∈ d'.ctCache p ↔ key ∈ d.maps.ct p.ctMap)
  other : ∀ key, ¬keys key → (key ∈ d'.ctCache p ↔ key ∈ d.ctCache p)

theorem existingKey_run (p : Proto) (present : List FlowKey) (k : FlowKey) (b : Bool)
    (d : Daemon) (hb : bpf .reader (.lookupCt p k) d = (b, d.called .reader (.lookupCt p k) b)) :
    let e := d.called .reader (.lookupCt p k) b
    existingKey p present k d =
      if b = true then
        if k ∈ d.maps.ct p.ctMap then
          (present ++ [k], e.setCtCache p (setAdd k (d.ctCache p)))
        else (present, e.setCtCache p (setDiscard k (d.ctCache p)))
      else if k ∈ d.ctCache p then (present ++ [k], e) else (present, e) := by
  unfold existingKey
  rw [run_bind, hb, run_get_bind, run_ite, run_ite, run_ite]
  cases b <;> rfl

theorem existingKey_does (p : Proto) (present : List FlowKey) (k : FlowKey) (d : Daemon) :
    Does (Found p (· = k) present (existingKey p present k d).1) d
      (existingKey p present k d).2 := by
  obtain ⟨b, hb⟩ := bpf_run .reader (.lookupCt p k) d
  have hrun := existingKey_run p present k b d hb
  cases b with
  | false =>
    -- excluded: the one call failed
    have hone : (existingKey p present k d).2 = d.called .reader (.lookupCt p k) false := by
      rw [hrun, if_neg Bool.false_ne_true]
      split <;> rfl
    rw [hone]
    refine ⟨[⟨.reader, .lookupCt p k, false⟩], rfl, fun hall => ?_⟩
    exact absurd (hall _ (List.mem_singleton_self _)) Bool.false_ne_true
  | true =>
    rw [hrun, if_pos rfl]
    by_cases hmem : k ∈ d.maps.ct p.ctMap
    · rw [if_pos hmem]
      refine ⟨[⟨.reader, .lookupCt p k, true⟩], rfl, fun _ => ⟨rfl, ?_, ?_, ?_⟩⟩
      · intro key
        rw [List.mem_append, List.mem_singleton]
        grind
      · rintro key rfl
        simp [Daemon.setCtCache, hmem]
      · intro key hkey
        simp [Daemon.setCtCache, Daemon.called, hkey]
    · rw [if_neg hmem]
      refine ⟨[⟨.reader, .lookupCt p k, true⟩], rfl, fun _ => ⟨rfl, ?_, ?_, ?_⟩⟩
      · intro key
        grind
      · rintro key rfl
        simp [Daemon.setCtCache, hmem]
      · intro key hkey
        simp [Daemon.setCtCache, Daemon.called, hkey]

theorem existingKeys_loop (p : Proto) (keys present : List FlowKey) (d : Daemon) :
    Does (Found p (· ∈ keys) present (keys.foldlM (existingKey p) present d).1) d
      (keys.foldlM (existingKey p) present d).2 := by
  induction keys generalizing present d with
  | nil => exact ⟨[], rfl, fun _ => ⟨rfl, by simp, by simp, by simp⟩⟩
  | cons k keys ih =>
    rw [List.foldlM_cons, run_bind]
    have hkeys := ih (existingKey p present k d).1 (existingKey p present k d).2
    refine does_trans (existingKey_does p present k d) hkeys fun h h' => ?_
    refine ⟨h'.maps.trans h.maps, ?_, ?_, ?_⟩
    · intro key
      have hkey := h.found key
      have hkeys := h'.found key
      rw [h.maps] at hkeys
      rw [hkeys, hkey, List.mem_cons]
      grind
    · intro key hkey
      by_cases hin : key ∈ keys
      · rw [← h.maps]
        exact h'.asked key hin
      · have hk : key = k := (List.mem_cons.mp hkey).resolve_right hin
        rw [h'.other key hin]
        exact h.asked key hk
    · intro key hkey
      rw [List.mem_cons, not_or] at hkey
      rw [h'.other key hkey.2]
      exact h.other key hkey.1

theorem existingKeys_does (p : Proto) (keys : List FlowKey) (d : Daemon) :
    Does (Found p (· ∈ keys) [] (existingKeys p keys d).1) d (existingKeys p keys d).2 := by
  refine does_mono (existingKeys_loop p (byFamily keys) [] d) fun h => ?_
  simp only [mem_byFamily] at h
  exact h

/-! One reconcile. -/

theorem same_ct_iff {p : Proto} {d d' : Daemon} (h : Same d d' (.ct p)) (key : FlowKey) :
    (key ∈ d'.maps.ct p.ctMap ↔ key ∈ d.maps.ct p.ctMap) ∧
      (key ∈ d'.ctCache p ↔ key ∈ d.ctCache p) := by
  rw [h.1, h.2]
  exact ⟨Iff.rfl, Iff.rfl⟩

/-- The cached keys of closed ports go, then desired keys come, then stale ones go. -/
theorem closeTcp_does (plan : ReconcilePlan) (d : Daemon) :
    Does (fun d d' => ∀ key, key ∈ d'.maps.tcpCt ↔
      ((key ∈ d.maps.tcpCt ∧
          ¬(key ∈ d.ctCache .tcp ∧ key.destPort ∈ plan.tcpPortsToRemove)) ∨
        key ∈ plan.conntrackEntriesToAdd) ∧ key ∉ plan.conntrackEntriesToRemove)
      d (closeTcp plan false d).2 := by
  let closed := (setPorts .tcp plan.tcpPortsToRemove 0 false d).2
  let purged := (deleteDestPorts .tcp plan.tcpPortsToRemove false closed).2
  let seeded := (seedConntrack plan.conntrackEntriesToAdd false purged).2
  have hclose : Does (fun d d' => Same d d' (.ct .tcp)) d closed :=
    does_of_touches (.ct .tcp)
      (setPorts_touches (S := {.port .tcp}) .tcp plan.tcpPortsToRemove 0 false rfl d) nofun
  have hpurge := deleteDestPorts_does .tcp plan.tcpPortsToRemove closed
  have hseed := seedConntrack_does plan.conntrackEntriesToAdd purged
  have hstale := removeStaleConntrack_does plan.conntrackEntriesToRemove seeded
  refine does_mono (does_both hclose (does_both hpurge (does_both hseed hstale))) ?_
  rintro ⟨hclose, hpurge, hseed, hstale⟩ key
  change key ∈ (removeStaleConntrack _ false seeded).2.maps.tcpCt ↔ _
  obtain ⟨hkernel, hcache⟩ := same_ct_iff hclose key
  have hkept := (hseed key).1.trans (or_congr_left (hpurge key).1)
  rw [← hcache]
  refine (hstale key).1.trans (and_congr_left' (hkept.trans ?_))
  exact or_congr_left (and_congr_left' hkernel)

theorem closeUdp_does (plan : ReconcilePlan) (d : Daemon) :
    Does (fun d d' => ∀ key, key ∈ d'.maps.udpCt ↔
      key ∈ d.maps.udpCt ∧ ¬(key ∈ d.ctCache .udp ∧ key.destPort ∈ plan.udpPortsToRemove))
      d (closeUdp plan false d).2 := by
  let closed := (setPorts .udp plan.udpPortsToRemove 0 false d).2
  have hclose : Does (fun d d' => Same d d' (.ct .udp)) d closed :=
    does_of_touches (.ct .udp)
      (setPorts_touches (S := {.port .udp}) .udp plan.udpPortsToRemove 0 false rfl d) nofun
  have hpurge := deleteDestPorts_does .udp plan.udpPortsToRemove closed
  refine does_mono (does_both hclose hpurge) ?_
  rintro ⟨hclose, hpurge⟩ key
  obtain ⟨hkernel, hcache⟩ := same_ct_iff hclose key
  rw [← hcache]
  exact (hpurge key).1.trans (and_congr_left' hkernel)

theorem missStale_run (cfg : Config) (ready : List FlowKey) (key : FlowKey) (d : Daemon) :
    (missStale cfg ready key d).1 = ready ∨ (missStale cfg ready key d).1 = ready ++ [key] := by
  change (if _ then ready ++ [key] else ready) = _ ∨ (if _ then ready ++ [key] else ready) = _
  split
  · exact Or.inr rfl
  · exact Or.inl rfl

/-- Only keys that the plan wants removed become ready. -/
theorem countStaleRounds_subset (cfg : Config) (desiredKeys toRemove : List FlowKey) (d : Daemon) :
    ∀ key ∈ (countStaleRounds cfg desiredKeys toRemove d).1, key ∈ toRemove := by
  have hloop : ∀ (keys ready : List FlowKey) (e : Daemon),
      ∀ key ∈ (keys.foldlM (missStale cfg) ready e).1, key ∈ ready ∨ key ∈ keys := by
    intro keys
    induction keys with
    | nil => exact fun _ _ _ h => Or.inl h
    | cons k keys ih =>
      intro ready e key hkey
      rw [List.foldlM_cons, run_bind] at hkey
      rcases ih _ _ key hkey with h | h
      · rcases missStale_run cfg ready k e with hr | hr
        · exact Or.inl (hr ▸ h)
        · rw [hr, List.mem_append, List.mem_singleton] at h
          rcases h with h | rfl
          · exact Or.inl h
          · exact Or.inr (List.mem_cons_self ..)
      · exact Or.inr (List.mem_cons_of_mem k h)
  intro key hkey
  exact (hloop toRemove [] _ key hkey).resolve_left List.not_mem_nil

/-- The ports that a reconcile takes off the whitelist. -/
def Daemon.removedPorts (d : Daemon) (desired : DesiredState) : Proto → List U32
  | .tcp => setDiff (BpfArrayMap.activePorts d .tcp) desired.tcpPorts
  | .udp => setDiff (BpfArrayMap.activePorts d .udp) desired.udpPorts

/-- The entries of a removed port after the reconcile: those the daemon had neither
cached nor asked for, and desired ones that were missing. -/
def Survives (d : Daemon) (desired : DesiredState) (key : FlowKey) : Proto → Prop
  | .tcp => (key ∈ d.maps.tcpCt ∧ key ∉ d.ctCache .tcp ∧ key ∉ desired.conntrackEntries) ∨
    (key ∈ desired.conntrackEntries ∧ key ∉ d.maps.tcpCt)
  | .udp => key ∈ d.maps.udpCt ∧ key ∉ d.ctCache .udp

theorem does_same {α : Type} (S : Set MapId) (m : DaemonM α) (i : MapId)
    (hm : Steps (Touches S) m) (hi : i ∉ S) (d : Daemon) :
    Does (fun d d' => Same d d' i) d (m d).2 := does_of_touches i (hm d) hi

section Plan

variable (cfg : Config) (desired : DesiredState) (d : Daemon)

/-- What the plan says about conntrack, in terms of the state before it was made. -/
structure Planned (plan : ReconcilePlan) (d d' : Daemon) : Prop where
  kernel : ∀ key, key ∈ d'.maps.tcpCt ↔ key ∈ d.maps.tcpCt
  cached : ∀ key, key ∉ desired.conntrackEntries →
    (key ∈ d'.ctCache .tcp ↔ key ∈ d.ctCache .tcp)
  found : ∀ key, key ∈ desired.conntrackEntries →
    (key ∈ d'.ctCache .tcp ↔ key ∈ d.maps.tcpCt)
  add : ∀ key, key ∈ plan.conntrackEntriesToAdd ↔
    key ∈ desired.conntrackEntries ∧ key ∉ d.maps.tcpCt
  stale : ∀ key, key ∈ plan.conntrackEntriesToRemove →
    key ∈ d.ctCache .tcp ∧ key ∉ desired.conntrackEntries

theorem plannedAt_does :
    Does (Planned desired (plannedAt cfg desired d).1) d (plannedAt cfg desired d).2 := by
  obtain ⟨bogon, dropEvents, rate, runtime, hstate⟩ := appliedAt_run d
  let toRemove := (computeReconcilePlan desired (appliedAt d).1).conntrackEntriesToRemove
  let found := existingKeys .tcp desired.conntrackEntries (appliedAt d).2
  have happlied := does_same {.other} getAppliedState (.ct .tcp) (getAppliedState_touches rfl) nofun d
  have hfound := existingKeys_does .tcp desired.conntrackEntries (appliedAt d).2
  have hcount := does_same ∅ (countStaleRounds cfg desired.conntrackEntries toRemove) (.ct .tcp)
    (countStaleRounds_touches cfg _ _) nofun found.2
  rw [plannedAt_run]
  refine does_mono (does_both happlied (does_both hfound hcount)) ?_
  rintro ⟨happlied, hfound, hcount⟩
  have hkernel : (appliedAt d).2.maps.tcpCt = d.maps.tcpCt := happlied.1
  have hcache : (appliedAt d).2.ctCache .tcp = d.ctCache .tcp := happlied.2
  refine ⟨?_, ?_, ?_, ?_, ?_⟩
  · intro key
    rw [← hkernel, ← show found.2.maps.tcpCt = (appliedAt d).2.maps.tcpCt from
      congrArg Maps.tcpCt hfound.maps]
    exact (same_ct_iff hcount key).1
  · intro key hkey
    rw [← hcache]
    exact (same_ct_iff hcount key).2.trans (hfound.other key hkey)
  · intro key hkey
    rw [← hkernel]
    exact (same_ct_iff hcount key).2.trans (hfound.asked key hkey)
  · intro key
    have hpresent := hfound.found key
    rw [← hkernel, mem_setDiff, hpresent]
    simp only [List.not_mem_nil, false_or, not_and]
    exact and_congr_right fun hd => ⟨fun h => h hd, fun h _ => h⟩
  · intro key hkey
    have hstale : key ∈ (computeReconcilePlan desired (appliedAt d).1).conntrackEntriesToRemove :=
      countStaleRounds_subset cfg desired.conntrackEntries toRemove found.2 key hkey
    rw [hstate] at hstale
    exact (mem_setDiff key _ _).mp hstale

/-- The ports that the plan closes. -/
theorem plannedAt_ports (p : Proto) :
    (plannedAt cfg desired d).1.portsToRemove p = d.removedPorts desired p := by
  obtain ⟨bogon, dropEvents, rate, runtime, hstate⟩ := appliedAt_run d
  rw [plannedAt_run, hstate]
  cases p <;> rfl

/-- `apply_reconcile_plan` from the point where the TCP and UDP ports are closed. -/
def afterClosing (plan : ReconcilePlan) : DaemonM PUnit := do
  protect cfg plan false desired
  let d ← get
  if d.lastApplyFailures = 0 then expose plan false

theorem afterClosing_touches (plan : ReconcilePlan) :
    Steps (Touches {i | ∀ p, i ≠ .ct p}) (afterClosing cfg desired plan) := by
  apply steps_bind _ _ (protect_touches cfg plan false desired (by simp) (by simp) (by simp))
  intro _
  apply steps_get_all
  intro d
  exact steps_ite _ _ _ (fun _ => expose_touches plan false (by simp) (by simp))
    fun _ => steps_pure _

theorem applyReconcilePlan_does (plan : ReconcilePlan) :
    Does (fun _ d' => ∀ key,
        (key ∈ d'.maps.tcpCt ↔ ((key ∈ d.maps.tcpCt ∧
            ¬(key ∈ d.ctCache .tcp ∧ key.destPort ∈ plan.tcpPortsToRemove)) ∨
          key ∈ plan.conntrackEntriesToAdd) ∧ key ∉ plan.conntrackEntriesToRemove) ∧
        (key ∈ d'.maps.udpCt ↔ key ∈ d.maps.udpCt ∧
          ¬(key ∈ d.ctCache .udp ∧ key.destPort ∈ plan.udpPortsToRemove)))
      d (applyReconcilePlan cfg plan false desired d).2 := by
  let reset : Daemon := { d with lastApplyFailures := 0 }
  let closed := (closeTcp plan false reset).2
  let purged := (closeUdp plan false closed).2
  have htcp := closeTcp_does plan reset
  have htcpU := does_same {.port .tcp, .ct .tcp} (closeTcp plan false) (.ct .udp)
    (closeTcp_touches plan false (by simp) (by simp)) (by simp) reset
  have hudp := closeUdp_does plan closed
  have hudpT := does_same {.port .udp, .ct .udp} (closeUdp plan false) (.ct .tcp)
    (closeUdp_touches plan false (by simp) (by simp)) (by simp) closed
  have htail : ∀ p, Does (fun d d' => Same d d' (.ct p)) purged
      (applyReconcilePlan cfg plan false desired d).2 := fun p =>
    does_same _ (afterClosing cfg desired plan) (.ct p) (afterClosing_touches cfg desired plan)
      (by simp) purged
  obtain ⟨new, hlog, hdoes⟩ := does_and (does_both htcp (does_both hudpT (htail .tcp)))
    (does_both htcpU (does_both hudp (htail .udp)))
  refine ⟨new, hlog, fun hall key => ?_⟩
  obtain ⟨⟨htcp, hudpT, htail⟩, ⟨htcpU, hudp, htail'⟩⟩ := hdoes hall
  constructor
  · exact ((same_ct_iff htail key).1.trans (same_ct_iff hudpT key).1).trans (htcp key)
  · obtain ⟨hkernel, hcache⟩ := same_ct_iff htcpU key
    refine ((same_ct_iff htail' key).1.trans (hudp key)).trans ?_
    rw [show (key ∈ closed.ctCache .udp) = (key ∈ d.ctCache .udp) from propext hcache]
    exact and_congr_left' hkernel

/-- What a reconcile leaves of the ports it removes. -/
theorem reconcile_survives :
    Does (fun d d' => ∀ p key, key.destPort ∈ d.removedPorts desired p →
        (key ∈ d'.maps.ct p.ctMap ↔ Survives d desired key p))
      d (reconcile cfg desired false d).2 := by
  let plan := (plannedAt cfg desired d).1
  have hplan := plannedAt_does cfg desired d
  have hudp := does_same {.ct .tcp, .other} (do let a ← getAppliedState; buildReconcilePlan cfg desired a)
    (.ct .udp) (steps_bind _ _ (getAppliedState_touches (by simp))
      fun a => buildReconcilePlan_touches cfg desired a (by simp)) (by simp) d
  have happly := applyReconcilePlan_does cfg desired (plannedAt cfg desired d).2 plan
  rw [reconcile_run]
  refine does_mono (does_both (does_and hplan hudp) happly) ?_
  rintro ⟨⟨hplan, hudp⟩, happly⟩ p key hport
  rw [← plannedAt_ports cfg desired d p] at hport
  cases p with
  | tcp =>
    have hport : key.destPort ∈ plan.tcpPortsToRemove := hport
    refine (happly key).1.trans ?_
    rw [show key ∈ plan.conntrackEntriesToAdd ↔ _ from hplan.add key, hplan.kernel key]
    have hstale := hplan.stale key
    by_cases hd : key ∈ desired.conntrackEntries
    · -- asked for: purged if it was there, seeded if it was not
      have hfound := hplan.found key hd
      simp only [Survives]
      grind
    · have hcached := hplan.cached key hd
      simp only [Survives]
      grind
  | udp =>
    have hport : key.destPort ∈ plan.udpPortsToRemove := hport
    obtain ⟨hkernel, hcache⟩ := same_ct_iff hudp key
    have hpurged := not_congr ((and_iff_left hport).trans hcache)
    exact (happly key).2.trans (and_congr hkernel hpurged)

end Plan

/-! The daemon and the two programs on one host. -/

structure Host where
  daemon : Daemon
  clock : ℕ → U64
  reads : ℕ := 0
  handlers : ProgArray → U32 → Option (Maps → XdpAction × Maps) := fun _ _ => none

/-- A packet runs one of the programs; the daemon reconciles or collects. -/
inductive HostStep where
  | packet (p : Packet)
  | reconcile (cfg : Config) (desired : DesiredState)
  | gc (tcpTimeoutNs synTimeoutNs udpTimeoutNs : ℕ)

namespace Host

def world (s : Host) : World :=
  { maps := s.daemon.maps, clock := s.clock, reads := s.reads, handlers := s.handlers }

def step (s : Host) : HostStep → Host
  | .packet p =>
    let w := (Prog.exec serial (datapath p) s.world).2
    { s with daemon := { s.daemon with maps := w.maps }, reads := w.reads }
  | .reconcile cfg desired =>
    { s with daemon := (XdpBackend.reconcile cfg desired false s.daemon).2 }
  | .gc tcpTimeoutNs synTimeoutNs udpTimeoutNs =>
    { s with daemon := (runCtGc tcpTimeoutNs synTimeoutNs udpTimeoutNs s.daemon).2 }

end Host

/-- Every call of the reconcile succeeds. -/
def Succeeds (cfg : Config) (desired : DesiredState) (d : Daemon) : Prop :=
  ∀ c ∈ callsSince d (reconcile cfg desired false d).2, c.ok = true

/-- If this step is a reconcile that succeeds, no entry of a port that it takes off
the whitelist is left. -/
def PurgesClosed (s : Host) : HostStep → Prop
  | .reconcile cfg desired => Succeeds cfg desired s.daemon →
    ∀ p, ∀ port ∈ s.daemon.removedPorts desired p,
      ∀ key ∈ (s.step (.reconcile cfg desired)).daemon.maps.ct p.ctMap, key.destPort ≠ port
  | _ => True

/-- If this step is a reconcile that succeeds, every entry of a port that it takes off
the whitelist is cached or, at TCP, desired, and no desired entry of such a port is
missing. -/
def KnowsClosed (s : Host) : HostStep → Prop
  | .reconcile cfg desired => Succeeds cfg desired s.daemon →
    (∀ key ∈ s.daemon.maps.tcpCt, key.destPort ∈ s.daemon.removedPorts desired .tcp →
      key ∈ s.daemon.ctCache .tcp ∨ key ∈ desired.conntrackEntries) ∧
    (∀ key ∈ desired.conntrackEntries, key.destPort ∈ s.daemon.removedPorts desired .tcp →
      key ∈ s.daemon.maps.tcpCt) ∧
    (∀ key ∈ s.daemon.maps.udpCt, key.destPort ∈ s.daemon.removedPorts desired .udp →
      key ∈ s.daemon.ctCache .udp)
  | _ => True

theorem purgesClosed_iff (s : Host) (a : HostStep) : PurgesClosed s a ↔ KnowsClosed s a := by
  cases a with
  | packet p => rfl
  | gc tcpTimeoutNs synTimeoutNs udpTimeoutNs => rfl
  | reconcile cfg desired =>
    refine imp_congr_right fun hall => ?_
    have hleft := does_succeeded (reconcile_survives cfg desired s.daemon) hall
    constructor
    · intro hpurged
      have hgone : ∀ p key, key.destPort ∈ s.daemon.removedPorts desired p →
          ¬Survives s.daemon desired key p := by
        intro p key hport hsurvives
        exact hpurged p key.destPort hport key ((hleft p key hport).mpr hsurvives) rfl
      refine ⟨?_, ?_, ?_⟩
      · intro key hkey hport
        have hnot := hgone .tcp key hport
        simp only [Survives, not_or] at hnot
        tauto
      · intro key hkey hport
        have hnot := hgone .tcp key hport
        simp only [Survives, not_or] at hnot
        tauto
      · intro key hkey hport
        have hnot := hgone .udp key hport
        simp only [Survives] at hnot
        tauto
    · rintro ⟨htcp, hseed, hudp⟩ p port hport key hkey rfl
      have hsurvives := (hleft p key hport).mp hkey
      cases p with
      | tcp =>
        rcases hsurvives with ⟨hin, hcached, hdesired⟩ | ⟨hdesired, hmissing⟩
        · exact (htcp key hin hport).elim hcached hdesired
        · exact hmissing (hseed key hdesired hport)
      | udp => exact hsurvives.2 (hudp key hsurvives.1 hport)

/-- Along a run every reconcile that succeeds purges the ports it closes exactly when
each of them knew their entries. -/
theorem closed_port_purge (s : Host) (as : List HostStep) :
    Guarded Host.step PurgesClosed s as ↔ Guarded Host.step KnowsClosed s as :=
  guarded_congr Host.step purgesClosed_iff s as

/-- A `SYN` to port 80 enters its flow into `tcp_ct6`; the reconcile that closes the
port has never heard of it. -/
theorem closed_port_entry_left :
    ¬∀ s as, Guarded Host.step PurgesClosed s as := by
  intro h
  have hrun := h
    { daemon :=
        { maps := { tcpWhitelist := fun port => if port = 80 then 1 else 0 }
          portCache := fun m => if m = .tcp then [80] else [] }
      clock := clockOf [1] }
    [.packet (.ingress (ipv6Segment 0 0x02)), .reconcile {} {}]
  exact hrun.2.1 (by unfold Succeeds; decide +kernel) .tcp 80 (by decide +kernel)
    (flowKeyV6 (ipv6Segment 0 0x02) 14 54) (by decide +kernel) (by decide +kernel)

end AutoXdp
