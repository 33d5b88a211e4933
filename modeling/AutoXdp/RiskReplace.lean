import AutoXdp.RiskSteps
import Mathlib.Tactic.Basic

/-! `BpfRiskMaps.replace_all` under failing writes: what it leaves when it returns, and
what when it raises. -/
namespace AutoXdp
open StateSteps BpfRiskMaps

theorem normalize_normalize (k : LpmKey) : k.normalize.normalize = k.normalize := by
  simp only [LpmKey.normalize, network_network]

theorem normalizeV4_networks (ip : IpParsers) (ips : List Text) (normalized target : List LpmKey)
    (h : normalizeV4 ip ips normalized = .ok target) (hn : ∀ k ∈ normalized, k.IsNetwork) :
    ∀ k ∈ target, k.IsNetwork := by
  induction ips generalizing normalized with
  | nil =>
    rw [normalizeV4, Except.ok.injEq] at h
    exact h ▸ hn
  | cons rawIp ips ih =>
    rw [normalizeV4] at h
    generalize (if '/' ∈ strip rawIp then strip rawIp else strip rawIp ++ ['/', '3', '2']) =
      value at h
    split_ifs at h
    · exact ih normalized h hn
    · exact ih normalized h hn
    · cases hnet : ip.ipv4Network value with
      | none =>
        rw [hnet] at h
        exact absurd h nofun
      | some net =>
        rw [hnet] at h
        refine ih _ h ?_
        intro k hk
        rcases (mem_setAdd _ k normalized).mp hk with rfl | hk
        · exact ⟨normalize_normalize _, Nat.le_of_lt_succ net.2.isLt⟩
        · exact hn k hk

theorem mem_sortedCidrs (k : LpmKey) (cidrs : List LpmKey) :
    k ∈ sortedCidrs cidrs ↔ k ∈ cidrs := List.mem_mergeSort

/-! The forward phase. -/

/-- A write that failed: only the log grew. -/
structure Stopped (e u : RiskState) : Prop where
  maps : u.maps = e.maps
  cache : u.cache = e.cache
  kernel : e.SameKernel u
  log : u.log = (false, e.maps) :: e.log
  fault : e.fault e.log.length = true

theorem set_stopped (cidr : LpmKey) (e : RiskState) (h : (BpfLpmMap.set cidr e).1 = false) :
    Stopped e (BpfLpmMap.set cidr e).2 := by
  obtain ⟨hfault, hrun⟩ := write_false _ _ _ h
  rw [BpfLpmMap.set, hrun]
  exact ⟨rfl, rfl, ⟨rfl, rfl⟩, rfl, hfault⟩

theorem delete_stopped (cidr : LpmKey) (e : RiskState) (h : (BpfLpmMap.delete cidr e).1 = false) :
    Stopped e (BpfLpmMap.delete cidr e).2 := by
  obtain ⟨hfault, hrun⟩ := write_false _ _ _ h
  rw [BpfLpmMap.delete, hrun]
  exact ⟨rfl, rfl, ⟨rfl, rfl⟩, rfl, hfault⟩

theorem setActive_stopped (active : Bool) (e : RiskState) (hread : ∀ i, e.readFault i = false)
    (h : (setActive active e).1 = false) : Stopped e (setActive active e).2 := by
  rw [setActive_run active e hread] at h ⊢
  obtain ⟨hfault, hrun⟩ := write_false _ _ _ h
  rw [hrun]
  exact ⟨rfl, rfl, ⟨rfl, rfl⟩, rfl, hfault⟩

theorem Shows.congr {cidrs : List LpmKey} {m m' : Maps} (h : Shows cidrs m)
    (htrie : m'.abuseipdb = m.abuseipdb) : Shows cidrs m' :=
  ⟨fun k => htrie ▸ h.entries k, h.networks⟩

/-- The networks to stage and those to remove, in the order of the loops. -/
def toStage (target : List LpmKey) (s : RiskState) : List LpmKey :=
  sortedCidrs (setDiff target s.cache)

def toRemove (target : List LpmKey) (s : RiskState) : List LpmKey :=
  sortedCidrs (setDiff s.cache target)

/-- The ways through the `try` block. -/
inductive Forwarded (target : List LpmKey) (s : RiskState) : Progress → RiskState → Prop
  | staging (done rest : List LpmKey) (cidr : LpmKey) (e u : RiskState)
      (hstage : toStage target s = done ++ cidr :: rest)
      (hadded : AllSucceed BpfLpmMap.set done s e) (hstop : Stopped e u) :
      Forwarded target s ⟨done, [], some (.notStaged cidr)⟩ u
  | removing (staged e u : RiskState) (done rest : List LpmKey) (cidr : LpmKey)
      (hadded : AllSucceed BpfLpmMap.set (toStage target s) s staged)
      (hremove : toRemove target s = done ++ cidr :: rest)
      (hremoved : AllSucceed BpfLpmMap.delete done staged e) (hstop : Stopped e u) :
      Forwarded target s ⟨toStage target s, done, some (.notRemoved cidr)⟩ u
  | activating (staged e u : RiskState)
      (hadded : AllSucceed BpfLpmMap.set (toStage target s) s staged)
      (hremoved : AllSucceed BpfLpmMap.delete (toRemove target s) staged e) (hstop : Stopped e u) :
      Forwarded target s ⟨toStage target s, toRemove target s, some .notActivated⟩ u
  | finished (staged e : RiskState)
      (hadded : AllSucceed BpfLpmMap.set (toStage target s) s staged)
      (hremoved : AllSucceed BpfLpmMap.delete (toRemove target s) staged e)
      (hactive : (setActive (target ≠ []) e).1 = true) :
      Forwarded target s ⟨toStage target s, toRemove target s, none⟩ (setActive (target ≠ []) e).2

theorem allSucceed_kernel {f : LpmKey → RiskM Bool}
    (hf : ∀ cidr (s : RiskState), s.SameKernel (f cidr s).2) (cidrs : List LpmKey) (s e : RiskState)
    (h : AllSucceed f cidrs s e) : s.SameKernel e := by
  induction cidrs generalizing s with
  | nil =>
    subst h
    exact ⟨rfl, rfl⟩
  | cons cidr cidrs ih =>
    obtain ⟨hfault, hread⟩ := ih _ h.2
    exact ⟨hfault.trans (hf cidr s).1, hread.trans (hf cidr s).2⟩

theorem write_kernel (effect : Maps → Maps) (note : List LpmKey → List LpmKey) (s : RiskState) :
    s.SameKernel (RiskState.write effect note s).2 := by
  rw [write_run]
  split_ifs <;> exact ⟨rfl, rfl⟩

theorem forward_cases (target : List LpmKey) (s : RiskState) (hread : ∀ i, s.readFault i = false) :
    Forwarded target s (forward target s.cache s).1 (forward target s.cache s).2 := by
  obtain ⟨staged, hadded, hstaged⟩ := untilFailure_run BpfLpmMap.set (toStage target s) s
  unfold forward
  rw [run_bind]
  set loop := untilFailure BpfLpmMap.set (toStage target s) s with hloop
  have hstage : untilFailure BpfLpmMap.set (sortedCidrs (setDiff target s.cache)) s = loop := rfl
  rw [hstage]
  cases hleft : loop.1.2 with
  | some cidr =>
    rw [hleft] at hstaged
    obtain ⟨⟨rest, hrest⟩, hfail, hlast⟩ := hstaged
    simp only [run_pure, hlast]
    exact .staging loop.1.1 rest cidr staged _ hrest hadded (set_stopped cidr staged hfail)
  | none =>
    rw [hleft] at hstaged
    obtain ⟨hdone, hlast⟩ := hstaged
    rw [hdone] at hadded
    simp only [run_bind, hlast, hdone]
    obtain ⟨e, hremoved, hstale⟩ := untilFailure_run BpfLpmMap.delete (toRemove target s) staged
    set loop' := untilFailure BpfLpmMap.delete (toRemove target s) staged with hloop'
    have hremove : untilFailure BpfLpmMap.delete (sortedCidrs (setDiff s.cache target)) staged =
      loop' := rfl
    rw [hremove]
    cases hleft' : loop'.1.2 with
    | some cidr =>
      rw [hleft'] at hstale
      obtain ⟨⟨rest, hrest⟩, hfail, hlast'⟩ := hstale
      simp only [run_pure, hlast']
      exact .removing staged e _ loop'.1.1 rest cidr hadded hrest hremoved
        (delete_stopped cidr e hfail)
    | none =>
      rw [hleft'] at hstale
      obtain ⟨hdone', hlast'⟩ := hstale
      rw [hdone'] at hremoved
      simp only [run_bind, hlast', hdone']
      have hkernel := allSucceed_kernel (fun _ s => write_kernel _ _ s) _ s staged hadded
      have hkernel' := allSucceed_kernel (fun _ s => write_kernel _ _ s) _ staged e hremoved
      have hreads : ∀ i, e.readFault i = false := by
        rw [hkernel'.2, hkernel.2]
        exact hread
      cases hactive : (setActive (target ≠ []) e).1 with
      | true =>
        simp only [↓reduceIte, run_pure]
        exact .finished staged e hadded hremoved hactive
      | false =>
        simp only [Bool.false_eq_true, ↓reduceIte, run_pure]
        exact .activating staged e _ hadded hremoved (setActive_stopped _ e hreads hactive)

/-- The `try` block after `added` and `removed`, before its next write. -/
structure Halfway (target : List LpmKey) (s : RiskState) (added removed : List LpmKey)
    (e : RiskState) : Prop where
  staged : ∀ k ∈ added, k ∈ target ∧ k ∉ s.cache
  stale : ∀ k ∈ removed, k ∈ s.cache ∧ k ∉ target
  inStage : added = (toStage target s).take added.length
  inRemove : removed = (toRemove target s).take removed.length
  inOrder : removed = [] ∨ added = toStage target s
  mirrored : e.Mirrored
  cached : ∀ k, k ∈ e.cache ↔ (k ∈ s.cache ∨ k ∈ added) ∧ k ∉ removed
  runtimeCfg : e.maps.runtimeCfg = s.maps.runtimeCfg
  kernel : s.SameKernel e
  calls : e.log.length = s.log.length + (added.length + removed.length)
  unfailed : ∀ i, i < added.length + removed.length → s.fault (s.log.length + i) = false
  seen : Saw (fun m => AtLeast s.maps.runtimeCfg (· ∈ s.cache) m ∨
    AtLeast s.maps.runtimeCfg (· ∈ target) m) s e

theorem halfway (target : List LpmKey) (s staged e : RiskState) (added removed : List LpmKey)
    (hs : s.Mirrored) (htarget : ∀ k ∈ target, k.IsNetwork) (hadd : ∃ rest, toStage target s = added ++ rest)
    (hdel : ∃ rest, toRemove target s = removed ++ rest)
    (horder : removed = [] ∨ added = toStage target s)
    (hadded : AllSucceed BpfLpmMap.set added s staged)
    (hremoved : AllSucceed BpfLpmMap.delete removed staged e) :
    Halfway target s added removed e := by
  obtain ⟨rest, hadd⟩ := hadd
  obtain ⟨rest', hdel⟩ := hdel
  have hstage (k : LpmKey) : k ∈ toStage target s ↔ k ∈ target ∧ k ∉ s.cache := by
    rw [toStage, mem_sortedCidrs, mem_setDiff]
  have hremove (k : LpmKey) : k ∈ toRemove target s ↔ k ∈ s.cache ∧ k ∉ target := by
    rw [toRemove, mem_sortedCidrs, mem_setDiff]
  have hin : ∀ k ∈ added, k ∈ target ∧ k ∉ s.cache := by
    intro k hk
    rw [← hstage, hadd]
    exact List.mem_append_left rest hk
  have hout : ∀ k ∈ removed, k ∈ s.cache ∧ k ∉ target := by
    intro k hk
    rw [← hremove, hdel]
    exact List.mem_append_left rest' hk
  have hw := allSucceed_set added s staged hadded hs fun k hk => htarget k (hin k hk).1
  have hw' := allSucceed_delete removed staged e hremoved hw.mirrored
    fun k hk => hs.networks k (hout k hk).1
  have hraw := hw.runtimeCfg
  refine ⟨hin, hout, ?_, ?_, horder, hw'.mirrored, ?_, hw'.runtimeCfg.trans hraw,
    ⟨hw'.kernel.1.trans hw.kernel.1, hw'.kernel.2.trans hw.kernel.2⟩, ?_, ?_, ?_⟩
  · rw [hadd, List.take_left]
  · rw [hdel, List.take_left]
  · intro k
    rw [hw'.cached k, hw.cached k]
  · rw [hw'.calls, hw.calls, Nat.add_assoc]
  · intro i hi
    by_cases hfirst : i < added.length
    · exact hw.unfailed i hfirst
    · have hsecond := hw'.unfailed (i - added.length) (by omega)
      rw [hw.kernel.1, hw.calls] at hsecond
      rw [← hsecond]
      congr 1
      omega
  · have hfirst : Saw (fun m => AtLeast s.maps.runtimeCfg (· ∈ s.cache) m ∨
        AtLeast s.maps.runtimeCfg (· ∈ target) m) s staged := saw_mono hw.seen fun m hm => Or.inl hm
    rcases horder with hnone | hall
    · subst hnone
      rw [show e = staged from hremoved]
      exact hfirst
    · -- once a network is removed every new one is there
      refine saw_trans hfirst (saw_mono hw'.seen fun m hm => Or.inr ?_)
      rw [hraw] at hm
      refine atLeast_mono hm fun k hk => ?_
      refine ⟨(hw.cached k).mpr ?_, fun h => (hout k h).2 hk⟩
      by_cases hcached : k ∈ s.cache
      · exact Or.inl hcached
      · rw [hall]
        exact Or.inr ((hstage k).mpr ⟨hk, hcached⟩)

/-- The `try` block either stops somewhere or reaches its end. -/
theorem forwarded_halfway (target : List LpmKey) (s u : RiskState) (progress : Progress)
    (h : Forwarded target s progress u) (hs : s.Mirrored) (htarget : ∀ k ∈ target, k.IsNetwork) :
    ∃ e, Halfway target s progress.added progress.removed e ∧
      match progress.raised with
      | some _ => Stopped e u
      | none => progress.added = toStage target s ∧ progress.removed = toRemove target s ∧
        (setActive (target ≠ []) e).1 = true ∧ u = (setActive (target ≠ []) e).2 := by
  cases h with
  | staging done rest cidr e _ hstage hadded hstop =>
    exact ⟨e, halfway target s e e done [] hs htarget ⟨_, hstage⟩ ⟨_, rfl⟩ (Or.inl rfl) hadded rfl,
      hstop⟩
  | removing staged e _ done rest cidr hadded hremove hremoved hstop =>
    exact ⟨e, halfway target s staged e _ done hs htarget ⟨[], (List.append_nil _).symm⟩
      ⟨_, hremove⟩ (Or.inr rfl) hadded hremoved, hstop⟩
  | activating staged e _ hadded hremoved hstop =>
    exact ⟨e, halfway target s staged e _ _ hs htarget ⟨[], (List.append_nil _).symm⟩
      ⟨[], (List.append_nil _).symm⟩ (Or.inr rfl) hadded hremoved, hstop⟩
  | finished staged e hadded hremoved hactive =>
    exact ⟨e, halfway target s staged e _ _ hs htarget ⟨[], (List.append_nil _).symm⟩
      ⟨[], (List.append_nil _).symm⟩ (Or.inr rfl) hadded hremoved, rfl, rfl, hactive, rfl⟩

/-! The rollback. -/

theorem set_log (cidr : LpmKey) (s : RiskState) :
    ∃ m, (BpfLpmMap.set cidr s).2.log = ((BpfLpmMap.set cidr s).1, m) :: s.log := by
  simp only [BpfLpmMap.set, write_run]
  split_ifs <;> exact ⟨_, rfl⟩

theorem delete_log (cidr : LpmKey) (s : RiskState) :
    ∃ m, (BpfLpmMap.delete cidr s).2.log = ((BpfLpmMap.delete cidr s).1, m) :: s.log := by
  simp only [BpfLpmMap.delete, write_run]
  split_ifs <;> exact ⟨_, rfl⟩

theorem setActive_log (active : Bool) (s : RiskState) :
    ∃ m, (setActive active s).2.log = ((setActive active s).1, m) :: s.log := by
  simp only [setActive, setRuntimeCfg, lookupRaw, run_bind, write_run]
  split_ifs <;> exact ⟨_, rfl⟩

/-- The rollback when all its writes succeed: what it leaves, and what was seen. -/
structure RolledBack (u : RiskState) (added removed : List LpmKey) (active : Bool)
    (e : RiskState) : Prop where
  mirrored : e.Mirrored
  cached : ∀ k, k ∈ e.cache ↔ (k ∈ u.cache ∧ k ∉ added) ∨ k ∈ removed
  runtimeCfg : e.maps.runtimeCfg = some (withActive active (u.maps.runtimeCfg.getD {}))
  seen : Saw (fun m =>
    (m.runtimeCfg = u.maps.runtimeCfg ∨ m.runtimeCfg = e.maps.runtimeCfg) ∧
    ∃ cidrs, Shows cidrs m ∧ ∀ k, k ∈ u.cache ∧ k ∉ added → k ∈ cidrs) u e
  /-- Between the deletions and the writes the trie holds what both leave. -/
  gap : added ≠ [] → ∃ c ∈ writesSince u e, c.2.runtimeCfg = u.maps.runtimeCfg ∧
    ∃ cidrs, Shows cidrs c.2 ∧ ∀ k, k ∈ cidrs ↔ k ∈ u.cache ∧ k ∉ added

theorem saw_atLeast {raw : Option XdpRuntimeCfg} {keep : LpmKey → Prop} {J : Maps → Prop}
    {s e : RiskState} (h : Saw (AtLeast raw keep) s e) (hJ : ∀ m cidrs, m.runtimeCfg = raw →
      Shows cidrs m → (∀ k, keep k → k ∈ cidrs) → J m) : Saw J s e := by
  apply saw_mono h
  rintro m ⟨hraw, cidrs, hshows, hkeep⟩
  exact hJ m cidrs hraw hshows hkeep

theorem rollback_run (u : RiskState) (added removed : List LpmKey) (active : Bool)
    (hu : u.Mirrored) (hread : ∀ i, u.readFault i = false)
    (hadded : ∀ k ∈ added, k.IsNetwork) (hremoved : ∀ k ∈ removed, k.IsNetwork)
    (hok : ∀ c ∈ writesSince u (rollback added removed active u).2, c.1 = true) :
    RolledBack u added removed active (rollback added removed active u).2 := by
  set v := ((added.reverse.forM fun cidr => (discard (BpfLpmMap.delete cidr) : RiskM PUnit)) u).2
    with hv
  set w := ((removed.forM fun cidr => (discard (BpfLpmMap.set cidr) : RiskM PUnit)) v).2 with hw
  have hrun : (rollback added removed active u).2 = (setActive active w).2 := rfl
  rw [hrun] at hok ⊢
  obtain ⟨undone, hundone⟩ := forM_log BpfLpmMap.delete delete_log added.reverse u
  obtain ⟨restored, hrestored⟩ := forM_log BpfLpmMap.set set_log removed v
  obtain ⟨m, hm⟩ := setActive_log active w
  rw [← hv] at hundone
  rw [← hw] at hrestored
  have hlog : (setActive active w).2.log =
      (((setActive active w).1, m) :: restored ++ undone) ++ u.log := by
    rw [hm, hrestored, hundone, List.cons_append, List.cons_append, List.append_assoc]
  rw [writesSince_eq hlog] at hok
  have hdelete : AllSucceed BpfLpmMap.delete added.reverse u v := by
    apply forM_allSucceed BpfLpmMap.delete delete_log
    rw [← hv, writesSince_eq hundone]
    exact fun c hc => hok c (List.mem_append_right _ hc)
  have hset : AllSucceed BpfLpmMap.set removed v w := by
    apply forM_allSucceed BpfLpmMap.set set_log
    rw [← hw, writesSince_eq hrestored]
    exact fun c hc => hok c (List.mem_append_left _ (List.mem_cons_of_mem _ hc))
  have hactive : (setActive active w).1 = true :=
    hok _ (List.mem_append_left _ (List.mem_cons_self ..))
  have hd := allSucceed_delete added.reverse u v hdelete hu
    fun k hk => hadded k (List.mem_reverse.mp hk)
  have hs := allSucceed_set removed v w hset hd.mirrored hremoved
  have hreads : ∀ i, w.readFault i = false := by
    rw [hs.kernel.2, hd.kernel.2]
    exact hread
  obtain ⟨-, hlast, htrie, hcfg, hcache⟩ := setActive_activated active w hreads hactive
  generalize (setActive active w).2 = r at hlog hlast htrie hcfg hcache ⊢
  have hraw : w.maps.runtimeCfg = u.maps.runtimeCfg := hs.runtimeCfg.trans hd.runtimeCfg
  have hcached (k : LpmKey) : k ∈ w.cache ↔ (k ∈ u.cache ∧ k ∉ added) ∨ k ∈ removed := by
    rw [hs.cached k, hd.cached k, List.mem_reverse]
  have hshows : Shows w.cache r.maps := hs.mirrored.congr htrie
  refine ⟨?_, ?_, ?_, ?_, ?_⟩
  · rw [RiskState.Mirrored, hcache]
    exact hshows
  · intro k
    rw [hcache]
    exact hcached k
  · rw [hcfg, hraw]
  · refine saw_trans (saw_atLeast hd.seen ?_) (saw_trans (saw_atLeast hs.seen ?_) ⟨[_], hlast, ?_⟩)
    · intro m cidrs hm hshows hkeep
      refine ⟨Or.inl hm, cidrs, hshows, fun k hk => hkeep k ?_⟩
      rw [List.mem_reverse]
      exact hk
    · intro m cidrs hm hshows hkeep
      refine ⟨Or.inl (hm.trans hd.runtimeCfg), cidrs, hshows, fun k hk => hkeep k ?_⟩
      rw [hd.cached k, List.mem_reverse]
      exact hk
    · intro c hc
      rw [List.mem_singleton.mp hc]
      exact ⟨Or.inr rfl, w.cache, hshows, fun k hk => (hcached k).mpr (Or.inl hk)⟩
  · intro hne
    obtain ⟨log, hlogv, hle⟩ := hd.last (by simpa using hne)
    refine ⟨(true, v.maps), ?_, hd.runtimeCfg, v.cache, hd.mirrored, ?_⟩
    · have hmem : (true, v.maps) ∈ undone := by
        rw [hlogv] at hundone
        cases undone with
        | nil =>
          have hlen := congrArg List.length hundone
          rw [List.length_cons, List.nil_append] at hlen
          omega
        | cons c undone =>
          rw [List.cons_append, List.cons.injEq] at hundone
          rw [hundone.1]
          exact List.mem_cons_self ..
      rw [writesSince_eq hlog]
      exact List.mem_append_right _ hmem
    · intro k
      rw [hd.cached k, List.mem_reverse]

end AutoXdp
