import AutoXdp.DefaultDeny
import AutoXdp.RiskReplace
import Mathlib.Tactic.Basic

/-! What `replace_all` leaves behind, and what the XDP program blocks meanwhile. -/
namespace AutoXdp
open StateSteps BpfRiskMaps

/-- The `try` block of `replace_all`, from the state after `previous_flags` was read. -/
def attempted (target : List LpmKey) (s : RiskState) : Progress × RiskState :=
  forward target s.cache { s with reads := s.reads + 1 }

/-- No write of the `except` block fails. -/
def RollbackSucceeds (ip : IpParsers) (ips : List Text) (s : RiskState) : Prop :=
  ∀ target, normalizeV4 ip ips [] = .ok target →
    ∀ c ∈ writesSince (attempted target s).2 (replaceAll ip ips s).2, c.1 = true

/-- The ways through `replace_all` on a list that was accepted. -/
inductive Replaces (target : List LpmKey) (s : RiskState) : Except Raised ℕ → RiskState → Prop
  | returned (e : RiskState)
      (h : Halfway target s (toStage target s) (toRemove target s) e)
      (hactive : (setActive (target ≠ []) e).1 = true) :
      Replaces target s (.ok target.length) (setActive (target ≠ []) e).2
  | raised (added removed : List LpmKey) (raised : Raised) (e u : RiskState)
      (h : Halfway target s added removed e) (hstop : Stopped e u)
      (hu : u = (attempted target s).2) :
      Replaces target s (.error raised)
        (rollback added removed (activeIn s.maps.runtimeCfg) u).2

theorem halfway_reads {target added removed : List LpmKey} {s e : RiskState}
    (h : Halfway target { s with reads := s.reads + 1 } added removed e) :
    Halfway target s added removed e :=
  ⟨h.staged, h.stale, h.inStage, h.inRemove, h.inOrder, h.mirrored, h.cached, h.runtimeCfg,
    h.kernel, h.calls, h.unfailed, h.seen⟩

theorem replaceWith_cases (target : List LpmKey) (s : RiskState) (hs : s.Mirrored)
    (hread : ∀ i, s.readFault i = false) (htarget : ∀ k ∈ target, k.IsNetwork) :
    Replaces target s (replaceWith target s).1 (replaceWith target s).2 := by
  have hforward := forward_cases target { s with reads := s.reads + 1 } hread
  have hraw : lookupRaw s = (s.maps.runtimeCfg, { s with reads := s.reads + 1 }) := by
    simp only [lookupRaw, hread, Bool.false_eq_true, ↓reduceIte]
  obtain ⟨e, hhalf, hend⟩ := forwarded_halfway target _ _ _ hforward hs htarget
  have hloop : forward target s.cache { s with reads := s.reads + 1 } = attempted target s := rfl
  rw [hloop] at hhalf hend
  have hhalf' := halfway_reads hhalf
  simp only [replaceWith, run_get_bind]
  simp only [run_bind, hraw, hloop]
  cases hraised : (attempted target s).1.raised with
  | none =>
    rw [hraised] at hend
    obtain ⟨hadded, hremoved, hactive, hlast⟩ := hend
    rw [hadded, hremoved] at hhalf'
    simp only [run_pure, hlast]
    exact .returned e hhalf' hactive
  | some raised =>
    rw [hraised] at hend
    exact .raised _ _ raised e _ hhalf' hend rfl

theorem Halfway.disjoint {target added removed : List LpmKey} {s e : RiskState}
    (h : Halfway target s added removed e) (k : LpmKey) :
    k ∈ e.cache ∧ k ∉ added ↔ k ∈ s.cache ∧ k ∉ removed := by
  rw [h.cached k]
  have hstaged := h.staged k
  tauto

/-! What is left behind. -/

/-- The two states hold the same entries, cache and configuration. -/
structure Restored (s e : RiskState) : Prop where
  trie : ∀ k, e.maps.abuseipdb.lookup k = s.maps.abuseipdb.lookup k
  cache : ∀ k, k ∈ e.cache ↔ k ∈ s.cache
  active : activeIn e.maps.runtimeCfg = activeIn s.maps.runtimeCfg
  runtimeCfg : e.maps.runtimeCfg.getD {} = s.maps.runtimeCfg.getD {}

/-- The blocklist is `target`, which is in force unless it is empty. -/
structure Replaced (target : List LpmKey) (e : RiskState) : Prop where
  trie : ∀ k, e.maps.abuseipdb.lookup k = if k ∈ target then some 1 else none
  cache : ∀ k, k ∈ e.cache ↔ k ∈ target
  active : activeIn e.maps.runtimeCfg = true ↔ target ≠ []

theorem restored_of_rollback {target added removed : List LpmKey} {s e u r : RiskState}
    (hs : s.Mirrored) (h : Halfway target s added removed e) (hstop : Stopped e u)
    (hr : RolledBack u added removed (activeIn s.maps.runtimeCfg) r) : Restored s r := by
  have hraw : u.maps.runtimeCfg = s.maps.runtimeCfg := by rw [hstop.maps, h.runtimeCfg]
  have hcache (k : LpmKey) : k ∈ r.cache ↔ k ∈ s.cache := by
    rw [hr.cached k, hstop.cache, h.disjoint k]
    have hstale := h.stale k
    tauto
  have hcfg : r.maps.runtimeCfg = some (s.maps.runtimeCfg.getD {}) := by
    rw [hr.runtimeCfg, hraw, withActive_self]
  refine ⟨?_, hcache, ?_, ?_⟩
  · intro k
    rw [hr.mirrored.entries k, hs.entries k]
    exact if_congr (hcache k) rfl rfl
  · rw [hcfg, activeIn_eq, activeIn_eq, Option.getD_some]
  · rw [hcfg, Option.getD_some]

theorem replaced_of_finished {target : List LpmKey} {s e : RiskState}
    (h : Halfway target s (toStage target s) (toRemove target s) e)
    (hread : ∀ i, s.readFault i = false) (hactive : (setActive (target ≠ []) e).1 = true) :
    Replaced target (setActive (target ≠ []) e).2 := by
  have hreads : ∀ i, e.readFault i = false := by
    rw [h.kernel.2]
    exact hread
  have hcache (k : LpmKey) : k ∈ e.cache ↔ k ∈ target := by
    rw [h.cached k, toStage, toRemove, mem_sortedCidrs, mem_sortedCidrs, mem_setDiff, mem_setDiff]
    tauto
  obtain ⟨-, -, htrie, hcfg, hsame⟩ := setActive_activated _ e hreads hactive
  refine ⟨?_, ?_, ?_⟩
  · intro k
    rw [htrie, h.mirrored.entries k]
    exact if_congr (hcache k) rfl rfl
  · intro k
    rw [hsame]
    exact hcache k
  · rw [hcfg, activeIn_withActive, decide_eq_true_iff]

theorem rollback_of_succeeds {target added removed : List LpmKey} {s e u : RiskState} {active : Bool}
    (hs : s.Mirrored) (hread : ∀ i, s.readFault i = false) (htarget : ∀ k ∈ target, k.IsNetwork)
    (h : Halfway target s added removed e) (hstop : Stopped e u)
    (hok : ∀ c ∈ writesSince u (rollback added removed active u).2, c.1 = true) :
    RolledBack u added removed active (rollback added removed active u).2 := by
  apply rollback_run u added removed active _ _ _ _ hok
  · rw [RiskState.Mirrored, hstop.maps, hstop.cache]
    exact h.mirrored
  · rw [hstop.kernel.2, h.kernel.2]
    exact hread
  · exact fun k hk => htarget k (h.staged k hk).1
  · exact fun k hk => hs.networks k (h.stale k hk).1

theorem mem_of_untilFailure {α : Type} (f : α → RiskM Bool) (xs : List α) (s : RiskState) :
    ∀ x ∈ (untilFailure f xs s).1.1, x ∈ xs := by
  obtain ⟨e, -, hleft⟩ := untilFailure_run f xs s
  intro x hx
  cases hl : (untilFailure f xs s).1.2 with
  | none =>
    rw [hl] at hleft
    rwa [hleft.1] at hx
  | some y =>
    rw [hl] at hleft
    obtain ⟨⟨ys, hys⟩, -⟩ := hleft
    rw [hys]
    exact List.mem_append_left _ hx

theorem forward_keeps_writes {P : RiskState → Prop} (hP : WritesKeep P)
    (target previous : List LpmKey) (s : RiskState) (hs : P s)
    (htarget : ∀ k ∈ target, k.IsNetwork) (hprevious : ∀ k ∈ previous, k.IsNetwork) :
    P (forward target previous s).2 ∧
      (∀ k ∈ (forward target previous s).1.added, k.IsNetwork) ∧
      ∀ k ∈ (forward target previous s).1.removed, k.IsNetwork := by
  have hnew : ∀ k ∈ sortedCidrs (setDiff target previous), k.IsNetwork := by
    intro k hk
    rw [mem_sortedCidrs, mem_setDiff] at hk
    exact htarget k hk.1
  have hold : ∀ k ∈ sortedCidrs (setDiff previous target), k.IsNetwork := by
    intro k hk
    rw [mem_sortedCidrs, mem_setDiff] at hk
    exact hprevious k hk.1
  have hstaged := untilFailure_keeps BpfLpmMap.set _ s hs
    fun k hk s hs => hP.set k s hs (hnew k hk)
  have hadded := fun k hk => hnew k (mem_of_untilFailure BpfLpmMap.set _ s k hk)
  unfold forward
  simp only [run_bind]
  generalize untilFailure BpfLpmMap.set (sortedCidrs (setDiff target previous)) s = staged
    at hstaged hadded
  cases hl : staged.1.2 with
  | some cidr => exact ⟨hstaged, hadded, by simp [run_pure]⟩
  | none =>
    have hstale := untilFailure_keeps BpfLpmMap.delete (sortedCidrs (setDiff previous target))
      staged.2 hstaged fun k _ s hs => hP.delete k s hs
    have hremoved := fun k hk => hold k (mem_of_untilFailure BpfLpmMap.delete _ staged.2 k hk)
    simp only [run_bind]
    generalize untilFailure BpfLpmMap.delete (sortedCidrs (setDiff previous target)) staged.2 =
      stale at hstale hremoved
    cases hl' : stale.1.2 with
    | some cidr => exact ⟨hstale, hadded, hremoved⟩
    | none =>
      have hactive := hP.setActive (target ≠ []) stale.2 hstale
      simp only [run_bind]
      split_ifs
      all_goals exact ⟨hactive, hadded, hremoved⟩

theorem replaceAll_keeps {P : RiskState → Prop} (hP : WritesKeep P) (ip : IpParsers)
    (ips : List Text) (s : RiskState) (hs : P s) (hcache : ∀ k ∈ s.cache, k.IsNetwork) :
    P (replaceAll ip ips s).2 := by
  rw [replaceAll]
  cases htarget : normalizeV4 ip ips [] with
  | error raised => exact hs
  | ok target =>
    have hnetworks := normalizeV4_networks ip ips [] target htarget (by simp)
    simp only [replaceWith, run_get_bind]
    simp only [run_bind]
    have hread := hP.lookup s hs
    obtain ⟨hforward, hadded, hremoved⟩ :=
      forward_keeps_writes hP target s.cache (lookupRaw s).2 hread hnetworks hcache
    cases (forward target s.cache (lookupRaw s).2).1.raised with
    | none => exact hforward
    | some raised =>
      simp only [run_bind, run_pure]
      apply hP.setActive
      apply forM_keeps BpfLpmMap.set
      · apply forM_keeps BpfLpmMap.delete _ _ hforward
        exact fun k _ s hs => hP.delete k s hs
      · exact fun k hk s hs => hP.set k s hs (hremoved k hk)

/-- The wrapper's cache and the trie stay alike, whatever fails. -/
theorem replaceAll_mirrored (ip : IpParsers) (ips : List Text) (s : RiskState) (hs : s.Mirrored) :
    (replaceAll ip ips s).2.Mirrored := replaceAll_keeps mirrored_keeps ip ips s hs hs.networks

/-- Entries that do not parse raise before anything is written. -/
theorem replaceAll_unparsed {ip : IpParsers} {ips : List Text} {raised : Raised}
    (htarget : normalizeV4 ip ips [] = .error raised) (s : RiskState) :
    replaceAll ip ips s = (.error raised, s) := by
  rw [replaceAll, htarget]
  rfl

theorem replaceAll_parsed {ip : IpParsers} {ips : List Text} {target : List LpmKey}
    (htarget : normalizeV4 ip ips [] = .ok target) (s : RiskState) :
    replaceAll ip ips s = replaceWith target s := by
  rw [replaceAll, htarget]

theorem replaceAll_restored (ip : IpParsers) (ips : List Text) (s : RiskState) (hs : s.Mirrored)
    (hread : ∀ i, s.readFault i = false) {raised : Raised}
    (hraised : (replaceAll ip ips s).1 = .error raised) (hrollback : RollbackSucceeds ip ips s) :
    Restored s (replaceAll ip ips s).2 := by
  cases htarget : normalizeV4 ip ips [] with
  | error raised =>
    rw [replaceAll_unparsed htarget]
    exact ⟨fun _ => rfl, fun _ => Iff.rfl, rfl, rfl⟩
  | ok target =>
    have hnetworks := normalizeV4_networks ip ips [] target htarget (by simp)
    have hcases := replaceWith_cases target s hs hread hnetworks
    have hok := hrollback target htarget
    rw [replaceAll_parsed htarget] at hraised hok ⊢
    rw [hraised] at hcases
    generalize (replaceWith target s).2 = r at hcases hok ⊢
    cases hcases with
    | raised added removed _ e u h hstop hu =>
      rw [← hu] at hok
      exact restored_of_rollback hs h hstop
        (rollback_of_succeeds hs hread hnetworks h hstop hok)

theorem replaceAll_replaced (ip : IpParsers) (ips : List Text) (s : RiskState) (hs : s.Mirrored)
    (hread : ∀ i, s.readFault i = false) {n : ℕ} (hn : (replaceAll ip ips s).1 = .ok n) :
    ∃ target, normalizeV4 ip ips [] = .ok target ∧ Replaced target (replaceAll ip ips s).2 := by
  cases htarget : normalizeV4 ip ips [] with
  | error raised =>
    rw [replaceAll_unparsed htarget] at hn
    exact absurd hn nofun
  | ok target =>
    have hnetworks := normalizeV4_networks ip ips [] target htarget (by simp)
    have hcases := replaceWith_cases target s hs hread hnetworks
    rw [replaceAll_parsed htarget] at hn ⊢
    rw [hn] at hcases
    generalize (replaceWith target s).2 = r at hcases ⊢
    cases hcases with
    | returned e h hactive => exact ⟨target, rfl, replaced_of_finished h hread hactive⟩

/-- Replacement is all or nothing, whichever write fails, as long as none of the rollback's
does. -/
theorem replace_all_atomic (ip : IpParsers) (ips : List Text) (s : RiskState) (hs : s.Mirrored)
    (hread : ∀ i, s.readFault i = false) :
    (∀ raised, (replaceAll ip ips s).1 = .error raised → RollbackSucceeds ip ips s →
      Restored s (replaceAll ip ips s).2) ∧
    ∀ n, (replaceAll ip ips s).1 = .ok n →
      ∃ target, normalizeV4 ip ips [] = .ok target ∧ Replaced target (replaceAll ip ips s).2 := by
  constructor
  · intro raised hraised hrollback
    exact replaceAll_restored ip ips s hs hread hraised hrollback
  · intro n hn
    exact replaceAll_replaced ip ips s hs hread hn

/-- `ipaddress` on the entries of `sampleFeed`. -/
def sampleParsers : IpParsers where
  ipv4Network text := if text = "203.0.113.9/32".toList then some (0xcb007109, 32) else none
  ipv6Network _ := false

/-- One network is blocked, and the third write will fail. -/
def sampleRisk : RiskState where
  maps := {
    abuseipdb := (∅ : BpfMap LpmKey U32).insert ⟨8, .v4 0x0a000000⟩ 1
    runtimeCfg := some { cfgFlags := 3 } }
  fault i := i == 2
  cache := [⟨8, .v4 0x0a000000⟩]

theorem sampleRisk_mirrored : sampleRisk.Mirrored := by
  constructor
  · intro k
    by_cases hk : k = ⟨8, .v4 0x0a000000⟩
    · subst hk
      decide
    · have hne : k ∉ sampleRisk.cache := by simpa [sampleRisk] using hk
      rw [if_neg hne]
      exact AList.lookup_insert_ne hk
  · intro k hk
    rw [List.mem_singleton.mp hk]
    exact ⟨by decide, by decide⟩

/-- A comment and one address. -/
def sampleFeed : List Text := ["# feed".toList, " 203.0.113.9".toList]

theorem normalizeV4_sample :
    normalizeV4 sampleParsers sampleFeed [] = .ok [⟨32, .v4 0xcb007109⟩] := by decide +kernel

theorem rollbackSucceeds_sample : RollbackSucceeds sampleParsers sampleFeed sampleRisk := by
  intro target htarget
  obtain rfl := Except.ok.inj (normalizeV4_sample.symm.trans htarget)
  decide +kernel

theorem replace_all_atomic_undone :
    Restored sampleRisk (replaceAll sampleParsers sampleFeed sampleRisk).2 := by
  have hraised : (replaceAll sampleParsers sampleFeed sampleRisk).1 = .error .notActivated := by
    decide +kernel
  exact (replace_all_atomic sampleParsers sampleFeed sampleRisk sampleRisk_mirrored
    fun _ => rfl).1 _ hraised rollbackSucceeds_sample

/-! What is blocked meanwhile. -/

/-- The XDP program blocks this IPv4 source. -/
def blocks (m : Maps) (a : U32) : Bool := activeIn m.runtimeCfg && isSet (lpmLookup m.abuseipdb (.v4 a))

theorem onBlocklist_v4 (m : Maps) (sport dport : U16) (saddr daddr : U32) :
    onBlocklist m (.v4 sport dport saddr daddr) = blocks m saddr := by
  rw [onBlocklist, blocks]
  congr 1
  cases m.runtimeCfg <;> rfl

/-- One of the networks holds the address. -/
def Covered (cidrs : List LpmKey) (a : U32) : Prop := ∃ k ∈ cidrs, k.covers (.v4 a) = true

theorem Covered.mono {cidrs cidrs' : List LpmKey} {a : U32} (h : Covered cidrs a)
    (hsub : ∀ k ∈ cidrs, k ∈ cidrs') : Covered cidrs' a := by
  obtain ⟨k, hk, hcovers⟩ := h
  exact ⟨k, hsub k hk, hcovers⟩

theorem blocks_iff {cidrs : List LpmKey} {m : Maps} (h : Shows cidrs m) (a : U32) :
    blocks m a = true ↔ activeIn m.runtimeCfg = true ∧ Covered cidrs a := by
  rw [blocks, Bool.and_eq_true, isSet_lpmLookup m.abuseipdb (· ∈ cidrs) h.entries h.networks]
  rfl

/-- All that was blocked before is blocked, or all of the new list, and in any case what
both hold. -/
def KeepsBlocking (target : List LpmKey) (before m : Maps) : Prop :=
  ((∀ a, blocks before a = true → blocks m a = true) ∨ ∀ a, Covered target a → blocks m a = true) ∧
    ∀ a, blocks before a = true → Covered target a → blocks m a = true

/-- The maps that a reader can meet: before the call and after each of its writes. -/
def instants (ip : IpParsers) (ips : List Text) (s : RiskState) : List Maps :=
  s.maps :: (writesSince s (replaceAll ip ips s).2).map Prod.snd

/-- The first write to fail comes once everything is staged and just these are removed. -/
def StopsRemoving (target : List LpmKey) (s : RiskState) (removed : List LpmKey) : Prop :=
  ∃ r ≤ (toRemove target s).length, removed = (toRemove target s).take r ∧
    (∀ i < (toStage target s).length + r, s.fault (s.log.length + i) = false) ∧
    s.fault (s.log.length + ((toStage target s).length + r)) = true

/-- Without what is removed when a write fails, the previous list still holds all its
addresses, or all those of the new one. -/
def RemovalsCovered (target : List LpmKey) (s : RiskState) : Prop :=
  activeIn s.maps.runtimeCfg = true → ∀ removed, StopsRemoving target s removed →
    (∀ a, Covered s.cache a → Covered (setDiff s.cache removed) a) ∨
      ∀ a, Covered target a → Covered (setDiff s.cache removed) a

theorem keepsBlocking_of_or {target : List LpmKey} {before m : Maps}
    (h : (∀ a, blocks before a = true → blocks m a = true) ∨
      ∀ a, Covered target a → blocks m a = true) : KeepsBlocking target before m := by
  refine ⟨h, fun a hbefore htarget => ?_⟩
  rcases h with h | h
  · exact h a hbefore
  · exact h a htarget

theorem keepsBlocking_inactive {target : List LpmKey} {before : Maps} (m : Maps)
    (h : activeIn before.runtimeCfg = false) : KeepsBlocking target before m := by
  apply keepsBlocking_of_or
  left
  intro a ha
  rw [blocks, h] at ha
  exact absurd ha Bool.false_ne_true

/-- With the bit set it is the networks in the trie that matter. -/
theorem keepsBlocking_iff {target cidrs : List LpmKey} {s : RiskState} {m : Maps}
    (hs : s.Mirrored) (hbefore : activeIn s.maps.runtimeCfg = true)
    (hactive : activeIn m.runtimeCfg = true) (hshows : Shows cidrs m) :
    KeepsBlocking target s.maps m ↔ (∀ a, Covered s.cache a → Covered cidrs a) ∨
      ∀ a, Covered target a → Covered cidrs a := by
  have hnow (a : U32) : blocks m a = true ↔ Covered cidrs a := by
    rw [blocks_iff hshows a]
    exact and_iff_right hactive
  have hold (a : U32) : blocks s.maps a = true ↔ Covered s.cache a := by
    rw [blocks_iff hs a]
    exact and_iff_right hbefore
  constructor
  · intro h
    have hfirst := h.1
    simp only [hnow, hold] at hfirst
    exact hfirst
  · intro h
    apply keepsBlocking_of_or
    simp only [hnow, hold]
    exact h

theorem keepsBlocking_of_atLeast {target : List LpmKey} {s : RiskState} {m : Maps}
    (hs : s.Mirrored) (hbefore : activeIn s.maps.runtimeCfg = true)
    (h : AtLeast s.maps.runtimeCfg (· ∈ s.cache) m ∨ AtLeast s.maps.runtimeCfg (· ∈ target) m) :
    KeepsBlocking target s.maps m := by
  rcases h with ⟨hraw, cidrs, hshows, hkeep⟩ | ⟨hraw, cidrs, hshows, hkeep⟩
  · rw [keepsBlocking_iff hs hbefore (hraw ▸ hbefore) hshows]
    exact Or.inl fun a ha => ha.mono hkeep
  · rw [keepsBlocking_iff hs hbefore (hraw ▸ hbefore) hshows]
    exact Or.inr fun a ha => ha.mono hkeep

theorem Halfway.atLeast {target added removed : List LpmKey} {s e : RiskState}
    (h : Halfway target s added removed e) :
    AtLeast s.maps.runtimeCfg (· ∈ s.cache) e.maps ∨ AtLeast s.maps.runtimeCfg (· ∈ target) e.maps := by
  rcases h.inOrder with hnone | hall
  · refine Or.inl ⟨h.runtimeCfg, e.cache, h.mirrored, fun k hk => ?_⟩
    rw [h.cached k, hnone]
    exact ⟨Or.inl hk, List.not_mem_nil⟩
  · refine Or.inr ⟨h.runtimeCfg, e.cache, h.mirrored, fun k hk => ?_⟩
    rw [h.cached k, hall, toStage, mem_sortedCidrs, mem_setDiff]
    have hstale := h.stale k
    tauto

/-- The `try` block never uncovers anything. -/
theorem forward_keeps {target added removed : List LpmKey} {s e u : RiskState} (hs : s.Mirrored)
    (hbefore : activeIn s.maps.runtimeCfg = true) (h : Halfway target s added removed e)
    (hstop : Stopped e u) : Saw (KeepsBlocking target s.maps) s u := by
  have hseen : Saw (KeepsBlocking target s.maps) s e :=
    saw_mono h.seen fun m hm => keepsBlocking_of_atLeast hs hbefore hm
  apply saw_trans hseen
  refine ⟨[_], hstop.log, fun c hc => ?_⟩
  rw [List.mem_singleton.mp hc]
  exact keepsBlocking_of_atLeast hs hbefore h.atLeast

theorem finished_keeps {target : List LpmKey} {s e : RiskState} (hs : s.Mirrored)
    (hread : ∀ i, s.readFault i = false) (hbefore : activeIn s.maps.runtimeCfg = true)
    (h : Halfway target s (toStage target s) (toRemove target s) e)
    (hactive : (setActive (target ≠ []) e).1 = true) :
    Saw (KeepsBlocking target s.maps) s (setActive (target ≠ []) e).2 := by
  have hseen : Saw (KeepsBlocking target s.maps) s e :=
    saw_mono h.seen fun m hm => keepsBlocking_of_atLeast hs hbefore hm
  have hdone := replaced_of_finished h hread hactive
  have hreads : ∀ i, e.readFault i = false := by
    rw [h.kernel.2]
    exact hread
  apply saw_trans hseen
  obtain ⟨-, hlog, htrie, -, hcache⟩ := setActive_activated _ e hreads hactive
  refine ⟨[_], hlog, fun c hc => ?_⟩
  rw [List.mem_singleton.mp hc]
  apply keepsBlocking_of_or
  right
  rintro a ⟨k, hk, hcovers⟩
  rw [blocks_iff (h.mirrored.congr htrie)]
  refine ⟨hdone.active.mpr (List.ne_nil_of_mem hk), k, ?_, hcovers⟩
  rw [← hcache]
  exact (hdone.cache k).mpr hk

theorem Halfway.stopsRemoving {target added removed : List LpmKey} {s e u : RiskState}
    (h : Halfway target s added removed e) (hstop : Stopped e u) (hall : added = toStage target s) :
    StopsRemoving target s removed := by
  refine ⟨removed.length, ?_, h.inRemove, ?_, ?_⟩
  · have hlen := congrArg List.length h.inRemove
    rw [List.length_take] at hlen
    omega
  · rw [← hall]
    exact h.unfailed
  · have hfault := hstop.fault
    rw [h.kernel.1, h.calls, hall] at hfault
    exact hfault

/-- When nothing had to be staged, the entries that stay are the new list. -/
theorem Halfway.covered_of_none {target removed : List LpmKey} {s e : RiskState}
    (h : Halfway target s [] removed e) (hall : toStage target s = []) (a : U32)
    (ha : Covered target a) : Covered (setDiff s.cache removed) a := by
  apply ha.mono
  intro k hk
  rw [mem_setDiff]
  constructor
  · by_contra hnot
    have hmem : k ∈ toStage target s := by
      rw [toStage, mem_sortedCidrs, mem_setDiff]
      exact ⟨hk, hnot⟩
    rw [hall] at hmem
    exact List.not_mem_nil hmem
  · exact fun hremoved => (h.stale k hremoved).2 hk

theorem RolledBack.activeIn_eq {added removed : List LpmKey} {s u r : RiskState}
    (hr : RolledBack u added removed (activeIn s.maps.runtimeCfg) r) :
    activeIn r.maps.runtimeCfg = activeIn s.maps.runtimeCfg := by
  rw [hr.runtimeCfg, activeIn_withActive]

/-- In the rollback the entries never fall below what neither phase touches. -/
theorem rollback_keeps {target added removed : List LpmKey} {s e u r : RiskState} (hs : s.Mirrored)
    (hbefore : activeIn s.maps.runtimeCfg = true) (h : Halfway target s added removed e)
    (hstop : Stopped e u) (hr : RolledBack u added removed (activeIn s.maps.runtimeCfg) r)
    (hcover : RemovalsCovered target s) : Saw (KeepsBlocking target s.maps) u r := by
  have hleft : (∀ a, Covered s.cache a → Covered (setDiff s.cache removed) a) ∨
      ∀ a, Covered target a → Covered (setDiff s.cache removed) a := by
    rcases h.inOrder with hnone | hall
    · left
      intro a ha
      apply ha.mono
      intro k hk
      rw [mem_setDiff, hnone]
      exact ⟨hk, List.not_mem_nil⟩
    · exact hcover hbefore removed (h.stopsRemoving hstop hall)
  apply saw_mono hr.seen
  rintro m ⟨hraw, cidrs, hshows, hkeep⟩
  have hactive : activeIn m.runtimeCfg = true := by
    rcases hraw with hraw | hraw
    · rw [hraw, hstop.maps, h.runtimeCfg]
      exact hbefore
    · rw [hraw, hr.activeIn_eq]
      exact hbefore
  have hsub : ∀ k ∈ setDiff s.cache removed, k ∈ cidrs := by
    intro k hk
    rw [mem_setDiff] at hk
    apply hkeep k
    rw [hstop.cache, h.disjoint k]
    exact hk
  rw [keepsBlocking_iff hs hbefore hactive hshows]
  exact hleft.imp (fun hall a ha => (hall a ha).mono hsub) (fun hall a ha => (hall a ha).mono hsub)

/-- The write that fails first tells how far the `try` block came. -/
theorem Halfway.stopped_at {target added removed removed' : List LpmKey} {s e u : RiskState}
    (h : Halfway target s added removed e) (hstop : Stopped e u)
    (hremoved' : StopsRemoving target s removed') :
    added = toStage target s ∧ removed' = removed := by
  obtain ⟨r, hr, htake, hquiet, hfault'⟩ := hremoved'
  have hfault := hstop.fault
  rw [h.kernel.1, h.calls] at hfault
  have hnever (i : ℕ) (hi : s.fault (s.log.length + i) = false) :
      ¬s.fault (s.log.length + i) = true := by
    rw [hi]
    exact Bool.false_ne_true
  have hcount : added.length + removed.length = (toStage target s).length + r := by
    by_contra hne
    rcases Nat.lt_or_gt_of_ne hne with hlt | hgt
    · exact hnever _ (hquiet _ hlt) hfault
    · exact hnever _ (h.unfailed _ hgt) hfault'
  have hadded : added = toStage target s := by
    rcases h.inOrder with hnone | hall
    · have hlen := congrArg List.length h.inStage
      rw [List.length_take] at hlen
      rw [hnone, List.length_nil] at hcount
      have hfull : (toStage target s).length ≤ added.length := by omega
      have hprefix := h.inStage
      rwa [List.take_of_length_le hfull] at hprefix
    · exact hall
  refine ⟨hadded, ?_⟩
  have hlen : r = removed.length := by
    rw [hadded] at hcount
    omega
  rw [htake, hlen]
  exact h.inRemove.symm

theorem stopsRemoving_not_finished {target removed : List LpmKey} {s e : RiskState}
    (h : Halfway target s (toStage target s) (toRemove target s) e)
    (hread : ∀ i, s.readFault i = false) (hactive : (setActive (target ≠ []) e).1 = true) :
    ¬StopsRemoving target s removed := by
  rintro ⟨r, hr, -, -, hfault⟩
  have hreads : ∀ i, e.readFault i = false := by
    rw [h.kernel.2]
    exact hread
  have hlast := (setActive_activated _ e hreads hactive).fault
  rw [h.kernel.1, h.calls] at hlast
  by_cases hall : r = (toRemove target s).length
  · rw [hall, hlast] at hfault
    exact Bool.false_ne_true hfault
  · rw [h.unfailed _ (by omega)] at hfault
    exact Bool.false_ne_true hfault

theorem mem_writesSince {I J : Maps → Prop} {s u r : RiskState} (h : Saw I s u) (h' : Saw J u r)
    (c : Bool × Maps) (hc : c ∈ writesSince u r) : c ∈ writesSince s r := by
  obtain ⟨new, hlog, -⟩ := h
  obtain ⟨new', hlog', -⟩ := h'
  have hall : r.log = (new' ++ new) ++ s.log := by rw [hlog', hlog, List.append_assoc]
  rw [writesSince_eq hlog'] at hc
  rw [writesSince_eq hall]
  exact List.mem_append_left _ hc

theorem saw_instants {I : Maps → Prop} {ip : IpParsers} {ips : List Text} {s : RiskState}
    (hfirst : I s.maps) (h : Saw I s (replaceAll ip ips s).2) : ∀ m ∈ instants ip ips s, I m := by
  obtain ⟨new, hlog, hI⟩ := h
  intro m hm
  rw [instants, writesSince_eq hlog, List.mem_cons, List.mem_map] at hm
  rcases hm with rfl | ⟨c, hc, rfl⟩
  · exact hfirst
  · exact hI c hc

/-- Between the two halves of the rollback the trie holds what neither touches. -/
theorem covered_of_gap {target added removed : List LpmKey} {s e u r : RiskState} (hs : s.Mirrored)
    (hbefore : activeIn s.maps.runtimeCfg = true) (h : Halfway target s added removed e)
    (hstop : Stopped e u) (hr : RolledBack u added removed (activeIn s.maps.runtimeCfg) r)
    (hne : added ≠ []) (hkeeps : ∀ c ∈ writesSince u r, KeepsBlocking target s.maps c.2) :
    (∀ a, Covered s.cache a → Covered (setDiff s.cache removed) a) ∨
      ∀ a, Covered target a → Covered (setDiff s.cache removed) a := by
  obtain ⟨c, hc, hraw, cidrs, hshows, hexact⟩ := hr.gap hne
  have hactive : activeIn c.2.runtimeCfg = true := by
    rw [hraw, hstop.maps, h.runtimeCfg]
    exact hbefore
  have hsub : ∀ k ∈ cidrs, k ∈ setDiff s.cache removed := by
    intro k hk
    rw [hexact k, hstop.cache, h.disjoint k] at hk
    rw [mem_setDiff]
    exact hk
  have hcovered := (keepsBlocking_iff hs hbefore hactive hshows).mp (hkeeps c hc)
  exact hcovered.imp (fun hall a ha => (hall a ha).mono hsub) (fun hall a ha => (hall a ha).mono hsub)

/-- No address slips through while a list is replaced exactly when what a failing write leaves
of the old list, before the rollback, still holds all of the old or all of the new addresses. -/
theorem replace_keeps_blocking (ip : IpParsers) (ips : List Text) (s : RiskState) (hs : s.Mirrored)
    (hread : ∀ i, s.readFault i = false) (hrollback : RollbackSucceeds ip ips s) :
    match normalizeV4 ip ips [] with
    | .error _ => instants ip ips s = [s.maps]
    | .ok target => (∀ m ∈ instants ip ips s, KeepsBlocking target s.maps m) ↔
        RemovalsCovered target s := by
  cases htarget : normalizeV4 ip ips [] with
  | error raised =>
    have hrun : replaceAll ip ips s = (.error raised, s) := by
      rw [replaceAll, htarget]
      rfl
    have hnone : writesSince s s = [] := writesSince_eq (List.nil_append _).symm
    simp only [instants, hrun, hnone, List.map_nil]
  | ok target =>
    have hnetworks := normalizeV4_networks ip ips [] target htarget (by simp)
    have hrun : replaceAll ip ips s = replaceWith target s := by rw [replaceAll, htarget]
    have hcases := replaceWith_cases target s hs hread hnetworks
    have hok := hrollback target htarget
    rw [← hrun] at hcases
    cases hbefore : activeIn s.maps.runtimeCfg with
    | false =>
      refine iff_of_true (fun m _ => keepsBlocking_inactive m hbefore) ?_
      intro hactive
      rw [hbefore] at hactive
      exact absurd hactive Bool.false_ne_true
    | true =>
      have hfirst : KeepsBlocking target s.maps s.maps := keepsBlocking_of_or (Or.inl fun _ h => h)
      have hinstants := @saw_instants (KeepsBlocking target s.maps) ip ips s hfirst
      have hmem (c : Bool × Maps) (hc : c ∈ writesSince s (replaceAll ip ips s).2) :
          c.2 ∈ instants ip ips s := List.mem_cons_of_mem _ (List.mem_map_of_mem hc)
      generalize hlast : replaceAll ip ips s = last at hcases hok hinstants hmem
      obtain ⟨result, r⟩ := last
      cases hcases with
      | returned e h hactive =>
        refine iff_of_true (hinstants (finished_keeps hs hread hbefore h hactive)) ?_
        intro _ removed hremoved
        exact absurd hremoved (stopsRemoving_not_finished h hread hactive)
      | raised added removed _ e u h hstop hu =>
        rw [← hu] at hok
        have hr := rollback_of_succeeds hs hread hnetworks h hstop hok
        have hforward := forward_keeps hs hbefore h hstop
        constructor
        · intro hkeeps _ removed' hremoved'
          obtain ⟨hall, rfl⟩ := h.stopped_at hstop hremoved'
          by_cases hne : added = []
          · subst hne
            exact Or.inr (h.covered_of_none hall.symm)
          · apply covered_of_gap hs hbefore h hstop hr hne
            intro c hc
            exact hkeeps c.2 (hmem c (mem_writesSince hforward hr.seen c hc))
        · intro hcover
          exact hinstants (saw_trans hforward (rollback_keeps hs hbefore h hstop hr hcover))

theorem replace_keeps_blocking_sample :
    (∀ m ∈ instants sampleParsers sampleFeed sampleRisk,
      KeepsBlocking [⟨32, .v4 0xcb007109⟩] sampleRisk.maps m) ↔
      RemovalsCovered [⟨32, .v4 0xcb007109⟩] sampleRisk := by
  have h := replace_keeps_blocking sampleParsers sampleFeed sampleRisk sampleRisk_mirrored
    (fun _ => rfl) rollbackSucceeds_sample
  rw [normalizeV4_sample] at h
  exact h

/-- When the configuration cannot be written, the rollback empties the trie before it restores
it. -/
theorem rollback_gap :
    sampleRisk.Mirrored ∧ RollbackSucceeds sampleParsers sampleFeed sampleRisk ∧
      normalizeV4 sampleParsers sampleFeed [] = .ok [⟨32, .v4 0xcb007109⟩] ∧
      ∃ m ∈ instants sampleParsers sampleFeed sampleRisk,
        ¬KeepsBlocking [⟨32, .v4 0xcb007109⟩] sampleRisk.maps m := by
  refine ⟨sampleRisk_mirrored, rollbackSucceeds_sample, normalizeV4_sample, ?_⟩
  have hgap : ∃ m ∈ instants sampleParsers sampleFeed sampleRisk,
      blocks m 0x0a000001 = false ∧ blocks m 0xcb007109 = false := by decide +kernel
  have hold : blocks sampleRisk.maps 0x0a000001 = true := by decide +kernel
  have hnew : Covered [⟨32, .v4 0xcb007109⟩] 0xcb007109 := ⟨_, List.mem_singleton_self _, by decide⟩
  obtain ⟨m, hm, hgone, hunblocked⟩ := hgap
  refine ⟨m, hm, ?_⟩
  rintro ⟨h | h, -⟩
  · rw [h _ hold] at hgone
    exact Bool.false_ne_true hgone.symm
  · rw [h _ hnew] at hunblocked
    exact Bool.false_ne_true hunblocked.symm

end AutoXdp
