import AutoXdp.LpmSets
import AutoXdp.RiskMaps
import Mathlib.Tactic.Basic
import Mathlib.Tactic.Tauto

/-! What one write of the blocklist does, and what a loop of them does. -/
namespace AutoXdp
open StateSteps BpfRiskMaps

/-- The trie holds exactly these networks, each with the value 1. -/
structure Shows (cidrs : List LpmKey) (m : Maps) : Prop where
  entries : ∀ k, m.abuseipdb.lookup k = if k ∈ cidrs then some 1 else none
  networks : ∀ k ∈ cidrs, k.IsNetwork

namespace RiskState

/-- The trie is as the wrapper has it cached, which its constructor sees to. -/
def Mirrored (s : RiskState) : Prop := Shows s.cache s.maps

/-- Faults, clock and lookups of another state. -/
def SameKernel (s e : RiskState) : Prop := e.fault = s.fault ∧ e.readFault = s.readFault

end RiskState

/-- Each element's call succeeds, one after the other. -/
def AllSucceed {α : Type} (f : α → RiskM Bool) : List α → RiskState → RiskState → Prop
  | [], s, e => e = s
  | x :: xs, s, e => (f x s).1 = true ∧ AllSucceed f xs (f x s).2 e

/-- The maps after each write made between two states. -/
def Saw (I : Maps → Prop) (s e : RiskState) : Prop :=
  ∃ new, e.log = new ++ s.log ∧ ∀ c ∈ new, I c.2

section Saw

variable {I J : Maps → Prop} {s e u : RiskState}

theorem saw_refl (I : Maps → Prop) (s : RiskState) : Saw I s s := ⟨[], rfl, by simp⟩

theorem saw_trans (h : Saw I s e) (h' : Saw I e u) : Saw I s u := by
  obtain ⟨new, hlog, hI⟩ := h
  obtain ⟨new', hlog', hI'⟩ := h'
  refine ⟨new' ++ new, by rw [hlog', hlog, List.append_assoc], ?_⟩
  intro c hc
  rcases List.mem_append.mp hc with hc | hc
  · exact hI' c hc
  · exact hI c hc

theorem saw_mono (h : Saw I s e) (hIJ : ∀ m, I m → J m) : Saw J s e := by
  obtain ⟨new, hlog, hI⟩ := h
  exact ⟨new, hlog, fun c hc => hIJ c.2 (hI c hc)⟩

end Saw

/-! One write. -/

theorem write_run (effect : Maps → Maps) (note : List LpmKey → List LpmKey) (s : RiskState) :
    RiskState.write effect note s =
      if s.fault s.log.length then (false, { s with log := (false, s.maps) :: s.log })
      else (true, { s with
        maps := effect s.maps, log := (true, effect s.maps) :: s.log, cache := note s.cache }) :=
  rfl

theorem write_true (effect : Maps → Maps) (note : List LpmKey → List LpmKey) (s : RiskState)
    (h : (RiskState.write effect note s).1 = true) :
    s.fault s.log.length = false ∧ (RiskState.write effect note s).2 = { s with
      maps := effect s.maps, log := (true, effect s.maps) :: s.log, cache := note s.cache } := by
  rw [write_run] at h ⊢
  split_ifs at h ⊢ with hfault
  exact ⟨Bool.not_eq_true _ |>.mp hfault, rfl⟩

theorem write_false (effect : Maps → Maps) (note : List LpmKey → List LpmKey) (s : RiskState)
    (h : (RiskState.write effect note s).1 = false) :
    s.fault s.log.length = true ∧
      (RiskState.write effect note s).2 = { s with log := (false, s.maps) :: s.log } := by
  rw [write_run] at h ⊢
  split_ifs at h ⊢ with hfault
  exact ⟨hfault, rfl⟩

/-! A list of them. -/

/-- The loop that stops: what was done succeeded, and the next one failed. -/
theorem untilFailure_run {α : Type} (f : α → RiskM Bool) (xs : List α) (s : RiskState) :
    ∃ e, AllSucceed f (untilFailure f xs s).1.1 s e ∧
      match (untilFailure f xs s).1.2 with
      | none => (untilFailure f xs s).1.1 = xs ∧ (untilFailure f xs s).2 = e
      | some x => (∃ ys, xs = (untilFailure f xs s).1.1 ++ x :: ys) ∧
        (f x e).1 = false ∧ (untilFailure f xs s).2 = (f x e).2 := by
  induction xs generalizing s with
  | nil => exact ⟨s, rfl, rfl, rfl⟩
  | cons x xs ih =>
    cases hx : (f x s).1 with
    | false =>
      have hrun : untilFailure f (x :: xs) s = (([], some x), (f x s).2) := by
        simp only [untilFailure, run_bind, hx, Bool.false_eq_true, ↓reduceIte]
        rfl
      rw [hrun]
      exact ⟨s, rfl, ⟨xs, rfl⟩, hx, rfl⟩
    | true =>
      have hrun : untilFailure f (x :: xs) s =
          ((x :: (untilFailure f xs (f x s).2).1.1, (untilFailure f xs (f x s).2).1.2),
            (untilFailure f xs (f x s).2).2) := by
        simp only [untilFailure, run_bind, hx, ↓reduceIte]
        rfl
      obtain ⟨e, hdone, hleft⟩ := ih (f x s).2
      rw [hrun]
      refine ⟨e, ⟨hx, hdone⟩, ?_⟩
      cases hl : (untilFailure f xs (f x s).2).1.2 with
      | none =>
        rw [hl] at hleft
        exact ⟨congrArg (x :: ·) hleft.1, hleft.2⟩
      | some y =>
        rw [hl] at hleft
        obtain ⟨⟨ys, hys⟩, hfail, hlast⟩ := hleft
        exact ⟨⟨ys, congrArg (x :: ·) hys⟩, hfail, hlast⟩

/-- The writes made between two states, newest first. -/
def writesSince (s e : RiskState) : List (Bool × Maps) := e.log.take (e.log.length - s.log.length)

theorem writesSince_eq {s e : RiskState} {new : List (Bool × Maps)} (h : e.log = new ++ s.log) :
    writesSince s e = new := by
  have hlen : e.log.length - s.log.length = new.length := by
    rw [h, List.length_append, Nat.add_sub_cancel]
  rw [writesSince, hlen, h, List.take_left]

section Loop

variable {α : Type} (f : α → RiskM Bool) (hone : ∀ x s, ∃ m, (f x s).2.log = ((f x s).1, m) :: s.log)

include hone

theorem forM_log (xs : List α) (s : RiskState) :
    ∃ new, ((xs.forM fun x => (discard (f x) : RiskM PUnit)) s).2.log = new ++ s.log := by
  induction xs generalizing s with
  | nil => exact ⟨[], rfl⟩
  | cons x xs ih =>
    obtain ⟨m, hm⟩ := hone x s
    obtain ⟨new, hnew⟩ := ih (f x s).2
    refine ⟨new ++ [((f x s).1, m)], ?_⟩
    rw [List.append_assoc, List.singleton_append, ← hm]
    exact hnew

/-- The loop that does not look: if every write since succeeded, each of its did. -/
theorem forM_allSucceed (xs : List α) (s : RiskState)
    (hok : ∀ c ∈ writesSince s ((xs.forM fun x => (discard (f x) : RiskM PUnit)) s).2, c.1 = true) :
    AllSucceed f xs s ((xs.forM fun x => (discard (f x) : RiskM PUnit)) s).2 := by
  induction xs generalizing s with
  | nil => rfl
  | cons x xs ih =>
    have hrun : ((x :: xs).forM fun x => (discard (f x) : RiskM PUnit)) s =
        (xs.forM fun x => (discard (f x) : RiskM PUnit)) (f x s).2 := rfl
    obtain ⟨m, hm⟩ := hone x s
    obtain ⟨new, hnew⟩ := forM_log f hone xs (f x s).2
    rw [hrun] at hok ⊢
    have hall : writesSince s ((xs.forM fun x => (discard (f x) : RiskM PUnit)) (f x s).2).2 =
        new ++ [((f x s).1, m)] := by
      apply writesSince_eq
      rw [hnew, hm, List.append_assoc]
      rfl
    rw [hall] at hok
    constructor
    · exact hok ((f x s).1, m) (List.mem_append_right _ (List.mem_singleton_self _))
    · apply ih
      rw [writesSince_eq hnew]
      exact fun c hc => hok c (List.mem_append_left _ hc)

end Loop

/-! Writes of the trie. -/

theorem shows_insert (cidrs : List LpmKey) (cidr : LpmKey) (m : Maps) (h : Shows cidrs m)
    (hcidr : cidr.IsNetwork) :
    Shows (setAdd cidr.normalize cidrs)
      { m with abuseipdb := m.abuseipdb.insert cidr.normalize 1 } := by
  rw [hcidr.1]
  constructor
  · intro k
    by_cases hk : k = cidr
    · subst hk
      rw [AList.lookup_insert, if_pos ((mem_setAdd k k cidrs).mpr (Or.inl rfl))]
    · rw [AList.lookup_insert_ne hk, h.entries k]
      simp only [mem_setAdd, hk, false_or]
  · intro k hk
    rcases (mem_setAdd cidr k cidrs).mp hk with rfl | hk
    · exact hcidr
    · exact h.networks k hk

theorem shows_erase (cidrs : List LpmKey) (cidr : LpmKey) (m : Maps) (h : Shows cidrs m) :
    Shows (setDiscard cidr.normalize cidrs)
      { m with abuseipdb := m.abuseipdb.erase cidr.normalize } := by
  constructor
  · intro k
    by_cases hk : k = cidr.normalize
    · rw [hk, AList.lookup_erase, if_neg fun hmem => ((mem_setDiscard _ _ _).mp hmem).2 rfl]
    · rw [AList.lookup_erase_ne hk, h.entries k]
      simp only [mem_setDiscard, hk, ne_eq, not_false_eq_true, and_true]
  · intro k hk
    exact h.networks k ((mem_setDiscard _ _ _).mp hk).1

/-- The configuration is `raw`, and the trie is a set of networks with those of `keep`. -/
def AtLeast (raw : Option XdpRuntimeCfg) (keep : LpmKey → Prop) (m : Maps) : Prop :=
  m.runtimeCfg = raw ∧ ∃ cidrs, Shows cidrs m ∧ ∀ k, keep k → k ∈ cidrs

theorem atLeast_mono {raw : Option XdpRuntimeCfg} {keep keep' : LpmKey → Prop} {m : Maps}
    (h : AtLeast raw keep m) (hkeep : ∀ k, keep' k → keep k) : AtLeast raw keep' m := by
  obtain ⟨hraw, cidrs, hshows, hall⟩ := h
  exact ⟨hraw, cidrs, hshows, fun k hk => hall k (hkeep k hk)⟩

/-- Some writes of the trie, all successful: the new contents, and what was seen. -/
structure Wrote (contents : LpmKey → Prop) (keep : LpmKey → Prop) (count : ℕ) (s e : RiskState) :
    Prop where
  mirrored : e.Mirrored
  cached : ∀ k, k ∈ e.cache ↔ contents k
  runtimeCfg : e.maps.runtimeCfg = s.maps.runtimeCfg
  kernel : s.SameKernel e
  calls : e.log.length = s.log.length + count
  unfailed : ∀ i, i < count → s.fault (s.log.length + i) = false
  seen : Saw (AtLeast s.maps.runtimeCfg keep) s e
  /-- The last of them leaves the maps as they are now. -/
  last : count ≠ 0 → ∃ log, e.log = (true, e.maps) :: log ∧ s.log.length ≤ log.length

theorem allSucceed_set (cidrs : List LpmKey) (s e : RiskState)
    (h : AllSucceed BpfLpmMap.set cidrs s e) (hs : s.Mirrored)
    (hcidrs : ∀ k ∈ cidrs, k.IsNetwork) :
    Wrote (fun k => k ∈ s.cache ∨ k ∈ cidrs) (· ∈ s.cache) cidrs.length s e := by
  induction cidrs generalizing s with
  | nil =>
    subst h
    exact ⟨hs, fun k => by simp, rfl, ⟨rfl, rfl⟩, rfl, nofun, saw_refl _ _, fun h => absurd rfl h⟩
  | cons cidr cidrs ih =>
    obtain ⟨hone, hrest⟩ := h
    obtain ⟨hfault, hrun⟩ := write_true _ _ _ hone
    set s₁ := (BpfLpmMap.set cidr s).2 with hs₁
    have hnetwork := hcidrs cidr (List.mem_cons_self ..)
    have hmirrored : s₁.Mirrored := by
      rw [hs₁, BpfLpmMap.set, hrun]
      exact shows_insert s.cache cidr s.maps hs hnetwork
    have hcache : s₁.cache = setAdd cidr s.cache := by
      rw [hs₁, BpfLpmMap.set, hrun, hnetwork.1]
    have hraw : s₁.maps.runtimeCfg = s.maps.runtimeCfg := by rw [hs₁, BpfLpmMap.set, hrun]
    have hlog : s₁.log = (true, s₁.maps) :: s.log := by rw [hs₁, BpfLpmMap.set, hrun]
    obtain ⟨hm, hc, hr, hk, hcalls, hunfailed, hseen, hlast⟩ :=
      ih s₁ hrest hmirrored fun k hk => hcidrs k (List.mem_cons_of_mem cidr hk)
    have hkernel : s.SameKernel s₁ := by rw [hs₁, BpfLpmMap.set, hrun]; exact ⟨rfl, rfl⟩
    refine ⟨hm, ?_, hr.trans hraw, ⟨hk.1.trans hkernel.1, hk.2.trans hkernel.2⟩, ?_, ?_, ?_, ?_⟩
    · intro k
      rw [hc k, hcache, mem_setAdd, List.mem_cons]
      tauto
    · rw [hcalls, hlog, List.length_cons, List.length_cons]
      omega
    · intro i hi
      cases i with
      | zero => exact hfault
      | succ i =>
        have hnext := hunfailed i (Nat.lt_of_succ_lt_succ hi)
        rw [hkernel.1, hlog, List.length_cons] at hnext
        rw [← hnext]
        congr 1
        omega
    · have hfirst : Saw (AtLeast s.maps.runtimeCfg (· ∈ s.cache)) s s₁ := by
        refine ⟨[(true, s₁.maps)], hlog, ?_⟩
        intro c hc
        rw [List.mem_singleton.mp hc]
        refine ⟨hraw, s₁.cache, hmirrored, fun k hk => ?_⟩
        rw [hcache, mem_setAdd]
        exact Or.inr hk
      refine saw_trans hfirst (saw_mono hseen fun m hm => ?_)
      rw [hraw] at hm
      refine atLeast_mono hm fun k hk => ?_
      rw [hcache, mem_setAdd]
      exact Or.inr hk
    · intro _
      cases cidrs with
      | nil =>
        obtain rfl : e = s₁ := hrest
        exact ⟨s.log, hlog, le_refl _⟩
      | cons cidr' cidrs =>
        obtain ⟨log, heq, hle⟩ := hlast (by simp)
        refine ⟨log, heq, le_trans ?_ hle⟩
        rw [hlog, List.length_cons]
        omega

theorem allSucceed_delete (cidrs : List LpmKey) (s e : RiskState)
    (h : AllSucceed BpfLpmMap.delete cidrs s e) (hs : s.Mirrored)
    (hcidrs : ∀ k ∈ cidrs, k.IsNetwork) :
    Wrote (fun k => k ∈ s.cache ∧ k ∉ cidrs) (fun k => k ∈ s.cache ∧ k ∉ cidrs) cidrs.length
      s e := by
  induction cidrs generalizing s with
  | nil =>
    subst h
    exact ⟨hs, fun k => by simp, rfl, ⟨rfl, rfl⟩, rfl, nofun, saw_refl _ _, fun h => absurd rfl h⟩
  | cons cidr cidrs ih =>
    obtain ⟨hone, hrest⟩ := h
    obtain ⟨hfault, hrun⟩ := write_true _ _ _ hone
    set s₁ := (BpfLpmMap.delete cidr s).2 with hs₁
    have hnetwork := hcidrs cidr (List.mem_cons_self ..)
    have hmirrored : s₁.Mirrored := by
      rw [hs₁, BpfLpmMap.delete, hrun]
      exact shows_erase s.cache cidr s.maps hs
    have hcache : s₁.cache = setDiscard cidr s.cache := by
      rw [hs₁, BpfLpmMap.delete, hrun, hnetwork.1]
    have hraw : s₁.maps.runtimeCfg = s.maps.runtimeCfg := by rw [hs₁, BpfLpmMap.delete, hrun]
    have hlog : s₁.log = (true, s₁.maps) :: s.log := by rw [hs₁, BpfLpmMap.delete, hrun]
    obtain ⟨hm, hc, hr, hk, hcalls, hunfailed, hseen, hlast⟩ :=
      ih s₁ hrest hmirrored fun k hk => hcidrs k (List.mem_cons_of_mem cidr hk)
    have hkernel : s.SameKernel s₁ := by rw [hs₁, BpfLpmMap.delete, hrun]; exact ⟨rfl, rfl⟩
    refine ⟨hm, ?_, hr.trans hraw, ⟨hk.1.trans hkernel.1, hk.2.trans hkernel.2⟩, ?_, ?_, ?_, ?_⟩
    · intro k
      rw [hc k, hcache, mem_setDiscard, List.mem_cons]
      tauto
    · rw [hcalls, hlog, List.length_cons, List.length_cons]
      omega
    · intro i hi
      cases i with
      | zero => exact hfault
      | succ i =>
        have hnext := hunfailed i (Nat.lt_of_succ_lt_succ hi)
        rw [hkernel.1, hlog, List.length_cons] at hnext
        rw [← hnext]
        congr 1
        omega
    · have hfirst : Saw (AtLeast s.maps.runtimeCfg fun k => k ∈ s.cache ∧ k ∉ cidr :: cidrs) s s₁ := by
        refine ⟨[(true, s₁.maps)], hlog, ?_⟩
        intro c hc
        rw [List.mem_singleton.mp hc]
        refine ⟨hraw, s₁.cache, hmirrored, fun k hk => ?_⟩
        rw [hcache, mem_setDiscard]
        exact ⟨hk.1, fun h => hk.2 (h ▸ List.mem_cons_self ..)⟩
      refine saw_trans hfirst (saw_mono hseen fun m hm => ?_)
      rw [hraw] at hm
      refine atLeast_mono hm fun k hk => ?_
      rw [hcache, mem_setDiscard]
      exact ⟨⟨hk.1, fun h => hk.2 (h ▸ List.mem_cons_self ..)⟩,
        fun h => hk.2 (List.mem_cons_of_mem cidr h)⟩
    · intro _
      cases cidrs with
      | nil =>
        obtain rfl : e = s₁ := hrest
        exact ⟨s.log, hlog, le_refl _⟩
      | cons cidr' cidrs =>
        obtain ⟨log, heq, hle⟩ := hlast (by simp)
        refine ⟨log, heq, le_trans ?_ hle⟩
        rw [hlog, List.length_cons]
        omega

/-! What any write keeps, failed or not. -/

theorem set_mirrored (cidr : LpmKey) (s : RiskState) (hs : s.Mirrored) (hcidr : cidr.IsNetwork) :
    (BpfLpmMap.set cidr s).2.Mirrored := by
  rw [BpfLpmMap.set, write_run]
  split_ifs
  · exact hs
  · exact shows_insert s.cache cidr s.maps hs hcidr

theorem delete_mirrored (cidr : LpmKey) (s : RiskState) (hs : s.Mirrored) :
    (BpfLpmMap.delete cidr s).2.Mirrored := by
  rw [BpfLpmMap.delete, write_run]
  split_ifs
  · exact hs
  · exact shows_erase s.cache cidr s.maps hs

theorem setActive_mirrored (active : Bool) (s : RiskState) (hs : s.Mirrored) :
    (setActive active s).2.Mirrored := by
  simp only [setActive, setRuntimeCfg, lookupRaw, run_bind, write_run]
  split_ifs
  all_goals exact ⟨hs.entries, hs.networks⟩

/-- What no write of the wrapper changes, failed or not. -/
structure WritesKeep (P : RiskState → Prop) : Prop where
  set : ∀ (cidr : LpmKey) (s : RiskState), P s → cidr.IsNetwork → P (BpfLpmMap.set cidr s).2
  delete : ∀ (cidr : LpmKey) (s : RiskState), P s → P (BpfLpmMap.delete cidr s).2
  setActive : ∀ (active : Bool) (s : RiskState), P s → P (BpfRiskMaps.setActive active s).2
  lookup : ∀ s : RiskState, P s → P (lookupRaw s).2

theorem mirrored_keeps : WritesKeep RiskState.Mirrored where
  set := set_mirrored
  delete := delete_mirrored
  setActive := setActive_mirrored
  lookup _ hs := hs

theorem kernel_keeps (s₀ : RiskState) : WritesKeep s₀.SameKernel := by
  have hwrite (effect : Maps → Maps) (note : List LpmKey → List LpmKey) (s : RiskState)
      (hs : s₀.SameKernel s) : s₀.SameKernel (RiskState.write effect note s).2 := by
    rw [write_run]
    split_ifs <;> exact hs
  refine ⟨fun _ s hs _ => hwrite _ _ s hs, fun _ s hs => hwrite _ _ s hs, fun active s hs => ?_,
    fun _ hs => hs⟩
  simp only [setActive, setRuntimeCfg, run_bind]
  exact hwrite _ _ _ hs

theorem untilFailure_keeps {P : RiskState → Prop} {α : Type} (f : α → RiskM Bool) (xs : List α)
    (s : RiskState) (hs : P s) (hf : ∀ x ∈ xs, ∀ s : RiskState, P s → P (f x s).2) :
    P (untilFailure f xs s).2 := by
  induction xs generalizing s with
  | nil => exact hs
  | cons x xs ih =>
    have hx := hf x (List.mem_cons_self ..) s hs
    have hrest := ih (f x s).2 hx fun y hy => hf y (List.mem_cons_of_mem x hy)
    simp only [untilFailure, run_bind]
    split_ifs
    · simpa only [run_bind, run_pure] using hrest
    · simpa only [run_pure] using hx

theorem forM_keeps {P : RiskState → Prop} {α : Type} (f : α → RiskM Bool) (xs : List α)
    (s : RiskState) (hs : P s) (hf : ∀ x ∈ xs, ∀ s : RiskState, P s → P (f x s).2) :
    P ((xs.forM fun x => (discard (f x) : RiskM PUnit)) s).2 := by
  induction xs generalizing s with
  | nil => exact hs
  | cons x xs ih =>
    have hx := hf x (List.mem_cons_self ..) s hs
    exact ih (f x s).2 hx fun y hy => hf y (List.mem_cons_of_mem x hy)

/-! The bit. -/

namespace BpfRiskMaps

/-- The entry with the active bit set or cleared. -/
def withActive (active : Bool) (raw : XdpRuntimeCfg) : XdpRuntimeCfg :=
  { raw with cfgFlags := if active then raw.cfgFlags ||| xdpCfgFlagAbuseipdbEnabled
      else raw.cfgFlags &&& ~~~xdpCfgFlagAbuseipdbEnabled }

theorem activeIn_eq (raw : Option XdpRuntimeCfg) :
    activeIn raw = (raw.getD {}).cfgFlags.getLsbD 1 := by
  have hbit (flags : U32) : (flags &&& xdpCfgFlagAbuseipdbEnabled != 0) = flags.getLsbD 1 := by
    have htwo : xdpCfgFlagAbuseipdbEnabled = BitVec.twoPow 32 1 := rfl
    rw [htwo, BitVec.and_twoPow]
    cases flags.getLsbD 1 <;> decide
  rw [activeIn, hbit]
  cases raw <;> rfl

theorem activeIn_withActive (active : Bool) (raw : XdpRuntimeCfg) :
    activeIn (some (withActive active raw)) = active := by
  rw [activeIn_eq, Option.getD_some, withActive]
  cases active with
  | true => simp [xdpCfgFlagAbuseipdbEnabled]
  | false => simp [xdpCfgFlagAbuseipdbEnabled]

/-- Writing back the bit that was read changes nothing. -/
theorem withActive_self (raw : Option XdpRuntimeCfg) :
    withActive (activeIn raw) (raw.getD {}) = raw.getD {} := by
  set current := raw.getD {} with hcurrent
  have hflags : (if activeIn raw then current.cfgFlags ||| xdpCfgFlagAbuseipdbEnabled
      else current.cfgFlags &&& ~~~xdpCfgFlagAbuseipdbEnabled) = current.cfgFlags := by
    rw [activeIn_eq, ← hcurrent]
    have htwo : xdpCfgFlagAbuseipdbEnabled = BitVec.twoPow 32 1 := rfl
    rw [htwo]
    apply BitVec.eq_of_getLsbD_eq
    intro i hi
    by_cases h1 : 1 = i
    · subst h1
      cases hbit : current.cfgFlags.getLsbD 1 <;> simp
    · have h1' : ¬i = 1 := Ne.symm h1
      split_ifs <;> simp [h1', hi]
  rw [withActive, hflags]

theorem setActive_run (active : Bool) (s : RiskState) (hread : ∀ i, s.readFault i = false) :
    setActive active s = RiskState.write
      (fun m => { m with runtimeCfg := some (withActive active (s.maps.runtimeCfg.getD {})) }) id
      { s with reads := s.reads + 2 } := by
  simp only [setActive, setRuntimeCfg, lookupRaw, run_bind, hread, Bool.false_eq_true, ↓reduceIte,
    withActive]
  cases s.maps.runtimeCfg <;> rfl

/-- The bit was written. -/
structure Activated (active : Bool) (e r : RiskState) : Prop where
  fault : e.fault e.log.length = false
  log : r.log = (true, r.maps) :: e.log
  abuseipdb : r.maps.abuseipdb = e.maps.abuseipdb
  runtimeCfg : r.maps.runtimeCfg = some (withActive active (e.maps.runtimeCfg.getD {}))
  cache : r.cache = e.cache

theorem setActive_activated (active : Bool) (e : RiskState) (hread : ∀ i, e.readFault i = false)
    (h : (setActive active e).1 = true) : Activated active e (setActive active e).2 := by
  rw [setActive_run active e hread] at h ⊢
  obtain ⟨hfault, hlast⟩ := write_true _ _ _ h
  rw [hlast]
  exact ⟨hfault, rfl, rfl, rfl, rfl⟩

end BpfRiskMaps

end AutoXdp
