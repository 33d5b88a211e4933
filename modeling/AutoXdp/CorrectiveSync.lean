import AutoXdp.WatchLoop
import Mathlib.Tactic.Basic
import Mathlib.Tactic.SplitIfs

/-! When a sync with failed applies is followed by a verification and another sync. -/
namespace AutoXdp
open GuardedRun WatchState

namespace WatchState

/-- If the latest sync that finished on the open backend had failed applies, the kernel's state
was verified since and the timer runs. -/
def Armed (s : WatchState) : Prop :=
  ∀ b failures, s.backend = some b → b.lastSync = some failures → 0 < failures →
    b.verified = true ∧ s.lastEvent ≠ 0 ∧ s.firstEvent ≠ 0

/-- No sync outside the event-triggered path finishes with failed applies, and no reading that
arms the timer is zero. -/
structure SyncsClean (_ : WatchState) (env : WatchEnv) : Prop where
  sync : ∀ site failures, site ≠ .event → env.sync site = .done failures → failures = 0
  clock : ∀ site, 0 < env.clock site
  reload : ∀ cfg, env.reload = some cfg → env.clock .reload ≠ cfg.debounce

theorem armed_none (s : WatchState) (h : s.backend = none) : s.Armed := by
  intro b failures hb
  rw [h] at hb
  exact absurd hb nofun

/-- Only the backend and the timer matter. -/
theorem Armed.congr {s t : WatchState} (h : s.Armed) (hbackend : t.backend = s.backend)
    (hlast : t.lastEvent = s.lastEvent) (hfirst : t.firstEvent = s.firstEvent) : t.Armed := by
  intro b failures hb hsync hpos
  rw [hlast, hfirst]
  exact h b failures (hbackend ▸ hb) hsync hpos

theorem armed_noteSync (s : WatchState) (failures : ℕ) (h : failures = 0)
    (t : WatchState) (ht : t.backend = (s.noteSync failures).backend) : t.Armed := by
  intro b n hb hsync hpos
  rw [ht, noteSync] at hb
  cases hs : s.backend with
  | none =>
    rw [hs] at hb
    exact absurd hb nofun
  | some b' =>
    rw [hs] at hb
    obtain rfl := Option.some.inj hb
    have hn : n = BackendView.failures b' failures := (Option.some.inj hsync).symm
    rw [hn, h, BackendView.failures] at hpos
    split_ifs at hpos <;> exact absurd hpos (Nat.lt_irrefl 0)

/-- The timer is set, as it is after an event. -/
theorem Armed.set {s t : WatchState} (h : s.Armed) (hbackend : t.backend = s.backend)
    (hlast : t.lastEvent ≠ 0) (hfirst : t.firstEvent ≠ 0) : t.Armed := by
  intro b failures hb hsync hpos
  exact ⟨(h b failures (hbackend ▸ hb) hsync hpos).1, hlast, hfirst⟩

variable {env : WatchEnv}

theorem armAt_armed {s : WatchState} (h : s.Armed) (now : ℤ) (hnow : 0 < now) :
    (s.armAt now).Armed := by
  apply Armed.set (t := s.armAt now) h rfl hnow.ne'
  simp only [armAt]
  split_ifs with hzero
  · exact hnow.ne'
  · exact hzero

theorem arm_armed {s : WatchState} (h : s.Armed) (now : ℤ) (hnow : now ≠ 0) : (s.arm now).Armed :=
  Armed.set (t := s.arm now) h rfl hnow hnow

theorem openBackend_armed (s : WatchState) (hok : SyncsClean s env) (h : s.Armed) :
    (s.openBackend env).2.Armed := by
  have hfresh (t : WatchState) (xdp : Bool) (ht : t.backend = some { xdp := xdp }) : t.Armed := by
    intro b failures hb hsync
    rw [ht] at hb
    obtain rfl := Option.some.inj hb
    exact absurd hsync nofun
  rw [openBackend]
  split_ifs
  · exact h
  · cases env.opened with
    | none => exact h
    | some xdp =>
      cases hsync : env.sync .initial with
      | done failures =>
        simp only
        exact armed_noteSync { s with backend := some { xdp := xdp } } failures
          (hok.sync .initial failures nofun hsync) _ rfl
      | discovery =>
        simp only
        exact hfresh _ xdp rfl
      | broken | uncaught =>
        simp only
        exact hfresh _ xdp rfl

theorem connectSources_armed (s : WatchState) (h : s.Armed) : (s.connectSources env).2.Armed := by
  simp only [connectSources]
  split_ifs <;> exact h

theorem readRelay_armed (s : WatchState) (hok : SyncsClean s env) (h : s.Armed) :
    (s.readRelay env).2.Armed := by
  rw [readRelay]
  cases env.relayResult with
  | quiet | lost | uncaught => exact h
  | portChange =>
    cases hsync : env.sync .relay with
    | done failures =>
      simp only
      exact armed_noteSync s failures (hok.sync .relay failures nofun hsync) _ rfl
    | discovery =>
      simp only
      exact arm_armed h _ (hok.clock .relayFailed).ne'
    | broken =>
      simp only
      exact armed_none _ rfl
    | uncaught =>
      simp only
      exact h

theorem waitForEvents_armed (s : WatchState) (hok : ∀ s, SyncsClean s env) (h : s.Armed) :
    (s.waitForEvents env).2.Armed := by
  have hlost : (s.loseNetlink env).2.Armed := h
  rw [waitForEvents]
  by_cases hselect : env.selectFails = true
  · rw [if_pos hselect]
    exact hlost
  · rw [if_neg hselect]
    generalize (if s.nl then env.procEvent else some false) = answer
    cases answer with
    | none => exact hlost
    | some event =>
      have harmed : (if event then s.armAt (env.clock .procEvent) else s).Armed := by
        cases event with
        | true => exact armAt_armed h _ ((hok s).clock .procEvent)
        | false => exact h
      simp only
      generalize (if event then s.armAt (env.clock .procEvent) else s) = t at harmed ⊢
      split_ifs with hrelay
      · exact readRelay_armed t (hok t) harmed
      · exact harmed

theorem handleReload_armed (s : WatchState) (hok : SyncsClean s env) (h : s.Armed) :
    (s.handleReload env).2.Armed := by
  simp only [handleReload]
  split_ifs with hreload
  · cases hcfg : env.reload with
    | none => exact h
    | some cfg =>
      have hnow : env.clock .reload - cfg.debounce ≠ 0 := sub_ne_zero.mpr (hok.reload cfg hcfg)
      simp only
      apply arm_armed _ _ hnow
      cases (reloadedName _ cfg).1 with
      | true => exact armed_none _ rfl
      | false => exact h
  all_goals exact h

/-- The one path that looks at the failures. -/
theorem afterEventSync_armed (s : WatchState) (hok : SyncsClean s env) (failures : ℕ)
    (hgoes : (s.afterEventSync env failures).1 ≠ .stop) :
    (s.afterEventSync env failures).2.Armed := by
  cases hs : s.backend with
  | none =>
    have hsame : (s.afterEventSync env failures).2.backend = none := by
      simp [afterEventSync, noteSync, disarm, hs]
    exact armed_none _ hsame
  | some b =>
    set t : WatchState := ({ s.noteSync failures with lastReconcile := env.clock .eventSync }).disarm
      with ht
    have hb : t.backend =
        some { b with lastSync := some (BackendView.failures b failures), verified := false } := by
      rw [ht, disarm, noteSync, hs]
      rfl
    rw [afterEventSync] at hgoes ⊢
    simp only [← ht] at hgoes ⊢
    split_ifs at hgoes ⊢ with hfailed
    · cases hverify : env.verifyEvent with
      | none =>
        rw [hverify] at hgoes
        exact absurd rfl hgoes
      | some drift =>
        intro b' n hb' _ _
        have hnow := (hok.clock .corrective).ne'
        refine ⟨?_, hnow, hnow⟩
        change t.noteVerified.backend = some b' at hb'
        rw [noteVerified, hb] at hb'
        obtain rfl := Option.some.inj hb'
        rfl
    · intro b' n hb' hsync hpos
      change t.backend = some b' at hb'
      rw [hb] at hb'
      obtain rfl := Option.some.inj hb'
      have hn : n = BackendView.failures b failures := (Option.some.inj hsync).symm
      rw [hn] at hpos
      have hxdp : b.xdp = true := by
        by_contra hnot
        rw [BackendView.failures, if_neg hnot] at hpos
        exact Nat.lt_irrefl 0 hpos
      refine absurd ⟨?_, ?_⟩ hfailed
      · rw [hb, Option.any_some, decide_eq_true_iff]
        exact hpos.ne'
      · rw [hasXdp, hb]
        exact hxdp

theorem syncOnEvent_armed (s : WatchState) (hok : SyncsClean s env) (h : s.Armed)
    (hgoes : (s.syncOnEvent env).1 ≠ .stop) : (s.syncOnEvent env).2.Armed := by
  simp only [syncOnEvent] at hgoes ⊢
  split_ifs at hgoes ⊢ with hdue hdrain
  · exact absurd rfl hgoes
  · cases hsync : env.sync .event with
    | done failures =>
      rw [hsync] at hgoes
      exact afterEventSync_armed s hok failures hgoes
    | discovery => exact arm_armed h _ (hok.clock .eventFailed).ne'
    | broken => exact armed_none _ rfl
    | uncaught => exact h
  · exact h

theorem syncPeriodically_armed (s : WatchState) (hok : SyncsClean s env) (h : s.Armed) :
    (s.syncPeriodically env).2.Armed := by
  rw [syncPeriodically]
  split_ifs
  · cases hsync : env.sync .periodic with
    | done failures =>
      exact armed_noteSync s failures (hok.sync .periodic failures nofun hsync) _ rfl
    | discovery => exact h
    | broken => exact armed_none _ rfl
    | uncaught => exact h
  · exact h

theorem collectGarbage_armed (s : WatchState) (h : s.Armed) : (s.collectGarbage env).2.Armed := by
  rw [collectGarbage]
  split_ifs
  · cases env.gc <;> exact h
  · exact h

theorem noteVerified_armed {s : WatchState} (h : s.Armed) : s.noteVerified.Armed := by
  intro b failures hb hsync hpos
  rw [noteVerified] at hb
  cases hs : s.backend with
  | none =>
    rw [hs] at hb
    exact absurd hb nofun
  | some b' =>
    rw [hs] at hb
    obtain rfl := Option.some.inj hb
    exact ⟨rfl, (h b' failures hs hsync hpos).2⟩

theorem checkStale_armed (s : WatchState) (hok : SyncsClean s env) (h : s.Armed) :
    (s.checkStale env).2.Armed := by
  simp only [checkStale]
  split_ifs
  · cases env.isStale with
    | none => exact h
    | some stale =>
      cases stale with
      | true => exact armed_none _ rfl
      | false =>
        have hmarked : ({ s with lastStaleCheck := env.clock .staleMark } : WatchState).Armed := h
        cases env.verifyStale with
        | none => exact hmarked
        | some drift =>
          cases drift with
          | true => exact armAt_armed (noteVerified_armed hmarked) _ (hok.clock .drift)
          | false => exact noteVerified_armed hmarked
  · exact h
  · exact h

/-- What each part keeps, the parts in a row keep. -/
theorem inOrder_armed (parts : List (WatchState → Flow × WatchState))
    (hparts : ∀ part ∈ parts, ∀ s : WatchState, s.Armed → (part s).1 ≠ .stop → (part s).2.Armed)
    (s : WatchState) (h : s.Armed) (hgoes : (inOrder parts s).1 ≠ .stop) :
    (inOrder parts s).2.Armed := by
  induction parts generalizing s with
  | nil => exact h
  | cons part parts ih =>
    have hpart := hparts part (List.mem_cons_self ..) s h
    rw [inOrder] at hgoes ⊢
    generalize part s = r at hpart hgoes ⊢
    obtain ⟨flow, t⟩ := r
    cases flow with
    | next =>
      exact ih (fun p hp => hparts p (List.mem_cons_of_mem _ hp)) t (hpart nofun) hgoes
    | again => exact hpart nofun
    | stop => exact absurd rfl hgoes

theorem body_armed (hok : ∀ s, SyncsClean s env) (s : WatchState) (h : s.Armed)
    (hgoes : (s.body env).1 ≠ .stop) : (s.body env).2.Armed := by
  apply inOrder_armed _ _ s h hgoes
  simp only [List.forall_mem_cons, List.not_mem_nil, false_imp_iff, implies_true, and_true]
  exact ⟨fun s h _ => openBackend_armed s (hok s) h, fun s h _ => connectSources_armed s h,
    fun s h _ => waitForEvents_armed s hok h, fun s h _ => handleReload_armed s (hok s) h,
    fun s h hgoes => syncOnEvent_armed s (hok s) h hgoes,
    fun s h _ => syncPeriodically_armed s (hok s) h, fun s h _ => collectGarbage_armed s h,
    fun s h _ => checkStale_armed s (hok s) h⟩

theorem iterate_armed (s : WatchState) (h : s.Armed) (hok : SyncsClean s env) :
    (s.iterate env).Armed := by
  have hall (t : WatchState) : SyncsClean t env := ⟨hok.sync, hok.clock, hok.reload⟩
  rw [iterate]
  split_ifs
  · exact h
  · have hbody := body_armed hall s h
    generalize s.body env = r at hbody ⊢
    obtain ⟨flow, t⟩ := r
    cases flow with
    | stop => exact armed_none _ rfl
    | next => exact hbody nofun
    | again => exact hbody nofun

end WatchState

/-- A failed apply is followed by a verification and an armed timer in every run that meets
none outside the event-triggered path. -/
theorem failed_apply_armed (s : WatchState) (hs : s.backend = none) (envs : List WatchEnv)
    (hok : Guarded WatchState.iterate SyncsClean s envs) :
    (envs.foldl WatchState.iterate s).Armed :=
  invariant_run WatchState.iterate SyncsClean WatchState.Armed
    (fun s _ h hok => iterate_armed s h hok) s envs (armed_none s hs) hok

/-- An iteration, two minutes after boot, that opens the XDP backend and meets a process event
that is half a second old; the syncs finish with these failed applies. -/
def failingEnv (failures : SyncSite → ℕ) : WatchEnv where
  clock site := if site = .eventCheck then 120500000 else 120000000
  opened := some true
  netlink := true
  procEvent := some true
  sync site := .done (failures site)

/-- The sync after the event leaves one apply failed. -/
def eventFailures (site : SyncSite) : ℕ := if site = .event then 1 else 0

theorem failed_apply_armed_event :
    (WatchState.iterate {} (failingEnv eventFailures)).Armed ∧
      (WatchState.iterate {} (failingEnv eventFailures)).backend.bind BackendView.lastSync =
        some 1 := by
  refine ⟨failed_apply_armed {} rfl [failingEnv eventFailures] ⟨⟨?_, ?_, ?_⟩, trivial⟩,
    by decide +kernel⟩
  · intro site failures hsite hsync
    obtain rfl := SyncResult.done.inj hsync
    exact if_neg hsite
  · intro site
    cases site <;> decide
  · intro cfg hcfg
    exact absurd hcfg nofun

/-- An iteration without events whose initial sync leaves one apply failed. -/
def quietEnv : WatchEnv where
  clock _ := 120000000
  opened := some true
  sync _ := .done 1

/-- Nothing schedules another sync. -/
theorem failed_apply_forgotten :
    ¬∀ (s : WatchState) (envs : List WatchEnv), s.backend = none →
      (envs.foldl WatchState.iterate s).Armed := by
  intro hall
  have harmed := hall {} [quietEnv] rfl
  have hbackend : ([quietEnv].foldl WatchState.iterate {}).backend =
      some { xdp := true, lastSync := some 1, verified := true } := by decide +kernel
  have hlast : ([quietEnv].foldl WatchState.iterate {}).lastEvent = 0 := by decide +kernel
  exact (harmed _ 1 hbackend rfl (by decide)).2.1 hlast

end AutoXdp
