import AutoXdp.RateBuckets
import AutoXdp.UdpGlobalPerSecond
import Mathlib.Tactic.Basic

/-! Limits as units for each second, whatever the window: the window limiters on one
bucket, and the global limiter on one CPU. -/
namespace AutoXdp

/-! The window limiters. -/

/-- The units of one bucket that were admitted at times from `start` to `stop`. -/
def admittedUnits (limiter : RateLimiter) (rules : U32 → RateRule) (b : Bucket) (start stop : ℕ)
    (log : List (RatePacket × XdpAction)) : ℕ :=
  (log.map fun e =>
    if (e.2 = .pass ∧ (rules e.1.destPort).bucket e.1 = b) ∧
        start ≤ e.1.now.toNat ∧ e.1.now.toNat ≤ stop then (limiter.units e.1).toNat
    else 0).sum

/-- In every run with a clock that does not go back, any `span` nanoseconds admit at most
the rate for that time and three windows. -/
def WindowPerSecond (limiter : RateLimiter) (cfg : Option XdpRuntimeCfg) (rules : U32 → RateRule)
    (l : Limits) (b : Bucket) : Prop :=
  ∀ packets : List RatePacket, (packets.Pairwise fun p q => p.now.toNat ≤ q.now.toNat) →
    ∀ start span : ℕ, admittedUnits limiter rules b start (start + span)
        (packets.foldl (limiter.step cfg rules) { l := l }).log * 1000000000 ≤
      (rules b.2).rateMax.toNat * (span + 3*(cfgRateWindowNs cfg).toNat)

section WindowPart

variable (limiter : RateLimiter) (cfg : Option XdpRuntimeCfg) (rules : U32 → RateRule)
  (b : Bucket) (start stop : ℕ)

def wordCount (w : Option U64) : ℕ := (w.map fun v => (stateCount v).toNat).getD 0

/-- The windows started in the interval: the first at or after `start`, the others each a
window later. -/
structure WindowsStarted (ticks last : ℕ) (w : Option U64) (n : ℕ) : Prop where
  spaced : n ≠ 0 → ∃ v tick, w = some v ∧ stateTick v = BitVec.ofNat 32 tick ∧
    start/1000000 + (n-1)*ticks ≤ tick ∧ tick ≤ last/1000000

/-- The admitted units are paid by the windows started in the interval and the count of
the present one. -/
structure AdmittedInv (rate ticks last : ℕ) (w : Option U64) (admitted : ℕ) : Prop where
  before : last < start → admitted = 0
  paid : ∃ n, admitted ≤ rate*n + min (wordCount w) rate ∧ WindowsStarted start ticks last w n
  bound : ∃ n, admitted ≤ rate*(n+1) ∧ (n ≠ 0 → start/1000000 + (n-1)*ticks ≤ stop/1000000)

variable {start stop} {rate ticks last : ℕ} {w : Option U64} {admitted : ℕ}

/-- Nothing changes in the bucket. -/
theorem admittedInv_same (h : AdmittedInv start stop rate ticks last w admitted) (now : ℕ)
    (hnow : last ≤ now) : AdmittedInv start stop rate ticks now w admitted := by
  refine ⟨fun hlt => h.before (hnow.trans_lt hlt), ?_, h.bound⟩
  obtain ⟨n, hpaid, hstarted⟩ := h.paid
  refine ⟨n, hpaid, ⟨fun hn => ?_⟩⟩
  obtain ⟨v, tick, hw, htick, hle, hlast⟩ := hstarted.spaced hn
  exact ⟨v, tick, hw, htick, hle, hlast.trans (Nat.div_le_div_right hnow)⟩

/-- A later tick, seen through 32 bits, is a window ahead only if it is. -/
theorem elapsed_le (now : U64) (tick ticks : ℕ) (htick : tick ≤ now.toNat/1000000)
    (h : ticks ≤ (rateStateTick now - BitVec.ofNat 32 tick).toNat) :
    tick + ticks ≤ now.toNat/1000000 := by
  have hnow : (rateStateTick now).toNat = now.toNat/1000000 % 2^32 := by
    rw [rateStateTick, BitVec.toNat_setWidth, BitVec.toNat_udiv]
    rfl
  rw [BitVec.toNat_sub, BitVec.toNat_ofNat, hnow] at h
  omega

/-- The units that an admitted increment adds to the interval. -/
def intervalUnits (start stop now inc : ℕ) : ℕ := if start ≤ now ∧ now ≤ stop then inc else 0

theorem intervalUnits_le (start stop now inc : ℕ) : intervalUnits start stop now inc ≤ inc := by
  unfold intervalUnits
  split_ifs
  · exact Nat.le_refl _
  · exact Nat.zero_le _

theorem intervalUnits_before (stop now inc : ℕ) (h : now < start) :
    intervalUnits start stop now inc = 0 := if_neg fun hin => Nat.not_le.mpr h hin.1

theorem intervalUnits_after (start now inc : ℕ) (h : stop < now) :
    intervalUnits start stop now inc = 0 := if_neg fun hin => Nat.not_le.mpr h hin.2

/-- An increment that starts a window. -/
theorem admittedInv_started (h : AdmittedInv start stop rate ticks last w admitted) (now : U64)
    (hnow : last ≤ now.toNat) (inc : U32) (hinc : inc.toNat ≤ rate)
    (hticks : ∀ v, w = some v → ticks ≤ (rateStateTick now - stateTick v).toNat) :
    AdmittedInv start stop rate ticks now.toNat (some (statePack (rateStateTick now) inc))
      (admitted + intervalUnits start stop now.toNat inc.toNat) := by
  have hcount : wordCount (some (statePack (rateStateTick now) inc)) = inc.toNat := by
    rw [wordCount, Option.map_some, stateCount_pack]
    rfl
  have hunits := intervalUnits_le start stop now.toNat inc.toNat
  have hbefore (hlt : now.toNat < start) :
      admitted + intervalUnits start stop now.toNat inc.toNat = 0 := by
    rw [h.before (hnow.trans_lt hlt), intervalUnits_before stop _ _ hlt]
  by_cases hlt : now.toNat < start
  · rw [hbefore hlt]
    exact ⟨fun _ => rfl, ⟨0, Nat.zero_le _, ⟨fun h => absurd rfl h⟩⟩,
      ⟨0, Nat.zero_le _, fun h => absurd rfl h⟩⟩
  obtain ⟨n, hpaid, hstarted⟩ := h.paid
  have hspaced : start/1000000 + n*ticks ≤ now.toNat/1000000 := by
    by_cases hn : n = 0
    · subst hn
      have := Nat.div_le_div_right (c := 1000000) (Nat.le_of_not_lt hlt)
      omega
    · obtain ⟨v, tick, hw, htick, hle, hlast⟩ := hstarted.spaced hn
      have hlate := hticks v hw
      rw [htick] at hlate
      have hgap := elapsed_le now tick ticks
        (hlast.trans (Nat.div_le_div_right hnow)) hlate
      obtain ⟨m, rfl⟩ := Nat.exists_eq_succ_of_ne_zero hn
      rw [Nat.succ_mul]
      rw [Nat.succ_sub_one] at hle
      omega
  refine ⟨fun hlt' => absurd hlt' hlt, ⟨n+1, ?_, ⟨fun _ => ?_⟩⟩, ?_⟩
  · rw [hcount, Nat.min_eq_left hinc, Nat.mul_succ]
    have hold := Nat.min_le_right (wordCount w) rate
    omega
  · refine ⟨_, now.toNat/1000000, rfl, ?_, by rwa [Nat.add_sub_cancel], Nat.le_refl _⟩
    rw [stateTick_pack]
    apply BitVec.eq_of_toNat_eq
    rw [rateStateTick, BitVec.toNat_setWidth, BitVec.toNat_udiv, BitVec.toNat_ofNat]
    rfl
  · by_cases hstop : now.toNat ≤ stop
    · refine ⟨n+1, ?_, fun _ => ?_⟩
      · rw [Nat.mul_succ, Nat.mul_succ]
        have hold := Nat.min_le_right (wordCount w) rate
        omega
      · rw [Nat.add_sub_cancel]
        exact hspaced.trans (Nat.div_le_div_right hstop)
    · rw [intervalUnits_after start _ _ (Nat.lt_of_not_le hstop), Nat.add_zero]
      exact h.bound

/-- An increment that is counted in the present window. -/
theorem admittedInv_counted {v : U64}
    (h : AdmittedInv start stop rate ticks last (some v) admitted) (now : ℕ)
    (hnow : last ≤ now) (inc : U32) (hroom : (stateCount v).toNat + inc.toNat ≤ rate)
    (hrate : rate < 2^32) :
    AdmittedInv start stop rate ticks now (some (statePack (stateTick v) (stateCount v + inc)))
      (admitted + intervalUnits start stop now inc.toNat) := by
  have hcount : wordCount (some (statePack (stateTick v) (stateCount v + inc))) =
      wordCount (some v) + inc.toNat := by
    rw [wordCount, Option.map_some, stateCount_pack, Option.getD_some, BitVec.toNat_add]
    exact Nat.mod_eq_of_lt (by omega)
  have hle : wordCount (some v) + inc.toNat ≤ rate := hroom
  have hunits := intervalUnits_le start stop now inc.toNat
  obtain ⟨n, hpaid, hstarted⟩ := h.paid
  have hspaced : n ≠ 0 → ∃ v' tick, some (statePack (stateTick v) (stateCount v + inc)) = some v' ∧
      stateTick v' = BitVec.ofNat 32 tick ∧ start/1000000 + (n-1)*ticks ≤ tick ∧
        tick ≤ last/1000000 := by
    intro hn
    obtain ⟨v', tick, hw, htick, hlate⟩ := hstarted.spaced hn
    cases hw
    exact ⟨_, tick, rfl, (stateTick_pack _ _).trans htick, hlate⟩
  refine ⟨fun hlt => ?_, ⟨n, ?_, ⟨fun hn => ?_⟩⟩, ?_⟩
  · rw [h.before (hnow.trans_lt hlt), intervalUnits_before stop _ _ hlt]
  · rw [hcount, Nat.min_eq_left hle]
    have hold := Nat.min_le_left (wordCount (some v)) rate
    omega
  · obtain ⟨v', tick, hw, htick, hle, hlast⟩ := hspaced hn
    exact ⟨v', tick, hw, htick, hle, hlast.trans (Nat.div_le_div_right hnow)⟩
  · by_cases hstop : now ≤ stop
    · refine ⟨n, ?_, fun hn => ?_⟩
      · rw [Nat.mul_succ]
        have hold := Nat.min_le_left (wordCount (some v)) rate
        omega
      · obtain ⟨v', tick, -, -, hle, hlast⟩ := hspaced hn
        exact (hle.trans hlast).trans (Nat.div_le_div_right (hnow.trans hstop))
    · rw [intervalUnits_after start _ _ (Nat.lt_of_not_le hstop), Nat.add_zero]
      exact h.bound

/-- The units after one more packet. -/
theorem admittedUnits_other (p : RatePacket) (v : XdpAction) (log : List (RatePacket × XdpAction))
    (h : ¬(v = .pass ∧ (rules p.destPort).bucket p = b)) :
    admittedUnits limiter rules b start stop ((p, v) :: log) =
      admittedUnits limiter rules b start stop log := by
  rw [admittedUnits, List.map_cons, List.sum_cons, if_neg fun hin => h hin.1, Nat.zero_add]
  rfl

theorem admittedUnits_pass (p : RatePacket) (log : List (RatePacket × XdpAction))
    (h : (rules p.destPort).bucket p = b) :
    admittedUnits limiter rules b start stop ((p, .pass) :: log) =
      admittedUnits limiter rules b start stop log +
        intervalUnits start stop p.now.toNat (limiter.units p).toNat := by
  rw [admittedUnits, List.map_cons, List.sum_cons, Nat.add_comm]
  refine congrArg₂ _ rfl (if_congr ⟨fun hin => hin.2, fun hin => ⟨⟨rfl, h⟩, hin⟩⟩ rfl rfl)

/-- Units within 32 bits are stored as they are. -/
theorem setWidth_units {units : U64} (h32 : units ≤ 0xFFFFFFFF) :
    (units.setWidth 32 : U32).toNat = units.toNat := by
  have hle : units.toNat ≤ 0xFFFFFFFF := h32
  rw [BitVec.toNat_setWidth]
  exact Nat.mod_eq_of_lt (by omega)

/-- One packet of the run. -/
theorem admittedInv_step (hrate : (rules b.2).rateMax ≠ 0) (s : RateRun)
    (hslot : limiter.Slotted s.l b)
    (h : AdmittedInv start stop (rules b.2).rateMax.toNat
      (rateStateWindowTicks (cfgRateWindowNs cfg)).toNat last (limiter.word s.l b)
      (admittedUnits limiter rules b start stop s.log))
    (p : RatePacket) (hnow : last ≤ p.now.toNat) :
    AdmittedInv start stop (rules b.2).rateMax.toNat
      (rateStateWindowTicks (cfgRateWindowNs cfg)).toNat p.now.toNat
      (limiter.word (limiter.step cfg rules s p).l b)
      (admittedUnits limiter rules b start stop (limiter.step cfg rules s p).log) := by
  have hspec := RateLimiter.check_spec cfg (rules p.destPort) p s.l limiter
  set check := limiter.check cfg (rules p.destPort) p s.l
  change AdmittedInv start stop _ _ _ (limiter.word check.2 b)
    (admittedUnits limiter rules b start stop ((p, check.1) :: s.log))
  by_cases hb : (rules p.destPort).bucket p = b
  · have hport : p.destPort = b.2 := congrArg Prod.snd hb
    have hslot' : limiter.Slotted s.l ((rules p.destPort).bucket p) := by rwa [hb]
    have hrate' : (rules p.destPort).rateMax ≠ 0 := by rwa [hport]
    have hverdict : check.1 = _ := hspec.verdict hrate' hslot'
    have hword : limiter.word check.2 b = _ := hspec.word hrate' hslot' b
    clear_value check
    rw [if_pos hb.symm, hb] at hword
    rw [hb] at hverdict
    have hout := windowRateCheck_outcome p.now (cfgRateWindowNs cfg) (limiter.units p)
      ((rules p.destPort).rateMax.setWidth 64) (limiter.word s.l b)
    change WindowOutcome _ _ _ _ _
      ((limiter.program cfg (rules p.destPort) p).exec _ _).1
      ((limiter.program cfg (rules p.destPort) p).exec _ _).2 at hout
    rw [← hverdict, ← hword, hport] at hout
    have hlimit : ((rules b.2).rateMax.setWidth 64 : U64).toNat = (rules b.2).rateMax.toNat :=
      BitVec.toNat_setWidth_of_le (by decide)
    have hlt := (rules b.2).rateMax.isLt
    generalize check.1 = v at hout ⊢
    generalize limiter.word check.2 b = w' at hout ⊢
    cases hout with
    | refused =>
      rw [admittedUnits_other limiter rules b p .drop s.log (by exact nofun)]
      exact admittedInv_same h _ hnow
    | started hinc h32 hold =>
      rw [admittedUnits_pass limiter rules b p s.log hb, ← setWidth_units h32]
      refine admittedInv_started h p.now hnow _ ?_ hold
      rw [setWidth_units h32, ← hlimit]
      exact hinc
    | counted hinc h32 v hw hcount hroom =>
      rw [admittedUnits_pass limiter rules b p s.log hb, ← setWidth_units h32]
      rw [hw] at h
      refine admittedInv_counted h _ hnow _ ?_ hlt
      have hback : ((rules b.2).rateMax.setWidth 64 : U64).setWidth 32 = (rules b.2).rateMax := by
        rw [BitVec.setWidth_setWidth_of_le _ (by decide), BitVec.setWidth_eq]
      rw [hback] at hcount hroom
      have hroom' := BitVec.le_def.mp hroom
      rw [BitVec.toNat_sub_of_le hcount] at hroom'
      have hcount' := BitVec.le_def.mp hcount
      omega
  · -- a packet of another bucket, or one that no limit applies to
    have hword : limiter.word check.2 b = limiter.word s.l b := by
      by_cases hopen : (rules p.destPort).rateMax = 0 ∨
          ¬limiter.Slotted s.l ((rules p.destPort).bucket p)
      · exact hspec.open_word hopen b
      · rw [not_or, not_not] at hopen
        exact (hspec.word hopen.1 hopen.2 b).trans (if_neg fun h => hb h.symm)
    rw [hword, admittedUnits_other limiter rules b p check.1 s.log fun h => hb h.2]
    exact admittedInv_same h _ hnow

theorem admittedInv_run (hrate : (rules b.2).rateMax ≠ 0) (packets : List RatePacket) (s : RateRun)
    (last : ℕ) (hslot : limiter.Slotted s.l b)
    (hforward : packets.Pairwise fun p q => p.now.toNat ≤ q.now.toNat)
    (hlast : ∀ p ∈ packets, last ≤ p.now.toNat)
    (h : AdmittedInv start stop (rules b.2).rateMax.toNat
      (rateStateWindowTicks (cfgRateWindowNs cfg)).toNat last (limiter.word s.l b)
      (admittedUnits limiter rules b start stop s.log)) :
    ∃ last', AdmittedInv start stop (rules b.2).rateMax.toNat
      (rateStateWindowTicks (cfgRateWindowNs cfg)).toNat last'
      (limiter.word (packets.foldl (limiter.step cfg rules) s).l b)
      (admittedUnits limiter rules b start stop (packets.foldl (limiter.step cfg rules) s).log) := by
  induction packets generalizing s last with
  | nil => exact ⟨last, h⟩
  | cons p packets ih =>
    obtain ⟨hfirst, hrest⟩ := List.pairwise_cons.mp hforward
    have hslot' : limiter.Slotted (limiter.step cfg rules s p).l b :=
      ((RateLimiter.check_spec cfg (rules p.destPort) p s.l limiter).slotted b).mpr hslot
    exact ih (limiter.step cfg rules s p) p.now.toNat hslot' hrest hfirst
      (admittedInv_step limiter cfg rules b hrate s hslot h p (hlast p (List.mem_cons_self ..)))

/-- A window of more than 999 ms is at least 1000 ticks. -/
theorem thousand_ticks (windowNs : U64) (h : 999000000 < windowNs.toNat) :
    1000 ≤ (rateStateWindowTicks windowNs).toNat := by
  have htick : rateStateTickNs.toNat = 1000000 := by decide
  rw [rateStateWindowTicks, clampTicks_toNat _ _ (by rw [htick]; decide), htick]
  split_ifs with hmod <;> omega

/-- Windows that are a thousand ticks apart take a second each. -/
theorem windows_le {n ticks span windowNs : ℕ} (hn : n ≠ 0) (hticks : 1000 ≤ ticks)
    (hwindow : 999000000 < windowNs)
    (hspaced : start/1000000 + (n-1)*ticks ≤ (start + span)/1000000) :
    (n+1)*1000000000 ≤ span + 3*windowNs := by
  obtain ⟨m, rfl⟩ : ∃ m, n = m + 1 := ⟨n-1, by omega⟩
  have hmul := Nat.mul_le_mul_left m hticks
  rw [Nat.add_sub_cancel] at hspaced
  have hfloor : (start/1000000 + m*1000)*1000000 ≤ start + span :=
    (Nat.le_div_iff_mul_le (by decide)).mp (by omega)
  have hmod := Nat.div_add_mod' start 1000000
  have hlt := Nat.mod_lt start (show 1000000 > 0 by decide)
  have hpast : m*1000*1000000 ≤ start % 1000000 + span := by
    refine Nat.le_of_add_le_add_left (a := start/1000000*1000000) ?_
    rwa [← Nat.add_assoc, hmod, ← Nat.add_mul]
  rw [Nat.mul_assoc] at hpast
  calc (m+1+1)*1000000000 = m*1000000000 + 2000000000 := Nat.add_mul m 2 1000000000
    _ ≤ start % 1000000 + span + 2000000000 := Nat.add_le_add_right hpast _
    _ ≤ span + 3*windowNs := by omega

theorem windowPerSecond (hrate : (rules b.2).rateMax ≠ 0) (l : Limits) (hslot : limiter.Slotted l b)
    (hwindow : 999000000 < (cfgRateWindowNs cfg).toNat) :
    WindowPerSecond limiter cfg rules l b := by
  intro packets hforward start span
  have hstart : AdmittedInv start (start + span) (rules b.2).rateMax.toNat
      (rateStateWindowTicks (cfgRateWindowNs cfg)).toNat 0 (limiter.word l b)
      (admittedUnits limiter rules b start (start + span) []) :=
    ⟨fun _ => rfl, ⟨0, Nat.zero_le _, ⟨fun h => absurd rfl h⟩⟩,
      ⟨0, Nat.zero_le _, fun h => absurd rfl h⟩⟩
  obtain ⟨last, h⟩ := admittedInv_run limiter cfg rules b hrate packets { l := l } 0 hslot hforward
    (fun _ _ => Nat.zero_le _) hstart
  obtain ⟨n, hle, hspaced⟩ := h.bound
  have hticks := thousand_ticks _ hwindow
  -- `n + 1` windows of a second each
  have htime : (n+1)*1000000000 ≤ span + 3*(cfgRateWindowNs cfg).toNat := by
    by_cases hn : n = 0
    · omega
    · exact windows_le hn hticks hwindow (hspaced hn)
  calc admittedUnits limiter rules b start (start + span)
          (packets.foldl (limiter.step cfg rules) { l := l }).log * 1000000000
      ≤ (rules b.2).rateMax.toNat*(n+1)*1000000000 := Nat.mul_le_mul_right _ hle
    _ = (rules b.2).rateMax.toNat*((n+1)*1000000000) := Nat.mul_assoc ..
    _ ≤ _ := Nat.mul_le_mul_left _ htime

end WindowPart

/-- A window limiter's limit holds for each second if a window is longer than 999 ms and the
bucket has a map; the global limit does if one cycle of its limiter is within the limit for
one window. -/
theorem per_second_rates (limiter : RateLimiter) (cfg : Option XdpRuntimeCfg)
    (rules : U32 → RateRule) (l : Limits) (b : Bucket) (rate : U32) :
    ((rules b.2).rateMax ≠ 0 → limiter.Slotted l b → 999000000 < (cfgRateWindowNs cfg).toNat →
      WindowPerSecond limiter cfg rules l b) ∧
    (rate ≠ 0 → CycleFits rate (cfgUdpGlobalWindowNs cfg) →
      ProductsFit rate (cfgUdpGlobalWindowNs cfg) → GlobalPerSecond rate cfg) := by
  constructor
  · intro hlimit hslot hwindow
    exact windowPerSecond limiter cfg rules b hlimit l hslot hwindow
  · intro hrate hcycle hfit
    refine globalPerSecond hrate (Nat.pos_of_ne_zero fun hzero => ?_) hcycle hfit
    unfold CycleFits at hcycle
    rw [hzero, Nat.mul_zero] at hcycle
    have hsecond : 0 < secondNs := by decide
    have hpos := Nat.mul_pos (show 0 < bucketMax rate + 65535 by omega) hsecond
    omega

/-- One SYN a second from each host under the default windows, and a megabyte a second in all
with a window of two. -/
theorem per_second_rates_hosts :
    WindowPerSecond .syn none (fun _ => { rateMax := 1 }) { syn4 := fun _ => some ∅ }
        (.v4 0x0A000001, 22) ∧
      GlobalPerSecond 1000000 (some { udpGlobalWindowNs := 2000000000 }) :=
  ⟨(per_second_rates .syn none _ _ _ 1000000).1 (by decide) (by decide) (by decide +kernel),
    (per_second_rates .syn (some { udpGlobalWindowNs := 2000000000 }) (fun _ => { rateMax := 1 }) {}
      (.v4 0x0A000001, 22) 1000000).2 (by decide) (by unfold CycleFits; decide +kernel)
      (by unfold ProductsFit; decide +kernel)⟩

/-- A window of 100 ms lets one SYN pass in each. A megabit a second with the default window:
each second a first flush of a new window and a batch that is dropped with its block. -/
theorem per_window_rates :
    ¬WindowPerSecond .syn (some { rateWindowNs := 100000000 }) (fun _ => { rateMax := 1 })
        { syn4 := fun _ => some ∅ } (.v4 0x0A000001, 22) ∧
      ¬GlobalPerSecond 125000 none := by
  constructor
  · intro h
    have hrun := h
      ((List.range 5).map fun i => ⟨.v4 4000 22 0x0A000001 0x0A000002,
        BitVec.ofNat 64 (1000000000 + i*100000000), 22, 60⟩)
      (by decide +kernel) 1000000000 400000000
    exact absurd hrun (by decide +kernel)
  · intro h
    have hrun := h
      ((List.range 20).flatMap fun i => [65535, 65535, 65535, 65535].map fun bytes =>
        ⟨(), BitVec.ofNat 64 ((i+1)*1000000000), bytes, none⟩)
      ⟨by decide +kernel, by decide +kernel, by decide +kernel, by decide +kernel,
        by decide +kernel⟩ 1000000000 19000000000
    exact absurd hrun (by decide +kernel)

end AutoXdp
