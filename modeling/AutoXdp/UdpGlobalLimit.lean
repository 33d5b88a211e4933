import AutoXdp.XdpRateLimit
import Mathlib.Algebra.BigOperators.Fin
import Mathlib.Tactic.Basic

/-! Runs of `udp_global_rate_check` on any number of CPUs: unlocked batches on each
CPU, and one shared two-bucket window that batches are flushed to. -/
namespace AutoXdp

/-- One call: the packet, the CPU it is on, and the time and tunables it read. -/
structure UdpPacket (ι : Type) where
  cpu : ι
  now : U64
  pktBytes : U64
  cfg : Option XdpRuntimeCfg := none
  deriving DecidableEq, Repr

/-- The shared state, each CPU's accumulator, and the verdicts so far, newest first. -/
structure UdpGlobalRun (ι : Type) where
  rl : UdpGlobalState
  acc : ι → UdpPercpuLocal := fun _ => {}
  log : List (UdpPacket ι × XdpAction) := []

namespace UdpGlobalRun

variable {ι : Type} [DecidableEq ι]

def step (s : UdpGlobalRun ι) (p : UdpPacket ι) : UdpGlobalRun ι :=
  let r := udpGlobalRateCheck p.now p.pktBytes p.cfg
    { udpGlobalRl := s.rl, udpPercpuAcc := s.acc p.cpu }
  { rl := r.2.udpGlobalRl
    acc := Function.update s.acc p.cpu r.2.udpPercpuAcc
    log := (p, r.1) :: s.log }

end UdpGlobalRun

/-- The maps as the program starts, with this limit. -/
def udpGlobalStart (ι : Type) (byteRateMax : U32) : UdpGlobalRun ι :=
  { rl := { byteRateMax := byteRateMax } }

/-! What one call can do. -/

/-- The state after the roll to the next bucket, if a window has passed. -/
def UdpGlobalState.rolled (g : UdpGlobalState) (now windowNs : U64) : UdpGlobalState :=
  if now - g.windowStartNs ≥ windowNs then
    { g with prevBytes := g.currBytes, currBytes := 0, windowStartNs := g.windowStartNs + windowNs }
  else g

/-- An expired block leaves a clean slate. -/
def UdpGlobalState.unblocked (g : UdpGlobalState) : UdpGlobalState :=
  if g.blockedUntilNs ≠ 0 then
    { g with blockedUntilNs := 0, windowStartNs := 0, prevBytes := 0, currBytes := 0 }
  else g

/-- The comparison of the window, in 64 bits. -/
def UdpGlobalState.Exceeds (g : UdpGlobalState) (now toFlush windowNs : U64) : Prop :=
  g.prevBytes * (windowNs - (now - g.windowStartNs)) + g.currBytes * windowNs +
    toFlush * windowNs > g.byteRateMax.setWidth 64 * windowNs

instance (g : UdpGlobalState) (now toFlush windowNs : U64) :
    Decidable (g.Exceeds now toFlush windowNs) := inferInstanceAs (Decidable (_ > _))

/-- The outcomes of one call: dropped by the CPU's own block, added to the batch, or
flushed. A flush meets a block, starts a window, is counted, or starts a block. -/
inductive UdpOutcome (now bytes windowNs : U64) (g : UdpGlobalState) (loc : UdpPercpuLocal) :
    XdpAction → UdpGlobalState → UdpPercpuLocal → Prop
  | fastDrop (h : loc.blockedUntilNs ≠ 0) (hnow : now < loc.blockedUntilNs) :
      UdpOutcome now bytes windowNs g loc .drop g { loc with localBytes := 0 }
  | batched (hloc : loc.blockedUntilNs ≤ now)
      (hbatch : loc.localBytes + bytes < udpGlobalBatchBytes) :
      UdpOutcome now bytes windowNs g loc .pass g ⟨loc.localBytes + bytes, 0⟩
  | blocked (hloc : loc.blockedUntilNs ≤ now)
      (hbatch : ¬loc.localBytes + bytes < udpGlobalBatchBytes) (h : g.blockedUntilNs ≠ 0)
      (hnow : now < g.blockedUntilNs) :
      UdpOutcome now bytes windowNs g loc .drop g ⟨0, g.blockedUntilNs⟩
  | started (hloc : loc.blockedUntilNs ≤ now)
      (hbatch : ¬loc.localBytes + bytes < udpGlobalBatchBytes) (hfree : g.blockedUntilNs ≤ now)
      (h : g.unblocked.windowStartNs = 0 ∨ now - g.unblocked.windowStartNs ≥ 2 * windowNs) :
      UdpOutcome now bytes windowNs g loc .pass
        { g.unblocked with windowStartNs := now, prevBytes := 0
                           currBytes := loc.localBytes + bytes } ⟨0, 0⟩
  | counted (hloc : loc.blockedUntilNs ≤ now)
      (hbatch : ¬loc.localBytes + bytes < udpGlobalBatchBytes) (hfree : g.blockedUntilNs = 0)
      (hstart : g.windowStartNs ≠ 0) (h : ¬now - g.windowStartNs ≥ 2 * windowNs)
      (hfits : ¬(g.rolled now windowNs).Exceeds now (loc.localBytes + bytes) windowNs) :
      UdpOutcome now bytes windowNs g loc .pass
        { g.rolled now windowNs with
          currBytes := (g.rolled now windowNs).currBytes + (loc.localBytes + bytes) } ⟨0, 0⟩
  | exceeded (hloc : loc.blockedUntilNs ≤ now)
      (hbatch : ¬loc.localBytes + bytes < udpGlobalBatchBytes) (hfree : g.blockedUntilNs = 0)
      (hstart : g.windowStartNs ≠ 0) (h : ¬now - g.windowStartNs ≥ 2 * windowNs)
      (hover : (g.rolled now windowNs).Exceeds now (loc.localBytes + bytes) windowNs) :
      UdpOutcome now bytes windowNs g loc .drop
        { g.rolled now windowNs with blockedUntilNs := now + windowNs } ⟨0, now + windowNs⟩

/-- The critical section without an active block. -/
theorem udpGlobalWindow_cases (now toFlush windowNs : U64) (g : UdpGlobalState) :
    ((g.windowStartNs = 0 ∨ now - g.windowStartNs ≥ 2 * windowNs) ∧
      udpGlobalWindow now toFlush windowNs g =
        ({ g with windowStartNs := now, prevBytes := 0, currBytes := toFlush }, 0, .pass)) ∨
    (g.windowStartNs ≠ 0 ∧ ¬now - g.windowStartNs ≥ 2 * windowNs ∧
      udpGlobalWindow now toFlush windowNs g =
        if (g.rolled now windowNs).Exceeds now toFlush windowNs then
          ({ g.rolled now windowNs with blockedUntilNs := now + windowNs }, now + windowNs, .drop)
        else
          ({ g.rolled now windowNs with currBytes := (g.rolled now windowNs).currBytes + toFlush },
            0, .pass)) := by
  by_cases hstart : g.windowStartNs = 0
  · exact Or.inl ⟨Or.inl hstart, by simp only [udpGlobalWindow, hstart, ↓reduceIte]⟩
  by_cases hold : now - g.windowStartNs ≥ 2 * windowNs
  · exact Or.inl ⟨Or.inr hold, by simp only [udpGlobalWindow, hstart, hold, ↓reduceIte]⟩
  refine Or.inr ⟨hstart, hold, ?_⟩
  simp only [udpGlobalWindow, hstart, hold, ↓reduceIte, UdpGlobalState.rolled,
    UdpGlobalState.Exceeds]
  by_cases hroll : now - g.windowStartNs ≥ windowNs
  · have helapsed : now - g.windowStartNs - windowNs = now - (g.windowStartNs + windowNs) := by
      bv_omega
    simp only [hroll, ↓reduceIte, helapsed]
  · simp only [hroll, ↓reduceIte]

/-- A deadline that is not ahead is over, or none was set. -/
theorem deadline_over (deadline now : U64) (h : ¬(deadline ≠ 0 ∧ now < deadline)) :
    deadline ≤ now := by
  by_contra hlt
  refine h ⟨fun hz => hlt ?_, BitVec.not_le.mp hlt⟩
  rw [hz]
  exact Nat.zero_le now.toNat

theorem udpGlobalFlush_cases (now toFlush windowNs : U64) (g : UdpGlobalState) :
    (g.blockedUntilNs ≠ 0 ∧ now < g.blockedUntilNs ∧
      udpGlobalFlush now toFlush windowNs g = (g, g.blockedUntilNs, .pass)) ∨
    (g.blockedUntilNs ≤ now ∧
      udpGlobalFlush now toFlush windowNs g = udpGlobalWindow now toFlush windowNs g.unblocked) := by
  by_cases hblocked : g.blockedUntilNs ≠ 0 ∧ now < g.blockedUntilNs
  · exact Or.inl ⟨hblocked.1, hblocked.2, by rw [udpGlobalFlush, if_pos hblocked]⟩
  · exact Or.inr ⟨deadline_over _ now hblocked, by rw [udpGlobalFlush, if_neg hblocked]; rfl⟩

/-- The flush of a full batch. -/
theorem udpGlobalFlush_outcome (now bytes windowNs : U64) (g : UdpGlobalState)
    (loc : UdpPercpuLocal) (hloc : loc.blockedUntilNs ≤ now)
    (hbatch : ¬loc.localBytes + bytes < udpGlobalBatchBytes) :
    let r := udpGlobalFlush now (loc.localBytes + bytes) windowNs g
    UdpOutcome now bytes windowNs g loc (if r.2.1 ≠ 0 then .drop else r.2.2) r.1 ⟨0, r.2.1⟩ := by
  intro r
  rcases udpGlobalFlush_cases now (loc.localBytes + bytes) windowNs g with
    ⟨hne, hlt, hr⟩ | ⟨hfree, hr⟩
  · rw [show r = _ from hr, if_pos hne]
    exact .blocked hloc hbatch hne hlt
  · rcases udpGlobalWindow_cases now (loc.localBytes + bytes) windowNs g.unblocked with
      ⟨hstart, hw⟩ | ⟨hstart, hold, hw⟩
    · rw [show r = _ from hr.trans hw]
      exact .started hloc hbatch hfree hstart
    · -- a state that was just unblocked has no window
      have hzero : g.blockedUntilNs = 0 := by
        by_contra hne
        rw [UdpGlobalState.unblocked, if_pos hne] at hstart
        exact hstart rfl
      have hsame : g.unblocked = g := by rw [UdpGlobalState.unblocked, if_neg (not_not.mpr hzero)]
      rw [hsame] at hstart hold hw hr
      rw [show r = _ from hr.trans hw]
      by_cases hover : (g.rolled now windowNs).Exceeds now (loc.localBytes + bytes) windowNs
      · rw [if_pos hover]
        have hdrop : (if now + windowNs ≠ 0 then XdpAction.drop else .drop) = .drop := ite_self _
        dsimp only
        rw [hdrop]
        exact .exceeded hloc hbatch hzero hstart hold hover
      · rw [if_neg hover]
        exact .counted hloc hbatch hzero hstart hold hover

/-- What `udp_global_rate_check` does while a limit is set. -/
theorem udpGlobalRateCheck_outcome (now bytes : U64) (cfg : Option XdpRuntimeCfg) (l : Limits)
    (hrate : l.udpGlobalRl.byteRateMax ≠ 0) :
    let r := udpGlobalRateCheck now bytes cfg l
    UdpOutcome now bytes (cfgUdpGlobalWindowNs cfg) l.udpGlobalRl l.udpPercpuAcc r.1
      r.2.udpGlobalRl r.2.udpPercpuAcc := by
  intro r
  let loc := l.udpPercpuAcc
  by_cases hblocked : loc.blockedUntilNs ≠ 0 ∧ now < loc.blockedUntilNs
  · have hfast : udpGlobalBlockFastPath now loc = (.drop, { loc with localBytes := 0 }) := by
      rw [udpGlobalBlockFastPath, if_pos hblocked.1, if_pos hblocked.2]
    have hr : r = (.drop, { l with udpPercpuAcc := { loc with localBytes := 0 } }) := by
      change udpGlobalRateCheck now bytes cfg l = _
      unfold udpGlobalRateCheck
      rw [if_neg hrate]
      dsimp only
      rw [hfast, if_pos rfl]
    rw [hr]
    exact .fastDrop hblocked.1 hblocked.2
  have hloc : loc.blockedUntilNs ≤ now := deadline_over _ now hblocked
  have hfast : udpGlobalBlockFastPath now loc = (.pass, ⟨loc.localBytes, 0⟩) := by
    by_cases hz : loc.blockedUntilNs = 0
    · rw [udpGlobalBlockFastPath, if_neg (not_not.mpr hz), ← hz]
    · rw [udpGlobalBlockFastPath, if_pos hz, if_neg (BitVec.not_lt.mpr hloc)]
  have hr : r = if loc.localBytes + bytes < udpGlobalBatchBytes then
      (.pass, { l with udpPercpuAcc := ⟨loc.localBytes + bytes, 0⟩ })
    else
      let f := udpGlobalFlush now (loc.localBytes + bytes) (cfgUdpGlobalWindowNs cfg) l.udpGlobalRl
      if f.2.1 ≠ 0 then (.drop, { l with udpGlobalRl := f.1, udpPercpuAcc := ⟨0, f.2.1⟩ })
      else (f.2.2, { l with udpGlobalRl := f.1, udpPercpuAcc := ⟨0, 0⟩ }) := by
    change udpGlobalRateCheck now bytes cfg l = _
    unfold udpGlobalRateCheck
    rw [if_neg hrate]
    dsimp only
    rw [hfast, if_neg (by exact nofun)]
  by_cases hbatch : loc.localBytes + bytes < udpGlobalBatchBytes
  · rw [hr, if_pos hbatch]
    exact .batched hloc hbatch
  · rw [if_neg hbatch] at hr
    have hflush := udpGlobalFlush_outcome now bytes (cfgUdpGlobalWindowNs cfg) l.udpGlobalRl loc hloc
      hbatch
    rw [hr]
    dsimp only at hflush ⊢
    split_ifs with hne
    · rw [if_pos hne] at hflush
      exact hflush
    · rw [if_neg hne, not_not.mp hne] at hflush
      exact hflush

/-- One call of a run. -/
theorem UdpGlobalRun.step_outcome {ι : Type} [DecidableEq ι] (s : UdpGlobalRun ι)
    (p : UdpPacket ι) (hrate : s.rl.byteRateMax ≠ 0) :
    ∃ v, (s.step p).log = (p, v) :: s.log ∧ (∀ i, i ≠ p.cpu → (s.step p).acc i = s.acc i) ∧
      UdpOutcome p.now p.pktBytes (cfgUdpGlobalWindowNs p.cfg) s.rl (s.acc p.cpu) v (s.step p).rl
        ((s.step p).acc p.cpu) := by
  have hout := udpGlobalRateCheck_outcome p.now p.pktBytes p.cfg
    { udpGlobalRl := s.rl, udpPercpuAcc := s.acc p.cpu } hrate
  refine ⟨_, rfl, fun i hi => Function.update_of_ne hi _ _, ?_⟩
  rw [show (s.step p).acc p.cpu = _ from Function.update_self ..]
  exact hout

/-! The shared window on natural numbers, for a clock that does not go back. -/

/-- The longest IPv6 packet: its fixed header and a 16-bit payload length. -/
def maxPktBytes : ℕ := 65575

/-- A batch is flushed by the packet that fills it. -/
def maxFlush : ℕ := 65535 + maxPktBytes

/-- What a bucket can hold: the limit, or one unchecked flush. -/
def bucketMax (rate : U32) : ℕ := max rate.toNat maxFlush

/-- The products of the comparison and their sums fit in 64 bits. -/
def ProductsFit (rate : U32) (windowNs : U64) : Prop :=
  (bucketMax rate + maxFlush) * windowNs.toNat < 2^64

/-- The weighted sum of both buckets at a time in the window. -/
def UdpGlobalState.weighted (g : UdpGlobalState) (windowNs : U64) (now : ℕ) : ℕ :=
  g.prevBytes.toNat * (windowNs.toNat - (now - g.windowStartNs.toNat)) +
    g.currBytes.toNat * windowNs.toNat

/-- What the shared state keeps, `last` being the latest clock reading. -/
structure WindowOk (rate : U32) (windowNs : U64) (last : ℕ) (g : UdpGlobalState) : Prop where
  rate_eq : g.byteRateMax = rate
  start_le : g.windowStartNs.toNat ≤ last
  curr_le : g.currBytes.toNat ≤ bucketMax rate
  weighted_le : g.windowStartNs ≠ 0 →
    g.weighted windowNs last ≤ bucketMax rate * windowNs.toNat

section Window

variable {rate : U32} {windowNs : U64} {last : ℕ} {g : UdpGlobalState}

theorem weighted_anti (g : UdpGlobalState) (windowNs : U64) (now later : ℕ) (h : now ≤ later) :
    g.weighted windowNs later ≤ g.weighted windowNs now := by
  have hterm : windowNs.toNat - (later - g.windowStartNs.toNat) ≤
      windowNs.toNat - (now - g.windowStartNs.toNat) := by omega
  exact Nat.add_le_add_right (Nat.mul_le_mul_left _ hterm) _

/-- The state a flush is compared in: the bucket that contains the time. -/
structure RolledOk (rate : U32) (windowNs now : U64) (g g' : UdpGlobalState) : Prop where
  rate_eq : g'.byteRateMax = rate
  blocked_eq : g'.blockedUntilNs = g.blockedUntilNs
  start_ne : g'.windowStartNs ≠ 0
  start_le : g'.windowStartNs.toNat ≤ now.toNat
  now_lt : now.toNat < g'.windowStartNs.toNat + windowNs.toNat
  weighted_le : g'.weighted windowNs now.toNat ≤ bucketMax rate * windowNs.toNat
  same_or_next : g' = g ∨ (g.windowStartNs.toNat + windowNs.toNat ≤ now.toNat ∧
    g'.windowStartNs.toNat = g.windowStartNs.toNat + windowNs.toNat ∧ g'.currBytes.toNat = 0)

theorem windowNs_lt_of_fit (hfit : ProductsFit rate windowNs) :
    2 * windowNs.toNat < 2^64 ∧ bucketMax rate * windowNs.toNat < 2^64 := by
  have hflush : 2 ≤ maxFlush := by decide
  unfold ProductsFit at hfit
  constructor
  · refine lt_of_le_of_lt (Nat.mul_le_mul_right _ ?_) hfit
    omega
  · exact lt_of_le_of_lt (Nat.mul_le_mul_right _ (Nat.le_add_right ..)) hfit

theorem rolled_ok (hok : WindowOk rate windowNs last g) (hfit : ProductsFit rate windowNs)
    (now : U64) (hnow : last ≤ now.toNat) (hstart : g.windowStartNs ≠ 0)
    (hold : ¬now - g.windowStartNs ≥ 2 * windowNs) :
    RolledOk rate windowNs now g (g.rolled now windowNs) := by
  have hle : g.windowStartNs.toNat ≤ now.toNat := hok.start_le.trans hnow
  have htwo := (windowNs_lt_of_fit hfit).1
  have hsub : (now - g.windowStartNs).toNat = now.toNat - g.windowStartNs.toNat :=
    BitVec.toNat_sub_of_le hle
  have hold' : now.toNat - g.windowStartNs.toNat < 2 * windowNs.toNat := by
    rw [ge_iff_le, BitVec.not_le, BitVec.lt_def, hsub, BitVec.toNat_mul] at hold
    have htwo' : (BitVec.toNat (2 : U64)) = 2 := rfl
    rwa [htwo', Nat.mod_eq_of_lt htwo] at hold
  unfold UdpGlobalState.rolled
  by_cases hroll : now - g.windowStartNs ≥ windowNs
  · have hroll' : g.windowStartNs.toNat + windowNs.toNat ≤ now.toNat := by
      have h : windowNs.toNat ≤ (now - g.windowStartNs).toNat := hroll
      omega
    have hlt := now.isLt
    have hadd : (g.windowStartNs + windowNs).toNat = g.windowStartNs.toNat + windowNs.toNat := by
      rw [BitVec.toNat_add]
      exact Nat.mod_eq_of_lt (by omega)
    have hpos : 0 < g.windowStartNs.toNat :=
      Nat.pos_of_ne_zero fun h => hstart (BitVec.eq_of_toNat_eq h)
    rw [if_pos hroll]
    refine ⟨hok.rate_eq, rfl, ?_, ?_, ?_, ?_, Or.inr ⟨hroll', hadd, rfl⟩⟩
    · intro h
      rw [show g.windowStartNs + windowNs = 0 from h] at hadd
      change 0 = _ at hadd
      omega
    · exact hadd.trans_le hroll'
    · change now.toNat < (g.windowStartNs + windowNs).toNat + _
      omega
    · -- only the old bucket weighs, and with at most a whole window
      change g.currBytes.toNat * _ + 0 * _ ≤ _
      rw [Nat.zero_mul, Nat.add_zero]
      exact Nat.mul_le_mul hok.curr_le (Nat.sub_le _ _)
  · rw [if_neg hroll]
    refine ⟨hok.rate_eq, rfl, hstart, hle, ?_, ?_, Or.inl rfl⟩
    · have h : (now - g.windowStartNs).toNat < windowNs.toNat := BitVec.not_le.mp hroll
      omega
    · exact (weighted_anti g windowNs last now.toNat hnow).trans (hok.weighted_le hstart)

/-- Where nothing wraps, the 64-bit comparison is the one of the numbers. -/
theorem exceeds_exact (g : UdpGlobalState) (now flush windowNs : U64)
    (hrest : (now - g.windowStartNs).toNat ≤ windowNs.toNat)
    (hsum : g.prevBytes.toNat * (windowNs.toNat - (now - g.windowStartNs).toNat) +
      g.currBytes.toNat * windowNs.toNat + flush.toNat * windowNs.toNat < 2^64)
    (hlimit : g.byteRateMax.toNat * windowNs.toNat < 2^64) :
    g.Exceeds now flush windowNs ↔ g.byteRateMax.toNat * windowNs.toNat <
      g.prevBytes.toNat * (windowNs.toNat - (now - g.windowStartNs).toNat) +
        g.currBytes.toNat * windowNs.toNat + flush.toNat * windowNs.toNat := by
  have hsub : (windowNs - (now - g.windowStartNs)).toNat =
      windowNs.toNat - (now - g.windowStartNs).toNat := BitVec.toNat_sub_of_le hrest
  have hrate := g.byteRateMax.isLt
  rw [UdpGlobalState.Exceeds, gt_iff_lt, BitVec.lt_def]
  simp only [BitVec.toNat_add, BitVec.toNat_mul, hsub, BitVec.toNat_setWidth]
  rw [Nat.mod_eq_of_lt (show g.byteRateMax.toNat < 2^64 by omega), Nat.mod_eq_of_lt hlimit,
    Nat.mod_eq_of_lt (show g.prevBytes.toNat *
      (windowNs.toNat - (now - g.windowStartNs).toNat) < 2^64 by omega),
    Nat.mod_eq_of_lt (show g.currBytes.toNat * windowNs.toNat < 2^64 by omega),
    Nat.mod_eq_of_lt (show flush.toNat * windowNs.toNat < 2^64 by omega),
    Nat.mod_eq_of_lt (show g.prevBytes.toNat *
      (windowNs.toNat - (now - g.windowStartNs).toNat) +
      g.currBytes.toNat * windowNs.toNat < 2^64 by omega), Nat.mod_eq_of_lt hsum]

theorem RolledOk.elapsed {now : U64} {g' : UdpGlobalState} (h : RolledOk rate windowNs now g g') :
    (now - g'.windowStartNs).toNat = now.toNat - g'.windowStartNs.toNat ∧
      (now - g'.windowStartNs).toNat ≤ windowNs.toNat := by
  have hsub : (now - g'.windowStartNs).toNat = now.toNat - g'.windowStartNs.toNat :=
    BitVec.toNat_sub_of_le h.start_le
  have hlt := h.now_lt
  exact ⟨hsub, by omega⟩

/-- The sum of the comparison fits in 64 bits. -/
theorem RolledOk.sum_lt {now : U64} {g' : UdpGlobalState} (h : RolledOk rate windowNs now g g')
    (hfit : ProductsFit rate windowNs) (flush : U64) (hflush : flush.toNat ≤ maxFlush) :
    g'.weighted windowNs now.toNat + flush.toNat * windowNs.toNat < 2^64 := by
  have hw := h.weighted_le
  have hmul : flush.toNat * windowNs.toNat ≤ maxFlush * windowNs.toNat :=
    Nat.mul_le_mul_right _ hflush
  unfold ProductsFit at hfit
  rw [Nat.add_mul] at hfit
  omega

theorem limit_lt_of_fit (hfit : ProductsFit rate windowNs) :
    rate.toNat * windowNs.toNat < 2^64 := by
  refine lt_of_le_of_lt (Nat.mul_le_mul_right _ ?_) (windowNs_lt_of_fit hfit).2
  exact le_max_left _ _

/-- The 64-bit comparison decides whether the flush keeps the weighted sum within the
limit. -/
theorem exceeds_iff {now : U64} {g' : UdpGlobalState} (h : RolledOk rate windowNs now g g')
    (hfit : ProductsFit rate windowNs) (flush : U64) (hflush : flush.toNat ≤ maxFlush) :
    g'.Exceeds now flush windowNs ↔
      rate.toNat * windowNs.toNat <
        g'.weighted windowNs now.toNat + flush.toNat * windowNs.toNat := by
  obtain ⟨hsub, hrest⟩ := h.elapsed
  have hsum := h.sum_lt hfit flush hflush
  have hlimit := limit_lt_of_fit hfit
  unfold UdpGlobalState.weighted at hsum ⊢
  rw [← hsub] at hsum ⊢
  rw [← h.rate_eq] at hlimit ⊢
  exact exceeds_exact g' now flush windowNs hrest hsum hlimit

theorem curr_le_of_weighted (hpos : 0 < windowNs.toNat) (now : ℕ) (m : ℕ)
    (h : g.weighted windowNs now ≤ m * windowNs.toNat) : g.currBytes.toNat ≤ m := by
  refine Nat.le_of_mul_le_mul_right ?_ hpos
  exact (Nat.le_add_left ..).trans h

/-- A counted flush in numbers: the bucket grows by the flush and stays within the limit. -/
theorem counted_ok {now : U64} {g' : UdpGlobalState} (h : RolledOk rate windowNs now g g')
    (hpos : 0 < windowNs.toNat) (hfit : ProductsFit rate windowNs) (flush : U64)
    (hflush : flush.toNat ≤ maxFlush) (hfits : ¬g'.Exceeds now flush windowNs) :
    (g'.currBytes + flush).toNat = g'.currBytes.toNat + flush.toNat ∧
      WindowOk rate windowNs now.toNat { g' with currBytes := g'.currBytes + flush } := by
  have hsum : g'.weighted windowNs now.toNat + flush.toNat * windowNs.toNat ≤
      rate.toNat * windowNs.toNat := by
    rw [exceeds_iff h hfit flush hflush] at hfits
    exact Nat.le_of_not_lt hfits
  have hadd : (g'.currBytes + flush).toNat = g'.currBytes.toNat + flush.toNat := by
    have hcurr := curr_le_of_weighted hpos now.toNat _ h.weighted_le
    have hrate := rate.isLt
    have hmax : maxFlush < 2^32 := by decide
    unfold bucketMax at hcurr
    rw [BitVec.toNat_add]
    exact Nat.mod_eq_of_lt (by omega)
  have hweighted : ({ g' with currBytes := g'.currBytes + flush } : UdpGlobalState).weighted
      windowNs now.toNat ≤ bucketMax rate * windowNs.toNat := by
    calc ({ g' with currBytes := g'.currBytes + flush } : UdpGlobalState).weighted windowNs now.toNat
        = g'.weighted windowNs now.toNat + flush.toNat * windowNs.toNat := by
          unfold UdpGlobalState.weighted
          dsimp only
          rw [hadd, Nat.add_mul, Nat.add_assoc]
      _ ≤ rate.toNat * windowNs.toNat := hsum
      _ ≤ bucketMax rate * windowNs.toNat := Nat.mul_le_mul_right _ (le_max_left _ _)
  exact ⟨hadd, h.rate_eq, h.start_le, curr_le_of_weighted hpos now.toNat _ hweighted,
    fun _ => hweighted⟩

/-- A flush that starts a window is not checked. -/
theorem started_ok {g₀ : UdpGlobalState} (hrate : g₀.byteRateMax = rate) (now flush : U64)
    (hflush : flush.toNat ≤ maxFlush) : WindowOk rate windowNs now.toNat
      { g₀ with windowStartNs := now, prevBytes := 0, currBytes := flush } := by
  have hcurr : flush.toNat ≤ bucketMax rate := hflush.trans (le_max_right _ _)
  refine ⟨hrate, Nat.le_refl _, hcurr, fun _ => ?_⟩
  change 0 * _ + flush.toNat * windowNs.toNat ≤ _
  rw [Nat.zero_mul, Nat.zero_add]
  exact Nat.mul_le_mul_right _ hcurr

theorem exceeded_ok {now : U64} {g' : UdpGlobalState} (h : RolledOk rate windowNs now g g')
    (hpos : 0 < windowNs.toNat) (deadline : U64) :
    WindowOk rate windowNs now.toNat { g' with blockedUntilNs := deadline } :=
  ⟨h.rate_eq, h.start_le, curr_le_of_weighted hpos now.toNat _ h.weighted_le,
    fun _ => h.weighted_le⟩

theorem windowOk_mono {later : ℕ} (hok : WindowOk rate windowNs last g) (h : last ≤ later) :
    WindowOk rate windowNs later g :=
  ⟨hok.rate_eq, hok.start_le.trans h, hok.curr_le,
    fun hstart => (weighted_anti g windowNs last later h).trans (hok.weighted_le hstart)⟩

/-- A flush is as long as the sum says. -/
theorem flush_toNat (loc : UdpPercpuLocal) (bytes : U64)
    (hloc : loc.localBytes.toNat < 65536) (hbytes : bytes.toNat ≤ maxPktBytes) :
    (loc.localBytes + bytes).toNat = loc.localBytes.toNat + bytes.toNat ∧
      (loc.localBytes + bytes).toNat ≤ maxFlush := by
  have hmax : maxPktBytes = 65575 := rfl
  have hadd : (loc.localBytes + bytes).toNat = loc.localBytes.toNat + bytes.toNat := by
    rw [BitVec.toNat_add]
    exact Nat.mod_eq_of_lt (by omega)
  refine ⟨hadd, ?_⟩
  rw [hadd, maxFlush]
  omega

/-- The shared state after one call. -/
theorem windowOk_outcome {now bytes : U64} {loc loc' : UdpPercpuLocal} {v : XdpAction}
    {g' : UdpGlobalState} (hok : WindowOk rate windowNs last g) (hnow : last ≤ now.toNat)
    (hpos : 0 < windowNs.toNat) (hfit : ProductsFit rate windowNs)
    (hloc : loc.localBytes.toNat < 65536) (hbytes : bytes.toNat ≤ maxPktBytes)
    (h : UdpOutcome now bytes windowNs g loc v g' loc') : WindowOk rate windowNs now.toNat g' := by
  have hflush := (flush_toNat loc bytes hloc hbytes).2
  have hrate : g.unblocked.byteRateMax = rate := by
    unfold UdpGlobalState.unblocked
    split <;> exact hok.rate_eq
  cases h with
  | fastDrop => exact windowOk_mono hok hnow
  | batched => exact windowOk_mono hok hnow
  | blocked => exact windowOk_mono hok hnow
  | started => exact started_ok hrate now _ hflush
  | counted _ _ _ hstart hold hfits =>
    exact (counted_ok (rolled_ok hok hfit now hnow hstart hold) hpos hfit _ hflush hfits).2
  | exceeded _ _ _ hstart hold =>
    exact exceeded_ok (rolled_ok hok hfit now hnow hstart hold) hpos _

/-- A batch is not full, and a CPU in a block has none. -/
def LocalOk (loc : UdpPercpuLocal) : Prop :=
  loc.localBytes.toNat < 65536 ∧ (loc.blockedUntilNs ≠ 0 → loc.localBytes = 0)

theorem localOk_outcome {now bytes : U64} {loc loc' : UdpPercpuLocal} {v : XdpAction}
    {g' : UdpGlobalState} (h : UdpOutcome now bytes windowNs g loc v g' loc') : LocalOk loc' := by
  cases h with
  | batched _ hbatch => exact ⟨hbatch, fun h => absurd rfl h⟩
  | _ => exact ⟨(by decide : (0 : U64).toNat < 65536), fun _ => rfl⟩

end Window

end AutoXdp
