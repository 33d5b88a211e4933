import AutoXdp.LateReadings
import AutoXdp.UdpGlobalBound

/-! The comparison of the global UDP limiter multiplies bytes by nanoseconds. Whether the
products fit in 64 bits is decided by the limit, the window and the longest flush. -/
namespace AutoXdp
open GuardedRun

/-- Nothing of the comparison wraps, and it decides what it stands for. -/
structure ComparisonExact (g : UdpGlobalState) (now flush windowNs : U64) : Prop where
  rest : (now - g.windowStartNs).toNat ≤ windowNs.toNat
  sum_lt : g.prevBytes.toNat * (windowNs.toNat - (now - g.windowStartNs).toNat) +
    g.currBytes.toNat * windowNs.toNat + flush.toNat * windowNs.toNat < 2^64
  limit_lt : g.byteRateMax.toNat * windowNs.toNat < 2^64
  decides : g.Exceeds now flush windowNs ↔ g.byteRateMax.toNat * windowNs.toNat <
    g.prevBytes.toNat * (windowNs.toNat - (now - g.windowStartNs).toNat) +
      g.currBytes.toNat * windowNs.toNat + flush.toNat * windowNs.toNat

/-- What a bucket of either kind can hold, whatever the order of the readings. -/
structure BucketsOk (rate : U32) (g : UdpGlobalState) : Prop where
  rate_eq : g.byteRateMax = rate
  prev_le : g.prevBytes.toNat ≤ bucketMax rate
  curr_le : g.currBytes.toNat ≤ bucketMax rate

/-- Both buckets full and one more flush fit in 64 bits. -/
def LateProductsFit (rate : U32) (windowNs : U64) : Prop :=
  (2*bucketMax rate + maxFlush) * windowNs.toNat < 2^64

section Buckets

variable {rate : U32} {windowNs now : U64} {g : UdpGlobalState}

/-- The window never starts more than one length before the reading. -/
theorem rolled_elapsed_le (hrecent : ¬now - g.windowStartNs ≥ 2 * windowNs) :
    (now - (g.rolled now windowNs).windowStartNs).toNat ≤ windowNs.toNat := by
  unfold UdpGlobalState.rolled
  by_cases hroll : now - g.windowStartNs ≥ windowNs
  · have htwo : (2 * windowNs).toNat ≤ 2 * windowNs.toNat := by
      rw [BitVec.toNat_mul]
      exact Nat.mod_le _ _
    have hlt : (now - g.windowStartNs).toNat < (2 * windowNs).toNat := BitVec.not_le.mp hrecent
    have hstart : now - (g.windowStartNs + windowNs) = now - g.windowStartNs - windowNs := by
      bv_omega
    rw [if_pos hroll, hstart, BitVec.toNat_sub_of_le hroll]
    omega
  · have hlt : (now - g.windowStartNs).toNat < windowNs.toNat := BitVec.not_le.mp hroll
    rw [if_neg hroll]
    exact hlt.le

theorem bucketsOk_rolled (now windowNs : U64) (hok : BucketsOk rate g) : BucketsOk rate (g.rolled now windowNs) := by
  unfold UdpGlobalState.rolled
  split
  · exact ⟨hok.rate_eq, hok.curr_le, Nat.zero_le _⟩
  · exact hok

theorem exact_of_buckets (hok : BucketsOk rate g) (hfit : LateProductsFit rate windowNs)
    (flush : U64) (hflush : flush.toNat ≤ maxFlush)
    (hrest : (now - g.windowStartNs).toNat ≤ windowNs.toNat) :
    ComparisonExact g now flush windowNs := by
  have hprev : g.prevBytes.toNat * (windowNs.toNat - (now - g.windowStartNs).toNat) ≤
      bucketMax rate * windowNs.toNat := Nat.mul_le_mul hok.prev_le (Nat.sub_le _ _)
  have hcurr : g.currBytes.toNat * windowNs.toNat ≤ bucketMax rate * windowNs.toNat :=
    Nat.mul_le_mul_right _ hok.curr_le
  have hlast : flush.toNat * windowNs.toNat ≤ maxFlush * windowNs.toNat :=
    Nat.mul_le_mul_right _ hflush
  have hlimit : g.byteRateMax.toNat * windowNs.toNat ≤ bucketMax rate * windowNs.toNat := by
    rw [hok.rate_eq]
    exact Nat.mul_le_mul_right _ (le_max_left _ _)
  have hall : bucketMax rate * windowNs.toNat + bucketMax rate * windowNs.toNat +
      maxFlush * windowNs.toNat < 2^64 := by
    unfold LateProductsFit at hfit
    rwa [Nat.add_mul, Nat.two_mul, Nat.add_mul] at hfit
  have hsum := lt_of_le_of_lt (Nat.add_le_add (Nat.add_le_add hprev hcurr) hlast) hall
  have hlim : g.byteRateMax.toNat * windowNs.toNat < 2^64 := by omega
  exact ⟨hrest, hsum, hlim, exceeds_exact g now flush windowNs hrest hsum hlim⟩

/-- A counted flush keeps the bucket within the limit. -/
theorem counted_le (h : ComparisonExact g now flush windowNs) (hpos : 0 < windowNs.toNat)
    (hfits : ¬g.Exceeds now flush windowNs) :
    g.currBytes.toNat + flush.toNat ≤ g.byteRateMax.toNat := by
  have hle : g.prevBytes.toNat * (windowNs.toNat - (now - g.windowStartNs).toNat) +
      g.currBytes.toNat * windowNs.toNat + flush.toNat * windowNs.toNat ≤
      g.byteRateMax.toNat * windowNs.toNat := Nat.le_of_not_lt fun hlt => hfits (h.decides.mpr hlt)
  refine Nat.le_of_mul_le_mul_right ?_ hpos
  rw [Nat.add_mul]
  omega

theorem bucketsOk_outcome {bytes : U64} {loc loc' : UdpPercpuLocal} {v : XdpAction}
    {g' : UdpGlobalState} (hok : BucketsOk rate g) (hpos : 0 < windowNs.toNat)
    (hfit : LateProductsFit rate windowNs) (hloc : loc.localBytes.toNat < 65536)
    (hbytes : bytes.toNat ≤ maxPktBytes) (h : UdpOutcome now bytes windowNs g loc v g' loc') :
    BucketsOk rate g' := by
  have hflush := (flush_toNat loc bytes hloc hbytes).2
  cases h with
  | fastDrop | batched | blocked => exact hok
  | started =>
    have hrate : g.unblocked.byteRateMax = rate := by
      unfold UdpGlobalState.unblocked
      split <;> exact hok.rate_eq
    exact ⟨hrate, Nat.zero_le _, hflush.trans (le_max_right _ _)⟩
  | counted _ _ _ hstart hold hfits =>
    have hr := bucketsOk_rolled now windowNs hok
    have hexact := exact_of_buckets hr hfit _ hflush (rolled_elapsed_le hold)
    have hle := counted_le hexact hpos hfits
    rw [hr.rate_eq] at hle
    refine ⟨hr.rate_eq, hr.prev_le, ?_⟩
    dsimp only
    rw [BitVec.toNat_add]
    exact (Nat.mod_le _ _).trans (hle.trans (le_max_left _ _))
  | exceeded =>
    have hr := bucketsOk_rolled now windowNs hok
    exact ⟨hr.rate_eq, hr.prev_le, hr.curr_le⟩

end Buckets

/-! Calls. -/

section Calls

variable {ι : Type} [DecidableEq ι]

/-- The call gets to the comparison: a limit is set, the call reaches the window, and the
window is open. -/
structure Compared (s : UdpGlobalRun ι) (p : UdpPacket ι) : Prop where
  limited : s.rl.byteRateMax ≠ 0
  reaches : ReachesWindow s p
  unblocked : s.rl.blockedUntilNs = 0
  started : s.rl.windowStartNs ≠ 0
  recent : ¬p.now - s.rl.windowStartNs ≥ 2 * cfgUdpGlobalWindowNs p.cfg

/-- If the call compares, then exactly. -/
def CallExact (s : UdpGlobalRun ι) (p : UdpPacket ι) : Prop :=
  Compared s p → ComparisonExact (s.rl.rolled p.now (cfgUdpGlobalWindowNs p.cfg)) p.now
    ((s.acc p.cpu).localBytes + p.pktBytes) (cfgUdpGlobalWindowNs p.cfg)

/-- The calls of a run: one configuration, and packets as long as their length fields say. -/
structure UdpCalls (cfg : Option XdpRuntimeCfg) (packets : List (UdpPacket ι)) : Prop where
  cfg_eq : ∀ p ∈ packets, p.cfg = cfg
  bytes_le : ∀ p ∈ packets, p.pktBytes.toNat ≤ maxPktBytes

variable {rate : U32} {cfg : Option XdpRuntimeCfg} {s : UdpGlobalRun ι} {p : UdpPacket ι}

omit [DecidableEq ι] in
theorem udpCalls_cons {packets : List (UdpPacket ι)} (h : UdpCalls cfg (p :: packets)) :
    p.cfg = cfg ∧ p.pktBytes.toNat ≤ maxPktBytes ∧ UdpCalls cfg packets :=
  ⟨h.cfg_eq p List.mem_cons_self, h.bytes_le p List.mem_cons_self,
    fun q hq => h.cfg_eq q (List.mem_cons_of_mem p hq),
    fun q hq => h.bytes_le q (List.mem_cons_of_mem p hq)⟩

/-- Batches stay below their threshold. -/
theorem batches_step (hrate : s.rl.byteRateMax ≠ 0)
    (hlocals : ∀ i, (s.acc i).localBytes.toNat < 65536) (i : ι) :
    ((s.step p).acc i).localBytes.toNat < 65536 := by
  obtain ⟨v, -, hsame, hout⟩ := s.step_outcome p hrate
  by_cases hi : i = p.cpu
  · rw [hi]
    exact (localOk_outcome hout).1
  · rw [hsame i hi]
    exact hlocals i

omit [DecidableEq ι] in
theorem callExact_late (hok : BucketsOk rate s.rl)
    (hfit : LateProductsFit rate (cfgUdpGlobalWindowNs p.cfg))
    (hlocal : (s.acc p.cpu).localBytes.toNat < 65536) (hbytes : p.pktBytes.toNat ≤ maxPktBytes) :
    CallExact s p := by
  intro hc
  have hflush := (flush_toNat (s.acc p.cpu) p.pktBytes hlocal hbytes).2
  exact exact_of_buckets (bucketsOk_rolled _ _ hok) hfit _ hflush (rolled_elapsed_le hc.recent)

omit [DecidableEq ι] in
theorem callExact_inOrder {last : ℕ}
    (hok : WindowOk rate (cfgUdpGlobalWindowNs p.cfg) last s.rl) (hnow : last ≤ p.now.toNat)
    (hfit : ProductsFit rate (cfgUdpGlobalWindowNs p.cfg))
    (hlocal : (s.acc p.cpu).localBytes.toNat < 65536) (hbytes : p.pktBytes.toNat ≤ maxPktBytes) :
    CallExact s p := by
  intro hc
  have hflush := (flush_toNat (s.acc p.cpu) p.pktBytes hlocal hbytes).2
  have hr := rolled_ok hok hfit p.now hnow hc.started hc.recent
  obtain ⟨hsub, hrest⟩ := hr.elapsed
  have hsum := hr.sum_lt hfit _ hflush
  have hlimit := limit_lt_of_fit hfit
  unfold UdpGlobalState.weighted at hsum
  rw [← hsub] at hsum
  rw [← hr.rate_eq] at hlimit
  exact ⟨hrest, hsum, hlimit, exceeds_exact _ _ _ _ hrest hsum hlimit⟩

/-! Runs that are exact. -/

theorem exact_run_late (hrate : rate ≠ 0) (hfit : LateProductsFit rate (cfgUdpGlobalWindowNs cfg))
    (packets : List (UdpPacket ι)) (hcalls : UdpCalls cfg packets) (s : UdpGlobalRun ι)
    (hok : BucketsOk rate s.rl) (hlocals : ∀ i, (s.acc i).localBytes.toNat < 65536) :
    Guarded UdpGlobalRun.step CallExact s packets := by
  induction packets generalizing s with
  | nil => trivial
  | cons p packets ih =>
    obtain ⟨hcfg, hbytes, hrest⟩ := udpCalls_cons hcalls
    have hlimited : s.rl.byteRateMax ≠ 0 := by rw [hok.rate_eq]; exact hrate
    obtain ⟨v, -, -, hout⟩ := s.step_outcome p hlimited
    rw [hcfg] at hout
    have hnext := bucketsOk_outcome hok (cfgUdpGlobalWindowNs_pos cfg) hfit (hlocals p.cpu)
      hbytes hout
    refine ⟨callExact_late hok (hcfg ▸ hfit) (hlocals p.cpu) hbytes, ?_⟩
    exact ih hrest _ hnext (batches_step hlimited hlocals)

theorem exact_run_inOrder (hrate : rate ≠ 0) (hfit : ProductsFit rate (cfgUdpGlobalWindowNs cfg))
    (packets : List (UdpPacket ι)) (hcalls : UdpCalls cfg packets)
    (hforward : packets.Pairwise fun p q => p.now.toNat ≤ q.now.toNat) (last : ℕ)
    (hlast : ∀ p ∈ packets, last ≤ p.now.toNat) (s : UdpGlobalRun ι)
    (hok : WindowOk rate (cfgUdpGlobalWindowNs cfg) last s.rl)
    (hlocals : ∀ i, (s.acc i).localBytes.toNat < 65536) :
    Guarded UdpGlobalRun.step CallExact s packets := by
  induction packets generalizing s last with
  | nil => trivial
  | cons p packets ih =>
    obtain ⟨hcfg, hbytes, hrest⟩ := udpCalls_cons hcalls
    have hlimited : s.rl.byteRateMax ≠ 0 := by rw [hok.rate_eq]; exact hrate
    have hnow := hlast p List.mem_cons_self
    have hlater := List.pairwise_cons.mp hforward
    obtain ⟨v, -, -, hout⟩ := s.step_outcome p hlimited
    rw [hcfg] at hout
    have hnext := windowOk_outcome hok hnow (cfgUdpGlobalWindowNs_pos cfg) hfit (hlocals p.cpu)
      hbytes hout
    refine ⟨callExact_inOrder (hcfg ▸ hok) hnow (hcfg ▸ hfit) (hlocals p.cpu) hbytes, ?_⟩
    exact ih hrest hlater.2 p.now.toNat hlater.1 _ hnext (batches_step hlimited hlocals)

/-- Without a limit nothing is compared. -/
theorem exact_run_unlimited (packets : List (UdpPacket ι)) (s : UdpGlobalRun ι)
    (hrate : s.rl.byteRateMax = 0) : Guarded UdpGlobalRun.step CallExact s packets := by
  induction packets generalizing s with
  | nil => trivial
  | cons p packets ih =>
    refine ⟨fun hc => absurd hrate hc.limited, ih _ ?_⟩
    change (udpGlobalRateCheck p.now p.pktBytes p.cfg _).2.udpGlobalRl.byteRateMax = 0
    unfold udpGlobalRateCheck
    rw [if_pos hrate]
    exact hrate

/-- A window whose double length wraps to nothing starts anew at every flush. -/
theorem exact_run_restarts (hcfg : 2 * cfgUdpGlobalWindowNs cfg = 0)
    (packets : List (UdpPacket ι)) (hcalls : UdpCalls cfg packets) (s : UdpGlobalRun ι) :
    Guarded UdpGlobalRun.step CallExact s packets := by
  induction packets generalizing s with
  | nil => trivial
  | cons p packets ih =>
    obtain ⟨hp, -, hrest⟩ := udpCalls_cons hcalls
    refine ⟨fun hc => absurd ?_ hc.recent, ih hrest _⟩
    rw [hp, hcfg]
    exact Nat.zero_le _

/-! A run on one CPU, all at one time, that fills the bucket as far as it goes. -/

/-- The window began at time 1 and has counted `c` bytes; the CPU's batch is empty. -/
structure Filled (rate : U32) (i : ι) (c : ℕ) (s : UdpGlobalRun ι) : Prop where
  rl_eq : s.rl = ⟨rate, 1, 0, BitVec.ofNat 64 c, 0⟩
  acc_eq : s.acc i = {}

/-- Two packets that make one flush of `f` bytes. -/
def flushCalls (i : ι) (cfg : Option XdpRuntimeCfg) (f : ℕ) : List (UdpPacket ι) :=
  [⟨i, 1, 65535, cfg⟩, ⟨i, 1, BitVec.ofNat 64 (f-65535), cfg⟩]

variable {i : ι} {f c : ℕ}

theorem flush_bytes (hf : 65536 ≤ f) (hmax : f ≤ maxFlush) :
    (65535 : U64) + BitVec.ofNat 64 (f-65535) = BitVec.ofNat 64 f ∧
      (BitVec.ofNat 64 f).toNat = f := by
  have hlast : maxFlush = 131110 := rfl
  constructor
  · apply BitVec.eq_of_toNat_eq
    have hhead : (65535 : U64).toNat = 65535 := rfl
    rw [BitVec.toNat_add, BitVec.toNat_ofNat, BitVec.toNat_ofNat, hhead]
    omega
  · rw [BitVec.toNat_ofNat]
    omega

/-- The first packet only fills the batch. -/
theorem step_first (cfg : Option XdpRuntimeCfg) (hrate : s.rl.byteRateMax ≠ 0) (hacc : s.acc i = {}) :
    (s.step ⟨i, 1, 65535, cfg⟩).rl = s.rl ∧
      (s.step ⟨i, 1, 65535, cfg⟩).acc i = ⟨65535, 0⟩ := by
  obtain ⟨v, -, -, hout⟩ := s.step_outcome ⟨i, 1, 65535, cfg⟩ hrate
  dsimp only at hout
  rw [hacc] at hout
  generalize (s.step ⟨i, 1, 65535, cfg⟩).rl = g', (s.step ⟨i, 1, 65535, cfg⟩).acc i = loc'
    at hout ⊢
  cases hout with
  | fastDrop h => exact absurd rfl h
  | batched => exact ⟨rfl, rfl⟩
  | blocked _ hbatch | started _ hbatch | counted _ hbatch | exceeded _ hbatch =>
    exact absurd (by decide) hbatch

/-- The second packet flushes `f` bytes: into a new window, or into the comparison. -/
theorem step_second (cfg : Option XdpRuntimeCfg) (hrate : s.rl.byteRateMax ≠ 0)
    (hfree : s.rl.blockedUntilNs = 0) (hacc : s.acc i = ⟨65535, 0⟩) (hf : 65536 ≤ f) (hmax : f ≤ maxFlush) :
    let p : UdpPacket ι := ⟨i, 1, BitVec.ofNat 64 (f-65535), cfg⟩
    let w := cfgUdpGlobalWindowNs cfg
    ((s.step p).acc i = {} ∧ (s.rl.windowStartNs = 0 ∨ 1 - s.rl.windowStartNs ≥ 2 * w) ∧
      (s.step p).rl = { s.rl with windowStartNs := 1, prevBytes := 0
                                  currBytes := BitVec.ofNat 64 f }) ∨
    (s.rl.windowStartNs ≠ 0 ∧ (s.rl.rolled 1 w).Exceeds 1 (BitVec.ofNat 64 f) w) ∨
    (s.rl.windowStartNs ≠ 0 ∧ (s.step p).acc i = {} ∧
      (s.step p).rl = { s.rl.rolled 1 w with
        currBytes := (s.rl.rolled 1 w).currBytes + BitVec.ofNat 64 f }) := by
  intro p w
  obtain ⟨v, -, -, hout⟩ := s.step_outcome p hrate
  obtain ⟨hbytes, htoNat⟩ := flush_bytes hf hmax
  have hbatch : ¬(65535 : U64) + p.pktBytes < udpGlobalBatchBytes := by
    rw [hbytes, BitVec.not_lt, BitVec.le_def, htoNat]
    exact hf
  have hunblocked : s.rl.unblocked = s.rl := if_neg (not_not.mpr hfree)
  have hcpu : p.cpu = i := rfl
  rw [hcpu, hacc] at hout
  generalize (s.step p).rl = g', (s.step p).acc i = loc' at hout ⊢
  cases hout with
  | fastDrop h => exact absurd rfl h
  | batched _ hless => exact absurd hless hbatch
  | blocked _ _ h => exact absurd hfree h
  | started _ _ _ h =>
    rw [hunblocked] at h
    refine Or.inl ⟨rfl, h, ?_⟩
    rw [hunblocked, hbytes]
  | counted _ _ _ hstart =>
    refine Or.inr (Or.inr ⟨hstart, rfl, ?_⟩)
    rw [hbytes]
  | exceeded _ _ _ hstart _ hover =>
    refine Or.inr (Or.inl ⟨hstart, ?_⟩)
    rwa [hbytes] at hover

omit [DecidableEq ι] in
theorem rolled_filled (hw : 0 < (cfgUdpGlobalWindowNs cfg).toNat) (hs : Filled rate i c s) :
    s.rl.rolled 1 (cfgUdpGlobalWindowNs cfg) = s.rl := by
  rw [hs.rl_eq]
  refine if_neg fun h => ?_
  have hle : (cfgUdpGlobalWindowNs cfg).toNat ≤ ((1 : U64) - 1).toNat := h
  exact absurd hle (Nat.not_le.mpr hw)

/-- The second packet finds the open window, unless twice its length is no length. -/
theorem compared_filled (hrate : rate ≠ 0) (hcfg : 2 * cfgUdpGlobalWindowNs cfg ≠ 0)
    (hs : Filled rate i c s) (hf : 65536 ≤ f) (hmax : f ≤ maxFlush) :
    Compared (s.step ⟨i, 1, 65535, cfg⟩) ⟨i, 1, BitVec.ofNat 64 (f-65535), cfg⟩ := by
  have hlimited : s.rl.byteRateMax ≠ 0 := by rw [hs.rl_eq]; exact hrate
  obtain ⟨hrl, hacc⟩ := step_first cfg hlimited hs.acc_eq
  obtain ⟨hbytes, htoNat⟩ := flush_bytes hf hmax
  rw [hs.rl_eq] at hrl
  refine ⟨by rw [hrl]; exact hrate, ⟨?_, ?_, ?_⟩, by rw [hrl], ?_, ?_⟩
  · change ((s.step ⟨i, 1, 65535, cfg⟩).acc i).blockedUntilNs ≤ 1
    rw [hacc]
    decide
  · change ¬((s.step ⟨i, 1, 65535, cfg⟩).acc i).localBytes + _ < _
    rw [hacc]
    dsimp only
    rw [hbytes, BitVec.not_lt, BitVec.le_def, htoNat]
    exact hf
  · rw [hrl]
    exact Nat.zero_le _
  · rw [hrl]
    exact (by decide : (1 : U64) ≠ 0)
  · rw [hrl]
    intro h
    have hle : (2 * cfgUdpGlobalWindowNs cfg).toNat ≤ ((1 : U64) - 1).toNat := h
    exact hcfg (BitVec.eq_of_toNat_eq (Nat.le_zero.mp (by simpa using hle)))

/-- What an exact comparison says about the bytes that it compares. -/
theorem exact_filled (hrate : rate ≠ 0) (hcfg : 2 * cfgUdpGlobalWindowNs cfg ≠ 0)
    (hs : Filled rate i c s) (hc : c < 2^64) (hf : 65536 ≤ f) (hmax : f ≤ maxFlush)
    (hexact : Guarded UdpGlobalRun.step CallExact s (flushCalls i cfg f)) :
    (c + f) * (cfgUdpGlobalWindowNs cfg).toNat < 2^64 ∧
      (c + f ≤ rate.toNat → ¬s.rl.Exceeds 1 (BitVec.ofNat 64 f) (cfgUdpGlobalWindowNs cfg)) := by
  have hw := cfgUdpGlobalWindowNs_pos cfg
  have hlimited : s.rl.byteRateMax ≠ 0 := by rw [hs.rl_eq]; exact hrate
  obtain ⟨hrl, hacc⟩ := step_first cfg hlimited hs.acc_eq
  obtain ⟨hbytes, htoNat⟩ := flush_bytes hf hmax
  have hcomp := hexact.2.1 (compared_filled hrate hcfg hs hf hmax)
  dsimp only at hcomp
  rw [hacc, hrl, rolled_filled hw hs] at hcomp
  dsimp only at hcomp
  rw [hbytes] at hcomp
  have hcurr : s.rl.currBytes.toNat = c := by
    rw [hs.rl_eq]
    exact Nat.mod_eq_of_lt hc
  have hprev : s.rl.prevBytes.toNat = 0 := by rw [hs.rl_eq]; rfl
  have hlimit : s.rl.byteRateMax = rate := by rw [hs.rl_eq]
  have hsum := hcomp.sum_lt
  have hdecides := hcomp.decides
  rw [hcurr, hprev, htoNat, Nat.zero_mul, Nat.zero_add, ← Nat.add_mul] at hsum hdecides
  refine ⟨hsum, fun hle hover => ?_⟩
  rw [hdecides, hlimit] at hover
  exact absurd hover (Nat.not_lt.mpr (Nat.mul_le_mul_right _ hle))

theorem fill_started (hrate : rate ≠ 0) (hs : s.rl = { byteRateMax := rate }) (hacc : s.acc i = {})
    (hf : 65536 ≤ f) (hmax : f ≤ maxFlush) :
    Filled rate i f ((flushCalls i cfg f).foldl UdpGlobalRun.step s) := by
  have hlimited : s.rl.byteRateMax ≠ 0 := by rw [hs]; exact hrate
  obtain ⟨hrl, hacc'⟩ := step_first cfg hlimited hacc
  rw [hs] at hrl
  have hlimited' : (s.step ⟨i, 1, 65535, cfg⟩).rl.byteRateMax ≠ 0 := by rw [hrl]; exact hrate
  have hfree : (s.step ⟨i, 1, 65535, cfg⟩).rl.blockedUntilNs = 0 := by rw [hrl]
  have hempty : (s.step ⟨i, 1, 65535, cfg⟩).rl.windowStartNs = 0 := by rw [hrl]
  rcases step_second cfg hlimited' hfree hacc' hf hmax with
    ⟨hlast, -, hnext⟩ | ⟨hstart, -⟩ | ⟨hstart, -⟩
  · refine ⟨hnext.trans ?_, hlast⟩
    rw [hrl]
  · exact absurd hempty hstart
  · exact absurd hempty hstart

theorem fill_counted (hrate : rate ≠ 0) (hcfg : 2 * cfgUdpGlobalWindowNs cfg ≠ 0)
    (hs : Filled rate i c s) (hf : 65536 ≤ f) (hmax : f ≤ maxFlush) (hle : c + f ≤ rate.toNat)
    (hexact : Guarded UdpGlobalRun.step CallExact s (flushCalls i cfg f)) :
    Filled rate i (c + f) ((flushCalls i cfg f).foldl UdpGlobalRun.step s) := by
  have hlimited : s.rl.byteRateMax ≠ 0 := by rw [hs.rl_eq]; exact hrate
  obtain ⟨hrl, hacc⟩ := step_first cfg hlimited hs.acc_eq
  have hcomp := compared_filled hrate hcfg hs hf hmax
  have hrolled := rolled_filled (cfgUdpGlobalWindowNs_pos cfg) hs
  have hc : c < 2^64 := by
    have := rate.isLt
    omega
  have hfits := (exact_filled hrate hcfg hs hc hf hmax hexact).2 hle
  rcases step_second cfg hcomp.limited hcomp.unblocked hacc hf hmax with
    ⟨-, hnew, -⟩ | ⟨-, hover⟩ | ⟨-, hlast, hnext⟩
  · rcases hnew with hnew | hnew
    · exact absurd hnew hcomp.started
    · exact absurd hnew hcomp.recent
  · rw [hrl, hrolled] at hover
    exact absurd hover hfits
  · refine ⟨hnext.trans ?_, hlast⟩
    rw [hrl, hrolled, hs.rl_eq, BitVec.ofNat_add]

/-- Packets of real length, all at time 1. -/
def AtOne (cfg : Option XdpRuntimeCfg) (packets : List (UdpPacket ι)) : Prop :=
  ∀ p ∈ packets, p.now = 1 ∧ p.cfg = cfg ∧ p.pktBytes.toNat ≤ maxPktBytes

omit [DecidableEq ι] in
theorem AtOne.calls {packets : List (UdpPacket ι)} (h : AtOne cfg packets) :
    UdpCalls cfg packets ∧ packets.Pairwise fun p q => p.now.toNat ≤ q.now.toNat := by
  refine ⟨⟨fun p hp => (h p hp).2.1, fun p hp => (h p hp).2.2⟩, ?_⟩
  refine List.pairwise_of_forall_mem_list fun p hp q hq => ?_
  rw [(h p hp).1, (h q hq).1]

omit [DecidableEq ι] in
theorem atOne_flushCalls (i : ι) (cfg : Option XdpRuntimeCfg) (hmax : f ≤ maxFlush) :
    AtOne cfg (flushCalls i cfg f) := by
  have hlast : maxFlush = 131110 := rfl
  have hlong : maxPktBytes = 65575 := rfl
  intro p hp
  rcases List.mem_cons.mp hp with rfl | hp
  · exact ⟨rfl, rfl, (by decide : (65535 : U64).toNat ≤ maxPktBytes)⟩
  · obtain rfl := List.mem_singleton.mp hp
    refine ⟨rfl, rfl, ?_⟩
    dsimp only
    rw [BitVec.toNat_ofNat]
    omega

omit [DecidableEq ι] in
theorem atOne_append {xs ys : List (UdpPacket ι)} (hxs : AtOne cfg xs) (hys : AtOne cfg ys) :
    AtOne cfg (xs ++ ys) := by
  intro p hp
  rcases List.mem_append.mp hp with hp | hp
  · exact hxs p hp
  · exact hys p hp

/-- If every run is exact, a bucket fills up to the limit, and in any case to one flush. -/
theorem fill_run (i : ι) (hrate : rate ≠ 0) (hcfg : 2 * cfgUdpGlobalWindowNs cfg ≠ 0)
    (hall : ∀ packets : List (UdpPacket ι), AtOne cfg packets →
      Guarded UdpGlobalRun.step CallExact (udpGlobalStart ι rate) packets)
    (c : ℕ) (hc : 65536 ≤ c) (hle : c ≤ bucketMax rate) :
    ∃ packets, AtOne cfg packets ∧
      Filled rate i c (packets.foldl UdpGlobalRun.step (udpGlobalStart ι rate)) := by
  have hlast : maxFlush = 131110 := rfl
  induction c using Nat.strong_induction_on with
  | _ c ih =>
    by_cases hone : c ≤ maxFlush
    · exact ⟨flushCalls i cfg c, atOne_flushCalls i cfg hone,
        fill_started hrate rfl rfl hc hone⟩
    · have hlimit : c ≤ rate.toNat := (le_max_iff.mp hle).resolve_right hone
      obtain ⟨packets, hone', hfilled⟩ := ih (c-65536) (by omega) (by omega) (by omega)
      have hflush := atOne_flushCalls i cfg (show 65536 ≤ maxFlush by omega)
      have hexact := ((guarded_append _ _ _ _ _).mp (hall _ (atOne_append hone' hflush))).2
      have hnext := fill_counted hrate hcfg hfilled (by omega) (by omega) (by omega) hexact
      rw [← List.foldl_append, Nat.sub_add_cancel (by omega)] at hnext
      exact ⟨_, atOne_append hone' hflush, hnext⟩

/-- A limiter without a limit never compares, nor does one whose window of twice the
length wraps to nothing. Otherwise the products of every run fit exactly if they fit for a
full bucket and one more flush; when readings go back, if they fit for two full ones. -/
theorem udp_products_exact (i : ι) (rate : U32) (cfg : Option XdpRuntimeCfg) :
    ((∀ packets : List (UdpPacket ι), UdpCalls cfg packets →
        (packets.Pairwise fun p q => p.now.toNat ≤ q.now.toNat) →
        Guarded UdpGlobalRun.step CallExact (udpGlobalStart ι rate) packets) ↔
      rate = 0 ∨ 2 * cfgUdpGlobalWindowNs cfg = 0 ∨ ProductsFit rate (cfgUdpGlobalWindowNs cfg)) ∧
    (LateProductsFit rate (cfgUdpGlobalWindowNs cfg) →
      ∀ packets : List (UdpPacket ι), UdpCalls cfg packets →
        Guarded UdpGlobalRun.step CallExact (udpGlobalStart ι rate) packets) := by
  have hlocals : ∀ j, ((udpGlobalStart ι rate).acc j).localBytes.toNat < 65536 :=
    fun _ => (by decide : (0 : U64).toNat < 65536)
  refine ⟨⟨fun hall => ?_, fun hcond packets hcalls hforward => ?_⟩, fun hfit packets hcalls => ?_⟩
  · by_contra hcond
    obtain ⟨hrate, hcond⟩ := not_or.mp hcond
    obtain ⟨hcfg, hnofit⟩ := not_or.mp hcond
    have hall' : ∀ packets : List (UdpPacket ι), AtOne cfg packets →
        Guarded UdpGlobalRun.step CallExact (udpGlobalStart ι rate) packets :=
      fun packets h => hall packets h.calls.1 h.calls.2
    have hone : maxFlush ≤ bucketMax rate := le_max_right _ _
    have hlast : maxFlush = 131110 := rfl
    obtain ⟨packets, hpackets, hfilled⟩ :=
      fill_run i hrate hcfg hall' (bucketMax rate) (by omega) (Nat.le_refl _)
    have hflush := atOne_flushCalls i cfg (Nat.le_refl maxFlush)
    have hexact := ((guarded_append _ _ _ _ _).mp (hall' _ (atOne_append hpackets hflush))).2
    have hsmall : bucketMax rate < 2^64 := by
      have := rate.isLt
      unfold bucketMax
      omega
    exact hnofit (exact_filled hrate hcfg hfilled hsmall (by omega) (Nat.le_refl _) hexact).1
  · by_cases hrate : rate = 0
    · exact exact_run_unlimited packets _ hrate
    rcases hcond.resolve_left hrate with hcfg | hfit
    · exact exact_run_restarts hcfg packets hcalls _
    · exact exact_run_inOrder hrate hfit packets hcalls hforward 0 (fun _ _ => Nat.zero_le _) _
        ⟨rfl, Nat.le_refl _, Nat.zero_le _, fun h => absurd rfl h⟩ hlocals
  · by_cases hrate : rate = 0
    · exact exact_run_unlimited packets _ hrate
    exact exact_run_late hrate hfit packets hcalls _ ⟨rfl, Nat.zero_le _, Nat.zero_le _⟩ hlocals

end Calls

/-- A window of five seconds and the largest limit: the second flush is compared, and the
threshold has wrapped. -/
theorem threshold_wraps : ¬Guarded UdpGlobalRun.step CallExact (udpGlobalStart Unit 0xFFFFFFFF)
    [⟨(), 1000000000, 65535, some { udpGlobalWindowNs := 5000000000 }⟩,
      ⟨(), 1000000000, 1500, some { udpGlobalWindowNs := 5000000000 }⟩,
      ⟨(), 1000000001, 65535, some { udpGlobalWindowNs := 5000000000 }⟩,
      ⟨(), 1000000001, 1500, some { udpGlobalWindowNs := 5000000000 }⟩] := by
  intro h
  have hcomp := h.2.2.2.1 ⟨by decide +kernel, by decide +kernel, by decide +kernel,
    by decide +kernel, by decide +kernel⟩
  exact absurd hcomp.limit_lt (by decide +kernel)

end AutoXdp
