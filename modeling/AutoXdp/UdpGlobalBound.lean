import AutoXdp.UdpGlobalLimit
import Mathlib.Algebra.Order.BigOperators.Group.Finset
import Mathlib.Tactic.Basic

/-! How many bytes the global UDP limiter passes in one window length. -/
namespace AutoXdp

/-- The bytes of the packets passed at times from `start` to `stop`. -/
def passedBytes {ι : Type} (start stop : ℕ) (log : List (UdpPacket ι × XdpAction)) : ℕ :=
  (log.map fun e =>
    if e.2 = .pass ∧ start ≤ e.1.now.toNat ∧ e.1.now.toNat ≤ stop then e.1.pktBytes.toNat
    else 0).sum

section Passed

variable {ι : Type} (start stop : ℕ) (p : UdpPacket ι) (log : List (UdpPacket ι × XdpAction))

theorem passedBytes_pass (hstart : start ≤ p.now.toNat) (hstop : p.now.toNat ≤ stop) :
    passedBytes start stop ((p, .pass) :: log) = p.pktBytes.toNat + passedBytes start stop log := by
  rw [passedBytes, List.map_cons, List.sum_cons, if_pos ⟨rfl, hstart, hstop⟩]
  rfl

theorem passedBytes_skip (v : XdpAction)
    (h : ¬(v = .pass ∧ start ≤ p.now.toNat ∧ p.now.toNat ≤ stop)) :
    passedBytes start stop ((p, v) :: log) = passedBytes start stop log := by
  rw [passedBytes, List.map_cons, List.sum_cons, if_neg h, Nat.zero_add]
  rfl

end Passed

/-! What the bytes passed since `t` are charged to: flushes that were counted, batches
that were flushed into a block, and the batches not yet flushed. -/

section Ledger

variable (rate : U32) (windowNs : U64) (t last : ℕ)

/-- Up to one window after `t`, the flushes counted since `t` are in the current bucket,
or in it and the one before, or a block has begun since; and later nothing is added. -/
def CountedOk (g : UdpGlobalState) (counted : ℕ) : Prop :=
  counted ≤ 2*bucketMax rate ∧ (last ≤ t + windowNs.toNat →
    counted = 0 ∨
    (g.blockedUntilNs = 0 ∧ g.windowStartNs ≠ 0 ∧ counted ≤ g.currBytes.toNat ∧
      t < g.windowStartNs.toNat + windowNs.toNat) ∨
    (g.blockedUntilNs = 0 ∧ g.windowStartNs ≠ 0 ∧
      counted ≤ bucketMax rate + g.currBytes.toNat ∧ t < g.windowStartNs.toNat) ∨
    (counted ≤ bucketMax rate ∧ t + windowNs.toNat ≤ g.blockedUntilNs.toNat) ∨
    t + windowNs.toNat < g.blockedUntilNs.toNat)

/-- A CPU that met one block since `t` is still in it, or can only meet one that ends
later than one window after `t`. -/
def MetOnce (g : UdpGlobalState) (loc : UdpPercpuLocal) : Prop :=
  (loc.blockedUntilNs = g.blockedUntilNs ∧ g.blockedUntilNs ≠ 0 ∧ t < g.blockedUntilNs.toNat) ∨
  (t < last ∧ (g.blockedUntilNs = 0 ∨ t + windowNs.toNat < g.blockedUntilNs.toNat ∨
    g.blockedUntilNs.toNat ≤ last))

/-- A CPU meets at most two blocks. -/
def MetOk (g : UdpGlobalState) (loc : UdpPercpuLocal) (met : ℕ) : Prop :=
  met ≤ 2 ∧ (last ≤ t + windowNs.toNat →
    (met = 1 → MetOnce windowNs t last g loc) ∧
    (met = 2 → t + windowNs.toNat < loc.blockedUntilNs.toNat))

end Ledger

section Steps

variable {rate : U32} {windowNs : U64} {t last : ℕ} {g : UdpGlobalState}

theorem metOnce_mono {later : ℕ} (loc : UdpPercpuLocal) (h : last ≤ later)
    (hm : MetOnce windowNs t last g loc) : MetOnce windowNs t later g loc := by
  rcases hm with hin | ⟨hlast, h0 | hlong | hover⟩
  · exact Or.inl hin
  · exact Or.inr ⟨hlast.trans_le h, Or.inl h0⟩
  · exact Or.inr ⟨hlast.trans_le h, Or.inr (Or.inl hlong)⟩
  · exact Or.inr ⟨hlast.trans_le h, Or.inr (Or.inr (hover.trans h))⟩

/-- Any CPU after a flush that found no active block. -/
theorem metOnce_free {now : ℕ} {g' : UdpGlobalState} (loc loc' : UdpPercpuLocal)
    (hnow : last ≤ now)
    (hfree : g.blockedUntilNs.toNat ≤ now)
    (hnext : g'.blockedUntilNs = 0 ∨ g'.blockedUntilNs.toNat = now + windowNs.toNat)
    (hm : MetOnce windowNs t last g loc) : MetOnce windowNs t now g' loc' := by
  have hlate : t < now := by
    rcases hm with ⟨-, -, hlt⟩ | ⟨hlt, -⟩
    · exact hlt.trans_le hfree
    · exact hlt.trans_le hnow
  refine Or.inr ⟨hlate, ?_⟩
  rcases hnext with h0 | hset
  · exact Or.inl h0
  · exact Or.inr (Or.inl (by omega))

theorem metOk_of_metOnce {now : ℕ} {g' : UdpGlobalState} (loc : UdpPercpuLocal) (met : ℕ)
    (hnow : last ≤ now)
    (honce : MetOnce windowNs t last g loc → MetOnce windowNs t now g' loc)
    (hm : MetOk windowNs t last g loc met) : MetOk windowNs t now g' loc met :=
  ⟨hm.1, fun hle => ⟨fun h1 => honce ((hm.2 (hnow.trans hle)).1 h1),
    (hm.2 (hnow.trans hle)).2⟩⟩

theorem countedOk_mono {later : ℕ} (counted : ℕ) (h : last ≤ later)
    (hc : CountedOk rate windowNs t last g counted) : CountedOk rate windowNs t later g counted :=
  ⟨hc.1, fun hle => hc.2 (h.trans hle)⟩

/-- A CPU that may send again leaves its block behind. -/
theorem metOk_unblocked {now : ℕ} {g' : UdpGlobalState} (loc loc' : UdpPercpuLocal) (met : ℕ)
    (hnow : last ≤ now) (hstop : now ≤ t + windowNs.toNat)
    (hloc : loc.blockedUntilNs.toNat ≤ now)
    (honce : MetOnce windowNs t last g loc → MetOnce windowNs t now g' loc')
    (hm : MetOk windowNs t last g loc met) : MetOk windowNs t now g' loc' met := by
  refine ⟨hm.1, fun hle => ⟨fun h1 => honce ((hm.2 (hnow.trans hle)).1 h1), fun h2 => ?_⟩⟩
  have hlong := (hm.2 (hnow.trans hle)).2 h2
  omega

/-- A CPU that meets a block after `t`, which it has not met before. -/
theorem metOk_meets {now : ℕ} {g' : UdpGlobalState} (loc loc' : UdpPercpuLocal) (met : ℕ)
    (hnow : last ≤ now) (hstop : now ≤ t + windowNs.toNat)
    (hloc : loc.blockedUntilNs.toNat ≤ now) (heq : loc'.blockedUntilNs = g'.blockedUntilNs)
    (hactive : now < g'.blockedUntilNs.toNat) (hstart : t ≤ now)
    (hlong : MetOnce windowNs t last g loc → t + windowNs.toNat < g'.blockedUntilNs.toNat)
    (hm : MetOk windowNs t last g loc met) : MetOk windowNs t now g' loc' (met + 1) := by
  have hold := hm.2 (hnow.trans hstop)
  have hne : g'.blockedUntilNs ≠ 0 := by
    intro h
    rw [h] at hactive
    exact absurd hactive (Nat.not_lt_zero now)
  have hle : met ≤ 1 := by
    by_contra hgt
    have htwo : met = 2 := by have := hm.1; omega
    have := hold.2 htwo
    omega
  refine ⟨Nat.succ_le_succ hle, fun _ => ⟨fun _ => ?_, fun htwo => ?_⟩⟩
  · exact Or.inl ⟨heq, hne, hstart.trans_lt hactive⟩
  · rw [heq]
    exact hlong (hold.1 (Nat.succ.inj htwo))

theorem unblocked_blocked (g : UdpGlobalState) : g.unblocked.blockedUntilNs = 0 := by
  unfold UdpGlobalState.unblocked
  split
  · rfl
  · exact not_not.mp ‹_›

/-- A window that starts after `t` is the first flush counted since, or the one after
a block that began at `t`. -/
theorem countedOk_started {now : U64} {flush : U64} {counted : ℕ} (hpos : 0 < windowNs.toNat)
    (hfit : 2 * windowNs.toNat < 2^64) (hok : WindowOk rate windowNs last g)
    (hnow : last ≤ now.toNat) (hne : now ≠ 0) (hstart : t ≤ now.toNat)
    (hstop : now.toNat ≤ t + windowNs.toNat) (hflush : flush.toNat ≤ maxFlush)
    (hfree : g.blockedUntilNs.toNat ≤ now.toNat)
    (h : g.unblocked.windowStartNs = 0 ∨ now - g.unblocked.windowStartNs ≥ 2 * windowNs)
    (hc : CountedOk rate windowNs t last g counted) :
    CountedOk rate windowNs t now.toNat
      { g.unblocked with windowStartNs := now, prevBytes := 0, currBytes := flush }
      (counted + flush.toNat) := by
  have hmax : flush.toNat ≤ bucketMax rate := hflush.trans (le_max_right _ _)
  -- a window of before is too old for anything counted since `t` to be in it
  have hold : g.blockedUntilNs = 0 → g.windowStartNs ≠ 0 →
      g.windowStartNs.toNat + 2*windowNs.toNat ≤ now.toNat := by
    intro h0 hstarted
    have hsame : g.unblocked = g := if_neg (not_not.mpr h0)
    rw [hsame] at h
    have hle : g.windowStartNs.toNat ≤ now.toNat := hok.start_le.trans hnow
    have hsub : (now - g.windowStartNs).toNat = now.toNat - g.windowStartNs.toNat :=
      BitVec.toNat_sub_of_le hle
    have hage : (2 * windowNs).toNat ≤ (now - g.windowStartNs).toNat := h.resolve_left hstarted
    have htwo : (2 * windowNs).toNat = 2 * windowNs.toNat := by
      rw [BitVec.toNat_mul]
      exact Nat.mod_eq_of_lt hfit
    omega
  rcases hc.2 (hnow.trans hstop) with h0 | ⟨h0, hne', -, hlt⟩ | ⟨h0, hne', -, hlt⟩ | ⟨hle, hlong⟩ | hlong
  · rw [h0, Nat.zero_add]
    refine ⟨by omega, fun _ => Or.inr (Or.inl ⟨unblocked_blocked g, hne, Nat.le_refl _, ?_⟩)⟩
    exact lt_of_le_of_lt hstart (Nat.lt_add_of_pos_right hpos)
  · have := hold h0 hne'
    omega
  · have := hold h0 hne'
    omega
  · refine ⟨by omega, fun _ => Or.inr (Or.inr (Or.inl ⟨unblocked_blocked g, hne, ?_, ?_⟩))⟩
    · exact Nat.add_le_add_right hle _
    · exact lt_of_lt_of_le (Nat.lt_add_of_pos_right hpos) (hlong.trans hfree)
  · omega

/-- A counted flush goes to the bucket of what was counted before, or to the next one. -/
theorem countedOk_counted {now : U64} {flush : U64} {counted : ℕ} {g' : UdpGlobalState}
    (hpos : 0 < windowNs.toNat) (hok : WindowOk rate windowNs last g)
    (hr : RolledOk rate windowNs now g g') (hnow : last ≤ now.toNat) (hstart : t ≤ now.toNat)
    (hstop : now.toNat ≤ t + windowNs.toNat) (hfree : g.blockedUntilNs = 0)
    (hadd : (g'.currBytes + flush).toNat = g'.currBytes.toNat + flush.toNat)
    (hcurr : (g'.currBytes + flush).toNat ≤ bucketMax rate)
    (hc : CountedOk rate windowNs t last g counted) :
    CountedOk rate windowNs t now.toNat { g' with currBytes := g'.currBytes + flush }
      (counted + flush.toNat) := by
  have hfree' : g'.blockedUntilNs = 0 := hr.blocked_eq.trans hfree
  have hzero : g.blockedUntilNs.toNat = 0 := by rw [hfree]; rfl
  have hprev := hok.curr_le
  have hlt' := hr.now_lt
  rcases hc.2 (hnow.trans hstop) with h0 | ⟨-, -, hle, hlt⟩ | ⟨-, -, hle, hlt⟩ | ⟨-, hlong⟩ | hlong
  · rw [h0, Nat.zero_add]
    refine ⟨by omega, fun _ => Or.inr (Or.inl ⟨hfree', hr.start_ne, ?_, by dsimp only; omega⟩)⟩
    dsimp only
    omega
  · rcases hr.same_or_next with rfl | ⟨-, hnext, hempty⟩
    · refine ⟨by omega, fun _ => Or.inr (Or.inl ⟨hfree', hr.start_ne, ?_, hlt⟩)⟩
      dsimp only
      omega
    · -- the bucket rolled: it holds what was counted, and the next one the flush
      refine ⟨by omega, fun _ => Or.inr (Or.inr (Or.inl ⟨hfree', hr.start_ne, ?_, ?_⟩))⟩
      · dsimp only
        omega
      · dsimp only
        omega
  · rcases hr.same_or_next with rfl | ⟨hlate, -, -⟩
    · refine ⟨by omega, fun _ => Or.inr (Or.inr (Or.inl ⟨hfree', hr.start_ne, ?_, hlt⟩))⟩
      dsimp only
      omega
    · omega
  · omega
  · omega

/-- A flush that starts a block: what was counted before it is in one bucket, or the
block ends too late to matter. -/
theorem countedOk_exceeded {now : U64} {counted : ℕ} {g' : UdpGlobalState}
    (hpos : 0 < windowNs.toNat) (hok : WindowOk rate windowNs last g) (hnow : last ≤ now.toNat)
    (hstart : t ≤ now.toNat) (hfree : g.blockedUntilNs = 0)
    (hstop : now.toNat ≤ t + windowNs.toNat) (deadline : U64)
    (hdeadline : deadline.toNat = now.toNat + windowNs.toNat)
    (hc : CountedOk rate windowNs t last g counted) :
    CountedOk rate windowNs t now.toNat { g' with blockedUntilNs := deadline } counted := by
  have hzero : g.blockedUntilNs.toNat = 0 := by rw [hfree]; rfl
  have hprev := hok.curr_le
  refine ⟨hc.1, fun _ => ?_⟩
  rcases hc.2 (hnow.trans hstop) with h0 | ⟨-, -, hle, -⟩ | ⟨-, -, hle, hlt⟩ | ⟨-, hlong⟩ | hlong
  · exact Or.inl h0
  · refine Or.inr (Or.inr (Or.inr (Or.inl ⟨hle.trans hprev, ?_⟩)))
    dsimp only
    omega
  · have hsince : g.windowStartNs.toNat ≤ now.toNat := hok.start_le.trans hnow
    refine Or.inr (Or.inr (Or.inr (Or.inr ?_)))
    dsimp only
    omega
  · omega
  · omega

/-- What one call inside the interval passes is charged, and the charges stay in bounds. -/
theorem charged_outcome {now bytes : U64} {loc loc' : UdpPercpuLocal} {v : XdpAction}
    {g' : UdpGlobalState} {counted met : ℕ} (hok : WindowOk rate windowNs last g)
    (hnow : last ≤ now.toNat) (hne : now ≠ 0) (hstart : t ≤ now.toNat)
    (hstop : now.toNat ≤ t + windowNs.toNat) (hpos : 0 < windowNs.toNat)
    (hfit : ProductsFit rate windowNs) (hdeadline : now.toNat + windowNs.toNat < 2^64)
    (hlocal : LocalOk loc) (hbytes : bytes.toNat ≤ maxPktBytes)
    (hc : CountedOk rate windowNs t last g counted) (hm : MetOk windowNs t last g loc met)
    (h : UdpOutcome now bytes windowNs g loc v g' loc') :
    ∃ counted' met', (if v = .pass then bytes.toNat else 0) +
        (counted + met*65535 + loc.localBytes.toNat) ≤
          counted' + met'*65535 + loc'.localBytes.toNat ∧
      CountedOk rate windowNs t now.toNat g' counted' ∧
      MetOk windowNs t now.toNat g' loc' met' ∧
      ∀ other n, MetOk windowNs t last g other n → MetOk windowNs t now.toNat g' other n := by
  have hloc := hlocal.1
  obtain ⟨hflush, hmax⟩ := flush_toNat loc bytes hloc hbytes
  have hothers : ∀ other n, MetOk windowNs t last g other n → MetOk windowNs t now.toNat g other n :=
    fun other n => metOk_of_metOnce other n hnow (metOnce_mono other hnow)
  cases h with
  | fastDrop hblocked hin =>
    refine ⟨counted, met, ?_, countedOk_mono counted hnow hc, hothers _ met hm, hothers⟩
    rw [if_neg (by exact nofun), hlocal.2 hblocked]
    exact Nat.le_of_eq (Nat.zero_add _)
  | batched hfree hbatch =>
    refine ⟨counted, met, ?_, countedOk_mono counted hnow hc, ?_, hothers⟩
    · rw [if_pos rfl]
      dsimp only
      omega
    · refine metOk_unblocked loc _ met hnow hstop hfree ?_ hm
      intro honce
      rcases honce with ⟨heq, -, hlt⟩ | hrest
      · rw [heq] at hfree
        exact Or.inr ⟨hlt.trans_le hfree, Or.inr (Or.inr hfree)⟩
      · exact metOnce_mono _ hnow (Or.inr hrest)
  | blocked hfree hbatch hactive hin =>
    refine ⟨counted, met + 1, ?_, countedOk_mono counted hnow hc, ?_, hothers⟩
    · rw [if_neg (by exact nofun)]
      dsimp only
      have hzero : (0 : U64).toNat = 0 := rfl
      omega
    · refine metOk_meets loc _ met hnow hstop hfree rfl hin hstart ?_ hm
      rintro (⟨heq, -, -⟩ | ⟨-, h0 | hlong | hover⟩)
      · have hle : loc.blockedUntilNs.toNat ≤ now.toNat := hfree
        have hlt : now.toNat < g.blockedUntilNs.toNat := hin
        rw [heq] at hle
        omega
      · exact absurd h0 hactive
      · exact hlong
      · have hlt : now.toNat < g.blockedUntilNs.toNat := hin
        omega
  | started hfree hbatch hover hwin =>
    have hfreed (other other' : UdpPercpuLocal) (h : MetOnce windowNs t last g other) :
        MetOnce windowNs t now.toNat { g.unblocked with
          windowStartNs := now, prevBytes := 0, currBytes := loc.localBytes + bytes } other' :=
      metOnce_free other other' hnow hover (Or.inl (unblocked_blocked g)) h
    refine ⟨counted + (loc.localBytes + bytes).toNat, met, ?_, ?_, ?_, ?_⟩
    · rw [if_pos rfl]
      have hzero : (0 : U64).toNat = 0 := rfl
      dsimp only
      omega
    · exact countedOk_started hpos (windowNs_lt_of_fit hfit).1 hok hnow hne hstart hstop hmax hover
        hwin hc
    · exact metOk_unblocked loc _ met hnow hstop hfree (hfreed loc _) hm
    · exact fun other n => metOk_of_metOnce other n hnow (hfreed other other)
  | counted hfree hbatch hzero hset hold hfits =>
    have hr := rolled_ok hok hfit now hnow hset hold
    obtain ⟨hadd, hok'⟩ := counted_ok hr hpos hfit _ hmax hfits
    have hover : g.blockedUntilNs.toNat ≤ now.toNat := by
      rw [hzero]
      exact Nat.zero_le _
    have hfreed (other other' : UdpPercpuLocal) (h : MetOnce windowNs t last g other) :
        MetOnce windowNs t now.toNat { g.rolled now windowNs with
          currBytes := (g.rolled now windowNs).currBytes + (loc.localBytes + bytes) } other' :=
      metOnce_free other other' hnow hover (Or.inl (hr.blocked_eq.trans hzero)) h
    refine ⟨counted + (loc.localBytes + bytes).toNat, met, ?_, ?_, ?_, ?_⟩
    · rw [if_pos rfl]
      have hzero : (0 : U64).toNat = 0 := rfl
      dsimp only
      omega
    · exact countedOk_counted hpos hok hr hnow hstart hstop hzero hadd hok'.curr_le hc
    · exact metOk_unblocked loc _ met hnow hstop hfree (hfreed loc _) hm
    · exact fun other n => metOk_of_metOnce other n hnow (hfreed other other)
  | exceeded hfree hbatch hzero hset hold hover =>
    have hr := rolled_ok hok hfit now hnow hset hold
    have hsum : (now + windowNs).toNat = now.toNat + windowNs.toNat := by
      rw [BitVec.toNat_add]
      exact Nat.mod_eq_of_lt hdeadline
    have hend : g.blockedUntilNs.toNat ≤ now.toNat := by
      rw [hzero]
      exact Nat.zero_le _
    have hfreed (other other' : UdpPercpuLocal) (h : MetOnce windowNs t last g other) :
        MetOnce windowNs t now.toNat
          { g.rolled now windowNs with blockedUntilNs := now + windowNs } other' :=
      metOnce_free other other' hnow hend (Or.inr hsum) h
    refine ⟨counted, met + 1, ?_, ?_, ?_, ?_⟩
    · rw [if_neg (by exact nofun)]
      have hzero : (0 : U64).toNat = 0 := rfl
      dsimp only
      omega
    · exact countedOk_exceeded hpos hok hnow hstart hzero hstop _ hsum hc
    · refine metOk_meets loc _ met hnow hstop hfree rfl ?_ hstart ?_ hm
      · dsimp only
        omega
      · -- no block was active: the CPU met the first one before this moment
        rintro (⟨-, hne', -⟩ | ⟨hlt, -⟩)
        · exact absurd hzero hne'
        · dsimp only
          omega
    · exact fun other n => metOk_of_metOnce other n hnow (hfreed other other)

end Steps

/-! Runs. -/

theorem cfgUdpGlobalWindowNs_pos (cfg : Option XdpRuntimeCfg) :
    0 < (cfgUdpGlobalWindowNs cfg).toNat := by
  have hne : cfgUdpGlobalWindowNs cfg ≠ 0 := by
    unfold cfgUdpGlobalWindowNs cfgOr
    split
    · split
      · assumption
      · decide
    · decide
  exact Nat.pos_of_ne_zero fun h => hne (BitVec.eq_of_toNat_eq h)

section Run

variable {ι : Type} [Fintype ι] [DecidableEq ι]

/-- Sums that differ in one term. -/
theorem sum_exchange (f f' : ι → ℕ) (j : ι) (h : ∀ i, i ≠ j → f' i = f i) :
    ∑ i, f' i + f j = ∑ i, f i + f' j := by
  have hrest : ∑ i ∈ Finset.univ.erase j, f' i = ∑ i ∈ Finset.univ.erase j, f i :=
    Finset.sum_congr rfl fun i hi => h i (Finset.ne_of_mem_erase hi)
  rw [← Finset.add_sum_erase _ f (Finset.mem_univ j), ← Finset.add_sum_erase _ f' (Finset.mem_univ j),
    hrest]
  omega

/-- All that the interval can be charged: two buckets, and on each CPU two batches
flushed into a block and one not flushed. -/
def intervalMax (ι : Type) [Fintype ι] (rate : U32) : ℕ :=
  2*bucketMax rate + Fintype.card ι * (3*65535)

variable (rate : U32) (cfg : Option XdpRuntimeCfg) (t : ℕ)

/-- What holds after every call, `last` being its clock reading. -/
structure LimitInv (last : ℕ) (s : UdpGlobalRun ι) : Prop where
  window : WindowOk rate (cfgUdpGlobalWindowNs cfg) last s.rl
  locals : ∀ i, LocalOk (s.acc i)
  before : last < t → passedBytes t (t + (cfgUdpGlobalWindowNs cfg).toNat) s.log = 0
  bound : passedBytes t (t + (cfgUdpGlobalWindowNs cfg).toNat) s.log ≤ intervalMax ι rate
  ledger : last ≤ t + (cfgUdpGlobalWindowNs cfg).toNat → ∃ (counted : ℕ) (met : ι → ℕ),
    passedBytes t (t + (cfgUdpGlobalWindowNs cfg).toNat) s.log ≤
      counted + ∑ i, (met i * 65535 + (s.acc i).localBytes.toNat) ∧
    CountedOk rate (cfgUdpGlobalWindowNs cfg) t last s.rl counted ∧
    ∀ i, MetOk (cfgUdpGlobalWindowNs cfg) t last s.rl (s.acc i) (met i)

omit [DecidableEq ι] in
theorem ledger_le (s : UdpGlobalRun ι) (last counted : ℕ) (met : ι → ℕ)
    (hlocals : ∀ i, LocalOk (s.acc i))
    (hc : CountedOk rate (cfgUdpGlobalWindowNs cfg) t last s.rl counted)
    (hm : ∀ i, MetOk (cfgUdpGlobalWindowNs cfg) t last s.rl (s.acc i) (met i)) :
    counted + ∑ i, (met i * 65535 + (s.acc i).localBytes.toNat) ≤ intervalMax ι rate := by
  have hsum : ∑ i, (met i * 65535 + (s.acc i).localBytes.toNat) ≤ ∑ _i : ι, 3*65535 := by
    apply Finset.sum_le_sum
    intro i _
    have hmet := (hm i).1
    have hloc := (hlocals i).1
    omega
  rw [Finset.sum_const, Finset.card_univ, smul_eq_mul] at hsum
  have hcounted := hc.1
  unfold intervalMax
  omega

theorem limitInv_step (hfit : ProductsFit rate (cfgUdpGlobalWindowNs cfg)) (hrate : rate ≠ 0)
    (last : ℕ) (s : UdpGlobalRun ι) (p : UdpPacket ι) (hs : LimitInv rate cfg t last s)
    (hcfg : p.cfg = cfg) (hbytes : p.pktBytes.toNat ≤ maxPktBytes) (hnow : last ≤ p.now.toNat)
    (hne : p.now ≠ 0)
    (hdeadline : p.now.toNat + (cfgUdpGlobalWindowNs cfg).toNat < 2^64) :
    LimitInv rate cfg t p.now.toNat (s.step p) := by
  set windowNs := cfgUdpGlobalWindowNs cfg with hwindow
  have hpos : 0 < windowNs.toNat := cfgUdpGlobalWindowNs_pos cfg
  obtain ⟨v, hlog, hsame, hout⟩ := s.step_outcome p (by rw [hs.window.rate_eq]; exact hrate)
  rw [hcfg, ← hwindow] at hout
  have hwin := windowOk_outcome hs.window hnow hpos hfit (hs.locals p.cpu).1 hbytes hout
  have hlocals : ∀ i, LocalOk ((s.step p).acc i) := by
    intro i
    by_cases hi : i = p.cpu
    · rw [hi]
      exact localOk_outcome hout
    · rw [hsame i hi]
      exact hs.locals i
  by_cases hbefore : p.now.toNat < t
  · -- nothing counts yet
    have hzero : passedBytes t (t + windowNs.toNat) (s.step p).log = 0 := by
      rw [hlog, passedBytes_skip _ _ _ _ _ fun h => absurd h.2.1 (Nat.not_le.mpr hbefore)]
      exact hs.before (hnow.trans_lt hbefore)
    refine ⟨hwin, hlocals, fun _ => hzero, ?_, fun _ => ⟨0, fun _ => 0, ?_, ?_, ?_⟩⟩
    · rw [hzero]
      exact Nat.zero_le _
    · rw [hzero]
      exact Nat.zero_le _
    · exact ⟨Nat.zero_le _, fun _ => Or.inl rfl⟩
    · exact fun i => ⟨Nat.zero_le _, fun _ => ⟨nofun, nofun⟩⟩
  have hstart : t ≤ p.now.toNat := Nat.le_of_not_lt hbefore
  by_cases hafter : t + windowNs.toNat < p.now.toNat
  · -- nothing counts any more
    have hkept : passedBytes t (t + windowNs.toNat) (s.step p).log =
        passedBytes t (t + windowNs.toNat) s.log := by
      rw [hlog, passedBytes_skip _ _ _ _ _ fun h => absurd h.2.2 (Nat.not_le.mpr hafter)]
    refine ⟨hwin, hlocals, fun h => absurd h hbefore, ?_, fun h => absurd h (Nat.not_le.mpr hafter)⟩
    rw [hkept]
    exact hs.bound
  have hstop : p.now.toNat ≤ t + windowNs.toNat := Nat.le_of_not_lt hafter
  obtain ⟨counted, met, hle, hc, hm⟩ := hs.ledger (hnow.trans hstop)
  rw [← hwindow] at hle
  obtain ⟨counted', met', hcharge, hc', hm', hothers⟩ := charged_outcome hs.window hnow hne hstart
    hstop hpos hfit hdeadline (hs.locals p.cpu) hbytes hc (hm p.cpu) hout
  have hpassed : passedBytes t (t + windowNs.toNat) (s.step p).log =
      (if v = .pass then p.pktBytes.toNat else 0) + passedBytes t (t + windowNs.toNat) s.log := by
    rw [hlog]
    split
    · subst v
      exact passedBytes_pass _ _ _ _ hstart hstop
    · rw [passedBytes_skip _ _ _ _ _ fun h => absurd h.1 ‹_›, Nat.zero_add]
  have hmets : ∀ i, MetOk windowNs t p.now.toNat (s.step p).rl ((s.step p).acc i)
      (Function.update met p.cpu met' i) := by
    intro i
    by_cases hi : i = p.cpu
    · subst hi
      rw [Function.update_self]
      exact hm'
    · rw [Function.update_of_ne hi, hsame i hi]
      exact hothers _ _ (hm i)
  have hsum := sum_exchange (fun i => met i * 65535 + (s.acc i).localBytes.toNat)
    (fun i => Function.update met p.cpu met' i * 65535 + ((s.step p).acc i).localBytes.toNat) p.cpu
    (fun i hi => by rw [Function.update_of_ne hi, hsame i hi])
  rw [Function.update_self] at hsum
  have hledger : passedBytes t (t + windowNs.toNat) (s.step p).log ≤ counted' +
      ∑ i, (Function.update met p.cpu met' i * 65535 + ((s.step p).acc i).localBytes.toNat) := by
    omega
  exact ⟨hwin, hlocals, fun h => absurd h hbefore,
    hledger.trans (ledger_le rate cfg t _ _ _ _ hlocals hc' hmets),
    fun _ => ⟨counted', _, hledger, hc', hmets⟩⟩

omit [DecidableEq ι] in
theorem limitInv_start : LimitInv rate cfg t 0 (udpGlobalStart ι rate) := by
  refine ⟨⟨rfl, Nat.le_refl _, Nat.zero_le _, fun h => absurd rfl h⟩, fun _ => ⟨?_, fun h => absurd rfl h⟩,
    fun _ => rfl, Nat.zero_le _, fun _ => ⟨0, fun _ => 0, Nat.zero_le _, ?_, fun _ => ?_⟩⟩
  · exact (by decide : (0 : U64).toNat < 65536)
  · exact ⟨Nat.zero_le _, fun _ => Or.inl rfl⟩
  · exact ⟨Nat.zero_le _, fun _ => ⟨nofun, nofun⟩⟩

/-- The calls of a run: same tunables, packets of real length, and a clock that does not go
back and stays within its range (`ct_flags.h`: `ktime_get_ns` does not reach `2^63`). -/
structure UdpRunOk (packets : List (UdpPacket ι)) : Prop where
  cfg_eq : ∀ p ∈ packets, p.cfg = cfg
  bytes_le : ∀ p ∈ packets, p.pktBytes.toNat ≤ maxPktBytes
  forward : packets.Pairwise fun p q => p.now.toNat ≤ q.now.toNat
  positive : ∀ p ∈ packets, 0 < p.now.toNat
  in_range : ∀ p ∈ packets, p.now.toNat < 2^63

/-- A window for which the products fit ends in 64 bits, whenever it begins. -/
theorem deadline_fits {rate : U32} {windowNs now : U64} (hfit : ProductsFit rate windowNs)
    (hnow : now.toNat < 2^63) : now.toNat + windowNs.toNat < 2^64 := by
  have hwindow := (windowNs_lt_of_fit hfit).1
  omega

theorem limitInv_run (hfit : ProductsFit rate (cfgUdpGlobalWindowNs cfg)) (hrate : rate ≠ 0)
    (packets : List (UdpPacket ι)) (hok : UdpRunOk cfg packets) (last : ℕ) (s : UdpGlobalRun ι)
    (hs : LimitInv rate cfg t last s) (hlast : ∀ p ∈ packets, last ≤ p.now.toNat) :
    ∃ last', LimitInv rate cfg t last' (packets.foldl UdpGlobalRun.step s) := by
  induction packets generalizing last s with
  | nil => exact ⟨last, hs⟩
  | cons p packets ih =>
    have hp := List.mem_cons_self (a := p) (l := packets)
    have hne : p.now ≠ 0 := by
      intro h
      have hpos := hok.positive p hp
      rw [h] at hpos
      exact absurd hpos (Nat.lt_irrefl 0)
    have hstep := limitInv_step rate cfg t hfit hrate last s p hs (hok.cfg_eq p hp)
      (hok.bytes_le p hp) (hlast p hp) hne (deadline_fits hfit (hok.in_range p hp))
    have hforward := List.pairwise_cons.mp hok.forward
    refine ih ⟨?_, ?_, hforward.2, ?_, ?_⟩ p.now.toNat _ hstep hforward.1
    · exact fun q hq => hok.cfg_eq q (List.mem_cons_of_mem p hq)
    · exact fun q hq => hok.bytes_le q (List.mem_cons_of_mem p hq)
    · exact fun q hq => hok.positive q (List.mem_cons_of_mem p hq)
    · exact fun q hq => hok.in_range q (List.mem_cons_of_mem p hq)

/-- On any number of CPUs, the limiter passes in an interval of one window length at
most twice the limit and four batches for each CPU and two more. -/
theorem udp_global_bound (hfit : ProductsFit rate (cfgUdpGlobalWindowNs cfg)) (hrate : rate ≠ 0)
    (packets : List (UdpPacket ι)) (hok : UdpRunOk cfg packets) :
    passedBytes t (t + (cfgUdpGlobalWindowNs cfg).toNat)
        (packets.foldl UdpGlobalRun.step (udpGlobalStart ι rate)).log ≤
      2*rate.toNat + (Fintype.card ι + 2)*4*udpGlobalBatchBytes.toNat := by
  obtain ⟨last, hs⟩ := limitInv_run rate cfg t hfit hrate packets hok 0 _
    (limitInv_start rate cfg t) fun _ _ => Nat.zero_le _
  have hbatch : udpGlobalBatchBytes.toNat = 65536 := rfl
  have hflush : maxFlush = 131110 := rfl
  have hbucket : bucketMax rate ≤ rate.toNat + maxFlush := max_le (Nat.le_add_right ..)
    (Nat.le_add_left ..)
  calc passedBytes t (t + (cfgUdpGlobalWindowNs cfg).toNat)
        (packets.foldl UdpGlobalRun.step (udpGlobalStart ι rate)).log
      ≤ intervalMax ι rate := hs.bound
    _ = 2*bucketMax rate + Fintype.card ι * (3*65535) := rfl
    _ ≤ 2*rate.toNat + (Fintype.card ι + 2)*4*65536 := by omega
    _ = _ := by rw [hbatch]

end Run

/-- Two CPUs under a limit of 100000 bytes: one flush is counted, and one starts a block. -/
theorem udp_global_bound_two_cpus :
    passedBytes 1000000000 (1000000000 + (cfgUdpGlobalWindowNs none).toNat)
        (([⟨false, 1000000000, 65000, none⟩, ⟨false, 1000000000, 65000, none⟩,
          ⟨true, 1500000000, 65000, none⟩, ⟨true, 1600000000, 65000, none⟩] :
            List (UdpPacket Bool)).foldl UdpGlobalRun.step (udpGlobalStart Bool 100000)).log ≤
      2*(100000 : U32).toNat + (Fintype.card Bool + 2)*4*udpGlobalBatchBytes.toNat :=
  udp_global_bound 100000 none 1000000000 (by unfold ProductsFit; decide +kernel) (by decide) _
    ⟨by decide +kernel, by decide +kernel, by decide +kernel, by decide +kernel, by decide +kernel⟩

end AutoXdp
