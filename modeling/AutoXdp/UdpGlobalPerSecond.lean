import AutoXdp.UdpGlobalBound
import Mathlib.Tactic.Basic

/-! The global UDP limit as bytes for each second, on one CPU. Budgets are bytes times
nanoseconds of a second, so that the limit of a time is an exact product. -/
namespace AutoXdp

def secondNs : ℕ := 1000000000

/-- In every run on one CPU, any `span` nanoseconds pass at most the limit for that time
and three windows, and twelve batches. -/
def GlobalPerSecond (rate : U32) (cfg : Option XdpRuntimeCfg) : Prop :=
  ∀ packets : List (UdpPacket Unit), UdpRunOk cfg packets → ∀ start span : ℕ,
    passedBytes start (start + span)
        (packets.foldl UdpGlobalRun.step (udpGlobalStart Unit rate)).log * secondNs ≤
      rate.toNat * (span + 3*(cfgUdpGlobalWindowNs cfg).toNat) +
        12*udpGlobalBatchBytes.toNat*secondNs

/-- What one bucket or one block cycle passes, counted or not, is within the limit of one
window length. -/
def CycleFits (rate : U32) (windowNs : U64) : Prop :=
  (bucketMax rate + 65535) * secondNs ≤ rate.toNat * windowNs.toNat

section Budget

variable (rate : U32) (windowNs : U64) (start : ℕ)

/-- The limit of the time since `start`. -/
def budgetSince (time : ℕ) : ℕ := rate.toNat * (time - start)

/-- What may be passed by a bucket that began at `time`, before its own bytes. -/
def bucketBudget (time : ℕ) : ℕ :=
  if start ≤ time then budgetSince rate start time + rate.toNat*windowNs.toNat else 0

/-- While no block is set: the passed bytes are still in the batch, or they are paid by
the time up to the bucket, one window, and the bucket. -/
def OpenPaid (g : UdpGlobalState) (loc passed : ℕ) : Prop :=
  passed ≤ loc ∨ (g.windowStartNs ≠ 0 ∧ start < g.windowStartNs.toNat + windowNs.toNat ∧
    passed*secondNs ≤ bucketBudget rate windowNs start g.windowStartNs.toNat +
      (g.currBytes.toNat + loc)*secondNs)

/-- After a block was set: they are paid by the time up to its deadline and one window. -/
def BlockPaid (g : UdpGlobalState) (loc passed : ℕ) : Prop :=
  passed*secondNs ≤ budgetSince rate start g.blockedUntilNs.toNat + rate.toNat*windowNs.toNat +
    loc*secondNs

/-- What holds after every call, `last` being the latest clock reading. -/
structure PerSecondInv (stop last : ℕ) (g : UdpGlobalState) (loc : UdpPercpuLocal)
    (passed : ℕ) : Prop where
  window : WindowOk rate windowNs last g
  batch : LocalOk loc
  deadline : loc.blockedUntilNs ≠ 0 → loc.blockedUntilNs = g.blockedUntilNs
  past : g.blockedUntilNs ≠ 0 → loc.blockedUntilNs = 0 → g.blockedUntilNs.toNat ≤ last
  before : last < start → passed = 0
  free : g.blockedUntilNs = 0 → OpenPaid rate windowNs start g loc.localBytes.toNat passed
  blocked : g.blockedUntilNs ≠ 0 → BlockPaid rate windowNs start g loc.localBytes.toNat passed
  bound : passed*secondNs ≤ budgetSince rate start stop + 2*(rate.toNat*windowNs.toNat)

variable {rate windowNs start}

theorem budgetSince_mono {time later : ℕ} (h : time ≤ later) :
    budgetSince rate start time ≤ budgetSince rate start later :=
  Nat.mul_le_mul_left _ (Nat.sub_le_sub_right h start)

/-- A window later there is the limit of a window more. -/
theorem budgetSince_window {time later : ℕ} (hstart : start ≤ time)
    (h : time + windowNs.toNat ≤ later) :
    budgetSince rate start time + rate.toNat*windowNs.toNat ≤ budgetSince rate start later := by
  rw [budgetSince, budgetSince, ← Nat.mul_add]
  exact Nat.mul_le_mul_left _ (by omega)

/-- A bucket that is over is paid by the time up to a window after its start. -/
theorem openPaid_later {g : UdpGlobalState} {loc passed later : ℕ}
    (hcycle : CycleFits rate windowNs) (hcurr : g.currBytes.toNat ≤ bucketMax rate)
    (hlater : g.windowStartNs.toNat + windowNs.toNat ≤ later)
    (h : OpenPaid rate windowNs start g loc passed) : passed ≤ loc ∨ (start < later ∧
      passed*secondNs ≤ budgetSince rate start later + rate.toNat*windowNs.toNat +
        loc*secondNs) := by
  rcases h with hle | ⟨-, hstart, hpaid⟩
  · exact Or.inl hle
  refine Or.inr ⟨hstart.trans_le hlater, ?_⟩
  have hbucket : g.currBytes.toNat*secondNs ≤ rate.toNat*windowNs.toNat :=
    (Nat.mul_le_mul_right _ (hcurr.trans (Nat.le_add_right ..))).trans hcycle
  rw [Nat.add_mul] at hpaid
  unfold bucketBudget at hpaid
  split_ifs at hpaid with hin
  · have hnext : budgetSince rate start _ + rate.toNat*windowNs.toNat ≤ budgetSince rate start _ :=
      budgetSince_window hin hlater
    omega
  · omega

/-- The roll to the next bucket keeps what is paid. -/
theorem openPaid_rolled {g : UdpGlobalState} {now : U64} {loc passed : ℕ}
    (hcycle : CycleFits rate windowNs) (hcurr : g.currBytes.toNat ≤ bucketMax rate)
    (hr : RolledOk rate windowNs now g (g.rolled now windowNs))
    (h : OpenPaid rate windowNs start g loc passed) :
    OpenPaid rate windowNs start (g.rolled now windowNs) loc passed := by
  rcases hr.same_or_next with hsame | ⟨-, hstart, hzero⟩
  · rwa [hsame]
  · rcases openPaid_later hcycle hcurr (Nat.le_refl _) h with hle | ⟨hlt, hpaid⟩
    · exact Or.inl hle
    · refine Or.inr ⟨hr.start_ne, ?_, ?_⟩
      · rw [hstart]
        omega
      · rw [hstart, hzero, bucketBudget, if_pos hlt.le, Nat.zero_add]
        exact hpaid

/-- A packet that passes adds its bytes to the interval, if its time is in it. -/
structure Passes (start stop now bytes passed passed' : ℕ) : Prop where
  le : passed' ≤ passed + bytes
  early : now < start → passed' = passed
  late : stop < now → passed' = passed

/-- More bytes in the batch pay for the packet that brought them. -/
theorem openPaid_batch {g : UdpGlobalState} {loc bytes passed passed' : ℕ}
    (hle : passed' ≤ passed + bytes) (h : OpenPaid rate windowNs start g loc passed) :
    OpenPaid rate windowNs start g (loc + bytes) passed' := by
  rcases h with hin | ⟨hne, hstart, hpaid⟩
  · exact Or.inl (hle.trans (Nat.add_le_add_right hin _))
  · refine Or.inr ⟨hne, hstart, (Nat.mul_le_mul_right _ hle).trans ?_⟩
    rw [Nat.add_mul, ← Nat.add_assoc, Nat.add_mul _ bytes]
    omega

theorem blockPaid_batch {g : UdpGlobalState} {loc bytes passed passed' : ℕ}
    (hle : passed' ≤ passed + bytes) (h : BlockPaid rate windowNs start g loc passed) :
    BlockPaid rate windowNs start g (loc + bytes) passed' := by
  unfold BlockPaid at *
  have hmul := Nat.mul_le_mul_right secondNs hle
  rw [Nat.add_mul] at hmul ⊢
  omega

/-- Before the end of the interval, what is paid is within the bound. -/
theorem bound_of_open {g : UdpGlobalState} {loc passed last stop : ℕ}
    (hcycle : CycleFits rate windowNs) (hok : WindowOk rate windowNs last g) (hloc : loc < 65536)
    (hstop : last ≤ stop) (h : OpenPaid rate windowNs start g loc passed) :
    passed*secondNs ≤ budgetSince rate start stop + 2*(rate.toNat*windowNs.toNat) := by
  have hall : (g.currBytes.toNat + loc)*secondNs ≤ rate.toNat*windowNs.toNat :=
    (Nat.mul_le_mul_right _ (Nat.add_le_add hok.curr_le (Nat.le_of_lt_succ hloc))).trans hcycle
  rcases h with hle | ⟨-, -, hpaid⟩
  · have hbatch := Nat.mul_le_mul_right secondNs (hle.trans (Nat.le_add_left _ g.currBytes.toNat))
    omega
  · have hbucket : bucketBudget rate windowNs start g.windowStartNs.toNat ≤
        budgetSince rate start stop + rate.toNat*windowNs.toNat := by
      unfold bucketBudget
      split_ifs
      · exact Nat.add_le_add_right (budgetSince_mono (hok.start_le.trans hstop)) _
      · exact Nat.zero_le _
    omega

theorem bound_of_block {g : UdpGlobalState} {loc passed stop : ℕ}
    (hcycle : CycleFits rate windowNs) (hloc : loc < 65536) (hstop : g.blockedUntilNs.toNat ≤ stop)
    (h : BlockPaid rate windowNs start g loc passed) :
    passed*secondNs ≤ budgetSince rate start stop + 2*(rate.toNat*windowNs.toNat) := by
  have hbatch : loc*secondNs ≤ rate.toNat*windowNs.toNat :=
    (Nat.mul_le_mul_right _ ((Nat.le_of_lt_succ hloc).trans (Nat.le_add_left ..))).trans hcycle
  have hbudget : budgetSince rate start _ ≤ budgetSince rate start _ := budgetSince_mono hstop
  unfold BlockPaid at h
  omega

section Step

variable {last stop passed passed' : ℕ} {g : UdpGlobalState} {loc : UdpPercpuLocal}
  {now bytes : U64}

/-- The deadline of a block that the CPU may send after is over. -/
theorem PerSecondInv.deadline_over (h : PerSecondInv rate windowNs start stop last g loc passed)
    (hnow : last ≤ now.toNat) (hloc : loc.blockedUntilNs ≤ now) (hne : g.blockedUntilNs ≠ 0) :
    g.blockedUntilNs.toNat ≤ now.toNat := by
  by_cases hz : loc.blockedUntilNs = 0
  · exact (h.past hne hz).trans hnow
  · rw [← h.deadline hz]
    exact hloc

theorem perSecondInv_batched (hcycle : CycleFits rate windowNs)
    (h : PerSecondInv rate windowNs start stop last g loc passed) (hnow : last ≤ now.toNat)
    (hloc : loc.blockedUntilNs ≤ now) (hwindow : WindowOk rate windowNs now.toNat g)
    (hbatch : LocalOk ⟨loc.localBytes + bytes, 0⟩)
    (hsum : (loc.localBytes + bytes).toNat = loc.localBytes.toNat + bytes.toNat)
    (hp : Passes start stop now.toNat bytes.toNat passed passed') :
    PerSecondInv rate windowNs start stop now.toNat g ⟨loc.localBytes + bytes, 0⟩ passed' := by
  have hfree (hz : g.blockedUntilNs = 0) :
      OpenPaid rate windowNs start g (loc.localBytes + bytes).toNat passed' := by
    rw [hsum]
    exact openPaid_batch hp.le (h.free hz)
  have hblock (hne : g.blockedUntilNs ≠ 0) :
      BlockPaid rate windowNs start g (loc.localBytes + bytes).toNat passed' := by
    rw [hsum]
    exact blockPaid_batch hp.le (h.blocked hne)
  refine ⟨hwindow, hbatch, fun hne => absurd rfl hne, fun hne _ => h.deadline_over hnow hloc hne,
    fun hlt => (hp.early hlt).trans (h.before (hnow.trans_lt hlt)), hfree, hblock, ?_⟩
  by_cases hstop : now.toNat ≤ stop
  · by_cases hz : g.blockedUntilNs = 0
    · exact bound_of_open hcycle hwindow hbatch.1 hstop (hfree hz)
    · exact bound_of_block hcycle hbatch.1 ((h.deadline_over hnow hloc hz).trans hstop) (hblock hz)
  · rw [hp.late (Nat.lt_of_not_le hstop)]
    exact h.bound

/-- A flush that the window took, whatever its bucket. -/
theorem perSecondInv_flushed {g' : UdpGlobalState} (hcycle : CycleFits rate windowNs)
    (h : PerSecondInv rate windowNs start stop last g loc passed) (hnow : last ≤ now.toNat)
    (hwindow : WindowOk rate windowNs now.toNat g') (hz : g'.blockedUntilNs = 0)
    (hpaid : OpenPaid rate windowNs start g' 0 passed')
    (hp : Passes start stop now.toNat bytes.toNat passed passed') :
    PerSecondInv rate windowNs start stop now.toNat g' ⟨0, 0⟩ passed' := by
  refine ⟨hwindow, ⟨(by decide : (0 : U64).toNat < 65536), fun _ => rfl⟩, fun hne => absurd rfl hne,
    fun hne => absurd hz hne, fun hlt => (hp.early hlt).trans (h.before (hnow.trans_lt hlt)),
    fun _ => hpaid, fun hne => absurd hz hne, ?_⟩
  by_cases hstop : now.toNat ≤ stop
  · exact bound_of_open hcycle hwindow (by decide) hstop hpaid
  · rw [hp.late (Nat.lt_of_not_le hstop)]
    exact h.bound

/-- The passed bytes once a new bucket may begin. -/
theorem PerSecondInv.paid_at (hcycle : CycleFits rate windowNs)
    (hfit : ProductsFit rate windowNs)
    (h : PerSecondInv rate windowNs start stop last g loc passed) (hnow : last ≤ now.toNat)
    (hfree : g.blockedUntilNs ≤ now)
    (hstart : g.unblocked.windowStartNs = 0 ∨ now - g.unblocked.windowStartNs ≥ 2 * windowNs) :
    passed ≤ loc.localBytes.toNat ∨ passed*secondNs ≤ budgetSince rate start now.toNat +
      rate.toNat*windowNs.toNat + loc.localBytes.toNat*secondNs := by
  by_cases hz : g.blockedUntilNs = 0
  · have hsame : g.unblocked = g := by rw [UdpGlobalState.unblocked, if_neg (not_not.mpr hz)]
    rw [hsame] at hstart
    rcases hstart with hzero | hold
    · exact Or.inl ((h.free hz).resolve_right fun hr => hr.1 hzero)
    · have hle : g.windowStartNs.toNat ≤ now.toNat := h.window.start_le.trans hnow
      have hlater : g.windowStartNs.toNat + windowNs.toNat ≤ now.toNat := by
        have htwo := (windowNs_lt_of_fit hfit).1
        have hge := BitVec.le_def.mp hold
        have htwo' : BitVec.toNat (2 : U64) = 2 := rfl
        rw [BitVec.toNat_sub_of_le hle, BitVec.toNat_mul, htwo', Nat.mod_eq_of_lt htwo] at hge
        omega
      exact (openPaid_later hcycle h.window.curr_le hlater (h.free hz)).imp_right And.right
  · refine Or.inr ((h.blocked hz).trans ?_)
    have hbudget : budgetSince rate start _ ≤ budgetSince rate start _ := budgetSince_mono hfree
    omega

/-- A flush that begins a bucket. -/
theorem openPaid_started {g' : UdpGlobalState} (hpos : 0 < windowNs.toNat)
    (hne : g'.windowStartNs ≠ 0) (hbefore : g'.windowStartNs.toNat < start → passed' = 0)
    (hle : passed' ≤ passed + bytes.toNat)
    (hcurr : g'.currBytes.toNat = loc.localBytes.toNat + bytes.toNat)
    (hpaid : passed ≤ loc.localBytes.toNat ∨ passed*secondNs ≤
      budgetSince rate start g'.windowStartNs.toNat + rate.toNat*windowNs.toNat +
        loc.localBytes.toNat*secondNs) : OpenPaid rate windowNs start g' 0 passed' := by
  by_cases hlt : g'.windowStartNs.toNat < start
  · exact Or.inl (hbefore hlt).le
  have hmul := Nat.mul_le_mul_right secondNs hle
  refine Or.inr ⟨hne, by omega, ?_⟩
  rw [bucketBudget, if_pos (Nat.le_of_not_lt hlt), hcurr, Nat.add_zero, Nat.add_mul]
  rw [Nat.add_mul] at hmul
  rcases hpaid with hin | hpaid
  · have hbatch := Nat.mul_le_mul_right secondNs hin
    omega
  · omega

/-- A flush that is counted in the present bucket. -/
theorem openPaid_counted {g' : UdpGlobalState} {flush : U64}
    (hr : RolledOk rate windowNs now g g')
    (hbefore : now.toNat < start → passed' = 0) (hle : passed' ≤ passed + bytes.toNat)
    (hcurr : (g'.currBytes + flush).toNat =
      g'.currBytes.toNat + (loc.localBytes.toNat + bytes.toNat))
    (hpaid : OpenPaid rate windowNs start g' loc.localBytes.toNat passed) :
    OpenPaid rate windowNs start { g' with currBytes := g'.currBytes + flush } 0 passed' := by
  by_cases hlt : now.toNat < start
  · exact Or.inl (hbefore hlt).le
  have hmul := Nat.mul_le_mul_right secondNs hle
  have hend := hr.now_lt
  rw [Nat.add_mul] at hmul
  rcases hpaid with hin | ⟨-, hstart, hpaid⟩
  · have hbatch := Nat.mul_le_mul_right secondNs hin
    refine Or.inr ⟨hr.start_ne, by change start < g'.windowStartNs.toNat + _; omega, ?_⟩
    rw [hcurr, Nat.add_zero, Nat.add_mul, Nat.add_mul _ bytes.toNat]
    omega
  · refine Or.inr ⟨hr.start_ne, hstart, ?_⟩
    rw [hcurr, Nat.add_zero, Nat.add_mul, Nat.add_mul _ bytes.toNat]
    rw [Nat.add_mul] at hpaid
    change _ ≤ bucketBudget rate windowNs start g'.windowStartNs.toNat + _
    omega

/-- A flush that begins a block: the batch it drops was passed and is not counted. -/
theorem blockPaid_exceeded {g' : UdpGlobalState} (hcycle : CycleFits rate windowNs)
    (hr : RolledOk rate windowNs now g g') (hcurr : g'.currBytes.toNat ≤ bucketMax rate)
    (hloc : loc.localBytes.toNat < 65536)
    (hdeadline : (now + windowNs).toNat = now.toNat + windowNs.toNat)
    (hpaid : OpenPaid rate windowNs start g' loc.localBytes.toNat passed) :
    BlockPaid rate windowNs start { g' with blockedUntilNs := now + windowNs } 0 passed := by
  have hall : (g'.currBytes.toNat + loc.localBytes.toNat)*secondNs ≤ rate.toNat*windowNs.toNat :=
    (Nat.mul_le_mul_right _ (Nat.add_le_add hcurr (Nat.le_of_lt_succ hloc))).trans hcycle
  unfold BlockPaid
  rw [Nat.zero_mul, Nat.add_zero, hdeadline]
  rcases hpaid with hin | ⟨-, -, hpaid⟩
  · have hbatch := Nat.mul_le_mul_right secondNs (hin.trans (Nat.le_add_left _ g'.currBytes.toNat))
    omega
  · unfold bucketBudget at hpaid
    split_ifs at hpaid with hstart
    · have hnext : budgetSince rate start _ + rate.toNat*windowNs.toNat ≤
          budgetSince rate start _ := budgetSince_window hstart
        (Nat.add_le_add_right hr.start_le windowNs.toNat)
      omega
    · omega

/-- One call. -/
theorem perSecondInv_outcome {g' : UdpGlobalState} {loc' : UdpPercpuLocal} {v : XdpAction}
    (hcycle : CycleFits rate windowNs) (hfit : ProductsFit rate windowNs)
    (hwindow : 0 < windowNs.toNat)
    (h : PerSecondInv rate windowNs start stop last g loc passed) (hnow : last ≤ now.toNat)
    (hpos : now ≠ 0) (hdeadline : now.toNat + windowNs.toNat < 2^64)
    (hbytes : bytes.toNat ≤ maxPktBytes)
    (hp : Passes start stop now.toNat (if v = .pass then bytes.toNat else 0) passed passed')
    (hout : UdpOutcome now bytes windowNs g loc v g' loc') :
    PerSecondInv rate windowNs start stop now.toNat g' loc' passed' := by
  have hok := windowOk_outcome h.window hnow hwindow hfit h.batch.1 hbytes hout
  have hlocal := localOk_outcome hout
  obtain ⟨hsum, hflush⟩ := flush_toNat loc bytes h.batch.1 hbytes
  have hbefore (hlt : now.toNat < start) : passed' = 0 :=
    (hp.early hlt).trans (h.before (hnow.trans_lt hlt))
  cases hout with
  | fastDrop hne hlt =>
    rw [if_neg (by exact nofun)] at hp
    have hsame : passed' ≤ passed := hp.le
    have hzero : loc.localBytes = 0 := h.batch.2 hne
    have hg : g.blockedUntilNs ≠ 0 := by
      rw [← h.deadline hne]
      exact hne
    refine ⟨hok, hlocal, h.deadline, fun _ hz => absurd hz hne, hbefore, fun hz => absurd hz hg,
      fun _ => ?_, (Nat.mul_le_mul_right _ hsame).trans h.bound⟩
    have hpaid := h.blocked hg
    rw [hzero] at hpaid
    exact (Nat.mul_le_mul_right _ hsame).trans hpaid
  | batched hloc hbatch =>
    rw [if_pos rfl] at hp
    exact perSecondInv_batched hcycle h hnow hloc hok hlocal hsum hp
  | blocked hloc hbatch hne hlt =>
    exact absurd (h.deadline_over hnow hloc hne) (Nat.not_le.mpr hlt)
  | started hloc hbatch hfree hstart =>
    rw [if_pos rfl] at hp
    have hpaid := h.paid_at hcycle hfit hnow hfree hstart
    refine perSecondInv_flushed hcycle h hnow hok (unblocked_blocked g) ?_ hp
    exact openPaid_started hwindow hpos hbefore hp.le hsum hpaid
  | counted hloc hbatch hfree hstart hold hfits =>
    rw [if_pos rfl] at hp
    have hr := rolled_ok h.window hfit now hnow hstart hold
    have hsum' := (counted_ok hr hwindow hfit _ hflush hfits).1
    rw [hsum] at hsum'
    have hrolled := openPaid_rolled hcycle h.window.curr_le hr (h.free hfree)
    exact perSecondInv_flushed hcycle h hnow hok (hr.blocked_eq.trans hfree)
      (openPaid_counted hr hbefore hp.le hsum' hrolled) hp
  | exceeded hloc hbatch hfree hstart hold hover =>
    rw [if_neg (by exact nofun)] at hp
    have hsame : passed' ≤ passed := hp.le
    have hr := rolled_ok h.window hfit now hnow hstart hold
    have hadd : (now + windowNs).toNat = now.toNat + windowNs.toNat := by
      rw [BitVec.toNat_add]
      exact Nat.mod_eq_of_lt hdeadline
    have hne : now + windowNs ≠ 0 := by
      intro hz
      rw [hz] at hadd
      change 0 = _ at hadd
      omega
    have hrolled := openPaid_rolled hcycle h.window.curr_le hr (h.free hfree)
    have hpaid := blockPaid_exceeded hcycle hr (exceeded_ok hr hwindow 0).curr_le h.batch.1 hadd
      hrolled
    exact ⟨hok, hlocal, fun _ => rfl, fun _ hz => absurd hz hne, hbefore,
      fun hz => absurd hz hne, fun _ => (Nat.mul_le_mul_right _ hsame).trans hpaid,
      (Nat.mul_le_mul_right _ hsame).trans h.bound⟩

end Step

end Budget

/-! Runs. -/

/-- The passed bytes after one more call. -/
theorem passedBytes_passes {ι : Type} (start stop : ℕ) (p : UdpPacket ι) (v : XdpAction)
    (log : List (UdpPacket ι × XdpAction)) :
    Passes start stop p.now.toNat (if v = .pass then p.pktBytes.toNat else 0)
      (passedBytes start stop log) (passedBytes start stop ((p, v) :: log)) := by
  by_cases hin : v = .pass ∧ start ≤ p.now.toNat ∧ p.now.toNat ≤ stop
  · obtain ⟨rfl, hstart, hstop⟩ := hin
    have hpass := passedBytes_pass start stop p log hstart hstop
    refine ⟨?_, fun hlt => ?_, fun hlt => ?_⟩
    · rw [hpass, if_pos rfl, Nat.add_comm]
    · exact absurd hstart (Nat.not_le.mpr hlt)
    · exact absurd hstop (Nat.not_le.mpr hlt)
  · have hskip := passedBytes_skip start stop p log v hin
    refine ⟨?_, fun _ => hskip, fun _ => hskip⟩
    rw [hskip]
    exact Nat.le_add_right _ _

section Run

variable {rate : U32} {cfg : Option XdpRuntimeCfg} {start stop : ℕ}

theorem perSecondInv_run (hrate : rate ≠ 0) (hwindow : 0 < (cfgUdpGlobalWindowNs cfg).toNat)
    (hcycle : CycleFits rate (cfgUdpGlobalWindowNs cfg))
    (hfit : ProductsFit rate (cfgUdpGlobalWindowNs cfg)) (packets : List (UdpPacket Unit))
    (hok : UdpRunOk cfg packets) (last : ℕ) (s : UdpGlobalRun Unit)
    (h : PerSecondInv rate (cfgUdpGlobalWindowNs cfg) start stop last s.rl (s.acc ())
      (passedBytes start stop s.log)) (hlast : ∀ p ∈ packets, last ≤ p.now.toNat) :
    ∃ last', PerSecondInv rate (cfgUdpGlobalWindowNs cfg) start stop last'
      (packets.foldl UdpGlobalRun.step s).rl ((packets.foldl UdpGlobalRun.step s).acc ())
      (passedBytes start stop (packets.foldl UdpGlobalRun.step s).log) := by
  induction packets generalizing last s with
  | nil => exact ⟨last, h⟩
  | cons p packets ih =>
    have hp := List.mem_cons_self (a := p) (l := packets)
    have hne : p.now ≠ 0 := by
      intro hz
      have := hok.positive p hp
      rw [hz] at this
      exact absurd this (Nat.lt_irrefl 0)
    have hrate' : s.rl.byteRateMax ≠ 0 := by rwa [h.window.rate_eq]
    obtain ⟨v, hlog, -, hout⟩ := s.step_outcome p hrate'
    rw [hok.cfg_eq p hp] at hout
    have hpasses := passedBytes_passes start stop p v s.log
    rw [← hlog] at hpasses
    have hdeadline := deadline_fits hfit (hok.in_range p hp)
    have hstep := perSecondInv_outcome hcycle hfit hwindow h (hlast p hp) hne hdeadline
      (hok.bytes_le p hp) hpasses hout
    obtain ⟨hfirst, hforward⟩ := List.pairwise_cons.mp hok.forward
    have hrest : UdpRunOk cfg packets :=
      ⟨fun q hq => hok.cfg_eq q (List.mem_cons_of_mem _ hq),
        fun q hq => hok.bytes_le q (List.mem_cons_of_mem _ hq), hforward,
        fun q hq => hok.positive q (List.mem_cons_of_mem _ hq),
        fun q hq => hok.in_range q (List.mem_cons_of_mem _ hq)⟩
    exact ih hrest p.now.toNat (s.step p) hstep hfirst

theorem globalPerSecond (hrate : rate ≠ 0) (hwindow : 0 < (cfgUdpGlobalWindowNs cfg).toNat)
    (hcycle : CycleFits rate (cfgUdpGlobalWindowNs cfg))
    (hfit : ProductsFit rate (cfgUdpGlobalWindowNs cfg)) : GlobalPerSecond rate cfg := by
  intro packets hok start span
  have hstart : PerSecondInv rate (cfgUdpGlobalWindowNs cfg) start (start + span) 0
      (udpGlobalStart Unit rate).rl ((udpGlobalStart Unit rate).acc ())
      (passedBytes start (start + span) (udpGlobalStart Unit rate).log) :=
    ⟨⟨rfl, Nat.le_refl _, Nat.zero_le _, fun hne => absurd rfl hne⟩,
      ⟨(by decide : (0 : U64).toNat < 65536), fun _ => rfl⟩, fun hne => absurd rfl hne,
      fun hne => absurd rfl hne, fun _ => rfl, fun _ => Or.inl (Nat.le_refl 0),
      fun hne => absurd rfl hne, (Nat.zero_mul secondNs).le.trans (Nat.zero_le _)⟩
  obtain ⟨last, h⟩ := perSecondInv_run hrate hwindow hcycle hfit packets hok 0 _ hstart
    fun _ _ => Nat.zero_le _
  have hbound := h.bound
  rw [budgetSince, Nat.add_sub_cancel_left] at hbound
  rw [Nat.mul_add]
  have hthree : rate.toNat*(3*(cfgUdpGlobalWindowNs cfg).toNat) =
      3*(rate.toNat*(cfgUdpGlobalWindowNs cfg).toNat) := Nat.mul_left_comm ..
  omega

end Run

end AutoXdp
