import AutoXdp.GuardedRun
import AutoXdp.UdpGlobalLimit
import Mathlib.Tactic.Basic

/-! Calls of the two spin-locked limiters, in the order in which they take the lock.
Each call reads its clock before that, so its reading can be older than the reference
time that a call on another CPU stored meanwhile. -/
namespace AutoXdp
open GuardedRun

/-! The token bucket of `icmp_rate_limit`. -/

/-- The bucket, and the reading and the verdict of each call, newest first. -/
structure IcmpRun where
  tb : IcmpTokenBucket := {}
  log : List (U64 × XdpAction) := []
  deriving DecidableEq, Repr

section Icmp

variable (tokenMax nsPerToken : U64)

def icmpStep (s : IcmpRun) (now : U64) : IcmpRun :=
  let r := icmpRateLimit now tokenMax nsPerToken s.tb
  { tb := r.2, log := (now, r.1) :: s.log }

/-- The packets passed with a reading between two times. -/
def icmpPasses (t₁ t₂ : ℕ) (log : List (U64 × XdpAction)) : ℕ :=
  log.countP fun e => decide ((t₁ ≤ e.1.toNat ∧ e.1.toNat ≤ t₂) ∧ e.2 = .pass)

/-- What a call may do to the bucket. -/
structure IcmpCallSafe (s : IcmpRun) (now : U64) : Prop where
  tokens_le : (icmpStep tokenMax nsPerToken s now).tb.tokens ≤ tokenMax
  refill_forward : s.tb.lastRefillNs ≤ (icmpStep tokenMax nsPerToken s now).tb.lastRefillNs
  late_adds_none : now < s.tb.lastRefillNs →
    (icmpStep tokenMax nsPerToken s now).tb.tokens ≤ s.tb.tokens

/-- Every call of a run from the unused bucket, and every interval of clock readings. -/
structure IcmpSafe (readings : List U64) : Prop where
  calls : Guarded (icmpStep tokenMax nsPerToken) (IcmpCallSafe tokenMax nsPerToken) {} readings
  passes_le : ∀ t₁ t₂, t₁ ≤ t₂ →
    icmpPasses t₁ t₂ (readings.foldl (icmpStep tokenMax nsPerToken) {}).log ≤
      tokenMax.toNat + (t₂ - t₁) / nsPerToken.toNat + 1

/-- The reading is not older than the refill time; zero is the refill time of an unused
bucket. -/
def IcmpInOrder (s : IcmpRun) (now : U64) : Prop :=
  now ≠ 0 ∧ s.tb.lastRefillNs ≤ now

instance (s : IcmpRun) (now : U64) : Decidable (IcmpInOrder s now) :=
  inferInstanceAs (Decidable (_ ∧ _))

/-- The bucket before its token is taken: the tokens, the intervals they were added for,
and the refill time. -/
structure IcmpRefilled (now : U64) (tb : IcmpTokenBucket) (tokens added last : ℕ) : Prop where
  tokens_le : tokens ≤ tokenMax.toNat
  last_le : last ≤ now.toNat
  now_lt : now.toNat < last + nsPerToken.toNat
  added_eq : tb.lastRefillNs ≠ 0 →
    last = tb.lastRefillNs.toNat + added * nsPerToken.toNat ∧ tokens ≤ tb.tokens.toNat + added

variable {tokenMax nsPerToken}

/-- The refill of a call that is in order. -/
theorem icmpRateLimit_refilled (hns : nsPerToken ≠ 0) (now : U64) (tb : IcmpTokenBucket)
    (hnow : tb.lastRefillNs ≤ now) (htokens : tb.tokens ≤ tokenMax) :
    ∃ r : IcmpTokenBucket, ∃ added : ℕ,
      IcmpRefilled tokenMax nsPerToken now tb r.tokens.toNat added r.lastRefillNs.toNat ∧
      icmpRateLimit now tokenMax nsPerToken tb =
        if r.tokens > 0 then (.pass, { r with tokens := r.tokens - 1 }) else (.drop, r) := by
  have hpos : 0 < nsPerToken.toNat := Nat.pos_of_ne_zero fun h => hns (BitVec.eq_of_toNat_eq h)
  unfold icmpRateLimit
  by_cases hlast : tb.lastRefillNs = 0
  · -- the first call fills the bucket
    refine ⟨⟨tokenMax, now⟩, 0, ⟨Nat.le_refl _, Nat.le_refl _, Nat.lt_add_of_pos_right hpos,
      fun h => absurd hlast h⟩, ?_⟩
    simp only [hlast, ↓reduceIte]
  have hsub : (now - tb.lastRefillNs).toNat = now.toNat - tb.lastRefillNs.toNat :=
    BitVec.toNat_sub_of_le hnow
  have hnew : ((now - tb.lastRefillNs) / nsPerToken).toNat =
      (now.toNat - tb.lastRefillNs.toNat) / nsPerToken.toNat := by
    rw [BitVec.toNat_udiv, hsub]
  set newTokens := (now - tb.lastRefillNs) / nsPerToken
  have hle : tb.lastRefillNs.toNat ≤ now.toNat := hnow
  have hdiv := Nat.div_add_mod (now.toNat - tb.lastRefillNs.toNat) nsPerToken.toNat
  have hmod := Nat.mod_lt (now.toNat - tb.lastRefillNs.toNat) hpos
  rw [← hnew, Nat.mul_comm] at hdiv
  have hbound := now.isLt
  have hrefill : (tb.lastRefillNs + newTokens * nsPerToken).toNat =
      tb.lastRefillNs.toNat + newTokens.toNat * nsPerToken.toNat := by
    rw [BitVec.toNat_add, BitVec.toNat_mul]
    rw [Nat.mod_eq_of_lt (show newTokens.toNat * nsPerToken.toNat < 2^64 by omega)]
    exact Nat.mod_eq_of_lt (by omega)
  by_cases hadd : newTokens > 0
  · refine ⟨⟨if tb.tokens + newTokens > tokenMax then tokenMax else tb.tokens + newTokens,
      tb.lastRefillNs + newTokens * nsPerToken⟩, newTokens.toNat, ?_, ?_⟩
    · dsimp only
      rw [hrefill]
      refine ⟨?_, by omega, by omega, fun _ => ⟨rfl, ?_⟩⟩
      · split_ifs with hover
        · exact Nat.le_refl _
        · exact BitVec.not_lt.mp hover
      · -- the sum wraps only downwards
        have hsum : (tb.tokens + newTokens).toNat ≤ tb.tokens.toNat + newTokens.toNat := by
          rw [BitVec.toNat_add]
          exact Nat.mod_le _ _
        split_ifs with hover
        · have hlt : tokenMax.toNat < (tb.tokens + newTokens).toNat := hover
          omega
        · exact hsum
    · simp only [hlast, hadd, ↓reduceIte]
  · have hzero : newTokens.toNat = 0 := by
      have h : ¬0 < newTokens.toNat := hadd
      omega
    rw [hzero, Nat.zero_mul] at hdiv
    refine ⟨tb, 0, ⟨htokens, hle, by omega, fun _ => ⟨by rw [Nat.zero_mul, Nat.add_zero],
      Nat.le_refl _⟩⟩, ?_⟩
    simp only [hlast, hadd, ↓reduceIte]

/-- One call in order: the tokens that are left, with the one that was spent. -/
theorem icmpStep_inOrder (hns : nsPerToken ≠ 0) (s : IcmpRun) (now : U64)
    (hnow : s.tb.lastRefillNs ≤ now) (htokens : s.tb.tokens ≤ tokenMax) :
    ∃ v, ∃ tokens added : ℕ, (icmpStep tokenMax nsPerToken s now).log = (now, v) :: s.log ∧
      IcmpRefilled tokenMax nsPerToken now s.tb tokens added
        (icmpStep tokenMax nsPerToken s now).tb.lastRefillNs.toNat ∧
      (icmpStep tokenMax nsPerToken s now).tb.tokens.toNat + (if v = .pass then 1 else 0) =
        tokens := by
  obtain ⟨r, added, hr, heq⟩ := icmpRateLimit_refilled hns now s.tb hnow htokens
  unfold icmpStep
  rw [heq]
  by_cases hpos : r.tokens > 0
  · have hne : 0 < r.tokens.toNat := hpos
    rw [if_pos hpos]
    refine ⟨.pass, r.tokens.toNat, added, rfl, hr, ?_⟩
    have hdec : (r.tokens - 1).toNat = r.tokens.toNat - 1 := BitVec.toNat_sub_of_le hne
    rw [if_pos rfl]
    dsimp only
    omega
  · rw [if_neg hpos]
    exact ⟨.drop, r.tokens.toNat, added, rfl, hr, rfl⟩

/-- The tokens passed in an interval are paid from one full bucket and the whole intervals
that were added since the first call of the interval. -/
structure IcmpInv (tokenMax nsPerToken : U64) (t₁ t₂ : ℕ) (s : IcmpRun) : Prop where
  tokens_le : s.tb.tokens ≤ tokenMax
  unused : s.tb.lastRefillNs = 0 → s.log = []
  paid : icmpPasses t₁ t₂ s.log = 0 ∨ ∃ base added : ℕ, t₁ < base + nsPerToken.toNat ∧
    s.tb.lastRefillNs.toNat = base + added * nsPerToken.toNat ∧
    icmpPasses t₁ t₂ s.log + s.tb.tokens.toNat ≤ tokenMax.toNat + added
  passes_le : icmpPasses t₁ t₂ s.log ≤ tokenMax.toNat + (t₂ - t₁) / nsPerToken.toNat + 1

/-- Whole intervals between a refill time close to the start and one before the end. -/
theorem intervals_le {t₁ t₂ base added ns : ℕ} (hns : 0 < ns) (ht : t₁ ≤ t₂)
    (hbase : t₁ < base + ns) (hlast : base + added * ns ≤ t₂) :
    added ≤ (t₂ - t₁) / ns + 1 := by
  cases added with
  | zero => exact Nat.zero_le _
  | succ n =>
    refine Nat.succ_le_succ ((Nat.le_div_iff_mul_le hns).mpr ?_)
    rw [Nat.succ_mul] at hlast
    omega

/-- The passes after a call: one more if it passed in the interval. -/
theorem icmpPasses_cons (t₁ t₂ : ℕ) (now : U64) (v : XdpAction) (log : List (U64 × XdpAction)) :
    icmpPasses t₁ t₂ ((now, v) :: log) = icmpPasses t₁ t₂ log +
      if (t₁ ≤ now.toNat ∧ now.toNat ≤ t₂) ∧ v = .pass then 1 else 0 := by
  simp only [icmpPasses, List.countP_cons, decide_eq_true_eq]

theorem icmpInv_step (hns : nsPerToken ≠ 0) {t₁ t₂ : ℕ} (ht : t₁ ≤ t₂) (s : IcmpRun) (now : U64)
    (hs : IcmpInv tokenMax nsPerToken t₁ t₂ s) (hok : IcmpInOrder s now) :
    IcmpInv tokenMax nsPerToken t₁ t₂ (icmpStep tokenMax nsPerToken s now) := by
  have hpos : 0 < nsPerToken.toNat := Nat.pos_of_ne_zero fun h => hns (BitVec.eq_of_toNat_eq h)
  obtain ⟨v, tokens, added, hlog, hr, htokens⟩ := icmpStep_inOrder hns s now hok.2 hs.tokens_le
  set s' := icmpStep tokenMax nsPerToken s now
  have hleft : s'.tb.tokens.toNat ≤ tokens := by omega
  have hpasses := icmpPasses_cons t₁ t₂ now v s.log
  rw [← hlog] at hpasses
  have hspent : (if (t₁ ≤ now.toNat ∧ now.toNat ≤ t₂) ∧ v = .pass then 1 else 0) ≤
      if v = .pass then 1 else 0 := by
    split_ifs with h h'
    · exact Nat.le_refl 1
    · exact absurd h.2 h'
    · exact Nat.zero_le _
    · exact Nat.le_refl 0
  have hnow : now.toNat ≠ 0 := fun h => hok.1 (BitVec.eq_of_toNat_eq h)
  have hlast : s'.tb.lastRefillNs ≠ 0 := by
    intro h
    have hzero : s'.tb.lastRefillNs.toNat = 0 := congrArg BitVec.toNat h
    by_cases hold : s.tb.lastRefillNs = 0
    · have hfirst : s'.tb.lastRefillNs = now := by
        change (icmpRateLimit now tokenMax nsPerToken s.tb).2.lastRefillNs = now
        unfold icmpRateLimit
        simp only [hold, ↓reduceIte]
        split <;> rfl
      exact hok.1 (hfirst.symm.trans h)
    · have heq := (hr.added_eq hold).1
      exact hold (BitVec.eq_of_toNat_eq (show s.tb.lastRefillNs.toNat = 0 by omega))
  have hpaid : icmpPasses t₁ t₂ s'.log = 0 ∨ ∃ base k : ℕ, t₁ < base + nsPerToken.toNat ∧
      s'.tb.lastRefillNs.toNat = base + k * nsPerToken.toNat ∧
      icmpPasses t₁ t₂ s'.log + s'.tb.tokens.toNat ≤ tokenMax.toNat + k := by
    by_cases hzero : icmpPasses t₁ t₂ s.log = 0
    · by_cases hin : (t₁ ≤ now.toNat ∧ now.toNat ≤ t₂) ∧ v = .pass
      · -- the first pass of the interval starts from at most a full bucket
        refine Or.inr ⟨s'.tb.lastRefillNs.toNat, 0, lt_of_le_of_lt hin.1.1 hr.now_lt,
          by rw [Nat.zero_mul, Nat.add_zero], ?_⟩
        have hfull := hr.tokens_le
        omega
      · rw [if_neg hin, hzero] at hpasses
        exact Or.inl hpasses
    · have hold : s.tb.lastRefillNs ≠ 0 := fun h => hzero (by rw [hs.unused h]; rfl)
      obtain ⟨base, k, hbase, hsame, hle⟩ := hs.paid.resolve_left hzero
      obtain ⟨heq, htok⟩ := hr.added_eq hold
      refine Or.inr ⟨base, k + added, hbase, ?_, ?_⟩
      · rw [heq, hsame, Nat.add_mul, Nat.add_assoc]
      · omega
  refine ⟨hleft.trans hr.tokens_le, fun h => absurd h hlast, hpaid, ?_⟩
  by_cases hin : (t₁ ≤ now.toNat ∧ now.toNat ≤ t₂) ∧ v = .pass
  · rcases hpaid with hzero | ⟨base, k, hbase, hsame, hle⟩
    · rw [hzero]
      exact Nat.zero_le _
    · have hk := intervals_le hpos ht hbase (show base + k * nsPerToken.toNat ≤ t₂ by
        have := hr.last_le
        omega)
      omega
  · rw [if_neg hin] at hpasses
    rw [hpasses]
    exact hs.passes_le

theorem icmpInv_start (t₁ t₂ : ℕ) : IcmpInv tokenMax nsPerToken t₁ t₂ {} :=
  ⟨Nat.zero_le _, fun _ => rfl, Or.inl rfl, Nat.zero_le _⟩

theorem icmpCallSafe_of_inOrder (hns : nsPerToken ≠ 0) (s : IcmpRun) (now : U64)
    (htokens : s.tb.tokens ≤ tokenMax) (hok : IcmpInOrder s now) :
    IcmpCallSafe tokenMax nsPerToken s now := by
  obtain ⟨v, tokens, added, -, hr, hleft⟩ := icmpStep_inOrder hns s now hok.2 htokens
  have hfull := hr.tokens_le
  refine ⟨?_, ?_, fun hlate => absurd hok.2 (BitVec.not_le.mpr hlate)⟩
  · rw [BitVec.le_def]
    omega
  · rw [BitVec.le_def]
    by_cases hlast : s.tb.lastRefillNs = 0
    · rw [hlast]
      exact Nat.zero_le _
    · rw [(hr.added_eq hlast).1]
      exact Nat.le_add_right _ _

/-- A run whose calls are all in order is safe. -/
theorem icmpSafe_of_inOrder (hns : nsPerToken ≠ 0) (readings : List U64)
    (hok : Guarded (icmpStep tokenMax nsPerToken) IcmpInOrder {} readings) :
    IcmpSafe tokenMax nsPerToken readings where
  calls := guarded_of_inv _ _ (IcmpInv tokenMax nsPerToken 0 0)
    (icmpInv_step hns (Nat.le_refl 0))
    (fun s now hs => icmpCallSafe_of_inOrder hns s now hs.tokens_le) {} readings
    (icmpInv_start 0 0) hok
  passes_le t₁ t₂ ht := (invariant_run _ _ (IcmpInv tokenMax nsPerToken t₁ t₂)
    (icmpInv_step hns ht) {} readings (icmpInv_start t₁ t₂) hok).passes_le

end Icmp

/-! The shared window of `udp_global_rate_check`. -/

section Udp

variable {ι : Type} [DecidableEq ι]

/-- A call that is older than the window leaves the window as it is, or adds its flush to
what the window has counted. -/
def LateKeepsCounted (s : UdpGlobalRun ι) (p : UdpPacket ι) : Prop :=
  p.now < s.rl.windowStartNs → (s.step p).rl = s.rl ∨
    ((s.step p).rl.prevBytes = s.rl.prevBytes ∧ (s.step p).rl.currBytes.toNat =
      s.rl.currBytes.toNat + ((s.acc p.cpu).localBytes + p.pktBytes).toNat)

/-- The call gets as far as the window: its CPU's block is over, its batch is full, and
the shared block is over. -/
def ReachesWindow (s : UdpGlobalRun ι) (p : UdpPacket ι) : Prop :=
  (s.acc p.cpu).blockedUntilNs ≤ p.now ∧
    ¬(s.acc p.cpu).localBytes + p.pktBytes < udpGlobalBatchBytes ∧
    s.rl.blockedUntilNs ≤ p.now

def UdpInOrder (s : UdpGlobalRun ι) (p : UdpPacket ι) : Prop :=
  ReachesWindow s p → s.rl.windowStartNs ≤ p.now

instance (s : UdpGlobalRun ι) (p : UdpPacket ι) : Decidable (LateKeepsCounted s p) :=
  inferInstanceAs (Decidable (_ → _))

instance (s : UdpGlobalRun ι) (p : UdpPacket ι) : Decidable (ReachesWindow s p) :=
  inferInstanceAs (Decidable (_ ∧ _))

instance (s : UdpGlobalRun ι) (p : UdpPacket ι) : Decidable (UdpInOrder s p) :=
  inferInstanceAs (Decidable (_ → _))

/-- A call changes the shared window only if it reaches it. -/
theorem UdpOutcome.same_or_reaches {now bytes windowNs : U64} {g g' : UdpGlobalState}
    {loc loc' : UdpPercpuLocal} {v : XdpAction}
    (h : UdpOutcome now bytes windowNs g loc v g' loc') :
    g' = g ∨ (loc.blockedUntilNs ≤ now ∧ ¬loc.localBytes + bytes < udpGlobalBatchBytes ∧
      g.blockedUntilNs ≤ now) := by
  have hzero (hfree : g.blockedUntilNs = 0) : g.blockedUntilNs ≤ now := by
    rw [hfree]
    exact Nat.zero_le _
  cases h with
  | fastDrop => exact Or.inl rfl
  | batched => exact Or.inl rfl
  | blocked => exact Or.inl rfl
  | started hloc hbatch hfree => exact Or.inr ⟨hloc, hbatch, hfree⟩
  | counted hloc hbatch hfree => exact Or.inr ⟨hloc, hbatch, hzero hfree⟩
  | exceeded hloc hbatch hfree => exact Or.inr ⟨hloc, hbatch, hzero hfree⟩

theorem lateKeepsCounted_of_inOrder (s : UdpGlobalRun ι) (p : UdpPacket ι)
    (hok : UdpInOrder s p) : LateKeepsCounted s p := by
  intro hlate
  have hnot : ¬ReachesWindow s p := fun h => BitVec.not_le.mpr hlate (hok h)
  left
  by_cases hrate : s.rl.byteRateMax = 0
  · change (udpGlobalRateCheck p.now p.pktBytes p.cfg _).2.udpGlobalRl = _
    unfold udpGlobalRateCheck
    rw [if_pos hrate]
  · obtain ⟨v, -, -, hout⟩ := s.step_outcome p hrate
    exact (hout.same_or_reaches).resolve_right hnot

/-- Both limiters keep their promises to late lock holders in every run whose calls are
in order when they take the lock. -/
theorem late_readings_safe (tokenMax nsPerToken : U64) (hns : nsPerToken ≠ 0)
    (readings : List U64)
    (hreadings : Guarded (icmpStep tokenMax nsPerToken) IcmpInOrder {} readings)
    (s : UdpGlobalRun ι) (packets : List (UdpPacket ι))
    (hpackets : Guarded UdpGlobalRun.step UdpInOrder s packets) :
    IcmpSafe tokenMax nsPerToken readings ∧
      Guarded UdpGlobalRun.step LateKeepsCounted s packets :=
  ⟨icmpSafe_of_inOrder hns readings hreadings,
    guarded_of_inv _ _ (fun _ => True) (fun _ _ _ _ => trivial)
      (fun s p _ => lateKeepsCounted_of_inOrder s p) s packets trivial hpackets⟩

end Udp

/-- Three echo requests of which the second is late but not older than the refill time;
four packets on two CPUs, the last one older than the window but not flushed. -/
theorem late_readings_safe_mixed :
    IcmpSafe 2 1000 [5000, 6900, 6500] ∧
      Guarded UdpGlobalRun.step LateKeepsCounted (udpGlobalStart Bool 1000000)
        [⟨false, 2000000000, 65000, none⟩, ⟨false, 2000000000, 65000, none⟩,
          ⟨true, 1900000000, 65000, none⟩] :=
  late_readings_safe 2 1000 (by decide) _ (by decide +kernel) _ _ (by decide +kernel)

/-- A late echo request wraps the elapsed time: the bucket is full again and its refill
time moves back. A late flush restarts the window and loses what it had counted. -/
theorem late_readings_wrap :
    ¬IcmpSafe 100 10000000 [2000000000, 1900000000] ∧
      ¬Guarded UdpGlobalRun.step LateKeepsCounted (udpGlobalStart Bool 1000000)
        [⟨false, 2000000000, 65000, none⟩, ⟨false, 2000000000, 65000, none⟩,
          ⟨false, 2000000000, 65000, none⟩, ⟨false, 2000000000, 65000, none⟩,
          ⟨true, 1900000000, 65000, none⟩, ⟨true, 1900000000, 65000, none⟩] := by
  constructor
  · intro h
    exact absurd h.calls.2.1.refill_forward (by decide +kernel)
  · decide +kernel

end AutoXdp
