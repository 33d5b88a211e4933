import AutoXdp.RateBuckets
import Mathlib.Tactic.Basic

/-! When the packets of one source can change the verdicts of the per-source check on
those of another: two runs, with and without the packets of the first source. -/
namespace AutoXdp
open AtomicProg AtomicWord

/-- The per-source limiter of a protocol: `syn_rate_check` and `udp_rate_check`. -/
def perSourceLimiter : Proto → RateLimiter
  | .tcp => .syn
  | .udp => .udp

def RatePacket.IsFrom (p : RatePacket) (source : Addr) (port : U32) : Prop :=
  p.key.saddr = source ∧ p.destPort = port

instance (p : RatePacket) (source : Addr) (port : U32) : Decidable (p.IsFrom source port) :=
  inferInstanceAs (Decidable (_ ∧ _))

/-- The verdicts on the packets of one source to a port, newest first. -/
def sourceVerdicts (source : Addr) (port : U32) (log : List (RatePacket × XdpAction)) :
    List XdpAction :=
  (log.filter fun e => decide (e.1.IsFrom source port)).map Prod.snd

/-- In every run from every state of the maps, what `s₁` sends to the port does not change
a verdict on what `s₂` sends to it. -/
def SourceIsolated (limiter : RateLimiter) (cfg : Option XdpRuntimeCfg) (rules : U32 → RateRule)
    (s₁ s₂ : Addr) (port : U32) : Prop :=
  ∀ (l : Limits) (packets : List RatePacket),
    sourceVerdicts s₂ port (packets.foldl (limiter.step cfg rules) { l := l }).log =
      sourceVerdicts s₂ port ((packets.filter fun p => ¬p.IsFrom s₁ port).foldl
        (limiter.step cfg rules) { l := l }).log

/-- The two sources are charged to one state word. -/
def RateRule.SharesBucket (r : RateRule) (s₁ s₂ : Addr) : Prop :=
  fillMaskedSource s₁ r.prefixV4 r.prefixV6 = fillMaskedSource s₂ r.prefixV4 r.prefixV6

instance (r : RateRule) (s₁ s₂ : Addr) : Decidable (r.SharesBucket s₁ s₂) :=
  inferInstanceAs (Decidable (_ = _))

section Agree

variable (limiter : RateLimiter) (cfg : Option XdpRuntimeCfg) (rules : U32 → RateRule)
  (b : Bucket)

/-- Two states that a bucket cannot tell apart. -/
structure Agree (l l' : Limits) : Prop where
  word : limiter.word l b = limiter.word l' b
  slotted : limiter.Slotted l b ↔ limiter.Slotted l' b

variable {limiter b}

/-- A check on another bucket, or without a limit, leaves the bucket as it is. -/
theorem RateLimiter.check_other (r : RateRule) (p : RatePacket) (l : Limits)
    (h : r.rateMax = 0 ∨ r.bucket p ≠ b) : Agree limiter b (limiter.check cfg r p l).2 l := by
  have hspec := check_spec cfg r p l limiter
  refine ⟨?_, hspec.slotted b⟩
  by_cases hopen : r.rateMax = 0 ∨ ¬limiter.Slotted l (r.bucket p)
  · exact hspec.open_word hopen b
  · rw [not_or, not_not] at hopen
    have hne : b ≠ r.bucket p := fun heq => h.elim hopen.1 fun hb => hb heq.symm
    exact (hspec.word hopen.1 hopen.2 b).trans (if_neg hne)

/-- A check on the bucket does the same in both states. -/
theorem Agree.check {l l' : Limits} (h : Agree limiter b l l') (r : RateRule) (p : RatePacket) :
    Agree limiter b (limiter.check cfg r p l).2 (limiter.check cfg r p l').2 ∧
      (r.bucket p = b → (limiter.check cfg r p l).1 = (limiter.check cfg r p l').1) := by
  have hspec := RateLimiter.check_spec cfg r p l limiter
  have hspec' := RateLimiter.check_spec cfg r p l' limiter
  have hslotted : limiter.Slotted (limiter.check cfg r p l).2 b ↔
      limiter.Slotted (limiter.check cfg r p l').2 b :=
    (hspec.slotted b).trans (h.slotted.trans (hspec'.slotted b).symm)
  by_cases hb : r.bucket p = b
  · subst hb
    by_cases hopen : r.rateMax = 0 ∨ ¬limiter.Slotted l (r.bucket p)
    · have hopen' : r.rateMax = 0 ∨ ¬limiter.Slotted l' (r.bucket p) :=
        hopen.imp_right fun hs hs' => hs (h.slotted.mpr hs')
      refine ⟨⟨?_, hslotted⟩, fun _ => ?_⟩
      · rw [hspec.open_word hopen, hspec'.open_word hopen', h.word]
      · rw [hspec.open_verdict hopen, hspec'.open_verdict hopen']
    · rw [not_or, not_not] at hopen
      have hslot' := h.slotted.mp hopen.2
      refine ⟨⟨?_, hslotted⟩, fun _ => ?_⟩
      · rw [hspec.word hopen.1 hopen.2, hspec'.word hopen.1 hslot', h.word]
      · rw [hspec.verdict hopen.1 hopen.2, hspec'.verdict hopen.1 hslot', h.word]
  · have hsame := limiter.check_other cfg r p l (Or.inr hb)
    have hsame' := limiter.check_other cfg r p l' (Or.inr hb)
    exact ⟨⟨hsame.word.trans (h.word.trans hsame'.word.symm), hslotted⟩, fun heq => absurd heq hb⟩

end Agree

section Runs

variable (limiter : RateLimiter) (cfg : Option XdpRuntimeCfg) (rules : U32 → RateRule)
  (s₁ s₂ : Addr) (port : U32)

theorem sourceVerdicts_other (p : RatePacket) (v : XdpAction)
    (log : List (RatePacket × XdpAction)) (h : ¬p.IsFrom s₂ port) :
    sourceVerdicts s₂ port ((p, v) :: log) = sourceVerdicts s₂ port log := by
  rw [sourceVerdicts, List.filter_cons_of_neg (by rwa [decide_eq_true_eq])]
  rfl

theorem sourceVerdicts_from (p : RatePacket) (v : XdpAction)
    (log : List (RatePacket × XdpAction)) (h : p.IsFrom s₂ port) :
    sourceVerdicts s₂ port ((p, v) :: log) = v :: sourceVerdicts s₂ port log := by
  rw [sourceVerdicts, List.filter_cons_of_pos (by rwa [decide_eq_true_eq])]
  rfl

/-- The bucket of a source at the port. -/
def sourceBucket : Bucket :=
  (fillMaskedSource s₂ (rules port).prefixV4 (rules port).prefixV6, port)

theorem bucket_of_isFrom (p : RatePacket) (h : p.IsFrom s₂ port) :
    (rules p.destPort).bucket p = sourceBucket rules s₂ port := by
  obtain ⟨hsource, hport⟩ := h
  rw [RateRule.bucket, sourceBucket, hsource, hport]

variable {s₁ s₂ port}

theorem isolated_run (hne : s₁ ≠ s₂)
    (h : (rules port).rateMax = 0 ∨ ¬(rules port).SharesBucket s₁ s₂) (packets : List RatePacket)
    (s s' : RateRun) (hagree : Agree limiter (sourceBucket rules s₂ port) s.l s'.l)
    (hlog : sourceVerdicts s₂ port s.log = sourceVerdicts s₂ port s'.log) :
    sourceVerdicts s₂ port (packets.foldl (limiter.step cfg rules) s).log =
      sourceVerdicts s₂ port ((packets.filter fun p => ¬p.IsFrom s₁ port).foldl
        (limiter.step cfg rules) s').log := by
  induction packets generalizing s s' with
  | nil => exact hlog
  | cons p packets ih =>
    by_cases hp : p.IsFrom s₁ port
    · -- only the first run has this packet, and the bucket does not see it
      rw [List.filter_cons_of_neg (by rwa [decide_eq_true_eq, not_not])]
      have hnot : ¬p.IsFrom s₂ port := fun h₂ => hne (hp.1.symm.trans h₂.1)
      have hbucket : (rules p.destPort).rateMax = 0 ∨
          (rules p.destPort).bucket p ≠ sourceBucket rules s₂ port := by
        rw [hp.2]
        refine h.imp_right fun hshare heq => hshare ?_
        have haddr := congrArg Prod.fst heq
        rwa [RateRule.bucket, hp.1] at haddr
      have hother := limiter.check_other cfg (rules p.destPort) p s.l hbucket
      refine ih (limiter.step cfg rules s p) s'
        ⟨hother.word.trans hagree.word, hother.slotted.trans hagree.slotted⟩ ?_
      exact (sourceVerdicts_other s₂ port p _ s.log hnot).trans hlog
    · rw [List.filter_cons_of_pos (by rwa [decide_eq_true_eq])]
      obtain ⟨hnext, hverdict⟩ := hagree.check cfg (rules p.destPort) p
      refine ih (limiter.step cfg rules s p) (limiter.step cfg rules s' p) hnext ?_
      by_cases h₂ : p.IsFrom s₂ port
      · have hsame := hverdict (bucket_of_isFrom rules s₂ port p h₂)
        exact (sourceVerdicts_from s₂ port p _ s.log h₂).trans
          ((congrArg₂ List.cons hsame hlog).trans
            (sourceVerdicts_from s₂ port p _ s'.log h₂).symm)
      · exact (sourceVerdicts_other s₂ port p _ s.log h₂).trans
          (hlog.trans (sourceVerdicts_other s₂ port p _ s'.log h₂).symm)

end Runs

/-! Two sources with one word. -/

section Shared

/-- Every slot is filled and holds one word. -/
def oneWord (a : Addr) (w : U64) : Limits :=
  let inner := fun _ : U32 => some ((∅ : BpfMap Addr U64).insert a w)
  { syn4 := inner, syn6 := inner, udprt4 := inner, udprt6 := inner }

/-- A packet of a source to a port, at the start of the clock. -/
def packetFrom (source : Addr) (port : U32) : RatePacket where
  key := match source with
    | .v4 a => .v4 0 0 a 0
    | .v6 a => .v6 0 0 a 0
  now := 0
  destPort := port

theorem packetFrom_isFrom (source : Addr) (port : U32) :
    (packetFrom source port).IsFrom source port := by
  cases source <;> exact ⟨rfl, rfl⟩

theorem oneWord_slotted (proto : Proto) (a : Addr) (w : U64) (b : Bucket) :
    (perSourceLimiter proto).Slotted (oneWord a w) b := by
  obtain ⟨a', port⟩ := b
  cases proto <;> cases a' <;> rfl

theorem oneWord_word (proto : Proto) (a : Addr) (w : U64) (port : U32) :
    (perSourceLimiter proto).word (oneWord a w) (a, port) = some w := by
  cases proto <;> cases a <;> exact AList.lookup_insert _

/-- The program of a check on a word of the present window. -/
theorem windowRateCheck_count (windowNs : U64) (limit count : U32) (hlimit : limit ≠ 0)
    (hcount : count ≤ limit) :
    (windowRateCheck 0 windowNs 1 (limit.setWidth 64)).exec wordHandler (some (statePack 0 count)) =
      if count = limit then (.drop, some (statePack 0 count))
      else (.pass, some (statePack 0 (count + 1))) := by
  have hwide : (limit.setWidth 64 : U64).toNat = limit.toNat :=
    BitVec.toNat_setWidth_of_le (by decide)
  have hpos : 1 ≤ limit.toNat := Nat.pos_of_ne_zero fun h => hlimit (BitVec.eq_of_toNat_eq h)
  have hle : count.toNat ≤ limit.toNat := hcount
  have hopen : ¬((1 : U64) > limit.setWidth 64 ∨ (1 : U64) > 0xFFFFFFFF) := by
    rw [not_or, gt_iff_lt, gt_iff_lt, BitVec.not_lt, BitVec.not_lt, BitVec.le_def, hwide]
    exact ⟨hpos, by decide⟩
  have hticks : ¬rateStateTick 0 - stateTick (statePack 0 count) ≥ rateStateWindowTicks windowNs := by
    rw [stateTick_pack, ge_iff_le, BitVec.not_le]
    exact clampTicks_pos rateStateTickNs windowNs (by decide)
  have hback : (limit.setWidth 64 : U64).setWidth 32 = limit := by
    rw [BitVec.setWidth_setWidth_of_le _ (by decide), BitVec.setWidth_eq]
  have hone : ((1 : U64).setWidth 32 : U32) = 1 := by decide
  unfold windowRateCheck
  rw [if_neg hopen, rateStateRetries, windowRateLoop_exec, if_neg hticks, stateCount_pack,
    stateTick_pack, hback, hone]
  by_cases heq : count = limit
  · subst heq
    rw [if_pos rfl, if_pos]
    right
    rw [BitVec.sub_self]
    decide
  · have hlt : count.toNat < limit.toNat :=
      lt_of_le_of_ne hle fun h => heq (BitVec.eq_of_toNat_eq h)
    rw [if_neg heq, if_neg]
    rw [not_or, gt_iff_lt, gt_iff_lt, BitVec.not_lt, BitVec.not_lt, BitVec.le_def, BitVec.le_def,
      BitVec.toNat_sub_of_le hcount]
    exact ⟨hle, Nat.le_sub_of_add_le (Nat.one_add _ ▸ hlt)⟩

variable (proto : Proto) (cfg : Option XdpRuntimeCfg) (rules : U32 → RateRule)
  {s₁ s₂ : Addr} {port : U32}

/-- One unit is left: a packet of the first source takes it from the second. -/
theorem not_isolated_of_shared (hne : s₁ ≠ s₂) (hlimit : (rules port).rateMax ≠ 0)
    (hshare : (rules port).SharesBucket s₁ s₂) :
    ¬SourceIsolated (perSourceLimiter proto) cfg rules s₁ s₂ port := by
  intro h
  let limiter := perSourceLimiter proto
  let rate := (rules port).rateMax
  let b := sourceBucket rules s₂ port
  let l := oneWord b.1 (statePack 0 (rate - 1))
  let p₁ := packetFrom s₁ port
  let p₂ := packetFrom s₂ port
  have hfrom₁ : p₁.IsFrom s₁ port := packetFrom_isFrom s₁ port
  have hfrom₂ : p₂.IsFrom s₂ port := packetFrom_isFrom s₂ port
  have hnot₁ : ¬p₁.IsFrom s₂ port := fun hin => hne (hfrom₁.1.symm.trans hin.1)
  have hnot₂ : ¬p₂.IsFrom s₁ port := fun hin => hne (hin.1.symm.trans hfrom₂.1)
  have hpos : 1 ≤ rate.toNat := Nat.pos_of_ne_zero fun h => hlimit (BitVec.eq_of_toNat_eq h)
  have hdec : (rate - 1).toNat = rate.toNat - 1 := BitVec.toNat_sub_of_le hpos
  have hbucket₁ : (rules port).bucket p₁ = b := by
    have hb := bucket_of_isFrom rules s₁ port p₁ hfrom₁
    exact hb.trans (congrArg (fun a => (a, port)) hshare)
  have hbucket₂ : (rules port).bucket p₂ = b := bucket_of_isFrom rules s₂ port p₂ hfrom₂
  have hslot : limiter.Slotted l b := oneWord_slotted proto _ _ b
  have hword : limiter.word l b = some (statePack 0 (rate - 1)) := oneWord_word proto _ _ port
  have hprogram (p : RatePacket) (hp : p.now = 0) : limiter.program cfg (rules port) p =
      windowRateCheck 0 (cfgRateWindowNs cfg) 1 (rate.setWidth 64) := by
    unfold RateLimiter.program
    rw [hp]
    cases proto <;> rfl
  have hspec₁ := RateLimiter.check_spec cfg (rules port) p₁ l limiter
  have hspec₂ := RateLimiter.check_spec cfg (rules port) p₂ l limiter
  have hspec₁₂ := RateLimiter.check_spec cfg (rules port) p₂
    (limiter.check cfg (rules port) p₁ l).2 limiter
  have hleft : rate - 1 ≠ rate := by
    intro heq
    rw [heq] at hdec
    omega
  have hfull : rate - 1 + 1 = rate := BitVec.sub_add_cancel rate 1
  have hexec := windowRateCheck_count (cfgRateWindowNs cfg) rate (rate - 1) hlimit (by
    rw [BitVec.le_def, hdec]
    exact Nat.sub_le _ _)
  rw [if_neg hleft, hfull] at hexec
  -- alone, the second source passes
  have halone : (limiter.check cfg (rules port) p₂ l).1 = .pass := by
    rw [hspec₂.verdict hlimit (by rwa [hbucket₂]), hbucket₂, hword, hprogram p₂ rfl, hexec]
  -- after the first source, the count is at the limit
  have hafter : limiter.word (limiter.check cfg (rules port) p₁ l).2 b =
      some (statePack 0 rate) := by
    rw [hspec₁.word hlimit (by rwa [hbucket₁]), hbucket₁, if_pos rfl, hword, hprogram p₁ rfl, hexec]
  have hdropped : (limiter.check cfg (rules port) p₂
      (limiter.check cfg (rules port) p₁ l).2).1 = .drop := by
    rw [hspec₁₂.verdict hlimit (by rw [hbucket₂]; exact (hspec₁.slotted b).mpr hslot), hbucket₂,
      hafter, hprogram p₂ rfl, windowRateCheck_count _ rate rate hlimit (Nat.le_refl _),
      if_pos rfl]
  have hrun := h l [p₁, p₂]
  rw [List.filter_cons_of_neg (by rwa [decide_eq_true_eq, not_not]),
    List.filter_cons_of_pos (by rwa [decide_eq_true_eq]), List.filter_nil] at hrun
  simp only [List.foldl_cons, List.foldl_nil] at hrun
  have hwith : sourceVerdicts s₂ port (limiter.step cfg rules (limiter.step cfg rules { l := l } p₁)
      p₂).log = [.drop] := by
    refine (sourceVerdicts_from s₂ port p₂ _ _ hfrom₂).trans ?_
    exact congrArg₂ List.cons hdropped (sourceVerdicts_other s₂ port p₁ _ [] hnot₁)
  have hwithout : sourceVerdicts s₂ port (limiter.step cfg rules { l := l } p₂).log = [.pass] :=
    (sourceVerdicts_from s₂ port p₂ _ [] hfrom₂).trans (congrArg (List.cons · []) halone)
  have hsame := hwith.symm.trans (hrun.trans hwithout)
  exact absurd hsame (by decide)

/-- The per-source check isolates two sources exactly if their packets are not charged to
one word, or there is no limit. -/
theorem source_isolation (hne : s₁ ≠ s₂) :
    SourceIsolated (perSourceLimiter proto) cfg rules s₁ s₂ port ↔
      ((rules port).rateMax = 0 ∨ ¬(rules port).SharesBucket s₁ s₂) := by
  constructor
  · intro h
    by_contra hnot
    rw [not_or, not_not] at hnot
    exact not_isolated_of_shared proto cfg rules hne hnot.1 hnot.2 h
  · intro h l packets
    exact isolated_run _ cfg rules hne h packets _ _ ⟨rfl, Iff.rfl⟩ rfl

end Shared

/-- Two hosts of one /24 network, with the source prefix 24. -/
theorem source_isolation_network :
    SourceIsolated .syn none (fun _ => ⟨5, 24, 64⟩) (.v4 0x0A000001) (.v4 0x0A000002) 22 ↔
      ((5 : U32) = 0 ∨ ¬(⟨5, 24, 64⟩ : RateRule).SharesBucket (.v4 0x0A000001) (.v4 0x0A000002)) :=
  source_isolation .tcp none (fun _ => ⟨5, 24, 64⟩) (by decide)

/-- One SYN of the first host uses up the limit of its network. -/
theorem network_not_isolated :
    ¬SourceIsolated .syn none (fun _ => ⟨1, 24, 64⟩) (.v4 0x0A000001) (.v4 0x0A000002) 22 := by
  intro h
  have hrun := h { syn4 := fun _ => some ∅ }
    [⟨.v4 4000 22 0x0A000001 0x0A0000FE, 1000000000, 22, 60⟩,
      ⟨.v4 4000 22 0x0A000002 0x0A0000FE, 1000000000, 22, 60⟩]
  exact absurd hrun (by decide +kernel)

end AutoXdp
