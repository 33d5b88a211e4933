import AutoXdp.XdpRateLimit
import Mathlib.Tactic.Basic

/-! The four limiters that are a `WINDOW_RATE_CHECK` on a word of their own map: which
word a packet is charged to, and what one check does to the words. -/
namespace AutoXdp
open AtomicProg AtomicWord

inductive RateLimiter where
  | syn | synAgg | udp | udpAgg
  deriving DecidableEq, Repr

/-- The limit and the source prefixes of a port policy. -/
structure RateRule where
  rateMax : U32
  prefixV4 : U32 := 32
  prefixV6 : U32 := 128
  deriving DecidableEq, Repr

/-- What a check reads of its packet. -/
structure RatePacket where
  key : FlowKey
  now : U64
  destPort : U32
  pktBytes : U64 := 0
  deriving DecidableEq, Repr

/-- A masked source and a destination port. -/
abbrev Bucket := Addr × U32

def RateRule.bucket (r : RateRule) (p : RatePacket) : Bucket :=
  (fillMaskedSource p.key.saddr r.prefixV4 r.prefixV6, p.destPort)

/-- The slot of a pair of per-port maps for the family of an address. -/
def innerSlot (m4 m6 : U32 → Option (BpfMap Addr U64)) (b : Bucket) : Option (BpfMap Addr U64) :=
  match b.1 with
  | .v4 _ => m4 b.2
  | .v6 _ => m6 b.2

namespace RateLimiter

def check (limiter : RateLimiter) (cfg : Option XdpRuntimeCfg) (r : RateRule) (p : RatePacket)
    (l : Limits) : XdpAction × Limits :=
  match limiter with
  | syn => synRateCheck p.key p.now p.destPort r.rateMax r.prefixV4 r.prefixV6 cfg l
  | synAgg => synAggRateCheck p.key p.now p.destPort r.rateMax r.prefixV4 r.prefixV6 cfg l
  | udp => udpRateCheck p.key p.now p.destPort r.rateMax r.prefixV4 r.prefixV6 cfg l
  | udpAgg =>
    udpAggRateCheck p.key p.now p.destPort p.pktBytes r.rateMax r.prefixV4 r.prefixV6 cfg l

/-- A packet is one unit, or its bytes. -/
def units (limiter : RateLimiter) (p : RatePacket) : U64 :=
  match limiter with
  | udpAgg => p.pktBytes
  | _ => 1

/-- The daemon has filled the port's slot; the aggregate limiters have none. -/
def Slotted (limiter : RateLimiter) (l : Limits) (b : Bucket) : Prop :=
  match limiter with
  | syn => (innerSlot l.syn4 l.syn6 b).isSome
  | udp => (innerSlot l.udprt4 l.udprt6 b).isSome
  | _ => True

instance (limiter : RateLimiter) (l : Limits) (b : Bucket) : Decidable (limiter.Slotted l b) := by
  unfold Slotted
  cases limiter <;> infer_instance

/-- The state word of a bucket. -/
def word (limiter : RateLimiter) (l : Limits) (b : Bucket) : Option U64 :=
  match limiter with
  | syn => (innerSlot l.syn4 l.syn6 b).bind fun m => m.lookup b.1
  | udp => (innerSlot l.udprt4 l.udprt6 b).bind fun m => m.lookup b.1
  | synAgg => l.synag.lookup b
  | udpAgg => l.udpag.lookup b

/-- The `WINDOW_RATE_CHECK` of the packet. -/
def program (limiter : RateLimiter) (cfg : Option XdpRuntimeCfg) (r : RateRule) (p : RatePacket) :
    Prog wordInterface XdpAction :=
  windowRateCheck p.now (cfgRateWindowNs cfg) (limiter.units p) (r.rateMax.setWidth 64)

end RateLimiter

/-! Word programs on one word of a map. -/

theorem exec_word_stays {α : Type} (p : Prog wordInterface α) (w : Option U64) (hw : w.isSome) :
    (p.exec wordHandler w).2.isSome := by
  induction p generalizing w with
  | ret a => exact hw
  | op o k ih => exact ih _ _ (word_stays o w hw)

section RunWord

variable {κ α : Type} [DecidableEq κ] (m : BpfMap κ U64) (k k' : κ) (p : Prog wordInterface α)

theorem runWord_fst : (runWord m k p).1 = (p.exec wordHandler (m.lookup k)).1 := by
  unfold runWord
  dsimp only
  split <;> rfl

/-- Only the word of the key changes. -/
theorem runWord_lookup : (runWord m k p).2.lookup k' =
    if k' = k then (p.exec wordHandler (m.lookup k)).2 else m.lookup k' := by
  unfold runWord
  dsimp only
  cases hw : (p.exec wordHandler (m.lookup k)).2 with
  | some w =>
    by_cases hk : k' = k
    · subst hk
      rw [AList.lookup_insert, if_pos rfl]
    · rw [AList.lookup_insert_ne hk, if_neg hk]
  | none =>
    split_ifs with hk
    · subst hk
      cases hm : m.lookup k' with
      | none => rfl
      | some v =>
        have hstays := exec_word_stays p (some v) rfl
        rw [← hm, hw] at hstays
        exact absurd hstays Bool.false_ne_true
    · rfl

end RunWord

/-! A pair of per-port maps, one for each family. -/

/-- The check of a bucket in the slot of its family. -/
def innerPairCheck (m4 m6 : U32 → Option (BpfMap Addr U64)) (b : Bucket)
    (p : Prog wordInterface XdpAction) :
    XdpAction × (U32 → Option (BpfMap Addr U64)) × (U32 → Option (BpfMap Addr U64)) :=
  let r := innerRateCheck (innerSlot m4 m6 b) b.1 p
  match b.1 with
  | .v4 _ => (r.1, Function.update m4 b.2 r.2, m6)
  | .v6 _ => (r.1, m4, Function.update m6 b.2 r.2)

/-- Two buckets share a slot. -/
def SameSlot (b b' : Bucket) : Prop := b.1.bits = b'.1.bits ∧ b.2 = b'.2

instance (b b' : Bucket) : Decidable (SameSlot b b') := inferInstanceAs (Decidable (_ ∧ _))

section InnerPair

variable (m4 m6 : U32 → Option (BpfMap Addr U64)) (b : Bucket) (p : Prog wordInterface XdpAction)

theorem innerPairCheck_slot (b' : Bucket) :
    innerSlot (innerPairCheck m4 m6 b p).2.1 (innerPairCheck m4 m6 b p).2.2 b' =
      if SameSlot b' b then (innerRateCheck (innerSlot m4 m6 b) b.1 p).2
      else innerSlot m4 m6 b' := by
  obtain ⟨a, port⟩ := b
  obtain ⟨a', port'⟩ := b'
  unfold SameSlot
  by_cases hport : port' = port
  · subst hport
    cases a <;> cases a' <;> simp [innerPairCheck, innerSlot, Addr.bits]
  · cases a <;> cases a' <;>
      simp [innerPairCheck, innerSlot, Addr.bits, hport, Function.update_of_ne]

theorem innerSlot_sameSlot (b' : Bucket) (h : SameSlot b' b) :
    innerSlot m4 m6 b' = innerSlot m4 m6 b := by
  obtain ⟨a, port⟩ := b
  obtain ⟨a', port'⟩ := b'
  obtain ⟨hbits, hport⟩ := h
  dsimp only at hport
  subst hport
  cases a <;> cases a' <;> simp_all [innerSlot, Addr.bits]

theorem innerPairCheck_fst :
    (innerPairCheck m4 m6 b p).1 = (innerRateCheck (innerSlot m4 m6 b) b.1 p).1 := by
  unfold innerPairCheck
  dsimp only
  split <;> rfl

/-- A slot that is filled stays filled, and an empty one empty. -/
theorem innerPairCheck_isSome (b' : Bucket) :
    (innerSlot (innerPairCheck m4 m6 b p).2.1 (innerPairCheck m4 m6 b p).2.2 b').isSome =
      (innerSlot m4 m6 b').isSome := by
  rw [innerPairCheck_slot]
  split_ifs with hsame
  · rw [innerSlot_sameSlot m4 m6 b b' hsame]
    cases innerSlot m4 m6 b <;> rfl
  · rfl

theorem innerPairCheck_word (m : BpfMap Addr U64) (hm : innerSlot m4 m6 b = some m) (b' : Bucket) :
    ((innerSlot (innerPairCheck m4 m6 b p).2.1 (innerPairCheck m4 m6 b p).2.2 b').bind
        fun m => m.lookup b'.1) =
      if b' = b then (p.exec wordHandler (m.lookup b.1)).2
      else (innerSlot m4 m6 b').bind fun m => m.lookup b'.1 := by
  rw [innerPairCheck_slot, hm]
  by_cases hsame : SameSlot b' b
  · rw [if_pos hsame, innerSlot_sameSlot m4 m6 b b' hsame, hm]
    change (runWord m b.1 p).2.lookup b'.1 = _
    rw [runWord_lookup]
    exact if_congr ⟨fun h => Prod.ext h hsame.2, congrArg Prod.fst⟩ rfl rfl
  · have hne : b' ≠ b := by
      intro h
      subst h
      exact hsame ⟨rfl, rfl⟩
    rw [if_neg hsame, if_neg hne]

/-- Without a slot nothing happens. -/
theorem innerPairCheck_empty (hm : innerSlot m4 m6 b = none) (b' : Bucket) :
    innerSlot (innerPairCheck m4 m6 b p).2.1 (innerPairCheck m4 m6 b p).2.2 b' =
      innerSlot m4 m6 b' := by
  rw [innerPairCheck_slot, hm]
  split_ifs with hsame
  · rw [innerSlot_sameSlot m4 m6 b b' hsame, hm]
    rfl
  · rfl

end InnerPair

namespace RateLimiter

/-- What one check does: nothing without a limit or a slot, and otherwise its program on the
word of its bucket. -/
structure CheckSpec (limiter : RateLimiter) (cfg : Option XdpRuntimeCfg) (r : RateRule)
    (p : RatePacket) (l : Limits) : Prop where
  open_verdict : r.rateMax = 0 ∨ ¬limiter.Slotted l (r.bucket p) →
    (limiter.check cfg r p l).1 = .pass
  open_word : r.rateMax = 0 ∨ ¬limiter.Slotted l (r.bucket p) →
    ∀ b, limiter.word (limiter.check cfg r p l).2 b = limiter.word l b
  verdict : r.rateMax ≠ 0 → limiter.Slotted l (r.bucket p) → (limiter.check cfg r p l).1 =
    ((limiter.program cfg r p).exec wordHandler (limiter.word l (r.bucket p))).1
  word : r.rateMax ≠ 0 → limiter.Slotted l (r.bucket p) →
    ∀ b, limiter.word (limiter.check cfg r p l).2 b = if b = r.bucket p then
      ((limiter.program cfg r p).exec wordHandler (limiter.word l (r.bucket p))).2
      else limiter.word l b
  slotted : ∀ b, limiter.Slotted (limiter.check cfg r p l).2 b ↔ limiter.Slotted l b

variable (cfg : Option XdpRuntimeCfg) (r : RateRule) (p : RatePacket) (l : Limits)

theorem syn_check (h : r.rateMax ≠ 0) : syn.check cfg r p l =
    let i := innerPairCheck l.syn4 l.syn6 (r.bucket p) (syn.program cfg r p)
    (i.1, { l with syn4 := i.2.1, syn6 := i.2.2 }) := by
  obtain ⟨key, now, destPort, pktBytes⟩ := p
  cases key <;> simp only [check, synRateCheck, if_neg h] <;> rfl

theorem udp_check (h : r.rateMax ≠ 0) : udp.check cfg r p l =
    let i := innerPairCheck l.udprt4 l.udprt6 (r.bucket p) (udp.program cfg r p)
    (i.1, { l with udprt4 := i.2.1, udprt6 := i.2.2 }) := by
  obtain ⟨key, now, destPort, pktBytes⟩ := p
  cases key <;> simp only [check, udpRateCheck, if_neg h] <;> rfl

theorem synAgg_check (h : r.rateMax ≠ 0) : synAgg.check cfg r p l =
    let w := runWord l.synag (r.bucket p) (synAgg.program cfg r p)
    (w.1, { l with synag := w.2 }) := by
  simp only [check, synAggRateCheck, if_neg h]
  rfl

theorem udpAgg_check (h : r.rateMax ≠ 0) : udpAgg.check cfg r p l =
    let w := runWord l.udpag (r.bucket p) (udpAgg.program cfg r p)
    (w.1, { l with udpag := w.2 }) := by
  simp only [check, udpAggRateCheck, if_neg h]
  rfl

theorem check_unlimited (limiter : RateLimiter) (h : r.rateMax = 0) :
    limiter.check cfg r p l = (.pass, l) := by
  cases limiter <;> exact if_pos h

/-- One step of a limiter that is a pair of per-port maps. -/
theorem checkSpec_pair (limiter : RateLimiter) (m4 m6 : U32 → Option (BpfMap Addr U64))
    (l' : Limits) (hlimit : r.rateMax ≠ 0)
    (hslotted : ∀ b, limiter.Slotted l b ↔ (innerSlot m4 m6 b).isSome)
    (hword : ∀ b, limiter.word l b = (innerSlot m4 m6 b).bind fun m => m.lookup b.1)
    (hcheck : limiter.check cfg r p l =
      ((innerPairCheck m4 m6 (r.bucket p) (limiter.program cfg r p)).1, l'))
    (hslotted' : ∀ b, limiter.Slotted l' b ↔ (innerSlot
      (innerPairCheck m4 m6 (r.bucket p) (limiter.program cfg r p)).2.1
      (innerPairCheck m4 m6 (r.bucket p) (limiter.program cfg r p)).2.2 b).isSome)
    (hword' : ∀ b, limiter.word l' b = (innerSlot
      (innerPairCheck m4 m6 (r.bucket p) (limiter.program cfg r p)).2.1
      (innerPairCheck m4 m6 (r.bucket p) (limiter.program cfg r p)).2.2 b).bind
        fun m => m.lookup b.1) : CheckSpec limiter cfg r p l := by
  have hsl (b) : limiter.Slotted l' b ↔ limiter.Slotted l b := by
    rw [hslotted', hslotted, innerPairCheck_isSome]
  cases hm : innerSlot m4 m6 (r.bucket p) with
  | none =>
    have hno : ¬limiter.Slotted l (r.bucket p) := by
      rw [hslotted, hm]
      exact Bool.false_ne_true
    refine ⟨fun _ => ?_, fun _ b => ?_, fun _ h => absurd h hno, fun _ h => absurd h hno, ?_⟩
    · rw [hcheck, innerPairCheck_fst, hm]
      rfl
    · rw [hcheck, hword', hword, innerPairCheck_empty m4 m6 _ _ hm]
    · rw [hcheck]
      exact hsl
  | some m =>
    have hyes : limiter.Slotted l (r.bucket p) := by
      rw [hslotted, hm]
      rfl
    have hclosed : ¬(r.rateMax = 0 ∨ ¬limiter.Slotted l (r.bucket p)) :=
      fun h => h.elim hlimit fun h => h hyes
    have hw : limiter.word l (r.bucket p) = m.lookup (r.bucket p).1 := by
      rw [hword, hm]
      rfl
    refine ⟨fun h => absurd h hclosed, fun h => absurd h hclosed, fun _ _ => ?_, fun _ _ b => ?_,
      ?_⟩
    · rw [hcheck, innerPairCheck_fst, hm, hw]
      exact runWord_fst ..
    · rw [hcheck, hword', innerPairCheck_word m4 m6 _ _ m hm, hw, ← hword]
    · rw [hcheck]
      exact hsl

/-- One step of a limiter that is one map. -/
theorem checkSpec_map (limiter : RateLimiter) (m : BpfMap Bucket U64) (l' : Limits)
    (hlimit : r.rateMax ≠ 0) (hslotted : ∀ l b, limiter.Slotted l b)
    (hword : ∀ b, limiter.word l b = m.lookup b)
    (hcheck : limiter.check cfg r p l =
      ((runWord m (r.bucket p) (limiter.program cfg r p)).1, l'))
    (hword' : ∀ b, limiter.word l' b =
      (runWord m (r.bucket p) (limiter.program cfg r p)).2.lookup b) :
    CheckSpec limiter cfg r p l := by
  have hclosed : ¬(r.rateMax = 0 ∨ ¬limiter.Slotted l (r.bucket p)) :=
    fun h => h.elim hlimit fun h => h (hslotted l _)
  refine ⟨fun h => absurd h hclosed, fun h => absurd h hclosed, fun _ _ => ?_, fun _ _ b => ?_,
    fun b => ⟨fun _ => hslotted l b, fun _ => hslotted _ b⟩⟩
  · rw [hcheck, hword]
    exact runWord_fst ..
  · rw [hcheck, hword', runWord_lookup, hword, hword]

theorem check_spec (limiter : RateLimiter) : CheckSpec limiter cfg r p l := by
  by_cases hlimit : r.rateMax = 0
  · have hcheck := check_unlimited cfg r p l limiter hlimit
    refine ⟨fun _ => ?_, fun _ b => ?_, fun h => absurd hlimit h, fun h => absurd hlimit h,
      fun b => ?_⟩ <;> rw [hcheck]
  · cases limiter with
    | syn =>
      exact checkSpec_pair cfg r p l .syn l.syn4 l.syn6 _ hlimit (fun _ => Iff.rfl) (fun _ => rfl)
        (syn_check cfg r p l hlimit) (fun _ => Iff.rfl) fun _ => rfl
    | udp =>
      exact checkSpec_pair cfg r p l .udp l.udprt4 l.udprt6 _ hlimit (fun _ => Iff.rfl)
        (fun _ => rfl) (udp_check cfg r p l hlimit) (fun _ => Iff.rfl) fun _ => rfl
    | synAgg =>
      exact checkSpec_map cfg r p l .synAgg l.synag _ hlimit (fun _ _ => trivial) (fun _ => rfl)
        (synAgg_check cfg r p l hlimit) fun _ => rfl
    | udpAgg =>
      exact checkSpec_map cfg r p l .udpAgg l.udpag _ hlimit (fun _ _ => trivial) (fun _ => rfl)
        (udpAgg_check cfg r p l hlimit) fun _ => rfl

end RateLimiter

/-! Runs of one limiter, each port with its own rule. -/

/-- The maps, and the packets with their verdicts, newest first. -/
structure RateRun where
  l : Limits
  log : List (RatePacket × XdpAction) := []

def RateLimiter.step (limiter : RateLimiter) (cfg : Option XdpRuntimeCfg) (rules : U32 → RateRule)
    (s : RateRun) (p : RatePacket) : RateRun :=
  let r := limiter.check cfg (rules p.destPort) p s.l
  { l := r.2, log := (p, r.1) :: s.log }

/-! One `WINDOW_RATE_CHECK` running alone. -/

/-- The increment is refused at once, starts a window, is counted, or exceeds the limit. -/
inductive WindowOutcome (now windowNs increment max : U64) (w : Option U64) :
    XdpAction → Option U64 → Prop
  | refused : WindowOutcome now windowNs increment max w .drop w
  | started (hinc : increment ≤ max) (h32 : increment ≤ 0xFFFFFFFF)
      (h : ∀ v, w = some v → rateStateTick now - stateTick v ≥ rateStateWindowTicks windowNs) :
      WindowOutcome now windowNs increment max w .pass
        (some (statePack (rateStateTick now) (increment.setWidth 32)))
  | counted (hinc : increment ≤ max) (h32 : increment ≤ 0xFFFFFFFF) (v : U64) (hw : w = some v)
      (hcount : stateCount v ≤ max.setWidth 32)
      (hroom : increment.setWidth 32 ≤ max.setWidth 32 - stateCount v) :
      WindowOutcome now windowNs increment max w .pass
        (some (statePack (stateTick v) (stateCount v + increment.setWidth 32)))

/-- Alone, a swap of the word just read succeeds. -/
theorem exec_casWord (v new : U64) (p q : Prog wordInterface XdpAction) :
    (casWord v new >>= fun r => if r = v then p else q).exec wordHandler (some v) =
      p.exec wordHandler (some new) := by
  rw [casWord_bind, Prog.exec_op]
  have hres : (wordHandler (.cas v new) (some v)).1 = v := rfl
  have hword : (wordHandler (.cas v new) (some v)).2 = some new := if_pos rfl
  rw [hword]
  exact congrArg (fun t => Prog.exec wordHandler t (some new)) (if_pos hres)

theorem windowRateLoop_exec (inc limit nowTick windowTicks : U32) (attempts : ℕ) (v : U64) :
    (windowRateLoop inc limit nowTick windowTicks (attempts + 1)).exec wordHandler (some v) =
      if nowTick - stateTick v ≥ windowTicks then (.pass, some (statePack nowTick inc))
      else if stateCount v > limit ∨ inc > limit - stateCount v then (.drop, some v)
      else (.pass, some (statePack (stateTick v) (stateCount v + inc))) := by
  -- the lookup finds the word and the load reads it
  change (if nowTick - stateTick v ≥ windowTicks then
      casWord v (statePack nowTick inc) >>= fun r => if r = v then return .pass
        else windowRateLoop inc limit nowTick windowTicks attempts
    else if stateCount v > limit ∨ inc > limit - stateCount v then return .drop
    else casWord v (statePack (stateTick v) (stateCount v + inc)) >>= fun r =>
      if r = v then return .pass
      else windowRateLoop inc limit nowTick windowTicks attempts :
    Prog wordInterface XdpAction).exec wordHandler (some v) = _
  rw [Prog.exec_ite, Prog.exec_ite, exec_casWord, exec_casWord]
  rfl

theorem windowRateCheck_outcome (now windowNs increment max : U64) (w : Option U64) :
    WindowOutcome now windowNs increment max w
      ((windowRateCheck now windowNs increment max).exec wordHandler w).1
      ((windowRateCheck now windowNs increment max).exec wordHandler w).2 := by
  unfold windowRateCheck
  split_ifs with hrefuse
  · exact .refused
  rw [not_or, gt_iff_lt, gt_iff_lt, BitVec.not_lt, BitVec.not_lt] at hrefuse
  obtain ⟨hinc, h32⟩ := hrefuse
  cases w with
  | none => exact .started hinc h32 (by exact nofun)
  | some v =>
    rw [rateStateRetries, windowRateLoop_exec]
    split_ifs with hold hover
    · refine .started hinc h32 ?_
      rintro v' ⟨⟩
      exact hold
    · exact .refused
    · rw [not_or, gt_iff_lt, gt_iff_lt, BitVec.not_lt, BitVec.not_lt] at hover
      exact .counted hinc h32 v rfl hover.1 hover.2

end AutoXdp
