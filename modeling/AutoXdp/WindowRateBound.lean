import AutoXdp.GuardedRun
import AutoXdp.XdpRateLimit
import Mathlib.Tactic.Basic

/-! Any number of `WINDOW_RATE_CHECK` executions on one shared word, their calls
interleaved in any order. -/
namespace AutoXdp
open AtomicProg AtomicWord GuardedRun

/-- What distinguishes one execution from another: its clock reading, taken
before the check, and its increment. -/
structure RateCall where
  now : U64
  increment : U64
  deriving DecidableEq, Repr

/-- The millisecond of a clock reading, before it is cut to 32 bits. -/
def RateCall.tick (c : RateCall) : ℕ := c.now.toNat / 1000000

/-- `WINDOW_RATE_CHECK` gets past its first test. -/
def RateCall.Accepted (max : U64) (c : RateCall) : Prop :=
  c.increment.toNat ≤ max.toNat ∧ c.increment.toNat < 2^32

/-- A window with its start uncut and the sum of the increments admitted in it. -/
structure Window where
  start : ℕ
  admitted : ℕ
  deriving DecidableEq, Repr

/-- The state word that represents a window. -/
def Window.word (w : Window) : U64 :=
  statePack (BitVec.ofNat 32 w.start) (BitVec.ofNat 32 w.admitted)

/-- The answer of a call that admits its thread's increment. -/
def Admits : (o : WordOp) → o.Res → Prop
  | .insert _, r => r = true
  | .cas old _, r => r = old
  | _, _ => False

/-- The window after one call: an insertion and a swap to another tick start one,
a swap that keeps the tick adds to it. -/
def windowStep (c : RateCall) : (o : WordOp) → o.Res → Option Window → Option Window
  | .insert _, r, w => if r = true then some ⟨c.tick, c.increment.toNat⟩ else w
  | .cas old new, r, w =>
    if r = old then
      if stateTick new = stateTick old then
        w.map fun w => { w with admitted := w.admitted + c.increment.toNat }
      else some ⟨c.tick, c.increment.toNat⟩
    else w
  | _, _, w => w

section Pool

variable {ι : Type} [DecidableEq ι] (windowNs max : U64) (call : ι → RateCall)

abbrev RatePool (ι : Type) := Pool wordInterface ι (Option U64) XdpAction
abbrev RateEvent (ι : Type) := Event wordInterface ι (Option U64)

/-- The window that a log of calls, newest first, leaves. -/
def windowAfter (log : List (RateEvent ι)) : Option Window :=
  log.foldr (fun e w => windowStep (call e.who) e.op e.res w) none

def rateStart : RatePool ι :=
  Pool.start none fun i => windowRateCheck (call i).now windowNs (call i).increment max

/-- Thread `i` is about to win its compare-and-swap. -/
def SwapsNext (c : RatePool ι) (i : ι) : Prop :=
  ∃ old new, (c.thread i).next? = some (.cas old new) ∧ c.shared = some old

/-- A thread that wins its swap read its clock no earlier than the stored start; with a
window too long for 31 bits of ticks, less than those bits hold after it. -/
def SwapsInOrder (c : RatePool ι) (i : ι) : Prop :=
  SwapsNext c i → ∀ w, windowAfter call c.log = some w →
    w.start ≤ (call i).tick ∧
      (windowNs.toNat ≤ 0x7FFFFFFF*1000000 ∨ (call i).tick < w.start + 0x7FFFFFFF)

/-- What every moment of the pool's history shows. -/
structure WindowBound (c : RatePool ι) : Prop where
  stored : c.shared = (windowAfter call c.log).map Window.word
  admitted : ∀ i, (c.thread i).result? = some .pass ↔
    ∃ e ∈ c.log, e.who = i ∧ Admits e.op e.res
  within_limit : ∀ log, log <:+ c.log → ∀ w, windowAfter call log = some w →
    w.admitted ≤ max.toNat
  start_forward : ∀ e log, e :: log <:+ c.log → ∀ v w, windowAfter call log = some v →
    windowAfter call (e :: log) = some w → v.start ≤ w.start
  restart_late : ∀ e log, e :: log <:+ c.log → ∀ v w, windowAfter call log = some v →
    windowAfter call (e :: log) = some w → v.start ≠ w.start →
      v.start*1000000 + windowNs.toNat ≤ (call e.who).now.toNat

end Pool

/-! Ticks. -/

theorem rateStateTick_eq (c : RateCall) : rateStateTick c.now = BitVec.ofNat 32 c.tick := by
  apply BitVec.eq_of_toNat_eq
  simp only [rateStateTick, RateCall.tick, BitVec.toNat_setWidth, BitVec.toNat_ofNat]
  rfl

/-- A restart in order comes a full window after the stored start. -/
theorem restart_in_window (windowNs : U64) (c : RateCall) (start : ℕ)
    (hticks : rateStateWindowTicks windowNs ≤ rateStateTick c.now - BitVec.ofNat 32 start)
    (hstart : start ≤ c.tick)
    (hlong : windowNs.toNat ≤ 0x7FFFFFFF*1000000 ∨ c.tick < start + 0x7FFFFFFF) :
    start*1000000 + windowNs.toNat ≤ c.now.toNat := by
  have ht : rateStateTickNs.toNat = 1000000 := by decide
  have hd : (rateStateWindowTicks windowNs).toNat ≤ c.tick - start := by
    have h : (rateStateWindowTicks windowNs).toNat ≤
        (rateStateTick c.now - BitVec.ofNat 32 start).toNat := hticks
    rw [rateStateTick_eq, BitVec.toNat_sub, BitVec.toNat_ofNat, BitVec.toNat_ofNat] at h
    omega
  have hshort : windowNs.toNat ≤ 0x7FFFFFFF*1000000 := by
    rcases hlong with hshort | hnear
    · exact hshort
    · -- the ticks of a longer window are clamped, and the reading is nearer than these
      have hclamp := clampTicks_toNat rateStateTickNs windowNs (by rw [ht]; decide)
      rw [ht, ← rateStateWindowTicks] at hclamp
      omega
  have hw := le_clampTicks rateStateTickNs windowNs (by rw [ht]; decide) (by rwa [ht])
  rw [ht, ← rateStateWindowTicks] at hw
  calc start*1000000 + windowNs.toNat
      ≤ (start + (rateStateWindowTicks windowNs).toNat)*1000000 := by
        rw [Nat.add_mul]; exact Nat.add_le_add_left hw _
    _ ≤ c.tick*1000000 := Nat.mul_le_mul_right _ (by omega)
    _ ≤ c.now.toNat := Nat.div_mul_le_self _ _

/-! The calls one execution can make. -/

/-- `found` is whether the execution has seen the word present. -/
def RateCallShape (windowNs max : U64) (c : RateCall) (found : Bool) : WordOp → Prop
  | .lookup => True
  | .insert v => v = statePack (rateStateTick c.now) (c.increment.setWidth 32)
  | .load => found = true
  | .cas old new => found = true ∧
    ((rateStateWindowTicks windowNs ≤ rateStateTick c.now - stateTick old ∧
        new = statePack (rateStateTick c.now) (c.increment.setWidth 32)) ∨
      (stateCount old ≤ max.setWidth 32 ∧
        c.increment.setWidth 32 ≤ max.setWidth 32 - stateCount old ∧
        new = statePack (stateTick old) (stateCount old + c.increment.setWidth 32)))
  | .swap _ => False

def rateFound (found : Bool) : (o : WordOp) → o.Res → Bool
  | .lookup, r => found || r
  | _, _ => found

def RateNode (windowNs max : U64) (c : RateCall) (found : Bool) (o : WordOp)
    (k : o.Res → Prog wordInterface XdpAction) : Prop :=
  c.Accepted max ∧ RateCallShape windowNs max c found o ∧
    ∀ r, (k r).result? = some .pass ↔ Admits o r

theorem windowRateLoop_not_pass (inc limit nowTick windowTicks : U32) (n : ℕ) :
    (windowRateLoop inc limit nowTick windowTicks n).result? ≠ some .pass := by
  cases n with
  | zero => simp [windowRateLoop]
  | succ n => simp [windowRateLoop]

section Nodes

variable (windowNs max : U64) (c : RateCall) (hacc : c.Accepted max)

/-- `windowRateLoop` at the arguments of one execution. -/
abbrev rateLoop (n : ℕ) : Prog wordInterface XdpAction :=
  windowRateLoop (c.increment.setWidth 32) (max.setWidth 32) (rateStateTick c.now)
    (rateStateWindowTicks windowNs) n

include hacc

/-- After a swap: it won and the execution passes, or it lost and tries again. -/
theorem rateSwap_nodes (n : ℕ) (old new : U64)
    (hs : RateCallShape windowNs max c true (.cas old new))
    (ih : Prog.Always rateFound (RateNode windowNs max c) true (rateLoop windowNs max c n)) :
    Prog.Always rateFound (RateNode windowNs max c) true (casWord old new >>= fun r =>
      if r = old then .ret .pass else rateLoop windowNs max c n) := by
  refine ⟨⟨hacc, hs, fun r => ?_⟩, fun r => ?_⟩
  · change (if r = old then Prog.ret .pass else rateLoop windowNs max c n).result? = _ ↔ r = old
    by_cases hr : r = old
    · simp only [hr, ↓reduceIte, Prog.result_ret]
    · simp only [hr, ↓reduceIte, iff_false]
      exact windowRateLoop_not_pass _ _ _ _ _
  · exact Prog.always_ite _ _ _ _ (fun _ => Prog.always_ret _ _) (fun _ => ih)

theorem rateLoop_nodes (n : ℕ) (found : Bool) :
    Prog.Always rateFound (RateNode windowNs max c) found (rateLoop windowNs max c n) := by
  induction n generalizing found with
  | zero => exact Prog.always_ret _ _
  | succ n ih =>
    simp only [rateLoop, windowRateLoop, lookupWord_bind, insertWord_bind, loadWord_bind,
      Prog.pure_eq]
    refine ⟨⟨hacc, trivial, fun r => ?_⟩, fun r => ?_⟩
    · cases r <;> simp [Admits]
    · cases r with
      | false =>
        refine ⟨⟨hacc, rfl, fun r => ?_⟩, fun r => ?_⟩
        · cases r
          · simpa [Admits] using windowRateLoop_not_pass _ _ _ _ _
          · simp [Admits]
        · exact Prog.always_ite _ _ _ _ (fun _ => Prog.always_ret _ _) (fun _ => ih _)
      | true =>
        have hf : rateFound found .lookup true = true := Bool.or_true found
        rw [hf]
        refine ⟨⟨hacc, rfl, fun current => ?_⟩, fun current => ?_⟩
        · simp only [Admits, iff_false]
          split_ifs <;> simp
        · refine Prog.always_ite _ _ _ _ (fun h => ?_) (fun _ => ?_)
          · exact rateSwap_nodes windowNs max c hacc _ _ _ ⟨rfl, Or.inl ⟨h, rfl⟩⟩ (ih true)
          · refine Prog.always_ite _ _ _ _ (fun _ => Prog.always_ret _ _) (fun hd => ?_)
            rw [not_or, gt_iff_lt, gt_iff_lt, BitVec.not_lt, BitVec.not_lt] at hd
            exact rateSwap_nodes windowNs max c hacc _ _ _ ⟨rfl, Or.inr ⟨hd.1, hd.2, rfl⟩⟩
              (ih true)

omit hacc

theorem windowRateCheck_nodes :
    Prog.Always rateFound (RateNode windowNs max c) false
      (windowRateCheck c.now windowNs c.increment max) := by
  refine Prog.always_ite _ _ _ _ (fun _ => Prog.always_ret _ _) (fun h => ?_)
  rw [not_or, gt_iff_lt, gt_iff_lt, BitVec.not_lt, BitVec.not_lt] at h
  have hacc : c.Accepted max := ⟨h.1, Nat.lt_succ_of_le h.2⟩
  exact rateLoop_nodes windowNs max c hacc _ _

theorem windowRateCheck_not_pass :
    (windowRateCheck c.now windowNs c.increment max).result? ≠ some .pass := by
  simp only [windowRateCheck]
  split_ifs
  · simp
  · exact windowRateLoop_not_pass _ _ _ _ _

end Nodes

/-! One call against the stored window. -/

/-- What one call did to the window before it. -/
structure WindowStepOk (windowNs max : U64) (c : RateCall) (before after : Option Window) :
    Prop where
  within_limit : ∀ w, after = some w → w.admitted ≤ max.toNat ∧ w.admitted < 2^32
  start_forward : ∀ v w, before = some v → after = some w → v.start ≤ w.start
  restart_late : ∀ v w, before = some v → after = some w → v.start ≠ w.start →
    v.start*1000000 + windowNs.toNat ≤ c.now.toNat

section Step

variable (windowNs max : U64) (c : RateCall) (before : Option Window)
  (hlimit : ∀ w, before = some w → w.admitted ≤ max.toNat ∧ w.admitted < 2^32)

include hlimit

theorem windowStepOk_same : WindowStepOk windowNs max c before before where
  within_limit := hlimit
  start_forward := by
    intro v w hv hw
    rw [Option.some.inj (hv.symm.trans hw)]
  restart_late := by
    intro v w hv hw hne
    exact absurd (congrArg Window.start (Option.some.inj (hv.symm.trans hw))) hne

omit hlimit

theorem windowStepOk_first (hacc : c.Accepted max) :
    WindowStepOk windowNs max c none (some ⟨c.tick, c.increment.toNat⟩) where
  within_limit := by
    rintro w ⟨⟩
    exact hacc
  start_forward := by
    rintro v w ⟨⟩
  restart_late := by
    rintro v w ⟨⟩

theorem windowStepOk_restart (hacc : c.Accepted max) (v : Window)
    (hticks : rateStateWindowTicks windowNs ≤
      rateStateTick c.now - BitVec.ofNat 32 v.start)
    (hstart : v.start ≤ c.tick)
    (hlong : windowNs.toNat ≤ 0x7FFFFFFF*1000000 ∨ c.tick < v.start + 0x7FFFFFFF) :
    WindowStepOk windowNs max c (some v) (some ⟨c.tick, c.increment.toNat⟩) where
  within_limit := by
    rintro w ⟨⟩
    exact hacc
  start_forward := by
    rintro v w ⟨⟩ ⟨⟩
    exact hstart
  restart_late := by
    rintro v w ⟨⟩ ⟨⟩ -
    exact restart_in_window windowNs c _ hticks hstart hlong

theorem windowStepOk_add (hacc : c.Accepted max) (v : Window) (hv : v.admitted < 2^32)
    (hcount : BitVec.ofNat 32 v.admitted ≤ max.setWidth 32)
    (hroom : c.increment.setWidth 32 ≤ max.setWidth 32 - BitVec.ofNat 32 v.admitted) :
    WindowStepOk windowNs max c (some v)
      (some { v with admitted := v.admitted + c.increment.toNat }) where
  within_limit := by
    rintro w ⟨⟩
    have hinc := hacc.2
    rw [BitVec.le_def, BitVec.toNat_ofNat, BitVec.toNat_setWidth] at hcount
    rw [BitVec.le_def, BitVec.toNat_sub, BitVec.toNat_ofNat, BitVec.toNat_setWidth,
      BitVec.toNat_setWidth] at hroom
    constructor <;> dsimp only <;> omega
  start_forward := by
    rintro v w ⟨⟩ ⟨⟩
    exact Nat.le_refl _
  restart_late := by
    rintro v w ⟨⟩ ⟨⟩ hne
    exact absurd rfl hne

end Step

theorem word_fresh (c : RateCall) : Window.word ⟨c.tick, c.increment.toNat⟩ =
    statePack (rateStateTick c.now) (c.increment.setWidth 32) := by
  rw [Window.word, rateStateTick_eq]
  rfl

theorem word_add (c : RateCall) (v : Window) :
    Window.word { v with admitted := v.admitted + c.increment.toNat } =
      statePack (stateTick v.word) (stateCount v.word + c.increment.setWidth 32) := by
  rw [Window.word, Window.word, stateTick_pack, stateCount_pack]
  congr 1
  apply BitVec.eq_of_toNat_eq
  rw [BitVec.toNat_ofNat, BitVec.toNat_add, BitVec.toNat_ofNat, BitVec.toNat_setWidth,
    ← Nat.add_mod]

/-- A call of an execution keeps the stored word equal to the window it represents. -/
theorem windowStep_sound (windowNs max : U64) (c : RateCall) (before : Option Window)
    (found : Bool) (o : WordOp) (hacc : c.Accepted max)
    (hshape : RateCallShape windowNs max c found o)
    (hfound : found = true → before.isSome)
    (hlimit : ∀ w, before = some w → w.admitted ≤ max.toNat ∧ w.admitted < 2^32)
    (horder : ∀ v, before = some v → (∃ new, o = .cas v.word new) →
      v.start ≤ c.tick ∧ (windowNs.toNat ≤ 0x7FFFFFFF*1000000 ∨ c.tick < v.start + 0x7FFFFFFF)) :
    (wordHandler o (before.map Window.word)).2 =
        (windowStep c o (wordHandler o (before.map Window.word)).1 before).map Window.word ∧
      WindowStepOk windowNs max c before
        (windowStep c o (wordHandler o (before.map Window.word)).1 before) := by
  cases o with
  | lookup => exact ⟨rfl, windowStepOk_same windowNs max c before hlimit⟩
  | load => exact ⟨rfl, windowStepOk_same windowNs max c before hlimit⟩
  | swap v => exact hshape.elim
  | insert x =>
    cases before with
    | some v => exact ⟨rfl, windowStepOk_same windowNs max c _ hlimit⟩
    | none =>
      refine ⟨?_, windowStepOk_first windowNs max c hacc⟩
      exact congrArg some ((word_fresh c).trans hshape.symm).symm
  | cas old new =>
    obtain ⟨hf, hshape⟩ := hshape
    obtain ⟨v, rfl⟩ := Option.isSome_iff_exists.mp (hfound hf)
    by_cases hold : v.word = old
    · -- the swap is won: the window restarts, or counts the increment
      subst hold
      have htick : stateTick v.word = BitVec.ofNat 32 v.start := stateTick_pack _ _
      have hcount : stateCount v.word = BitVec.ofNat 32 v.admitted := stateCount_pack _ _
      simp only [wordHandler, windowStep, Option.map_some, Option.getD_some, ↓reduceIte]
      rcases hshape with ⟨hticks, rfl⟩ | ⟨hc, hroom, rfl⟩
      · rw [htick] at hticks
        have hne : rateStateTick c.now ≠ BitVec.ofNat 32 v.start := by
          intro h
          have hpos := clampTicks_pos rateStateTickNs windowNs (by decide)
          rw [h, BitVec.sub_self] at hticks
          exact absurd hticks (BitVec.not_le.mpr hpos)
        obtain ⟨hstart, hlong⟩ := horder v rfl ⟨_, rfl⟩
        rw [stateTick_pack, htick]
        simp only [hne, ↓reduceIte, Option.map_some]
        exact ⟨congrArg some (word_fresh c).symm,
          windowStepOk_restart windowNs max c hacc v hticks hstart hlong⟩
      · rw [hcount] at hc hroom
        rw [stateTick_pack]
        simp only [↓reduceIte, Option.map_some]
        exact ⟨congrArg some (word_add c v).symm,
          windowStepOk_add windowNs max c hacc v (hlimit v rfl).2 hc hroom⟩
    · -- another execution was faster
      simp only [wordHandler, windowStep, Option.map_some, Option.getD_some, Option.some.injEq,
        hold, ↓reduceIte, true_and]
      exact windowStepOk_same windowNs max c _ hlimit

/-! The pool. -/

section Run

variable {ι : Type} [DecidableEq ι] (windowNs max : U64) (call : ι → RateCall)

/-- `WindowBound` with what keeps it: every thread stays on the nodes of an
execution, and one that saw the word present is right. -/
structure RateInv (c : RatePool ι) : Prop extends WindowBound windowNs max call c where
  nodes : ∀ i, Prog.Always rateFound (RateNode windowNs max (call i))
    (Pool.memory rateFound false i c.log) (c.thread i)
  found : ∀ i, Pool.memory rateFound false i c.log = true → c.shared.isSome
  counts : ∀ w, windowAfter call c.log = some w → w.admitted < 2^32

theorem rateInv_start : RateInv windowNs max call (rateStart windowNs max call) where
  stored := rfl
  admitted := by
    intro i
    simp only [rateStart, Pool.start, List.not_mem_nil, false_and, exists_false, iff_false]
    exact windowRateCheck_not_pass windowNs max (call i)
  within_limit := by
    intro log hlog w hw
    rw [List.suffix_nil.mp hlog] at hw
    simp only [windowAfter, List.foldr_nil, reduceCtorEq] at hw
  start_forward := by
    intro e log hlog
    exact absurd (List.suffix_nil.mp hlog) (List.cons_ne_nil e log)
  restart_late := by
    intro e log hlog
    exact absurd (List.suffix_nil.mp hlog) (List.cons_ne_nil e log)
  nodes := fun i => windowRateCheck_nodes windowNs max (call i)
  found := by
    intro i hi
    simp only [rateStart, Pool.start, Pool.memory_nil, Bool.false_eq_true] at hi
  counts := by
    intro w hw
    simp only [rateStart, Pool.start, windowAfter, List.foldr_nil, reduceCtorEq] at hw

omit [DecidableEq ι] in
theorem rateFound_isSome (found : Bool) (o : WordOp) (w : Option U64)
    (hfound : found = true → w.isSome) (h : rateFound found o (wordHandler o w).1 = true) :
    w.isSome := by
  cases o with
  | lookup =>
    rcases Bool.or_eq_true_iff.mp h with hf | hw
    · exact hfound hf
    · exact hw
  | _ => exact hfound h

/-- Thread `i` passed exactly if one of its calls admitted its increment: the call
of this step, or an earlier one. -/
theorem admitted_step (c : RatePool ι) (e : RateEvent ι) (p : Prog wordInterface XdpAction)
    (hc : ∀ j, (c.thread j).result? = some .pass ↔ ∃ d ∈ c.log, d.who = j ∧ Admits d.op d.res)
    (hrun : (c.thread e.who).result? = none)
    (hp : p.result? = some .pass ↔ Admits e.op e.res) (j : ι) :
    (Function.update c.thread e.who p j).result? = some .pass ↔
      ∃ d ∈ e :: c.log, d.who = j ∧ Admits d.op d.res := by
  by_cases hj : j = e.who
  · subst hj
    have hnone := (hc e.who).not.mp (by rw [hrun]; exact nofun)
    rw [Function.update_self, hp]
    simp only [List.mem_cons, exists_eq_or_imp, true_and, hnone, or_false]
  · rw [Function.update_of_ne hj, hc j]
    simp only [List.mem_cons, exists_eq_or_imp, Ne.symm hj, false_and, false_or]

theorem rateInv_step (c : RatePool ι) (i : ι) (hc : RateInv windowNs max call c)
    (hok : SwapsInOrder windowNs call c i) :
    RateInv windowNs max call (c.step wordHandler i) := by
  cases hi : c.thread i with
  | ret a => rw [Pool.step_of_ret wordHandler c i a hi]; exact hc
  | op o k =>
    have hnode := hc.nodes i
    rw [hi] at hnode
    obtain ⟨⟨hacc, hshape, hpass⟩, hnext⟩ := hnode
    have hlimit : ∀ w, windowAfter call c.log = some w →
        w.admitted ≤ max.toNat ∧ w.admitted < 2^32 := fun w hw =>
      ⟨hc.within_limit c.log (List.suffix_refl _) w hw, hc.counts w hw⟩
    have hfound : Pool.memory rateFound false i c.log = true → (windowAfter call c.log).isSome := by
      intro h
      have hs := hc.found i h
      rw [hc.stored, Option.isSome_map] at hs
      exact hs
    -- a swap on the stored word is one that wins
    have horder : ∀ v, windowAfter call c.log = some v → (∃ new, o = .cas v.word new) →
        v.start ≤ (call i).tick ∧ (windowNs.toNat ≤ 0x7FFFFFFF*1000000 ∨
          (call i).tick < v.start + 0x7FFFFFFF) := by
      rintro v hv ⟨new, rfl⟩
      refine hok ⟨v.word, new, ?_, ?_⟩ v hv
      · rw [hi]; rfl
      · rw [hc.stored, hv]; rfl
    have hsound := windowStep_sound windowNs max (call i) _ _ o hacc hshape hfound hlimit horder
    rw [← hc.stored] at hsound
    have hnodes := Pool.always_step (fun _ => false) wordHandler c i hc.nodes
    rw [Pool.step_of_op wordHandler c i o k hi] at hnodes ⊢
    exact
    { stored := hsound.1
      admitted := admitted_step c ⟨i, o, (wordHandler o c.shared).1, c.shared,
        (wordHandler o c.shared).2⟩ _ hc.admitted (show (c.thread i).result? = none by rw [hi]; rfl)
        (hpass _)
      within_limit := by
        intro log hlog w hw
        rcases List.suffix_cons_iff.mp hlog with rfl | hlog
        · exact (hsound.2.within_limit w hw).1
        · exact hc.within_limit log hlog w hw
      start_forward := by
        intro e log hlog v w hv hw
        rcases List.suffix_cons_iff.mp hlog with heq | hlog
        · obtain ⟨rfl, rfl⟩ := List.cons.inj heq
          exact hsound.2.start_forward v w hv hw
        · exact hc.start_forward e log hlog v w hv hw
      restart_late := by
        intro e log hlog v w hv hw
        rcases List.suffix_cons_iff.mp hlog with heq | hlog
        · obtain ⟨rfl, rfl⟩ := List.cons.inj heq
          exact hsound.2.restart_late v w hv hw
        · exact hc.restart_late e log hlog v w hv hw
      nodes := hnodes
      found := by
        intro j hj
        refine word_stays o c.shared ?_
        dsimp only at hj
        by_cases hji : i = j
        · subst hji
          rw [Pool.memory_cons_self rateFound false i _ c.log rfl] at hj
          exact rateFound_isSome _ _ _ (hc.found i) hj
        · rw [Pool.memory_cons_ne _ _ _ _ _ hji] at hj
          exact hc.found j hj
      counts := fun w hw => (hsound.2.within_limit w hw).2 }

/-- In every run in which no execution wins its swap with a clock reading older than the
stored start, at every moment: the stored word is the current window, what was admitted in
each window is within the limit, and windows start ever later, each at least one window
length after the one before. -/
theorem window_rate_bound (sched : List ι)
    (hok : Guarded (Pool.step wordHandler) (SwapsInOrder windowNs call)
      (rateStart windowNs max call) sched) :
    WindowBound windowNs max call ((rateStart windowNs max call).run wordHandler sched) :=
  (invariant_run (Pool.step wordHandler) (SwapsInOrder windowNs call)
    (RateInv windowNs max call) (fun c i => rateInv_step windowNs max call c i) _ sched
    (rateInv_start windowNs max call) hok).toWindowBound

end Run

/-- The thread's clock reading is not behind the current window. -/
def notBehind {ι : Type} [DecidableEq ι] (windowNs : U64) (call : ι → RateCall) (c : RatePool ι)
    (i : ι) : Bool :=
  (windowAfter call c.log).all fun w =>
    decide (w.start ≤ (call i).tick ∧ windowNs.toNat ≤ 0x7FFFFFFF*1000000)

theorem swapsInOrder_of_notBehind {ι : Type} [DecidableEq ι] (windowNs : U64)
    (call : ι → RateCall) (c : RatePool ι) (i : ι) (h : notBehind windowNs call c i = true) :
    SwapsInOrder windowNs call c i := by
  intro _ w hw
  rw [notBehind, hw, Option.all_some, decide_eq_true_eq] at h
  exact ⟨h.1, Or.inl h.2⟩

/-- Two executions, 1.5 s apart, with a window of 1 s and a limit of one. -/
def spacedCalls (late : Bool) : RateCall :=
  ⟨if late then 2500000000 else 1000000000, 1⟩

theorem window_rate_bound_spaced :
    Guarded (Pool.step wordHandler) (SwapsInOrder 1000000000 spacedCalls)
        (rateStart 1000000000 1 spacedCalls) [false, false, true, true, true] ∧
      WindowBound 1000000000 1 spacedCalls ((rateStart 1000000000 1 spacedCalls).run wordHandler
        [false, false, true, true, true]) := by
  have hok : Guarded (Pool.step wordHandler) (SwapsInOrder 1000000000 spacedCalls)
      (rateStart 1000000000 1 spacedCalls) [false, false, true, true, true] :=
    guarded_of_checked _ _ (notBehind 1000000000 spacedCalls)
      (swapsInOrder_of_notBehind 1000000000 spacedCalls) _ _ (by decide)
  exact ⟨hok, window_rate_bound 1000000000 1 spacedCalls _ hok⟩

/-- Two executions that read the clock 1 ms apart; the earlier reading is used last. -/
def staleCalls (stale : Bool) : RateCall :=
  ⟨if stale then 1000000000 else 1001000000, 1⟩

/-- The stale reading is taken for one a window later: it restarts the window at
an earlier start, and a second increment passes under a limit of one. -/
theorem window_rate_stale_restart :
    ¬WindowBound 1000000000 1 staleCalls ((rateStart 1000000000 1 staleCalls).run wordHandler
      [false, false, true, true, true]) := by
  intro h
  have hback := h.start_forward _ _ (List.suffix_refl _) ⟨1001, 1⟩ ⟨1000, 1⟩ (by decide) (by decide)
  exact absurd hback (by decide)

end AutoXdp
