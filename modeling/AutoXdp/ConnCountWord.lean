import AutoXdp.GuardedRun
import AutoXdp.XdpRateLimit
import Mathlib.Tactic.Basic

/-! Any number of counts and checks on one shared connection word, their calls
interleaved in any order. -/
namespace AutoXdp
open AtomicProg AtomicWord GuardedRun

/-- One of the three updates, or a check against a limit. -/
inductive ConnCallKind where
  | update (op : ConnCountOp)
  | check (limit : U32)
  deriving DecidableEq, Repr

/-- What distinguishes one call from another. -/
structure ConnCall where
  kind : ConnCallKind
  now : U64
  timeoutNs : U64
  deriving DecidableEq, Repr

namespace ConnCall

/-- A limit of zero never reaches the word. -/
def prog (c : ConnCall) : Prog wordInterface XdpAction :=
  match c.kind with
  | .update op => do
    sharedConnCountUpdate c.now c.timeoutNs op
    return .pass
  | .check limit =>
    if limit = 0 then return .pass else sharedConnCountCheck c.now c.timeoutNs limit

/-- The tick of the clock reading, before it is cut to 32 bits. -/
def tick (c : ConnCall) : ℕ := c.now.toNat / 100000000

def timeoutTicks (c : ConnCall) : ℕ := (connStateTimeoutTicks c.timeoutNs).toNat

end ConnCall

section Pool

variable {ι : Type} [DecidableEq ι] (call : ι → ConnCall) (tick₀ : ℕ) (count₀ : U32)

abbrev ConnPool (ι : Type) := Pool wordInterface ι (Option U64) XdpAction

def connStart : ConnPool ι :=
  Pool.start (some (statePack (BitVec.ofNat 32 tick₀) count₀)) fun i => (call i).prog

/-- The call changed the word, or wrote the same value again. -/
def Writes : (o : WordOp) → o.Res → Prop
  | .cas old _, r => r = old
  | .swap _, _ => True
  | _, _ => False

instance (o : WordOp) (r : o.Res) : Decidable (Writes o r) := by
  cases o <;> unfold Writes <;> infer_instance

/-- The uncut tick of the stored word: that of the call that wrote it last. -/
def storedTick (log : List (Event wordInterface ι (Option U64))) : ℕ :=
  log.foldr (fun e t => if Writes e.op e.res then (call e.who).tick else t) tick₀

def storedCount (c : ConnPool ι) : ℕ := (stateCount (c.shared.getD 0)).toNat

/-- The stored tick is more than the timeout in the past of thread `i`. -/
def Expired (c : ConnPool ι) (i : ι) : Prop :=
  storedTick call tick₀ c.log + (call i).timeoutTicks < (call i).tick

/-- The clock reading of thread `i` is older than the stored tick by less than the
timeout, if at all. -/
def Recent (c : ConnPool ι) (i : ι) : Prop :=
  storedTick call tick₀ c.log < (call i).tick + (call i).timeoutTicks

/-- The next call of thread `i` is its last one. -/
def Finishes (c : ConnPool ι) (i : ι) (v : XdpAction) : Prop :=
  (c.thread i).result? = none ∧ ((c.step wordHandler i).thread i).result? = some v

/-- Out of attempts, thread `i` saturates the counter. -/
def Saturates (c : ConnPool ι) (i : ι) : Prop := ∃ v, (c.thread i).next? = some (.swap v)

/-- What is asked of the next call of thread `i`: a `RECORD` that ends adds one to a count that
has not expired, and a check passes a count at its limit only if it has. -/
structure Remembers (c : ConnPool ι) (i : ι) : Prop where
  record : (call i).kind = .update .record → (∃ v, Finishes c i v) → ¬Expired call tick₀ c i →
    storedCount (c.step wordHandler i) = min (storedCount c + 1) (2^32 - 1)
  unfinished : (∀ v, ¬Finishes c i v) → (c.step wordHandler i).shared = c.shared
  check : ∀ limit, (call i).kind = .check limit → Finishes c i .pass →
    limit.toNat ≤ storedCount c → Expired call tick₀ c i

/-- Thread `i` does not decide on a live count whose tick is ahead of its clock (a `RECORD`
about to swap, or a check about to read a count that reaches its limit), and a `RECORD` does
not run out of attempts on a count that has not expired and is not next to its maximum. -/
structure CountsInOrder (c : ConnPool ι) (i : ι) : Prop where
  record : (call i).kind = .update .record →
    (∃ old new, (c.thread i).next? = some (.cas old new) ∧ c.shared = some old) →
      storedCount c = 0 ∨ storedTick call tick₀ c.log ≤ (call i).tick
  attempts : (call i).kind = .update .record → Saturates c i →
    Expired call tick₀ c i ∨ 2^32 - 2 ≤ storedCount c
  check : ∀ limit, (call i).kind = .check limit → (c.thread i).next? = some .load →
    storedCount c < limit.toNat ∨ storedTick call tick₀ c.log ≤ (call i).tick

end Pool

/-! The calls one execution can make. -/

/-- The verdict of `shared_conn_count_check` on the word it read. -/
def connVerdict (nowTick timeoutTicks limit : U32) (current : U64) : XdpAction :=
  if stateCount current = 0 then .pass
  else if connStateExpired nowTick (stateTick current) timeoutTicks then .pass
  else if stateCount current ≥ limit then .drop
  else .pass

/-- What the three updates pass on as timeout. -/
def updateTimeoutTicks (op : ConnCountOp) (timeoutNs : U64) : U32 :=
  if op = .record then connStateTimeoutTicks timeoutNs else 0

def ConnNode (c : ConnCall) (_ : Unit) (o : WordOp) (k : o.Res → Prog wordInterface XdpAction) :
    Prop :=
  match c.kind, o, k with
  | .update _, .load, k => ∀ r, (k r).result? = none
  | .update op, .cas old new, k =>
    new = statePack (connStateTick c.now)
      (connNextCount op (connStateTick c.now) (updateTimeoutTicks op c.timeoutNs) old) ∧
    ∀ r, (k r).result? = if r = old then some .pass else none
  | .update _, .swap v, k =>
    v = statePack (connStateTick c.now) 0xFFFFFFFF ∧ ∀ r, (k r).result? = some .pass
  | .check limit, .load, k => limit ≠ 0 ∧ ∀ r, (k r).result? =
    some (connVerdict (connStateTick c.now) (connStateTimeoutTicks c.timeoutNs) limit r)
  | _, _, _ => False

abbrev ConnNodes (c : ConnCall) (p : Prog wordInterface XdpAction) : Prop :=
  Prog.Always (fun _ _ _ => ()) (ConnNode c) () p

theorem connUpdateLoop_running (op : ConnCountOp) (nowTick timeoutTicks : U32) (n : ℕ) :
    (connUpdateLoop op nowTick timeoutTicks n >>= fun _ =>
      (.ret .pass : Prog wordInterface XdpAction)).result? = none := by
  cases n with
  | zero => rfl
  | succ n => rfl

theorem connUpdateLoop_nodes (op : ConnCountOp) (now timeoutNs : U64) (n : ℕ) :
    ConnNodes ⟨.update op, now, timeoutNs⟩
      (connUpdateLoop op (connStateTick now) (updateTimeoutTicks op timeoutNs) n >>=
        fun _ => .ret .pass) := by
  induction n with
  | zero => exact ⟨⟨rfl, fun _ => rfl⟩, fun _ => trivial⟩
  | succ n ih =>
    have hswapped (current r : U64) :
        ((if r = current then .ret () else connUpdateLoop op (connStateTick now)
            (updateTimeoutTicks op timeoutNs) n : Prog wordInterface Unit) >>= fun _ =>
          (.ret .pass : Prog wordInterface XdpAction)) =
        if r = current then .ret .pass else connUpdateLoop op (connStateTick now)
          (updateTimeoutTicks op timeoutNs) n >>= fun _ => .ret .pass := by
      split <;> rfl
    refine ⟨fun _ => rfl, fun current => ⟨⟨rfl, fun r => ?_⟩, fun r => ?_⟩⟩
    · refine (congrArg Prog.result? (hswapped current r)).trans ?_
      split
      · rfl
      · exact connUpdateLoop_running op _ _ n
    · refine (congrArg (ConnNodes _) (hswapped current r)).mpr ?_
      exact Prog.always_ite _ _ _ _ (fun _ => trivial) fun _ => ih

theorem connCall_nodes (c : ConnCall) : ConnNodes c c.prog := by
  obtain ⟨kind, now, timeoutNs⟩ := c
  cases kind with
  | update op => exact connUpdateLoop_nodes op now timeoutNs connStateRetries
  | check limit =>
    refine Prog.always_ite _ _ _ _ (fun _ => trivial) (fun hlimit => ⟨⟨hlimit, fun r => ?_⟩, fun r => ?_⟩)
    · change (if stateCount r = 0 then .ret .pass
        else if connStateExpired _ _ _ then .ret .pass
        else if stateCount r ≥ limit then .ret .drop else .ret .pass :
          Prog wordInterface XdpAction).result? = _
      unfold connVerdict
      split_ifs <;> rfl
    · change ConnNodes _ (if stateCount r = 0 then .ret .pass
        else if connStateExpired _ _ _ then .ret .pass
        else if stateCount r ≥ limit then .ret .drop else .ret .pass)
      split_ifs <;> trivial

/-! Ticks. -/

theorem connStateTick_eq (c : ConnCall) : connStateTick c.now = BitVec.ofNat 32 c.tick := by
  apply BitVec.eq_of_toNat_eq
  simp only [connStateTick, ConnCall.tick, BitVec.toNat_setWidth, BitVec.toNat_ofNat]
  rfl

theorem timeoutTicks_le (c : ConnCall) : c.timeoutTicks ≤ 0x7FFFFFFF := by
  rw [ConnCall.timeoutTicks, connStateTimeoutTicks, clampTicks_toNat _ _ (by decide)]
  omega

/-- A tick found expired is too old or ahead. -/
theorem expired_or_ahead (c : ConnCall) (tick : ℕ)
    (h : connStateExpired (connStateTick c.now) (BitVec.ofNat 32 tick)
      (connStateTimeoutTicks c.timeoutNs) = true) :
    tick + c.timeoutTicks < c.tick ∨ c.tick < tick := by
  rw [connStateExpired, decide_eq_true_eq, connStateTick_eq, gt_iff_lt, BitVec.lt_def,
    BitVec.toNat_sub, BitVec.toNat_ofNat, BitVec.toNat_ofNat] at h
  rw [ConnCall.timeoutTicks]
  omega

/-- A tick that is ahead by less than the timeout is found expired. -/
theorem ahead_expired (c : ConnCall) (tick : ℕ) (hahead : c.tick < tick)
    (hrecent : tick < c.tick + c.timeoutTicks) :
    connStateExpired (connStateTick c.now) (BitVec.ofNat 32 tick)
      (connStateTimeoutTicks c.timeoutNs) = true := by
  have hle := timeoutTicks_le c
  rw [connStateExpired, decide_eq_true_eq, connStateTick_eq, gt_iff_lt, BitVec.lt_def,
    BitVec.toNat_sub, BitVec.toNat_ofNat, BitVec.toNat_ofNat]
  rw [ConnCall.timeoutTicks] at hle hrecent
  omega

/-- A `RECORD` adds one to a count that has not expired, unless it takes a tick that
is ahead for an expired one. -/
theorem record_count (c : ConnCall) (tick : ℕ) (count : U32)
    (hrecent : tick < c.tick + c.timeoutTicks) :
    (¬tick + c.timeoutTicks < c.tick →
      (connNextCount .record (connStateTick c.now) (connStateTimeoutTicks c.timeoutNs)
        (statePack (BitVec.ofNat 32 tick) count)).toNat = min (count.toNat + 1) (2^32 - 1)) ↔
      count.toNat = 0 ∨ tick ≤ c.tick := by
  have hone : ((1 : U32)).toNat = 1 := rfl
  have hzero : count = 0 ↔ count.toNat = 0 := (BitVec.toNat_inj (y := 0)).symm
  have hlt := count.isLt
  simp only [connNextCount, stateCount_pack, stateTick_pack, hzero]
  by_cases hcount : count.toNat = 0
  · simp only [hcount, true_or, ↓reduceIte, hone, iff_true]
    omega
  by_cases hexp : connStateExpired (connStateTick c.now) (BitVec.ofNat 32 tick)
      (connStateTimeoutTicks c.timeoutNs) = true
  · -- a live count restarts at one
    have hcases := expired_or_ahead c tick hexp
    simp only [hcount, hexp, or_true, ↓reduceIte, hone, false_or]
    omega
  · have hahead : tick ≤ c.tick := by
      by_contra hgt
      exact hexp (ahead_expired c tick (Nat.lt_of_not_le hgt) hrecent)
    simp only [hcount, hexp, or_self, Bool.false_eq_true, ↓reduceIte, hahead, or_true, iff_true]
    intro _
    split_ifs with hmax
    · have hmax' : count.toNat < 2^32 - 1 := hmax
      rw [BitVec.toNat_add, hone]
      omega
    · have hmax' : ¬count.toNat < 2^32 - 1 := hmax
      omega

/-- A check that passes a count at the limit found its tick expired or ahead. -/
theorem check_verdict (c : ConnCall) (tick : ℕ) (count limit : U32) (hlimit : limit ≠ 0)
    (hrecent : tick < c.tick + c.timeoutTicks) :
    (connVerdict (connStateTick c.now) (connStateTimeoutTicks c.timeoutNs) limit
        (statePack (BitVec.ofNat 32 tick) count) = .pass →
      limit.toNat ≤ count.toNat → tick + c.timeoutTicks < c.tick) ↔
      count.toNat < limit.toNat ∨ tick ≤ c.tick := by
  have hpos : limit.toNat ≠ 0 := fun h => hlimit (BitVec.eq_of_toNat_eq h)
  have hzero : count = 0 ↔ count.toNat = 0 := (BitVec.toNat_inj (y := 0)).symm
  have hge : count ≥ limit ↔ limit.toNat ≤ count.toNat := Iff.rfl
  simp only [connVerdict, stateCount_pack, stateTick_pack, hzero, hge]
  by_cases hbelow : count.toNat < limit.toNat
  · simp only [hbelow, true_or, iff_true]
    omega
  have hcount : count.toNat ≠ 0 := by omega
  by_cases hexp : connStateExpired (connStateTick c.now) (BitVec.ofNat 32 tick)
      (connStateTimeoutTicks c.timeoutNs) = true
  · have hcases := expired_or_ahead c tick hexp
    simp only [hcount, hexp, ↓reduceIte, forall_const, hbelow, false_or]
    omega
  · have hahead : tick ≤ c.tick := by
      by_contra hgt
      exact hexp (ahead_expired c tick (Nat.lt_of_not_le hgt) hrecent)
    simp only [hcount, hexp, Bool.false_eq_true, ↓reduceIte, Nat.le_of_not_lt hbelow, hahead,
      or_true, reduceCtorEq, false_implies]

/-- A call that writes leaves the tick of its clock reading. -/
theorem connNode_stored (c : ConnCall) (o : WordOp) (k : o.Res → Prog wordInterface XdpAction)
    (h : ConnNode c () o k) (tick : ℕ) (count : U32) :
    let r := wordHandler o (some (statePack (BitVec.ofNat 32 tick) count))
    ∃ count', r.2 =
      some (statePack (BitVec.ofNat 32 (if Writes o r.1 then c.tick else tick)) count') := by
  obtain ⟨kind, now, timeoutNs⟩ := c
  cases o with
  | lookup => cases kind <;> exact h.elim
  | insert v => cases kind <;> exact h.elim
  | load => exact ⟨count, rfl⟩
  | swap v =>
    cases kind with
    | check limit => exact h.elim
    | update op =>
      intro r
      have hwrites : Writes (.swap v) r.1 := trivial
      refine ⟨0xFFFFFFFF, ?_⟩
      rw [if_pos hwrites, ← connStateTick_eq]
      exact congrArg some h.1
  | cas old new =>
    cases kind with
    | check limit => exact h.elim
    | update op =>
      intro r
      by_cases hold : statePack (BitVec.ofNat 32 tick) count = old
      · have hwrites : Writes (.cas old new) r.1 := hold
        refine ⟨connNextCount op (connStateTick now) (updateTimeoutTicks op timeoutNs) old, ?_⟩
        rw [if_pos hwrites, ← connStateTick_eq]
        exact (if_pos (congrArg some hold)).trans (congrArg some h.1)
      · have hwrites : ¬Writes (.cas old new) r.1 := hold
        refine ⟨count, ?_⟩
        rw [if_neg hwrites]
        exact if_neg fun he => hold (Option.some.inj he)

/-! The pool. -/

section Run

variable {ι : Type} [DecidableEq ι] (call : ι → ConnCall) (tick₀ : ℕ) (count₀ : U32)

/-- The word holds the tick of its last writer, and every thread is on a node of its call. -/
structure ConnInv (c : ConnPool ι) : Prop where
  stored : ∃ count, c.shared =
    some (statePack (BitVec.ofNat 32 (storedTick call tick₀ c.log)) count)
  nodes : ∀ i, ConnNodes (call i) (c.thread i)

omit [DecidableEq ι] in
theorem connInv_start : ConnInv call tick₀ (connStart call tick₀ count₀) :=
  ⟨⟨count₀, rfl⟩, fun i => connCall_nodes (call i)⟩

theorem connInv_step (c : ConnPool ι) (i : ι) (hc : ConnInv call tick₀ c) :
    ConnInv call tick₀ (c.step wordHandler i) := by
  obtain ⟨count, hword⟩ := hc.stored
  refine ⟨?_, Pool.always_step (fun _ => ()) wordHandler c i hc.nodes⟩
  cases hi : c.thread i with
  | ret a => rw [Pool.step_of_ret wordHandler c i a hi]; exact hc.stored
  | op o k =>
    have hnode : ConnNode (call i) () o k := (hi ▸ hc.nodes i : ConnNodes (call i) (.op o k)).1
    rw [Pool.step_of_op wordHandler c i o k hi, hword]
    exact connNode_stored (call i) o k hnode _ count

section Step

variable (c : ConnPool ι) (i : ι)

theorem not_finishes_of_ret (a : XdpAction) (hi : c.thread i = .ret a) (v : XdpAction) :
    ¬Finishes c i v := by
  intro h
  rw [Finishes, hi] at h
  exact absurd h.1 nofun

theorem finishes_iff (o : WordOp) (k : o.Res → Prog wordInterface XdpAction)
    (hi : c.thread i = .op o k) (v : XdpAction) :
    Finishes c i v ↔ (k (wordHandler o c.shared).1).result? = some v := by
  rw [Finishes, Pool.step_of_op wordHandler c i o k hi, hi]
  dsimp only
  rw [Function.update_self]
  exact and_iff_right rfl

variable (count : U32)

/-- A thread whose next call decides nothing. -/
theorem remembers_undecided (hfin : ∀ v, ¬Finishes c i v)
    (hshared : (c.step wordHandler i).shared = c.shared) : Remembers call tick₀ c i where
  record := fun _ ⟨v, h⟩ => absurd h (hfin v)
  unfinished := fun _ => hshared
  check := fun _ _ h => absurd h (hfin .pass)

omit [DecidableEq ι] in
theorem countsInOrder_update (op : ConnCountOp) (hkind : (call i).kind = .update op)
    (hnot : ∀ old new, (c.thread i).next? = some (.cas old new) → c.shared ≠ some old)
    (hsat : ¬Saturates c i) : CountsInOrder call tick₀ c i where
  record := fun _ ⟨old, new, hnext, hold⟩ => absurd hold (hnot old new hnext)
  attempts := fun _ h => absurd h hsat
  check := by
    intro limit h
    rw [hkind] at h
    exact absurd h nofun

section Update

variable {op : ConnCountOp} (hkind : (call i).kind = .update op)

include hkind

omit [DecidableEq ι] in
theorem update_no_check (limit : U32) : (call i).kind ≠ .check limit := by
  intro h
  rw [hkind] at h
  exact absurd h nofun

/-- Out of attempts, a `RECORD` adds one only to a count next to the maximum. -/
theorem remembers_swap {v : U64} (k : (WordOp.swap v).Res → Prog wordInterface XdpAction)
    (hi : c.thread i = .op (.swap v) k) (hnode : ConnNode (call i) () (.swap v) k) {w : U64}
    (hword : c.shared = some w) :
    Remembers call tick₀ c i ↔ CountsInOrder call tick₀ c i := by
  unfold ConnNode at hnode
  rw [hkind] at hnode
  have hnext : (c.thread i).next? = some (.swap v) := by rw [hi]; rfl
  have hends : Finishes c i .pass := (finishes_iff c i (.swap v) k hi .pass).mpr (hnode.2 _)
  have hafter : storedCount (c.step wordHandler i) = 2^32 - 1 := by
    rw [storedCount, Pool.step_of_op wordHandler c i (.swap v) k hi, hword, hnode.1]
    exact congrArg BitVec.toNat (stateCount_pack _ _)
  have hlt : storedCount c < 2^32 := BitVec.isLt _
  have hcheck := update_no_check call i hkind
  constructor
  · intro h
    refine ⟨fun _ ⟨old, new, hcas, _⟩ => absurd (hnext.symm.trans hcas) nofun,
      fun hop _ => ?_, fun limit hk => absurd hk (hcheck limit)⟩
    by_contra hlive
    rw [not_or] at hlive
    have hadded := h.record hop ⟨.pass, hends⟩ hlive.1
    omega
  · intro h
    refine ⟨fun hop _ hexp => ?_, fun hnot => absurd hends (hnot .pass),
      fun limit hk => absurd hk (hcheck limit)⟩
    have hfull := (h.attempts hop ⟨v, hnext⟩).resolve_left hexp
    omega

/-- A `RECORD` that wins its compare-and-swap adds one to a live count exactly when the count
is zero or its tick is not ahead. -/
theorem remembers_won {old new : U64}
    (k : (WordOp.cas old new).Res → Prog wordInterface XdpAction)
    (hi : c.thread i = .op (.cas old new) k) (hnode : ConnNode (call i) () (.cas old new) k)
    (hold : c.shared = some old)
    (hword : old = statePack (BitVec.ofNat 32 (storedTick call tick₀ c.log)) count)
    (hrecent : Recent call tick₀ c i) :
    Remembers call tick₀ c i ↔ CountsInOrder call tick₀ c i := by
  unfold ConnNode at hnode
  rw [hkind] at hnode
  have hnext : (c.thread i).next? = some (.cas old new) := by rw [hi]; rfl
  have hwon : Finishes c i .pass := by
    have hres : (wordHandler (.cas old new) c.shared).1 = old := by rw [hold]; rfl
    rw [finishes_iff c i (.cas old new) k hi, hnode.2, if_pos hres]
  have hafter : storedCount (c.step wordHandler i) = (connNextCount op
      (connStateTick (call i).now) (updateTimeoutTicks op (call i).timeoutNs) old).toNat := by
    rw [storedCount, Pool.step_of_op wordHandler c i (.cas old new) k hi, hold, hnode.1]
    exact congrArg BitVec.toNat ((congrArg (fun w => stateCount (Option.getD w 0))
      (if_pos rfl)).trans (stateCount_pack _ _))
  have hcount : storedCount c = count.toNat := by
    rw [storedCount, hold, Option.getD_some, hword, stateCount_pack]
  have hsat : ¬Saturates c i := by
    rintro ⟨v, hv⟩
    exact absurd (hnext.symm.trans hv) nofun
  have hcheck := update_no_check call i hkind
  have hrecord := record_count (call i) (storedTick call tick₀ c.log) count hrecent
  rw [← hword] at hrecord
  constructor
  · intro h
    refine ⟨fun hop _ => ?_, fun _ hs => absurd hs hsat, fun limit hk => absurd hk (hcheck limit)⟩
    obtain rfl : op = .record := ConnCallKind.update.inj (hkind.symm.trans hop)
    rw [hcount]
    apply hrecord.mp
    intro hexp
    rw [← hcount, ← h.record hop ⟨.pass, hwon⟩ hexp, hafter]
    rfl
  · intro h
    refine ⟨fun hop _ hexp => ?_, fun hn => absurd hwon (hn .pass),
      fun limit hk => absurd hk (hcheck limit)⟩
    obtain rfl : op = .record := ConnCallKind.update.inj (hkind.symm.trans hop)
    have hnot := h.record hop ⟨_, new, hnext, hold⟩
    rw [hcount] at hnot
    rw [hafter, hcount]
    exact hrecord.mpr hnot hexp

/-- An update's turn. -/
theorem remembers_update (o : WordOp) (k : o.Res → Prog wordInterface XdpAction)
    (hi : c.thread i = .op o k) (hnode : ConnNode (call i) () o k)
    (hword : c.shared = some (statePack (BitVec.ofNat 32 (storedTick call tick₀ c.log)) count))
    (hrecent : Recent call tick₀ c i) :
    Remembers call tick₀ c i ↔ CountsInOrder call tick₀ c i := by
  have hnext : (c.thread i).next? = some o := by rw [hi]; rfl
  have hfin := finishes_iff c i o k hi
  have hshared : (c.step wordHandler i).shared = (wordHandler o c.shared).2 := by
    rw [Pool.step_of_op wordHandler c i o k hi]
  cases o with
  | lookup | insert v =>
    unfold ConnNode at hnode
    rw [hkind] at hnode
    exact hnode.elim
  | load =>
    -- the word is read, and nothing is decided yet
    have hnot : ∀ v, ¬Finishes c i v := by
      intro v h
      unfold ConnNode at hnode
      rw [hkind] at hnode
      rw [hfin, hnode] at h
      exact absurd h nofun
    refine iff_of_true (remembers_undecided call tick₀ c i hnot hshared)
      (countsInOrder_update call tick₀ c i op hkind ?_ ?_)
    · intro old new hcas
      exact absurd (hnext.symm.trans hcas) nofun
    · rintro ⟨v, hv⟩
      exact absurd (hnext.symm.trans hv) nofun
  | swap v => exact remembers_swap call tick₀ c i hkind k hi hnode hword
  | cas old new =>
    by_cases hold : c.shared = some old
    · have hpacked := Option.some.inj (hold.symm.trans hword)
      exact remembers_won call tick₀ c i count hkind k hi hnode hold hpacked hrecent
    · -- another word is stored by now: the loop goes on
      have hres : (wordHandler (.cas old new) c.shared).1 ≠ old := by
        rw [hword] at hold ⊢
        exact fun h => hold (congrArg some h)
      have hnot : ∀ v, ¬Finishes c i v := by
        intro v h
        unfold ConnNode at hnode
        rw [hkind] at hnode
        rw [hfin, hnode.2, if_neg hres] at h
        exact absurd h nofun
      refine iff_of_true (remembers_undecided call tick₀ c i hnot ?_)
        (countsInOrder_update call tick₀ c i op hkind ?_ ?_)
      · rw [hshared]
        exact if_neg hold
      · intro old' new' hcas hold'
        obtain ⟨rfl, -⟩ := WordOp.cas.inj (Option.some.inj (hnext.symm.trans hcas))
        exact hold hold'
      · rintro ⟨v, hv⟩
        exact absurd (hnext.symm.trans hv) nofun

end Update

/-- A check's turn. -/
theorem remembers_check (limit : U32) (hkind : (call i).kind = .check limit) (o : WordOp)
    (k : o.Res → Prog wordInterface XdpAction) (hi : c.thread i = .op o k)
    (hnode : ConnNode (call i) () o k)
    (hword : c.shared = some (statePack (BitVec.ofNat 32 (storedTick call tick₀ c.log)) count))
    (hrecent : Recent call tick₀ c i) :
    Remembers call tick₀ c i ↔ CountsInOrder call tick₀ c i := by
  have hcount : storedCount c = count.toNat := by
    rw [storedCount, hword, Option.getD_some, stateCount_pack]
  have hupdate : (call i).kind ≠ .update .record := by
    intro h
    rw [hkind] at h
    exact absurd h nofun
  have hnext : (c.thread i).next? = some o := by rw [hi]; rfl
  have hfin := finishes_iff c i o k hi
  unfold ConnNode at hnode
  rw [hkind] at hnode
  cases o with
  | lookup => exact hnode.elim
  | insert v => exact hnode.elim
  | cas old new => exact hnode.elim
  | swap v => exact hnode.elim
  | load =>
    have hpass : Finishes c i .pass ↔ connVerdict (connStateTick (call i).now)
        (connStateTimeoutTicks (call i).timeoutNs) limit
        (statePack (BitVec.ofNat 32 (storedTick call tick₀ c.log)) count) = .pass := by
      rw [hfin, hnode.2, hword]
      exact Option.some_inj
    have hverdict := check_verdict (call i) (storedTick call tick₀ c.log) count limit hnode.1 hrecent
    constructor
    · intro h
      refine ⟨fun hop => absurd hop hupdate, fun hop => absurd hop hupdate, fun limit' hk _ => ?_⟩
      obtain rfl : limit = limit' := ConnCallKind.check.inj (hkind.symm.trans hk)
      rw [hcount]
      apply hverdict.mp
      intro hv hle
      exact h.check limit hk (hpass.mpr hv) (hcount ▸ hle)
    · intro h
      refine ⟨fun hop => absurd hop hupdate, fun _ => ?_, fun limit' hk hp hle => ?_⟩
      · rw [Pool.step_of_op wordHandler c i .load k hi]
        rfl
      · obtain rfl : limit = limit' := ConnCallKind.check.inj (hkind.symm.trans hk)
        have hnot := h.check limit hk hnext
        rw [hcount] at hnot hle
        exact hverdict.mpr hnot (hpass.mp hp) hle

end Step

/-- A thread decides right on a recent word exactly when it decides in order. -/
theorem remembers_iff (c : ConnPool ι) (i : ι) (hc : ConnInv call tick₀ c)
    (hrecent : Recent call tick₀ c i) :
    Remembers call tick₀ c i ↔ CountsInOrder call tick₀ c i := by
  obtain ⟨count, hword⟩ := hc.stored
  cases hi : c.thread i with
  | ret a =>
    have hnext : (c.thread i).next? = none := by rw [hi]; rfl
    refine iff_of_true (remembers_undecided call tick₀ c i (not_finishes_of_ret c i a hi) ?_)
      ⟨?_, ?_, ?_⟩
    · rw [Pool.step_of_ret wordHandler c i a hi]
    · rintro _ ⟨old, new, hcas, -⟩
      exact absurd (hnext.symm.trans hcas) nofun
    · rintro _ ⟨v, hv⟩
      exact absurd (hnext.symm.trans hv) nofun
    · intro _ _ hload
      exact absurd (hnext.symm.trans hload) nofun
  | op o k =>
    have hnode : ConnNode (call i) () o k := (hi ▸ hc.nodes i : ConnNodes (call i) (.op o k)).1
    cases hkind : (call i).kind with
    | update op => exact remembers_update call tick₀ c i count hkind o k hi hnode hword hrecent
    | check limit =>
      exact remembers_check call tick₀ c i count limit hkind o k hi hnode hword hrecent

/-- Along any interleaving, no live count is forgotten by a call whose clock reading is
recent exactly when no such call decides on a word that is ahead of it, or runs out of
attempts on a live count. -/
theorem conn_count_remembers (sched : List ι) :
    Guarded (Pool.step wordHandler)
        (fun c i => Recent call tick₀ c i → Remembers call tick₀ c i)
        (connStart call tick₀ count₀) sched ↔
      Guarded (Pool.step wordHandler)
        (fun c i => Recent call tick₀ c i → CountsInOrder call tick₀ c i)
        (connStart call tick₀ count₀) sched :=
  guarded_congr_of_inv (Pool.step wordHandler) (ConnInv call tick₀)
    (fun c i => connInv_step call tick₀ c i)
    (fun c i hc => imp_congr_right fun hrecent => remembers_iff call tick₀ c i hc hrecent)
    _ sched (connInv_start call tick₀ count₀)

end Run

/-- Two `RECORD`s that read the clock 0.1 s apart; the earlier reading is used last. -/
def staleRecords (stale : Bool) : ConnCall :=
  ⟨.update .record, if stale then 1000000000 else 1100000000, 300000000000⟩

/-- The word counts five connections, then six; the stale reading restarts it at one. -/
theorem conn_count_forgotten :
    ¬∀ sched : List Bool, Guarded (Pool.step wordHandler)
      (fun c i => Recent staleRecords 9 c i → Remembers staleRecords 9 c i)
      (connStart staleRecords 9 5) sched := by
  intro h
  have hrun := h [false, false, true, true]
  have hrecord := (hrun.2.2.2.1 (by unfold Recent; decide +kernel)).record rfl
    ⟨.pass, by unfold Finishes; decide +kernel⟩ (by unfold Expired; decide +kernel)
  exact absurd hrecord (by decide +kernel)

end AutoXdp
