import AutoXdp.CtFrames
import AutoXdp.CtHeap
import AutoXdp.GuardedRun
import Mathlib.Tactic.Basic

/-! One TCP flow under any interleaving of inbound and outbound segments, call by
call, on the shared heap. -/
namespace AutoXdp
open AtomicProg GuardedRun

/-- A segment of the flow: inbound at XDP, or outbound at tc. -/
inductive Segment where
  | inbound (flags : U8)
  | outbound (flags : U8)

def Segment.isOutbound : Segment → Bool
  | .inbound _ => false
  | .outbound _ => true

/-- `key` is the tuple of the inbound segments. -/
def segmentProgram (key : FlowKey) : Segment → DpProg ℕ XdpAction
  | .inbound flags => checkTcpFlow key flags
  | .outbound flags => do
    tcTcp key flags
    return .pass

def SegmentNode (key : FlowKey) :
    Segment → List (DpCall ℕ) → (o : DpOp ℕ) → (o.Res → DpProg ℕ XdpAction) → Prop
  | .inbound flags, H, o, next => XdpTcpNode key flags H o next
  | .outbound flags, H, o, _ => TcTcpNode key flags H o

theorem segment_nodes (key : FlowKey) (seg : Segment) :
    Prog.Always Prog.push (SegmentNode key seg) [] (segmentProgram key seg) := by
  cases seg with
  | inbound flags => exact checkTcpFlow_nodes key flags [] rfl
  | outbound flags => exact Prog.always_map [] _ XdpAction.pass (tcTcp_nodes key flags)

def established (w : Option U64) : Bool := w.any fun raw => !isPending raw

def halfOpen (w : Option U64) : Bool := w.any isPending

def recordsEstablished : DpOp ℕ → Bool
  | .recordEstablished _ _ _ _ => true
  | _ => false

def recordsClose : DpOp ℕ → Bool
  | .recordClose _ _ _ => true
  | _ => false

section Flow

variable {ι ε : Type} (key : FlowKey)

abbrev FlowEvent (ι ε : Type) := Event (dpInterface ℕ) ι (CtHeap × ε)

abbrev FlowPool (ι ε : Type) := Pool (dpInterface ℕ) ι (CtHeap × ε) XdpAction

/-- The entry of the flow turned from half-open to established. -/
def promotes (e : FlowEvent ι ε) : Bool :=
  halfOpen (e.pre.1.find .tcp key) && established (e.post.1.find .tcp key)

/-- An established entry disappeared. -/
def vanishes (e : FlowEvent ι ε) : Bool :=
  established (e.pre.1.find .tcp key) && !established (e.post.1.find .tcp key)

/-- An established entry turned half-open. -/
def demotes (e : FlowEvent ι ε) : Bool :=
  established (e.pre.1.find .tcp key) && halfOpen (e.post.1.find .tcp key)

/-- The word that the run read last. -/
def lastRead (H : List (DpCall ℕ)) : Option U64 := (wordsRead H).head?.map Prod.fst

/-- A call acts on what the flow's entry is now: an inbound delete finds an
established entry just when the word it read was established, a write keeps the
pending bit of the entry, and a swap that finds its word finds it in the entry. -/
def actsOnEntry (seg : Segment) (H : List (DpCall ℕ)) (s : CtHeap) : DpOp ℕ → Bool
  | .ctDelete _ _ =>
    seg.isOutbound || established (lastRead H) == established (s.find .tcp key)
  | .ctUpdate _ _ v _ => (s.find .tcp key).all fun w => isPending v == isPending w
  | .ctCas p old _ => s.word p != old || s.table .tcp key == some p
  | _ => true

variable [DecidableEq ι]

/-- How many calls of one segment satisfy `f`. -/
def callCount (f : FlowEvent ι ε → Bool) (log : List (FlowEvent ι ε)) (i : ι) : ℕ :=
  log.countP fun e => decide (e.who = i) && f e

/-- One, if the next call of the segment satisfies `f`. -/
def owed (f : DpOp ℕ → Bool) (p : DpProg ℕ XdpAction) : ℕ := if p.next?.any f then 1 else 0

/-- Every promotion is recorded once, an established entry turns half-open only
when a `SYN` is admitted, and every established entry that an inbound segment made
disappear is closed once. A segment that is about to record owes that record. -/
structure RecordedOnce (seg : ι → Segment) (c : FlowPool ι ε) : Prop where
  recorded : ∀ i, callCount (fun e => recordsEstablished e.op) c.log i +
    owed recordsEstablished (c.thread i) = callCount (promotes key) c.log i
  half_open_by_syn : ∀ e ∈ c.log, demotes key e = true → ∃ flags v,
    seg e.who = .inbound flags ∧ isSynOnly flags = true ∧ e.op = .ctUpdate .tcp key v .any
  closed : ∀ i flags, seg i = .inbound flags →
    callCount (fun e => recordsClose e.op) c.log i + owed recordsClose (c.thread i) =
      callCount (vanishes key) c.log i

def segmentPool (seg : ι → Segment) (s : CtHeap × ε) : FlowPool ι ε :=
  Pool.start s fun i => segmentProgram key (seg i)

/-- The next call of segment `i` acts on the entry as it is. -/
def nextActsOnEntry (seg : ι → Segment) (c : FlowPool ι ε) (i : ι) : Bool :=
  match c.thread i with
  | .ret _ => true
  | .op o _ => actsOnEntry key (seg i) (Pool.calls c.log i) c.shared.1 o

/-! One call. -/

omit [DecidableEq ι]

theorem lastRead_justRead (H : List (DpCall ℕ)) (p : ℕ) (raw : U64)
    (h : JustRead key H p raw) : lastRead H = some raw := by
  rw [lastRead, justRead_words key H p raw h]
  rfl

section Call

variable (env : (o : DpOp ℕ) → ε → o.Res × ε) (s : CtHeap × ε) (flags : U8)
  (H : List (DpCall ℕ)) (o : DpOp ℕ) (next : o.Res → DpProg ℕ XdpAction)

/-- A call other than a swap or a delete leaves an entry of the same kind. -/
theorem kind_kept (seg : Segment) (hnode : SegmentNode key seg H o next)
    (hok : actsOnEntry key seg H s.1 o = true) (hcas : ∀ p old new, o ≠ .ctCas p old new)
    (hdel : ∀ m k, o ≠ .ctDelete m k) (w : U64) (hw : s.1.find .tcp key = some w) :
    ∃ v, (heapHandler env o s).2.1.find .tcp key = some v ∧ isPending v = isPending w := by
  cases o with
  | ctCas p old new => exact absurd rfl (hcas p old new)
  | ctDelete m k => exact absurd rfl (hdel m k)
  | ctUpdate m k v flag =>
    obtain ⟨rfl, rfl⟩ : m = .tcp ∧ k = key := by
      cases seg with
      | inbound flags => exact ⟨hnode.1, hnode.2.1⟩
      | outbound flags => exact ⟨hnode.1, hnode.2.1⟩
    rcases s.1.find_update .tcp k v flag with h | h
    · rw [actsOnEntry, hw, Option.all_some, beq_iff_eq] at hok
      exact ⟨v, h, hok⟩
    · exact ⟨w, h.trans hw, rfl⟩
  | _ => exact ⟨w, hw, rfl⟩

/-- The entry before and after one call. -/
inductive EntryChange (before after : CtHeap) : DpOp ℕ → Prop
  | same (o : DpOp ℕ) (h : established (before.find .tcp key) = true →
        established (after.find .tcp key) = true)
      (h' : halfOpen (before.find .tcp key) = true → halfOpen (after.find .tcp key) = true)
      (hcas : ∀ p old new, o = .ctCas p old new → before.word p ≠ old)
      (hdel : ∀ m k, o ≠ .ctDelete m k) : EntryChange before after o
  | deleted (h : after.find .tcp key = none) : EntryChange before after (.ctDelete .tcp key)
  | promoted (p : ℕ) (old new : U64) (hw : before.word p = old) (h : halfOpen (before.find .tcp key) = true)
      (h' : established (after.find .tcp key) = true) :
      EntryChange before after (.ctCas p old new)

/-- What one call does to the entry of the flow. -/
theorem entryChange (seg : Segment) (hnode : SegmentNode key seg H o next)
    (hok : actsOnEntry key seg H s.1 o = true)
    (hclock : ∀ now, ⟨.ktimeGetNs, now⟩ ∈ H → now.toNat < 2^63) :
    EntryChange key s.1 (heapHandler env o s).2.1 o := by
  cases o with
  | ctCas p old new =>
    cases seg with
    | outbound flags => exact hnode.elim
    | inbound flags =>
      obtain ⟨-, hpend, -, cfg, hu, -⟩ := hnode
      by_cases hw : s.1.word p = old
      · have hp : s.1.table .tcp key = some p := by
          simpa [actsOnEntry, hw] using hok
        have hnew := isPending_of_lt new (hclock new (inUse_mem H new cfg hu).1)
        refine .promoted p old new hw ?_ ?_
        · simp only [CtHeap.find, hp, Option.map_some, halfOpen, Option.any_some, hw, hpend]
        · change established ((s.1.swap p old new).find .tcp key) = true
          rw [s.1.find_swap_self .tcp key p old new hp hw]
          simp only [established, Option.any_some, hnew, Bool.not_false]
      · have hfind : (s.1.swap p old new).find .tcp key = s.1.find .tcp key :=
          s.1.find_swap_other .tcp key p old new fun h => hw h.1
        refine .same _ (fun h => ?_) (fun h => ?_) ?_ (by rintro _ _ ⟨⟩)
        · exact (congrArg established hfind).trans h
        · exact (congrArg halfOpen hfind).trans h
        · intro q old' new' heq
          obtain ⟨rfl, rfl, -⟩ := DpOp.ctCas.inj heq
          exact hw
  | ctDelete m k =>
    obtain ⟨rfl, rfl⟩ : m = .tcp ∧ k = key := by
      cases seg with
      | inbound flags => exact ⟨hnode.1, hnode.2.1⟩
      | outbound flags => exact ⟨hnode.1, hnode.2.1⟩
    exact .deleted (s.1.find_remove .tcp k)
  | _ =>
    have hkept := kind_kept key env s H _ next seg hnode hok (by rintro _ _ _ ⟨⟩) (by rintro _ _ ⟨⟩)
    refine .same _ (fun h => ?_) (fun h => ?_) (by rintro _ _ _ ⟨⟩) (by rintro _ _ ⟨⟩)
    · obtain ⟨w, hw, hest⟩ := (Option.any_eq_true ..).mp h
      obtain ⟨v, hv, hvw⟩ := hkept w hw
      rw [hv, established, Option.any_some, hvw]
      exact hest
    · obtain ⟨w, hw, hhalf⟩ := (Option.any_eq_true ..).mp h
      obtain ⟨v, hv, hvw⟩ := hkept w hw
      rw [hv, halfOpen, Option.any_some, hvw]
      exact hhalf

omit [DecidableEq ι] in
theorem not_established_of_halfOpen (w : Option U64) (h : halfOpen w = true) :
    established w = false := by
  cases w with
  | none => rfl
  | some raw =>
    rw [halfOpen, Option.any_some] at h
    rw [established, Option.any_some, h, Bool.not_true]

/-- A segment records a promotion only right after its swap succeeded. -/
theorem recordsEstablished_after (seg : Segment) (r : o.Res)
    (hnext : Prog.Always Prog.push (SegmentNode key seg) (⟨o, r⟩ :: H) (next r))
    (h : (next r).next?.any recordsEstablished = true) :
    ∃ p old new, (⟨o, r⟩ : DpCall ℕ) = ⟨.ctCas p old new, old⟩ := by
  cases hn : next r with
  | ret a => simp only [hn, Prog.next_ret, Option.any_none, Bool.false_eq_true] at h
  | op o' k =>
    rw [hn, Prog.always_op] at hnext
    rw [hn, Prog.next_op, Option.any_some] at h
    cases o' with
    | recordEstablished k' now destPort cfg =>
      cases seg with
      | outbound flags => exact hnext.1.elim
      | inbound flags =>
        obtain ⟨-, -, p, old, H', heq, -, -⟩ := hnext.1
        exact ⟨p, old, now, (List.cons.inj heq).1⟩
    | _ => exact absurd h nofun

/-- An inbound segment records a close only right after it deleted the entry in
which it read an established word. -/
theorem recordsClose_after (r : o.Res)
    (hnext : Prog.Always Prog.push (XdpTcpNode key flags) (⟨o, r⟩ :: H) (next r))
    (h : (next r).next?.any recordsClose = true) :
    (∃ b, (⟨o, r⟩ : DpCall ℕ) = ⟨.ctDelete .tcp key, b⟩) ∧ established (lastRead H) = true := by
  cases hn : next r with
  | ret a => simp only [hn, Prog.next_ret, Option.any_none, Bool.false_eq_true] at h
  | op o' k =>
    rw [hn, Prog.always_op] at hnext
    rw [hn, Prog.next_op, Option.any_some] at h
    cases o' with
    | recordClose k' now destPort =>
      obtain ⟨-, -, p, raw, b, H', heq, hread, -, hraw⟩ := hnext.1
      obtain ⟨hhead, rfl⟩ := List.cons.inj heq
      refine ⟨⟨b, hhead⟩, ?_⟩
      rw [lastRead_justRead key H p raw hread, established, Option.any_some, hraw, Bool.not_false]
    | _ => exact absurd h nofun

/-- After a call that turned the entry from half-open to established, and only then,
the segment is about to record it. -/
theorem owes_record_iff (seg : Segment) (hnode : SegmentNode key seg H o next)
    (hnext : Prog.Always Prog.push (SegmentNode key seg) (⟨o, (heapHandler env o s).1⟩ :: H)
      (next (heapHandler env o s).1))
    (hchange : EntryChange key s.1 (heapHandler env o s).2.1 o) :
    (next (heapHandler env o s).1).next?.any recordsEstablished =
      (halfOpen (s.1.find .tcp key) &&
        established ((heapHandler env o s).2.1.find .tcp key)) := by
  have hafter := recordsEstablished_after key H o next seg _ hnext
  cases hchange with
  | same o hest hhalf hcas hdel =>
    have hno : (next (heapHandler env o s).1).next?.any recordsEstablished = false := by
      rw [← Bool.not_eq_true]
      intro h
      obtain ⟨p, old, new, heq⟩ := hafter h
      obtain ⟨rfl, hr⟩ := Prog.Call.mk.inj heq
      exact hcas p old new rfl (eq_of_heq hr)
    rw [hno]
    cases hpre : halfOpen (s.1.find .tcp key) with
    | false => rfl
    | true => rw [not_established_of_halfOpen _ (hhalf hpre), Bool.and_false]
  | deleted hnone =>
    have hno : (next (heapHandler env (.ctDelete .tcp key) s).1).next?.any recordsEstablished =
        false := by
      rw [← Bool.not_eq_true]
      intro h
      obtain ⟨p, old, new, heq⟩ := hafter h
      exact absurd (congrArg Prog.Call.op heq) nofun
    rw [hno, hnone, established, Option.any_none, Bool.and_false]
  | promoted p old new hw hpre hpost =>
    cases seg with
    | outbound flags => exact hnode.elim
    | inbound flags =>
      obtain ⟨-, -, -, cfg, -, -, hrecord⟩ := hnode
      have hres : (heapHandler env (.ctCas p old new) s).1 = old := hw
      rw [hpre, hpost, hres, hrecord]
      rfl

/-- After a call of an inbound segment that made an established entry disappear,
and only then, the segment is about to record its close. -/
theorem owes_close_iff (hnode : XdpTcpNode key flags H o next)
    (hnext : Prog.Always Prog.push (XdpTcpNode key flags) (⟨o, (heapHandler env o s).1⟩ :: H)
      (next (heapHandler env o s).1))
    (hok : actsOnEntry key (.inbound flags) H s.1 o = true)
    (hchange : EntryChange key s.1 (heapHandler env o s).2.1 o) :
    (next (heapHandler env o s).1).next?.any recordsClose =
      (established (s.1.find .tcp key) &&
        !established ((heapHandler env o s).2.1.find .tcp key)) := by
  have hafter := recordsClose_after key flags H o next _ hnext
  cases hchange with
  | same o hest hhalf hcas hdel =>
    have hno : (next (heapHandler env o s).1).next?.any recordsClose = false := by
      rw [← Bool.not_eq_true]
      intro h
      obtain ⟨⟨b, heq⟩, -⟩ := hafter h
      exact hdel .tcp key (congrArg Prog.Call.op heq)
    rw [hno]
    cases hpre : established (s.1.find .tcp key) with
    | false => rfl
    | true => rw [hest hpre, Bool.not_true, Bool.and_false]
  | deleted hnone =>
    rw [hnone]
    change _ = (established (s.1.find .tcp key) && true)
    rw [actsOnEntry, Segment.isOutbound, Bool.false_or, beq_iff_eq] at hok
    rw [Bool.and_true, ← hok]
    obtain ⟨-, -, p, raw, hread, -, hclose⟩ := hnode
    rw [lastRead_justRead key H p raw hread, established, Option.any_some] at hafter ⊢
    cases hraw : isPending raw with
    | false =>
      obtain ⟨now, hnow⟩ := hclose hraw (heapHandler env (.ctDelete .tcp key) s).1
      rw [hnow]
      rfl
    | true =>
      rw [Bool.not_true, ← Bool.not_eq_true]
      intro h
      have := (hafter h).2
      rw [hraw] at this
      exact absurd this nofun
  | promoted p old new hw hpre hpost =>
    have hno : (next (heapHandler env (.ctCas p old new) s).1).next?.any recordsClose = false := by
      rw [← Bool.not_eq_true]
      intro h
      obtain ⟨⟨b, heq⟩, -⟩ := hafter h
      exact absurd (congrArg Prog.Call.op heq) nofun
    rw [hno, hpost, Bool.not_true, Bool.and_false]

end Call

theorem not_demotes (before after : CtHeap) (o : DpOp ℕ) (h : EntryChange key before after o) :
    (established (before.find .tcp key) && halfOpen (after.find .tcp key)) = false := by
  cases h with
  | same o hest hhalf hcas hdel =>
    cases hpost : halfOpen (after.find .tcp key) with
    | false => rw [Bool.and_false]
    | true =>
      cases hpre : established (before.find .tcp key) with
      | false => rfl
      | true => exact absurd ((not_established_of_halfOpen _ hpost).symm.trans (hest hpre)) nofun
  | deleted hnone => rw [hnone, halfOpen, Option.any_none, Bool.and_false]
  | promoted p old new hw hpre hpost => rw [not_established_of_halfOpen _ hpre, Bool.false_and]

/-! The whole pool. -/

variable [DecidableEq ι]

theorem callCount_cons (f : FlowEvent ι ε → Bool) (e : FlowEvent ι ε) (log : List (FlowEvent ι ε))
    (i : ι) : callCount f (e :: log) i =
      callCount f log i + if e.who = i ∧ f e = true then 1 else 0 := by
  simp only [callCount, List.countP_cons, Bool.and_eq_true, decide_eq_true_eq]

section Run

variable (env : (o : DpOp ℕ) → ε → o.Res × ε) (seg : ι → Segment)

/-- What every call of the pool keeps. -/
structure OnceInv (c : FlowPool ι ε) : Prop where
  nodes : ∀ i, Prog.Always Prog.push (SegmentNode key (seg i)) (Pool.calls c.log i) (c.thread i)
  clock : ∀ i now, ⟨.ktimeGetNs, now⟩ ∈ Pool.calls c.log i → now.toNat < 2^63
  once : RecordedOnce key seg c

omit [DecidableEq ι] in
theorem owed_start (i : ι) : owed recordsEstablished (segmentProgram key (seg i)) = 0 ∧
    owed recordsClose (segmentProgram key (seg i)) = 0 := by
  have hnode := segment_nodes key (seg i)
  cases hp : segmentProgram key (seg i) with
  | ret a => exact ⟨rfl, rfl⟩
  | op o k =>
    rw [hp, Prog.always_op] at hnode
    have hfirst := hnode.1
    cases o with
    | recordEstablished k' now destPort cfg =>
      cases hs : seg i with
      | outbound flags => rw [hs] at hfirst; exact hfirst.elim
      | inbound flags =>
        rw [hs] at hfirst
        obtain ⟨-, -, p, old, H', heq, -⟩ := hfirst
        exact absurd heq nofun
    | recordClose k' now destPort =>
      cases hs : seg i with
      | outbound flags => rw [hs] at hfirst; exact hfirst.elim
      | inbound flags =>
        rw [hs] at hfirst
        obtain ⟨-, -, p, raw, b, H', heq, -⟩ := hfirst
        exact absurd heq nofun
    | _ => exact ⟨rfl, rfl⟩

theorem onceInv_start (s : CtHeap × ε) : OnceInv key seg (segmentPool key seg s) where
  nodes i := segment_nodes key (seg i)
  clock _ _ hm := absurd hm List.not_mem_nil
  once :=
    { recorded := fun i => (Nat.zero_add _).trans (owed_start key seg i).1
      half_open_by_syn := fun _ hm => absurd hm List.not_mem_nil
      closed := fun i _ _ => (Nat.zero_add _).trans (owed_start key seg i).2 }

theorem onceInv_step (hclock : ∀ x, (env .ktimeGetNs x).1.toNat < 2^63) (c : FlowPool ι ε) (i : ι)
    (hc : OnceInv key seg c) (hok : nextActsOnEntry key seg c i = true) :
    OnceInv key seg (Pool.step (heapHandler env) c i) := by
  have hnodes := Pool.always_step (fun _ => []) (heapHandler env) c i hc.nodes
  cases hi : c.thread i with
  | ret a =>
    rw [Pool.step_of_ret _ c i a hi]
    exact hc
  | op o next =>
    have hnode := hc.nodes i
    rw [hi] at hnode
    have hact : actsOnEntry key (seg i) (Pool.calls c.log i) c.shared.1 o = true := by
      rwa [nextActsOnEntry, hi] at hok
    have hchange := entryChange key env c.shared _ o next (seg i) hnode.1 hact (hc.clock i)
    have hcalls := fun j => Pool.calls_step (heapHandler env) c i j o next hi
    refine ⟨hnodes, ?_, ?_⟩
    · intro j now hm
      rw [hcalls] at hm
      split at hm
      · subst j
        rcases List.mem_cons.mp hm with heq | hm
        · obtain ⟨rfl, hr⟩ := Prog.Call.mk.inj heq
          rw [eq_of_heq hr]
          exact hclock _
        · exact hc.clock i now hm
      · exact hc.clock j now hm
    · rw [Pool.step_of_op _ c i o next hi]
      refine ⟨fun j => ?_, fun e hm hd => ?_, fun j flags hseg => ?_⟩
      · have hold := hc.once.recorded j
        simp only [callCount_cons]
        by_cases hj : i = j
        · subst hj
          have howes := owes_record_iff key env c.shared _ o next (seg i) hnode.1 (hnode.2 _) hchange
          simp only [Function.update_self, promotes, true_and, owed, howes]
          simp only [hi, owed, Prog.next_op, Option.any_some] at hold
          omega
        · simp only [hj, false_and, ↓reduceIte, Function.update_of_ne (Ne.symm hj), Nat.add_zero]
          exact hold
      · rcases List.mem_cons.mp hm with rfl | hm
        · exact absurd ((not_demotes key _ _ o hchange).symm.trans hd) nofun
        · exact hc.once.half_open_by_syn e hm hd
      · have hold := hc.once.closed j flags hseg
        simp only [callCount_cons]
        by_cases hj : i = j
        · subst hj
          rw [hseg] at hnode hact
          have howes := owes_close_iff key env c.shared flags _ o next hnode.1 (hnode.2 _) hact hchange
          simp only [Function.update_self, vanishes, true_and, owed, howes]
          simp only [hi, owed, Prog.next_op, Option.any_some] at hold
          omega
        · simp only [hj, false_and, ↓reduceIte, Function.update_of_ne (Ne.symm hj), Nat.add_zero]
          exact hold

/-- In every interleaving in which each swap, write and delete acts on the entry as
it is then, every promotion is recorded exactly once, an established entry turns
half-open by the admission of a `SYN` only, and every established entry that an
inbound segment made disappear is closed exactly once. -/
theorem recorded_once (hclock : ∀ x, (env .ktimeGetNs x).1.toNat < 2^63) (s : CtHeap × ε)
    (sched : List ι) (hok : Guarded (Pool.step (heapHandler env))
      (fun c i => nextActsOnEntry key seg c i = true) (segmentPool key seg s) sched) :
    RecordedOnce key seg ((segmentPool key seg s).run (heapHandler env) sched) :=
  (invariant_run (Pool.step (heapHandler env)) _ (OnceInv key seg)
    (fun c i => onceInv_step key env seg hclock c i) _ sched (onceInv_start key seg s) hok).once

end Run

end Flow

instance (o : DpOp ℕ) : Inhabited o.Res := by
  cases o <;> first | infer_instance | exact ⟨XdpAction.pass⟩

/-- A host with open ports and nothing else in its maps, whose clock counts seconds. -/
def openEnv : (o : DpOp ℕ) → ℕ → o.Res × ℕ
  | .ktimeGetNs, n => (BitVec.ofNat 64 (n % 1000*1000000000), n + 1)
  | .whitelist _ _, n => (some 1, n)
  | _, n => (default, n)

theorem openEnv_clock (n : ℕ) : (openEnv .ktimeGetNs n).1.toNat < 2^63 := by
  have hlt : n % 1000 < 1000 := Nat.mod_lt _ (by decide)
  simp only [openEnv, BitVec.toNat_ofNat]
  exact (Nat.mod_le _ _).trans_lt (by omega)

/-- A `SYN`, an `ACK`, and two `RST`s of one connection. -/
def fourSegments (i : Fin 4) : Segment :=
  .inbound (if i = 0 then 0x02 else if i = 1 then 0x10 else 0x14)

def oneFlow : FlowKey := .v4 40000 80 0x08080808 0x01020304

/-- The `SYN`, then the `ACK`; then one `RST` after the other. -/
def inTurn : List (Fin 4) :=
  List.replicate 30 0 ++ List.replicate 20 1 ++ List.replicate 20 2 ++ List.replicate 20 3

theorem recorded_once_in_turn :
    RecordedOnce oneFlow fourSegments
      ((segmentPool oneFlow fourSegments (CtHeap.empty, 0)).run (heapHandler openEnv) inTurn) :=
  recorded_once oneFlow openEnv fourSegments openEnv_clock (CtHeap.empty, 0) inTurn
    (guarded_of_checked _ _ (nextActsOnEntry oneFlow fourSegments) (fun _ _ h => h) _ _
      (by decide +kernel))

/-- The `SYN`, then the `ACK`; then both `RST`s read the entry before either deletes it. -/
def resetTwice : List (Fin 4) :=
  List.replicate 30 0 ++ List.replicate 20 1 ++ [2, 2, 2, 2, 3, 3, 3, 3] ++
    List.replicate 3 2 ++ List.replicate 3 3

/-- The second `RST` closes a connection that is no longer there. -/
theorem closed_twice :
    ¬RecordedOnce oneFlow fourSegments
      ((segmentPool oneFlow fourSegments (CtHeap.empty, 0)).run (heapHandler openEnv) resetTwice) := by
  intro h
  have hclosed := h.closed 3 0x14 rfl
  have hcloses : callCount (fun e => recordsClose e.op)
      ((segmentPool oneFlow fourSegments (CtHeap.empty, 0)).run (heapHandler openEnv)
        resetTwice).log 3 = 1 := by
    decide +kernel
  have hgone : callCount (vanishes oneFlow)
      ((segmentPool oneFlow fourSegments (CtHeap.empty, 0)).run (heapHandler openEnv)
        resetTwice).log 3 = 0 := by
    decide +kernel
  omega

end AutoXdp
