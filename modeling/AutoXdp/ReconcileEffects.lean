import AutoXdp.ReconcileFrames
import Mathlib.Tactic.Basic

/-! Each step of the reconciler, and what follows from it for one map at a time. -/
namespace AutoXdp
open StateSteps XdpBackend

/-- A change of a cache leaves everything else alone. -/
theorem notes_rest {op : BpfOp} {d d' : Daemon} (h : op.Notes d d') :
    d'.maps = d.maps ∧ d'.log = d.log ∧ d'.fault = d.fault ∧ d'.opened = d.opened ∧
      d'.monotonicNs = d.monotonicNs := by
  cases op <;> · obtain ⟨x, rfl⟩ := h; exact ⟨rfl, rfl, rfl, rfl, rfl⟩

/-- One step with a call in `K`: the call itself, a change of the cache that belongs
to it, or of one of the two counters. -/
inductive BackendStep (K : BpfOp → Prop) : Daemon → Daemon → Prop
  | call (caller : Caller) (op : BpfOp) (d : Daemon) (hop : K op) :
      BackendStep K d (d.called caller op (!d.fault d.log.length && op.inRange))
  | note (op : BpfOp) (d d' : Daemon) (hop : K op) (hnote : op.Notes d d') : BackendStep K d d'
  | rounds (d : Daemon) (t : BpfMap FlowKey ℕ) : BackendStep K d { d with conntrackStaleRounds := t }
  | counter (d : Daemon) (n : ℕ) : BackendStep K d { d with lastApplyFailures := n }

/-- Any number of such steps. -/
def Moves (K : BpfOp → Prop) : Daemon → Daemon → Prop := Relation.ReflTransGen (BackendStep K)

section Moves

variable {K : BpfOp → Prop}

instance : IsPreorder Daemon (Moves K) where
  refl _ := .refl
  trans _ _ _ h h' := h.trans h'

theorem moves_step {d d' : Daemon} (h : BackendStep K d d') : Moves K d d' := .single h

theorem moves_mono {L : BpfOp → Prop} (hKL : ∀ op, K op → L op) {d d' : Daemon}
    (h : Moves K d d') : Moves L d d' := by
  refine Relation.ReflTransGen.mono ?_ d d' h
  intro d d' hstep
  cases hstep with
  | call caller op d hop => exact .call caller op d (hKL op hop)
  | note op d d' hop hnote => exact .note op d d' (hKL op hop) hnote
  | rounds d t => exact .rounds d t
  | counter d n => exact .counter d n

theorem bpf_moves (caller : Caller) (op : BpfOp) (hop : K op) :
    Steps (Moves K) (bpf caller op) := fun d => moves_step (.call caller op d hop)

theorem cachedCall_moves (dryRun : Bool) (caller : Caller) (op : BpfOp) (note : Daemon → Daemon)
    (hop : K op) (hnote : ∀ d, op.Notes d (note d)) :
    Steps (Moves K) (cachedCall dryRun caller op note) := by
  apply steps_ite
  · exact fun _ => steps_pure _
  · intro _
    apply steps_bind _ _ (bpf_moves caller op hop)
    intro b
    cases b with
    | false => exact steps_pure _
    | true =>
      have hmodify : Steps (Moves K) (modify note : DaemonM PUnit) :=
        fun d => moves_step (.note op d _ hop (hnote d))
      exact steps_bind _ _ hmodify fun _ => steps_pure _

theorem ok_moves (m : DaemonM Bool) (hm : Steps (Moves K) m) : Steps (Moves K) (ok m) := by
  apply steps_bind _ _ hm
  intro b
  have hcount : Steps (Moves K)
      (modify fun d => { d with lastApplyFailures := d.lastApplyFailures + 1 } : DaemonM PUnit) :=
    fun d => moves_step (.counter d _)
  cases b with
  | true => exact steps_pure _
  | false => exact steps_bind _ _ hcount fun _ => steps_pure _

theorem moves_stepwise (dryRun : Bool) : Stepwise dryRun (Moves K) K where
  counted op note hop hnote := ok_moves _ (cachedCall_moves dryRun .ok op note hop hnote)
  quiet caller op note _ hop hnote := cachedCall_moves dryRun caller op note hop hnote
  read op _ hop := bpf_moves .reader op hop
  noted op note hop hnote := fun d => moves_step (.note op d _ hop (hnote d))
  outerSet m port capacity hcreate hslot := by
    apply ok_moves
    apply steps_get_all
    intro d
    apply steps_ite
    · exact fun _ => steps_pure _
    intro _
    apply steps_ite
    · exact fun _ => steps_pure _
    intro _
    apply steps_bind _ _ (bpf_moves .ok (.createInner m port capacity) hcreate)
    intro b
    apply steps_ite
    · exact fun _ => steps_pure _
    · exact fun _ => cachedCall_moves false .ok (.updateSlot m port) _ hslot fun _ => ⟨_, rfl⟩

theorem moves_rounds : RoundSteps (Moves K) := fun f d => moves_step (.rounds d (f d))

/-- What every single step leaves as it is, any number of steps leave as it is. -/
theorem moves_keep {τ : Type} (f : Daemon → τ)
    (hstep : ∀ d d', BackendStep K d d' → f d' = f d) {d d' : Daemon} (h : Moves K d d') :
    f d' = f d := by
  induction h with
  | refl => rfl
  | tail _ hlast ih => exact (hstep _ _ hlast).trans ih

/-- A step changes the maps by the effect of its call, or not at all. -/
theorem step_maps {d d' : Daemon} (h : BackendStep K d d') :
    d'.maps = d.maps ∨ ∃ op, K op ∧ d'.maps = op.effect d.maps := by
  cases h with
  | call caller op d hop =>
    cases hb : !d.fault d.log.length && op.inRange with
    | true => exact Or.inr ⟨op, hop, rfl⟩
    | false => exact Or.inl rfl
  | note op d d' hop hnote => exact Or.inl (notes_rest hnote).1
  | rounds d t => exact Or.inl rfl
  | counter d n => exact Or.inl rfl

/-- A part of the maps that no call in `K` writes. -/
theorem moves_maps {τ : Type} (f : Maps → τ) (hf : ∀ op s, K op → f (op.effect s) = f s)
    {d d' : Daemon} (h : Moves K d d') : f d'.maps = f d.maps := by
  refine moves_keep (fun d => f d.maps) ?_ h
  intro d d' hstep
  rcases step_maps hstep with hmaps | ⟨op, hop, hmaps⟩
  · exact congrArg f hmaps
  · exact (congrArg f hmaps).trans (hf op d.maps hop)

theorem step_environment {d d' : Daemon} (h : BackendStep K d d') :
    d'.fault = d.fault ∧ d'.opened = d.opened ∧ d'.monotonicNs = d.monotonicNs := by
  cases h with
  | call caller op d hop => exact ⟨rfl, rfl, rfl⟩
  | note op d d' hop hnote => exact (notes_rest hnote).2.2
  | rounds d t => exact ⟨rfl, rfl, rfl⟩
  | counter d n => exact ⟨rfl, rfl, rfl⟩

theorem moves_opened {d d' : Daemon} (h : Moves K d d') : d'.opened = d.opened :=
  moves_keep (fun d => d.opened) (fun _ _ hstep => (step_environment hstep).2.1) h

/-- The log only grows. Where the kernel fails no call and every index is in range,
every call succeeds. -/
theorem moves_log {d d' : Daemon} (h : Moves K d d') :
    ∃ new, d'.log = new ++ d.log ∧ (∀ c ∈ new, K c.op) ∧
      ((∀ i, d.fault i = false) → (∀ op, K op → op.inRange = true) → ∀ c ∈ new, c.ok = true) := by
  induction h with
  | refl => exact ⟨[], rfl, by simp, by simp⟩
  | @tail e f hde hlast ih =>
    obtain ⟨new, hlog, hK, hok⟩ := ih
    have hfault : e.fault = d.fault :=
      moves_keep (fun d => d.fault) (fun _ _ hstep => (step_environment hstep).1) hde
    cases hlast with
    | call caller op e hop =>
      refine ⟨⟨caller, op, !e.fault e.log.length && op.inRange⟩ :: new, ?_, ?_, ?_⟩
      · exact congrArg (_ :: ·) hlog
      · intro c hc
        rcases List.mem_cons.mp hc with rfl | hc
        · exact hop
        · exact hK c hc
      · intro hnone hrange c hc
        rcases List.mem_cons.mp hc with rfl | hc
        · simp only [hfault, hnone, hrange op hop, Bool.not_false, Bool.and_self]
        · exact hok hnone hrange c hc
    | note op e f hop hnote =>
      refine ⟨new, ?_, hK, hok⟩
      rw [← hlog]
      exact (notes_rest hnote).2.1
    | rounds e t => exact ⟨new, hlog, hK, hok⟩
    | counter e n => exact ⟨new, hlog, hK, hok⟩

/-- Where nothing fails, a part does what it does when its calls succeed. -/
theorem does_of_moves {E : Daemon → Daemon → Prop} {d d' : Daemon} (hE : Does E d d')
    (h : Moves K d d') (hfault : ∀ i, d.fault i = false)
    (hrange : ∀ op, K op → op.inRange = true) : E d d' := by
  obtain ⟨new, hlog, -, hok⟩ := moves_log h
  refine does_succeeded hE ?_
  rw [callsSince_eq hlog]
  exact hok hfault hrange

end Moves

end AutoXdp
