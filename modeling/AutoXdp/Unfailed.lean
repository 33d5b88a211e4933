import AutoXdp.AppliedMaps
import Mathlib.Tactic.Basic

/-! What the parts of a reconcile did when none of their calls was counted as
failed, whatever became of the calls that nobody counts. -/
namespace AutoXdp
open StateSteps XdpBackend

/-- `_ok` sees only the run. -/
theorem ok_congr (m n : DaemonM Bool) (d e : Daemon) (h : m d = n e) : ok m d = ok n e := by
  simp only [ok, run_bind, h]

/-- If no failure is counted at the end, none was at the start, and the two states are
related by `E`. -/
def Unfailed (E : Daemon → Daemon → Prop) (d d' : Daemon) : Prop :=
  d'.lastApplyFailures = 0 → d.lastApplyFailures = 0 ∧ E d d'

section Unfailed

variable {α β : Type} {E F G : Daemon → Daemon → Prop}

theorem unfailed_mono (m : DaemonM α) (hm : Steps (Unfailed E) m) (h : ∀ d d', E d d' → F d d') :
    Steps (Unfailed F) m := by
  intro d hzero
  obtain ⟨hstart, hE⟩ := hm d hzero
  exact ⟨hstart, h d _ hE⟩

theorem unfailed_seq (m : DaemonM α) (f : α → DaemonM β) (hm : Steps (Unfailed E) m)
    (hf : ∀ a, Steps (Unfailed F) (f a)) (hG : ∀ d e e', E d e → F e e' → G d e') :
    Steps (Unfailed G) (m >>= f) := by
  refine steps_seq m f hm hf ?_
  intro d e e' h h' hzero
  obtain ⟨hmiddle, hF⟩ := h' hzero
  obtain ⟨hstart, hE⟩ := h hmiddle
  exact ⟨hstart, hG d e e' hE hF⟩

theorem unfailed_forM {ι : Type} {P : List ι → Daemon → Daemon → Prop}
    {Q : ι → Daemon → Daemon → Prop} (f : ι → DaemonM PUnit)
    (hf : ∀ x, Steps (Unfailed (Q x)) (f x)) (hnil : ∀ d, P [] d d)
    (hcons : ∀ x xs d e e', Q x d e → P xs e e' → P (x :: xs) d e') (xs : List ι) :
    Steps (Unfailed (P xs)) (List.forM xs f) := by
  refine steps_forM_cons (P := fun xs => Unfailed (P xs)) (Q := fun x => Unfailed (Q x)) f hf
    (fun d hzero => ⟨hzero, hnil d⟩) ?_ xs
  intro x xs d e e' h h' hzero
  obtain ⟨hmiddle, hP⟩ := h' hzero
  obtain ⟨hstart, hQ⟩ := h hmiddle
  exact ⟨hstart, hcons x xs d e e' hQ hP⟩

/-- A counted call that succeeds. -/
theorem unfailed_call (op : BpfOp) (note : Daemon → Daemon)
    (hnote : ∀ d, (note d).lastApplyFailures = d.lastApplyFailures) :
    Steps (Unfailed fun d d' => d' = note (d.called .ok op true))
      (ok (cachedCall false .ok op note)) := by
  intro d
  simp only [ok, run_bind]
  rcases cachedCall_cases false .ok op note d with ⟨h, -⟩ | ⟨-, h⟩ | ⟨-, h⟩
  · exact absurd h Bool.false_ne_true
  · rw [h]
    refine fun hzero => ⟨?_, rfl⟩
    have hnoted : (note (d.called .ok op true)).lastApplyFailures = 0 := hzero
    rw [hnote] at hnoted
    exact hnoted
  · rw [h]
    exact fun hzero => absurd hzero (Nat.succ_ne_zero _)

/-- A part that counts its failures leaves the set of open maps alone. -/
theorem unfailed_opened {S : Set MapId} (m : DaemonM α) (htouch : Steps (Touches S) m)
    (hE : Steps (Unfailed E) m) : Steps (Unfailed fun d d' => d'.opened = d.opened ∧ E d d') m := by
  intro d hzero
  obtain ⟨hstart, h⟩ := hE d hzero
  exact ⟨hstart, (htouch d).opened, h⟩

theorem unfailed_of_touches {S : Set MapId} (m : DaemonM α) (htouch : Steps (Touches S) m)
    (hE : Steps E m) : Steps (Unfailed fun d d' => d'.opened = d.opened ∧ E d d') m := by
  apply unfailed_opened m htouch
  intro d hzero
  obtain ⟨new, -, -, hfail⟩ := (htouch d).calls
  rw [hzero] at hfail
  exact ⟨(Nat.add_eq_zero_iff.mp hfail.symm).1, hE d⟩

end Unfailed

/-! Parts that leave one map alone. -/

/-- Failures are counted, and the map is as before with the set of open maps. -/
def Undisturbed (t : KernelMap) : Daemon → Daemon → Prop :=
  Unfailed fun d d' => d'.opened = d.opened ∧ Kept d d' t

section Undisturbed

variable {α : Type} (t : KernelMap)

instance : IsPreorder Daemon (Undisturbed t) where
  refl d hzero := ⟨hzero, rfl, kept_refl d t⟩
  trans d e f h h' hzero := by
    obtain ⟨hmiddle, hopen', hkept'⟩ := h' hzero
    obtain ⟨hstart, hopen, hkept⟩ := h hmiddle
    exact ⟨hstart, hopen'.trans hopen, kept_trans hkept hkept'⟩

theorem undisturbed_of_moves (m : DaemonM α) (htouch : Steps (Touches Set.univ) m)
    (hmoves : Steps (Moves fun op => op.target ≠ some t) m) : Steps (Undisturbed t) m := by
  apply unfailed_of_touches m htouch
  intro d
  exact moves_kept t (fun _ h => h) (hmoves d)

theorem undisturbed_stepwise (dryRun : Bool) :
    Stepwise dryRun (Undisturbed t) fun op => op.target ≠ some t where
  counted op note hop hnote := undisturbed_of_moves t _
    ((touches_stepwise dryRun).counted op note (Set.mem_univ _) hnote)
    ((moves_stepwise dryRun).counted op note hop hnote)
  quiet caller op note hcaller hop hnote := undisturbed_of_moves t _
    ((touches_stepwise dryRun).quiet caller op note hcaller (Set.mem_univ _) hnote)
    ((moves_stepwise dryRun).quiet caller op note hcaller hop hnote)
  read op hread hop := undisturbed_of_moves t _
    ((touches_stepwise dryRun).read op hread (Set.mem_univ _)) ((moves_stepwise dryRun).read op hread hop)
  noted op note hop hnote := undisturbed_of_moves t _
    ((touches_stepwise dryRun).noted op note (Set.mem_univ _) hnote)
    ((moves_stepwise dryRun).noted op note hop hnote)
  outerSet m port capacity hcreate hslot := undisturbed_of_moves t _
    ((touches_stepwise dryRun).outerSet m port capacity (Set.mem_univ _) (Set.mem_univ _))
    ((moves_stepwise dryRun).outerSet m port capacity hcreate hslot)

theorem undisturbed_rounds : RoundSteps (Undisturbed t) :=
  fun f => undisturbed_of_moves t _ (touches_rounds f) (moves_rounds f)

theorem ne_target {op : BpfOp} {m t : KernelMap} (h : op.target = some m) (hne : m ≠ t) :
    op.target ≠ some t := by
  rw [h]
  exact fun e => hne (Option.some.inj e)

end Undisturbed

end AutoXdp
