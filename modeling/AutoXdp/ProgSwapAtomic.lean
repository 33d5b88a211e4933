import AutoXdp.ProgSwap
import Mathlib.Tactic.Basic
import Mathlib.Tactic.SplitIfs
import Mathlib.Tactic.Tauto

/-! When a handler swap that fails puts everything back. -/
namespace AutoXdp
open StateSteps AdminCli

namespace AdminCli

namespace Layout

variable {G : Type} (L : Layout G)

/-- The program in the entry has a pin. -/
def Pinned (m : Pins G) : Prop :=
  ∀ p, m.entry = some p → L.livePin m = some p ∨ L.candidatePin m = some p ∨ L.backupPin m = some p

/-- The pins are `m`, and at every instant on the way the program in the entry had one. -/
structure Reached (s : SwapState G) (m : Pins G) (e : SwapState G) : Prop where
  pins : e.pins = m
  fault : e.fault = s.fault
  log : ∃ new, e.log = new ++ s.log ∧ ∀ m ∈ new, L.Pinned m

variable {L}

theorem reached_refl (s : SwapState G) : L.Reached s s.pins s := ⟨rfl, rfl, [], rfl, by simp⟩

theorem reached_trans {s e u : SwapState G} {m n : Pins G} (h : L.Reached s m e)
    (h' : L.Reached e n u) : L.Reached s n u := by
  obtain ⟨new, hlog, hpinned⟩ := h.log
  obtain ⟨new', hlog', hpinned'⟩ := h'.log
  refine ⟨h'.pins, h'.fault.trans h.fault, new' ++ new, ?_, ?_⟩
  · rw [hlog', hlog, List.append_assoc]
  · intro m hm
    rcases List.mem_append.mp hm with hm | hm
    · exact hpinned' m hm
    · exact hpinned m hm

/-! One call. -/

theorem swapCall_ok (site : SwapSite) (possible : Pins G → Bool) (effect : Pins G → Pins G)
    (s : SwapState G) (hf : s.fault site = false) (hp : possible s.pins = true)
    (hpinned : L.Pinned (effect s.pins)) :
    (swapCall site possible effect s).1 = true ∧
      L.Reached s (effect s.pins) (swapCall site possible effect s).2 := by
  have hrun : swapCall site possible effect s =
      (true, { s with pins := effect s.pins, log := effect s.pins :: s.log }) := by
    simp only [swapCall, hf, hp, Bool.not_true, Bool.or_self, Bool.false_eq_true, ↓reduceIte]
  rw [hrun]
  refine ⟨rfl, rfl, rfl, [effect s.pins], rfl, fun m hm => ?_⟩
  rw [List.mem_singleton.mp hm]
  exact hpinned

theorem swapCall_fail (site : SwapSite) (possible : Pins G → Bool) (effect : Pins G → Pins G)
    (s : SwapState G) (h : s.fault site = true ∨ possible s.pins = false) :
    swapCall site possible effect s = (false, s) := by
  rw [swapCall, if_pos]
  rcases h with h | h
  · rw [h, Bool.true_or]
  · rw [h, Bool.not_false, Bool.or_true]

theorem run_get (s : SwapState G) : (get : SwapM G (SwapState G)) s = (s, s) := rfl

theorem verify_run (site : SwapSite) (id : ℕ) (s : SwapState G) (hentry : s.pins.entry = some id) :
    verifyProgArrayEntry site id s = (!s.fault site, s) := by
  by_cases hf : s.fault site = true
  · simp [verifyProgArrayEntry, progArrayEntryId, run_bind, hf]
  · simp [verifyProgArrayEntry, progArrayEntryId, run_bind, hf, hentry]

/-! The two `try` blocks. -/

/-- The first finds both programs where it should. -/
def Checks (L : Layout G) (s : SwapState G) : Prop :=
  s.fault .inspectCandidate = false ∧
    ((L.livePin s.pins).isSome = true → s.fault .inspectLive = false)

/-- The entry is empty without a live pin, or holds the live pin's program; the candidate
has its pin, and nothing bears the new name. -/
structure Consistent (L : Layout G) (candidateId : ℕ) (m : Pins G) : Prop where
  entry : m.entry = L.livePin m
  candidate : L.candidatePin m = some candidateId
  backup : m.backup = none

theorem precheck_run (s : SwapState G) (c : ℕ) (h : L.Consistent c s.pins) :
    (L.Checks s ∧ L.precheck s = (some (c, L.livePin s.pins), s)) ∨
      (¬L.Checks s ∧ L.precheck s = (none, s)) := by
  cases hc : s.fault .inspectCandidate with
  | true =>
    right
    refine ⟨fun hchecks => ?_, ?_⟩
    · rw [Checks, hc] at hchecks
      exact Bool.false_ne_true hchecks.1.symm
    · simp only [precheck, pinnedProgramId, run_bind, hc, ↓reduceIte, run_pure]
  | false =>
    have hid : pinnedProgramId .inspectCandidate L.candidatePin s = (some c, s) := by
      simp only [pinnedProgramId, hc, Bool.false_eq_true, ↓reduceIte, h.candidate]
    cases hlive : L.livePin s.pins with
    | none =>
      left
      refine ⟨⟨hc, fun hsome => ?_⟩, ?_⟩
      · rw [hlive] at hsome
        exact absurd hsome nofun
      · have hentry : s.pins.entry = none := h.entry.trans hlive
        simp [precheck, run_bind, hid, run_get, hlive, progArrayEntryId, hentry]
    | some old =>
      have hentry : s.pins.entry = some old := h.entry.trans hlive
      cases hl : s.fault .inspectLive with
      | true =>
        right
        refine ⟨fun hchecks => ?_, ?_⟩
        · have := hchecks.2 (by rw [hlive]; rfl)
          rw [hl] at this
          exact Bool.false_ne_true this.symm
        · simp [precheck, run_bind, run_get, hlive, pinnedProgramId, hl, hc, h.candidate]
      | false =>
        left
        refine ⟨⟨hc, fun _ => hl⟩, ?_⟩
        cases ha : s.fault .lookupActive <;>
          simp [precheck, run_bind, run_get, hlive, pinnedProgramId, hl, hc, h.candidate,
            progArrayEntryId, hentry, ha]

/-- What the parts of a layout that differ have in common. -/
structure Lawful (L : Layout G) (commitFails : (SwapSite → Bool) → Bool → Prop) : Prop where
  discard_pins : ∀ s, ∃ g, (L.discardCandidate s).2.pins = { s.pins with candidate := g }
  discard : ∀ s, (∀ g, L.Pinned { s.pins with candidate := g }) →
    ∃ g, L.Reached s { s.pins with candidate := g } (L.discardCandidate s).2
  commit_fails : ∀ s moved, commitFails s.fault moved → L.commit moved s = (false, s)
  commit : ∀ s moved, ¬commitFails s.fault moved → (moved = true → s.pins.backup.isSome = true) →
    (∀ g, L.Pinned { s.pins with backup := g }) → (L.commit moved s).1 = true ∧
      ∃ g, L.Reached s { s.pins with backup := g } (L.commit moved s).2
  cleanup : ∀ s moved, (∀ g, L.Pinned { s.pins with backup := g }) →
    ∃ g, L.Reached s { s.pins with backup := g } (L.cleanup moved s).2

/-- Where the second `try` block stopped: both generations in their places, the old one out
of the way, or the candidate under the live name. -/
inductive Stage where
  | inPlace | moved | committed
  deriving DecidableEq

/-- The calls that fail first. -/
def Stops (commitFails : (SwapSite → Bool) → Bool → Prop) (s : SwapState G) : Stage → Prop
  | .inPlace => s.fault .update = false ∧ (s.fault .verifySwitched = true ∨
      s.pins.live.isSome = true ∧ s.fault .renameOld = true)
  | .moved => s.fault .update = false ∧ s.fault .verifySwitched = false ∧
      (s.pins.live.isSome = true → s.fault .renameOld = false) ∧ s.fault .renameCandidate = true
  | .committed => s.fault .update = false ∧ s.fault .verifySwitched = false ∧
      (s.pins.live.isSome = true → s.fault .renameOld = false) ∧
      s.fault .renameCandidate = false ∧
      (s.fault .verifyCommitted = true ∨ s.fault .inspectCommitted = true ∨
        commitFails s.fault s.pins.live.isSome)

def Stage.pins (entry : Option ℕ) (m : Pins G) : Stage → Pins G
  | .inPlace => ⟨entry, m.live, m.candidate, none⟩
  | .moved => ⟨entry, none, m.candidate, m.live⟩
  | .committed => ⟨entry, m.candidate, none, m.live⟩

def Stage.progress (m : Pins G) : Stage → Progress
  | .inPlace => ⟨true, false, false, false⟩
  | .moved => ⟨true, m.live.isSome, false, false⟩
  | .committed => ⟨true, m.live.isSome, true, false⟩

/-- The ways through the second `try` block. -/
inductive Forwarded (L : Layout G) (commitFails : (SwapSite → Bool) → Bool → Prop) (c : ℕ)
    (s : SwapState G) : Progress → SwapState G → Prop
  | unswitched (hupdate : s.fault .update = true) : Forwarded L commitFails c s {} s
  | stopped (stage : Stage) (e : SwapState G) (hstop : Stops commitFails s stage)
      (h : L.Reached s (stage.pins (some c) s.pins) e) :
      Forwarded L commitFails c s (stage.progress s.pins) e
  | done (e : SwapState G) (g : Option G) (hgo : ∀ stage, ¬Stops commitFails s stage)
      (h : L.Reached s ⟨some c, s.pins.candidate, none, g⟩ e) :
      Forwarded L commitFails c s ⟨true, s.pins.live.isSome, true, true⟩ e

theorem pinned_candidate {m : Pins G} (h : m.entry = L.candidatePin m) : L.Pinned m := by
  intro p hp
  rw [h] at hp
  exact Or.inr (Or.inl hp)

theorem pinned_live {m : Pins G} (h : m.entry = L.livePin m) : L.Pinned m := by
  intro p hp
  rw [h] at hp
  exact Or.inl hp

theorem pinned_backup {m : Pins G} (h : m.entry = L.backupPin m) : L.Pinned m := by
  intro p hp
  rw [h] at hp
  exact Or.inr (Or.inr hp)

variable {commitFails : (SwapSite → Bool) → Bool → Prop}

theorem same_of_none {m : Pins G} (hlive : m.live = none) (hbackup : m.backup = none) :
    ({ m with live := none, backup := none } : Pins G) = m := by
  obtain ⟨entry, live, candidate, backup⟩ := m
  subst hlive hbackup
  rfl

theorem moveOld_run (e : SwapState G) (hbackup : e.pins.backup = none)
    (hentry : e.pins.entry = L.candidatePin e.pins) :
    (e.pins.live.isSome = true ∧ e.fault .renameOld = true ∧ moveOld e = (false, e)) ∨
    ((e.pins.live.isSome = true → e.fault .renameOld = false) ∧ (moveOld e).1 = true ∧
      L.Reached e { e.pins with live := none, backup := e.pins.live } (moveOld e).2) := by
  cases hlive : e.pins.live with
  | none =>
    right
    have hrun : moveOld e = (true, e) := by
      simp only [moveOld, run_get_bind, run_ite, hlive]
      rfl
    rw [hrun, same_of_none hlive hbackup]
    exact ⟨nofun, rfl, reached_refl e⟩
  | some l =>
    have hrun : moveOld e = renameOld e := by
      simp only [moveOld, run_get_bind, run_ite, hlive]
      rfl
    rw [hrun]
    cases hf : e.fault .renameOld with
    | true =>
      left
      exact ⟨rfl, rfl, swapCall_fail _ _ _ e (Or.inl hf)⟩
    | false =>
      right
      obtain ⟨hok, hmoved⟩ := swapCall_ok (L := L) .renameOld (fun m => m.live.isSome)
        (fun m => { m with live := none, backup := m.live }) e hf (by rw [hlive]; rfl)
        (pinned_candidate hentry)
      simp only [hlive] at hmoved
      exact ⟨fun _ => rfl, hok, hmoved⟩

/-- How the candidate may be stopped on its way to the live name. -/
inductive Committed (L : Layout G) (commitFails : (SwapSite → Bool) → Bool → Prop) (c : ℕ)
    (moved : Bool) (u : SwapState G) : Progress → SwapState G → Prop
  | not (hrename : u.fault .renameCandidate = true) :
      Committed L commitFails c moved u ⟨true, moved, false, false⟩ u
  | stopped (e : SwapState G) (hrename : u.fault .renameCandidate = false)
      (hstop : u.fault .verifyCommitted = true ∨ u.fault .inspectCommitted = true ∨
        commitFails u.fault moved)
      (h : L.Reached u { u.pins with live := u.pins.candidate, candidate := none } e) :
      Committed L commitFails c moved u ⟨true, moved, true, false⟩ e
  | done (e : SwapState G) (g : Option G) (hrename : u.fault .renameCandidate = false)
      (hgo : ¬(u.fault .verifyCommitted = true ∨ u.fault .inspectCommitted = true ∨
        commitFails u.fault moved))
      (h : L.Reached u { u.pins with live := u.pins.candidate, candidate := none, backup := g } e) :
      Committed L commitFails c moved u ⟨true, moved, true, true⟩ e

theorem commitCandidate_cases (hL : L.Lawful commitFails) (u : SwapState G) (c : ℕ) (moved : Bool)
    (hentry : u.pins.entry = some c) (hcandidate : L.candidatePin u.pins = some c)
    (hmoved : moved = true → u.pins.backup.isSome = true) :
    Committed L commitFails c moved u (L.commitCandidate c moved u).1
      (L.commitCandidate c moved u).2 := by
  cases hrename : u.fault .renameCandidate with
  | true =>
    have hrun : renameCandidate u = (false, u) := swapCall_fail _ _ _ u (Or.inl hrename)
    simp only [commitCandidate, run_bind, hrun, Bool.false_eq_true, ↓reduceIte, run_pure]
    exact .not hrename
  | false =>
  have hpossible : u.pins.candidate.isSome = true := by
    cases hg : u.pins.candidate with
    | none =>
      rw [candidatePin, hg] at hcandidate
      exact absurd hcandidate nofun
    | some g => rfl
  obtain ⟨hok, hreached⟩ := swapCall_ok (L := L) .renameCandidate (fun m => m.candidate.isSome)
    (fun m => { m with candidate := none, live := m.candidate }) u hrename hpossible
    (pinned_live (hentry.trans hcandidate.symm))
  change (renameCandidate u).1 = true at hok
  change L.Reached u _ (renameCandidate u).2 at hreached
  simp only [commitCandidate, run_bind, hok, ↓reduceIte]
  generalize (renameCandidate u).2 = e at hreached
  have hentry' : e.pins.entry = some c := by rw [hreached.pins]; exact hentry
  have hlive : L.livePin e.pins = some c := by rw [hreached.pins]; exact hcandidate
  have hpinned (g : Option G) : L.Pinned { e.pins with backup := g } :=
    pinned_live (hentry'.trans hlive.symm)
  rw [verify_run .verifyCommitted c e hentry', hreached.fault]
  cases hverify : u.fault .verifyCommitted with
  | true => exact .stopped e hrename (Or.inl hverify) hreached
  | false =>
  simp only [Bool.not_false, ↓reduceIte, run_bind, pinnedProgramId, hreached.fault]
  cases hinspect : u.fault .inspectCommitted with
  | true =>
    simp only [↓reduceIte, reduceCtorEq, run_pure]
    exact .stopped e hrename (Or.inr (Or.inl hinspect)) hreached
  | false =>
  simp only [Bool.false_eq_true, ↓reduceIte, hlive, run_bind, run_pure]
  by_cases hcommit : commitFails e.fault moved
  · rw [hL.commit_fails e moved hcommit]
    rw [hreached.fault] at hcommit
    exact .stopped e hrename (Or.inr (Or.inr hcommit)) hreached
  · have hbackup : moved = true → e.pins.backup.isSome = true := by
      rw [hreached.pins]
      exact hmoved
    obtain ⟨hdone, g, hlast⟩ := hL.commit e moved hcommit hbackup hpinned
    rw [hdone]
    rw [hreached.fault] at hcommit
    refine .done _ g hrename ?_ ?_
    · rw [hverify, hinspect]
      simpa using hcommit
    · have hall := reached_trans hreached hlast
      rw [hreached.pins] at hall
      exact hall

theorem forward_cases (hL : L.Lawful commitFails) (s : SwapState G) (c : ℕ)
    (h : L.Consistent c s.pins) :
    Forwarded L commitFails c s (L.forward c s).1 (L.forward c s).2 := by
  cases hupdate : s.fault .update with
  | true =>
    have hrun : progArrayUpdate .update L.candidatePin s = (false, s) :=
      swapCall_fail _ _ _ s (Or.inl hupdate)
    simp only [forward, run_bind, hrun, Bool.false_eq_true, ↓reduceIte, run_pure]
    exact .unswitched hupdate
  | false =>
  obtain ⟨hok, hswitched⟩ := swapCall_ok (L := L) .update (fun m => (L.candidatePin m).isSome)
    (fun m => { m with entry := L.candidatePin m }) s hupdate (by rw [h.candidate]; rfl)
    (pinned_candidate rfl)
  change (progArrayUpdate .update L.candidatePin s).1 = true at hok
  change L.Reached s _ (progArrayUpdate .update L.candidatePin s).2 at hswitched
  simp only [forward, run_bind, hok, ↓reduceIte]
  generalize (progArrayUpdate .update L.candidatePin s).2 = e at hswitched
  simp only [h.candidate] at hswitched
  have hentry : e.pins.entry = some c := by rw [hswitched.pins]
  have hlive : e.pins.live = s.pins.live := by rw [hswitched.pins]
  have hinPlace : L.Reached s (Stage.inPlace.pins (some c) s.pins) e := by
    refine ⟨?_, hswitched.fault, hswitched.log⟩
    rw [hswitched.pins, h.backup]
    rfl
  rw [verify_run .verifySwitched c e hentry, hswitched.fault]
  cases hverify : s.fault .verifySwitched with
  | true => exact .stopped .inPlace e ⟨hupdate, Or.inl hverify⟩ hinPlace
  | false =>
  simp only [Bool.not_false, ↓reduceIte, run_bind, run_get]
  have hbackup : e.pins.backup = none := by
    rw [hswitched.pins]
    exact h.backup
  have hpinned : e.pins.entry = L.candidatePin e.pins := by
    rw [hswitched.pins]
    exact h.candidate.symm
  rcases moveOld_run e hbackup hpinned with ⟨hold, hfault, hrun⟩ | ⟨hold, hmove, hmoved⟩
  · rw [hrun]
    rw [hlive] at hold
    rw [hswitched.fault] at hfault
    exact .stopped .inPlace e ⟨hupdate, Or.inr ⟨hold, hfault⟩⟩ hinPlace
  · rw [hmove, hlive]
    simp only [↓reduceIte]
    rw [hlive, hswitched.fault] at hold
    have hmoved' := reached_trans hswitched hmoved
    generalize (moveOld e).2 = u at hmoved'
    have hcases := commitCandidate_cases hL u c s.pins.live.isSome
      (by rw [hmoved'.pins, hswitched.pins]) (by rw [hmoved'.pins, hswitched.pins]; exact h.candidate)
      (by rw [hmoved'.pins, hlive]; exact id)
    have hfault : u.fault = s.fault := hmoved'.fault
    have hpins : u.pins = ⟨some c, none, s.pins.candidate, s.pins.live⟩ := by
      rw [hmoved'.pins, hswitched.pins]
    have hreached : L.Reached s ⟨some c, none, s.pins.candidate, s.pins.live⟩ u :=
      ⟨hpins, hfault, hmoved'.log⟩
    generalize L.commitCandidate c s.pins.live.isSome u = last at hcases
    obtain ⟨progress, e'⟩ := last
    cases hcases with
    | not hrename =>
      rw [hfault] at hrename
      exact .stopped .moved _ ⟨hupdate, hverify, hold, hrename⟩ hreached
    | stopped _ hrename hstop hlast =>
      rw [hfault] at hrename hstop
      rw [hpins] at hlast
      exact .stopped .committed e' ⟨hupdate, hverify, hold, hrename, hstop⟩ (reached_trans hreached hlast)
    | done _ g hrename hgo hlast =>
      rw [hfault] at hrename hgo
      rw [hpins] at hlast
      refine .done e' g (fun stage hstops => ?_) (reached_trans hreached hlast)
      cases stage with
      | inPlace =>
        rcases hstops.2 with hstop | ⟨hsome, hstop⟩
        · rw [hverify] at hstop
          exact Bool.false_ne_true hstop
        · rw [hold hsome] at hstop
          exact Bool.false_ne_true hstop
      | moved =>
        have hstop := hstops.2.2.2
        rw [hrename] at hstop
        exact Bool.false_ne_true hstop
      | committed => exact hgo hstops.2.2.2.2

/-! The rollback of the entry. -/

/-- The ways through `_rollback_prog_array_entry`; in one of them an entry that could be
neither deleted nor looked up passes for an empty one. -/
inductive RolledBack (L : Layout G) (old : Option ℕ) (e : SwapState G) : Bool → SwapState G → Prop
  | done (u : SwapState G) (hdelete : old = none → e.fault .rollbackDelete = false)
      (hupdate : old ≠ none → e.fault .rollbackUpdate = false ∧ e.fault .rollbackVerify = false)
      (h : L.Reached e { e.pins with entry := old } u) : RolledBack L old e true u
  | unnoticed (hold : old = none) (hdelete : e.fault .rollbackDelete = true)
      (hlookup : e.fault .rollbackLookup = true) : RolledBack L old e true e
  | failed (u : SwapState G) (entry : Option ℕ) (hentry : entry = e.pins.entry ∨ entry = old)
      (hdelete : old = none → e.fault .rollbackDelete = true ∧ e.fault .rollbackLookup = false)
      (hupdate : old ≠ none → e.fault .rollbackUpdate = true ∨ e.fault .rollbackVerify = true)
      (h : L.Reached e { e.pins with entry := entry } u) : RolledBack L old e false u

theorem rollback_cases (e : SwapState G) (c : ℕ) (old : Option ℕ) (pin : Pins G → Option ℕ)
    (hentry : e.pins.entry = some c) (hpin : old ≠ none → pin e.pins = old)
    (hpinned : L.Pinned { e.pins with entry := old }) :
    RolledBack L old e
      (rollbackProgArrayEntry (if old.isSome then some pin else none) old e).1
      (rollbackProgArrayEntry (if old.isSome then some pin else none) old e).2 := by
  cases old with
  | none =>
    have hrun : rollbackProgArrayEntry (if (none : Option ℕ).isSome then some pin else none) none e =
        (do if ← progArrayDelete .rollbackDelete then return true
            else
              let actualId ← progArrayEntryId .rollbackLookup
              return actualId.isNone : SwapM G Bool) e := rfl
    rw [hrun]
    simp only [run_bind]
    cases hdelete : e.fault .rollbackDelete with
    | true =>
      have hfail : progArrayDelete .rollbackDelete e = (false, e) :=
        swapCall_fail _ _ _ e (Or.inl hdelete)
      rw [hfail]
      simp only [Bool.false_eq_true, ↓reduceIte, run_bind, progArrayEntryId, run_pure, hentry]
      cases hlookup : e.fault .rollbackLookup with
      | true => exact .unnoticed rfl hdelete hlookup
      | false =>
        exact .failed e e.pins.entry (Or.inl rfl) (fun _ => ⟨hdelete, hlookup⟩) (absurd rfl)
          (reached_refl e)
    | false =>
      obtain ⟨hok, hreached⟩ := swapCall_ok (L := L) .rollbackDelete (fun m => m.entry.isSome)
        (fun m => { m with entry := none }) e hdelete (by rw [hentry]; rfl) hpinned
      change (progArrayDelete .rollbackDelete e).1 = true at hok
      rw [hok]
      exact .done _ (fun _ => hdelete) (absurd rfl) hreached
  | some old =>
    replace hpin : pin e.pins = some old := hpin nofun
    have hrun : rollbackProgArrayEntry (if (some old).isSome then some pin else none) (some old) e =
        (do if ← progArrayUpdate .rollbackUpdate pin then
              verifyProgArrayEntry .rollbackVerify old
            else return false : SwapM G Bool) e := rfl
    rw [hrun]
    simp only [run_bind]
    cases hupdate : e.fault .rollbackUpdate with
    | true =>
      have hfail : progArrayUpdate .rollbackUpdate pin e = (false, e) :=
        swapCall_fail _ _ _ e (Or.inl hupdate)
      rw [hfail]
      exact .failed e e.pins.entry (Or.inl rfl) nofun (fun _ => Or.inl hupdate) (reached_refl e)
    | false =>
      obtain ⟨hok, hreached⟩ := swapCall_ok (L := L) .rollbackUpdate (fun m => (pin m).isSome)
        (fun m => { m with entry := pin m }) e hupdate (by rw [hpin]; rfl) (hpin ▸ hpinned)
      change (progArrayUpdate .rollbackUpdate pin e).1 = true at hok
      change L.Reached e _ (progArrayUpdate .rollbackUpdate pin e).2 at hreached
      rw [hok]
      simp only [↓reduceIte]
      generalize (progArrayUpdate .rollbackUpdate pin e).2 = u at hreached
      simp only [hpin] at hreached
      rw [verify_run .rollbackVerify old u (by rw [hreached.pins]), hreached.fault]
      cases hverify : e.fault .rollbackVerify with
      | true => exact .failed u (some old) (Or.inr rfl) nofun (fun _ => Or.inr hverify) hreached
      | false => exact .done u nofun (fun _ => ⟨hupdate, hverify⟩) hreached

/-! The renames. -/

/-- Where the renames of the rollback leave the two generations. -/
def Stage.settled (entry : Option ℕ) (s : SwapState G) (stage : Stage) : Pins G :=
  if stage = .committed ∧ s.fault .renameBack = true then
    ⟨entry, s.pins.candidate, none, s.pins.live⟩
  else if stage ≠ .inPlace ∧ s.pins.live.isSome = true ∧ s.fault .renameRestored = true then
    ⟨entry, none, s.pins.candidate, s.pins.live⟩
  else ⟨entry, s.pins.live, s.pins.candidate, none⟩

/-- Either program may be in the entry: both have their pins throughout. -/
structure BothPinned (L : Layout G) (entry : Option ℕ) (m : Pins G) : Prop where
  entry : ∀ p, entry = some p → L.livePin m = some p ∨ L.candidatePin m = some p

theorem BothPinned.pinned {entry : Option ℕ} {m : Pins G} (h : BothPinned L entry m)
    (n : Pins G) (hentry : n.entry = entry)
    (hgenerations : (n.live = m.live ∧ n.candidate = m.candidate) ∨
      (n.backup = m.live ∧ n.candidate = m.candidate) ∨
      (n.backup = m.live ∧ n.live = m.candidate)) : L.Pinned n := by
  intro p hp
  rw [hentry] at hp
  rw [livePin, candidatePin, backupPin]
  rcases hgenerations with ⟨hl, hc⟩ | ⟨hl, hc⟩ | ⟨hl, hc⟩ <;> rw [hl, hc] <;>
    rcases h.entry p hp with hpin | hpin
  · exact Or.inl hpin
  · exact Or.inr (Or.inl hpin)
  · exact Or.inr (Or.inr hpin)
  · exact Or.inr (Or.inl hpin)
  · exact Or.inr (Or.inr hpin)
  · exact Or.inl hpin

theorem backToCandidate_skip (moved : Bool) (e : SwapState G)
    (h : moved = false ∨ e.pins.live = none ∨ e.fault .renameBack = true) :
    (backToCandidate moved e).2 = e := by
  simp only [backToCandidate, run_get_bind, run_ite]
  split_ifs with hgo
  · rcases h with h | h | h
    · rw [h] at hgo
      exact absurd hgo.1 Bool.false_ne_true
    · rw [h] at hgo
      exact absurd hgo.2 Bool.false_ne_true
    · have hfail : renameBack e = (false, e) := swapCall_fail _ _ _ e (Or.inl h)
      exact congrArg Prod.snd hfail
  · rfl

theorem backToCandidate_run (e : SwapState G) (hlive : e.pins.live.isSome = true)
    (hf : e.fault .renameBack = false)
    (hpinned : L.Pinned { e.pins with live := none, candidate := e.pins.live }) :
    L.Reached e { e.pins with live := none, candidate := e.pins.live }
      (backToCandidate true e).2 := by
  unfold backToCandidate
  rw [run_get_bind, run_ite, if_pos ⟨rfl, hlive⟩]
  exact (swapCall_ok .renameBack (fun m => m.live.isSome)
    (fun m => { m with live := none, candidate := m.live }) e hf hlive hpinned).2

theorem backToLive_skip (moved : Bool) (e : SwapState G)
    (h : moved = false ∨ e.pins.live.isSome = true ∨ e.pins.backup = none ∨
      e.fault .renameRestored = true) : (backToLive moved e).2 = e := by
  simp only [backToLive, run_get_bind, run_ite]
  split_ifs with hgo
  · rcases h with h | h | h | h
    · rw [h] at hgo
      exact absurd hgo.1 Bool.false_ne_true
    · exact absurd h hgo.2.2
    · rw [h] at hgo
      exact absurd hgo.2.1 Bool.false_ne_true
    · have hfail : renameRestored e = (false, e) := swapCall_fail _ _ _ e (Or.inl h)
      exact congrArg Prod.snd hfail
  · rfl

theorem backToLive_run (e : SwapState G) (hlive : e.pins.live = none)
    (hbackup : e.pins.backup.isSome = true) (hf : e.fault .renameRestored = false)
    (hpinned : L.Pinned { e.pins with backup := none, live := e.pins.backup }) :
    L.Reached e { e.pins with backup := none, live := e.pins.backup } (backToLive true e).2 := by
  have hnone : ¬e.pins.live.isSome = true := by
    rw [hlive]
    exact Bool.false_ne_true
  unfold backToLive
  rw [run_get_bind, run_ite, if_pos ⟨rfl, hbackup, hnone⟩]
  exact (swapCall_ok .renameRestored (fun m => m.backup.isSome)
    (fun m => { m with backup := none, live := m.backup }) e hf hbackup hpinned).2

/-- The old generation goes back to its name, if it left it. -/
theorem restore_run (s e : SwapState G) (entry : Option ℕ)
    (hpins : e.pins = ⟨entry, none, s.pins.candidate, s.pins.live⟩) (hfault : e.fault = s.fault)
    (hboth : BothPinned L entry s.pins) :
    L.Reached e (if s.pins.live.isSome = true ∧ s.fault .renameRestored = true then
        ⟨entry, none, s.pins.candidate, s.pins.live⟩
      else ⟨entry, s.pins.live, s.pins.candidate, none⟩)
      (backToLive s.pins.live.isSome e).2 := by
  cases hlive : s.pins.live with
  | none =>
    rw [hlive] at hpins
    rw [backToLive_skip (none : Option G).isSome e (Or.inl rfl),
      if_neg (fun h => Bool.false_ne_true h.1), ← hpins]
    exact reached_refl e
  | some l =>
    rw [hlive] at hpins
    cases hf : s.fault .renameRestored with
    | true =>
      rw [backToLive_skip _ e (Or.inr (Or.inr (Or.inr (hfault ▸ hf)))), if_pos ⟨rfl, rfl⟩, ← hpins]
      exact reached_refl e
    | false =>
      rw [if_neg (fun h => Bool.false_ne_true h.2)]
      have hrun := backToLive_run (L := L) e (by rw [hpins]) (by rw [hpins]; rfl) (hfault ▸ hf)
        (hboth.pinned _ (by rw [hpins]) (Or.inl (by rw [hpins, hlive]; exact ⟨rfl, rfl⟩)))
      rw [hpins] at hrun
      exact hrun

theorem renames_run (s e : SwapState G) (entry : Option ℕ) (stage : Stage)
    (hpins : e.pins = stage.pins entry s.pins) (hfault : e.fault = s.fault)
    (hcandidate : s.pins.candidate.isSome = true) (hboth : BothPinned L entry s.pins) :
    L.Reached e (stage.settled entry s)
      (backToLive (stage.progress s.pins).movedOld
        (backToCandidate (stage.progress s.pins).movedCandidate e).2).2 := by
  cases stage with
  | inPlace =>
    simp only [Stage.progress]
    rw [backToCandidate_skip _ e (Or.inl rfl), backToLive_skip _ e (Or.inl rfl)]
    refine ⟨?_, rfl, [], rfl, by simp⟩
    rw [hpins]
    simp [Stage.settled, Stage.pins]
  | moved =>
    simp only [Stage.progress]
    rw [backToCandidate_skip _ e (Or.inl rfl)]
    have hrun := restore_run s e entry hpins hfault hboth
    simpa [Stage.settled] using hrun
  | committed =>
    simp only [Stage.progress]
    cases hf : s.fault .renameBack with
    | true =>
      rw [backToCandidate_skip _ e (Or.inr (Or.inr (hfault ▸ hf))),
        backToLive_skip _ e (Or.inr (Or.inl (by rw [hpins]; exact hcandidate)))]
      refine ⟨?_, rfl, [], rfl, by simp⟩
      rw [hpins]
      simp [Stage.settled, Stage.pins, hf]
    | false =>
      have hback := backToCandidate_run (L := L) e (by rw [hpins]; exact hcandidate) (hfault ▸ hf)
        (hboth.pinned _ (by rw [hpins]; rfl) (Or.inr (Or.inl (by rw [hpins]; exact ⟨rfl, rfl⟩))))
      have hrun := restore_run s (backToCandidate true e).2 entry (by rw [hback.pins, hpins]; rfl)
        (hback.fault.trans hfault) hboth
      have hsettled : Stage.committed.settled entry s =
          if s.pins.live.isSome = true ∧ s.fault .renameRestored = true then
            ⟨entry, none, s.pins.candidate, s.pins.live⟩
          else ⟨entry, s.pins.live, s.pins.candidate, none⟩ := by
        simp [Stage.settled, hf]
      rw [hsettled]
      exact reached_trans hback hrun

/-! The whole call. -/

/-- What the call promises: a failure that claims to have restored the previous program has,
success means that entry and pin are the candidate's, and the program in the entry has a pin
at every instant. -/
structure SwapAtomic (L : Layout G) (c : ℕ) (s : SwapState G) (r : Outcome × SwapState G) :
    Prop where
  restored : r.1 = .restored → r.2.pins.entry = s.pins.entry ∧
    L.livePin r.2.pins = L.livePin s.pins ∧ L.backupPin r.2.pins = none
  returned : r.1 = .returned → r.2.pins.entry = some c ∧ L.livePin r.2.pins = some c
  pinned : ∃ new, r.2.log = new ++ s.log ∧ ∀ m ∈ s.pins :: new, L.Pinned m

/-- After a stop at this stage no failure of the rollback goes unnoticed: without an old
program the entry can be deleted or at least looked up; with one, or once the entry is
deleted, the renames back do not fail. -/
def CanUndoAt (f : SwapSite → Bool) (stage : Stage) : Option ℕ → Prop
  | none => ¬(f .rollbackDelete = true ∧ f .rollbackLookup = true) ∧
      (stage = .committed → f .rollbackDelete = false → f .renameBack = false)
  | some _ => f .rollbackUpdate = false → f .rollbackVerify = false →
      (stage = .committed → f .renameBack = false) ∧
      (stage ≠ .inPlace → f .renameRestored = false)

def CanUndo (L : Layout G) (commitFails : (SwapSite → Bool) → Bool → Prop) (s : SwapState G) :
    Prop :=
  L.Checks s → ∀ stage, Stops commitFails s stage → CanUndoAt s.fault stage (L.livePin s.pins)

theorem stops_unique {s : SwapState G} {stage stage' : Stage} (h : Stops commitFails s stage)
    (h' : Stops commitFails s stage') : stage = stage' := by
  have hbool (b : Bool) (ht : b = true) (hf : b = false) : False := by
    rw [ht] at hf
    exact Bool.false_ne_true hf.symm
  cases stage <;> cases stage' <;> try rfl
  all_goals exfalso
  · rcases h.2 with hv | ⟨hl, hr⟩
    · exact hbool _ hv h'.2.1
    · exact hbool _ hr (h'.2.2.1 hl)
  · rcases h.2 with hv | ⟨hl, hr⟩
    · exact hbool _ hv h'.2.1
    · exact hbool _ hr (h'.2.2.1 hl)
  · rcases h'.2 with hv | ⟨hl, hr⟩
    · exact hbool _ hv h.2.1
    · exact hbool _ hr (h.2.2.1 hl)
  · exact hbool _ h.2.2.2 h'.2.2.2.1
  · rcases h'.2 with hv | ⟨hl, hr⟩
    · exact hbool _ hv h.2.1
    · exact hbool _ hr (h.2.2.1 hl)
  · exact hbool _ h'.2.2.2 h.2.2.2.1

/-- The ways out of the `except` block. -/
inductive Undone (L : Layout G) (s : SwapState G) (c : ℕ) (stage : Stage) :
    Outcome → SwapState G → Prop
  | restored (u : SwapState G) (g : Option G)
      (hdelete : L.livePin s.pins = none → s.fault .rollbackDelete = false)
      (hupdate : L.livePin s.pins ≠ none →
        s.fault .rollbackUpdate = false ∧ s.fault .rollbackVerify = false)
      (h : L.Reached s { stage.settled (L.livePin s.pins) s with candidate := g } u) :
      Undone L s c stage .restored u
  | unnoticed (u : SwapState G) (hold : L.livePin s.pins = none)
      (hdelete : s.fault .rollbackDelete = true) (hlookup : s.fault .rollbackLookup = true)
      (h : u.pins.entry = some c) : Undone L s c stage .restored u
  | failed (u : SwapState G) (m : Pins G)
      (hdelete : L.livePin s.pins = none →
        s.fault .rollbackDelete = true ∧ s.fault .rollbackLookup = false)
      (hupdate : L.livePin s.pins ≠ none →
        s.fault .rollbackUpdate = true ∨ s.fault .rollbackVerify = true)
      (h : L.Reached s m u) : Undone L s c stage .rollbackFailed u

theorem settled_pinned (s : SwapState G) (stage : Stage) (g : Option G) :
    L.Pinned { stage.settled (L.livePin s.pins) s with candidate := g } := by
  rw [Stage.settled]
  split_ifs
  · exact pinned_backup rfl
  · exact pinned_backup rfl
  · exact pinned_live rfl

theorem stage_entry (stage : Stage) (x y : Option ℕ) (m : Pins G) :
    ({ stage.pins x m with entry := y } : Pins G) = stage.pins y m := by
  cases stage <;> rfl

theorem undo_cases (hL : L.Lawful commitFails) (s e : SwapState G) (c : ℕ) (stage : Stage)
    (h : L.Consistent c s.pins) (he : L.Reached s (stage.pins (some c) s.pins) e) :
    Undone L s c stage (L.undo (stage.progress s.pins) (L.livePin s.pins) e).1
      (L.undo (stage.progress s.pins) (L.livePin s.pins) e).2 := by
  have hcandidate : s.pins.candidate.isSome = true := by
    have hc := h.candidate
    rw [candidatePin] at hc
    cases hg : s.pins.candidate with
    | none =>
      rw [hg] at hc
      exact absurd hc nofun
    | some g => rfl
  have hold : BothPinned L (L.livePin s.pins) s.pins := ⟨fun p hp => Or.inl hp⟩
  have hnew : BothPinned L (some c) s.pins := ⟨fun p hp => Or.inr (h.candidate.trans hp)⟩
  have hentry : e.pins.entry = some c := by
    rw [he.pins]
    cases stage <;> rfl
  have hpin : L.livePin s.pins ≠ none →
      (if (stage.progress s.pins).movedOld then L.backupPin else L.livePin) e.pins =
        L.livePin s.pins := by
    intro hne
    have hsome : s.pins.live.isSome = true := by
      cases hl : s.pins.live with
      | none =>
        rw [livePin, hl] at hne
        exact absurd rfl hne
      | some l => rfl
    rw [he.pins]
    cases stage with
    | inPlace => rfl
    | moved | committed =>
      simp only [Stage.progress, hsome, ↓reduceIte]
      rfl
  have hpinned : L.Pinned { e.pins with entry := L.livePin s.pins } := by
    rw [he.pins, stage_entry]
    apply hold.pinned _ (by cases stage <;> rfl)
    cases stage with
    | inPlace => exact Or.inl ⟨rfl, rfl⟩
    | moved => exact Or.inr (Or.inl ⟨rfl, rfl⟩)
    | committed => exact Or.inr (Or.inr ⟨rfl, rfl⟩)
  have hrollback := rollback_cases e c (L.livePin s.pins)
    (if (stage.progress s.pins).movedOld then L.backupPin else L.livePin) hentry hpin hpinned
  have hswitched : (stage.progress s.pins).switched = true := by cases stage <;> rfl
  simp only [undo, hswitched, ↓reduceIte, run_bind]
  generalize rollbackProgArrayEntry _ (L.livePin s.pins) e = last at hrollback ⊢
  obtain ⟨restored, v⟩ := last
  have hgenerations (x : Option ℕ) (u : SwapState G) (hu : L.Reached e { e.pins with entry := x } u) :
      L.Reached s (stage.pins x s.pins) u := by
    have hall := reached_trans he hu
    rw [he.pins, stage_entry] at hall
    exact hall
  have hrenames (x : Option ℕ) (u : SwapState G) (hx : BothPinned L x s.pins)
      (hu : L.Reached s (stage.pins x s.pins) u) : L.Reached s (stage.settled x s)
        (backToLive (stage.progress s.pins).movedOld
          (backToCandidate (stage.progress s.pins).movedCandidate u).2).2 :=
    reached_trans hu (renames_run s u x stage hu.pins hu.fault hcandidate hx)
  cases hrollback with
  | done _ hdelete hupdate hu =>
    have hsettled := hrenames _ v hold (hgenerations _ v hu)
    simp only [↓reduceIte, run_bind, run_pure]
    generalize (backToLive (stage.progress s.pins).movedOld
      (backToCandidate (stage.progress s.pins).movedCandidate v).2).2 = w at hsettled
    obtain ⟨g, hlast⟩ := hL.discard w fun g => by
      rw [hsettled.pins]
      exact settled_pinned s stage g
    have hall := reached_trans hsettled hlast
    rw [hsettled.pins] at hall
    rw [he.fault] at hdelete hupdate
    exact .restored _ g hdelete hupdate hall
  | unnoticed hnone hdelete hlookup =>
    have hsettled := hrenames _ v hnew he
    simp only [↓reduceIte, run_bind, run_pure]
    generalize (backToLive (stage.progress s.pins).movedOld
      (backToCandidate (stage.progress s.pins).movedCandidate v).2).2 = w at hsettled
    obtain ⟨g, hlast⟩ := hL.discard_pins w
    have hfault : v.fault = s.fault := he.fault
    simp only [hfault] at hdelete hlookup
    refine .unnoticed _ hnone hdelete hlookup ?_
    rw [hlast, hsettled.pins, Stage.settled]
    split_ifs <;> rfl
  | failed _ x hx hdelete hupdate hu =>
    have hboth : BothPinned L x s.pins := by
      rcases hx with rfl | rfl
      · rw [hentry]
        exact hnew
      · exact hold
    have hsettled := hrenames _ v hboth (hgenerations _ v hu)
    simp only [Bool.false_eq_true, ↓reduceIte, run_pure]
    rw [he.fault] at hdelete hupdate
    exact .failed _ _ hdelete hupdate hsettled

/-- After a stop the promise is kept exactly when nothing fails unnoticed. -/
theorem undone_atomic (s u : SwapState G) (c : ℕ) (stage : Stage) (r : Outcome)
    (h : L.Consistent c s.pins) (hr : Undone L s c stage r u) :
    L.SwapAtomic c s (r, u) ↔ CanUndoAt s.fault stage (L.livePin s.pins) := by
  have hfirst : L.Pinned s.pins := pinned_live h.entry
  have hbool (b : Bool) (ht : b = true) (hf : b = false) : False := by
    rw [ht] at hf
    exact Bool.false_ne_true hf.symm
  cases hr with
  | restored _ g hdelete hupdate hreached =>
    have hpinned : ∃ new, u.log = new ++ s.log ∧ ∀ m ∈ s.pins :: new, L.Pinned m := by
      obtain ⟨new, hlog, hpinned⟩ := hreached.log
      exact ⟨new, hlog, List.forall_mem_cons.mpr ⟨hfirst, hpinned⟩⟩
    have hatomic : L.SwapAtomic c s (.restored, u) ↔
        L.livePin u.pins = L.livePin s.pins ∧ L.backupPin u.pins = none := by
      constructor
      · intro hatomic
        exact (hatomic.restored rfl).2
      · intro hpins
        refine ⟨fun _ => ⟨?_, hpins⟩, nofun, hpinned⟩
        rw [h.entry, hreached.pins, Stage.settled]
        split_ifs <;> rfl
    rw [hatomic, hreached.pins, Stage.settled]
    split_ifs with hback hrestored
    · -- the candidate keeps the live name, and the old generation the new one
      refine iff_of_false (fun hpins => ?_) fun hcan => ?_
      · have hlive : L.candidatePin s.pins = L.livePin s.pins := hpins.1
        have hbackup : L.livePin s.pins = none := hpins.2
        rw [h.candidate, hbackup] at hlive
        exact absurd hlive nofun
      · cases hold : L.livePin s.pins with
        | none =>
          rw [hold] at hcan
          exact hbool _ hback.2 (hcan.2 hback.1 (hdelete hold))
        | some old =>
          obtain ⟨hu, hv⟩ := hupdate (by rw [hold]; exact nofun)
          rw [hold] at hcan
          exact hbool _ hback.2 ((hcan hu hv).1 hback.1)
    · -- the old generation keeps the new name, which matters if it holds a program
      cases hold : L.livePin s.pins with
      | none =>
        refine iff_of_true ⟨rfl, hold⟩ ⟨fun hboth => hbool _ hboth.1 (hdelete hold), fun hs _ => ?_⟩
        exact Bool.eq_false_iff.mpr fun hb => hback ⟨hs, hb⟩
      | some old =>
        refine iff_of_false (fun hpins => ?_) fun hcan => ?_
        · have hbackup : L.livePin s.pins = none := hpins.2
          rw [hold] at hbackup
          exact absurd hbackup nofun
        · obtain ⟨hu, hv⟩ := hupdate (by rw [hold]; exact nofun)
          exact hbool _ hrestored.2.2 ((hcan hu hv).2 hrestored.1)
    · refine iff_of_true ⟨rfl, rfl⟩ ?_
      have hkept (hs : stage = .committed) : s.fault .renameBack = false :=
        Bool.eq_false_iff.mpr fun hb => hback ⟨hs, hb⟩
      cases hold : L.livePin s.pins with
      | none => exact ⟨fun hboth => hbool _ hboth.1 (hdelete hold), fun hs _ => hkept hs⟩
      | some old =>
        refine fun _ _ => ⟨hkept, fun hs => Bool.eq_false_iff.mpr fun hb => ?_⟩
        refine hrestored ⟨hs, ?_, hb⟩
        cases hl : s.pins.live with
        | none =>
          rw [livePin, hl] at hold
          exact absurd hold nofun
        | some l => rfl
  | unnoticed _ hold hdelete hlookup hentry =>
    refine iff_of_false (fun hatomic => ?_) fun hcan => ?_
    · have hrestored := (hatomic.restored rfl).1
      change u.pins.entry = _ at hrestored
      rw [hentry, h.entry, hold] at hrestored
      exact absurd hrestored nofun
    · rw [hold] at hcan
      exact hcan.1 ⟨hdelete, hlookup⟩
  | failed _ m hdelete hupdate hreached =>
    refine iff_of_true ⟨nofun, nofun, ?_⟩ ?_
    · obtain ⟨new, hlog, hpinned⟩ := hreached.log
      exact ⟨new, hlog, List.forall_mem_cons.mpr ⟨hfirst, hpinned⟩⟩
    · cases hold : L.livePin s.pins with
      | none =>
        obtain ⟨hd, hl⟩ := hdelete hold
        exact ⟨fun hboth => hbool _ hboth.2 hl, fun _ hd' => (hbool _ hd hd').elim⟩
      | some old =>
        intro hu hv
        rcases hupdate (by rw [hold]; exact nofun) with hf | hf
        · exact (hbool _ hf hu).elim
        · exact (hbool _ hf hv).elim

theorem undo_unswitched (s : SwapState G) (old : Option ℕ) :
    L.undo {} old s = (.restored, (L.discardCandidate s).2) := by
  simp only [undo, Bool.false_eq_true, ↓reduceIte, run_bind, run_pure]
  rw [backToCandidate_skip false s (Or.inl rfl), backToLive_skip false s (Or.inl rfl)]

/-- Nothing was changed but the candidate's generation. -/
theorem discarded_atomic (s e : SwapState G) (c : ℕ) (g : Option G) (r : Outcome)
    (h : L.Consistent c s.pins) (hr : r ≠ .returned)
    (he : L.Reached s { s.pins with candidate := g } e) : L.SwapAtomic c s (r, e) := by
  refine ⟨fun _ => ?_, fun hreturned => absurd hreturned hr, ?_⟩
  · rw [he.pins]
    refine ⟨rfl, rfl, ?_⟩
    rw [backupPin, h.backup]
    rfl
  · obtain ⟨new, hlog, hpinned⟩ := he.log
    exact ⟨new, hlog, List.forall_mem_cons.mpr ⟨pinned_live h.entry, hpinned⟩⟩

/-- A swap in either layout keeps its promise exactly when the rollback can undo what the
`try` block did. -/
theorem progSwap_atomic (hL : L.Lawful commitFails) (s : SwapState G) (c : ℕ)
    (h : L.Consistent c s.pins) :
    L.SwapAtomic c s (L.progSwap s) ↔ L.CanUndo commitFails s := by
  obtain ⟨g, hdiscard⟩ := hL.discard s fun g => pinned_live h.entry
  rcases precheck_run s c h with ⟨hchecks, hrun⟩ | ⟨hchecks, hrun⟩
  · have hforward := forward_cases hL s c h
    simp only [progSwap, run_bind, hrun]
    generalize L.forward c s = last at hforward ⊢
    obtain ⟨progress, e⟩ := last
    cases hforward with
    | unswitched hupdate =>
      have hnever (stage : Stage) : ¬Stops commitFails e stage := by
        intro hstop
        have hok : e.fault .update = false := by cases stage <;> exact hstop.1
        rw [hupdate] at hok
        exact Bool.false_ne_true hok.symm
      simp only [Bool.false_eq_true, ↓reduceIte, undo_unswitched]
      refine iff_of_true (discarded_atomic _ _ c g _ h nofun hdiscard) ?_
      exact fun _ stage hstop => absurd hstop (hnever stage)
    | stopped stage _ hstop he =>
      have hundone := undone_atomic s _ c stage _ h (undo_cases hL s e c stage h he)
      have hcan : CanUndoAt s.fault stage (L.livePin s.pins) ↔ L.CanUndo commitFails s := by
        refine ⟨fun hcan _ stage' hstop' => ?_, fun hcan => hcan hchecks stage hstop⟩
        rw [stops_unique hstop' hstop]
        exact hcan
      have hall := hundone.trans hcan
      cases stage <;> exact hall
    | done _ b hgo he =>
      have hlive : L.livePin e.pins = some c := by
        rw [he.pins]
        exact h.candidate
      obtain ⟨b', hlast⟩ := hL.cleanup e s.pins.live.isSome fun b' => by
        apply pinned_live
        rw [he.pins]
        exact h.candidate.symm
      simp only [↓reduceIte, run_bind, run_pure]
      have hall := reached_trans he hlast
      refine iff_of_true ⟨nofun, fun _ => ?_, ?_⟩ fun _ stage hstop => absurd hstop (hgo stage)
      · rw [hall.pins]
        refine ⟨?_, hlive⟩
        rw [he.pins]
      · obtain ⟨new, hlog, hpinned⟩ := hall.log
        exact ⟨new, hlog, List.forall_mem_cons.mpr ⟨pinned_live h.entry, hpinned⟩⟩
  · simp only [progSwap, run_bind, hrun, run_pure]
    refine iff_of_true (discarded_atomic s _ c g _ h nofun hdiscard) ?_
    exact fun hc => absurd hc hchecks

/-- A call that may fail or find nothing to do. -/
theorem swapCall_either (site : SwapSite) (possible : Pins G → Bool) (effect : Pins G → Pins G)
    (s : SwapState G) (hpinned : L.Pinned (effect s.pins)) :
    L.Reached s (effect s.pins) (swapCall site possible effect s).2 ∨
      (swapCall site possible effect s).2 = s := by
  by_cases h : s.fault site = true ∨ possible s.pins = false
  · right
    rw [swapCall_fail site possible effect s h]
  · left
    rw [not_or] at h
    exact (swapCall_ok site possible effect s (Bool.not_eq_true _ |>.mp h.1)
      (Bool.not_eq_false _ |>.mp h.2) hpinned).2

theorem swapCall_pins (site : SwapSite) (possible : Pins G → Bool) (effect : Pins G → Pins G)
    (s : SwapState G) : (swapCall site possible effect s).2.pins = effect s.pins ∨
      (swapCall site possible effect s).2.pins = s.pins := by
  rw [swapCall]
  split_ifs
  · exact Or.inr rfl
  · exact Or.inl rfl

/-- A call on the candidate's generation. -/
theorem candidateCall (site : SwapSite) (possible : Pins G → Bool) (g : Option G)
    (s : SwapState G) :
    (∃ g', (swapCall site possible (fun m => { m with candidate := g }) s).2.pins =
      { s.pins with candidate := g' }) ∧
    ((∀ g', L.Pinned { s.pins with candidate := g' }) →
      ∃ g', L.Reached s { s.pins with candidate := g' }
        (swapCall site possible (fun m => { m with candidate := g }) s).2) := by
  constructor
  · rcases swapCall_pins site possible (fun m => { m with candidate := g }) s with h | h
    · exact ⟨g, h⟩
    · exact ⟨s.pins.candidate, h⟩
  · intro hpinned
    rcases swapCall_either (L := L) site possible (fun m => { m with candidate := g }) s
        (hpinned g) with h | h
    · exact ⟨g, h⟩
    · exact ⟨s.pins.candidate, h.symm ▸ reached_refl s⟩

theorem backupCall (site : SwapSite) (possible : Pins G → Bool) (g : Option G) (s : SwapState G)
    (hpinned : ∀ g', L.Pinned { s.pins with backup := g' }) :
    ∃ g', L.Reached s { s.pins with backup := g' }
      (swapCall site possible (fun m => { m with backup := g }) s).2 := by
  rcases swapCall_either (L := L) site possible (fun m => { m with backup := g }) s
      (hpinned g) with h | h
  · exact ⟨g, h⟩
  · exact ⟨s.pins.backup, h.symm ▸ reached_refl s⟩

end Layout

/-- The old pin cannot be unlinked. -/
def FileCommitFails (f : SwapSite → Bool) (movedOld : Bool) : Prop :=
  movedOld = true ∧ f .unlinkBackup = true

/-- The directory variant has no more to do inside its `try` block. -/
def DirCommitFails (_ : SwapSite → Bool) (_ : Bool) : Prop := False

open Layout

theorem fileLayout_lawful : fileLayout.Lawful FileCommitFails where
  discard_pins s :=
    (candidateCall (L := fileLayout) .unlinkCandidate (fun m => m.candidate.isSome) none s).1
  discard s :=
    (candidateCall (L := fileLayout) .unlinkCandidate (fun m => m.candidate.isSome) none s).2
  commit_fails s moved h := by
    obtain ⟨rfl, hf⟩ := h
    exact swapCall_fail .unlinkBackup (fun m => m.backup.isSome)
      (fun m => { m with backup := none }) s (Or.inl hf)
  commit s moved h hbackup hpinned := by
    cases moved with
    | false => exact ⟨rfl, s.pins.backup, reached_refl s⟩
    | true =>
      have hf : s.fault .unlinkBackup = false := Bool.eq_false_iff.mpr fun hf => h ⟨rfl, hf⟩
      obtain ⟨hok, hreached⟩ := swapCall_ok (L := fileLayout) .unlinkBackup
        (fun m => m.backup.isSome) (fun m => { m with backup := none }) s hf (hbackup rfl)
        (hpinned none)
      exact ⟨hok, none, hreached⟩
  cleanup s _ _ := ⟨s.pins.backup, reached_refl s⟩

theorem dirLayout_lawful : dirLayout.Lawful DirCommitFails where
  discard_pins s := by
    obtain ⟨g, hg⟩ := (candidateCall (L := dirLayout) .unlinkCandidate
      (fun m => m.candidate.any Option.isSome) (some none) s).1
    obtain ⟨g', hg'⟩ := (candidateCall (L := dirLayout) .rmdirCandidate
      (fun m => m.candidate = some none) none (swapCall .unlinkCandidate
        (fun m => m.candidate.any Option.isSome) (fun m => { m with candidate := some none }) s).2).1
    rw [hg] at hg'
    exact ⟨g', hg'⟩
  discard s hpinned := by
    obtain ⟨g, hg⟩ := (candidateCall (L := dirLayout) .unlinkCandidate
      (fun m => m.candidate.any Option.isSome) (some none) s).2 hpinned
    obtain ⟨g', hg'⟩ := (candidateCall (L := dirLayout) .rmdirCandidate
      (fun m => m.candidate = some none) none (swapCall .unlinkCandidate
        (fun m => m.candidate.any Option.isSome) (fun m => { m with candidate := some none }) s).2).2
      (by rw [hg.pins]; exact hpinned)
    have hall := reached_trans hg hg'
    rw [hg.pins] at hall
    exact ⟨g', hall⟩
  commit_fails _ _ h := h.elim
  commit s _ _ _ _ := ⟨rfl, s.pins.backup, reached_refl s⟩
  cleanup s moved hpinned := by
    cases moved with
    | false => exact ⟨s.pins.backup, reached_refl s⟩
    | true =>
      obtain ⟨g, hg⟩ := backupCall (L := dirLayout) .unlinkBackup
        (fun m => m.backup.any Option.isSome) (some none) s hpinned
      obtain ⟨g', hg'⟩ := backupCall (L := dirLayout) .rmdirBackup
        (fun m => m.backup = some none) none (swapCall .unlinkBackup
          (fun m => m.backup.any Option.isSome) (fun m => { m with backup := some none }) s).2
        (by rw [hg.pins]; exact hpinned)
      have hall := reached_trans hg hg'
      rw [hg.pins] at hall
      exact ⟨g', hall⟩

/-- Both swaps, under any pattern of failing calls. -/
theorem prog_swap_atomic (s : SwapState ℕ) (t : SwapState (Option ℕ)) (c e : ℕ)
    (hs : fileLayout.Consistent c s.pins) (ht : dirLayout.Consistent e t.pins) :
    (fileLayout.SwapAtomic c s (transactionalFileProgSwap s) ↔
      fileLayout.CanUndo FileCommitFails s) ∧
    (dirLayout.SwapAtomic e t (transactionalDirProgSwap t) ↔
      dirLayout.CanUndo DirCommitFails t) :=
  ⟨progSwap_atomic fileLayout_lawful s c hs, progSwap_atomic dirLayout_lawful t e ht⟩

/-- The committed pin cannot be inspected, and the candidate cannot be renamed back. -/
def sampleSwap : SwapState ℕ where
  pins := { entry := some 7, live := some 7, candidate := some 9 }
  fault site := site = .inspectCommitted || site = .renameBack

theorem sampleSwap_consistent : fileLayout.Consistent 9 sampleSwap.pins := ⟨rfl, rfl, rfl⟩

/-- The same for a pin directory. -/
def sampleDirSwap : SwapState (Option ℕ) where
  pins := { entry := some 7, live := some (some 7), candidate := some (some 9) }
  fault site := site = .inspectCommitted || site = .renameBack

theorem prog_swap_atomic_sample :
    (fileLayout.SwapAtomic 9 sampleSwap (transactionalFileProgSwap sampleSwap) ↔
      fileLayout.CanUndo FileCommitFails sampleSwap) ∧
    (dirLayout.SwapAtomic 9 sampleDirSwap (transactionalDirProgSwap sampleDirSwap) ↔
      dirLayout.CanUndo DirCommitFails sampleDirSwap) :=
  prog_swap_atomic sampleSwap sampleDirSwap 9 9 sampleSwap_consistent ⟨rfl, rfl, rfl⟩

/-- The previous program is said to be restored, but the live pin is the candidate's. -/
theorem prog_swap_not_restored :
    fileLayout.Consistent 9 sampleSwap.pins ∧
      (transactionalFileProgSwap sampleSwap).1 = .restored ∧
      (transactionalFileProgSwap sampleSwap).2.pins =
        { entry := some 7, live := some 9, candidate := none, backup := some 7 } ∧
      ¬fileLayout.SwapAtomic 9 sampleSwap (transactionalFileProgSwap sampleSwap) := by
  have hrestored : (transactionalFileProgSwap sampleSwap).1 = .restored := by decide +kernel
  have hpins : (transactionalFileProgSwap sampleSwap).2.pins =
      { entry := some 7, live := some 9, candidate := none, backup := some 7 } := by decide +kernel
  refine ⟨sampleSwap_consistent, hrestored, hpins, fun hatomic => ?_⟩
  have hbackup := (hatomic.restored hrestored).2.2
  rw [hpins] at hbackup
  exact absurd hbackup nofun

end AdminCli

end AutoXdp
