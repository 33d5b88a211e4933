import AutoXdp.StateSteps
import Mathlib.Data.Nat.Notation
import Mathlib.Tactic.Basic

/-! Replacing the program of a program-array entry together with its pin
(`_transactional_file_prog_swap` and `_transactional_dir_prog_swap` of `auto_xdp/admin_cli.py`). -/
namespace AutoXdp
open StateSteps

/-- The calls of `bpftool` and of the file system, each made at most once in a run. -/
inductive SwapSite where
  | inspectCandidate | inspectLive | lookupActive
  | update | verifySwitched | renameOld | renameCandidate | verifyCommitted | inspectCommitted
  | rollbackDelete | rollbackLookup | rollbackUpdate | rollbackVerify | renameBack | renameRestored
  | unlinkCandidate | rmdirCandidate | unlinkBackup | rmdirBackup
  deriving DecidableEq, Repr

/-- The entry, and what is found under the three names. -/
structure Pins (G : Type) where
  entry : Option ℕ := none
  live : Option G := none
  candidate : Option G := none
  backup : Option G := none
  deriving DecidableEq, Repr

/-- With the calls that will fail, and what each call that changed something left, newest
first. -/
structure SwapState (G : Type) where
  pins : Pins G
  fault : SwapSite → Bool := fun _ => false
  log : List (Pins G) := []

abbrev SwapM (G : Type) := StateM (SwapState G)

variable {G : Type}

/-- One call; it changes nothing when it fails or finds nothing to work on. -/
def swapCall (site : SwapSite) (possible : Pins G → Bool) (effect : Pins G → Pins G) :
    SwapM G Bool := fun s =>
  if s.fault site || !possible s.pins then (false, s)
  else (true, { s with pins := effect s.pins, log := effect s.pins :: s.log })

namespace AdminCli

/-- `None` is the `RuntimeError`. -/
def pinnedProgramId (site : SwapSite) (pin : Pins G → Option ℕ) : SwapM G (Option ℕ) := fun s =>
  (if s.fault site then none else pin s.pins, s)

/-- `None` for an empty entry, and also for a lookup that failed. -/
def progArrayEntryId (site : SwapSite) : SwapM G (Option ℕ) := fun s =>
  (if s.fault site then none else s.pins.entry, s)

def progArrayUpdate (site : SwapSite) (pin : Pins G → Option ℕ) : SwapM G Bool :=
  swapCall site (fun m => (pin m).isSome) fun m => { m with entry := pin m }

def progArrayDelete (site : SwapSite) : SwapM G Bool :=
  swapCall site (fun m => m.entry.isSome) fun m => { m with entry := none }

def verifyProgArrayEntry (site : SwapSite) (expectedId : ℕ) : SwapM G Bool := do
  let actualId ← progArrayEntryId site
  return actualId = some expectedId

/-- `false` is the `RuntimeError`. -/
def rollbackProgArrayEntry (oldPin : Option (Pins G → Option ℕ)) (oldId : Option ℕ) :
    SwapM G Bool := do
  match oldPin, oldId with
  | some pin, some id =>
    if ← progArrayUpdate .rollbackUpdate pin then verifyProgArrayEntry .rollbackVerify id
    else return false
  | _, _ =>
    if ← progArrayDelete .rollbackDelete then return true
    else
      let actualId ← progArrayEntryId .rollbackLookup
      return actualId.isNone

/-! The renames. -/

def renameOld : SwapM G Bool :=
  swapCall .renameOld (fun m => m.live.isSome) fun m => { m with live := none, backup := m.live }

def renameCandidate : SwapM G Bool :=
  swapCall .renameCandidate (fun m => m.candidate.isSome) fun m =>
    { m with candidate := none, live := m.candidate }

def renameBack : SwapM G Bool :=
  swapCall .renameBack (fun m => m.live.isSome) fun m =>
    { m with live := none, candidate := m.live }

def renameRestored : SwapM G Bool :=
  swapCall .renameRestored (fun m => m.backup.isSome) fun m =>
    { m with backup := none, live := m.backup }

/-- What the file and the directory variant do each in its own way: which program is pinned,
how the candidate is removed, and what becomes of the old generation inside the `try` block
and after it. -/
structure Layout (G : Type) where
  prog : G → Option ℕ
  discardCandidate : SwapM G PUnit
  commit : (movedOld : Bool) → SwapM G Bool
  cleanup : (movedOld : Bool) → SwapM G PUnit

namespace Layout

variable (L : Layout G)

def livePin (m : Pins G) : Option ℕ := m.live.bind L.prog
def candidatePin (m : Pins G) : Option ℕ := m.candidate.bind L.prog
def backupPin (m : Pins G) : Option ℕ := m.backup.bind L.prog

/-- The first `try` block: the ids of the candidate and of the old program. -/
def precheck : SwapM G (Option (ℕ × Option ℕ)) := do
  match ← pinnedProgramId .inspectCandidate L.candidatePin with
  | none => return none
  | some candidateId =>
    let s ← get
    let oldExists := (L.livePin s.pins).isSome
    let oldId ← if oldExists then pinnedProgramId .inspectLive L.livePin else pure none
    if oldExists ∧ oldId = none then return none
    else
      let activeId ← progArrayEntryId .lookupActive
      if oldId = none ∧ activeId ≠ none then return none
      else if oldId ≠ none ∧ ¬(activeId = none ∨ activeId = oldId) then return none
      else return some (candidateId, oldId)

/-- How far the second `try` block came. -/
structure Progress where
  switched : Bool := false
  movedOld : Bool := false
  movedCandidate : Bool := false
  done : Bool := false

/-- The old generation makes room, if there is one. -/
def moveOld : SwapM G Bool := do
  let s ← get
  if s.pins.live.isSome then renameOld else return true

/-- The candidate takes the live name and is checked once more. -/
def commitCandidate (candidateId : ℕ) (movedOld : Bool) : SwapM G Progress := do
  if ← renameCandidate then
    if ← verifyProgArrayEntry .verifyCommitted candidateId then
      if (← pinnedProgramId .inspectCommitted L.livePin) = some candidateId then
        return ⟨true, movedOld, true, ← L.commit movedOld⟩
      else return ⟨true, movedOld, true, false⟩
    else return ⟨true, movedOld, true, false⟩
  else return ⟨true, movedOld, false, false⟩

/-- The second `try` block. -/
def forward (candidateId : ℕ) : SwapM G Progress := do
  if ← progArrayUpdate .update L.candidatePin then
    if ← verifyProgArrayEntry .verifySwitched candidateId then
      let s ← get
      if ← moveOld then L.commitCandidate candidateId s.pins.live.isSome
      else return ⟨true, false, false, false⟩
    else return ⟨true, false, false, false⟩
  else return {}

inductive Outcome where
  | returned | refused | restored | rollbackFailed
  deriving DecidableEq, Repr

def backToCandidate (movedCandidate : Bool) : SwapM G PUnit := do
  let s ← get
  if movedCandidate ∧ s.pins.live.isSome then discard renameBack else return ⟨⟩

def backToLive (movedOld : Bool) : SwapM G PUnit := do
  let s ← get
  if movedOld ∧ s.pins.backup.isSome ∧ ¬s.pins.live.isSome then discard renameRestored
  else return ⟨⟩

/-- The `except` block. -/
def undo (progress : Progress) (oldId : Option ℕ) : SwapM G Outcome := do
  let oldPin := if oldId.isSome then
    some (if progress.movedOld then L.backupPin else L.livePin) else none
  let restored ← if progress.switched then rollbackProgArrayEntry oldPin oldId else pure true
  backToCandidate progress.movedCandidate
  backToLive progress.movedOld
  if restored then
    L.discardCandidate
    return .restored
  else return .rollbackFailed

def progSwap : SwapM G Outcome := do
  match ← L.precheck with
  | none =>
    L.discardCandidate
    return .refused
  | some (candidateId, oldId) =>
    let progress ← L.forward candidateId
    if progress.done then
      L.cleanup progress.movedOld
      return .returned
    else L.undo progress oldId

end Layout

/-! The two variants. -/

/-- A generation is the pin itself; the old one is unlinked inside the `try` block. -/
def fileLayout : Layout ℕ where
  prog := some
  discardCandidate := discard (swapCall .unlinkCandidate (fun m => m.candidate.isSome)
    fun m => { m with candidate := none })
  commit movedOld := if movedOld then swapCall .unlinkBackup (fun m => m.backup.isSome)
    (fun m => { m with backup := none }) else pure true
  cleanup _ := pure ⟨⟩

/-- A generation is a directory which may hold a program; `rmtree` removes that and then
the directory. -/
def dirLayout : Layout (Option ℕ) where
  prog := id
  discardCandidate := do
    discard (swapCall .unlinkCandidate (fun m => m.candidate.any Option.isSome)
      fun m => { m with candidate := some none })
    discard (swapCall .rmdirCandidate (fun m => m.candidate = some none)
      fun m => { m with candidate := none })
  commit _ := pure true
  cleanup movedOld := if movedOld then do
      discard (swapCall .unlinkBackup (fun m => m.backup.any Option.isSome)
        fun m => { m with backup := some none })
      discard (swapCall .rmdirBackup (fun m => m.backup = some none)
        fun m => { m with backup := none })
    else pure ⟨⟩

def transactionalFileProgSwap : SwapM ℕ Layout.Outcome := fileLayout.progSwap

def transactionalDirProgSwap : SwapM (Option ℕ) Layout.Outcome := dirLayout.progSwap

end AdminCli

end AutoXdp
