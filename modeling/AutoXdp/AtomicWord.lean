import AutoXdp.AtomicProg
import Mathlib.Tactic.Basic

/-! One 64-bit word that lives in a shared map: a thread can look it up, insert
it if absent, read it, and swap it. Nothing removes it. -/
namespace AtomicWord
open AtomicProg

inductive WordOp where
  | lookup
  | insert (v : BitVec 64)
  | load
  | cas (old new : BitVec 64)
  | swap (v : BitVec 64)
  deriving DecidableEq

abbrev WordOp.Res : WordOp → Type
  | lookup => Bool
  | insert _ => Bool
  | load => BitVec 64
  | cas _ _ => BitVec 64
  | swap _ => BitVec 64

abbrev wordInterface : Interface := ⟨WordOp, WordOp.Res⟩

/-! The calls, with their answers as plain words. -/

def lookupWord : Prog wordInterface Bool := .op .lookup .ret
def insertWord (v : BitVec 64) : Prog wordInterface Bool := .op (.insert v) .ret
def loadWord : Prog wordInterface (BitVec 64) := .op .load .ret
def casWord (old new : BitVec 64) : Prog wordInterface (BitVec 64) := .op (.cas old new) .ret
def swapWord (v : BitVec 64) : Prog wordInterface (BitVec 64) := .op (.swap v) .ret

section Bind

variable {α : Type}

@[simp] theorem lookupWord_bind (f : Bool → Prog wordInterface α) :
    lookupWord >>= f = .op .lookup f := rfl

@[simp] theorem insertWord_bind (v : BitVec 64) (f : Bool → Prog wordInterface α) :
    insertWord v >>= f = .op (.insert v) f := rfl

@[simp] theorem loadWord_bind (f : BitVec 64 → Prog wordInterface α) :
    loadWord >>= f = .op .load f := rfl

@[simp] theorem casWord_bind (old new : BitVec 64) (f : BitVec 64 → Prog wordInterface α) :
    casWord old new >>= f = .op (.cas old new) f := rfl

@[simp] theorem swapWord_bind (v : BitVec 64) (f : BitVec 64 → Prog wordInterface α) :
    swapWord v >>= f = .op (.swap v) f := rfl

end Bind

/-- `insert` only fills an absent word; `cas` answers the word it found. -/
def wordHandler : Handler wordInterface (Option (BitVec 64))
  | .lookup, w => (w.isSome, w)
  | .insert v, w => (w.isNone, some (w.getD v))
  | .load, w => (w.getD 0, w)
  | .cas old new, w => (w.getD 0, if w = some old then some new else w)
  | .swap v, w => (w.getD 0, w.map fun _ => v)

/-- Once present, the word stays present. -/
theorem word_stays (o : WordOp) (w : Option (BitVec 64)) (hw : w.isSome) :
    (wordHandler o w).2.isSome := by
  obtain ⟨v, rfl⟩ := Option.isSome_iff_exists.mp hw
  cases o with
  | cas old new =>
    simp only [wordHandler]
    split <;> rfl
  | _ => rfl

end AtomicWord
