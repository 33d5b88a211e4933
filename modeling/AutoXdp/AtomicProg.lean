import Mathlib.Logic.Function.Basic
import Mathlib.Tactic.Basic

/-! Programs whose only effects are calls of atomic operations. A program runs
alone against a handler, or in a pool whose scheduler picks one thread a step. -/
namespace AtomicProg

/-- The atomic operations a program may call, with the type of each answer. -/
structure Interface where
  Op : Type
  Res : Op → Type

inductive Prog (I : Interface) (α : Type) where
  | ret (a : α)
  | op (o : I.Op) (k : I.Res o → Prog I α)

/-- How the shared state answers one operation. -/
abbrev Handler (I : Interface) (σ : Type) := (o : I.Op) → σ → I.Res o × σ

variable {I : Interface} {α β σ ι G : Type}

namespace Prog

def bind : Prog I α → (α → Prog I β) → Prog I β
  | ret a, f => f a
  | op o k, f => op o fun r => (k r).bind f

instance : Monad (Prog I) where
  pure := ret
  bind := bind

def call (o : I.Op) : Prog I (I.Res o) := op o ret

@[simp] theorem pure_eq (a : α) : (pure a : Prog I α) = ret a := rfl

@[simp] theorem ret_bind (a : α) (f : α → Prog I β) : (ret a : Prog I α) >>= f = f a := rfl

@[simp] theorem op_bind (o : I.Op) (k : I.Res o → Prog I α) (f : α → Prog I β) :
    op o k >>= f = op o fun r => k r >>= f := rfl

@[simp] theorem call_bind (o : I.Op) (f : I.Res o → Prog I β) : call o >>= f = op o f := rfl

theorem bind_assoc (p : Prog I α) {γ : Type} (f : α → Prog I β) (g : β → Prog I γ) :
    (p >>= f) >>= g = p >>= fun a => f a >>= g := by
  induction p with
  | ret a => rfl
  | op o k ih =>
    simp only [op_bind]
    exact congrArg (op o) (funext ih)

/-- The value of a finished program. -/
def result? : Prog I α → Option α
  | ret a => some a
  | op _ _ => none

/-- The operation a program is about to call. -/
def next? : Prog I α → Option I.Op
  | ret _ => none
  | op o _ => some o

@[simp] theorem result_ret (a : α) : (ret a : Prog I α).result? = some a := rfl
@[simp] theorem result_op (o : I.Op) (k : I.Res o → Prog I α) : (op o k).result? = none := rfl
@[simp] theorem next_ret (a : α) : (ret a : Prog I α).next? = none := rfl
@[simp] theorem next_op (o : I.Op) (k : I.Res o → Prog I α) : (op o k).next? = some o := rfl

/-! Running alone. -/

def exec (h : Handler I σ) : Prog I α → σ → α × σ
  | ret a, s => (a, s)
  | op o k, s => exec h (k (h o s).1) (h o s).2

@[simp] theorem exec_ret (h : Handler I σ) (a : α) (s : σ) : exec h (ret a) s = (a, s) := rfl

@[simp] theorem exec_op (h : Handler I σ) (o : I.Op) (k : I.Res o → Prog I α) (s : σ) :
    exec h (op o k) s = exec h (k (h o s).1) (h o s).2 := rfl

@[simp] theorem exec_call (h : Handler I σ) (o : I.Op) (s : σ) : exec h (call o) s = h o s := rfl

@[simp] theorem exec_bind (h : Handler I σ) (p : Prog I α) (f : α → Prog I β) (s : σ) :
    exec h (p >>= f) s = exec h (f (exec h p s).1) (exec h p s).2 := by
  induction p generalizing s with
  | ret a => rfl
  | op o k ih => exact ih _ _

@[simp] theorem exec_ite (h : Handler I σ) (c : Prop) [Decidable c] (p q : Prog I α) (s : σ) :
    exec h (if c then p else q) s = if c then exec h p s else exec h q s := by
  split <;> rfl

/-- One call with its answer. -/
structure Call (I : Interface) where
  op : I.Op
  res : I.Res op

/-- The calls of a run alone, newest first, on top of the calls `H` before it. -/
def trace (h : Handler I σ) : Prog I α → σ → List (Call I) → List (Call I)
  | ret _, _, H => H
  | op o k, s, H => trace h (k (h o s).1) (h o s).2 (⟨o, (h o s).1⟩ :: H)

theorem trace_append (h : Handler I σ) (p : Prog I α) (s : σ) (H : List (Call I)) :
    trace h p s H = trace h p s [] ++ H := by
  induction p generalizing s H with
  | ret a => rfl
  | op o k ih =>
    simp only [trace]
    rw [ih _ _ [_], List.append_assoc]
    exact ih _ _ _

/-! Assertions about every node a program can reach. `upd` advances what the
thread remembers of its own calls; `P` sees it, the call and the continuation. -/

def Always (upd : G → (o : I.Op) → I.Res o → G)
    (P : G → (o : I.Op) → (I.Res o → Prog I α) → Prop) : G → Prog I α → Prop
  | _, ret _ => True
  | g, op o k => P g o k ∧ ∀ r, Always upd P (upd g o r) (k r)

section Always

variable {upd : G → (o : I.Op) → I.Res o → G}
  {P : G → (o : I.Op) → (I.Res o → Prog I α) → Prop}

@[simp] theorem always_ret (g : G) (a : α) : Always upd P g (ret a : Prog I α) := trivial

@[simp] theorem always_op (g : G) (o : I.Op) (k : I.Res o → Prog I α) :
    Always upd P g (op o k) ↔ P g o k ∧ ∀ r, Always upd P (upd g o r) (k r) := Iff.rfl

theorem always_ite (g : G) (c : Prop) [Decidable c] (p q : Prog I α)
    (hp : c → Always upd P g p) (hq : ¬c → Always upd P g q) :
    Always upd P g (if c then p else q) := by
  split
  · exact hp ‹_›
  · exact hq ‹_›

/-- A program all of whose calls satisfy `N`, whatever is answered. -/
def Only (N : I.Op → Prop) : Prog I β → Prop
  | ret _ => True
  | op o k => N o ∧ ∀ r, Only N (k r)

@[simp] theorem only_ret (N : I.Op → Prop) (a : β) : Only N (ret a : Prog I β) := trivial

@[simp] theorem only_op (N : I.Op → Prop) (o : I.Op) (k : I.Res o → Prog I β) :
    Only N (op o k) ↔ N o ∧ ∀ r, Only N (k r) := Iff.rfl

theorem only_bind {γ : Type} (N : I.Op → Prop) (p : Prog I β) (f : β → Prog I γ)
    (hp : Only N p) (hf : ∀ b, Only N (f b)) : Only N (p >>= f) := by
  induction p with
  | ret b => exact hf b
  | op o k ih => exact ⟨hp.1, fun r => ih r (hp.2 r)⟩

theorem only_ite (N : I.Op → Prop) (c : Prop) [Decidable c] (p q : Prog I β)
    (hp : c → Only N p) (hq : ¬c → Only N q) : Only N (if c then p else q) := by
  split
  · exact hp ‹_›
  · exact hq ‹_›

/-- Remembers every call. -/
def push (H : List (Call I)) (o : I.Op) (r : I.Res o) : List (Call I) := ⟨o, r⟩ :: H

/-- The left part of a bind makes only calls that `Q` always allows and that keep
`Inv` of the calls made so far. -/
theorem always_bind {Q : List (Call I) → (o : I.Op) → (I.Res o → Prog I α) → Prop}
    (N : I.Op → Prop) (Inv : List (Call I) → Prop) (p : Prog I β) (f : β → Prog I α)
    (hp : Only N p) (hInv : ∀ H o r, N o → Inv H → Inv (⟨o, r⟩ :: H))
    (hQ : ∀ H o k, N o → Q H o k) (H : List (Call I)) (hH : Inv H)
    (hf : ∀ b H, Inv H → Always push Q H (f b)) : Always push Q H (p >>= f) := by
  induction p generalizing H with
  | ret b => exact hf b H hH
  | op o k ih => exact ⟨hQ H o _ hp.1, fun r => ih r (hp.2 r) _ (hInv H o r hp.1 hH)⟩

/-- The rule of a run alone: what each asserted call keeps, the run keeps. `J` sees
the calls made, the call that is next, and the state. -/
theorem trace_always {Q : List (Call I) → (o : I.Op) → (I.Res o → Prog I α) → Prop}
    (h : Handler I σ) (J : List (Call I) → Option I.Op → σ → Prop)
    (hJ : ∀ H o k s, Q H o k → J H (some o) s →
      J (⟨o, (h o s).1⟩ :: H) (k (h o s).1).next? (h o s).2)
    (p : Prog I α) (H : List (Call I)) (s : σ) (hp : Always push Q H p) (hs : J H p.next? s) :
    J (trace h p s H) none (exec h p s).2 := by
  induction p generalizing H s with
  | ret a => exact hs
  | op o k ih => exact ih _ _ _ (hp.2 _) (hJ H o k s hp.1 hs)

/-- An assertion may be replaced by a weaker one. -/
theorem always_mono {Q : G → (o : I.Op) → (I.Res o → Prog I α) → Prop} (g : G) (p : Prog I α)
    (hPQ : ∀ g o k, P g o k → Q g o k) (hp : Always upd P g p) : Always upd Q g p := by
  induction p generalizing g with
  | ret a => trivial
  | op o k ih => exact ⟨hPQ g o k hp.1, fun r => ih r _ (hp.2 r)⟩

/-- An assertion about the calls only does not see how the program ends. -/
theorem always_map {N : G → I.Op → Prop} (g : G) (p : Prog I α) (b : β)
    (hp : Always upd (fun g o _ => N g o) g p) :
    Always upd (fun g o _ => N g o) g (p >>= fun _ => ret b) := by
  induction p generalizing g with
  | ret a => trivial
  | op o k ih => exact ⟨hp.1, fun r => ih r _ (hp.2 r)⟩

end Always

end Prog

/-- Every entry of a log, newest first, meets `Q` together with the entries before it. -/
def EachEntry {ε : Type} (Q : ε → List ε → Prop) : List ε → Prop
  | [] => True
  | e :: log => Q e log ∧ EachEntry Q log

/-! Pools of threads. -/

/-- One executed call: who made it, what was answered, the state around it. -/
structure Event (I : Interface) (ι σ : Type) where
  who : ι
  op : I.Op
  res : I.Res op
  pre : σ
  post : σ

/-- The shared state, each thread's residual program, and the calls made so far,
newest first. -/
structure Pool (I : Interface) (ι σ α : Type) where
  shared : σ
  thread : ι → Prog I α
  log : List (Event I ι σ)

namespace Pool

variable [DecidableEq ι]

def start (s : σ) (t : ι → Prog I α) : Pool I ι σ α := ⟨s, t, []⟩

/-- The scheduler lets thread `i` make its next call; a finished thread stays. -/
def step (h : Handler I σ) (c : Pool I ι σ α) (i : ι) : Pool I ι σ α :=
  match c.thread i with
  | .ret _ => c
  | .op o k =>
    { shared := (h o c.shared).2
      thread := Function.update c.thread i (k (h o c.shared).1)
      log := ⟨i, o, (h o c.shared).1, c.shared, (h o c.shared).2⟩ :: c.log }

def run (h : Handler I σ) (c : Pool I ι σ α) (sched : List ι) : Pool I ι σ α :=
  sched.foldl (step h) c

/-- What thread `i` remembers of its own calls. -/
def memory (upd : G → (o : I.Op) → I.Res o → G) (g : G) (i : ι) (log : List (Event I ι σ)) : G :=
  log.foldr (fun e m => if e.who = i then upd m e.op e.res else m) g

@[simp] theorem memory_nil (upd : G → (o : I.Op) → I.Res o → G) (g : G) (i : ι) :
    memory upd g i ([] : List (Event I ι σ)) = g := rfl

theorem memory_cons_self (upd : G → (o : I.Op) → I.Res o → G) (g : G) (i : ι)
    (e : Event I ι σ) (log : List (Event I ι σ)) (he : e.who = i) :
    memory upd g i (e :: log) = upd (memory upd g i log) e.op e.res := by
  simp only [memory, List.foldr_cons, he, ↓reduceIte]

theorem memory_cons_ne (upd : G → (o : I.Op) → I.Res o → G) (g : G) (i : ι)
    (e : Event I ι σ) (log : List (Event I ι σ)) (he : e.who ≠ i) :
    memory upd g i (e :: log) = memory upd g i log := by
  simp only [memory, List.foldr_cons, he, ↓reduceIte]

theorem step_of_ret (h : Handler I σ) (c : Pool I ι σ α) (i : ι) (a : α)
    (hi : c.thread i = .ret a) : step h c i = c := by
  simp only [step, hi]

theorem step_of_op (h : Handler I σ) (c : Pool I ι σ α) (i : ι) (o : I.Op)
    (k : I.Res o → Prog I α) (hi : c.thread i = .op o k) :
    step h c i =
      { shared := (h o c.shared).2
        thread := Function.update c.thread i (k (h o c.shared).1)
        log := ⟨i, o, (h o c.shared).1, c.shared, (h o c.shared).2⟩ :: c.log } := by
  simp only [step, hi]

/-- The calls thread `i` made, newest first. -/
def calls (log : List (Event I ι σ)) (i : ι) : List (Prog.Call I) := memory Prog.push [] i log

theorem calls_step (h : Handler I σ) (c : Pool I ι σ α) (i j : ι) (o : I.Op)
    (k : I.Res o → Prog I α) (hi : c.thread i = .op o k) :
    calls (step h c i).log j =
      if j = i then ⟨o, (h o c.shared).1⟩ :: calls c.log j else calls c.log j := by
  rw [step_of_op h c i o k hi]
  by_cases hj : j = i
  · rw [if_pos hj]
    exact memory_cons_self Prog.push [] j _ c.log hj.symm
  · rw [if_neg hj]
    exact memory_cons_ne Prog.push [] j _ c.log (Ne.symm hj)

/-- Thread assertions survive every step: the thread that ran moves to a node of
its own tree, the others do not move. -/
theorem always_step {upd : G → (o : I.Op) → I.Res o → G}
    {P : ι → G → (o : I.Op) → (I.Res o → Prog I α) → Prop} (g : ι → G)
    (h : Handler I σ) (c : Pool I ι σ α) (i : ι)
    (hc : ∀ j, Prog.Always upd (P j) (memory upd (g j) j c.log) (c.thread j)) :
    ∀ j, Prog.Always upd (P j) (memory upd (g j) j (step h c i).log) ((step h c i).thread j) := by
  intro j
  cases hi : c.thread i with
  | ret a => rw [step_of_ret h c i a hi]; exact hc j
  | op o k =>
    rw [step_of_op h c i o k hi]
    have hci := hc i
    rw [hi] at hci
    dsimp only
    by_cases hj : j = i
    · subst hj
      rw [memory_cons_self upd (g j) j _ c.log rfl, Function.update_self]
      exact hci.2 (h o c.shared).1
    · rw [memory_cons_ne upd (g j) j _ c.log (Ne.symm hj), Function.update_of_ne hj]
      exact hc j

end Pool

end AtomicProg
