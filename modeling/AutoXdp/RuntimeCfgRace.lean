import AutoXdp.AtomicProg
import AutoXdp.BackendReconcile
import AutoXdp.GuardedRun
import AutoXdp.RiskSteps
import Mathlib.Tactic.Basic
import Mathlib.Tactic.Tauto

/-! The daemon's thread and the AbuseIPDB thread both rewrite the entry of
`xdp_runtime_cfg`, through one `BpfRuntimeConfigMap` and so through one value buffer. A
call into the kernel or into `struct` is one step of a thread. -/
namespace AutoXdp
open AtomicProg GuardedRun BpfRiskMaps XdpBackend

/-! The object and the entry. -/

/-- The two `bpf` calls, and `unpack_from` and `pack_into` on `_val`. -/
inductive CfgOp where
  | lookup
  | unpack
  | pack (fields : XdpRuntimeCfg)
  | update
  deriving DecidableEq

def CfgOp.Res : CfgOp → Type
  | .lookup => Bool
  | .unpack => XdpRuntimeCfg
  | .pack _ => Unit
  | .update => Bool

abbrev cfgCalls : Interface := ⟨CfgOp, CfgOp.Res⟩

/-- The kernel's entry, the buffer, and which of the calls into the kernel will fail. -/
structure CfgState where
  entry : XdpRuntimeCfg
  val : XdpRuntimeCfg
  fault : ℕ → Bool := fun _ => false
  syscalls : ℕ := 0

/-- A lookup fills the buffer, an update reads it; when the call fails neither is touched. -/
def cfgHandler : Handler cfgCalls CfgState
  | .lookup, s =>
    if s.fault s.syscalls then (false, { s with syscalls := s.syscalls + 1 })
    else (true, { s with val := s.entry, syscalls := s.syscalls + 1 })
  | .unpack, s => (s.val, s)
  | .pack fields, s => ((), { s with val := fields })
  | .update, s =>
    if s.fault s.syscalls then (false, { s with syscalls := s.syscalls + 1 })
    else (true, { s with entry := s.val, syscalls := s.syscalls + 1 })

abbrev CfgProg := Prog cfgCalls

namespace RuntimeCfgRace

def lookup : CfgProg Bool := .op CfgOp.lookup .ret
def unpack : CfgProg XdpRuntimeCfg := .op CfgOp.unpack .ret
def pack (fields : XdpRuntimeCfg) : CfgProg Unit := .op (CfgOp.pack fields) .ret
def update : CfgProg Bool := .op CfgOp.update .ret

/-- `_lookup_raw`, of which `get` and `get_cfg_flags` show a part. -/
def lookupRaw : CfgProg (Option XdpRuntimeCfg) := do
  if ← lookup then return some (← unpack) else return none

/-- `BpfRuntimeConfigMap.set`. -/
def set (fields : XdpRuntimeCfg) (cfgFlags : U32) : CfgProg Bool := do
  pack { fields with cfgFlags := cfgFlags }
  update

/-- `set_active`; `false` is the `OSError`. -/
def setActive (active : Bool) : CfgProg Bool := do
  let raw ← lookupRaw
  let flags := (raw.map XdpRuntimeCfg.cfgFlags).getD 0
  let timing ← lookupRaw
  set (timing.getD {}) (if active then flags ||| xdpCfgFlagAbuseipdbEnabled
    else flags &&& ~~~xdpCfgFlagAbuseipdbEnabled)

/-- What `replace_all` does with the entry when no write of the trie fails. -/
def replaceAll (active : Bool) : CfgProg Bool := do
  let _previousFlags ← lookupRaw
  setActive active

/-- The step of `apply_reconcile_plan`; `false` is a failure that is counted. -/
def applyRuntimeConfig (cfg : Config) (desired : DesiredState) : CfgProg Bool := do
  let cfgFlags := computeCfgFlags cfg desired
  let current ← lookupRaw
  let raw ← lookupRaw
  let currentFlags := (raw.map XdpRuntimeCfg.cfgFlags).getD 0
  if some (timings desired.xdpRuntimeConfig) ≠ current.map timings ∨ cfgFlags ≠ currentFlags then
    set desired.xdpRuntimeConfig cfgFlags
  else return true

end RuntimeCfgRace

inductive Party where
  | daemon | abuseipdb
  deriving DecidableEq

/-- Whether the AbuseIPDB thread comes through `replace_all`, and the bit it wants. -/
structure Request where
  whole : Bool
  active : Bool

def Request.prog (r : Request) : CfgProg Bool :=
  if r.whole then RuntimeCfgRace.replaceAll r.active else RuntimeCfgRace.setActive r.active

abbrev CfgPool := Pool cfgCalls Party CfgState Bool

def cfgStart (cfg : Config) (desired : DesiredState) (r : Request) (s : CfgState) : CfgPool :=
  Pool.start s fun
    | .daemon => RuntimeCfgRace.applyRuntimeConfig cfg desired
    | .abuseipdb => r.prog

/-! What is wanted. -/

/-- The flags that the daemon decides about alone. -/
def ownFlags : U32 :=
  xdpCfgFlagBogonDisabled ||| xdpCfgFlagDropEventsDisabled ||| xdpCfgFlagSlotDrop

/-- The entry as the daemon writes it. -/
def wanted (cfg : Config) (desired : DesiredState) : XdpRuntimeCfg :=
  { desired.xdpRuntimeConfig with cfgFlags := computeCfgFlags cfg desired }

/-- The timings and the daemon's flags. -/
structure Agrees (d x : XdpRuntimeCfg) : Prop where
  timings : timings x = timings d
  flags : x.cfgFlags &&& ownFlags = d.cfgFlags &&& ownFlags

instance (d x : XdpRuntimeCfg) : Decidable (Agrees d x) :=
  decidable_of_iff (timings x = timings d ∧ x.cfgFlags &&& ownFlags = d.cfgFlags &&& ownFlags)
    ⟨fun h => ⟨h.1, h.2⟩, fun h => ⟨h.1, h.2⟩⟩

/-- The desired timings and flags with the bit last requested. -/
def BothKept (cfg : Config) (desired : DesiredState) (r : Request) (x : XdpRuntimeCfg) : Prop :=
  Agrees (wanted cfg desired) x ∧ activeIn (some x) = r.active

/-! When that is safe. -/

def CfgOp.isUnpack : CfgOp → Bool
  | .unpack => true
  | _ => false

/-- How often the AbuseIPDB thread has read the buffer. -/
def unpacks (c : CfgPool) : ℕ :=
  c.log.countP fun e => e.who = .abuseipdb && CfgOp.isUnpack e.op

/-- The reads that are not `set_active`'s. -/
def Request.before (r : Request) : ℕ := if r.whole then 1 else 0

/-- `set_active` has read the flags and has not returned. -/
def Reading (r : Request) (c : CfgPool) : Prop :=
  r.before < unpacks c ∧ (c.thread .abuseipdb).result? = none

instance (r : Request) (c : CfgPool) : Decidable (Reading r c) :=
  inferInstanceAs (Decidable (_ ∧ _))

/-- What a thread is about to pack. -/
def packing? : CfgProg Bool → Option XdpRuntimeCfg
  | .op (.pack v) _ => some v
  | _ => none

def Party.other : Party → Party
  | .daemon => .abuseipdb
  | .abuseipdb => .daemon

/-- No lookup fails; nobody changes the buffer while the other's value waits in it for the
update; and the daemon, when it updates, changes nothing that `set_active` has read, nor the
bit that it has written. -/
structure NoClash (cfg : Config) (desired : DesiredState) (r : Request) (c : CfgPool) (p : Party) :
    Prop where
  found : (c.thread p).next? = some .lookup → c.shared.fault c.shared.syscalls = false
  lookup : (c.thread p).next? = some .lookup → (c.thread p.other).next? = some .update →
    c.shared.entry = c.shared.val
  pack : ∀ v ∈ packing? (c.thread p), (c.thread p.other).next? = some .update → v = c.shared.val
  read : p = .daemon → (c.thread p).next? = some .update → Reading r c →
    Agrees (wanted cfg desired) c.shared.entry
  bit : p = .daemon → (c.thread p).next? = some .update →
    (c.thread .abuseipdb).result? = some true → cfg.abuseipdbEnabled = r.active

instance (cfg : Config) (desired : DesiredState) (r : Request) (c : CfgPool) (p : Party) :
    Decidable (NoClash cfg desired r c p) :=
  decidable_of_iff
    (((c.thread p).next? = some .lookup → c.shared.fault c.shared.syscalls = false) ∧
      ((c.thread p).next? = some .lookup → (c.thread p.other).next? = some .update →
        c.shared.entry = c.shared.val) ∧
      (∀ v ∈ packing? (c.thread p), (c.thread p.other).next? = some .update →
        v = c.shared.val) ∧
      (p = .daemon → (c.thread p).next? = some .update → Reading r c →
        Agrees (wanted cfg desired) c.shared.entry) ∧
      (p = .daemon → (c.thread p).next? = some .update →
        (c.thread .abuseipdb).result? = some true → cfg.abuseipdbEnabled = r.active))
    ⟨fun ⟨found, lookup, pack, read, bit⟩ => ⟨found, lookup, pack, read, bit⟩,
      fun ⟨found, lookup, pack, read, bit⟩ => ⟨found, lookup, pack, read, bit⟩⟩

/-! Where the two threads are. -/

namespace RuntimeCfgRace

theorem lookupRaw_bind (f : Option XdpRuntimeCfg → CfgProg Bool) :
    lookupRaw >>= f = .op CfgOp.lookup fun found : Bool =>
      if found then .op CfgOp.unpack fun raw => f (some raw) else f none := by
  have hanswer : (fun found : Bool => (if found then (do return some (← unpack)) else return none :
      CfgProg (Option XdpRuntimeCfg)) >>= f) = fun found : Bool =>
      if found then .op CfgOp.unpack fun raw => f (some raw) else f none := by
    funext found
    cases found <;> rfl
  rw [← hanswer]
  rfl

/-- `set_active` with the flags read. -/
def withFlags (active : Bool) (flags : U32) : CfgProg Bool :=
  lookupRaw >>= fun timing => set (timing.getD {}) (if active then
    flags ||| xdpCfgFlagAbuseipdbEnabled else flags &&& ~~~xdpCfgFlagAbuseipdbEnabled)

/-- The comparison and what follows. -/
def compare (cfg : Config) (desired : DesiredState) (current raw : Option XdpRuntimeCfg) :
    CfgProg Bool :=
  if some (timings desired.xdpRuntimeConfig) ≠ current.map timings ∨
      computeCfgFlags cfg desired ≠ (raw.map XdpRuntimeCfg.cfgFlags).getD 0 then
    set desired.xdpRuntimeConfig (computeCfgFlags cfg desired)
  else .ret true

inductive DaemonPhase where
  | begin
  | looked
  | timed (current : XdpRuntimeCfg)
  | flagged (current : XdpRuntimeCfg)
  | packing
  | packed
  | wrote
  | skipped
  | failed

def DaemonPhase.prog (cfg : Config) (desired : DesiredState) : DaemonPhase → CfgProg Bool
  | .begin => applyRuntimeConfig cfg desired
  | .looked => .op CfgOp.unpack fun raw => lookupRaw >>= compare cfg desired (some raw)
  | .timed current => lookupRaw >>= compare cfg desired (some current)
  | .flagged current => .op CfgOp.unpack fun raw => compare cfg desired (some current) (some raw)
  | .packing => set desired.xdpRuntimeConfig (computeCfgFlags cfg desired)
  | .packed => update
  | .wrote => .ret true
  | .skipped => .ret true
  | .failed => .ret false

inductive RequestPhase where
  | first
  | firstLooked
  | begin
  | looked
  | flagged (flags : U32)
  | timed (flags : U32)
  | both (fields : XdpRuntimeCfg)
  | packed
  | wrote
  | failed

def RequestPhase.prog (active : Bool) : RequestPhase → CfgProg Bool
  | .first => replaceAll active
  | .firstLooked => .op CfgOp.unpack fun _ => setActive active
  | .begin => setActive active
  | .looked => .op CfgOp.unpack fun raw => withFlags active raw.cfgFlags
  | .flagged flags => withFlags active flags
  | .timed flags => .op CfgOp.unpack fun raw => set raw (if active then
      flags ||| xdpCfgFlagAbuseipdbEnabled else flags &&& ~~~xdpCfgFlagAbuseipdbEnabled)
  | .both fields => set fields fields.cfgFlags
  | .packed => update
  | .wrote => .ret true
  | .failed => .ret false

/-- One step of the daemon when its lookups find the entry. -/
inductive DaemonMove (cfg : Config) (desired : DesiredState) :
    DaemonPhase → CfgState → DaemonPhase → CfgState → Prop
  | look (s : CfgState) :
      DaemonMove cfg desired .begin s .looked { s with val := s.entry, syscalls := s.syscalls + 1 }
  | time (s : CfgState) : DaemonMove cfg desired .looked s (.timed s.val) s
  | lookAgain (current : XdpRuntimeCfg) (s : CfgState) :
      DaemonMove cfg desired (.timed current) s (.flagged current)
        { s with val := s.entry, syscalls := s.syscalls + 1 }
  | differ (current : XdpRuntimeCfg) (s : CfgState) :
      DaemonMove cfg desired (.flagged current) s .packing s
  | same (current : XdpRuntimeCfg) (s : CfgState)
      (htimings : timings current = timings (wanted cfg desired))
      (hflags : s.val.cfgFlags = (wanted cfg desired).cfgFlags) :
      DaemonMove cfg desired (.flagged current) s .skipped s
  | pack (s : CfgState) :
      DaemonMove cfg desired .packing s .packed { s with val := wanted cfg desired }
  | write (s : CfgState) :
      DaemonMove cfg desired .packed s .wrote
        { s with entry := s.val, syscalls := s.syscalls + 1 }
  | fail (s : CfgState) :
      DaemonMove cfg desired .packed s .failed { s with syscalls := s.syscalls + 1 }
  | rest (p : DaemonPhase) (s : CfgState) (h : p = .wrote ∨ p = .skipped ∨ p = .failed) :
      DaemonMove cfg desired p s p s

/-- One step of the other thread when its lookups find the entry. -/
inductive RequestMove (active : Bool) :
    RequestPhase → CfgState → RequestPhase → CfgState → Prop
  | lookFirst (s : CfgState) :
      RequestMove active .first s .firstLooked
        { s with val := s.entry, syscalls := s.syscalls + 1 }
  | previous (s : CfgState) : RequestMove active .firstLooked s .begin s
  | look (s : CfgState) :
      RequestMove active .begin s .looked { s with val := s.entry, syscalls := s.syscalls + 1 }
  | flag (s : CfgState) : RequestMove active .looked s (.flagged s.val.cfgFlags) s
  | lookAgain (flags : U32) (s : CfgState) :
      RequestMove active (.flagged flags) s (.timed flags)
        { s with val := s.entry, syscalls := s.syscalls + 1 }
  | time (flags : U32) (s : CfgState) :
      RequestMove active (.timed flags) s
        (.both (withActive active { s.val with cfgFlags := flags })) s
  | pack (fields : XdpRuntimeCfg) (s : CfgState) :
      RequestMove active (.both fields) s .packed { s with val := fields }
  | write (s : CfgState) :
      RequestMove active .packed s .wrote { s with entry := s.val, syscalls := s.syscalls + 1 }
  | fail (s : CfgState) :
      RequestMove active .packed s .failed { s with syscalls := s.syscalls + 1 }
  | rest (p : RequestPhase) (s : CfgState) (h : p = .wrote ∨ p = .failed) :
      RequestMove active p s p s

theorem step_shared (c : CfgPool) (p : Party) (o : CfgOp) (k : o.Res → CfgProg Bool)
    (hp : c.thread p = .op o k) :
    (Pool.step cfgHandler c p).shared = (cfgHandler o c.shared).2 ∧
      (Pool.step cfgHandler c p).thread p = k (cfgHandler o c.shared).1 := by
  rw [Pool.step_of_op cfgHandler c p o k hp]
  exact ⟨rfl, Function.update_self ..⟩

/-- A lookup that finds the entry. -/
theorem step_lookup (c : CfgPool) (p : Party) (f : Option XdpRuntimeCfg → CfgProg Bool)
    (hp : c.thread p = lookupRaw >>= f)
    (hfound : (c.thread p).next? = some .lookup → c.shared.fault c.shared.syscalls = false) :
    (Pool.step cfgHandler c p).shared =
        { c.shared with val := c.shared.entry, syscalls := c.shared.syscalls + 1 } ∧
      (Pool.step cfgHandler c p).thread p = .op CfgOp.unpack fun raw => f (some raw) := by
  rw [lookupRaw_bind] at hp
  have hfault : c.shared.fault c.shared.syscalls = false := by
    apply hfound
    rw [hp]
    rfl
  obtain ⟨hshared, hthread⟩ := step_shared c p _ _ hp
  rw [hshared, hthread]
  simp only [cfgHandler, hfault, Bool.false_eq_true, ↓reduceIte, and_self]

theorem step_update (c : CfgPool) (p : Party) (hp : c.thread p = update) :
    ((Pool.step cfgHandler c p).shared =
        { c.shared with entry := c.shared.val, syscalls := c.shared.syscalls + 1 } ∧
      (Pool.step cfgHandler c p).thread p = .ret true) ∨
    ((Pool.step cfgHandler c p).shared = { c.shared with syscalls := c.shared.syscalls + 1 } ∧
      (Pool.step cfgHandler c p).thread p = .ret false) := by
  obtain ⟨hshared, hthread⟩ := step_shared c p _ _ hp
  rw [hshared, hthread]
  by_cases hfault : c.shared.fault c.shared.syscalls = true
  · right
    simp only [cfgHandler, hfault, ↓reduceIte]
    exact ⟨trivial, rfl⟩
  · left
    simp only [cfgHandler, hfault, Bool.false_eq_true, ↓reduceIte]
    exact ⟨trivial, rfl⟩

theorem daemon_step (cfg : Config) (desired : DesiredState) (c : CfgPool) (p : DaemonPhase)
    (hp : c.thread .daemon = p.prog cfg desired)
    (hfound : (c.thread .daemon).next? = some .lookup →
      c.shared.fault c.shared.syscalls = false) :
    ∃ p', (Pool.step cfgHandler c .daemon).thread .daemon = p'.prog cfg desired ∧
      DaemonMove cfg desired p c.shared p' (Pool.step cfgHandler c .daemon).shared := by
  cases p with
  | begin =>
    obtain ⟨hshared, hthread⟩ := step_lookup c .daemon _ hp hfound
    exact ⟨.looked, hthread, hshared ▸ .look c.shared⟩
  | looked =>
    obtain ⟨hshared, hthread⟩ := step_shared c .daemon _ _ hp
    exact ⟨.timed c.shared.val, hthread, hshared ▸ .time c.shared⟩
  | timed current =>
    obtain ⟨hshared, hthread⟩ := step_lookup c .daemon _ hp hfound
    exact ⟨.flagged current, hthread, hshared ▸ .lookAgain current c.shared⟩
  | flagged current =>
    obtain ⟨hshared, hthread⟩ := step_shared c .daemon _ _ hp
    rw [hshared, hthread]
    change ∃ p' : DaemonPhase, compare cfg desired (some current) (some c.shared.val) = _ ∧ _
    by_cases hsame : some (timings desired.xdpRuntimeConfig) ≠ (some current).map timings ∨
        computeCfgFlags cfg desired ≠ ((some c.shared.val).map XdpRuntimeCfg.cfgFlags).getD 0
    · rw [compare, if_pos hsame]
      exact ⟨.packing, rfl, .differ current c.shared⟩
    · rw [compare, if_neg hsame]
      simp only [Option.map_some, Option.getD_some, ne_eq, Option.some.injEq, not_or,
        not_not] at hsame
      exact ⟨.skipped, rfl, .same current c.shared hsame.1.symm hsame.2.symm⟩
  | packing =>
    obtain ⟨hshared, hthread⟩ := step_shared c .daemon _ _ hp
    exact ⟨.packed, hthread, hshared ▸ .pack c.shared⟩
  | packed =>
    rcases step_update c .daemon hp with ⟨hshared, hthread⟩ | ⟨hshared, hthread⟩
    · exact ⟨.wrote, hthread, hshared ▸ .write c.shared⟩
    · exact ⟨.failed, hthread, hshared ▸ .fail c.shared⟩
  | wrote =>
    rw [Pool.step_of_ret cfgHandler c .daemon true hp]
    exact ⟨.wrote, hp, .rest _ _ (Or.inl rfl)⟩
  | skipped =>
    rw [Pool.step_of_ret cfgHandler c .daemon true hp]
    exact ⟨.skipped, hp, .rest _ _ (Or.inr (Or.inl rfl))⟩
  | failed =>
    rw [Pool.step_of_ret cfgHandler c .daemon false hp]
    exact ⟨.failed, hp, .rest _ _ (Or.inr (Or.inr rfl))⟩

theorem request_step (active : Bool) (c : CfgPool) (p : RequestPhase)
    (hp : c.thread .abuseipdb = p.prog active)
    (hfound : (c.thread .abuseipdb).next? = some .lookup →
      c.shared.fault c.shared.syscalls = false) :
    ∃ p', (Pool.step cfgHandler c .abuseipdb).thread .abuseipdb = p'.prog active ∧
      RequestMove active p c.shared p' (Pool.step cfgHandler c .abuseipdb).shared := by
  cases p with
  | first =>
    obtain ⟨hshared, hthread⟩ := step_lookup c .abuseipdb _ hp hfound
    exact ⟨.firstLooked, hthread, hshared ▸ .lookFirst c.shared⟩
  | firstLooked =>
    obtain ⟨hshared, hthread⟩ := step_shared c .abuseipdb _ _ hp
    exact ⟨.begin, hthread, hshared ▸ .previous c.shared⟩
  | begin =>
    obtain ⟨hshared, hthread⟩ := step_lookup c .abuseipdb _ hp hfound
    exact ⟨.looked, hthread, hshared ▸ .look c.shared⟩
  | looked =>
    obtain ⟨hshared, hthread⟩ := step_shared c .abuseipdb _ _ hp
    exact ⟨.flagged c.shared.val.cfgFlags, hthread, hshared ▸ .flag c.shared⟩
  | flagged flags =>
    obtain ⟨hshared, hthread⟩ := step_lookup c .abuseipdb _ hp hfound
    exact ⟨.timed flags, hthread, hshared ▸ .lookAgain flags c.shared⟩
  | timed flags =>
    obtain ⟨hshared, hthread⟩ := step_shared c .abuseipdb _ _ hp
    exact ⟨.both (withActive active { c.shared.val with cfgFlags := flags }), hthread,
      hshared ▸ .time flags c.shared⟩
  | both fields =>
    obtain ⟨hshared, hthread⟩ := step_shared c .abuseipdb _ _ hp
    exact ⟨.packed, hthread, hshared ▸ .pack fields c.shared⟩
  | packed =>
    rcases step_update c .abuseipdb hp with ⟨hshared, hthread⟩ | ⟨hshared, hthread⟩
    · exact ⟨.wrote, hthread, hshared ▸ .write c.shared⟩
    · exact ⟨.failed, hthread, hshared ▸ .fail c.shared⟩
  | wrote =>
    rw [Pool.step_of_ret cfgHandler c .abuseipdb true hp]
    exact ⟨.wrote, hp, .rest _ _ (Or.inl rfl)⟩
  | failed =>
    rw [Pool.step_of_ret cfgHandler c .abuseipdb false hp]
    exact ⟨.failed, hp, .rest _ _ (Or.inr rfl)⟩

end RuntimeCfgRace

end AutoXdp
