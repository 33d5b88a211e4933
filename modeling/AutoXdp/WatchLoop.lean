import AutoXdp.GuardedRun
import Mathlib.Algebra.Order.Ring.Int
import Mathlib.Tactic.Basic

/-! The daemon's loop (`watch` of `auto_xdp/syncer.py`), one iteration at a time. Times are in
microseconds. -/
namespace AutoXdp

def debounceMaxWait : ℤ := 1000000
def fullReconcileInterval : ℤ := 30000000
def eventSourceRetryInterval : ℤ := 5000000
def staleCheckInterval : ℤ := 30000000

/-- The settings that `watch` reads. -/
structure WatchConfig where
  debounce : ℤ := 400000
  gcInterval : ℤ := 300000000
  bpfPinDir : String := "/sys/fs/bpf/xdp_fw"
  nftFamily : String := "inet"
  nftTable : String := "auto_xdp"
  preferredBackend : String := "auto"
  deriving DecidableEq, Repr

/-- The places where `monotonic()` decides something. -/
inductive ClockSite where
  | opened | openFailed | loopHead | procEvent | relaySync | relayFailed | relayLost | netlinkLost
  | reload | eventCheck | eventSync | eventFailed | corrective | periodicCheck | periodicSync
  | periodicFailed | gcCheck | gcDone | staleCheck | staleMark | drift
  deriving DecidableEq, Repr

inductive SyncSite where
  | initial | relay | event | periodic
  deriving DecidableEq, Repr

/-- How `sync_once` ends: with so many failed applies, with a `DiscoveryError`, with an
`OSError` or another `RuntimeError`, or with an exception that nobody catches. -/
inductive SyncResult where
  | done (failures : ℕ) | discovery | broken | uncaught
  deriving DecidableEq, Repr

inductive RelayResult where
  | quiet | portChange | lost | uncaught
  deriving DecidableEq, Repr

/-- What one iteration meets. `none` stands for an exception. -/
structure WatchEnv where
  clock : ClockSite → ℤ
  /-- Whether the backend that is opened is the XDP one. -/
  opened : Option Bool := none
  sync : SyncSite → SyncResult := fun _ => .done 0
  netlink : Bool := false
  relay : Bool := false
  selectFails : Bool := false
  procEvent : Option Bool := some false
  relayResult : RelayResult := .quiet
  sighup : Bool := false
  reload : Option WatchConfig := none
  drain : Option PUnit := some ⟨⟩
  verifyEvent : Option Bool := some false
  gc : Option PUnit := some ⟨⟩
  isStale : Option Bool := some false
  verifyStale : Option Bool := some false

/-- The backend that is open: whether it can verify the kernel's state, how its latest
`sync_once` that finished did, and whether the state was verified since. -/
structure BackendView where
  xdp : Bool
  lastSync : Option ℕ := none
  verified : Bool := false
  deriving DecidableEq, Repr

structure WatchState where
  backend : Option BackendView := none
  nl : Bool := false
  relay : Bool := false
  lastEvent : ℤ := 0
  firstEvent : ℤ := 0
  lastReconcile : ℤ := 0
  lastGc : ℤ := 0
  lastStaleCheck : ℤ := 0
  lastNetlinkConnect : ℤ := -eventSourceRetryInterval
  lastRelayConnect : ℤ := -eventSourceRetryInterval
  reloadRequested : Bool := false
  backendName : String := "auto"
  cfg : WatchConfig := {}
  ended : Bool := false
  deriving DecidableEq, Repr

/-- What follows a part of the body: the rest, the next iteration, or the end of `watch`. -/
inductive Flow where
  | next | again | stop
  deriving DecidableEq, Repr

namespace WatchState

/-- `getattr(backend, "last_apply_failures", 0)` after a sync. -/
def BackendView.failures (b : BackendView) (failures : ℕ) : ℕ := if b.xdp then failures else 0

def noteSync (s : WatchState) (failures : ℕ) : WatchState :=
  { s with backend := s.backend.map fun b =>
      { b with lastSync := some (BackendView.failures b failures), verified := false } }

def noteVerified (s : WatchState) : WatchState :=
  { s with backend := s.backend.map fun b => { b with verified := true } }

def disarm (s : WatchState) : WatchState := { s with lastEvent := 0, firstEvent := 0 }

def arm (s : WatchState) (now : ℤ) : WatchState := { s with lastEvent := now, firstEvent := now }

/-- An event while the timer may be running. -/
def armAt (s : WatchState) (now : ℤ) : WatchState :=
  { s with firstEvent := if s.firstEvent = 0 then now else s.firstEvent, lastEvent := now }

def hasXdp (s : WatchState) : Bool := s.backend.any BackendView.xdp

variable (env : WatchEnv)

def openBackend (s : WatchState) : Flow × WatchState :=
  if s.backend.isSome then (.next, s)
  else match env.opened with
    | none => (.again, s)
    | some xdp =>
      let s := { s with backend := some { xdp := xdp } }
      match env.sync .initial with
      | .done failures =>
        (.next, ({ s.noteSync failures with lastReconcile := env.clock .opened }).disarm)
      | .discovery => (.again, { s with lastReconcile := env.clock .openFailed })
      | .broken => (.again, s)
      | .uncaught => (.stop, s)

def connectSources (s : WatchState) : Flow × WatchState :=
  let nowMono := env.clock .loopHead
  let s := if !s.nl ∧ nowMono - s.lastNetlinkConnect ≥ eventSourceRetryInterval then
    { s with nl := env.netlink, lastNetlinkConnect := nowMono } else s
  let s := if !s.relay ∧ nowMono - s.lastRelayConnect ≥ eventSourceRetryInterval then
    { s with relay := env.relay, lastRelayConnect := nowMono } else s
  (.next, s)

/-- The relay socket is ready. -/
def readRelay (s : WatchState) : Flow × WatchState :=
  match env.relayResult with
  | .quiet => (.next, s)
  | .portChange =>
    match env.sync .relay with
    | .done failures =>
      (.next, ({ s.noteSync failures with lastReconcile := env.clock .relaySync }).disarm)
    | .discovery => (.again, s.arm (env.clock .relayFailed))
    | .broken => (.next, { s with backend := none })
    | .uncaught => (.stop, s)
  | .lost => (.next, { s with relay := false, lastRelayConnect := env.clock .relayLost })
  | .uncaught => (.stop, s)

def loseNetlink (s : WatchState) : Flow × WatchState :=
  (.next, { s with nl := false, lastNetlinkConnect := env.clock .netlinkLost })

/-- The `try` block around `select`. -/
def waitForEvents (s : WatchState) : Flow × WatchState :=
  if env.selectFails then s.loseNetlink env
  else match if s.nl then env.procEvent else some false with
    | none => s.loseNetlink env
    | some event =>
      let s := if event then s.armAt (env.clock .procEvent) else s
      if s.relay then s.readRelay env else (.next, s)

/-- `_backend_stale` and the name of the backend after a reload. -/
def reloadedName (s : WatchState) (cfg : WatchConfig) : Bool × String :=
  let critical := cfg.bpfPinDir ≠ s.cfg.bpfPinDir ∨ cfg.nftFamily ≠ s.cfg.nftFamily ∨
    cfg.nftTable ≠ s.cfg.nftTable
  if cfg.preferredBackend ≠ s.cfg.preferredBackend ∧ s.backendName = s.cfg.preferredBackend then
    (true, cfg.preferredBackend) else (critical, s.backendName)

def handleReload (s : WatchState) : Flow × WatchState :=
  let s := { s with reloadRequested := s.reloadRequested || env.sighup }
  if s.reloadRequested then
    let s := { s with reloadRequested := false }
    match env.reload with
    | none => (.again, s)
    | some cfg =>
      let name := s.reloadedName cfg
      let s := { s with cfg := cfg, backendName := name.2,
                        backend := if name.1 then none else s.backend }
      let s := s.arm (env.clock .reload - cfg.debounce)
      (if s.backend.isNone then .again else .next, s)
  else (if s.backend.isNone then .again else .next, s)

/-- The corrective sync is armed when applies failed. -/
def afterEventSync (s : WatchState) (failures : ℕ) : Flow × WatchState :=
  let s := ({ s.noteSync failures with lastReconcile := env.clock .eventSync }).disarm
  if s.backend.any (fun b => BackendView.failures b failures ≠ 0) ∧ s.hasXdp then
    match env.verifyEvent with
    | none => (.stop, s)
    | some _ => (.next, s.noteVerified.arm (env.clock .corrective))
  else (.next, s)

def syncOnEvent (s : WatchState) : Flow × WatchState :=
  let now := env.clock .eventCheck
  if s.lastEvent ≠ 0 ∧ (now - s.lastEvent ≥ s.cfg.debounce ∨ now - s.firstEvent ≥ debounceMaxWait) then
    if s.nl ∧ env.drain = none then (.stop, s)
    else match env.sync .event with
      | .done failures => s.afterEventSync env failures
      | .discovery => (.again, s.arm (env.clock .eventFailed))
      | .broken => (.again, { s with backend := none })
      | .uncaught => (.stop, s)
  else (.next, s)

def syncPeriodically (s : WatchState) : Flow × WatchState :=
  if env.clock .periodicCheck - s.lastReconcile ≥ fullReconcileInterval then
    match env.sync .periodic with
    | .done failures =>
      (.next, ({ s.noteSync failures with lastReconcile := env.clock .periodicSync }).disarm)
    | .discovery => (.next, { s with lastReconcile := env.clock .periodicFailed })
    | .broken => (.again, { s with backend := none })
    | .uncaught => (.stop, s)
  else (.next, s)

def collectGarbage (s : WatchState) : Flow × WatchState :=
  if s.cfg.gcInterval > 0 ∧ env.clock .gcCheck - s.lastGc ≥ s.cfg.gcInterval then
    match env.gc with
    | none => (.stop, s)
    | some _ => (.next, { s with lastGc := env.clock .gcDone })
  else (.next, s)

def checkStale (s : WatchState) : Flow × WatchState :=
  if env.clock .staleCheck - s.lastStaleCheck ≥ staleCheckInterval then
    let s := { s with lastStaleCheck := env.clock .staleMark }
    if s.hasXdp then
      match env.isStale with
      | none => (.stop, s)
      | some true => (.next, { s with backend := none })
      | some false =>
        match env.verifyStale with
        | none => (.stop, s)
        | some drift =>
          (.next, if drift then s.noteVerified.armAt (env.clock .drift) else s.noteVerified)
    else (.next, s)
  else (.next, s)

/-- The parts of the body one after the other. -/
def inOrder : List (WatchState → Flow × WatchState) → WatchState → Flow × WatchState
  | [], s => (.next, s)
  | part :: parts, s =>
    match part s with
    | (.next, s) => inOrder parts s
    | stopped => stopped

def body : WatchState → Flow × WatchState :=
  inOrder [openBackend env, connectSources env, waitForEvents env, handleReload env,
    syncOnEvent env, syncPeriodically env, collectGarbage env, checkStale env]

/-- One iteration; when an exception escapes, the `finally` block closes the backend. -/
def iterate (s : WatchState) (env : WatchEnv) : WatchState :=
  if s.ended then s
  else match s.body env with
    | (.stop, s) => { s with backend := none, ended := true }
    | (_, s) => s

end WatchState

end AutoXdp
