import AutoXdp.GuardedRun
import AutoXdp.XdpInterface

/-! The conntrack collector of the daemon (`XdpBackend.run_ct_gc` in `auto_xdp/backends/xdp.py`,
`BpfConntrackMap.gc_expired` in `auto_xdp/bpf/maps.py`) against a datapath that goes on. -/
namespace AutoXdp
open GuardedRun

/-- A reading of `CLOCK_MONOTONIC`: a signed count of nanoseconds that is not negative. -/
abbrev Ktime := {t : U64 // t.toNat < 2^63}

/-- The four maps of `run_ct_gc`, in the order in which it scans them. -/
inductive GcMap where
  | tcp4 | tcp6 | udp4 | udp6
  deriving DecidableEq

/-- How far `run_ct_gc` is: it lists the keys of a map, looks each of them up, and then
deletes those that it found expired. `now` is the reading that it took first, at this map. -/
inductive GcPc where
  | start (m : GcMap)
  | list (m : GcMap) (now : Ktime) (keys : List FlowKey)
  | look (m : GcMap) (now : Ktime) (todo doomed : List FlowKey)
  | delete (m : GcMap) (doomed : List FlowKey)
  | done
  | raised
  deriving DecidableEq

/-- The map that the collector is at. -/
def GcPc.at? : GcPc → Option GcMap
  | start m | list m _ _ | look m _ _ _ | delete m _ => some m
  | done | raised => none

structure GcWorld where
  clock : Ktime
  ct : GcMap → BpfMap FlowKey U64
  pc : GcPc

/-- Where a run of `run_ct_gc` begins: at the IPv4 map of TCP. -/
def gcBegin (clock : Ktime) (ct : GcMap → BpfMap FlowKey U64) : GcWorld :=
  ⟨clock, ct, .start .tcp4⟩

/-- A step of the collector, whose call fails or not, or one of the datapath and the clock. -/
inductive GcEvent where
  | gc (fails : Bool)
  | write (m : GcMap) (key : FlowKey) (raw : U64)
  | remove (m : GcMap) (key : FlowKey)
  | tick (t : Ktime)

/-- `BPF_MAP_GET_NEXT_KEY`: behind a key that is gone the map starts over. -/
def nextKey (t : BpfMap FlowKey U64) : Option FlowKey → Option FlowKey
  | none => t.keys.head?
  | some k => if k ∈ t.keys then (t.keys.dropWhile (· ≠ k)).tail.head? else t.keys.head?

/-- The configured limit of a word, `int(seconds * 1e9)`, as `gc_expired` is given it. -/
def gcLimitNs (cfg : XdpRuntimeCfg) (m : GcMap) (raw : U64) : U64 :=
  match m with
  | .tcp4 | .tcp6 => if isPending raw then cfg.synTimeoutNs else cfg.tcpTimeoutNs
  | .udp4 | .udp6 => cfg.udpTimeoutNs

/-- `now - ts > limit`, on integers. -/
def gcExpired (cfg : XdpRuntimeCfg) (m : GcMap) (now : Ktime) (raw : U64) : Bool :=
  (now.val.toNat : ℤ) - (stamp raw).toNat > (gcLimitNs cfg m raw).toNat

variable (cfg : XdpRuntimeCfg)

/-- The map that `run_ct_gc` goes on with. -/
def gcAfter : GcMap → GcPc
  | .tcp4 => .start .tcp6
  | .tcp6 => .start .udp4
  | .udp4 => .start .udp6
  | .udp6 => .done

def gcAction (fails : Bool) (s : GcWorld) : GcWorld :=
  match s.pc with
  | .start m => { s with pc := .list m s.clock [] }
  | .list m now keys =>
    if fails then { s with pc := .raised }
    else match nextKey (s.ct m) keys.getLast? with
      | some k => { s with pc := .list m now (keys ++ [k]) }
      | none => { s with pc := .look m now keys [] }
  | .look m now (k :: todo) doomed =>
    match (if fails then none else (s.ct m).lookup k) with
    | some raw =>
      { s with pc := .look m now todo (if gcExpired cfg m now raw then doomed ++ [k] else doomed) }
    | none => { s with pc := .look m now todo doomed }
  | .look m _ [] doomed => { s with pc := .delete m doomed }
  | .delete m (k :: doomed) =>
    if fails then { s with pc := .delete m doomed }
    else { s with ct := Function.update s.ct m ((s.ct m).erase k), pc := .delete m doomed }
  | .delete m [] => { s with pc := gcAfter m }
  | .done | .raised => s

def gcStep (s : GcWorld) : GcEvent → GcWorld
  | .gc fails => gcAction cfg fails s
  | .write m k raw => { s with ct := Function.update s.ct m ((s.ct m).insert k raw) }
  | .remove m k => { s with ct := Function.update s.ct m ((s.ct m).erase k) }
  | .tick t => if s.clock.val ≤ t.val then { s with clock := t } else s

/-! The datapath's own rule. -/

/-- The time that the XDP program takes from a word. -/
def ctTime (m : GcMap) (raw : U64) : U64 :=
  match m with
  | .tcp4 | .tcp6 => stamp raw
  | .udp4 | .udp6 => raw

/-- The timeout of a word, with zero standing for the default. -/
def ctTimeoutNs (m : GcMap) (raw : U64) : U64 :=
  match m with
  | .tcp4 | .tcp6 => cfgCtTimeoutNs raw (some cfg)
  | .udp4 | .udp6 => cfgUdpTimeoutNs (some cfg)

/-- The XDP program treats the word as expired. -/
def XdpExpired (m : GcMap) (raw : U64) (now : Ktime) : Prop :=
  now.val - ctTime m raw > ctTimeoutNs cfg m raw

instance (m : GcMap) (raw : U64) (now : Ktime) : Decidable (XdpExpired cfg m raw now) :=
  inferInstanceAs (Decidable (_ > _))

/-- A deletion of the collector meets an entry that the XDP program treats as expired, or
none. -/
def DeletesExpired (s : GcWorld) (e : GcEvent) : Prop :=
  e = .gc false → ∀ m k doomed, s.pc = .delete m (k :: doomed) →
    ∀ raw, (s.ct m).lookup k = some raw → XdpExpired cfg m raw s.clock

/-- Nothing fails, and nobody else writes to the maps. -/
def GcEvent.Quiet : GcEvent → Prop
  | gc fails => fails = false
  | write .. | remove .. => False
  | tick _ => True

/-- The collector deletes what is expired and, left alone, all of it. -/
structure GcAgrees (s : GcWorld) (events : List GcEvent) : Prop where
  only : Guarded (gcStep cfg) (DeletesExpired cfg) s events
  all : ∀ m pre rest, events = pre ++ .gc false :: rest →
    (pre.foldl (gcStep cfg) s).pc = .start m → (∀ e ∈ rest, e.Quiet) →
    (events.foldl (gcStep cfg) s).pc.at? ≠ some m →
    ∀ k raw, ((pre.foldl (gcStep cfg) s).ct m).lookup k = some raw →
      XdpExpired cfg m raw (pre.foldl (gcStep cfg) s).clock →
      ((events.foldl (gcStep cfg) s).ct m).lookup k = none

end AutoXdp
