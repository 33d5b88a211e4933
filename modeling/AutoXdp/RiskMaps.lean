import AutoXdp.BackendMaps
import AutoXdp.NftRuleset
import Mathlib.Tactic.Basic

/-! The AbuseIPDB blocklist (`auto_xdp/abuseipdb.py`): the trie `abuseipdb_v4`, the
cache of its wrapper and the active bit of the runtime configuration. A Python string
is the list of its characters. -/
namespace AutoXdp
open StateSteps

abbrev Text := List Char

/-! `ipaddress` of the standard library, as far as the entries of a list need it. -/

instance prefixLengths : NeZero 33 := ⟨by decide⟩

/-- What `IPv4Network(text, strict=False)` and `IPv6Network(text, strict=False)` accept: an
address with its prefix length, whose host bits may be set. -/
structure IpParsers where
  ipv4Network : Text → Option (U32 × Fin 33)
  ipv6Network : Text → Bool

/-! The wrapper and the kernel. -/

/-- The kernel maps, which writes and which lookups the kernel will fail, the outcome of
each write so far with the maps after it (newest first), the lookups made, and the
cache of `BpfLpmMap`. -/
structure RiskState where
  maps : Maps := {}
  fault : ℕ → Bool := fun _ => false
  readFault : ℕ → Bool := fun _ => false
  log : List (Bool × Maps) := []
  reads : ℕ := 0
  cache : List LpmKey := []

abbrev RiskM := StateM RiskState

namespace RiskState

/-- One write; the cache changes only when it succeeds. -/
def write (effect : Maps → Maps) (note : List LpmKey → List LpmKey) : RiskM Bool := fun s =>
  if s.fault s.log.length then (false, { s with log := (false, s.maps) :: s.log })
  else (true, { s with
    maps := effect s.maps, log := (true, effect s.maps) :: s.log, cache := note s.cache })

end RiskState

namespace BpfLpmMap

def set (cidr : LpmKey) : RiskM Bool :=
  RiskState.write (fun m => { m with abuseipdb := m.abuseipdb.insert cidr.normalize 1 })
    (setAdd cidr.normalize)

/-- ENOENT is taken for success. -/
def delete (cidr : LpmKey) : RiskM Bool :=
  RiskState.write (fun m => { m with abuseipdb := m.abuseipdb.erase cidr.normalize })
    (setDiscard cidr.normalize)

end BpfLpmMap

namespace BpfRiskMaps

/-- `_lookup_raw` of the runtime configuration; `get` and `get_cfg_flags` show a part. -/
def lookupRaw : RiskM (Option XdpRuntimeCfg) := fun s =>
  (if s.readFault s.reads then none else s.maps.runtimeCfg, { s with reads := s.reads + 1 })

/-- `runtime_cfg.set`. -/
def setRuntimeCfg (timing : XdpRuntimeCfg) (flags : U32) : RiskM Bool :=
  RiskState.write (fun m => { m with runtimeCfg := some { timing with cfgFlags := flags } }) id

/-- A failed lookup reads as zeros. `False` is the `OSError` that is raised. -/
def setActive (active : Bool) : RiskM Bool := do
  let raw ← lookupRaw
  let flags := (raw.map XdpRuntimeCfg.cfgFlags).getD 0
  let timing ← lookupRaw
  setRuntimeCfg (timing.getD {}) (if active then flags ||| xdpCfgFlagAbuseipdbEnabled
    else flags &&& ~~~xdpCfgFlagAbuseipdbEnabled)

/-- What `replace_all` raises: `ValueError` for an entry that is no network,
`RuntimeError` for a network, `OSError`. -/
inductive Raised where
  | invalidIpv6 (value : Text) | invalidIpv4 (value : Text)
  | notStaged (cidr : LpmKey) | notRemoved (cidr : LpmKey) | notActivated
  deriving DecidableEq, Repr

/-- The characters that `str.strip` removes. -/
def isSpace (c : Char) : Bool :=
  let n := c.toNat
  (9 ≤ n && n ≤ 13) || (28 ≤ n && n ≤ 32) || n == 0x85 || n == 0xa0 || n == 0x1680 ||
    (0x2000 ≤ n && n ≤ 0x200a) || n == 0x2028 || n == 0x2029 || n == 0x202f || n == 0x205f ||
    n == 0x3000

def strip (text : Text) : Text :=
  ((text.dropWhile isSpace).reverse.dropWhile isSpace).reverse

/-- `_normalize_v4`, with the networks found so far. IPv6 entries are checked and left
out. -/
def normalizeV4 (ip : IpParsers) : List Text → List LpmKey → Except Raised (List LpmKey)
  | [], normalized => .ok normalized
  | rawIp :: ips, normalized =>
    let value := strip rawIp
    if value = [] ∨ value.head? = some '#' then normalizeV4 ip ips normalized
    else if ':' ∈ value then
      if ip.ipv6Network value then normalizeV4 ip ips normalized else .error (.invalidIpv6 value)
    else
      match ip.ipv4Network (if '/' ∈ value then value else value ++ ['/', '3', '2']) with
      | none => .error (.invalidIpv4 value)
      | some (a, n) => normalizeV4 ip ips (setAdd (LpmKey.normalize ⟨n, .v4 a⟩) normalized)

/-- Decimal digits. -/
def digits (n : ℕ) : Text := Nat.toDigits 10 n

/-- `str` of an IPv4 network. -/
def cidrText (k : LpmKey) : Text :=
  match k.addr with
  | .v4 a =>
    let octet (i : ℕ) : Text := digits ((a.toNat / 256^i) % 256)
    octet 3 ++ ['.'] ++ octet 2 ++ ['.'] ++ octet 1 ++ ['.'] ++ octet 0 ++ ['/'] ++
      digits k.prefixlen
  | .v6 _ => []

/-- The order of Python strings: by code points, a prefix first. -/
def textLe : Text → Text → Bool
  | [], _ => true
  | _ :: _, [] => false
  | c :: cs, d :: ds => c.toNat < d.toNat || (c.toNat == d.toNat && textLe cs ds)

/-- `sorted`, on a set of networks. -/
def sortedCidrs (cidrs : List LpmKey) : List LpmKey :=
  cidrs.mergeSort fun k l => textLe (cidrText k) (cidrText l)

/-- A loop that stops at the first element whose call fails: the elements before it, and
that element. -/
def untilFailure {α : Type} (f : α → RiskM Bool) : List α → RiskM (List α × Option α)
  | [] => pure ([], none)
  | x :: xs => do
    if ← f x then
      let rest ← untilFailure f xs
      return (x :: rest.1, rest.2)
    else return ([], some x)

/-- How far the `try` block came. -/
structure Progress where
  added : List LpmKey
  removed : List LpmKey
  raised : Option Raised
  deriving DecidableEq, Repr

/-- The `try` block: new entries first, then the stale ones, then the bit. -/
def forward (target previous : List LpmKey) : RiskM Progress := do
  let staged ← untilFailure BpfLpmMap.set (sortedCidrs (setDiff target previous))
  match staged.2 with
  | some cidr => return ⟨staged.1, [], some (.notStaged cidr)⟩
  | none =>
    let stale ← untilFailure BpfLpmMap.delete (sortedCidrs (setDiff previous target))
    match stale.2 with
    | some cidr => return ⟨staged.1, stale.1, some (.notRemoved cidr)⟩
    | none =>
      if ← setActive (target ≠ []) then return ⟨staged.1, stale.1, none⟩
      else return ⟨staged.1, stale.1, some .notActivated⟩

/-- The `except` block; what fails in it is logged only. -/
def rollback (added removed : List LpmKey) (previousActive : Bool) : RiskM PUnit := do
  added.reverse.forM fun cidr => discard (BpfLpmMap.delete cidr)
  removed.forM fun cidr => discard (BpfLpmMap.set cidr)
  discard (setActive previousActive)

/-- `bool(previous_flags & flag_mask)`. -/
def activeIn (raw : Option XdpRuntimeCfg) : Bool :=
  ((raw.map XdpRuntimeCfg.cfgFlags).getD 0) &&& xdpCfgFlagAbuseipdbEnabled != 0

/-- `replace_all` on a list that was accepted. -/
def replaceWith (target : List LpmKey) : RiskM (Except Raised ℕ) := do
  let s ← get
  let previousRaw ← lookupRaw
  let progress ← forward target s.cache
  match progress.raised with
  | none => return .ok target.length
  | some raised =>
    rollback progress.added progress.removed (activeIn previousRaw)
    return .error raised

def replaceAll (ip : IpParsers) (ips : List Text) : RiskM (Except Raised ℕ) :=
  match normalizeV4 ip ips [] with
  | .error raised => pure (.error raised)
  | .ok target => replaceWith target

end BpfRiskMaps

end AutoXdp
