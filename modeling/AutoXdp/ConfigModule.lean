import AutoXdp.PyDict
import AutoXdp.TomlValue
import Mathlib.Logic.Function.Basic
import Mathlib.Tactic.Basic

/-! The globals of `auto_xdp/config.py` and how `_apply_toml_config_in_place` writes them.
It reads none of them, but for the flag that it has just set, so that a run is the row of
its writes, up to an exception. -/
namespace AutoXdp.TomlConfig
open NftScript (PyFloat)

/-! The module. -/

inductive Key where
  | int (n : ℤ)
  | str (s : String)
  deriving DecidableEq

/-- What stands in a container. -/
inductive Item where
  | int (n : ℤ)
  | str (s : String)
  | rule (proto : Toml) (cidr : String) (ports : List ℤ)

inductive Kind where
  | dict
  | list
  | set
  deriving DecidableEq, Repr

inductive Content where
  | dict (entries : List (Key × Item))
  | list (xs : List Item)
  | set (xs : List Key)

def Content.kind : Content → Kind
  | .dict _ => .dict
  | .list _ => .list
  | .set _ => .set

/-- `clear()`. -/
def Content.clear : Content → Content
  | .dict _ => .dict []
  | .list _ => .list []
  | .set _ => .set []

inductive Scalar where
  | bool (b : Bool)
  | int (n : ℤ)
  | float (x : PyFloat)
  | str (s : String)
  | tuple (xs : List String)

/-- What a global is bound to: a container by its identity. -/
inductive Value where
  | scalar (v : Scalar)
  | ref (addr : ℕ)

/-- `globals()`, and the containers. -/
structure Module where
  globals : List (String × Value)
  heap : ℕ → Content
  fresh : ℕ

/-- A write. -/
inductive Command where
  | clear (name : String)
  | setItem (name : String) (k : Key) (v : Item)
  | append (name : String) (v : Item)
  | add (name : String) (k : Key)
  | assign (name : String) (v : Scalar)
  | rebind (name : String) (xs : List Item)

def Command.name : Command → String
  | .clear name | .setItem name .. | .append name _ | .add name _ | .assign name _
  | .rebind name _ => name

/-- What a write does to the content of a container. -/
def Command.mutate : Command → Content → Content
  | .clear _, c => c.clear
  | .setItem _ k v, .dict entries => .dict (PyDict.set k v entries)
  | .append _ v, .list xs => .list (xs ++ [v])
  | .add _ k, .set xs => .set (if k ∈ xs then xs else xs ++ [k])
  | _, c => c

def Module.exec (m : Module) (c : Command) : Module :=
  match c with
  | .assign name v => { m with globals := PyDict.set name (.scalar v) m.globals }
  | .rebind name xs =>
    { globals := PyDict.set name (.ref m.fresh) m.globals
      heap := Function.update m.heap m.fresh (.list xs)
      fresh := m.fresh+1 }
  | c => match m.globals.lookup c.name with
    | some (.ref a) => { m with heap := Function.update m.heap a (c.mutate (m.heap a)) }
    | _ => m

def Module.run (m : Module) (log : List Command) : Module := log.foldl Module.exec m

/-! Programs that write. -/

/-- What is written before the result is there or an exception is raised. -/
structure Writes (α : Type) where
  log : List Command
  result : Py α

instance : Monad Writes where
  pure a := ⟨[], .ok a⟩
  bind w f := match w.result with
    | .ok a => ⟨w.log ++ (f a).log, (f a).result⟩
    | .error e => ⟨w.log, .error e⟩

def write (c : Command) : Writes Unit := ⟨[c], .ok ()⟩

def eval {α : Type} (e : Py α) : Writes α := ⟨[], e⟩

/-! Coercion. -/

variable (lib : Library)

/-- What an `except (TypeError, ValueError)` makes of a conversion; `test` is what is
refused of its results. -/
def coerce {α : Type} (parsed : Py α) (test : α → Bool) (default : α) : Py α :=
  match parsed with
  | .error .typeError | .error .valueError => .ok default
  | .error e => .error e
  | .ok x => .ok (if test x then default else x)

def coerceLogLevel (value : Toml) : String :=
  let level := lib.lower (toStr lib value)
  if level ∈ ["debug", "info", "warning", "error"] then level else "warning"

def coerceBackend (value : Toml) : String :=
  let backend := lib.lower (toStr lib value)
  if backend ∈ ["auto", "xdp", "nftables"] then backend else "auto"

def coercePositiveFloat (value : Toml) (default : PyFloat) : Py PyFloat :=
  coerce (toFloat lib value) isNonpositive default

def coercePositiveInt (value : Toml) (default : ℤ) : Py ℤ :=
  coerce (toInt lib value) (· ≤ 0) default

def coerceNonnegativeFloat (value : Toml) (default : PyFloat) : Py PyFloat :=
  coerce (toFloat lib value) isNegative default

def removePrefixSlash : Toml → Toml
  | .str s => .str (if s.toList.head? = some '/' then String.ofList s.toList.tail else s)
  | v => v

def coercePrefixLen (value : Toml) (default maximum : ℤ) : Py ℤ :=
  coerce (toInt lib (removePrefixSlash value)) (fun n => n < 0 || maximum < n) default

/-! The sections of `_apply_toml_config_in_place`. -/

/-- A subtable. -/
def table (key : String) (v : Toml) : Writes Toml := eval (get key (.dict []) v)

def clearedContainers : List String :=
  ["TCP_PERMANENT", "UDP_PERMANENT", "SCTP_PERMANENT", "TRUSTED_SRC_IPS", "ACL_RULES",
    "SIT4_ENDPOINTS", "_SYN_RATE_BY_PROC", "_SYN_RATE_BY_SERVICE", "_SYN_AGG_RATE_BY_PROC",
    "_SYN_AGG_RATE_BY_SERVICE", "_TCP_CONN_BY_PROC", "_TCP_CONN_BY_SERVICE",
    "_TCP_CONN_PREFIX_BY_PROC", "_TCP_CONN_PREFIX_BY_SERVICE", "_TCP_CONN_PORT_BY_PROC",
    "_TCP_CONN_PORT_BY_SERVICE", "_UDP_RATE_BY_PROC", "_UDP_RATE_BY_SERVICE",
    "_UDP_AGG_BYTES_BY_PROC", "_UDP_AGG_BYTES_BY_SERVICE", "_RATE_MAP_ENTRIES_BY_PROC",
    "_RATE_MAP_ENTRIES_BY_SERVICE", "DISCOVERY_EXCLUDE_BIND_CIDRS", "DISCOVERY_EXCLUDE_PORTS"]

def reset : Writes Unit := do
  clearedContainers.forM fun name => write (.clear name)
  write (.assign "RATE_LIMIT_SOURCE_PREFIX_V4" (.int 32))
  write (.assign "RATE_LIMIT_SOURCE_PREFIX_V6" (.int 128))
  write (.assign "RATE_MAP_ENTRIES_V4" (.int 16384))
  write (.assign "RATE_MAP_ENTRIES_V6" (.int 4096))

def permanentPorts (name key : String) (perm : Toml) : Writes Unit := do
  let ports ← eval (get key (.list []) perm)
  let ports ← eval (iter ports)
  ports.forM fun p => do
    let port ← eval (toInt lib p)
    write (.setItem name (.int port) (.str "config"))

def permanent (cfg : Toml) : Writes Unit := do
  let perm ← table "permanent_ports" cfg
  permanentPorts lib "TCP_PERMANENT" "tcp" perm
  permanentPorts lib "UDP_PERMANENT" "udp" perm
  permanentPorts lib "SCTP_PERMANENT" "sctp" perm

def trustedIps (cfg : Toml) : Writes Unit := do
  let trusted ← table "trusted_ips" cfg
  let trusted ← eval (items trusted)
  trusted.forM fun e => do
    let cidr ← eval (normalizeCidr lib (.str e.1))
    write (.setItem "TRUSTED_SRC_IPS" (.str cidr) (.str (toStr lib e.2)))

def tunnel (cfg : Toml) : Writes Unit := do
  let tunnel ← table "tunnel" cfg
  let endpoints ← eval (get "sit4_endpoints" (.list []) tunnel)
  let endpoints ← eval (iter endpoints)
  endpoints.forM fun ep =>
    match lib.ipv4Address (toStr lib ep) with
    | some ip => write (.append "SIT4_ENDPOINTS" (.str ip))
    | none => pure ()

def aclRule (rule : Toml) : Writes Unit := do
  let proto ← eval (index "proto" rule)
  let cidr ← eval (index "cidr" rule)
  let cidr ← eval (normalizeCidr lib cidr)
  let ports ← eval (get "ports" (.list []) rule)
  let ports ← eval (iter ports)
  let ports ← eval (ports.mapM (toInt lib))
  write (.append "ACL_RULES" (.rule proto cidr ports))

def acl (cfg : Toml) : Writes Unit := do
  let rules ← eval (get "acl" (.list []) cfg)
  let rules ← eval (iter rules)
  rules.forM (aclRule lib)

/-- `TABLE.update({k: int(v) for k, v in rl.get(key, {}).items()})`. -/
def updateTable (rl : Toml) (name key : String) : Writes Unit := do
  let values ← table key rl
  let values ← eval (items values)
  let values ← eval (values.mapM fun e => do return (e.1, ← toInt lib e.2))
  values.forM fun e => write (.setItem name (.str e.1) (.int e.2))

def rateTables : List (String × String) :=
  [("_SYN_RATE_BY_PROC", "syn_by_proc"), ("_SYN_RATE_BY_SERVICE", "syn_by_service"),
    ("_SYN_AGG_RATE_BY_PROC", "syn_agg_by_proc"),
    ("_SYN_AGG_RATE_BY_SERVICE", "syn_agg_by_service"),
    ("_TCP_CONN_BY_PROC", "tcp_conn_by_proc"), ("_TCP_CONN_BY_SERVICE", "tcp_conn_by_service"),
    ("_TCP_CONN_PREFIX_BY_PROC", "tcp_conn_prefix_by_proc"),
    ("_TCP_CONN_PREFIX_BY_SERVICE", "tcp_conn_prefix_by_service"),
    ("_TCP_CONN_PORT_BY_PROC", "tcp_conn_port_by_proc"),
    ("_TCP_CONN_PORT_BY_SERVICE", "tcp_conn_port_by_service"),
    ("_UDP_RATE_BY_PROC", "udp_by_proc"), ("_UDP_RATE_BY_SERVICE", "udp_by_service"),
    ("_UDP_AGG_BYTES_BY_PROC", "udp_agg_bytes_by_proc"),
    ("_UDP_AGG_BYTES_BY_SERVICE", "udp_agg_bytes_by_service")]

def mapEntriesTables : List (String × String) :=
  [("_RATE_MAP_ENTRIES_BY_PROC", "map_entries_by_proc"),
    ("_RATE_MAP_ENTRIES_BY_SERVICE", "map_entries_by_service")]

/-- A prefix length, under its old key too. -/
def sourcePrefix (rl : Toml) (name key oldKey : String) (length : ℤ) : Writes Unit := do
  let old ← eval (get oldKey (.int length) rl)
  let value ← eval (get key old rl)
  let value ← eval (coercePrefixLen lib value length length)
  write (.assign name (.int value))

def mapEntries (rl : Toml) (name key : String) (default : ℤ) : Writes Unit := do
  let value ← eval (get key (.int default) rl)
  let value ← eval (toInt lib value)
  write (.assign name (.int value))

def rateLimits (cfg : Toml) : Writes Unit := do
  let rl ← table "rate_limits" cfg
  sourcePrefix lib rl "RATE_LIMIT_SOURCE_PREFIX_V4" "source_cidr_v4" "source_prefix_v4" 32
  sourcePrefix lib rl "RATE_LIMIT_SOURCE_PREFIX_V6" "source_cidr_v6" "source_prefix_v6" 128
  rateTables.forM fun t => updateTable lib rl t.1 t.2
  mapEntries lib rl "RATE_MAP_ENTRIES_V4" "map_entries_v4" 16384
  mapEntries lib rl "RATE_MAP_ENTRIES_V6" "map_entries_v6" 4096
  mapEntriesTables.forM fun t => updateTable lib rl t.1 t.2

def flags (cfg : Toml) : Writes Unit := do
  let firewall ← table "firewall" cfg
  let bogon ← eval (get "bogon_filter" (.bool true) firewall)
  write (.assign "BOGON_FILTER_ENABLED" (.bool (truthy bogon)))
  let isattack ← table "under_attack" cfg
  let enabled ← eval (get "enabled" (.bool false) isattack)
  write (.assign "ISATTACK_MODE" (.bool (truthy enabled)))
  write (.assign "DROP_EVENTS_ENABLED" (.bool (!truthy enabled)))

def daemon (cfg : Toml) : Writes Unit := do
  let daemon ← table "daemon" cfg
  let level ← eval (get "log_level" (.str "warning") daemon)
  write (.assign "LOG_LEVEL" (.str (coerceLogLevel lib level)))
  let debounce ← eval (get "debounce_seconds" (.float (lib.round (2/5))) daemon)
  let debounce ← eval (coercePositiveFloat lib debounce (lib.round (2/5)))
  write (.assign "DEBOUNCE_SECONDS" (.float debounce))
  let backend ← eval (get "preferred_backend" (.str "auto") daemon)
  write (.assign "PREFERRED_BACKEND" (.str (coerceBackend lib backend)))

/-- `extend` and `update` take the elements from a generator, one by one. -/
def discovery (cfg : Toml) : Writes Unit := do
  let discovery ← table "discovery" cfg
  let loopback ← eval (get "exclude_loopback" (.bool true) discovery)
  write (.assign "DISCOVERY_EXCLUDE_LOOPBACK" (.bool (truthy loopback)))
  let cidrs ← eval (get "exclude_bind_cidrs" (.list []) discovery)
  let cidrs ← eval (iter cidrs)
  cidrs.forM fun c => do
    let cidr ← eval (normalizeCidr lib c)
    write (.append "DISCOVERY_EXCLUDE_BIND_CIDRS" (.str cidr))
  let ports ← eval (get "exclude_ports" (.list []) discovery)
  let ports ← eval (iter ports)
  ports.forM fun p => do
    let port ← eval (toInt lib p)
    write (.add "DISCOVERY_EXCLUDE_PORTS" (.int port))

def mapPaths : List (String × String) :=
  [("TCP_MAP_PATH", "tcp_whitelist"), ("UDP_MAP_PATH", "udp_whitelist"),
    ("SCTP_MAP_PATH", "sctp_whitelist"), ("TCP_CONNTRACK_MAP_PATH4", "tcp_ct4"),
    ("TCP_CONNTRACK_MAP_PATH6", "tcp_ct6"), ("UDP_CONNTRACK_MAP_PATH4", "udp_ct4"),
    ("UDP_CONNTRACK_MAP_PATH6", "udp_ct6"), ("TRUSTED_IPS_MAP_PATH4", "trusted_ipv4"),
    ("TRUSTED_IPS_MAP_PATH6", "trusted_ipv6"), ("TCP_PORT_POLICY_MAP_PATH", "tcp_port_policies"),
    ("UDP_PORT_POLICY_MAP_PATH", "udp_port_policies"), ("UDP_GLOBAL_RL_MAP_PATH", "udp_global_rl"),
    ("XDP_RUNTIME_CFG_MAP_PATH", "xdp_runtime_cfg"), ("TCP_ACL_MAP_PATH4", "tcp_acl_v4"),
    ("TCP_ACL_MAP_PATH6", "tcp_acl_v6"), ("UDP_ACL_MAP_PATH4", "udp_acl_v4"),
    ("UDP_ACL_MAP_PATH6", "udp_acl_v6"), ("SIT4_ENDPOINTS_MAP_PATH", "sit4_endpoints"),
    ("SYN4_MAP_PATH", "syn4"), ("SYN6_MAP_PATH", "syn6"), ("UDPRT4_MAP_PATH", "udprt4"),
    ("UDPRT6_MAP_PATH", "udprt6"), ("ABUSEIPDB_RISK_MAP_PATH4", "abuseipdb_v4")]

/-- `REQUIRED_XDP_MAP_NAMES` is read once, when the module is imported. -/
def setBpfPinDir (required : List String) (pinDir : String) : Writes Unit := do
  write (.assign "BPF_PIN_DIR" (.str pinDir))
  mapPaths.forM fun p => write (.assign p.1 (.str (pinDir ++ "/" ++ p.2)))
  write (.assign "REQUIRED_XDP_MAP_PATHS" (.tuple (required.map fun n => pinDir ++ "/" ++ n)))

/-- `rstrip("/")`. -/
def rstripSlash (s : String) : String :=
  String.ofList (s.toList.reverse.dropWhile (· = '/')).reverse

def pinDir (required : List String) (cfg : Toml) : Writes Unit := do
  let xdp ← table "xdp" cfg
  let dir ← eval (get "bpf_pin_dir" (.str "/sys/fs/bpf/xdp_fw") xdp)
  setBpfPinDir required (rstripSlash (toStr lib dir))

def nftables (cfg : Toml) : Writes Unit := do
  let nft ← table "nftables" cfg
  let family ← eval (get "family" (.str "inet") nft)
  write (.assign "NFT_FAMILY" (.str (toStr lib family)))
  let name ← eval (get "table" (.str "auto_xdp") nft)
  write (.assign "NFT_TABLE" (.str (toStr lib name)))

def positiveInt (v : Toml) (name key : String) (default : ℤ) : Writes Unit := do
  let value ← eval (get key (.int default) v)
  let value ← eval (coercePositiveInt lib value default)
  write (.assign name (.int value))

def nonnegativeFloat (v : Toml) (name key : String) (default : ℚ) : Writes Unit := do
  let value ← eval (get key (.float (.finite default)) v)
  let value ← eval (coerceNonnegativeFloat lib value (.finite default))
  write (.assign name (.float value))

def defaultLimits : List (String × String × ℤ) :=
  [("XDP_SENSITIVE_PORT_THRESHOLD", "sensitive_port_threshold", 5),
    ("XDP_DEFAULT_TCP_SYN_RATE_STRICT", "default_tcp_syn_rate_strict", 5),
    ("XDP_DEFAULT_TCP_SYN_RATE", "default_tcp_syn_rate", 100),
    ("XDP_DEFAULT_TCP_SYN_AGG_RATE_STRICT", "default_tcp_syn_agg_rate_strict", 50),
    ("XDP_DEFAULT_TCP_SYN_AGG_RATE", "default_tcp_syn_agg_rate", 1000),
    ("XDP_DEFAULT_TCP_ESTABLISHED_PER_SRC_STRICT", "default_tcp_established_per_src_strict", 5),
    ("XDP_DEFAULT_TCP_ESTABLISHED_PER_SRC", "default_tcp_established_per_src", 50),
    ("XDP_DEFAULT_TCP_ESTABLISHED_PER_PREFIX_STRICT",
      "default_tcp_established_per_prefix_strict", 20),
    ("XDP_DEFAULT_TCP_ESTABLISHED_PER_PREFIX", "default_tcp_established_per_prefix", 200),
    ("XDP_DEFAULT_TCP_ESTABLISHED_PER_PORT_STRICT", "default_tcp_established_per_port_strict",
      200),
    ("XDP_DEFAULT_TCP_ESTABLISHED_PER_PORT", "default_tcp_established_per_port", 5000)]

def runtime (cfg : Toml) : Writes Unit := do
  let xdp ← table "xdp" cfg
  positiveInt lib xdp "XDP_CONNTRACK_STALE_RECONCILES" "conntrack_stale_reconciles" 2
  let rt ← table "runtime" xdp
  nonnegativeFloat lib rt "XDP_TCP_TIMEOUT_SECONDS" "tcp_timeout_seconds" 300
  nonnegativeFloat lib rt "XDP_UDP_TIMEOUT_SECONDS" "udp_timeout_seconds" 60
  nonnegativeFloat lib rt "XDP_CONNTRACK_REFRESH_SECONDS" "conntrack_refresh_seconds" 30
  nonnegativeFloat lib rt "XDP_CONNTRACK_GC_INTERVAL_SECONDS" "conntrack_gc_interval_seconds" 300
  positiveInt lib rt "XDP_ICMP_BURST_PACKETS" "icmp_burst_packets" 100
  nonnegativeFloat lib rt "XDP_ICMP_RATE_PPS" "icmp_rate_pps" 100
  nonnegativeFloat lib rt "XDP_UDP_GLOBAL_WINDOW_SECONDS" "udp_global_window_seconds" 1
  nonnegativeFloat lib rt "XDP_RATE_WINDOW_SECONDS" "rate_window_seconds" 1
  nonnegativeFloat lib rt "XDP_SYN_TIMEOUT_SECONDS" "syn_timeout_seconds" 30
  defaultLimits.forM fun l => positiveInt lib rt l.1 l.2.1 l.2.2
  let mbps ← eval (get "udp_global_byte_rate_mbps" (.float (.finite 0)) rt)
  let mbps ← eval (coerceNonnegativeFloat lib mbps (.finite 0))
  let byteRate ← eval (truncate (scaleUp lib (scaleUp lib mbps 1000000) (1/8)))
  write (.assign "XDP_UDP_GLOBAL_BYTE_RATE" (.int byteRate))

def slots (cfg : Toml) : Writes Unit := do
  let slots ← table "slots" cfg
  let action ← eval (get "default_action" (.str "drop") slots)
  let action := lib.lower (toStr lib action)
  write (.assign "SLOT_DEFAULT_ACTION" (.str (if action = "drop" then "drop" else "pass")))

def baseUrl : String :=
  "https://raw.githubusercontent.com/borestad/blocklist-abuseipdb/refs/heads/main"

def abuseipdb (cfg : Toml) : Writes Unit := do
  let ab ← table "abuseipdb" cfg
  let enabled ← eval (get "enabled" (.bool false) ab)
  write (.assign "ABUSEIPDB_ENABLED" (.bool (truthy enabled)))
  let url ← eval (get "base_url" (.str baseUrl) ab)
  write (.assign "ABUSEIPDB_BASE_URL" (.str (toStr lib url)))
  let raw ← eval (get "sources" (.list [.str "s1003d"]) ab)
  write (.rebind "ABUSEIPDB_SOURCES" (match raw with
    | .list xs => xs.map fun s => .str (toStr lib s)
    | _ => [.str "s1003d"]))
  let refresh ← eval (get "refresh_seconds" (.float (.finite 3600)) ab)
  let refresh ← eval (coercePositiveFloat lib refresh (.finite 3600))
  write (.assign "ABUSEIPDB_REFRESH_SECONDS" (.float refresh))

def scalarNames : List String :=
  ["RATE_LIMIT_SOURCE_PREFIX_V4", "RATE_LIMIT_SOURCE_PREFIX_V6", "RATE_MAP_ENTRIES_V4",
    "RATE_MAP_ENTRIES_V6", "BOGON_FILTER_ENABLED", "ISATTACK_MODE", "DROP_EVENTS_ENABLED",
    "LOG_LEVEL", "DEBOUNCE_SECONDS", "PREFERRED_BACKEND", "DISCOVERY_EXCLUDE_LOOPBACK",
    "BPF_PIN_DIR"] ++ mapPaths.map Prod.fst ++
  ["REQUIRED_XDP_MAP_PATHS", "NFT_FAMILY", "NFT_TABLE", "XDP_CONNTRACK_STALE_RECONCILES",
    "XDP_TCP_TIMEOUT_SECONDS", "XDP_UDP_TIMEOUT_SECONDS", "XDP_CONNTRACK_REFRESH_SECONDS",
    "XDP_CONNTRACK_GC_INTERVAL_SECONDS", "XDP_ICMP_BURST_PACKETS", "XDP_ICMP_RATE_PPS",
    "XDP_UDP_GLOBAL_WINDOW_SECONDS", "XDP_RATE_WINDOW_SECONDS", "XDP_SYN_TIMEOUT_SECONDS"] ++
  defaultLimits.map Prod.fst ++
  ["XDP_UDP_GLOBAL_BYTE_RATE", "SLOT_DEFAULT_ACTION", "ABUSEIPDB_ENABLED", "ABUSEIPDB_BASE_URL",
    "ABUSEIPDB_SOURCES", "ABUSEIPDB_REFRESH_SECONDS"]

/-- The globals that hold the configuration. -/
def configNames : List String := clearedContainers ++ scalarNames

/-- `_apply_toml_config_in_place`. -/
def applyTomlConfigInPlace (required : List String) (cfg : Toml) : Writes Unit := do
  reset
  permanent lib cfg
  trustedIps lib cfg
  tunnel lib cfg
  acl lib cfg
  rateLimits lib cfg
  flags cfg
  daemon lib cfg
  discovery lib cfg
  pinDir lib required cfg
  nftables lib cfg
  runtime lib cfg
  slots lib cfg
  abuseipdb lib cfg

/-! The import. -/

def importedSettings : List (String × Scalar) :=
  [("RATE_MAP_ENTRIES_V4", .int 16384), ("RATE_MAP_ENTRIES_V6", .int 4096),
    ("RATE_LIMIT_SOURCE_PREFIX_V4", .int 32), ("RATE_LIMIT_SOURCE_PREFIX_V6", .int 128),
    ("BOGON_FILTER_ENABLED", .bool true), ("ISATTACK_MODE", .bool false),
    ("DROP_EVENTS_ENABLED", .bool true), ("LOG_LEVEL", .str "warning"),
    ("DEBOUNCE_SECONDS", .float (lib.round (2/5))), ("DISCOVERY_EXCLUDE_LOOPBACK", .bool true),
    ("PREFERRED_BACKEND", .str "auto"), ("XDP_CONNTRACK_STALE_RECONCILES", .int 2),
    ("XDP_TCP_TIMEOUT_SECONDS", .float (.finite 300)),
    ("XDP_UDP_TIMEOUT_SECONDS", .float (.finite 60)),
    ("XDP_CONNTRACK_REFRESH_SECONDS", .float (.finite 30)),
    ("XDP_CONNTRACK_GC_INTERVAL_SECONDS", .float (.finite 300)),
    ("XDP_ICMP_BURST_PACKETS", .int 100), ("XDP_ICMP_RATE_PPS", .float (.finite 100)),
    ("XDP_UDP_GLOBAL_WINDOW_SECONDS", .float (.finite 1)),
    ("XDP_RATE_WINDOW_SECONDS", .float (.finite 1)),
    ("XDP_SYN_TIMEOUT_SECONDS", .float (.finite 30)), ("XDP_UDP_GLOBAL_BYTE_RATE", .int 0),
    ("NFT_FAMILY", .str "inet"), ("NFT_TABLE", .str "auto_xdp"),
    ("ABUSEIPDB_ENABLED", .bool false), ("ABUSEIPDB_BASE_URL", .str baseUrl),
    ("ABUSEIPDB_REFRESH_SECONDS", .float (.finite 3600)), ("SLOT_DEFAULT_ACTION", .str "drop"),
    ("BPF_PIN_DIR", .str ""), ("REQUIRED_XDP_MAP_PATHS", .tuple [])]

def importedLimits : List (String × Scalar) := defaultLimits.map fun l => (l.1, .int l.2.2)

def importedPaths : List (String × Scalar) := mapPaths.map fun p => (p.1, .str "")

def importedScalars : List (String × Scalar) :=
  importedSettings lib ++ (importedLimits ++ importedPaths)

/-- The kind of a container that is cleared first. -/
def kindOf (name : String) : Kind :=
  if name ∈ ["ACL_RULES", "SIT4_ENDPOINTS", "DISCOVERY_EXCLUDE_BIND_CIDRS"] then .list
  else if name = "DISCOVERY_EXCLUDE_PORTS" then .set
  else .dict

def emptyOf : Kind → Content
  | .dict => .dict []
  | .list => .list []
  | .set => .set []

/-- The module before `_set_bpf_pin_dir` is called at its level. -/
def declared : Module where
  globals := clearedContainers.zipIdx.map (fun e => (e.1, .ref e.2)) ++
    [("ABUSEIPDB_SOURCES", .ref 24)] ++ (importedScalars lib).map fun e => (e.1, .scalar e.2)
  heap a := if a = 24 then .list [.str "s1003d"]
    else emptyOf (kindOf (clearedContainers.getD a ""))
  fresh := 25

def imported (required : List String) : Module :=
  (declared lib).run (setBpfPinDir required "/sys/fs/bpf/xdp_fw").log

/-! The transaction. -/

/-- `str.isupper`, of ASCII names. -/
def isUpper (name : String) : Bool :=
  let bytes := name.toUTF8.data.toList.map UInt8.toNat
  bytes.any (fun b => 65 ≤ b && b ≤ 90) && !bytes.any fun b => 97 ≤ b && b ≤ 122

/-- A global of the snapshot: what it was bound to, and a deep copy of its content. -/
structure Saved where
  name : String
  original : Value
  copy : ℕ → Content

def snapshot (m : Module) : List Saved :=
  (m.globals.filter fun e => isUpper e.1).map fun e => ⟨e.1, e.2, m.heap⟩

/-- `original.clear(); original.update(saved)` or `original[:] = saved`, and the name. -/
def restore (m : Module) (saved : Saved) : Module :=
  let heap := match saved.original with
    | .ref a => Function.update m.heap a (saved.copy a)
    | .scalar _ => m.heap
  { m with globals := PyDict.set saved.name saved.original m.globals, heap := heap }

/-- `apply_toml_config`. -/
def applyTomlConfig (required : List String) (cfg : Toml) (m : Module) : Py Unit × Module :=
  let saved := snapshot m
  let w := applyTomlConfigInPlace lib required cfg
  match w.result with
  | .ok () => (.ok (), m.run w.log)
  | .error e => (.error e, saved.foldl restore (m.run w.log))

end AutoXdp.TomlConfig
