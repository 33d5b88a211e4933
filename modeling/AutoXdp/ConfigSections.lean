import AutoXdp.ConfigExec
import Mathlib.Tactic.Basic

/-! `_apply_toml_config_in_place` writes every global of the configuration, and mutates
only containers that it has cleared. -/
namespace AutoXdp.TomlConfig

/-- Nothing but `containers` is mutated and nothing but `names` is bound anew, and a run
that ends well initialises `names`. -/
structure Sets {α : Type} (containers names : List String) (w : Writes α) : Prop where
  typed : ∀ c ∈ w.log, c.Within containers names
  initialised : ∀ a, w.result = .ok a → ∀ name ∈ names,
    ∃ c ∈ w.log, c.initialises = true ∧ c.name = name

section Programs

variable {α β : Type} {containers names names' : List String}

theorem sets_pure (a : α) : Sets containers [] (pure a : Writes α) :=
  ⟨fun _ hc => absurd hc List.not_mem_nil, fun _ _ _ hn => absurd hn List.not_mem_nil⟩

theorem sets_eval (e : Py α) : Sets containers [] (eval e) :=
  ⟨fun _ hc => absurd hc List.not_mem_nil, fun _ _ _ hn => absurd hn List.not_mem_nil⟩

theorem sets_mutate {c : Command} (hc : c.Within containers []) :
    Sets containers [] (write c) := by
  refine ⟨?_, fun _ _ _ hn => absurd hn List.not_mem_nil⟩
  intro c' hc'
  rw [List.mem_singleton.mp hc']
  exact hc

theorem within_mono {containers' : List String} (h : ∀ name ∈ containers, name ∈ containers')
    (h' : ∀ name ∈ names, name ∈ names') {c : Command} (hc : c.Within containers names) :
    c.Within containers' names' := by
  cases c with
  | assign | rebind => exact h' _ hc
  | clear | setItem | append | add => exact h _ hc

theorem sets_bind {w : Writes α} {f : α → Writes β} (hw : Sets containers names w)
    (hf : ∀ a, Sets containers names' (f a)) : Sets containers (names ++ names') (w >>= f) := by
  have hleft : ∀ c ∈ w.log, c.Within containers (names ++ names') :=
    fun c hc => within_mono (fun _ => id) (fun _ => List.mem_append_left _) (hw.typed c hc)
  cases hresult : w.result with
  | error e =>
    have hbind : w >>= f = ⟨w.log, .error e⟩ := by
      simp only [bind, hresult]
    rw [hbind]
    exact ⟨hleft, fun _ hok => absurd hok nofun⟩
  | ok a =>
    have hbind : w >>= f = ⟨w.log ++ (f a).log, (f a).result⟩ := by
      simp only [bind, hresult]
    have hright : ∀ c ∈ (f a).log, c.Within containers (names ++ names') :=
      fun c hc => within_mono (fun _ => id) (fun _ => List.mem_append_right _) ((hf a).typed c hc)
    rw [hbind]
    refine ⟨List.forall_mem_append.mpr ⟨hleft, hright⟩, fun b hok name hn => ?_⟩
    rcases List.mem_append.mp hn with hn | hn
    · obtain ⟨c, hc, hinit⟩ := hw.initialised a hresult name hn
      exact ⟨c, List.mem_append_left _ hc, hinit⟩
    · obtain ⟨c, hc, hinit⟩ := (hf a).initialised b hok name hn
      exact ⟨c, List.mem_append_right _ hc, hinit⟩

/-- An expression is evaluated first. -/
theorem sets_eval_bind {e : Py α} {f : α → Writes β} (hf : ∀ a, Sets containers names (f a)) :
    Sets containers names (eval e >>= f) := sets_bind (sets_eval e) hf

theorem sets_seq {w : Writes α} {u : Writes β} (hw : Sets containers names w)
    (hu : Sets containers names' u) :
    Sets containers (names ++ names') (do let _ ← w; u) := sets_bind hw fun _ => hu

/-- A loop initialises what its bodies do. -/
theorem sets_forM (xs : List α) (f : α → Writes Unit) (g : α → List String)
    (hf : ∀ x ∈ xs, Sets containers (g x) (f x)) :
    Sets containers (xs.flatMap g) (xs.forM f) := by
  induction xs with
  | nil => exact sets_pure ()
  | cons x xs ih =>
    obtain ⟨hx, hxs⟩ := List.forall_mem_cons.mp hf
    exact sets_seq hx (ih hxs)

theorem sets_forM_nil (xs : List α) (f : α → Writes Unit)
    (hf : ∀ x ∈ xs, Sets containers [] (f x)) : Sets containers [] (xs.forM f) := by
  have hloop := sets_forM xs f (fun _ => []) hf
  rwa [List.flatMap_eq_nil_iff.mpr fun _ _ => rfl] at hloop

theorem sets_mono {containers' : List String} {w : Writes α} (hw : Sets containers names w)
    (h : ∀ name ∈ containers, name ∈ containers') : Sets containers' names w :=
  ⟨fun c hc => within_mono h (fun _ => id) (hw.typed c hc), hw.initialised⟩

end Programs

section Sections

variable (lib : Library) (required : List String)

section Commands

variable {containers : List String} {name : String}

theorem sets_assign {v : Scalar} : Sets containers [name] (write (.assign name v)) := by
  refine ⟨?_, fun _ _ _ hn => ⟨_, List.mem_singleton_self _, rfl, (List.mem_singleton.mp hn).symm⟩⟩
  intro c hc
  rw [List.mem_singleton.mp hc]
  exact List.mem_singleton_self name

theorem sets_rebind {xs : List Item} : Sets containers [name] (write (.rebind name xs)) := by
  refine ⟨?_, fun _ _ _ hn => ⟨_, List.mem_singleton_self _, rfl, (List.mem_singleton.mp hn).symm⟩⟩
  intro c hc
  rw [List.mem_singleton.mp hc]
  exact List.mem_singleton_self name

theorem sets_setItem {k : Key} {v : Item} (h : name ∈ containers) :
    Sets containers [] (write (.setItem name k v)) :=
  have hc : Command.Within containers [] (.setItem name k v) := h
  sets_mutate hc

theorem sets_append {v : Item} (h : name ∈ containers) :
    Sets containers [] (write (.append name v)) :=
  have hc : Command.Within containers [] (.append name v) := h
  sets_mutate hc

theorem sets_add {k : Key} (h : name ∈ containers) :
    Sets containers [] (write (.add name k)) :=
  have hc : Command.Within containers [] (.add name k) := h
  sets_mutate hc

end Commands

theorem sets_clear {containers : List String} (names : List String)
    (h : ∀ name ∈ names, name ∈ containers) :
    Sets containers [] (names.forM fun name => write (.clear name)) :=
  sets_forM_nil names _ fun name hname => sets_mutate (h name hname)

theorem sets_reset : Sets clearedContainers ["RATE_LIMIT_SOURCE_PREFIX_V4",
    "RATE_LIMIT_SOURCE_PREFIX_V6", "RATE_MAP_ENTRIES_V4", "RATE_MAP_ENTRIES_V6"] reset := by
  apply sets_seq (sets_clear clearedContainers fun _ => id)
  apply sets_seq sets_assign
  apply sets_seq sets_assign
  apply sets_seq sets_assign
  exact sets_assign

def resetScalars : List (String × ℤ) :=
  [("RATE_LIMIT_SOURCE_PREFIX_V4", 32), ("RATE_LIMIT_SOURCE_PREFIX_V6", 128),
    ("RATE_MAP_ENTRIES_V4", 16384), ("RATE_MAP_ENTRIES_V6", 4096)]

theorem reset_log : reset.log = clearedContainers.map .clear ++
    resetScalars.map fun e => .assign e.1 (.int e.2) := rfl

theorem sets_permanentPorts {containers : List String} {name key : String} (perm : Toml)
    (h : name ∈ containers) : Sets containers [] (permanentPorts lib name key perm) := by
  apply sets_eval_bind
  intro ports
  apply sets_eval_bind
  intro ports
  apply sets_forM_nil
  intro p _
  apply sets_eval_bind
  intro port
  exact sets_setItem h

theorem sets_permanent (cfg : Toml) :
    Sets ["TCP_PERMANENT", "UDP_PERMANENT", "SCTP_PERMANENT"] [] (permanent lib cfg) := by
  apply sets_eval_bind
  intro perm
  have hsctp : "SCTP_PERMANENT" ∈ ["UDP_PERMANENT", "SCTP_PERMANENT"] :=
    List.mem_cons_of_mem _ List.mem_cons_self
  apply sets_seq (sets_permanentPorts lib perm List.mem_cons_self)
  apply sets_seq (sets_permanentPorts lib perm (List.mem_cons_of_mem _ List.mem_cons_self))
  exact sets_permanentPorts lib perm (List.mem_cons_of_mem _ hsctp)

theorem sets_trustedIps (cfg : Toml) : Sets ["TRUSTED_SRC_IPS"] [] (trustedIps lib cfg) := by
  apply sets_eval_bind
  intro trusted
  apply sets_eval_bind
  intro trusted
  apply sets_forM_nil
  intro e _
  apply sets_eval_bind
  intro cidr
  exact sets_setItem (List.mem_singleton_self _)

theorem sets_tunnel (cfg : Toml) : Sets ["SIT4_ENDPOINTS"] [] (tunnel lib cfg) := by
  apply sets_eval_bind
  intro tunnel
  apply sets_eval_bind
  intro endpoints
  apply sets_eval_bind
  intro endpoints
  apply sets_forM_nil
  intro ep _
  cases lib.ipv4Address (toStr lib ep) with
  | none => exact sets_pure ()
  | some ip => exact sets_append (List.mem_singleton_self _)

theorem sets_aclRule (rule : Toml) : Sets ["ACL_RULES"] [] (aclRule lib rule) := by
  apply sets_eval_bind
  intro proto
  apply sets_eval_bind
  intro cidr
  apply sets_eval_bind
  intro cidr
  apply sets_eval_bind
  intro ports
  apply sets_eval_bind
  intro ports
  apply sets_eval_bind
  intro ports
  exact sets_append (List.mem_singleton_self _)

theorem sets_acl (cfg : Toml) : Sets ["ACL_RULES"] [] (acl lib cfg) := by
  apply sets_eval_bind
  intro rules
  apply sets_eval_bind
  intro rules
  exact sets_forM_nil rules _ fun rule _ => sets_aclRule lib rule

theorem sets_updateTable {containers : List String} {name key : String} (rl : Toml)
    (h : name ∈ containers) : Sets containers [] (updateTable lib rl name key) := by
  apply sets_eval_bind
  intro values
  apply sets_eval_bind
  intro values
  apply sets_eval_bind
  intro values
  exact sets_forM_nil values _ fun _ _ => sets_setItem h

theorem sets_updateTables {containers : List String} {tables : List (String × String)} (rl : Toml)
    (h : ∀ t ∈ tables, t.1 ∈ containers) :
    Sets containers [] (tables.forM fun t => updateTable lib rl t.1 t.2) :=
  sets_forM_nil tables _ fun t ht => sets_updateTable lib rl (h t ht)

theorem sets_sourcePrefix {containers : List String} {name key oldKey : String} (rl : Toml)
    (length : ℤ) :
    Sets containers [name] (sourcePrefix lib rl name key oldKey length) := by
  apply sets_eval_bind
  intro old
  apply sets_eval_bind
  intro value
  apply sets_eval_bind
  intro value
  exact sets_assign

theorem sets_mapEntries {containers : List String} {name key : String} (rl : Toml)
    (default : ℤ) :
    Sets containers [name] (mapEntries lib rl name key default) := by
  apply sets_eval_bind
  intro value
  apply sets_eval_bind
  intro value
  exact sets_assign

theorem sets_rateLimits (cfg : Toml) :
    Sets (rateTables.map Prod.fst ++ mapEntriesTables.map Prod.fst)
      ["RATE_LIMIT_SOURCE_PREFIX_V4", "RATE_LIMIT_SOURCE_PREFIX_V6", "RATE_MAP_ENTRIES_V4",
        "RATE_MAP_ENTRIES_V6"] (rateLimits lib cfg) := by
  have hrates (rl : Toml) : Sets (rateTables.map Prod.fst ++ mapEntriesTables.map Prod.fst) []
      (rateTables.forM fun t => updateTable lib rl t.1 t.2) :=
    sets_updateTables lib rl fun _ ht => List.mem_append_left _ (List.mem_map_of_mem ht)
  have hentries (rl : Toml) : Sets (rateTables.map Prod.fst ++ mapEntriesTables.map Prod.fst) []
      (mapEntriesTables.forM fun t => updateTable lib rl t.1 t.2) :=
    sets_updateTables lib rl fun _ ht => List.mem_append_right _ (List.mem_map_of_mem ht)
  apply sets_eval_bind
  intro rl
  apply sets_seq (sets_sourcePrefix lib rl 32)
  apply sets_seq (sets_sourcePrefix lib rl 128)
  apply sets_seq (hrates rl)
  apply sets_seq (sets_mapEntries lib rl 16384)
  apply sets_seq (sets_mapEntries lib rl 4096)
  exact hentries rl

theorem sets_flags (cfg : Toml) :
    Sets [] ["BOGON_FILTER_ENABLED", "ISATTACK_MODE", "DROP_EVENTS_ENABLED"] (flags cfg) := by
  apply sets_eval_bind
  intro firewall
  apply sets_eval_bind
  intro bogon
  apply sets_seq sets_assign
  apply sets_eval_bind
  intro isattack
  apply sets_eval_bind
  intro enabled
  apply sets_seq sets_assign
  exact sets_assign

theorem sets_daemon (cfg : Toml) :
    Sets [] ["LOG_LEVEL", "DEBOUNCE_SECONDS", "PREFERRED_BACKEND"] (daemon lib cfg) := by
  apply sets_eval_bind
  intro daemon
  apply sets_eval_bind
  intro level
  apply sets_seq sets_assign
  apply sets_eval_bind
  intro debounce
  apply sets_eval_bind
  intro debounce
  apply sets_seq sets_assign
  apply sets_eval_bind
  intro backend
  exact sets_assign

theorem sets_discovery (cfg : Toml) :
    Sets ["DISCOVERY_EXCLUDE_BIND_CIDRS", "DISCOVERY_EXCLUDE_PORTS"]
      ["DISCOVERY_EXCLUDE_LOOPBACK"] (discovery lib cfg) := by
  apply sets_eval_bind
  intro discovery
  apply sets_eval_bind
  intro loopback
  apply sets_seq sets_assign
  apply sets_eval_bind
  intro cidrs
  apply sets_eval_bind
  intro cidrs
  have hcidrs : Sets ["DISCOVERY_EXCLUDE_BIND_CIDRS", "DISCOVERY_EXCLUDE_PORTS"] []
      (cidrs.forM fun c => do
        let cidr ← eval (normalizeCidr lib c)
        write (.append "DISCOVERY_EXCLUDE_BIND_CIDRS" (.str cidr))) := by
    apply sets_forM_nil
    intro c _
    apply sets_eval_bind
    intro cidr
    exact sets_append List.mem_cons_self
  apply sets_seq hcidrs
  apply sets_eval_bind
  intro ports
  apply sets_eval_bind
  intro ports
  apply sets_forM_nil
  intro p _
  apply sets_eval_bind
  intro port
  exact sets_add (List.mem_cons_of_mem _ List.mem_cons_self)

theorem sets_setBpfPinDir (pinDir : String) :
    Sets [] (["BPF_PIN_DIR"] ++ mapPaths.map Prod.fst ++ ["REQUIRED_XDP_MAP_PATHS"])
      (setBpfPinDir required pinDir) := by
  rw [List.append_assoc]
  apply sets_seq sets_assign
  have hloop : Sets [] (mapPaths.map Prod.fst)
      (mapPaths.forM fun p => write (.assign p.1 (.str (pinDir ++ "/" ++ p.2)))) := by
    rw [List.map_eq_flatMap]
    exact sets_forM mapPaths _ _ fun p _ => sets_assign
  apply sets_seq hloop
  exact sets_assign

theorem sets_pinDir (cfg : Toml) :
    Sets [] (["BPF_PIN_DIR"] ++ mapPaths.map Prod.fst ++ ["REQUIRED_XDP_MAP_PATHS"])
      (pinDir lib required cfg) := by
  apply sets_eval_bind
  intro xdp
  apply sets_eval_bind
  intro dir
  exact sets_setBpfPinDir required _

theorem sets_nftables (cfg : Toml) : Sets [] ["NFT_FAMILY", "NFT_TABLE"] (nftables lib cfg) := by
  apply sets_eval_bind
  intro nft
  apply sets_eval_bind
  intro family
  apply sets_seq sets_assign
  apply sets_eval_bind
  intro name
  exact sets_assign

theorem sets_positiveInt {containers : List String} {name key : String} (v : Toml)
    (default : ℤ) :
    Sets containers [name] (positiveInt lib v name key default) := by
  apply sets_eval_bind
  intro value
  apply sets_eval_bind
  intro value
  exact sets_assign

theorem sets_nonnegativeFloat {containers : List String} {name key : String} (v : Toml)
    (default : ℚ) :
    Sets containers [name] (nonnegativeFloat lib v name key default) := by
  apply sets_eval_bind
  intro value
  apply sets_eval_bind
  intro value
  exact sets_assign

theorem sets_runtime (cfg : Toml) :
    Sets [] (["XDP_CONNTRACK_STALE_RECONCILES", "XDP_TCP_TIMEOUT_SECONDS", "XDP_UDP_TIMEOUT_SECONDS",
      "XDP_CONNTRACK_REFRESH_SECONDS", "XDP_CONNTRACK_GC_INTERVAL_SECONDS",
      "XDP_ICMP_BURST_PACKETS", "XDP_ICMP_RATE_PPS", "XDP_UDP_GLOBAL_WINDOW_SECONDS",
      "XDP_RATE_WINDOW_SECONDS", "XDP_SYN_TIMEOUT_SECONDS"] ++ defaultLimits.map Prod.fst ++
      ["XDP_UDP_GLOBAL_BYTE_RATE"]) (runtime lib cfg) := by
  apply sets_eval_bind
  intro xdp
  rw [List.append_assoc]
  apply sets_seq (sets_positiveInt lib xdp 2)
  apply sets_eval_bind
  intro rt
  apply sets_seq (sets_nonnegativeFloat lib rt 300)
  apply sets_seq (sets_nonnegativeFloat lib rt 60)
  apply sets_seq (sets_nonnegativeFloat lib rt 30)
  apply sets_seq (sets_nonnegativeFloat lib rt 300)
  apply sets_seq (sets_positiveInt lib rt 100)
  apply sets_seq (sets_nonnegativeFloat lib rt 100)
  apply sets_seq (sets_nonnegativeFloat lib rt 1)
  apply sets_seq (sets_nonnegativeFloat lib rt 1)
  apply sets_seq (sets_nonnegativeFloat lib rt 30)
  have hloop : Sets [] (defaultLimits.map Prod.fst)
      (defaultLimits.forM fun l => positiveInt lib rt l.1 l.2.1 l.2.2) := by
    rw [List.map_eq_flatMap]
    exact sets_forM defaultLimits _ _ fun l _ => sets_positiveInt lib rt l.2.2
  apply sets_seq hloop
  apply sets_eval_bind
  intro mbps
  apply sets_eval_bind
  intro mbps
  apply sets_eval_bind
  intro byteRate
  exact sets_assign

theorem sets_slots (cfg : Toml) : Sets [] ["SLOT_DEFAULT_ACTION"] (slots lib cfg) := by
  apply sets_eval_bind
  intro slots
  apply sets_eval_bind
  intro action
  exact sets_assign

theorem sets_abuseipdb (cfg : Toml) :
    Sets [] ["ABUSEIPDB_ENABLED", "ABUSEIPDB_BASE_URL", "ABUSEIPDB_SOURCES",
      "ABUSEIPDB_REFRESH_SECONDS"] (abuseipdb lib cfg) := by
  apply sets_eval_bind
  intro ab
  apply sets_eval_bind
  intro enabled
  apply sets_seq sets_assign
  apply sets_eval_bind
  intro url
  apply sets_seq sets_assign
  apply sets_eval_bind
  intro raw
  apply sets_seq sets_rebind
  apply sets_eval_bind
  intro refresh
  apply sets_eval_bind
  intro refresh
  exact sets_assign

/-- What is written is typed, and a run that ends well initialises every global of the
configuration. -/
structure Complete (w : Writes Unit) : Prop where
  typed : ∀ c ∈ w.log, c.Typed clearedContainers
  initialised : ∀ a, w.result = .ok a → ∀ name ∈ configNames,
    ∃ c ∈ w.log, c.initialises = true ∧ c.name = name

/-- No global of the configuration is left out. -/
theorem complete_inPlace (cfg : Toml) : Complete (applyTomlConfigInPlace lib required cfg) := by
  have hnone : ∀ name ∈ ([] : List String), name ∈ clearedContainers :=
    fun _ hn => absurd hn List.not_mem_nil
  have hsets := sets_seq sets_reset <|
    sets_seq (sets_mono (sets_permanent lib cfg) (by decide +kernel)) <|
    sets_seq (sets_mono (sets_trustedIps lib cfg) (by decide +kernel)) <|
    sets_seq (sets_mono (sets_tunnel lib cfg) (by decide +kernel)) <|
    sets_seq (sets_mono (sets_acl lib cfg) (by decide +kernel)) <|
    sets_seq (sets_mono (sets_rateLimits lib cfg) (by decide +kernel)) <|
    sets_seq (sets_mono (sets_flags cfg) hnone) <|
    sets_seq (sets_mono (sets_daemon lib cfg) hnone) <|
    sets_seq (sets_mono (sets_discovery lib cfg) (by decide +kernel)) <|
    sets_seq (sets_mono (sets_pinDir lib required cfg) hnone) <|
    sets_seq (sets_mono (sets_nftables lib cfg) hnone) <|
    sets_seq (sets_mono (sets_runtime lib cfg) hnone) <|
    sets_seq (sets_mono (sets_slots lib cfg) hnone) (sets_mono (sets_abuseipdb lib cfg) hnone)
  constructor
  case typed =>
    refine fun c hc => within_mono (fun _ => id) ?_ (hsets.typed c hc)
    decide +kernel
  case initialised =>
    intro a hok name hname
    rcases List.mem_append.mp hname with hname | hname
    · refine ⟨.clear name, ?_, rfl, rfl⟩
      have hreset : ∀ c ∈ reset.log, c ∈ (applyTomlConfigInPlace lib required cfg).log :=
        fun c hc => List.mem_append_left _ hc
      apply hreset
      rw [reset_log]
      exact List.mem_append_left _ (List.mem_map_of_mem hname)
    · apply hsets.initialised a hok name
      revert name
      decide +kernel

end Sections

end AutoXdp.TomlConfig
