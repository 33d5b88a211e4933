import AutoXdp.AdminEdits
import AutoXdp.ConfigLog
import Mathlib.Tactic.Basic

/-! The rest of a configuration, where one key of its tree is edited. -/
namespace AutoXdp.AdminEdits
open TomlConfig

variable (lib : Library) (required : List String)

/-! The sections. -/

/-- The sections that no command edits. -/
def later (cfg : Toml) : Writes Unit := do
  rateLimits lib cfg
  flags cfg
  daemon lib cfg
  discovery lib cfg
  pinDir lib required cfg
  nftables lib cfg
  runtime lib cfg
  TomlConfig.slots lib cfg
  abuseipdb lib cfg

theorem inPlace_done {cfg : Toml} {log : List TomlConfig.Command} :
    (applyTomlConfigInPlace lib required cfg).Done log ↔
      ∃ perm trusted sit rules rest, (permanent lib cfg).Done perm ∧
        (trustedIps lib cfg).Done trusted ∧ (tunnel lib cfg).Done sit ∧
        (acl lib cfg).Done rules ∧ (later lib required cfg).Done rest ∧
        log = reset.log ++ (perm ++ (trusted ++ (sit ++ (rules ++ rest)))) := by
  have hreset : ∀ l, reset.Done l ↔ l = reset.log := by
    intro l
    constructor
    · exact fun h => (congrArg Writes.log h).symm
    · rintro rfl
      rfl
  constructor
  · intro h
    obtain ⟨l, l₁, hl, h₁, rfl⟩ := done_seq.mp h
    obtain ⟨perm, l₂, hperm, h₂, rfl⟩ := done_seq.mp h₁
    obtain ⟨trusted, l₃, htrusted, h₃, rfl⟩ := done_seq.mp h₂
    obtain ⟨sit, l₄, hsit, h₄, rfl⟩ := done_seq.mp h₃
    obtain ⟨rules, rest, hrules, hrest, rfl⟩ := done_seq.mp h₄
    rw [(hreset l).mp hl]
    exact ⟨perm, trusted, sit, rules, rest, hperm, htrusted, hsit, hrules, hrest, rfl⟩
  · rintro ⟨perm, trusted, sit, rules, rest, hperm, htrusted, hsit, hrules, hrest, rfl⟩
    refine done_seq.mpr ⟨_, _, (hreset _).mpr rfl, ?_, rfl⟩
    refine done_seq.mpr ⟨_, _, hperm, ?_, rfl⟩
    refine done_seq.mpr ⟨_, _, htrusted, ?_, rfl⟩
    refine done_seq.mpr ⟨_, _, hsit, ?_, rfl⟩
    exact done_seq.mpr ⟨_, _, hrules, hrest, rfl⟩

/-- The containers of the sections that no command edits. -/
def laterContainers : List String :=
  rateTables.map Prod.fst ++ mapEntriesTables.map Prod.fst ++
    ["DISCOVERY_EXCLUDE_BIND_CIDRS", "DISCOVERY_EXCLUDE_PORTS"]

theorem done_within {containers names : List String} {w : Writes Unit}
    {log : List TomlConfig.Command} (hsets : Sets containers names w) (h : w.Done log) :
    ∀ c ∈ log, c.Within containers names := by
  have hlog : w.log = log := congrArg Writes.log h
  rw [← hlog]
  exact hsets.typed

/-- They leave the containers alone that the commands edit. -/
theorem under_later {cfg : Toml} {rest : List TomlConfig.Command} {target : String}
    (h : target ∈ clearedContainers) (hlater : target ∉ laterContainers)
    (hrest : (later lib required cfg).Done rest) : under target rest = [] := by
  have hnone : ∀ name ∈ ([] : List String), name ∈ laterContainers :=
    fun _ hn => absurd hn List.not_mem_nil
  have hrates := sets_mono (sets_rateLimits lib cfg) fun _ hn =>
    List.mem_append_left ["DISCOVERY_EXCLUDE_BIND_CIDRS", "DISCOVERY_EXCLUDE_PORTS"] hn
  have hdiscovery := sets_mono (sets_discovery lib cfg) fun _ hn =>
    List.mem_append_right (rateTables.map Prod.fst ++ mapEntriesTables.map Prod.fst) hn
  have hsets := sets_seq hrates <| sets_seq (sets_mono (sets_flags cfg) hnone) <|
    sets_seq (sets_mono (sets_daemon lib cfg) hnone) <| sets_seq hdiscovery <|
    sets_seq (sets_mono (sets_pinDir lib required cfg) hnone) <|
    sets_seq (sets_mono (sets_nftables lib cfg) hnone) <|
    sets_seq (sets_mono (sets_runtime lib cfg) hnone) <|
    sets_seq (sets_mono (sets_slots lib cfg) hnone) (sets_mono (sets_abuseipdb lib cfg) hnone)
  refine under_within (done_within hsets hrest) hlater ?_
  clear hlater
  revert target
  decide +kernel

/-- Every container is cleared once. -/
theorem under_reset {target : String} (h : target ∈ clearedContainers) :
    under target reset.log = [.clear target] := by
  have honce : ∀ target ∈ clearedContainers,
      clearedContainers.filter (fun name => name = target) = [target] ∧
        target ∉ resetScalars.map Prod.fst := by decide +kernel
  obtain ⟨htarget, hnot⟩ := honce target h
  have hcleared : under target (clearedContainers.map .clear) = [.clear target] :=
    List.filter_map.trans (congrArg (List.map _) htarget)
  have hscalars : ∀ c ∈ resetScalars.map fun e => TomlConfig.Command.assign e.1 (.int e.2),
      c.Within [] (resetScalars.map Prod.fst) := by
    intro c hc
    obtain ⟨e, he, rfl⟩ := List.mem_map.mp hc
    exact List.mem_map_of_mem he
  rw [reset_log, under_append, hcleared, under_within hscalars List.not_mem_nil hnot]
  rfl

/-! One key. -/

/-- The trees differ at one key at most. -/
def Alike (key : String) (cfg cfg' : Toml) : Prop :=
  ∀ key' default, key' ≠ key → get key' default cfg' = get key' default cfg

theorem alike_set (key : String) (v : Toml) (data : Tree) :
    Alike key (.dict data) (.dict (PyDict.set key v data)) := by
  intro key' default hne
  have hlookup := PyDict.lookup_set_ne hne v data
  exact congrArg (fun value => Except.ok (Option.getD value default)) hlookup

section Alike

variable {key : String} {cfg cfg' : Toml}

theorem later_alike (h : Alike key cfg cfg')
    (hkey : key ∉ ["rate_limits", "firewall", "under_attack", "daemon", "discovery", "xdp",
      "nftables", "slots", "abuseipdb"]) : later lib required cfg' = later lib required cfg := by
  have hget {key'} (hmem : key' ∈ ["rate_limits", "firewall", "under_attack", "daemon",
      "discovery", "xdp", "nftables", "slots", "abuseipdb"]) (default : Toml) :
      get key' default cfg' = get key' default cfg := by
    apply h
    rintro rfl
    exact hkey hmem
  simp only [later, rateLimits, flags, daemon, discovery, pinDir, nftables, runtime, TomlConfig.slots,
    abuseipdb, table, hget (by decide : "rate_limits" ∈ _), hget (by decide : "firewall" ∈ _),
    hget (by decide : "under_attack" ∈ _), hget (by decide : "daemon" ∈ _),
    hget (by decide : "discovery" ∈ _), hget (by decide : "xdp" ∈ _),
    hget (by decide : "nftables" ∈ _), hget (by decide : "slots" ∈ _),
    hget (by decide : "abuseipdb" ∈ _)]

theorem permanent_alike (h : Alike key cfg cfg') (hkey : "permanent_ports" ≠ key) :
    permanent lib cfg' = permanent lib cfg := by
  rw [permanent, permanent, table, table, h _ _ hkey]

theorem trustedIps_alike (h : Alike key cfg cfg') (hkey : "trusted_ips" ≠ key) :
    trustedIps lib cfg' = trustedIps lib cfg := by
  rw [trustedIps, trustedIps, table, table, h _ _ hkey]

theorem tunnel_alike (h : Alike key cfg cfg') (hkey : "tunnel" ≠ key) :
    tunnel lib cfg' = tunnel lib cfg := by
  rw [tunnel, tunnel, table, table, h _ _ hkey]

theorem acl_alike (h : Alike key cfg cfg') (hkey : "acl" ≠ key) :
    acl lib cfg' = acl lib cfg := by
  rw [acl, acl, h _ _ hkey]

end Alike

/-! What a command has written. -/

theorem writeToml_ok {data data' : Tree} (h : writeToml data = .ok data') : data' = data := by
  unfold writeToml at h
  split_ifs at h with hwritable
  exact (Except.ok.inj h).symm

theorem setItem_ok {key : String} {v t t' : Toml} (h : setItem key v t = .ok t') :
    ∃ entries, t = .dict entries ∧ t' = .dict (PyDict.set key v entries) := by
  cases t with
  | dict entries => exact ⟨entries, rfl, (Except.ok.inj h).symm⟩
  | bool | int | float | str | time | list => exact absurd h nofun

theorem popItem_ok {key : String} {t t' : Toml} (h : popItem key t = .ok t') :
    ∃ entries, t = .dict entries ∧ t' = .dict (PyDict.pop key entries) := by
  cases t with
  | dict entries => exact ⟨entries, rfl, (Except.ok.inj h).symm⟩
  | bool | int | float | str | time | list => exact absurd h nofun

theorem normalizePorts_ok {values ports : List ℤ} (h : normalizePorts values = .ok ports) :
    ports = sortedPorts values := by
  unfold normalizePorts at h
  split_ifs at h with hrange
  exact (Except.ok.inj h).symm

theorem mem_sortedPorts {values : List ℤ} {port : ℤ} :
    port ∈ sortedPorts values ↔ port ∈ values :=
  (List.perm_insertionSort ..).mem_iff.trans List.mem_dedup

theorem toFinset_sortedPorts (values : List ℤ) :
    (sortedPorts values).toFinset = values.toFinset := by
  ext port
  rw [List.mem_toFinset, List.mem_toFinset, mem_sortedPorts]

/-! The two runs. -/

theorem apply_done {cfg : Toml} {log : List TomlConfig.Command} (m : Module)
    (h : (applyTomlConfigInPlace lib required cfg).Done log) :
    applyTomlConfig lib required cfg m = (.ok (), m.run log) := by
  unfold applyTomlConfig
  rw [h]

theorem done_of_apply {cfg : Toml} {m m₁ : Module}
    (h : applyTomlConfig lib required cfg m = (.ok (), m₁)) :
    ∃ log, (applyTomlConfigInPlace lib required cfg).Done log ∧ m₁ = m.run log := by
  unfold applyTomlConfig at h
  unfold Writes.Done
  generalize applyTomlConfigInPlace lib required cfg = w at h
  obtain ⟨log, result⟩ := w
  cases result with
  | error e => exact absurd (congrArg Prod.fst h) nofun
  | ok a => exact ⟨log, rfl, (congrArg Prod.snd h).symm⟩

/-- The writes of an accepted tree around those of one section. -/
structure Around (cfg : Toml) (target : String) (before s after : List TomlConfig.Command) :
    Prop where
  done : (applyTomlConfigInPlace lib required cfg).Done (before ++ s ++ after)
  cleared : under target before = [.clear target]
  own : ∀ c ∈ s, c.name = target ∧ c.mutates = true
  rest : under target after = []

/-- A command means what its own section shows, behind the old tree and the edited one. -/
theorem means_iff {data data' : Tree} {c : AdminEdits.Command} {m m₁ : Module} (h : m.Ok)
    (happly : applyTomlConfig lib required (.dict data) m = (.ok (), m₁))
    (htarget : c.target ∈ clearedContainers) {before s s' after : List TomlConfig.Command}
    (hold : Around lib required (.dict data) c.target before s after)
    (hnew : Around lib required (.dict data') c.target before s' after) :
    Means lib required data' c m₁ ↔
      Edited lib (some (.content (s.foldl (fun x c => c.mutate x) (emptyOf (kindOf c.target)))))
        (some (.content (s'.foldl (fun x c => c.mutate x) (emptyOf (kindOf c.target))))) c := by
  have hsets (data) := complete_inPlace lib required (.dict data)
  have htyped : ∀ c ∈ before ++ s ++ after, c.Typed clearedContainers := by
    have hlog : _ = before ++ s ++ after := congrArg Writes.log hold.done
    rw [← hlog]
    exact (hsets data).typed
  have htyped' : ∀ c ∈ before ++ s' ++ after, c.Typed clearedContainers := by
    have hlog : _ = before ++ s' ++ after := congrArg Writes.log hnew.done
    rw [← hlog]
    exact (hsets data').typed
  have hm₁ : m₁ = m.run (before ++ s ++ after) := by
    rw [apply_done lib required m hold.done] at happly
    exact (congrArg Prod.snd happly).symm
  have hok : m₁.Ok := hm₁ ▸ ok_run h htyped
  have hview : m₁.view c.target = _ :=
    hm₁ ▸ view_target h htyped htarget hold.cleared hold.own hold.rest
  have hview' := view_target hok htyped' htarget hold.cleared hnew.own hold.rest
  rw [← hview, ← hview']
  constructor
  · rintro ⟨m', happly', -, hedited⟩
    rw [apply_done lib required m₁ hnew.done] at happly'
    have hm' : m₁.run (before ++ s' ++ after) = m' := congrArg Prod.snd happly'
    rw [hm']
    exact hedited
  · intro hedited
    refine ⟨_, apply_done lib required m₁ hnew.done, ?_, hedited⟩
    intro name hname hne
    have hsame := view_other hok htyped htyped' (fun c hc => (hold.own c hc).1)
      (fun c hc => (hnew.own c hc).1) hne
    -- The old tree, applied again, shows what it showed.
    have hagain : (m₁.run (before ++ s ++ after)).view name = m₁.view name := by
      have hresult : (applyTomlConfigInPlace lib required (.dict data)).result = .ok () :=
        congrArg Writes.result hold.done
      have hlog : (applyTomlConfigInPlace lib required (.dict data)).log = before ++ s ++ after :=
        congrArg Writes.log hold.done
      have hinit := (hsets data).initialised () hresult name hname
      rw [hlog] at hinit
      have hagree := agree_run hok h htyped (Or.inr hinit)
      rw [hagree, ← hm₁]
    exact hsame.trans hagain

end AutoXdp.AdminEdits
