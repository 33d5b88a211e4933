import AutoXdp.EditFrame
import Mathlib.Tactic.Basic

/-! The commands for `permanent_ports`. -/
namespace AutoXdp.AdminEdits
open TomlConfig

variable (lib : Library) (required : List String)

/-! The section. -/

def portWrites (proto : PortProto) (ports : List ℤ) : List TomlConfig.Command :=
  (ports.map fun n => (Key.int n, Item.str "config")).map fun e => .setItem proto.target e.1 e.2

theorem permanentPorts_done (proto : PortProto) {perm : Toml} {log : List TomlConfig.Command} :
    (permanentPorts lib proto.target proto.text perm).Done log ↔
      ∃ ports, portsOf lib proto perm = .ok ports ∧ log = portWrites proto ports := by
  have hbody (p : Toml) (log : List TomlConfig.Command) :
      (do
        let port ← eval (toInt lib p)
        write (.setItem proto.target (.int port) (.str "config"))).Done log ↔
      ∃ c, (∃ n, toInt lib p = .ok n ∧ c = .setItem proto.target (.int n) (.str "config")) ∧
        log = [c] := by
    refine done_eval.trans ?_
    constructor
    · rintro ⟨n, hn, hdone⟩
      exact ⟨_, ⟨n, hn, rfl⟩, done_write.mp hdone⟩
    · rintro ⟨c, ⟨n, hn, rfl⟩, rfl⟩
      exact ⟨n, hn, done_write.mpr rfl⟩
  have hwrites (ports : List ℤ) : portWrites proto ports =
      ports.map fun n => .setItem proto.target (.int n) (.str "config") := List.map_map ..
  unfold permanentPorts portsOf
  constructor
  · intro h
    obtain ⟨v, hv, h₁⟩ := done_eval.mp h
    obtain ⟨values, hvalues, h₂⟩ := done_eval.mp h₁
    obtain ⟨ports, hports, rfl⟩ := forall₂_exists.mp ((done_forM hbody).mp h₂)
    refine ⟨ports, bind_ok.mpr ⟨v, hv, bind_ok.mpr ⟨values, hvalues, ?_⟩⟩, (hwrites ports).symm⟩
    exact mapM_ok.mpr hports
  · rintro ⟨ports, h, rfl⟩
    obtain ⟨v, hv, h₁⟩ := bind_ok.mp h
    obtain ⟨values, hvalues, h₂⟩ := bind_ok.mp h₁
    refine done_eval.mpr ⟨v, hv, done_eval.mpr ⟨values, hvalues, ?_⟩⟩
    exact (done_forM hbody).mpr (forall₂_exists.mpr ⟨ports, mapM_ok.mp h₂, hwrites ports⟩)

theorem permanent_done {data : Tree} {log : List TomlConfig.Command} :
    (permanent lib (.dict data)).Done log ↔ ∃ ports : PortProto → List ℤ,
      (∀ proto, portsOf lib proto ((data.lookup "permanent_ports").getD (.dict [])) =
        .ok (ports proto)) ∧
      log = portWrites .tcp (ports .tcp) ++
        (portWrites .udp (ports .udp) ++ portWrites .sctp (ports .sctp)) := by
  unfold permanent table
  constructor
  · intro h
    obtain ⟨perm, hperm, h₁⟩ := done_eval.mp h
    obtain rfl : (data.lookup "permanent_ports").getD (.dict []) = perm := Except.ok.inj hperm
    obtain ⟨l₁, l, htcp, h₂, rfl⟩ := done_seq.mp h₁
    obtain ⟨l₂, l₃, hudp, hsctp, rfl⟩ := done_seq.mp h₂
    obtain ⟨tcp, htcp', rfl⟩ := (permanentPorts_done lib .tcp).mp htcp
    obtain ⟨udp, hudp', rfl⟩ := (permanentPorts_done lib .udp).mp hudp
    obtain ⟨sctp, hsctp', rfl⟩ := (permanentPorts_done lib .sctp).mp hsctp
    refine ⟨fun proto => proto.casesOn tcp udp sctp, fun proto => ?_, rfl⟩
    cases proto with
    | tcp => exact htcp'
    | udp => exact hudp'
    | sctp => exact hsctp'
  · rintro ⟨ports, hports, rfl⟩
    have hdone (proto : PortProto) := (permanentPorts_done lib proto).mpr ⟨_, hports proto, rfl⟩
    refine done_eval.mpr ⟨_, rfl, ?_⟩
    exact done_seq.mpr ⟨_, _, hdone .tcp, done_seq.mpr ⟨_, _, hdone .udp, hdone .sctp, rfl⟩, rfl⟩

theorem own_ports (proto : PortProto) (ports : List ℤ) :
    ∀ c ∈ portWrites proto ports, c.name = proto.target ∧ c.mutates = true := by
  intro c hc
  obtain ⟨e, -, rfl⟩ := List.mem_map.mp hc
  exact ⟨rfl, rfl⟩

/-! What is in force. -/

theorem lookup_ports (ports : List ℤ) (k : Key) :
    (ports.map fun n => (Key.int n, Item.str "config")).lookup k =
      if k ∈ ports.map Key.int then some (.str "config") else none := by
  induction ports with
  | nil => rfl
  | cons n ports ih =>
    rw [List.map_cons, List.map_cons]
    by_cases hk : k = .int n
    · rw [hk, List.lookup_cons_self, if_pos List.mem_cons_self]
    · have hmem : k ∈ Key.int n :: ports.map Key.int ↔ k ∈ ports.map Key.int :=
        List.mem_cons.trans (or_iff_right hk)
      rw [PyDict.lookup_cons_ne hk, ih, if_congr hmem rfl rfl]

/-- The ports that stand behind the protocol. -/
theorem entry_ports (proto : PortProto) (ports : List ℤ) (k : Key) :
    entryOf k (some (.content ((portWrites proto ports).foldl (fun x c => c.mutate x)
      (emptyOf (kindOf proto.target))))) =
      if k ∈ ports.map Key.int then some (.str "config") else none := by
  have hkind : kindOf proto.target = .dict := by
    cases proto with
    | tcp | udp | sctp => decide +kernel
  have hempty : emptyOf (kindOf proto.target) = .dict [] := congrArg emptyOf hkind
  have hmem : k ∈ ports.reverse.map Key.int ↔ k ∈ ports.map Key.int := by
    rw [List.map_reverse, List.mem_reverse]
  rw [hempty, portWrites, mutate_items, entryOf, PyDict.lookup_foldl_set, List.lookup_nil,
    Option.or_none, ← List.map_reverse, lookup_ports, if_congr hmem rfl rfl]

/-! The edits. -/

/-- Where nothing is configured, the commands start from empty lists. -/
theorem portsOf_default (proto : PortProto) (data : Tree) :
    portsOf lib proto ((data.lookup "permanent_ports").getD emptyPorts) =
      portsOf lib proto ((data.lookup "permanent_ports").getD (.dict [])) := by
  cases data.lookup "permanent_ports" with
  | some perm => rfl
  | none => cases proto with
    | tcp | udp | sctp => rfl

theorem portsOf_set_self (proto : PortProto) (ports : List ℤ) (entries : List (String × Toml)) :
    portsOf lib proto (.dict (PyDict.set proto.text (.list (ports.map .int)) entries)) =
      .ok ports := by
  have hlookup := PyDict.lookup_set_self proto.text (.list (ports.map .int)) entries
  refine bind_ok.mpr ⟨.list (ports.map .int), ?_, bind_ok.mpr ⟨_, rfl, ?_⟩⟩
  · exact congrArg (fun v => Except.ok (Option.getD v _)) hlookup
  · rw [mapM_ok, List.forall₂_map_left_iff]
    exact List.forall₂_same.mpr fun _ _ => rfl

theorem portsOf_set_ne {proto other : PortProto} (hne : other ≠ proto) (v : Toml)
    (entries : List (String × Toml)) :
    portsOf lib other (.dict (PyDict.set proto.text v entries)) =
      portsOf lib other (.dict entries) := by
  have htext : other.text ≠ proto.text := by
    cases other with
    | tcp | udp | sctp => cases proto with
      | tcp | udp | sctp => first | decide | exact absurd rfl hne
  have hget := alike_set proto.text v entries other.text (.list []) htext
  rw [portsOf, hget]
  rfl

/-! The two runs. -/

section Runs

variable {lib required}

theorem target_injective {proto proto' : PortProto} (h : proto ≠ proto') :
    proto.target ≠ proto'.target := by
  cases proto with
  | tcp | udp | sctp => cases proto' with
    | tcp | udp | sctp => first | decide | exact absurd rfl h

theorem around_ports {cfg : Toml} {l l' perm trusted sit rules rest : List TomlConfig.Command}
    {proto : PortProto} (hperm : (permanent lib cfg).Done (l ++ (perm ++ l')))
    (htrusted : (trustedIps lib cfg).Done trusted) (hsit : (tunnel lib cfg).Done sit)
    (hrules : (acl lib cfg).Done rules) (hrest : (later lib required cfg).Done rest)
    (hown : ∀ c ∈ perm, c.name = proto.target ∧ c.mutates = true)
    (hl : under proto.target l = []) (hl' : under proto.target l' = []) :
    Around lib required cfg proto.target (reset.log ++ l) perm
      (l' ++ (trusted ++ (sit ++ (rules ++ rest)))) := by
  have hmem : proto.target ∈ clearedContainers ∧ proto.target ∉ laterContainers ∧
      proto.target ∉ ["TRUSTED_SRC_IPS"] ∧ proto.target ∉ ["SIT4_ENDPOINTS"] ∧
      proto.target ∉ ["ACL_RULES"] := by
    cases proto with
    | tcp | udp | sctp => decide +kernel
  obtain ⟨hmem, hlater, hnot₁, hnot₂, hnot₃⟩ := hmem
  constructor
  case done =>
    refine (inPlace_done lib required).mpr ⟨_, trusted, sit, rules, rest, hperm, htrusted, hsit,
      hrules, hrest, ?_⟩
    simp only [List.append_assoc]
  case cleared =>
    rw [under_append, under_reset hmem, hl]
    rfl
  case own => exact hown
  case rest =>
    rw [under_append, under_append, under_append, under_append, hl',
      under_within (done_within (sets_trustedIps lib cfg) htrusted) hnot₁ List.not_mem_nil,
      under_within (done_within (sets_tunnel lib cfg) hsit) hnot₂ List.not_mem_nil,
      under_within (done_within (sets_acl lib cfg) hrules) hnot₃ List.not_mem_nil,
      under_later lib required hmem hlater hrest]
    rfl

/-- The writes of the ports, around those of one protocol. -/
theorem split_ports (proto : PortProto) (ports : PortProto → List ℤ) :
    ∃ l l', under proto.target l = [] ∧ under proto.target l' = [] ∧
      ∀ ports' : PortProto → List ℤ, (∀ other, other ≠ proto → ports' other = ports other) →
        portWrites .tcp (ports' .tcp) ++
          (portWrites .udp (ports' .udp) ++ portWrites .sctp (ports' .sctp)) =
        l ++ (portWrites proto (ports' proto) ++ l') := by
  have hunder (other : PortProto) (hne : proto ≠ other) :
      under proto.target (portWrites other (ports other)) = [] :=
    under_other (fun c hc => (own_ports other _ c hc).1) (target_injective hne)
  cases proto with
  | tcp =>
    refine ⟨[], portWrites .udp (ports .udp) ++ portWrites .sctp (ports .sctp), rfl, ?_, ?_⟩
    · rw [under_append, hunder .udp nofun, hunder .sctp nofun]
      rfl
    · intro ports' hsame
      rw [hsame .udp nofun, hsame .sctp nofun]
      rfl
  | udp =>
    refine ⟨portWrites .tcp (ports .tcp), portWrites .sctp (ports .sctp), hunder .tcp nofun,
      hunder .sctp nofun, ?_⟩
    intro ports' hsame
    rw [hsame .tcp nofun, hsame .sctp nofun]
  | sctp =>
    refine ⟨portWrites .tcp (ports .tcp) ++ portWrites .udp (ports .udp), [], ?_, rfl, ?_⟩
    · rw [under_append, hunder .tcp nofun, hunder .udp nofun]
      rfl
    · intro ports' hsame
      rw [hsame .tcp nofun, hsame .udp nofun, List.append_nil, List.append_assoc]

/-- Other ports for one protocol. -/
theorem means_ports {data : Tree} {c : AdminEdits.Command} {proto : PortProto} {m m₁ : Module}
    (h : m.Ok) (happly : applyTomlConfig lib required (.dict data) m = (.ok (), m₁))
    (hc : c.target = proto.target) {old new : List ℤ} {entries : List (String × Toml)}
    (hold : portsOf lib proto ((data.lookup "permanent_ports").getD (.dict [])) = .ok old)
    (hentries : (data.lookup "permanent_ports").getD emptyPorts = .dict entries) :
    Means lib required (PyDict.set "permanent_ports"
        (.dict (PyDict.set proto.text (.list (new.map .int)) entries)) data) c m₁ ↔
      Edited lib (some (.content ((portWrites proto old).foldl (fun x c => c.mutate x)
        (emptyOf (kindOf proto.target)))))
        (some (.content ((portWrites proto new).foldl (fun x c => c.mutate x)
          (emptyOf (kindOf proto.target))))) c := by
  classical
  obtain ⟨log, hdone, -⟩ := done_of_apply lib required happly
  obtain ⟨perm, trusted, sit, rules, rest, hperm, htrusted, hsit, hrules, hrest, -⟩ :=
    (inPlace_done lib required).mp hdone
  obtain ⟨ports, hports, rfl⟩ := (permanent_done lib).mp hperm
  obtain rfl : ports proto = old := Except.ok.inj ((hports proto).symm.trans hold)
  have halike := alike_set "permanent_ports"
    (.dict (PyDict.set proto.text (.list (new.map .int)) entries)) data
  have hports' (other : PortProto) : portsOf lib other (((PyDict.set "permanent_ports"
      (.dict (PyDict.set proto.text (.list (new.map .int)) entries)) data).lookup
        "permanent_ports").getD (.dict [])) = .ok (Function.update ports proto new other) := by
    rw [PyDict.lookup_set_self, Option.getD_some]
    by_cases hother : other = proto
    · rw [hother, Function.update_self]
      exact portsOf_set_self lib proto new entries
    · rw [Function.update_of_ne hother, portsOf_set_ne lib hother, ← hentries, portsOf_default]
      exact hports other
  have hperm' := (permanent_done lib).mpr ⟨_, hports', rfl⟩
  obtain ⟨l, l', hl, hl', hsplit⟩ := split_ports proto ports
  rw [hsplit ports fun _ _ => rfl] at hperm
  rw [hsplit _ fun other hother => Function.update_of_ne hother .., Function.update_self] at hperm'
  have hbefore := around_ports hperm htrusted hsit hrules hrest (own_ports proto _) hl hl'
  -- The other sections do not read the key.
  rw [← trustedIps_alike lib halike (by decide)] at htrusted
  rw [← tunnel_alike lib halike (by decide)] at hsit
  rw [← acl_alike lib halike (by decide)] at hrules
  rw [← later_alike lib required halike (by decide)] at hrest
  have hafter := around_ports hperm' htrusted hsit hrules hrest (own_ports proto new) hl hl'
  have hmem : c.target ∈ clearedContainers := by
    rw [hc]
    cases proto with
    | tcp | udp | sctp => decide +kernel
  rw [← hc] at hbefore hafter
  rw [means_iff lib required h happly hmem hbefore hafter, hc]

theorem permanentAdd_means {data data' : Tree} {proto : PortProto} {port : ℤ} {m m₁ : Module}
    (h : m.Ok) (happly : applyTomlConfig lib required (.dict data) m = (.ok (), m₁))
    (hedit : permanentAdd lib proto port data = .ok data') :
    Means lib required data' (.permanentAdd proto port) m₁ := by
  obtain ⟨-, -, h₁⟩ := bind_ok.mp hedit
  obtain ⟨old, hold, h₂⟩ := bind_ok.mp h₁
  obtain ⟨new, hnew, h₃⟩ := bind_ok.mp h₂
  obtain ⟨perm, hperm, h₄⟩ := bind_ok.mp h₃
  obtain ⟨entries, hentries, rfl⟩ := setItem_ok hperm
  rw [portsOf_default] at hold
  rw [writeToml_ok h₄, normalizePorts_ok hnew]
  refine (means_ports (c := .permanentAdd proto port) h happly rfl hold hentries).mpr ?_
  intro k
  rw [entry_ports, entry_ports]
  have hmem : k ∈ (sortedPorts (old ++ [port])).map Key.int ↔
      k = .int port ∨ k ∈ old.map Key.int := by
    simp only [List.mem_map, mem_sortedPorts, List.mem_append, List.mem_singleton]
    constructor
    · rintro ⟨n, hn | rfl, rfl⟩
      · exact Or.inr ⟨n, hn, rfl⟩
      · exact Or.inl rfl
    · rintro (rfl | ⟨n, hn, rfl⟩)
      · exact ⟨port, Or.inr rfl, rfl⟩
      · exact ⟨n, Or.inl hn, rfl⟩
  rw [if_congr hmem rfl rfl]
  by_cases hk : k = .int port
  · rw [if_pos hk, if_pos (Or.inl hk)]
  · rw [if_neg hk, if_congr (or_iff_right hk) rfl rfl]

theorem permanentDel_means {data data' : Tree} {proto : PortProto} {port : ℤ} {m m₁ : Module}
    (h : m.Ok) (happly : applyTomlConfig lib required (.dict data) m = (.ok (), m₁))
    (hedit : permanentDel lib proto port data = .ok data') :
    Means lib required data' (.permanentDel proto port) m₁ := by
  obtain ⟨-, -, h₁⟩ := bind_ok.mp hedit
  obtain ⟨old, hold, h₂⟩ := bind_ok.mp h₁
  obtain ⟨new, hnew, h₃⟩ := bind_ok.mp h₂
  obtain ⟨perm, hperm, h₄⟩ := bind_ok.mp h₃
  obtain ⟨entries, hentries, rfl⟩ := setItem_ok hperm
  rw [portsOf_default] at hold
  rw [writeToml_ok h₄, normalizePorts_ok hnew]
  refine (means_ports (c := .permanentDel proto port) h happly rfl hold hentries).mpr ?_
  intro k
  rw [entry_ports, entry_ports]
  have hmem : k ∈ ((sortedPorts old).filter (· ≠ port)).map Key.int ↔
      k ≠ .int port ∧ k ∈ old.map Key.int := by
    simp only [List.mem_map, List.mem_filter, mem_sortedPorts, decide_eq_true_iff]
    constructor
    · rintro ⟨n, ⟨hn, hne⟩, rfl⟩
      exact ⟨fun heq => hne (Key.int.inj heq), n, hn, rfl⟩
    · rintro ⟨hne, n, hn, rfl⟩
      exact ⟨n, ⟨hn, fun heq => hne (congrArg Key.int heq)⟩, rfl⟩
  rw [if_congr hmem rfl rfl]
  by_cases hk : k = .int port
  · rw [if_pos hk, if_neg fun h => h.1 hk]
  · rw [if_neg hk, if_congr (and_iff_right hk) rfl rfl]

end Runs

end AutoXdp.AdminEdits
