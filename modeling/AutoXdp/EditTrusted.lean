import AutoXdp.EditFrame
import Mathlib.Tactic.Basic

/-! The commands for `trusted_ips`. -/
namespace AutoXdp.AdminEdits
open TomlConfig

variable (lib : Library) (required : List String)

/-! The section. -/

/-- An entry and what it sets. -/
def Trusts (e : String × Toml) (item : String × String) : Prop :=
  normalizeCidr lib (.str e.1) = .ok item.1 ∧ item.2 = toStr lib e.2

def trustedWrites (items : List (String × String)) : List TomlConfig.Command :=
  (items.map fun e => (Key.str e.1, Item.str e.2)).map fun e =>
    .setItem "TRUSTED_SRC_IPS" e.1 e.2

theorem trustedIps_done {data : Tree} {log : List TomlConfig.Command} :
    (trustedIps lib (.dict data)).Done log ↔ ∃ entries items,
      (data.lookup "trusted_ips").getD (.dict []) = .dict entries ∧
        List.Forall₂ (Trusts lib) entries items ∧ log = trustedWrites items := by
  have hbody (e : String × Toml) (log : List TomlConfig.Command) :
      (do
        let cidr ← eval (normalizeCidr lib (.str e.1))
        write (.setItem "TRUSTED_SRC_IPS" (.str cidr) (.str (toStr lib e.2)))).Done log ↔
      ∃ c, (∃ item, Trusts lib e item ∧
        c = .setItem "TRUSTED_SRC_IPS" (.str item.1) (.str item.2)) ∧ log = [c] := by
    refine done_eval.trans ?_
    constructor
    · rintro ⟨cidr, hcidr, hdone⟩
      exact ⟨_, ⟨(cidr, toStr lib e.2), ⟨hcidr, rfl⟩, rfl⟩, done_write.mp hdone⟩
    · rintro ⟨c, ⟨⟨cidr, label⟩, ⟨hcidr, rfl⟩, rfl⟩, rfl⟩
      exact ⟨cidr, hcidr, done_write.mpr rfl⟩
  have hwrites (items : List (String × String)) : trustedWrites items =
      items.map fun e => .setItem "TRUSTED_SRC_IPS" (.str e.1) (.str e.2) := List.map_map ..
  unfold trustedIps table
  refine done_eval.trans ?_
  constructor
  · rintro ⟨trusted, htrusted, h⟩
    obtain ⟨entries, hentries, h⟩ := done_eval.mp h
    obtain ⟨items, hitems, rfl⟩ := forall₂_exists.mp ((done_forM hbody).mp h)
    have htable : (data.lookup "trusted_ips").getD (.dict []) = trusted := Except.ok.inj htrusted
    refine ⟨entries, items, ?_, hitems, (hwrites items).symm⟩
    rw [htable]
    cases trusted with
    | dict es => exact congrArg Toml.dict (Except.ok.inj hentries)
    | bool | int | float | str | time | list => exact absurd hentries nofun
  · rintro ⟨entries, items, htable, hitems, rfl⟩
    refine ⟨.dict entries, congrArg Except.ok htable, ?_⟩
    refine done_eval.mpr ⟨entries, rfl, ?_⟩
    exact (done_forM hbody).mpr (forall₂_exists.mpr ⟨items, hitems, hwrites items⟩)

theorem trustedEntries_eq {data : Tree} {entries : List (String × Toml)}
    (h : (data.lookup "trusted_ips").getD (.dict []) = .dict entries) :
    trustedEntries data = entries := by
  unfold trustedEntries
  cases hlookup : data.lookup "trusted_ips" with
  | none =>
    rw [hlookup] at h
    exact Toml.dict.inj h
  | some v =>
    rw [hlookup] at h
    have hv : v = .dict entries := h
    rw [hv]

/-! What is in force. -/

theorem lastLabel_cons (cidr : String) (e : String × Toml) (es : List (String × Toml)) :
    lastLabel lib cidr (e :: es) = (lastLabel lib cidr es).or
      (if spells lib cidr e = true then some (toStr lib e.2) else none) := by
  rw [lastLabel, lastLabel, List.reverse_cons, List.find?_append, Option.map_or]
  apply congrArg
  rw [List.find?_singleton]
  split_ifs with he
  · rfl
  · rfl

theorem spells_iff {e : String × Toml} {item : String × String} (h : Trusts lib e item)
    (cidr : String) : spells lib cidr e = true ↔ cidr = item.1 := by
  unfold spells
  rw [h.1]
  exact decide_eq_true_iff.trans eq_comm

/-- The entry of a CIDR is the last one that spells it. -/
theorem lookup_trusted {entries : List (String × Toml)} {items : List (String × String)}
    (h : List.Forall₂ (Trusts lib) entries items) (cidr : String) :
    items.reverse.lookup cidr = lastLabel lib cidr entries := by
  induction h with
  | nil => rfl
  | @cons e item es items he _ ih =>
    rw [List.reverse_cons, List.lookup_append, ih, lastLabel_cons]
    apply congrArg
    have hiff := spells_iff lib he cidr
    obtain ⟨key, label⟩ := item
    by_cases hkey : cidr = key
    · rw [if_pos (hiff.mpr hkey), hkey, List.lookup_cons_self]
      exact congrArg some he.2
    · rw [if_neg fun hspells => hkey (hiff.mp hspells), PyDict.lookup_cons_ne hkey]
      rfl

/-- What the daemon trusts behind the entries. -/
theorem entry_trusted {entries : List (String × Toml)} {items : List (String × String)}
    (h : List.Forall₂ (Trusts lib) entries items) (k : Key) :
    entryOf k (some (.content ((trustedWrites items).foldl (fun x c => c.mutate x)
      (emptyOf (kindOf "TRUSTED_SRC_IPS"))))) = match k with
      | .str cidr => (lastLabel lib cidr entries).map Item.str
      | .int _ => none := by
  have hkind : kindOf "TRUSTED_SRC_IPS" = .dict := by decide +kernel
  have hempty : emptyOf (kindOf "TRUSTED_SRC_IPS") = .dict [] := congrArg emptyOf hkind
  rw [hempty, trustedWrites, mutate_items, entryOf, PyDict.lookup_foldl_set, List.lookup_nil,
    Option.or_none, ← List.map_reverse]
  cases k with
  | str cidr =>
    have hinj : Function.Injective Key.str := fun _ _ h => Key.str.inj h
    rw [PyDict.lookup_map_key hinj, lookup_trusted lib h]
  | int n =>
    rw [List.lookup_eq_none_iff]
    intro e he
    obtain ⟨item, -, rfl⟩ := List.mem_map.mp he
    have hne : Key.int n ≠ Key.str item.1 := nofun
    exact bne_iff_ne.mpr hne

/-! The edits. -/

theorem lastLabel_none {cidr : String} {entries : List (String × Toml)} :
    lastLabel lib cidr entries = none ↔ ∀ e ∈ entries, ¬spells lib cidr e = true := by
  rw [lastLabel, Option.map_eq_none_iff, List.find?_eq_none]
  exact forall_congr' fun e => imp_congr_left List.mem_reverse

section Edits

variable {lib} {cidr : String}

/-- A normalised key spells one CIDR only. -/
theorem spells_self (hcidr : normalizeCidr lib (.str cidr) = .ok cidr) (k : String) (v : Toml) :
    spells lib k (cidr, v) = true ↔ k = cidr :=
  have htrusts : Trusts lib (cidr, v) (cidr, toStr lib v) := ⟨hcidr, rfl⟩
  spells_iff lib htrusts k

/-- The label of a set key is hidden by the spellings behind it, and by no other. -/
theorem lastLabel_set (hcidr : normalizeCidr lib (.str cidr) = .ok cidr) (label k : String)
    (entries : List (String × Toml)) :
    lastLabel lib k (PyDict.set cidr (.str label) entries) = if k = cidr then
      (lastLabel lib cidr (entries.dropWhile fun e => e.1 ≠ cidr).tail).or (some label)
      else lastLabel lib k entries := by
  induction entries with
  | nil =>
    rw [PyDict.set, lastLabel_cons]
    by_cases hk : k = cidr
    · rw [if_pos hk, if_pos ((spells_self hcidr k _).mpr hk)]
      rfl
    · rw [if_neg hk, if_neg fun hspells => hk ((spells_self hcidr k _).mp hspells)]
      rfl
  | cons e es ih =>
    rw [PyDict.set, List.dropWhile_cons]
    by_cases he : e.1 = cidr
    · have hstop : ¬decide (e.1 ≠ cidr) = true := fun h => of_decide_eq_true h he
      rw [if_pos he, if_neg hstop, List.tail_cons, lastLabel_cons, lastLabel_cons]
      by_cases hk : k = cidr
      · rw [if_pos hk, if_pos ((spells_self hcidr k _).mpr hk), hk]
        rfl
      · have hold : ¬spells lib k e = true := by
          obtain ⟨key, v⟩ := e
          have hkey : key = cidr := he
          subst hkey
          exact fun hspells => hk ((spells_self hcidr k v).mp hspells)
        have hnew : ¬spells lib k (cidr, .str label) = true :=
          fun hspells => hk ((spells_self hcidr k _).mp hspells)
        rw [if_neg hk, if_neg hold, if_neg hnew]
    · rw [if_neg he, if_pos (decide_eq_true he), lastLabel_cons, ih, lastLabel_cons]
      split_ifs with hk hspells
      · rw [Option.or_assoc]
        rfl
      · rw [Option.or_none]
      · rfl
      · rfl

theorem lastLabel_pop (hcidr : normalizeCidr lib (.str cidr) = .ok cidr) {k : String}
    (hk : k ≠ cidr) (entries : List (String × Toml)) :
    lastLabel lib k (PyDict.pop cidr entries) = lastLabel lib k entries := by
  induction entries with
  | nil => rfl
  | cons e es ih =>
    rw [PyDict.pop, List.filter_cons, lastLabel_cons, ← ih]
    by_cases he : e.1 = cidr
    · have hold : ¬spells lib k e = true := by
        obtain ⟨key, v⟩ := e
        have hkey : key = cidr := he
        subst hkey
        exact fun hspells => hk ((spells_self hcidr k v).mp hspells)
      have hdrop : ¬decide (e.1 ≠ cidr) = true := fun h => of_decide_eq_true h he
      rw [if_neg hdrop, if_neg hold, Option.or_none]
      rfl
    · rw [if_pos (decide_eq_true he), lastLabel_cons]
      rfl

end Edits

/-! The two runs. -/

section Runs

variable {lib required}

theorem around_trusted {cfg : Toml} {perm trusted sit rules rest : List TomlConfig.Command}
    (hperm : (permanent lib cfg).Done perm) (htrusted : (trustedIps lib cfg).Done trusted)
    (hsit : (tunnel lib cfg).Done sit) (hrules : (acl lib cfg).Done rules)
    (hrest : (later lib required cfg).Done rest)
    (hown : ∀ c ∈ trusted, c.name = "TRUSTED_SRC_IPS" ∧ c.mutates = true) :
    Around lib required cfg "TRUSTED_SRC_IPS" (reset.log ++ perm) trusted
      (sit ++ (rules ++ rest)) := by
  obtain ⟨hmem, hlater, hperm', hsit', hrules'⟩ : "TRUSTED_SRC_IPS" ∈ clearedContainers ∧
      "TRUSTED_SRC_IPS" ∉ laterContainers ∧
      "TRUSTED_SRC_IPS" ∉ ["TCP_PERMANENT", "UDP_PERMANENT", "SCTP_PERMANENT"] ∧
      "TRUSTED_SRC_IPS" ∉ ["SIT4_ENDPOINTS"] ∧ "TRUSTED_SRC_IPS" ∉ ["ACL_RULES"] := by
    decide +kernel
  constructor
  case done =>
    refine (inPlace_done lib required).mpr ⟨perm, trusted, sit, rules, rest, hperm, htrusted, hsit,
      hrules, hrest, ?_⟩
    rw [List.append_assoc, List.append_assoc]
  case cleared =>
    rw [under_append, under_reset hmem,
      under_within (done_within (sets_permanent lib cfg) hperm) hperm' List.not_mem_nil]
    rfl
  case own => exact hown
  case rest =>
    rw [under_append, under_append,
      under_within (done_within (sets_tunnel lib cfg) hsit) hsit' List.not_mem_nil,
      under_within (done_within (sets_acl lib cfg) hrules) hrules' List.not_mem_nil,
      under_later lib required hmem hlater hrest]
    rfl

theorem own_trusted (items : List (String × String)) :
    ∀ c ∈ trustedWrites items, c.name = "TRUSTED_SRC_IPS" ∧ c.mutates = true := by
  intro c hc
  obtain ⟨e, -, rfl⟩ := List.mem_map.mp hc
  exact ⟨rfl, rfl⟩

/-- Other entries for `trusted_ips`. -/
theorem means_trusted {data : Tree} {entries entries' : List (String × Toml)}
    {c : AdminEdits.Command} {m m₁ : Module} (h : m.Ok)
    (happly : applyTomlConfig lib required (.dict data) m = (.ok (), m₁))
    (hc : c.target = "TRUSTED_SRC_IPS")
    (hentries : (data.lookup "trusted_ips").getD (.dict []) = .dict entries)
    (hspelled : (∀ e ∈ entries, ∃ item, Trusts lib e item) →
      ∀ e ∈ entries', ∃ item, Trusts lib e item) :
    ∃ items items', List.Forall₂ (Trusts lib) entries items ∧
      List.Forall₂ (Trusts lib) entries' items' ∧
      (Means lib required (PyDict.set "trusted_ips" (.dict entries') data) c m₁ ↔
        Edited lib (some (.content ((trustedWrites items).foldl (fun x c => c.mutate x)
          (emptyOf (kindOf "TRUSTED_SRC_IPS")))))
          (some (.content ((trustedWrites items').foldl (fun x c => c.mutate x)
            (emptyOf (kindOf "TRUSTED_SRC_IPS"))))) c) := by
  obtain ⟨log, hdone, -⟩ := done_of_apply lib required happly
  obtain ⟨perm, trusted, sit, rules, rest, hperm, htrusted, hsit, hrules, hrest, -⟩ :=
    (inPlace_done lib required).mp hdone
  obtain ⟨old, items, hold, hitems, rfl⟩ := (trustedIps_done lib).mp htrusted
  rw [hentries] at hold
  cases hold
  have hall := exists_forall₂.mp ⟨items, hitems⟩
  obtain ⟨items', hitems'⟩ := exists_forall₂.mpr (hspelled hall)
  refine ⟨items, items', hitems, hitems', ?_⟩
  have halike := alike_set "trusted_ips" (.dict entries') data
  have hlookup : ((PyDict.set "trusted_ips" (.dict entries') data).lookup "trusted_ips").getD
      (.dict []) = .dict entries' := by
    rw [PyDict.lookup_set_self]
    rfl
  have htrusted' := (trustedIps_done lib).mpr ⟨entries', items', hlookup, hitems', rfl⟩
  have hbefore := around_trusted hperm htrusted hsit hrules hrest (own_trusted items)
  -- The other sections do not read the key.
  rw [← permanent_alike lib halike (by decide)] at hperm
  rw [← tunnel_alike lib halike (by decide)] at hsit
  rw [← acl_alike lib halike (by decide)] at hrules
  rw [← later_alike lib required halike (by decide)] at hrest
  have hafter := around_trusted hperm htrusted' hsit hrules hrest (own_trusted items')
  have hmem : c.target ∈ clearedContainers := by
    rw [hc]
    decide +kernel
  rw [← hc] at hbefore hafter
  rw [means_iff lib required h happly hmem hbefore hafter, hc]

theorem trustAdd_ok {data data' : Tree} {cidr label : String}
    (h : trustAdd lib cidr label data = .ok data') :
    ∃ cidr' entries, normalizeCidr lib (.str cidr) = .ok cidr' ∧
      (data.lookup "trusted_ips").getD (.dict []) = .dict entries ∧
      data' = PyDict.set "trusted_ips" (.dict (PyDict.set cidr' (.str label) entries)) data := by
  obtain ⟨cidr', hcidr, h⟩ := bind_ok.mp h
  obtain ⟨trusted, htrusted, h⟩ := bind_ok.mp h
  obtain ⟨entries, hentries, rfl⟩ := setItem_ok htrusted
  exact ⟨cidr', entries, hcidr, hentries, writeToml_ok h⟩

/-- A trusted CIDR that is added has its label, but where a key behind its own spells it with
another one. -/
theorem trustAdd_means (hlib : Lawful lib) {data data' : Tree} {cidr label : String}
    {m m₁ : Module} (h : m.Ok)
    (happly : applyTomlConfig lib required (.dict data) m = (.ok (), m₁))
    (hedit : trustAdd lib cidr label data = .ok data') :
    Means lib required data' (.trustAdd cidr label) m₁ ↔
      Plain lib data (.trustAdd cidr label) := by
  obtain ⟨cidr', entries, hcidr, hentries, rfl⟩ := trustAdd_ok hedit
  have hself := hlib.normalized cidr cidr' hcidr
  have hspelled (hall : ∀ e ∈ entries, ∃ item, Trusts lib e item) :
      ∀ e ∈ PyDict.set cidr' (.str label) entries, ∃ item, Trusts lib e item := by
    intro e he
    rcases PyDict.mem_set he with rfl | he
    · exact ⟨(cidr', label), hself, rfl⟩
    · exact hall e he
  obtain ⟨items, items', hitems, hitems', hmeans⟩ :=
    means_trusted (c := .trustAdd cidr label) h happly rfl hentries hspelled
  rw [hmeans, Plain, trustedEntries_eq hentries]
  constructor
  · intro hedited cidr₁ hcidr₁ label' hlabel'
    obtain rfl : cidr' = cidr₁ := Except.ok.inj (hcidr.symm.trans hcidr₁)
    have hentry := hedited cidr' hcidr (.str cidr')
    rw [entry_trusted lib hitems', if_pos rfl] at hentry
    dsimp only at hentry
    rw [lastLabel_set hself, if_pos rfl, hlabel'] at hentry
    exact Item.str.inj (Option.some.inj hentry)
  · intro hplain cidr₁ hcidr₁ k
    obtain rfl : cidr' = cidr₁ := Except.ok.inj (hcidr.symm.trans hcidr₁)
    rw [entry_trusted lib hitems', entry_trusted lib hitems]
    cases k with
    | int n => rfl
    | str k =>
      dsimp only
      rw [lastLabel_set hself]
      by_cases hk : k = cidr'
      · subst hk
        rw [if_pos rfl, if_pos rfl]
        cases hlabel : lastLabel lib k (entries.dropWhile fun e => e.1 ≠ k).tail with
        | none => rfl
        | some label' => rw [hplain k hcidr label' hlabel, Option.some_or, Option.map_some]
      · have hkey : ¬Key.str k = Key.str cidr' := fun heq => hk (Key.str.inj heq)
        rw [if_neg hk, if_neg hkey]

theorem trustDel_ok {data data' : Tree} {cidr : String}
    (h : trustDel lib cidr data = .ok data') :
    ∃ cidr' entries, normalizeCidr lib (.str cidr) = .ok cidr' ∧
      (data.lookup "trusted_ips").getD (.dict []) = .dict entries ∧
      data' = PyDict.set "trusted_ips" (.dict (PyDict.pop cidr' entries)) data := by
  obtain ⟨cidr', hcidr, h⟩ := bind_ok.mp h
  obtain ⟨trusted, htrusted, h⟩ := bind_ok.mp h
  obtain ⟨entries, hentries, rfl⟩ := popItem_ok htrusted
  exact ⟨cidr', entries, hcidr, hentries, writeToml_ok h⟩

/-- A trusted CIDR that is deleted is out of force, but where another key spells it. -/
theorem trustDel_means (hlib : Lawful lib) {data data' : Tree} {cidr : String}
    {m m₁ : Module} (h : m.Ok)
    (happly : applyTomlConfig lib required (.dict data) m = (.ok (), m₁))
    (hedit : trustDel lib cidr data = .ok data') :
    Means lib required data' (.trustDel cidr) m₁ ↔ Plain lib data (.trustDel cidr) := by
  obtain ⟨cidr', entries, hcidr, hentries, rfl⟩ := trustDel_ok hedit
  have hself := hlib.normalized cidr cidr' hcidr
  have hspelled (hall : ∀ e ∈ entries, ∃ item, Trusts lib e item) :
      ∀ e ∈ PyDict.pop cidr' entries, ∃ item, Trusts lib e item :=
    fun e he => hall e (List.mem_of_mem_filter he)
  obtain ⟨items, items', hitems, hitems', hmeans⟩ :=
    means_trusted (c := .trustDel cidr) h happly rfl hentries hspelled
  rw [hmeans, Plain, trustedEntries_eq hentries]
  constructor
  · intro hedited cidr₁ hcidr₁ e he hspells
    obtain rfl : cidr' = cidr₁ := Except.ok.inj (hcidr.symm.trans hcidr₁)
    have hentry := hedited cidr' hcidr (.str cidr')
    rw [entry_trusted lib hitems', if_pos rfl] at hentry
    have hnone := (lastLabel_none lib).mp (Option.map_eq_none_iff.mp hentry)
    by_contra hne
    exact hnone e (List.mem_filter.mpr ⟨he, decide_eq_true hne⟩) hspells
  · intro hplain cidr₁ hcidr₁ k
    obtain rfl : cidr' = cidr₁ := Except.ok.inj (hcidr.symm.trans hcidr₁)
    rw [entry_trusted lib hitems', entry_trusted lib hitems]
    cases k with
    | int n =>
      have hkey : ¬Key.int n = Key.str cidr' := nofun
      rw [if_neg hkey]
    | str k =>
      by_cases hk : k = cidr'
      · subst hk
        rw [if_pos rfl]
        refine Option.map_eq_none_iff.mpr ((lastLabel_none lib).mpr fun e he hspells => ?_)
        obtain ⟨hmem, hne⟩ := List.mem_filter.mp he
        exact of_decide_eq_true hne (hplain k hcidr e hmem hspells)
      · have hkey : ¬Key.str k = Key.str cidr' := fun heq => hk (Key.str.inj heq)
        rw [if_neg hkey]
        exact congrArg (Option.map Item.str) (lastLabel_pop hself hk entries)

end Runs

end AutoXdp.AdminEdits
