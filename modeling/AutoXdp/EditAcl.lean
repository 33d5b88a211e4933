import AutoXdp.EditFrame
import Mathlib.Tactic.Basic

/-! The commands for `acl`. -/
namespace AutoXdp.AdminEdits
open TomlConfig

variable (lib : Library) (required : List String)

/-! The section. -/

/-- A rule as the daemon reads it. -/
def ruleItem (rule : Toml) : Py Item := do
  let proto ← index "proto" rule
  let cidr ← index "cidr" rule
  let cidr ← normalizeCidr lib cidr
  let ports ← get "ports" (.list []) rule
  let ports ← iter ports
  let ports ← ports.mapM (toInt lib)
  return .rule proto cidr ports

def Reads (rule : Toml) (item : Item) : Prop := ruleItem lib rule = .ok item

def aclWrites (items : List Item) : List TomlConfig.Command := items.map (.append "ACL_RULES")

theorem aclRule_done (rule : Toml) (log : List TomlConfig.Command) :
    (aclRule lib rule).Done log ↔
      ∃ c, (∃ item, Reads lib rule item ∧ c = .append "ACL_RULES" item) ∧ log = [c] := by
  unfold aclRule Reads ruleItem
  constructor
  · intro h
    obtain ⟨proto, hproto, h₁⟩ := done_eval.mp h
    obtain ⟨raw, hraw, h₂⟩ := done_eval.mp h₁
    obtain ⟨cidr, hcidr, h₃⟩ := done_eval.mp h₂
    obtain ⟨list, hlist, h₄⟩ := done_eval.mp h₃
    obtain ⟨values, hvalues, h₅⟩ := done_eval.mp h₄
    obtain ⟨ports, hports, h₆⟩ := done_eval.mp h₅
    refine ⟨_, ⟨.rule proto cidr ports, ?_, rfl⟩, done_write.mp h₆⟩
    refine bind_ok.mpr ⟨proto, hproto, bind_ok.mpr ⟨raw, hraw, ?_⟩⟩
    refine bind_ok.mpr ⟨cidr, hcidr, bind_ok.mpr ⟨list, hlist, ?_⟩⟩
    exact bind_ok.mpr ⟨values, hvalues, bind_ok.mpr ⟨ports, hports, rfl⟩⟩
  · rintro ⟨c, ⟨item, h, rfl⟩, rfl⟩
    obtain ⟨proto, hproto, h₁⟩ := bind_ok.mp h
    obtain ⟨raw, hraw, h₂⟩ := bind_ok.mp h₁
    obtain ⟨cidr, hcidr, h₃⟩ := bind_ok.mp h₂
    obtain ⟨list, hlist, h₄⟩ := bind_ok.mp h₃
    obtain ⟨values, hvalues, h₅⟩ := bind_ok.mp h₄
    obtain ⟨ports, hports, h₆⟩ := bind_ok.mp h₅
    cases h₆
    refine done_eval.mpr ⟨proto, hproto, done_eval.mpr ⟨raw, hraw, ?_⟩⟩
    refine done_eval.mpr ⟨cidr, hcidr, done_eval.mpr ⟨list, hlist, ?_⟩⟩
    refine done_eval.mpr ⟨values, hvalues, done_eval.mpr ⟨ports, hports, ?_⟩⟩
    exact done_write.mpr rfl

theorem acl_done {data : Tree} {log : List TomlConfig.Command} :
    (acl lib (.dict data)).Done log ↔ ∃ rules items,
      iter ((data.lookup "acl").getD (.list [])) = .ok rules ∧
        List.Forall₂ (Reads lib) rules items ∧
        log = aclWrites items := by
  unfold acl
  constructor
  · intro h
    obtain ⟨v, hv, h₁⟩ := done_eval.mp h
    obtain ⟨rules, hrules, h₂⟩ := done_eval.mp h₁
    obtain ⟨items, hitems, rfl⟩ := forall₂_exists.mp ((done_forM (aclRule_done lib)).mp h₂)
    have hlist : (data.lookup "acl").getD (.list []) = v := Except.ok.inj hv
    rw [hlist]
    exact ⟨rules, items, hrules, hitems, rfl⟩
  · rintro ⟨rules, items, hrules, hitems, rfl⟩
    refine done_eval.mpr ⟨_, rfl, done_eval.mpr ⟨rules, hrules, ?_⟩⟩
    exact (done_forM (aclRule_done lib)).mpr (forall₂_exists.mpr ⟨items, hitems, rfl⟩)

theorem own_acl (items : List Item) :
    ∀ c ∈ aclWrites items, c.name = "ACL_RULES" ∧ c.mutates = true := by
  intro c hc
  obtain ⟨item, -, rfl⟩ := List.mem_map.mp hc
  exact ⟨rfl, rfl⟩

theorem mutate_appends (name : String) (items xs : List Item) :
    (items.map (TomlConfig.Command.append name)).foldl (fun x c => c.mutate x) (.list xs) =
      .list (xs ++ items) := by
  induction items generalizing xs with
  | nil => rw [List.append_nil]; rfl
  | cons item items ih =>
    have hstep := ih (xs ++ [item])
    rw [List.append_assoc] at hstep
    exact hstep

theorem rulesOf_acl (items : List Item) :
    rulesOf (some (.content ((aclWrites items).foldl (fun x c => c.mutate x)
      (emptyOf (kindOf "ACL_RULES"))))) = items := by
  have hkind : kindOf "ACL_RULES" = .list := by decide +kernel
  have hempty : emptyOf (kindOf "ACL_RULES") = .list [] := congrArg emptyOf hkind
  rw [hempty, aclWrites, mutate_appends]
  rfl

/-! The rules that are named. -/

/-- The rules that a command keeps. -/
def keeps (proto : AclProto) (cidr : String) : Item → Bool
  | .rule p c _ => !named lib proto cidr (p, c)
  | _ => true

theorem get_of_index {key : String} {v rule : Toml} (default : Toml)
    (h : index key rule = .ok v) : TomlConfig.get key default rule = .ok v := by
  cases rule with
  | dict entries =>
    simp only [index] at h
    simp only [TomlConfig.get]
    cases hlookup : entries.lookup key with
    | none =>
      rw [hlookup] at h
      exact absurd h nofun
    | some v' =>
      rw [hlookup] at h
      exact h
  | bool | int | float | str | time | list => exact absurd h nofun

/-- A rule that the daemon accepts is compared under its normalised CIDR. -/
theorem isNamed_ok {rule : Toml} {item : Item} (h : Reads lib rule item)
    (proto : AclProto) (cidr : String) :
    (do return !(← isNamed lib proto cidr rule)) = .ok (keeps lib proto cidr item) := by
  obtain ⟨p, hp, h₁⟩ := bind_ok.mp h
  obtain ⟨raw, hraw, h₂⟩ := bind_ok.mp h₁
  obtain ⟨c, hc, h₃⟩ := bind_ok.mp h₂
  obtain ⟨list, -, h₄⟩ := bind_ok.mp h₃
  obtain ⟨values, -, h₅⟩ := bind_ok.mp h₄
  obtain ⟨ports, -, h₆⟩ := bind_ok.mp h₅
  cases h₆
  have hraw' : ∃ s, raw = .str s := by
    cases raw with
    | str s => exact ⟨s, rfl⟩
    | bool | int | float | time | list | dict => exact absurd hc nofun
  obtain ⟨s, rfl⟩ := hraw'
  have hcidr : normalizeCidr lib (.str (toStr lib (.str s))) = .ok c := hc
  unfold isNamed
  rw [get_of_index _ hp]
  refine bind_ok.mpr ⟨named lib proto cidr (p, c), bind_ok.mpr ⟨p, rfl, ?_⟩, rfl⟩
  unfold named
  split_ifs with hproto
  · rw [get_of_index _ hraw, decide_eq_true hproto, Bool.true_and]
    exact bind_ok.mpr ⟨.str s, rfl, bind_ok.mpr ⟨c, hcidr, rfl⟩⟩
  · rw [decide_eq_false hproto, Bool.false_and]
    rfl

theorem filterM_ok {α β : Type} {R : α → β → Prop} {f : α → Py Bool} {q : β → Bool}
    {xs : List α} {ys : List β} (h : List.Forall₂ R xs ys)
    (hf : ∀ x y, R x y → f x = .ok (q y)) :
    ∃ zs, xs.filterM f = .ok zs ∧ List.Forall₂ R zs (ys.filter q) := by
  have haux (acc : List α) : ∃ zs, xs.filterAuxM f acc = .ok (zs.reverse ++ acc) ∧
      List.Forall₂ R zs (ys.filter q) := by
    induction h generalizing acc with
    | nil => exact ⟨[], rfl, .nil⟩
    | @cons x y xs ys hxy hxs ih =>
      rw [List.filter_cons]
      cases hq : q y with
      | true =>
        obtain ⟨zs, hzs, hall⟩ := ih (x :: acc)
        refine ⟨x :: zs, bind_ok.mpr ⟨true, hq ▸ hf x y hxy, ?_⟩, .cons hxy hall⟩
        rw [List.reverse_cons, List.append_assoc]
        exact hzs
      | false =>
        obtain ⟨zs, hzs, hall⟩ := ih acc
        exact ⟨zs, bind_ok.mpr ⟨false, hq ▸ hf x y hxy, hzs⟩, hall⟩
  obtain ⟨zs, hzs, hall⟩ := haux []
  refine ⟨zs, bind_ok.mpr ⟨_, hzs, ?_⟩, hall⟩
  rw [List.append_nil, List.reverse_reverse]
  rfl

theorem otherRules_ok {rules : List Toml} {items : List Item}
    (h : List.Forall₂ (Reads lib) rules items)
    (proto : AclProto) (cidr : String) :
    ∃ others, otherRules lib proto cidr rules = .ok others ∧
      List.Forall₂ (Reads lib) others
        (items.filter (keeps lib proto cidr)) :=
  filterM_ok h fun _ _ hrule => isNamed_ok lib hrule proto cidr

/-! What is in force. -/

theorem desired_append (items : List Item) (item : Item) :
    desiredAclRules (items ++ [item]) = desire (desiredAclRules items) item :=
  List.foldl_concat ..

open Classical in
theorem desire_rule (desired : Toml × String → Option (Finset ℤ)) (p : Toml) (c : String)
    (ports : List ℤ) : desire desired (.rule p c ports) =
      if ports = [] then desired else Function.update desired (p, c) (some ports.toFinset) := rfl

/-- The rules that are dropped are those of the named keys, and all of them. -/
theorem desired_keeps (proto : AclProto) (cidr : String) (items : List Item) :
    desiredAclRules (items.filter (keeps lib proto cidr)) =
      fun key => if named lib proto cidr key then none else desiredAclRules items key := by
  classical
  induction items using List.reverseRecOn with
  | nil =>
    funext key
    exact (ite_self _).symm
  | append_singleton items item ih =>
    rw [List.filter_append, desired_append]
    have hplain {item : Item} (hkeep : [item].filter (keeps lib proto cidr) = [item])
        (hsame : ∀ desired, desire desired item = desired) :
        desiredAclRules (items.filter (keeps lib proto cidr) ++
          [item].filter (keeps lib proto cidr)) = fun key =>
            if named lib proto cidr key then none else desire (desiredAclRules items) item key := by
      rw [hkeep, desired_append, hsame, hsame, ih]
    cases item with
    | int n => exact hplain rfl fun _ => rfl
    | str s => exact hplain rfl fun _ => rfl
    | rule p c ports =>
      rw [List.filter_singleton, keeps, desire_rule]
      cases hnamed : named lib proto cidr (p, c) with
      | true =>
        rw [Bool.not_true, cond_false, List.append_nil, ih]
        funext key
        by_cases hkey : key = (p, c)
        · rw [hkey, if_pos hnamed, if_pos hnamed]
        · split_ifs with hkeys hports
          · rfl
          · rfl
          · rw [Function.update_of_ne hkey]
      | false =>
        have hout : ¬named lib proto cidr (p, c) = true := Bool.eq_false_iff.mp hnamed
        rw [Bool.not_false, cond_true, desired_append, desire_rule, ih]
        funext key
        split_ifs with hports hkeys hkeys
        · exact if_pos hkeys
        · exact if_neg hkeys
        · have hkey : key ≠ (p, c) := by
            rintro rfl
            exact hout hkeys
          rw [Function.update_of_ne hkey, if_pos hkeys]
        · by_cases hkey : key = (p, c)
          · rw [hkey, Function.update_self, Function.update_self]
          · rw [Function.update_of_ne hkey, Function.update_of_ne hkey, if_neg hkeys]

/-- What `acl add` writes is a rule for the daemon. -/
theorem ruleItem_new (proto : String) {cidr : String} (hcidr : normalizeCidr lib (.str cidr) = .ok cidr)
    (ports : List ℤ) : ruleItem lib (.dict [("proto", .str proto), ("cidr", .str cidr),
      ("ports", .list (ports.map .int))]) = .ok (.rule (.str proto) cidr ports) := by
  have hports : (ports.map Toml.int).mapM (toInt lib) = .ok ports := by
    rw [mapM_ok, List.forall₂_map_left_iff]
    exact List.forall₂_same.mpr fun _ _ => rfl
  refine bind_ok.mpr ⟨.str proto, rfl, bind_ok.mpr ⟨.str cidr, rfl, ?_⟩⟩
  refine bind_ok.mpr ⟨cidr, hcidr, bind_ok.mpr ⟨_, rfl, bind_ok.mpr ⟨_, rfl, ?_⟩⟩⟩
  exact bind_ok.mpr ⟨ports, hports, rfl⟩

/-! The two runs. -/

section Runs

variable {lib required}

theorem around_acl {cfg : Toml} {perm trusted sit rules rest : List TomlConfig.Command}
    (hperm : (permanent lib cfg).Done perm) (htrusted : (trustedIps lib cfg).Done trusted)
    (hsit : (tunnel lib cfg).Done sit) (hrules : (acl lib cfg).Done rules)
    (hrest : (later lib required cfg).Done rest)
    (hown : ∀ c ∈ rules, c.name = "ACL_RULES" ∧ c.mutates = true) :
    Around lib required cfg "ACL_RULES" (reset.log ++ (perm ++ (trusted ++ sit))) rules rest := by
  obtain ⟨hmem, hlater, hperm', htrusted', hsit'⟩ : "ACL_RULES" ∈ clearedContainers ∧
      "ACL_RULES" ∉ laterContainers ∧
      "ACL_RULES" ∉ ["TCP_PERMANENT", "UDP_PERMANENT", "SCTP_PERMANENT"] ∧
      "ACL_RULES" ∉ ["TRUSTED_SRC_IPS"] ∧ "ACL_RULES" ∉ ["SIT4_ENDPOINTS"] := by
    decide +kernel
  constructor
  case done =>
    refine (inPlace_done lib required).mpr ⟨perm, trusted, sit, rules, rest, hperm, htrusted, hsit,
      hrules, hrest, ?_⟩
    simp only [List.append_assoc]
  case cleared =>
    rw [under_append, under_append, under_append, under_reset hmem,
      under_within (done_within (sets_permanent lib cfg) hperm) hperm' List.not_mem_nil,
      under_within (done_within (sets_trustedIps lib cfg) htrusted) htrusted' List.not_mem_nil,
      under_within (done_within (sets_tunnel lib cfg) hsit) hsit' List.not_mem_nil]
    rfl
  case own => exact hown
  case rest => exact under_later lib required hmem hlater hrest

/-- Other rules for `acl`. -/
theorem means_acl {data : Tree} {c : AdminEdits.Command} {m m₁ : Module} (h : m.Ok)
    (happly : applyTomlConfig lib required (.dict data) m = (.ok (), m₁))
    (hc : c.target = "ACL_RULES") {rules' : List Toml} {items' : List Item}
    (hitems' : List.Forall₂ (Reads lib) rules' items')
    {items : List Item} {rules : List Toml}
    (hrules : iter ((data.lookup "acl").getD (.list [])) = .ok rules)
    (hitems : List.Forall₂ (Reads lib) rules items) :
    Means lib required (PyDict.set "acl" (.list rules') data) c m₁ ↔
      Edited lib (some (.content ((aclWrites items).foldl (fun x c => c.mutate x)
        (emptyOf (kindOf "ACL_RULES")))))
        (some (.content ((aclWrites items').foldl (fun x c => c.mutate x)
          (emptyOf (kindOf "ACL_RULES"))))) c := by
  obtain ⟨log, hdone, -⟩ := done_of_apply lib required happly
  obtain ⟨perm, trusted, sit, old, rest, hperm, htrusted, hsit, -, hrest, -⟩ :=
    (inPlace_done lib required).mp hdone
  have hacl := (acl_done lib).mpr ⟨rules, items, hrules, hitems, rfl⟩
  have halike := alike_set "acl" (.list rules') data
  have hrules' : iter (((PyDict.set "acl" (.list rules') data).lookup "acl").getD (.list [])) =
      .ok rules' := by
    rw [PyDict.lookup_set_self]
    rfl
  have hacl' := (acl_done lib).mpr ⟨rules', items', hrules', hitems', rfl⟩
  have hbefore := around_acl hperm htrusted hsit hacl hrest (own_acl items)
  -- The other sections do not read the key.
  rw [← permanent_alike lib halike (by decide)] at hperm
  rw [← trustedIps_alike lib halike (by decide)] at htrusted
  rw [← tunnel_alike lib halike (by decide)] at hsit
  rw [← later_alike lib required halike (by decide)] at hrest
  have hafter := around_acl hperm htrusted hsit hacl' hrest (own_acl items')
  have hmem : c.target ∈ clearedContainers := by
    rw [hc]
    decide +kernel
  rw [← hc] at hbefore hafter
  rw [means_iff lib required h happly hmem hbefore hafter, hc]

theorem acl_of_apply {data : Tree} {m m₁ : Module}
    (happly : applyTomlConfig lib required (.dict data) m = (.ok (), m₁)) :
    ∃ rules items, iter ((data.lookup "acl").getD (.list [])) = .ok rules ∧
      List.Forall₂ (Reads lib) rules items := by
  obtain ⟨log, hdone, -⟩ := done_of_apply lib required happly
  obtain ⟨perm, trusted, sit, old, rest, -, -, -, hrules, -⟩ :=
    (inPlace_done lib required).mp hdone
  obtain ⟨rules, items, hiter, hitems, -⟩ := (acl_done lib).mp hrules
  exact ⟨rules, items, hiter, hitems⟩

/-- A rule that is added is in force for its key, and no other spelling of the key is. -/
theorem aclAdd_means (hlib : Lawful lib) {data data' : Tree} {proto : AclProto} {cidr : String}
    {port : ℤ} {ports : List ℤ} {m m₁ : Module} (h : m.Ok)
    (happly : applyTomlConfig lib required (.dict data) m = (.ok (), m₁))
    (hedit : aclAdd lib proto cidr (port :: ports) data = .ok data') :
    Means lib required data' (.aclAdd proto cidr port ports) m₁ := by
  obtain ⟨rules, items, hrules, hitems⟩ := acl_of_apply happly
  obtain ⟨cidr', hcidr, h₁⟩ := bind_ok.mp hedit
  obtain ⟨sorted, hsorted, h₂⟩ := bind_ok.mp h₁
  obtain ⟨rules₁, hiter, h₃⟩ := bind_ok.mp h₂
  obtain ⟨others, hothers, h₄⟩ := bind_ok.mp h₃
  obtain rfl : rules = rules₁ := Except.ok.inj (hrules.symm.trans hiter)
  obtain ⟨others₁, hothers₁, hkept⟩ := otherRules_ok lib hitems proto cidr'
  obtain rfl : others₁ = others := Except.ok.inj (hothers₁.symm.trans hothers)
  have hself := hlib.normalized cidr cidr' hcidr
  rw [normalizePorts_ok hsorted] at h₄
  have hnew : List.Forall₂ (Reads lib) _ _ := List.Forall₂.cons (ruleItem_new lib proto.text hself (sortedPorts (port :: ports))) List.Forall₂.nil
  have hitems' := List.rel_append hkept hnew
  rw [writeToml_ok h₄]
  refine (means_acl (c := .aclAdd proto cidr port ports) h happly rfl hitems' hrules hitems).mpr ?_
  intro cidr₁ hcidr₁
  obtain rfl : cidr' = cidr₁ := Except.ok.inj (hcidr.symm.trans hcidr₁)
  have hports : sortedPorts (port :: ports) ≠ [] :=
    List.ne_nil_of_mem (mem_sortedPorts.mpr List.mem_cons_self)
  rw [rulesOf_acl, rulesOf_acl, desired_append, desire_rule, if_neg hports, desired_keeps,
    toFinset_sortedPorts]

/-- A rule that is deleted is out of force in every spelling. -/
theorem aclDel_means {data data' : Tree} {proto : AclProto} {cidr : String}
    {m m₁ : Module} (h : m.Ok)
    (happly : applyTomlConfig lib required (.dict data) m = (.ok (), m₁))
    (hedit : aclDel lib proto cidr data = .ok data') :
    Means lib required data' (.aclDel proto cidr) m₁ := by
  obtain ⟨rules, items, hrules, hitems⟩ := acl_of_apply happly
  obtain ⟨cidr', hcidr, h₁⟩ := bind_ok.mp hedit
  obtain ⟨rules₁, hiter, h₂⟩ := bind_ok.mp h₁
  obtain ⟨others, hothers, h₃⟩ := bind_ok.mp h₂
  obtain rfl : rules = rules₁ := Except.ok.inj (hrules.symm.trans hiter)
  obtain ⟨others₁, hothers₁, hkept⟩ := otherRules_ok lib hitems proto cidr'
  obtain rfl : others₁ = others := Except.ok.inj (hothers₁.symm.trans hothers)
  rw [writeToml_ok h₃]
  refine (means_acl (c := .aclDel proto cidr) h happly rfl hkept hrules hitems).mpr ?_
  intro cidr₁ hcidr₁
  obtain rfl : cidr' = cidr₁ := Except.ok.inj (hcidr.symm.trans hcidr₁)
  rw [rulesOf_acl, rulesOf_acl, desired_keeps]

end Runs

end AutoXdp.AdminEdits
