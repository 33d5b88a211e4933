import AutoXdp.AclRules
import AutoXdp.GuardedRun
import AutoXdp.RiskReplace
import Mathlib.Tactic.Basic

/-! Rounds of `reconcile` and `verify_kernel_state` over the ACL maps: which rules are in
force after each, and what the verification counts. -/
namespace AutoXdp
open StateSteps XdpBackend GuardedRun

/-! Several rules written or removed. -/

namespace RuleTable

/-- The rule has its place in the map and under the key. -/
def Targets (rule : String × LpmKey) (p : Proto) (key : LpmKey) : Prop :=
  p = BpfAclMaps.mapFor rule.1 ∧ key = rule.2.normalize

variable (t : RuleTable) {p : Proto} {key : LpmKey}

theorem write_targeted {rule : (String × LpmKey) × List U16} (h : Targets rule.1 p key) :
    t.write rule p key = some rule.2 := if_pos h

theorem write_other {rule : (String × LpmKey) × List U16} (h : ¬Targets rule.1 p key) :
    t.write rule p key = t p key := if_neg h

theorem erase_targeted {rule : String × LpmKey} (h : Targets rule p key) :
    t.erase rule p key = none := if_pos h

theorem erase_other {rule : String × LpmKey} (h : ¬Targets rule p key) :
    t.erase rule p key = t p key := if_neg h

theorem writes_other (rules : List ((String × LpmKey) × List U16))
    (h : ∀ rule ∈ rules, ¬Targets rule.1 p key) : rules.foldl write t p key = t p key := by
  induction rules generalizing t with
  | nil => rfl
  | cons r rs ih =>
    rw [List.foldl_cons, ih _ fun rule hr => h rule (List.mem_cons_of_mem _ hr)]
    exact t.write_other (h r (List.mem_cons_self ..))

/-- One of the rules that belong there is in force. -/
theorem writes_targeted (rules : List ((String × LpmKey) × List U16))
    (h : ∃ rule ∈ rules, Targets rule.1 p key) :
    ∃ rule ∈ rules, Targets rule.1 p key ∧ rules.foldl write t p key = some rule.2 := by
  induction rules generalizing t with
  | nil =>
    obtain ⟨rule, hr, -⟩ := h
    exact absurd hr List.not_mem_nil
  | cons r rs ih =>
    by_cases hrest : ∃ rule ∈ rs, Targets rule.1 p key
    · obtain ⟨rule, hr, htarget, hlast⟩ := ih (t.write r) hrest
      exact ⟨rule, List.mem_cons_of_mem _ hr, htarget, hlast⟩
    · have hnone : ∀ rule ∈ rs, ¬Targets rule.1 p key := fun rule hr ht => hrest ⟨rule, hr, ht⟩
      have hfirst : Targets r.1 p key := by
        obtain ⟨rule, hr, ht⟩ := h
        obtain rfl | hr := List.mem_cons.mp hr
        · exact ht
        · exact absurd ht (hnone rule hr)
      refine ⟨r, List.mem_cons_self .., hfirst, ?_⟩
      rw [List.foldl_cons, writes_other _ rs hnone]
      exact t.write_targeted hfirst

theorem erases_none (rules : List (String × LpmKey)) (h : t p key = none) :
    rules.foldl erase t p key = none := by
  induction rules generalizing t with
  | nil => exact h
  | cons r rs ih =>
    apply ih
    by_cases ht : Targets r p key
    · exact t.erase_targeted ht
    · rw [t.erase_other ht, h]

theorem erases_targeted (rules : List (String × LpmKey)) (h : ∃ rule ∈ rules, Targets rule p key) :
    rules.foldl erase t p key = none := by
  induction rules generalizing t with
  | nil =>
    obtain ⟨rule, hr, -⟩ := h
    exact absurd hr List.not_mem_nil
  | cons r rs ih =>
    obtain ⟨rule, hr, ht⟩ := h
    obtain rfl | hr := List.mem_cons.mp hr
    · exact erases_none _ rs (t.erase_targeted ht)
    · exact ih _ ⟨rule, hr, ht⟩

theorem erases_other (rules : List (String × LpmKey)) (h : ∀ rule ∈ rules, ¬Targets rule p key) :
    rules.foldl erase t p key = t p key := by
  induction rules generalizing t with
  | nil => rfl
  | cons r rs ih =>
    rw [List.foldl_cons, ih _ fun rule hr => h rule (List.mem_cons_of_mem _ hr)]
    exact t.erase_other (h r (List.mem_cons_self ..))

end RuleTable

open RuleTable

/-! What a reconcile makes of the table. -/

/-- The table after the rules of the plan. -/
def plannedTable (plan : ReconcilePlan) (t : RuleTable) : RuleTable :=
  plan.aclRulesToRemove.foldl erase (plan.aclRulesToUpsert.foldl write t)

/-- The rules of the plan are in force. -/
def RulesApplied (plan : ReconcilePlan) (p : Proto) (d d' : Daemon) : Prop :=
  d.opened .acl = true → (∀ rule ∈ plan.aclRulesToUpsert, Ascending rule.2) →
    ∀ t, Mirrors p d t → Mirrors p d' (plannedTable plan t)

theorem rulesApplied_about (plan : ReconcilePlan) (p : Proto) :
    AboutMap (.acl p) (RulesApplied plan p) where
  before d e f hopen hkept h hacl hasc t ht := by
    apply h (by rw [hopen]; exact hacl) hasc t
    constructor
    · rw [hkept.2]
      exact ht.cached
    · rw [hkept.1]
      exact ht.stored
  after d e f h _ hkept hacl hasc t ht := by
    have hmirrors := h hacl hasc t ht
    constructor
    · rw [hkept.2]
      exact hmirrors.cached
    · rw [hkept.1]
      exact hmirrors.stored

theorem applyAclDelta_rules (plan : ReconcilePlan) (p : Proto) :
    Steps (Unfailed (RulesApplied plan p)) (applyAclDelta plan false) := by
  have hset := unfailed_forM
    (P := fun rules d d' => (∀ rule ∈ rules, Ascending rule.2) →
      ∀ t, Mirrors p d t → Mirrors p d' (rules.foldl write t))
    (Q := fun rule d d' => Ascending rule.2 → ∀ t, Mirrors p d t → Mirrors p d' (t.write rule))
    (fun e => discard (ok (BpfAclMaps.set e.1.1 e.1.2 e.2 false)))
    (fun e => unfailed_mono _ (unfailed_call (.updateAcl (BpfAclMaps.mapFor e.1.1)
      e.1.2.normalize (BpfAclMaps.packVal e.2)) _ fun _ => rfl) (by
        intro d d' hd hasc t ht
        rw [hd]
        exact mirrors_set ht e.1.1 e.1.2 e.2 hasc))
    (fun d _ t ht => ht) (by
      intro x xs d e f hx hxs hasc t ht
      apply hxs fun rule hr => hasc rule (List.mem_cons_of_mem _ hr)
      exact hx (hasc x (List.mem_cons_self ..)) t ht)
  have hdel := unfailed_forM
    (P := fun rules d d' => ∀ t, Mirrors p d t → Mirrors p d' (rules.foldl erase t))
    (Q := fun rule d d' => ∀ t, Mirrors p d t → Mirrors p d' (t.erase rule))
    (fun e => discard (ok (BpfAclMaps.delete e.1 e.2 false)))
    (fun e => unfailed_mono _ (unfailed_call (.deleteAcl (BpfAclMaps.mapFor e.1)
      e.2.normalize) _ fun _ => rfl) (by
        intro d d' hd t ht
        rw [hd]
        exact mirrors_delete ht e.1 e.2))
    (fun d t ht => ht) (by
      intro x xs d e f hx hxs t ht
      exact hxs _ (hx t ht))
  have hboth := unfailed_seq (G := fun d d' => (∀ rule ∈ plan.aclRulesToUpsert, Ascending rule.2) →
      ∀ t, Mirrors p d t → Mirrors p d' (plannedTable plan t))
    _ _ (hset plan.aclRulesToUpsert) (fun _ => hdel plan.aclRulesToRemove) (by
      intro d e f h h' hasc t ht
      exact h' _ (h hasc t ht))
  intro d
  unfold applyAclDelta
  rw [run_get_bind, run_ite]
  by_cases hopen : d.opened .acl = true
  · rw [if_pos hopen]
    exact fun hzero => ⟨(hboth d hzero).1, fun _ => (hboth d hzero).2⟩
  · rw [if_neg hopen]
    exact fun hzero => ⟨hzero, fun h => absurd h hopen⟩

section Reconciled

variable (cfg : Config) (desired : DesiredState) (d : Daemon) (p : Proto)

/-- A reconcile that counted no failure puts the rules of its plan in force. -/
theorem reconcile_rules (hopen : d.opened .acl = true)
    (hasc : ∀ k ports, desired.aclRules.lookup k = some ports → Ascending ports)
    (hzero : (reconcile cfg desired false d).2.lastApplyFailures = 0) (t : RuleTable)
    (h : Mirrors p d t) :
    Mirrors p (reconcile cfg desired false d).2
      (plannedTable (plannedAt cfg desired d).1 t) := by
  have happlied := reconcile_about cfg desired (rulesApplied_about (plannedAt cfg desired d).1 p) d
    (fun heq => by cases heq) (fun heq => by cases heq)
    (prepared_rules cfg (plannedAt cfg desired d).1 desired p
      (rulesApplied_about (plannedAt cfg desired d).1 p) (applyAclDelta_rules _ p)) hzero
  apply happlied hopen _ t h
  intro rule hrule
  rw [(planned_acl cfg desired d hopen).1, dictUpserts, List.mem_filter, mem_dictItems] at hrule
  exact hasc _ _ hrule.1

/-- The rules of the plan: what is desired and not shown, and what is shown and not
desired. -/
theorem mem_plannedRules (hopen : d.opened .acl = true) :
    (∀ rule, rule ∈ (plannedAt cfg desired d).1.aclRulesToUpsert ↔
      desired.aclRules.lookup rule.1 = some rule.2 ∧
        (BpfAclMaps.activeEntries d).lookup rule.1 ≠ some rule.2) ∧
    ∀ k, k ∈ (plannedAt cfg desired d).1.aclRulesToRemove ↔
      ((BpfAclMaps.activeEntries d).lookup k).isSome = true ∧ desired.aclRules.lookup k = none := by
  obtain ⟨hup, hrem⟩ := planned_acl cfg desired d hopen
  constructor
  · intro rule
    rw [hup, dictUpserts, List.mem_filter, mem_dictItems, decide_eq_true_eq]
  · intro k
    rw [hrem, dictRemovals, mem_setDiff, ← AList.mem_keys, ← AList.mem_keys, AList.lookup_isSome,
      AList.lookup_eq_none]

theorem active_named (key : LpmKey) :
    (BpfAclMaps.activeEntries d).lookup (p.aclName, key) = (d.aclCache p).lookup key := by
  rw [activeEntries_lookup, mapFor_aclName, if_pos rfl]

end Reconciled

/-! Rules under the two names. -/

/-- The rule has one of the two names, and no host bits are set. -/
def Tidy (rule : String × LpmKey) : Prop :=
  rule.1 = (BpfAclMaps.mapFor rule.1).aclName ∧ rule.2.normalize = rule.2

theorem tidy_targets {rule : String × LpmKey} (h : Tidy rule) (p : Proto) (key : LpmKey) :
    Targets rule p key ↔ rule = (p.aclName, key) := by
  constructor
  · rintro ⟨rfl, rfl⟩
    rw [h.2]
    exact Prod.ext h.1 rfl
  · rintro rfl
    exact ⟨(mapFor_aclName p).symm, h.2.symm⟩

/-- An IPv4-mapped or IPv4-compatible address: `inet_ntop` prints it with a dotted quad, and
`ipaddress` in hexadecimal. -/
def dottedQuad : Addr → Bool
  | .v4 _ => false
  | .v6 a => decide (a >>> 32 = 0xFFFF ∨ (a >>> 32 = 0 ∧ a >>> 16 ≠ 0))

/-- The daemon names a network by its text. This one has a single text, the same from the
configuration and from the kernel: without host bits and without a dotted quad. -/
structure OneText (key : LpmKey) : Prop where
  normal : key.normalize = key
  hexadecimal : dottedQuad key.addr = false

/-- The rules are sets of ports, and each network is written under its one text. -/
structure Listed (desired : DesiredState) : Prop where
  ascending : ∀ k ports, desired.aclRules.lookup k = some ports → Ascending ports
  oneText : ∀ k ∈ desired.aclRules, OneText k.2.normalize

/-- Every desired rule is tidy too. -/
structure TidyRules (desired : DesiredState) : Prop extends Listed desired where
  tidy : ∀ k ∈ desired.aclRules, Tidy k

/-- The desired rules by map and key; a key stands for its text where it has one (`OneText`). -/
def desiredRules (desired : DesiredState) : RuleTable := fun p key =>
  desired.aclRules.lookup (p.aclName, key)

/-- The ACL maps are open, the caches hold the rules that the kernel holds, and each key
has one text. -/
structure AclSound (d : Daemon) : Prop where
  opened : d.opened .acl = true
  mirrored : ∀ p, Mirrors p d (cachedRules d)
  oneText : ∀ p, ∀ key ∈ d.aclCache p, OneText key

section Settled

variable (cfg : Config) (desired : DesiredState) {d : Daemon} (hd : AclSound d)

include hd

/-- A rule that the plan removes is one that the cache lists. -/
theorem removed_targets (p : Proto) (key : LpmKey) {rule : String × LpmKey}
    (hrule : rule ∈ (plannedAt cfg desired d).1.aclRulesToRemove) :
    Targets rule p key ↔ rule = (p.aclName, key) := by
  obtain ⟨proto, cidr⟩ := rule
  apply tidy_targets
  have hshown := (((mem_plannedRules cfg desired d hd.opened).2 _).mp hrule).1
  rw [activeEntries_lookup] at hshown
  by_cases hname : proto = (BpfAclMaps.mapFor proto).aclName
  · rw [if_pos hname, AList.lookup_isSome] at hshown
    exact ⟨hname, (hd.oneText _ cidr hshown).normal⟩
  · rw [if_neg hname] at hshown
    exact absurd hshown Bool.false_ne_true

theorem upserted_targets (hwf : TidyRules desired) (p : Proto) (key : LpmKey)
    {rule : (String × LpmKey) × List U16}
    (hrule : rule ∈ (plannedAt cfg desired d).1.aclRulesToUpsert) :
    Targets rule.1 p key ↔ rule.1 = (p.aclName, key) := by
  apply tidy_targets
  apply hwf.tidy
  rw [← AList.lookup_isSome, (((mem_plannedRules cfg desired d hd.opened).1 rule).mp hrule).1]
  rfl

/-- The plan makes the desired rules of the rules that the cache holds. -/
theorem settled_table (hwf : TidyRules desired) :
    plannedTable (plannedAt cfg desired d).1 (cachedRules d) = desiredRules desired := by
  funext p key
  obtain ⟨hup, hrem⟩ := mem_plannedRules cfg desired d hd.opened
  have hwritten (rule : (String × LpmKey) × List U16)
      (hr : rule ∈ (plannedAt cfg desired d).1.aclRulesToUpsert) :=
    upserted_targets cfg desired hd hwf p key hr
  have herased (rule : String × LpmKey)
      (hr : rule ∈ (plannedAt cfg desired d).1.aclRulesToRemove) :=
    removed_targets cfg desired hd p key hr
  have hactive := active_named d p key
  unfold plannedTable desiredRules
  cases hwant : desired.aclRules.lookup (p.aclName, key) with
  | some ports =>
    rw [erases_other]
    · by_cases hshown : (d.aclCache p).lookup key = some ports
      · -- the rule is there already, and nothing writes it
        rw [writes_other, cachedRules, hshown]
        intro rule hr htarget
        obtain ⟨hdesired, hdiffers⟩ := (hup rule).mp hr
        rw [(hwritten rule hr).mp htarget] at hdesired hdiffers
        rw [hactive, hshown] at hdiffers
        rw [hwant] at hdesired
        exact hdiffers hdesired
      · have hplanned : ((p.aclName, key), ports) ∈ (plannedAt cfg desired d).1.aclRulesToUpsert := by
          apply (hup _).mpr
          rw [hactive]
          exact ⟨hwant, hshown⟩
        have htargeted : ∃ rule ∈ (plannedAt cfg desired d).1.aclRulesToUpsert,
            Targets rule.1 p key := ⟨_, hplanned, (hwritten _ hplanned).mpr rfl⟩
        obtain ⟨rule, hr, htarget, hlast⟩ := writes_targeted (cachedRules d) _ htargeted
        rw [hlast]
        have hdesired := ((hup rule).mp hr).1
        rw [(hwritten rule hr).mp htarget, hwant] at hdesired
        exact hdesired.symm
    · intro rule hr htarget
      have hnone := ((hrem rule).mp hr).2
      rw [(herased rule hr).mp htarget, hwant] at hnone
      exact absurd hnone (Option.some_ne_none ports)
  | none =>
    by_cases hshown : ((d.aclCache p).lookup key).isSome = true
    · apply erases_targeted
      have hplanned : (p.aclName, key) ∈ (plannedAt cfg desired d).1.aclRulesToRemove := by
        apply (hrem _).mpr
        rw [hactive]
        exact ⟨hshown, hwant⟩
      exact ⟨_, hplanned, (herased _ hplanned).mpr rfl⟩
    · rw [erases_none]
      rw [writes_other]
      · exact Option.not_isSome_iff_eq_none.mp hshown
      · intro rule hr htarget
        have hdesired := ((hup rule).mp hr).1
        rw [(hwritten rule hr).mp htarget, hwant] at hdesired
        exact absurd hdesired.symm (Option.some_ne_none rule.2)

end Settled

/-! Calls that may fail: the kernel and the cache stay together. -/

theorem mirrors_cached {p : Proto} {d : Daemon} {t : RuleTable} (h : Mirrors p d t) :
    Mirrors p d (cachedRules d) where
  cached _ := rfl
  stored key := by
    rw [h.stored, ← h.cached]
    rfl

theorem sound_kept {d d' : Daemon} (hopened : d'.opened = d.opened)
    (h : ∀ p, Kept d d' (.acl p)) (hd : AclSound d) : AclSound d' where
  opened := hopened ▸ hd.opened
  mirrored p := by
    apply mirrors_cached (t := cachedRules d)
    constructor
    · intro key
      rw [(h p).2]
      rfl
    · intro key
      rw [(h p).1]
      exact (hd.mirrored p).stored key
  oneText p key := by
    rw [(h p).2]
    exact hd.oneText p key

/-- What was sound before is sound after. -/
def Together (d d' : Daemon) : Prop := AclSound d → AclSound d'

instance togetherPreorder : IsPreorder Daemon Together where
  refl _ := id
  trans _ _ _ h h' := h' ∘ h

/-- The network that the call writes has one text. -/
def AclCall.Spelled : AclCall → Prop
  | set _ cidr _ => OneText cidr.normalize
  | delete _ _ => True

theorem call_together (c : AclCall) (hc : c.Spelled) : Steps Together c.run := by
  intro d hd
  have hmirrors (p : Proto) := mirrors_step (hd.mirrored p) c
  have hopened : (c.run d).2.opened = d.opened := step_opened (d, cachedRules d) c
  refine ⟨hopened ▸ hd.opened, ?_, ?_⟩
  · exact fun p => mirrors_cached (hmirrors p)
  · intro p key hkey
    have hrules := (hmirrors p).cached key
    rw [← AList.lookup_isSome] at hkey
    have hsome : ((c.step (d, cachedRules d)).2 p key).isSome = true := hrules ▸ hkey
    have hbefore : (cachedRules d p key).isSome = true → OneText key := by
      intro h
      apply hd.oneText p
      rw [← AList.lookup_isSome]
      exact h
    -- only a call that succeeded adds a key, and only its own
    by_cases hdone : (c.run d).1 = true
    · have happlied : (c.apply (cachedRules d) p key).isSome = true := by
        unfold AclCall.step at hsome
        rw [if_pos hdone] at hsome
        exact hsome
      cases c with
      | set proto cidr s =>
        by_cases ht : RuleTable.Targets (proto, cidr) p key
        · rw [ht.2]
          exact hc
        · have hsame := @write_other (cachedRules d) p key ((proto, cidr), s.ports) ht
          exact hbefore (hsame ▸ happlied)
      | delete proto cidr =>
        by_cases ht : RuleTable.Targets (proto, cidr) p key
        · have hnone := (cachedRules d).erase_targeted ht
          rw [AclCall.apply, hnone] at happlied
          exact absurd happlied Bool.false_ne_true
        · have hsame := (cachedRules d).erase_other ht
          exact hbefore (hsame ▸ happlied)
    · unfold AclCall.step at hsome
      rw [if_neg hdone] at hsome
      exact hbefore hsome

/-- The call writes no ACL map. -/
def Elsewhere (op : BpfOp) : Prop := ∀ p, op.target ≠ some (.acl p)

theorem together_moves {d d' : Daemon} (h : Moves Elsewhere d d') : Together d d' :=
  sound_kept (moves_opened h) fun p => moves_kept (.acl p) (fun _ hop => hop p) h

theorem ok_together (m : DaemonM Bool) (hm : Steps Together m) : Steps Together (ok m) := by
  apply steps_bind _ _ hm
  intro b
  have hcount : Steps Together
      (modify fun d => { d with lastApplyFailures := d.lastApplyFailures + 1 } : DaemonM PUnit) :=
    fun d => together_moves (moves_step (.counter d _))
  cases b with
  | true => exact steps_pure _
  | false => exact steps_bind _ _ hcount fun _ => steps_pure _

theorem applyAclDelta_together (plan : ReconcilePlan)
    (hasc : ∀ rule ∈ plan.aclRulesToUpsert, Ascending rule.2)
    (htext : ∀ rule ∈ plan.aclRulesToUpsert, OneText rule.1.2.normalize) :
    Steps Together (applyAclDelta plan false) := by
  apply steps_get_all
  intro d
  apply steps_ite
  · intro _
    apply steps_bind
    · apply steps_forM
      intro rule hrule
      exact steps_discard _
        (ok_together _ (call_together (.set rule.1.1 rule.1.2 ⟨rule.2, hasc rule hrule⟩)
          (htext rule hrule)))
    · intro _
      apply steps_forM
      intro rule _
      exact steps_discard _ (ok_together _ (call_together (.delete rule.1 rule.2) trivial))
  · exact fun _ => steps_pure _

/-- What is kept while the plan is made, by the preparation and by the exposure, a reconcile
keeps. -/
theorem reconcile_steps {R : Daemon → Daemon → Prop} [IsPreorder Daemon R] (cfg : Config)
    (desired : DesiredState) (d : Daemon) (hplanned : R d (plannedAt cfg desired d).2)
    (hreset : ∀ e : Daemon, R e { e with lastApplyFailures := 0 })
    (hprepared : Steps R (preparation cfg (plannedAt cfg desired d).1 desired))
    (hexposed : Steps R (expose (plannedAt cfg desired d).1 false)) :
    R d (reconcile cfg desired false d).2 := by
  rw [reconcile_run]
  generalize (plannedAt cfg desired d).1 = plan at hprepared hexposed ⊢
  generalize (plannedAt cfg desired d).2 = e at hplanned ⊢
  have hbefore := trans_of R (trans_of R hplanned (hreset _)) (hprepared _)
  rw [← prepare_preparation] at hbefore
  rw [applyReconcilePlan_run]
  split_ifs
  · exact trans_of R hbefore (hexposed _)
  · exact hbefore

/-- Whichever calls of the reconcile fail. -/
theorem reconcile_together (cfg : Config) (desired : DesiredState) (h : Listed desired)
    (d : Daemon) :
    Together d (reconcile cfg desired false d).2 := by
  intro hd
  have hcalls := moves_stepwise (K := Elsewhere) false
  have hne {op : BpfOp} {t : KernelMap} (htarget : op.target = some t) (ht : ∀ p, t ≠ .acl p) :
      Elsewhere op := by
    intro p hp
    exact ht p (Option.some.inj (htarget.symm.trans hp))
  have hread {op : BpfOp} (htarget : op.target = none) : Elsewhere op := by
    intro p hp
    exact absurd (htarget.symm.trans hp) (Option.some_ne_none _).symm
  have hport (m : PortMap) (p : Proto) : KernelMap.port m ≠ .acl p := by rintro ⟨⟩
  have hct (p' p : Proto) : KernelMap.ct p' ≠ .acl p := by rintro ⟨⟩
  have hpolicy (p' p : Proto) : KernelMap.policy p' ≠ .acl p := by rintro ⟨⟩
  have houter (m : OuterMap) (p : Proto) : KernelMap.outer m ≠ .acl p := by rintro ⟨⟩
  set plan := (plannedAt cfg desired d).1 with hplan
  -- what the plan writes is desired, so it has the ports and the text of a desired rule
  have hlisted (rule) (hrule : rule ∈ plan.aclRulesToUpsert) :=
    (((mem_plannedRules cfg desired d hd.opened).1 rule).mp hrule).1
  have hasc : ∀ rule ∈ plan.aclRulesToUpsert, Ascending rule.2 :=
    fun rule hrule => h.ascending _ _ (hlisted rule hrule)
  have htext : ∀ rule ∈ plan.aclRulesToUpsert, OneText rule.1.2.normalize := by
    intro rule hrule
    apply h.oneText
    rw [← AList.lookup_isSome, hlisted rule hrule]
    rfl
  have hplanned : Together d (plannedAt cfg desired d).2 := by
    apply together_moves
    exact moves_mono (fun _ hop p => hop.2 (.acl p)) (planned_stage cfg desired d)
  have hprepared : Steps Together (preparation cfg plan desired) := by
    apply steps_bind _ _ (steps_mono _ (closeTcp_steps hcalls plan moves_rounds
      (fun _ _ => hne rfl (hport _)) (fun _ => hne rfl (hct _)) fun _ _ _ => hne rfl (hct _))
      fun _ _ => together_moves)
    intro _
    apply steps_bind _ _ (steps_mono _ (closeUdp_steps hcalls plan (fun _ _ => hne rfl (hport _))
      fun _ => hne rfl (hct _)) fun _ _ => together_moves)
    intro _
    apply steps_bind _ _ (steps_mono _ (applySctpDelta_steps hcalls plan
      (fun _ _ => hne rfl (hport _)) fun _ _ => hne rfl (hport _)) fun _ _ => together_moves)
    intro _
    apply steps_bind _ _ (steps_mono _ (applyTrustedDelta_steps hcalls cfg plan
      (fun _ _ => hne rfl (by rintro p ⟨⟩)) fun _ _ => hne rfl (by rintro p ⟨⟩))
      fun _ _ => together_moves)
    intro _
    apply steps_bind _ _ (steps_mono _ (applyLimits_steps hcalls cfg desired plan
      (fun _ _ _ => hne rfl (hpolicy _)) (fun _ _ => hne rfl (hpolicy _))
      (fun _ _ _ _ => ⟨hread rfl, hne rfl (houter _)⟩) fun _ _ => hne rfl (houter _))
      fun _ _ => together_moves)
    intro _
    apply steps_bind _ _ (applyAclDelta_together plan hasc htext)
    intro _
    exact steps_mono _ (applyRest_steps hcalls cfg desired plan (hread rfl)
      (fun _ => hne rfl (by rintro p ⟨⟩)) (fun _ => hne rfl (by rintro p ⟨⟩))
      (fun _ => hne rfl (by rintro p ⟨⟩)) fun _ => hne rfl (by rintro p ⟨⟩))
      fun _ _ => together_moves
  have hexposed := steps_mono _ (expose_steps hcalls plan (fun _ _ => hne rfl (hport _))
    fun _ _ => hne rfl (hport _)) fun _ _ => together_moves
  exact reconcile_steps cfg desired d hplanned
    (fun e => together_moves (moves_step (.counter e 0))) hprepared hexposed hd

/-- A verification cuts the rules in the cache to the ports that the kernel holds. -/
theorem verify_together (inner : InnerEntries) (d : Daemon) :
    Together d (verifyKernelState noReadFaults inner d).2 := by
  intro hd
  have hloaded (p : Proto) : AclLoaded p (verifyKernelState noReadFaults inner d).2 :=
    aclLoaded_of_asRead inner p _ fun fam =>
      verifyKernelState_asRead noReadFaults inner d (.acl p fam) rfl hd.opened
  have hverified := (verifyMaps_spec noReadFaults inner d verifiedMaps 0).1
  have hmaps : (verifyKernelState noReadFaults inner d).2.maps = d.maps := hverified.maps
  refine ⟨hverified.opened ▸ hd.opened, ?_, ?_⟩
  · exact fun p => mirrors_loaded (hloaded p)
  · intro p key hkey
    apply hd.oneText p
    rw [← AList.lookup_isSome, hloaded p key, hmaps, (hd.mirrored p).stored,
      Option.isSome_map] at hkey
    rw [← AList.lookup_isSome]
    exact hkey

/-! What a verification counts. -/

section Returns

variable (inner : InnerEntries)

/-- When no call fails, no reader raises. -/
theorem verify_returns (m : VerifiedMap) (d : Daemon) :
    ∃ diff, (CacheVerifyMixin.verify noReadFaults inner m d).1 = some diff := by
  cases m with
  | sit4 =>
    have hquiet : iterRaises (fun i => noReadFaults (.sit4Next i)) d.maps.sit4Endpoints.keys =
        false := List.any_eq_false.mpr fun i _ => Bool.false_ne_true
    have hread : BpfSit4EndpointsMap.readKernel noReadFaults d = some d.maps.sit4Endpoints.keys := by
      unfold BpfSit4EndpointsMap.readKernel
      rw [if_neg (hquiet ▸ Bool.false_ne_true)]
    refine ⟨setDrift d.maps.sit4Endpoints.keys d.sit4Cache, ?_⟩
    unfold CacheVerifyMixin.verify
    simp only [hread]
  | outer m =>
    obtain ⟨-, port, -, -, hraises⟩ | ⟨read, hread, -⟩ := outer_read noReadFaults inner d m
    · exact absurd hraises Bool.false_ne_true
    · refine ⟨dictDrift read (d.outerCache m), ?_⟩
      unfold CacheVerifyMixin.verify
      simp only [hread]
  | _ => exact verify_swallows noReadFaults inner d _ rfl

theorem verifyMaps_returns (ms : List VerifiedMap) (total : ℕ) (d : Daemon) :
    ∃ n, (verifyMaps noReadFaults inner ms total d).1 = some n ∧ total ≤ n := by
  induction ms generalizing total d with
  | nil => exact ⟨total, rfl, le_rfl⟩
  | cons m ms ih =>
    by_cases hopen : m.isOpen d = true
    · obtain ⟨diff, hdiff⟩ := verify_returns inner m d
      obtain ⟨n, hn, hle⟩ := ih (total + diff) (CacheVerifyMixin.verify noReadFaults inner m d).2
      refine ⟨n, ?_, by omega⟩
      rw [verifyMaps_open inner noReadFaults hopen (Prod.ext hdiff rfl)]
      exact hn
    · rw [verifyMaps_closed inner noReadFaults hopen]
      exact ih total d

/-- A map that differs from its cache, whatever is done to the other caches before, is
counted. -/
theorem verifyMaps_detects (ms : List VerifiedMap) (hnodup : ms.Nodup) (total : ℕ) (d : Daemon)
    (m : VerifiedMap) (hm : m ∈ ms) (hopen : m.isOpen d = true)
    (hdrift : ∀ e : Daemon, e.maps = d.maps → CacheSame d e m →
      (CacheVerifyMixin.verify noReadFaults inner m e).1 ≠ some 0) :
    ∃ n, (verifyMaps noReadFaults inner ms total d).1 = some n ∧ total < n := by
  induction ms generalizing total d with
  | nil => exact absurd hm List.not_mem_nil
  | cons x xs ih =>
    obtain ⟨hx, hxs⟩ := List.nodup_cons.mp hnodup
    obtain rfl | hm := List.mem_cons.mp hm
    · obtain ⟨diff, hdiff⟩ := verify_returns inner m d
      have hpos : diff ≠ 0 := by
        rintro rfl
        exact hdrift d rfl (cacheSame_refl d m) hdiff
      obtain ⟨n, hn, hle⟩ := verifyMaps_returns inner xs (total + diff)
        (CacheVerifyMixin.verify noReadFaults inner m d).2
      refine ⟨n, ?_, by omega⟩
      rw [verifyMaps_open inner noReadFaults hopen (Prod.ext hdiff rfl)]
      exact hn
    · by_cases hxopen : x.isOpen d = true
      · obtain ⟨diff, hdiff⟩ := verify_returns inner x d
        obtain ⟨hmaps, hopened, -, -, hsame⟩ := verify_frame noReadFaults inner d x
        have hne : m ≠ x := fun heq => hx (heq ▸ hm)
        obtain ⟨n, hn, hlt⟩ := ih hxs (total + diff)
          (CacheVerifyMixin.verify noReadFaults inner x d).2 hm
          (by
            unfold VerifiedMap.isOpen at hopen ⊢
            rw [hopened]
            exact hopen)
          fun e he hkept => hdrift e (he.trans hmaps) (cacheSame_trans (hsame m hne) hkept)
        refine ⟨n, ?_, by omega⟩
        rw [verifyMaps_open inner noReadFaults hxopen (Prod.ext hdiff rfl)]
        exact hn
      · rw [verifyMaps_closed inner noReadFaults hxopen]
        exact ih hxs total d hm hopen hdrift

end Returns

theorem oversizedIn_eq_zero (fam : IpFamily) (t : BpfMap LpmKey (List U16)) :
    oversizedIn fam t = 0 ↔
      ∀ key ports, key.addr.family = fam → t.lookup key = some ports →
        ports.length ≤ aclMaxPorts := by
  simp only [oversizedIn, List.countP_eq_zero, decide_eq_true_eq, not_lt]
  constructor
  · intro h key ports hfam hlookup
    refine h ⟨key, ports⟩ ?_
    have hfiltered := dictFilter_lookup (fun key => decide (key.addr.family = fam)) t key
    rw [if_pos (decide_eq_true hfam), hlookup] at hfiltered
    exact AList.mem_lookup_iff.mp hfiltered
  · intro h e he
    have hlookup := dictFilter_lookup (fun key => decide (key.addr.family = fam)) t e.1
    rw [AList.mem_lookup_iff.mpr he] at hlookup
    by_cases hfam : e.1.addr.family = fam
    · rw [if_pos (decide_eq_true hfam)] at hlookup
      exact h e.1 e.2 hfam hlookup.symm
    · rw [if_neg (by simpa only [decide_eq_true_eq] using hfam)] at hlookup
      exact absurd hlookup (Option.some_ne_none e.2)

theorem oversized_eq_zero (t : BpfMap LpmKey (List U16)) :
    oversized t = 0 ↔ ∀ key ports, t.lookup key = some ports → ports.length ≤ aclMaxPorts := by
  rw [← oversizedIn_add, Nat.add_eq_zero_iff, oversizedIn_eq_zero, oversizedIn_eq_zero]
  constructor
  · intro h key ports hlookup
    cases hfam : key.addr.family with
    | ipv4 => exact h.1 key ports hfam hlookup
    | ipv6 => exact h.2 key ports hfam hlookup
  · exact fun h => ⟨fun key ports _ => h key ports, fun key ports _ => h key ports⟩

/-! Runs. -/

/-- A desired state, with its rules as the sets of ports that they are and each network
under its one text. -/
def Resolved : Type := { desired : DesiredState // Listed desired }

/-- What the daemon does to the ACL maps. -/
inductive AclEvent where
  | reconcile (cfg : Config) (desired : Resolved)
  | verify

namespace AclEvent

def step (inner : InnerEntries) (d : Daemon) : AclEvent → Daemon
  | reconcile cfg desired => (XdpBackend.reconcile cfg desired.1 false d).2
  | verify => (verifyKernelState noReadFaults inner d).2

end AclEvent

/-- Whether calls fail or not. -/
theorem aclEvent_together (inner : InnerEntries) (d : Daemon) (event : AclEvent) :
    Together d (event.step inner d) := by
  cases event with
  | reconcile cfg desired => exact reconcile_together cfg desired.1 desired.2 d
  | verify => exact verify_together inner d

theorem aclEvents_sound (inner : InnerEntries) {d : Daemon} (h : AclSound d)
    (events : List AclEvent) : AclSound (events.foldl (AclEvent.step inner) d) := by
  induction events generalizing d with
  | nil => exact h
  | cons event events ih =>
    have hnext := aclEvent_together inner d event h
    rw [List.foldl_cons]
    exact ih hnext

/-- After any reconciles and verifications, whichever calls fail, once a reconcile counts
no failure, the datapath matches the first ports of each rule and of no other; the
verification finds something to repair if and only if a rule has more ports, and so it
finds it again after every such reconcile. -/
theorem acl_rounds (inner : InnerEntries) {d : Daemon} (h : AclSound d)
    (events : List AclEvent) (cfg : Config) (desired : DesiredState) (hwf : TidyRules desired)
    (hzero : (reconcile cfg desired false
      (events.foldl (AclEvent.step inner) d)).2.lastApplyFailures = 0) :
    let e := (reconcile cfg desired false (events.foldl (AclEvent.step inner) d)).2
    (∀ p key port, (((e.maps.acl p).lookup key).any fun val => aclPortMatch val port) =
      (desiredRules desired p key).any fun ports =>
        decide (port.setWidth 16 ∈ ports.take aclMaxPorts)) ∧
    ((BpfAclMaps.verify inner e).1 ≠ some 0 ↔
      ∃ k ports, desired.aclRules.lookup k = some ports ∧ aclMaxPorts < ports.length) ∧
    ((∃ k ports, desired.aclRules.lookup k = some ports ∧ aclMaxPorts < ports.length) →
      ∃ drift, (verifyKernelState noReadFaults inner e).1 = some drift ∧ 0 < drift) := by
  intro e
  have hs := aclEvents_sound inner h events
  set start := events.foldl (AclEvent.step inner) d
  have hopened : e.opened .acl = true :=
    (reconcile_together cfg desired hwf.toListed start hs).opened
  have hmirrors (p : Proto) : Mirrors p e (desiredRules desired) := by
    rw [← settled_table cfg desired hs hwf]
    exact reconcile_rules cfg desired start p hs.opened hwf.ascending hzero _
      (hs.mirrored p)
  -- a long rule is in the cache of its map, with all its ports
  have hcached {k : String × LpmKey} {ports : List U16}
      (hk : desired.aclRules.lookup k = some ports) :
      (e.aclCache (BpfAclMaps.mapFor k.1)).lookup k.2 = some ports := by
    have htidy : Tidy k := by
      apply hwf.tidy
      rw [← AList.lookup_isSome, hk]
      rfl
    rw [(hmirrors _).cached, desiredRules, ← htidy.1]
    exact hk
  refine ⟨fun p => mirrors_match (hmirrors p), ?_, ?_⟩
  · rw [BpfAclMaps.verify_counts inner e hopened fun p => clipped_of_mirrors (hmirrors p), ne_eq,
      Option.some_inj, Nat.add_eq_zero_iff, oversized_eq_zero, oversized_eq_zero]
    constructor
    · intro hlong
      by_contra hshort
      push Not at hshort
      apply hlong
      constructor
      · intro key ports hlookup
        rw [(hmirrors .tcp).cached] at hlookup
        exact hshort ("tcp", key) ports hlookup
      · intro key ports hlookup
        rw [(hmirrors .udp).cached] at hlookup
        exact hshort ("udp", key) ports hlookup
    · rintro ⟨k, ports, hk, hlong⟩ ⟨htcp, hudp⟩
      have hmap := hcached hk
      cases hp : BpfAclMaps.mapFor k.1 with
      | tcp =>
        rw [hp] at hmap
        exact absurd (htcp k.2 ports hmap) (not_le.mpr hlong)
      | udp =>
        rw [hp] at hmap
        exact absurd (hudp k.2 ports hmap) (not_le.mpr hlong)
  · rintro ⟨k, ports, hk, hlong⟩
    set p := BpfAclMaps.mapFor k.1
    have hmem : VerifiedMap.acl p k.2.addr.family ∈ verifiedMaps := by
      cases p <;> cases k.2.addr.family <;> decide
    apply verifyMaps_detects inner verifiedMaps (by decide) 0 e _ hmem hopened
    intro e' hmaps hsame
    have hclipped : Clipped p k.2.addr.family e' := by
      intro key hfam
      rw [hmaps, hsame key hfam]
      exact clipped_of_mirrors (hmirrors p) _ key hfam
    rw [clipped_drift inner e' p _ hclipped, ne_eq, Option.some_inj, oversizedIn_eq_zero]
    intro hshort
    exact absurd (hshort k.2 ports rfl ((hsame k.2 rfl).trans (hcached hk))) (not_le.mpr hlong)

/-- One rule, for a hundred ports. -/
def longRules : DesiredState :=
  { aclRules := [⟨("tcp", ⟨24, .v4 0xC6336400⟩), hundredPorts.ports⟩].toAList }

theorem longRules_tidy : TidyRules longRules := by
  have hmem {k : String × LpmKey} (hk : k ∈ longRules.aclRules) :
      k = ("tcp", ⟨24, .v4 0xC6336400⟩) := List.mem_singleton.mp hk
  refine ⟨⟨?_, ?_⟩, ?_⟩
  · intro k ports hk
    have hsome : (longRules.aclRules.lookup k).isSome = true := by
      rw [hk]
      rfl
    rw [hmem (AList.lookup_isSome.mp hsome)] at hk
    have hports : some hundredPorts.ports = some ports := hk
    exact Option.some.inj hports ▸ hundredPorts.ascending
  · intro k hk
    rw [hmem hk]
    exact ⟨rfl, rfl⟩
  · intro k hk
    rw [hmem hk]
    exact ⟨rfl, rfl⟩

theorem emptyDaemon_sound : AclSound {} where
  opened := rfl
  mirrored p := by
    apply mirrors_loaded
    cases p <;> exact fun _ => rfl
  oneText p := by
    cases p <;> exact fun _ hkey => absurd hkey List.not_mem_nil

theorem acl_rounds_long :
    (BpfAclMaps.verify (fun _ _ => 0) (reconcile {} longRules false {}).2).1 ≠ some 0 := by
  have hrounds := acl_rounds (fun _ _ => 0) emptyDaemon_sound [] {} longRules longRules_tidy rfl
  exact hrounds.2.1.mpr ⟨("tcp", ⟨24, .v4 0xC6336400⟩), hundredPorts.ports, rfl, by decide⟩

/-! A rule under a name that is neither of the two. -/

/-- The only desired rule of the UDP map for its network, under another name. -/
structure Stray (desired : DesiredState) (proto : String) (key : LpmKey) (ports : List U16) :
    Prop where
  unnamed : proto ≠ "tcp" ∧ proto ≠ "udp"
  tidy : key.normalize = key
  listed : desired.aclRules.lookup (proto, key) = some ports
  alone : ∀ rule ∈ desired.aclRules, Targets rule .udp key → rule = (proto, key)

/-- A reconcile writes the rule, and removes it again when the cache lists it. -/
theorem stray_table (cfg : Config) {desired : DesiredState} {d : Daemon} (hd : AclSound d)
    {proto : String} {key : LpmKey} {ports : List U16} (h : Stray desired proto key ports) :
    plannedTable (plannedAt cfg desired d).1 (cachedRules d) .udp key =
      if (cachedRules d .udp key).isSome = true then none else some ports := by
  obtain ⟨hup, hrem⟩ := mem_plannedRules cfg desired d hd.opened
  have hmap : BpfAclMaps.mapFor proto = .udp := if_neg h.unnamed.1
  have hhidden : (BpfAclMaps.activeEntries d).lookup (proto, key) = none := by
    rw [activeEntries_lookup, hmap]
    exact if_neg h.unnamed.2
  have hplanned : ((proto, key), ports) ∈ (plannedAt cfg desired d).1.aclRulesToUpsert := by
    apply (hup _).mpr
    rw [hhidden]
    exact ⟨h.listed, (Option.some_ne_none ports).symm⟩
  have htargeted : ∃ rule ∈ (plannedAt cfg desired d).1.aclRulesToUpsert,
      Targets rule.1 .udp key := ⟨_, hplanned, hmap.symm, h.tidy.symm⟩
  obtain ⟨last, hlast, hlastTarget, hwritten⟩ :=
    writes_targeted (cachedRules d) _ htargeted
  have hports : last.2 = ports := by
    have hdesired := ((hup last).mp hlast).1
    have hmem : last.1 ∈ desired.aclRules := by
      rw [← AList.lookup_isSome, hdesired]
      rfl
    rw [h.alone last.1 hmem hlastTarget, h.listed] at hdesired
    exact (Option.some.inj hdesired).symm
  -- under the name of its map the rule is not desired
  have hforeign : desired.aclRules.lookup ("udp", key) = none := by
    rw [AList.lookup_eq_none]
    intro hmem
    exact h.unnamed.2 (Prod.mk.inj (h.alone ("udp", key) hmem ⟨rfl, h.tidy.symm⟩)).1.symm
  have hactive := active_named d .udp key
  unfold plannedTable
  by_cases hshown : (cachedRules d .udp key).isSome = true
  · rw [if_pos hshown]
    apply erases_targeted
    refine ⟨("udp", key), (hrem _).mpr ⟨?_, hforeign⟩, rfl, h.tidy.symm⟩
    exact (congrArg Option.isSome hactive).trans hshown
  · rw [if_neg hshown, erases_other, hwritten, hports]
    intro rule hrule htarget
    have hname := (removed_targets cfg desired hd .udp key hrule).mp htarget
    have hlisted := ((hrem rule).mp hrule).1
    rw [hname, hactive] at hlisted
    exact hshown hlisted

section Flaps

variable (inner : InnerEntries) (desired : DesiredState)

/-- Every reconcile is one of the desired state that counts no failure. -/
def AppliesOnly (d : Daemon) : AclEvent → Prop
  | .reconcile cfg resolved => resolved.1 = desired ∧
      (reconcile cfg resolved.1 false d).2.lastApplyFailures = 0
  | .verify => True

def AclEvent.isReconcile : AclEvent → Bool
  | .reconcile _ _ => true
  | .verify => false

/-- Whether the kernel holds the rule, after so many reconciles. -/
def Flapped (key : LpmKey) (ports : List U16) (n : ℕ) (d : Daemon) : Prop :=
  (cachedRules d .udp key).map (fun ports => ports.take aclMaxPorts) =
    if n % 2 = 1 then some (ports.take aclMaxPorts) else none

variable {inner desired} {proto : String} {key : LpmKey} {ports : List U16}
  (h : Stray desired proto key ports)

include h

theorem flapped_step {d : Daemon} (hd : AclSound d) {event : AclEvent}
    (hevent : AppliesOnly desired d event) {n : ℕ} (hn : Flapped key ports n d) :
    Flapped key ports (n + [event].countP AclEvent.isReconcile) (event.step inner d) := by
  cases event with
  | reconcile cfg resolved =>
    obtain ⟨rfl, hzero⟩ := hevent
    have hmirrors := reconcile_rules cfg resolved.1 d .udp hd.opened resolved.2.ascending hzero _
      (hd.mirrored .udp)
    have hcached : cachedRules ((AclEvent.reconcile cfg resolved).step inner d) .udp key =
        if (cachedRules d .udp key).isSome = true then none else some ports := by
      rw [← stray_table cfg hd h]
      exact hmirrors.cached key
    -- the rule is shown after an odd number of reconciles, and then the next one removes it
    have hshown : (cachedRules d .udp key).isSome = true ↔ n % 2 = 1 := by
      rw [← Option.isSome_map, hn]
      by_cases hodd : n % 2 = 1
      · rw [if_pos hodd]
        exact iff_of_true rfl hodd
      · rw [if_neg hodd]
        exact iff_of_false Bool.false_ne_true hodd
    unfold Flapped
    rw [hcached]
    show _ = if (n + 1) % 2 = 1 then _ else _
    by_cases hodd : n % 2 = 1
    · rw [if_pos (hshown.mpr hodd), if_neg (by omega)]
      rfl
    · rw [if_neg (hshown.not.mpr hodd), if_pos (by omega)]
      rfl
  | verify =>
    -- the cache is read back with the first ports only
    have hloaded := aclLoaded_of_asRead inner .udp _ fun fam =>
      verifyKernelState_asRead noReadFaults inner d (.acl .udp fam) rfl hd.opened
    have hmaps := (verifyMaps_spec noReadFaults inner d verifiedMaps 0).1.maps
    have hcached : cachedRules ((AclEvent.verify).step inner d) .udp key =
        (cachedRules d .udp key).map fun ports => ports.take aclMaxPorts := by
      rw [← (hd.mirrored .udp).stored key, ← hmaps]
      exact hloaded key
    unfold Flapped
    rw [hcached, show _ = _ from hn]
    show _ = if n % 2 = 1 then _ else _
    by_cases hodd : n % 2 = 1
    · rw [if_pos hodd, Option.map_some, List.take_take, Nat.min_self]
    · rw [if_neg hodd]
      rfl

theorem flapped_run (events : List AclEvent) {d : Daemon} (hd : AclSound d) {n : ℕ}
    (hn : Flapped key ports n d)
    (hg : Guarded (AclEvent.step inner) (AppliesOnly desired) d events) :
    Flapped key ports (n + events.countP AclEvent.isReconcile)
      (events.foldl (AclEvent.step inner) d) := by
  induction events generalizing d n with
  | nil => exact hn
  | cons event events ih =>
    have hstep : Flapped key ports (n + [event].countP AclEvent.isReconcile)
        (event.step inner d) := flapped_step h hd hg.1 hn
    have hrest := ih (aclEvent_together inner d event hd) hstep hg.2
    rw [List.foldl_cons, ← List.singleton_append, List.countP_append, ← Nat.add_assoc]
    exact hrest

/-- A rule under a name that is neither `tcp` nor `udp` is in force after every other
reconcile only, although each of them counts no failure. -/
theorem stray_flaps {d : Daemon} (hd : AclSound d) (habsent : key ∉ d.aclCache .udp)
    (events : List AclEvent)
    (hg : Guarded (AclEvent.step inner) (AppliesOnly desired) d events) (port : U32) :
    (((events.foldl (AclEvent.step inner) d).maps.acl .udp).lookup key).any
        (fun val => aclPortMatch val port) =
      (decide (events.countP AclEvent.isReconcile % 2 = 1) &&
        decide (port.setWidth 16 ∈ ports.take aclMaxPorts)) := by
  have hstart : Flapped key ports 0 d := by
    unfold Flapped cachedRules
    rw [AList.lookup_eq_none.mpr habsent]
    rfl
  have hlast := flapped_run h events hd hstart hg
  set final := events.foldl (AclEvent.step inner) d
  rw [mirrors_match ((aclEvents_sound inner hd events).mirrored .udp)]
  have hclipped : (cachedRules final .udp key).any
        (fun ports => decide (port.setWidth 16 ∈ ports.take aclMaxPorts)) =
      ((cachedRules final .udp key).map fun ports => ports.take aclMaxPorts).any
        fun ports => decide (port.setWidth 16 ∈ ports) := by
    rw [Option.any_map]
  rw [hclipped, show _ = _ from hlast, Nat.zero_add]
  by_cases hodd : events.countP AclEvent.isReconcile % 2 = 1
  · rw [if_pos hodd, decide_eq_true hodd, Bool.true_and]
    rfl
  · rw [if_neg hodd, decide_eq_false hodd, Bool.false_and]
    rfl

end Flaps

/-- A rule for ICMP, which lands in the UDP map. -/
def straySet : Resolved where
  val := { aclRules := [⟨("icmp", ⟨24, .v4 0xC6336400⟩), [80]⟩].toAList }
  property := by
    have hmem {k : String × LpmKey} (hk : k ∈ ([⟨("icmp", ⟨24, .v4 0xC6336400⟩), [80]⟩] :
        List (Σ _ : String × LpmKey, List U16)).toAList) : k = ("icmp", ⟨24, .v4 0xC6336400⟩) :=
      List.mem_singleton.mp hk
    constructor
    · intro k ports hk
      have hsome : (AList.lookup k ([⟨("icmp", ⟨24, .v4 0xC6336400⟩), [80]⟩] :
          List (Σ _ : String × LpmKey, List U16)).toAList).isSome = true := by
        rw [hk]
        rfl
      rw [hmem (AList.lookup_isSome.mp hsome)] at hk
      have hports : some [80] = some ports := hk
      rw [← Option.some.inj hports]
      exact List.pairwise_singleton _ _
    · intro k hk
      rw [hmem hk]
      exact ⟨rfl, rfl⟩

theorem stray_flaps_icmp :
    (((([.reconcile {} straySet, .reconcile {} straySet] : List AclEvent).foldl
        (AclEvent.step fun _ _ => 0) {}).maps.acl .udp).lookup ⟨24, .v4 0xC6336400⟩).any
      (fun val => aclPortMatch val 80) = false := by
  have hstray : Stray straySet.1 "icmp" ⟨24, .v4 0xC6336400⟩ [80] :=
    ⟨by decide, rfl, rfl, fun rule hrule _ => List.mem_singleton.mp hrule⟩
  have hguard : Guarded (AclEvent.step fun _ _ => 0) (AppliesOnly straySet.1) {}
      [.reconcile {} straySet, .reconcile {} straySet] := ⟨⟨rfl, rfl⟩, ⟨rfl, rfl⟩, trivial⟩
  have hflaps := stray_flaps hstray emptyDaemon_sound List.not_mem_nil _ hguard 80
  exact hflaps

end AutoXdp
