import AutoXdp.AclRounds
import AutoXdp.PolicyResolve
import AutoXdp.RateBuckets
import Mathlib.Tactic.FinCases

/-! Where the source prefixes of a port lie: the tuple that the daemon writes against the
two structs that the datapath reads. -/
namespace AutoXdp
open StateSteps XdpBackend WordBytes

/-- A tuple with these prefixes, and with no limit that the map has no view of. -/
structure Laid (prefixV4 prefixV6 : U32) (p : Proto) (fields : PolicyFields) : Prop where
  v4 : fields 3 = prefixV4
  v6 : fields 4 = prefixV6
  unused : ∀ i, i ≠ 3 → i ≠ 4 → i ∉ limitWords p → fields i = 0

/-- The tuple in the cache is so laid out, none that is erased, and what the kernel holds. -/
structure PortEntry.Laid (prefixV4 prefixV6 : U32) (p : Proto) (e : PortEntry) : Prop where
  synced : e.Synced p
  laid : ∀ fields, e.cached = some fields →
    AutoXdp.Laid prefixV4 prefixV6 p fields ∧
      BpfPortPolicyViewMap.firstThreeZero fields = false

def PolicyLaid (prefixV4 prefixV6 : U32) (p : Proto) (d : Daemon) : Prop :=
  ∀ q, (portEntry p q d).Laid prefixV4 prefixV6 p

/-- What was laid out so before is so after. -/
def KeepsLaid (prefixV4 prefixV6 : U32) (p : Proto) (d d' : Daemon) : Prop :=
  PolicyLaid prefixV4 prefixV6 p d → PolicyLaid prefixV4 prefixV6 p d'

instance keepsLaidPreorder (prefixV4 prefixV6 : U32) (p : Proto) :
    IsPreorder Daemon (KeepsLaid prefixV4 prefixV6 p) where
  refl _ := id
  trans _ _ _ h h' := h' ∘ h

section Words

variable {prefixV4 prefixV6 : U32} {p : Proto}

/-! The tuples. -/

theorem laid_default {cfg : Config} (h4 : cfg.rateLimitSourcePrefixV4 = prefixV4)
    (h6 : cfg.rateLimitSourcePrefixV6 = prefixV6) :
    Laid prefixV4 prefixV6 p (BpfPortPolicyViewMap.defaultFields cfg) where
  v4 := h4
  v6 := h6
  unused i hi3 hi4 _ := by
    fin_cases i
    all_goals first | rfl | exact absurd rfl hi3 | exact absurd rfl hi4

theorem laid_update {fields : PolicyFields} (h : Laid prefixV4 prefixV6 p fields) {j : Fin 8}
    (hj : j ∈ limitWords p) (limit : U32) :
    Laid prefixV4 prefixV6 p (Function.update fields j limit) := by
  obtain ⟨h3, h4⟩ := limitWords_prefix hj
  refine ⟨?_, ?_, ?_⟩
  · rw [Function.update_of_ne (Ne.symm h3)]
    exact h.v4
  · rw [Function.update_of_ne (Ne.symm h4)]
    exact h.v6
  · intro i hi3 hi4 hi
    have hne : i ≠ j := by
      rintro rfl
      exact hi hj
    rw [Function.update_of_ne hne]
    exact h.unused i hi3 hi4 hi

theorem laid_withPrefixes {fields : PolicyFields} (h : Laid prefixV4 prefixV6 p fields) :
    Laid prefixV4 prefixV6 p (BpfPortPolicyMap.withPrefixes prefixV4 prefixV6 fields) where
  v4 := rfl
  v6 := rfl
  unused i hi3 hi4 hi := by
    rw [BpfPortPolicyMap.withPrefixes, Function.update_of_ne hi4, Function.update_of_ne hi3]
    exact h.unused i hi3 hi4 hi

/-! The entry of a port. -/

theorem entryLaid_written {fields : PolicyFields} (h : Laid prefixV4 prefixV6 p fields)
    (hfull : BpfPortPolicyViewMap.firstThreeZero fields = false) :
    (PortEntry.written p fields).Laid prefixV4 prefixV6 p where
  synced := rfl
  laid fields' hfields := by
    obtain rfl := Option.some.inj hfields
    exact ⟨h, hfull⟩

theorem entryLaid_erased : PortEntry.erased.Laid prefixV4 prefixV6 p where
  synced := rfl
  laid _ hfields := absurd hfields (Option.some_ne_none _).symm

/-- What the kernel holds is a tuple of the cache. -/
theorem PortEntry.Laid.stored {e : PortEntry} (h : e.Laid prefixV4 prefixV6 p) {val : List U8}
    (hval : e.stored = some val) : ∃ fields, AutoXdp.Laid prefixV4 prefixV6 p fields ∧
      val = (packFields fields).take (policyValueSize p) := by
  have hsynced : e.stored = _ := h.synced
  rw [hval, eq_comm, Option.map_eq_some_iff] at hsynced
  obtain ⟨fields, hcached, hpacked⟩ := hsynced
  exact ⟨fields, (h.laid fields hcached).1, hpacked.symm⟩

theorem policyLaid_change {port : U32} {e : PortEntry} {d d' : Daemon}
    (h : PortChange p port (fun _ => e) d d') (he : e.Laid prefixV4 prefixV6 p) :
    KeepsLaid prefixV4 prefixV6 p d d' := by
  intro hd q
  rw [h q]
  split_ifs
  · exact he
  · exact hd q

/-! The calls, whether they fail or not. -/

theorem writeFields_laid (port : U32) {fields : PolicyFields}
    (h : Laid prefixV4 prefixV6 p fields)
    (hfull : BpfPortPolicyViewMap.firstThreeZero fields = false) :
    Steps (KeepsLaid prefixV4 prefixV6 p) (BpfPortPolicyMap.setFields p .ok port fields false) := by
  intro d
  unfold BpfPortPolicyMap.setFields
  obtain ⟨hdry, -⟩ | ⟨-, hrun⟩ | ⟨-, hrun⟩ := cachedCall_cases false .ok
    (.updatePolicy p port (packFields fields))
    (fun d => d.setPolicyCache p ((d.policyCache p).insert port fields)) d
  · exact absurd hdry Bool.false_ne_true
  · rw [hrun]
    exact policyLaid_change (policyInsert_entry p .ok port fields d) (entryLaid_written h hfull)
  · rw [hrun]
    exact id

theorem erasePolicy_laid (port : U32) :
    Steps (KeepsLaid prefixV4 prefixV6 p) (BpfPortPolicyMap.delete p port false) := by
  intro d
  unfold BpfPortPolicyMap.delete
  obtain ⟨hdry, -⟩ | ⟨-, hrun⟩ | ⟨-, hrun⟩ := cachedCall_cases false .ok (.deletePolicy p port)
    (fun d => d.setPolicyCache p ((d.policyCache p).erase port)) d
  · exact absurd hdry Bool.false_ne_true
  · rw [hrun]
    exact policyLaid_change (policyErase_entry p .ok port d) entryLaid_erased
  · rw [hrun]
    exact id

theorem viewStore_laid (i : Fin 8) (port : U32) {fields : PolicyFields}
    (h : Laid prefixV4 prefixV6 p fields) :
    Steps (KeepsLaid prefixV4 prefixV6 p)
      (BpfPortPolicyViewMap.store ⟨p, i⟩ port fields false) := by
  unfold BpfPortPolicyViewMap.store
  split_ifs with hblank
  · exact erasePolicy_laid port
  · exact writeFields_laid port h (Bool.not_eq_true _ ▸ hblank)

theorem viewSet_laid {cfg : Config} (h4 : cfg.rateLimitSourcePrefixV4 = prefixV4)
    (h6 : cfg.rateLimitSourcePrefixV6 = prefixV6) {i : Fin 8} (hi : i ∈ limitWords p)
    (port rateMax : U32) :
    Steps (KeepsLaid prefixV4 prefixV6 p)
      (BpfPortPolicyViewMap.set cfg ⟨p, i⟩ port rateMax false) := by
  intro d hd
  have hcurrent : Laid prefixV4 prefixV6 p
      (((d.policyCache p).lookup port).getD (BpfPortPolicyViewMap.defaultFields cfg)) := by
    cases hl : (d.policyCache p).lookup port with
    | none => exact laid_default h4 h6
    | some current => exact ((hd port).laid current hl).1
  exact viewStore_laid i port (laid_update hcurrent hi rateMax) d hd

theorem viewDelete_laid {i : Fin 8} (hi : i ∈ limitWords p) (port : U32) :
    Steps (KeepsLaid prefixV4 prefixV6 p) (BpfPortPolicyViewMap.delete ⟨p, i⟩ port false) := by
  intro d hd
  cases hl : (d.policyCache p).lookup port with
  | none =>
    have hrun : BpfPortPolicyViewMap.delete ⟨p, i⟩ port false d =
        BpfPortPolicyMap.delete p port false d := by
      simp only [BpfPortPolicyViewMap.delete, run_get_bind, hl]
    rw [hrun]
    exact erasePolicy_laid port d hd
  | some current =>
    have hrun : BpfPortPolicyViewMap.delete ⟨p, i⟩ port false d =
        BpfPortPolicyViewMap.store ⟨p, i⟩ port (Function.update current i 0) false d := by
      simp only [BpfPortPolicyViewMap.delete, run_get_bind, hl]
    rw [hrun]
    exact viewStore_laid i port (laid_update ((hd port).laid current hl).1 hi 0) d hd

theorem ensurePrefixes_laid {ports : List U32} {d d' : Daemon}
    (h : Reprefixed p ports prefixV4 prefixV6 d d') : KeepsLaid prefixV4 prefixV6 p d d' := by
  intro hd q
  obtain hsame | ⟨-, current, hcurrent, hwritten⟩ := h q
  · rw [hsame]
    exact hd q
  · rw [hwritten]
    obtain ⟨hlaid, hfull⟩ := (hd q).laid current hcurrent
    exact entryLaid_written (laid_withPrefixes hlaid) hfull

end Words

/-! The parts of a reconcile. -/

/-- The call does not write the policies of this protocol. -/
def NoPolicy (p : Proto) (op : BpfOp) : Prop := op.target ≠ some (.policy p)

section Parts

variable {prefixV4 prefixV6 : U32} {p : Proto}

theorem noPolicy_laid {d d' : Daemon} (h : Moves (NoPolicy p) d d') :
    KeepsLaid prefixV4 prefixV6 p d d' := by
  intro hd q
  obtain ⟨hmap, hcache⟩ := moves_kept (.policy p) (fun _ hop => hop) h
  have hsame : portEntry p q d' = portEntry p q d := by
    simp only [portEntry, hmap, hcache]
  rw [hsame]
  exact hd q

theorem ok_laid (m : DaemonM Bool) (hm : Steps (KeepsLaid prefixV4 prefixV6 p) m) :
    Steps (KeepsLaid prefixV4 prefixV6 p) (ok m) := by
  apply steps_bind _ _ hm
  intro b
  have hcount : Steps (KeepsLaid prefixV4 prefixV6 p)
      (modify fun d => { d with lastApplyFailures := d.lastApplyFailures + 1 } : DaemonM PUnit) :=
    fun _ => id
  cases b with
  | true => exact steps_pure _
  | false => exact steps_bind _ _ hcount fun _ => steps_pure _

variable {cfg : Config} (h4 : cfg.rateLimitSourcePrefixV4 = prefixV4)
  (h6 : cfg.rateLimitSourcePrefixV6 = prefixV6)

include h4 h6

theorem applyRateMapDelta_laid (view : PolicyView) (hview : view.index ∈ limitWords view.proto)
    (upserts : List (U32 × U32)) (removals : List U32) :
    Steps (KeepsLaid prefixV4 prefixV6 p) (applyRateMapDelta cfg view upserts removals false) := by
  obtain ⟨proto, i⟩ := view
  by_cases hp : proto = p
  · subst hp
    apply steps_get_all
    intro d
    apply steps_ite
    · intro _
      apply steps_bind
      · apply steps_forM
        intro e _
        exact steps_discard _ (ok_laid _ (viewSet_laid h4 h6 hview e.1 e.2))
      · intro _
        apply steps_forM
        intro port _
        exact steps_discard _ (ok_laid _ (viewDelete_laid hview port))
    · exact fun _ => steps_pure _
  · -- a write to the policies of the other protocol
    have hne {op : BpfOp} (htarget : op.target = some (.policy proto)) : NoPolicy p op := by
      intro hop
      exact hp (KernelMap.policy.inj (Option.some.inj (htarget.symm.trans hop)))
    exact steps_mono _ (applyRateMapDelta_steps (moves_stepwise false) cfg ⟨proto, i⟩ upserts
      removals (fun _ _ => hne rfl) fun _ => hne rfl) fun _ _ => noPolicy_laid

theorem applyDeltas_laid (plan : ReconcilePlan) (proto : Proto) :
    Steps (KeepsLaid prefixV4 prefixV6 p) ((plan.limitDeltas proto).forM fun x =>
      applyRateMapDelta cfg ⟨proto, x.1⟩ x.2.1 x.2.2 false) := by
  apply steps_forM
  intro x hx
  have hword : x.1 ∈ limitWords proto := by
    have hwords : (plan.limitDeltas proto).map Prod.fst = limitWords proto := by
      cases proto <;> rfl
    rw [← hwords]
    exact List.mem_map_of_mem hx
  exact applyRateMapDelta_laid h4 h6 ⟨proto, x.1⟩ hword x.2.1 x.2.2

omit h4 h6 in
theorem ensurePolicyPrefixes_laid (desired : DesiredState) (proto : Proto)
    (hd4 : desired.rateLimitSourcePrefixV4 = prefixV4)
    (hd6 : desired.rateLimitSourcePrefixV6 = prefixV6) :
    Steps (KeepsLaid prefixV4 prefixV6 p) (ensurePolicyPrefixes proto desired false) := by
  by_cases hp : proto = p
  · subst hp
    subst hd4 hd6
    exact steps_mono _ (ensurePolicyPrefixes_entries proto desired) fun _ _ => ensurePrefixes_laid
  · have hne (port : U32) (val : List U8) : NoPolicy p (.updatePolicy proto port val) := by
      intro hop
      exact hp (KernelMap.policy.inj (Option.some.inj hop))
    exact steps_mono _ (ensurePolicyPrefixes_steps (moves_stepwise false) desired proto hne)
      fun _ _ => noPolicy_laid

end Parts

/-- Whichever calls of the reconcile fail. -/
theorem reconcile_laid {prefixV4 prefixV6 : U32} {p : Proto} {cfg : Config} {desired : DesiredState}
    (h4 : cfg.rateLimitSourcePrefixV4 = prefixV4) (h6 : cfg.rateLimitSourcePrefixV6 = prefixV6)
    (hd4 : desired.rateLimitSourcePrefixV4 = prefixV4)
    (hd6 : desired.rateLimitSourcePrefixV6 = prefixV6) (d : Daemon) :
    KeepsLaid prefixV4 prefixV6 p d (reconcile cfg desired false d).2 := by
  have h := moves_stepwise (K := NoPolicy p) false
  have hne {op : BpfOp} {t : KernelMap} (htarget : op.target = some t) (ht : t ≠ .policy p) :
      NoPolicy p op := by
    intro hop
    exact ht (Option.some.inj (htarget.symm.trans hop))
  have hread {op : BpfOp} (htarget : op.target = none) : NoPolicy p op := by
    intro hop
    exact absurd (htarget.symm.trans hop) (Option.some_ne_none _).symm
  have hport (m : PortMap) : KernelMap.port m ≠ .policy p := by rintro ⟨⟩
  have hct (p' : Proto) : KernelMap.ct p' ≠ .policy p := by rintro ⟨⟩
  have houter (m : OuterMap) : KernelMap.outer m ≠ .policy p := by rintro ⟨⟩
  have hacl (p' : Proto) : KernelMap.acl p' ≠ .policy p := by rintro ⟨⟩
  have hmoves {m : DaemonM PUnit} (hm : Steps (Moves (NoPolicy p)) m) :
      Steps (KeepsLaid prefixV4 prefixV6 p) m := steps_mono _ hm fun _ _ => noPolicy_laid
  set plan := (plannedAt cfg desired d).1
  have hplanned : KeepsLaid prefixV4 prefixV6 p d (plannedAt cfg desired d).2 := by
    apply noPolicy_laid
    exact moves_mono (fun _ hop => hop.2 (.policy p)) (planned_stage cfg desired d)
  have hlimits : Steps (KeepsLaid prefixV4 prefixV6 p) (applyLimits cfg plan false desired) := by
    apply steps_bind _ _ (applyDeltas_laid h4 h6 plan .tcp)
    intro _
    apply steps_bind _ _ (applyDeltas_laid h4 h6 plan .udp)
    intro _
    apply steps_bind _ _ (hmoves (applyRateOuters_steps h cfg desired
      (fun _ _ _ _ => ⟨hread rfl, hne rfl (houter _)⟩) fun _ _ => hne rfl (houter _)))
    intro _
    apply steps_bind _ _ (ensurePolicyPrefixes_laid desired .tcp hd4 hd6)
    intro _
    exact ensurePolicyPrefixes_laid desired .udp hd4 hd6
  have hprepared : Steps (KeepsLaid prefixV4 prefixV6 p) (preparation cfg plan desired) := by
    apply steps_bind _ _ (hmoves (closeTcp_steps h plan moves_rounds
      (fun _ _ => hne rfl (hport _)) (fun _ => hne rfl (hct _)) fun _ _ _ => hne rfl (hct _)))
    intro _
    apply steps_bind _ _ (hmoves (closeUdp_steps h plan (fun _ _ => hne rfl (hport _))
      fun _ => hne rfl (hct _)))
    intro _
    apply steps_bind _ _ (hmoves (applySctpDelta_steps h plan
      (fun _ _ => hne rfl (hport _)) fun _ _ => hne rfl (hport _)))
    intro _
    apply steps_bind _ _ (hmoves (applyTrustedDelta_steps h cfg plan
      (fun _ _ => hne rfl (by rintro ⟨⟩)) fun _ _ => hne rfl (by rintro ⟨⟩)))
    intro _
    apply steps_bind _ _ hlimits
    intro _
    apply steps_bind _ _ (hmoves (applyAclDelta_steps h plan
      (fun _ _ => hne rfl (hacl _)) fun _ _ => hne rfl (hacl _)))
    intro _
    exact hmoves (applyRest_steps h cfg desired plan (hread rfl) (fun _ => hne rfl (by rintro ⟨⟩))
      (fun _ => hne rfl (by rintro ⟨⟩)) (fun _ => hne rfl (by rintro ⟨⟩))
      fun _ => hne rfl (by rintro ⟨⟩))
  have hexposed := hmoves (expose_steps h plan (fun _ _ => hne rfl (hport _))
    fun _ _ => hne rfl (hport _))
  exact reconcile_steps cfg desired d hplanned (fun _ => id) hprepared hexposed

/-! Runs. -/

/-- Configuration and desired state name these prefixes. -/
structure Configured (prefixV4 prefixV6 : U32) (round : Config × DesiredState) : Prop where
  cfg4 : round.1.rateLimitSourcePrefixV4 = prefixV4
  cfg6 : round.1.rateLimitSourcePrefixV6 = prefixV6
  desired4 : round.2.rateLimitSourcePrefixV4 = prefixV4
  desired6 : round.2.rateLimitSourcePrefixV6 = prefixV6

/-- One reconcile after the other. -/
def reconciles (d : Daemon) : List (Config × DesiredState) → Daemon
  | [] => d
  | round :: rounds => reconciles (reconcile round.1 round.2 false d).2 rounds

theorem reconciles_laid {prefixV4 prefixV6 : U32} {p : Proto} {d : Daemon}
    (rounds : List (Config × DesiredState))
    (hrounds : ∀ r ∈ rounds, Configured prefixV4 prefixV6 r) :
    KeepsLaid prefixV4 prefixV6 p d (reconciles d rounds) := by
  induction rounds generalizing d with
  | nil => exact id
  | cons r rs ih =>
    obtain ⟨hr, hrs⟩ := List.forall_mem_cons.mp hrounds
    have hone := reconcile_laid (p := p) hr.cfg4 hr.cfg6 hr.desired4 hr.desired6 d
    have hrest := ih (d := (reconcile r.1 r.2 false d).2) hrs
    exact fun hd => hrest (hone hd)

/-! What the datapath makes of the prefixes. -/

/-- Two sources of one family. Those of IPv6 agree on their first 32 bits. -/
inductive Merged : FlowKey → FlowKey → Prop
  | v4 (sport dport sport' dport' : U16) (a b a' b' : U32) :
    Merged (.v4 sport dport a b) (.v4 sport' dport' a' b')
  | v6 (sport dport sport' dport' : U16) (a b a' b' : U128)
    (h : a.extractLsb' 96 32 = a'.extractLsb' 96 32) :
    Merged (.v6 sport dport a b) (.v6 sport' dport' a' b')

/-- The two limiters of a policy do not tell the sources apart. -/
def UdpAlike (policy : UdpPortPolicyCfg) (port : U32) (key key' : FlowKey) : Prop :=
  ∀ now pktBytes cfg l,
    udpRateCheck key now port policy.rateMax policy.sourcePrefixV4 policy.sourcePrefixV6 cfg l =
      udpRateCheck key' now port policy.rateMax policy.sourcePrefixV4 policy.sourcePrefixV6 cfg l ∧
    udpAggRateCheck key now port pktBytes policy.aggRateMax policy.sourcePrefixV4
        policy.sourcePrefixV6 cfg l =
      udpAggRateCheck key' now port pktBytes policy.aggRateMax policy.sourcePrefixV4
        policy.sourcePrefixV6 cfg l

theorem maskSourceWord_zero (w : U32) : maskSourceWord w 0 = 0 := rfl

/-- A prefix of one word keeps nothing of the others. -/
theorem maskedV6Words_first (w0 w1 w2 w3 v1 v2 v3 : U32) {prefixV6 : U32} (h : prefixV6 ≤ 32) :
    maskedV6Words w0 w1 w2 w3 prefixV6 = maskedV6Words w0 v1 v2 v3 prefixV6 := by
  have hsmall : ¬prefixV6 > 128 := by bv_omega
  unfold maskedV6Words
  rw [if_neg hsmall]
  by_cases hlt : prefixV6 < 32
  · rw [if_pos hlt, if_pos hlt]
  · have heq : prefixV6 = 32 := by bv_omega
    have hnot : ¬(32 : U32) < 32 := by decide
    have hrest : (32 : U32) - 32 < 32 := by decide
    have hnone : (32 : U32) - 32 = 0 := by decide
    rw [heq, if_neg hnot, if_neg hnot, if_pos hrest, if_pos hrest, hnone, maskSourceWord_zero,
      maskSourceWord_zero]

section Sources

variable {key key' : FlowKey} (h : Merged key key') {prefixV6 : U32} (hbits : prefixV6 ≤ 32)

include h hbits

theorem merged_masked :
    fillMaskedSource key.saddr 0 prefixV6 = fillMaskedSource key'.saddr 0 prefixV6 := by
  cases h with
  | v4 => rfl
  | v6 sport dport sport' dport' a b a' b' hfirst =>
    show Addr.v6 (maskedV6Words ..) = Addr.v6 (maskedV6Words ..)
    rw [hfirst, maskedV6Words_first _ _ _ _ _ _ _ hbits]

theorem merged_alike {policy : UdpPortPolicyCfg} (h4 : policy.sourcePrefixV4 = 0)
    (h6 : policy.sourcePrefixV6 = prefixV6) (port : U32) : UdpAlike policy port key key' := by
  intro now pktBytes cfg l
  have hsource := merged_masked h hbits
  rw [h4, h6]
  constructor
  · -- the family picks the inner map, the masked source the word in it
    unfold udpRateCheck
    rw [hsource]
    cases h <;> rfl
  · unfold udpAggRateCheck
    rw [hsource]

end Sources

/-- The struct of UDP has its prefixes one word before those of the tuple. -/
theorem udp_prefixes_read {prefixV4 prefixV6 : U32} {fields : PolicyFields}
    (h : Laid prefixV4 prefixV6 .udp fields) :
    (udpPolicyOfBytes ((packFields fields).take (policyValueSize .udp))).sourcePrefixV4 = 0 ∧
      (udpPolicyOfBytes ((packFields fields).take (policyValueSize .udp))).sourcePrefixV6 =
        prefixV4 := by
  constructor
  · show wordAt _ (4*((2 : Fin 8) : ℕ)) = 0
    rw [wordAt_take _ _ _ (by decide), wordAt_packFields]
    exact h.unused 2 (by decide) (by decide) (by decide)
  · show wordAt _ (4*((3 : Fin 8) : ℕ)) = prefixV4
    rw [wordAt_take _ _ _ (by decide), wordAt_packFields]
    exact h.v4

theorem tcp_prefixes_read {prefixV4 prefixV6 : U32} {fields : PolicyFields}
    (h : Laid prefixV4 prefixV6 .tcp fields) :
    (tcpPolicyOfBytes ((packFields fields).take (policyValueSize .tcp))).sourcePrefixV4 = prefixV4 ∧
      (tcpPolicyOfBytes ((packFields fields).take (policyValueSize .tcp))).sourcePrefixV6 =
        prefixV6 := by
  constructor
  · show wordAt _ (4*((3 : Fin 8) : ℕ)) = prefixV4
    rw [wordAt_take _ _ _ (by decide), wordAt_packFields]
    exact h.v4
  · show wordAt _ (4*((4 : Fin 8) : ℕ)) = prefixV6
    rw [wordAt_take _ _ _ (by decide), wordAt_packFields]
    exact h.v6

/-- Over any run of reconciles, whichever of their calls fail, the datapath reads of each
TCP policy the prefixes that are configured, but of each UDP policy no prefix for IPv4, and
for IPv6 the one that is meant for IPv4: all these sources are charged to one word. -/
theorem udp_sources_merged {prefixV4 prefixV6 : U32} (hbits : prefixV4 ≤ 32) {d : Daemon}
    (hd : ∀ p, PolicyLaid prefixV4 prefixV6 p d) (rounds : List (Config × DesiredState))
    (hrounds : ∀ r ∈ rounds, Configured prefixV4 prefixV6 r) (port : U32) :
    (∀ val, ((reconciles d rounds).maps.portPolicies .tcp).lookup port = some val →
      (tcpPolicyOfBytes val).sourcePrefixV4 = prefixV4 ∧
        (tcpPolicyOfBytes val).sourcePrefixV6 = prefixV6) ∧
    ∀ val, ((reconciles d rounds).maps.portPolicies .udp).lookup port = some val →
      (udpPolicyOfBytes val).sourcePrefixV4 = 0 ∧
      (udpPolicyOfBytes val).sourcePrefixV6 = prefixV4 ∧
      ∀ key key', Merged key key' → UdpAlike (udpPolicyOfBytes val) port key key' := by
  have hlaid (p : Proto) : PolicyLaid prefixV4 prefixV6 p (reconciles d rounds) :=
    reconciles_laid rounds hrounds (hd p)
  constructor
  · intro val hval
    obtain ⟨fields, hfields, rfl⟩ := (hlaid .tcp port).stored hval
    exact tcp_prefixes_read hfields
  · intro val hval
    obtain ⟨fields, hfields, rfl⟩ := (hlaid .udp port).stored hval
    obtain ⟨h4, h6⟩ := udp_prefixes_read hfields
    exact ⟨h4, h6, fun key key' hmerged => merged_alike hmerged hbits h4 h6 port⟩

theorem emptyDaemon_laid (p : Proto) : PolicyLaid 32 128 p {} := by
  intro q
  have herased : portEntry p q ({} : Daemon) = .erased := by
    cases p <;> rfl
  rw [herased]
  exact entryLaid_erased

/-- A rate for the port of DNS. -/
def dnsDesired : DesiredState where
  udpPorts := [53]
  udpRateLimits := [⟨53, 100⟩].toAList

theorem udp_sources_merged_dns :
    udpRateCheck (.v4 4000 53 0x0A000001 0x0A000009) 0 53 100 0 32 none
        { ({} : Limits) with udprt4 := fun _ => some ∅ } =
      udpRateCheck (.v4 4001 53 0x0B000001 0x0A000009) 0 53 100 0 32 none
        { ({} : Limits) with udprt4 := fun _ => some ∅ } := by
  have hstored : ((reconciles {} [({}, dnsDesired)]).maps.portPolicies .udp).lookup 53 =
      some ((packFields ![100, 0, 0, 32, 128, 0, 0, 0]).take (policyValueSize .udp)) := by
    decide +kernel
  have hread : udpPolicyOfBytes
      ((packFields ![100, 0, 0, 32, 128, 0, 0, 0]).take (policyValueSize .udp)) =
        ⟨100, 0, 0, 32⟩ := by decide
  have hmerged := ((udp_sources_merged (by decide) emptyDaemon_laid [({}, dnsDesired)]
    (List.forall_mem_singleton.mpr ⟨rfl, rfl, rfl, rfl⟩) 53).2 _ hstored).2.2 _ _
    (.v4 4000 53 4001 53 0x0A000001 0x0A000009 0x0B000001 0x0A000009)
  rw [hread] at hmerged
  exact (hmerged 0 0 none { ({} : Limits) with udprt4 := fun _ => some ∅ }).1

end AutoXdp
