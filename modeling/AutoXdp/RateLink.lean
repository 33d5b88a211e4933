import AutoXdp.FirstReconcile
import AutoXdp.RateArming
import Mathlib.Tactic.Basic

/-! After a reconcile that counted no failure, which ports have a rate and which have
the inner map that enforces it. -/
namespace AutoXdp
open StateSteps XdpBackend WordBytes

/-! The rates that a view shows, and those after its delta. -/

theorem active_lookup (d : Daemon) (p : Proto) (port : U32) :
    (BpfPortPolicyViewMap.active d ⟨p, 0⟩).lookup port =
      if cachedRate d p port = 0 then none else some (cachedRate d p port) := by
  set shown := ((d.policyCache p).entries.map fun e =>
    (⟨e.1, e.2 0⟩ : Σ _ : U32, U32)).filter fun e => e.2 ≠ 0 with hshown
  have hnodup : shown.NodupKeys := by
    apply List.NodupKeys.sublist List.filter_sublist
    exact (d.policyCache p).nodupKeys.map₂ (fun _ fields => fields 0)
  have hlookup : (BpfPortPolicyViewMap.active d ⟨p, 0⟩).lookup port = shown.dlookup port :=
    AList.lookup_to_alist shown
  have hmem (rate : U32) : ⟨port, rate⟩ ∈ shown ↔ rate ≠ 0 ∧
      ∃ fields, (d.policyCache p).lookup port = some fields ∧ fields 0 = rate := by
    rw [hshown, List.mem_filter, List.mem_map, decide_eq_true_eq, and_comm]
    apply and_congr Iff.rfl
    constructor
    · rintro ⟨⟨q, fields⟩, he, hq⟩
      obtain ⟨rfl, hrate⟩ := Sigma.mk.inj hq
      exact ⟨fields, AList.mem_lookup_iff.mpr he, eq_of_heq hrate⟩
    · rintro ⟨fields, he, rfl⟩
      exact ⟨⟨port, fields⟩, AList.mem_lookup_iff.mp he, rfl⟩
  rw [hlookup]
  cases hl : (d.policyCache p).lookup port with
  | none =>
    have hrate : cachedRate d p port = 0 := by rw [cachedRate, hl]; rfl
    rw [if_pos hrate, Option.eq_none_iff_forall_not_mem]
    intro rate h
    obtain ⟨-, fields, hf, -⟩ := (hmem rate).mp ((List.mem_dlookup_iff hnodup).mp h)
    rw [hl] at hf
    exact absurd hf (by rintro ⟨⟩)
  | some fields =>
    have hrate : cachedRate d p port = fields 0 := by rw [cachedRate, hl]; rfl
    rw [hrate]
    split_ifs with hzero
    · rw [Option.eq_none_iff_forall_not_mem]
      intro rate h
      obtain ⟨hne, fields', hf, rfl⟩ := (hmem rate).mp ((List.mem_dlookup_iff hnodup).mp h)
      rw [hl] at hf
      obtain rfl := Option.some.inj hf
      exact hne hzero
    · exact (List.mem_dlookup_iff hnodup).mpr ((hmem _).mpr ⟨hzero, fields, hl, rfl⟩)

theorem dictItems_keys {κ ν : Type} [DecidableEq κ] (t : BpfMap κ ν) :
    (dictItems t).map Prod.fst = t.keys := by
  rw [dictItems, List.map_map]
  rfl

theorem dictUpserts_nodup {κ ν : Type} [DecidableEq κ] [DecidableEq ν] (desired applied : BpfMap κ ν) :
    ((dictUpserts desired applied).map Prod.fst).Nodup := by
  have hsub : ((dictUpserts desired applied).map Prod.fst).Sublist desired.keys := by
    rw [← dictItems_keys]
    exact List.filter_sublist.map _
  exact hsub.nodup desired.nodupKeys

/-- The delta towards the desired rates leaves them. -/
theorem ratesSet_desired (p : Proto) (desired : BpfMap U32 U32) (d e d' : Daemon)
    (hsame : ∀ q, cachedRate e p q = cachedRate d p q)
    (h : RatesSet p (dictUpserts desired (BpfPortPolicyViewMap.active d ⟨p, 0⟩))
      (dictRemovals desired (BpfPortPolicyViewMap.active d ⟨p, 0⟩)) e d') (q : U32) :
    cachedRate d' p q = (desired.lookup q).getD 0 := by
  set applied := BpfPortPolicyViewMap.active d ⟨p, 0⟩ with happlied
  have hactive := active_lookup d p q
  rw [← happlied] at hactive
  have hupsert (rate : U32) : (q, rate) ∈ dictUpserts desired applied ↔
      desired.lookup q = some rate ∧ applied.lookup q ≠ some rate := by
    rw [dictUpserts, List.mem_filter, mem_dictItems, decide_eq_true_eq]
  have hremoval : q ∈ dictRemovals desired applied ↔
      (applied.lookup q).isSome = true ∧ desired.lookup q = none := by
    rw [dictRemovals, mem_setDiff, ← AList.mem_keys, ← AList.mem_keys, AList.lookup_isSome,
      AList.lookup_eq_none]
  cases hd : desired.lookup q with
  | some rate =>
    rw [Option.getD_some]
    have hkeep : q ∉ dictRemovals desired applied := by
      rw [hremoval, hd]
      exact fun h => absurd h.2 (by rintro ⟨⟩)
    by_cases hshown : applied.lookup q = some rate
    · have hrest : q ∉ (dictUpserts desired applied).map Prod.fst := by
        rintro hq
        obtain ⟨⟨q', rate'⟩, hmem, rfl⟩ := List.mem_map.mp hq
        obtain ⟨hrate, hne⟩ := (hupsert rate').mp hmem
        rw [hd] at hrate
        exact hne (hshown.trans hrate)
      rw [h.rest q hrest hkeep, hsame]
      rw [hactive] at hshown
      split_ifs at hshown
      exact Option.some.inj hshown
    · exact h.set (q, rate) ((hupsert rate).mpr ⟨hd, hshown⟩) hkeep
  | none =>
    rw [Option.getD_none]
    by_cases hq : q ∈ dictRemovals desired applied
    · exact h.removed q hq
    · have hrest : q ∉ (dictUpserts desired applied).map Prod.fst := by
        rintro hq
        obtain ⟨⟨q', rate'⟩, hmem, rfl⟩ := List.mem_map.mp hq
        have hrate := ((hupsert rate').mp hmem).1
        rw [hd] at hrate
        exact absurd hrate (by rintro ⟨⟩)
      rw [h.rest q hrest hq, hsame]
      rw [hremoval, hd, hactive] at hq
      by_contra hne
      rw [if_neg hne] at hq
      exact hq ⟨rfl, rfl⟩

/-! The parts of the reconcile that leave a map alone. -/

section Parts

variable (cfg : Config) (plan : ReconcilePlan) (desired : DesiredState) (t : KernelMap)

theorem closeTcp_undisturbed (hport : .port .tcp ≠ t) (hct : .ct .tcp ≠ t) :
    Steps (Undisturbed t) (closeTcp plan false) :=
  closeTcp_steps (undisturbed_stepwise t false) plan (undisturbed_rounds t) (fun _ _ => ne_target rfl hport)
    (fun _ => ne_target rfl hct) fun _ _ _ => ne_target rfl hct

theorem closeUdp_undisturbed (hport : .port .udp ≠ t) (hct : .ct .udp ≠ t) :
    Steps (Undisturbed t) (closeUdp plan false) :=
  closeUdp_steps (undisturbed_stepwise t false) plan (fun _ _ => ne_target rfl hport)
    fun _ => ne_target rfl hct

theorem applyGlobals_undisturbed (hacl : ∀ p, .acl p ≠ t) (hruntime : .runtimeConfig ≠ t)
    (hrate : .globalRl ≠ t) (hsit : .sit4 ≠ t) :
    Steps (Undisturbed t) (applyGlobals cfg plan false desired) := by
  apply steps_bind
  · exact applyAclDelta_steps (undisturbed_stepwise t false) plan
      (fun _ _ => ne_target rfl (hacl _)) fun _ _ => ne_target rfl (hacl _)
  · intro _
    exact applyRest_steps (undisturbed_stepwise t false) cfg desired plan nofun
      (fun _ => ne_target rfl hruntime) (fun _ => ne_target rfl hrate)
      (fun _ => ne_target rfl hsit) fun _ => ne_target rfl hsit

theorem applyTcpLimits_undisturbed (hpolicy : .policy .tcp ≠ t) :
    Steps (Undisturbed t) (applyTcpLimits cfg plan false) :=
  applyTcpLimits_steps (undisturbed_stepwise t false) cfg plan
    (fun _ _ => ne_target rfl hpolicy) fun _ => ne_target rfl hpolicy

theorem applyUdpLimits_undisturbed (hpolicy : .policy .udp ≠ t) :
    Steps (Undisturbed t) (applyUdpLimits cfg plan false) :=
  applyUdpLimits_steps (undisturbed_stepwise t false) cfg plan
    (fun _ _ => ne_target rfl hpolicy) fun _ => ne_target rfl hpolicy

theorem applyRateOuterDelta_undisturbed (m : OuterMap) (entries : List (U32 × U32))
    (houter : .outer m ≠ t) : Steps (Undisturbed t) (applyRateOuterDelta m entries false) :=
  applyRateOuterDelta_steps (undisturbed_stepwise t false) m entries
    (fun _ _ => ⟨nofun, ne_target rfl houter⟩) fun _ => ne_target rfl houter

theorem applyRateOuters_undisturbed (houter : ∀ m, .outer m ≠ t) :
    Steps (Undisturbed t) (applyRateOuters cfg desired false) :=
  applyRateOuters_steps (undisturbed_stepwise t false) cfg desired
    (fun m _ _ _ => ⟨nofun, ne_target rfl (houter m)⟩) fun m _ => ne_target rfl (houter m)

theorem ensurePolicyPrefixes_undisturbed (p : Proto) (hpolicy : .policy p ≠ t) :
    Steps (Undisturbed t) (ensurePolicyPrefixes p desired false) :=
  ensurePolicyPrefixes_steps (undisturbed_stepwise t false) desired p
    fun _ _ => ne_target rfl hpolicy

theorem expose_undisturbed (htcp : .port .tcp ≠ t) (hudp : .port .udp ≠ t) :
    Steps (Undisturbed t) (expose plan false) :=
  expose_steps (undisturbed_stepwise t false) plan (fun _ _ => ne_target rfl htcp)
    fun _ _ => ne_target rfl hudp

end Parts

/-- Everything before the exposure, with the counter already at zero. -/
def preparation (cfg : Config) (plan : ReconcilePlan) (desired : DesiredState) : DaemonM PUnit := do
  closeTcp plan false
  closeUdp plan false
  protect cfg plan false desired

theorem prepare_preparation (cfg : Config) (plan : ReconcilePlan) (desired : DesiredState)
    (d : Daemon) : (prepare cfg plan false desired d).2 =
      (preparation cfg plan desired { d with lastApplyFailures := 0 }).2 := by
  simp only [prepare, preparation, run_bind, run_modify]

/-! The ports. -/

theorem setPorts_unfailed (m : PortMap) (ports : List U32) (val : U32) :
    Steps (Unfailed fun d d' => ∀ port, d'.maps.portMap m port =
      if port ∈ ports then val else d.maps.portMap m port) (setPorts m ports val false) := by
  have hloop := unfailed_forM (P := fun ports d d' => ∀ port, d'.maps.portMap m port =
      if port ∈ ports then val else d.maps.portMap m port)
    (Q := fun x d d' => ∀ port, d'.maps.portMap m port =
      if port = x then val else d.maps.portMap m port)
    (fun port => discard (ok (BpfArrayMap.set m port val false)))
    (by
      intro x
      refine unfailed_mono _ (unfailed_call (.setPort m x val) (fun d => d.setPortCache m
        (if val ≠ 0 then setAdd x (d.portCache m) else setDiscard x (d.portCache m)))
        fun _ => rfl) ?_
      rintro d _ rfl port
      change (d.called .ok (.setPort m x val) true).maps.portMap m port = _
      simp only [setPort_portMap, true_and])
    (fun d port => by simp) (by
      intro x xs d e f hx hxs port
      rw [hxs port, hx port]
      by_cases hport : port = x
      · simp only [hport, ↓reduceIte, List.mem_cons_self, ite_self]
      · simp only [hport, if_false, List.mem_cons, false_or])
  refine unfailed_mono _ (hloop (sorted ports)) ?_
  intro d d' h port
  rw [h port]
  simp only [mem_sorted]

/-- Closing, protecting: of the ports of a protocol only the removed ones change. -/
theorem prepared_ports (cfg : Config) (plan : ReconcilePlan) (desired : DesiredState) (p : Proto) :
    Steps (Unfailed fun d d' => ∀ port, d'.maps.portMap p.portMap port =
        if port ∈ plan.portsToRemove p then 0 else d.maps.portMap p.portMap port) (preparation cfg plan desired) := by
  have hne : ∀ t : KernelMap, t = .port p.portMap → .port .sctp ≠ t := by
    rintro _ rfl
    cases p <;> exact nofun
  have hprotect : Steps (Undisturbed (.port p.portMap)) (protect cfg plan false desired) := by
    unfold protect
    apply steps_bind _ _ (applySctpDelta_steps (undisturbed_stepwise (.port p.portMap) false) plan
      (fun _ _ => ne_target rfl (hne _ rfl)) fun _ _ => ne_target rfl (hne _ rfl))
    intro _
    apply steps_bind _ _ (applyTrustedDelta_steps (undisturbed_stepwise (.port p.portMap) false) cfg plan
      (fun _ _ => ne_target rfl nofun) fun _ _ => ne_target rfl nofun)
    intro _
    apply steps_bind _ _ (applyLimits_steps (undisturbed_stepwise (.port p.portMap) false) cfg desired plan
      (fun _ _ _ => ne_target rfl nofun) (fun _ _ => ne_target rfl nofun)
      (fun _ _ _ _ => ⟨nofun, ne_target rfl nofun⟩) fun _ _ => ne_target rfl nofun)
    intro _
    exact applyGlobals_undisturbed cfg plan desired _ nofun nofun nofun nofun
  have hkeep (d d' e : Daemon) (h : ∀ port, d'.maps.portMap p.portMap port =
      if port ∈ plan.portsToRemove p then 0 else d.maps.portMap p.portMap port)
      (h' : e.opened = d'.opened ∧ Kept d' e (.port p.portMap)) (port : U32) :
      e.maps.portMap p.portMap port =
        if port ∈ plan.portsToRemove p then 0 else d.maps.portMap p.portMap port := by
    rw [h'.2.1]
    exact h port
  cases p with
  | tcp =>
    have htail : Steps (Undisturbed (.port .tcp)) (do
        BpfConntrackMaps.deleteDestPorts .tcp plan.tcpPortsToRemove false
        seedConntrack plan.conntrackEntriesToAdd false
        removeStaleConntrack plan.conntrackEntriesToRemove false) := by
      apply steps_bind _ _ (deleteDestPorts_steps (undisturbed_stepwise (.port .tcp) false) .tcp _
        fun _ _ => ne_target rfl nofun)
      intro _
      apply steps_bind _ _ (seedConntrack_steps (undisturbed_stepwise (.port .tcp) false) (undisturbed_rounds (.port .tcp)) _
        fun _ _ _ => ne_target rfl nofun)
      intro _
      exact removeStaleConntrack_steps (undisturbed_stepwise (.port .tcp) false) (undisturbed_rounds (.port .tcp)) _
        fun _ _ => ne_target rfl nofun
    have hclose := unfailed_seq _ _ (setPorts_unfailed .tcp plan.tcpPortsToRemove 0)
      (fun _ => htail) hkeep
    have hrest : Steps (Undisturbed (.port .tcp)) (do
        closeUdp plan false
        protect cfg plan false desired) :=
      steps_bind _ _ (closeUdp_undisturbed plan _ nofun nofun) fun _ => hprotect
    exact unfailed_seq (closeTcp plan false) _ hclose (fun _ => hrest) hkeep
  | udp =>
    have htail : Steps (Undisturbed (.port .udp))
        (BpfConntrackMaps.deleteDestPorts .udp plan.udpPortsToRemove false) :=
      deleteDestPorts_steps (undisturbed_stepwise (.port .udp) false) .udp _ fun _ _ => ne_target rfl nofun
    have hclose := unfailed_seq _ _ (setPorts_unfailed .udp plan.udpPortsToRemove 0)
      (fun _ => htail) hkeep
    have hrest := unfailed_seq (closeUdp plan false) _ hclose (fun _ => hprotect) hkeep
    refine unfailed_seq _ _ (closeTcp_undisturbed plan (.port .udp) nofun nofun) (fun _ => hrest) ?_
    intro d e f hfirst h port
    have hmap : e.maps.portMap Proto.udp.portMap = d.maps.portMap Proto.udp.portMap := hfirst.2.1
    rw [h port, hmap]

/-! The rates. -/

namespace ReconcilePlan

def rateUpserts (plan : ReconcilePlan) : Proto → List (U32 × U32)
  | .tcp => plan.tcpSynRateLimitsToUpsert
  | .udp => plan.udpRateLimitsToUpsert

def rateRemovals (plan : ReconcilePlan) : Proto → List U32
  | .tcp => plan.tcpSynRateLimitsToRemove
  | .udp => plan.udpRateLimitsToRemove

end ReconcilePlan

/-- The open maps are the same, and the rates are as before. -/
def RatesLeft (p : Proto) (d d' : Daemon) : Prop := d'.opened = d.opened ∧ RatesKept p d d'

/-- The open maps are the same, and the delta of the plan is applied. -/
def RatesDone (plan : ReconcilePlan) (p : Proto) (d d' : Daemon) : Prop :=
  d'.opened = d.opened ∧ (d.opened (.policy p) = true →
    RatesSet p (plan.rateUpserts p) (plan.rateRemovals p) d d')

theorem ratesLeft_trans (p : Proto) (d e f : Daemon) (h : RatesLeft p d e) (h' : RatesLeft p e f) :
    RatesLeft p d f := ⟨h'.1.trans h.1, ratesKept_trans p d e f h.2 h'.2⟩

theorem ratesDone_left (plan : ReconcilePlan) (p : Proto) (d e f : Daemon)
    (h : RatesDone plan p d e) (h' : RatesLeft p e f) : RatesDone plan p d f :=
  ⟨h'.1.trans h.1, fun hopen =>
    ratesSet_kept p _ _ d d e f (ratesKept_refl p d) (h.2 hopen) h'.2⟩

theorem left_ratesDone (plan : ReconcilePlan) (p : Proto) (d e f : Daemon)
    (h : RatesLeft p d e) (h' : RatesDone plan p e f) : RatesDone plan p d f :=
  ⟨h'.1.trans h.1, fun hopen => ratesSet_kept p _ _ d e f f h.2
    (h'.2 (by rw [h.1]; exact hopen)) (ratesKept_refl p f)⟩

theorem undisturbed_rates {α : Type} (p : Proto) (m : DaemonM α)
    (hm : Steps (Undisturbed (.policy p)) m) : Steps (Unfailed (RatesLeft p)) m :=
  unfailed_mono m hm fun d d' h => ⟨h.1, ratesKept_of_kept p d d' h.2⟩

section Limits

variable (cfg : Config) (plan : ReconcilePlan) (desired : DesiredState)

theorem applyRateMapDelta_left (p : Proto) (i : Fin 8) (hi : i ≠ 0) (upserts : List (U32 × U32))
    (removals : List U32) :
    Steps (Unfailed (RatesLeft p)) (applyRateMapDelta cfg ⟨p, i⟩ upserts removals false) :=
  unfailed_opened _ (applyRateMapDelta_steps (touches_stepwise (S := Set.univ) false) cfg ⟨p, i⟩ _ _
    (fun _ _ => Set.mem_univ _) fun _ => Set.mem_univ _)
    (applyRateMapDelta_kept cfg p i hi upserts removals)

theorem applyRateMapDelta_done (p : Proto) (upserts : List (U32 × U32)) (removals : List U32)
    (hupserts : upserts = plan.rateUpserts p) (hremovals : removals = plan.rateRemovals p)
    (hnodup : (upserts.map Prod.fst).Nodup) :
    Steps (Unfailed (RatesDone plan p))
      (applyRateMapDelta cfg ⟨p, 0⟩ upserts removals false) := by
  have htouch := applyRateMapDelta_steps (touches_stepwise (S := Set.univ) false) cfg ⟨p, 0⟩
    upserts removals (fun _ _ => Set.mem_univ _) fun _ => Set.mem_univ _
  intro d hzero
  refine ⟨?_, (htouch d).opened, ?_⟩
  · obtain ⟨new, -, -, hfail⟩ := (htouch d).calls
    rw [hzero] at hfail
    exact (Nat.add_eq_zero_iff.mp hfail.symm).1
  · intro hopen
    rw [← hupserts, ← hremovals]
    exact (applyRateMapDelta_set cfg p upserts removals hnodup d hopen hzero).2

theorem ensurePolicyPrefixes_left (p q : Proto) :
    Steps (Unfailed (RatesLeft p)) (ensurePolicyPrefixes q desired false) := by
  by_cases hq : q = p
  · subst hq
    exact unfailed_of_touches _ (ensurePolicyPrefixes_steps (touches_stepwise (S := Set.univ) false)
      desired q fun _ _ => Set.mem_univ _) (ensurePolicyPrefixes_rates q desired)
  · exact undisturbed_rates p _ (ensurePolicyPrefixes_undisturbed desired _ q
      fun h => hq (KernelMap.policy.inj h))

/-- What follows the deltas of the two protocols. -/
theorem limitsTail_left (p : Proto) :
    Steps (Unfailed (RatesLeft p)) (do
      applyRateOuters cfg desired false
      ensurePolicyPrefixes .tcp desired false
      ensurePolicyPrefixes .udp desired false) := by
  refine unfailed_seq _ _
    (undisturbed_rates p _ (applyRateOuters_undisturbed cfg desired _ fun _ => nofun)) ?_
    (ratesLeft_trans p)
  intro _
  exact unfailed_seq _ _ (ensurePolicyPrefixes_left desired p .tcp)
    (fun _ => ensurePolicyPrefixes_left desired p .udp) (ratesLeft_trans p)

theorem applyLimits_rates (p : Proto) (hnodup : ((plan.rateUpserts p).map Prod.fst).Nodup) :
    Steps (Unfailed (RatesDone plan p)) (applyLimits cfg plan false desired) := by
  have hset := applyRateMapDelta_done cfg plan p _ _ rfl rfl hnodup
  have hleft (i : Fin 8) (hi : i ≠ 0) := applyRateMapDelta_left cfg p i hi
  cases p with
  | tcp =>
    have htcp : Steps (Unfailed (RatesDone plan .tcp)) (applyTcpLimits cfg plan false) := by
      refine unfailed_seq _ _ hset (fun _ => ?_) (ratesDone_left plan .tcp)
      refine unfailed_seq _ _ (hleft 1 (by decide) _ _) (fun _ => ?_) (ratesLeft_trans .tcp)
      refine unfailed_seq _ _ (hleft 2 (by decide) _ _) (fun _ => ?_) (ratesLeft_trans .tcp)
      refine unfailed_seq _ _ (hleft 5 (by decide) _ _) (fun _ => ?_) (ratesLeft_trans .tcp)
      exact hleft 6 (by decide) _ _
    refine unfailed_seq _ _ htcp (fun _ => ?_) (ratesDone_left plan .tcp)
    exact unfailed_seq _ _
      (undisturbed_rates .tcp _ (applyUdpLimits_undisturbed cfg plan _ nofun))
      (fun _ => limitsTail_left cfg desired .tcp) (ratesLeft_trans .tcp)
  | udp =>
    have hudp : Steps (Unfailed (RatesDone plan .udp)) (applyUdpLimits cfg plan false) :=
      unfailed_seq _ _ hset (fun _ => hleft 1 (by decide) _ _) (ratesDone_left plan .udp)
    refine unfailed_seq _ _
      (undisturbed_rates .udp _ (applyTcpLimits_undisturbed cfg plan _ nofun))
      (fun _ => ?_) (left_ratesDone plan .udp)
    exact unfailed_seq _ _ hudp (fun _ => limitsTail_left cfg desired .udp)
      (ratesDone_left plan .udp)

/-- The preparation applies the delta of the rates. -/
theorem prepared_rates (p : Proto) (hnodup : ((plan.rateUpserts p).map Prod.fst).Nodup) :
    Steps (Unfailed (RatesDone plan p)) (preparation cfg plan desired) := by
  refine unfailed_seq _ _ (undisturbed_rates p _ (closeTcp_undisturbed plan _ nofun nofun))
    (fun _ => ?_) (left_ratesDone plan p)
  refine unfailed_seq _ _ (undisturbed_rates p _ (closeUdp_undisturbed plan _ nofun nofun))
    (fun _ => ?_) (left_ratesDone plan p)
  refine unfailed_seq _ _ (undisturbed_rates p _ (applySctpDelta_steps
      (undisturbed_stepwise (.policy p) false) plan (fun _ _ => ne_target rfl nofun)
      fun _ _ => ne_target rfl nofun)) (fun _ => ?_) (left_ratesDone plan p)
  refine unfailed_seq _ _ (undisturbed_rates p _ (applyTrustedDelta_steps
      (undisturbed_stepwise (.policy p) false) cfg plan (fun _ _ => ne_target rfl nofun)
      fun _ _ => ne_target rfl nofun)) (fun _ => ?_) (left_ratesDone plan p)
  exact unfailed_seq _ _ (applyLimits_rates cfg plan desired p hnodup)
    (fun _ => undisturbed_rates p _
      (applyGlobals_undisturbed cfg plan desired _ nofun nofun nofun nofun)) (ratesDone_left plan p)

end Limits

/-! The inner maps. -/

/-- The protocol whose rates the inner maps of an array enforce. -/
def OuterMap.proto : OuterMap → Proto
  | .syn4 | .syn6 => .tcp
  | .udprt4 | .udprt6 => .udp

namespace DesiredState

def ports (desired : DesiredState) : Proto → List U32
  | .tcp => desired.tcpPorts
  | .udp => desired.udpPorts

def rates (desired : DesiredState) : Proto → BpfMap U32 U32
  | .tcp => desired.tcpSynRateLimits
  | .udp => desired.udpRateLimits

def rateMapEntries (desired : DesiredState) : Proto → BpfMap U32 U32
  | .tcp => desired.tcpRateMapEntries
  | .udp => desired.udpRateMapEntries

end DesiredState

/-- The open maps are the same, and so are the slots. -/
def SlotsLeft (m : OuterMap) (d d' : Daemon) : Prop :=
  d'.opened = d.opened ∧ (OuterCached d m → OuterCached d' m) ∧
    ∀ q, q ∈ d'.outerCache m ↔ q ∈ d.outerCache m

/-- The open maps are the same, and the slots are those of the desired entries. -/
def SlotsDone (desired : DesiredState) (m : OuterMap) (d d' : Daemon) : Prop :=
  d'.opened = d.opened ∧ (d.opened (.rateOuter m) = true →
    SlotsSet m (· ∈ desired.rateMapEntries m.proto) d d')

theorem slotsDone_left (desired : DesiredState) (m : OuterMap) (d e f : Daemon)
    (h : SlotsDone desired m d e) (h' : SlotsLeft m e f) : SlotsDone desired m d f := by
  refine ⟨h'.1.trans h.1, fun hopen => ?_⟩
  obtain ⟨hcached, hslots⟩ := h.2 hopen
  exact ⟨fun hd => h'.2.1 (hcached hd), fun q => (h'.2.2 q).trans (hslots q)⟩

theorem left_slotsDone (desired : DesiredState) (m : OuterMap) (d e f : Daemon)
    (h : SlotsLeft m d e) (h' : SlotsDone desired m e f) : SlotsDone desired m d f := by
  refine ⟨h'.1.trans h.1, fun hopen => ?_⟩
  obtain ⟨hcached, hslots⟩ := h'.2 (by rw [h.1]; exact hopen)
  exact ⟨fun hd => hcached (h.2.1 hd), hslots⟩

theorem undisturbed_slots {α : Type} (m : OuterMap) (n : DaemonM α)
    (hn : Steps (Undisturbed (.outer m)) n) : Steps (Unfailed (SlotsLeft m)) n := by
  refine unfailed_mono n hn ?_
  rintro d d' ⟨hopen, hmap, hcache⟩
  refine ⟨hopen, ?_, ?_⟩
  · intro hd port
    rw [hmap, hcache]
    exact hd port
  · intro q
    rw [hcache]

theorem applyRateOuterDelta_done (desired : DesiredState) (m : OuterMap)
    (entries : List (U32 × U32))
    (hentries : entries.map Prod.fst = (desired.rateMapEntries m.proto).keys) :
    Steps (Unfailed (SlotsDone desired m)) (applyRateOuterDelta m entries false) := by
  have htouch := applyRateOuterDelta_steps (touches_stepwise (S := Set.univ) false) m entries
    (fun _ _ => ⟨Set.mem_univ _, Set.mem_univ _⟩) fun _ => Set.mem_univ _
  intro d hzero
  refine ⟨?_, (htouch d).opened, ?_⟩
  · obtain ⟨new, -, -, hfail⟩ := (htouch d).calls
    rw [hzero] at hfail
    exact (Nat.add_eq_zero_iff.mp hfail.symm).1
  · intro hopen
    obtain ⟨hcached, hslots⟩ := (applyRateOuterDelta_slots m entries d hopen hzero).2
    refine ⟨hcached, fun q => (hslots q).trans ?_⟩
    rw [hentries]
    exact AList.mem_keys.symm

/-- Four deltas, one for each array. -/
theorem applyRateOuters_slots (cfg : Config) (desired : DesiredState) (m : OuterMap) :
    Steps (Unfailed (SlotsDone desired m)) (applyRateOuters cfg desired false) := by
  have hv6 (t : BpfMap U32 U32) :
      ((dictItems t).map fun e => (e.1, rateMapEntriesV6 cfg e.2)).map Prod.fst = t.keys := by
    rw [List.map_map, ← dictItems_keys]
    rfl
  have hother (n : OuterMap) (hn : n ≠ m) (entries : List (U32 × U32)) :=
    undisturbed_slots m _ (applyRateOuterDelta_undisturbed (.outer m) n entries
      fun h => hn (KernelMap.outer.inj h))
  have hleft (d e f : Daemon) (h : SlotsLeft m d e) (h' : SlotsLeft m e f) : SlotsLeft m d f :=
    ⟨h'.1.trans h.1, fun hd => h'.2.1 (h.2.1 hd), fun q => (h'.2.2 q).trans (h.2.2 q)⟩
  unfold applyRateOuters
  cases m with
  | syn4 =>
    refine unfailed_seq _ _ (applyRateOuterDelta_done desired .syn4 _ (dictItems_keys _))
      (fun _ => ?_) (slotsDone_left desired .syn4)
    refine unfailed_seq _ _ (hother .syn6 nofun _) (fun _ => ?_) hleft
    exact unfailed_seq _ _ (hother .udprt4 nofun _) (fun _ => hother .udprt6 nofun _) hleft
  | syn6 =>
    refine unfailed_seq _ _ (hother .syn4 nofun _) (fun _ => ?_) (left_slotsDone desired .syn6)
    refine unfailed_seq _ _ (applyRateOuterDelta_done desired .syn6 _ (hv6 _))
      (fun _ => ?_) (slotsDone_left desired .syn6)
    exact unfailed_seq _ _ (hother .udprt4 nofun _) (fun _ => hother .udprt6 nofun _) hleft
  | udprt4 =>
    refine unfailed_seq _ _ (hother .syn4 nofun _) (fun _ => ?_) (left_slotsDone desired .udprt4)
    refine unfailed_seq _ _ (hother .syn6 nofun _) (fun _ => ?_) (left_slotsDone desired .udprt4)
    exact unfailed_seq _ _ (applyRateOuterDelta_done desired .udprt4 _ (dictItems_keys _))
      (fun _ => hother .udprt6 nofun _) (slotsDone_left desired .udprt4)
  | udprt6 =>
    refine unfailed_seq _ _ (hother .syn4 nofun _) (fun _ => ?_) (left_slotsDone desired .udprt6)
    refine unfailed_seq _ _ (hother .syn6 nofun _) (fun _ => ?_) (left_slotsDone desired .udprt6)
    exact unfailed_seq _ _ (hother .udprt4 nofun _)
      (fun _ => applyRateOuterDelta_done desired .udprt6 _ (hv6 _)) (left_slotsDone desired .udprt6)

/-- The preparation fills the slots. -/
theorem prepared_slots (cfg : Config) (plan : ReconcilePlan) (desired : DesiredState)
    (m : OuterMap) :
    Steps (Unfailed (SlotsDone desired m)) (preparation cfg plan desired) := by
  refine unfailed_seq _ _ (undisturbed_slots m _ (closeTcp_undisturbed plan _ nofun nofun))
    (fun _ => ?_) (left_slotsDone desired m)
  refine unfailed_seq _ _ (undisturbed_slots m _ (closeUdp_undisturbed plan _ nofun nofun))
    (fun _ => ?_) (left_slotsDone desired m)
  refine unfailed_seq _ _ (undisturbed_slots m _ (applySctpDelta_steps
      (undisturbed_stepwise (.outer m) false) plan (fun _ _ => ne_target rfl nofun)
      fun _ _ => ne_target rfl nofun)) (fun _ => ?_) (left_slotsDone desired m)
  refine unfailed_seq _ _ (undisturbed_slots m _ (applyTrustedDelta_steps
      (undisturbed_stepwise (.outer m) false) cfg plan (fun _ _ => ne_target rfl nofun)
      fun _ _ => ne_target rfl nofun)) (fun _ => ?_) (left_slotsDone desired m)
  have hlimits : Steps (Unfailed (SlotsDone desired m)) (applyLimits cfg plan false desired) := by
    refine unfailed_seq _ _ (undisturbed_slots m _ (applyTcpLimits_undisturbed cfg plan _ nofun))
      (fun _ => ?_) (left_slotsDone desired m)
    refine unfailed_seq _ _ (undisturbed_slots m _ (applyUdpLimits_undisturbed cfg plan _ nofun))
      (fun _ => ?_) (left_slotsDone desired m)
    have hprefixes : Steps (Undisturbed (.outer m)) (do
        ensurePolicyPrefixes .tcp desired false
        ensurePolicyPrefixes .udp desired false) :=
      steps_bind _ _ (ensurePolicyPrefixes_undisturbed desired _ .tcp nofun)
        fun _ => ensurePolicyPrefixes_undisturbed desired _ .udp nofun
    exact unfailed_seq _ _ (applyRateOuters_slots cfg desired m)
      (fun _ => undisturbed_slots m _ hprefixes) (slotsDone_left desired m)
  exact unfailed_seq _ _ hlimits
    (fun _ => undisturbed_slots m _
      (applyGlobals_undisturbed cfg plan desired _ nofun nofun nofun nofun))
    (slotsDone_left desired m)

/-! The property of one reconcile. -/

/-- The rate that the datapath reads for a port: `syn_rate_max` or `rate_max`. -/
def kernelRate (m : Maps) : Proto → U32 → U32
  | .tcp, port => ((m.tcpPortPolicies.lookup port).map fun bs => (tcpPolicyOfBytes bs).synRateMax).getD 0
  | .udp, port => ((m.udpPortPolicies.lookup port).map fun bs => (udpPolicyOfBytes bs).rateMax).getD 0

/-- The rate that is desired for a port; none is zero. -/
def desiredRate (desired : DesiredState) (p : Proto) (port : U32) : U32 :=
  ((desired.rates p).lookup port).getD 0

/-- A port array, the policies and the inner maps are cached as the kernel holds them. -/
structure CachesMatch (d : Daemon) : Prop where
  ports : ∀ (p : Proto) port, port ∈ d.portCache p.portMap ↔ d.maps.whitelist p port ≠ 0
  policies : ∀ p, PolicyCached d p
  slots : ∀ m, OuterCached d m

/-- Every open port with a rate has its two inner maps, and no other port keeps one. -/
structure RatesArmed (desired : DesiredState) (m : Maps) : Prop where
  armed : ∀ p port, m.whitelist p port ≠ 0 → kernelRate m p port ≠ 0 →
    ∀ o : OuterMap, o.proto = p → (m.rateOuter o port).isSome = true
  cleared : ∀ (o : OuterMap) port, desiredRate desired o.proto port = 0 →
    (m.rateOuter o port).isSome = false

/-- The entries are for the ports with a rate, as `resolve_desired_state` makes them. -/
structure DesiredState.EntriesMatch (desired : DesiredState) : Prop where
  listed : ∀ p, ∀ port ∈ desired.ports p, desiredRate desired p port ≠ 0 →
    port ∈ desired.rateMapEntries p
  limited : ∀ p, ∀ port ∈ desired.rateMapEntries p, desiredRate desired p port ≠ 0

theorem kernelRate_cached (d : Daemon) (p : Proto) (port : U32) (h : PolicyCached d p) :
    kernelRate d.maps p port = cachedRate d p port := by
  have hword (fields : PolicyFields) : wordAt ((packFields fields).take (policyValueSize p)) 0 =
      fields 0 := by
    rw [wordAt_take _ _ _ (by cases p <;> decide)]
    have hpacked := wordAt_packWords (List.ofFn fields) [] 0 (by simp)
    rw [List.append_nil, Nat.mul_zero, List.getElem_ofFn] at hpacked
    exact hpacked
  have hentry := h port
  cases p with
  | tcp =>
    change (d.maps.portPolicies .tcp).lookup port = _ at hentry
    simp only [Maps.portPolicies] at hentry
    rw [kernelRate, hentry, cachedRate]
    cases (d.policyCache .tcp).lookup port with
    | none => rfl
    | some fields => exact hword fields
  | udp =>
    simp only [Maps.portPolicies] at hentry
    rw [kernelRate, hentry, cachedRate]
    cases (d.policyCache .udp).lookup port with
    | none => rfl
    | some fields => exact hword fields

/-- What a reconcile without counted failures leaves. -/
structure RatesApplied (desired : DesiredState) (m : Maps) : Prop where
  ports : ∀ p port, m.whitelist p port ≠ 0 ↔ port ∈ desired.ports p
  rates : ∀ p port, kernelRate m p port = desiredRate desired p port
  slots : ∀ (o : OuterMap) port,
    (m.rateOuter o port).isSome = true ↔ port ∈ desired.rateMapEntries o.proto

theorem exposed_ports (plan : ReconcilePlan) (p : Proto) :
    Steps (Unfailed fun d d' => ∀ port, d'.maps.portMap p.portMap port =
        if port ∈ plan.portsToAdd p then 1 else d.maps.portMap p.portMap port)
      (expose plan false) := by
  have htcp := setPorts_unfailed .tcp plan.tcpPortsToAdd 1
  have hudp := setPorts_unfailed .udp plan.udpPortsToAdd 1
  have hother (m : PortMap) (t : KernelMap) (ports : List U32) (ht : .port m ≠ t) :
      Steps (Undisturbed t) (setPorts m ports 1 false) :=
    setPorts_steps (undisturbed_stepwise t false) m ports 1 fun _ _ => ne_target rfl ht
  cases p with
  | tcp =>
    refine unfailed_seq _ _ htcp (fun _ => hother .udp (.port .tcp) _ nofun) ?_
    intro d e f h hkept port
    have hmap : f.maps.portMap Proto.tcp.portMap = e.maps.portMap Proto.tcp.portMap := hkept.2.1
    rw [hmap]
    exact h port
  | udp =>
    refine unfailed_seq _ _ (hother .tcp (.port .udp) _ nofun) (fun _ => hudp) ?_
    intro d e f hkept h port
    have hmap : e.maps.portMap Proto.udp.portMap = d.maps.portMap Proto.udp.portMap := hkept.2.1
    rw [← hmap]
    exact h port

section Reconcile

variable (cfg : Config) (desired : DesiredState) (d : Daemon)

/-- The deltas of the plan, from the caches. -/
theorem planned_deltas (p : Proto) (hopen : d.opened (.policy p) = true) :
    (plannedAt cfg desired d).1.portsToAdd p = setDiff (desired.ports p) (d.portCache p.portMap) ∧
    (plannedAt cfg desired d).1.portsToRemove p =
      setDiff (d.portCache p.portMap) (desired.ports p) ∧
    (plannedAt cfg desired d).1.rateUpserts p =
      dictUpserts (desired.rates p) (BpfPortPolicyViewMap.active d ⟨p, 0⟩) ∧
    (plannedAt cfg desired d).1.rateRemovals p =
      dictRemovals (desired.rates p) (BpfPortPolicyViewMap.active d ⟨p, 0⟩) := by
  obtain ⟨bogon, dropEvents, rate, runtime, happlied⟩ := appliedAt_run d
  have hactive : activeLimits d p 0 = BpfPortPolicyViewMap.active d ⟨p, 0⟩ := if_pos hopen
  rw [plannedAt_run, happlied, ← hactive]
  cases p <;> exact ⟨rfl, rfl, rfl, rfl⟩

/-- A reconcile that counted no failure read the state, prepared and exposed. -/
theorem reconcile_unfailed (hzero : (reconcile cfg desired false d).2.lastApplyFailures = 0) :
    ∃ start prepared, Moves (Within fun _ => False) d start ∧
      prepared = (preparation cfg (plannedAt cfg desired d).1 desired start).2 ∧
      prepared.lastApplyFailures = 0 ∧
      (reconcile cfg desired false d).2 =
        (expose (plannedAt cfg desired d).1 false prepared).2 := by
  have hreads : Moves (Within fun _ => False) d (plannedAt cfg desired d).2 :=
    planned_stage cfg desired d
  have hrun := reconcile_run cfg desired d
  rw [applyReconcilePlan_run, prepare_preparation] at hrun
  generalize plannedAt cfg desired d = planned at hreads hrun ⊢
  have hreset : Moves (Within fun _ => False) d { planned.2 with lastApplyFailures := 0 } :=
    hreads.trans (moves_step (.counter planned.2 0))
  refine ⟨_, _, hreset, rfl, ?_⟩
  generalize (preparation cfg planned.1 desired { planned.2 with lastApplyFailures := 0 }).2 =
    prepared at hrun ⊢
  by_cases hcounted : prepared.lastApplyFailures = 0
  · rw [if_pos hcounted] at hrun
    exact ⟨hcounted, hrun⟩
  · rw [hrun, if_neg hcounted] at hzero
    exact absurd hzero hcounted

section Settled

variable {cfg desired d} {start prepared final : Daemon}
  (hreads : Moves (Within fun _ => False) d start)
  (hbody : prepared = (preparation cfg (plannedAt cfg desired d).1 desired start).2)
  (hcounted : prepared.lastApplyFailures = 0)
  (hlast : final = (expose (plannedAt cfg desired d).1 false prepared).2)
  (hzero : final.lastApplyFailures = 0)

include hreads hbody hcounted hlast hzero

theorem settled_ports (p : Proto) (hpolicy : d.opened (.policy p) = true)
    (hcache : ∀ port, port ∈ d.portCache p.portMap ↔ d.maps.whitelist p port ≠ 0) (port : U32) :
    final.maps.whitelist p port ≠ 0 ↔ port ∈ desired.ports p := by
  obtain ⟨hadd, hremove, -, -⟩ := planned_deltas cfg desired d p hpolicy
  have hexposed := (exposed_ports (plannedAt cfg desired d).1 p prepared (hlast ▸ hzero)).2 port
  have hclosed := (prepared_ports cfg (plannedAt cfg desired d).1 desired p start
    (hbody ▸ hcounted)).2 port
  have hstart := (stage_kept (.port p.portMap) (fun h => h) hreads).1
  rw [← hbody, hstart] at hclosed
  have hwas := hcache port
  rw [whitelist_eq_portMap] at hwas
  rw [whitelist_eq_portMap, hlast, hexposed, hclosed, hadd, hremove]
  simp only [mem_setDiff, hwas]
  by_cases hport : port ∈ desired.ports p
  · by_cases hopen : d.maps.portMap p.portMap port = 0
    · simp [hport, hopen]
    · have hopen' : ¬d.maps.portMap p.portMap port = 0#32 := hopen
      simp [hport, hopen']
  · simp [hport]

theorem settled_rates (p : Proto) (hpolicy : d.opened (.policy p) = true)
    (hcache : PolicyCached d p) (port : U32) :
    kernelRate final.maps p port = desiredRate desired p port := by
  obtain ⟨-, -, hupserts, hremovals⟩ := planned_deltas cfg desired d p hpolicy
  have hnodup : (((plannedAt cfg desired d).1.rateUpserts p).map Prod.fst).Nodup := by
    rw [hupserts]
    exact dictUpserts_nodup _ _
  have hexposed := (undisturbed_rates p _ (expose_undisturbed (plannedAt cfg desired d).1 _
    nofun nofun) prepared (hlast ▸ hzero)).2.2
  rw [← hlast] at hexposed
  have hopen : start.opened (.policy p) = true := by
    rw [moves_opened hreads]
    exact hpolicy
  have hset := (prepared_rates cfg (plannedAt cfg desired d).1 desired p hnodup start
    (hbody ▸ hcounted)).2.2 hopen
  rw [← hbody, hupserts, hremovals] at hset
  have hreading : RatesKept p d start :=
    ratesKept_of_kept p d start (stage_kept (.policy p) (fun h => h) hreads)
  have hcached := hexposed.1 (hset.cached (hreading.1 hcache))
  rw [kernelRate_cached final p port hcached, hexposed.2 port]
  exact ratesSet_desired p (desired.rates p) d start prepared hreading.2 hset port

theorem settled_slots (m : OuterMap) (houter : d.opened (.rateOuter m) = true)
    (hcache : OuterCached d m) (port : U32) :
    (final.maps.rateOuter m port).isSome = true ↔ port ∈ desired.rateMapEntries m.proto := by
  have hexposed := (undisturbed_slots m _ (expose_undisturbed (plannedAt cfg desired d).1 _
    nofun nofun) prepared (hlast ▸ hzero)).2.2
  rw [← hlast] at hexposed
  have hopen : start.opened (.rateOuter m) = true := by
    rw [moves_opened hreads]
    exact houter
  have hset := (prepared_slots cfg (plannedAt cfg desired d).1 desired m start
    (hbody ▸ hcounted)).2.2 hopen
  rw [← hbody] at hset
  have hreading : OuterCached start m := by
    obtain ⟨hmap, hcached⟩ := stage_kept (.outer m) (fun h => h) hreads
    intro q
    rw [hmap, hcached]
    exact hcache q
  have hcached := hexposed.1 (hset.1 hreading)
  exact (hcached port).trans ((hexposed.2 port).trans (hset.2 port))

end Settled

theorem reconcile_rates (hmatch : CachesMatch d) (hpolicy : ∀ p, d.opened (.policy p) = true)
    (houter : ∀ m, d.opened (.rateOuter m) = true)
    (hzero : (reconcile cfg desired false d).2.lastApplyFailures = 0) :
    RatesApplied desired (reconcile cfg desired false d).2.maps := by
  obtain ⟨start, prepared, hreads, hbody, hcounted, hlast⟩ := reconcile_unfailed cfg desired d hzero
  constructor
  · intro p
    exact settled_ports hreads hbody hcounted hlast hzero p (hpolicy p) (hmatch.ports p)
  · intro p
    exact settled_rates hreads hbody hcounted hlast hzero p (hpolicy p) (hmatch.policies p)
  · intro m
    exact settled_slots hreads hbody hcounted hlast hzero m (houter m) (hmatch.slots m)

theorem armed_of_entriesMatch (hmatch : CachesMatch d)
    (hpolicy : ∀ p, d.opened (.policy p) = true) (houter : ∀ m, d.opened (.rateOuter m) = true)
    (hzero : (reconcile cfg desired false d).2.lastApplyFailures = 0)
    (hentries : desired.EntriesMatch) :
    RatesArmed desired (reconcile cfg desired false d).2.maps := by
  obtain ⟨hports, hrates, hslots⟩ := reconcile_rates cfg desired d hmatch hpolicy houter hzero
  obtain ⟨hlisted, hlimited⟩ := hentries
  constructor
  · rintro _ port hport hrate o rfl
    rw [hrates] at hrate
    exact (hslots o port).mpr (hlisted o.proto port ((hports o.proto port).mp hport) hrate)
  · intro o port hnone
    rw [← Bool.not_eq_true, hslots]
    exact fun hentry => hlimited o.proto port hentry hnone

/-- After a reconcile without counted failures every rate is armed, exactly when the
desired entries are for the ports with a rate. -/
theorem rates_armed (hmatch : CachesMatch d) (hpolicy : ∀ p, d.opened (.policy p) = true)
    (houter : ∀ m, d.opened (.rateOuter m) = true)
    (hzero : (reconcile cfg desired false d).2.lastApplyFailures = 0) :
    RatesArmed desired (reconcile cfg desired false d).2.maps ↔ desired.EntriesMatch := by
  obtain ⟨hports, hrates, hslots⟩ := reconcile_rates cfg desired d hmatch hpolicy houter hzero
  have houterOf (p : Proto) : ∃ o : OuterMap, o.proto = p := by
    cases p with
    | tcp => exact ⟨.syn4, rfl⟩
    | udp => exact ⟨.udprt4, rfl⟩
  constructor
  · rintro ⟨harmed, hcleared⟩
    constructor
    · intro p port hport hrate
      obtain ⟨o, rfl⟩ := houterOf p
      rw [← hslots o port]
      exact harmed o.proto port ((hports o.proto port).mpr hport) (by rwa [hrates]) o rfl
    · intro p port hentry hnone
      obtain ⟨o, rfl⟩ := houterOf p
      have hfree := hcleared o port hnone
      rw [(hslots o port).mpr hentry] at hfree
      exact Bool.false_ne_true hfree.symm
  · exact armed_of_entriesMatch cfg desired d hmatch hpolicy houter hzero

end Reconcile

theorem fresh_cachesMatch : CachesMatch {} := by
  constructor
  · intro p port
    cases p <;> exact iff_of_false List.not_mem_nil fun h => h rfl
  · intro p port
    cases p <;> rfl
  · intro m port
    cases m <;> exact iff_of_false Bool.false_ne_true (AList.notMem_empty port)

/-- Port 80 with a SYN rate of 5 and room for 64 sources. -/
def listedRate : DesiredState :=
  { tcpPorts := [80], tcpSynRateLimits := (∅ : BpfMap U32 U32).insert 80 5
    tcpRateMapEntries := (∅ : BpfMap U32 U32).insert 80 64 }

theorem rates_armed_listed :
    RatesArmed listedRate (reconcile {} listedRate false {}).2.maps := by
  apply (rates_armed {} listedRate {} fresh_cachesMatch (fun _ => rfl) (fun _ => rfl)
    (by decide +kernel)).mpr
  constructor
  · intro p port hport hrate
    cases p with
    | tcp =>
      obtain rfl := List.mem_singleton.mp hport
      exact (AList.mem_insert _).mpr (Or.inl rfl)
    | udp => exact absurd hport List.not_mem_nil
  · intro p port hport
    cases p with
    | tcp =>
      rcases (AList.mem_insert _).mp hport with rfl | hport
      · decide
      · exact absurd hport (AList.notMem_empty port)
    | udp => exact absurd hport (AList.notMem_empty port)

/-- The same rate without an entry: the port opens with no inner map. -/
theorem unlisted_rate :
    ¬∀ (cfg : Config) (desired : DesiredState) (d : Daemon), CachesMatch d →
      (∀ p, d.opened (.policy p) = true) → (∀ m, d.opened (.rateOuter m) = true) →
      (reconcile cfg desired false d).2.lastApplyFailures = 0 →
      RatesArmed desired (reconcile cfg desired false d).2.maps := by
  intro h
  have hall := h {} { listedRate with tcpRateMapEntries := ∅ } {} fresh_cachesMatch (fun _ => rfl)
    (fun _ => rfl) (by decide +kernel)
  have h80 := hall.armed .tcp 80 (by decide +kernel) (by decide +kernel) .syn4 rfl
  exact absurd h80 (by decide +kernel)

end AutoXdp
