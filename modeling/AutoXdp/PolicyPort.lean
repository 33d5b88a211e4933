import AutoXdp.RateLink
import Mathlib.Data.List.Lookmap
import Mathlib.Tactic.Basic

/-! One port of a policy map: what the cache and the kernel hold for it, and what the
five limits of TCP or the two of UDP make of both when they are written one at a time. -/
namespace AutoXdp
open StateSteps XdpBackend WordBytes

/-- What the cache and the kernel hold for one port. -/
@[ext] structure PortEntry where
  cached : Option PolicyFields
  stored : Option (List U8)

namespace PortEntry

/-- The entry after a tuple was written. -/
def written (p : Proto) (fields : PolicyFields) : PortEntry :=
  ⟨some fields, some ((packFields fields).take (policyValueSize p))⟩

def erased : PortEntry := ⟨none, none⟩

/-- `BpfPortPolicyViewMap.store` on this port. -/
def store (p : Proto) (fields : PolicyFields) : PortEntry :=
  if BpfPortPolicyViewMap.firstThreeZero fields then erased else written p fields

/-- `BpfPortPolicyViewMap.set` on this port. -/
def set (cfg : Config) (view : PolicyView) (rateMax : U32) (e : PortEntry) : PortEntry :=
  store view.proto (Function.update (e.cached.getD (BpfPortPolicyViewMap.defaultFields cfg))
    view.index rateMax)

/-- `BpfPortPolicyViewMap.delete` on this port. -/
def delete (view : PolicyView) (e : PortEntry) : PortEntry :=
  match e.cached with
  | none => erased
  | some current => store view.proto (Function.update current view.index 0)

/-- A delta with at most one write and then at most one removal. -/
def delta (cfg : Config) (view : PolicyView) (upsert : Option U32) (removed : Bool)
    (e : PortEntry) : PortEntry :=
  let e' := upsert.elim e fun rateMax => set cfg view rateMax e
  if removed then delete view e' else e'

/-- The kernel holds what the cache holds. -/
def Synced (p : Proto) (e : PortEntry) : Prop :=
  e.stored = e.cached.map fun fields => (packFields fields).take (policyValueSize p)

end PortEntry

def portEntry (p : Proto) (port : U32) (d : Daemon) : PortEntry :=
  ⟨(d.policyCache p).lookup port, (d.maps.portPolicies p).lookup port⟩

/-- One port's entry changes, and no other. -/
def PortChange (p : Proto) (port : U32) (f : PortEntry → PortEntry) (d d' : Daemon) : Prop :=
  ∀ q, portEntry p q d' = if q = port then f (portEntry p q d) else portEntry p q d

/-! The calls. -/

theorem policyInsert_entry (p : Proto) (caller : Caller) (port : U32) (fields : PolicyFields)
    (d : Daemon) :
    PortChange p port (fun _ => .written p fields) d
      ((d.called caller (.updatePolicy p port (packFields fields)) true).setPolicyCache p
        ((d.policyCache p).insert port fields)) := by
  intro q
  simp only [portEntry, Daemon.called, Daemon.setPolicyCache, BpfOp.effect, ↓reduceIte,
    portPolicies_setPortPolicies, Function.update_self]
  by_cases hq : q = port
  · subst hq
    rw [AList.lookup_insert, AList.lookup_insert, if_pos rfl]
    rfl
  · rw [AList.lookup_insert_ne hq, AList.lookup_insert_ne hq, if_neg hq]

theorem policyErase_entry (p : Proto) (caller : Caller) (port : U32) (d : Daemon) :
    PortChange p port (fun _ => .erased) d
      ((d.called caller (.deletePolicy p port) true).setPolicyCache p
        ((d.policyCache p).erase port)) := by
  intro q
  simp only [portEntry, Daemon.called, Daemon.setPolicyCache, BpfOp.effect, ↓reduceIte,
    portPolicies_setPortPolicies, Function.update_self]
  by_cases hq : q = port
  · subst hq
    rw [AList.lookup_erase, AList.lookup_erase, if_pos rfl]
    rfl
  · rw [AList.lookup_erase_ne hq, AList.lookup_erase_ne hq, if_neg hq]

theorem policyDelete_entry (p : Proto) (port : U32) :
    Steps (Unfailed (PortChange p port fun _ => .erased))
      (ok (BpfPortPolicyMap.delete p port false)) := by
  refine unfailed_mono _ (unfailed_call _ _ fun _ => rfl) ?_
  rintro d _ rfl
  exact policyErase_entry p .ok port d

theorem viewStore_entry (view : PolicyView) (port : U32) (fields : PolicyFields) :
    Steps (Unfailed (PortChange view.proto port fun _ => .store view.proto fields))
      (ok (BpfPortPolicyViewMap.store view port fields false)) := by
  unfold BpfPortPolicyViewMap.store PortEntry.store
  by_cases hzero : BpfPortPolicyViewMap.firstThreeZero fields = true
  · simp only [if_pos hzero]
    exact policyDelete_entry view.proto port
  · simp only [if_neg hzero]
    refine unfailed_mono _ (unfailed_call _ _ fun _ => rfl) ?_
    rintro d _ rfl
    exact policyInsert_entry view.proto .ok port fields d

theorem portChange_congr {p : Proto} {port : U32} {f g : PortEntry → PortEntry} {d d' : Daemon}
    (h : PortChange p port f d d') (hfg : f (portEntry p port d) = g (portEntry p port d)) :
    PortChange p port g d d' := by
  intro q
  rw [h q]
  by_cases hq : q = port
  · rw [if_pos hq, if_pos hq, hq, hfg]
  · rw [if_neg hq, if_neg hq]

theorem viewSet_entry (cfg : Config) (view : PolicyView) (port rateMax : U32) :
    Steps (Unfailed (PortChange view.proto port (.set cfg view rateMax)))
      (ok (BpfPortPolicyViewMap.set cfg view port rateMax false)) := by
  intro d hzero
  obtain ⟨hstart, hentry⟩ := viewStore_entry view port (Function.update
    (((d.policyCache view.proto).lookup port).getD (BpfPortPolicyViewMap.defaultFields cfg))
    view.index rateMax) d hzero
  exact ⟨hstart, portChange_congr hentry rfl⟩

theorem viewDelete_entry (view : PolicyView) (port : U32) :
    Steps (Unfailed (PortChange view.proto port (.delete view)))
      (ok (BpfPortPolicyViewMap.delete view port false)) := by
  intro d
  cases hl : (d.policyCache view.proto).lookup port with
  | none =>
    have hrun : ok (BpfPortPolicyViewMap.delete view port false) d =
        ok (BpfPortPolicyMap.delete view.proto port false) d := by
      apply ok_congr
      simp only [BpfPortPolicyViewMap.delete, run_get_bind, hl]
    rw [hrun]
    intro hzero
    obtain ⟨hstart, hentry⟩ := policyDelete_entry view.proto port d hzero
    refine ⟨hstart, portChange_congr hentry ?_⟩
    simp only [PortEntry.delete, portEntry, hl]
  | some current =>
    have hrun : ok (BpfPortPolicyViewMap.delete view port false) d =
        ok (BpfPortPolicyViewMap.store view port (Function.update current view.index 0) false) d := by
      apply ok_congr
      simp only [BpfPortPolicyViewMap.delete, run_get_bind, hl]
    rw [hrun]
    intro hzero
    obtain ⟨hstart, hentry⟩ :=
      viewStore_entry view port (Function.update current view.index 0) d hzero
    refine ⟨hstart, portChange_congr hentry ?_⟩
    simp only [PortEntry.delete, portEntry, hl]

/-! One delta. -/

/-- The writes and removals of one view, on every port. -/
def DeltaApplied (cfg : Config) (view : PolicyView) (upserts : List (U32 × U32))
    (removals : List U32) (d d' : Daemon) : Prop :=
  ∀ q, portEntry view.proto q d' =
    .delta cfg view (upserts.lookup q) (decide (q ∈ removals)) (portEntry view.proto q d)

theorem lookup_none_of_notMem {upserts : List (U32 × U32)} {q : U32}
    (h : q ∉ upserts.map Prod.fst) : upserts.lookup q = none := by
  induction upserts with
  | nil => rfl
  | cons x xs ih =>
    rw [List.map_cons, List.mem_cons, not_or] at h
    rw [List.lookup_cons, beq_eq_false_iff_ne.mpr h.1]
    exact ih h.2

theorem applyRateMapDelta_entry (cfg : Config) (view : PolicyView) (upserts : List (U32 × U32))
    (removals : List U32) (hnodup : (upserts.map Prod.fst).Nodup) (hremovals : removals.Nodup)
    (d : Daemon) (hopen : d.opened (.policy view.proto) = true) :
    Unfailed (DeltaApplied cfg view upserts removals) d
      (applyRateMapDelta cfg view upserts removals false d).2 := by
  have hupsert := unfailed_forM
    (P := fun upserts d d' => (upserts.map Prod.fst).Nodup →
      DeltaApplied cfg view upserts [] d d')
    (Q := fun e => PortChange view.proto e.1 (.set cfg view e.2))
    (fun e : U32 × U32 => discard (ok (BpfPortPolicyViewMap.set cfg view e.1 e.2 false)))
    (fun e => viewSet_entry cfg view e.1 e.2)
    (fun d _ q => rfl) (by
      intro x xs d e f hx hxs hnodup q
      rw [List.map_cons, List.nodup_cons] at hnodup
      rw [hxs hnodup.2 q, hx q]
      by_cases hq : q = x.1
      · subst hq
        rw [lookup_none_of_notMem hnodup.1, if_pos rfl, List.lookup_cons, beq_self_eq_true]
        rfl
      · rw [if_neg hq, List.lookup_cons, beq_eq_false_iff_ne.mpr hq]) upserts
  have hremove := unfailed_forM
    (P := fun removals d d' => removals.Nodup → DeltaApplied cfg view [] removals d d')
    (Q := fun port => PortChange view.proto port (.delete view))
    (fun port : U32 => discard (ok (BpfPortPolicyViewMap.delete view port false)))
    (fun port => viewDelete_entry view port)
    (fun d _ q => rfl) (by
      intro x xs d e f hx hxs hnodup q
      rw [List.nodup_cons] at hnodup
      rw [hxs hnodup.2 q, hx q]
      by_cases hq : q = x
      · subst hq
        rw [decide_eq_false hnodup.1, if_pos rfl, decide_eq_true (List.mem_cons_self ..)]
        rfl
      · have hmem : decide (q ∈ x :: xs) = decide (q ∈ xs) := by
          simp only [List.mem_cons, hq, false_or]
        rw [if_neg hq, hmem]) removals
  have hboth := unfailed_seq (G := DeltaApplied cfg view upserts removals) _ _ hupsert
    (fun _ => hremove) (by
      intro d e f hset hrem q
      rw [hrem hremovals q, hset hnodup q]
      rfl)
  unfold applyRateMapDelta
  rw [run_get_bind, run_ite, if_pos hopen]
  exact hboth d

/-! The deltas of a plan. -/

namespace ReconcilePlan

/-- The words of the limits, each with its writes and removals, in the order they are
applied. -/
def limitDeltas (plan : ReconcilePlan) : Proto → List (Fin 8 × List (U32 × U32) × List U32)
  | .tcp => [(0, plan.tcpSynRateLimitsToUpsert, plan.tcpSynRateLimitsToRemove),
      (1, plan.tcpSynAggRateLimitsToUpsert, plan.tcpSynAggRateLimitsToRemove),
      (2, plan.tcpConnLimitsToUpsert, plan.tcpConnLimitsToRemove),
      (5, plan.tcpConnPrefixLimitsToUpsert, plan.tcpConnPrefixLimitsToRemove),
      (6, plan.tcpConnPortLimitsToUpsert, plan.tcpConnPortLimitsToRemove)]
  | .udp => [(0, plan.udpRateLimitsToUpsert, plan.udpRateLimitsToRemove),
      (1, plan.udpAggRateLimitsToUpsert, plan.udpAggRateLimitsToRemove)]

end ReconcilePlan

namespace PortEntry

/-- The entry of `q` after a row of deltas. -/
def deltas (cfg : Config) (p : Proto) (q : U32)
    (ds : List (Fin 8 × List (U32 × U32) × List U32)) (e : PortEntry) : PortEntry :=
  ds.foldl (fun e x => delta cfg ⟨p, x.1⟩ (x.2.1.lookup q) (decide (q ∈ x.2.2)) e) e

end PortEntry

/-- The entries are as before. -/
def EntriesLeft (p : Proto) (d d' : Daemon) : Prop :=
  d'.opened = d.opened ∧ ∀ q, portEntry p q d' = portEntry p q d

/-- The deltas are applied to every entry. -/
def EntriesDone (cfg : Config) (p : Proto) (ds : List (Fin 8 × List (U32 × U32) × List U32))
    (d d' : Daemon) : Prop :=
  d'.opened = d.opened ∧ (d.opened (.policy p) = true →
    ∀ q, portEntry p q d' = .deltas cfg p q ds (portEntry p q d))

theorem undisturbed_entries {α : Type} (p : Proto) (m : DaemonM α)
    (hm : Steps (Undisturbed (.policy p)) m) : Steps (Unfailed (EntriesLeft p)) m := by
  refine unfailed_mono m hm ?_
  rintro d d' ⟨hopen, hmap, hcache⟩
  refine ⟨hopen, fun q => ?_⟩
  simp only [portEntry, hmap, hcache]

section Deltas

variable (cfg : Config) (p : Proto) (ds : List (Fin 8 × List (U32 × U32) × List U32))

theorem entriesDone_left (d e f : Daemon) (h : EntriesDone cfg p ds d e) (h' : EntriesLeft p e f) :
    EntriesDone cfg p ds d f :=
  ⟨h'.1.trans h.1, fun hopen q => (h'.2 q).trans (h.2 hopen q)⟩

theorem left_entriesDone (d e f : Daemon) (h : EntriesLeft p d e) (h' : EntriesDone cfg p ds e f) :
    EntriesDone cfg p ds d f := by
  refine ⟨h'.1.trans h.1, fun hopen q => ?_⟩
  rw [h'.2 (by rw [h.1]; exact hopen) q, h.2 q]

/-- The keys of each delta are distinct. -/
def DistinctKeys : Prop := ∀ x ∈ ds, (x.2.1.map Prod.fst).Nodup ∧ x.2.2.Nodup

theorem applyDeltas_entries (hkeys : DistinctKeys ds) :
    Steps (Unfailed (EntriesDone cfg p ds))
      (ds.forM fun x => applyRateMapDelta cfg ⟨p, x.1⟩ x.2.1 x.2.2 false) := by
  have hone (x : Fin 8 × List (U32 × U32) × List U32) :
      Steps (Unfailed fun d d' => (x.2.1.map Prod.fst).Nodup ∧ x.2.2.Nodup →
        EntriesDone cfg p [x] d d') (applyRateMapDelta cfg ⟨p, x.1⟩ x.2.1 x.2.2 false) := by
    have htouch := applyRateMapDelta_steps (touches_stepwise (S := Set.univ) false) cfg ⟨p, x.1⟩
      x.2.1 x.2.2 (fun _ _ => Set.mem_univ _) fun _ => Set.mem_univ _
    intro d hzero
    constructor
    · obtain ⟨new, -, -, hfail⟩ := (htouch d).calls
      rw [hzero] at hfail
      exact (Nat.add_eq_zero_iff.mp hfail.symm).1
    · rintro ⟨hup, hrem⟩
      exact ⟨(htouch d).opened, fun hopen =>
        (applyRateMapDelta_entry cfg ⟨p, x.1⟩ x.2.1 x.2.2 hup hrem d hopen hzero).2⟩
  have hloop := unfailed_forM (P := fun ds d d' => DistinctKeys ds → EntriesDone cfg p ds d d')
    _ hone (fun d _ => ⟨rfl, fun _ _ => rfl⟩) (by
      intro x xs d e f hx hxs hkeys
      have hfirst := hx (hkeys x (List.mem_cons_self ..))
      have hrest := hxs fun y hy => hkeys y (List.mem_cons_of_mem x hy)
      refine ⟨hrest.1.trans hfirst.1, fun hopen q => ?_⟩
      rw [hrest.2 (by rw [hfirst.1]; exact hopen) q, hfirst.2 hopen q]
      rfl) ds
  exact unfailed_mono _ hloop fun d d' h => h hkeys

end Deltas

theorem applyTcpLimits_forM (cfg : Config) (plan : ReconcilePlan) :
    applyTcpLimits cfg plan false = (plan.limitDeltas .tcp).forM fun x =>
      applyRateMapDelta cfg ⟨.tcp, x.1⟩ x.2.1 x.2.2 false := rfl

theorem applyUdpLimits_forM (cfg : Config) (plan : ReconcilePlan) :
    applyUdpLimits cfg plan false = (plan.limitDeltas .udp).forM fun x =>
      applyRateMapDelta cfg ⟨.udp, x.1⟩ x.2.1 x.2.2 false := rfl

/-! `ensure_prefixes`. -/

/-- The entry is as before, or its tuple has these prefixes now; only listed ports are
written. -/
def Reprefixed (p : Proto) (ports : List U32) (prefixV4 prefixV6 : U32) (d d' : Daemon) : Prop :=
  ∀ q, portEntry p q d' = portEntry p q d ∨
    (q ∈ ports ∧ ∃ current, (portEntry p q d).cached = some current ∧
      portEntry p q d' = .written p (BpfPortPolicyMap.withPrefixes prefixV4 prefixV6 current))

section Prefixes

variable (p : Proto) (ports : List U32) (prefixV4 prefixV6 : U32)

theorem withPrefixes_twice (fields : PolicyFields) :
    BpfPortPolicyMap.withPrefixes prefixV4 prefixV6
        (BpfPortPolicyMap.withPrefixes prefixV4 prefixV6 fields) =
      BpfPortPolicyMap.withPrefixes prefixV4 prefixV6 fields := by
  funext j
  simp only [BpfPortPolicyMap.withPrefixes, Function.update_apply]
  split_ifs <;> rfl

instance : IsPreorder Daemon (Reprefixed p ports prefixV4 prefixV6) where
  refl _ _ := Or.inl rfl
  trans d e f h h' q := by
    rcases h' q with hsame | ⟨hq, current, hcurrent, hwritten⟩
    · rw [hsame]
      exact h q
    · right
      rcases h q with hsame' | ⟨-, first, hfirst, hwritten'⟩
      · exact ⟨hq, current, by rw [← hsame']; exact hcurrent, hwritten⟩
      · rw [hwritten'] at hcurrent
        obtain rfl := Option.some.inj hcurrent
        rw [withPrefixes_twice] at hwritten
        exact ⟨hq, first, hfirst, hwritten⟩

theorem ensurePrefix_entries (port : U32) (hport : port ∈ ports) :
    Steps (Reprefixed p ports prefixV4 prefixV6)
      (BpfPortPolicyMap.ensurePrefix p prefixV4 prefixV6 false port) := by
  intro d
  cases hl : (d.policyCache p).lookup port with
  | none =>
    have hrun : (BpfPortPolicyMap.ensurePrefix p prefixV4 prefixV6 false port d).2 = d := by
      simp only [BpfPortPolicyMap.ensurePrefix, run_get_bind, hl]
      rfl
    rw [hrun]
    exact fun _ => Or.inl rfl
  | some current =>
    set fields := BpfPortPolicyMap.withPrefixes prefixV4 prefixV6 current with hfields
    by_cases hchange : fields ≠ current
    · have hrun : (BpfPortPolicyMap.ensurePrefix p prefixV4 prefixV6 false port d).2 =
          (BpfPortPolicyMap.setFields p .ensurePrefixes port fields false d).2 := by
        simp only [BpfPortPolicyMap.ensurePrefix, run_get_bind, hl, ← hfields]
        rw [if_pos hchange]
        rfl
      rw [hrun, BpfPortPolicyMap.setFields]
      rcases cachedCall_cases false .ensurePrefixes (.updatePolicy p port (packFields fields))
        (fun d => d.setPolicyCache p ((d.policyCache p).insert port fields)) d with
        ⟨h, -⟩ | ⟨-, h⟩ | ⟨-, h⟩
      · exact absurd h Bool.false_ne_true
      · rw [h]
        intro q
        have hentry := policyInsert_entry p .ensurePrefixes port fields d q
        by_cases hq : q = port
        · subst hq
          rw [if_pos rfl] at hentry
          exact Or.inr ⟨hport, current, hl, hentry⟩
        · rw [if_neg hq] at hentry
          exact Or.inl hentry
      · rw [h]
        exact fun _ => Or.inl rfl
    · have hrun : (BpfPortPolicyMap.ensurePrefix p prefixV4 prefixV6 false port d).2 = d := by
        simp only [BpfPortPolicyMap.ensurePrefix, run_get_bind, hl, ← hfields]
        rw [if_neg hchange]
        rfl
      rw [hrun]
      exact fun _ => Or.inl rfl

theorem ensurePolicyPrefixes_entries (desired : DesiredState) :
    Steps (Reprefixed p (policyPorts desired p) desired.rateLimitSourcePrefixV4
      desired.rateLimitSourcePrefixV6) (ensurePolicyPrefixes p desired false) := by
  apply steps_get_all
  intro d
  apply steps_ite
  · intro _
    apply steps_forM
    intro port hport
    exact ensurePrefix_entries p _ _ _ port ((mem_sorted port _).mp hport)
  · exact fun _ => steps_pure _

end Prefixes

/-! The whole reconcile. -/

/-- The deltas are applied, and then at most the prefixes are written. -/
def EntriesSettled (cfg : Config) (plan : ReconcilePlan) (desired : DesiredState) (p : Proto)
    (d d' : Daemon) : Prop :=
  d'.opened = d.opened ∧ (d.opened (.policy p) = true →
    ∃ e, EntriesDone cfg p (plan.limitDeltas p) d e ∧
      Reprefixed p (policyPorts desired p) desired.rateLimitSourcePrefixV4
        desired.rateLimitSourcePrefixV6 e d')

section Settled

variable (cfg : Config) (plan : ReconcilePlan) (desired : DesiredState) (p : Proto)

theorem reprefixed_of_left {ports : List U32} {prefixV4 prefixV6 : U32} {d d' : Daemon}
    (h : EntriesLeft p d d') : Reprefixed p ports prefixV4 prefixV6 d d' :=
  fun q => Or.inl (h.2 q)

theorem entriesSettled_left (d e f : Daemon) (h : EntriesSettled cfg plan desired p d e)
    (h' : EntriesLeft p e f) : EntriesSettled cfg plan desired p d f := by
  refine ⟨h'.1.trans h.1, fun hopen => ?_⟩
  obtain ⟨g, hdone, hprefix⟩ := h.2 hopen
  exact ⟨g, hdone, trans_of (Reprefixed p _ _ _) hprefix (reprefixed_of_left p h')⟩

theorem left_entriesSettled (d e f : Daemon) (h : EntriesLeft p d e)
    (h' : EntriesSettled cfg plan desired p e f) : EntriesSettled cfg plan desired p d f := by
  refine ⟨h'.1.trans h.1, fun hopen => ?_⟩
  obtain ⟨g, hdone, hprefix⟩ := h'.2 (by rw [h.1]; exact hopen)
  exact ⟨g, left_entriesDone cfg p _ d e g h hdone, hprefix⟩

/-- The open maps are the same, and at most the prefixes are written. -/
def PrefixesLeft (desired : DesiredState) (p : Proto) (d d' : Daemon) : Prop :=
  d'.opened = d.opened ∧ Reprefixed p (policyPorts desired p) desired.rateLimitSourcePrefixV4
    desired.rateLimitSourcePrefixV6 d d'

theorem prefixesLeft_trans (d e f : Daemon) (h : PrefixesLeft desired p d e)
    (h' : PrefixesLeft desired p e f) : PrefixesLeft desired p d f :=
  ⟨h'.1.trans h.1, trans_of (Reprefixed p _ _ _) h.2 h'.2⟩

theorem ensurePolicyPrefixes_settled (q : Proto) :
    Steps (Unfailed (PrefixesLeft desired p)) (ensurePolicyPrefixes q desired false) := by
  by_cases hq : q = p
  · subst hq
    exact unfailed_of_touches _ (ensurePolicyPrefixes_steps (touches_stepwise (S := Set.univ) false)
      desired q fun _ _ => Set.mem_univ _) (ensurePolicyPrefixes_entries q desired)
  · refine unfailed_mono _ (undisturbed_entries p _ (ensurePolicyPrefixes_undisturbed desired _ q
      fun h => hq (KernelMap.policy.inj h))) ?_
    exact fun d d' h => ⟨h.1, reprefixed_of_left p h⟩

/-- What follows the deltas of the two protocols. -/
theorem limitsTail_settled :
    Steps (Unfailed (PrefixesLeft desired p)) (do
      applyRateOuters cfg desired false
      ensurePolicyPrefixes .tcp desired false
      ensurePolicyPrefixes .udp desired false) := by
  have houters : Steps (Unfailed (PrefixesLeft desired p)) (applyRateOuters cfg desired false) :=
    unfailed_mono _ (undisturbed_entries p _ (applyRateOuters_undisturbed cfg desired _ fun _ => nofun))
      fun d d' h => ⟨h.1, reprefixed_of_left p h⟩
  refine unfailed_seq _ _ houters (fun _ => ?_) (prefixesLeft_trans desired p)
  exact unfailed_seq _ _ (ensurePolicyPrefixes_settled desired p .tcp)
    (fun _ => ensurePolicyPrefixes_settled desired p .udp) (prefixesLeft_trans desired p)

theorem entriesDone_prefixes (d e f : Daemon)
    (h : EntriesDone cfg p (plan.limitDeltas p) d e) (h' : PrefixesLeft desired p e f) :
    EntriesSettled cfg plan desired p d f :=
  ⟨h'.1.trans h.1, fun _ => ⟨e, h, h'.2⟩⟩

theorem applyLimits_entries (hkeys : DistinctKeys (plan.limitDeltas p)) :
    Steps (Unfailed (EntriesSettled cfg plan desired p)) (applyLimits cfg plan false desired) := by
  have hdeltas := applyDeltas_entries cfg p (plan.limitDeltas p) hkeys
  have htail := limitsTail_settled cfg desired p
  cases p with
  | tcp =>
    rw [← applyTcpLimits_forM] at hdeltas
    have hboth := unfailed_seq _ _ hdeltas (fun _ => undisturbed_entries .tcp _
      (applyUdpLimits_undisturbed cfg plan _ nofun)) (entriesDone_left cfg .tcp _)
    have hall := unfailed_seq _ _ hboth (fun _ => htail) (entriesDone_prefixes cfg plan desired .tcp)
    intro d hzero
    exact hall d hzero
  | udp =>
    rw [← applyUdpLimits_forM] at hdeltas
    have hboth := unfailed_seq _ _ (undisturbed_entries .udp _
      (applyTcpLimits_undisturbed cfg plan _ nofun)) (fun _ => hdeltas) (left_entriesDone cfg .udp _)
    have hall := unfailed_seq _ _ hboth (fun _ => htail) (entriesDone_prefixes cfg plan desired .udp)
    intro d hzero
    exact hall d hzero

theorem prepared_entries (hkeys : DistinctKeys (plan.limitDeltas p)) :
    Steps (Unfailed (EntriesSettled cfg plan desired p)) (preparation cfg plan desired) := by
  have hleft := left_entriesSettled cfg plan desired p
  refine unfailed_seq _ _ (undisturbed_entries p _ (closeTcp_undisturbed plan _ nofun nofun))
    (fun _ => ?_) hleft
  refine unfailed_seq _ _ (undisturbed_entries p _ (closeUdp_undisturbed plan _ nofun nofun))
    (fun _ => ?_) hleft
  refine unfailed_seq _ _ (undisturbed_entries p _ (applySctpDelta_steps
      (undisturbed_stepwise (.policy p) false) plan (fun _ _ => ne_target rfl nofun)
      fun _ _ => ne_target rfl nofun)) (fun _ => ?_) hleft
  refine unfailed_seq _ _ (undisturbed_entries p _ (applyTrustedDelta_steps
      (undisturbed_stepwise (.policy p) false) cfg plan (fun _ _ => ne_target rfl nofun)
      fun _ _ => ne_target rfl nofun)) (fun _ => ?_) hleft
  exact unfailed_seq _ _ (applyLimits_entries cfg plan desired p hkeys)
    (fun _ => undisturbed_entries p _
      (applyGlobals_undisturbed cfg plan desired _ nofun nofun nofun nofun))
    (entriesSettled_left cfg plan desired p)

end Settled

/-! The planned deltas. -/

/-- The limit that the cache shows for a port; zero is not shown. -/
def shownLimit (d : Daemon) (view : PolicyView) (port : U32) : Option U32 :=
  (((d.policyCache view.proto).lookup port).map fun fields => fields view.index).filter (· ≠ 0)

theorem view_lookup (d : Daemon) (view : PolicyView) (port : U32) :
    (BpfPortPolicyViewMap.active d view).lookup port = shownLimit d view port := by
  set shown := ((d.policyCache view.proto).entries.map fun e =>
    (⟨e.1, e.2 view.index⟩ : Σ _ : U32, U32)).filter fun e => e.2 ≠ 0 with hshown
  have hnodup : shown.NodupKeys := by
    apply List.NodupKeys.sublist List.filter_sublist
    exact (d.policyCache view.proto).nodupKeys.map₂ (fun _ fields => fields view.index)
  have hlookup : (BpfPortPolicyViewMap.active d view).lookup port = shown.dlookup port :=
    AList.lookup_to_alist shown
  rw [hlookup]
  apply Option.ext
  intro limit
  rw [← Option.mem_def, ← Option.mem_def, List.mem_dlookup_iff hnodup, hshown, List.mem_filter,
    List.mem_map, decide_eq_true_eq, Option.mem_def, shownLimit, Option.filter_eq_some_iff,
    Option.map_eq_some_iff, decide_eq_true_eq]
  apply and_congr_left
  intro _
  constructor
  · rintro ⟨⟨q, fields⟩, he, hq⟩
    obtain ⟨rfl, hlimit⟩ := Sigma.mk.inj hq
    exact ⟨fields, AList.mem_lookup_iff.mpr he, eq_of_heq hlimit⟩
  · rintro ⟨fields, he, rfl⟩
    exact ⟨⟨port, fields⟩, AList.mem_lookup_iff.mp he, rfl⟩

namespace DesiredState

/-- The words of the limits with what is desired for them. -/
def limits (desired : DesiredState) : Proto → List (Fin 8 × BpfMap U32 U32)
  | .tcp => [(0, desired.tcpSynRateLimits), (1, desired.tcpSynAggRateLimits),
      (2, desired.tcpConnLimits), (5, desired.tcpConnPrefixLimits),
      (6, desired.tcpConnPortLimits)]
  | .udp => [(0, desired.udpRateLimits), (1, desired.udpAggRateLimits)]

end DesiredState

/-- The words of a policy that are limits. -/
def limitWords : Proto → List (Fin 8)
  | .tcp => [0, 1, 2, 5, 6]
  | .udp => [0, 1]

theorem limits_words (desired : DesiredState) (p : Proto) :
    (desired.limits p).map Prod.fst = limitWords p := by
  cases p <;> rfl

theorem mem_policyPorts (desired : DesiredState) (p : Proto) (q : U32) :
    q ∈ policyPorts desired p ↔ ∃ x ∈ desired.limits p, q ∈ x.2 := by
  cases p with
  | tcp =>
    simp only [policyPorts, List.mem_dedup, List.mem_append, DesiredState.limits,
      List.exists_mem_cons_iff, List.not_mem_nil, false_and, exists_false, or_false,
      AList.mem_keys, or_assoc]
  | udp =>
    simp only [policyPorts, List.mem_dedup, List.mem_append, DesiredState.limits,
      List.exists_mem_cons_iff, List.not_mem_nil, false_and, exists_false, or_false, AList.mem_keys]

theorem upserts_lookup (want applied : BpfMap U32 U32) (q : U32) :
    (dictUpserts want applied).lookup q =
      (want.lookup q).filter fun v => applied.lookup q ≠ some v := by
  have hmem (v : U32) : (q, v) ∈ dictUpserts want applied ↔
      want.lookup q = some v ∧ applied.lookup q ≠ some v := by
    rw [dictUpserts, List.mem_filter, mem_dictItems, decide_eq_true_eq]
  have hnodup := dictUpserts_nodup want applied
  generalize dictUpserts want applied = upserts at hmem hnodup
  have hlookup (v : U32) : upserts.lookup q = some v ↔ (q, v) ∈ upserts := by
    clear hmem
    induction upserts with
    | nil => simp only [List.lookup_nil, reduceCtorEq, List.not_mem_nil]
    | cons x xs ih =>
      rw [List.map_cons, List.nodup_cons] at hnodup
      by_cases hq : q = x.1
      · subst hq
        rw [List.lookup_cons, beq_self_eq_true, List.mem_cons]
        constructor
        · exact fun h => Or.inl (by rw [← Option.some.inj h])
        · rintro (h | h)
          · rw [← h]
          · exact absurd (List.mem_map.mpr ⟨_, h, rfl⟩) hnodup.1
      · rw [List.lookup_cons, beq_eq_false_iff_ne.mpr hq, List.mem_cons]
        have hne : (q, v) ≠ x := fun h => hq (congrArg Prod.fst h)
        simpa only [hne, false_or] using ih hnodup.2
  apply Option.ext
  intro v
  rw [hlookup, hmem, Option.filter_eq_some_iff, decide_eq_true_eq]

theorem mem_removals (want applied : BpfMap U32 U32) (q : U32) :
    q ∈ dictRemovals want applied ↔ (applied.lookup q).isSome = true ∧ want.lookup q = none := by
  rw [dictRemovals, mem_setDiff, ← AList.mem_keys, ← AList.mem_keys, AList.lookup_isSome,
    AList.lookup_eq_none]

theorem removals_nodup (want applied : BpfMap U32 U32) : (dictRemovals want applied).Nodup :=
  applied.nodupKeys.filter _

namespace PortEntry

/-- What the deltas towards the desired limits make of an entry, when the cache shows
`shown` at the start. -/
def settle (cfg : Config) (p : Proto) (q : U32) (shown : Fin 8 → Option U32)
    (wants : List (Fin 8 × BpfMap U32 U32)) (e : PortEntry) : PortEntry :=
  wants.foldl (fun e x => delta cfg ⟨p, x.1⟩
    ((x.2.lookup q).filter fun v => shown x.1 ≠ some v)
    ((shown x.1).isSome && (x.2.lookup q).isNone) e) e

end PortEntry

section Planned

variable (cfg : Config) (desired : DesiredState) (d : Daemon) (p : Proto)

theorem planned_limits (hopen : d.opened (.policy p) = true) :
    (plannedAt cfg desired d).1.limitDeltas p = (desired.limits p).map fun x =>
      (x.1, dictUpserts x.2 (BpfPortPolicyViewMap.active d ⟨p, x.1⟩),
        dictRemovals x.2 (BpfPortPolicyViewMap.active d ⟨p, x.1⟩)) := by
  obtain ⟨bogon, dropEvents, rate, runtime, happlied⟩ := appliedAt_run d
  have hactive (i : Fin 8) : activeLimits d p i = BpfPortPolicyViewMap.active d ⟨p, i⟩ := if_pos hopen
  rw [plannedAt_run, happlied]
  simp only [← hactive]
  cases p <;> rfl

theorem planned_distinct (hopen : d.opened (.policy p) = true) :
    DistinctKeys ((plannedAt cfg desired d).1.limitDeltas p) := by
  rw [planned_limits cfg desired d p hopen]
  intro x hx
  obtain ⟨y, -, rfl⟩ := List.mem_map.mp hx
  exact ⟨dictUpserts_nodup _ _, removals_nodup _ _⟩

theorem planned_settle (hopen : d.opened (.policy p) = true) (q : U32) (e : PortEntry) :
    PortEntry.deltas cfg p q ((plannedAt cfg desired d).1.limitDeltas p) e =
      PortEntry.settle cfg p q (fun i => shownLimit d ⟨p, i⟩ q) (desired.limits p) e := by
  rw [planned_limits cfg desired d p hopen, PortEntry.deltas, PortEntry.settle, List.foldl_map]
  congr 1
  funext e x
  have hremoved : decide (q ∈ dictRemovals x.2 (BpfPortPolicyViewMap.active d ⟨p, x.1⟩)) =
      ((shownLimit d ⟨p, x.1⟩ q).isSome && (x.2.lookup q).isNone) := by
    rw [Bool.eq_iff_iff, decide_eq_true_eq, mem_removals, view_lookup, Bool.and_eq_true,
      Option.isNone_iff_eq_none]
  rw [upserts_lookup, view_lookup, hremoved]

/-- A reconcile that counted no failure applies the deltas to every port, and then at
most writes the prefixes. -/
theorem reconcile_entries (hopen : d.opened (.policy p) = true)
    (hzero : (reconcile cfg desired false d).2.lastApplyFailures = 0) :
    ∃ e, (∀ q, portEntry p q e = .settle cfg p q (fun i => shownLimit d ⟨p, i⟩ q)
        (desired.limits p) (portEntry p q d)) ∧
      Reprefixed p (policyPorts desired p) desired.rateLimitSourcePrefixV4
        desired.rateLimitSourcePrefixV6 e (reconcile cfg desired false d).2 := by
  obtain ⟨start, prepared, hreads, hbody, hcounted, hlast⟩ := reconcile_unfailed cfg desired d hzero
  have hsettled := (prepared_entries cfg _ desired p (planned_distinct cfg desired d p hopen) start
    (hbody ▸ hcounted)).2
  rw [← hbody] at hsettled
  have hexposed := (undisturbed_entries p _ (expose_undisturbed (plannedAt cfg desired d).1 _
    nofun nofun) prepared (hlast ▸ hzero)).2
  rw [← hlast] at hexposed
  have hopened : start.opened (.policy p) = true := by
    rw [moves_opened hreads]
    exact hopen
  obtain ⟨e, hdone, hprefix⟩ := hsettled.2 hopened
  refine ⟨e, fun q => ?_, trans_of (Reprefixed p _ _ _) hprefix (reprefixed_of_left p hexposed)⟩
  obtain ⟨hmap, hcache⟩ := stage_kept (.policy p) (fun h => h) hreads
  have hstart : portEntry p q start = portEntry p q d := by
    simp only [portEntry, hmap, hcache]
  rw [hdone.2 hopened q, planned_settle cfg desired d p hopen, hstart]

end Planned

/-! A port for which nothing is desired. -/

namespace PortEntry

/-- Some limits are removed: nothing is left, or a tuple in which these words are zero and
the others are as they were or zero. -/
def Stripped (p : Proto) (fields : PolicyFields) (words : List (Fin 8)) (e : PortEntry) : Prop :=
  e = erased ∨ ∃ left, e = written p left ∧ (∀ i ∈ words, left i = 0) ∧
    ∀ j, left j = 0 ∨ left j = fields j

theorem stripped_store (p : Proto) (fields left : PolicyFields) (words : List (Fin 8)) (i : Fin 8)
    (hwords : ∀ j ∈ words, left j = 0) (hleft : ∀ j, left j = 0 ∨ left j = fields j) :
    Stripped p fields (words ++ [i]) (store p (Function.update left i 0)) := by
  unfold store
  split_ifs
  · exact Or.inl rfl
  · refine Or.inr ⟨_, rfl, ?_, ?_⟩
    · intro j hj
      rw [Function.update_apply]
      split_ifs with hji
      · rfl
      · rcases List.mem_append.mp hj with hj | hj
        · exact hwords j hj
        · exact absurd (List.mem_singleton.mp hj) hji
    · intro j
      rw [Function.update_apply]
      split_ifs
      · exact Or.inl rfl
      · exact hleft j

theorem stripped_delete (p : Proto) (fields : PolicyFields) (words : List (Fin 8)) (i : Fin 8)
    (e : PortEntry) (h : Stripped p fields words e) :
    Stripped p fields (words ++ [i]) (delete ⟨p, i⟩ e) := by
  rcases h with rfl | ⟨left, rfl, hwords, hleft⟩
  · exact Or.inl rfl
  · exact stripped_store p fields left words i hwords hleft

/-- A word that was zero needs no removal. -/
theorem stripped_skip (p : Proto) (fields : PolicyFields) (words : List (Fin 8)) (i : Fin 8)
    (e : PortEntry) (h : Stripped p fields words e) (hi : fields i = 0) :
    Stripped p fields (words ++ [i]) e := by
  rcases h with rfl | ⟨left, rfl, hwords, hleft⟩
  · exact Or.inl rfl
  · refine Or.inr ⟨left, rfl, ?_, hleft⟩
    intro j hj
    rcases List.mem_append.mp hj with hj | hj
    · exact hwords j hj
    · rw [List.mem_singleton.mp hj]
      rcases hleft i with h | h
      · exact h
      · exact h.trans hi

/-- Nothing is desired and nothing shown: the entry is left alone. -/
theorem settle_quiet (cfg : Config) (p : Proto) (q : U32) (shown : Fin 8 → Option U32)
    (wants : List (Fin 8 × BpfMap U32 U32)) (e : PortEntry)
    (hquiet : ∀ x ∈ wants, x.2.lookup q = none ∧ shown x.1 = none) :
    settle cfg p q shown wants e = e := by
  unfold settle
  induction wants generalizing e with
  | nil => rfl
  | cons x xs ih =>
    obtain ⟨hwant, hshown⟩ := hquiet x (List.mem_cons_self ..)
    rw [List.foldl_cons, hwant, hshown]
    exact ih e fun y hy => hquiet y (List.mem_cons_of_mem x hy)

/-- Nothing is desired: the limits that are shown are removed. -/
theorem settle_stripped (cfg : Config) (p : Proto) (q : U32) (shown : Fin 8 → Option U32)
    (fields : PolicyFields) (hshown : ∀ i, (shown i).isSome = true ↔ fields i ≠ 0)
    (wants : List (Fin 8 × BpfMap U32 U32)) (hnone : ∀ x ∈ wants, x.2.lookup q = none)
    (e : PortEntry) (hcached : e.cached = some fields) (i : Fin 8) (hi : i ∈ wants.map Prod.fst)
    (hlimit : fields i ≠ 0) :
    Stripped p fields (wants.map Prod.fst) (settle cfg p q shown wants e) := by
  have hloop : ∀ (rest : List (Fin 8 × BpfMap U32 U32)) (words : List (Fin 8)) (e' : PortEntry),
      (∀ x ∈ rest, x.2.lookup q = none) →
      ((e'.cached = some fields ∧ ∀ j ∈ words, fields j = 0) ∨ Stripped p fields words e') →
      ((settle cfg p q shown rest e').cached = some fields ∧
          ∀ j ∈ words ++ rest.map Prod.fst, fields j = 0) ∨
        Stripped p fields (words ++ rest.map Prod.fst) (settle cfg p q shown rest e') := by
    intro rest
    induction rest with
    | nil =>
      intro words e' _ h
      rw [List.map_nil, List.append_nil]
      exact h
    | cons x xs ih =>
      intro words e' hrest h
      have hwords : words ++ (x :: xs).map Prod.fst = (words ++ [x.1]) ++ xs.map Prod.fst := by
        rw [List.map_cons, List.append_assoc]
        rfl
      have hstep : settle cfg p q shown (x :: xs) e' = settle cfg p q shown xs
          (if (shown x.1).isSome = true then delete ⟨p, x.1⟩ e' else e') := by
        unfold settle
        rw [List.foldl_cons, hrest x (List.mem_cons_self ..)]
        simp only [delta, Option.filter_none, Option.elim_none, Option.isNone_none, Bool.and_true]
      rw [hwords, hstep]
      apply ih (words ++ [x.1]) _ fun y hy => hrest y (List.mem_cons_of_mem x hy)
      by_cases hx : (shown x.1).isSome = true
      · rw [if_pos hx]
        right
        rcases h with ⟨hcached, hzero⟩ | h
        · -- the first removal writes the tuple of the cache
          have hstore : delete ⟨p, x.1⟩ e' = store p (Function.update fields x.1 0) := by
            simp only [delete, hcached]
          rw [hstore]
          exact stripped_store p fields fields words x.1 hzero fun _ => Or.inr rfl
        · exact stripped_delete p fields words x.1 e' h
      · rw [if_neg hx]
        have hzero : fields x.1 = 0 := by
          rw [hshown, not_not] at hx
          exact hx
        rcases h with ⟨hcached, hall⟩ | h
        · refine Or.inl ⟨hcached, fun j hj => ?_⟩
          rcases List.mem_append.mp hj with hj | hj
          · exact hall j hj
          · rw [List.mem_singleton.mp hj, hzero]
        · exact Or.inr (stripped_skip p fields words x.1 e' h hzero)
  have hend := hloop wants [] e hnone (Or.inl ⟨hcached, nofun⟩)
  rw [List.nil_append] at hend
  rcases hend with ⟨-, hall⟩ | h
  · exact absurd (hall i hi) hlimit
  · exact h

end PortEntry

/-- A limit as the datapath reads it; a missing entry reads as zero. -/
def kernelLimit (m : Maps) (p : Proto) (i : Fin 8) (port : U32) : U32 :=
  (((m.portPolicies p).lookup port).map fun val => wordAt val (4*i)).getD 0

/-- The kernel entry of a port limits something. -/
def Limited (m : Maps) (p : Proto) (port : U32) : Prop :=
  ∃ i ∈ limitWords p, kernelLimit m p i port ≠ 0

theorem wordAt_packFields (fields : PolicyFields) (i : Fin 8) :
    wordAt (packFields fields) (4*i) = fields i := by
  have hpacked := wordAt_packWords (List.ofFn fields) [] i (by simp)
  rw [List.append_nil, List.getElem_ofFn] at hpacked
  exact hpacked

theorem wordAt_stored (p : Proto) (fields : PolicyFields) (i : Fin 8) (hi : i ∈ limitWords p) :
    wordAt ((packFields fields).take (policyValueSize p)) (4*i) = fields i := by
  have hfits : 4*(i : ℕ) + 4 ≤ policyValueSize p := by
    revert i
    cases p <;> decide
  rw [wordAt_take _ _ _ hfits, wordAt_packFields]

section Unwanted

variable (cfg : Config) (desired : DesiredState) (d : Daemon) (p : Proto) (q : U32)

/-- A port for which no limit is desired: if the cache shows one, none is left; if not,
the kernel entry is as before. -/
theorem unwanted_limits (hopen : d.opened (.policy p) = true)
    (hzero : (reconcile cfg desired false d).2.lastApplyFailures = 0)
    (hq : q ∉ policyPorts desired p) :
    Limited (reconcile cfg desired false d).2.maps p q ↔
      Limited d.maps p q ∧ ∀ i ∈ limitWords p, shownLimit d ⟨p, i⟩ q = none := by
  obtain ⟨e, hdone, hprefix⟩ := reconcile_entries cfg desired d p hopen hzero
  have hsame : portEntry p q (reconcile cfg desired false d).2 = portEntry p q e := by
    rcases hprefix q with h | ⟨hmem, -⟩
    · exact h
    · exact absurd hmem hq
  have hnone : ∀ x ∈ desired.limits p, x.2.lookup q = none := by
    intro x hx
    rw [AList.lookup_eq_none]
    exact fun h => hq ((mem_policyPorts desired p q).mpr ⟨x, hx, h⟩)
  have hlimited (m m' : Maps) (h : (m.portPolicies p).lookup q = (m'.portPolicies p).lookup q) :
      Limited m p q ↔ Limited m' p q := by
    simp only [Limited, kernelLimit, h]
  by_cases hquiet : ∀ i ∈ limitWords p, shownLimit d ⟨p, i⟩ q = none
  · have hleft : portEntry p q (reconcile cfg desired false d).2 = portEntry p q d := by
      rw [hsame, hdone]
      apply PortEntry.settle_quiet
      intro x hx
      refine ⟨hnone x hx, hquiet x.1 ?_⟩
      rw [← limits_words desired p]
      exact List.mem_map_of_mem hx
    rw [hlimited _ _ (congrArg PortEntry.stored hleft)]
    exact ⟨fun h => ⟨h, hquiet⟩, And.left⟩
  · refine iff_of_false ?_ fun h => hquiet h.2
    push Not at hquiet
    obtain ⟨i, hi, hshown⟩ := hquiet
    obtain ⟨limit, hlimit⟩ := Option.ne_none_iff_exists'.mp hshown
    rw [shownLimit, Option.filter_eq_some_iff, Option.map_eq_some_iff] at hlimit
    obtain ⟨⟨fields, hfields, rfl⟩, hne⟩ := hlimit
    have hstripped := PortEntry.settle_stripped cfg p q (fun i => shownLimit d ⟨p, i⟩ q) fields
      (by
        intro j
        simp only [shownLimit, hfields, Option.map_some, Option.filter_some]
        split_ifs with hj
        · exact iff_of_true rfl (of_decide_eq_true hj)
        · exact iff_of_false nofun fun h => hj (decide_eq_true h))
      (desired.limits p) hnone (portEntry p q d) hfields i (limits_words desired p ▸ hi)
      (of_decide_eq_true hne)
    rw [limits_words, ← hdone q, ← hsame] at hstripped
    rintro ⟨j, hj, hlimit⟩
    apply hlimit
    change (((portEntry p q (reconcile cfg desired false d).2).stored).map _).getD 0 = 0
    rcases hstripped with h | ⟨left, h, hwords, -⟩
    · rw [h]
      rfl
    · rw [h]
      exact (wordAt_stored p left j hj).trans (hwords j hj)

end Unwanted

end AutoXdp
