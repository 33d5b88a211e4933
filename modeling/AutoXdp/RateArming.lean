import AutoXdp.Unfailed
import Mathlib.Tactic.Basic
import Mathlib.Tactic.Tauto

/-! The SYN and UDP rates of a port and the inner maps that enforce them: two maps of
the kernel that a reconcile writes from different parts of the desired state. -/
namespace AutoXdp
open StateSteps XdpBackend WordBytes

/-! The first word of the policies. -/

/-- The policies of a protocol are cached as the kernel holds them. -/
def PolicyCached (d : Daemon) (p : Proto) : Prop :=
  ∀ port, (d.maps.portPolicies p).lookup port =
    ((d.policyCache p).lookup port).map fun fields => (packFields fields).take (policyValueSize p)

/-- The rate of a port in the cache: `syn_rate_max` or `rate_max`. -/
def cachedRate (d : Daemon) (p : Proto) (port : U32) : U32 :=
  (((d.policyCache p).lookup port).map fun fields => fields 0).getD 0

/-- Policies stay cached, and one port's rate is set. -/
def RateSet (p : Proto) (port rate : U32) (d d' : Daemon) : Prop :=
  (PolicyCached d p → PolicyCached d' p) ∧
    ∀ q, cachedRate d' p q = if q = port then rate else cachedRate d p q

/-- Policies stay cached, and the rates are as before. -/
def RatesKept (p : Proto) (d d' : Daemon) : Prop :=
  (PolicyCached d p → PolicyCached d' p) ∧ ∀ q, cachedRate d' p q = cachedRate d p q

theorem ratesKept_refl (p : Proto) (d : Daemon) : RatesKept p d d := ⟨id, fun _ => rfl⟩

theorem ratesKept_trans (p : Proto) (d e f : Daemon) (h : RatesKept p d e) (h' : RatesKept p e f) :
    RatesKept p d f := ⟨fun hd => h'.1 (h.1 hd), fun q => (h'.2 q).trans (h.2 q)⟩

theorem ratesKept_of_kept (p : Proto) (d d' : Daemon) (h : Kept d d' (.policy p)) :
    RatesKept p d d' := by
  obtain ⟨hmap, hcache⟩ := h
  constructor
  · intro hd port
    rw [hmap, hcache]
    exact hd port
  · intro q
    rw [cachedRate, cachedRate, hcache]

/-- What a write of one entry makes of map and cache. -/
theorem policyInsert_rate (p : Proto) (caller : Caller) (port : U32) (fields : PolicyFields)
    (d : Daemon) :
    RateSet p port (fields 0) d ((d.called caller (.updatePolicy p port (packFields fields))
      true).setPolicyCache p ((d.policyCache p).insert port fields)) := by
  constructor
  · intro hd q
    simp only [Daemon.called, Daemon.setPolicyCache, BpfOp.effect, ↓reduceIte,
      portPolicies_setPortPolicies, Function.update_self]
    by_cases hq : q = port
    · subst hq
      rw [AList.lookup_insert, AList.lookup_insert, Option.map_some]
    · rw [AList.lookup_insert_ne hq, AList.lookup_insert_ne hq]
      exact hd q
  · intro q
    simp only [cachedRate, Daemon.called, Daemon.setPolicyCache, Function.update_self]
    by_cases hq : q = port
    · subst hq
      rw [AList.lookup_insert, if_pos rfl, Option.map_some, Option.getD_some]
    · rw [AList.lookup_insert_ne hq, if_neg hq]

theorem policyErase_rate (p : Proto) (caller : Caller) (port : U32) (d : Daemon) :
    RateSet p port 0 d ((d.called caller (.deletePolicy p port) true).setPolicyCache p
      ((d.policyCache p).erase port)) := by
  constructor
  · intro hd q
    simp only [Daemon.called, Daemon.setPolicyCache, BpfOp.effect, ↓reduceIte,
      portPolicies_setPortPolicies, Function.update_self]
    by_cases hq : q = port
    · subst hq
      rw [AList.lookup_erase, AList.lookup_erase, Option.map_none]
    · rw [AList.lookup_erase_ne hq, AList.lookup_erase_ne hq]
      exact hd q
  · intro q
    simp only [cachedRate, Daemon.called, Daemon.setPolicyCache, Function.update_self]
    by_cases hq : q = port
    · subst hq
      rw [AList.lookup_erase, if_pos rfl, Option.map_none, Option.getD_none]
    · rw [AList.lookup_erase_ne hq, if_neg hq]

theorem policyDelete_rate (p : Proto) (port : U32) :
    Steps (Unfailed (RateSet p port 0)) (ok (BpfPortPolicyMap.delete p port false)) := by
  refine unfailed_mono _ (unfailed_call _ _ fun _ => rfl) ?_
  rintro d _ rfl
  exact policyErase_rate p .ok port d

/-- The end of `set` and `delete`: a tuple that starts with three zeros leaves the
rate zero too. -/
theorem viewStore_rate (view : PolicyView) (port : U32) (fields : PolicyFields) :
    Steps (Unfailed (RateSet view.proto port (fields 0)))
      (ok (BpfPortPolicyViewMap.store view port fields false)) := by
  unfold BpfPortPolicyViewMap.store
  by_cases hzero : BpfPortPolicyViewMap.firstThreeZero fields = true
  · rw [if_pos hzero]
    have hrate : fields 0 = 0 := by
      rw [BpfPortPolicyViewMap.firstThreeZero, Bool.and_eq_true, Bool.and_eq_true,
        decide_eq_true_eq] at hzero
      exact hzero.1.1
    rw [hrate]
    exact policyDelete_rate view.proto port
  · rw [if_neg hzero]
    refine unfailed_mono _ (unfailed_call _ _ fun _ => rfl) ?_
    rintro d _ rfl
    exact policyInsert_rate view.proto .ok port fields d

theorem viewSet_rate (cfg : Config) (view : PolicyView) (port rateMax : U32) (d : Daemon) :
    Unfailed (RateSet view.proto port
        (if view.index = 0 then rateMax else cachedRate d view.proto port))
      d (ok (BpfPortPolicyViewMap.set cfg view port rateMax false) d).2 := by
  set current := ((d.policyCache view.proto).lookup port).getD
    (BpfPortPolicyViewMap.defaultFields cfg) with hcurrent
  have hword : Function.update current view.index rateMax 0 =
      if view.index = 0 then rateMax else cachedRate d view.proto port := by
    rw [Function.update_apply]
    by_cases hindex : view.index = 0
    · rw [if_pos hindex, if_pos hindex.symm]
    · rw [if_neg hindex, if_neg (Ne.symm hindex), hcurrent, cachedRate]
      cases (d.policyCache view.proto).lookup port <;> rfl
  rw [← hword]
  exact viewStore_rate view port (Function.update current view.index rateMax) d

theorem viewDelete_rate (view : PolicyView) (port : U32) (d : Daemon) :
    Unfailed (RateSet view.proto port
        (if view.index = 0 then 0 else cachedRate d view.proto port))
      d (ok (BpfPortPolicyViewMap.delete view port false) d).2 := by
  cases hl : (d.policyCache view.proto).lookup port with
  | none =>
    have hrun : ok (BpfPortPolicyViewMap.delete view port false) d =
        ok (BpfPortPolicyMap.delete view.proto port false) d := by
      apply ok_congr
      simp only [BpfPortPolicyViewMap.delete, run_get_bind, hl]
    have hword : (if view.index = 0 then 0 else cachedRate d view.proto port) = 0 := by
      rw [cachedRate, hl, Option.map_none, Option.getD_none, ite_self]
    rw [hrun, hword]
    exact policyDelete_rate view.proto port d
  | some current =>
    have hrun : ok (BpfPortPolicyViewMap.delete view port false) d =
        ok (BpfPortPolicyViewMap.store view port (Function.update current view.index 0) false) d := by
      apply ok_congr
      simp only [BpfPortPolicyViewMap.delete, run_get_bind, hl]
    have hword : Function.update current view.index 0 0 =
        if view.index = 0 then 0 else cachedRate d view.proto port := by
      rw [Function.update_apply, cachedRate, hl]
      by_cases hindex : view.index = 0
      · rw [if_pos hindex, if_pos hindex.symm]
      · rw [if_neg hindex, if_neg (Ne.symm hindex), Option.map_some, Option.getD_some]
    rw [hrun, ← hword]
    exact viewStore_rate view port (Function.update current view.index 0) d

/-- The rates after the writes and removals of one delta. -/
structure RatesSet (p : Proto) (upserts : List (U32 × U32)) (removals : List U32)
    (d d' : Daemon) : Prop where
  cached : PolicyCached d p → PolicyCached d' p
  set : ∀ e ∈ upserts, e.1 ∉ removals → cachedRate d' p e.1 = e.2
  removed : ∀ q ∈ removals, cachedRate d' p q = 0
  rest : ∀ q, q ∉ upserts.map Prod.fst → q ∉ removals → cachedRate d' p q = cachedRate d p q

theorem ratesSet_kept (p : Proto) (upserts : List (U32 × U32)) (removals : List U32)
    (d e f g : Daemon) (h : RatesKept p d e) (h' : RatesSet p upserts removals e f)
    (h'' : RatesKept p f g) : RatesSet p upserts removals d g where
  cached hd := h''.1 (h'.cached (h.1 hd))
  set x hx hr := (h''.2 x.1).trans (h'.set x hx hr)
  removed q hq := (h''.2 q).trans (h'.removed q hq)
  rest q hq hr := ((h''.2 q).trans (h'.rest q hq hr)).trans (h.2 q)

/-- The rates are the first word: the other views leave them alone. -/
theorem applyRateMapDelta_kept (cfg : Config) (p : Proto) (i : Fin 8) (hi : i ≠ 0)
    (upserts : List (U32 × U32)) (removals : List U32) :
    Steps (Unfailed (RatesKept p)) (applyRateMapDelta cfg ⟨p, i⟩ upserts removals false) := by
  have hone (port : U32) (d d' : Daemon) (h : RateSet p port (cachedRate d p port) d d') :
      RatesKept p d d' := by
    refine ⟨h.1, fun q => (h.2 q).trans ?_⟩
    split_ifs with hq
    · rw [hq]
    · rfl
  have hupsert := unfailed_forM (P := fun _ => RatesKept p) (Q := fun _ => RatesKept p)
    (fun e : U32 × U32 => discard (ok (BpfPortPolicyViewMap.set cfg ⟨p, i⟩ e.1 e.2 false)))
    (fun e d hzero => by
      obtain ⟨hstart, hset⟩ := viewSet_rate cfg ⟨p, i⟩ e.1 e.2 d hzero
      rw [if_neg hi] at hset
      exact ⟨hstart, hone e.1 d _ hset⟩)
    (ratesKept_refl p) (fun _ _ d e f => ratesKept_trans p d e f) upserts
  have hremove := unfailed_forM (P := fun _ => RatesKept p) (Q := fun _ => RatesKept p)
    (fun port : U32 => discard (ok (BpfPortPolicyViewMap.delete ⟨p, i⟩ port false)))
    (fun port d hzero => by
      obtain ⟨hstart, hset⟩ := viewDelete_rate ⟨p, i⟩ port d hzero
      rw [if_neg hi] at hset
      exact ⟨hstart, hone port d _ hset⟩)
    (ratesKept_refl p) (fun _ _ d e f => ratesKept_trans p d e f) removals
  apply steps_get_all
  intro d
  apply steps_ite
  · exact fun _ => unfailed_seq _ _ hupsert (fun _ => hremove) (ratesKept_trans p)
  · exact fun _ d hzero => ⟨hzero, ratesKept_refl p d⟩

/-- The delta of the rates themselves. -/
theorem applyRateMapDelta_set (cfg : Config) (p : Proto) (upserts : List (U32 × U32))
    (removals : List U32) (hnodup : (upserts.map Prod.fst).Nodup) (d : Daemon)
    (hopen : d.opened (.policy p) = true) :
    Unfailed (RatesSet p upserts removals) d
      (applyRateMapDelta cfg ⟨p, 0⟩ upserts removals false d).2 := by
  have hupsert := unfailed_forM
    (P := fun upserts d d' => (upserts.map Prod.fst).Nodup → RatesSet p upserts [] d d')
    (Q := fun e => RateSet p e.1 e.2)
    (fun e : U32 × U32 => discard (ok (BpfPortPolicyViewMap.set cfg ⟨p, 0⟩ e.1 e.2 false)))
    (fun e => viewSet_rate cfg ⟨p, 0⟩ e.1 e.2)
    (fun d _ => ⟨id, nofun, nofun, fun _ _ _ => rfl⟩) (by
      intro x xs d e f hx hxs hnodup
      rw [List.map_cons, List.nodup_cons] at hnodup
      obtain ⟨hcached, hset, -, hrest⟩ := hxs hnodup.2
      refine ⟨fun hd => hcached (hx.1 hd), ?_, nofun, ?_⟩
      · intro y hy _
        rcases List.mem_cons.mp hy with rfl | hy
        · rw [hrest y.1 hnodup.1 List.not_mem_nil, hx.2, if_pos rfl]
        · exact hset y hy List.not_mem_nil
      · intro q hq _
        rw [List.map_cons, List.mem_cons, not_or] at hq
        rw [hrest q hq.2 List.not_mem_nil, hx.2, if_neg hq.1]) upserts
  have hremove := unfailed_forM (P := fun removals => RatesSet p [] removals)
    (Q := fun port => RateSet p port 0)
    (fun port : U32 => discard (ok (BpfPortPolicyViewMap.delete ⟨p, 0⟩ port false)))
    (fun port => viewDelete_rate ⟨p, 0⟩ port)
    (fun d => ⟨id, nofun, nofun, fun _ _ _ => rfl⟩) (by
      intro x xs d e f hx hxs
      refine ⟨fun hd => hxs.cached (hx.1 hd), nofun, ?_, ?_⟩
      · intro q hq
        by_cases hqs : q ∈ xs
        · exact hxs.removed q hqs
        · have hqx : q = x := (List.mem_cons.mp hq).resolve_right hqs
          rw [hxs.rest q List.not_mem_nil hqs, hx.2, if_pos hqx]
      · intro q _ hq
        rw [List.mem_cons, not_or] at hq
        rw [hxs.rest q List.not_mem_nil hq.2, hx.2, if_neg hq.1]) removals
  have hboth := unfailed_seq (G := RatesSet p upserts removals) _ _ hupsert (fun _ => hremove) (by
    intro d e f hset hrem
    have hset := hset hnodup
    refine ⟨fun hd => hrem.cached (hset.cached hd), ?_, hrem.removed, ?_⟩
    · intro x hx hr
      rw [hrem.rest x.1 List.not_mem_nil hr]
      exact hset.set x hx List.not_mem_nil
    · intro q hq hr
      rw [hrem.rest q List.not_mem_nil hr]
      exact hset.rest q hq List.not_mem_nil)
  unfold applyRateMapDelta
  rw [run_get_bind, run_ite, if_pos hopen]
  exact hboth d

/-- `ensure_prefixes` writes other words, and its failures are not counted. -/
theorem ensurePolicyPrefixes_rates (p : Proto) (desired : DesiredState) :
    Steps (RatesKept p) (ensurePolicyPrefixes p desired false) := by
  have hpre : IsPreorder Daemon (RatesKept p) :=
    { refl := ratesKept_refl p, trans := ratesKept_trans p }
  apply steps_get_all
  intro d
  apply steps_ite
  · intro _
    apply steps_forM
    intro port _ d
    cases hl : (d.policyCache p).lookup port with
    | none =>
      have hrun : (BpfPortPolicyMap.ensurePrefix p desired.rateLimitSourcePrefixV4
          desired.rateLimitSourcePrefixV6 false port d).2 = d := by
        simp only [BpfPortPolicyMap.ensurePrefix, run_get_bind, hl]
        rfl
      rw [hrun]
      exact ratesKept_refl p d
    | some current =>
      set fields := BpfPortPolicyMap.withPrefixes desired.rateLimitSourcePrefixV4
        desired.rateLimitSourcePrefixV6 current with hfields
      have hword : fields 0 = current 0 := by
        rw [hfields, BpfPortPolicyMap.withPrefixes, Function.update_of_ne (by decide),
          Function.update_of_ne (by decide)]
      by_cases hchange : fields ≠ current
      · have hrun : (BpfPortPolicyMap.ensurePrefix p desired.rateLimitSourcePrefixV4
            desired.rateLimitSourcePrefixV6 false port d).2 =
            (BpfPortPolicyMap.setFields p .ensurePrefixes port fields false d).2 := by
          simp only [BpfPortPolicyMap.ensurePrefix, run_get_bind, hl, ← hfields]
          rw [if_pos hchange]
          rfl
        rw [hrun, BpfPortPolicyMap.setFields]
        rcases cachedCall_cases false .ensurePrefixes (.updatePolicy p port (packFields fields))
          (fun d => d.setPolicyCache p ((d.policyCache p).insert port fields)) d with
          ⟨h, -⟩ | ⟨-, h⟩ | ⟨-, h⟩
        · exact absurd h Bool.false_ne_true
        · rw [h]
          obtain ⟨hcached, hset⟩ := policyInsert_rate p .ensurePrefixes port fields d
          refine ⟨hcached, fun q => (hset q).trans ?_⟩
          split_ifs with hq
          · rw [hq, hword, cachedRate, hl, Option.map_some, Option.getD_some]
          · rfl
        · rw [h]
          exact ratesKept_refl p d
      · have hrun : (BpfPortPolicyMap.ensurePrefix p desired.rateLimitSourcePrefixV4
            desired.rateLimitSourcePrefixV6 false port d).2 = d := by
          simp only [BpfPortPolicyMap.ensurePrefix, run_get_bind, hl, ← hfields]
          rw [if_neg hchange]
          rfl
        rw [hrun]
        exact ratesKept_refl p d
  · exact fun _ => steps_pure _

/-! The inner maps. -/

/-- The occupied slots are the cached ones. -/
def OuterCached (d : Daemon) (m : OuterMap) : Prop :=
  ∀ port, (d.maps.rateOuter m port).isSome = true ↔ port ∈ d.outerCache m

/-- Slots stay cached, and those of `slots` are occupied. -/
def SlotsSet (m : OuterMap) (slots : U32 → Prop) (d d' : Daemon) : Prop :=
  (OuterCached d m → OuterCached d' m) ∧ ∀ q, q ∈ d'.outerCache m ↔ slots q

theorem rateOuter_setRateOuter (s : Maps) (m : OuterMap) (f : U32 → Option (BpfMap Addr U64)) :
    (s.setRateOuter m f).rateOuter m = f := by
  cases m <;> rfl

/-- A slot that is set is occupied afterwards; the others are as before. -/
theorem outerSet_slots (m : OuterMap) (port capacity : U32) (d : Daemon) :
    Unfailed (SlotsSet m fun q => q = port ∨ q ∈ d.outerCache m) d
      (ok (BpfRateOuterMap.set m port capacity false) d).2 := by
  by_cases hcap : (d.outerCache m).lookup port = some capacity
  · have hrun : ok (BpfRateOuterMap.set m port capacity false) d = ok (pure true) d := by
      apply ok_congr
      simp only [BpfRateOuterMap.set, run_get_bind, hcap, ↓reduceIte]
    rw [hrun]
    have hmem : port ∈ d.outerCache m := AList.lookup_isSome.mp (by rw [hcap]; rfl)
    refine fun hzero => ⟨hzero, id, fun q => ⟨Or.inr, ?_⟩⟩
    rintro (rfl | hq)
    · exact hmem
    · exact hq
  obtain ⟨b, hb⟩ := bpf_run .ok (.createInner m port capacity) d
  cases b with
  | false =>
    have hrun : ok (BpfRateOuterMap.set m port capacity false) d =
        ok (pure false) (d.called .ok (.createInner m port capacity) false) := by
      apply ok_congr
      simp only [BpfRateOuterMap.set, run_get_bind, hcap, Bool.false_eq_true, ↓reduceIte]
      simp only [run_bind, hb, Bool.not_false, ↓reduceIte]
    rw [hrun]
    exact fun hzero => absurd hzero (Nat.succ_ne_zero _)
  | true =>
    set e := d.called .ok (.createInner m port capacity) true with he
    have hrun : ok (BpfRateOuterMap.set m port capacity false) d =
        ok (cachedCall false .ok (.updateSlot m port)
          fun d => d.setOuterCache m ((d.outerCache m).insert port capacity)) e := by
      apply ok_congr
      simp only [BpfRateOuterMap.set, run_get_bind, hcap, Bool.false_eq_true, ↓reduceIte]
      simp only [run_bind, hb, Bool.not_true, Bool.false_eq_true, ↓reduceIte]
    rw [hrun]
    refine fun hzero => ?_
    obtain ⟨hstart, hset⟩ := unfailed_call (.updateSlot m port) (fun d => d.setOuterCache m
      ((d.outerCache m).insert port capacity)) (fun _ => rfl) e hzero
    refine ⟨hstart, ?_⟩
    have hcache : (e.called .ok (.updateSlot m port) true).outerCache m = d.outerCache m := rfl
    have hkernel : (e.called .ok (.updateSlot m port) true).maps.rateOuter m =
        Function.update (d.maps.rateOuter m) port (some ∅) := rateOuter_setRateOuter _ m _
    rw [hset]
    constructor
    · intro hd q
      simp only [Daemon.setOuterCache]
      rw [hkernel, Function.update_self, AList.mem_insert, hcache, ← hd q, Function.update_apply]
      split_ifs with hq
      · simp only [Option.isSome_some, hq, true_or]
      · simp only [hq, false_or]
    · intro q
      simp only [Daemon.setOuterCache]
      rw [Function.update_self, AList.mem_insert, hcache]

theorem outerDelete_slots (m : OuterMap) (port : U32) (d : Daemon) :
    Unfailed (SlotsSet m fun q => q ≠ port ∧ q ∈ d.outerCache m) d
      (ok (BpfRateOuterMap.delete m port false) d).2 := by
  by_cases hmem : port ∈ d.outerCache m
  · have hrun : ok (BpfRateOuterMap.delete m port false) d =
        ok (cachedCall false .ok (.deleteSlot m port)
          fun d => d.setOuterCache m ((d.outerCache m).erase port)) d := by
      apply ok_congr
      simp only [BpfRateOuterMap.delete, run_get_bind, hmem, ↓reduceIte]
    rw [hrun]
    refine fun hzero => ?_
    obtain ⟨hstart, hset⟩ := unfailed_call (.deleteSlot m port) (fun d => d.setOuterCache m
      ((d.outerCache m).erase port)) (fun _ => rfl) d hzero
    refine ⟨hstart, ?_⟩
    have hcache : (d.called .ok (.deleteSlot m port) true).outerCache m = d.outerCache m := rfl
    have hkernel : (d.called .ok (.deleteSlot m port) true).maps.rateOuter m =
        Function.update (d.maps.rateOuter m) port none := rateOuter_setRateOuter _ m _
    rw [hset]
    constructor
    · intro hd q
      simp only [Daemon.setOuterCache]
      rw [hkernel, Function.update_self, AList.mem_erase, hcache, ← hd q, Function.update_apply]
      split_ifs with hq
      · simp only [Option.isSome_none, Bool.false_eq_true, hq, ne_eq, not_true_eq_false, false_and]
      · simp only [ne_eq, hq, not_false_eq_true, true_and]
    · intro q
      simp only [Daemon.setOuterCache]
      rw [Function.update_self, AList.mem_erase, hcache]
  · have hrun : ok (BpfRateOuterMap.delete m port false) d = ok (pure true) d := by
      apply ok_congr
      simp only [BpfRateOuterMap.delete, run_get_bind, hmem, ↓reduceIte]
    rw [hrun]
    refine fun hzero => ⟨hzero, id, fun q => ⟨fun hq => ⟨?_, hq⟩, And.right⟩⟩
    rintro rfl
    exact hmem hq

/-- The delta of one array: exactly the given ports have a slot afterwards. -/
theorem applyRateOuterDelta_slots (m : OuterMap) (entries : List (U32 × U32)) (d : Daemon)
    (hopen : d.opened (.rateOuter m) = true) :
    Unfailed (SlotsSet m (· ∈ entries.map Prod.fst)) d (applyRateOuterDelta m entries false d).2 := by
  set current := d.outerCache m with hcurrent
  set ports := entries.map Prod.fst with hports
  have hadd := unfailed_forM
    (P := fun xs d d' => SlotsSet m (fun q => q ∈ d.outerCache m ∨
      ∃ e ∈ xs, current.lookup e.1 ≠ some e.2 ∧ e.1 = q) d d')
    (Q := fun e d d' => SlotsSet m (fun q => q ∈ d.outerCache m ∨
      current.lookup e.1 ≠ some e.2 ∧ e.1 = q) d d')
    (fun e : U32 × U32 => if current.lookup e.1 ≠ some e.2 then
      discard (ok (BpfRateOuterMap.set m e.1 e.2 false)) else pure ⟨⟩)
    (by
      intro e
      apply steps_ite
      · intro hskip d hzero
        obtain ⟨hstart, hcached, hslots⟩ := outerSet_slots m e.1 e.2 d hzero
        refine ⟨hstart, hcached, fun q => (hslots q).trans ?_⟩
        simp only [and_iff_right hskip]
        rw [or_comm, eq_comm]
      · intro hskip d hzero
        refine ⟨hzero, id, fun q => ?_⟩
        simp only [hskip, false_and, or_false, run_pure])
    (fun d => ⟨id, fun q => by simp⟩) (by
      intro x xs d e f hx hxs
      refine ⟨fun hd => hxs.1 (hx.1 hd), fun q => ?_⟩
      simp only [hxs.2, hx.2, List.exists_mem_cons_iff, or_assoc]) entries
  have hdel := unfailed_forM
    (P := fun ports d d' => SlotsSet m (fun q => q ∈ d.outerCache m ∧ q ∉ ports) d d')
    (Q := fun port d d' => SlotsSet m (fun q => q ≠ port ∧ q ∈ d.outerCache m) d d')
    (fun port : U32 => discard (ok (BpfRateOuterMap.delete m port false)))
    (fun port => outerDelete_slots m port) (fun d => ⟨id, fun q => by simp⟩) (by
      intro x xs d e f hx hxs
      refine ⟨fun hd => hxs.1 (hx.1 hd), fun q => ?_⟩
      simp only [hxs.2, hx.2, List.mem_cons, not_or]
      tauto) (setDiff current.keys ports)
  have hboth := unfailed_seq _ _ hadd (fun _ => hdel) (G := fun d d' =>
      d.outerCache m = current → SlotsSet m (· ∈ ports) d d') (by
    intro d e f hset hrem hd
    refine ⟨fun h => hrem.1 (hset.1 h), fun q => ?_⟩
    simp only [hrem.2, hset.2, hd, mem_setDiff, ← AList.mem_keys]
    constructor
    · rintro ⟨hq, hleft⟩
      rcases hq with hq | ⟨e, he, -, rfl⟩
      · by_contra hport
        exact hleft ⟨hq, hport⟩
      · exact List.mem_map_of_mem he
    · intro hq
      refine ⟨?_, fun h => h.2 hq⟩
      -- an entry that is not written is one whose port has a slot
      obtain ⟨e, he, rfl⟩ := List.mem_map.mp hq
      by_cases hskip : current.lookup e.1 = some e.2
      · exact Or.inl (AList.lookup_isSome.mp (by rw [hskip]; rfl))
      · exact Or.inr ⟨e, he, hskip, rfl⟩)
  unfold applyRateOuterDelta
  rw [run_get_bind, run_ite, if_pos hopen]
  intro hzero
  obtain ⟨hstart, hslots⟩ := hboth d hzero
  exact ⟨hstart, hslots rfl⟩

end AutoXdp
