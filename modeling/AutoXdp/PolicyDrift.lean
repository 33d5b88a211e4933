import AutoXdp.AclRounds
import AutoXdp.PolicyLayout
import Mathlib.Tactic.Basic

/-! What a verification makes of the policies: its batch reader takes eight words for each
value, of which the map of UDP has six. -/
namespace AutoXdp
open StateSteps XdpBackend WordBytes

/-! Values of one size, one after the other. -/

theorem wordAt_flatten {n : ℕ} (vs : List (List U8)) (hlen : ∀ v ∈ vs, v.length = n) {i : ℕ}
    {v : List U8} (hv : vs[i]? = some v) {off : ℕ} (hoff : off + 4 ≤ n) :
    wordAt vs.flatten (n*i + off) = wordAt v off := by
  induction vs generalizing i with
  | nil => exact absurd hv (Option.some_ne_none v).symm
  | cons u us ih =>
    obtain ⟨hu, hus⟩ := List.forall_mem_cons.mp hlen
    rw [List.flatten_cons]
    cases i with
    | zero =>
      obtain rfl := Option.some.inj hv
      rw [Nat.mul_zero, Nat.zero_add, wordAt_append_left]
      omega
    | succ i =>
      have hnext : n*(i+1) + off = u.length + (n*i + off) := by
        rw [hu, Nat.mul_succ]
        omega
      rw [hnext, wordAt_append_right]
      exact ih hus hv

theorem wordAt_past (bs : List U8) {off : ℕ} (h : bs.length ≤ off) : wordAt bs off = 0 := by
  have hzero (k : ℕ) (hk : off ≤ k) : bs.getD k 0 = 0 := by
    rw [List.getD_eq_getElem?_getD, List.getElem?_eq_none (by omega)]
    rfl
  rw [wordAt, hzero _ (by omega), hzero _ (by omega), hzero _ (by omega), hzero _ le_rfl]
  rfl

section Batch

variable {p : Proto}

theorem length_valueBytes (val : List U8) :
    (BpfPortPolicyMap.valueBytes p val).length = policyValueSize p := by
  rw [BpfPortPolicyMap.valueBytes, List.length_map, List.length_range]

theorem wordAt_valueBytes (val : List U8) {off : ℕ} (h : off + 4 ≤ policyValueSize p) :
    wordAt (BpfPortPolicyMap.valueBytes p val) off = wordAt val off := by
  have hbyte (k : ℕ) (hk : k < policyValueSize p) :
      (BpfPortPolicyMap.valueBytes p val).getD k 0 = val.getD k 0 := by
    rw [BpfPortPolicyMap.valueBytes, List.getD_eq_getElem?_getD, List.getElem?_map,
      List.getElem?_range hk]
    rfl
  rw [wordAt, wordAt, hbyte _ (by omega), hbyte _ (by omega), hbyte _ (by omega),
    hbyte _ (by omega)]

theorem wordAt_batch (t : BpfMap U32 (List U8)) {i : ℕ} {e : Σ _ : U32, List U8}
    (he : t.entries[i]? = some e) {off : ℕ} (hoff : off + 4 ≤ policyValueSize p) :
    wordAt (BpfPortPolicyMap.batchValues p t) (policyValueSize p*i + off) = wordAt e.2 off := by
  rw [BpfPortPolicyMap.batchValues, List.flatMap_def]
  have hval : (t.entries.map fun e => BpfPortPolicyMap.valueBytes p e.2)[i]? =
      some (BpfPortPolicyMap.valueBytes p e.2) := by
    rw [List.getElem?_map, he]
    rfl
  rw [wordAt_flatten _ _ hval hoff, wordAt_valueBytes e.2 hoff]
  intro v hv
  obtain ⟨x, -, rfl⟩ := List.mem_map.mp hv
  exact length_valueBytes x.2

end Batch

/-! The drift. -/

section Drift

variable {p : Proto} {d : Daemon}

/-- A value of the kernel is a tuple of the cache. -/
theorem synced_entry (hsynced : ∀ q, (portEntry p q d).Synced p) {i : ℕ}
    {e : Σ _ : U32, List U8} (he : (d.maps.portPolicies p).entries[i]? = some e) :
    ∃ fields, (d.policyCache p).lookup e.1 = some fields ∧
      e.2 = (packFields fields).take (policyValueSize p) := by
  have hkernel : (d.maps.portPolicies p).lookup e.1 = some e.2 :=
    AList.mem_lookup_iff.mpr (List.mem_of_getElem? he)
  have hstored : (d.maps.portPolicies p).lookup e.1 = _ := hsynced e.1
  rw [hkernel, eq_comm, Option.map_eq_some_iff] at hstored
  obtain ⟨fields, hcached, hpacked⟩ := hstored
  exact ⟨fields, hcached, hpacked.symm⟩

/-- There is no drift exactly when each tuple is the eight words that are read for it. -/
theorem policyDrift_zero (hsynced : ∀ q, (portEntry p q d).Synced p) :
    dictDrift (BpfPortPolicyMap.readKernel noReadFaults p d) (d.policyCache p) = 0 ↔
      ∀ i e, (d.maps.portPolicies p).entries[i]? = some e →
        (d.policyCache p).lookup e.1 = some fun j : Fin 8 => packedWord d.maps p (8*i + j) := by
  have hkey (i : ℕ) (q : U32) : (d.maps.portPolicies p).keys[i]? = some q ↔
      ∃ e, (d.maps.portPolicies p).entries[i]? = some e ∧ e.1 = q := by
    rw [AList.keys, List.keys, List.getElem?_map, Option.map_eq_some_iff]
  rw [dictDrift_zero]
  constructor
  · intro h i e he
    rw [← h e.1, policy_read]
    exact ⟨rfl, i, (hkey i e.1).mpr ⟨e, he, rfl⟩, rfl⟩
  · intro h q
    apply Option.ext
    intro fields
    rw [policy_read]
    constructor
    · rintro ⟨-, i, hi, rfl⟩
      obtain ⟨e, he, rfl⟩ := (hkey i q).mp hi
      exact h i e he
    · intro hcached
      -- what is cached is in the kernel, so it has a place in the batch
      have hstored : (d.maps.portPolicies p).lookup q = _ := hsynced q
      have hentry : (portEntry p q d).cached = some fields := hcached
      rw [hentry, Option.map_some] at hstored
      obtain ⟨i, he⟩ := List.mem_iff_getElem?.mp (AList.mem_lookup_iff.mp hstored)
      have hread := h i _ he
      rw [hcached] at hread
      exact ⟨rfl, i, (hkey i q).mpr ⟨_, he, rfl⟩, Option.some.inj hread⟩

end Drift

/-- The values of TCP have as many words as are read. -/
theorem tcp_drift {d : Daemon} (hsynced : ∀ q, (portEntry .tcp q d).Synced .tcp) :
    dictDrift (BpfPortPolicyMap.readKernel noReadFaults .tcp d) (d.policyCache .tcp) = 0 := by
  rw [policyDrift_zero hsynced]
  intro i e he
  obtain ⟨fields, hcached, hval⟩ := synced_entry hsynced he
  rw [hcached]
  congr 1
  funext j
  have hfits : 4*(j : ℕ) + 4 ≤ policyValueSize .tcp := by
    show 4*(j : ℕ) + 4 ≤ 32
    omega
  have hoffset : 4*(8*i + (j : ℕ)) = policyValueSize .tcp*i + 4*j := by
    show 4*(8*i + (j : ℕ)) = 32*i + 4*j
    omega
  rw [packedWord, hoffset, wordAt_batch _ he hfits, hval, wordAt_take _ _ _ hfits,
    wordAt_packFields]

section Udp

variable {prefixV4 prefixV6 : U32} {d : Daemon} (hd : PolicyLaid prefixV4 prefixV6 .udp d)

include hd

theorem udp_synced (q : U32) : (portEntry .udp q d).Synced .udp := (hd q).synced

omit hd in
/-- A word of a value that is one of its six. -/
theorem udp_word {i : ℕ} {e : Σ _ : U32, List U8} {fields : PolicyFields}
    (he : (d.maps.portPolicies .udp).entries[i]? = some e)
    (hval : e.2 = (packFields fields).take (policyValueSize .udp)) {j : Fin 8} (hj : j.val < 6) :
    packedWord d.maps .udp (6*i + j) = fields j := by
  have hfits : 4*(j : ℕ) + 4 ≤ policyValueSize .udp := by
    show 4*(j : ℕ) + 4 ≤ 24
    omega
  have hoffset : 4*(6*i + (j : ℕ)) = policyValueSize .udp*i + 4*j := by
    show 4*(6*i + (j : ℕ)) = 24*i + 4*j
    omega
  rw [packedWord, hoffset, wordAt_batch _ he hfits, hval, wordAt_take _ _ _ hfits,
    wordAt_packFields]

/-- The last two words that are read for the first value are the limits of the second. -/
theorem udp_drift_of_two
    (htwo : 2 ≤ (d.maps.portPolicies .udp).entries.length) :
    dictDrift (BpfPortPolicyMap.readKernel noReadFaults .udp d) (d.policyCache .udp) ≠ 0 := by
  rw [Ne, policyDrift_zero (udp_synced hd)]
  intro hread
  obtain ⟨e, he⟩ : ∃ e, (d.maps.portPolicies .udp).entries[0]? = some e :=
    ⟨_, List.getElem?_eq_getElem (by omega)⟩
  obtain ⟨e', he'⟩ : ∃ e', (d.maps.portPolicies .udp).entries[1]? = some e' :=
    ⟨_, List.getElem?_eq_getElem (by omega)⟩
  obtain ⟨fields', hcached', hval'⟩ := synced_entry (udp_synced hd) he'
  obtain ⟨hlaid', hfull'⟩ := (hd e'.1).laid fields' hcached'
  obtain ⟨hlaid, -⟩ := (hd e.1).laid _ (hread 0 e he)
  have hfirst : fields' 0 = 0 := by
    rw [← udp_word he' hval' (j := 0) (by decide)]
    exact hlaid.unused 6 (by decide) (by decide) (by decide)
  have hsecond : fields' 1 = 0 := by
    rw [← udp_word he' hval' (j := 1) (by decide)]
    exact hlaid.unused 7 (by decide) (by decide) (by decide)
  have hthird : fields' 2 = 0 := hlaid'.unused 2 (by decide) (by decide) (by decide)
  rw [BpfPortPolicyViewMap.firstThreeZero, hfirst, hsecond, hthird] at hfull'
  exact absurd hfull' (by decide)

/-- Behind a value that is the only one there are zeros. -/
theorem udp_drift_of_one
    (hone : (d.maps.portPolicies .udp).entries.length ≤ 1) :
    dictDrift (BpfPortPolicyMap.readKernel noReadFaults .udp d) (d.policyCache .udp) = 0 := by
  rw [policyDrift_zero (udp_synced hd)]
  intro i e he
  obtain ⟨hlt, -⟩ := List.getElem?_eq_some_iff.mp he
  obtain rfl : i = 0 := by omega
  obtain ⟨fields, hcached, hval⟩ := synced_entry (udp_synced hd) he
  obtain ⟨hlaid, -⟩ := (hd e.1).laid fields hcached
  rw [hcached]
  congr 1
  funext j
  by_cases hj : j.val < 6
  · exact (udp_word he hval hj).symm
  · have hbatch : (BpfPortPolicyMap.batchValues .udp (d.maps.portPolicies .udp)).length ≤ 24 := by
      rw [BpfPortPolicyMap.batchValues, List.length_flatMap]
      have hsize : ∀ x ∈ (d.maps.portPolicies .udp).entries,
          (BpfPortPolicyMap.valueBytes .udp x.2).length = 24 := fun x _ => length_valueBytes x.2
      rw [List.map_congr_left hsize, List.map_const', List.sum_replicate_nat]
      omega
    have hword : packedWord d.maps .udp (8*0 + j) = 0 := by
      rw [packedWord]
      apply wordAt_past
      omega
    have hviews : ∀ j : Fin 8, ¬j.val < 6 → j ∉ limitWords .udp := by decide
    have h3 : j ≠ 3 := by
      rintro rfl
      exact hj (by decide)
    have h4 : j ≠ 4 := by
      rintro rfl
      exact hj (by decide)
    rw [hword]
    exact hlaid.unused j h3 h4 (hviews j hj)

theorem udp_drift :
    dictDrift (BpfPortPolicyMap.readKernel noReadFaults .udp d) (d.policyCache .udp) = 0 ↔
      (d.maps.portPolicies .udp).entries.length ≤ 1 := by
  constructor
  · intro hzero
    by_contra hmore
    exact udp_drift_of_two hd (by omega) hzero
  · exact udp_drift_of_one hd

end Udp

/-- After any run of reconciles, whichever of their calls fail, a verification whose reads
succeed finds the policies of TCP as they are cached, and those of UDP exactly when at most
one port has one. With two of them the whole verification reports a drift. -/
theorem policies_verified (inner : InnerEntries) {prefixV4 prefixV6 : U32} {d : Daemon}
    (hd : ∀ p, PolicyLaid prefixV4 prefixV6 p d) (rounds : List (Config × DesiredState))
    (hrounds : ∀ r ∈ rounds, Configured prefixV4 prefixV6 r) :
    CacheVerifyMixin.verify noReadFaults inner (.policy .tcp) (reconciles d rounds) =
      (some 0, reconciles d rounds) ∧
    ((CacheVerifyMixin.verify noReadFaults inner (.policy .udp) (reconciles d rounds)).1 = some 0 ↔
      ((reconciles d rounds).maps.portPolicies .udp).entries.length ≤ 1) ∧
    ((reconciles d rounds).opened (.policy .udp) = true →
      2 ≤ ((reconciles d rounds).maps.portPolicies .udp).entries.length →
      ∃ drift, (verifyKernelState noReadFaults inner (reconciles d rounds)).1 = some drift ∧
        0 < drift) := by
  have hlaid (p : Proto) : PolicyLaid prefixV4 prefixV6 p (reconciles d rounds) :=
    reconciles_laid rounds hrounds (hd p)
  generalize reconciles d rounds = final at hlaid ⊢
  refine ⟨?_, ?_, ?_⟩
  · have hzero := tcp_drift fun q => (hlaid .tcp q).synced
    show (some _, if _ then _ else _) = _
    rw [hzero, if_pos rfl]
  · rw [← udp_drift (hlaid .udp)]
    exact Option.some_inj
  · intro hopen htwo
    have hmem : VerifiedMap.policy .udp ∈ verifiedMaps := by decide
    apply verifyMaps_detects inner verifiedMaps (by decide) 0 final _ hmem hopen
    intro e hmaps hsame hfound
    -- the maps verified before leave the policies and their cache alone
    have hcache : ∀ q, portEntry .udp q e = portEntry .udp q final := by
      intro q
      rw [portEntry, portEntry, hmaps, hsame q]
    have he : PolicyLaid prefixV4 prefixV6 .udp e := by
      intro q
      rw [hcache q]
      exact hlaid .udp q
    have hzero := Option.some_inj.mp hfound
    rw [udp_drift he, hmaps] at hzero
    omega

/-- Rates for two ports. -/
def twoRates : DesiredState where
  udpPorts := [53, 123]
  udpRateLimits := [⟨53, 100⟩, ⟨123, 50⟩].toAList

theorem policies_verified_two :
    (CacheVerifyMixin.verify noReadFaults (fun _ _ => 0) (.policy .udp)
      (reconciles {} [({}, twoRates)])).1 ≠ some 0 := by
  have hverified := policies_verified (fun _ _ => 0) emptyDaemon_laid [({}, twoRates)]
    (List.forall_mem_singleton.mpr ⟨rfl, rfl, rfl, rfl⟩)
  rw [Ne, hverified.2.1]
  have hcount : ((reconciles {} [({}, twoRates)]).maps.portPolicies .udp).entries.length = 2 := by
    decide +kernel
  omega

end AutoXdp
