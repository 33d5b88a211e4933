import AutoXdp.KernelReaders
import AutoXdp.PolicyPort
import Mathlib.Tactic.Basic

/-! What a pass of `verify` leaves in the caches when some of its system calls fail: the
entries that were read, whatever the kernel holds. -/
namespace AutoXdp
open StateSteps XdpBackend WordBytes

/-! Which entries are read. -/

/-- GET_NEXT_KEY gets as far as `key`. -/
def Reaches {κ : Type} (fails : ℕ → Bool) (keys : List κ) (key : κ) : Prop :=
  ∃ j, keys[j]? = some key ∧ ∀ i ≤ j, fails i = false

theorem mem_iterRawKeys {κ : Type} (fails : ℕ → Bool) (i : ℕ) (keys : List κ) (key : κ) :
    key ∈ iterRawKeys fails i keys ↔ Reaches (fun j => fails (i + j)) keys key := by
  induction keys generalizing i with
  | nil =>
    refine iff_of_false List.not_mem_nil ?_
    rintro ⟨j, hj, -⟩
    exact absurd hj nofun
  | cons k keys ih =>
    have hshift (n : ℕ) : fails (i+1 + n) = fails (i + (n+1)) := by
      rw [Nat.add_assoc, Nat.add_comm 1 n]
    unfold iterRawKeys
    cases hfail : fails i with
    | true =>
      refine iff_of_false List.not_mem_nil ?_
      rintro ⟨j, -, hj⟩
      have hzero : fails (i+0) = false := hj 0 (Nat.zero_le j)
      rw [Nat.add_zero, hfail] at hzero
      exact absurd hzero nofun
    | false =>
      rw [if_neg Bool.false_ne_true, List.mem_cons, ih]
      simp only [Reaches, hshift]
      constructor
      · rintro (rfl | ⟨j, hj, hreach⟩)
        · refine ⟨0, rfl, ?_⟩
          intro n hn
          rw [Nat.le_zero.mp hn]
          exact hfail
        · refine ⟨j+1, hj, ?_⟩
          intro n hn
          cases n with
          | zero => exact hfail
          | succ n => exact hreach n (by omega)
      · rintro ⟨j, hj, hreach⟩
        cases j with
        | zero => exact Or.inl (Option.some.inj hj).symm
        | succ j => exact Or.inr ⟨j, hj, fun n hn => hreach (n+1) (by omega)⟩

section Read

variable (faults : ReadFaults) (maps : Maps)

def OpenPort (m : PortMap) (port : U32) : Prop := port.toNat < 65536 ∧ maps.portMap m port ≠ 0

def Trusts (key : LpmKey) : Prop := (maps.trusted.lookup key).any (fun v => v ≠ 0) = true

/-- The slot is read by the batch or, after that failed, on its own. -/
def PortRead (m : PortMap) (port : U32) : Prop :=
  faults (.portBatch m) = false ∨ faults (.portLookup m port) = false

def TrustedRead (key : LpmKey) : Prop :=
  Reaches (fun i => faults (.trustedNext key.addr.family i))
    (BpfLpmMap.rawKeys key.addr.family maps.trusted) key ∧ faults (.trustedLookup key) = false

def AclRead (p : Proto) (key : LpmKey) : Prop :=
  Reaches (fun i => faults (.aclNext p key.addr.family i))
    (BpfLpmMap.rawKeys key.addr.family (maps.acl p)) key ∧ faults (.aclLookup p key) = false

/-- The words of all values of a policy map, one after the other. -/
def packedWord (p : Proto) (n : ℕ) : U32 :=
  wordAt (BpfPortPolicyMap.batchValues p (maps.portPolicies p)) (4*n)

/-- The tuple that is read for a port: eight words for each entry before it. -/
def PolicyRead (p : Proto) (port : U32) (fields : PolicyFields) : Prop :=
  faults (.policyBatch p) = false ∧ ∃ i, (maps.portPolicies p).keys[i]? = some port ∧
    fields = fun j : Fin 8 => packedWord maps p (8*i + j)

def Occupied (m : OuterMap) (port : U32) : Prop :=
  port.toNat < 65536 ∧ (maps.rateOuter m port).isSome = true

def SlotRead (m : OuterMap) (port : U32) : Prop :=
  faults (.slotLookup m port) = false ∧ faults (.innerFd m port) = false

/-- The scan of the slots ends with an `OSError`. -/
def OuterRaises (m : OuterMap) : Prop :=
  ∃ port, Occupied maps m port ∧ SlotRead faults m port ∧ faults (.innerInfo m port) = true

end Read

/-! What is read. -/

theorem mem_slots (port : U32) : port ∈ slots ↔ port.toNat < 65536 := by
  simp only [slots, List.mem_map, List.mem_range]
  constructor
  · rintro ⟨n, hn, rfl⟩
    rw [BitVec.toNat_ofNat]
    omega
  · intro h
    exact ⟨port.toNat, h, BitVec.ofNat_toNat 32 port ▸ by simp⟩

section Readers

variable (faults : ReadFaults) (inner : InnerEntries) (d : Daemon)

theorem mem_ports_read (m : PortMap) (port : U32) :
    port ∈ BpfArrayMap.readKernel faults m d ↔ OpenPort d.maps m port ∧ PortRead faults m port := by
  unfold BpfArrayMap.readKernel
  cases hbatch : faults (.portBatch m) with
  | true =>
    rw [if_pos rfl, List.mem_filter, mem_slots]
    simp [OpenPort, PortRead, hbatch]
    tauto
  | false =>
    rw [if_neg Bool.false_ne_true, List.mem_filter, mem_slots]
    simp [OpenPort, PortRead, hbatch]

theorem mem_rawKeys {ν : Type} (fam : IpFamily) (t : BpfMap LpmKey ν) (key : LpmKey) :
    key ∈ BpfLpmMap.rawKeys fam t ↔ key ∈ t ∧ key.addr.family = fam := by
  rw [BpfLpmMap.rawKeys, List.mem_filter, decide_eq_true_eq, AList.mem_keys]

theorem mem_trusted_read (fam : IpFamily) (key : LpmKey) :
    key ∈ BpfLpmMap.readKernel faults fam d ↔
      key.addr.family = fam ∧ Trusts d.maps key ∧ TrustedRead faults d.maps key := by
  have hiter := mem_iterRawKeys (fun i => faults (.trustedNext fam i)) 0
    (BpfLpmMap.rawKeys fam d.maps.trusted) key
  simp only [Nat.zero_add] at hiter
  rw [BpfLpmMap.readKernel, List.mem_filter, hiter, Bool.and_eq_true, Bool.not_eq_true']
  constructor
  · rintro ⟨hreach, hlookup, htrusts⟩
    have hkey : key ∈ BpfLpmMap.rawKeys fam d.maps.trusted := by
      obtain ⟨j, hj, -⟩ := hreach
      exact List.mem_of_getElem? hj
    obtain ⟨-, rfl⟩ := (mem_rawKeys fam d.maps.trusted key).mp hkey
    exact ⟨rfl, htrusts, hreach, hlookup⟩
  · rintro ⟨rfl, htrusts, hreach, hlookup⟩
    exact ⟨hreach, hlookup, htrusts⟩

theorem filterMap_lookup {κ ν μ : Type} [DecidableEq κ] (f : κ → ν → Option μ) (t : BpfMap κ ν)
    (k : κ) : (dictFilterMap f t).lookup k = (t.lookup k).bind (f k) := by
  set items := t.entries.filterMap fun e => (f e.1 e.2).map fun v => (⟨e.1, v⟩ : Σ _ : κ, μ)
    with hitems
  have hnodup : items.NodupKeys := by
    rw [hitems, List.nodupKeys_iff_pairwise, List.pairwise_filterMap]
    refine (List.nodupKeys_iff_pairwise.mp t.nodupKeys).imp ?_
    intro e e' hne b hb b' hb'
    obtain ⟨v, -, rfl⟩ := Option.map_eq_some_iff.mp hb
    obtain ⟨v', -, rfl⟩ := Option.map_eq_some_iff.mp hb'
    exact hne
  have hlookup : (dictFilterMap f t).lookup k = items.dlookup k := AList.lookup_to_alist items
  rw [hlookup]
  apply Option.ext
  intro v
  rw [← Option.mem_def, List.mem_dlookup_iff hnodup, hitems, List.mem_filterMap,
    Option.bind_eq_some_iff]
  constructor
  · rintro ⟨e, he, hv⟩
    obtain ⟨v', hv', hsame⟩ := Option.map_eq_some_iff.mp hv
    obtain ⟨rfl, hval⟩ := Sigma.mk.inj hsame
    obtain rfl := eq_of_heq hval
    exact ⟨e.2, AList.mem_lookup_iff.mpr he, hv'⟩
  · rintro ⟨w, hw, hv⟩
    refine ⟨⟨k, w⟩, AList.mem_lookup_iff.mp hw, ?_⟩
    rw [hv]
    rfl

theorem acl_read (p : Proto) (fam : IpFamily) (key : LpmKey) (ports : List U16) :
    (BpfAclMap.readKernel faults p fam d).lookup key = some ports ↔
      key.addr.family = fam ∧ AclRead faults d.maps p key ∧
        ((d.maps.acl p).lookup key).map BpfAclMap.unpackVal = some ports := by
  have hiter := mem_iterRawKeys (fun i => faults (.aclNext p fam i)) 0
    (BpfLpmMap.rawKeys fam (d.maps.acl p)) key
  simp only [Nat.zero_add] at hiter
  rw [BpfAclMap.readKernel, filterMap_lookup, Option.bind_eq_some_iff, Option.map_eq_some_iff]
  constructor
  · rintro ⟨val, hval, hread⟩
    rw [Option.ite_none_right_eq_some, hiter] at hread
    obtain ⟨⟨hreach, hlookup⟩, hports⟩ := hread
    have hkey : key ∈ BpfLpmMap.rawKeys fam (d.maps.acl p) := by
      obtain ⟨j, hj, -⟩ := hreach
      exact List.mem_of_getElem? hj
    obtain ⟨-, rfl⟩ := (mem_rawKeys fam (d.maps.acl p) key).mp hkey
    exact ⟨rfl, ⟨hreach, hlookup⟩, val, hval, Option.some.inj hports⟩
  · rintro ⟨rfl, ⟨hreach, hlookup⟩, val, hval, hports⟩
    refine ⟨val, hval, ?_⟩
    rw [Option.ite_none_right_eq_some, hiter]
    exact ⟨⟨hreach, hlookup⟩, congrArg some hports⟩

theorem policy_read (p : Proto) (port : U32) (fields : PolicyFields) :
    (BpfPortPolicyMap.readKernel faults p d).lookup port = some fields ↔
      PolicyRead faults d.maps p port fields := by
  unfold BpfPortPolicyMap.readKernel PolicyRead
  cases hbatch : faults (.policyBatch p) with
  | true =>
    rw [if_pos rfl]
    refine iff_of_false nofun ?_
    rintro ⟨h, -⟩
    exact absurd h nofun
  | false =>
    rw [if_neg Bool.false_ne_true]
    set t := d.maps.portPolicies p with ht
    set items := t.keys.mapIdx fun i port =>
      (⟨port, BpfPortPolicyMap.unpackFrom (BpfPortPolicyMap.batchValues p t) i⟩ :
        Σ _ : U32, PolicyFields) with hitems
    have hkeys : items.keys = t.keys := by
      apply List.ext_getElem?
      intro i
      rw [List.keys, List.getElem?_map, hitems, List.getElem?_mapIdx, Option.map_map]
      exact Option.map_id'
    have hnodup : items.NodupKeys := by
      rw [List.NodupKeys, hkeys]
      exact t.nodupKeys
    have hlookup : items.toAList.lookup port = items.dlookup port := AList.lookup_to_alist items
    have hword (i : ℕ) : BpfPortPolicyMap.unpackFrom (BpfPortPolicyMap.batchValues p t) i =
        fun j : Fin 8 => packedWord d.maps p (8*i + j) := by
      funext j
      rw [BpfPortPolicyMap.unpackFrom, packedWord, ← ht, Nat.mul_add, ← Nat.mul_assoc]
    rw [hlookup, ← Option.mem_def, List.mem_dlookup_iff hnodup, hitems, List.mem_iff_getElem?]
    constructor
    · rintro ⟨i, hi⟩
      rw [List.getElem?_mapIdx, Option.map_eq_some_iff] at hi
      obtain ⟨q, hq, hsame⟩ := hi
      obtain ⟨rfl, hfields⟩ := Sigma.mk.inj hsame
      exact ⟨rfl, i, hq, (eq_of_heq hfields).symm.trans (hword i)⟩
    · rintro ⟨-, i, hi, rfl⟩
      refine ⟨i, ?_⟩
      rw [List.getElem?_mapIdx, hi, Option.map_some, hword]

/-- The scan from one slot on. -/
def outerScan (m : OuterMap) (ports : List U32) (out : BpfMap U32 U32) : Option (BpfMap U32 U32) :=
  ports.foldlM (fun out port =>
    if (d.maps.rateOuter m port).isSome && !faults (.slotLookup m port) &&
        !faults (.innerFd m port) then
      if faults (.innerInfo m port) then none else some (out.insert port (inner m port))
    else some out) out

theorem outerScan_spec (m : OuterMap) (ports : List U32) (out : BpfMap U32 U32) :
    (outerScan faults inner d m ports out = none ∧ ∃ port ∈ ports,
        (d.maps.rateOuter m port).isSome = true ∧ SlotRead faults m port ∧
          faults (.innerInfo m port) = true) ∨
    (∃ read, outerScan faults inner d m ports out = some read ∧
      (∀ port ∈ ports, (d.maps.rateOuter m port).isSome = true → SlotRead faults m port →
        faults (.innerInfo m port) = false) ∧
      ∀ port capacity, read.lookup port = some capacity ↔
        (port ∈ ports ∧ (d.maps.rateOuter m port).isSome = true ∧ SlotRead faults m port ∧
          capacity = inner m port) ∨
        (¬(port ∈ ports ∧ (d.maps.rateOuter m port).isSome = true ∧ SlotRead faults m port) ∧
          out.lookup port = some capacity)) := by
  induction ports generalizing out with
  | nil =>
    right
    refine ⟨out, rfl, nofun, ?_⟩
    intro port capacity
    simp only [List.not_mem_nil, false_and, not_false_eq_true, true_and, false_or]
  | cons x xs ih =>
    unfold outerScan at ih ⊢
    rw [List.foldlM_cons]
    have hread : ((d.maps.rateOuter m x).isSome && !faults (.slotLookup m x) &&
        !faults (.innerFd m x)) = true ↔
        (d.maps.rateOuter m x).isSome = true ∧ SlotRead faults m x := by
      simp only [Bool.and_eq_true, Bool.not_eq_true', SlotRead, and_assoc]
    by_cases hx : (d.maps.rateOuter m x).isSome = true ∧ SlotRead faults m x
    · rw [if_pos (hread.mpr hx)]
      cases hinfo : faults (.innerInfo m x) with
      | true => exact Or.inl ⟨rfl, x, List.mem_cons_self .., hx.1, hx.2, hinfo⟩
      | false =>
        rw [if_neg Bool.false_ne_true, Option.bind_eq_bind, Option.bind_some]
        rcases ih (out.insert x (inner m x)) with ⟨hnone, port, hport, hrest⟩ |
          ⟨read, hsome, hclear, hlookup⟩
        · exact Or.inl ⟨hnone, port, List.mem_cons_of_mem x hport, hrest⟩
        · refine Or.inr ⟨read, hsome, ?_, ?_⟩
          · intro port hport hsome' hslot
            rcases List.mem_cons.mp hport with rfl | hport
            · exact hinfo
            · exact hclear port hport hsome' hslot
          · intro port capacity
            rw [hlookup]
            by_cases hport : port = x
            · subst hport
              rw [AList.lookup_insert]
              have heq : some (inner m port) = some capacity ↔ capacity = inner m port :=
                ⟨fun h => (Option.some.inj h).symm, fun h => by rw [h]⟩
              simp only [List.mem_cons, true_or, hx.1, hx.2, heq, true_and, not_true_eq_false,
                false_and, or_false, and_true]
              tauto
            · rw [AList.lookup_insert_ne hport]
              simp only [List.mem_cons, hport, false_or]
    · rw [if_neg (fun h => hx (hread.mp h)), Option.bind_eq_bind, Option.bind_some]
      rcases ih out with ⟨hnone, port, hport, hrest⟩ | ⟨read, hsome, hclear, hlookup⟩
      · exact Or.inl ⟨hnone, port, List.mem_cons_of_mem x hport, hrest⟩
      · refine Or.inr ⟨read, hsome, ?_, ?_⟩
        · intro port hport hsome' hslot
          rcases List.mem_cons.mp hport with rfl | hport
          · exact absurd ⟨hsome', hslot⟩ hx
          · exact hclear port hport hsome' hslot
        · intro port capacity
          rw [hlookup]
          by_cases hport : port = x
          · subst hport
            have hnot : ¬(port ∈ xs ∧ (d.maps.rateOuter m port).isSome = true ∧
                SlotRead faults m port) := fun h => hx h.2
            have hnot' : ¬(port ∈ port :: xs ∧ (d.maps.rateOuter m port).isSome = true ∧
                SlotRead faults m port) := fun h => hx h.2
            have hnone (c : Prop) : ¬(port ∈ xs ∧ (d.maps.rateOuter m port).isSome = true ∧
                SlotRead faults m port ∧ c) := fun h => hx ⟨h.2.1, h.2.2.1⟩
            have hnone' (c : Prop) : ¬(port ∈ port :: xs ∧ (d.maps.rateOuter m port).isSome = true ∧
                SlotRead faults m port ∧ c) := fun h => hx ⟨h.2.1, h.2.2.1⟩
            simp only [hnot, hnot', hnone, hnone', false_or, not_false_eq_true, true_and]
          · simp only [List.mem_cons, hport, false_or]

theorem outer_read (m : OuterMap) :
    (BpfRateOuterMap.readKernel faults inner m d = none ∧ OuterRaises faults d.maps m) ∨
    (∃ read, BpfRateOuterMap.readKernel faults inner m d = some read ∧
      ¬OuterRaises faults d.maps m ∧
      ∀ port capacity, read.lookup port = some capacity ↔
        Occupied d.maps m port ∧ SlotRead faults m port ∧ capacity = inner m port) := by
  rcases outerScan_spec faults inner d m slots ∅ with ⟨hnone, port, hport, hrest⟩ |
    ⟨read, hsome, hclear, hlookup⟩
  · exact Or.inl ⟨hnone, port, ⟨(mem_slots port).mp hport, hrest.1⟩, hrest.2⟩
  · refine Or.inr ⟨read, hsome, ?_, ?_⟩
    · rintro ⟨port, ⟨hlt, hocc⟩, hread, hinfo⟩
      rw [hclear port ((mem_slots port).mpr hlt) hocc hread] at hinfo
      exact absurd hinfo nofun
    · intro port capacity
      rw [hlookup, mem_slots]
      simp only [AList.lookup_empty, reduceCtorEq, and_false, or_false, Occupied, and_assoc]

end Readers

/-! Caches after `verify`. -/

/-- The cache holds what is read of the map, or the reader raises. -/
def AsRead (faults : ReadFaults) (inner : InnerEntries) (d : Daemon) : VerifiedMap → Prop
  | .port m => ∀ port, port ∈ d.portCache m ↔ OpenPort d.maps m port ∧ PortRead faults m port
  | .trusted fam => ∀ key, key.addr.family = fam →
    (key ∈ d.trustedCache ↔ Trusts d.maps key ∧ TrustedRead faults d.maps key)
  | .policy p => ∀ port fields,
    (d.policyCache p).lookup port = some fields ↔ PolicyRead faults d.maps p port fields
  | .acl p fam => ∀ key ports, key.addr.family = fam →
    ((d.aclCache p).lookup key = some ports ↔ AclRead faults d.maps p key ∧
      ((d.maps.acl p).lookup key).map BpfAclMap.unpackVal = some ports)
  | .sit4 => iterRaises (fun i => faults (.sit4Next i)) d.maps.sit4Endpoints.keys = true ∨
    ∀ a, a ∈ d.sit4Cache ↔ a ∈ d.maps.sit4Endpoints
  | .outer m => OuterRaises faults d.maps m ∨ ∀ port capacity,
    (d.outerCache m).lookup port = some capacity ↔
      Occupied d.maps m port ∧ SlotRead faults m port ∧ capacity = inner m port

/-- The caches of one map are equal. -/
def CacheSame (d d' : Daemon) : VerifiedMap → Prop
  | .port m => ∀ port, port ∈ d'.portCache m ↔ port ∈ d.portCache m
  | .trusted fam => ∀ key, key.addr.family = fam → (key ∈ d'.trustedCache ↔ key ∈ d.trustedCache)
  | .policy p => ∀ port, (d'.policyCache p).lookup port = (d.policyCache p).lookup port
  | .acl p fam => ∀ key, key.addr.family = fam →
    (d'.aclCache p).lookup key = (d.aclCache p).lookup key
  | .sit4 => ∀ a, a ∈ d'.sit4Cache ↔ a ∈ d.sit4Cache
  | .outer m => ∀ port, (d'.outerCache m).lookup port = (d.outerCache m).lookup port

theorem setDrift_zero {κ : Type} [DecidableEq κ] (kernel cache : List κ) :
    setDrift kernel cache = 0 ↔ ∀ k, k ∈ kernel ↔ k ∈ cache := by
  have hempty (s : List κ) : s.dedup.length = 0 ↔ ∀ k, k ∉ s := by
    rw [List.length_eq_zero_iff, List.eq_nil_iff_forall_not_mem]
    simp only [List.mem_dedup]
  rw [setDrift, Nat.add_eq_zero_iff, hempty, hempty]
  simp only [mem_setDiff, not_and, not_not]
  exact ⟨fun h k => ⟨h.1 k, h.2 k⟩, fun h => ⟨fun k => (h k).mp, fun k => (h k).mpr⟩⟩

theorem dictDrift_zero {κ ν : Type} [DecidableEq κ] [DecidableEq ν] (kernel cache : BpfMap κ ν) :
    dictDrift kernel cache = 0 ↔ ∀ k, kernel.lookup k = cache.lookup k := by
  rw [dictDrift, List.length_eq_zero_iff, List.filter_eq_nil_iff]
  simp only [List.mem_dedup, List.mem_append, decide_eq_true_eq, not_not, ← AList.mem_keys]
  constructor
  · intro h k
    by_cases hk : k ∈ kernel ∨ k ∈ cache
    · exact h k hk
    · rw [not_or] at hk
      rw [AList.lookup_eq_none.mpr hk.1, AList.lookup_eq_none.mpr hk.2]
  · exact fun h k _ => h k

theorem dictFilter_lookup {κ ν : Type} [DecidableEq κ] (keep : κ → Bool) (t : BpfMap κ ν) (k : κ) :
    (dictFilter keep t).lookup k = if keep k = true then t.lookup k else none := by
  have hmem (v : ν) : v ∈ (dictFilter keep t).lookup k ↔ keep k = true ∧ v ∈ t.lookup k := by
    rw [AList.mem_lookup_iff, AList.mem_lookup_iff, dictFilter, List.mem_filter, and_comm]
  apply Option.ext
  intro v
  rw [← Option.mem_def, ← Option.mem_def, hmem]
  split_ifs with hk
  · simp only [hk, true_and]
  · exact iff_of_false (fun h => hk h.1) nofun

section Verify

variable (faults : ReadFaults) (inner : InnerEntries) (d : Daemon)

theorem verify_port (m : PortMap) :
    (CacheVerifyMixin.verify faults inner (.port m) d).2 =
      if setDrift (BpfArrayMap.readKernel faults m d) (d.portCache m) = 0 then d
      else d.setPortCache m (BpfArrayMap.readKernel faults m d) := rfl

theorem verify_trusted (fam : IpFamily) :
    (CacheVerifyMixin.verify faults inner (.trusted fam) d).2 =
      if setDrift (BpfLpmMap.readKernel faults fam d)
        (d.trustedCache.filter fun key => key.addr.family = fam) = 0 then d
      else { d with trustedCache := (d.trustedCache.filter fun key => key.addr.family ≠ fam) ++
        BpfLpmMap.readKernel faults fam d } := rfl

theorem verify_policy (p : Proto) :
    (CacheVerifyMixin.verify faults inner (.policy p) d).2 =
      if dictDrift (BpfPortPolicyMap.readKernel faults p d) (d.policyCache p) = 0 then d
      else d.setPolicyCache p (BpfPortPolicyMap.readKernel faults p d) := rfl

theorem verify_acl (p : Proto) (fam : IpFamily) :
    (CacheVerifyMixin.verify faults inner (.acl p fam) d).2 =
      if dictDrift (BpfAclMap.readKernel faults p fam d)
        (dictFilter (fun key => key.addr.family = fam) (d.aclCache p)) = 0 then d
      else d.setAclCache p (BpfAclMap.readKernel faults p fam d ∪
        dictFilter (fun key => key.addr.family ≠ fam) (d.aclCache p)) := rfl

/-- Both readers that raise leave the cache alone then. -/
theorem verify_sit4 :
    (iterRaises (fun i => faults (.sit4Next i)) d.maps.sit4Endpoints.keys = true ∧
      CacheVerifyMixin.verify faults inner .sit4 d = (none, d)) ∨
    (iterRaises (fun i => faults (.sit4Next i)) d.maps.sit4Endpoints.keys = false ∧
      (CacheVerifyMixin.verify faults inner .sit4 d).2 =
        if setDrift d.maps.sit4Endpoints.keys d.sit4Cache = 0 then d
        else { d with sit4Cache := d.maps.sit4Endpoints.keys }) := by
  have hread : BpfSit4EndpointsMap.readKernel faults d =
      if iterRaises (fun i => faults (.sit4Next i)) d.maps.sit4Endpoints.keys then none
      else some d.maps.sit4Endpoints.keys := rfl
  unfold CacheVerifyMixin.verify
  cases hraises : iterRaises (fun i => faults (.sit4Next i)) d.maps.sit4Endpoints.keys with
  | true =>
    rw [hraises, if_pos rfl] at hread
    simp only [hread, and_true, reduceCtorEq, false_and, or_false]
  | false =>
    rw [hraises, if_neg Bool.false_ne_true] at hread
    simp only [hread, and_true, reduceCtorEq, false_and, false_or]

theorem verify_outer (m : OuterMap) :
    (OuterRaises faults d.maps m ∧ CacheVerifyMixin.verify faults inner (.outer m) d = (none, d)) ∨
    (¬OuterRaises faults d.maps m ∧ ∃ read : BpfMap U32 U32,
      (∀ port capacity, read.lookup port = some capacity ↔
        Occupied d.maps m port ∧ SlotRead faults m port ∧ capacity = inner m port) ∧
      (CacheVerifyMixin.verify faults inner (.outer m) d).2 =
        if dictDrift read (d.outerCache m) = 0 then d else d.setOuterCache m read) := by
  unfold CacheVerifyMixin.verify
  rcases outer_read faults inner d m with ⟨hnone, hraises⟩ | ⟨read, hsome, hraises, hlookup⟩
  · left
    simp only [hnone, and_true]
    exact hraises
  · right
    simp only [hsome]
    exact ⟨hraises, read, hlookup, rfl⟩

theorem cacheSame_refl (m : VerifiedMap) : CacheSame d d m := by
  cases m <;> simp only [CacheSame, implies_true]

/-- Where one cache is not replaced, or replaced with a frame for the others. -/
theorem frame_ite (c : Prop) [Decidable c] (m : VerifiedMap) (d' : Daemon)
    (hmaps : d'.maps = d.maps) (hopened : d'.opened = d.opened) (hlog : d'.log = d.log)
    (hfault : d'.fault = d.fault) (hother : ∀ n, n ≠ m → CacheSame d d' n) :
    (if c then d else d').maps = d.maps ∧ (if c then d else d').opened = d.opened ∧
      (if c then d else d').log = d.log ∧ (if c then d else d').fault = d.fault ∧
      ∀ n, n ≠ m → CacheSame d (if c then d else d') n := by
  split_ifs
  · exact ⟨rfl, rfl, rfl, rfl, fun n _ => cacheSame_refl d n⟩
  · exact ⟨hmaps, hopened, hlog, hfault, hother⟩

/-- The kernel is only read, and the caches of the other maps are left alone. -/
theorem verify_frame (m : VerifiedMap) :
    (CacheVerifyMixin.verify faults inner m d).2.maps = d.maps ∧
      (CacheVerifyMixin.verify faults inner m d).2.opened = d.opened ∧
      (CacheVerifyMixin.verify faults inner m d).2.log = d.log ∧
      (CacheVerifyMixin.verify faults inner m d).2.fault = d.fault ∧
      ∀ n, n ≠ m → CacheSame d (CacheVerifyMixin.verify faults inner m d).2 n := by
  cases m with
  | port m =>
    rw [verify_port]
    refine frame_ite d _ _ _ rfl rfl rfl rfl fun n hn => ?_
    cases n with
    | port m' =>
      have hne : m' ≠ m := fun h => hn (congrArg _ h)
      simp only [CacheSame, Daemon.setPortCache, Function.update_of_ne hne, implies_true]
    | _ => simp only [CacheSame, Daemon.setPortCache, implies_true]
  | trusted fam =>
    rw [verify_trusted]
    refine frame_ite d _ _ _ rfl rfl rfl rfl fun n hn => ?_
    cases n with
    | trusted fam' =>
      intro key hfam
      have hne : key.addr.family ≠ fam := fun h => hn (congrArg _ (hfam.symm.trans h))
      rw [List.mem_append, List.mem_filter, mem_trusted_read]
      simp only [hne, ne_eq, not_false_eq_true, decide_true, and_true, false_and, or_false]
    | _ => simp only [CacheSame, implies_true]
  | policy p =>
    rw [verify_policy]
    refine frame_ite d _ _ _ rfl rfl rfl rfl fun n hn => ?_
    cases n with
    | policy p' =>
      have hne : p' ≠ p := fun h => hn (congrArg _ h)
      simp only [CacheSame, Daemon.setPolicyCache, Function.update_of_ne hne, implies_true]
    | _ => simp only [CacheSame, Daemon.setPolicyCache, implies_true]
  | acl p fam =>
    rw [verify_acl]
    refine frame_ite d _ _ _ rfl rfl rfl rfl fun n hn => ?_
    cases n with
    | acl p' fam' =>
      intro key hfam
      by_cases hp : p' = p
      · subst hp
        have hne : key.addr.family ≠ fam := fun h => hn (by rw [← hfam, h])
        have hunread : (BpfAclMap.readKernel faults p' fam d).lookup key = none := by
          rw [Option.eq_none_iff_forall_ne_some]
          exact fun ports h => hne ((acl_read faults d p' fam key ports).mp h).1
        simp only [Daemon.setAclCache, Function.update_self]
        rw [AList.lookup_union_right (AList.lookup_eq_none.mp hunread), dictFilter_lookup,
          if_pos (decide_eq_true hne)]
      · simp only [Daemon.setAclCache, Function.update_of_ne hp]
    | _ => simp only [CacheSame, Daemon.setAclCache, implies_true]
  | sit4 =>
    rcases verify_sit4 faults inner d with ⟨-, hrun⟩ | ⟨-, hrun⟩
    · rw [hrun]
      exact ⟨rfl, rfl, rfl, rfl, fun n _ => cacheSame_refl d n⟩
    · rw [hrun]
      refine frame_ite d _ _ _ rfl rfl rfl rfl fun n hn => ?_
      cases n with
      | sit4 => exact absurd rfl hn
      | _ => simp only [CacheSame, implies_true]
  | outer m =>
    rcases verify_outer faults inner d m with ⟨-, hrun⟩ | ⟨-, read, -, hrun⟩
    · rw [hrun]
      exact ⟨rfl, rfl, rfl, rfl, fun n _ => cacheSame_refl d n⟩
    · rw [hrun]
      refine frame_ite d _ _ _ rfl rfl rfl rfl fun n hn => ?_
      cases n with
      | outer m' =>
        have hne : m' ≠ m := fun h => hn (congrArg _ h)
        simp only [CacheSame, Daemon.setOuterCache, Function.update_of_ne hne, implies_true]
      | _ => simp only [CacheSame, Daemon.setOuterCache, implies_true]

/-- Whatever fails, the cache then holds what was read. -/
theorem verify_asRead (m : VerifiedMap) :
    AsRead faults inner (CacheVerifyMixin.verify faults inner m d).2 m := by
  cases m with
  | port m =>
    intro port
    rw [verify_port]
    split_ifs with hdrift
    · rw [← (setDrift_zero _ _).mp hdrift port, mem_ports_read]
    · simp only [Daemon.setPortCache, Function.update_self, mem_ports_read]
  | trusted fam =>
    intro key hfam
    rw [verify_trusted]
    split_ifs with hdrift
    · have hsame := (setDrift_zero _ _).mp hdrift key
      rw [mem_trusted_read, List.mem_filter, decide_eq_true_eq] at hsame
      simp only [hfam, true_and, and_true] at hsame
      exact hsame.symm
    · rw [List.mem_append, List.mem_filter, mem_trusted_read]
      simp only [hfam, ne_eq, not_true_eq_false, decide_false, Bool.false_eq_true, and_false,
        true_and, false_or]
  | policy p =>
    intro port fields
    rw [verify_policy]
    split_ifs with hdrift
    · rw [← (dictDrift_zero _ _).mp hdrift port, policy_read]
    · simp only [Daemon.setPolicyCache, Function.update_self, policy_read]
  | acl p fam =>
    intro key ports hfam
    have hread := acl_read faults d p fam key ports
    simp only [hfam, true_and] at hread
    rw [verify_acl]
    split_ifs with hdrift
    · have hsame := (dictDrift_zero _ _).mp hdrift key
      rw [dictFilter_lookup, if_pos (decide_eq_true hfam)] at hsame
      rw [← hsame, hread]
    · simp only [Daemon.setAclCache, Function.update_self]
      by_cases hkey : key ∈ BpfAclMap.readKernel faults p fam d
      · rw [AList.lookup_union_left hkey, hread]
      · have hdrop : ¬decide (key.addr.family ≠ fam) = true := by
          rw [decide_eq_true_eq, not_not]
          exact hfam
        rw [AList.lookup_union_right hkey, dictFilter_lookup, if_neg hdrop]
        rw [AList.lookup_eq_none.mpr hkey] at hread
        exact hread
  | sit4 =>
    rcases verify_sit4 faults inner d with ⟨hraises, hrun⟩ | ⟨-, hrun⟩
    · rw [hrun]
      exact Or.inl hraises
    · rw [hrun]
      right
      intro a
      split_ifs with hdrift
      · rw [← (setDrift_zero _ _).mp hdrift a, AList.mem_keys]
      · exact AList.mem_keys.symm
  | outer m =>
    rcases verify_outer faults inner d m with ⟨hraises, hrun⟩ | ⟨-, read, hlookup, hrun⟩
    · rw [hrun]
      exact Or.inl hraises
    · rw [hrun]
      right
      intro port capacity
      split_ifs with hdrift
      · rw [← (dictDrift_zero _ _).mp hdrift port, hlookup]
      · simp only [Daemon.setOuterCache, Function.update_self, hlookup]

theorem asRead_congr (m : VerifiedMap) (d' : Daemon) (hmaps : d'.maps = d.maps)
    (hsame : CacheSame d d' m) :
    AsRead faults inner d' m ↔ AsRead faults inner d m := by
  cases m with
  | port m => simp only [AsRead, hmaps, hsame _]
  | trusted fam =>
    simp only [AsRead, hmaps]
    refine forall₂_congr fun key hfam => ?_
    rw [hsame key hfam]
  | policy p => simp only [AsRead, hmaps, hsame _]
  | acl p fam =>
    simp only [AsRead, hmaps]
    refine forall₃_congr fun key ports hfam => ?_
    rw [hsame key hfam]
  | sit4 => simp only [AsRead, hmaps, hsame _]
  | outer m => simp only [AsRead, hmaps, hsame _]

theorem cacheSame_trans {d e f : Daemon} {m : VerifiedMap} (h : CacheSame d e m)
    (h' : CacheSame e f m) : CacheSame d f m := by
  cases m with
  | port m => exact fun port => (h' port).trans (h port)
  | trusted fam => exact fun key hfam => (h' key hfam).trans (h key hfam)
  | policy p => exact fun port => (h' port).trans (h port)
  | acl p fam => exact fun key hfam => (h' key hfam).trans (h key hfam)
  | sit4 => exact fun a => (h' a).trans (h a)
  | outer m => exact fun port => (h' port).trans (h port)

/-! The whole pass. -/

/-- The readers that swallow every error. -/
def VerifiedMap.swallows : VerifiedMap → Bool
  | sit4 => false
  | outer _ => false
  | _ => true

theorem verify_swallows (m : VerifiedMap) (hm : m.swallows = true) :
    ∃ diff, (CacheVerifyMixin.verify faults inner m d).1 = some diff := by
  cases m with
  | sit4 => exact absurd hm nofun
  | outer m => exact absurd hm nofun
  | _ => exact ⟨_, rfl⟩

/-- What a pass over some maps leaves as it is. -/
structure Verified (ms : List VerifiedMap) (d d' : Daemon) : Prop where
  maps : d'.maps = d.maps
  opened : d'.opened = d.opened
  log : d'.log = d.log
  fault : d'.fault = d.fault
  rest : ∀ n, n ∉ ms → CacheSame d d' n
  kept : ∀ n, AsRead faults inner d n → AsRead faults inner d' n

theorem verified_refl : Verified faults inner [] d d :=
  ⟨rfl, rfl, rfl, rfl, fun n _ => cacheSame_refl d n, fun _ h => h⟩

theorem verify_verified (m : VerifiedMap) :
    Verified faults inner [m] d (CacheVerifyMixin.verify faults inner m d).2 := by
  obtain ⟨hmaps, hopened, hlog, hfault, hother⟩ := verify_frame faults inner d m
  refine ⟨hmaps, hopened, hlog, hfault, fun n hn => hother n fun h => hn (h ▸ List.mem_singleton_self m), ?_⟩
  intro n hn
  by_cases h : n = m
  · rw [h]
    exact verify_asRead faults inner d m
  · exact (asRead_congr faults inner d n _ hmaps (hother n h)).mpr hn

variable {faults inner d} in
theorem verified_trans {e f : Daemon} {ms ns : List VerifiedMap} (h : Verified faults inner ms d e)
    (h' : Verified faults inner ns e f) : Verified faults inner (ms ++ ns) d f where
  maps := h'.maps.trans h.maps
  opened := h'.opened.trans h.opened
  log := h'.log.trans h.log
  fault := h'.fault.trans h.fault
  rest n hn := by
    rw [List.mem_append, not_or] at hn
    exact cacheSame_trans (h.rest n hn.1) (h'.rest n hn.2)
  kept n hn := h'.kept n (h.kept n hn)

/-- A pass reads every open map up to the first reader that raises. -/
theorem verifyMaps_spec (ms : List VerifiedMap) (total : ℕ) :
    Verified faults inner ms d (verifyMaps faults inner ms total d).2 ∧
      ∀ pre m post, ms = pre ++ m :: post → (∀ n ∈ pre, n.swallows = true) → m.isOpen d = true →
        AsRead faults inner (verifyMaps faults inner ms total d).2 m := by
  induction ms generalizing total d with
  | nil =>
    refine ⟨verified_refl faults inner d, ?_⟩
    intro pre m post h
    exact absurd h (by simp)
  | cons x xs ih =>
    have hopenSame (e : Daemon) (h : e.opened = d.opened) (n : VerifiedMap) :
        n.isOpen e = n.isOpen d := by
      unfold VerifiedMap.isOpen
      rw [h]
    have hone := verify_verified faults inner d x
    by_cases hopen : x.isOpen d = true
    · have hrun : verifyMaps faults inner (x :: xs) total d =
          (CacheVerifyMixin.verify faults inner x d).1.elim
            (none, (CacheVerifyMixin.verify faults inner x d).2) fun diff =>
              verifyMaps faults inner xs (total + diff)
                (CacheVerifyMixin.verify faults inner x d).2 := by
        rw [verifyMaps, run_get_bind, run_ite, if_pos hopen, run_bind]
        generalize CacheVerifyMixin.verify faults inner x d = r
        obtain ⟨diff, e⟩ := r
        cases diff <;> rfl
      rw [hrun]
      cases hdiff : (CacheVerifyMixin.verify faults inner x d).1 with
      | none =>
        constructor
        · exact { hone with
            rest := fun n hn => hone.rest n fun h => hn (List.mem_singleton.mp h ▸ List.mem_cons_self ..) }
        · intro pre m post hms hpre _
          cases pre with
          | nil =>
            obtain ⟨rfl, -⟩ := List.cons.inj hms
            exact verify_asRead faults inner d x
          | cons y ys =>
            obtain ⟨rfl, -⟩ := List.cons.inj hms
            obtain ⟨diff, hsome⟩ := verify_swallows faults inner d x (hpre x (List.mem_cons_self ..))
            rw [hdiff] at hsome
            exact absurd hsome (by rintro ⟨⟩)
      | some diff =>
        obtain ⟨hrest, hread⟩ := ih (CacheVerifyMixin.verify faults inner x d).2 (total + diff)
        constructor
        · exact verified_trans hone hrest
        · intro pre m post hms hpre hm
          cases pre with
          | nil =>
            obtain ⟨rfl, -⟩ := List.cons.inj hms
            exact hrest.kept x (verify_asRead faults inner d x)
          | cons y ys =>
            obtain ⟨rfl, htail⟩ := List.cons.inj hms
            apply hread ys m post htail fun n hn => hpre n (List.mem_cons_of_mem x hn)
            rw [hopenSame _ hone.opened]
            exact hm
    · have hrun : verifyMaps faults inner (x :: xs) total d = verifyMaps faults inner xs total d := by
        rw [verifyMaps, run_get_bind, run_ite, if_neg hopen]
      rw [hrun]
      obtain ⟨hrest, hread⟩ := ih d total
      constructor
      · exact { hrest with rest := fun n hn => hrest.rest n fun h => hn (List.mem_cons_of_mem x h) }
      · intro pre m post hms hpre hm
        cases pre with
        | nil =>
          obtain ⟨rfl, -⟩ := List.cons.inj hms
          exact absurd hm hopen
        | cons y ys =>
          obtain ⟨rfl, htail⟩ := List.cons.inj hms
          exact hread ys m post htail (fun n hn => hpre n (List.mem_cons_of_mem x hn)) hm

/-- The maps whose readers swallow errors are all read. -/
theorem verifyKernelState_asRead (m : VerifiedMap) (hm : m.swallows = true)
    (hopen : m.isOpen d = true) : AsRead faults inner (verifyKernelState faults inner d).2 m := by
  have hspec := (verifyMaps_spec faults inner d verifiedMaps 0).2
  have hsplit : ∃ pre post, verifiedMaps = pre ++ m :: post ∧ ∀ n ∈ pre, n.swallows = true := by
    cases m with
    | port m =>
      cases m with
      | tcp => exact ⟨[], _, rfl, by decide⟩
      | udp => exact ⟨[.port .tcp], _, rfl, by decide⟩
      | sctp => exact ⟨[.port .tcp, .port .udp], _, rfl, by decide⟩
    | trusted fam =>
      cases fam with
      | ipv4 => exact ⟨verifiedMaps.take 3, _, rfl, by decide⟩
      | ipv6 => exact ⟨verifiedMaps.take 4, _, rfl, by decide⟩
    | policy p =>
      cases p with
      | tcp => exact ⟨verifiedMaps.take 5, _, rfl, by decide⟩
      | udp => exact ⟨verifiedMaps.take 6, _, rfl, by decide⟩
    | acl p fam =>
      cases p <;> cases fam
      · exact ⟨verifiedMaps.take 7, _, rfl, by decide⟩
      · exact ⟨verifiedMaps.take 8, _, rfl, by decide⟩
      · exact ⟨verifiedMaps.take 9, _, rfl, by decide⟩
      · exact ⟨verifiedMaps.take 10, _, rfl, by decide⟩
    | sit4 => exact absurd hm nofun
    | outer m => exact absurd hm nofun
  obtain ⟨pre, post, hms, hpre⟩ := hsplit
  exact hspec pre m post hms hpre hopen

end Verify

end AutoXdp
