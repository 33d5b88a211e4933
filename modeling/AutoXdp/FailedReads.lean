import AutoXdp.SettledMaps
import Mathlib.Tactic.Basic
import Mathlib.Tactic.SplitIfs

/-! A kernel read that failed in part: when the cache that it leaves is still the truth,
and when the next reconcile removes what is not desired. -/
namespace AutoXdp
open StateSteps XdpBackend WordBytes

/-! One map. -/

/-- The word lies within a value of the map. -/
def InValue (p : Proto) (j : Fin 8) : Prop := 4*(j : ℕ) + 4 ≤ policyValueSize p

/-- The cache of `d'` is what the kernel holds in `d`: an LPM entry counts when its value
is set, and a policy is the words of its value. -/
def ExactCache (inner : InnerEntries) (d d' : Daemon) : VerifiedMap → Prop
  | .port m => ∀ port, port ∈ d'.portCache m ↔ OpenPort d.maps m port
  | .trusted fam => ∀ key, key.addr.family = fam → (key ∈ d'.trustedCache ↔ Trusts d.maps key)
  | .policy p => ∀ port, (port ∈ d'.policyCache p ↔ port ∈ d.maps.portPolicies p) ∧
    ∀ fields val, (d'.policyCache p).lookup port = some fields →
      (d.maps.portPolicies p).lookup port = some val →
      ∀ j, InValue p j → fields j = wordAt val (4*j)
  | .acl p fam => ∀ key, key.addr.family = fam →
    (d'.aclCache p).lookup key = ((d.maps.acl p).lookup key).map BpfAclMap.unpackVal
  | .sit4 => ∀ a, a ∈ d'.sit4Cache ↔ a ∈ d.maps.sit4Endpoints
  | .outer m => ∀ port capacity, (d'.outerCache m).lookup port = some capacity ↔
    Occupied d.maps m port ∧ capacity = inner m port

/-- No failure loses an entry. -/
def NothingLost (faults : ReadFaults) (maps : Maps) : VerifiedMap → Prop
  | .port m => ∀ port, OpenPort maps m port → PortRead faults m port
  | .trusted fam => ∀ key, key.addr.family = fam → Trusts maps key → TrustedRead faults maps key
  | .policy p => ∀ i port val, (maps.portPolicies p).keys[i]? = some port →
    (maps.portPolicies p).lookup port = some val → faults (.policyBatch p) = false ∧
      ∀ j, InValue p j → packedWord maps p (8*i + j) = wordAt val (4*j)
  | .acl p fam => ∀ key, key.addr.family = fam → key ∈ maps.acl p → AclRead faults maps p key
  | .sit4 => True
  | .outer m => ∀ port, Occupied maps m port → SlotRead faults m port

section OneMap

variable (faults : ReadFaults) (inner : InnerEntries) (d : Daemon)

/-- The reader of the map ends with an `OSError`. -/
def Raises : VerifiedMap → Prop
  | .sit4 => iterRaises (fun i => faults (.sit4Next i)) d.maps.sit4Endpoints.keys = true
  | .outer m => OuterRaises faults d.maps m
  | _ => False

theorem verify_raises (m : VerifiedMap) (h : Raises faults d m) :
    (CacheVerifyMixin.verify faults inner m d).2 = d := by
  cases m with
  | sit4 =>
    rcases verify_sit4 faults inner d with ⟨-, hrun⟩ | ⟨hquiet, -⟩
    · rw [hrun]
    · rw [Raises, hquiet] at h
      exact absurd h nofun
  | outer m =>
    rcases verify_outer faults inner d m with ⟨-, hrun⟩ | ⟨hquiet, -⟩
    · rw [hrun]
    · exact absurd h hquiet
  | _ => exact absurd h id

theorem asRead_of_raises (m : VerifiedMap) (h : Raises faults d m) : AsRead faults inner d m := by
  cases m with
  | sit4 => exact Or.inl h
  | outer m => exact Or.inl h
  | _ => exact absurd h id

/-- A cache that already holds what is read is kept. -/
theorem verify_settled (m : VerifiedMap) (h : AsRead faults inner d m) :
    (CacheVerifyMixin.verify faults inner m d).2 = d := by
  cases m with
  | port m =>
    rw [verify_port, if_pos]
    rw [setDrift_zero]
    intro port
    rw [mem_ports_read, h port]
  | trusted fam =>
    rw [verify_trusted, if_pos]
    rw [setDrift_zero]
    intro key
    rw [mem_trusted_read, List.mem_filter, decide_eq_true_eq]
    constructor
    · rintro ⟨hfam, hread⟩
      exact ⟨(h key hfam).mpr hread, hfam⟩
    · rintro ⟨hcached, hfam⟩
      exact ⟨hfam, (h key hfam).mp hcached⟩
  | policy p =>
    rw [verify_policy, if_pos]
    rw [dictDrift_zero]
    intro port
    apply Option.ext
    intro fields
    rw [policy_read, h port fields]
  | acl p fam =>
    rw [verify_acl, if_pos]
    rw [dictDrift_zero]
    intro key
    apply Option.ext
    intro ports
    rw [acl_read, dictFilter_lookup]
    by_cases hfam : key.addr.family = fam
    · rw [if_pos (decide_eq_true hfam), h key ports hfam, and_iff_right hfam]
    · rw [if_neg (by simpa using hfam)]
      exact iff_of_false (fun hread => hfam hread.1) nofun
  | sit4 =>
    rcases verify_sit4 faults inner d with ⟨-, hrun⟩ | ⟨hquiet, hrun⟩
    · rw [hrun]
    · have hsame := h.resolve_left (by rw [hquiet]; exact Bool.false_ne_true)
      rw [hrun, if_pos]
      rw [setDrift_zero]
      intro a
      rw [hsame a, AList.mem_keys]
  | outer m =>
    rcases verify_outer faults inner d m with ⟨-, hrun⟩ | ⟨hquiet, read, hread, hrun⟩
    · rw [hrun]
    · have hsame := h.resolve_left hquiet
      rw [hrun, if_pos]
      rw [dictDrift_zero]
      intro port
      apply Option.ext
      intro capacity
      rw [hread, hsame port capacity]

theorem verifyMaps_settled (ms : List VerifiedMap) (total : ℕ)
    (h : ∀ m ∈ ms, AsRead faults inner d m) : (verifyMaps faults inner ms total d).2 = d := by
  induction ms generalizing total with
  | nil => rfl
  | cons m ms ih =>
    have hms : ∀ total, (verifyMaps faults inner ms total d).2 = d :=
      fun total => ih total fun n hn => h n (List.mem_cons_of_mem m hn)
    rw [verifyMaps, run_get_bind, run_ite]
    split_ifs with hopen
    · have hone := verify_settled faults inner d m (h m (List.mem_cons_self ..))
      rw [run_bind]
      generalize CacheVerifyMixin.verify faults inner m d = r at hone
      obtain ⟨diff, e⟩ := r
      obtain rfl : e = d := hone
      cases diff with
      | none => rfl
      | some diff => exact hms (total + diff)
    · exact hms total

variable {faults inner d} {d' : Daemon} (hmaps : d'.maps = d.maps)

include hmaps

/-- Two caches that both hold what is read are the same. -/
theorem cacheSame_of_asRead (m : VerifiedMap) (hquiet : ¬Raises faults d m)
    (h : AsRead faults inner d m) (h' : AsRead faults inner d' m) : CacheSame d d' m := by
  cases m with
  | port m =>
    intro port
    have hport := h' port
    rw [hmaps] at hport
    exact hport.trans (h port).symm
  | trusted fam =>
    intro key hfam
    have hkey := h' key hfam
    rw [hmaps] at hkey
    exact hkey.trans (h key hfam).symm
  | policy p =>
    intro port
    apply Option.ext
    intro fields
    have hfields := h' port fields
    rw [hmaps] at hfields
    exact hfields.trans (h port fields).symm
  | acl p fam =>
    intro key hfam
    apply Option.ext
    intro ports
    have hports := h' key ports hfam
    rw [hmaps] at hports
    exact hports.trans (h key ports hfam).symm
  | sit4 =>
    intro a
    have ha := h'
    rw [AsRead, hmaps] at ha
    exact ((ha.resolve_left hquiet) a).trans ((h.resolve_left hquiet) a).symm
  | outer m =>
    intro port
    apply Option.ext
    intro capacity
    have hcap := h'
    rw [AsRead, hmaps] at hcap
    exact ((hcap.resolve_left hquiet) port capacity).trans
      ((h.resolve_left hquiet) port capacity).symm

/-- A cache that holds what is read is exact when no failure lost anything. -/
theorem exact_of_asRead (m : VerifiedMap) (hquiet : ¬Raises faults d m)
    (h : AsRead faults inner d' m) : ExactCache inner d d' m ↔ NothingLost faults d.maps m := by
  cases m with
  | port m =>
    refine forall_congr' fun port => ?_
    rw [h port, hmaps]
    exact and_iff_left_iff_imp
  | trusted fam =>
    refine forall₂_congr fun key hfam => ?_
    rw [h key hfam, hmaps]
    exact and_iff_left_iff_imp
  | policy p =>
    have hlookup (port : U32) (fields : PolicyFields) :
        (d'.policyCache p).lookup port = some fields ↔ PolicyRead faults d.maps p port fields := by
      rw [h port fields, hmaps]
    have hstored {i : ℕ} {port : U32} (hi : (d.maps.portPolicies p).keys[i]? = some port) :
        port ∈ d.maps.portPolicies p := AList.mem_keys.mpr (List.mem_of_getElem? hi)
    constructor
    · intro hexact i port val hi hval
      obtain ⟨hkeys, hwords⟩ := hexact port
      obtain ⟨fields, hfields⟩ := Option.isSome_iff_exists.mp
        (AList.lookup_isSome.mpr (hkeys.mpr (hstored hi)))
      obtain ⟨hbatch, i', hi', rfl⟩ := (hlookup port fields).mp hfields
      obtain rfl : i = i' := by
        have hlen : i < (d.maps.portPolicies p).keys.length := (List.getElem?_eq_some_iff.mp hi).1
        exact (List.getElem?_inj hlen (d.maps.portPolicies p).nodupKeys).mp (hi.trans hi'.symm)
      exact ⟨hbatch, fun j hj => hwords _ val hfields hval j hj⟩
    · intro hlost port
      constructor
      · constructor
        · intro hport
          obtain ⟨fields, hfields⟩ := Option.isSome_iff_exists.mp (AList.lookup_isSome.mpr hport)
          obtain ⟨-, i, hi, -⟩ := (hlookup port fields).mp hfields
          exact hstored hi
        · intro hport
          obtain ⟨val, hval⟩ := Option.isSome_iff_exists.mp (AList.lookup_isSome.mpr hport)
          obtain ⟨i, hi⟩ := List.mem_iff_getElem?.mp (AList.mem_keys.mp hport)
          have hread := (hlookup port _).mpr ⟨(hlost i port val hi hval).1, i, hi, rfl⟩
          exact AList.lookup_isSome.mp (by rw [hread]; rfl)
      · intro fields val hfields hval j hj
        obtain ⟨-, i, hi, rfl⟩ := (hlookup port fields).mp hfields
        exact (hlost i port val hi hval).2 j hj
  | acl p fam =>
    refine forall₂_congr fun key hfam => ?_
    have hlookup (ports : List U16) : (d'.aclCache p).lookup key = some ports ↔
        AclRead faults d.maps p key ∧
          ((d.maps.acl p).lookup key).map BpfAclMap.unpackVal = some ports := by
      rw [h key ports hfam, hmaps]
    constructor
    · intro hexact hkey
      obtain ⟨val, hval⟩ := Option.isSome_iff_exists.mp (AList.lookup_isSome.mpr hkey)
      rw [hval] at hexact
      exact ((hlookup _).mp hexact).1
    · intro hlost
      apply Option.ext
      intro ports
      rw [hlookup]
      refine and_iff_right_of_imp fun hports => hlost ?_
      obtain ⟨val, hval, -⟩ := Option.map_eq_some_iff.mp hports
      exact AList.lookup_isSome.mp (by rw [hval]; rfl)
  | sit4 =>
    rw [AsRead, hmaps] at h
    exact iff_of_true (h.resolve_left hquiet) trivial
  | outer m =>
    rw [AsRead, hmaps] at h
    have hlookup := h.resolve_left hquiet
    constructor
    · intro hexact port hport
      exact ((hlookup port _).mp ((hexact port _).mpr ⟨hport, rfl⟩)).2.1
    · intro hlost port capacity
      rw [hlookup]
      exact ⟨fun h => ⟨h.1, h.2.2⟩, fun h => ⟨h.1, hlost port h.1, h.2⟩⟩

end OneMap

/-- After `verify` the cache is the truth or as it was, exactly when no failure lost an
entry or the cache already held what was read. -/
theorem verified_or_unchanged (faults : ReadFaults) (inner : InnerEntries) (d : Daemon)
    (m : VerifiedMap) :
    (ExactCache inner d (CacheVerifyMixin.verify faults inner m d).2 m ∨
        CacheSame d (CacheVerifyMixin.verify faults inner m d).2 m) ↔
      NothingLost faults d.maps m ∨ AsRead faults inner d m := by
  by_cases hraises : Raises faults d m
  · rw [verify_raises faults inner d m hraises]
    exact iff_of_true (Or.inr (cacheSame_refl d m)) (Or.inr (asRead_of_raises faults inner d m hraises))
  · obtain ⟨hmaps, -⟩ := verify_frame faults inner d m
    have hread := verify_asRead faults inner d m
    refine or_congr (exact_of_asRead hmaps m hraises hread) ?_
    constructor
    · intro hsame
      exact (asRead_congr faults inner d m _ hmaps hsame).mp hread
    · intro hcached
      exact cacheSame_of_asRead hmaps m hraises hcached hread

/-! The pass over all maps, and the reconcile that follows it. -/

/-- An LPM trie has one entry for a network, whatever the host bits of the key that wrote
it: here that key is the network itself. -/
structure Maps.Networks (maps : Maps) : Prop where
  trusted : ∀ k ∈ maps.trusted, k.normalize = k
  acl : ∀ p, ∀ k ∈ maps.acl p, k.normalize = k

/-- CIDRs are networks, and the permanently trusted ones are desired. -/
structure DesiredState.Networks (desired : DesiredState) (cfg : Config) : Prop where
  trusted : ∀ k ∈ desired.trustedCidrs, k.normalize = k
  acl : ∀ k ∈ desired.aclRules.keys, k.2.normalize = k.2
  permanent : ∀ k ∈ cfg.trustedSrcIps, k ∈ desired.trustedCidrs

/-- The kernel maps that are open hold nothing that is not desired. -/
structure NothingForeign (desired : DesiredState) (d : Daemon) (maps : Maps) : Prop where
  ports : ∀ m, VerifiedMap.isOpen d (.port m) = true → ∀ port, OpenPort maps m port →
    port ∈ desired.portsOf m
  trusted : ∀ key, Trusts maps key → key ∈ desired.trustedCidrs
  acl : d.opened .acl = true → ∀ p, ∀ key ∈ maps.acl p, (p.aclName, key) ∈ desired.aclRules
  policies : ∀ p, d.opened (.policy p) = true → ∀ port, Limited maps p port →
    port ∈ policyPorts desired p

/-- What is not desired is read: of a policy some limit, and of an ACL map also the key
of a rule that is written to it under another protocol name. -/
structure ForeignRead (faults : ReadFaults) (desired : DesiredState) (d : Daemon) : Prop where
  ports : ∀ m, VerifiedMap.isOpen d (.port m) = true → ∀ port, OpenPort d.maps m port →
    port ∈ desired.portsOf m ∨ PortRead faults m port
  trusted : ∀ key, Trusts d.maps key → key ∈ desired.trustedCidrs ∨ TrustedRead faults d.maps key
  acl : d.opened .acl = true → ∀ p key,
    (key ∈ d.maps.acl p ∨
      ∃ proto, (proto, key) ∈ desired.aclRules ∧ BpfAclMaps.mapFor proto = p) →
    (p.aclName, key) ∈ desired.aclRules ∨ (key ∈ d.maps.acl p ∧ AclRead faults d.maps p key)
  policies : ∀ p, d.opened (.policy p) = true → ∀ port, Limited d.maps p port →
    port ∈ policyPorts desired p ∨
      ∃ fields, PolicyRead faults d.maps p port fields ∧ ∃ i ∈ limitWords p, fields i ≠ 0

section Pass

variable (faults : ReadFaults) (inner : InnerEntries) (d : Daemon) (cfg : Config)
  (desired : DesiredState)

theorem shownLimit_isSome (d : Daemon) (view : PolicyView) (port : U32) :
    shownLimit d view port ≠ none ↔
      ∃ fields, (d.policyCache view.proto).lookup port = some fields ∧ fields view.index ≠ 0 := by
  rw [Option.ne_none_iff_exists']
  constructor
  · rintro ⟨limit, hlimit⟩
    rw [shownLimit, Option.filter_eq_some_iff, Option.map_eq_some_iff] at hlimit
    obtain ⟨⟨fields, hfields, rfl⟩, hne⟩ := hlimit
    exact ⟨fields, hfields, of_decide_eq_true hne⟩
  · rintro ⟨fields, hfields, hne⟩
    refine ⟨fields view.index, ?_⟩
    rw [shownLimit, hfields, Option.map_some, Option.filter_some, if_pos (decide_eq_true hne)]

/-- The reconcile after the pass leaves nothing foreign exactly when it was all read. -/
theorem nothing_foreign (hkernel : d.maps.Networks) (hdesired : desired.Networks cfg)
    (hzero : (reconcile cfg desired false
      (verifyKernelState faults inner d).2).2.lastApplyFailures = 0) :
    NothingForeign desired d
        (reconcile cfg desired false (verifyKernelState faults inner d).2).2.maps ↔
      ForeignRead faults desired d := by
  obtain ⟨hmaps, hopened, -⟩ := (verifyMaps_spec faults inner d verifiedMaps 0).1
  have hread (m : VerifiedMap) (hm : m.swallows = true) (hopen : m.isOpen d = true) :
      AsRead faults inner (verifyKernelState faults inner d).2 m :=
    verifyKernelState_asRead faults inner d m hm hopen
  change (verifyKernelState faults inner d).2.maps = d.maps at hmaps
  change (verifyKernelState faults inner d).2.opened = d.opened at hopened
  generalize (verifyKernelState faults inner d).2 = d' at hzero hmaps hopened hread ⊢
  have hisOpen (m : VerifiedMap) (hm : m.isOpen d = true) : m.isOpen d' = true := by
    unfold VerifiedMap.isOpen at hm ⊢
    rw [hopened]
    exact hm
  -- each part by what the cache shows, which is what was read
  have hports (m : PortMap) (hopen : VerifiedMap.isOpen d (.port m) = true) (port : U32)
      (hport : port ∉ desired.portsOf m) :
      OpenPort (reconcile cfg desired false d').2.maps m port ↔
        OpenPort d.maps m port ∧ ¬PortRead faults m port := by
    have hcache := hread (.port m) rfl hopen port
    rw [hmaps] at hcache
    rw [OpenPort, undesired_port cfg desired d' hzero m (hisOpen _ hopen) port hport, hmaps, hcache,
      OpenPort]
    tauto
  have htrusted (key : LpmKey) (hkey : key ∉ desired.trustedCidrs) :
      Trusts (reconcile cfg desired false d').2.maps key ↔
        Trusts d.maps key ∧ ¬TrustedRead faults d.maps key := by
    have hcache (k : LpmKey) : k ∈ d'.trustedCache ↔ Trusts d.maps k ∧ TrustedRead faults d.maps k := by
      have hk := hread (.trusted k.addr.family) rfl rfl k rfl
      rwa [hmaps] at hk
    have hnormal : ∀ k ∈ d'.trustedCache, k.normalize = k := by
      intro k hk
      obtain ⟨htrusts, -⟩ := (hcache k).mp hk
      apply hkernel.trusted k
      rw [Trusts] at htrusts
      apply AList.lookup_isSome.mp
      cases hl : d.maps.trusted.lookup k with
      | none => rw [hl] at htrusts; exact absurd htrusts (by rintro ⟨⟩)
      | some v => rfl
    rw [undesired_trusted cfg desired d' hzero hdesired.trusted hnormal hdesired.permanent key hkey,
      hmaps, hcache]
    tauto
  have hacl (hopen : d.opened .acl = true) (p : Proto) (key : LpmKey)
      (hkey : (p.aclName, key) ∉ desired.aclRules) :
      key ∈ (reconcile cfg desired false d').2.maps.acl p ↔
        (key ∈ d.maps.acl p ∨
          ∃ proto, (proto, key) ∈ desired.aclRules ∧ BpfAclMaps.mapFor proto = p) ∧
        ¬(key ∈ d.maps.acl p ∧ AclRead faults d.maps p key) := by
    have hcache (p : Proto) (k : LpmKey) :
        k ∈ d'.aclCache p ↔ k ∈ d.maps.acl p ∧ AclRead faults d.maps p k := by
      have hk (ports : List U16) := hread (.acl p k.addr.family) rfl hopen k ports rfl
      rw [hmaps] at hk
      constructor
      · intro hcached
        obtain ⟨ports, hports⟩ := Option.isSome_iff_exists.mp (AList.lookup_isSome.mpr hcached)
        obtain ⟨hacl, hval⟩ := (hk ports).mp hports
        obtain ⟨val, hval, -⟩ := Option.map_eq_some_iff.mp hval
        exact ⟨AList.lookup_isSome.mp (by rw [hval]; rfl), hacl⟩
      · rintro ⟨hstored, hacl⟩
        obtain ⟨val, hval⟩ := Option.isSome_iff_exists.mp (AList.lookup_isSome.mpr hstored)
        have hports := (hk _).mpr ⟨hacl, congrArg (Option.map BpfAclMap.unpackVal) hval⟩
        exact AList.lookup_isSome.mp (by rw [hports]; rfl)
    rw [undesired_acl cfg desired d' hzero (by rw [hopened]; exact hopen) hdesired.acl
      (fun p k hk => hkernel.acl p k ((hcache p k).mp hk).1) p key hkey, hmaps, hcache]
  have hpolicy (p : Proto) (hopen : d.opened (.policy p) = true) (port : U32)
      (hport : port ∉ policyPorts desired p) :
      Limited (reconcile cfg desired false d').2.maps p port ↔ Limited d.maps p port ∧
        ¬∃ fields, PolicyRead faults d.maps p port fields ∧ ∃ i ∈ limitWords p, fields i ≠ 0 := by
    have hcache (fields : PolicyFields) :
        (d'.policyCache p).lookup port = some fields ↔ PolicyRead faults d.maps p port fields := by
      have hk := hread (.policy p) rfl hopen port fields
      rwa [hmaps] at hk
    rw [unwanted_limits cfg desired d' p port (by rw [hopened]; exact hopen) hzero hport, hmaps]
    refine and_congr_right fun _ => ?_
    constructor
    · rintro hquiet ⟨fields, hfields, i, hi, hne⟩
      exact (shownLimit_isSome d' ⟨p, i⟩ port).mpr ⟨fields, (hcache fields).mpr hfields, hne⟩
        (hquiet i hi)
    · intro hnone i hi
      by_contra hshown
      obtain ⟨fields, hfields, hne⟩ := (shownLimit_isSome d' ⟨p, i⟩ port).mp hshown
      exact hnone ⟨fields, (hcache fields).mp hfields, i, hi, hne⟩
  constructor
  · intro h
    constructor
    · intro m hopen port hport
      by_contra hnot
      rw [not_or] at hnot
      exact hnot.1 (h.ports m hopen port ((hports m hopen port hnot.1).mpr ⟨hport, hnot.2⟩))
    · intro key hkey
      by_contra hnot
      rw [not_or] at hnot
      exact hnot.1 (h.trusted key ((htrusted key hnot.1).mpr ⟨hkey, hnot.2⟩))
    · intro hopen p key hkey
      by_contra hnot
      rw [not_or] at hnot
      exact hnot.1 (h.acl hopen p key ((hacl hopen p key hnot.1).mpr ⟨hkey, hnot.2⟩))
    · intro p hopen port hport
      by_contra hnot
      rw [not_or] at hnot
      exact hnot.1 (h.policies p hopen port ((hpolicy p hopen port hnot.1).mpr ⟨hport, hnot.2⟩))
  · intro h
    constructor
    · intro m hopen port hport
      by_contra hnot
      obtain ⟨hopen', hunread⟩ := (hports m hopen port hnot).mp hport
      exact hunread ((h.ports m hopen port hopen').resolve_left hnot)
    · intro key hkey
      by_contra hnot
      obtain ⟨htrusts, hunread⟩ := (htrusted key hnot).mp hkey
      exact hunread ((h.trusted key htrusts).resolve_left hnot)
    · intro hopen p key hkey
      by_contra hnot
      obtain ⟨hsource, hunread⟩ := (hacl hopen p key hnot).mp hkey
      exact hunread ((h.acl hopen p key hsource).resolve_left hnot)
    · intro p hopen port hport
      by_contra hnot
      obtain ⟨hlimited, hunread⟩ := (hpolicy p hopen port hnot).mp hport
      exact hunread ((h.policies p hopen port hlimited).resolve_left hnot)

/-- A failed read is not adopted as truth, and the reconcile after it leaves nothing
foreign, exactly when each map lost no entry or was cached as it was read, and everything
foreign was read. -/
theorem failed_read_not_adopted (hkernel : d.maps.Networks) (hdesired : desired.Networks cfg)
    (hzero : (reconcile cfg desired false
      (verifyKernelState faults inner d).2).2.lastApplyFailures = 0) :
    ((∀ m : VerifiedMap, m.isOpen d = true →
        ExactCache inner d (CacheVerifyMixin.verify faults inner m d).2 m ∨
          CacheSame d (CacheVerifyMixin.verify faults inner m d).2 m) ∧
      NothingForeign desired d
        (reconcile cfg desired false (verifyKernelState faults inner d).2).2.maps) ↔
    (∀ m : VerifiedMap, m.isOpen d = true →
        NothingLost faults d.maps m ∨ AsRead faults inner d m) ∧
      ForeignRead faults desired d := by
  refine and_congr ?_ (nothing_foreign faults inner d cfg desired hkernel hdesired hzero)
  exact forall₂_congr fun m _ => verified_or_unchanged faults inner d m

end Pass

/-! Two trusted networks, of which a failed GET_NEXT_KEY hides the second. -/

def net10 : LpmKey := ⟨8, .v4 0x0A000000⟩

def net192 : LpmKey := ⟨16, .v4 0xC0A80000⟩

def hiddenMaps : Maps := { trusted := [⟨net10, 1⟩, ⟨net192, 1⟩].toAList }

def secondKeyFails : ReadFaults := fun op => decide (op = .trustedNext .ipv4 1)

/-- Both networks are cached, and the next pass drops one of them from the cache. -/
def hiddenDaemon : Daemon := { maps := hiddenMaps, trustedCache := [net10, net192] }

theorem failed_read_adopted :
    ¬∀ (faults : ReadFaults) (inner : InnerEntries) (d : Daemon) (m : VerifiedMap),
      m.isOpen d = true →
      ExactCache inner d (CacheVerifyMixin.verify faults inner m d).2 m ∨
        CacheSame d (CacheVerifyMixin.verify faults inner m d).2 m := by
  intro h
  have hstored : Trusts hiddenMaps net192 := by rw [Trusts]; decide
  have hdropped : net192 ∉
      (CacheVerifyMixin.verify secondKeyFails (fun _ _ => 0) (.trusted .ipv4) hiddenDaemon).2.trustedCache := by
    rw [verify_trusted]
    decide
  rcases h secondKeyFails (fun _ _ => 0) hiddenDaemon (.trusted .ipv4) rfl with hexact | hsame
  · exact hdropped ((hexact net192 rfl).mpr hstored)
  · exact hdropped ((hsame net192 rfl).mpr (by decide))

/-- The first network is cached, so that the pass leaves the cache alone. -/
def halfCached : Daemon := { maps := hiddenMaps, trustedCache := [net10] }

/-- Only the hidden network is desired. -/
def onlyHidden : DesiredState := { trustedCidrs := [net192] }

theorem halfCached_asRead (m : VerifiedMap) :
    AsRead secondKeyFails (fun _ _ => 0) halfCached m := by
  cases m with
  | port m =>
    have hclosed : ∀ port, halfCached.maps.portMap m port = 0 := by
      cases m <;> exact fun _ => rfl
    intro port
    refine iff_of_false nofun ?_
    rintro ⟨⟨-, hopen⟩, -⟩
    exact hopen (hclosed port)
  | trusted fam =>
    intro key hfam
    have hread := mem_trusted_read secondKeyFails halfCached fam key
    rw [and_iff_right hfam] at hread
    rw [← hread]
    cases fam with
    | ipv4 => exact Iff.of_eq (congrArg (key ∈ ·) (by decide))
    | ipv6 =>
      refine iff_of_false ?_ nofun
      intro hcached
      rw [List.mem_singleton.mp hcached] at hfam
      exact absurd hfam (by decide)
  | policy p =>
    intro port fields
    rw [← policy_read secondKeyFails halfCached p port fields]
    cases p <;> rfl
  | acl p fam =>
    intro key ports hfam
    have hread := acl_read secondKeyFails halfCached p fam key ports
    rw [and_iff_right hfam] at hread
    rw [← hread]
    cases p <;> rfl
  | sit4 => exact Or.inr fun _ => Iff.rfl
  | outer m =>
    right
    intro port capacity
    refine iff_of_false nofun ?_
    rintro ⟨⟨-, hsome⟩, -⟩
    have hempty : halfCached.maps.rateOuter m port = none := by cases m <;> rfl
    rw [hempty] at hsome
    exact absurd hsome nofun

theorem failed_read_not_adopted_sample :
    ((∀ m : VerifiedMap, m.isOpen halfCached = true →
        ExactCache (fun _ _ => 0) halfCached
            (CacheVerifyMixin.verify secondKeyFails (fun _ _ => 0) m halfCached).2 m ∨
          CacheSame halfCached
            (CacheVerifyMixin.verify secondKeyFails (fun _ _ => 0) m halfCached).2 m) ∧
      NothingForeign onlyHidden halfCached
        (reconcile {} onlyHidden false
          (verifyKernelState secondKeyFails (fun _ _ => 0) halfCached).2).2.maps) ↔
    (∀ m : VerifiedMap, m.isOpen halfCached = true →
        NothingLost secondKeyFails halfCached.maps m ∨
          AsRead secondKeyFails (fun _ _ => 0) halfCached m) ∧
      ForeignRead secondKeyFails onlyHidden halfCached :=
  failed_read_not_adopted secondKeyFails (fun _ _ => 0) halfCached {} onlyHidden
    ⟨by decide, fun p => by cases p <;> decide⟩ ⟨by decide, by decide, by decide⟩
    (by
      rw [verifyKernelState, verifyMaps_settled _ _ _ _ _ fun m _ => halfCached_asRead m]
      decide +kernel)

end AutoXdp
