import AutoXdp.FailedReads
import Mathlib.Tactic.Basic

/-! The ACL maps over runs of calls that may fail (`BpfAclMaps` of `auto_xdp/bpf/maps.py`):
the cache holds the rules of the calls that succeeded, the kernel as many ports of each as
one value has room for, and `verify` counts the rules with more. -/
namespace AutoXdp
open StateSteps XdpBackend

/-! Sets of ports. -/

/-- The order in which `sorted` lists a set of ports. -/
def Ascending (ports : List U16) : Prop := ports.Pairwise fun a b => a.toNat < b.toNat

/-- A Python set of ports. -/
structure PortSet where
  ports : List U16
  ascending : Ascending ports

theorem frozenset_of_ascending (ports : List U16) (h : Ascending ports) :
    frozenset ports = ports := by
  have hnodup : ports.Nodup := by
    apply h.imp
    intro a b hab heq
    rw [heq] at hab
    omega
  have hle : ports.Pairwise fun a b => a.toNat ≤ b.toNat := h.imp Nat.le_of_lt
  rw [frozenset, List.dedup_eq_self.mpr hnodup]
  exact hle.insertionSort_eq

theorem length_frozenset_le (ports : List U16) : (frozenset ports).length ≤ ports.length := by
  rw [frozenset, List.length_insertionSort]
  exact (List.dedup_sublist ports).length_le

theorem mem_frozenset (port : U16) (ports : List U16) :
    port ∈ frozenset ports ↔ port ∈ ports := by
  rw [frozenset, List.mem_insertionSort, List.mem_dedup]

namespace BpfAclMap

/-- What `_unpack_val` reads of what `_pack_val` wrote. -/
theorem unpackVal_packVal (ports : List U16) (h : Ascending ports) :
    unpackVal (BpfAclMaps.packVal ports) = ports.take aclMaxPorts := by
  have hle : (ports.take aclMaxPorts).length ≤ aclMaxPorts := List.length_take_le _ _
  have hcount : (BpfAclMaps.packVal ports).count.toNat = (ports.take aclMaxPorts).length := by
    have hroom : aclMaxPorts = 64 := rfl
    rw [BpfAclMaps.packVal, BitVec.toNat_ofNat]
    omega
  rw [unpackVal, hcount, Nat.min_eq_left hle]
  simp only [BpfAclMaps.packVal, List.take_left']
  exact frozenset_of_ascending _ (h.sublist (List.take_sublist _ _))

theorem length_unpackVal_le (val : AclVal) : (unpackVal val).length ≤ aclMaxPorts := by
  calc (unpackVal val).length
      ≤ (val.ports.take (min val.count.toNat aclMaxPorts)).length := length_frozenset_le _
    _ ≤ min val.count.toNat aclMaxPorts := List.length_take_le _ _
    _ ≤ aclMaxPorts := Nat.min_le_right _ _

/-- The datapath matches the ports that the daemon reads. -/
theorem aclPortMatch_iff (val : AclVal) (port : U32) :
    aclPortMatch val port = true ↔ port.setWidth 16 ∈ unpackVal val := by
  rw [unpackVal, mem_frozenset, aclPortMatch, List.take_take, List.any_eq_true]
  constructor
  · rintro ⟨p, hp, heq⟩
    rw [← eq_of_beq heq]
    exact hp
  · intro h
    exact ⟨_, h, beq_self_eq_true _⟩

end BpfAclMap

/-! Calls, and the rules they leave in force. -/

/-- The ports of the rules, by map and prefix. -/
abbrev RuleTable := Proto → LpmKey → Option (List U16)

namespace RuleTable

/-- The table with one rule written, in the map of its protocol under its network. -/
def write (t : RuleTable) (rule : (String × LpmKey) × List U16) : RuleTable := fun p key =>
  if p = BpfAclMaps.mapFor rule.1.1 ∧ key = rule.1.2.normalize then some rule.2 else t p key

def erase (t : RuleTable) (rule : String × LpmKey) : RuleTable := fun p key =>
  if p = BpfAclMaps.mapFor rule.1 ∧ key = rule.2.normalize then none else t p key

end RuleTable

/-- A call of `BpfAclMaps`; the ports of a rule are what `sorted` makes of a set. -/
inductive AclCall where
  | set (proto : String) (cidr : LpmKey) (set : PortSet)
  | delete (proto : String) (cidr : LpmKey)

namespace AclCall

def run : AclCall → DaemonM Bool
  | set proto cidr s => BpfAclMaps.set proto cidr s.ports false
  | delete proto cidr => BpfAclMaps.delete proto cidr false

/-- What the call asks for. -/
def apply (t : RuleTable) : AclCall → RuleTable
  | set proto cidr s => t.write ((proto, cidr), s.ports)
  | delete proto cidr => t.erase (proto, cidr)

/-- One call: the rules change when it succeeds. -/
def step (s : Daemon × RuleTable) (c : AclCall) : Daemon × RuleTable :=
  ((c.run s.1).2, if (c.run s.1).1 then c.apply s.2 else s.2)

theorem step_run {s : Daemon × RuleTable} {c : AclCall} {b : Bool} {e : Daemon}
    (h : c.run s.1 = (b, e)) : c.step s = (e, if b then c.apply s.2 else s.2) := by
  simp only [step, h]

end AclCall

/-- The cache of a map holds the rules of the table, and the kernel the ports of each that
have room in a value. -/
structure Mirrors (p : Proto) (d : Daemon) (t : RuleTable) : Prop where
  cached : ∀ key, (d.aclCache p).lookup key = t p key
  stored : ∀ key, ((d.maps.acl p).lookup key).map BpfAclMap.unpackVal =
    (t p key).map fun ports => ports.take aclMaxPorts

/-- The cache is what `_load_cache` reads. -/
def AclLoaded (p : Proto) (d : Daemon) : Prop :=
  ∀ key, (d.aclCache p).lookup key = ((d.maps.acl p).lookup key).map BpfAclMap.unpackVal

/-- The rules that the cache holds. -/
def cachedRules (d : Daemon) : RuleTable := fun p key => (d.aclCache p).lookup key

theorem mirrors_loaded {p : Proto} {d : Daemon} (h : AclLoaded p d) :
    Mirrors p d (cachedRules d) where
  cached _ := rfl
  stored key := by
    rw [cachedRules, h key, Option.map_map]
    congr 1
    funext val
    exact (List.take_of_length_le (BpfAclMap.length_unpackVal_le val)).symm

section Step

variable {p : Proto} {d : Daemon} {t : RuleTable} (h : Mirrors p d t)

include h

theorem mirrors_set (proto : String) (cidr : LpmKey) (ports : List U16)
    (hports : Ascending ports) :
    Mirrors p ((d.called .ok (.updateAcl (BpfAclMaps.mapFor proto) cidr.normalize
        (BpfAclMaps.packVal ports)) true).setAclCache (BpfAclMaps.mapFor proto)
          ((d.aclCache (BpfAclMaps.mapFor proto)).insert cidr.normalize ports))
      (t.write ((proto, cidr), ports)) := by
  by_cases hp : p = BpfAclMaps.mapFor proto
  · subst hp
    constructor
    · intro key
      simp only [Daemon.setAclCache, Daemon.called, RuleTable.write, Function.update_self, true_and]
      by_cases hkey : key = cidr.normalize
      · rw [hkey, AList.lookup_insert, if_pos rfl]
      · rw [AList.lookup_insert_ne hkey, if_neg hkey]
        exact h.cached key
    · intro key
      simp only [Daemon.setAclCache, Daemon.called, BpfOp.effect, ↓reduceIte, acl_setAcl,
        RuleTable.write, true_and]
      by_cases hkey : key = cidr.normalize
      · rw [hkey, AList.lookup_insert, if_pos rfl, Option.map_some, Option.map_some,
          BpfAclMap.unpackVal_packVal ports hports]
      · rw [AList.lookup_insert_ne hkey, if_neg hkey]
        exact h.stored key
  · constructor
    · intro key
      simp only [Daemon.setAclCache, Daemon.called, RuleTable.write, hp, false_and, if_false,
        Function.update_of_ne hp]
      exact h.cached key
    · intro key
      simp only [Daemon.setAclCache, Daemon.called, BpfOp.effect, ↓reduceIte, acl_setAcl,
        RuleTable.write, hp, Ne.symm hp, false_and]
      exact h.stored key

theorem mirrors_delete (proto : String) (cidr : LpmKey) :
    Mirrors p ((d.called .ok (.deleteAcl (BpfAclMaps.mapFor proto) cidr.normalize) true).setAclCache
        (BpfAclMaps.mapFor proto) ((d.aclCache (BpfAclMaps.mapFor proto)).erase cidr.normalize))
      (t.erase (proto, cidr)) := by
  by_cases hp : p = BpfAclMaps.mapFor proto
  · subst hp
    constructor
    · intro key
      simp only [Daemon.setAclCache, Daemon.called, RuleTable.erase, Function.update_self, true_and]
      by_cases hkey : key = cidr.normalize
      · rw [hkey, AList.lookup_erase, if_pos rfl]
      · rw [AList.lookup_erase_ne hkey, if_neg hkey]
        exact h.cached key
    · intro key
      simp only [Daemon.setAclCache, Daemon.called, BpfOp.effect, ↓reduceIte, acl_setAcl,
        RuleTable.erase, true_and]
      by_cases hkey : key = cidr.normalize
      · rw [hkey, AList.lookup_erase, if_pos rfl]
        rfl
      · rw [AList.lookup_erase_ne hkey, if_neg hkey]
        exact h.stored key
  · constructor
    · intro key
      simp only [Daemon.setAclCache, Daemon.called, RuleTable.erase, hp, false_and, if_false,
        Function.update_of_ne hp]
      exact h.cached key
    · intro key
      simp only [Daemon.setAclCache, Daemon.called, BpfOp.effect, ↓reduceIte, acl_setAcl,
        RuleTable.erase, hp, Ne.symm hp, false_and]
      exact h.stored key

/-- One call, whether it fails or not. -/
theorem mirrors_step (c : AclCall) : Mirrors p (c.step (d, t)).1 (c.step (d, t)).2 := by
  cases c with
  | set proto cidr s =>
    have hcases := cachedCall_cases false .ok (.updateAcl (BpfAclMaps.mapFor proto) cidr.normalize
      (BpfAclMaps.packVal s.ports)) (fun d => d.setAclCache (BpfAclMaps.mapFor proto)
        ((d.aclCache (BpfAclMaps.mapFor proto)).insert cidr.normalize s.ports)) d
    obtain ⟨hdry, -⟩ | ⟨-, hrun⟩ | ⟨-, hrun⟩ := hcases
    · exact absurd hdry Bool.false_ne_true
    · rw [AclCall.step_run (s := (d, t)) (c := .set proto cidr s) hrun]
      exact mirrors_set h proto cidr s.ports s.ascending
    · rw [AclCall.step_run (s := (d, t)) (c := .set proto cidr s) hrun]
      exact ⟨h.cached, h.stored⟩
  | delete proto cidr =>
    have hcases := cachedCall_cases false .ok (.deleteAcl (BpfAclMaps.mapFor proto) cidr.normalize)
      (fun d => d.setAclCache (BpfAclMaps.mapFor proto)
        ((d.aclCache (BpfAclMaps.mapFor proto)).erase cidr.normalize)) d
    obtain ⟨hdry, -⟩ | ⟨-, hrun⟩ | ⟨-, hrun⟩ := hcases
    · exact absurd hdry Bool.false_ne_true
    · rw [AclCall.step_run (s := (d, t)) (c := .delete proto cidr) hrun]
      exact mirrors_delete h proto cidr
    · rw [AclCall.step_run (s := (d, t)) (c := .delete proto cidr) hrun]
      exact ⟨h.cached, h.stored⟩

theorem mirrors_run (calls : List AclCall) :
    Mirrors p (calls.foldl AclCall.step (d, t)).1 (calls.foldl AclCall.step (d, t)).2 := by
  induction calls generalizing d t with
  | nil => exact h
  | cons c calls ih => exact ih (mirrors_step h c)

end Step

/-! What `verify` counts. -/

/-- A reader that reads everything finds a changed value for each item that `f` changes. -/
theorem dictDrift_map {κ ν : Type} [DecidableEq κ] [DecidableEq ν] (f : ν → ν)
    (kernel cache : BpfMap κ ν) (h : ∀ k, kernel.lookup k = (cache.lookup k).map f) :
    dictDrift kernel cache = cache.entries.countP fun e => f e.2 ≠ e.2 := by
  have hkeys : (kernel.keys ++ cache.keys).dedup.Perm cache.keys := by
    rw [List.perm_ext_iff_of_nodup (List.nodup_dedup _) cache.keys_nodup]
    intro k
    rw [List.mem_dedup, List.mem_append, ← AList.mem_keys, ← AList.mem_keys]
    apply or_iff_right_of_imp
    intro hk
    rw [← AList.lookup_isSome, h, Option.isSome_map, AList.lookup_isSome] at hk
    exact hk
  calc dictDrift kernel cache
      = (cache.keys.filter fun k => kernel.lookup k ≠ cache.lookup k).length :=
        (hkeys.filter _).length_eq
    _ = cache.entries.countP fun e => kernel.lookup e.1 ≠ cache.lookup e.1 := by
        rw [← List.countP_eq_length_filter, AList.keys, List.keys, List.countP_map]
        rfl
    _ = cache.entries.countP fun e => f e.2 ≠ e.2 := by
        apply List.countP_congr
        intro e he
        have hl : cache.lookup e.1 = some e.2 := AList.mem_lookup_iff.mpr he
        rw [decide_eq_true_eq, decide_eq_true_eq, h, hl, Option.map_some, ne_eq, ne_eq,
          Option.some_inj]

/-- The rules of one family with more ports than a value has room for. -/
def oversizedIn (fam : IpFamily) (t : BpfMap LpmKey (List U16)) : ℕ :=
  (dictFilter (fun key => key.addr.family = fam) t).entries.countP fun e =>
    aclMaxPorts < e.2.length

/-- The rules of a map with more ports than a value has room for. -/
def oversized (t : BpfMap LpmKey (List U16)) : ℕ :=
  t.entries.countP fun e => aclMaxPorts < e.2.length

theorem oversizedIn_add (t : BpfMap LpmKey (List U16)) :
    oversizedIn .ipv4 t + oversizedIn .ipv6 t = oversized t := by
  simp only [oversizedIn, oversized, dictFilter]
  induction t.entries with
  | nil => rfl
  | cons e es ih =>
    cases hfam : e.1.addr.family with
    | ipv4 =>
      simp only [List.filter_cons, hfam, decide_true, if_true, reduceCtorEq, decide_false,
        Bool.false_eq_true, if_false, List.countP_cons]
      omega
    | ipv6 =>
      simp only [List.filter_cons, hfam, decide_true, if_true, reduceCtorEq, decide_false,
        Bool.false_eq_true, if_false, List.countP_cons]
      omega

theorem oversizedIn_congr (fam : IpFamily) (t t' : BpfMap LpmKey (List U16))
    (h : ∀ key, key.addr.family = fam → t'.lookup key = t.lookup key) :
    oversizedIn fam t' = oversizedIn fam t := by
  have hperm : (dictFilter (fun key => key.addr.family = fam) t').entries.Perm
      (dictFilter (fun key => key.addr.family = fam) t).entries := by
    apply List.lookup_ext (AList.nodupKeys _) (AList.nodupKeys _)
    intro key ports
    have hl := dictFilter_lookup (fun key => decide (key.addr.family = fam)) t' key
    have hl' := dictFilter_lookup (fun key => decide (key.addr.family = fam)) t key
    rw [show List.dlookup key _ = _ from hl, show List.dlookup key _ = _ from hl']
    by_cases hfam : key.addr.family = fam
    · rw [h key hfam]
    · simp only [hfam, decide_false, Bool.false_eq_true, if_false]
  exact hperm.countP_eq _

/-- The kernel holds the ports of each cached rule of the family that have room. -/
def Clipped (p : Proto) (fam : IpFamily) (d : Daemon) : Prop :=
  ∀ key, key.addr.family = fam → ((d.maps.acl p).lookup key).map BpfAclMap.unpackVal =
    ((d.aclCache p).lookup key).map fun ports => ports.take aclMaxPorts

theorem clipped_of_mirrors {p : Proto} {d : Daemon} {t : RuleTable} (h : Mirrors p d t)
    (fam : IpFamily) : Clipped p fam d := by
  intro key _
  rw [h.stored, h.cached]

/-- No call of the readers fails. -/
def noReadFaults : ReadFaults := fun _ => false

theorem aclRead_noFaults (maps : Maps) (p : Proto) (key : LpmKey) (hkey : key ∈ maps.acl p) :
    AclRead noReadFaults maps p key := by
  have hmem : key ∈ BpfLpmMap.rawKeys key.addr.family (maps.acl p) :=
    (mem_rawKeys _ _ key).mpr ⟨hkey, rfl⟩
  obtain ⟨j, hj⟩ := List.getElem?_of_mem hmem
  exact ⟨⟨j, hj, fun _ _ => rfl⟩, rfl⟩

theorem acl_lookup_noFaults (d : Daemon) (p : Proto) (fam : IpFamily) (key : LpmKey) :
    (BpfAclMap.readKernel noReadFaults p fam d).lookup key =
      if key.addr.family = fam then ((d.maps.acl p).lookup key).map BpfAclMap.unpackVal
      else none := by
  apply Option.ext
  intro ports
  rw [acl_read]
  by_cases hfam : key.addr.family = fam
  · rw [if_pos hfam]
    constructor
    · rintro ⟨-, -, hval⟩
      exact hval
    · intro hval
      have hkey : key ∈ d.maps.acl p := by
        rw [← AList.lookup_isSome, ← Option.isSome_map (f := BpfAclMap.unpackVal), hval]
        rfl
      exact ⟨hfam, aclRead_noFaults d.maps p key hkey, hval⟩
  · rw [if_neg hfam]
    simp only [hfam, false_and, reduceCtorEq]

section Verify

variable (inner : InnerEntries)

/-- One of the four maps. -/
theorem clipped_drift (d : Daemon) (p : Proto) (fam : IpFamily) (h : Clipped p fam d) :
    (CacheVerifyMixin.verify noReadFaults inner (.acl p fam) d).1 =
      some (oversizedIn fam (d.aclCache p)) := by
  have hdrift := dictDrift_map (fun ports : List U16 => ports.take aclMaxPorts)
    (BpfAclMap.readKernel noReadFaults p fam d)
    (dictFilter (fun key => key.addr.family = fam) (d.aclCache p)) (by
      intro key
      rw [acl_lookup_noFaults, dictFilter_lookup]
      by_cases hfam : key.addr.family = fam
      · simp only [hfam, decide_true, if_true]
        exact h key hfam
      · simp only [hfam, decide_false, Bool.false_eq_true, if_false, Option.map_none])
  have hlong (ports : List U16) : ports.take aclMaxPorts ≠ ports ↔ aclMaxPorts < ports.length := by
    rw [ne_eq, List.take_eq_self_iff, not_le]
  simp only [hlong] at hdrift
  exact congrArg some hdrift

section Pass

variable (faults : ReadFaults) {m : VerifiedMap} {ms : List VerifiedMap} {total : ℕ} {d : Daemon}

theorem verifyMaps_open {diff : ℕ} {e : Daemon} (hopen : m.isOpen d = true)
    (h : CacheVerifyMixin.verify faults inner m d = (some diff, e)) :
    verifyMaps faults inner (m :: ms) total d = verifyMaps faults inner ms (total + diff) e := by
  rw [verifyMaps, run_get_bind, run_ite, if_pos hopen, run_bind, h]

theorem verifyMaps_closed (hopen : ¬m.isOpen d = true) :
    verifyMaps faults inner (m :: ms) total d = verifyMaps faults inner ms total d := by
  rw [verifyMaps, run_get_bind, run_ite, if_neg hopen]

end Pass

/-- The four maps, one after the other. -/
theorem verifyAcl_run (ms : List (Proto × IpFamily)) (hnodup : ms.Nodup) (total : ℕ) (d : Daemon)
    (hopen : d.opened .acl = true) (h : ∀ m ∈ ms, Clipped m.1 m.2 d) :
    (verifyMaps noReadFaults inner (ms.map fun m => .acl m.1 m.2) total d).1 =
      some (total + (ms.map fun m => oversizedIn m.2 (d.aclCache m.1)).sum) := by
  induction ms generalizing total d with
  | nil => rfl
  | cons m ms ih =>
    obtain ⟨hm, hms⟩ := List.nodup_cons.mp hnodup
    set e := (CacheVerifyMixin.verify noReadFaults inner (.acl m.1 m.2) d).2 with he
    obtain ⟨hmaps, hopened, -, -, hsame⟩ := verify_frame noReadFaults inner d (.acl m.1 m.2)
    have hdrift := clipped_drift inner d m.1 m.2 (h m (List.mem_cons_self ..))
    have hrun : verifyMaps noReadFaults inner ((m :: ms).map fun m => .acl m.1 m.2) total d =
        verifyMaps noReadFaults inner (ms.map fun m => .acl m.1 m.2)
          (total + oversizedIn m.2 (d.aclCache m.1)) e :=
      verifyMaps_open inner noReadFaults hopen (Prod.ext hdrift rfl)
    -- the other maps are verified against the caches they had before
    have hother (m' : Proto × IpFamily) (hm' : m' ∈ ms) (key : LpmKey)
        (hfam : key.addr.family = m'.2) :
        (e.aclCache m'.1).lookup key = (d.aclCache m'.1).lookup key := by
      have hne : VerifiedMap.acl m'.1 m'.2 ≠ .acl m.1 m.2 := by
        intro heq
        obtain ⟨hp, hfam'⟩ := VerifiedMap.acl.inj heq
        exact hm (Prod.ext hp hfam' ▸ hm')
      exact hsame _ hne key hfam
    have hclip : ∀ m' ∈ ms, Clipped m'.1 m'.2 e := by
      intro m' hm' key hfam
      rw [hother m' hm' key hfam, he, hmaps]
      exact h m' (List.mem_cons_of_mem _ hm') key hfam
    have hcount : (ms.map fun m' => oversizedIn m'.2 (e.aclCache m'.1)) =
        ms.map fun m' => oversizedIn m'.2 (d.aclCache m'.1) := by
      apply List.map_congr_left
      intro m' hm'
      exact oversizedIn_congr m'.2 _ _ (hother m' hm')
    rw [hrun, ih hms _ e (by rw [he, hopened]; exact hopen) hclip, hcount, List.map_cons,
      List.sum_cons, Nat.add_assoc]

end Verify

/-- A reader that reads everything leaves a loaded cache. -/
theorem aclLoaded_of_asRead (inner : InnerEntries) (p : Proto) (d : Daemon)
    (h : ∀ fam, AsRead noReadFaults inner d (.acl p fam)) : AclLoaded p d := by
  intro key
  apply Option.ext
  intro ports
  rw [h key.addr.family key ports rfl]
  constructor
  · exact And.right
  · intro hval
    have hkey : key ∈ d.maps.acl p := by
      rw [← AList.lookup_isSome, ← Option.isSome_map (f := BpfAclMap.unpackVal), hval]
      rfl
    exact ⟨aclRead_noFaults d.maps p key hkey, hval⟩

namespace BpfAclMaps

/-- The four maps of the class. -/
def aclMaps : List (Proto × IpFamily) :=
  [(.tcp, .ipv4), (.tcp, .ipv6), (.udp, .ipv4), (.udp, .ipv6)]

/-- `verify`, when no call of the readers fails. -/
def verify (inner : InnerEntries) : DaemonM (Option ℕ) :=
  verifyMaps noReadFaults inner (aclMaps.map fun m => .acl m.1 m.2) 0

/-- Every rule with too many ports is a discrepancy, and nothing else is. -/
theorem verify_counts (inner : InnerEntries) (d : Daemon) (hopen : d.opened .acl = true)
    (h : ∀ p fam, Clipped p fam d) :
    (verify inner d).1 = some (oversized (d.aclCache .tcp) + oversized (d.aclCache .udp)) := by
  have hrun := verifyAcl_run inner aclMaps (by decide) 0 d hopen fun m _ => h m.1 m.2
  rw [verify, hrun, ← oversizedIn_add, ← oversizedIn_add]
  simp only [aclMaps, List.map_cons, List.map_nil, List.sum_cons, List.sum_nil]
  congr 1
  omega

theorem verify_verified (inner : InnerEntries) (d : Daemon) :
    Verified noReadFaults inner (aclMaps.map fun m => .acl m.1 m.2) d (verify inner d).2 :=
  (verifyMaps_spec noReadFaults inner d (aclMaps.map fun m => VerifiedMap.acl m.1 m.2) 0).1

/-- Afterwards the cache holds what the kernel holds. -/
theorem verify_loads (inner : InnerEntries) (d : Daemon) (hopen : d.opened .acl = true)
    (p : Proto) : AclLoaded p (verify inner d).2 := by
  have hspec := (verifyMaps_spec noReadFaults inner d
    (aclMaps.map fun m => VerifiedMap.acl m.1 m.2) 0).2
  apply aclLoaded_of_asRead inner
  intro fam
  have hmem : VerifiedMap.acl p fam ∈ aclMaps.map fun m => VerifiedMap.acl m.1 m.2 := by
    refine List.mem_map.mpr ⟨(p, fam), ?_, rfl⟩
    cases p <;> cases fam <;> decide
  obtain ⟨pre, post, hsplit⟩ := List.append_of_mem hmem
  apply hspec pre _ post hsplit _ hopen
  intro n hn
  have hacl : n ∈ aclMaps.map fun m => VerifiedMap.acl m.1 m.2 := by
    rw [hsplit]
    exact List.mem_append_left _ hn
  obtain ⟨m, -, rfl⟩ := List.mem_map.mp hacl
  rfl

end BpfAclMaps

/-! Runs. -/

theorem step_opened (s : Daemon × RuleTable) (c : AclCall) :
    (c.step s).1.opened = s.1.opened := by
  have hcall (op : BpfOp) (note : Daemon → Daemon) (hnote : ∀ d, (note d).opened = d.opened) :
      (cachedCall false .ok op note s.1).2.opened = s.1.opened := by
    obtain ⟨hdry, -⟩ | ⟨-, hrun⟩ | ⟨-, hrun⟩ := cachedCall_cases false .ok op note s.1
    · exact absurd hdry Bool.false_ne_true
    · rw [hrun, hnote]
      rfl
    · rw [hrun]
      rfl
  cases c with
  | set proto cidr ports => exact hcall _ _ fun _ => rfl
  | delete proto cidr => exact hcall _ _ fun _ => rfl

theorem run_opened (s : Daemon × RuleTable) (calls : List AclCall) :
    (calls.foldl AclCall.step s).1.opened = s.1.opened := by
  induction calls generalizing s with
  | nil => rfl
  | cons c calls ih => exact (ih (c.step s)).trans (step_opened s c)

/-- What the datapath matches for a rule of the table. -/
theorem mirrors_match {p : Proto} {d : Daemon} {t : RuleTable} (h : Mirrors p d t) (key : LpmKey)
    (port : U32) :
    (((d.maps.acl p).lookup key).any fun val => aclPortMatch val port) =
      (t p key).any fun ports => decide (port.setWidth 16 ∈ ports.take aclMaxPorts) := by
  have hmatch (val : AclVal) :
      aclPortMatch val port = decide (port.setWidth 16 ∈ BpfAclMap.unpackVal val) := by
    rw [Bool.eq_iff_iff, decide_eq_true_eq, BpfAclMap.aclPortMatch_iff]
  calc (((d.maps.acl p).lookup key).any fun val => aclPortMatch val port)
      = (((d.maps.acl p).lookup key).map BpfAclMap.unpackVal).any fun ports =>
          decide (port.setWidth 16 ∈ ports) := by
        simp only [hmatch, Option.any_map]
    _ = ((t p key).map fun ports => ports.take aclMaxPorts).any fun ports =>
          decide (port.setWidth 16 ∈ ports) := by rw [h.stored]
    _ = (t p key).any fun ports => decide (port.setWidth 16 ∈ ports.take aclMaxPorts) := by
        simp only [Option.any_map]

/-- After any calls, whichever of them fail, the cache holds the rules of those that
succeeded and the datapath matches the first ports of each; `verify` counts the rules that
have more ports and cuts them in the cache too. -/
theorem acl_run (inner : InnerEntries) (d : Daemon) (hloaded : ∀ p, AclLoaded p d)
    (hopen : d.opened .acl = true) (calls : List AclCall) :
    let s := calls.foldl AclCall.step (d, cachedRules d)
    let verified := BpfAclMaps.verify inner s.1
    (∀ p key, (s.1.aclCache p).lookup key = s.2 p key) ∧
    (∀ p key port, (((s.1.maps.acl p).lookup key).any fun val => aclPortMatch val port) =
      (s.2 p key).any fun ports => decide (port.setWidth 16 ∈ ports.take aclMaxPorts)) ∧
    verified.1 = some (oversized (s.1.aclCache .tcp) + oversized (s.1.aclCache .udp)) ∧
    ∀ p key, (verified.2.aclCache p).lookup key =
      (s.2 p key).map fun ports => ports.take aclMaxPorts := by
  intro s verified
  have hmirrors (p : Proto) : Mirrors p s.1 s.2 := mirrors_run (mirrors_loaded (hloaded p)) calls
  have hopened : s.1.opened .acl = true := by
    rw [run_opened]
    exact hopen
  refine ⟨fun p => (hmirrors p).cached, fun p => mirrors_match (hmirrors p), ?_, ?_⟩
  · exact BpfAclMaps.verify_counts inner s.1 hopened fun p => clipped_of_mirrors (hmirrors p)
  · intro p key
    rw [BpfAclMaps.verify_loads inner s.1 hopened p key,
      (BpfAclMaps.verify_verified inner s.1).maps, (hmirrors p).stored]

/-- A rule for the ports 1000 to 1099. -/
def hundredPorts : PortSet where
  ports := (List.range 100).map fun i => BitVec.ofNat 16 (1000 + i)
  ascending := by
    rw [Ascending, List.pairwise_map]
    apply List.pairwise_lt_range.imp_of_mem
    intro i j hi hj hij
    rw [List.mem_range] at hi hj
    rw [BitVec.toNat_ofNat, BitVec.toNat_ofNat]
    omega

/-- The rule is written, and its removal fails. -/
def hundredRun : Daemon × RuleTable :=
  let d : Daemon := { fault := fun i => i = 1 }
  [AclCall.set "tcp" ⟨24, .v4 0xC6336400⟩ hundredPorts,
    .delete "tcp" ⟨24, .v4 0xC6336400⟩].foldl AclCall.step (d, cachedRules d)

theorem acl_run_hundred : (BpfAclMaps.verify (fun _ _ => 0) hundredRun.1).1 = some 1 := by
  have hrun := acl_run (fun _ _ => 0) { fault := fun i => i = 1 } (fun p _ => by cases p <;> rfl) rfl
    [.set "tcp" ⟨24, .v4 0xC6336400⟩ hundredPorts, .delete "tcp" ⟨24, .v4 0xC6336400⟩]
  exact hrun.2.2.1.trans rfl

end AutoXdp
