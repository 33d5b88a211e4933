import AutoXdp.CacheTruth
import Mathlib.Tactic.Basic

/-! What a reconcile that counted no failure makes of the ports, the trusted sources and
the ACL rules, whatever the caches hold. -/
namespace AutoXdp
open StateSteps XdpBackend

/-! The deltas. -/

theorem applyTrustedDelta_unfailed (cfg : Config) (plan : ReconcilePlan) :
    Steps (Unfailed fun d d' => d'.maps.trusted =
      (setDiff plan.trustedCidrsToRemove cfg.trustedSrcIps).foldl trustedErase
        (plan.trustedCidrsToAdd.foldl trustedInsert d.maps.trusted))
      (applyTrustedDelta cfg plan false) := by
  have hadd := unfailed_forM
    (P := fun cidrs d d' => d'.maps.trusted = cidrs.foldl trustedInsert d.maps.trusted)
    (Q := fun cidr d d' => d'.maps.trusted = trustedInsert d.maps.trusted cidr)
    (fun cidr => discard (ok (BpfTrustedMaps.set cidr 1 false)))
    (fun cidr => unfailed_mono _ (unfailed_call (.updateTrusted cidr.normalize 1) _ fun _ => rfl)
      (by rintro d _ rfl; rfl))
    (fun d => rfl) (by
      intro x xs d e f hx hxs
      rw [hxs, hx]
      rfl)
  have hdel := unfailed_forM
    (P := fun cidrs d d' => d'.maps.trusted = cidrs.foldl trustedErase d.maps.trusted)
    (Q := fun cidr d d' => d'.maps.trusted = trustedErase d.maps.trusted cidr)
    (fun cidr => discard (ok (BpfTrustedMaps.delete cidr false)))
    (fun cidr => unfailed_mono _ (unfailed_call (.deleteTrusted cidr.normalize) _ fun _ => rfl)
      (by rintro d _ rfl; rfl))
    (fun d => rfl) (by
      intro x xs d e f hx hxs
      rw [hxs, hx]
      rfl)
  refine unfailed_seq _ _ (hadd _) (fun _ => hdel _) ?_
  intro d e f h h'
  rw [h', h]

theorem applyAclDelta_unfailed (plan : ReconcilePlan) :
    Steps (Unfailed fun d d' => d.opened .acl = true → ∀ p, d'.maps.acl p =
      plan.aclRulesToRemove.foldl (aclErase p)
        (plan.aclRulesToUpsert.foldl (aclInsert p) (d.maps.acl p)))
      (applyAclDelta plan false) := by
  have hset := unfailed_forM
    (P := fun rules d d' => ∀ p, d'.maps.acl p = List.foldl (aclInsert p) (d.maps.acl p) rules)
    (Q := fun e d d' => ∀ p, d'.maps.acl p = aclInsert p (d.maps.acl p) e)
    (fun e => discard (ok (BpfAclMaps.set e.1.1 e.1.2 e.2 false)))
    (fun e => unfailed_mono _ (unfailed_call (.updateAcl (BpfAclMaps.mapFor e.1.1)
      e.1.2.normalize (BpfAclMaps.packVal e.2)) _ fun _ => rfl) (by
        rintro d _ rfl p
        simp only [Daemon.called, Daemon.setAclCache, BpfOp.effect, ↓reduceIte, acl_setAcl,
          aclInsert]
        by_cases hp : BpfAclMaps.mapFor e.1.1 = p
        · rw [if_pos hp, if_pos hp, hp]
        · rw [if_neg hp, if_neg hp]))
    (fun d p => rfl) (by
      intro x xs d e f hx hxs p
      rw [hxs, hx]
      rfl)
  have hdel := unfailed_forM
    (P := fun rules d d' => ∀ p, d'.maps.acl p = List.foldl (aclErase p) (d.maps.acl p) rules)
    (Q := fun e d d' => ∀ p, d'.maps.acl p = aclErase p (d.maps.acl p) e)
    (fun e => discard (ok (BpfAclMaps.delete e.1 e.2 false)))
    (fun e => unfailed_mono _ (unfailed_call (.deleteAcl (BpfAclMaps.mapFor e.1)
      e.2.normalize) _ fun _ => rfl) (by
        rintro d _ rfl p
        simp only [Daemon.called, Daemon.setAclCache, BpfOp.effect, ↓reduceIte, acl_setAcl,
          aclErase]
        by_cases hp : BpfAclMaps.mapFor e.1 = p
        · rw [if_pos hp, if_pos hp, hp]
        · rw [if_neg hp, if_neg hp]))
    (fun d p => rfl) (by
      intro x xs d e f hx hxs p
      rw [hxs, hx]
      rfl)
  have hboth := unfailed_seq (G := fun d d' => ∀ p, d'.maps.acl p =
      plan.aclRulesToRemove.foldl (aclErase p)
        (plan.aclRulesToUpsert.foldl (aclInsert p) (d.maps.acl p)))
    _ _ (hset plan.aclRulesToUpsert) (fun _ => hdel plan.aclRulesToRemove) (by
      intro d e f h h' p
      rw [h', h])
  intro d
  unfold applyAclDelta
  rw [run_get_bind, run_ite]
  split_ifs with hopen
  · intro hzero
    exact ⟨(hboth d hzero).1, fun _ => (hboth d hzero).2⟩
  · exact fun hzero => ⟨hzero, fun h => absurd h hopen⟩

theorem applySctpDelta_unfailed (plan : ReconcilePlan) :
    Steps (Unfailed fun d d' => d.opened .sctp = true → ∀ port, d'.maps.portMap .sctp port =
      if port ∈ plan.sctpPortsToRemove then 0
      else if port ∈ plan.sctpPortsToAdd then 1 else d.maps.portMap .sctp port)
      (applySctpDelta plan false) := by
  have hboth := unfailed_seq (G := fun d d' => ∀ port, d'.maps.portMap .sctp port =
      if port ∈ plan.sctpPortsToRemove then 0
      else if port ∈ plan.sctpPortsToAdd then 1 else d.maps.portMap .sctp port)
    _ _ (setPorts_unfailed .sctp plan.sctpPortsToAdd 1)
    (fun _ => setPorts_unfailed .sctp plan.sctpPortsToRemove 0) (by
      intro d e f h h' port
      rw [h', h])
  intro d
  unfold applySctpDelta
  rw [run_get_bind, run_ite]
  split_ifs with hopen
  · intro hzero
    exact ⟨(hboth d hzero).1, fun _ => (hboth d hzero).2⟩
  · exact fun hzero => ⟨hzero, fun h => absurd h hopen⟩

/-! One part of the reconcile between parts that leave its map alone. -/

/-- Parts that leave the map alone do not disturb the relation. -/
structure AboutMap (t : KernelMap) (E : Daemon → Daemon → Prop) : Prop where
  before : ∀ d e f, e.opened = d.opened → Kept d e t → E e f → E d f
  after : ∀ d e f, E d e → f.opened = e.opened → Kept e f t → E d f

section AboutMap

variable {t : KernelMap} {E : Daemon → Daemon → Prop} {α β : Type}

theorem aboutMap_left (hE : AboutMap t E) (m : DaemonM α) (f : α → DaemonM β)
    (hm : Steps (Undisturbed t) m) (hf : ∀ a, Steps (Unfailed E) (f a)) :
    Steps (Unfailed E) (m >>= f) :=
  unfailed_seq m f hm hf fun d e g h h' => hE.before d e g h.1 h.2 h'

theorem aboutMap_right (hE : AboutMap t E) (m : DaemonM α) (f : α → DaemonM β)
    (hm : Steps (Unfailed E) m) (hf : ∀ a, Steps (Undisturbed t) (f a)) :
    Steps (Unfailed E) (m >>= f) :=
  unfailed_seq m f hm hf fun d e g h h' => hE.after d e g h h'.1 h'.2

variable (t) (cfg : Config) (plan : ReconcilePlan) (desired : DesiredState)

theorem applyLimits_undisturbed (hpolicy : ∀ p, .policy p ≠ t) (houter : ∀ m, .outer m ≠ t) :
    Steps (Undisturbed t) (applyLimits cfg plan false desired) :=
  applyLimits_steps (undisturbed_stepwise t false) cfg desired plan
    (fun p _ _ => ne_target rfl (hpolicy p)) (fun p _ => ne_target rfl (hpolicy p))
    (fun m _ _ _ => ⟨nofun, ne_target rfl (houter m)⟩) fun m _ => ne_target rfl (houter m)

theorem applySctpDelta_undisturbed (hport : .port .sctp ≠ t) :
    Steps (Undisturbed t) (applySctpDelta plan false) :=
  applySctpDelta_steps (undisturbed_stepwise t false) plan (fun _ _ => ne_target rfl hport)
    fun _ _ => ne_target rfl hport

theorem applyTrustedDelta_undisturbed (htrusted : .trusted ≠ t) :
    Steps (Undisturbed t) (applyTrustedDelta cfg plan false) :=
  applyTrustedDelta_steps (undisturbed_stepwise t false) cfg plan
    (fun _ _ => ne_target rfl htrusted) fun _ _ => ne_target rfl htrusted

end AboutMap

section Prepared

variable (cfg : Config) (plan : ReconcilePlan) (desired : DesiredState)

/-- The SCTP ports of the plan are written. -/
def SctpSet (d d' : Daemon) : Prop :=
  d.opened .sctp = true → ∀ port, d'.maps.portMap .sctp port =
    if port ∈ plan.sctpPortsToRemove then 0
    else if port ∈ plan.sctpPortsToAdd then 1 else d.maps.portMap .sctp port

/-- The trusted sources of the plan are written. -/
def TrustedSet (d d' : Daemon) : Prop :=
  d'.maps.trusted = (setDiff plan.trustedCidrsToRemove cfg.trustedSrcIps).foldl trustedErase
    (plan.trustedCidrsToAdd.foldl trustedInsert d.maps.trusted)

/-- The rules of the plan are written. -/
def AclSet (p : Proto) (d d' : Daemon) : Prop :=
  d.opened .acl = true → d'.maps.acl p = plan.aclRulesToRemove.foldl (aclErase p)
    (plan.aclRulesToUpsert.foldl (aclInsert p) (d.maps.acl p))

theorem sctpSet_about : AboutMap (.port .sctp) (SctpSet plan) where
  before d e f hopen hkept h hsctp port := by
    rw [h (by rw [hopen]; exact hsctp) port, hkept.1]
  after d e f h _ hkept hsctp port := by
    rw [hkept.1, h hsctp port]

theorem trustedSet_about : AboutMap .trusted (TrustedSet cfg plan) where
  before d e f _ hkept h := by
    rw [TrustedSet, h, hkept.1]
  after d e f h _ hkept := by
    rw [TrustedSet, hkept.1, h]

theorem aclSet_about (p : Proto) : AboutMap (.acl p) (AclSet plan p) where
  before d e f hopen hkept h hacl := by
    rw [h (by rw [hopen]; exact hacl), hkept.1]
  after d e f h _ hkept hacl := by
    rw [hkept.1, h hacl]

theorem prepared_sctp : Steps (Unfailed (SctpSet plan)) (preparation cfg plan desired) := by
  have hE := sctpSet_about plan
  have hafter : Steps (Undisturbed (.port .sctp)) (do
      applyTrustedDelta cfg plan false
      applyLimits cfg plan false desired
      applyGlobals cfg plan false desired) := by
    apply steps_bind _ _ (applyTrustedDelta_undisturbed (.port .sctp) cfg plan nofun)
    intro _
    apply steps_bind _ _ (applyLimits_undisturbed (.port .sctp) cfg plan desired (fun _ => nofun) fun _ => nofun)
    intro _
    exact applyGlobals_undisturbed cfg plan desired _ (fun _ => nofun) nofun nofun nofun
  apply aboutMap_left hE _ _ (closeTcp_undisturbed plan _ nofun nofun)
  intro _
  apply aboutMap_left hE _ _ (closeUdp_undisturbed plan _ nofun nofun)
  intro _
  exact aboutMap_right hE _ _ (applySctpDelta_unfailed plan) fun _ => hafter

theorem prepared_trusted : Steps (Unfailed (TrustedSet cfg plan)) (preparation cfg plan desired) := by
  have hE := trustedSet_about cfg plan
  have hafter : Steps (Undisturbed .trusted) (do
      applyLimits cfg plan false desired
      applyGlobals cfg plan false desired) := by
    apply steps_bind _ _ (applyLimits_undisturbed .trusted cfg plan desired (fun _ => nofun) fun _ => nofun)
    intro _
    exact applyGlobals_undisturbed cfg plan desired _ (fun _ => nofun) nofun nofun nofun
  apply aboutMap_left hE _ _ (closeTcp_undisturbed plan _ nofun nofun)
  intro _
  apply aboutMap_left hE _ _ (closeUdp_undisturbed plan _ nofun nofun)
  intro _
  apply aboutMap_left hE _ _ (applySctpDelta_undisturbed .trusted plan nofun)
  intro _
  exact aboutMap_right hE _ _ (applyTrustedDelta_unfailed cfg plan) fun _ => hafter

/-- What the rules of the plan do to a map, the preparation does. -/
theorem prepared_rules (p : Proto) {E : Daemon → Daemon → Prop} (hE : AboutMap (.acl p) E)
    (hrules : Steps (Unfailed E) (applyAclDelta plan false)) :
    Steps (Unfailed E) (preparation cfg plan desired) := by
  have hafter : Steps (Undisturbed (.acl p)) (do
      applyRuntimeConfig cfg desired false
      applyGlobalRl plan false
      applySit4 cfg false) :=
    applyRest_steps (undisturbed_stepwise (.acl p) false) cfg desired plan nofun
      (fun _ => ne_target rfl nofun) (fun _ => ne_target rfl nofun)
      (fun _ => ne_target rfl nofun) fun _ => ne_target rfl nofun
  apply aboutMap_left hE _ _ (closeTcp_undisturbed plan _ nofun nofun)
  intro _
  apply aboutMap_left hE _ _ (closeUdp_undisturbed plan _ nofun nofun)
  intro _
  apply aboutMap_left hE _ _ (applySctpDelta_undisturbed (.acl p) plan nofun)
  intro _
  apply aboutMap_left hE _ _ (applyTrustedDelta_undisturbed (.acl p) cfg plan nofun)
  intro _
  apply aboutMap_left hE _ _ (applyLimits_undisturbed (.acl p) cfg plan desired (fun _ => nofun) fun _ => nofun)
  intro _
  exact aboutMap_right hE _ _ hrules fun _ => hafter

theorem prepared_acl (p : Proto) :
    Steps (Unfailed (AclSet plan p)) (preparation cfg plan desired) :=
  prepared_rules cfg plan desired p (aclSet_about plan p)
    (unfailed_mono _ (applyAclDelta_unfailed plan) fun _ _ h hopen => h hopen p)

/-- What holds of the preparation holds of a reconcile that counted no failure, when the
exposure leaves the map alone. -/
theorem reconcile_about {t : KernelMap} {E : Daemon → Daemon → Prop} (hE : AboutMap t E)
    (d : Daemon) (htcp : .port .tcp ≠ t) (hudp : .port .udp ≠ t)
    (hprepared : Steps (Unfailed E) (preparation cfg (plannedAt cfg desired d).1 desired))
    (hzero : (reconcile cfg desired false d).2.lastApplyFailures = 0) :
    E d (reconcile cfg desired false d).2 := by
  obtain ⟨start, prepared, hreads, hbody, hcounted, hlast⟩ := reconcile_unfailed cfg desired d hzero
  have hset := (hprepared start (hbody ▸ hcounted)).2
  rw [← hbody] at hset
  have hexposed := (expose_undisturbed (plannedAt cfg desired d).1 t htcp hudp prepared
    (hlast ▸ hzero)).2
  rw [← hlast] at hexposed
  exact hE.after d prepared _ (hE.before d start prepared (moves_opened hreads)
    (stage_kept t (fun h => h) hreads) hset) hexposed.1 hexposed.2

end Prepared

/-! What is left that is not desired. -/

namespace DesiredState

def portsOf (desired : DesiredState) : PortMap → List U32
  | .tcp => desired.tcpPorts
  | .udp => desired.udpPorts
  | .sctp => desired.sctpPorts

end DesiredState

/-- The name under which `active_entries` lists the rules of a map. -/
def Proto.aclName : Proto → String
  | .tcp => "tcp"
  | .udp => "udp"

theorem mapFor_aclName (p : Proto) : BpfAclMaps.mapFor p.aclName = p := by
  cases p <;> rfl

/-- The names that the cache lists are the two that the map is chosen by. -/
theorem activeEntries_lookup (d : Daemon) (proto : String) (key : LpmKey) :
    (BpfAclMaps.activeEntries d).lookup (proto, key) =
      if proto = (BpfAclMaps.mapFor proto).aclName then
        (d.aclCache (BpfAclMaps.mapFor proto)).lookup key
      else none := by
  set items := ((d.aclCache .tcp).entries.map fun e =>
      (⟨("tcp", e.1), e.2⟩ : Σ _ : String × LpmKey, List U16)) ++
    ((d.aclCache .udp).entries.map fun e => ⟨("udp", e.1), e.2⟩) with hitems
  have hkeys (name : String) (t : BpfMap LpmKey (List U16)) :
      (t.entries.map fun e => (⟨(name, e.1), e.2⟩ : Σ _ : String × LpmKey, List U16)).keys =
        t.keys.map fun k => (name, k) := by
    simp only [List.keys, AList.keys, List.map_map]
    rfl
  have hnodup : items.NodupKeys := by
    have happend : items.keys = (d.aclCache .tcp).keys.map (fun k => ("tcp", k)) ++
        (d.aclCache .udp).keys.map fun k => ("udp", k) := by
      rw [← hkeys, ← hkeys]
      exact List.map_append
    rw [List.NodupKeys, happend, List.nodup_append]
    have hinj (name : String) : Function.Injective fun k : LpmKey => (name, k) :=
      fun _ _ h => congrArg Prod.snd h
    refine ⟨(d.aclCache .tcp).nodupKeys.map (hinj _), (d.aclCache .udp).nodupKeys.map (hinj _), ?_⟩
    intro a ha b hb hab
    obtain ⟨k, -, rfl⟩ := List.mem_map.mp ha
    obtain ⟨k', -, rfl⟩ := List.mem_map.mp hb
    have hname : "tcp" = "udp" := congrArg Prod.fst hab
    exact absurd hname (by decide)
  have hlookup : (BpfAclMaps.activeEntries d).lookup (proto, key) = items.dlookup (proto, key) :=
    AList.lookup_to_alist items
  rw [hlookup]
  apply Option.ext
  intro ports
  have hmem (name : String) (t : BpfMap LpmKey (List U16)) :
      (⟨(proto, key), ports⟩ : Σ _ : String × LpmKey, List U16) ∈
        t.entries.map (fun e => (⟨(name, e.1), e.2⟩ : Σ _ : String × LpmKey, List U16)) ↔
      proto = name ∧ t.lookup key = some ports := by
    rw [List.mem_map]
    constructor
    · rintro ⟨e, he, hsame⟩
      obtain ⟨hkey, hports⟩ := Sigma.mk.inj hsame
      obtain ⟨rfl, rfl⟩ := Prod.mk.inj hkey
      obtain rfl := eq_of_heq hports
      exact ⟨rfl, AList.mem_lookup_iff.mpr he⟩
    · rintro ⟨rfl, h⟩
      exact ⟨⟨key, ports⟩, AList.mem_lookup_iff.mp h, rfl⟩
  rw [← Option.mem_def, List.mem_dlookup_iff hnodup, hitems, List.mem_append, hmem, hmem]
  by_cases htcp : proto = "tcp"
  · have hmap : BpfAclMaps.mapFor proto = .tcp := if_pos htcp
    have hname : proto = (BpfAclMaps.mapFor proto).aclName := by
      rw [hmap]
      exact htcp
    have hudp : proto ≠ "udp" := by
      rw [htcp]
      decide
    rw [if_pos hname, hmap]
    exact ⟨fun h => h.elim And.right fun h => absurd h.1 hudp, fun h => Or.inl ⟨htcp, h⟩⟩
  · have hmap : BpfAclMaps.mapFor proto = .udp := if_neg htcp
    simp only [htcp, false_and, false_or]
    by_cases hname : proto = (BpfAclMaps.mapFor proto).aclName
    · rw [if_pos hname, hmap]
      rw [hmap] at hname
      exact ⟨And.right, fun h => ⟨hname, h⟩⟩
    · rw [if_neg hname]
      rw [hmap] at hname
      exact iff_of_false (fun h => hname h.1) nofun

theorem trustedErase_lookup (cidrs : List LpmKey) (t : BpfMap LpmKey U32) (key : LpmKey) :
    (cidrs.foldl trustedErase t).lookup key =
      if ∃ k ∈ cidrs, k.normalize = key then none else t.lookup key := by
  induction cidrs generalizing t with
  | nil => simp
  | cons k cidrs ih =>
    rw [List.foldl_cons, ih, trustedErase]
    by_cases hk : k.normalize = key
    · subst hk
      simp
    · rw [AList.lookup_erase_ne (Ne.symm hk)]
      simp [hk]

theorem aclInsert_mem (p : Proto) (rules : List ((String × LpmKey) × List U16))
    (t : BpfMap LpmKey AclVal) (key : LpmKey) :
    key ∈ rules.foldl (aclInsert p) t ↔
      key ∈ t ∨ ∃ e ∈ rules, BpfAclMaps.mapFor e.1.1 = p ∧ e.1.2.normalize = key := by
  induction rules generalizing t with
  | nil => simp
  | cons e rules ih =>
    rw [List.foldl_cons, ih, List.exists_mem_cons_iff, aclInsert]
    by_cases hp : BpfAclMaps.mapFor e.1.1 = p
    · rw [if_pos hp, AList.mem_insert]
      simp only [hp, true_and, eq_comm (a := key)]
      tauto
    · rw [if_neg hp]
      simp only [hp, false_and, false_or]

theorem aclErase_mem (p : Proto) (rules : List (String × LpmKey)) (t : BpfMap LpmKey AclVal)
    (key : LpmKey) :
    key ∈ rules.foldl (aclErase p) t ↔
      key ∈ t ∧ ¬∃ e ∈ rules, BpfAclMaps.mapFor e.1 = p ∧ e.2.normalize = key := by
  induction rules generalizing t with
  | nil => simp
  | cons e rules ih =>
    rw [List.foldl_cons, ih, List.exists_mem_cons_iff, aclErase, not_or]
    by_cases hp : BpfAclMaps.mapFor e.1 = p
    · rw [if_pos hp, AList.mem_erase]
      simp only [hp, true_and]
      tauto
    · rw [if_neg hp]
      simp only [hp, false_and, not_false_eq_true, true_and]

section Left

variable (cfg : Config) (desired : DesiredState) (d : Daemon)

/-- The deltas of the plan, from the caches. -/
theorem planned_sets :
    (∀ p, (plannedAt cfg desired d).1.portsToAdd p =
        setDiff (desired.portsOf p.portMap) (d.portCache p.portMap)) ∧
      (∀ p, (plannedAt cfg desired d).1.portsToRemove p =
        setDiff (d.portCache p.portMap) (desired.portsOf p.portMap)) ∧
      (plannedAt cfg desired d).1.trustedCidrsToAdd =
        setDiff desired.trustedCidrs d.trustedCache ∧
      (plannedAt cfg desired d).1.trustedCidrsToRemove =
        setDiff d.trustedCache desired.trustedCidrs := by
  obtain ⟨bogon, dropEvents, rate, runtime, happlied⟩ := appliedAt_run d
  rw [plannedAt_run, happlied]
  refine ⟨fun p => ?_, fun p => ?_, rfl, rfl⟩
  · cases p <;> rfl
  · cases p <;> rfl

theorem planned_sctp (hopen : d.opened .sctp = true) :
    (plannedAt cfg desired d).1.sctpPortsToAdd =
        setDiff desired.sctpPorts (d.portCache .sctp) ∧
      (plannedAt cfg desired d).1.sctpPortsToRemove =
        setDiff (d.portCache .sctp) desired.sctpPorts := by
  obtain ⟨bogon, dropEvents, rate, runtime, happlied⟩ := appliedAt_run d
  have hports : (if d.opened .sctp then BpfArrayMap.activePorts d .sctp else []) =
      d.portCache .sctp := if_pos hopen
  rw [plannedAt_run, happlied, ← hports]
  exact ⟨rfl, rfl⟩

theorem planned_acl (hopen : d.opened .acl = true) :
    (plannedAt cfg desired d).1.aclRulesToUpsert =
        dictUpserts desired.aclRules (BpfAclMaps.activeEntries d) ∧
      (plannedAt cfg desired d).1.aclRulesToRemove =
        dictRemovals desired.aclRules (BpfAclMaps.activeEntries d) := by
  obtain ⟨bogon, dropEvents, rate, runtime, happlied⟩ := appliedAt_run d
  have hrules : (if d.opened .acl then BpfAclMaps.activeEntries d else ∅) =
      BpfAclMaps.activeEntries d := if_pos hopen
  rw [plannedAt_run, happlied, ← hrules]
  exact ⟨rfl, rfl⟩

variable (hzero : (reconcile cfg desired false d).2.lastApplyFailures = 0)

include hzero

/-- A port that is not desired stays open when the cache does not show it. -/
theorem undesired_port (m : PortMap) (hopen : VerifiedMap.isOpen d (.port m) = true) (port : U32)
    (hport : port ∉ desired.portsOf m) :
    (reconcile cfg desired false d).2.maps.portMap m port ≠ 0 ↔
      d.maps.portMap m port ≠ 0 ∧ port ∉ d.portCache m := by
  obtain ⟨hadd, hremove, -, -⟩ := planned_sets cfg desired d
  have hproto (p : Proto) (hp : port ∉ desired.portsOf p.portMap) :
      (reconcile cfg desired false d).2.maps.portMap p.portMap port ≠ 0 ↔
        d.maps.portMap p.portMap port ≠ 0 ∧ port ∉ d.portCache p.portMap := by
    obtain ⟨start, prepared, hreads, hbody, hcounted, hlast⟩ :=
      reconcile_unfailed cfg desired d hzero
    have hexposed := (exposed_ports (plannedAt cfg desired d).1 p prepared (hlast ▸ hzero)).2 port
    have hclosed := (prepared_ports cfg (plannedAt cfg desired d).1 desired p start
      (hbody ▸ hcounted)).2 port
    have hstart := (stage_kept (.port p.portMap) (fun h => h) hreads).1
    rw [← hbody, hstart] at hclosed
    rw [hlast, hexposed, hclosed, hadd, hremove]
    simp only [mem_setDiff, hp, false_and, if_false, not_false_eq_true, and_true]
    by_cases hcached : port ∈ d.portCache p.portMap
    · simp only [hcached, if_true, ne_eq, not_true_eq_false, and_false]
    · simp only [hcached, if_false, not_false_eq_true, and_true]
  cases m with
  | tcp => exact hproto .tcp hport
  | udp => exact hproto .udp hport
  | sctp =>
    have hset := reconcile_about cfg desired (sctpSet_about (plannedAt cfg desired d).1) d
      (by rintro ⟨⟩) (by rintro ⟨⟩)
      (prepared_sctp cfg (plannedAt cfg desired d).1 desired) hzero hopen port
    obtain ⟨hadd, hremove⟩ := planned_sctp cfg desired d hopen
    have hport' : port ∉ desired.sctpPorts := hport
    rw [hadd, hremove] at hset
    rw [hset]
    simp only [mem_setDiff, hport', false_and, if_false, not_false_eq_true, and_true]
    by_cases hcached : port ∈ d.portCache .sctp
    · simp only [hcached, if_true, ne_eq, not_true_eq_false, and_false]
    · simp only [hcached, if_false, not_false_eq_true, and_true]

/-- A source that is not desired stays trusted when the cache does not show it. -/
theorem undesired_trusted (hdesired : ∀ k ∈ desired.trustedCidrs, k.normalize = k)
    (hcache : ∀ k ∈ d.trustedCache, k.normalize = k)
    (hpermanent : ∀ k ∈ cfg.trustedSrcIps, k ∈ desired.trustedCidrs) (key : LpmKey)
    (hkey : key ∉ desired.trustedCidrs) :
    Trusts (reconcile cfg desired false d).2.maps key ↔
      Trusts d.maps key ∧ key ∉ d.trustedCache := by
  obtain ⟨-, -, hadd, hremove⟩ := planned_sets cfg desired d
  have hset := reconcile_about cfg desired (trustedSet_about cfg (plannedAt cfg desired d).1) d
    (by rintro ⟨⟩) (by rintro ⟨⟩) (prepared_trusted cfg (plannedAt cfg desired d).1 desired) hzero
  rw [TrustedSet, hadd, hremove] at hset
  have hnotAdded : ¬∃ k ∈ setDiff desired.trustedCidrs d.trustedCache, k.normalize = key := by
    rintro ⟨k, hk, hnormal⟩
    obtain ⟨hk, -⟩ := (mem_setDiff _ _ _).mp hk
    rw [hdesired k hk] at hnormal
    exact hkey (hnormal ▸ hk)
  have hremoved : (∃ k ∈ setDiff (setDiff d.trustedCache desired.trustedCidrs) cfg.trustedSrcIps,
      k.normalize = key) ↔ key ∈ d.trustedCache := by
    constructor
    · rintro ⟨k, hk, hnormal⟩
      simp only [mem_setDiff] at hk
      rw [hcache k hk.1.1] at hnormal
      exact hnormal ▸ hk.1.1
    · intro hcached
      refine ⟨key, ?_, hcache key hcached⟩
      simp only [mem_setDiff]
      exact ⟨⟨hcached, hkey⟩, fun h => hkey (hpermanent key h)⟩
  rw [Trusts, hset, trustedErase_lookup, trustedFold_lookup, if_neg hnotAdded]
  by_cases hcached : key ∈ d.trustedCache
  · rw [if_pos (hremoved.mpr hcached)]
    exact iff_of_false (by rintro ⟨⟩) fun h => h.2 hcached
  · rw [if_neg fun h => hcached (hremoved.mp h)]
    exact ⟨fun h => ⟨h, hcached⟩, And.left⟩

/-- A rule that is not desired stays when the cache does not show it, and one of another
protocol name is written to the UDP map. -/
theorem undesired_acl (hopen : d.opened .acl = true)
    (hdesired : ∀ k ∈ desired.aclRules.keys, k.2.normalize = k.2)
    (hcache : ∀ p, ∀ k ∈ d.aclCache p, k.normalize = k) (p : Proto) (key : LpmKey)
    (hkey : (p.aclName, key) ∉ desired.aclRules) :
    key ∈ (reconcile cfg desired false d).2.maps.acl p ↔
      (key ∈ d.maps.acl p ∨
        ∃ proto, (proto, key) ∈ desired.aclRules ∧ BpfAclMaps.mapFor proto = p) ∧
      key ∉ d.aclCache p := by
  obtain ⟨hupsert, hremove⟩ := planned_acl cfg desired d hopen
  have hset := reconcile_about cfg desired (aclSet_about (plannedAt cfg desired d).1 p) d
    (by rintro ⟨⟩) (by rintro ⟨⟩)
    (prepared_acl cfg (plannedAt cfg desired d).1 desired p) hzero hopen
  rw [hupsert, hremove] at hset
  have hnotNamed (proto : String) (hmem : (proto, key) ∈ desired.aclRules)
      (hp : BpfAclMaps.mapFor proto = p) : proto ≠ (BpfAclMaps.mapFor proto).aclName := by
    intro h
    rw [hp] at h
    exact hkey (h ▸ hmem)
  have hwritten : (∃ e ∈ dictUpserts desired.aclRules (BpfAclMaps.activeEntries d),
      BpfAclMaps.mapFor e.1.1 = p ∧ e.1.2.normalize = key) ↔
      ∃ proto, (proto, key) ∈ desired.aclRules ∧ BpfAclMaps.mapFor proto = p := by
    constructor
    · rintro ⟨⟨⟨proto, k⟩, ports⟩, he, hp, hnormal⟩
      rw [dictUpserts, List.mem_filter, mem_dictItems] at he
      have hk : (proto, k) ∈ desired.aclRules := AList.lookup_isSome.mp (by rw [he.1]; rfl)
      have hnetwork := hdesired (proto, k) (AList.mem_keys.mp hk)
      exact ⟨proto, by rw [← hnormal, hnetwork]; exact hk, hp⟩
    · rintro ⟨proto, hmem, hp⟩
      obtain ⟨ports, hports⟩ := Option.isSome_iff_exists.mp (AList.lookup_isSome.mpr hmem)
      refine ⟨((proto, key), ports), ?_, hp, hdesired (proto, key) (AList.mem_keys.mp hmem)⟩
      rw [dictUpserts, List.mem_filter, mem_dictItems, decide_eq_true_eq, activeEntries_lookup,
        if_neg (hnotNamed proto hmem hp)]
      exact ⟨hports, (by rintro ⟨⟩)⟩
  have hremoved : (∃ e ∈ dictRemovals desired.aclRules (BpfAclMaps.activeEntries d),
      BpfAclMaps.mapFor e.1 = p ∧ e.2.normalize = key) ↔ key ∈ d.aclCache p := by
    have hshown (proto : String) (k : LpmKey) :
        (proto, k) ∈ dictRemovals desired.aclRules (BpfAclMaps.activeEntries d) ↔
        (proto = (BpfAclMaps.mapFor proto).aclName ∧ k ∈ d.aclCache (BpfAclMaps.mapFor proto)) ∧
          (proto, k) ∉ desired.aclRules := by
      rw [dictRemovals, mem_setDiff, ← AList.mem_keys, ← AList.mem_keys, ← AList.lookup_isSome,
        activeEntries_lookup]
      refine and_congr_left fun _ => ?_
      split_ifs with hname
      · rw [AList.lookup_isSome]
        exact ⟨fun h => ⟨hname, h⟩, And.right⟩
      · exact iff_of_false (by rintro ⟨⟩) fun h => hname h.1
    constructor
    · rintro ⟨⟨proto, k⟩, he, hp, hnormal⟩
      obtain ⟨⟨-, hk⟩, -⟩ := (hshown proto k).mp he
      simp only at hp hnormal
      rw [hp] at hk
      rw [hcache p k hk] at hnormal
      exact hnormal ▸ hk
    · intro hcached
      refine ⟨(p.aclName, key), ?_, mapFor_aclName p, hcache p key hcached⟩
      rw [hshown, mapFor_aclName]
      exact ⟨⟨rfl, hcached⟩, hkey⟩
  rw [hset, aclErase_mem, aclInsert_mem, hwritten, hremoved]

end Left

end AutoXdp
