import AutoXdp.ReconcileEffects
import Mathlib.Tactic.Basic

/-! What the parts of a reconcile leave in the kernel maps when their calls
succeed. -/
namespace AutoXdp
open StateSteps XdpBackend

/-- The call leaves a part of the maps alone. -/
def Leaves {τ : Type} (f : Maps → τ) (op : BpfOp) : Prop := ∀ s, f (op.effect s) = f s

theorem moves_leaves {τ : Type} (f : Maps → τ) {K : BpfOp → Prop} (hK : ∀ op, K op → Leaves f op)
    {d d' : Daemon} (h : Moves K d d') : f d'.maps = f d.maps :=
  moves_maps f (fun op s hop => hK op hop s) h

theorem does_of_leaves {τ : Type} (f : Maps → τ) {α : Type} (m : DaemonM α)
    (hm : Steps (Moves (Leaves f)) m) : Steps (Does fun d d' => f d'.maps = f d.maps) m := by
  intro d
  obtain ⟨new, hlog, -, -⟩ := moves_log (hm d)
  exact ⟨new, hlog, fun _ => moves_leaves f (fun _ h => h) (hm d)⟩

/-- The kernel maps that the daemon writes. -/
inductive KernelMap where
  | port (m : PortMap) | ct (p : Proto) | trusted | acl (p : Proto) | policy (p : Proto)
  | outer (m : OuterMap) | runtimeConfig | globalRl | sit4
  deriving DecidableEq, Repr

/-- The map that a call writes. -/
def BpfOp.target : BpfOp → Option KernelMap
  | setPort m _ _ => some (.port m)
  | updateCt p _ _ => some (.ct p)
  | deleteCt p _ => some (.ct p)
  | updateTrusted _ _ => some .trusted
  | deleteTrusted _ => some .trusted
  | updateAcl p _ _ => some (.acl p)
  | deleteAcl p _ => some (.acl p)
  | updatePolicy p _ _ => some (.policy p)
  | deletePolicy p _ => some (.policy p)
  | updateSlot m _ => some (.outer m)
  | deleteSlot m _ => some (.outer m)
  | updateRuntimeCfg _ => some .runtimeConfig
  | updateGlobalRl _ => some .globalRl
  | updateSit4 _ _ => some .sit4
  | deleteSit4 _ => some .sit4
  | _ => none

theorem target_port (op : BpfOp) (m : PortMap) (h : op.mapId = .port m) :
    op.target = some (.port m) := by
  cases op <;> simp only [BpfOp.mapId, reduceCtorEq, MapId.port.injEq] at h
  rw [BpfOp.target, h]

theorem target_policy (op : BpfOp) (p : Proto) (h : op.mapId = .policy p) :
    op.target = some (.policy p) := by
  cases op <;> simp only [BpfOp.mapId, reduceCtorEq, MapId.policy.injEq] at h <;>
  rw [BpfOp.target, h]

section Leaves

variable (op : BpfOp)

theorem leaves_trusted (h : op.target ≠ some .trusted) : Leaves (fun s => s.trusted) op := by
  intro s
  cases op with
  | setPort m _ _ => cases m <;> rfl
  | updateCt p _ _ => cases p <;> rfl
  | deleteCt p _ => cases p <;> rfl
  | updateTrusted _ _ => exact absurd rfl h
  | deleteTrusted _ => exact absurd rfl h
  | updateAcl p _ _ => cases p <;> rfl
  | deleteAcl p _ => cases p <;> rfl
  | updatePolicy p _ _ => cases p <;> rfl
  | deletePolicy p _ => cases p <;> rfl
  | updateSlot m _ => cases m <;> rfl
  | deleteSlot m _ => cases m <;> rfl
  | _ => rfl

theorem leaves_acl (p : Proto) (h : op.target ≠ some (.acl p)) : Leaves (fun s => s.acl p) op := by
  intro s
  cases op with
  | setPort m _ _ => cases m <;> cases p <;> rfl
  | updateCt q _ _ => cases q <;> cases p <;> rfl
  | deleteCt q _ => cases q <;> cases p <;> rfl
  | updateAcl q _ _ =>
    have hq : q ≠ p := fun e => h (congrArg (some ∘ KernelMap.acl) e)
    cases q <;> cases p <;> first | rfl | exact absurd rfl hq
  | deleteAcl q _ =>
    have hq : q ≠ p := fun e => h (congrArg (some ∘ KernelMap.acl) e)
    cases q <;> cases p <;> first | rfl | exact absurd rfl hq
  | updatePolicy q _ _ => cases q <;> cases p <;> rfl
  | deletePolicy q _ => cases q <;> cases p <;> rfl
  | updateSlot m _ => cases m <;> cases p <;> rfl
  | deleteSlot m _ => cases m <;> cases p <;> rfl
  | _ => cases p <;> rfl

theorem leaves_runtimeCfg (h : op.target ≠ some .runtimeConfig) :
    Leaves (fun s => s.runtimeCfg) op := by
  intro s
  cases op with
  | setPort m _ _ => cases m <;> rfl
  | updateCt p _ _ => cases p <;> rfl
  | deleteCt p _ => cases p <;> rfl
  | updateAcl p _ _ => cases p <;> rfl
  | deleteAcl p _ => cases p <;> rfl
  | updatePolicy p _ _ => cases p <;> rfl
  | deletePolicy p _ => cases p <;> rfl
  | updateSlot m _ => cases m <;> rfl
  | deleteSlot m _ => cases m <;> rfl
  | updateRuntimeCfg _ => exact absurd rfl h
  | _ => rfl

theorem leaves_rateOuter (m : OuterMap) (h : op.target ≠ some (.outer m)) :
    Leaves (fun s => s.rateOuter m) op := by
  intro s
  cases op with
  | setPort n _ _ => cases n <;> cases m <;> rfl
  | updateCt p _ _ => cases p <;> cases m <;> rfl
  | deleteCt p _ => cases p <;> cases m <;> rfl
  | updateAcl p _ _ => cases p <;> cases m <;> rfl
  | deleteAcl p _ => cases p <;> cases m <;> rfl
  | updatePolicy p _ _ => cases p <;> cases m <;> rfl
  | deletePolicy p _ => cases p <;> cases m <;> rfl
  | updateSlot n _ =>
    have hn : n ≠ m := fun e => h (congrArg (some ∘ KernelMap.outer) e)
    cases n <;> cases m <;> first | rfl | exact absurd rfl hn
  | deleteSlot n _ =>
    have hn : n ≠ m := fun e => h (congrArg (some ∘ KernelMap.outer) e)
    cases n <;> cases m <;> first | rfl | exact absurd rfl hn
  | _ => cases m <;> rfl

end Leaves

/-! Maps with their caches. -/

/-- The kernel map and its cache are as before. -/
def Kept (d d' : Daemon) : KernelMap → Prop
  | .port m => d'.maps.portMap m = d.maps.portMap m ∧ d'.portCache m = d.portCache m
  | .trusted => d'.maps.trusted = d.maps.trusted ∧ d'.trustedCache = d.trustedCache
  | .acl p => d'.maps.acl p = d.maps.acl p ∧ d'.aclCache p = d.aclCache p
  | .policy p =>
    d'.maps.portPolicies p = d.maps.portPolicies p ∧ d'.policyCache p = d.policyCache p
  | .outer m => d'.maps.rateOuter m = d.maps.rateOuter m ∧ d'.outerCache m = d.outerCache m
  | .runtimeConfig => d'.maps.runtimeCfg = d.maps.runtimeCfg
  | _ => True

theorem kept_refl (d : Daemon) (t : KernelMap) : Kept d d t := by
  cases t <;> simp only [Kept, and_self]

theorem kept_trans {d e f : Daemon} {t : KernelMap} (h : Kept d e t) (h' : Kept e f t) :
    Kept d f t := by
  cases t with
  | ct | globalRl | sit4 => trivial
  | runtimeConfig => exact h'.trans h
  | _ => exact ⟨h'.1.trans h.1, h'.2.trans h.2⟩

/-- A call leaves every map but its own alone. -/
theorem kept_called (caller : Caller) (op : BpfOp) (b : Bool) (d : Daemon) (t : KernelMap)
    (h : op.target ≠ some t) : Kept d (d.called caller op b) t := by
  cases b with
  | false => exact kept_refl d t
  | true =>
    cases t with
    | port m => exact ⟨op.effect_portMap d.maps m fun hid => h (target_port op m hid.symm), rfl⟩
    | trusted => exact ⟨leaves_trusted op h d.maps, rfl⟩
    | acl p => exact ⟨leaves_acl op p h d.maps, rfl⟩
    | policy p =>
      exact ⟨op.effect_portPolicies d.maps p fun hid => h (target_policy op p hid.symm), rfl⟩
    | outer m => exact ⟨leaves_rateOuter op m h d.maps, rfl⟩
    | runtimeConfig => exact leaves_runtimeCfg op h d.maps
    | ct | globalRl | sit4 => trivial

/-- So does the change of the cache that belongs to the call. -/
theorem kept_notes (op : BpfOp) (d d' : Daemon) (t : KernelMap) (hnote : op.Notes d d')
    (h : op.target ≠ some t) : Kept d d' t := by
  cases op <;> obtain ⟨x, rfl⟩ := hnote <;> cases t <;> first
    | trivial
    | exact ⟨rfl, rfl⟩
    | rfl
    | exact ⟨rfl, Function.update_of_ne (fun e => h (by rw [e]; rfl)) _ _⟩

theorem moves_kept {K : BpfOp → Prop} {d d' : Daemon} (t : KernelMap)
    (hK : ∀ op, K op → op.target ≠ some t) (h : Moves K d d') : Kept d d' t := by
  induction h with
  | refl => exact kept_refl d t
  | tail _ hlast ih =>
    refine kept_trans ih ?_
    cases hlast with
    | call caller op _ hop => exact kept_called caller op _ _ t (hK op hop)
    | note op _ _ hop hnote => exact kept_notes op _ _ t hnote (hK op hop)
    | rounds d x => cases t <;> trivial
    | counter d n => cases t <;> trivial

/-! Stages: parts of the reconciler that write some maps only. -/

/-- The call is in range and writes no other map than those of `T`. -/
def Within (T : KernelMap → Prop) (op : BpfOp) : Prop :=
  op.inRange = true ∧ ∀ m, op.target = some m → T m

section Within

variable {T : KernelMap → Prop} {d d' : Daemon}

theorem within_read (op : BpfOp) (hrange : op.inRange = true) (hread : op.target = none) :
    Within T op := by
  refine ⟨hrange, ?_⟩
  intro m hm
  rw [hread] at hm
  exact absurd hm nofun

theorem within_write (op : BpfOp) (m : KernelMap) (hrange : op.inRange = true)
    (htarget : op.target = some m) (hm : T m) : Within T op := by
  refine ⟨hrange, ?_⟩
  intro m' hm'
  obtain rfl := Option.some.inj (htarget.symm.trans hm')
  exact hm

/-- A stage keeps the maps that it does not write. -/
theorem stage_kept (t : KernelMap) (hT : ¬T t) (h : Moves (Within T) d d') : Kept d d' t :=
  moves_kept t (fun _ hop ht => hT (hop.2 t ht)) h

/-- The stage is left as it was entered: no fault ahead, every map open. -/
theorem stage_clean (h : Moves (Within T) d d') (hfault : ∀ i, d.fault i = false) :
    (∀ i, d'.fault i = false) ∧ d'.opened = d.opened := by
  have hsame : d'.fault = d.fault :=
    moves_keep (fun d => d.fault) (fun _ _ hstep => (step_environment hstep).1) h
  exact ⟨fun i => (congrFun hsame i).trans (hfault i), moves_opened h⟩

theorem stage_does {E : Daemon → Daemon → Prop} (h : Moves (Within T) d d') (hE : Does E d d')
    (hfault : ∀ i, d.fault i = false) : E d d' :=
  does_of_moves hE h hfault fun _ hop => hop.1

end Within

/-! Ports. -/

theorem setPorts_does (m : PortMap) (ports : List U32) (val : U32) :
    Steps (Does fun d d' => ∀ port, d'.maps.portMap m port =
      if port ∈ ports then val else d.maps.portMap m port) (setPorts m ports val false) := by
  have hone (port : U32) := okCachedCall_does (.setPort m port val) (fun d => d.setPortCache m
    (if val ≠ 0 then setAdd port (d.portCache m) else setDiscard port (d.portCache m)))
    fun _ => rfl
  have hloop := forM_does (P := fun ports d d' => ∀ port, d'.maps.portMap m port =
      if port ∈ ports then val else d.maps.portMap m port)
    (fun port => discard (ok (BpfArrayMap.set m port val false)))
    (fun port => steps_discard _ (hone port)) (fun d port => by simp)
    (by
      rintro x xs d _ d' rfl hrest port
      rw [hrest port]
      have hcall : (d.called .ok (.setPort m x val) true).maps.portMap m port =
          if port = x then val else d.maps.portMap m port := by
        simp [Daemon.called, BpfOp.effect, Function.update_apply]
      change (if port ∈ xs then val
        else (d.called .ok (.setPort m x val) true).maps.portMap m port) = _
      rw [hcall]
      by_cases hx : port = x
      · simp only [hx, ↓reduceIte, List.mem_cons_self, ite_self]
      · simp only [hx, if_false, List.mem_cons, false_or])
  intro d
  have hsorted := hloop (sorted ports) d
  refine does_mono hsorted fun h port => ?_
  rw [h port]
  simp only [mem_sorted]

/-! Trusted sources. -/

def trustedInsert (t : BpfMap LpmKey U32) (cidr : LpmKey) : BpfMap LpmKey U32 :=
  t.insert cidr.normalize 1

def trustedErase (t : BpfMap LpmKey U32) (cidr : LpmKey) : BpfMap LpmKey U32 :=
  t.erase cidr.normalize

theorem trustedFold_lookup (cidrs : List LpmKey) (t : BpfMap LpmKey U32) (key : LpmKey) :
    (cidrs.foldl trustedInsert t).lookup key =
      if ∃ k ∈ cidrs, k.normalize = key then some 1 else t.lookup key := by
  induction cidrs generalizing t with
  | nil => simp
  | cons k cidrs ih =>
    rw [List.foldl_cons, ih, trustedInsert]
    by_cases hk : k.normalize = key
    · subst hk
      simp
    · rw [AList.lookup_insert_ne (Ne.symm hk)]
      simp [hk]

theorem applyTrustedDelta_does (cfg : Config) (plan : ReconcilePlan) :
    Steps (Does fun d d' => d'.maps.trusted =
      (setDiff plan.trustedCidrsToRemove cfg.trustedSrcIps).foldl trustedErase
        (plan.trustedCidrsToAdd.foldl trustedInsert d.maps.trusted))
      (applyTrustedDelta cfg plan false) := by
  have hadd := forM_does
    (P := fun cidrs d d' => d'.maps.trusted = cidrs.foldl trustedInsert d.maps.trusted)
    (fun cidr => discard (ok (BpfTrustedMaps.set cidr 1 false)))
    (fun cidr => steps_discard _ (okCachedCall_does (.updateTrusted cidr.normalize 1) _ fun _ => rfl))
    (fun d => rfl) (by rintro x xs d _ d' rfl hrest; exact hrest)
  have hdel := forM_does
    (P := fun cidrs d d' => d'.maps.trusted = cidrs.foldl trustedErase d.maps.trusted)
    (fun cidr => discard (ok (BpfTrustedMaps.delete cidr false)))
    (fun cidr => steps_discard _ (okCachedCall_does (.deleteTrusted cidr.normalize) _ fun _ => rfl))
    (fun d => rfl) (by rintro x xs d _ d' rfl hrest; exact hrest)
  exact steps_seq _ _ (hadd _) (fun _ => hdel _)
    fun d e f h h' => does_trans h h' fun h h' =>
      h'.trans (congrArg (List.foldl trustedErase · _) h)

/-! ACL. -/

/-- The rules of one protocol map, one after the other. -/
def aclInsert (p : Proto) (t : BpfMap LpmKey AclVal) (e : (String × LpmKey) × List U16) :
    BpfMap LpmKey AclVal :=
  if BpfAclMaps.mapFor e.1.1 = p then t.insert e.1.2.normalize (BpfAclMaps.packVal e.2) else t

def aclErase (p : Proto) (t : BpfMap LpmKey AclVal) (e : String × LpmKey) :
    BpfMap LpmKey AclVal :=
  if BpfAclMaps.mapFor e.1 = p then t.erase e.2.normalize else t

theorem acl_setAcl (s : Maps) (p q : Proto) (t : BpfMap LpmKey AclVal) :
    (s.setAcl p t).acl q = if p = q then t else s.acl q := by
  cases p <;> cases q <;> rfl

theorem applyAclDelta_does (plan : ReconcilePlan) :
    Steps (Does fun d d' => d.opened .acl = true → ∀ p, d'.maps.acl p =
      plan.aclRulesToRemove.foldl (aclErase p)
        (plan.aclRulesToUpsert.foldl (aclInsert p) (d.maps.acl p)))
      (applyAclDelta plan false) := by
  have hset := forM_does (P := fun rules d d' =>
      ∀ p, d'.maps.acl p = List.foldl (aclInsert p) (d.maps.acl p) rules)
    (fun e => discard (ok (BpfAclMaps.set e.1.1 e.1.2 e.2 false)))
    (fun e => steps_discard _ (okCachedCall_does (.updateAcl (BpfAclMaps.mapFor e.1.1)
      e.1.2.normalize (BpfAclMaps.packVal e.2)) _ fun _ => rfl))
    (fun d p => rfl) (by
      rintro e rules d _ d' rfl hrest p
      rw [hrest p, List.foldl_cons]
      congr 1
      simp only [Daemon.called, Daemon.setAclCache, BpfOp.effect, ↓reduceIte, acl_setAcl, aclInsert]
      by_cases hp : BpfAclMaps.mapFor e.1.1 = p
      · rw [if_pos hp, if_pos hp, hp]
      · rw [if_neg hp, if_neg hp])
  have hdel := forM_does (P := fun rules d d' =>
      ∀ p, d'.maps.acl p = List.foldl (aclErase p) (d.maps.acl p) rules)
    (fun e => discard (ok (BpfAclMaps.delete e.1 e.2 false)))
    (fun e => steps_discard _ (okCachedCall_does (.deleteAcl (BpfAclMaps.mapFor e.1)
      e.2.normalize) _ fun _ => rfl))
    (fun d p => rfl) (by
      rintro e rules d _ d' rfl hrest p
      rw [hrest p, List.foldl_cons]
      congr 1
      simp only [Daemon.called, Daemon.setAclCache, BpfOp.effect, ↓reduceIte, acl_setAcl, aclErase]
      by_cases hp : BpfAclMaps.mapFor e.1 = p
      · rw [if_pos hp, if_pos hp, hp]
      · rw [if_neg hp, if_neg hp])
  intro d
  unfold applyAclDelta
  rw [run_get_bind, run_ite]
  cases hopen : d.opened .acl with
  | false =>
    exact ⟨[], rfl, fun _ h => absurd (hopen.symm.trans h) Bool.false_ne_true⟩
  | true =>
    rw [if_pos rfl]
    have hboth := steps_seq _ _ (hset plan.aclRulesToUpsert) (fun _ => hdel plan.aclRulesToRemove)
      (fun d e f h h' => does_trans h h' (G := fun d d' => ∀ p, d'.maps.acl p =
        plan.aclRulesToRemove.foldl (aclErase p)
          (plan.aclRulesToUpsert.foldl (aclInsert p) (d.maps.acl p)))
        fun h h' p => (h' p).trans (congrArg (List.foldl (aclErase p) · _) (h p))) d
    exact does_mono hboth fun h _ => h

/-! Runtime configuration. -/

theorem lookupRaw_does (d : Daemon) :
    Does (fun _ _ => (BpfRuntimeConfigMap.lookupRaw d).1 = d.maps.runtimeCfg ∧
      (BpfRuntimeConfigMap.lookupRaw d).2.maps = d.maps) d (BpfRuntimeConfigMap.lookupRaw d).2 := by
  obtain ⟨b, hb⟩ := bpf_run .reader .lookupRuntimeCfg d
  have hrun : BpfRuntimeConfigMap.lookupRaw d =
      (if b then (d.called .reader .lookupRuntimeCfg b).maps.runtimeCfg else none,
        d.called .reader .lookupRuntimeCfg b) := by
    simp only [BpfRuntimeConfigMap.lookupRaw, run_bind, hb]
    rfl
  rw [hrun]
  refine ⟨[⟨.reader, .lookupRuntimeCfg, b⟩], rfl, fun hall => ?_⟩
  obtain rfl : b = true := hall _ (List.mem_singleton_self _)
  exact ⟨rfl, rfl⟩

theorem applyRuntimeConfig_does (cfg : Config) (desired : DesiredState) :
    Steps (Does fun d d' => d.opened .runtimeConfig = true → d'.maps.runtimeCfg =
      some { desired.xdpRuntimeConfig with cfgFlags := computeCfgFlags cfg desired })
      (applyRuntimeConfig cfg desired false) := by
  intro d
  unfold applyRuntimeConfig
  rw [run_get_bind, run_ite]
  cases hopen : d.opened .runtimeConfig with
  | false => exact ⟨[], rfl, fun _ h => absurd (hopen.symm.trans h) Bool.false_ne_true⟩
  | true =>
    rw [if_pos rfl, run_bind, run_bind, run_ite]
    set first := BpfRuntimeConfigMap.lookupRaw d with hfirst
    set second := BpfRuntimeConfigMap.lookupRaw first.2 with hsecond
    have hread := does_trans (lookupRaw_does d) (lookupRaw_does first.2)
      (G := fun _ _ => first.1 = d.maps.runtimeCfg ∧ second.1 = d.maps.runtimeCfg ∧
        second.2.maps = d.maps)
      fun h h' => ⟨h.1, h'.1.trans (congrArg Maps.runtimeCfg h.2), h'.2.trans h.2⟩
    split_ifs with hdiff
    · have hwrite := steps_discard _ (okCachedCall_does (.updateRuntimeCfg
        { desired.xdpRuntimeConfig with cfgFlags := computeCfgFlags cfg desired }) id fun _ => rfl)
        second.2
      exact does_trans hread hwrite fun _ h _ => (congrArg (fun d => d.maps.runtimeCfg) h).trans rfl
    · refine does_mono hread fun h _ => ?_
      obtain ⟨hcurrent, hraw, hmaps⟩ := h
      rw [not_or, not_not, not_not] at hdiff
      change second.2.maps.runtimeCfg = _
      rw [hmaps]
      -- nothing was written: both reads show what would have been
      rw [hcurrent, hraw] at hdiff
      obtain ⟨htimings, hflags⟩ := hdiff
      cases hc : d.maps.runtimeCfg with
      | none => rw [hc] at htimings; exact absurd htimings nofun
      | some c =>
        rw [hc] at htimings hflags
        have hsame := Option.some.inj htimings
        simp only [Option.map_some, Option.getD_some] at hflags
        simp only [timings, XdpRuntimeCfg.mk.injEq, and_true] at hsame
        obtain ⟨h1, h2, h3, h4, h5, h6, h7, h8⟩ := hsame
        simp only [h1, h2, h3, h4, h5, h6, h7, h8, hflags]

end AutoXdp
