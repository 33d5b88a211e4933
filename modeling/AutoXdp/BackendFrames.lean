import AutoXdp.BackendReconcile
import Mathlib.Data.Set.Basic
import Mathlib.Tactic.Basic

/-! What a part of the reconciler may touch: the maps it writes, the calls it adds
to the log, and the failures it counts. -/
namespace AutoXdp
open StateSteps

/-- The maps whose contents are followed one by one. -/
inductive MapId where
  | port (m : PortMap) | ct (p : Proto) | policy (p : Proto) | other
  deriving DecidableEq, Repr

def BpfOp.mapId : BpfOp → MapId
  | setPort m _ _ => .port m
  | iterateCt p => .ct p
  | lookupCt p _ => .ct p
  | updateCt p _ _ => .ct p
  | deleteCt p _ => .ct p
  | updatePolicy p _ _ => .policy p
  | deletePolicy p _ => .policy p
  | _ => .other

/-- The call installs or clears protection state: everything but the port arrays and
the reads. -/
def BpfOp.protects : BpfOp → Bool
  | setPort .. => false
  | iterateCt _ => false
  | lookupCt .. => false
  | lookupRuntimeCfg => false
  | lookupGlobalRl => false
  | _ => true

/-- Such a call is made under `_ok`, or by one of two methods that drop its outcome. -/
def BpfCall.Known (c : BpfCall) : Prop :=
  c.op.protects = true →
    c.caller = .ok ∨ c.caller = .deleteDestPorts ∨ c.caller = .ensurePrefixes

/-- The kernel map and its cache are as before. -/
def Same (d d' : Daemon) : MapId → Prop
  | .port m => d'.maps.portMap m = d.maps.portMap m ∧ d'.portCache m = d.portCache m
  | .ct p => d'.maps.ct p.ctMap = d.maps.ct p.ctMap ∧ d'.ctCache p = d.ctCache p
  | .policy p =>
    d'.maps.portPolicies p = d.maps.portPolicies p ∧ d'.policyCache p = d.policyCache p
  | .other => True

theorem same_refl (d : Daemon) (i : MapId) : Same d d i := by
  cases i <;> simp only [Same, and_self]

theorem same_trans {d e f : Daemon} {i : MapId} (h : Same d e i) (h' : Same e f i) :
    Same d f i := by
  cases i with
  | other => trivial
  | _ => exact ⟨h'.1.trans h.1, h'.2.trans h.2⟩

/-- How many of the calls `_ok` counted as failed. -/
def failures (calls : List BpfCall) : ℕ := calls.countP fun c => c.caller = .ok && !c.ok

@[simp] theorem failures_nil : failures [] = 0 := rfl

theorem failures_append (calls calls' : List BpfCall) :
    failures (calls ++ calls') = failures calls + failures calls' := List.countP_append

theorem failures_eq_zero (calls : List BpfCall) :
    failures calls = 0 ↔ ∀ c ∈ calls, c.caller = .ok → c.ok = true := by
  simp only [failures, List.countP_eq_zero, Bool.and_eq_true, decide_eq_true_eq,
    Bool.not_eq_true', not_and, Bool.not_eq_false]

/-- From `d` to `d'` only the maps in `S` are called on or written, and
`last_apply_failures` has grown by the failures that were counted. -/
structure Touches (S : Set MapId) (d d' : Daemon) : Prop where
  calls : ∃ new, d'.log = new ++ d.log ∧ (∀ c ∈ new, c.op.mapId ∈ S ∧ c.Known) ∧
    d'.lastApplyFailures = d.lastApplyFailures + failures new
  same : ∀ i, i ∉ S → Same d d' i
  opened : d'.opened = d.opened

instance (S : Set MapId) : IsPreorder Daemon (Touches S) where
  refl d := ⟨⟨[], rfl, by simp, rfl⟩, fun i _ => same_refl d i, rfl⟩
  trans d e f h h' := by
    obtain ⟨new, hlog, hS, hfail⟩ := h.calls
    obtain ⟨new', hlog', hS', hfail'⟩ := h'.calls
    refine ⟨⟨new' ++ new, ?_, ?_, ?_⟩, ?_, h'.opened.trans h.opened⟩
    · rw [hlog', hlog, List.append_assoc]
    · intro c hc
      rcases List.mem_append.mp hc with hc | hc
      · exact hS' c hc
      · exact hS c hc
    · rw [hfail', hfail, failures_append, Nat.add_assoc, Nat.add_comm (failures new)]
    · intro i hi
      exact same_trans (h.same i hi) (h'.same i hi)

theorem touches_mono {S T : Set MapId} (hST : S ⊆ T) {α : Type} (m : DaemonM α)
    (hm : Steps (Touches S) m) : Steps (Touches T) m := by
  intro d
  obtain ⟨new, hlog, hS, hfail⟩ := (hm d).calls
  have hT : ∀ c ∈ new, c.op.mapId ∈ T ∧ c.Known := fun c hc => ⟨hST (hS c hc).1, (hS c hc).2⟩
  exact ⟨⟨new, hlog, hT, hfail⟩, fun i hi => (hm d).same i fun h => hi (hST h), (hm d).opened⟩

/-- The calls made between two states, newest first. -/
def callsSince (d d' : Daemon) : List BpfCall := d'.log.take (d'.log.length - d.log.length)

theorem callsSince_eq {d d' : Daemon} {new : List BpfCall} (h : d'.log = new ++ d.log) :
    callsSince d d' = new := by
  have hlen : d'.log.length - d.log.length = new.length := by
    rw [h, List.length_append, Nat.add_sub_cancel]
  rw [callsSince, hlen, h, List.take_left]

theorem callsSince_trans {d e f : Daemon} {new new' : List BpfCall} (h : e.log = new ++ d.log)
    (h' : f.log = new' ++ e.log) : callsSince d f = callsSince e f ++ callsSince d e := by
  have h'' : f.log = (new' ++ new) ++ d.log := by rw [h', h, List.append_assoc]
  rw [callsSince_eq h, callsSince_eq h', callsSince_eq h'']

/-- If every call made on the way succeeded, the two states are related by `E`. -/
def Does (E : Daemon → Daemon → Prop) (d d' : Daemon) : Prop :=
  ∃ new, d'.log = new ++ d.log ∧ ((∀ c ∈ new, c.ok = true) → E d d')

theorem does_trans {E F G : Daemon → Daemon → Prop} {d e f : Daemon} (h : Does E d e)
    (h' : Does F e f) (hG : E d e → F e f → G d f) : Does G d f := by
  obtain ⟨new, hlog, hE⟩ := h
  obtain ⟨new', hlog', hF⟩ := h'
  refine ⟨new' ++ new, by rw [hlog', hlog, List.append_assoc], ?_⟩
  intro hall
  have hnew := hE fun c hc => hall c (List.mem_append_right new' hc)
  have hnew' := hF fun c hc => hall c (List.mem_append_left new hc)
  exact hG hnew hnew'

theorem does_mono {E F : Daemon → Daemon → Prop} {d d' : Daemon} (h : Does E d d')
    (hF : E d d' → F d d') : Does F d d' := by
  obtain ⟨new, hlog, hE⟩ := h
  exact ⟨new, hlog, fun hall => hF (hE hall)⟩

theorem does_both {E F : Daemon → Daemon → Prop} {d e f : Daemon} (h : Does E d e)
    (h' : Does F e f) : Does (fun _ _ => E d e ∧ F e f) d f := does_trans h h' And.intro

theorem does_and {E F : Daemon → Daemon → Prop} {d d' : Daemon} (h : Does E d d')
    (h' : Does F d d') : Does (fun d d' => E d d' ∧ F d d') d d' := by
  obtain ⟨new, hlog, hE⟩ := h
  obtain ⟨new', hlog', hF⟩ := h'
  obtain rfl : new = new' := List.append_cancel_right (hlog.symm.trans hlog')
  exact ⟨new, hlog, fun hall => ⟨hE hall, hF hall⟩⟩

theorem does_of_touches {S : Set MapId} {d d' : Daemon} (i : MapId) (h : Touches S d d')
    (hi : i ∉ S) : Does (fun d d' => Same d d' i) d d' := by
  obtain ⟨new, hlog, -, -⟩ := h.calls
  exact ⟨new, hlog, fun _ => h.same i hi⟩

/-- A loop does what its body does one element at a time. -/
theorem forM_does {ι : Type} {P : List ι → Daemon → Daemon → Prop}
    {E : ι → Daemon → Daemon → Prop} (f : ι → DaemonM PUnit) (hf : ∀ x, Steps (Does (E x)) (f x))
    (hnil : ∀ d, P [] d d)
    (hcons : ∀ x xs d e d', E x d e → P xs e d' → P (x :: xs) d d') (xs : List ι) :
    Steps (Does (P xs)) (List.forM xs f) :=
  steps_forM_cons (P := fun xs => Does (P xs)) (Q := fun x => Does (E x)) f hf
    (fun d => ⟨[], rfl, fun _ => hnil d⟩)
    (fun x xs d e d' h h' => does_trans h h' (hcons x xs d e d')) xs

/-- What the relation says of a run all of whose calls succeeded. -/
theorem does_succeeded {E : Daemon → Daemon → Prop} {d d' : Daemon} (h : Does E d d')
    (hall : ∀ c ∈ callsSince d d', c.ok = true) : E d d' := by
  obtain ⟨new, hlog, hE⟩ := h
  rw [callsSince_eq hlog] at hall
  exact hE hall

/-! Kernel calls. -/

section Maps

variable (s : Maps)

@[simp] theorem portMap_setPortMap (m : PortMap) (f : U32 → U32) :
    (s.setPortMap m f).portMap m = f := by cases m <;> rfl

theorem portMap_setPortMap_ne (m m' : PortMap) (f : U32 → U32) (h : m' ≠ m) :
    (s.setPortMap m f).portMap m' = s.portMap m' := by
  cases m <;> cases m' <;> first | rfl | exact absurd rfl h

@[simp] theorem ct_setCt (m : CtMap) (t : BpfMap FlowKey U64) : (s.setCt m t).ct m = t := by
  cases m <;> rfl

theorem ct_setCt_ne (m m' : CtMap) (t : BpfMap FlowKey U64) (h : m' ≠ m) :
    (s.setCt m t).ct m' = s.ct m' := by
  cases m <;> cases m' <;> first | rfl | exact absurd rfl h

@[simp] theorem portPolicies_setPortPolicies (p : Proto) (t : BpfMap U32 (List U8)) :
    (s.setPortPolicies p t).portPolicies p = t := by cases p <;> rfl

theorem portPolicies_setPortPolicies_ne (p q : Proto) (t : BpfMap U32 (List U8)) (h : q ≠ p) :
    (s.setPortPolicies p t).portPolicies q = s.portPolicies q := by
  cases p <;> cases q <;> first | rfl | exact absurd rfl h

theorem whitelist_eq_portMap (p : Proto) : s.whitelist p = s.portMap p.portMap := by
  cases p <;> rfl

theorem ctMap_injective {p q : Proto} (h : p.ctMap = q.ctMap) : p = q := by
  cases p <;> cases q <;> first | rfl | exact absurd h nofun

end Maps

namespace BpfOp

variable (op : BpfOp) (s : Maps)

theorem effect_portMap (m : PortMap) (h : .port m ≠ op.mapId) :
    (op.effect s).portMap m = s.portMap m := by
  cases op with
  | setPort m' port val =>
    have hm : m ≠ m' := fun e => h (congrArg MapId.port e)
    exact portMap_setPortMap_ne s m' m _ hm
  | updateCt p _ _ => cases p <;> cases m <;> rfl
  | deleteCt p _ => cases p <;> cases m <;> rfl
  | updateAcl p _ _ => cases p <;> cases m <;> rfl
  | deleteAcl p _ => cases p <;> cases m <;> rfl
  | updatePolicy p _ _ => cases p <;> cases m <;> rfl
  | deletePolicy p _ => cases p <;> cases m <;> rfl
  | updateSlot o _ => cases o <;> cases m <;> rfl
  | deleteSlot o _ => cases o <;> cases m <;> rfl
  | _ => cases m <;> rfl

theorem effect_ct (p : Proto) (h : .ct p ≠ op.mapId) :
    (op.effect s).ct p.ctMap = s.ct p.ctMap := by
  cases op with
  | setPort m _ _ => cases m <;> cases p <;> rfl
  | updateCt q key raw =>
    have hq : p.ctMap ≠ q.ctMap := fun e => h (congrArg MapId.ct (ctMap_injective e))
    exact ct_setCt_ne s q.ctMap p.ctMap _ hq
  | deleteCt q key =>
    have hq : p.ctMap ≠ q.ctMap := fun e => h (congrArg MapId.ct (ctMap_injective e))
    exact ct_setCt_ne s q.ctMap p.ctMap _ hq
  | updateAcl q _ _ => cases q <;> cases p <;> rfl
  | deleteAcl q _ => cases q <;> cases p <;> rfl
  | updatePolicy q _ _ => cases q <;> cases p <;> rfl
  | deletePolicy q _ => cases q <;> cases p <;> rfl
  | updateSlot o _ => cases o <;> cases p <;> rfl
  | deleteSlot o _ => cases o <;> cases p <;> rfl
  | _ => cases p <;> rfl

theorem effect_portPolicies (p : Proto) (h : .policy p ≠ op.mapId) :
    (op.effect s).portPolicies p = s.portPolicies p := by
  cases op with
  | setPort m _ _ => cases m <;> cases p <;> rfl
  | updateCt q _ _ => cases q <;> cases p <;> rfl
  | deleteCt q _ => cases q <;> cases p <;> rfl
  | updateAcl q _ _ => cases q <;> cases p <;> rfl
  | deleteAcl q _ => cases q <;> cases p <;> rfl
  | updatePolicy q port val =>
    have hq : p ≠ q := fun e => h (congrArg MapId.policy e)
    exact portPolicies_setPortPolicies_ne s q p _ hq
  | deletePolicy q port =>
    have hq : p ≠ q := fun e => h (congrArg MapId.policy e)
    exact portPolicies_setPortPolicies_ne s q p _ hq
  | updateSlot o _ => cases o <;> cases p <;> rfl
  | deleteSlot o _ => cases o <;> cases p <;> rfl
  | _ => cases p <;> rfl

end BpfOp

/-- A call leaves every map but its own alone. -/
theorem same_called (caller : Caller) (op : BpfOp) (b : Bool) (d : Daemon) (i : MapId)
    (hi : i ≠ op.mapId) : Same d (d.called caller op b) i := by
  cases b with
  | false => exact same_refl d i
  | true =>
    cases i with
    | port m => exact ⟨op.effect_portMap d.maps m hi, rfl⟩
    | ct p => exact ⟨op.effect_ct d.maps p hi, rfl⟩
    | policy p => exact ⟨op.effect_portPolicies d.maps p hi, rfl⟩
    | other => trivial

/-! Cache writes. -/

/-- A change of caches and bookkeeping only, within the maps in `S`. -/
def Notes (S : Set MapId) (note : Daemon → Daemon) : Prop :=
  ∀ d, (note d).log = d.log ∧ (note d).lastApplyFailures = d.lastApplyFailures ∧
    (note d).opened = d.opened ∧ ∀ i, i ∉ S → Same d (note d) i

section Notes

variable {S : Set MapId}

theorem notes_id : Notes S id := fun d => ⟨rfl, rfl, rfl, fun i _ => same_refl d i⟩

theorem notes_portCache (m : PortMap) (f : Daemon → List U32) (hm : .port m ∈ S) :
    Notes S fun d => d.setPortCache m (f d) := by
  refine fun d => ⟨rfl, rfl, rfl, ?_⟩
  intro i hi
  cases i with
  | port m' =>
    have hne : m' ≠ m := fun h => hi (h ▸ hm)
    exact ⟨rfl, Function.update_of_ne hne _ _⟩
  | _ => simp [Same, Daemon.setPortCache]

theorem notes_ctCache (p : Proto) (f : Daemon → List FlowKey) (hp : .ct p ∈ S) :
    Notes S fun d => d.setCtCache p (f d) := by
  refine fun d => ⟨rfl, rfl, rfl, ?_⟩
  intro i hi
  cases i with
  | ct q =>
    have hne : q ≠ p := fun h => hi (h ▸ hp)
    exact ⟨rfl, Function.update_of_ne hne _ _⟩
  | _ => simp [Same, Daemon.setCtCache]

theorem notes_policyCache (p : Proto) (f : Daemon → BpfMap U32 PolicyFields)
    (hp : .policy p ∈ S) : Notes S fun d => d.setPolicyCache p (f d) := by
  refine fun d => ⟨rfl, rfl, rfl, ?_⟩
  intro i hi
  cases i with
  | policy q =>
    have hne : q ≠ p := fun h => hi (h ▸ hp)
    exact ⟨rfl, Function.update_of_ne hne _ _⟩
  | _ => simp [Same, Daemon.setPolicyCache]

/-- The other caches are not followed. -/
theorem notes_other (note : Daemon → Daemon)
    (h : ∀ d, (note d).log = d.log ∧ (note d).lastApplyFailures = d.lastApplyFailures ∧
      (note d).opened = d.opened ∧ (note d).maps = d.maps ∧ (note d).portCache = d.portCache ∧
      (note d).ctCache = d.ctCache ∧ (note d).policyCache = d.policyCache) :
    Notes S note := by
  intro d
  obtain ⟨hlog, hfail, hopen, hmaps, hport, hct, hpolicy⟩ := h d
  refine ⟨hlog, hfail, hopen, ?_⟩
  intro i _
  cases i <;> simp only [Same, hmaps, hport, hct, hpolicy, and_self]

theorem touches_modify (note : Daemon → Daemon) (h : Notes S note) :
    Steps (Touches S) (modify note : DaemonM PUnit) := by
  intro d
  obtain ⟨hlog, hfail, hopen, hsame⟩ := h d
  exact ⟨⟨[], hlog, by simp, hfail⟩, hsame, hopen⟩

end Notes

/-! Methods that return a `Bool`. -/

/-- The method itself counts nothing; it returns `False` exactly when one of its
calls failed under the eyes of `_ok`. -/
def Reports (S : Set MapId) (m : DaemonM Bool) : Prop :=
  ∀ d, (∃ new, (m d).2.log = new ++ d.log ∧ (∀ c ∈ new, c.op.mapId ∈ S ∧ c.Known) ∧
      failures new = if (m d).1 then 0 else 1) ∧
    (m d).2.lastApplyFailures = d.lastApplyFailures ∧ (m d).2.opened = d.opened ∧
    ∀ i, i ∉ S → Same d (m d).2 i

section Reports

variable {S : Set MapId}

theorem touches_ok (m : DaemonM Bool) (hm : Reports S m) : Steps (Touches S) (XdpBackend.ok m) := by
  intro d
  obtain ⟨⟨new, hlog, hS, hcount⟩, hfail, hopen, hsame⟩ := hm d
  simp only [XdpBackend.ok, run_bind]
  cases hr : (m d).1 with
  | true =>
    rw [hr] at hcount
    refine ⟨⟨new, hlog, hS, ?_⟩, hsame, hopen⟩
    rw [hcount]
    exact hfail
  | false =>
    rw [hr] at hcount
    refine ⟨⟨new, hlog, hS, ?_⟩, ?_, hopen⟩
    · rw [hcount]
      exact congrArg (· + 1) hfail
    · -- the counter is not one of the followed maps
      intro i hi
      refine same_trans (hsame i hi) ?_
      cases i <;> simp [Same]

theorem reports_true : Reports S (pure true : DaemonM Bool) :=
  fun d => ⟨⟨[], rfl, by simp, rfl⟩, rfl, rfl, fun i _ => same_refl d i⟩

theorem reports_ite (c : Prop) [Decidable c] (m n : DaemonM Bool) (hm : Reports S m)
    (hn : Reports S n) : Reports S (if c then m else n) := by
  split
  · exact hm
  · exact hn

theorem reports_get (f : Daemon → DaemonM Bool) (hf : ∀ e, Reports S (f e)) :
    Reports S (get >>= f) := fun d => hf d d

theorem counted_call (op : BpfOp) (b : Bool) (hop : op.mapId ∈ S) :
    ∀ c ∈ [(⟨.ok, op, b⟩ : BpfCall)], c.op.mapId ∈ S ∧ c.Known := by
  intro c hc
  rw [List.mem_singleton.mp hc]
  exact ⟨hop, fun _ => Or.inl rfl⟩

theorem reports_cachedCall (dryRun : Bool) (op : BpfOp) (note : Daemon → Daemon)
    (hop : op.mapId ∈ S) (hnote : Notes S note) : Reports S (cachedCall dryRun .ok op note) := by
  have hcalled : ∀ d b i, i ∉ S → Same d (d.called .ok op b) i :=
    fun d b i hi => same_called .ok op b d i fun h => hi (h ▸ hop)
  intro d
  rcases cachedCall_cases dryRun .ok op note d with ⟨-, h⟩ | ⟨-, h⟩ | ⟨-, h⟩
  · rw [h]
    exact reports_true d
  · rw [h]
    obtain ⟨hlog, hfail, hopen, hsame⟩ := hnote (d.called .ok op true)
    refine ⟨⟨[⟨.ok, op, true⟩], hlog, counted_call op true hop, rfl⟩, hfail, hopen, ?_⟩
    exact fun i hi => same_trans (hcalled d true i hi) (hsame i hi)
  · rw [h]
    exact ⟨⟨[⟨.ok, op, false⟩], rfl, counted_call op false hop, rfl⟩, rfl, rfl, hcalled d false⟩

/-- A call whose outcome nobody counts. -/
theorem touches_bpf (caller : Caller) (op : BpfOp) (hcaller : caller ≠ .ok)
    (hknown : op.protects = true → caller = .deleteDestPorts ∨ caller = .ensurePrefixes)
    (hop : op.mapId ∈ S) : Steps (Touches S) (bpf caller op) := by
  intro d
  obtain ⟨b, hb⟩ := bpf_run caller op d
  rw [hb]
  refine ⟨⟨[⟨caller, op, b⟩], rfl, ?_, ?_⟩, ?_, rfl⟩
  · intro c hc
    rw [List.mem_singleton.mp hc]
    exact ⟨hop, fun h => Or.inr (hknown h)⟩
  · simp [failures, hcaller, Daemon.called]
  · exact fun i hi => same_called caller op b d i fun h => hi (h ▸ hop)

theorem touches_read (op : BpfOp) (hread : op.protects = false) (hop : op.mapId ∈ S) :
    Steps (Touches S) (bpf .reader op) := by
  apply touches_bpf .reader op nofun _ hop
  intro h
  rw [hread] at h
  exact absurd h Bool.false_ne_true

theorem touches_cachedCall (dryRun : Bool) (caller : Caller) (op : BpfOp)
    (note : Daemon → Daemon) (hcaller : caller ≠ .ok)
    (hknown : op.protects = true → caller = .deleteDestPorts ∨ caller = .ensurePrefixes)
    (hop : op.mapId ∈ S) (hnote : Notes S note) :
    Steps (Touches S) (cachedCall dryRun caller op note) := by
  unfold cachedCall
  apply steps_ite
  · exact fun _ => steps_pure true
  · intro _
    apply steps_bind _ _ (touches_bpf caller op hcaller hknown hop)
    intro b
    cases b with
    | true => exact steps_bind _ _ (touches_modify note hnote) fun _ => steps_pure true
    | false => exact steps_pure false

end Reports

/-! Methods whose call succeeds. -/

theorem cachedCall_does (caller : Caller) (op : BpfOp) (note : Daemon → Daemon)
    (hnote : ∀ d, (note d).log = d.log) :
    Steps (Does fun d d' => d' = note (d.called caller op true))
      (cachedCall false caller op note) := by
  intro d
  rcases cachedCall_cases false caller op note d with ⟨h, -⟩ | ⟨-, h⟩ | ⟨-, h⟩
  · exact absurd h Bool.false_ne_true
  · rw [h]
    exact ⟨[⟨caller, op, true⟩], hnote _, fun _ => rfl⟩
  · rw [h]
    refine ⟨[⟨caller, op, false⟩], rfl, fun hall => ?_⟩
    exact absurd (hall _ (List.mem_singleton_self _)) Bool.false_ne_true

/-- `_ok` adds nothing to a call that succeeds. -/
theorem okCachedCall_does (op : BpfOp) (note : Daemon → Daemon)
    (hnote : ∀ d, (note d).log = d.log) :
    Steps (Does fun d d' => d' = note (d.called .ok op true))
      (XdpBackend.ok (cachedCall false .ok op note)) := by
  intro d
  simp only [XdpBackend.ok, run_bind]
  rcases cachedCall_cases false .ok op note d with ⟨h, -⟩ | ⟨-, h⟩ | ⟨-, h⟩
  · exact absurd h Bool.false_ne_true
  · rw [h]
    exact ⟨[⟨.ok, op, true⟩], hnote _, fun _ => rfl⟩
  · rw [h]
    refine ⟨[⟨.ok, op, false⟩], rfl, fun hall => ?_⟩
    exact absurd (hall _ (List.mem_singleton_self _)) Bool.false_ne_true

/-! `BpfRateOuterMap.set`, which makes two calls. -/

section Methods

variable {S : Set MapId}

/-- Two calls, but the second only if the first went well. -/
theorem outerSet_reports (m : OuterMap) (port capacity : U32) (dryRun : Bool) (hS : .other ∈ S) :
    Reports S (BpfRateOuterMap.set m port capacity dryRun) := by
  apply reports_get
  intro d
  apply reports_ite
  · exact reports_true
  apply reports_ite
  · exact reports_true
  intro e
  obtain ⟨b, hb⟩ := bpf_run .ok (.createInner m port capacity) e
  have hcreate : ∀ i, i ∉ S → Same e (e.called .ok (.createInner m port capacity) b) i :=
    fun i hi => same_called .ok _ b e i fun h => hi (h ▸ hS)
  simp only [run_bind, hb]
  cases b with
  | false =>
    exact ⟨⟨[⟨.ok, .createInner m port capacity, false⟩], rfl, counted_call _ false hS, rfl⟩, rfl,
      rfl, hcreate⟩
  | true =>
    have hslot : Reports S (cachedCall false .ok (.updateSlot m port) fun d =>
        d.setOuterCache m ((d.outerCache m).insert port capacity)) :=
      reports_cachedCall false _ _ hS
        (notes_other _ fun _ => ⟨rfl, rfl, rfl, rfl, rfl, rfl, rfl⟩)
    obtain ⟨⟨new, hlog, hnew, hcount⟩, hfail, hopen, hsame⟩ :=
      hslot (e.called .ok (.createInner m port capacity) true)
    refine ⟨⟨new ++ [⟨.ok, .createInner m port capacity, true⟩], ?_, ?_, ?_⟩, hfail, hopen, ?_⟩
    · rw [List.append_assoc]
      exact hlog
    · intro c hc
      rcases List.mem_append.mp hc with hc | hc
      · exact hnew c hc
      · exact counted_call _ true hS c hc
    · rw [failures_append]
      exact hcount
    · exact fun i hi => same_trans (hcreate i hi) (hsame i hi)

end Methods

end AutoXdp
