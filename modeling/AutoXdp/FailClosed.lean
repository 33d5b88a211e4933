import AutoXdp.ReconcileFrames
import Mathlib.Data.Set.Basic
import Mathlib.Tactic.Basic

/-! When a failed protection call leaves closed ports closed. -/
namespace AutoXdp
open StateSteps XdpBackend

/-- If a call that installs or clears protection state failed, no TCP or UDP port that
was closed is open. -/
def FailsClosed (d d' : Daemon) : Prop :=
  (∃ c ∈ callsSince d d', c.op.protects = true ∧ c.ok = false) →
    ∀ p port, d.maps.whitelist p port = 0 → d'.maps.whitelist p port = 0

/-- A purge of a closed port's entries or a write of `ensure_prefixes` fails, no other
call of the preparation does, and then a closed port is opened. -/
structure OpensUnprotected (cfg : Config) (plan : ReconcilePlan) (desired : DesiredState)
    (d : Daemon) : Prop where
  unseen : ∃ c ∈ callsSince d (prepare cfg plan false desired d).2, c.op.protects = true ∧
    (c.caller = .deleteDestPorts ∨ c.caller = .ensurePrefixes) ∧ c.ok = false
  counted : ∀ c ∈ callsSince d (prepare cfg plan false desired d).2, c.caller = .ok → c.ok = true
  opened : ∃ p port, d.maps.whitelist p port = 0 ∧
    ⟨.ok, .setPort p.portMap port 1, true⟩ ∈ callsSince (prepare cfg plan false desired d).2
      (expose plan false (prepare cfg plan false desired d).2).2

/-! The preparation opens nothing. -/

def KeepsClosed (d d' : Daemon) : Prop :=
  ∀ m port, m ≠ .sctp → d.maps.portMap m port = 0 → d'.maps.portMap m port = 0

instance : IsPreorder Daemon KeepsClosed where
  refl _ _ _ _ h := h
  trans _ _ _ h h' m port hm hz := h' m port hm (h m port hm hz)

/-- Both relations at once. -/
def Prepares (d d' : Daemon) : Prop := Touches Set.univ d d' ∧ KeepsClosed d d'

instance : IsPreorder Daemon Prepares where
  refl d := ⟨refl_of _ d, refl_of _ d⟩
  trans _ _ _ h h' := ⟨trans_of _ h.1 h'.1, trans_of _ h.2 h'.2⟩

/-- A part that touches no TCP or UDP port array. -/
theorem prepares_of_touches {α : Type} (S : Set MapId) (m : DaemonM α)
    (hS : ∀ n : PortMap, n ≠ .sctp → .port n ∉ S) (hm : Steps (Touches S) m) :
    Steps Prepares m := by
  intro d
  refine ⟨touches_mono (Set.subset_univ S) m hm d, ?_⟩
  intro n port hn hz
  rw [((hm d).same (.port n) (hS n hn)).1]
  exact hz

theorem setPort_portMap (caller : Caller) (m n : PortMap) (port port' val : U32) (b : Bool)
    (d : Daemon) :
    (d.called caller (.setPort m port val) b).maps.portMap n port' =
      if b = true ∧ n = m ∧ port' = port then val else d.maps.portMap n port' := by
  cases b with
  | false => simp [Daemon.called]
  | true =>
    by_cases hn : n = m
    · subst hn
      simp [Daemon.called, BpfOp.effect, Function.update_apply]
    · simp [Daemon.called, BpfOp.effect, hn, portMap_setPortMap_ne _ _ _ _ hn]

/-- One counted write of a port array. -/
theorem portSet_run (m : PortMap) (port val : U32) (d : Daemon) :
    ∃ b, (ok (BpfArrayMap.set m port val false) d).2.log =
        ⟨.ok, .setPort m port val, b⟩ :: d.log ∧
      (ok (BpfArrayMap.set m port val false) d).2.maps =
        (d.called .ok (.setPort m port val) b).maps := by
  simp only [ok, run_bind]
  rcases cachedCall_cases false .ok (.setPort m port val) _ d with ⟨h, -⟩ | ⟨-, h⟩ | ⟨-, h⟩
  · exact absurd h Bool.false_ne_true
  · exact ⟨true, by rw [BpfArrayMap.set, h]; exact ⟨rfl, rfl⟩⟩
  · exact ⟨false, by rw [BpfArrayMap.set, h]; exact ⟨rfl, rfl⟩⟩

theorem closePorts_prepares (m : PortMap) (ports : List U32) :
    Steps Prepares (setPorts m ports 0 false) := by
  apply steps_forM
  intro port _ d
  refine ⟨portSet_steps (touches_stepwise false) m port 0 (Set.mem_univ _) d, ?_⟩
  obtain ⟨b, -, hmaps⟩ := portSet_run m port 0 d
  intro n port' _ hz
  change (ok (BpfArrayMap.set m port 0 false) d).2.maps.portMap n port' = 0
  rw [hmaps, setPort_portMap]
  split
  · rfl
  · exact hz

/-- All the parts of the preparation after the counter is reset. -/
theorem prepare_prepares (cfg : Config) (plan : ReconcilePlan) (desired : DesiredState)
    (d : Daemon) :
    Prepares { d with lastApplyFailures := 0 } (prepare cfg plan false desired d).2 := by
  have hct : ∀ p, ∀ n : PortMap, n ≠ .sctp → MapId.port n ∉ ({.ct p} : Set MapId) := by simp
  have hprotect : ∀ n : PortMap, n ≠ .sctp →
      MapId.port n ∉ ({i | i ≠ .port .tcp ∧ i ≠ .port .udp} : Set MapId) := by
    intro n hn
    cases n <;> simp at hn ⊢
  revert d
  refine steps_seq (R := fun d e => e = { d with lastApplyFailures := 0 }) (S := Prepares) _ _
    (fun _ => rfl) ?_ fun _ _ _ he h => he ▸ h
  intro _
  apply steps_bind
  · apply steps_bind _ _ (closePorts_prepares .tcp _)
    intro _
    apply steps_bind _ _ (prepares_of_touches _ _ (hct .tcp) (deleteDestPorts_touches _ _ _ rfl))
    intro _
    apply steps_bind _ _ (prepares_of_touches _ _ (hct .tcp) (seedConntrack_touches _ _ rfl))
    intro _
    exact prepares_of_touches _ _ (hct .tcp) (removeStaleConntrack_touches _ _ rfl)
  intro _
  apply steps_bind
  · apply steps_bind _ _ (closePorts_prepares .udp _)
    intro _
    exact prepares_of_touches _ _ (hct .udp) (deleteDestPorts_touches _ _ _ rfl)
  intro _
  exact prepares_of_touches _ _ hprotect
    (protect_touches cfg plan false desired (by simp) (by simp) (by simp))

/-! The exposure opens exactly the ports whose write succeeds. -/

/-- Only writes of 1 into the port arrays, each with its effect. -/
def Exposes (d d' : Daemon) : Prop :=
  ∃ new, d'.log = new ++ d.log ∧ (∀ c ∈ new, c.op.protects = false) ∧
    ∀ m port, d'.maps.portMap m port =
      if ⟨.ok, .setPort m port 1, true⟩ ∈ new then 1 else d.maps.portMap m port

instance : IsPreorder Daemon Exposes where
  refl d := ⟨[], rfl, by simp, by simp⟩
  trans d e f := by
    rintro ⟨new, hlog, hkind, hmaps⟩ ⟨new', hlog', hkind', hmaps'⟩
    refine ⟨new' ++ new, ?_, ?_, ?_⟩
    · rw [hlog', hlog, List.append_assoc]
    · intro c hc
      rcases List.mem_append.mp hc with hc | hc
      · exact hkind' c hc
      · exact hkind c hc
    · intro m port
      rw [hmaps', hmaps]
      by_cases h : (⟨.ok, .setPort m port 1, true⟩ : BpfCall) ∈ new'
      · rw [if_pos h, if_pos (List.mem_append_left _ h)]
      · simp only [List.mem_append, h, false_or, if_false]

theorem openPorts_exposes (m : PortMap) (ports : List U32) :
    Steps Exposes (setPorts m ports 1 false) := by
  apply steps_forM
  intro port _ d
  obtain ⟨b, hlog, hmaps⟩ := portSet_run m port 1 d
  refine ⟨[⟨.ok, .setPort m port 1, b⟩], hlog, by simp [BpfOp.protects], ?_⟩
  intro n port'
  change (ok (BpfArrayMap.set m port 1 false) d).2.maps.portMap n port' = _
  rw [hmaps, setPort_portMap]
  apply if_congr _ rfl rfl
  rw [List.mem_singleton]
  constructor
  · rintro ⟨rfl, rfl, rfl⟩
    rfl
  · intro h
    injection h with _ hop hb
    injection hop with hn hport _
    exact ⟨hb.symm, hn, hport⟩

theorem expose_exposes (plan : ReconcilePlan) : Steps Exposes (expose plan false) :=
  steps_bind _ _ (openPorts_exposes .tcp _) fun _ => openPorts_exposes .udp _

/-! The property of one application. -/

theorem portMap_ne_sctp (p : Proto) : p.portMap ≠ .sctp := by cases p <;> exact nofun

/-- The counter after the preparation is zero exactly when no counted call failed. -/
theorem prepare_counter (cfg : Config) (plan : ReconcilePlan) (desired : DesiredState)
    (d : Daemon) :
    (prepare cfg plan false desired d).2.lastApplyFailures = 0 ↔
      ∀ c ∈ callsSince d (prepare cfg plan false desired d).2, c.caller = .ok → c.ok = true := by
  obtain ⟨new, hlog, -, hfail⟩ := (prepare_prepares cfg plan desired d).1.calls
  have hcalls : callsSince d (prepare cfg plan false desired d).2 = new := callsSince_eq hlog
  rw [hcalls, ← failures_eq_zero, hfail]
  exact Iff.of_eq (congrArg (· = 0) (Nat.zero_add _))

/-- A protection call that failed, though the counter is zero, is one that drops its
outcome. -/
theorem prepare_unseen (cfg : Config) (plan : ReconcilePlan) (desired : DesiredState) (d : Daemon)
    (c : BpfCall) (hc : c ∈ callsSince d (prepare cfg plan false desired d).2)
    (hprot : c.op.protects = true) (hbad : c.ok = false)
    (hall : ∀ c ∈ callsSince d (prepare cfg plan false desired d).2,
      c.caller = .ok → c.ok = true) :
    c.caller = .deleteDestPorts ∨ c.caller = .ensurePrefixes := by
  obtain ⟨new, hlog, hnew, -⟩ := (prepare_prepares cfg plan desired d).1.calls
  have hcalls : callsSince d (prepare cfg plan false desired d).2 = new := callsSince_eq hlog
  have hknown : c.Known := (hnew c (hcalls ▸ hc)).2
  rcases hknown hprot with hok | h
  · -- a counted call that failed
    have htrue := hall c hc hok
    rw [hbad] at htrue
    exact absurd htrue Bool.false_ne_true
  · exact h

/-- `apply_reconcile_plan` fails closed exactly when it does not open a port after a
failure that it did not count. -/
theorem fail_closed (cfg : Config) (plan : ReconcilePlan) (desired : DesiredState) (d : Daemon) :
    FailsClosed d (applyReconcilePlan cfg plan false desired d).2 ↔
      ¬OpensUnprotected cfg plan desired d := by
  set prepared := (prepare cfg plan false desired d).2 with hprepared
  obtain ⟨new, hcalls, -, -⟩ := (prepare_prepares cfg plan desired d).1.calls
  have hlog : prepared.log = new ++ d.log := hcalls
  have hkept : ∀ p port, d.maps.whitelist p port = 0 → prepared.maps.whitelist p port = 0 := by
    intro p port hz
    rw [whitelist_eq_portMap] at hz ⊢
    exact (prepare_prepares cfg plan desired d).2 p.portMap port (portMap_ne_sctp p) hz
  obtain ⟨new', hlog', hkind, hmaps⟩ := expose_exposes plan prepared
  have hsince : callsSince prepared (expose plan false prepared).2 = new' := callsSince_eq hlog'
  by_cases hzero : prepared.lastApplyFailures = 0
  · -- the exposure runs: what opened is what its calls say
    have hrun : (applyReconcilePlan cfg plan false desired d).2 = (expose plan false prepared).2 := by
      rw [applyReconcilePlan_run, if_pos hzero]
    have hall := (prepare_counter cfg plan desired d).mp hzero
    rw [hrun, FailsClosed, callsSince_trans hlog hlog', hsince]
    constructor
    · rintro hclosed ⟨⟨c, hc, hprot, -, hbad⟩, -, p, port, hz, hopen⟩
      have hstill := hclosed ⟨c, List.mem_append_right _ hc, hprot, hbad⟩ p port hz
      rw [whitelist_eq_portMap, hmaps, if_pos (hsince ▸ hopen)] at hstill
      exact absurd hstill (by decide)
    · rintro hnot ⟨c, hc, hprot, hbad⟩ p port hz
      rw [whitelist_eq_portMap, hmaps]
      rcases List.mem_append.mp hc with hc | hc
      · -- the exposure makes no protection call
        rw [hkind c hc] at hprot
        exact absurd hprot Bool.false_ne_true
      have hclosed : (⟨.ok, .setPort p.portMap port 1, true⟩ : BpfCall) ∉ new' := by
        intro hopen
        have hunseen := prepare_unseen cfg plan desired d c hc hprot hbad hall
        exact hnot ⟨⟨c, hc, hprot, hunseen, hbad⟩, hall, p, port, hz, hsince.symm ▸ hopen⟩
      rw [if_neg hclosed, ← whitelist_eq_portMap]
      exact hkept p port hz
  · -- a counted failure: nothing is exposed
    have hrun : (applyReconcilePlan cfg plan false desired d).2 = prepared := by
      rw [applyReconcilePlan_run, if_neg hzero]
    rw [hrun]
    constructor
    · intro _ hopens
      exact hzero ((prepare_counter cfg plan desired d).mpr hopens.counted)
    · intro _ _
      exact hkept

/-- Port 22 is open and has a policy with old prefixes. The write of the new ones is
the first call; it fails, and port 80 opens. -/
theorem opened_after_failed_prefix :
    ¬∀ (cfg : Config) (plan : ReconcilePlan) (desired : DesiredState) (d : Daemon),
      FailsClosed d (applyReconcilePlan cfg plan false desired d).2 := by
  intro h
  have h80 := h {} { tcpPortsToAdd := [80] }
    { tcpPorts := [22, 80], tcpSynRateLimits := (∅ : BpfMap U32 U32).insert 22 5 }
    { maps :=
        { tcpWhitelist := fun port => if port = 22 then 1 else 0
          tcpPortPolicies :=
            (∅ : BpfMap U32 (List U8)).insert 22 (packFields ![5, 0, 0, 24, 64, 0, 0, 0]) }
      fault := fun i => i == 0
      portCache := fun m => if m = .tcp then [22] else []
      policyCache := fun p =>
        if p = .tcp then (∅ : BpfMap U32 PolicyFields).insert 22 ![5, 0, 0, 24, 64, 0, 0, 0]
        else ∅ }
    ⟨⟨.ensurePrefixes, .updatePolicy .tcp 22 (packFields ![5, 0, 0, 32, 128, 0, 0, 0]), false⟩,
      by decide +kernel, rfl, rfl⟩
    .tcp 80 rfl
  exact absurd h80 (by decide +kernel)

end AutoXdp
