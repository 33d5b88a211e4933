import AutoXdp.CtFrames
import AutoXdp.GuardedRun
import Mathlib.Tactic.Basic

/-! How long a half-open connection may live: runs of inbound frames at XDP and
outbound frames at tc, one after the other, on a clock that never goes back. -/
namespace AutoXdp
open AtomicProg GuardedRun

/-- The maps and the clock, and every call the inbound frames made so far. -/
structure FlowRun where
  world : World
  log : List (DpCall CtRef) := []

def FlowRun.step (s : FlowRun) : Packet → FlowRun
  | .ingress f =>
    { world := (Prog.exec serial (xdpFw f) s.world).2
      log := Prog.trace serial (xdpFw f) s.world [] ++ s.log }
  | .egress f => { s with world := (Prog.exec serial (tcEgressTrack f) s.world).2 }

/-- A word written to the TCP conntrack, with its flow. -/
def ctWrite : DpCall CtRef → Option (FlowKey × U64)
  | ⟨.ctUpdate .tcp key v _, true⟩ => some (key, v)
  | _ => none

/-- A half-open word swapped for a clock reading: the flow, the word, the reading. -/
def promotion : DpCall CtRef → Option (FlowKey × U64 × U64)
  | ⟨.ctCas (.tcp, key) old now, found⟩ =>
    if found = old ∧ isPending old = true then some (key, old, now) else none
  | _ => none

/-- `allow_new_tcp_syn` admitted a `SYN` of this flow at this clock reading: it
wrote the half-open word of that time. -/
def SynAdmitted (log : List (DpCall CtRef)) (key : FlowKey) (t : U64) : Prop :=
  ∃ c ∈ log, ctWrite c = some (key, t ||| ctSynPending)

/-- An inbound `ACK` is admitted on a half-open entry (the swap that promotes it)
only within the timeout of an admitted `SYN` of its flow, and the time in every
half-open entry is that of an admitted `SYN`. -/
structure HalfOpenTtl (synTimeout : U64) (s : FlowRun) : Prop where
  promoted : ∀ later c earlier key raw now, s.log = later ++ c :: earlier →
    promotion c = some (key, raw, now) →
      ∃ t, SynAdmitted earlier key t ∧ t.toNat ≤ now.toNat ∧
        now.toNat ≤ t.toNat + synTimeout.toNat
  life : ∀ key raw, s.world.maps.tcpCt.lookup key = some raw → isPending raw = true →
    SynAdmitted s.log key (stamp raw)

/-- An outbound segment that is neither a `SYN` nor a `RST` finds a half-open entry
older than the refresh interval, but not than the TCP timeout. -/
def refreshesHalfOpen (w : World) (f : Frame) : Bool :=
  match transport f with
  | none => false
  | some (proto, key, l4) =>
    match w.maps.tcpCt.lookup key.reverse with
    | none => false
    | some raw =>
      let age := w.clock w.reads - stamp raw
      proto == ipprotoTcp && !isSynOnly (tcpFlags f l4) && !hasFlag (tcpFlags f l4) tcpFlagRst &&
        isPending raw && decide (age ≤ cfgTcpTimeoutNs w.maps.runtimeCfg) &&
        decide (age > cfgCtRefreshNs w.maps.runtimeCfg)

def LeavesHalfOpen (s : FlowRun) : Packet → Prop
  | .ingress _ => True
  | .egress f => refreshesHalfOpen s.world f = false

theorem synAdmitted_mono (log log' : List (DpCall CtRef)) (key : FlowKey) (t : U64)
    (h : SynAdmitted log key t) (hsub : ∀ c, c ∈ log → c ∈ log') : SynAdmitted log' key t := by
  obtain ⟨c, hm, hc⟩ := h
  exact ⟨c, hsub _ hm, hc⟩

/-- An `ACK` has flags that are not a lone `SYN`. -/
theorem not_synOnly_of_ack (flags : U8) (h : hasFlag flags tcpFlagAck = true) :
    isSynOnly flags = false := by
  rw [isSynOnly, h, Bool.not_true, Bool.and_false]

/-- The promotions of a log with one more call. -/
theorem promoted_cons (log : List (DpCall CtRef)) (d : DpCall CtRef) (synTimeout : U64)
    (hlog : ∀ later c earlier key raw now, log = later ++ c :: earlier →
      promotion c = some (key, raw, now) →
        ∃ t, SynAdmitted earlier key t ∧ t.toNat ≤ now.toNat ∧
          now.toNat ≤ t.toNat + synTimeout.toNat)
    (hd : ∀ key raw now, promotion d = some (key, raw, now) →
      ∃ t, SynAdmitted log key t ∧ t.toNat ≤ now.toNat ∧
        now.toNat ≤ t.toNat + synTimeout.toNat)
    (later : List (DpCall CtRef)) (c : DpCall CtRef) (earlier : List (DpCall CtRef))
    (key : FlowKey) (raw now : U64) (heq : d :: log = later ++ c :: earlier)
    (hc : promotion c = some (key, raw, now)) :
    ∃ t, SynAdmitted earlier key t ∧ t.toNat ≤ now.toNat ∧
      now.toNat ≤ t.toNat + synTimeout.toNat := by
  cases later with
  | nil =>
    obtain ⟨rfl, rfl⟩ := List.cons.inj heq
    exact hd key raw now hc
  | cons e later =>
    obtain ⟨-, htl⟩ := List.cons.inj heq
    exact hlog later c earlier key raw now htl hc

/-- What is fixed along a run: the clock, which does not go back and stays below
2^63, and the tunables. -/
structure RunClock (clock : ℕ → U64) (cfg : Option XdpRuntimeCfg) (w : World) : Prop where
  clock_eq : w.clock = clock
  cfg_eq : w.maps.runtimeCfg = cfg
  handlers : HandlersAddNoHalfOpen w
  mono : ∀ i j, i ≤ j → (clock i).toNat ≤ (clock j).toNat
  small : ∀ i, (clock i).toNat < 2^63

theorem runClock_serial (clock : ℕ → U64) (cfg : Option XdpRuntimeCfg) (o : DpOp CtRef) (w : World)
    (h : RunClock clock cfg w) : RunClock clock cfg (serial o w).2 where
  clock_eq := (serial_clock o w).trans h.clock_eq
  cfg_eq := (serial_runtimeCfg o w h.handlers).trans h.cfg_eq
  handlers := serial_handlersAddNoHalfOpen o w h.handlers
  mono := h.mono
  small := h.small

section Ingress

variable (clock : ℕ → U64) (cfg : Option XdpRuntimeCfg) (s : FlowRun) (f : Frame)

/-- What holds at every call of an inbound frame: `H` are its calls so far, `s` is
the run before it. -/
structure IngressInv (H : List (DpCall CtRef)) (w : World) : Prop where
  fixed : RunClock clock cfg w
  reads : s.world.reads ≤ w.reads
  times : ∀ now, ⟨.ktimeGetNs, now⟩ ∈ H → ∃ i, s.world.reads ≤ i ∧ i < w.reads ∧ clock i = now
  cfgs : ∀ c, ⟨.runtimeCfg, c⟩ ∈ H → c = cfg
  refs : ∀ m key p, ⟨.ctLookup m key, some p⟩ ∈ H → p = (m, key)
  ttl : HalfOpenTtl (cfgSynTimeoutNs cfg) ⟨w, H ++ s.log⟩
  stamps : ∀ key raw, w.maps.tcpCt.lookup key = some raw → isPending raw = true →
    ∃ i, i < w.reads ∧ clock i = stamp raw
  old : (∀ key l4, transport f = some (ipprotoTcp, key, l4) →
      isSynOnly (tcpFlags f l4) = false) →
    ∀ key raw, w.maps.tcpCt.lookup key = some raw → isPending raw = true →
      ∃ i, i < s.world.reads ∧ clock i = stamp raw

variable {H : List (DpCall CtRef)} {w : World} (hw : IngressInv clock cfg s f H w)

include hw

/-- The parts of the invariant that no call breaks. -/
theorem ingress_bookkeeping (o : DpOp CtRef) :
    RunClock clock cfg (serial o w).2 ∧ s.world.reads ≤ (serial o w).2.reads ∧
    (∀ now, ⟨.ktimeGetNs, now⟩ ∈ (⟨o, (serial o w).1⟩ : DpCall CtRef) :: H →
      ∃ i, s.world.reads ≤ i ∧ i < (serial o w).2.reads ∧ clock i = now) ∧
    (∀ c, ⟨.runtimeCfg, c⟩ ∈ (⟨o, (serial o w).1⟩ : DpCall CtRef) :: H → c = cfg) ∧
    ∀ m key p, ⟨.ctLookup m key, some p⟩ ∈ (⟨o, (serial o w).1⟩ : DpCall CtRef) :: H →
      p = (m, key) := by
  refine ⟨runClock_serial clock cfg o w hw.fixed, hw.reads.trans (serial_reads o w), ?_, ?_, ?_⟩
  · intro now hm
    rcases List.mem_cons.mp hm with heq | hm
    · obtain ⟨rfl, hr⟩ := Prog.Call.mk.inj heq
      exact ⟨w.reads, hw.reads, Nat.lt_succ_self _, by rw [← hw.fixed.clock_eq]; exact (eq_of_heq hr).symm⟩
    · obtain ⟨i, h₁, h₂, h₃⟩ := hw.times now hm
      exact ⟨i, h₁, h₂.trans_le (serial_reads o w), h₃⟩
  · intro c hm
    rcases List.mem_cons.mp hm with heq | hm
    · obtain ⟨rfl, hr⟩ := Prog.Call.mk.inj heq
      exact (eq_of_heq hr).trans hw.fixed.cfg_eq
    · exact hw.cfgs c hm
  · intro m key p hm
    rcases List.mem_cons.mp hm with heq | hm
    · obtain ⟨rfl, hr⟩ := Prog.Call.mk.inj heq
      have hr' := eq_of_heq hr
      simp only [serial] at hr'
      split_ifs at hr'
      exact (Option.some.inj hr')
    · exact hw.refs m key p hm

/-- A call after which no half-open entry is new. -/
theorem ingress_keep (o : DpOp CtRef)
    (hct : ∀ key raw, (serial o w).2.maps.tcpCt.lookup key = some raw → isPending raw = true →
      w.maps.tcpCt.lookup key = some raw)
    (hpromoted : ∀ key raw now, promotion ⟨o, (serial o w).1⟩ = some (key, raw, now) →
      ∃ t, SynAdmitted (H ++ s.log) key t ∧ t.toNat ≤ now.toNat ∧
        now.toNat ≤ t.toNat + (cfgSynTimeoutNs cfg).toNat) :
    IngressInv clock cfg s f (⟨o, (serial o w).1⟩ :: H) (serial o w).2 := by
  obtain ⟨hfixed, hreads, htimes, hcfgs, hrefs⟩ := ingress_bookkeeping clock cfg s f hw o
  exact
  { fixed := hfixed, reads := hreads, times := htimes, cfgs := hcfgs, refs := hrefs
    ttl :=
      { promoted := promoted_cons _ _ _ hw.ttl.promoted hpromoted
        life := fun key raw hl hp => synAdmitted_mono _ _ key _ (hw.ttl.life key raw (hct key raw hl hp) hp)
          fun c hc => List.mem_cons_of_mem _ hc }
    stamps := by
      intro key raw hl hp
      obtain ⟨i, hi, hs⟩ := hw.stamps key raw (hct key raw hl hp) hp
      exact ⟨i, hi.trans_le (serial_reads o w), hs⟩
    old := fun hsyn key raw hl hp => hw.old hsyn key raw (hct key raw hl hp) hp }

/-- A call that does not write the TCP conntrack. -/
theorem ingress_other (o : DpOp CtRef) (ho : ¬WritesTcp o) :
    IngressInv clock cfg s f (⟨o, (serial o w).1⟩ :: H) (serial o w).2 := by
  refine ingress_keep clock cfg s f hw o (fun key raw hl _ => ?_) (fun key raw now hc => ?_)
  · rwa [serial_tcpCt o w ho] at hl
  · cases o with
    | ctCas p old new =>
      obtain ⟨m, k⟩ := p
      cases m with
      | tcp => exact absurd rfl ho
      | udp => exact absurd hc nofun
      | sctp => exact absurd hc nofun
    | _ => exact absurd hc nofun

/-- A tail call. -/
theorem ingress_tailCall (t : ProgArray) (idx : U32) :
    IngressInv clock cfg s f (⟨.tailCall t idx, (serial (.tailCall t idx) w).1⟩ :: H)
      (serial (.tailCall t idx) w).2 :=
  ingress_keep clock cfg s f hw _
    (fun key raw hl hp => serial_tailCall_halfOpen w hw.fixed.handlers t idx key raw hl hp)
    (fun _ _ _ hc => absurd hc nofun)

/-- The write of an established word. -/
theorem ingress_established (key : FlowKey) (v : U64) (flag : UpdateFlag)
    (hv : isPending v = false) :
    IngressInv clock cfg s f (⟨.ctUpdate .tcp key v flag, (serial (.ctUpdate .tcp key v flag) w).1⟩ :: H)
      (serial (.ctUpdate .tcp key v flag) w).2 := by
  refine ingress_keep clock cfg s f hw _ (fun key' raw hl hp => ?_)
    (fun key' raw now hc => absurd hc nofun)
  have hl' : (mapUpdate w.maps.tcpCt key v flag).2.lookup key' = some raw := hl
  rcases mapUpdate_cases w.maps.tcpCt key v flag with hm | hm
  · rw [hm] at hl'
    rcases lookup_insert_cases _ _ _ _ _ hl' with ⟨-, rfl⟩ | hold
    · rw [hv] at hp
      exact absurd hp nofun
    · exact hold
  · rwa [hm] at hl'

/-- The write of a half-open word, which only a `SYN` makes. -/
theorem ingress_halfOpen (key : FlowKey) (now : U64) (flag : UpdateFlag)
    (hnow : ⟨.ktimeGetNs, now⟩ ∈ H)
    (hsyn : ∃ key l4, transport f = some (ipprotoTcp, key, l4) ∧
      isSynOnly (tcpFlags f l4) = true) :
    IngressInv clock cfg s f
      (⟨.ctUpdate .tcp key (now ||| ctSynPending) flag,
        (serial (.ctUpdate .tcp key (now ||| ctSynPending) flag) w).1⟩ :: H)
      (serial (.ctUpdate .tcp key (now ||| ctSynPending) flag) w).2 := by
  rcases mapUpdate_cases w.maps.tcpCt key (now ||| ctSynPending) flag with hm | hm
  · obtain ⟨hfixed, hreads, htimes, hcfgs, hrefs⟩ :=
      ingress_bookkeeping clock cfg s f hw (.ctUpdate .tcp key (now ||| ctSynPending) flag)
    obtain ⟨i, hi, hir, hclock⟩ := hw.times now hnow
    have hstamp : stamp (now ||| ctSynPending) = now :=
      stamp_halfOpen now (by rw [← hclock]; exact hw.fixed.small i)
    have hentry : ∀ key' raw,
        (serial (.ctUpdate .tcp key (now ||| ctSynPending) flag) w).2.maps.tcpCt.lookup key' =
          some raw → (key' = key ∧ raw = now ||| ctSynPending) ∨
            w.maps.tcpCt.lookup key' = some raw := by
      intro key' raw hl
      have hl' : (mapUpdate w.maps.tcpCt key (now ||| ctSynPending) flag).2.lookup key' =
          some raw := hl
      rw [hm] at hl'
      exact lookup_insert_cases _ _ _ _ _ hl'
    have hres : (serial (.ctUpdate .tcp key (now ||| ctSynPending) flag) w).1 = true :=
      congrArg Prod.fst hm
    exact
    { fixed := hfixed, reads := hreads, times := htimes, cfgs := hcfgs, refs := hrefs
      ttl :=
        { promoted := promoted_cons _ _ _ hw.ttl.promoted
            fun key' raw now' hc => absurd hc nofun
          life := by
            intro key' raw hl hp
            rcases hentry key' raw hl with ⟨rfl, rfl⟩ | hold
            · refine ⟨_, List.mem_cons_self .., ?_⟩
              rw [hstamp, hres]
              rfl
            · exact synAdmitted_mono _ _ key' _ (hw.ttl.life key' raw hold hp)
                fun c hc => List.mem_cons_of_mem _ hc }
      stamps := by
        intro key' raw hl hp
        rcases hentry key' raw hl with ⟨rfl, rfl⟩ | hold
        · exact ⟨i, hir, hclock.trans hstamp.symm⟩
        · exact hw.stamps key' raw hold hp
      old := by
        intro hnosyn
        obtain ⟨key', l4, hf, hs⟩ := hsyn
        rw [hnosyn key' l4 hf] at hs
        exact absurd hs nofun }
  · refine ingress_keep clock cfg s f hw _ (fun key' raw hl _ => ?_)
      (fun key' raw now' hc => absurd hc nofun)
    have hl' : (mapUpdate w.maps.tcpCt key (now ||| ctSynPending) flag).2.lookup key' =
        some raw := hl
    rwa [hm] at hl'

/-- The swap of an `ACK`: the word it read is young, and was written by a `SYN`
before this frame. -/
theorem ingress_swap (key : FlowKey) (l4 : ℕ) (old now : U64)
    (hf : transport f = some (ipprotoTcp, key, l4))
    (hack : hasFlag (tcpFlags f l4) tcpFlagAck = true) (hu : inUse H = some (now, cfg))
    (hage : ¬Aged old (inUse H)) :
    IngressInv clock cfg s f
      (⟨.ctCas (.tcp, key) old now, (serial (.ctCas (.tcp, key) old now) w).1⟩ :: H)
      (serial (.ctCas (.tcp, key) old now) w).2 := by
  obtain ⟨j, hj, hjr, hjc⟩ := hw.times now (inUse_mem H now cfg hu).1
  have hnow : isPending now = false :=
    isPending_of_lt now (by rw [← hjc]; exact hw.fixed.small j)
  refine ingress_keep clock cfg s f hw _ (fun key' raw hl hp => ?_)
    (fun key' raw now' hc => ?_)
  · simp only [serial] at hl
    split_ifs at hl
    · rcases lookup_insert_cases _ _ _ _ _ hl with ⟨-, rfl⟩ | hold
      · rw [hnow] at hp
        exact absurd hp (by rintro ⟨⟩)
      · exact hold
    · exact hl
  · simp only [promotion] at hc
    split_ifs at hc with hword
    obtain ⟨hword, hp⟩ := hword
    obtain ⟨rfl, rfl, rfl⟩ : key = key' ∧ old = raw ∧ now = now' := by simpa using hc
    change ((w.maps.tcpCt).lookup key).getD 0 = old at hword
    have hl : w.maps.tcpCt.lookup key = some old := by
      cases hk : w.maps.tcpCt.lookup key with
      | none =>
        rw [hk] at hword
        subst hword
        exact absurd hp (by decide)
      | some v => rw [hk] at hword; exact congrArg some hword
    have hnosyn : ∀ key l4, transport f = some (ipprotoTcp, key, l4) →
        isSynOnly (tcpFlags f l4) = false := by
      intro key' l4' hf'
      obtain ⟨-, -, rfl⟩ : ipprotoTcp = ipprotoTcp ∧ key = key' ∧ l4 = l4' := by
        simpa using hf.symm.trans hf'
      exact not_synOnly_of_ack _ hack
    obtain ⟨i, hi, hic⟩ := hw.old hnosyn key old hl hp
    have hle : (stamp old).toNat ≤ now.toNat := by
      rw [← hic, ← hjc]
      exact hw.fixed.mono i j (by omega)
    refine ⟨stamp old, hw.ttl.life key old hl hp, hle, ?_⟩
    have hyoung : now - stamp old ≤ cfgCtTimeoutNs old cfg := by
      by_contra h
      exact hage ⟨now, cfg, hu, BitVec.not_le.mp h⟩
    rw [cfgCtTimeoutNs, hp, if_pos rfl, BitVec.le_def, BitVec.toNat_sub_of_le hle] at hyoung
    omega

/-- Every call of an inbound frame keeps the invariant. -/
theorem ingress_call (o : DpOp CtRef) (next : o.Res → DpProg CtRef XdpAction)
    (hnode : XdpFrameNode f H o next) :
    IngressInv clock cfg s f (⟨o, (serial o w).1⟩ :: H) (serial o w).2 := by
  rcases hnode with hcalm | ⟨key, l4, ⟨hf, hnode⟩ | ⟨hf, hnode⟩⟩
  · cases o with
    | tailCall t idx => exact ingress_tailCall clock cfg s f hw t idx
    | ctCas => exact hcalm.elim
    | ctUpdate => exact hcalm.elim
    | ctDelete => exact hcalm.elim
    | _ => exact ingress_other clock cfg s f hw _ id
  · cases o with
    | ctUpdate m k v flag =>
      obtain ⟨rfl, rfl, now, cfg', hu, ⟨rfl, hsyn, rfl⟩ | ⟨rfl, p, raw, -, hsyn, rfl⟩⟩ := hnode
      · exact ingress_halfOpen clock cfg s f hw k now _ (inUse_mem H now cfg' hu).1 ⟨k, l4, hf, hsyn⟩
      · by_cases hp : isPending raw = true
        · rw [if_pos hp]
          exact ingress_halfOpen clock cfg s f hw k now _ (inUse_mem H now cfg' hu).1
            ⟨k, l4, hf, hsyn hp⟩
        · rw [if_neg hp]
          obtain ⟨j, hj, hjr, hjc⟩ := hw.times now (inUse_mem H now cfg' hu).1
          refine ingress_established clock cfg s f hw k now _ (isPending_of_lt now ?_)
          rw [← hjc]
          exact hw.fixed.small j
    | ctDelete m k =>
      obtain ⟨rfl, rfl, -⟩ := hnode
      refine ingress_keep clock cfg s f hw _ (fun key' raw hl _ => ?_)
        (fun key' raw now hc => absurd hc nofun)
      exact lookup_of_erase _ _ _ _ hl
    | ctCas p old new =>
      obtain ⟨hack, hpend, ⟨H', hH, -⟩, cfg', hu, hage, -⟩ := hnode
      have hp : p = (.tcp, key) := hw.refs .tcp key p (by rw [hH]; simp)
      have hcfg : cfg' = cfg := hw.cfgs cfg' (inUse_mem H new cfg' hu).2
      subst hp hcfg
      exact ingress_swap clock cfg' s f hw key l4 old new hf hack hu hage
    | tailCall t idx => exact ingress_tailCall clock cfg s f hw t idx
    | _ => exact ingress_other clock cfg s f hw _ id
  · cases o with
    | tailCall t idx => exact ingress_tailCall clock cfg s f hw t idx
    | ctUpdate m k v flag =>
      exact ingress_other clock cfg s f hw _ fun h => absurd (h.symm.trans hnode.1) nofun
    | ctDelete m k =>
      exact ingress_other clock cfg s f hw _ fun h => absurd (h.symm.trans hnode.1) nofun
    | ctCas p old new => exact hnode.elim
    | _ => exact ingress_other clock cfg s f hw _ id

end Ingress

/-! Whole runs. -/

/-- What every packet keeps. -/
structure TtlInv (clock : ℕ → U64) (cfg : Option XdpRuntimeCfg) (s : FlowRun) : Prop where
  fixed : RunClock clock cfg s.world
  ttl : HalfOpenTtl (cfgSynTimeoutNs cfg) s
  stamps : ∀ key raw, s.world.maps.tcpCt.lookup key = some raw → isPending raw = true →
    ∃ i, i < s.world.reads ∧ clock i = stamp raw

section Run

variable (clock : ℕ → U64) (cfg : Option XdpRuntimeCfg) (s : FlowRun) (hs : TtlInv clock cfg s)

include hs

theorem ttlInv_ingress (f : Frame) : TtlInv clock cfg (s.step (.ingress f)) := by
  have hstart : IngressInv clock cfg s f [] s.world :=
    { fixed := hs.fixed
      reads := Nat.le_refl _
      times := fun now hm => absurd hm List.not_mem_nil
      cfgs := fun c hm => absurd hm List.not_mem_nil
      refs := fun m key p hm => absurd hm List.not_mem_nil
      ttl := hs.ttl
      stamps := hs.stamps
      old := fun _ => hs.stamps }
  have hend := Prog.trace_always serial (fun H _ w => IngressInv clock cfg s f H w)
    (fun H o next w hnode hw => ingress_call clock cfg s f hw o next hnode)
    (xdpFw f) [] s.world (xdpFw_nodes f) hstart
  exact ⟨hend.fixed, hend.ttl, hend.stamps⟩

/-- A step of tc that writes no new half-open entry. -/
theorem ttlInv_tc (w : World) (hfixed : RunClock clock cfg w) (hreads : s.world.reads ≤ w.reads)
    (hct : ∀ key raw, w.maps.tcpCt.lookup key = some raw → isPending raw = true →
      s.world.maps.tcpCt.lookup key = some raw) : TtlInv clock cfg { s with world := w } where
  fixed := hfixed
  ttl := ⟨hs.ttl.promoted, fun key raw hl hp => hs.ttl.life key raw (hct key raw hl hp) hp⟩
  stamps := by
    intro key raw hl hp
    obtain ⟨i, hi, hc⟩ := hs.stamps key raw (hct key raw hl hp) hp
    exact ⟨i, hi.trans_le hreads, hc⟩

/-- An outbound segment writes half-open words only when it refreshes one. -/
theorem tcTcpCt_halfOpen (f : Frame) (key : FlowKey) (l4 : ℕ)
    (hf : transport f = some (ipprotoTcp, key, l4)) (hok : refreshesHalfOpen s.world f = false)
    (key' : FlowKey) (raw : U64)
    (hl : (tcTcpCt key.reverse (tcpFlags f l4) (s.world.clock s.world.reads)
      s.world.maps.runtimeCfg s.world.maps.tcpCt).lookup key' = some raw)
    (hp : isPending raw = true) : s.world.maps.tcpCt.lookup key' = some raw := by
  have hnow : isPending (s.world.clock s.world.reads) = false :=
    isPending_of_lt _ (by rw [hs.fixed.clock_eq]; exact hs.fixed.small _)
  simp only [tcTcpCt] at hl
  split_ifs at hl with hsyn
  · rcases lookup_insert_cases _ _ _ _ _ hl with ⟨-, rfl⟩ | hold
    · exact absurd (hnow.symm.trans hp) (by rintro ⟨⟩)
    · exact hold
  · split at hl
    · exact hl
    · rename_i raw₀ hl₀
      split_ifs at hl with hgone hrefresh
      · exact lookup_of_erase _ _ _ _ hl
      · rcases lookup_insert_cases _ _ _ _ _ hl with ⟨-, rfl⟩ | hold
        · rw [not_or, Bool.not_eq_true] at hgone
          rw [Bool.not_eq_true] at hsyn
          have hp₀ : isPending raw₀ = true := by
            rw [isPending_eq] at hnow hp ⊢
            rw [BitVec.getLsbD_or, BitVec.getLsbD_and, hnow, Bool.or_false, Bool.and_eq_true] at hp
            exact hp.1
          have hage : s.world.clock s.world.reads - stamp raw₀ ≤
              cfgTcpTimeoutNs s.world.maps.runtimeCfg := BitVec.not_lt.mp hgone.2
          simp only [refreshesHalfOpen, hf, hl₀, beq_self_eq_true, hsyn, hgone.1, hp₀, hage, hrefresh,
            Bool.not_false, decide_true, Bool.and_self, reduceCtorEq] at hok
        · exact hold
      · exact hl

theorem ttlInv_egress (f : Frame) (hok : refreshesHalfOpen s.world f = false) :
    TtlInv clock cfg (s.step (.egress f)) := by
  have hclock (w : World) (hw : w.clock = s.world.clock) (hh : w.handlers = s.world.handlers)
      (hc : w.maps.runtimeCfg = s.world.maps.runtimeCfg) : RunClock clock cfg w :=
    { clock_eq := hw.trans hs.fixed.clock_eq
      cfg_eq := hc.trans hs.fixed.cfg_eq
      handlers := by rw [HandlersAddNoHalfOpen, hh]; exact hs.fixed.handlers
      mono := hs.fixed.mono
      small := hs.fixed.small }
  simp only [FlowRun.step]
  rcases exec_tcEgressTrack f s.world with heq | ⟨key, l4, hf, heq⟩ | ⟨m, key, hm, heq⟩
  · rw [heq]
    exact hs
  · rw [heq, exec_tcTcp]
    refine ttlInv_tc clock cfg s hs _ (hclock _ rfl rfl (setCt_runtimeCfg _ _ _)) (Nat.le_succ _)
      (fun key' raw hl hp => ?_)
    exact tcTcpCt_halfOpen clock cfg s hs f key l4 hf hok key' raw hl hp
  · rw [heq, exec_tcTouch]
    refine ttlInv_tc clock cfg s hs _ (hclock _ rfl rfl (setCt_runtimeCfg _ _ _)) (Nat.le_succ _)
      (fun key' raw hl _ => ?_)
    rwa [setCt_tcpCt _ _ _ hm] at hl

end Run

/-- In every run in which tc refreshes no half-open entry, an inbound `ACK` is
admitted on a half-open entry at most the SYN timeout after an admitted inbound
`SYN`, and no half-open entry carries a later time than that of such a `SYN`. -/
theorem half_open_ttl (w : World) (packets : List Packet)
    (hmono : ∀ i j, i ≤ j → (w.clock i).toNat ≤ (w.clock j).toNat)
    (hsmall : ∀ i, (w.clock i).toNat < 2^63) (hhandlers : HandlersAddNoHalfOpen w)
    (hnone : ∀ key raw, w.maps.tcpCt.lookup key = some raw → isPending raw = false)
    (hok : Guarded FlowRun.step LeavesHalfOpen ⟨w, []⟩ packets) :
    HalfOpenTtl (cfgSynTimeoutNs w.maps.runtimeCfg) (packets.foldl FlowRun.step ⟨w, []⟩) := by
  have hstart : TtlInv w.clock w.maps.runtimeCfg ⟨w, []⟩ :=
    { fixed := ⟨rfl, rfl, hhandlers, hmono, hsmall⟩
      ttl :=
        { promoted := fun later c earlier key raw now heq => absurd heq.symm (by simp)
          life := fun key raw hl hp => absurd ((hnone key raw hl).symm.trans hp) nofun }
      stamps := fun key raw hl hp => absurd ((hnone key raw hl).symm.trans hp) nofun }
  have hrun := invariant_run FlowRun.step LeavesHalfOpen (TtlInv w.clock w.maps.runtimeCfg)
    (fun s p hs hp => by
      cases p with
      | ingress f => exact ttlInv_ingress _ _ s hs f
      | egress f => exact ttlInv_egress _ _ s hs f hp)
    ⟨w, []⟩ packets hstart hok
  exact hrun.ttl

/-- A host that accepts TCP on every port. -/
def openHost (seconds : List ℕ) : World where
  maps := { tcpWhitelist := fun _ => 1 }
  clock := clockOf seconds

/-- A `SYN`, the answer of the host and the `ACK` of one client. -/
def handshake : List Packet :=
  [.ingress (ipv4Segment 40000 80 0x08080808 0x01020304 0x02),
    .egress (ipv4Segment 80 40000 0x01020304 0x08080808 0x12),
    .ingress (ipv4Segment 40000 80 0x08080808 0x01020304 0x10)]

/-- The answer leaves at once, the `ACK` arrives a second later. -/
theorem half_open_ttl_handshake :
    HalfOpenTtl (cfgSynTimeoutNs (openHost [1, 1, 1, 1, 2]).maps.runtimeCfg)
      (handshake.foldl FlowRun.step ⟨openHost [1, 1, 1, 1, 2], []⟩) := by
  have hclock : ∀ i, ((openHost [1, 1, 1, 1, 2]).clock i).toNat =
      if i < 4 then 1000000000 else 2000000000 := by
    intro i
    rcases i with _ | _ | _ | _ | _ | i <;> simp [openHost, clockOf]
  refine half_open_ttl _ handshake ?_ ?_ ?_ ?_ ⟨trivial, ?_, trivial, trivial⟩
  · intro i j hij
    rw [hclock, hclock]
    split_ifs <;> omega
  · intro i
    rw [hclock]
    split_ifs <;> omega
  · intro t idx h m hh
    exact absurd hh nofun
  · intro key raw hl
    exact absurd hl nofun
  · change refreshesHalfOpen _ _ = false
    decide +kernel

/-- The answer leaves 31 s after the `SYN` and refreshes the half-open entry; the
`ACK` that arrives 59 s after the only `SYN` is admitted. -/
theorem half_open_refreshed_by_answer :
    ¬HalfOpenTtl (cfgSynTimeoutNs (openHost [1, 1, 1, 32, 60]).maps.runtimeCfg)
      (handshake.foldl FlowRun.step ⟨openHost [1, 1, 1, 32, 60], []⟩) := by
  intro h
  have hack : ∃ c ∈ (handshake.foldl FlowRun.step ⟨openHost [1, 1, 1, 32, 60], []⟩).log,
      promotion c = some (.v4 40000 80 0x08080808 0x01020304,
        32000000000 ||| ctSynPending, 60000000000) := by
    decide +kernel
  have hwrites : (handshake.foldl FlowRun.step ⟨openHost [1, 1, 1, 32, 60], []⟩).log.filterMap
      ctWrite = [(.v4 40000 80 0x08080808 0x01020304, 1000000000 ||| ctSynPending)] := by
    decide +kernel
  have htimeout : (cfgSynTimeoutNs (openHost [1, 1, 1, 32, 60]).maps.runtimeCfg).toNat =
      30000000000 := by
    decide +kernel
  obtain ⟨c, hm, hc⟩ := hack
  obtain ⟨later, earlier, hlog⟩ := List.append_of_mem hm
  obtain ⟨t, ⟨d, hd, hw⟩, hle, hage⟩ := h.promoted later c earlier _ _ _ hlog hc
  have hword : (FlowKey.v4 40000 80 0x08080808 0x01020304, t ||| ctSynPending) ∈
      (handshake.foldl FlowRun.step ⟨openHost [1, 1, 1, 32, 60], []⟩).log.filterMap ctWrite :=
    List.mem_filterMap.mpr ⟨d, by rw [hlog]; simp [hd], hw⟩
  rw [hwrites, List.mem_singleton] at hword
  have htime : t = 1000000000 := by
    have hsmall : t.toNat < 2^63 := hle.trans_lt (by decide)
    rw [← stamp_halfOpen t hsmall, (Prod.mk.inj hword).2]
    rfl
  subst htime
  rw [htimeout] at hage
  exact absurd hage (by decide)

end AutoXdp
