import AutoXdp.TcFlowTrack
import AutoXdp.XdpFirewall
import Mathlib.Tactic.Basic

/-! What the datapath programs may do with a conntrack entry, call by call, as a
condition on the calls the run made before. -/
namespace AutoXdp
open AtomicProg

variable {P : Type}

abbrev DpCall (P : Type) := Prog.Call (dpInterface P)

def cfgRead : DpCall P → Option (Option XdpRuntimeCfg)
  | ⟨.runtimeCfg, cfg⟩ => some cfg
  | _ => none

def clockRead : DpCall P → Option U64
  | ⟨.ktimeGetNs, now⟩ => some now
  | _ => none

/-- The clock reading and the tunables a run works with: the newest reading that
was followed at once by a read of the tunables. -/
def inUse : List (DpCall P) → Option (U64 × Option XdpRuntimeCfg)
  | c :: d :: H =>
    match cfgRead c, clockRead d with
    | some cfg, some now => some (now, cfg)
    | _, _ => inUse (d :: H)
  | _ => none

theorem inUse_cons (c : DpCall P) (H : List (DpCall P)) (hc : cfgRead c = none) :
    inUse (c :: H) = inUse H := by
  cases H with
  | nil => rfl
  | cons d H => simp only [inUse, hc]

theorem inUse_cfg (c d : DpCall P) (H : List (DpCall P)) (hd : clockRead d = none) :
    inUse (c :: d :: H) = inUse (d :: H) := by
  cases hc : cfgRead c <;> simp only [inUse, hc, hd]

theorem cfgRead_eq (c : DpCall P) (cfg : Option XdpRuntimeCfg) (h : cfgRead c = some cfg) :
    c = ⟨.runtimeCfg, cfg⟩ := by
  obtain ⟨o, r⟩ := c
  cases o <;> simp only [cfgRead, reduceCtorEq, Option.some.injEq] at h
  rw [h]

theorem clockRead_eq (c : DpCall P) (now : U64) (h : clockRead c = some now) :
    c = ⟨.ktimeGetNs, now⟩ := by
  obtain ⟨o, r⟩ := c
  cases o <;> simp only [clockRead, reduceCtorEq, Option.some.injEq] at h
  rw [h]

/-- The reading in use was read. -/
theorem inUse_mem (H : List (DpCall P)) (now : U64) (cfg : Option XdpRuntimeCfg)
    (h : inUse H = some (now, cfg)) : ⟨.ktimeGetNs, now⟩ ∈ H ∧ ⟨.runtimeCfg, cfg⟩ ∈ H := by
  induction H with
  | nil => simp only [inUse, reduceCtorEq] at h
  | cons c H ih =>
    cases H with
    | nil => simp only [inUse, reduceCtorEq] at h
    | cons d H =>
      simp only [inUse] at h
      split at h
      · rename_i cfg' now' hc hd
        obtain ⟨rfl, rfl⟩ := Prod.mk.inj (Option.some.inj h)
        rw [cfgRead_eq c _ hc, clockRead_eq d _ hd]
        simp only [List.mem_cons, true_or, or_true, and_self]
      · exact ⟨List.mem_cons_of_mem _ (ih h).1, List.mem_cons_of_mem _ (ih h).2⟩

/-- The word is older than the clock reading in use allows. -/
def Aged (raw : U64) (u : Option (U64 × Option XdpRuntimeCfg)) : Prop :=
  ∃ now cfg, u = some (now, cfg) ∧ now - stamp raw > cfgCtTimeoutNs raw cfg

def wordRead : DpCall P → Option U64
  | ⟨.ctLoad _, raw⟩ => some raw
  | _ => none

theorem wordRead_eq (c : DpCall P) (raw : U64) (h : wordRead c = some raw) :
    ∃ p, c = ⟨.ctLoad p, raw⟩ := by
  obtain ⟨o, r⟩ := c
  cases o <;> simp only [wordRead, reduceCtorEq, Option.some.injEq] at h
  exact ⟨_, by rw [h]⟩

/-- The conntrack words a run read, each with what was in use then. -/
def wordsRead : List (DpCall P) → List (U64 × Option (U64 × Option XdpRuntimeCfg))
  | [] => []
  | c :: H =>
    match wordRead c with
    | some raw => (raw, inUse H) :: wordsRead H
    | none => wordsRead H

theorem wordsRead_cons (c : DpCall P) (H : List (DpCall P)) (hc : wordRead c = none) :
    wordsRead (c :: H) = wordsRead H := by
  simp only [wordsRead, hc]

/-- No conntrack word was read yet. -/
def Unread (H : List (DpCall P)) : Prop := wordsRead H = []

theorem unread_cons (H : List (DpCall P)) (o : DpOp P) (r : o.Res) (hH : Unread H)
    (ho : wordRead (⟨o, r⟩ : DpCall P) = none) : Unread (⟨o, r⟩ :: H) :=
  (wordsRead_cons _ H ho).trans hH

/-- The run looked the flow up, and `raw` is the one word it read. -/
def JustRead (key : FlowKey) (H : List (DpCall P)) (p : P) (raw : U64) : Prop :=
  ∃ H', H = ⟨.ctLoad p, raw⟩ :: ⟨.ctLookup .tcp key, some p⟩ :: H' ∧ Unread H'

theorem justRead_words (key : FlowKey) (H : List (DpCall P)) (p : P) (raw : U64)
    (h : JustRead key H p raw) : wordsRead H = [(raw, inUse H)] := by
  obtain ⟨H', rfl, hH⟩ := h
  have hwords : wordsRead ((⟨.ctLoad p, raw⟩ : DpCall P) :: ⟨.ctLookup .tcp key, some p⟩ :: H') =
      (raw, inUse ((⟨.ctLookup .tcp key, some p⟩ : DpCall P) :: H')) ::
        wordsRead ((⟨.ctLookup .tcp key, some p⟩ : DpCall P) :: H') := rfl
  rw [hwords, wordsRead_cons _ H' rfl, hH, inUse_cons ⟨.ctLoad p, raw⟩ _ rfl]

/-- Why the code removes an entry. -/
def Removes (flags : U8) (raw : U64) (H : List (DpCall P)) : Prop :=
  Aged raw (inUse H) ∨ hasFlag flags tcpFlagRst = true ∨ hasFlag flags tcpFlagFin = true

/-- A call that neither touches a conntrack entry nor reports one as missing, and
does not read the tunables. -/
def Quiet : DpOp P → Prop
  | .runtimeCfg | .ctLookup _ _ | .ctLoad _ | .ctCas _ _ _ | .ctUpdate _ _ _ _ | .ctDelete _ _
  | .recordEstablished _ _ _ _ | .recordClose _ _ _ => False
  | .count c => c ≠ .tcpCtMiss ∧ c ≠ .udpDrop
  | _ => True

/-- The calls a segment with this tuple and these flags may make at XDP. -/
def XdpTcpNode (key : FlowKey) (flags : U8) (H : List (DpCall P)) :
    (o : DpOp P) → (o.Res → DpProg P XdpAction) → Prop
  | .ctLookup m k, _ => m = .tcp ∧ k = key
  | .ctLoad p, _ => ∃ H', H = ⟨.ctLookup .tcp key, some p⟩ :: H' ∧ Unread H'
  | .ctDelete m k, next => m = .tcp ∧ k = key ∧ ∃ p raw, JustRead key H p raw ∧
    Removes flags raw H ∧ (isPending raw = false → ∀ r, ∃ now,
      (next r).next? = some (.recordClose key now key.destPort))
  | .recordClose k _ destPort, _ => k = key ∧ destPort = key.destPort ∧
    ∃ p raw b H', H = ⟨.ctDelete .tcp key, b⟩ :: H' ∧ JustRead key H' p raw ∧
      Removes flags raw H' ∧ isPending raw = false
  | .ctCas p old new, next => hasFlag flags tcpFlagAck = true ∧ isPending old = true ∧
    JustRead key H p old ∧ ∃ cfg, inUse H = some (new, cfg) ∧ ¬Aged old (inUse H) ∧
      (next old).next? = some (.recordEstablished key new key.destPort cfg)
  | .recordEstablished k now destPort _, _ => k = key ∧ destPort = key.destPort ∧
    ∃ p old H', H = ⟨.ctCas p old now, old⟩ :: H' ∧ JustRead key H' p old ∧ isPending old = true
  | .ctUpdate m k v flag, _ => m = .tcp ∧ k = key ∧ ∃ now cfg, inUse H = some (now, cfg) ∧
    ((flag = .any ∧ isSynOnly flags = true ∧ v = now ||| ctSynPending) ∨
      (flag = .exist ∧ ∃ p raw, JustRead key H p raw ∧
        (isPending raw = true → isSynOnly flags = true) ∧
        v = if isPending raw then now ||| ctSynPending else now))
  | .count c, _ => c = .tcpCtMiss →
    (hasFlag flags tcpFlagRst = true ∨ hasFlag flags tcpFlagAck = true) ∧
      ∀ x ∈ wordsRead H, Aged x.1 x.2
  | _, _ => True

theorem quiet_xdpTcpNode (key : FlowKey) (flags : U8) (H : List (DpCall P)) (o : DpOp P)
    (k : o.Res → DpProg P XdpAction) (ho : Quiet o) : XdpTcpNode key flags H o k := by
  cases o with
  | count c => exact fun hc => absurd hc ho.1
  | ctLookup => exact ho.elim
  | ctLoad => exact ho.elim
  | ctCas => exact ho.elim
  | ctUpdate => exact ho.elim
  | ctDelete => exact ho.elim
  | recordEstablished => exact ho.elim
  | recordClose => exact ho.elim
  | _ => trivial

theorem quiet_cfgRead (o : DpOp P) (r : o.Res) (ho : Quiet o) : cfgRead (⟨o, r⟩ : DpCall P) = none := by
  cases o with
  | runtimeCfg => exact ho.elim
  | _ => rfl

theorem quiet_wordRead (o : DpOp P) (r : o.Res) (ho : Quiet o) :
    wordRead (⟨o, r⟩ : DpCall P) = none := by
  cases o with
  | ctLoad => exact ho.elim
  | _ => rfl

/-- `H'` is `H` and calls that change neither what is in use nor what was read. -/
structure Follows (H H' : List (DpCall P)) : Prop where
  inUse : inUse H' = inUse H
  words : wordsRead H' = wordsRead H

theorem follows_refl (H : List (DpCall P)) : Follows H H := ⟨rfl, rfl⟩

theorem follows_cons (H H' : List (DpCall P)) (o : DpOp P) (r : o.Res) (h : Follows H H')
    (hcfg : cfgRead (⟨o, r⟩ : DpCall P) = none) (hword : wordRead (⟨o, r⟩ : DpCall P) = none) :
    Follows H (⟨o, r⟩ :: H') where
  inUse := (inUse_cons _ _ hcfg).trans h.inUse
  words := (wordsRead_cons _ _ hword).trans h.words

theorem follows_quiet (H H' : List (DpCall P)) (o : DpOp P) (r : o.Res) (ho : Quiet o)
    (h : Follows H H') : Follows H (⟨o, r⟩ :: H') :=
  follows_cons H H' o r h (quiet_cfgRead o r ho) (quiet_wordRead o r ho)

section Xdp

variable (key : FlowKey) (flags : U8)

/-- A quiet part of a program, and what follows it. -/
theorem quiet_bind {β : Type} (p : DpProg P β) (f : β → DpProg P XdpAction)
    (H : List (DpCall P)) (hp : Prog.Only Quiet p)
    (hf : ∀ b H', Follows H H' → Prog.Always Prog.push (XdpTcpNode key flags) H' (f b)) :
    Prog.Always Prog.push (XdpTcpNode key flags) H (p >>= f) :=
  Prog.always_bind Quiet (Follows H) p f hp (fun H' o r ho h => follows_quiet H H' o r ho h)
    (quiet_xdpTcpNode key flags) H (follows_refl H) hf

theorem isTrusted_quiet (a : Addr) : Prog.Only Quiet (isTrusted a : DpProg P Bool) :=
  ⟨trivial, fun _ => trivial⟩

theorem isHandlerBlocked_quiet : Prog.Only Quiet (isHandlerBlocked key : DpProg P Bool) := by
  refine ⟨trivial, fun r => ?_⟩
  cases r with
  | none => trivial
  | some til => exact ⟨trivial, fun _ => trivial⟩

theorem limitOr_quiet (q : Limiter) (reason : Counter) (rest : DpProg P XdpAction)
    (hreason : reason ≠ .tcpCtMiss ∧ reason ≠ .udpDrop) (hrest : Prog.Only Quiet rest) :
    Prog.Only Quiet (limitOr q reason rest) := by
  refine ⟨trivial, fun r => Prog.only_ite _ _ _ _ (fun _ => ?_) (fun _ => hrest)⟩
  exact ⟨hreason, fun _ => ⟨⟨nofun, nofun⟩, fun _ => trivial⟩⟩

theorem precheckNewTcpSyn_quiet (destPort : U32) (bypassRate : Bool) (now : U64)
    (cfg : Option XdpRuntimeCfg) :
    Prog.Only Quiet (precheckNewTcpSyn key destPort bypassRate now cfg : DpProg P XdpAction) := by
  refine ⟨trivial, fun policy => ?_⟩
  have hconns : Prog.Only Quiet (limitOr (P := P) (.tcpConn key now destPort
      (policy.getD noTcpPolicy).connLimitMax cfg) .tcpConnLimitDrop <|
      limitOr (.tcpConnPrefix key now destPort (policy.getD noTcpPolicy).sourcePrefixV4
        (policy.getD noTcpPolicy).sourcePrefixV6 (policy.getD noTcpPolicy).connPrefixLimitMax cfg)
        .tcpConnPrefixLimitDrop <|
      limitOr (.tcpConnPort destPort now (policy.getD noTcpPolicy).connPortLimitMax cfg)
        .tcpConnPortLimitDrop <| return .pass) :=
    limitOr_quiet _ _ _ ⟨nofun, nofun⟩ <| limitOr_quiet _ _ _ ⟨nofun, nofun⟩ <|
      limitOr_quiet _ _ _ ⟨nofun, nofun⟩ trivial
  refine Prog.only_ite _ _ _ _ (fun _ => hconns) (fun _ => ?_)
  exact limitOr_quiet _ _ _ ⟨nofun, nofun⟩ <| limitOr_quiet _ _ _ ⟨nofun, nofun⟩ hconns

/-- The history right after the look-up and the read of the entry. -/
theorem justRead_cons (H : List (DpCall P)) (p : P) (raw : U64) (hH : Unread H) :
    JustRead key (⟨.ctLoad p, raw⟩ :: ⟨.ctLookup .tcp key, some p⟩ :: H) p raw := ⟨H, rfl, hH⟩

theorem inUse_justRead (H : List (DpCall P)) (p : P) (raw : U64) :
    inUse ((⟨.ctLoad p, raw⟩ : DpCall P) :: ⟨.ctLookup .tcp key, some p⟩ :: H) = inUse H :=
  (inUse_cons _ _ rfl).trans (inUse_cons _ _ rfl)

theorem ctRemove_nodes (H : List (DpCall P)) (p : P) (raw now : U64)
    (f : Unit → DpProg P XdpAction) (hH : JustRead key H p raw) (hwhy : Removes flags raw H)
    (hf : ∀ H', Follows H H' → Prog.Always Prog.push (XdpTcpNode key flags) H' (f ())) :
    Prog.Always Prog.push (XdpTcpNode key flags) H
      (ctRemove key raw now key.destPort >>= f) := by
  simp only [ctRemove, ctDelete_bind, Prog.op_bind, Prog.pure_eq]
  have hdel (b : Bool) : Follows H ((⟨.ctDelete .tcp key, b⟩ : DpCall P) :: H) :=
    follows_cons _ _ (.ctDelete .tcp key) b (follows_refl _) rfl rfl
  refine ⟨⟨rfl, rfl, p, raw, hH, hwhy, fun hpend b => ⟨now, ?_⟩⟩, fun b => ?_⟩
  · simp only [hpend, Bool.false_eq_true, ↓reduceIte, recordClose_bind, Prog.next_op]
  · by_cases hpend : isPending raw = true
    · simp only [hpend, ↓reduceIte, Prog.ret_bind]
      exact hf _ (hdel b)
    · rw [Bool.not_eq_true] at hpend
      simp only [hpend, Bool.false_eq_true, ↓reduceIte, recordClose_bind]
      exact ⟨⟨rfl, rfl, p, raw, b, H, rfl, hH, hwhy, hpend⟩, fun _ =>
        hf _ (follows_cons _ _ (.recordClose key now key.destPort) () (hdel b) rfl rfl)⟩

/-- Missing entries are reported when no word was read, or an old one. -/
theorem dropMiss_nodes (H : List (DpCall P))
    (hflags : hasFlag flags tcpFlagRst = true ∨ hasFlag flags tcpFlagAck = true)
    (hmiss : ∀ x ∈ wordsRead H, Aged x.1 x.2) :
    Prog.Always Prog.push (XdpTcpNode key flags) H (dropTcp .tcpCtMiss) :=
  ⟨fun _ => ⟨hflags, hmiss⟩, fun _ => ⟨fun h => absurd h nofun, fun _ => trivial⟩⟩

theorem dropUnread_nodes (H : List (DpCall P))
    (hflags : hasFlag flags tcpFlagRst = true ∨ hasFlag flags tcpFlagAck = true)
    (hH : Unread H) : Prog.Always Prog.push (XdpTcpNode key flags) H (dropTcp .tcpCtMiss) := by
  refine dropMiss_nodes key flags H hflags (fun x hx => ?_)
  rw [hH] at hx
  exact absurd hx List.not_mem_nil

/-- After the removal of an old entry. -/
theorem aged_words (H H' : List (DpCall P)) (p : P) (raw : U64) (hH : JustRead key H p raw)
    (hage : Aged raw (inUse H)) (hfollows : Follows H H') : ∀ x ∈ wordsRead H', Aged x.1 x.2 := by
  rw [hfollows.words, justRead_words key H p raw hH]
  simpa using hage

theorem insertHalfOpen_nodes (H : List (DpCall P)) (bypassRate prechecked : Bool) (now : U64)
    (cfg : Option XdpRuntimeCfg) (hu : inUse H = some (now, cfg))
    (hsyn : isSynOnly flags = true) :
    Prog.Always Prog.push (XdpTcpNode key flags) H
      (insertHalfOpen key key.destPort bypassRate prechecked now cfg) := by
  have hadmit (H' : List (DpCall P)) (hH : Follows H H') :
      Prog.Always Prog.push (XdpTcpNode key flags) H' (do
        let _ ← ctUpdate .tcp key (now ||| ctSynPending) .any
        count .tcpNewAllow
        return .pass : DpProg P XdpAction) :=
    ⟨⟨rfl, rfl, now, cfg, hH.inUse.trans hu, Or.inl ⟨rfl, hsyn, rfl⟩⟩,
      fun _ => ⟨fun h => absurd h nofun, fun _ => trivial⟩⟩
  simp only [insertHalfOpen]
  refine Prog.always_ite _ _ _ _ (fun _ => hadmit H (follows_refl H)) (fun _ => ?_)
  refine quiet_bind key flags _ _ H (precheckNewTcpSyn_quiet key _ _ _ _) (fun verdict H' hH => ?_)
  exact Prog.always_ite _ _ _ _ (fun _ => trivial) (fun _ => hadmit H' hH)

theorem allowNewTcpSyn_nodes (H : List (DpCall P)) (bypassRate prechecked : Bool) (now : U64)
    (cfg : Option XdpRuntimeCfg) (hu : inUse H = some (now, cfg)) (hunread : Unread H)
    (hsyn : isSynOnly flags = true) :
    Prog.Always Prog.push (XdpTcpNode key flags) H
      (allowNewTcpSyn key key.destPort bypassRate prechecked now cfg) := by
  simp only [allowNewTcpSyn, ctLookup_bind]
  refine ⟨⟨rfl, rfl⟩, fun found => ?_⟩
  cases found with
  | none =>
    exact insertHalfOpen_nodes key flags _ _ _ now cfg ((inUse_cons _ _ rfl).trans hu) hsyn
  | some p =>
    refine ⟨⟨H, rfl, hunread⟩, fun raw => ?_⟩
    have hread := justRead_cons key H p raw hunread
    have hu' := (inUse_justRead key H p raw).trans hu
    refine Prog.always_ite _ _ _ _ (fun hage => ?_) (fun _ => ?_)
    · refine ctRemove_nodes key flags _ p raw now _ hread
        (Or.inl ⟨now, cfg, hu', hage⟩) (fun H' hH => ?_)
      exact insertHalfOpen_nodes key flags H' _ _ now cfg (hH.inUse.trans hu') hsyn
    · have hend (H' : List (DpCall P)) : Prog.Always Prog.push (XdpTcpNode key flags) H' (do
          count .tcpNewAllow
          return .pass : DpProg P XdpAction) := ⟨fun h => absurd h nofun, fun _ => trivial⟩
      simp only [Prog.pure_eq]
      split
      · exact ⟨⟨rfl, rfl, now, cfg, hu', Or.inr ⟨rfl, p, raw, hread, fun _ => hsyn, rfl⟩⟩,
          fun _ => ⟨trivial, fun _ => hend _⟩⟩
      · exact hend _

theorem checkTcpRst_nodes (H : List (DpCall P)) (now : U64) (cfg : Option XdpRuntimeCfg)
    (hu : inUse H = some (now, cfg)) (hunread : Unread H)
    (hrst : hasFlag flags tcpFlagRst = true) :
    Prog.Always Prog.push (XdpTcpNode key flags) H
      (checkTcpRst key flags key.destPort now cfg) := by
  simp only [checkTcpRst, ctLookup_bind]
  refine Prog.always_ite _ _ _ _ (fun _ => ⟨fun h => absurd h nofun, fun _ => trivial⟩)
    (fun _ => ⟨⟨rfl, rfl⟩, fun found => ?_⟩)
  cases found with
  | none =>
    exact dropUnread_nodes key flags _ (Or.inl hrst)
      (unread_cons H (.ctLookup .tcp key) none hunread rfl)
  | some p =>
    refine ⟨⟨H, rfl, hunread⟩, fun raw => ?_⟩
    have hread := justRead_cons key H p raw hunread
    have hu' := (inUse_justRead key H p raw).trans hu
    refine Prog.always_ite _ _ _ _ (fun hage => ?_) (fun _ => ?_)
    · exact ctRemove_nodes key flags _ p raw now _ hread (Or.inr (Or.inl hrst))
        (fun H' hH => dropMiss_nodes key flags _ (Or.inl hrst)
          (aged_words key _ H' p raw hread ⟨now, cfg, hu', hage⟩ hH))
    · exact ctRemove_nodes key flags _ p raw now _ hread (Or.inr (Or.inl hrst))
        (fun H' hH => ⟨fun h => absurd h nofun, fun _ => trivial⟩)

theorem touchEstablished_nodes (H : List (DpCall P)) (p : P) (raw now : U64)
    (cfg : Option XdpRuntimeCfg) (f : Unit → DpProg P XdpAction) (hH : JustRead key H p raw)
    (hu : inUse H = some (now, cfg)) (hack : hasFlag flags tcpFlagAck = true)
    (hage : ¬now - stamp raw > cfgCtTimeoutNs raw cfg)
    (hf : ∀ H', Prog.Always Prog.push (XdpTcpNode key flags) H' (f ())) :
    Prog.Always Prog.push (XdpTcpNode key flags) H
      (touchEstablished key p raw now key.destPort cfg >>= f) := by
  have hold : ¬Aged raw (inUse H) := by
    rintro ⟨now', cfg', hu', hage'⟩
    obtain ⟨rfl, rfl⟩ := Prod.mk.inj (Option.some.inj (hu.symm.trans hu'))
    exact hage hage'
  simp only [touchEstablished]
  by_cases hpend : isPending raw = true
  · simp only [hpend, ↓reduceIte, ctCas_bind, Prog.op_bind]
    refine ⟨⟨hack, hpend, hH, cfg, hu, hold, ?_⟩, fun r => ?_⟩
    · simp only [↓reduceIte, recordEstablished_bind, Prog.next_op]
    · by_cases hr : r = raw
      · rw [hr]
        simp only [↓reduceIte, recordEstablished_bind]
        exact ⟨⟨rfl, rfl, p, raw, H, rfl, hH, hpend⟩, fun _ => hf _⟩
      · simp only [hr, ↓reduceIte, Prog.pure_eq, Prog.ret_bind]
        exact hf _
  · simp only [hpend, Bool.false_eq_true, ↓reduceIte]
    split
    · simp only [ctUpdate_bind, Prog.op_bind, recordActivity_bind]
      refine ⟨⟨rfl, rfl, now, cfg, hu, Or.inr ⟨rfl, p, raw, hH, fun h => absurd h hpend, ?_⟩⟩,
        fun _ => ⟨trivial, fun _ => hf _⟩⟩
      simp only [hpend, Bool.false_eq_true, ↓reduceIte]
    · exact hf _

theorem checkTcpAck_nodes (H : List (DpCall P)) (now : U64) (cfg : Option XdpRuntimeCfg)
    (hu : inUse H = some (now, cfg)) (hunread : Unread H)
    (hack : hasFlag flags tcpFlagAck = true) :
    Prog.Always Prog.push (XdpTcpNode key flags) H
      (checkTcpAck key flags key.destPort now cfg) := by
  have hpass (H' : List (DpCall P)) : Prog.Always Prog.push (XdpTcpNode key flags) H' (do
      count .tcpEstablished
      return .pass : DpProg P XdpAction) := ⟨fun h => absurd h nofun, fun _ => trivial⟩
  simp only [checkTcpAck, ctLookup_bind]
  refine ⟨⟨rfl, rfl⟩, fun found => ?_⟩
  cases found with
  | some p =>
    refine ⟨⟨H, rfl, hunread⟩, fun raw => ?_⟩
    have hread := justRead_cons key H p raw hunread
    have hu' := (inUse_justRead key H p raw).trans hu
    refine Prog.always_ite _ _ _ _ (fun hage => ?_) (fun hage => ?_)
    · have haged : Aged raw (inUse _) := ⟨now, cfg, hu', hage⟩
      exact ctRemove_nodes key flags _ p raw now _ hread (Or.inl haged)
        (fun H' hH => dropMiss_nodes key flags _ (Or.inr hack)
          (aged_words key _ H' p raw hread haged hH))
    · refine Prog.always_ite _ _ _ _ (fun hfin => ?_) (fun _ => ?_)
      · exact ctRemove_nodes key flags _ p raw now _ hread (Or.inr (Or.inr hfin))
          (fun H' _ => hpass H')
      · exact touchEstablished_nodes key flags _ p raw now cfg _ hread hu' hack hage hpass
  | none =>
    have h₁ := unread_cons H (.ctLookup .tcp key) none hunread rfl
    simp only [tcpPending_bind]
    refine ⟨trivial, fun pending => ?_⟩
    have h₂ := unread_cons _ (.tcpPending key) pending h₁ rfl
    cases pending with
    | none => exact dropUnread_nodes key flags _ (Or.inr hack) h₂
    | some port =>
      refine ⟨fun h => absurd h nofun, fun _ => ⟨trivial, fun verdict => ?_⟩⟩
      have h₃ := unread_cons _ (.count .slotCall) () h₂ rfl
      cases verdict with
      | some v => trivial
      | none =>
        exact dropUnread_nodes key flags _ (Or.inr hack)
          (unread_cons _ (.tailCall .tcpPortHandlers port) none h₃ rfl)

theorem checkTcpFin_nodes (H : List (DpCall P)) (now : U64) (hunread : Unread H)
    (hfin : hasFlag flags tcpFlagFin = true) :
    Prog.Always Prog.push (XdpTcpNode key flags) H (checkTcpFin key key.destPort now) := by
  simp only [checkTcpFin, ctLookup_bind]
  refine ⟨⟨rfl, rfl⟩, fun found => ?_⟩
  cases found with
  | none => exact ⟨fun h => absurd h nofun, fun _ => trivial⟩
  | some p =>
    refine ⟨⟨H, rfl, hunread⟩, fun raw => ?_⟩
    exact ctRemove_nodes key flags _ p raw now _ (justRead_cons key H p raw hunread)
      (Or.inr (Or.inr hfin)) (fun H' _ => ⟨fun h => absurd h nofun, fun _ => trivial⟩)

theorem checkTcpSyn_nodes (H : List (DpCall P)) (now : U64) (cfg : Option XdpRuntimeCfg)
    (hu : inUse H = some (now, cfg)) (hunread : Unread H) (hsyn : isSynOnly flags = true) :
    Prog.Always Prog.push (XdpTcpNode key flags) H (checkTcpSyn key key.destPort now cfg) := by
  have hdrop (reason : Counter) (hr : reason ≠ .tcpCtMiss) (H' : List (DpCall P)) :
      Prog.Always Prog.push (XdpTcpNode key flags) H' (dropTcp reason) :=
    ⟨fun h => absurd h hr, fun _ => ⟨fun h => absurd h nofun, fun _ => trivial⟩⟩
  have hadmit (H' : List (DpCall P)) (hu' : inUse H' = some (now, cfg)) (hunread' : Unread H') :
      Prog.Always Prog.push (XdpTcpNode key flags) H' (do
        if ← isHandlerBlocked key then dropTcp .handlerBlockDrop
        else if (← precheckNewTcpSyn key key.destPort false now cfg) = .drop then return .drop
        else
          tryPortDispatch .tcpPortHandlers key.destPort
            (allowNewTcpSyn key key.destPort false true now cfg)) := by
    refine quiet_bind key flags _ _ H' (isHandlerBlocked_quiet key) (fun blocked H₁ h₁ => ?_)
    refine Prog.always_ite _ _ _ _ (fun _ => hdrop .handlerBlockDrop nofun _) (fun _ => ?_)
    refine quiet_bind key flags _ _ H₁ (precheckNewTcpSyn_quiet key _ _ _ _) (fun v H₂ h₂ => ?_)
    refine Prog.always_ite _ _ _ _ (fun _ => trivial) (fun _ => ?_)
    refine ⟨fun h => absurd h nofun, fun _ => ⟨trivial, fun verdict => ?_⟩⟩
    cases verdict with
    | some v => trivial
    | none =>
      have h₃ := follows_quiet _ H₂ (.count .slotCall) () ⟨nofun, nofun⟩ h₂
      have h₄ := follows_quiet _ _ (.tailCall .tcpPortHandlers key.destPort) none trivial h₃
      exact allowNewTcpSyn_nodes key flags _ _ _ now cfg (h₄.inUse.trans (h₁.inUse.trans hu'))
        (h₄.words.trans (h₁.words.trans hunread')) hsyn
  simp only [checkTcpSyn, whitelist_bind]
  refine ⟨trivial, fun allow => Prog.always_ite _ _ _ _
    (fun _ => ⟨fun h => absurd h nofun, fun _ => trivial⟩) (fun _ => ?_)⟩
  simp only [abuseipdbBlocks, abuseipdbActive, runtimeCfg_bind, Prog.op_bind, Prog.pure_eq,
    Prog.ret_bind]
  refine ⟨trivial, fun cfg' => ?_⟩
  have hu' : inUse ((⟨.runtimeCfg, cfg'⟩ : DpCall P) :: ⟨.whitelist .tcp key.destPort, allow⟩ ::
      H) = some (now, cfg) :=
    ((inUse_cfg _ _ _ rfl).trans (inUse_cons _ _ rfl)).trans hu
  have hunread' := unread_cons _ .runtimeCfg cfg'
    (unread_cons H (.whitelist .tcp key.destPort) allow hunread rfl) rfl
  refine quiet_bind key flags _ _ _ (Prog.only_ite _ _ _ _ (fun _ => ?_) (fun _ => trivial))
    (fun blocks H₁ h₁ => Prog.always_ite _ _ _ _ (fun _ => hdrop .abuseipdbDrop nofun _)
      (fun _ => hadmit H₁ (h₁.inUse.trans hu') (h₁.words.trans hunread')))
  cases key with
  | v4 sport dport saddr daddr => exact ⟨trivial, fun _ => trivial⟩
  | v6 sport dport saddr daddr => trivial

theorem checkTcpConntrack_nodes (H : List (DpCall P)) (hunread : Unread H) :
    Prog.Always Prog.push (XdpTcpNode key flags) H
      (checkTcpConntrack key flags key.destPort) := by
  simp only [checkTcpConntrack, ktimeGetNs_bind, runtimeCfg_bind]
  refine ⟨trivial, fun now => ⟨trivial, fun cfg => ?_⟩⟩
  have hu : inUse ((⟨.runtimeCfg, cfg⟩ : DpCall P) :: ⟨.ktimeGetNs, now⟩ :: H) =
      some (now, cfg) := rfl
  have hunread' : Unread ((⟨.runtimeCfg, cfg⟩ : DpCall P) :: ⟨.ktimeGetNs, now⟩ :: H) :=
    unread_cons _ .runtimeCfg cfg (unread_cons _ .ktimeGetNs now hunread rfl) rfl
  refine Prog.always_ite _ _ _ _
    (fun hrst => checkTcpRst_nodes key flags _ now cfg hu hunread' hrst) (fun _ => ?_)
  refine Prog.always_ite _ _ _ _
    (fun hack => checkTcpAck_nodes key flags _ now cfg hu hunread' hack) (fun _ => ?_)
  refine Prog.always_ite _ _ _ _
    (fun hfin => checkTcpFin_nodes key flags _ now hunread' hfin) (fun _ => ?_)
  refine Prog.always_ite _ _ _ _
    (fun hsyn => checkTcpSyn_nodes key flags _ now cfg hu hunread' hsyn) (fun _ => ?_)
  exact ⟨fun h => absurd h nofun, fun _ => trivial⟩

/-- Every call a segment makes at XDP is one of `XdpTcpNode`. -/
theorem checkTcpFlow_nodes (H : List (DpCall P)) (hunread : Unread H) :
    Prog.Always Prog.push (XdpTcpNode key flags) H (checkTcpFlow key flags) := by
  simp only [checkTcpFlow]
  refine Prog.always_ite _ _ _ _ (fun hsyn => ?_)
    (fun _ => checkTcpConntrack_nodes key flags H hunread)
  simp only [ktimeGetNs_bind, runtimeCfg_bind, acl_bind]
  refine ⟨trivial, fun now => ⟨trivial, fun cfg => ?_⟩⟩
  have hu : inUse ((⟨.runtimeCfg, cfg⟩ : DpCall P) :: ⟨.ktimeGetNs, now⟩ :: H) =
      some (now, cfg) := rfl
  have hunread' : Unread ((⟨.runtimeCfg, cfg⟩ : DpCall P) :: ⟨.ktimeGetNs, now⟩ :: H) :=
    unread_cons _ .runtimeCfg cfg (unread_cons _ .ktimeGetNs now hunread rfl) rfl
  refine quiet_bind key flags _ _ _ (isTrusted_quiet key.saddr) (fun isT H₁ h₁ => ?_)
  have hallow (H' : List (DpCall P)) (h' : Follows _ H') :=
    allowNewTcpSyn_nodes key flags H' true false now cfg (h'.inUse.trans hu)
      (h'.words.trans hunread') hsyn
  refine Prog.always_ite _ _ _ _ (fun _ => hallow H₁ h₁) (fun _ => ⟨trivial, fun av => ?_⟩)
  have h₂ := follows_quiet _ H₁ (.acl .tcp key.saddr) av trivial h₁
  refine Prog.always_ite _ _ _ _ (fun _ => hallow _ h₂) (fun _ => ?_)
  exact checkTcpConntrack_nodes key flags _ (h₂.words.trans hunread')

end Xdp

end AutoXdp
