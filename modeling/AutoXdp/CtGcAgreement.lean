import AutoXdp.CtGc
import AutoXdp.CtExpiry

/-! The collector and the datapath agree on what is expired where no zero timeout stands
for a default, no timestamp is ahead, and no doomed entry is written before it is deleted. -/
namespace AutoXdp
open GuardedRun

/-- The keys of a map that wait for their deletion. -/
def GcPc.doomed (m : GcMap) : GcPc → List FlowKey
  | look m' _ _ doomed | delete m' doomed => if m' = m then doomed else []
  | _ => []

/-- The reading that the ages of a scan are taken at. -/
def GcPc.reading? : GcPc → Option Ktime
  | list _ now _ | look _ now _ _ => some now
  | _ => none

/-- The word that the collector looks up next. -/
def GcWorld.read? (s : GcWorld) : Option (GcMap × Ktime × U64) :=
  match s.pc with
  | .look m now (k :: _) _ => ((s.ct m).lookup k).map fun raw => (m, now, raw)
  | _ => none

variable (cfg : XdpRuntimeCfg)

/-- A word that is read under a configured zero is not older than the reading or older than
the default; and a word from after the reading does not wrap to an age above its timeout. -/
def AgeOk (m : GcMap) (raw : U64) (now : Ktime) : Prop :=
  (gcLimitNs cfg m raw = 0 → stamp raw < now.val →
    ctTimeoutNs cfg m raw < now.val - stamp raw) ∧
  (ctTime m raw ≤ now.val ∨ now.val - ctTime m raw ≤ ctTimeoutNs cfg m raw)

instance (m : GcMap) (raw : U64) (now : Ktime) : Decidable (AgeOk cfg m raw now) :=
  inferInstanceAs (Decidable (_ ∧ _))

/-- The words read have clear ages, and the datapath writes to no doomed entry. -/
def GcStepOk (s : GcWorld) : GcEvent → Prop
  | .gc false => ∀ x ∈ s.read?, AgeOk cfg x.1 x.2.2 x.2.1
  | .write m k _ => k ∉ s.pc.doomed m
  | .gc true | .remove .. | .tick _ => True

instance (s : GcWorld) : (e : GcEvent) → Decidable (GcStepOk cfg s e)
  | .gc false => inferInstanceAs (Decidable (∀ x ∈ s.read?, AgeOk cfg x.1 x.2.2 x.2.1))
  | .write m k _ => inferInstanceAs (Decidable (k ∉ s.pc.doomed m))
  | .gc true | .remove .. | .tick _ => inferInstanceAs (Decidable True)

/-! Two rules for one word. -/

theorem cfgOr_cases (field : XdpRuntimeCfg → U64) (dflt : U64) :
    (field cfg ≠ 0 → cfgOr field dflt (some cfg) = field cfg) ∧
      (field cfg = 0 → cfgOr field dflt (some cfg) = dflt) :=
  ⟨fun h => if_pos h, fun h => if_neg (not_not.mpr h)⟩

/-- The datapath's timeout is the configured limit, or a default of five minutes at most. -/
theorem ctTimeoutNs_cases (m : GcMap) (raw : U64) :
    (gcLimitNs cfg m raw ≠ 0 → ctTimeoutNs cfg m raw = gcLimitNs cfg m raw) ∧
      (gcLimitNs cfg m raw = 0 → (ctTimeoutNs cfg m raw).toNat ≤ 300000000000) := by
  have htcp := cfgOr_cases cfg XdpRuntimeCfg.tcpTimeoutNs (300 * nsPerSec)
  have hsyn := cfgOr_cases cfg XdpRuntimeCfg.synTimeoutNs (30 * nsPerSec)
  have hudp := cfgOr_cases cfg XdpRuntimeCfg.udpTimeoutNs (60 * nsPerSec)
  cases m with
  | tcp4 | tcp6 =>
    unfold gcLimitNs ctTimeoutNs cfgCtTimeoutNs cfgSynTimeoutNs cfgTcpTimeoutNs
    cases isPending raw with
    | true =>
      refine ⟨hsyn.1, fun h => ?_⟩
      dsimp only
      rw [if_pos rfl, hsyn.2 h]
      decide
    | false =>
      refine ⟨htcp.1, fun h => ?_⟩
      dsimp only
      rw [if_neg nofun, htcp.2 h]
      decide
  | udp4 | udp6 =>
    unfold gcLimitNs ctTimeoutNs cfgUdpTimeoutNs
    refine ⟨hudp.1, fun h => ?_⟩
    dsimp only
    rw [hudp.2 h]
    decide

theorem stamp_of_ctTime (m : GcMap) (raw : U64) :
    (stamp raw).toNat = (ctTime m raw).toNat % 2^63 := by
  cases m with
  | tcp4 | tcp6 =>
    have hlt : (stamp raw).toNat < 2^63 := by
      rw [stamp_toNat]
      exact Nat.mod_lt _ (by decide)
    exact (Nat.mod_eq_of_lt hlt).symm
  | udp4 | udp6 => exact stamp_toNat raw

theorem gcExpired_iff (m : GcMap) (now : Ktime) (raw : U64) :
    gcExpired cfg m now raw = true ↔
      (stamp raw).toNat + (gcLimitNs cfg m raw).toNat < now.val.toNat := by
  rw [gcExpired, decide_eq_true_eq]
  omega

/-- The condition on the ages, in numbers. -/
theorem ageOk_toNat {m : GcMap} {raw : U64} {now : Ktime} (hok : AgeOk cfg m raw now) :
    ((ctTimeoutNs cfg m raw).toNat = (gcLimitNs cfg m raw).toNat ∨
      ((gcLimitNs cfg m raw).toNat = 0 ∧ (ctTimeoutNs cfg m raw).toNat ≤ 300000000000 ∧
        ((stamp raw).toNat < now.val.toNat →
          (stamp raw).toNat + (ctTimeoutNs cfg m raw).toNat < now.val.toNat))) ∧
    ((ctTime m raw).toNat ≤ now.val.toNat ∨
      2^64 - (ctTime m raw).toNat + now.val.toNat ≤ (ctTimeoutNs cfg m raw).toNat) := by
  obtain ⟨hzero, hbehind⟩ := hok
  obtain ⟨hset, hdefault⟩ := ctTimeoutNs_cases cfg m raw
  constructor
  · by_cases hlimit : gcLimitNs cfg m raw = 0
    · refine Or.inr ⟨by rw [hlimit]; rfl, hdefault hlimit, fun hlt => ?_⟩
      have hgap := hzero hlimit hlt
      rw [BitVec.lt_def, BitVec.toNat_sub_of_le (Nat.le_of_lt hlt)] at hgap
      omega
    · exact Or.inl (congrArg BitVec.toNat (hset hlimit))
  · rcases hbehind with hle | hwrap
    · exact Or.inl hle
    · by_cases hle : (ctTime m raw).toNat ≤ now.val.toNat
      · exact Or.inl hle
      · have hword := (ctTime m raw).isLt
        rw [BitVec.le_def, BitVec.toNat_sub, Nat.mod_eq_of_lt (by omega)] at hwrap
        exact Or.inr hwrap

/-- A word that the collector finds expired is overdue by the datapath's own timeout. -/
theorem overdue_of_gcExpired {m : GcMap} {raw : U64} {now : Ktime} (hok : AgeOk cfg m raw now)
    (h : gcExpired cfg m now raw = true) :
    Overdue (ctTime m raw) (ctTimeoutNs cfg m raw) now.val := by
  obtain ⟨hlimit, hbehind⟩ := ageOk_toNat cfg hok
  have hstamp := stamp_of_ctTime m raw
  have hnow := now.property
  have hword := (ctTime m raw).isLt
  rw [gcExpired_iff] at h
  unfold Overdue
  omega

theorem xdpExpired_of_overdue {m : GcMap} {raw : U64} {now : Ktime}
    (h : Overdue (ctTime m raw) (ctTimeoutNs cfg m raw) now.val) : XdpExpired cfg m raw now := by
  have hle : ctTime m raw ≤ now.val := by
    unfold Overdue at h
    rw [BitVec.le_def]
    omega
  unfold Overdue at h
  rw [XdpExpired, gt_iff_lt, BitVec.lt_def, BitVec.toNat_sub_of_le hle]
  omega

theorem gcExpired_of_xdpExpired {m : GcMap} {raw : U64} {now : Ktime} (hok : AgeOk cfg m raw now)
    (h : XdpExpired cfg m raw now) : gcExpired cfg m now raw = true := by
  have hle : ctTime m raw ≤ now.val :=
    hok.2.resolve_right fun hwrap => BitVec.not_lt.mpr hwrap h
  obtain ⟨hlimit, -⟩ := ageOk_toNat cfg hok
  have hstamp := stamp_of_ctTime m raw
  have hnow := now.property
  rw [XdpExpired, gt_iff_lt, BitVec.lt_def, BitVec.toNat_sub_of_le hle] at h
  rw [BitVec.le_def] at hle
  rw [gcExpired_iff]
  omega

/-! Every doomed entry that is still there is overdue. -/

/-- The reading of a scan is in the past, and what waits for its deletion is overdue. -/
structure DoomedOverdue (s : GcWorld) : Prop where
  reading : ∀ now ∈ s.pc.reading?, now.val ≤ s.clock.val
  overdue : ∀ m, ∀ k ∈ s.pc.doomed m, ∀ raw, (s.ct m).lookup k = some raw →
    Overdue (ctTime m raw) (ctTimeoutNs cfg m raw) s.clock.val

theorem overdue_later {t timeout now later : U64} (h : Overdue t timeout now) (hle : now ≤ later) :
    Overdue t timeout later := Nat.lt_of_lt_of_le h hle

/-- A step that only moves on, with no key doomed that was not. -/
theorem doomedOverdue_moves {s : GcWorld} (pc : GcPc)
    (hreading : ∀ now ∈ pc.reading?, now.val ≤ s.clock.val)
    (hdoomed : ∀ m, pc.doomed m ⊆ s.pc.doomed m) (hs : DoomedOverdue cfg s) :
    DoomedOverdue cfg { s with pc := pc } :=
  ⟨hreading, fun m k hk => hs.overdue m k (hdoomed m hk)⟩

/-- A lookup dooms a key only if its word is overdue. -/
theorem doomedOverdue_look {s : GcWorld} {m : GcMap} {now : Ktime} {k : FlowKey}
    {todo doomed : List FlowKey} {raw : U64} (hpc : s.pc = .look m now (k :: todo) doomed)
    (hraw : (s.ct m).lookup k = some raw) (hage : AgeOk cfg m raw now)
    (hs : DoomedOverdue cfg s) : DoomedOverdue cfg { s with
      pc := .look m now todo (if gcExpired cfg m now raw then doomed ++ [k] else doomed) } := by
  have hnow : now.val ≤ s.clock.val := hs.reading now (by rw [hpc]; rfl)
  refine ⟨fun t ht => Option.some.inj ht ▸ hnow, fun m' k' hk' raw' hraw' => ?_⟩
  by_cases hold : k' ∈ s.pc.doomed m'
  · exact hs.overdue m' k' hold raw' hraw'
  · -- only the key that was just looked up is new
    simp only [GcPc.doomed, hpc] at hk' hold
    by_cases hm : m = m'
    · subst hm
      simp only [if_true] at hk' hold
      by_cases hexp : gcExpired cfg m now raw = true
      · rw [if_pos hexp] at hk'
        have hk : k' = k := List.mem_singleton.mp ((List.mem_append.mp hk').resolve_left hold)
        subst hk
        obtain rfl := Option.some.inj (hraw.symm.trans hraw')
        exact overdue_later (overdue_of_gcExpired cfg hage hexp) hnow
      · rw [if_neg hexp] at hk'
        exact absurd hk' hold
    · rw [if_neg hm] at hk'
      exact absurd hk' List.not_mem_nil

theorem doomedOverdue_gc {s : GcWorld} (fails : Bool) (hs : DoomedOverdue cfg s)
    (hok : GcStepOk cfg s (.gc fails)) : DoomedOverdue cfg (gcAction cfg fails s) := by
  unfold gcAction
  cases hpc : s.pc with
  | start m =>
    refine doomedOverdue_moves cfg _ (fun t ht => ?_) (fun _ => List.nil_subset _) hs
    rw [← Option.some.inj ht]
    exact BitVec.le_refl _
  | list m now keys =>
    have hnow : now.val ≤ s.clock.val := hs.reading now (by rw [hpc]; rfl)
    dsimp only
    split
    · exact doomedOverdue_moves cfg _ nofun (fun _ => List.nil_subset _) hs
    · split
      · exact doomedOverdue_moves cfg _ (fun t ht => Option.some.inj ht ▸ hnow)
          (fun _ => List.nil_subset _) hs
      · refine doomedOverdue_moves cfg _ (fun t ht => Option.some.inj ht ▸ hnow) (fun m' => ?_) hs
        simp [GcPc.doomed]
  | look m now todo doomed =>
    have hnow : now.val ≤ s.clock.val := hs.reading now (by rw [hpc]; rfl)
    cases todo with
    | nil =>
      refine doomedOverdue_moves cfg _ nofun (fun m' => ?_) hs
      rw [hpc]
      exact List.Subset.refl _
    | cons k todo =>
      have hskip : DoomedOverdue cfg { s with pc := .look m now todo doomed } := by
        refine doomedOverdue_moves cfg _ (fun t ht => Option.some.inj ht ▸ hnow) (fun m' => ?_) hs
        rw [hpc]
        exact List.Subset.refl _
      dsimp only
      cases fails with
      | true => exact hskip
      | false =>
        cases hraw : (s.ct m).lookup k with
        | none =>
          simp only [Bool.false_eq_true, if_false]
          exact hskip
        | some raw =>
          have hage : AgeOk cfg m raw now := hok (m, now, raw) (by simp [GcWorld.read?, hpc, hraw])
          simp only [Bool.false_eq_true, if_false]
          exact doomedOverdue_look cfg hpc hraw hage hs
  | delete m doomed =>
    cases doomed with
    | nil =>
      refine doomedOverdue_moves cfg _ ?_ (fun m' => ?_) hs
      · cases m <;> exact nofun
      · cases m <;> exact List.nil_subset _
    | cons k doomed =>
      -- the deletion takes the key out of the map, and the others wait on
      have hsub : ∀ m', GcPc.doomed m' (.delete m doomed) ⊆ s.pc.doomed m' := by
        intro m'
        simp only [hpc, GcPc.doomed]
        split
        · exact List.subset_cons_self k doomed
        · exact List.Subset.refl _
      dsimp only
      split
      · exact doomedOverdue_moves cfg _ nofun hsub hs
      · refine ⟨nofun, fun m' k' hk' raw' hraw' => ?_⟩
        refine hs.overdue m' k' (hsub m' hk') raw' ?_
        by_cases hm : m' = m
        · subst hm
          by_cases hk : k' = k
          · subst hk
            simp only [Function.update_self, AList.lookup_erase] at hraw'
            contradiction
          · simpa only [Function.update_self, AList.lookup_erase_ne hk] using hraw'
        · simpa only [Function.update_of_ne hm] using hraw'
  | done | raised => exact hs

theorem doomedOverdue_step (s : GcWorld) (e : GcEvent) (hs : DoomedOverdue cfg s)
    (hok : GcStepOk cfg s e) : DoomedOverdue cfg (gcStep cfg s e) := by
  cases e with
  | gc fails => exact doomedOverdue_gc cfg fails hs hok
  | write m k raw =>
    refine ⟨hs.reading, fun m' k' hk' raw' hraw' => ?_⟩
    by_cases hm : m' = m
    · subst hm
      have hne : k' ≠ k := fun h => hok (h ▸ hk')
      simp only [gcStep, Function.update_self, AList.lookup_insert_ne hne] at hraw'
      exact hs.overdue m' k' hk' raw' hraw'
    · simp only [gcStep, Function.update_of_ne hm] at hraw'
      exact hs.overdue m' k' hk' raw' hraw'
  | remove m k =>
    refine ⟨hs.reading, fun m' k' hk' raw' hraw' => hs.overdue m' k' hk' raw' ?_⟩
    by_cases hm : m' = m
    · subst hm
      by_cases hk : k' = k
      · subst hk
        simp only [gcStep, Function.update_self, AList.lookup_erase] at hraw'
        contradiction
      · simpa only [gcStep, Function.update_self, AList.lookup_erase_ne hk] using hraw'
    · simpa only [gcStep, Function.update_of_ne hm] using hraw'
  | tick t =>
    by_cases ht : s.clock.val ≤ t.val
    · simp only [gcStep, if_pos ht]
      exact ⟨fun now h => BitVec.le_trans (hs.reading now h) ht,
        fun m k hk raw hraw => overdue_later (hs.overdue m k hk raw hraw) ht⟩
    · simpa only [gcStep, if_neg ht] using hs

/-! A scan that is left alone finds every key. -/

theorem nextKey_append (t : BpfMap FlowKey U64) (xs ys : List FlowKey) (h : t.keys = xs ++ ys) :
    nextKey t xs.getLast? = ys.head? := by
  rcases List.eq_nil_or_concat xs with rfl | ⟨xs, k, rfl⟩
  · rw [List.getLast?_nil, nextKey, h, List.nil_append]
  · rw [List.concat_eq_append] at h ⊢
    rw [List.append_assoc] at h
    have hnodup := t.keys_nodup
    rw [h] at hnodup
    have hfresh : ∀ x ∈ xs, decide (x ≠ k) = true := fun x hx =>
      decide_eq_true ((List.nodup_append.mp hnodup).2.2 x hx k List.mem_cons_self)
    have hk : k ∈ t.keys := by
      rw [h]
      exact List.mem_append_right _ List.mem_cons_self
    rw [List.getLast?_concat, nextKey, if_pos hk, h, List.dropWhile_append_of_pos hfresh]
    simp

/-- Where the map stands in the order of the scans. -/
def GcMap.place : GcMap → ℕ
  | tcp4 => 0
  | tcp6 => 1
  | udp4 => 2
  | udp6 => 3

/-- The collector has left the map behind. -/
def GcPc.Past (m : GcMap) (pc : GcPc) : Prop := ∀ m', pc.at? = some m' → m.place < m'.place

theorem gcAfter_past (m : GcMap) : (gcAfter m).Past m := by
  intro m' hat
  cases m <;> cases hat <;> decide

/-- How far an undisturbed scan of the map `t` has got, the reading being `now`. -/
inductive LeftAlone (m : GcMap) (now : Ktime) (t : BpfMap FlowKey U64) (s : GcWorld) : Prop
  | list (keys rest : List FlowKey) (hpc : s.pc = .list m now keys) (ht : s.ct m = t)
      (hkeys : t.keys = keys ++ rest)
  | look (looked todo doomed : List FlowKey) (hpc : s.pc = .look m now todo doomed)
      (ht : s.ct m = t) (hkeys : t.keys = looked ++ todo)
      (hlooked : ∀ k ∈ looked, ∀ raw, t.lookup k = some raw → XdpExpired cfg m raw now → k ∈ doomed)
  | delete (doomed : List FlowKey) (hpc : s.pc = .delete m doomed)
      (hleft : ∀ k raw, (s.ct m).lookup k = some raw →
        t.lookup k = some raw ∧ (XdpExpired cfg m raw now → k ∈ doomed))
  | past (hpc : s.pc.Past m)
      (hleft : ∀ k raw, (s.ct m).lookup k = some raw →
        t.lookup k = some raw ∧ ¬XdpExpired cfg m raw now)

variable {cfg} {m : GcMap} {now : Ktime} {t : BpfMap FlowKey U64} {s : GcWorld}

theorem leftAlone_tick (u : Ktime) (h : LeftAlone cfg m now t s) :
    LeftAlone cfg m now t (gcStep cfg s (.tick u)) := by
  simp only [gcStep]
  split
  · cases h with
    | list keys rest hpc ht hkeys => exact .list keys rest hpc ht hkeys
    | look looked todo doomed hpc ht hkeys hlooked =>
      exact .look looked todo doomed hpc ht hkeys hlooked
    | delete doomed hpc hleft => exact .delete doomed hpc hleft
    | past hpc hleft => exact .past hpc hleft
  · exact h

/-- Behind its map the collector never comes back to it. -/
theorem gc_past (hpast : s.pc.Past m) :
    (gcAction cfg false s).ct m = s.ct m ∧ (gcAction cfg false s).pc.Past m := by
  unfold gcAction
  cases hpc : s.pc with
  | done | raised => exact ⟨rfl, hpast⟩
  | start m' =>
    have hlater : m.place < m'.place := hpast m' (by rw [hpc]; rfl)
    exact ⟨rfl, fun _ hat => Option.some.inj hat ▸ hlater⟩
  | list m' reading keys =>
    have hlater : m.place < m'.place := hpast m' (by rw [hpc]; rfl)
    dsimp only
    rw [if_neg (by exact nofun)]
    split
    · exact ⟨rfl, fun _ hat => Option.some.inj hat ▸ hlater⟩
    · exact ⟨rfl, fun _ hat => Option.some.inj hat ▸ hlater⟩
  | look m' reading todo doomed =>
    have hlater : m.place < m'.place := hpast m' (by rw [hpc]; rfl)
    cases todo with
    | nil => exact ⟨rfl, fun _ hat => Option.some.inj hat ▸ hlater⟩
    | cons k todo =>
      dsimp only
      split
      · exact ⟨rfl, fun _ hat => Option.some.inj hat ▸ hlater⟩
      · exact ⟨rfl, fun _ hat => Option.some.inj hat ▸ hlater⟩
  | delete m' doomed =>
    have hlater : m.place < m'.place := hpast m' (by rw [hpc]; rfl)
    cases doomed with
    | nil => exact ⟨rfl, fun m'' hat => hlater.trans (gcAfter_past m' m'' hat)⟩
    | cons k doomed =>
      dsimp only
      rw [if_neg (by exact nofun)]
      have hne : m ≠ m' := fun h => absurd (h ▸ hlater) (lt_irrefl _)
      exact ⟨Function.update_of_ne hne _ s.ct, fun _ hat => Option.some.inj hat ▸ hlater⟩

theorem leftAlone_gc (h : LeftAlone cfg m now t s) (hok : GcStepOk cfg s (.gc false)) :
    LeftAlone cfg m now t (gcAction cfg false s) := by
  cases h with
  | list keys rest hpc ht hkeys =>
    have hnext := nextKey_append t keys rest hkeys
    cases rest with
    | nil =>
      have hstep : gcAction cfg false s = { s with pc := .look m now keys [] } := by
        rw [List.head?_nil] at hnext
        simp only [gcAction, hpc, Bool.false_eq_true, if_false, ht, hnext]
      rw [hstep]
      refine .look [] keys [] rfl ht ?_ nofun
      rw [hkeys, List.append_nil, List.nil_append]
    | cons k rest =>
      have hstep : gcAction cfg false s = { s with pc := .list m now (keys ++ [k]) } := by
        rw [List.head?_cons] at hnext
        simp only [gcAction, hpc, Bool.false_eq_true, if_false, ht, hnext]
      rw [hstep]
      refine .list (keys ++ [k]) rest rfl ht ?_
      rw [hkeys, List.append_assoc]
      rfl
  | look looked todo doomed hpc ht hkeys hlooked =>
    cases todo with
    | nil =>
      have hstep : gcAction cfg false s = { s with pc := .delete m doomed } := by
        simp only [gcAction, hpc]
      rw [hstep]
      refine .delete doomed rfl fun k raw hraw => ⟨ht ▸ hraw, fun hexp => ?_⟩
      have hk : k ∈ t.keys := by
        rw [← AList.mem_keys, ← AList.lookup_isSome, ← ht, hraw]
        rfl
      rw [hkeys, List.append_nil] at hk
      exact hlooked k hk raw (ht ▸ hraw) hexp
    | cons k todo =>
      -- nobody has removed the key that was listed, so the lookup finds its word
      have hk : k ∈ t := by
        rw [AList.mem_keys, hkeys]
        exact List.mem_append_right _ List.mem_cons_self
      obtain ⟨raw, hraw⟩ := Option.isSome_iff_exists.mp (AList.lookup_isSome.mpr hk)
      have hage : AgeOk cfg m raw now :=
        hok (m, now, raw) (by simp [GcWorld.read?, hpc, ht, hraw])
      have hstep : gcAction cfg false s = { s with
          pc := .look m now todo (if gcExpired cfg m now raw then doomed ++ [k] else doomed) } := by
        simp only [gcAction, hpc, Bool.false_eq_true, if_false, ht, hraw]
      rw [hstep]
      refine .look (looked ++ [k]) todo _ rfl ht ?_ ?_
      · rw [hkeys, List.append_assoc]
        rfl
      · intro k' hk' raw' hraw' hexp
        rcases List.mem_append.mp hk' with hold | hnew
        · have hin := hlooked k' hold raw' hraw' hexp
          split
          · exact List.mem_append_left _ hin
          · exact hin
        · obtain rfl := List.mem_singleton.mp hnew
          obtain rfl := Option.some.inj (hraw.symm.trans hraw')
          rw [if_pos (gcExpired_of_xdpExpired cfg hage hexp)]
          exact List.mem_append_right _ (List.mem_singleton_self _)
  | delete doomed hpc hleft =>
    cases doomed with
    | nil =>
      have hstep : gcAction cfg false s = { s with pc := gcAfter m } := by
        simp only [gcAction, hpc]
      rw [hstep]
      refine .past (gcAfter_past m) fun k raw hraw => ⟨(hleft k raw hraw).1, fun hexp => ?_⟩
      exact List.not_mem_nil ((hleft k raw hraw).2 hexp)
    | cons k doomed =>
      have hstep : gcAction cfg false s = { s with
          ct := Function.update s.ct m ((s.ct m).erase k), pc := .delete m doomed } := by
        simp only [gcAction, hpc, Bool.false_eq_true, if_false]
      rw [hstep]
      refine .delete doomed rfl fun k' raw hraw => ?_
      by_cases hk : k' = k
      · subst hk
        simp only [Function.update_self, AList.lookup_erase] at hraw
        contradiction
      · simp only [Function.update_self, AList.lookup_erase_ne hk] at hraw
        obtain ⟨ht, hdoomed⟩ := hleft k' raw hraw
        exact ⟨ht, fun hexp => (List.mem_cons.mp (hdoomed hexp)).resolve_left hk⟩
  | past hpc hleft =>
    obtain ⟨hct, hpc'⟩ :
        (gcAction cfg false s).ct m = s.ct m ∧ _ := gc_past hpc
    exact .past hpc' (hct.symm ▸ hleft)

theorem leftAlone_run (events : List GcEvent) (hquiet : ∀ e ∈ events, e.Quiet)
    (h : LeftAlone cfg m now t s) (hok : Guarded (gcStep cfg) (GcStepOk cfg) s events) :
    LeftAlone cfg m now t (events.foldl (gcStep cfg) s) := by
  induction events generalizing s with
  | nil => exact h
  | cons e events ih =>
    refine ih (fun e' he' => hquiet e' (List.mem_cons_of_mem e he')) ?_ hok.2
    have he := hquiet e List.mem_cons_self
    cases e with
    | gc fails =>
      obtain rfl : fails = false := he
      exact leftAlone_gc h hok.1
    | write | remove => exact he.elim
    | tick u => exact leftAlone_tick u h

/-- A connection from 198.51.100.7 whose last packet was at 100 s. -/
def ctSample (raw : U64) : GcMap → BpfMap FlowKey U64
  | .tcp4 => AList.singleton (.v4 40000 443 0xC6336407 0xC0000201) raw
  | .tcp6 | .udp4 | .udp6 => ∅

end AutoXdp
