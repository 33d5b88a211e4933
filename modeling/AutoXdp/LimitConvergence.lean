import AutoXdp.ClearingWrites
import AutoXdp.PolicyPort
import Mathlib.Tactic.Basic
import Mathlib.Tactic.FinCases

/-! Which limits of a port are the desired ones after one reconcile. The limits are written
one word at a time, and a write that leaves the first three zero erases the entry. -/
namespace AutoXdp
open StateSteps XdpBackend WordBytes ClearingWrites

/-- The words that erase the entry when they are all zero. -/
def keyWords : List (Fin 8) := [0, 1, 2]

theorem firstThreeZero_iff (fields : PolicyFields) :
    BpfPortPolicyViewMap.firstThreeZero fields = true ↔ Blank 0 keyWords fields := by
  simp only [BpfPortPolicyViewMap.firstThreeZero, Bool.and_eq_true, decide_eq_true_eq, Blank,
    keyWords, List.forall_mem_cons, List.not_mem_nil, false_implies, implies_true, and_true,
    and_assoc]

namespace PortEntry

/-- A word of the cached tuple; without one all are zero. -/
def word (e : PortEntry) (i : Fin 8) : U32 := (e.cached.map fun fields => fields i).getD 0

/-- The words of the entry, those of the prefixes aside. -/
def Words (e : PortEntry) (w : Fin 8 → U32) : Prop := ∀ i, i ≠ 3 → i ≠ 4 → e.word i = w i

theorem words_store (p : Proto) {fields w : PolicyFields}
    (h : ∀ i, i ≠ 3 → i ≠ 4 → fields i = w i) :
    Words (store p fields) (if Blank 0 keyWords w then fun _ => 0 else w) := by
  have hblank : BpfPortPolicyViewMap.firstThreeZero fields = true ↔ Blank 0 keyWords w := by
    rw [firstThreeZero_iff]
    apply forall₂_congr
    intro j hj
    have hprefix : j ≠ 3 ∧ j ≠ 4 := by
      revert j
      decide
    rw [h j hprefix.1 hprefix.2]
  intro i h3 h4
  unfold store
  by_cases hzero : Blank 0 keyWords w
  · rw [if_pos (hblank.mpr hzero), if_pos hzero]
    rfl
  · rw [if_neg (hblank.not.mpr hzero), if_neg hzero]
    exact h i h3 h4

theorem words_set (cfg : Config) {view : PolicyView} {e : PortEntry} {w : Fin 8 → U32}
    (h : Words e w) (rateMax : U32) :
    Words (set cfg view rateMax e) (put 0 keyWords w (view.index, some rateMax)) := by
  apply words_store
  intro i h3 h4
  have hfields : e.cached.getD (BpfPortPolicyViewMap.defaultFields cfg) i = w i := by
    rw [← h i h3 h4, word]
    cases e.cached with
    | some fields => rfl
    | none =>
      -- a new entry starts with no limit
      fin_cases i <;> first | rfl | exact absurd rfl h3 | exact absurd rfl h4
  rw [Function.update_apply, Function.update_apply, hfields]

theorem words_delete {view : PolicyView} {e : PortEntry} {w : Fin 8 → U32} (h : Words e w) :
    Words (delete view e) (put 0 keyWords w (view.index, some 0)) := by
  unfold delete
  cases he : e.cached with
  | some current =>
    apply words_store
    intro i h3 h4
    have hword := h i h3 h4
    rw [word, he] at hword
    rw [Function.update_apply, Function.update_apply, ← hword]
    rfl
  | none =>
    have hzero (i : Fin 8) (h3 : i ≠ 3) (h4 : i ≠ 4) : w i = 0 := by
      rw [← h i h3 h4, word, he]
      rfl
    have hblank : Blank 0 keyWords (Function.update w view.index 0) := by
      intro j hj
      have hprefix : j ≠ 3 ∧ j ≠ 4 := by
        revert j
        decide
      rw [Function.update_apply, hzero j hprefix.1 hprefix.2, ite_self]
    intro i h3 h4
    simp only [put]
    rw [if_pos hblank]
    rfl

/-- The word that the plan writes: a desired limit that is not shown, or zero for a limit
that is shown and not desired. -/
def plannedWord (shown want : Option U32) : Option U32 :=
  if shown.isSome && want.isNone then some 0 else want.filter fun v => shown ≠ some v

theorem words_delta (cfg : Config) {view : PolicyView} {e : PortEntry} {w : Fin 8 → U32}
    (h : Words e w) (shown want : Option U32) :
    Words (delta cfg view (want.filter fun v => shown ≠ some v) (shown.isSome && want.isNone) e)
      (put 0 keyWords w (view.index, plannedWord shown want)) := by
  unfold delta plannedWord
  cases want with
  | none =>
    cases shown with
    | none => exact h
    | some limit => exact words_delete h
  | some v =>
    simp only [Option.isNone_some, Bool.and_false, Bool.false_eq_true, if_false]
    cases hfilter : (some v).filter fun v => decide (shown ≠ some v) with
    | none => exact h
    | some v' => exact words_set cfg h v'

/-- The writes that the plan holds for a port. -/
def plannedWrites (q : U32) (shown : Fin 8 → Option U32) (wants : List (Fin 8 × BpfMap U32 U32)) :
    List (Fin 8 × Option U32) :=
  wants.map fun x => (x.1, plannedWord (shown x.1) (x.2.lookup q))

theorem words_settle (cfg : Config) (p : Proto) (q : U32) (shown : Fin 8 → Option U32)
    (wants : List (Fin 8 × BpfMap U32 U32)) {e : PortEntry} {w : Fin 8 → U32} (h : Words e w) :
    Words (settle cfg p q shown wants e) (run 0 keyWords w (plannedWrites q shown wants)) := by
  induction wants generalizing e w with
  | nil => exact h
  | cons x xs ih =>
    exact ih (@words_delta cfg ⟨p, x.1⟩ e w h (shown x.1) (x.2.lookup q))

theorem store_synced (p : Proto) (fields : PolicyFields) : Synced p (store p fields) := by
  unfold store
  split_ifs <;> rfl

theorem delta_synced (cfg : Config) {view : PolicyView} {e : PortEntry} (h : Synced view.proto e)
    (upsert : Option U32) (removed : Bool) : Synced view.proto (delta cfg view upsert removed e) := by
  have hdelete (e : PortEntry) : Synced view.proto (delete view e) := by
    unfold delete
    cases e.cached with
    | none => rfl
    | some current => exact store_synced ..
  unfold delta
  cases removed with
  | true => exact hdelete _
  | false =>
    cases upsert with
    | none => exact h
    | some v => exact store_synced ..

theorem settle_synced (cfg : Config) (p : Proto) (q : U32) (shown : Fin 8 → Option U32)
    (wants : List (Fin 8 × BpfMap U32 U32)) {e : PortEntry} (h : Synced p e) :
    Synced p (settle cfg p q shown wants e) := by
  induction wants generalizing e with
  | nil => exact h
  | cons x xs ih => exact ih (@delta_synced cfg ⟨p, x.1⟩ e h _ _)

end PortEntry

open PortEntry

theorem limitWords_prefix {p : Proto} {i : Fin 8} (hi : i ∈ limitWords p) : i ≠ 3 ∧ i ≠ 4 := by
  revert i
  cases p <;> decide

/-- What the kernel holds for a port is what the cache says. -/
theorem kernelLimit_word {d : Daemon} {p : Proto} {q : U32} (h : Synced p (portEntry p q d))
    {i : Fin 8} (hi : i ∈ limitWords p) :
    kernelLimit d.maps p i q = (portEntry p q d).word i := by
  have hstored : (d.maps.portPolicies p).lookup q = _ := h
  rw [kernelLimit, word, hstored, Option.map_map]
  congr 2
  funext fields
  exact wordAt_stored p fields i hi

/-- What is desired for a limit; a limit that is not listed is zero. -/
def desiredLimit (desired : DesiredState) (p : Proto) (i : Fin 8) (q : U32) : U32 :=
  (((desired.limits p).lookup i).bind fun limits => limits.lookup q).getD 0

/-- The plan writes the limit: it is not the desired one, or it is listed as zero, which
the cache never shows. -/
def Rewritten (desired : DesiredState) (m : Maps) (p : Proto) (i : Fin 8) (q : U32) : Prop :=
  kernelLimit m p i q ≠ desiredLimit desired p i q ∨
    ((desired.limits p).lookup i).bind (fun limits => limits.lookup q) = some 0

section Converged

variable (cfg : Config) (desired : DesiredState) {d : Daemon} {p : Proto}
  (hcache : PolicyCached d p) (hopen : d.opened (.policy p) = true)
  (hzero : (reconcile cfg desired false d).2.lastApplyFailures = 0)

/-- The writes planned for a port from the state `d`. -/
def portWrites (d : Daemon) (p : Proto) (q : U32) : List (Fin 8 × Option U32) :=
  plannedWrites q (fun i => shownLimit d ⟨p, i⟩ q) (desired.limits p)

include hcache hopen hzero in
theorem reconciled_limit (q : U32) {i : Fin 8} (hi : i ∈ limitWords p) :
    kernelLimit (reconcile cfg desired false d).2.maps p i q =
      run 0 keyWords (portEntry p q d).word (portWrites desired d p q) i := by
  obtain ⟨h3, h4⟩ := limitWords_prefix hi
  obtain ⟨e, hdone, hprefix⟩ := reconcile_entries cfg desired d p hopen hzero
  have hwords := words_settle cfg p q (fun i => shownLimit d ⟨p, i⟩ q) (desired.limits p)
    (e := portEntry p q d) (w := (portEntry p q d).word) fun _ _ _ => rfl
  have hsynced := settle_synced cfg p q (fun i => shownLimit d ⟨p, i⟩ q) (desired.limits p)
    (e := portEntry p q d) (hcache q)
  rw [← hdone q] at hwords hsynced
  rw [portWrites, ← hwords i h3 h4]
  obtain hsame | ⟨-, current, hcurrent, hwritten⟩ := hprefix q
  · rw [← hsame] at hsynced ⊢
    exact kernelLimit_word hsynced hi
  · have hafter : Synced p (portEntry p q (reconcile cfg desired false d).2) := by
      rw [hwritten]
      rfl
    rw [kernelLimit_word hafter hi, hwritten, word, word, hcurrent]
    simp only [written, Option.map_some, Option.getD_some, BpfPortPolicyMap.withPrefixes,
      Function.update_of_ne h4, Function.update_of_ne h3]

omit cfg in
include hcache in
/-- The cache shows the limit of the kernel, unless it is zero. -/
theorem shownLimit_kernel (q : U32) {i : Fin 8} (hi : i ∈ limitWords p) :
    shownLimit d ⟨p, i⟩ q =
      if kernelLimit d.maps p i q = 0 then none else some (kernelLimit d.maps p i q) := by
  rw [kernelLimit_word (hcache q) hi]
  unfold shownLimit word portEntry
  cases (d.policyCache p).lookup q with
  | none => rfl
  | some fields =>
    rw [Option.map_some, Option.getD_some, Option.filter_some]
    by_cases hzero : fields i = 0
    · rw [if_pos hzero, if_neg (by simpa using hzero)]
    · rw [if_neg hzero, if_pos (by simpa using hzero)]

/-- What the plan writes into a word that holds `current`. -/
theorem plannedWord_spec (current : U32) (want : Option U32) :
    let planned := plannedWord (if current = 0 then none else some current) want
    planned.getD current = want.getD 0 ∧
      (planned.isSome = true ↔ current ≠ want.getD 0 ∨ want = some 0) := by
  intro planned
  by_cases hcurrent : current = 0
  · subst hcurrent
    cases want with
    | none => exact ⟨rfl, by simp [planned, plannedWord]⟩
    | some v =>
      have hplanned : planned = some v := by simp [planned, plannedWord, Option.filter_some]
      rw [hplanned]
      refine ⟨rfl, iff_of_true rfl ?_⟩
      by_cases hv : v = 0
      · exact Or.inr (congrArg some hv)
      · exact Or.inl (Ne.symm hv)
  · have hshown : (if current = 0 then none else some current) = some current := if_neg hcurrent
    cases want with
    | none =>
      have hplanned : planned = some 0 := by simp only [planned, hshown]; rfl
      rw [hplanned]
      exact ⟨rfl, iff_of_true rfl (Or.inl hcurrent)⟩
    | some v =>
      by_cases hv : current = v
      · have hplanned : planned = none := by
          have hv0 : v ≠ 0 := hv ▸ hcurrent
          simpa [planned, plannedWord, Option.filter_some, hv] using hv0
        rw [hplanned]
        refine ⟨hv, iff_of_false Bool.false_ne_true ?_⟩
        rintro (h | h)
        · exact h hv
        · exact hcurrent (hv.trans (Option.some.inj h))
      · have hplanned : planned = some v := by
          simp [planned, plannedWord, Option.filter_some, hv]
        rw [hplanned]
        exact ⟨rfl, iff_of_true rfl (Or.inl hv)⟩

omit hcache in
theorem limits_lookup {x : Fin 8 × BpfMap U32 U32} (hx : x ∈ desired.limits p) :
    (desired.limits p).lookup x.1 = some x.2 := by
  cases p <;> simp only [DesiredState.limits, List.mem_cons, List.not_mem_nil, or_false] at hx
  · rcases hx with rfl | rfl | rfl | rfl | rfl <;> rfl
  · rcases hx with rfl | rfl <;> rfl

theorem portWrites_words (q : U32) :
    ((portWrites desired d p q).map Prod.fst).Pairwise (· < ·) := by
  have hwords : (portWrites desired d p q).map Prod.fst = limitWords p := by
    rw [portWrites, plannedWrites, List.map_map, ← limits_words desired p]
    rfl
  rw [hwords]
  cases p <;> decide

/-- The writes of a port: each makes the desired limit, and is there when it must be. -/
theorem portWrites_spec (hcache : PolicyCached d p) (q : U32) {x : Fin 8 × Option U32}
    (hx : x ∈ portWrites desired d p q) :
    x.1 ∈ limitWords p ∧ x.2.getD (kernelLimit d.maps p x.1 q) = desiredLimit desired p x.1 q ∧
      (x.2.isSome = true ↔ Rewritten desired d.maps p x.1 q) := by
  obtain ⟨y, hy, rfl⟩ := List.mem_map.mp hx
  have hword : y.1 ∈ limitWords p := by
    rw [← limits_words desired p]
    exact List.mem_map_of_mem hy
  have hspec := plannedWord_spec (kernelLimit d.maps p y.1 q) (y.2.lookup q)
  rw [← shownLimit_kernel hcache q hword] at hspec
  refine ⟨hword, ?_, ?_⟩
  · rw [desiredLimit, limits_lookup desired hy]
    exact hspec.1
  · rw [Rewritten, desiredLimit, limits_lookup desired hy]
    exact hspec.2

theorem mem_portWrites (q : U32) {i : Fin 8} (hi : i ∈ limitWords p) :
    ∃ x ∈ portWrites desired d p q, x.1 = i := by
  rw [← limits_words desired p] at hi
  obtain ⟨y, hy, rfl⟩ := List.mem_map.mp hi
  exact ⟨_, List.mem_map_of_mem hy, rfl⟩

/-- Were no entry erased, every limit would be the desired one. -/
theorem plainRun_desired (hcache : PolicyCached d p) (q : U32) {i : Fin 8}
    (hi : i ∈ limitWords p) :
    plainRun (portEntry p q d).word (portWrites desired d p q) i = desiredLimit desired p i q := by
  obtain ⟨x, hx, rfl⟩ := mem_portWrites desired (d := d) q hi
  have hnodup : ((portWrites desired d p q).map Prod.fst).Nodup :=
    (portWrites_words desired q).imp ne_of_lt
  obtain ⟨-, hvalue, -⟩ := portWrites_spec desired hcache q hx
  rw [← hvalue]
  cases hx2 : x.2 with
  | some v =>
    have hwritten : (x.1, some v) ∈ portWrites desired d p q := by
      rw [← hx2]
      exact hx
    exact plainRun_written _ hnodup hwritten
  | none =>
    rw [plainRun_other]
    · exact (kernelLimit_word (hcache q) hi).symm
    · intro y hy hsame
      rw [← hx2]
      exact congrArg Prod.snd (List.inj_on_of_nodup_map hnodup hy hx hsame)

include hcache hopen hzero

/-- One of the first three limits is always the desired one afterwards. -/
theorem key_converges (q : U32) {i : Fin 8} (hi : i ∈ limitWords p) (hkey : i ∈ keyWords) :
    kernelLimit (reconcile cfg desired false d).2.maps p i q = desiredLimit desired p i q := by
  rw [reconciled_limit cfg desired hcache hopen hzero q hi, run_key 0 _ _ hkey,
    plainRun_desired desired hcache q hi]

end Converged

section Tcp

variable (cfg : Config) (desired : DesiredState) {d : Daemon} (hcache : PolicyCached d .tcp)

include hcache

/-- A limit of a TCP port is lost when a write erases the entry and the limit is not
written after it. -/
theorem tcp_lost_iff (q : U32) {i : Fin 8} (hi : i ∈ limitWords .tcp) :
    Lost 0 keyWords (portEntry .tcp q d).word (portWrites desired d .tcp q) i ↔
      ∃ k ∈ limitWords .tcp, Rewritten desired d.maps .tcp k q ∧
        (∀ j ∈ keyWords, (if j ≤ k then desiredLimit desired .tcp j q
          else kernelLimit d.maps .tcp j q) = 0) ∧
        (Rewritten desired d.maps .tcp i q → i ≤ k) := by
  have hwords := portWrites_words desired (d := d) (p := .tcp) q
  have hnodup := hwords.imp ne_of_lt
  have hkeys (x : Fin 8) : (∀ j ∈ keyWords, (if j ≤ x
        then plainRun (portEntry .tcp q d).word (portWrites desired d .tcp q) j
        else (portEntry .tcp q d).word j) = 0) ↔
      ∀ j ∈ keyWords, (if j ≤ x then desiredLimit desired .tcp j q
        else kernelLimit d.maps .tcp j q) = 0 := by
    apply forall₂_congr
    intro j hj
    have hlimit : j ∈ limitWords .tcp := by
      revert j
      decide
    rw [plainRun_desired desired hcache q hlimit, kernelLimit_word (hcache q) hlimit]
  rw [lost_iff 0 keyWords hwords]
  obtain ⟨y, hy, rfl⟩ := mem_portWrites desired (d := d) q hi
  obtain ⟨-, -, hwritten⟩ := portWrites_spec desired hcache q hy
  constructor
  · rintro ⟨x, hx, hsome, hblank, hlast⟩
    obtain ⟨hxword, -, hxwritten⟩ := portWrites_spec desired hcache q hx
    refine ⟨x.1, hxword, hxwritten.mp hsome, (hkeys x.1).mp hblank, ?_⟩
    intro hrewritten
    by_contra hlt
    have hnone := hlast y hy rfl (not_le.mp hlt)
    rw [← hwritten, hnone] at hrewritten
    exact Bool.false_ne_true hrewritten
  · rintro ⟨k, hk, hrewritten, hblank, hlast⟩
    obtain ⟨x, hx, rfl⟩ := mem_portWrites desired (d := d) q hk
    obtain ⟨-, -, hxwritten⟩ := portWrites_spec desired hcache q hx
    refine ⟨x, hx, hxwritten.mpr hrewritten, (hkeys x.1).mpr hblank, ?_⟩
    intro z hz hsame hlt
    obtain rfl := List.inj_on_of_nodup_map hnodup hz hy hsame
    by_contra hsome
    exact absurd (hlast (hwritten.mp (Option.isSome_iff_ne_none.mpr hsome))) (not_le.mpr hlt)

end Tcp

section Converged

variable (cfg : Config) (desired : DesiredState) {d : Daemon}
  (hzero : (reconcile cfg desired false d).2.lastApplyFailures = 0) (q : U32) {i : Fin 8}

include hzero

theorem udp_converges (hcache : PolicyCached d .udp) (hopen : d.opened (.policy .udp) = true)
    (hi : i ∈ limitWords .udp) :
    kernelLimit (reconcile cfg desired false d).2.maps .udp i q =
      desiredLimit desired .udp i q := by
  apply key_converges cfg desired hcache hopen hzero q hi
  revert i
  decide

theorem tcp_converges_iff (hcache : PolicyCached d .tcp) (hopen : d.opened (.policy .tcp) = true)
    (hi : i ∈ limitWords .tcp) :
    kernelLimit (reconcile cfg desired false d).2.maps .tcp i q = desiredLimit desired .tcp i q ↔
      desiredLimit desired .tcp i q = 0 ∨
      ∀ k ∈ limitWords .tcp, Rewritten desired d.maps .tcp k q →
        (∀ j ∈ keyWords, (if j ≤ k then desiredLimit desired .tcp j q
          else kernelLimit d.maps .tcp j q) = 0) →
        Rewritten desired d.maps .tcp i q ∧ k < i := by
  rw [reconciled_limit cfg desired hcache hopen hzero q hi,
    ← plainRun_desired desired hcache q hi, run_eq_plain_iff, tcp_lost_iff desired hcache q hi]
  apply or_congr_right
  push Not
  rfl

/-- With a SYN rate desired no write erases the entry. -/
theorem rated_converges (hcache : PolicyCached d .tcp) (hopen : d.opened (.policy .tcp) = true)
    (hrate : desiredLimit desired .tcp 0 q ≠ 0) (hi : i ∈ limitWords .tcp) :
    kernelLimit (reconcile cfg desired false d).2.maps .tcp i q =
      desiredLimit desired .tcp i q := by
  apply (tcp_converges_iff cfg desired hzero q hcache hopen hi).mpr
  right
  intro k _ _ hblank
  have hfirst := hblank 0 (by decide)
  rw [if_pos (Fin.zero_le k)] at hfirst
  exact absurd hfirst hrate

end Converged

/-- A reconcile that counts no failure makes both limits of every UDP port the desired
ones. A limit of a TCP port becomes the desired one exactly when that is zero, or when the
limit is written after every write that erases the entry: one of the planned writes that
leaves the first three limits, new up to that write and old beyond it, all zero. -/
theorem limits_converge (cfg : Config) (desired : DesiredState) {d : Daemon}
    (hcache : ∀ p, PolicyCached d p) (hopen : ∀ p, d.opened (.policy p) = true)
    (hzero : (reconcile cfg desired false d).2.lastApplyFailures = 0) (q : U32) :
    (∀ i ∈ limitWords .udp, kernelLimit (reconcile cfg desired false d).2.maps .udp i q =
      desiredLimit desired .udp i q) ∧
    ∀ i ∈ limitWords .tcp, (kernelLimit (reconcile cfg desired false d).2.maps .tcp i q =
        desiredLimit desired .tcp i q ↔
      desiredLimit desired .tcp i q = 0 ∨
      ∀ k ∈ limitWords .tcp, Rewritten desired d.maps .tcp k q →
        (∀ j ∈ keyWords, (if j ≤ k then desiredLimit desired .tcp j q
          else kernelLimit d.maps .tcp j q) = 0) →
        Rewritten desired d.maps .tcp i q ∧ k < i) := by
  constructor
  · intro i hi
    exact udp_converges cfg desired hzero q (hcache .udp) (hopen .udp) hi
  · intro i hi
    exact tcp_converges_iff cfg desired hzero q (hcache .tcp) (hopen .tcp) hi

/-- A port with a connection limit for its source prefixes and no other limit. -/
def prefixOnly : DesiredState := { tcpConnPrefixLimits := [⟨443, 7⟩].toAList }

theorem limits_converge_prefix :
    kernelLimit (reconcile {} prefixOnly false {}).2.maps .tcp 5 443 ≠
      desiredLimit prefixOnly .tcp 5 443 := by
  have hconverge := (limits_converge {} prefixOnly fresh_cachesMatch.policies
    (fun _ => rfl) rfl 443).2 5 (by decide)
  have hseven : desiredLimit prefixOnly .tcp 5 443 = 7 := rfl
  have hnone : kernelLimit ({} : Daemon).maps .tcp 5 443 = 0 := rfl
  rw [ne_eq, hconverge]
  rintro (hzero | hkept)
  · rw [hseven] at hzero
    exact absurd hzero (by decide)
  · have hrewritten : Rewritten prefixOnly ({} : Daemon).maps .tcp 5 443 := by
      rw [Rewritten, hseven, hnone]
      exact Or.inl (by decide)
    have herased := hkept 5 (by decide) hrewritten fun j hj => by
      obtain rfl | rfl | rfl : j = 0 ∨ j = 1 ∨ j = 2 := by
        revert j
        decide
      all_goals rfl
    exact absurd herased.2 (lt_irrefl 5)

end AutoXdp
