import AutoXdp.BlocklistRefresh
import AutoXdp.GuardedRun
import Mathlib.Tactic.Basic

/-! What a refresh of the blocklist unblocks when some of its feeds fail. -/
namespace AutoXdp.BlocklistFeeds
open StateSteps BpfRiskMaps GuardedRun

/-- No fetch of the source succeeds in this round. -/
def Failing (cfg : Config) (round : Round) (x : Text) : Prop :=
  x ∈ cfg.sources ∧ ∀ list, ¬Fetched cfg round x list

/-- An address that a source listed last and that is blocked stays so unless the source
now leaves it out, and no entry goes because its source failed. -/
structure Kept (ip : IpParsers) (cfg : Config) (f : Feed) (round : Round) : Prop where
  addresses : ∀ x ∈ cfg.sources, ∀ list, f.last x = some list → ∀ a, Lists ip list a →
    blocks f.risk.maps a = true → (∀ list', Fetched cfg round x list' → Lists ip list' a) →
    blocks (step ip cfg f round).risk.maps a = true
  entries : ∀ x, Failing cfg round x → ∀ list, f.last x = some list → ∀ text ∈ list, ∀ k,
    normalizeV4 ip [text] [] = .ok [k] → f.risk.maps.abuseipdb.lookup k ≠ none →
    (step ip cfg f round).risk.maps.abuseipdb.lookup k ≠ none

/-- A write of the replacement by `target` fails. -/
def WriteFails (target : List LpmKey) (s : RiskState) : Prop :=
  ∃ j ≤ (toStage target s).length + (toRemove target s).length, s.fault (s.log.length + j) = true

/-- What the failing sources listed last is listed by the others, as far as it is blocked. -/
def OthersList (ip : IpParsers) (cfg : Config) (f : Feed) (round : Round) (ips : List Text) : Prop :=
  ∀ x, Failing cfg round x → ∀ list, f.last x = some list →
    (∀ a, Lists ip list a → blocks f.risk.maps a = true → Lists ip ips a) ∧
    ∀ text ∈ list, ∀ k, normalizeV4 ip [text] [] = .ok [k] →
      f.risk.maps.abuseipdb.lookup k ≠ none → ∃ text' ∈ ips, normalizeV4 ip [text'] [] = .ok [k]

/-- The refresh does not come to replace anything, or it replaces by a list that has all
that the failing sources hold. -/
def Spares (ip : IpParsers) (cfg : Config) (f : Feed) (round : Round) : Prop :=
  ∀ ips, collect round cfg.baseUrl 0 cfg.sources [] = some ips → ips ≠ [] →
    ∀ target, normalizeV4 ip ips [] = .ok target → ¬WriteFails target f.risk →
      OthersList ip cfg f round ips

/-- No write of a rollback fails. -/
def RollsBack (ip : IpParsers) (cfg : Config) (f : Feed) (round : Round) : Prop :=
  ∀ ips, collect round cfg.baseUrl 0 cfg.sources [] = some ips → RollbackSucceeds ip ips f.risk

variable {ip : IpParsers} {cfg : Config} {f : Feed} {round : Round}

/-- A replacement raises exactly if one of its writes fails. -/
theorem replaceWith_raises (target : List LpmKey) (s : RiskState) (hs : s.Mirrored)
    (hread : ∀ i, s.readFault i = false) (htarget : ∀ k ∈ target, k.IsNetwork) :
    (∃ raised, (replaceWith target s).1 = .error raised) ↔ WriteFails target s := by
  have hcases := replaceWith_cases target s hs hread htarget
  generalize (replaceWith target s).1 = outcome, (replaceWith target s).2 = r at hcases
  cases hcases with
  | returned e h hactive =>
    refine iff_of_false (fun ⟨_, hraised⟩ => nomatch hraised) ?_
    rintro ⟨j, hj, hfault⟩
    have hreads : ∀ i, e.readFault i = false := by
      rw [h.kernel.2]
      exact hread
    have hlast := (setActive_activated _ e hreads hactive).fault
    rw [h.kernel.1, h.calls] at hlast
    rcases Nat.lt_or_eq_of_le hj with hlt | rfl
    · rw [h.unfailed j hlt] at hfault
      exact Bool.false_ne_true hfault
    · rw [hlast] at hfault
      exact Bool.false_ne_true hfault
  | raised added removed raised e u h hstop hu =>
    refine iff_of_true ⟨raised, rfl⟩ ⟨added.length + removed.length, ?_, ?_⟩
    · have hadded := congrArg List.length h.inStage
      have hremoved := congrArg List.length h.inRemove
      rw [List.length_take] at hadded hremoved
      omega
    · rw [← h.calls, ← h.kernel.1]
      exact hstop.fault

/-- The ways through a refresh. -/
inductive Refreshed (ip : IpParsers) (cfg : Config) (f : Feed) (round : Round) : RiskState → Prop
  | kept (e : RiskState) (h : Restored f.risk e) (hspares : Spares ip cfg f round) :
      Refreshed ip cfg f round e
  | replaced (ips : List Text) (target : List LpmKey) (e : RiskState)
      (hcollect : collect round cfg.baseUrl 0 cfg.sources [] = some ips) (hne : ips ≠ [])
      (htarget : normalizeV4 ip ips [] = .ok target) (hwrites : ¬WriteFails target f.risk)
      (hnetworks : ∀ k ∈ target, k.IsNetwork) (h : Replaced target e) : Refreshed ip cfg f round e

theorem restored_refl (s : RiskState) : Restored s s := ⟨fun _ => rfl, fun _ => Iff.rfl, rfl, rfl⟩

theorem refresh_cases (hs : f.risk.Mirrored) (hread : ∀ i, f.risk.readFault i = false)
    (hroll : RollsBack ip cfg f round) :
    Refreshed ip cfg f round (step ip cfg f round).risk := by
  unfold step refresh
  cases hcollect : collect round cfg.baseUrl 0 cfg.sources [] with
  | none =>
    refine .kept _ (restored_refl _) fun ips hips => ?_
    exact absurd (hcollect.symm.trans hips) (by rintro ⟨⟩)
  | some ips =>
    cases ips with
    | nil =>
      refine .kept _ (restored_refl _) fun ips hips hne => ?_
      exact absurd (Option.some.inj (hcollect.symm.trans hips)).symm hne
    | cons first rest =>
      have hne : first :: rest ≠ [] := List.cons_ne_nil first rest
      change Refreshed ip cfg f round (replaceAll ip (first :: rest) f.risk).2
      generalize first :: rest = ips at hcollect hne ⊢
      have hunique : ∀ ips', collect round cfg.baseUrl 0 cfg.sources [] = some ips' → ips = ips' :=
        fun ips' h => Option.some.inj (hcollect.symm.trans h)
      cases htarget : normalizeV4 ip ips [] with
      | error raised =>
        have hraised := congrArg Prod.fst (replaceAll_unparsed htarget f.risk)
        have hrestored := replaceAll_restored ip ips f.risk hs hread hraised (hroll ips hcollect)
        refine .kept _ hrestored ?_
        rintro ips' hips' - target htarget'
        obtain rfl := hunique ips' hips'
        exact absurd (htarget.symm.trans htarget') (by rintro ⟨⟩)
      | ok target =>
        have hnetworks := normalizeV4_networks ip ips [] target htarget (by simp)
        have hiff := replaceWith_raises target f.risk hs hread hnetworks
        rw [← replaceAll_parsed htarget] at hiff
        cases houtcome : (replaceAll ip ips f.risk).1 with
        | error raised =>
          have hrestored := replaceAll_restored ip ips f.risk hs hread houtcome
            (hroll ips hcollect)
          refine .kept _ hrestored ?_
          rintro ips' hips' - target' htarget' hwrites
          obtain rfl := hunique ips' hips'
          obtain rfl := Except.ok.inj (htarget.symm.trans htarget')
          exact absurd (hiff.mp ⟨raised, houtcome⟩) hwrites
        | ok n =>
          obtain ⟨target', htarget', hreplaced⟩ := replaceAll_replaced ip ips f.risk hs hread houtcome
          obtain rfl := Except.ok.inj (htarget.symm.trans htarget')
          refine .replaced ips target _ hcollect hne htarget (fun hwrites => ?_) hnetworks hreplaced
          obtain ⟨raised, hraised⟩ := hiff.mpr hwrites
          exact absurd (houtcome.symm.trans hraised) (by rintro ⟨⟩)

theorem blocks_restored {s e : RiskState} (hs : s.Mirrored) (h : Restored s e) (a : U32) :
    blocks e.maps a = blocks s.maps a := by
  have hshows : Shows s.cache e.maps := ⟨fun k => (h.trie k).trans (hs.entries k), hs.networks⟩
  rw [Bool.eq_iff_iff, blocks_iff hshows, blocks_iff hs, h.active]

theorem blocks_replaced {target : List LpmKey} {e : RiskState} (h : Replaced target e)
    (hnetworks : ∀ k ∈ target, k.IsNetwork) (a : U32) :
    blocks e.maps a = true ↔ Covered target a := by
  rw [blocks_iff ⟨h.trie, hnetworks⟩, h.active]
  refine and_iff_right_of_imp ?_
  rintro ⟨k, hk, -⟩
  exact List.ne_nil_of_mem hk

/-- One refresh keeps what it ought to exactly if it spares the failing sources. -/
theorem kept_iff (hs : f.risk.Mirrored) (hread : ∀ i, f.risk.readFault i = false)
    (hroll : RollsBack ip cfg f round) : Kept ip cfg f round ↔ Spares ip cfg f round := by
  have hcases := refresh_cases hs hread hroll
  generalize hstep : (step ip cfg f round).risk = e at hcases
  cases hcases with
  | kept _ h hspares =>
    refine iff_of_true ⟨?_, ?_⟩ hspares
    · intro x hx list hlist a ha hblocked hnew
      rw [hstep, blocks_restored hs h]
      exact hblocked
    · intro x hx list hlist text ht k hk hlookup
      rwa [hstep, h.trie k]
  | replaced ips target _ hcollect hne htarget hwrites hnetworks h =>
    have hin (k : LpmKey) : e.maps.abuseipdb.lookup k ≠ none ↔
        ∃ text ∈ ips, normalizeV4 ip [text] [] = .ok [k] := by
      rw [h.trie k, ← (mem_normalizeV4 htarget k).trans (or_iff_right List.not_mem_nil)]
      split_ifs with hk
      · exact iff_of_true nofun hk
      · exact iff_of_false (fun hno => hno rfl) hk
    have hnow (a : U32) : blocks e.maps a = true ↔ Lists ip ips a :=
      (blocks_replaced h hnetworks a).trans (covered_iff htarget a)
    constructor
    · intro hkept ips' hips' _ target' _ _
      obtain rfl := Option.some.inj (hcollect.symm.trans hips')
      intro x hx list hlist
      refine ⟨fun a ha hblocked => ?_, fun text ht k hk hlookup => ?_⟩
      · rw [← hnow a, ← hstep]
        exact hkept.addresses x hx.1 list hlist a ha hblocked
          fun list' hlist' => absurd hlist' (hx.2 list')
      · rw [← hin k, ← hstep]
        exact hkept.entries x hx list hlist text ht k hk hlookup
    · intro hspares
      have hothers := hspares ips hcollect hne target htarget hwrites
      refine ⟨?_, ?_⟩
      · intro x hx list hlist a ha hblocked hnew
        rw [hstep, hnow a]
        by_cases hfailing : ∀ list, ¬Fetched cfg round x list
        · exact (hothers x ⟨hx, hfailing⟩ list hlist).1 a ha hblocked
        · obtain ⟨list', hlist'⟩ := not_forall_not.mp hfailing
          exact lists_of_fetched hcollect hlist' (hnew list' hlist')
      · intro x hx list hlist text ht k hk hlookup
        rw [hstep, hin k]
        exact (hothers x hx list hlist).2 text ht k hk hlookup

/-- A refresh leaves the wrapper in step with the trie, and lookups without faults. -/
theorem step_mirrored (hs : f.risk.Mirrored) (hread : ∀ i, f.risk.readFault i = false) :
    (step ip cfg f round).risk.Mirrored ∧
      ∀ i, (step ip cfg f round).risk.readFault i = false := by
  have hkeep {P : RiskState → Prop} (hP : WritesKeep P) (hf : P f.risk) :
      P (step ip cfg f round).risk := by
    unfold step refresh
    cases collect round cfg.baseUrl 0 cfg.sources [] with
    | none => exact hf
    | some ips =>
      cases ips with
      | nil => exact hf
      | cons first rest => exact replaceAll_keeps hP ip _ f.risk hf hs.networks
  refine ⟨hkeep mirrored_keeps hs, fun i => ?_⟩
  rw [(hkeep (kernel_keeps f.risk) ⟨rfl, rfl⟩).2]
  exact hread i

/-- Over any history of refreshes a failing feed unblocks nothing exactly if every refresh
spares the failing sources. -/
theorem failing_feed_kept_iff (ip : IpParsers) (cfg : Config) (f : Feed) (rounds : List Round)
    (hs : f.risk.Mirrored) (hread : ∀ i, f.risk.readFault i = false)
    (hroll : Guarded (step ip cfg) (RollsBack ip cfg) f rounds) :
    Guarded (step ip cfg) (Kept ip cfg) f rounds ↔
      Guarded (step ip cfg) (Spares ip cfg) f rounds := by
  induction rounds generalizing f with
  | nil => rfl
  | cons round rounds ih =>
    obtain ⟨hs', hread'⟩ : (step ip cfg f round).risk.Mirrored ∧
        ∀ i, (step ip cfg f round).risk.readFault i = false := step_mirrored hs hread
    exact and_congr (kept_iff hs hread hroll.1) (ih _ hs' hread' hroll.2)

/-! Two feeds. -/

/-- `ipaddress` on the two addresses that the feeds list. -/
def twoAddresses : IpParsers where
  ipv4Network text :=
    if text = "203.0.113.9/32".toList then some (0xcb007109, 32)
    else if text = "198.51.100.7/32".toList then some (0xc6336407, 32) else none
  ipv6Network _ := false

def twoFeeds : Config := ⟨"https://feeds.example".toList, ["s1001d".toList, "s1007d".toList]⟩

/-- Both feeds answer, the second one without an address. -/
def firstLists : Round := fun i _ => .body (if i = 0 then "203.0.113.9 # US".toList else [])

/-- Only the second one answers. -/
def firstFails : Round := fun i _ => if i = 0 then .failed else .body "198.51.100.7".toList

/-- Neither does. -/
def bothFail : Round := fun _ _ => .failed

theorem empty_mirrored : ({} : RiskState).Mirrored := ⟨fun _ => rfl, fun _ hk => absurd hk nofun⟩

theorem collect_firstLists : collect firstLists twoFeeds.baseUrl 0 twoFeeds.sources [] =
    some ["203.0.113.9".toList] := by decide +kernel

theorem rollsBack_firstLists : RollsBack twoAddresses twoFeeds ⟨{}, fun _ => none⟩ firstLists := by
  intro ips hips target htarget
  obtain rfl := Option.some.inj (collect_firstLists.symm.trans hips)
  have hnetworks : normalizeV4 twoAddresses ["203.0.113.9".toList] [] =
      .ok [⟨32, .v4 0xcb007109⟩] := by decide +kernel
  obtain rfl := Except.ok.inj (hnetworks.symm.trans htarget)
  decide +kernel

/-- When both feeds fail at once nothing is unblocked. -/
theorem failing_feed_kept_both :
    Guarded (step twoAddresses twoFeeds) (Kept twoAddresses twoFeeds) ⟨{}, fun _ => none⟩
      [firstLists, bothFail] := by
  have hnone : collect bothFail twoFeeds.baseUrl 0 twoFeeds.sources [] = some [] := by
    decide +kernel
  refine (failing_feed_kept_iff twoAddresses twoFeeds ⟨{}, fun _ => none⟩ [firstLists, bothFail]
    empty_mirrored (fun _ => rfl) ⟨rollsBack_firstLists, ?_, trivial⟩).mpr ⟨?_, ?_, trivial⟩
  · intro ips hips target htarget
    obtain rfl := Option.some.inj (hnone.symm.trans hips)
    obtain rfl : target = [] := (Except.ok.inj htarget).symm
    decide +kernel
  · intro ips _ _ target _ _ x _ list hlist
    exact absurd hlist nofun
  · intro ips hips hne
    exact absurd (Option.some.inj (hnone.symm.trans hips)).symm hne

/-- When the first one fails alone the address that it lists is unblocked. -/
theorem failing_feed_unblocks : ¬∀ (ip : IpParsers) (cfg : Config) (f : Feed) (rounds : List Round),
    f.risk.Mirrored → (∀ i, f.risk.readFault i = false) → (∀ i, f.risk.fault i = false) →
    Guarded (step ip cfg) (Kept ip cfg) f rounds := by
  intro h
  obtain ⟨-, hkept, -⟩ := h twoAddresses twoFeeds ⟨{}, fun _ => none⟩ [firstLists, firstFails]
    empty_mirrored (fun _ => rfl) fun _ => rfl
  have hlast : (step twoAddresses twoFeeds ⟨{}, fun _ => none⟩ firstLists).last "s1001d".toList =
      some ["203.0.113.9".toList] := by decide +kernel
  have hlists : Lists twoAddresses ["203.0.113.9".toList] 0xcb007109 :=
    ⟨_, List.mem_singleton_self _, ⟨32, .v4 0xcb007109⟩, by decide +kernel, by decide +kernel⟩
  have hfetched (list : List Text) : ¬Fetched twoFeeds firstFails "s1001d".toList list := by
    rintro ⟨i, hi, hlist⟩
    match i with
    | 0 =>
      have hnone : succeeded (firstFails 0) twoFeeds.baseUrl "s1001d".toList = none := by
        decide +kernel
      exact absurd (hnone.symm.trans hlist) nofun
    | 1 => exact absurd hi (by decide +kernel)
    | i+2 => exact absurd hi nofun
  have hblocked := hkept.addresses "s1001d".toList (by decide +kernel) _ hlast 0xcb007109 hlists
    (by decide +kernel) fun list hlist => absurd hlist (hfetched list)
  exact absurd hblocked (by decide +kernel)

end AutoXdp.BlocklistFeeds
