import AutoXdp.NftScript
import Mathlib.Data.Int.ConditionallyCompleteOrder
import Mathlib.Tactic.Basic

/-! What an equal signature says about the rendered script. -/
namespace AutoXdp.NftScript

/-! Equal signatures. -/

theorem mem_sortedItems {κ ν : Type} [LinearOrder κ] (d : Dict κ ν) (k : κ) (v : ν) :
    (k, v) ∈ d.sortedItems ↔ d.lookup k = some v := by
  simp only [Dict.sortedItems, List.mem_filterMap, Finset.mem_sort, Option.map_eq_some_iff,
    Prod.mk.injEq]
  constructor
  · rintro ⟨k, -, v, hv, rfl, rfl⟩
    exact hv
  · intro h
    exact ⟨k, Finmap.mem_keys.mpr (Finmap.mem_of_lookup_eq_some h), v, h, rfl, rfl⟩

theorem sortedItems_injective {κ ν : Type} [LinearOrder κ] :
    Function.Injective (Dict.sortedItems : Dict κ ν → List (κ × ν)) := by
  intro d d' h
  apply Finmap.ext_lookup
  intro k
  apply Option.ext
  intro v
  rw [← mem_sortedItems, ← mem_sortedItems, h]

theorem sort_injective : Function.Injective fun s : Finset ℤ => s.sort := by
  intro s s' h
  have hs := congrArg List.toFinset h
  simp only [Finset.sort_toFinset] at hs
  exact hs

/-- The signature determines everything but the two ICMP settings. -/
theorem eq_of_signature {cfg cfg' : Globals} {desired desired' : DesiredState}
    (h : policySignature cfg desired = policySignature cfg' desired') :
    desired = desired' ∧ ∃ pps burst,
      cfg' = { cfg with xdpIcmpRatePps := pps, xdpIcmpBurstPackets := burst } := by
  have hacl : desired.aclRules = desired'.aclRules := by
    have hmap := congrArg PolicySignature.aclRules h
    apply sortedItems_injective
    refine List.map_injective_iff.mpr ?_ hmap
    intro e e' he
    obtain ⟨hkey, hports⟩ := Prod.mk.inj he
    exact Prod.ext hkey (sort_injective hports)
  have hlimits {f : DesiredState → Dict ℤ ℤ} {g : PolicySignature → List (ℤ × ℤ)}
      (hg : ∀ cfg desired, g (policySignature cfg desired) = (f desired).sortedItems) :
      f desired = f desired' := by
    apply sortedItems_injective
    rw [← hg cfg, ← hg cfg', h]
  refine ⟨?_, cfg'.xdpIcmpRatePps, cfg'.xdpIcmpBurstPackets, ?_⟩
  · cases desired
    cases desired'
    rw [DesiredState.mk.injEq]
    exact ⟨congrArg (·.tcpPorts) h, congrArg (·.udpPorts) h, congrArg (·.sctpPorts) h,
      congrArg (·.trustedCidrs) h,
      hlimits (f := (·.tcpSynRateLimits)) (g := (·.tcpSynRateLimits)) fun _ _ => rfl,
      hlimits (f := (·.tcpSynAggRateLimits)) (g := (·.tcpSynAggRateLimits)) fun _ _ => rfl,
      hlimits (f := (·.tcpConnLimits)) (g := (·.tcpConnLimits)) fun _ _ => rfl,
      hlimits (f := (·.tcpConnPrefixLimits)) (g := (·.tcpConnPrefixLimits)) fun _ _ => rfl,
      hlimits (f := (·.tcpConnPortLimits)) (g := (·.tcpConnPortLimits)) fun _ _ => rfl,
      hlimits (f := (·.udpRateLimits)) (g := (·.udpRateLimits)) fun _ _ => rfl,
      hlimits (f := (·.udpAggRateLimits)) (g := (·.udpAggRateLimits)) fun _ _ => rfl, hacl,
      congrArg (·.bogonFilterEnabled) h, congrArg (·.dropEventsEnabled) h,
      congrArg (·.rateLimitSourcePrefixV4) h, congrArg (·.rateLimitSourcePrefixV6) h,
      congrArg (·.udpGlobalByteRate) h⟩
  · have hfamily : cfg'.nftFamily = cfg.nftFamily := congrArg PolicySignature.nftFamily h.symm
    have htable : cfg'.nftTable = cfg.nftTable := congrArg PolicySignature.nftTable h.symm
    have hsit : cfg'.sit4Endpoints = cfg.sit4Endpoints :=
      congrArg PolicySignature.sit4Endpoints h.symm
    have hslot : cfg'.slotDefaultAction = cfg.slotDefaultAction :=
      congrArg PolicySignature.slotDefaultAction h.symm
    rw [← hfamily, ← htable, ← hsit, ← hslot]

/-! The characters of a chain. -/

/-- The characters of some lines, each with its end. -/
def lineChars (lines : List String) : List Char := lines.flatMap fun l => l.toList ++ ['\n']

@[simp] theorem lineChars_nil : lineChars [] = [] := rfl

@[simp] theorem lineChars_cons (line : String) (lines : List String) :
    lineChars (line :: lines) = line.toList ++ '\n' :: lineChars lines := by
  rw [lineChars, List.flatMap_cons, List.append_assoc]
  rfl

@[simp] theorem lineChars_append (lines lines' : List String) :
    lineChars (lines ++ lines') = lineChars lines ++ lineChars lines' := List.flatMap_append

theorem toList_chain (lines : List String) (h : lines ≠ []) :
    ("\n".intercalate lines).toList ++ ['\n'] = lineChars lines := by
  induction lines with
  | nil => exact absurd rfl h
  | cons line lines ih =>
    cases lines with
    | nil => rw [String.intercalate_singleton, lineChars_cons, lineChars_nil]
    | cons line' lines =>
      rw [String.intercalate_cons_cons, String.toList_append, String.toList_append,
        lineChars_cons, List.append_assoc, List.append_assoc, ih (List.cons_ne_nil _ _)]
      rfl

/-- Two numbers up to the same character that is no digit, and what follows them. -/
theorem digits_cut {m n : ℕ} {c : Char} {x y : List Char} (hc : c.isDigit = false)
    (h : (toString m).toList ++ c :: x = (toString n).toList ++ c :: y) : m = n ∧ x = y := by
  have hdigits (n : ℕ) : ∀ d ∈ (toString n).toList, d ≠ c := by
    intro d hd hdc
    have hdigit : d.isDigit = true := by
      rw [Nat.toString_eq_repr, Nat.toList_repr] at hd
      exact Nat.isDigit_of_mem_toDigits (by decide) (by decide) hd
    rw [hdc, hc] at hdigit
    exact Bool.false_ne_true hdigit
  have hcut {l l' : List Char} (hl : ∀ d ∈ l, d ≠ c) (hl' : ∀ d ∈ l', d ≠ c)
      (h : l ++ c :: x = l' ++ c :: y) : l = l' ∧ x = y := by
    induction l generalizing l' with
    | nil =>
      cases l' with
      | nil => exact ⟨rfl, (List.cons.inj h).2⟩
      | cons d l' => exact absurd (List.cons.inj h).1.symm (hl' d (List.mem_cons_self ..))
    | cons d l ih =>
      cases l' with
      | nil => exact absurd (List.cons.inj h).1 (hl d (List.mem_cons_self ..))
      | cons d' l' =>
        obtain ⟨hd, hrest⟩ := List.cons.inj h
        obtain ⟨hll, hxy⟩ := ih (fun e he => hl e (List.mem_cons_of_mem d he))
          (fun e he => hl' e (List.mem_cons_of_mem d' he)) hrest
        exact ⟨by rw [hd, hll], hxy⟩
  obtain ⟨hmn, hxy⟩ := hcut (hdigits m) (hdigits n) h
  rw [Nat.toString_eq_repr, Nat.toString_eq_repr, Nat.toList_repr, Nat.toList_repr] at hmn
  refine ⟨?_, hxy⟩
  calc m = Nat.ofDigitChars 10 (Nat.toDigits 10 m) 0 :=
        (Nat.ofDigitChars_toDigits (by decide) (by decide)).symm
    _ = Nat.ofDigitChars 10 (Nat.toDigits 10 n) 0 := by rw [hmn]
    _ = n := Nat.ofDigitChars_toDigits (by decide) (by decide)

/-! The ICMP rules. -/

/-- The limit on echo requests that the chain shows: none without a family. -/
def limitShown (cfg : Globals) (r b : ℕ) : Option (ℕ × ℕ) :=
  if (familyFlag cfg .ipv4 || familyFlag cfg .ipv6) && r ≠ 0 then some (r, b) else none

/-- The same of the settings; `none` where the rate raises. -/
def icmpShown (cfg : Globals) : Option (Option (ℕ × ℕ)) :=
  (icmpRate cfg.xdpIcmpRatePps).map fun r => limitShown cfg r (icmpBurst cfg)

/-- The echo limit up to its rate. -/
def echoHead : IpFamily → String
  | .ipv4 => "        ip protocol icmp icmp type echo-request limit rate over "
  | .ipv6 => "        meta l4proto ipv6-icmp icmpv6 type echo-request limit rate over "

theorem toString_text (s : String) : toString s = s := rfl

theorem echoRule_chars (fam : IpFamily) (r b : ℕ) (hr : r ≠ 0) :
    lineChars (echoRule fam r b) = (echoHead fam).toList ++ ((toString r).toList ++
      '/' :: ("second burst ".toList ++ ((toString b).toList ++
        ' ' :: ("packets counter drop".toList ++ ['\n'])))) := by
  cases fam <;> simp [echoRule, lineIf, hr, echoHead, toString_text]

theorem echoRule_zero (fam : IpFamily) (b : ℕ) : echoRule fam 0 b = [] := rfl

/-- Two limits, whatever follows them. -/
theorem echoRule_cut {fam : IpFamily} {r r' b b' : ℕ} {x x' : List Char}
    (h : lineChars (echoRule fam r b) ++ x = lineChars (echoRule fam r' b') ++ x')
    (hr : r ≠ 0) (hr' : r' ≠ 0) : r = r' ∧ b = b' := by
  rw [echoRule_chars fam r b hr, echoRule_chars fam r' b' hr'] at h
  simp only [List.append_assoc, List.cons_append] at h
  obtain ⟨hrate, hrest⟩ := digits_cut (by decide) (List.append_cancel_left h)
  exact ⟨hrate, (digits_cut (by decide) (List.append_cancel_left hrest)).1⟩

/-- A limit is one line longer than no limit. -/
theorem echoRule_length (fam : IpFamily) {r : ℕ} (b : ℕ) (hr : r ≠ 0) :
    0 < (lineChars (echoRule fam r b)).length := by
  rw [echoRule_chars fam r b hr, List.length_append]
  cases fam <;> exact Nat.add_pos_left (by decide) _

/-- The rules of one family around its limit. -/
theorem icmpRules_chars (cfg : Globals) : ∃ head tail : IpFamily → List Char, ∀ r b,
    lineChars (icmpRules cfg r b) =
      (if familyFlag cfg .ipv4 then head .ipv4 ++ (lineChars (echoRule .ipv4 r b) ++ tail .ipv4)
        else []) ++
      (if familyFlag cfg .ipv6 then head .ipv6 ++ (lineChars (echoRule .ipv6 r b) ++ tail .ipv6)
        else []) := by
  refine ⟨fun fam => match fam with
    | .ipv4 => lineChars ["        ip protocol icmp icmp type \x7b destination-unreachable, " ++
        "time-exceeded, parameter-problem \x7d counter accept",
      s!"        ip saddr @{nftTrustedSet4} ip protocol icmp counter accept"]
    | .ipv6 => lineChars
      [s!"        ip6 saddr @{nftTrustedSet6} meta l4proto ipv6-icmp counter accept"],
    fun fam => match fam with
    | .ipv4 => lineChars ["        ip protocol icmp counter accept"]
    | .ipv6 => lineChars ["        meta l4proto ipv6-icmp counter accept"], ?_⟩
  intro r b
  unfold icmpRules forFamily
  rw [lineChars_append]
  congr 1
  all_goals
    split
    · rw [lineChars_append, lineChars_append, List.append_assoc]
    · rfl

theorem limitShown_zero (cfg : Globals) (b : ℕ) : limitShown cfg 0 b = none := by
  simp only [limitShown, ne_eq, not_true_eq_false, decide_false, Bool.and_false,
    Bool.false_eq_true, ↓reduceIte]

theorem limitShown_some (cfg : Globals) {r : ℕ} (b : ℕ) (hr : r ≠ 0)
    (hflag : (familyFlag cfg .ipv4 || familyFlag cfg .ipv6) = true) :
    limitShown cfg r b = some (r, b) := by
  rw [limitShown, hflag, Bool.true_and, if_pos (decide_eq_true hr)]

/-- The rules with a limit are longer than those without. -/
theorem icmpRules_longer (cfg : Globals) {r : ℕ} (b b' : ℕ) (hr : r ≠ 0)
    (hflag : (familyFlag cfg .ipv4 || familyFlag cfg .ipv6) = true) :
    lineChars (icmpRules cfg r b) ≠ lineChars (icmpRules cfg 0 b') := by
  obtain ⟨head, tail, hchars⟩ := icmpRules_chars cfg
  have hpos4 := echoRule_length .ipv4 b hr
  have hpos6 := echoRule_length .ipv6 b hr
  intro h
  rw [hchars, hchars, echoRule_zero, echoRule_zero, lineChars_nil] at h
  have hlength := congrArg List.length h
  cases h4 : familyFlag cfg .ipv4 <;> cases h6 : familyFlag cfg .ipv6
  · rw [h4, h6] at hflag
    exact absurd hflag Bool.false_ne_true
  all_goals
    simp only [h4, h6, Bool.false_eq_true, ↓reduceIte, List.length_append, List.length_nil]
      at hlength
    omega

/-- The rules show exactly the limit. -/
theorem icmpRules_eq_iff (cfg : Globals) (r b r' b' : ℕ) :
    lineChars (icmpRules cfg r b) = lineChars (icmpRules cfg r' b') ↔
      limitShown cfg r b = limitShown cfg r' b' := by
  by_cases hflag : (familyFlag cfg .ipv4 || familyFlag cfg .ipv6) = true
  · by_cases hr : r = 0 <;> by_cases hr' : r' = 0
    · subst hr hr'
      obtain ⟨head, tail, hchars⟩ := icmpRules_chars cfg
      simp only [limitShown_zero, hchars, echoRule_zero]
    · subst hr
      rw [limitShown_zero, limitShown_some cfg b' hr' hflag]
      exact iff_of_false (icmpRules_longer cfg b' b hr' hflag).symm nofun
    · subst hr'
      rw [limitShown_zero, limitShown_some cfg b hr hflag]
      exact iff_of_false (icmpRules_longer cfg b b' hr hflag) nofun
    · rw [limitShown_some cfg b hr hflag, limitShown_some cfg b' hr' hflag, Option.some.injEq,
        Prod.mk.injEq]
      refine ⟨fun h => ?_, fun h => by rw [h.1, h.2]⟩
      obtain ⟨head, tail, hchars⟩ := icmpRules_chars cfg
      rw [hchars, hchars] at h
      cases h4 : familyFlag cfg .ipv4 with
      | true =>
        -- the first family's limit decides, whatever follows it
        simp only [h4, ↓reduceIte, List.append_assoc] at h
        exact echoRule_cut (List.append_cancel_left h) hr hr'
      | false =>
        have h6 : familyFlag cfg .ipv6 = true := by
          rw [h4] at hflag
          exact hflag
        simp only [h4, h6, Bool.false_eq_true, ↓reduceIte, List.nil_append] at h
        exact echoRule_cut (List.append_cancel_left h) hr hr'
  · rw [Bool.not_eq_true, Bool.or_eq_false_iff] at hflag
    obtain ⟨head, tail, hchars⟩ := icmpRules_chars cfg
    simp only [hchars, limitShown, hflag.1, hflag.2, Bool.or_self, Bool.false_and,
      Bool.false_eq_true, ↓reduceIte]

/-! The script. -/

/-- The two ICMP settings are all that differs. -/
def SameButIcmp (cfg cfg' : Globals) : Prop :=
  ∃ pps burst, cfg' = { cfg with xdpIcmpRatePps := pps, xdpIcmpBurstPackets := burst }

/-- The characters of a script around its ICMP rules, which do not depend on them. -/
theorem scriptText_chars (ip : IpAddress) (cfg : Globals) (desired : DesiredState)
    (replace : Bool) (trustedV4 trustedV6 : List String) :
    ∃ before after : List Char, ∀ cfg' r, SameButIcmp cfg cfg' →
      (scriptText ip cfg' desired replace trustedV4 trustedV6 r).toList =
      before ++ (lineChars (icmpRules cfg r (icmpBurst cfg')) ++ after) := by
  let table := s!"{cfg.nftFamily} {cfg.nftTable}"
  let deletion := if replace then s!"delete table {table}\n" else ""
  let body := "\n\n".intercalate (renderBlocks cfg desired trustedV4 trustedV6)
  let opening := s!"{deletion}table {table} \x7b\n" ++ s!"{body}\n\n" ++ "    chain input \x7b\n" ++
    "        type filter hook input priority filter; policy accept;\n"
  refine ⟨opening.toList ++ lineChars (openingRules cfg desired ++ transportRules ip cfg desired),
    lineChars (closingRules cfg) ++ ("    \x7d\n" ++ "\x7d\n").toList, ?_⟩
  rintro _ r ⟨pps, burst, rfl⟩
  let lines := openingRules cfg desired ++ transportRules ip cfg desired ++
    icmpRules cfg r (max 1 burst).toNat ++ closingRules cfg
  have hclosing : closingRules cfg ≠ [] :=
    List.append_ne_nil_of_right_ne_nil _ (List.cons_ne_nil _ _)
  have hlines : lines ≠ [] := List.append_ne_nil_of_right_ne_nil _ hclosing
  have htext : scriptText ip { cfg with xdpIcmpRatePps := pps, xdpIcmpBurstPackets := burst }
      desired replace trustedV4 trustedV6 r =
      opening ++ ("\n".intercalate lines ++ "\n") ++ ("    \x7d\n" ++ "\x7d\n") :=
    String.append_assoc
  have hchain : ("\n".intercalate lines ++ "\n").toList = lineChars lines := by
    rw [String.toList_append]
    exact toList_chain lines hlines
  rw [htext, String.toList_append, String.toList_append, hchain]
  simp only [lines, lineChars_append, List.append_assoc, icmpBurst]

theorem scriptText_eq_iff (ip : IpAddress) {cfg cfg' : Globals} (h : SameButIcmp cfg cfg')
    (desired : DesiredState) (replace : Bool) (trustedV4 trustedV6 : List String) (r r' : ℕ) :
    scriptText ip cfg desired replace trustedV4 trustedV6 r =
      scriptText ip cfg' desired replace trustedV4 trustedV6 r' ↔
    limitShown cfg r (icmpBurst cfg) = limitShown cfg r' (icmpBurst cfg') := by
  obtain ⟨before, after, hchars⟩ := scriptText_chars ip cfg desired replace trustedV4 trustedV6
  have hself : SameButIcmp cfg cfg := ⟨cfg.xdpIcmpRatePps, cfg.xdpIcmpBurstPackets, rfl⟩
  rw [← icmpRules_eq_iff, ← String.toList_inj, hchars cfg r hself, hchars cfg' r' h,
    List.append_cancel_left_eq, List.append_cancel_right_eq]

theorem renderRuleset_raises (ip : IpAddress) (cfg : Globals) (desired : DesiredState)
    (replace : Bool) (h : ∃ fam, trustedNetworks ip desired fam = none) :
    renderRuleset ip cfg desired replace = none := by
  obtain ⟨fam, hfam⟩ := h
  unfold renderRuleset
  cases fam with
  | ipv4 => rw [hfam, Option.bind_eq_bind, Option.bind_none]
  | ipv6 =>
    cases h4 : trustedNetworks ip desired .ipv4 with
    | none => rw [Option.bind_eq_bind, Option.bind_none]
    | some trustedV4 => rw [Option.bind_eq_bind, Option.bind_some, hfam, Option.bind_eq_bind, Option.bind_none]

theorem renderRuleset_parsed (ip : IpAddress) (cfg : Globals) (desired : DesiredState)
    (replace : Bool) {trustedV4 trustedV6 : List String}
    (h4 : trustedNetworks ip desired .ipv4 = some trustedV4)
    (h6 : trustedNetworks ip desired .ipv6 = some trustedV6) :
    renderRuleset ip cfg desired replace = (icmpRate cfg.xdpIcmpRatePps).map
      (scriptText ip cfg desired replace trustedV4 trustedV6) := by
  unfold renderRuleset
  rw [h4, h6, Option.bind_eq_bind, Option.bind_some, Option.bind_eq_bind, Option.bind_some,
    Option.map_eq_bind]
  rfl

/-- Two renderings with one signature agree when the limits shown do, or when some trusted
network does not parse. -/
theorem renderRuleset_eq_iff (ip : IpAddress) {cfg cfg' : Globals}
    {desired desired' : DesiredState} (replace : Bool)
    (h : policySignature cfg desired = policySignature cfg' desired') :
    renderRuleset ip cfg desired replace = renderRuleset ip cfg' desired' replace ↔
      icmpShown cfg = icmpShown cfg' ∨ ∃ fam, trustedNetworks ip desired fam = none := by
  obtain ⟨rfl, hcfg⟩ := eq_of_signature h
  by_cases hparse : ∃ fam, trustedNetworks ip desired fam = none
  · refine iff_of_true ?_ (Or.inr hparse)
    rw [renderRuleset_raises ip cfg desired replace hparse,
      renderRuleset_raises ip cfg' desired replace hparse]
  · rw [or_iff_left hparse]
    rw [not_exists] at hparse
    obtain ⟨trustedV4, h4⟩ := Option.ne_none_iff_exists'.mp (hparse .ipv4)
    obtain ⟨trustedV6, h6⟩ := Option.ne_none_iff_exists'.mp (hparse .ipv6)
    have hshown : icmpShown cfg' =
        (icmpRate cfg'.xdpIcmpRatePps).map fun r => limitShown cfg r (icmpBurst cfg') := by
      obtain ⟨pps, burst, rfl⟩ := hcfg
      rfl
    rw [hshown, icmpShown, renderRuleset_parsed ip cfg desired replace h4 h6,
      renderRuleset_parsed ip cfg' desired replace h4 h6]
    have htexts := scriptText_eq_iff ip hcfg desired replace trustedV4 trustedV6
    generalize scriptText ip cfg desired replace trustedV4 trustedV6 = text at htexts
    generalize scriptText ip cfg' desired replace trustedV4 trustedV6 = text' at htexts
    cases hr : icmpRate cfg.xdpIcmpRatePps with
    | none =>
      cases hr' : icmpRate cfg'.xdpIcmpRatePps with
      | none => exact iff_of_true rfl rfl
      | some r' => exact iff_of_false nofun nofun
    | some r =>
      cases hr' : icmpRate cfg'.xdpIcmpRatePps with
      | none => exact iff_of_false nofun nofun
      | some r' =>
        rw [Option.map_some, Option.map_some, Option.map_some, Option.map_some, Option.some.injEq,
          Option.some.injEq]
        exact htexts r r'

/-! Runs. -/

section Runs

variable (ip : IpAddress)

/-- A reconcile that hands its script to `nft`. -/
def Transacts (s : NftState) (desired : DesiredState) (dryRun : Bool) : Prop :=
  dryRun = false ∧ s.signature ≠ some (policySignature s.cfg desired) ∧
    (renderRuleset ip s.cfg desired true).isSome = true

/-- The states that a backend reaches which at first remembers no signature, each with
the configuration of the last transaction. -/
inductive NftRun : NftState → Option Globals → Prop
  | start (s : NftState) (h : s.signature = none) : NftRun s none
  | reload {s : NftState} {last : Option Globals} (hrun : NftRun s last) (cfg : Globals) :
      NftRun (nftStep ip s (.reload cfg)) last
  | kept {s : NftState} {last : Option Globals} (hrun : NftRun s last) (desired : DesiredState)
      (dryRun : Bool) (h : ¬Transacts ip s desired dryRun) :
      NftRun (nftStep ip s (.reconcile desired dryRun)) last
  | transacted {s : NftState} {last : Option Globals} (hrun : NftRun s last)
      (desired : DesiredState) (dryRun : Bool) (h : Transacts ip s desired dryRun) :
      NftRun (nftStep ip s (.reconcile desired dryRun)) (some s.cfg)

variable {ip}

/-- What a reconcile does. -/
theorem applyReconcilePlan_cases (ip : IpAddress) (s : NftState) (desired : DesiredState) (dryRun : Bool) :
    ¬Transacts ip s desired dryRun ∧ applyReconcilePlan ip s desired dryRun = s ∨
    Transacts ip s desired dryRun ∧ ∃ script, renderRuleset ip s.cfg desired true = some script ∧
      applyReconcilePlan ip s desired dryRun =
        { s with
          tables := Function.update s.tables (s.cfg.nftFamily, s.cfg.nftTable) (some script)
          signature := some (policySignature s.cfg desired) } := by
  unfold applyReconcilePlan Transacts
  by_cases hsame : s.signature = some (policySignature s.cfg desired)
  · exact Or.inl ⟨fun h => h.2.1 hsame, if_pos hsame⟩
  · rw [if_neg hsame]
    cases hrender : renderRuleset ip s.cfg desired true with
    | none => exact Or.inl ⟨fun h => Bool.false_ne_true h.2.2, rfl⟩
    | some script =>
      cases dryRun with
      | true => exact Or.inl ⟨fun h => Bool.false_ne_true h.1.symm, rfl⟩
      | false => exact Or.inr ⟨⟨rfl, hsame, rfl⟩, script, rfl, rfl⟩

/-- A remembered signature is that of the last transaction, whose script is installed. -/
def Remembers (ip : IpAddress) (s : NftState) (last : Option Globals) : Prop :=
  ∀ signature, s.signature = some signature →
    ∃ cfg desired script, last = some cfg ∧ policySignature cfg desired = signature ∧
      renderRuleset ip cfg desired true = some script ∧
      s.tables (cfg.nftFamily, cfg.nftTable) = some script

theorem NftRun.remembers {s : NftState} {last : Option Globals} (h : NftRun ip s last) :
    Remembers ip s last := by
  induction h with
  | start s h =>
    intro signature hsignature
    exact absurd (h.symm.trans hsignature) nofun
  | reload hrun cfg ih => exact ih
  | @kept s last hrun desired dryRun h ih =>
    rcases applyReconcilePlan_cases ip s desired dryRun with ⟨-, heq⟩ | ⟨ht, -⟩
    · rw [show nftStep ip s (.reconcile desired dryRun) = s from heq]
      exact ih
    · exact absurd ht h
  | @transacted s last hrun desired dryRun h ih =>
    rcases applyReconcilePlan_cases ip s desired dryRun with ⟨hn, -⟩ | ⟨-, script, hscript, heq⟩
    · exact absurd h hn
    · rw [show nftStep ip s (.reconcile desired dryRun) = _ from heq]
      intro signature hsignature
      exact ⟨s.cfg, desired, script, rfl, Option.some.inj hsignature, hscript,
        Function.update_self ..⟩

/-- After a reconcile that is not a dry run and does not raise, the script of the current
state and configuration is installed, unless it was skipped and the limit shown has changed
since the last transaction. -/
theorem NftRun.installed_iff {s : NftState} {last : Option Globals} (h : NftRun ip s last)
    (desired : DesiredState)
    (hreturns : s.signature = some (policySignature s.cfg desired) ∨
      (renderRuleset ip s.cfg desired true).isSome = true) :
    (nftStep ip s (.reconcile desired false)).installed = renderRuleset ip s.cfg desired true ↔
      (s.signature = some (policySignature s.cfg desired) →
        last.map icmpShown = some (icmpShown s.cfg)) := by
  rcases applyReconcilePlan_cases ip s desired false with
    ⟨hn, heq⟩ | ⟨⟨-, hne, -⟩, script, hscript, heq⟩
  · have hsame : s.signature = some (policySignature s.cfg desired) := by
      rcases hreturns with hsame | hsome
      · exact hsame
      · by_contra hne
        exact hn ⟨rfl, hne, hsome⟩
    obtain ⟨cfg, desired₀, script, rfl, hsignature, hscript, htable⟩ := h.remembers _ hsame
    obtain ⟨hdesired, pps, burst, hcfg⟩ := eq_of_signature hsignature
    have hinstalled : (nftStep ip s (.reconcile desired false)).installed = some script := by
      rw [show nftStep ip s (.reconcile desired false) = s from heq, NftState.installed, hcfg]
      exact htable
    have hparse : ¬∃ fam, trustedNetworks ip desired₀ fam = none := by
      intro hraises
      rw [renderRuleset_raises ip cfg desired₀ true hraises] at hscript
      exact absurd hscript nofun
    rw [hinstalled, ← hscript, renderRuleset_eq_iff ip true hsignature, or_iff_left hparse,
      imp_iff_right hsame, Option.map_some, Option.some.injEq]
  · have hinstalled : (nftStep ip s (.reconcile desired false)).installed = some script := by
      rw [show nftStep ip s (.reconcile desired false) = _ from heq]
      exact Function.update_self ..
    exact iff_of_true (hinstalled.trans hscript.symm) fun hsame => absurd hsame hne

end Runs

/-- With equal signatures the renderings agree exactly when the limits on echo requests
that they show do, or when they raise at a trusted network; and in every run a reconcile
leaves the rendering of the current state installed exactly when, if it skips, the limit is
that of the last transaction. -/
theorem signature_sound_iff (ip : IpAddress) :
    (∀ cfg cfg' desired desired' replace,
      policySignature cfg desired = policySignature cfg' desired' →
      (renderRuleset ip cfg desired replace = renderRuleset ip cfg' desired' replace ↔
        icmpShown cfg = icmpShown cfg' ∨ ∃ fam, trustedNetworks ip desired fam = none)) ∧
    (∀ s last, NftRun ip s last → ∀ desired,
      s.signature = some (policySignature s.cfg desired) ∨
        (renderRuleset ip s.cfg desired true).isSome = true →
      ((nftStep ip s (.reconcile desired false)).installed =
          renderRuleset ip s.cfg desired true ↔
        (s.signature = some (policySignature s.cfg desired) →
          last.map icmpShown = some (icmpShown s.cfg)))) :=
  ⟨fun _ _ _ _ replace h => renderRuleset_eq_iff ip replace h,
    fun _ _ hrun desired hreturns => hrun.installed_iff desired hreturns⟩

/-- No networks, so that nothing raises. -/
def noNetworks : IpAddress := ⟨fun _ => some [], fun _ _ => "255.255.255.255"⟩

/-- The default policy is put in force, and a reload then sets the rate of echo requests. -/
def atRate (pps : PyFloat) : NftState :=
  nftStep noNetworks (nftStep noNetworks ⟨{}, none, fun _ => none⟩ (.reconcile {} false))
    (.reload { xdpIcmpRatePps := pps })

theorem atRate_run (pps : PyFloat) : NftRun noNetworks (atRate pps) (some {}) := by
  have htransacts : Transacts noNetworks ⟨{}, none, fun _ => none⟩ {} false := ⟨rfl, nofun, rfl⟩
  exact .reload (.transacted (.start _ rfl) {} false htransacts) _

theorem atRate_signature (pps : PyFloat) :
    (atRate pps).signature = some (policySignature (atRate pps).cfg {}) := rfl

/-- The reconcile after the reload is skipped. It should not be at 200 a second, and may be at
99.5, which is rounded up to the limit in force. -/
theorem signature_sound_reloads :
    (nftStep noNetworks (atRate (.finite 200)) (.reconcile {} false)).installed ≠
      renderRuleset noNetworks { xdpIcmpRatePps := .finite 200 } {} true ∧
    (nftStep noNetworks (atRate (.finite 99.5)) (.reconcile {} false)).installed =
      renderRuleset noNetworks { xdpIcmpRatePps := .finite 99.5 } {} true := by
  have hruns (pps : PyFloat) := (signature_sound_iff noNetworks).2 _ _ (atRate_run pps) {}
    (Or.inl (atRate_signature pps))
  constructor
  · intro hinstalled
    exact absurd ((hruns (.finite 200)).mp hinstalled (atRate_signature _)) (by decide +kernel)
  · exact (hruns (.finite 99.5)).mpr fun _ => by decide +kernel

/-- A reload that doubles the rate of echo requests changes the script, not the signature. -/
theorem echo_rate_unsigned :
    ¬∀ cfg cfg' desired desired', policySignature cfg desired = policySignature cfg' desired' →
      renderRuleset noNetworks cfg desired true = renderRuleset noNetworks cfg' desired' true := by
  intro h
  have hsignature : policySignature {} {} = policySignature { xdpIcmpRatePps := .finite 200 } {} :=
    rfl
  have heq := h _ _ _ _ hsignature
  rcases (renderRuleset_eq_iff noNetworks true hsignature).mp heq with hshown | ⟨fam, hfam⟩
  · exact absurd hshown (by decide +kernel)
  · have hparsed : trustedNetworks noNetworks {} fam = some [] := rfl
    rw [hparsed] at hfam
    exact Option.some_ne_none [] hfam

end AutoXdp.NftScript
