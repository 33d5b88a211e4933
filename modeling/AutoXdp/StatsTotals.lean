import AutoXdp.StatsAccumulator
import Mathlib.Tactic.Basic

/-! When the totals that `axdp stats` shows are the sums of what was observed. -/
namespace AutoXdp.Stats

/-! The true totals of one counter. A reading belongs to the map of the sample before
unless that was replaced, and a new map counts from zero. -/

/-- The sums of the increments observed, where a reading is there. -/
def observed (c : Counter) : ℕ → ℕ → List Sample → List (Option ℕ)
  | _, _, [] => []
  | sum, last, s :: rest =>
    let last := if s.replaced then 0 else last
    match s.value c with
    | none => none :: observed c sum last rest
    | some v => some (sum + (v - last)) :: observed c (sum + (v - last)) v rest

/-- On one map the readings never fall. -/
def Grows (c : Counter) : ℕ → List Sample → Prop
  | _, [] => True
  | last, s :: rest =>
    let last := if s.replaced then 0 else last
    (∀ v, s.value c = some v → last ≤ v) ∧ Grows c ((s.value c).getD last) rest

/-- The values shown are the sums observed, and they never decrease. -/
structure Exact (c : Counter) (rows : List (List Row)) (samples : List Sample) : Prop where
  sums : rows.map (shown · c) = (observed c 0 0 samples).map (Option.map Int.ofNat)
  mono : ((rows.map (shown · c)).filterMap id).Pairwise (· ≤ ·)

/-! When that is so. The base of a sample is the sample before it that last saved a
reading: the last one of a known map id. -/

/-- One counter since the base: the id and the reading saved there, whether the map has
been replaced since, and what was observed since on maps that have been. A base without
a reading counts as the beginning. -/
structure Watch where
  sum : ℕ := 0
  last : ℕ := 0
  base : Option String := none
  reading : ℕ := 0
  replaced : Bool := false
  lost : ℕ := 0
  deriving DecidableEq, Repr

namespace Watch

/-- The reading at which the growth since the base starts on the map of now. -/
def start (w : Watch) : ℕ := if w.replaced then 0 else w.reading

def enter (w : Watch) (replaced : Bool) : Watch :=
  if replaced then { w with lost := w.lost + (w.last - w.start), last := 0, replaced := true } else w

def read (w : Watch) : Option ℕ → Watch
  | none => w
  | some v => { w with sum := w.sum + (v - w.last), last := v }

def save (w : Watch) (mapId : String) (v : Option ℕ) : Watch :=
  if mapId = "-" then w
  else match v with
  | none =>
    { w with base := some mapId, reading := 0, replaced := false, lost := w.sum - w.last }
  | some v => { w with base := some mapId, reading := v, replaced := false, lost := 0 }

def next (w : Watch) (s : Sample) (c : Counter) : Watch :=
  ((w.enter s.replaced).read (s.value c)).save s.mapId (s.value c)

/-- Nothing was lost, a map that stayed keeps its id, and a map that was replaced
shows it, by its id or by its reading. -/
structure Counts (w : Watch) (mapId : String) (v : ℕ) : Prop where
  lost : w.lost = 0
  stayed : w.replaced = false → w.base = some mapId ∨ w.reading = 0
  replaced : w.replaced = true → w.base = some mapId → v < w.reading ∨ w.reading = 0

end Watch

/-- The readings of a run that are counted once. -/
def Countable (c : Counter) : Watch → List Sample → Prop
  | _, [] => True
  | w, s :: rest =>
    (∀ v, s.value c = some v → (w.enter s.replaced).Counts s.mapId v) ∧
      Countable c (w.next s c) rest

/-! The watched counter and the saved one. -/

variable {c : Counter} {w : Watch} {base : Option String} {raw acc : Option ℕ}

/-- What is saved of the counter, as long as every value shown was the sum. -/
structure Tracks (w : Watch) (base : Option String) (raw acc : Option ℕ) : Prop where
  base_eq : w.base = base
  reading_eq : w.reading = raw.getD 0
  sum_eq : w.sum = acc.getD 0 + w.lost + (w.last - w.start)
  start_le : w.start ≤ w.last
  last_le : w.last ≤ w.sum
  stayed : w.replaced = false → w.reading = 0 ∨ w.lost = 0

theorem tracks_enter (h : Tracks w base raw acc) (replaced : Bool) :
    Tracks (w.enter replaced) base raw acc := by
  unfold Watch.enter
  split_ifs
  · have hsum := h.sum_eq
    refine ⟨h.base_eq, h.reading_eq, ?_, Nat.zero_le _, Nat.zero_le _, nofun⟩
    change w.sum = acc.getD 0 + (w.lost + (w.last - w.start)) + (0 - 0)
    omega
  · exact h

/-- The value shown is the sum exactly if the reading is counted once. -/
theorem gain_eq_iff (h : Tracks w base raw acc) (mapId : String) (v : ℕ) (hv : w.last ≤ v) :
    acc.getD 0 + gain base mapId (raw.getD 0) v = w.sum + (v - w.last) ↔ w.Counts mapId v := by
  have hsum := h.sum_eq
  have hstart := h.start_le
  rw [← h.base_eq, ← h.reading_eq]
  unfold Watch.start at hsum hstart
  have hcounts : w.Counts mapId v ↔ w.lost = 0 ∧
      (w.replaced = false → w.base = some mapId ∨ w.reading = 0) ∧
      (w.replaced = true → w.base = some mapId → v < w.reading ∨ w.reading = 0) :=
    ⟨fun h => ⟨h.1, h.2, h.3⟩, fun h => ⟨h.1, h.2.1, h.2.2⟩⟩
  rw [hcounts]
  unfold gain
  cases hreplaced : w.replaced with
  | false =>
    have hstayed := h.stayed hreplaced
    simp only [hreplaced, Bool.false_eq_true, if_false] at hsum hstart
    by_cases hbase : w.base = some mapId
    · have hle : w.reading ≤ v := Nat.le_trans hstart hv
      rw [if_pos ⟨hbase, hle⟩]
      simp only [hbase, true_or, implies_true, Bool.false_eq_true, false_implies, and_true]
      omega
    · rw [if_neg fun hc => hbase hc.1]
      simp only [hbase, false_or, true_implies, Bool.false_eq_true, false_implies, and_true]
      omega
  | true =>
    simp only [hreplaced, if_true] at hsum hstart
    by_cases hbase : w.base = some mapId
    · simp only [hbase, true_and, true_implies, Bool.true_eq_false, false_implies]
      split_ifs <;> omega
    · rw [if_neg fun hc => hbase hc.1]
      simp only [hbase, Bool.true_eq_false, false_implies, implies_true, and_true]
      omega

variable {iface : String} {file : StatsState} (s : Sample)

/-- After a reading that is shown as the sum, what is saved is tracked again. -/
theorem tracks_next {raw acc : Counter → Option ℕ} (h : Tracks w base (raw c) (acc c))
    (hgrow : ∀ v, s.value c = some v → (w.enter s.replaced).last ≤ v)
    (hshown : ∀ v, s.value c = some v → next s base raw acc c =
      some ((w.enter s.replaced).sum + (v - (w.enter s.replaced).last))) :
    Tracks (w.next s c) (if s.mapId = "-" then base else some s.mapId)
      ((if s.mapId = "-" then raw else s.value) c)
      ((if s.mapId = "-" then acc else next s base raw acc) c) := by
  have he := tracks_enter h s.replaced
  generalize hw : w.enter s.replaced = e at he hgrow hshown
  have hlast := he.last_le
  have hsum := he.sum_eq
  have hstart := he.start_le
  rw [Watch.next, hw]
  cases hv : s.value c with
  | none =>
    have hnext : next s base raw acc c = none := by rw [next, hv]; rfl
    by_cases hid : s.mapId = "-"
    · simp only [Watch.read, Watch.save, if_pos hid]
      exact he
    · simp only [Watch.read, Watch.save, if_neg hid, hv, hnext]
      refine ⟨rfl, rfl, ?_, Nat.zero_le _, hlast, fun _ => Or.inl rfl⟩
      change e.sum = 0 + (e.sum - e.last) + (e.last - 0)
      omega
  | some v =>
    have hle := hgrow v hv
    have hnext := hshown v hv
    by_cases hid : s.mapId = "-"
    · simp only [Watch.read, Watch.save, if_pos hid]
      refine ⟨he.base_eq, he.reading_eq, ?_, Nat.le_trans hstart hle, ?_, he.stayed⟩
      · change e.sum + (v - e.last) = (acc c).getD 0 + e.lost + (v - e.start)
        omega
      · change v ≤ e.sum + (v - e.last)
        omega
    · simp only [Watch.read, Watch.save, if_neg hid, hv, hnext]
      refine ⟨rfl, rfl, ?_, Nat.le_refl v, ?_, fun _ => Or.inr rfl⟩
      · change e.sum + (v - e.last) = e.sum + (v - e.last) + 0 + (v - v)
        omega
      · change v ≤ e.sum + (v - e.last)
        omega

theorem enter_last (w : Watch) (replaced : Bool) :
    (w.enter replaced).last = if replaced then 0 else w.last := by
  unfold Watch.enter
  split_ifs <;> rfl

theorem enter_sum (w : Watch) (replaced : Bool) : (w.enter replaced).sum = w.sum := by
  unfold Watch.enter
  split_ifs <;> rfl

theorem next_last (w : Watch) :
    (w.next s c).last = (s.value c).getD (w.enter s.replaced).last := by
  unfold Watch.next Watch.save
  cases s.value c <;> split_ifs <;> rfl

theorem next_sum (w : Watch) : (w.next s c).sum = (s.value c).elim w.sum fun v =>
    w.sum + (v - (w.enter s.replaced).last) := by
  unfold Watch.next Watch.save
  cases s.value c <;> split_ifs <;> simp only [Watch.read, enter_sum] <;> rfl

theorem observed_cons (w : Watch) (rest : List Sample) :
    observed c w.sum w.last (s :: rest) =
      ((s.value c).map fun v => w.sum + (v - (w.enter s.replaced).last)) ::
        observed c (w.next s c).sum (w.next s c).last rest := by
  rw [next_sum, next_last, enter_last, observed]
  cases s.value c <;> rfl

/-- From any tracked state file on, what is shown are the sums exactly if the readings
are counted once. -/
theorem shown_iff {raw acc : Counter → Option ℕ} (samples : List Sample)
    (hfile : Holds iface file base raw acc) (h : Tracks w base (raw c) (acc c))
    (hgrow : Grows c w.last samples) :
    (displays iface file samples).map (shown · c) =
      (observed c w.sum w.last samples).map (Option.map Int.ofNat) ↔ Countable c w samples := by
  induction samples generalizing file base raw acc w with
  | nil => exact iff_of_true rfl trivial
  | cons s rest ih =>
    obtain ⟨hgrow, hrest⟩ := hgrow
    rw [← enter_last] at hgrow hrest
    rw [← next_last] at hrest
    obtain ⟨hshown, hsaved⟩ := sample_step s hfile
    have he := tracks_enter h s.replaced
    have hhead (v : ℕ) (hv : s.value c = some v) :
        next s base raw acc c =
          some ((w.enter s.replaced).sum + (v - (w.enter s.replaced).last)) ↔
        (w.enter s.replaced).Counts s.mapId v := by
      rw [← gain_eq_iff he s.mapId v (hgrow v hv), next, hv, Option.map_some, Option.some.injEq]
    rw [observed_cons, displays, List.map_cons, List.map_cons, List.cons.injEq, hshown c, Countable]
    by_cases hcounts : ∀ v, s.value c = some v → (w.enter s.replaced).Counts s.mapId v
    · have hnext := tracks_next s h hgrow fun v hv => (hhead v hv).mpr (hcounts v hv)
      rw [ih hsaved hnext hrest]
      refine and_congr_left' (iff_of_true ?_ hcounts)
      cases hv : s.value c with
      | none =>
        rw [next, hv]
        rfl
      | some v =>
        rw [(hhead v hv).mpr (hcounts v hv), enter_sum]
        rfl
    · refine iff_of_false (fun hlist => hcounts fun v hv => (hhead v hv).mp ?_) fun hc => hcounts hc.1
      have heq := hlist.1
      rw [hv, Option.map_some, ← enter_sum w s.replaced] at heq
      exact Option.map_injective (fun _ _ => Int.ofNat.inj) heq

/-- Sums never decrease. -/
theorem observed_sorted (samples : List Sample) (sum last : ℕ) :
    ((observed c sum last samples).filterMap id).Pairwise (· ≤ ·) ∧
      ∀ n ∈ (observed c sum last samples).filterMap id, sum ≤ n := by
  induction samples generalizing sum last with
  | nil => exact ⟨List.Pairwise.nil, fun n hn => absurd hn List.not_mem_nil⟩
  | cons s rest ih =>
    simp only [observed]
    cases s.value c with
    | none => exact ih sum _
    | some v =>
      obtain ⟨hsorted, hle⟩ := ih (sum + (v - if s.replaced then 0 else last)) v
      refine ⟨List.pairwise_cons.mpr ⟨hle, hsorted⟩, fun n hn => ?_⟩
      rcases List.mem_cons.mp hn with rfl | hn
      · exact Nat.le_add_right ..
      · exact Nat.le_trans (Nat.le_add_right ..) (hle n hn)

/-- The totals are exact over a run exactly if every reading is counted once. -/
theorem totals_exact_iff (iface : String) (samples : List Sample)
    (hgrow : ∀ c, Grows c 0 samples) :
    (∀ c, Exact c (displays iface {} samples) samples) ↔ ∀ c, Countable c {} samples := by
  refine forall_congr' fun c => ?_
  have htracks : Tracks {} none none none :=
    ⟨rfl, rfl, rfl, Nat.le_refl 0, Nat.le_refl 0, fun _ => Or.inl rfl⟩
  have hempty : Holds iface {} none (fun _ => none) fun _ => none := .empty
  have hsums := shown_iff samples hempty htracks (hgrow c)
  refine ⟨fun h => hsums.mp h.sums, fun h => ⟨hsums.mpr h, ?_⟩⟩
  rw [hsums.mpr h]
  have hmap : ((observed c 0 0 samples).map (Option.map Int.ofNat)).filterMap id =
      ((observed c 0 0 samples).filterMap id).map Int.ofNat := by
    rw [List.filterMap_map, List.map_filterMap]
    rfl
  rw [hmap, List.pairwise_map]
  exact (observed_sorted samples 0 0).1.imp fun h => Int.ofNat_le.mpr h

/-- A reload of the program between the readings. -/
def reloaded : List Sample :=
  [⟨[], ⟨100, some 1000⟩, ⟨10, some 100⟩, "7", true, nofun⟩,
    ⟨[], ⟨110, some 1100⟩, ⟨10, some 100⟩, "7", false, nofun⟩,
    ⟨[], ⟨120, some 1200⟩, ⟨20, some 200⟩, "8", true, nofun⟩]

theorem reloaded_grows (c : Counter) : Grows c 0 reloaded := by
  cases c <;> simp [reloaded, Grows, Sample.value]

/-- Over the reload every reading is counted once, although the new one is the larger. -/
theorem totals_exact_reloaded :
    Exact .totalPackets (displays "eth0" {} reloaded) reloaded ∧
      Exact .dropBytes (displays "eth0" {} reloaded) reloaded := by
  suffices h : ∀ c, Countable c {} reloaded from
    have hexact := (totals_exact_iff "eth0" reloaded reloaded_grows).mpr h
    ⟨hexact .totalPackets, hexact .dropBytes⟩
  intro c
  have hcounts (w : Watch) (mapId : String) (v : ℕ) (h : w.lost = 0)
      (h' : w.replaced = false → w.base = some mapId ∨ w.reading = 0)
      (h'' : w.replaced = true → w.base ≠ some mapId) : w.Counts mapId v :=
    ⟨h, h', fun hr hb => absurd hb (h'' hr)⟩
  cases c <;>
    refine ⟨fun v hv => ?_, fun v hv => ?_, fun v hv => ?_, trivial⟩ <;>
    apply hcounts <;> decide

/-- Three readings of one map, the second without its id. -/
def lookupFailed : List Sample :=
  [⟨[], ⟨100, some 1000⟩, ⟨10, some 100⟩, "7", true, nofun⟩,
    ⟨[], ⟨110, some 1100⟩, ⟨10, some 100⟩, "-", false, nofun⟩,
    ⟨[], ⟨120, some 1200⟩, ⟨10, some 100⟩, "7", false, nofun⟩]

/-- Without the id all that was counted before is counted again. -/
theorem unknown_id_counts_twice : ¬∀ (iface : String) (samples : List Sample),
    (∀ c, Grows c 0 samples) → ∀ c, Exact c (displays iface {} samples) samples := by
  intro h
  have hgrow : ∀ c, Grows c 0 lookupFailed := by
    intro c
    cases c <;> simp [lookupFailed, Grows, Sample.value]
  have hsums := (h "eth0" lookupFailed hgrow .totalPackets).sums
  exact absurd hsums (by decide)

end AutoXdp.Stats
