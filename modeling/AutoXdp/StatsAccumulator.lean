import Mathlib.Data.Int.Order.Basic
import Mathlib.Data.List.Induction
import Mathlib.Tactic.Basic

/-! The totals that `axdp stats` keeps over reloads of the XDP program
(`_apply_xdp_accumulator` in `auto_xdp/admin_cli.py`). -/
namespace AutoXdp.Stats

/-- A row `(name, packets, bytes)`; bytes of `-1` are not known. -/
structure Row where
  name : String
  packets : ℤ
  bytes : ℤ
  deriving DecidableEq, Repr

/-- The state file. A number is there if the file has it as an `int`. -/
structure StatsState where
  backend : String := ""
  iface : String := ""
  mapId : String := ""
  rawTotal : Option ℤ := none
  rawDrop : Option ℤ := none
  accTotal : Option ℤ := none
  accDrop : Option ℤ := none
  rawTotalBytes : Option ℤ := none
  rawDropBytes : Option ℤ := none
  accTotalBytes : Option ℤ := none
  accDropBytes : Option ℤ := none
  deriving DecidableEq, Repr

/-- The last row of this name. -/
def current (name : String) (rows : List Row) : Option Row :=
  rows.foldl (fun found r => if r.name = name then some r else found) none

/-- The accumulated value when the raw one has moved on, or has started again. -/
def advance (prevRaw prevAcc current : ℤ) : ℤ :=
  if current ≥ prevRaw then prevAcc + (current - prevRaw) else prevAcc + current

def advanceBytes (prevRaw prevAcc : Option ℤ) (current : ℤ) : ℤ :=
  match prevRaw, prevAcc with
  | some raw, some acc => if current ≥ 0 ∧ raw ≥ 0 ∧ acc ≥ 0 then advance raw acc current else current
  | _, _ => current

def addBytes (prevAcc : Option ℤ) (current : ℤ) : ℤ :=
  match prevAcc with
  | some acc => if current ≥ 0 ∧ acc ≥ 0 then acc + current else current
  | none => current

def StatsState.sameIface (state : StatsState) (backend iface : String) : Bool :=
  state.backend = backend && state.iface = iface && state.accTotal.isSome && state.accDrop.isSome

def StatsState.sameContext (state : StatsState) (backend iface mapId : String) : Bool :=
  state.backend = backend && state.iface = iface && state.mapId = mapId && state.mapId ≠ "-" &&
    mapId ≠ "-" && state.rawTotal.isSome && state.rawDrop.isSome && state.accTotal.isSome &&
    state.accDrop.isSome

/-- The state that is saved for these rows. -/
def accumulated (total drop : Row) (backend iface mapId : String) (state : StatsState) :
    StatsState :=
  let saved : StatsState :=
    { backend := backend
      iface := iface
      mapId := mapId
      rawTotal := some total.packets
      rawDrop := some drop.packets
      accTotal := some total.packets
      accDrop := some drop.packets
      rawTotalBytes := some total.bytes
      rawDropBytes := some drop.bytes
      accTotalBytes := some total.bytes
      accDropBytes := some drop.bytes }
  if state.sameContext backend iface mapId then
    { saved with
      accTotal := some (advance (state.rawTotal.getD 0) (state.accTotal.getD 0) total.packets)
      accDrop := some (advance (state.rawDrop.getD 0) (state.accDrop.getD 0) drop.packets)
      accTotalBytes := some (advanceBytes state.rawTotalBytes state.accTotalBytes total.bytes)
      accDropBytes := some (advanceBytes state.rawDropBytes state.accDropBytes drop.bytes) }
  else if state.sameIface backend iface then
    -- The map id is another one or unknown: the raw value counts as new.
    { saved with
      accTotal := some (state.accTotal.getD 0 + total.packets)
      accDrop := some (state.accDrop.getD 0 + drop.packets)
      accTotalBytes := some (addBytes state.accTotalBytes total.bytes)
      accDropBytes := some (addBytes state.accDropBytes drop.bytes) }
  else saved

/-- The rows that are shown, and the state file afterwards. -/
def applyXdpAccumulator (rows : List Row) (backend iface mapId : String) (file : StatsState) :
    List Row × StatsState :=
  if backend ≠ "xdp" then (rows, file)
  else match current "XDP_TOTAL" rows, current "XDP_DROP_TOTAL" rows with
  | some total, some drop =>
    let acc := accumulated total drop backend iface mapId file
    let updated := rows.map fun r =>
      if r.name = "XDP_TOTAL" then ⟨"XDP_TOTAL", acc.accTotal.getD 0, acc.accTotalBytes.getD 0⟩
      else if r.name = "XDP_DROP_TOTAL" then
        ⟨"XDP_DROP_TOTAL", acc.accDrop.getD 0, acc.accDropBytes.getD 0⟩
      else r
    (updated, if mapId = "-" then file else acc)
  | _, _ => (rows, file)

/-! Samples of one interface. -/

/-- What `_read_xdp_rows` reads of one of the two totals. -/
structure Reading where
  packets : ℕ
  bytes : Option ℕ
  deriving DecidableEq, Repr

/-- A reading of the counters and of the map id, and whether the map is another one than
at the sample before. -/
structure Sample where
  others : List Row := []
  total : Reading
  drop : Reading
  mapId : String
  replaced : Bool
  others_named : ∀ r ∈ others, r.name ≠ "XDP_TOTAL" ∧ r.name ≠ "XDP_DROP_TOTAL"

/-- A byte value, `-1` if it is not known. -/
def encode (v : Option ℕ) : ℤ := v.elim (-1) Int.ofNat

def Sample.rows (s : Sample) : List Row :=
  s.others ++ [⟨"XDP_TOTAL", s.total.packets, encode s.total.bytes⟩,
    ⟨"XDP_DROP_TOTAL", s.drop.packets, encode s.drop.bytes⟩]

inductive Counter where
  | totalPackets | dropPackets | totalBytes | dropBytes
  deriving DecidableEq, Repr

def Sample.value (s : Sample) : Counter → Option ℕ
  | .totalPackets => some s.total.packets
  | .dropPackets => some s.drop.packets
  | .totalBytes => s.total.bytes
  | .dropBytes => s.drop.bytes

def StatsState.raw (state : StatsState) : Counter → Option ℤ
  | .totalPackets => state.rawTotal
  | .dropPackets => state.rawDrop
  | .totalBytes => state.rawTotalBytes
  | .dropBytes => state.rawDropBytes

def StatsState.acc (state : StatsState) : Counter → Option ℤ
  | .totalPackets => state.accTotal
  | .dropPackets => state.accDrop
  | .totalBytes => state.accTotalBytes
  | .dropBytes => state.accDropBytes

/-- The value that is shown, if it is one: for `-1` a dash is printed. -/
def shown (rows : List Row) (c : Counter) : Option ℤ :=
  let known (v : ℤ) : Option ℤ := if v = -1 then none else some v
  match c with
  | .totalPackets => (current "XDP_TOTAL" rows).bind fun r => known r.packets
  | .dropPackets => (current "XDP_DROP_TOTAL" rows).bind fun r => known r.packets
  | .totalBytes => (current "XDP_TOTAL" rows).bind fun r => known r.bytes
  | .dropBytes => (current "XDP_DROP_TOTAL" rows).bind fun r => known r.bytes

/-- What is shown at each sample of a run that starts with this state file. -/
def displays (iface : String) : StatsState → List Sample → List (List Row)
  | _, [] => []
  | file, s :: rest =>
    let r := applyXdpAccumulator s.rows "xdp" iface s.mapId file
    r.1 :: displays iface r.2 rest

/-! What one sample does to one counter. -/

variable {iface : String} {file : StatsState} (s : Sample)

theorem current_append (name : String) (xs ys : List Row) :
    current name (xs ++ ys) = (current name ys).or (current name xs) := by
  induction ys using List.reverseRecOn with
  | nil => rw [List.append_nil]; rfl
  | append_singleton ys y ih =>
    rw [← List.append_assoc]
    simp only [current, List.foldl_append, List.foldl_cons, List.foldl_nil] at ih ⊢
    split_ifs
    · rfl
    · exact ih

theorem current_map (name : String) (f : Row → Row) (hf : ∀ r, (f r).name = r.name)
    (rows : List Row) : current name (rows.map f) = (current name rows).map f := by
  induction rows using List.reverseRecOn with
  | nil => rfl
  | append_singleton xs x ih =>
    rw [List.map_append, current_append, current_append, ih, List.map_cons, List.map_nil]
    simp only [current, List.foldl_cons, List.foldl_nil, hf]
    split_ifs <;> rfl

def Sample.totalRow : Row := ⟨"XDP_TOTAL", s.total.packets, encode s.total.bytes⟩

def Sample.dropRow : Row := ⟨"XDP_DROP_TOTAL", s.drop.packets, encode s.drop.bytes⟩

theorem current_total : current "XDP_TOTAL" s.rows = some s.totalRow := by
  rw [Sample.rows, current_append]
  rfl

theorem current_drop : current "XDP_DROP_TOTAL" s.rows = some s.dropRow := by
  rw [Sample.rows, current_append]
  rfl

/-- A value that is shown, if it is one. -/
def known (v : ℤ) : Option ℤ := if v = -1 then none else some v

theorem known_encode (v : Option ℕ) : known (encode v) = v.map Int.ofNat := by
  cases v with
  | none => rfl
  | some n =>
    have hn : ¬(Int.ofNat n = -1) := nofun
    exact if_neg hn

/-- A sample shows and saves what `accumulated` gives. -/
theorem apply_sample (c : Counter) :
    let acc := accumulated s.totalRow s.dropRow "xdp" iface s.mapId file
    shown (applyXdpAccumulator s.rows "xdp" iface s.mapId file).1 c = known ((acc.acc c).getD 0) ∧
    (applyXdpAccumulator s.rows "xdp" iface s.mapId file).2 =
      if s.mapId = "-" then file else acc := by
  intro acc
  have hbackend : ¬("xdp" ≠ "xdp") := not_not.mpr rfl
  have hname (r : Row) :
      (if r.name = "XDP_TOTAL" then ⟨"XDP_TOTAL", acc.accTotal.getD 0, acc.accTotalBytes.getD 0⟩
        else if r.name = "XDP_DROP_TOTAL" then
          ⟨"XDP_DROP_TOTAL", acc.accDrop.getD 0, acc.accDropBytes.getD 0⟩
        else r : Row).name = r.name := by
    split_ifs with htotal hdrop
    · exact htotal.symm
    · exact hdrop.symm
    · rfl
  simp only [applyXdpAccumulator, if_neg hbackend, current_total, current_drop]
  refine ⟨?_, rfl⟩
  cases c with
  | totalPackets | totalBytes =>
    rw [shown, current_map _ _ hname, current_total]
    rfl
  | dropPackets | dropBytes =>
    rw [shown, current_map _ _ hname, current_drop]
    rfl

/-! The state file over a run: empty, or what the last sample with a known id has saved. -/

inductive Holds (iface : String) :
    StatsState → Option String → (Counter → Option ℕ) → (Counter → Option ℕ) → Prop
  | empty : Holds iface {} none (fun _ => none) fun _ => none
  | saved {file : StatsState} {raw acc : Counter → Option ℕ} (backend : file.backend = "xdp")
      (named : file.iface = iface) (id_known : file.mapId ≠ "-")
      (raw_eq : ∀ c, file.raw c = some (encode (raw c)))
      (acc_eq : ∀ c, file.acc c = some (encode (acc c)))
      (both : ∀ c, (raw c).isSome = (acc c).isSome)
      (packets : (raw .totalPackets).isSome ∧ (raw .dropPackets).isSome) :
      Holds iface file (some file.mapId) raw acc

/-- What is added to the saved value. -/
def gain (base : Option String) (mapId : String) (reading v : ℕ) : ℕ :=
  if base = some mapId ∧ reading ≤ v then v - reading else v

/-- The value that is shown and saved. -/
def next (base : Option String) (raw acc : Counter → Option ℕ) (c : Counter) : Option ℕ :=
  (s.value c).map fun v => (acc c).getD 0 + gain base s.mapId ((raw c).getD 0) v

theorem advance_encode (r a v : ℕ) (base : Option String) (mapId : String) (h : base = some mapId) :
    advance r a v = ((a + gain base mapId r v : ℕ) : ℤ) := by
  unfold advance gain
  by_cases hle : r ≤ v
  · rw [if_pos (by exact_mod_cast hle), if_pos ⟨h, hle⟩]
    omega
  · rw [if_neg (by exact_mod_cast hle), if_neg fun hc => hle hc.2]
    omega

theorem advanceBytes_encode (r a v : Option ℕ) (base : Option String) (mapId : String)
    (h : base = some mapId) (hboth : r.isSome = a.isSome) :
    advanceBytes (some (encode r)) (some (encode a)) (encode v) =
      encode (v.map fun v => a.getD 0 + gain base mapId (r.getD 0) v) := by
  have hneg : ¬(encode none ≥ 0) := by decide
  have hpos (n : ℕ) : encode (some n) ≥ 0 := Int.natCast_nonneg n
  cases v with
  | none =>
    rw [advanceBytes, if_neg fun hc => hneg hc.1]
    rfl
  | some v =>
    cases r with
    | none =>
      have ha : a = none := by simpa using hboth.symm
      have hgain : gain base mapId 0 v = v := by
        rw [gain, if_pos ⟨h, Nat.zero_le _⟩, Nat.sub_zero]
      rw [ha, Option.map_some, Option.getD_none, hgain, Nat.zero_add, advanceBytes,
        if_neg fun hc => hneg hc.2.1]
    | some r =>
      obtain ⟨a, rfl⟩ := Option.isSome_iff_exists.mp hboth.symm
      have hadvance := advance_encode r a v base mapId h
      rw [advanceBytes, if_pos ⟨hpos v, hpos r, hpos a⟩]
      exact hadvance

theorem addBytes_encode (a v : Option ℕ) :
    addBytes (some (encode a)) (encode v) = encode (v.map fun v => a.getD 0 + v) := by
  have hneg : ¬(encode none ≥ 0) := by decide
  have hpos (n : ℕ) : encode (some n) ≥ 0 := Int.natCast_nonneg n
  cases v with
  | none =>
    rw [addBytes, if_neg fun hc => hneg hc.1]
    rfl
  | some v =>
    cases a with
    | none =>
      rw [Option.map_some, Option.getD_none, Nat.zero_add, addBytes, if_neg fun hc => hneg hc.2]
    | some a =>
      rw [addBytes, if_pos ⟨hpos v, hpos a⟩]
      rfl

variable {base : Option String} {raw acc : Counter → Option ℕ}

theorem accumulated_saves (iface : String) (file : StatsState) (c : Counter) :
    (accumulated s.totalRow s.dropRow "xdp" iface s.mapId file).raw c = some (encode (s.value c)) ∧
    (accumulated s.totalRow s.dropRow "xdp" iface s.mapId file).backend = "xdp" ∧
    (accumulated s.totalRow s.dropRow "xdp" iface s.mapId file).iface = iface ∧
    (accumulated s.totalRow s.dropRow "xdp" iface s.mapId file).mapId = s.mapId := by
  unfold accumulated
  split_ifs <;> exact ⟨by cases c <;> rfl, rfl, rfl, rfl⟩

theorem sameIface_saved (hbackend : file.backend = "xdp") (hiface : file.iface = iface)
    (hacc : ∀ c, file.acc c = some (encode (acc c))) : file.sameIface "xdp" iface = true := by
  have htotal : file.accTotal = _ := hacc .totalPackets
  have hdrop : file.accDrop = _ := hacc .dropPackets
  rw [StatsState.sameIface, hbackend, hiface, htotal, hdrop]
  simp only [decide_true, Option.isSome_some, Bool.and_self]

theorem sameContext_saved (hbackend : file.backend = "xdp") (hiface : file.iface = iface)
    (hknown : file.mapId ≠ "-") (hraw : ∀ c, file.raw c = some (encode (raw c)))
    (hacc : ∀ c, file.acc c = some (encode (acc c))) :
    file.sameContext "xdp" iface s.mapId = decide (file.mapId = s.mapId) := by
  have hrtotal : file.rawTotal = _ := hraw .totalPackets
  have hrdrop : file.rawDrop = _ := hraw .dropPackets
  have htotal : file.accTotal = _ := hacc .totalPackets
  have hdrop : file.accDrop = _ := hacc .dropPackets
  rw [StatsState.sameContext, hbackend, hiface, hrtotal, hrdrop, htotal, hdrop]
  by_cases hid : file.mapId = s.mapId
  · have hid' : s.mapId ≠ "-" := hid ▸ hknown
    simp [hid, hid']
  · simp [hid]

/-- Every counter is saved as the value that it shows. -/
theorem accumulated_acc (h : Holds iface file base raw acc) (c : Counter) :
    (accumulated s.totalRow s.dropRow "xdp" iface s.mapId file).acc c =
      some (encode (next s base raw acc c)) := by
  cases h with
  | empty =>
    have hfresh (v : ℕ) : 0 + gain none s.mapId 0 v = v := by
      have hno : ¬((none : Option String) = some s.mapId ∧ 0 ≤ v) := fun h => nomatch h.1
      rw [gain, if_neg hno, Nat.zero_add]
    have hnext : next s none (fun _ => none) (fun _ => none) c = s.value c := by
      simp only [next, Option.getD_none, hfresh, Option.map_id']
    have hcontext : ({} : StatsState).sameContext "xdp" iface s.mapId = false := rfl
    have hiface : ({} : StatsState).sameIface "xdp" iface = false := rfl
    rw [hnext, accumulated, hcontext, hiface]
    cases c <;> rfl
  | saved hbackend hnamed hknown hraw hacc hboth hpackets =>
    have hsameIface := sameIface_saved hbackend hnamed hacc
    have hsame := sameContext_saved s hbackend hnamed hknown hraw hacc
    have hcount (p : ℕ) (c : Counter) (hv : s.value c = some p) (hsome : (raw c).isSome) :
        ∃ r a : ℕ, file.raw c = some (r : ℤ) ∧ file.acc c = some (a : ℤ) ∧
          next s (some file.mapId) raw acc c =
            some (a + gain (some file.mapId) s.mapId r p) := by
      obtain ⟨r, hr⟩ := Option.isSome_iff_exists.mp hsome
      obtain ⟨a, ha⟩ := Option.isSome_iff_exists.mp ((hboth c).symm.trans hsome)
      refine ⟨r, a, ?_, ?_, ?_⟩
      · rw [hraw c, hr]
        rfl
      · rw [hacc c, ha]
        rfl
      · rw [next, hv, hr, ha]
        rfl
    obtain ⟨rt, at', hrt, hat, hnt⟩ := hcount s.total.packets .totalPackets rfl hpackets.1
    obtain ⟨rd, ad, hrd, had, hnd⟩ := hcount s.drop.packets .dropPackets rfl hpackets.2
    have hbytes : file.rawTotalBytes = _ ∧ file.accTotalBytes = _ :=
      ⟨hraw .totalBytes, hacc .totalBytes⟩
    have hbytes' : file.rawDropBytes = _ ∧ file.accDropBytes = _ :=
      ⟨hraw .dropBytes, hacc .dropBytes⟩
    by_cases hid : file.mapId = s.mapId
    · have hbase : some file.mapId = some s.mapId := congrArg some hid
      rw [accumulated, hsame, if_pos (decide_eq_true hid)]
      cases c with
      | totalPackets =>
        have hraw' : file.rawTotal = _ := hrt
        have hacc' : file.accTotal = _ := hat
        rw [hnt, StatsState.acc, hraw', hacc']
        exact congrArg some (advance_encode _ _ _ _ _ hbase)
      | dropPackets =>
        have hraw' : file.rawDrop = _ := hrd
        have hacc' : file.accDrop = _ := had
        rw [hnd, StatsState.acc, hraw', hacc']
        exact congrArg some (advance_encode _ _ _ _ _ hbase)
      | totalBytes =>
        rw [StatsState.acc, hbytes.1, hbytes.2]
        exact congrArg some (advanceBytes_encode _ _ _ _ _ hbase (hboth .totalBytes))
      | dropBytes =>
        rw [StatsState.acc, hbytes'.1, hbytes'.2]
        exact congrArg some (advanceBytes_encode _ _ _ _ _ hbase (hboth .dropBytes))
    · have hgain (r v : ℕ) : gain (some file.mapId) s.mapId r v = v :=
        if_neg fun h => hid (Option.some.inj h.1)
      have hfalse : ¬decide (file.mapId = s.mapId) = true := by simpa using hid
      rw [accumulated, hsame, if_neg hfalse, if_pos hsameIface]
      cases c with
      | totalPackets =>
        have hacc' : file.accTotal = _ := hat
        rw [hnt, StatsState.acc, hacc', hgain]
        rfl
      | dropPackets =>
        have hacc' : file.accDrop = _ := had
        rw [hnd, StatsState.acc, hacc', hgain]
        rfl
      | totalBytes =>
        simp only [next, hgain]
        rw [StatsState.acc, hbytes.2]
        exact congrArg some (addBytes_encode _ _)
      | dropBytes =>
        simp only [next, hgain]
        rw [StatsState.acc, hbytes'.2]
        exact congrArg some (addBytes_encode _ _)

/-- One sample: what it shows, and what the file holds afterwards. -/
theorem sample_step (h : Holds iface file base raw acc) :
    (∀ c, shown (applyXdpAccumulator s.rows "xdp" iface s.mapId file).1 c =
      (next s base raw acc c).map Int.ofNat) ∧
    Holds iface (applyXdpAccumulator s.rows "xdp" iface s.mapId file).2
      (if s.mapId = "-" then base else some s.mapId)
      (if s.mapId = "-" then raw else s.value)
      (if s.mapId = "-" then acc else next s base raw acc) := by
  have hacc := accumulated_acc s h
  refine ⟨fun c => ?_, ?_⟩
  · rw [(apply_sample s c).1, hacc c]
    exact known_encode _
  · rw [(apply_sample s .totalPackets).2]
    by_cases hid : s.mapId = "-"
    · rw [if_pos hid, if_pos hid, if_pos hid, if_pos hid]
      exact h
    · rw [if_neg hid, if_neg hid, if_neg hid, if_neg hid]
      obtain ⟨-, hbackend, hiface, hmapId⟩ := accumulated_saves s iface file .totalPackets
      have hraw (c : Counter) :
          (accumulated s.totalRow s.dropRow "xdp" iface s.mapId file).raw c =
            some (encode (s.value c)) := (accumulated_saves s iface file c).1
      have hsaved := Holds.saved hbackend hiface (hmapId.trans_ne hid) hraw hacc
        (fun c => by rw [next, Option.isSome_map]) ⟨rfl, rfl⟩
      rwa [hmapId] at hsaved

end AutoXdp.Stats
