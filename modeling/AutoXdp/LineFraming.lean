import AutoXdp.RelayLines
import Mathlib.Tactic.SplitIfs

/-! The line framing of the relay subscription holds exactly when no line is at fault and
no port change first becomes complete in the call that meets the end of the stream. -/
namespace AutoXdp
open DelimitedLines PyJson

namespace Relay
variable (lim : Limits)

theorem load_nil : loads lim [] = .error .jsonDecodeError := by
  cases hn : lim.nesting <;> simp [loads, decode, detectEncoding, utf8, skipWs, scanOnce]

/-- A line that is not at fault says whether it is a port change. -/
theorem readLine_of_not_faulty (raw : List (BitVec 8)) (h : ¬Faulty lim raw) :
    ∃ f, readLine lim raw = .ok f ∧ (f = true ↔ IsPortChange lim raw) := by
  unfold readLine
  by_cases hraw : raw = []
  · subst hraw
    refine ⟨false, if_pos rfl, by simp [IsPortChange, load_nil]⟩
  rw [if_neg hraw]
  simp only [Faulty] at h
  cases hl : loads lim raw with
  | error e =>
    have he : e = .jsonDecodeError := by simpa only [hl, ne_eq, not_not] using h
    subst he
    exact ⟨false, rfl, by simp [IsPortChange, hl]⟩
  | ok v =>
    cases v with
    | object members => exact ⟨isPortChange members, rfl, by simp [IsPortChange, hl]⟩
    | null | bool | number | string | array => simp [hl] at h

theorem readLine_of_faulty (raw : List (BitVec 8)) (h : Faulty lim raw) :
    ∃ e, readLine lim raw = .error e ∧ ¬e.Disconnects := by
  have hraw : raw ≠ [] := by
    rintro rfl
    simp [Faulty, load_nil] at h
  unfold readLine
  rw [if_neg hraw]
  simp only [Faulty] at h
  cases hl : loads lim raw with
  | error e =>
    refine ⟨.load e, ?_, by simp [DrainError.Disconnects]⟩
    cases e with
    | jsonDecodeError => simp [hl] at h
    | unicodeDecodeError | recursionError | valueError => rfl
  | ok v =>
    cases v with
    | object members => simp [hl] at h
    | null | bool | number | string | array =>
      exact ⟨.attributeError, rfl, by simp [DrainError.Disconnects]⟩

/-! The loop of one call. -/

/-- A buffer has no newline, or it is a line, a newline and the rest that the loop goes on with. -/
theorem pending_cases (pending : List (BitVec 8)) :
    (newline ∉ pending ∧ pending.findIdx? (· = newline) = none) ∨
    ∃ line rest, pending = line ++ newline :: rest ∧ newline ∉ line ∧
      pending.findIdx? (· = newline) = some line.length := by
  induction pending with
  | nil => exact Or.inl ⟨List.not_mem_nil, rfl⟩
  | cons b bs ih =>
    by_cases hb : b = newline
    · subst hb
      refine Or.inr ⟨[], bs, rfl, List.not_mem_nil, ?_⟩
      rw [List.findIdx?_cons, if_pos (by decide)]
      rfl
    · have hidx : (b :: bs).findIdx? (· = newline) =
          (bs.findIdx? (· = newline)).map (· + 1) := by
        rw [List.findIdx?_cons, if_neg (by simpa using hb)]
      rcases ih with ⟨hmem, hnone⟩ | ⟨line, rest, rfl, hmem, hsome⟩
      · refine Or.inl ⟨List.not_mem_cons_of_ne_of_not_mem (Ne.symm hb) hmem, ?_⟩
        rw [hidx, hnone]
        rfl
      · refine Or.inr ⟨b :: line, rest, rfl, ?_, ?_⟩
        · exact List.not_mem_cons_of_ne_of_not_mem (Ne.symm hb) hmem
        · rw [hidx, hsome]
          rfl

theorem readLines_spec (n : ℕ) (pending : List (BitVec 8)) (found : Bool)
    (hn : pending.length ≤ n) (h : ∀ line ∈ lines newline pending, ¬Faulty lim line) :
    ∃ f, readLines lim n pending found = ⟨tail newline pending, .ok f⟩ ∧
      (f = true ↔ found = true ∨ ∃ line ∈ lines newline pending, IsPortChange lim line) := by
  induction n generalizing pending found with
  | zero =>
    have hp : pending = [] := List.length_eq_zero_iff.mp (Nat.le_zero.mp hn)
    subst hp
    exact ⟨found, rfl, by simp⟩
  | succ n ih =>
    rw [readLines]
    rcases pending_cases pending with ⟨hmem, hidx⟩ | ⟨line, rest, rfl, hmem, hidx⟩
    · have hsplit := split_of_notMem newline pending hmem
      simp only [hidx, lines, tail, hsplit]
      exact ⟨found, rfl, by simp⟩
    · rw [lines_line newline line rest hmem] at h ⊢
      obtain ⟨f, hf, hport⟩ := readLine_of_not_faulty lim line (h line List.mem_cons_self)
      have hlen : rest.length ≤ n := by
        rw [List.length_append, List.length_cons] at hn
        omega
      obtain ⟨g, hg, hgport⟩ := ih rest (found || f) hlen
        fun l hl => h l (List.mem_cons_of_mem line hl)
      refine ⟨g, ?_, ?_⟩
      · simp only [hidx, tail_line newline line rest hmem, List.take_left, hf]
        rw [← hg]
        simp
      · rw [hgport, Bool.or_eq_true, hport, List.exists_mem_cons_iff, or_assoc]

theorem readLines_fault (n : ℕ) (pending : List (BitVec 8)) (found : Bool)
    (hn : pending.length ≤ n) (h : ∃ line ∈ lines newline pending, Faulty lim line) :
    ∃ rest e, readLines lim n pending found = ⟨rest, .error e⟩ ∧ ¬e.Disconnects := by
  induction n generalizing pending found with
  | zero =>
    have hp : pending = [] := List.length_eq_zero_iff.mp (Nat.le_zero.mp hn)
    subst hp
    simp at h
  | succ n ih =>
    rw [readLines]
    rcases pending_cases pending with ⟨hmem, hidx⟩ | ⟨line, rest, rfl, hmem, hidx⟩
    · rw [lines, split_of_notMem newline pending hmem] at h
      simp at h
    · have hlines := lines_line newline line rest hmem
      have hlen : rest.length ≤ n := by
        rw [List.length_append, List.length_cons] at hn
        omega
      have hdrop : (line ++ newline :: rest).drop (line.length+1) = rest := by simp
      simp only [hidx, List.take_left, hdrop]
      by_cases hline : Faulty lim line
      · obtain ⟨e, he, hd⟩ := readLine_of_faulty lim line hline
        exact ⟨rest, e, by simp only [he], hd⟩
      · obtain ⟨f, hf, -⟩ := readLine_of_not_faulty lim line hline
        rw [hlines, List.exists_mem_cons_iff] at h
        obtain ⟨rest', e, he, hd⟩ := ih rest (found || f) hlen (h.resolve_left hline)
        exact ⟨rest', e, by simp only [hf, he], hd⟩

/-! The calls on a connection. The buffer between two calls is the open line of the stream. -/

theorem drain_quiet (pending : List (BitVec 8)) (c : Call) (hc : c.ending = .wouldBlock)
    (h : ∀ line ∈ lines newline (pending ++ c.bytes), ¬Faulty lim line) :
    ∃ f, drainRelayLines lim pending c = ⟨tail newline (pending ++ c.bytes), .ok f⟩ ∧
      (f = true ↔ ∃ line ∈ lines newline (pending ++ c.bytes), IsPortChange lim line) := by
  obtain ⟨f, hf, hport⟩ := readLines_spec lim _ (pending ++ c.bytes) false (Nat.le_refl _) h
  refine ⟨f, ?_, by simpa using hport⟩
  rw [← hf, drainRelayLines, hc]

theorem drain_ended (pending : List (BitVec 8)) (c : Call) (hc : c.ending ≠ .wouldBlock) :
    ∃ e, drainRelayLines lim pending c = ⟨pending ++ c.bytes, .error e⟩ ∧ e.Disconnects := by
  cases he : c.ending with
  | wouldBlock => exact absurd he hc
  | closed => exact ⟨.connectionReset, by simp only [drainRelayLines, he], Or.inl rfl⟩
  | failed => exact ⟨.osError, by simp only [drainRelayLines, he], Or.inr rfl⟩

theorem run_blocked (pending : List (BitVec 8)) (c : Call) (cs : List Call) {out : Drained}
    {f : Bool} (h : drainRelayLines lim pending c = out) (hf : out.result = .ok f) :
    run lim pending (c :: cs) = out :: run lim out.pending cs := by
  simp only [run, h, hf]

theorem run_error (pending : List (BitVec 8)) (c : Call) (cs : List Call) {out : Drained}
    {e : DrainError} (h : drainRelayLines lim pending c = out) (he : out.result = .error e) :
    run lim pending (c :: cs) = [out] := by
  simp only [run, h, he]

/-- Without a faulty line the calls report a port change exactly when a call before the
end of the stream completes one. -/
theorem run_quiet (pending : List (BitVec 8)) (calls : List Call) (hp : newline ∉ pending)
    (h : ∀ line ∈ lines newline (pending ++ parsed calls), ¬Faulty lim line) :
    ((∃ out ∈ run lim pending calls, out.result = .ok true) ↔
      ∃ line ∈ lines newline (pending ++ parsed calls), IsPortChange lim line) ∧
    (∀ k out found, (run lim pending calls)[k]? = some out → out.result = .ok found →
      out.pending = tail newline (pending ++ received (calls.take (k+1)))) ∧
    ∀ out ∈ run lim pending calls, ∀ e, out.result = .error e → e.Disconnects := by
  have hopen : lines newline pending = [] := by
    rw [lines, split_of_notMem newline pending hp]
  induction calls generalizing pending with
  | nil => simp [run, parsed, hopen]
  | cons c cs ih =>
    by_cases hc : c.ending = .wouldBlock
    · have hparsed : pending ++ parsed (c :: cs) = (pending ++ c.bytes) ++ parsed cs := by
        rw [parsed, if_pos hc, List.append_assoc]
      rw [hparsed, lines_append] at h ⊢
      obtain ⟨f, hdrain, hport⟩ := drain_quiet lim pending c hc
        fun line hl => h line (List.mem_append_left _ hl)
      have hrest := notMem_tail newline (pending ++ c.bytes)
      obtain ⟨hreports, hremainder, hexceptions⟩ := ih (tail newline (pending ++ c.bytes)) hrest
        (fun line hl => h line (List.mem_append_right _ hl))
        (by rw [lines, split_of_notMem newline _ hrest])
      rw [run_blocked lim pending c cs hdrain rfl]
      refine ⟨?_, ?_, ?_⟩
      · rw [List.exists_mem_cons_iff, hreports]
        have hf : (Except.ok f : Except DrainError Bool) = .ok true ↔ f = true := by simp
        simp only [hf, hport, List.mem_append, or_and_right, exists_or]
      · intro k out found hk hres
        cases k with
        | zero =>
          obtain rfl := Option.some.inj hk
          simp only [Nat.zero_add, List.take_succ_cons, List.take_zero, received, if_pos hc,
            List.append_nil]
        | succ k =>
          have hout := hremainder k out found hk hres
          rw [hout, ← tail_append, List.take_succ_cons, received, if_pos hc, List.append_assoc]
      · intro out hm e he
        rcases List.mem_cons.mp hm with rfl | hm
        · simp at he
        · exact hexceptions out hm e he
    · obtain ⟨e, hdrain, hd⟩ := drain_ended lim pending c hc
      have hparsed : parsed (c :: cs) = [] := if_neg hc
      rw [run_error lim pending c cs hdrain rfl, hparsed, List.append_nil, hopen]
      refine ⟨by simp, ?_, ?_⟩
      · intro k out found hk hres
        cases k with
        | zero =>
          obtain rfl := Option.some.inj hk
          simp at hres
        | succ k => simp at hk
      · intro out hm e' he
        obtain rfl := List.mem_singleton.mp hm
        obtain rfl := Except.error.inj he
        exact hd

/-- A faulty line takes the exceptions out of the loop's hands. -/
theorem run_fault (pending : List (BitVec 8)) (calls : List Call) (hp : newline ∉ pending)
    (h : ∃ line ∈ lines newline (pending ++ parsed calls), Faulty lim line) :
    ∃ out ∈ run lim pending calls, ∃ e, out.result = .error e ∧ ¬e.Disconnects := by
  induction calls generalizing pending with
  | nil => simp [parsed, lines, split_of_notMem newline pending hp] at h
  | cons c cs ih =>
    have hc : c.ending = .wouldBlock := by
      by_contra hc
      rw [parsed, if_neg hc, List.append_nil, lines, split_of_notMem newline pending hp] at h
      simp at h
    rw [parsed, if_pos hc, ← List.append_assoc, lines_append] at h
    by_cases hnow : ∃ line ∈ lines newline (pending ++ c.bytes), Faulty lim line
    · obtain ⟨rest, e, hread, hd⟩ :=
        readLines_fault lim _ (pending ++ c.bytes) false (Nat.le_refl _) hnow
      have hdrain : drainRelayLines lim pending c = ⟨rest, .error e⟩ := by
        rw [← hread, drainRelayLines, hc]
      rw [run_error lim pending c cs hdrain rfl]
      exact ⟨_, List.mem_singleton_self _, e, rfl, hd⟩
    · have hquiet : ∀ line ∈ lines newline (pending ++ c.bytes), ¬Faulty lim line :=
        fun line hl hf => hnow ⟨line, hl, hf⟩
      obtain ⟨f, hdrain, -⟩ := drain_quiet lim pending c hc hquiet
      obtain ⟨line, hl, hf⟩ := h
      have hlater := (List.mem_append.mp hl).resolve_left fun hl => hquiet line hl hf
      obtain ⟨out, hout, he⟩ := ih _ (notMem_tail newline _) ⟨line, hlater, hf⟩
      rw [run_blocked lim pending c cs hdrain rfl]
      exact ⟨out, List.mem_cons_of_mem _ hout, he⟩

/-- No line that is parsed is at fault, and the call that meets the end of the stream does
not complete the first port change. -/
def Readable (calls : List Call) : Prop :=
  (∀ line ∈ lines newline (parsed calls), ¬Faulty lim line) ∧
  ((∃ line ∈ lines newline (received calls), IsPortChange lim line) →
    ∃ line ∈ lines newline (parsed calls), IsPortChange lim line)

theorem lines_parsed_subset (calls : List Call) (line : List (BitVec 8))
    (h : line ∈ lines newline (parsed calls)) : line ∈ lines newline (received calls) := by
  have hprefix : ∃ more, received calls = parsed calls ++ more := by
    clear h
    induction calls with
    | nil => exact ⟨[], rfl⟩
    | cons c cs ih =>
      by_cases hc : c.ending = .wouldBlock
      · obtain ⟨more, hmore⟩ := ih
        exact ⟨more, by rw [received, parsed, if_pos hc, if_pos hc, hmore, List.append_assoc]⟩
      · exact ⟨received (c :: cs), by rw [parsed, if_neg hc, List.nil_append]⟩
  obtain ⟨more, hmore⟩ := hprefix
  rw [hmore, lines_append]
  exact List.mem_append_left _ h

theorem line_framing (calls : List Call) : Framing lim calls ↔ Readable lim calls := by
  have hnil : newline ∉ ([] : List (BitVec 8)) := List.not_mem_nil
  constructor
  · intro hframing
    have hfine : ∀ line ∈ lines newline (parsed calls), ¬Faulty lim line := by
      intro line hl hf
      obtain ⟨out, hout, e, he, hd⟩ := run_fault lim [] calls hnil ⟨line, hl, hf⟩
      exact hd (hframing.exceptions out hout e he)
    have hquiet := run_quiet lim [] calls hnil hfine
    exact ⟨hfine, fun h => hquiet.1.mp (hframing.reports.mpr h)⟩
  · rintro ⟨hfine, hport⟩
    obtain ⟨hreports, hremainder, hexceptions⟩ := run_quiet lim [] calls hnil hfine
    refine ⟨hreports.trans ⟨?_, hport⟩, hremainder, hexceptions⟩
    rintro ⟨line, hl, hp⟩
    exact ⟨line, lines_parsed_subset calls line hl, hp⟩

/-- `{"type":"port_change"}` and a newline, read together with the end of the stream. -/
def lastLine : Call where
  chunks := [[0x7B, 0x22, 0x74, 0x79, 0x70, 0x65, 0x22, 0x3A, 0x22, 0x70, 0x6F, 0x72, 0x74,
    0x5F, 0x63, 0x68, 0x61, 0x6E, 0x67, 0x65, 0x22, 0x7D, 0x0A]]
  ending := .closed
  nonempty := by simp

/-- The test that a line is a port change. -/
def readsPortChange (lim : Limits) (line : List (BitVec 8)) : Bool :=
  match loads lim line with
  | .ok (.object members) => isPortChange members
  | _ => false

theorem isPortChange_of_reads (lim : Limits) (line : List (BitVec 8))
    (h : readsPortChange lim line = true) : IsPortChange lim line := by
  unfold readsPortChange at h
  split at h
  · exact ⟨_, ‹_›, h⟩
  · contradiction

theorem last_line_dropped : ¬Framing ⟨900, some 4300⟩ [lastLine] := by
  intro hframing
  let line := lastLine.bytes.dropLast
  have hline : lines newline (received [lastLine]) = [line] := by decide +kernel
  have hchange : IsPortChange ⟨900, some 4300⟩ line :=
    isPortChange_of_reads ⟨900, some 4300⟩ line (by decide +kernel)
  obtain ⟨out, hout, hres⟩ := hframing.reports.mpr ⟨line, hline ▸ List.mem_singleton_self _, hchange⟩
  have hrun : run ⟨900, some 4300⟩ [] [lastLine] = [⟨lastLine.bytes, .error .connectionReset⟩] := rfl
  rw [hrun, List.mem_singleton] at hout
  subst hout
  contradiction

end Relay

end AutoXdp
