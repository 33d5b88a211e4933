import AutoXdp.NetlinkDump

/-! A dump is complete or fails exactly when its socket messages have room for a
`struct inet_diag_msg`: the length check of the payload is made against the buffer. -/
namespace AutoXdp
open WordBytes

theorem aligned_ge (len : ℕ) : len ≤ Diag.aligned len := by
  unfold Diag.aligned
  omega

/-! The loop reads the chunk, never what an earlier chunk left behind it. -/
namespace Diag

theorem halfAt_append_left (xs ys : List U8) (off : ℕ) (h : off+2 ≤ xs.length) :
    halfAt (xs ++ ys) off = halfAt xs off := by
  simp only [halfAt, List.getD_eq_getElem?_getD]
  rw [List.getElem?_append_left (by omega), List.getElem?_append_left (by omega)]

theorem bytesAt_append_left (xs ys : List U8) (off len : ℕ) (h : off+len ≤ xs.length) :
    bytesAt (xs ++ ys) off len = bytesAt xs off len := by
  have hdrop : len ≤ (xs.drop off).length := by
    rw [List.length_drop]
    omega
  rw [bytesAt, bytesAt, List.drop_append_of_le_length (by omega),
    List.take_append_of_le_length hdrop]

theorem unpackFrom_append_left (xs ys : List U8) (off : ℕ) (h : off+72 ≤ xs.length) :
    unpackFrom (xs ++ ys) off = unpackFrom xs off := by
  simp only [unpackFrom]
  rw [halfAt_append_left xs ys _ (by omega), halfAt_append_left xs ys _ (by omega),
    bytesAt_append_left xs ys _ _ (by omega), bytesAt_append_left xs ys _ _ (by omega),
    wordAt_append_left xs ys _ (by omega), wordAt_append_left xs ys _ (by omega)]

theorem unpackFrom_drop (bs : List U8) (k off : ℕ) :
    unpackFrom (bs.drop k) off = unpackFrom bs (k+off) := by
  simp only [unpackFrom, wordAt_drop, halfAt, bytesAt, List.getD_eq_getElem?_getD,
    List.getElem?_drop, List.drop_drop, Nat.add_assoc]

theorem pass_append_left (chunk stale : List U8) (off : ℕ) (h : off+16 ≤ chunk.length) :
    pass (chunk ++ stale) chunk.length off = pass chunk chunk.length off := by
  have hlen : msgLen (chunk ++ stale) off = msgLen chunk off :=
    congrArg BitVec.toNat (wordAt_append_left chunk stale off (by omega))
  have htype : msgType (chunk ++ stale) off = msgType chunk off :=
    congrArg BitVec.toNat (halfAt_append_left chunk stale (off+4) (by omega))
  unfold pass
  rw [hlen, htype]
  by_cases hshort : msgLen chunk off < nlmsghdrSz
  · rw [if_pos hshort, if_pos hshort]
  by_cases hlong : chunk.length < off + msgLen chunk off
  · simp only [if_neg hshort, if_pos hlong]
  by_cases herr : msgLen chunk off < nlmsghdrSz + 4
  · -- the errno is not looked at, the payload does not matter to an error
    simp only [if_neg hshort, if_neg hlong, herr, and_true]
    by_cases hdone : msgType chunk off = nlmsgDone
    · rw [if_pos hdone, if_pos hdone]
    by_cases hty : msgType chunk off = nlmsgError
    · simp only [if_neg hdone, if_pos hty]
    simp only [if_neg hdone, hty, false_and, if_false]
    by_cases hpay : msgType chunk off = sockDiagByFamily ∧
        off + nlmsghdrSz + diagMsgSz ≤ chunk.length
    · rw [if_pos hpay, if_pos hpay, unpackFrom_append_left chunk stale _ hpay.2]
    · rw [if_neg hpay, if_neg hpay]
  · have herrno : errorAt (chunk ++ stale) off = errorAt chunk off := by
      have hroom : off + nlmsghdrSz + 4 ≤ chunk.length := by omega
      exact congrArg BitVec.toInt (wordAt_append_left chunk stale _ hroom)
    rw [herrno]
    by_cases hpay : msgType chunk off = sockDiagByFamily ∧
        off + nlmsghdrSz + diagMsgSz ≤ chunk.length
    · rw [if_pos hpay, if_pos hpay, unpackFrom_append_left chunk stale _ hpay.2]
    · rw [if_neg hpay, if_neg hpay]

theorem scan_append_left (chunk stale : List U8) (steps off : ℕ) :
    scan (chunk ++ stale) chunk.length steps off = scan chunk chunk.length steps off := by
  induction steps generalizing off with
  | zero => rfl
  | succ steps ih =>
    simp only [scan]
    by_cases hroom : off + nlmsghdrSz ≤ chunk.length
    · rw [if_pos hroom, if_pos hroom, pass_append_left chunk stale off hroom]
      simp only [ih]
    · rw [if_neg hroom, if_neg hroom]

end Diag

/-! One pass of the loop at a message. -/
namespace NlMsg
open Diag

/-- The row that the loop yields at a message. -/
def yielded (m : NlMsg) : Option DiagRow :=
  if m.type = sockDiagByFamily ∧ m.off + nlmsghdrSz + diagMsgSz ≤ m.chunk.length
  then some (unpackFrom m.chunk (m.off+nlmsghdrSz)) else none

variable {m : NlMsg}

theorem pass_unframed (hroom : m.off + 16 ≤ m.chunk.length) (hm : ¬m.Framed) :
    ∃ e, Diag.pass m.chunk m.chunk.length m.off = .fail e := by
  unfold Diag.pass
  by_cases hshort : msgLen m.chunk m.off < nlmsghdrSz
  · exact ⟨_, if_pos hshort⟩
  by_cases hlong : m.chunk.length < m.off + msgLen m.chunk m.off
  · exact ⟨_, by rw [if_neg hshort, if_pos hlong]⟩
  · exact absurd ⟨hroom, not_lt.mp hshort, not_lt.mp hlong⟩ hm

theorem Framed.enter (hm : m.Framed) :
    ¬msgLen m.chunk m.off < nlmsghdrSz ∧ ¬m.chunk.length < m.off + msgLen m.chunk m.off :=
  ⟨not_lt.mpr hm.atLeast, not_lt.mpr hm.atMost⟩

theorem pass_done (hm : m.Framed) (ht : m.type = nlmsgDone) :
    Diag.pass m.chunk m.chunk.length m.off = .done := by
  have ht' : msgType m.chunk m.off = nlmsgDone := ht
  unfold Diag.pass
  rw [if_neg hm.enter.1, if_neg hm.enter.2, if_pos ht']

theorem pass_erroneous (hm : m.Framed) (he : m.Erroneous) :
    ∃ e, Diag.pass m.chunk m.chunk.length m.off = .fail e := by
  obtain ⟨ht, he⟩ := he
  have ht' : msgType m.chunk m.off = nlmsgError := ht
  have hdone : ¬msgType m.chunk m.off = nlmsgDone := by
    rw [ht']
    decide
  unfold Diag.pass
  rw [if_neg hm.enter.1, if_neg hm.enter.2, if_neg hdone]
  by_cases hshort : msgLen m.chunk m.off < nlmsghdrSz + 4
  · exact ⟨_, if_pos ⟨ht', hshort⟩⟩
  · have hfail := he.resolve_left hshort
    exact ⟨_, by rw [if_neg fun h => hshort h.2, if_pos ⟨ht', hfail⟩]⟩

theorem pass_message (hm : m.Framed) (ht : m.type ≠ nlmsgDone) (he : ¬m.Erroneous) :
    Diag.pass m.chunk m.chunk.length m.off = .next m.yielded (m.off + aligned m.len) := by
  have ht' : msgType m.chunk m.off ≠ nlmsgDone := ht
  have hshort : ¬(msgType m.chunk m.off = nlmsgError ∧
      msgLen m.chunk m.off < nlmsghdrSz + 4) := fun h => he ⟨h.1, Or.inl h.2⟩
  have herrno : ¬(msgType m.chunk m.off = nlmsgError ∧ errorAt m.chunk m.off ≠ 0) :=
    fun h => he ⟨h.1, Or.inr h.2⟩
  unfold Diag.pass
  rw [if_neg hm.enter.1, if_neg hm.enter.2, if_neg ht', if_neg hshort, if_neg herrno]
  rfl

end NlMsg

/-! The loop over a chunk goes through its messages. -/

/-- What the loop ends with, against how the messages end. -/
inductive DumpEnd.Ends : DumpEnd → Except DumpError Bool → Prop
  | done : Ends .done (.ok true)
  | broken (e : DumpError) : Ends .broken (.error e)
  | exhausted : Ends .exhausted (.ok false)

theorem messages_end (chunk : List U8) (off : ℕ) (h : chunk.length < off + 16) :
    ∃ e, Messages chunk off [] e ∧
      e.Ends (if off ≠ chunk.length then .error .trailing else .ok false) := by
  by_cases hoff : off = chunk.length
  · subst hoff
    exact ⟨.exhausted, .exhausted, by rw [if_neg (not_not.mpr rfl)]; exact .exhausted⟩
  · exact ⟨.broken, .partialHeader h hoff, by rw [if_pos hoff]; exact .broken _⟩

/-- A pass moves on by at least a header, so `n/16` passes see every message. -/
theorem scan_messages (chunk : List U8) (steps off : ℕ)
    (h : chunk.length < off + 16*(steps+1)) :
    ∃ ms e fin, Messages chunk off ms e ∧ DumpEnd.Ends e fin ∧
      Diag.scan chunk chunk.length steps off = some (ms.filterMap NlMsg.yielded, fin) := by
  induction steps generalizing off with
  | zero =>
    have hroom : chunk.length < off + 16 := by omega
    obtain ⟨e, he, hfin⟩ := messages_end chunk off hroom
    exact ⟨[], e, _, he, hfin, if_neg (not_le.mpr hroom)⟩
  | succ steps ih =>
    by_cases hroom : off + 16 ≤ chunk.length
    · by_cases hm : (NlMsg.mk chunk off).Framed
      · by_cases ht : (NlMsg.mk chunk off).type = nlmsgDone
        · refine ⟨[], .done, .ok true, .done hm ht, .done, ?_⟩
          have hp := NlMsg.pass_done hm ht
          simp only [Diag.scan, nlmsghdrSz, hroom, if_true]
          rw [hp]
          rfl
        by_cases he : (NlMsg.mk chunk off).Erroneous
        · obtain ⟨err, hp⟩ := NlMsg.pass_erroneous hm he
          refine ⟨[], .broken, .error err, .erroneous hm he, .broken err, ?_⟩
          simp only [Diag.scan, nlmsghdrSz, hroom, if_true]
          rw [hp]
          rfl
        · have hp := NlMsg.pass_message hm ht he
          have hmove := aligned_ge (NlMsg.mk chunk off).len
          have hhead := hm.atLeast
          obtain ⟨ms, e, fin, hms, hfin, hrest⟩ :=
            ih (off + Diag.aligned (NlMsg.mk chunk off).len) (by omega)
          refine ⟨⟨chunk, off⟩ :: ms, e, fin, .message hm ht he hms, hfin, ?_⟩
          simp only [Diag.scan, nlmsghdrSz, hroom, if_true]
          rw [hp]
          simp only [hrest, Option.map_some, List.filterMap_cons]
          cases (NlMsg.mk chunk off).yielded <;> rfl
      · obtain ⟨err, hp⟩ := NlMsg.pass_unframed (m := ⟨chunk, off⟩) hroom hm
        refine ⟨[], .broken, .error err, .unframed hroom hm, .broken err, ?_⟩
        simp only [Diag.scan, nlmsghdrSz, hroom, if_true]
        rw [hp]
        rfl
    · obtain ⟨e, he, hfin⟩ := messages_end chunk off (not_le.mp hroom)
      exact ⟨[], e, _, he, hfin, if_neg hroom⟩

theorem Messages.framed {chunk : List U8} {off : ℕ} {ms : List NlMsg} {e : DumpEnd}
    (h : Messages chunk off ms e) : ∀ m ∈ ms, m.Framed := by
  induction h with
  | exhausted | partialHeader | unframed | done | erroneous => exact fun m hm => nomatch hm
  | message hm ht he rest ih =>
    intro m hmem
    rcases List.mem_cons.mp hmem with rfl | hmem
    · exact hm
    · exact ih m hmem

theorem Messages.unique {chunk : List U8} {off : ℕ} {ms ms' : List NlMsg} {e e' : DumpEnd}
    (h : Messages chunk off ms e) (h' : Messages chunk off ms' e') : ms = ms' ∧ e = e' := by
  induction h generalizing ms' e' with
  | exhausted =>
    cases h' with
    | exhausted => exact ⟨rfl, rfl⟩
    | partialHeader hroom hne => exact absurd rfl hne
    | unframed hroom hm => omega
    | done hm ht | erroneous hm ht | message hm ht he rest =>
      exact absurd hm.header (by simp only [not_le]; omega)
  | partialHeader hroom hne =>
    cases h' with
    | exhausted => exact absurd rfl hne
    | partialHeader => exact ⟨rfl, rfl⟩
    | unframed hroom' hm => omega
    | done hm ht | erroneous hm ht | message hm ht he rest =>
      exact absurd hm.header (not_le.mpr hroom)
  | unframed hroom hm =>
    cases h' with
    | exhausted => omega
    | partialHeader hroom' hne => omega
    | unframed => exact ⟨rfl, rfl⟩
    | done hm' ht | erroneous hm' ht | message hm' ht he rest => exact absurd hm' hm
  | done hm ht =>
    cases h' with
    | exhausted => exact absurd hm.header (by simp only [not_le]; omega)
    | partialHeader hroom hne => exact absurd hm.header (not_le.mpr hroom)
    | unframed hroom hm' => exact absurd hm hm'
    | done => exact ⟨rfl, rfl⟩
    | erroneous hm' he =>
      have hty := ht.symm.trans he.1
      contradiction
    | message hm' ht' he rest => exact absurd ht ht'
  | erroneous hm he =>
    cases h' with
    | exhausted => exact absurd hm.header (by simp only [not_le]; omega)
    | partialHeader hroom hne => exact absurd hm.header (not_le.mpr hroom)
    | unframed hroom hm' => exact absurd hm hm'
    | done hm' ht =>
      have hty := ht.symm.trans he.1
      contradiction
    | erroneous => exact ⟨rfl, rfl⟩
    | message hm' ht he' rest => exact absurd he he'
  | message hm ht he rest ih =>
    cases h' with
    | exhausted => exact absurd hm.header (by simp only [not_le]; omega)
    | partialHeader hroom hne => exact absurd hm.header (not_le.mpr hroom)
    | unframed hroom hm' => exact absurd hm hm'
    | done hm' ht' => exact absurd ht' ht
    | erroneous hm' he' => exact absurd he' he
    | message hm' ht' he' rest' =>
      obtain ⟨rfl, rfl⟩ := ih rest'
      exact ⟨rfl, rfl⟩

/-! The chunks of a dump. -/

theorem DumpMessages.framed {chunks : List (List U8)} {ms : List NlMsg} {e : DumpEnd}
    (h : DumpMessages chunks ms e) : ∀ m ∈ ms, m.Framed := by
  induction h with
  | closed | zeroLength => exact fun m hm => nomatch hm
  | last hc h he => exact h.framed
  | more hc h rest ih =>
    intro m hm
    rcases List.mem_append.mp hm with hm | hm
    · exact h.framed m hm
    · exact ih m hm

theorem DumpMessages.unique {chunks : List (List U8)} {ms ms' : List NlMsg} {e e' : DumpEnd}
    (h : DumpMessages chunks ms e) (h' : DumpMessages chunks ms' e') : ms = ms' ∧ e = e' := by
  induction h generalizing ms' e' with
  | closed =>
    cases h'
    exact ⟨rfl, rfl⟩
  | zeroLength =>
    cases h' with
    | zeroLength => exact ⟨rfl, rfl⟩
    | last hc h he | more hc h rest => exact absurd rfl hc
  | last hc h he =>
    cases h' with
    | zeroLength => exact absurd rfl hc
    | last hc' h' he' => exact h.unique h'
    | more hc' h' rest => exact absurd (h.unique h').2 he
  | more hc h rest ih =>
    cases h' with
    | zeroLength => exact absurd rfl hc
    | last hc' h' he' => exact absurd (h.unique h').2.symm he'
    | more hc' h' rest' =>
      obtain ⟨rfl, -⟩ := h.unique h'
      obtain ⟨rfl, rfl⟩ := ih rest'
      exact ⟨rfl, rfl⟩

/-- The dump never runs out of passes. It yields a row for each of its messages that has
one, and it returns exactly when NLMSG_DONE ends the messages. -/
theorem dump_messages (chunks : List (List U8)) (buf : List U8) :
    ∃ ms e fin, DumpMessages chunks ms e ∧ (fin = .ok () ↔ e = .done) ∧
      Diag.nldiagDump buf chunks = some (ms.filterMap NlMsg.yielded, fin) := by
  induction chunks generalizing buf with
  | nil => exact ⟨[], .broken, .error .closed, .closed, by simp, rfl⟩
  | cons chunk chunks ih =>
    by_cases hc : chunk = []
    · subst hc
      exact ⟨[], .broken, .error .closed, .zeroLength, by simp, rfl⟩
    have hlen : ¬chunk.length = 0 := fun h => hc (List.length_eq_zero_iff.mp h)
    obtain ⟨ms, e, fin, hms, hfin, hscan⟩ :=
      scan_messages chunk (chunk.length/16) 0 (by omega)
    rw [← Diag.scan_append_left chunk (buf.drop chunk.length)] at hscan
    simp only [Diag.nldiagDump, if_neg hlen, Diag.recvInto, hscan]
    cases hfin with
    | done => exact ⟨ms, .done, .ok (), .last hc hms (by decide), by simp, rfl⟩
    | broken err => exact ⟨ms, .broken, .error err, .last hc hms (by decide), by simp, rfl⟩
    | exhausted =>
      obtain ⟨ms', e', fin', hms', hfin', hrest⟩ := ih (chunk ++ buf.drop chunk.length)
      refine ⟨ms ++ ms', e', fin', .more hc hms hms', hfin', ?_⟩
      simp only [hrest, Option.map_some, List.filterMap_append]

/-! What a message yields, against the row that its own bytes hold. -/
namespace NlMsg
open Diag
variable {m : NlMsg}

theorem length_bytes (hm : m.Framed) : m.bytes.length = m.len := by
  have hroom := hm.atMost
  rw [bytes, List.length_take, List.length_drop]
  omega

theorem unpackFrom_bytes (hm : m.Framed) (h : 88 ≤ m.len) :
    unpackFrom m.bytes nlmsghdrSz = unpackFrom m.chunk (m.off+nlmsghdrSz) := by
  have hlong : nlmsghdrSz + 72 ≤ m.bytes.length := (length_bytes hm).symm ▸ h
  have hsplit : m.bytes ++ (m.chunk.drop m.off).drop m.len = m.chunk.drop m.off :=
    List.take_append_drop m.len _
  rw [← unpackFrom_append_left m.bytes ((m.chunk.drop m.off).drop m.len) _ hlong, hsplit,
    unpackFrom_drop]

theorem row_of_long (hm : m.Framed) (ht : m.IsSock) (h : 88 ≤ m.len) :
    ∃ r, m.row = some r ∧ m.yielded = some r := by
  have hroom := hm.atMost
  refine ⟨unpackFrom m.chunk (m.off+nlmsghdrSz), ?_, if_pos ⟨ht, ?_⟩⟩
  · have hlong : nlmsghdrSz + diagMsgSz ≤ m.bytes.length := (length_bytes hm).symm ▸ h
    rw [row, if_pos hlong, unpackFrom_bytes hm h]
  · simp only [nlmsghdrSz, diagMsgSz]
    omega

theorem row_of_short (hm : m.Framed) (h : m.len < 88) : m.row = none := by
  have hshort : ¬nlmsghdrSz + diagMsgSz ≤ m.bytes.length := by
    rw [length_bytes hm]
    exact not_le.mpr h
  exact if_neg hshort

end NlMsg

/-- The dump is complete or it fails: within its passes it ends, normally exactly when
NLMSG_DONE ends the messages; then it yielded one row for each socket message, read from
the bytes of that message; and no message ever yields a row of other bytes. -/
def CompleteOrFails (buf : List U8) (chunks : List (List U8)) : Prop :=
  ∃ rows fin ms e, Diag.nldiagDump buf chunks = some (rows, fin) ∧
    DumpMessages chunks ms e ∧ (fin = .ok () ↔ e = .done) ∧
    rows = ms.filterMap NlMsg.yielded ∧
    (e = .done → rows.map some = (ms.filter NlMsg.IsSock).map NlMsg.row) ∧
    ∀ m ∈ ms, ∀ r, m.yielded = some r → m.row = some r

/-- Every socket message is long enough for its payload; in a dump that NLMSG_DONE does
not end, a shorter one may stand where the chunk has no room for a payload either. -/
def LongEnough (chunks : List (List U8)) : Prop :=
  ∀ ms e, DumpMessages chunks ms e → ∀ m ∈ ms, m.IsSock →
    88 ≤ m.len ∨ (e ≠ .done ∧ m.chunk.length < m.off + 88)

/-- Long socket messages yield their rows, one each and in order. -/
theorem map_yielded (ms : List NlMsg) (hms : ∀ m ∈ ms, m.Framed)
    (h : ∀ m ∈ ms, m.IsSock → 88 ≤ m.len) :
    (ms.filterMap NlMsg.yielded).map some = (ms.filter NlMsg.IsSock).map NlMsg.row := by
  induction ms with
  | nil => rfl
  | cons m ms ih =>
    have hrest := ih (fun x hx => hms x (List.mem_cons_of_mem m hx))
      (fun x hx => h x (List.mem_cons_of_mem m hx))
    by_cases ht : m.IsSock
    · obtain ⟨r, hrow, hy⟩ := NlMsg.row_of_long (hms m List.mem_cons_self) ht
        (h m List.mem_cons_self ht)
      have hsock : decide m.IsSock = true := decide_eq_true ht
      rw [List.filterMap_cons_some hy, List.map_cons, hrest, ← hrow, ← List.map_cons,
        List.filter_cons, if_pos hsock]
    · have hy : m.yielded = none := if_neg fun h => ht h.1
      rw [List.filterMap_cons_none hy, List.filter_cons_of_neg (by simpa using ht), hrest]

theorem complete_or_fails (buf : List U8) (chunks : List (List U8)) :
    CompleteOrFails buf chunks ↔ LongEnough chunks := by
  constructor
  · rintro ⟨rows, fin, ms, e, hdump, hms, hfin, hrows, hdone, hown⟩ ms' e' hms' m hm ht
    obtain ⟨rfl, rfl⟩ := hms.unique hms'
    by_contra hshort
    obtain ⟨hlen, hroom⟩ := not_or.mp hshort
    have hnone : m.row = none := NlMsg.row_of_short (hms.framed m hm) (not_le.mp hlen)
    by_cases he : e = .done
    · -- its row would stand among the rows of the dump
      have hmem : m.row ∈ rows.map some := by
        rw [hdone he]
        exact List.mem_map_of_mem (List.mem_filter.mpr ⟨hm, decide_eq_true ht⟩)
      obtain ⟨r, -, hr⟩ := List.mem_map.mp hmem
      rw [hnone] at hr
      contradiction
    · -- the payload fits the chunk, so the neighbour's bytes are read
      have hfit : m.off + nlmsghdrSz + diagMsgSz ≤ m.chunk.length :=
        not_lt.mp fun h => hroom ⟨he, h⟩
      have hy := hown m hm _ (if_pos ⟨ht, hfit⟩)
      rw [hnone] at hy
      contradiction
  · intro h
    obtain ⟨ms, e, fin, hms, hfin, hdump⟩ := dump_messages chunks buf
    refine ⟨_, fin, ms, e, hdump, hms, hfin, rfl, ?_, ?_⟩
    · intro he
      refine map_yielded ms hms.framed fun m hm ht => ?_
      exact (h ms e hms m hm ht).resolve_right fun hr => hr.1 he
    · intro m hm r hr
      have ht : m.IsSock := by
        by_contra ht
        have hy : m.yielded = none := if_neg fun h => ht h.1
        rw [hy] at hr
        contradiction
      rcases h ms e hms m hm ht with hlen | ⟨-, hroom⟩
      · obtain ⟨r', hrow, hy⟩ := NlMsg.row_of_long (hms.framed m hm) ht hlen
        rw [hrow, ← hy, hr]
      · have hy : m.yielded = none := if_neg fun h => absurd h.2 (not_le.mpr hroom)
        rw [hy] at hr
        contradiction

/-- A bare header of type SOCK_DIAG_BY_FAMILY, then NLMSG_DONE. -/
def bareHeader : List U8 :=
  [16, 0, 0, 0, 20, 0, 0, 0, 1, 0, 0, 0, 0, 0, 0, 0, 16, 0, 0, 0, 3, 0, 0, 0, 1, 0, 0, 0, 0,
    0, 0, 0]

/-- The dump ends normally and has passed over the socket message. -/
theorem bare_header_skipped : ¬CompleteOrFails [] [bareHeader] := by
  rintro ⟨rows, fin, ms, e, hdump, hms, hfin, hrows, hdone, hown⟩
  have hend : DumpMessages [bareHeader] [⟨bareHeader, 0⟩] .done := by
    refine .last (by decide) (.message ⟨by decide, by decide, by decide⟩ (by decide) ?_
      (.done ⟨by decide, by decide, by decide⟩ (by decide))) (by decide)
    exact fun h => absurd h.1 (by decide)
  obtain ⟨rfl, rfl⟩ := hms.unique hend
  have hrow : rows.map some = [none] := (hdone rfl).trans (by decide)
  subst hrows
  exact absurd hrow (by decide)

end AutoXdp
