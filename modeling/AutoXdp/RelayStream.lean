import AutoXdp.GuardedRun
import AutoXdp.RelayServer
import Mathlib.Data.List.Nodup
import Mathlib.Tactic.Basic

/-! What a client of the relay receives. -/
namespace AutoXdp.RelayServer
open PyJson Relay GuardedRun

/-! Lines. -/

theorem newline_notMem {t : Text} (h : Printable t) : newline ∉ encode t := by
  intro hmem
  obtain ⟨c, hc, heq⟩ := List.mem_map.mp hmem
  have hprint := h c hc
  rw [isPrintable, decide_eq_true_eq] at hprint
  have hval := congrArg BitVec.toNat heq
  rw [BitVec.toNat_ofNat, Nat.mod_eq_of_lt (by omega)] at hval
  have hten : c = 10 := hval
  omega

theorem printable_eventText (ev : Event) : Printable (eventText ev) := printable_dumpsDict _

theorem printable_historyText (events : List Event) : Printable (historyText events) := by
  apply printable_enclosed (by decide) (by decide)
  apply printable_joinItems
  intro t ht
  rcases List.mem_cons.mp ht with rfl | ht
  · exact printable_dumpsMember _ (printable_dumpsString _)
  · rw [List.mem_singleton] at ht
    subst ht
    apply printable_dumpsMember
    apply printable_dumpsList
    intro item hitem
    obtain ⟨ev, -, rfl⟩ := List.mem_map.mp hitem
    exact printable_dumpsDict ev.dict

/-- One more line behind whole lines. -/
theorem lines_snoc {bs : List Byte} {t : Text} (ht : Printable t)
    (hbs : DelimitedLines.tail newline bs = []) :
    DelimitedLines.lines newline (bs ++ line t) =
      DelimitedLines.lines newline bs ++ [encode t] ∧
    DelimitedLines.tail newline (bs ++ line t) = [] := by
  have hnew := newline_notMem ht
  constructor
  · rw [DelimitedLines.lines_append, hbs, List.nil_append, line,
      DelimitedLines.lines_line newline _ _ hnew]
    rfl
  · rw [DelimitedLines.tail_append, hbs, List.nil_append, line,
      DelimitedLines.tail_line newline _ _ hnew]
    rfl

/-! Sending. -/

/-- A connection whose client is there. -/
structure Conn.Alive (c : Conn) : Prop where
  there : c.gone = false
  bound : c.unread.length ≤ c.cap

/-- The lines so far, whatever of them the client has read. -/
structure Conn.Carries (c : Conn) (id : ℕ) (texts : List (List Byte)) : Prop where
  id_eq : c.id = id
  alive : c.Alive
  lines_eq : DelimitedLines.lines newline c.stream = texts
  whole : DelimitedLines.tail newline c.stream = []

theorem stream_put (c : Conn) (bs : List Byte) : (c.put bs).stream = c.stream ++ bs :=
  (List.append_assoc ..).symm

theorem stream_read (c : Conn) (n : ℕ) : (c.peer (.read n)).stream = c.stream := by
  rw [Conn.stream, Conn.peer, List.append_assoc, List.take_append_drop, ← Conn.stream]

theorem alive_put {c : Conn} (h : c.Alive) {bs : List Byte} (hfits : bs.length ≤ c.free) :
    (c.put bs).Alive := by
  have hbound := h.bound
  refine ⟨h.there, ?_⟩
  rw [Conn.put, List.length_append]
  unfold Conn.free at hfits
  dsimp only
  omega

theorem alive_read {c : Conn} (h : c.Alive) (n : ℕ) : (c.peer (.read n)).Alive := by
  refine ⟨h.there, ?_⟩
  rw [Conn.peer, List.length_drop]
  exact (Nat.sub_le ..).trans h.bound

theorem sendall_fits (acts : List PeerAct) {bs : List Byte} {c : Conn} (h : c.Alive)
    (hfits : bs.length ≤ c.free) : sendall acts bs c = (true, c.put bs) := by
  have hgone : ¬c.gone = true := by
    rw [h.there]
    exact Bool.false_ne_true
  cases acts with
  | nil => rw [sendall, if_neg hgone, if_pos hfits]
  | cons act acts => rw [sendall, if_neg hgone, if_pos hfits]

/-- A buffer that has been filled, after a read. -/
theorem free_refilled {c : Conn} {bs : List Byte} (h : c.Alive) (hlen : c.free ≤ bs.length)
    (n : ℕ) : ((c.put (bs.take c.free)).peer (.read n)).free = min n c.cap := by
  have hbound := h.bound
  have htake : (bs.take (c.cap - c.unread.length)).length = c.cap - c.unread.length :=
    List.length_take_of_le hlen
  unfold Conn.free Conn.peer Conn.put
  dsimp only
  rw [List.length_drop, List.length_append, htake]
  omega

/-- With room for the whole, `sendall` sends the whole. -/
theorem sendall_room (acts : List PeerAct) {bs : List Byte} {c : Conn} (h : c.Alive)
    (hroom : roomFor c.cap acts bs.length c.free = true) :
    ∃ c', sendall acts bs c = (true, c') ∧ c'.stream = c.stream ++ bs ∧ c'.id = c.id ∧
      c'.Alive := by
  induction acts generalizing bs c with
  | nil =>
    have hfits : bs.length ≤ c.free := by
      rw [roomFor, decide_eq_true_eq] at hroom
      · exact hroom
      · exact nofun
    exact ⟨c.put bs, sendall_fits [] h hfits, stream_put c bs, rfl, alive_put h hfits⟩
  | cons act acts ih =>
    by_cases hfits : bs.length ≤ c.free
    · exact ⟨c.put bs, sendall_fits _ h hfits, stream_put c bs, rfl, alive_put h hfits⟩
    cases act with
    | close =>
      rw [roomFor, decide_eq_true_eq] at hroom
      · exact absurd hroom hfits
      · exact nofun
    | read n =>
      rw [roomFor, Bool.or_eq_true, Bool.and_eq_true, decide_eq_true_eq, decide_eq_true_eq]
        at hroom
      obtain ⟨hfree, hrest⟩ := hroom.resolve_left hfits
      have hlong := Nat.le_of_not_le hfits
      have hgone : ¬c.gone = true := by
        rw [h.there]
        exact Bool.false_ne_true
      -- The first send fills the buffer, then the client reads `n` bytes of it.
      have hread := alive_read (alive_put h (List.length_take_of_le hlong).le) n
      have hlen : (bs.drop c.free).length = bs.length - c.free := List.length_drop
      have hstep : sendall (.read n :: acts) bs c =
          sendall acts (bs.drop c.free) ((c.put (bs.take c.free)).peer (.read n)) := by
        rw [sendall, if_neg hgone, if_neg hfits, if_neg (Nat.pos_iff_ne_zero.mp hfree)]
      have hstream : ((c.put (bs.take c.free)).peer (.read n)).stream ++ bs.drop c.free =
          c.stream ++ bs := by
        rw [stream_read, stream_put, List.append_assoc, List.take_append_drop]
      rw [← free_refilled h hlong n, ← hlen] at hrest
      rw [hstep, ← hstream]
      exact ih hread hrest

/-- A line goes onto the stream. -/
theorem carries_send {acts : List PeerAct} {c : Conn} {id : ℕ} {texts : List (List Byte)}
    {t : Text} (h : c.Carries id texts) (ht : Printable t)
    (hroom : roomFor c.cap acts (line t).length c.free = true) :
    ∃ c', sendall acts (line t) c = (true, c') ∧ c'.Carries id (texts ++ [encode t]) := by
  obtain ⟨c', hsend, hstream, hid, halive⟩ := sendall_room acts h.alive hroom
  obtain ⟨hlines, htail⟩ := lines_snoc ht h.whole
  refine ⟨c', hsend, hid.trans h.id_eq, halive, ?_, ?_⟩
  · rw [hstream, hlines, h.lines_eq]
  · rw [hstream, htail]

/-! The history. -/

section History

variable {cfg : Config}

def Sorted (evs : List Event) : Prop := evs.Pairwise fun a b => a.seenAt ≤ b.seenAt

/-- The history ends what was taken. What is missing of the last `maxEvents` is older than
the retention was at the last trim. -/
structure Keeps (cfg : Config) (clock : ℤ) (taken history : List Event) : Prop where
  bound : history.length ≤ cfg.maxEvents
  split : ∃ gone, taken = gone ++ history ∧
    ∀ ev ∈ gone.drop (taken.length - cfg.maxEvents), ev.seenAt < clock - cfg.retention

theorem keeps_take {clock : ℤ} {taken history : List Event}
    (h : Keeps cfg clock taken history) (ev : Event) :
    Keeps cfg clock (taken ++ [ev]) ((history ++ [ev]).rtake cfg.maxEvents) := by
  have hbound := h.bound
  obtain ⟨gone, hsplit, hold⟩ := h.split
  have hlen : taken.length = gone.length + history.length := by rw [hsplit, List.length_append]
  have hlen' : (history ++ [ev]).length = history.length + 1 := List.length_append
  constructor
  · rw [List.rtake, List.length_drop, hlen']
    omega
  by_cases hfull : history.length < cfg.maxEvents
  · have hzero : (history ++ [ev]).length - cfg.maxEvents = 0 := by omega
    refine ⟨gone, ?_, ?_⟩
    · rw [List.rtake, hzero, List.drop_zero, hsplit, List.append_assoc]
    · intro e he
      have hle : taken.length - cfg.maxEvents ≤ (taken ++ [ev]).length - cfg.maxEvents := by
        rw [List.length_append]
        omega
      exact hold e (List.drop_subset_drop_left gone hle he)
  · -- One event leaves the deque on the left.
    have hone : (history ++ [ev]).length - cfg.maxEvents = 1 := by omega
    refine ⟨gone ++ (history ++ [ev]).take 1, ?_, ?_⟩
    · rw [List.rtake, hone, List.append_assoc, List.take_append_drop, hsplit, List.append_assoc]
    · intro e he
      have hnone : (gone ++ (history ++ [ev]).take 1).length ≤
          (taken ++ [ev]).length - cfg.maxEvents := by
        rw [List.length_append, List.length_append, List.length_take, List.length_singleton]
        omega
      rw [List.drop_eq_nil_of_le hnone] at he
      exact absurd he List.not_mem_nil

theorem keeps_trim {clock now : ℤ} {taken history : List Event}
    (h : Keeps cfg clock taken history) (hnow : clock ≤ now) :
    Keeps cfg now taken (history.dropWhile fun ev => ev.seenAt < now - cfg.retention) := by
  obtain ⟨gone, hsplit, hold⟩ := h.split
  constructor
  · exact (List.dropWhile_sublist _).length_le.trans h.bound
  refine ⟨gone ++ history.takeWhile fun ev => ev.seenAt < now - cfg.retention, ?_, ?_⟩
  · rw [List.append_assoc, List.takeWhile_append_dropWhile, hsplit]
  · intro e he
    rw [List.drop_append] at he
    rcases List.mem_append.mp he with hgone | htrimmed
    · have hbefore := hold e hgone
      omega
    · have hmem := List.mem_of_mem_drop htrimmed
      have htest := List.mem_takeWhile_imp hmem
      exact of_decide_eq_true htest

theorem dropWhile_fresh {cutoff : ℤ} {evs : List Event} (h : Sorted evs) :
    ∀ ev ∈ evs.dropWhile fun ev => ev.seenAt < cutoff, cutoff ≤ ev.seenAt := by
  induction evs with
  | nil => exact nofun
  | cons e evs ih =>
    obtain ⟨hfirst, hrest⟩ := List.pairwise_cons.mp h
    by_cases hold : e.seenAt < cutoff
    · rw [List.dropWhile_cons, if_pos (decide_eq_true hold)]
      exact ih hrest
    · have hstop : ¬decide (e.seenAt < cutoff) = true := by
        rw [decide_eq_true_eq]
        exact hold
      rw [List.dropWhile_cons, if_neg hstop]
      intro ev hev
      rcases List.mem_cons.mp hev with rfl | hev
      · exact not_lt.mp hold
      · exact (not_lt.mp hold).trans (hfirst ev hev)

/-- After a trim the history is what it ought to be. -/
theorem trimmed_eq {clock now : ℤ} {taken history : List Event}
    (h : Keeps cfg clock taken history) (hsorted : Sorted taken) (hnow : clock ≤ now) :
    (history.dropWhile fun ev => ev.seenAt < now - cfg.retention) =
      (taken.rtake cfg.maxEvents).filter fun ev => now - cfg.retention ≤ ev.seenAt := by
  have htrim := keeps_trim h hnow
  have hfresh : ∀ ev ∈ history.dropWhile fun ev => ev.seenAt < now - cfg.retention,
      now - cfg.retention ≤ ev.seenAt := by
    obtain ⟨gone, hsplit, -⟩ := h.split
    rw [hsplit] at hsorted
    exact dropWhile_fresh (List.pairwise_append.mp hsorted).2.1
  generalize (history.dropWhile fun ev => ev.seenAt < now - cfg.retention) = kept
    at htrim hfresh
  have hbound := htrim.bound
  obtain ⟨gone, hsplit, hold⟩ := htrim.split
  have hlen : taken.length = gone.length + kept.length := by rw [hsplit, List.length_append]
  have hzero : taken.length - cfg.maxEvents - gone.length = 0 := by omega
  have hgone : (gone.drop (taken.length - cfg.maxEvents)).filter
      (fun ev => now - cfg.retention ≤ ev.seenAt) = [] := by
    rw [List.filter_eq_nil_iff]
    intro ev hev
    rw [decide_eq_true_eq]
    exact not_le.mpr (hold ev hev)
  have hkept : kept.filter (fun ev => now - cfg.retention ≤ ev.seenAt) = kept :=
    List.filter_eq_self.mpr fun ev hev => decide_eq_true (hfresh ev hev)
  rw [List.rtake]
  nth_rewrite 2 [hsplit]
  rw [List.drop_append, hzero, List.drop_zero, List.filter_append, hgone, hkept,
    List.nil_append]

theorem lastItems_eq {k : ℤ} (hk : 0 < k) (evs : List Event) :
    lastItems k evs = evs.rtake k.toNat := if_pos hk

end History

/-! The table of clients. -/

section Clients

variable {s : Server}

theorem dropClients_eq (fds : List ℕ) (s : Server) :
    fds.foldl (fun s fd => dropClient fd s) s =
      { s with clients := s.clients.filter fun x => x.1 ∉ fds } := by
  induction fds generalizing s with
  | nil =>
    have hall : (s.clients.filter fun x => x.1 ∉ ([] : List ℕ)) = s.clients :=
      List.filter_eq_self.mpr fun x _ => decide_eq_true List.not_mem_nil
    rw [List.foldl_nil, hall]
  | cons fd fds ih =>
    rw [List.foldl_cons, ih]
    have hboth : ((dropClient fd s).clients.filter fun x => x.1 ∉ fds) =
        s.clients.filter fun x => x.1 ∉ fd :: fds := by
      rw [dropClient, List.filter_filter]
      apply List.filter_congr
      intro x _
      rw [← Bool.decide_and, decide_eq_decide, List.mem_cons, not_or, and_comm]
    rw [hboth]
    rfl

/-- A client whose line went out stays. -/
theorem mem_broadcast {acts : ℕ → List PeerAct} {ev : Event}
    (hfds : (s.clients.map Prod.fst).Nodup) {x : ℕ × Conn} {c : Conn} (hx : x ∈ s.clients)
    (hsend : sendall (acts x.2.id) (line (eventText ev)) x.2 = (true, c)) :
    (x.1, c) ∈ (broadcast acts ev s).clients := by
  rw [broadcast, dropClients_eq, List.mem_filter]
  constructor
  · rw [List.map_map]
    refine List.mem_map.mpr ⟨x, hx, ?_⟩
    dsimp only [Function.comp]
    rw [hsend]
  · rw [decide_eq_true_eq]
    intro hdead
    obtain ⟨y, hy, hfd⟩ := List.mem_map.mp hdead
    obtain ⟨hy, hfailed⟩ := List.mem_filter.mp hy
    obtain ⟨z, hz, rfl⟩ := List.mem_map.mp hy
    have hsame : z = x := List.inj_on_of_nodup_map hfds hz hx hfd
    subst hsame
    rw [hsend] at hfailed
    exact Bool.false_ne_true hfailed

theorem broadcast_rest (acts : ℕ → List PeerAct) (ev : Event) (s : Server) :
    ∃ clients, broadcast acts ev s = { s with clients := clients } ∧
      (clients.map Prod.fst).Sublist (s.clients.map Prod.fst) := by
  refine ⟨_, dropClients_eq _ _, ?_⟩
  have hfds : (s.clients.map fun x =>
      (x.1, sendall (acts x.2.id) (line (eventText ev)) x.2)).map (fun x => (x.1, x.2.2)) =
      s.clients.map fun x => (x.1, (sendall (acts x.2.id) (line (eventText ev)) x.2).2) := by
    rw [List.map_map]
    rfl
  have hkeys : (s.clients.map fun x =>
      (x.1, (sendall (acts x.2.id) (line (eventText ev)) x.2).2)).map Prod.fst =
      s.clients.map Prod.fst := by
    rw [List.map_map]
    rfl
  dsimp only
  rw [hfds, ← hkeys]
  exact List.filter_sublist.map Prod.fst

end Clients

/-! What holds of every state. -/

section Invariant

variable {cfg : Config} {id : ℕ} {s : Server}

/-- The lines that an accepted connection is due. -/
def due (cfg : Config) (taken : List Event) (a : Accepted) : List (List Byte) :=
  encode (historyText (recent cfg a.now (taken.take a.before))) ::
    (taken.drop a.before).map fun ev => encode (eventText ev)

/-- Its connection has them. -/
def Sent (cfg : Config) (s : Server) (a : Accepted) : Prop :=
  0 < cfg.maxHistorySend ∧ ∃ x ∈ s.clients, x.2.Carries a.id (due cfg s.taken a)

/-- The invariant for client `id`. -/
structure Sound (cfg : Config) (id : ℕ) (s : Server) : Prop where
  fds : (s.clients.map Prod.fst).Nodup
  sorted : Sorted (s.taken ++ s.queue)
  stamped : ∀ ev ∈ s.taken ++ s.queue, ev.seenAt ≤ s.stamp
  history : Keeps cfg s.clock s.taken s.history
  before : ∀ a ∈ s.accepted, a.before ≤ s.taken.length
  sent : ∀ a ∈ s.accepted, a.id = id → Sent cfg s a

theorem sound_arrive (h : Sound cfg id s) (ev : Event) (hok : keepsUp cfg id s (.arrive ev)) :
    Sound cfg id (arrive ev s) := by
  rw [keepsUp, decide_eq_true_eq] at hok
  have hbefore : ∀ e ∈ s.taken ++ s.queue, e.seenAt ≤ ev.seenAt :=
    fun e he => (h.stamped e he).trans hok
  rw [arrive]
  split_ifs with hroom
  · refine ⟨h.fds, ?_, ?_, h.history, h.before, h.sent⟩
    · dsimp only
      rw [← List.append_assoc]
      refine List.pairwise_append.mpr ⟨h.sorted, List.pairwise_singleton _ _, ?_⟩
      intro e he e' he'
      rw [List.mem_singleton] at he'
      rw [he']
      exact hbefore e he
    · dsimp only
      rw [← List.append_assoc]
      intro e he
      rcases List.mem_append.mp he with he | he
      · exact hbefore e he
      · rw [List.mem_singleton] at he
        exact (congrArg Event.seenAt he).le
  · exact ⟨h.fds, h.sorted, hbefore, h.history, h.before, h.sent⟩

theorem sound_trim (h : Sound cfg id s) {now : ℤ} (hnow : s.clock ≤ now) :
    Sound cfg id (trimHistory cfg now s) :=
  ⟨h.fds, h.sorted, h.stamped, keeps_trim h.history hnow, h.before, h.sent⟩

/-- Fewer or changed clients, as long as those of `id` stay. -/
theorem sound_clients (h : Sound cfg id s) {clients : List (ℕ × Conn)}
    (hfds : (clients.map Prod.fst).Nodup)
    (hkept : ∀ x ∈ s.clients, ∀ texts, x.2.Carries id texts →
      ∃ y ∈ clients, y.2.Carries id texts) :
    Sound cfg id { s with clients := clients } := by
  refine ⟨hfds, h.sorted, h.stamped, h.history, h.before, ?_⟩
  intro a ha hid
  obtain ⟨hmax, x, hx, hcarries⟩ := h.sent a ha hid
  rw [hid] at hcarries
  obtain ⟨y, hy, hcarries'⟩ := hkept x hx _ hcarries
  rw [← hid] at hcarries'
  exact ⟨hmax, y, hy, hcarries'⟩

theorem sound_recv (h : Sound cfg id s) (fd : ℕ) (empty : Bool)
    (hallowed : allowed s (.recv fd empty)) : Sound cfg id (step cfg s (.recv fd empty)) := by
  rw [step]
  cases empty with
  | false => exact h
  | true =>
    rw [allowed, Bool.not_true, Bool.false_or, List.all_eq_true] at hallowed
    rw [if_pos rfl, dropClient]
    apply sound_clients h
    · exact (List.filter_sublist.map Prod.fst).nodup h.fds
    · intro x hx texts hcarries
      refine ⟨x, List.mem_filter.mpr ⟨hx, ?_⟩, hcarries⟩
      have hgone := hallowed x hx
      rw [hcarries.alive.there, Bool.or_false] at hgone
      exact hgone

theorem sound_peer (h : Sound cfg id s) (i : ℕ) (act : PeerAct)
    (hok : keepsUp cfg id s (.peer i act)) : Sound cfg id (step cfg s (.peer i act)) := by
  rw [step]
  apply sound_clients h
  · have hkeys : (s.clients.map fun x => if x.2.id = i then (x.1, x.2.peer act) else x).map
        Prod.fst = s.clients.map Prod.fst := by
      rw [List.map_map]
      apply List.map_congr_left
      intro x _
      dsimp only [Function.comp]
      split_ifs
      · rfl
      · rfl
    rw [hkeys]
    exact h.fds
  · intro x hx texts hcarries
    by_cases hi : x.2.id = i
    · refine ⟨(x.1, x.2.peer act), List.mem_map.mpr ⟨x, hx, if_pos hi⟩, ?_⟩
      rw [keepsUp, ← hi, hcarries.id_eq, Bool.or_eq_true, decide_eq_true_eq,
        decide_eq_true_eq] at hok
      cases act with
      | close => exact absurd rfl (hok.resolve_left (not_not.mpr rfl))
      | read n =>
        refine ⟨hcarries.id_eq, alive_read hcarries.alive n, ?_, ?_⟩
        · rw [stream_read, hcarries.lines_eq]
        · rw [stream_read, hcarries.whole]
    · exact ⟨x, List.mem_map.mpr ⟨x, hx, if_neg hi⟩, hcarries⟩

theorem due_snoc {a : Accepted} (ev : Event) {taken : List Event} (h : a.before ≤ taken.length) :
    due cfg (taken ++ [ev]) a = due cfg taken a ++ [encode (eventText ev)] := by
  rw [due, due, List.take_append_of_le_length h, List.drop_append_of_le_length h, List.map_append,
    List.cons_append]
  rfl

theorem sound_take (h : Sound cfg id s) (acts : ℕ → List PeerAct)
    (hok : keepsUp cfg id s (.take acts)) : Sound cfg id (takeEvent cfg acts s) := by
  rw [takeEvent]
  cases hqueue : s.queue with
  | nil => exact h
  | cons ev rest =>
    dsimp only
    rw [keepsUp, hqueue, List.head?_cons, Option.all_some, List.all_eq_true] at hok
    have hsplit : s.taken ++ s.queue = s.taken ++ [ev] ++ rest := by
      rw [hqueue, List.append_assoc]
      rfl
    generalize hs : ({ s with
      queue := rest
      history := (s.history ++ [ev]).rtake cfg.maxEvents
      taken := s.taken ++ [ev] } : Server) = s'
    have hclients : s'.clients = s.clients := by rw [← hs]
    obtain ⟨clients, heq, hkeys⟩ := broadcast_rest acts ev s'
    have hsorted := h.sorted
    have hstamped := h.stamped
    rw [hsplit] at hsorted hstamped
    have hmem {x : ℕ × Conn} {c : Conn} (hx : x ∈ s.clients)
        (hsend : sendall (acts x.2.id) (line (eventText ev)) x.2 = (true, c)) :
        (x.1, c) ∈ clients := by
      have hfds : (s'.clients.map Prod.fst).Nodup := by
        rw [hclients]
        exact h.fds
      have hsent := mem_broadcast hfds (hclients ▸ hx) hsend
      rw [heq] at hsent
      exact hsent
    rw [heq, ← hs]
    refine ⟨?_, hsorted, hstamped, keeps_take h.history ev, ?_, ?_⟩
    · rw [hclients] at hkeys
      exact hkeys.nodup h.fds
    · intro a ha
      have hle := h.before a ha
      dsimp only
      rw [List.length_append]
      exact hle.trans (Nat.le_add_right ..)
    · intro a ha hid
      obtain ⟨hmax, x, hx, hcarries⟩ := h.sent a ha hid
      have hroom := hok x hx
      rw [hcarries.id_eq, hid, decide_eq_false (not_not.mpr rfl), Bool.false_or] at hroom
      obtain ⟨c, hsend, hcarries'⟩ := carries_send hcarries (printable_eventText ev) hroom
      refine ⟨hmax, (x.1, c), hmem hx ?_, ?_⟩
      · rw [hcarries.id_eq, hid]
        exact hsend
      · dsimp only
        rw [due_snoc ev (h.before a ha)]
        exact hcarries'

theorem setClient_fresh {fd : ℕ} (c : Conn) {clients : List (ℕ × Conn)}
    (h : ∀ x ∈ clients, x.1 ≠ fd) : setClient fd c clients = clients ++ [(fd, c)] := by
  have hnone : ¬(clients.any fun x => x.1 = fd) = true := by
    rw [List.any_eq_true]
    rintro ⟨x, hx, hfd⟩
    exact h x hx (of_decide_eq_true hfd)
  exact if_neg hnone

/-- The connection is in the table, or it was not one of the client's. -/
theorem sound_accept (h : Sound cfg id s) (fd : ℕ) (peer : Peer) (now : ℤ)
    (acts : List PeerAct) (hallowed : allowed s (.accept fd peer now acts))
    (hok : keepsUp cfg id s (.accept fd peer now acts)) :
    Sound cfg id (acceptClient cfg fd peer now acts s) := by
  rw [acceptClient]
  by_cases hauth : peer.authorized = true
  swap
  · rw [if_neg hauth]
    exact h
  rw [if_pos hauth]
  rw [allowed, Bool.and_eq_true, List.all_eq_true] at hallowed
  have hfree : ∀ x ∈ s.clients, x.1 ≠ fd := fun x hx => of_decide_eq_true (hallowed.1 x hx)
  rw [keepsUp, hauth, Bool.not_true, Bool.false_or, Bool.and_eq_true, decide_eq_true_eq] at hok
  obtain ⟨hnow, hmine⟩ := hok
  have hsorted : Sorted s.taken := (List.pairwise_append.mp h.sorted).1
  have htrim := keeps_trim h.history hnow
  -- What the accept leaves behind, with `c` in the table or without it.
  have hleft (clients : List (ℕ × Conn)) (hfds : (clients.map Prod.fst).Nodup)
      (hsub : ∀ x ∈ s.clients, x ∈ clients)
      (hnew : peer.id = id → 0 < cfg.maxHistorySend ∧
        ∃ x ∈ clients, x.2.Carries id (due cfg s.taken ⟨peer.id, s.taken.length, now⟩)) :
      Sound cfg id { trimHistory cfg now
        { s with accepted := s.accepted ++ [⟨peer.id, s.taken.length, now⟩] } with
        clients := clients } := by
    refine ⟨hfds, h.sorted, h.stamped, htrim, ?_, ?_⟩
    · intro a ha
      rcases List.mem_append.mp ha with ha | ha
      · exact h.before a ha
      · rw [List.mem_singleton] at ha
        exact (congrArg Accepted.before ha).le
    · intro a ha hid
      rcases List.mem_append.mp ha with ha | ha
      · obtain ⟨hmax, x, hx, hcarries⟩ := h.sent a ha hid
        exact ⟨hmax, x, hsub x hx, hcarries⟩
      · rw [List.mem_singleton] at ha
        subst ha
        obtain ⟨hmax, x, hx, hcarries⟩ := hnew hid
        rw [← hid] at hcarries
        exact ⟨hmax, x, hx, hcarries⟩
  dsimp only
  generalize hslice : lastItems cfg.maxHistorySend (trimHistory cfg now
    { s with accepted := s.accepted ++ [⟨peer.id, s.taken.length, now⟩] }).history = slice
  have hmine' : peer.id = id → 0 < cfg.maxHistorySend ∧
      ∃ c, sendall acts (line (historyText slice)) ⟨peer.id, peer.cap, [], [], peer.gone⟩ =
        (true, c) ∧ c.Carries id (due cfg s.taken ⟨peer.id, s.taken.length, now⟩) := by
    intro hid
    rw [hid, decide_eq_false (not_not.mpr rfl), Bool.false_or, Bool.and_eq_true,
      Bool.and_eq_true, Bool.not_eq_true', decide_eq_true_eq] at hmine
    obtain ⟨⟨hthere, hmax⟩, hroom⟩ := hmine
    have hrecent : slice = recent cfg now s.taken := by
      rw [← hslice, lastItems_eq hmax, recent, ← trimmed_eq h.history hsorted hnow]
      rfl
    have hempty : Conn.Carries ⟨peer.id, peer.cap, [], [], peer.gone⟩ id [] :=
      ⟨hid, ⟨hthere, Nat.zero_le _⟩, rfl, rfl⟩
    obtain ⟨c, hsend, hcarries⟩ :=
      carries_send hempty (printable_historyText (recent cfg now s.taken)) hroom
    refine ⟨hmax, c, hrecent ▸ hsend, ?_⟩
    rw [due, List.take_length, List.drop_length]
    exact hcarries
  cases hsend :
      sendall acts (line (historyText slice)) ⟨peer.id, peer.cap, [], [], peer.gone⟩ with
  | mk sent c =>
    cases sent with
    | true =>
      have htable := setClient_fresh c hfree
      dsimp only [trimHistory]
      rw [htable]
      apply hleft
      · rw [List.map_append, List.map_singleton]
        refine List.nodup_append.mpr ⟨h.fds, List.nodup_singleton _, ?_⟩
        intro key hkey key' hkey'
        obtain ⟨x, hx, rfl⟩ := List.mem_map.mp hkey
        rw [List.mem_singleton] at hkey'
        rw [hkey']
        exact hfree x hx
      · exact fun x hx => List.mem_append_left _ hx
      · intro hid
        obtain ⟨hmax, c', hsend', hcarries⟩ := hmine' hid
        obtain rfl := (Prod.mk.inj (hsend.symm.trans hsend')).2
        exact ⟨hmax, (fd, c), List.mem_append_right _ List.mem_cons_self, hcarries⟩
    | false =>
      apply hleft s.clients h.fds (fun x hx => hx)
      intro hid
      obtain ⟨-, c', hsend', -⟩ := hmine' hid
      exact absurd (Prod.mk.inj (hsend.symm.trans hsend')).1 Bool.false_ne_true

theorem sound_step (a : Action) (h : Sound cfg id s)
    (hok : allowed s a = true ∧ keepsUp cfg id s a = true) : Sound cfg id (step cfg s a) := by
  cases a with
  | arrive ev => exact sound_arrive h ev hok.2
  | accept fd peer now acts => exact sound_accept h fd peer now acts hok.1 hok.2
  | recv fd empty => exact sound_recv h fd empty hok.1
  | take acts => exact sound_take h acts hok.2
  | trim now =>
    have hnow := hok.2
    rw [keepsUp, decide_eq_true_eq] at hnow
    exact sound_trim h hnow
  | peer i act => exact sound_peer h i act hok.2

theorem sound_start (cfg : Config) (id : ℕ) (stamp clock : ℤ) :
    Sound cfg id { stamp := stamp, clock := clock } :=
  ⟨List.nodup_nil, List.Pairwise.nil, fun _ hev => absurd hev List.not_mem_nil,
    ⟨Nat.zero_le _, [], rfl, fun _ hev => absurd (List.mem_of_mem_drop hev) List.not_mem_nil⟩,
    nofun, nofun⟩

theorem served_of_sound (h : Sound cfg id s) {a : Accepted} (ha : a ∈ s.accepted)
    (hid : a.id = id) : Served cfg s a := by
  obtain ⟨hmax, x, hx, hcarries⟩ := h.sent a ha hid
  constructor
  case lines => exact ⟨x, hx, hcarries.id_eq, hcarries.lines_eq, hcarries.whole⟩
  case atMost =>
    rw [recent, List.rtake, List.length_drop]
    omega
  case fresh =>
    intro ev hev
    exact of_decide_eq_true (List.mem_filter.mp (List.mem_of_mem_drop hev)).2
  case once =>
    refine ⟨?_, List.take_append_drop ..⟩
    rw [recent]
    apply (List.drop_sublist ..).trans
    apply List.filter_sublist.trans
    exact List.drop_sublist ..

end Invariant

/-- Whatever the other clients do, one that keeps up is in the table, and what it reads are
whole lines: the most recent events, then every later one, once and in order. -/
theorem stream_integrity (cfg : Config) (id : ℕ) (stamp clock : ℤ) (actions : List Action)
    (hrun : Guarded (step cfg) (fun s a => allowed s a = true ∧ keepsUp cfg id s a = true)
      { stamp := stamp, clock := clock } actions) :
    let t := actions.foldl (step cfg) { stamp := stamp, clock := clock }
    ∀ a ∈ t.accepted, a.id = id → Served cfg t a := by
  have hsound := invariant_run (step cfg) _ (Sound cfg id)
    (fun s a h hok => sound_step a h hok) _ actions (sound_start cfg id stamp clock) hrun
  exact fun a ha hid => served_of_sound hsound ha hid

def sampleEvent (ts : ℤ) : Event :=
  ⟨[(ascii "ts_ns", .int ts), (ascii "src", .string (ascii "192.0.2.1"))], ts,
    ⟨ascii "1.5", by decide⟩⟩

def sampleConfig : Config := ⟨300, 2, 1⟩

/-- Client 1 makes room within a send, client 2 reads nothing and is cut off. -/
def sampleRun : List Action :=
  [.arrive (sampleEvent 0), .arrive (sampleEvent 1), .take fun _ => [], .take fun _ => [],
    .accept 7 ⟨1, 100, true, false⟩ 2 [.read 30], .accept 8 ⟨2, 90, true, false⟩ 3 [],
    .peer 1 (.read 100), .arrive (sampleEvent 4), .take fun _ => [], .recv 7 false]

theorem stream_integrity_sample :
    ∃ a ∈ (sampleRun.foldl (step sampleConfig) { stamp := 0, clock := 0 }).accepted, a.id = 1 ∧
      Served sampleConfig (sampleRun.foldl (step sampleConfig) { stamp := 0, clock := 0 }) a := by
  have hrun : Guarded (step sampleConfig)
      (fun s a => allowed s a = true ∧ keepsUp sampleConfig 1 s a = true)
      { stamp := 0, clock := 0 } sampleRun := by
    decide +kernel
  have hfound : ((sampleRun.foldl (step sampleConfig) { stamp := 0, clock := 0 }).accepted.find?
      fun a => a.id = 1).isSome = true := by decide +kernel
  obtain ⟨a, hmem, hfirst⟩ := List.find?_isSome.mp hfound
  have hid : a.id = 1 := of_decide_eq_true hfirst
  exact ⟨a, hmem, hid, stream_integrity sampleConfig 1 0 0 sampleRun hrun a hmem hid⟩

/-- An authorised client does not go away. -/
def stays (id : ℕ) : Action → Bool
  | .accept _ peer _ _ => peer.id ≠ id || (peer.authorized && !peer.gone)
  | .peer i act => i ≠ id || act ≠ .close
  | _ => true

/-- The history does not fit into the buffer of a new client. -/
def shortRun : List Action :=
  [.arrive (sampleEvent 0), .take fun _ => [], .accept 7 ⟨1, 64, true, false⟩ 1 []]

theorem history_cuts_off :
    ¬∀ (cfg : Config) (id : ℕ) (stamp clock : ℤ) (actions : List Action),
      Guarded (step cfg) (fun s a => allowed s a = true ∧ stays id a = true)
        { stamp := stamp, clock := clock } actions →
      ∀ a ∈ (actions.foldl (step cfg) { stamp := stamp, clock := clock }).accepted, a.id = id →
        Served cfg (actions.foldl (step cfg) { stamp := stamp, clock := clock }) a := by
  intro h
  have hrun : Guarded (step sampleConfig) (fun s a => allowed s a = true ∧ stays 1 a = true)
      { stamp := 0, clock := 0 } shortRun := by
    decide +kernel
  have hend :
      (shortRun.foldl (step sampleConfig) { stamp := 0, clock := 0 }).clients.length = 0 := by
    decide +kernel
  have hall := h sampleConfig 1 0 0 shortRun hrun
  have hserved := hall ⟨1, 1, 1⟩ List.mem_cons_self rfl
  obtain ⟨x, hx, -⟩ := hserved.lines
  rw [List.eq_nil_of_length_eq_zero hend] at hx
  exact List.not_mem_nil hx

end AutoXdp.RelayServer
