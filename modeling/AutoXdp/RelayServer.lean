import AutoXdp.JsonDumps
import AutoXdp.RelayLines
import Mathlib.Data.List.DropRight
import Mathlib.Tactic.Basic

/-! `RelayServer` of `pkt_relay.py`: the queue of its reader thread, the bounded history,
and the sockets of its clients. -/
namespace AutoXdp.RelayServer
open PyJson Relay

abbrev Byte := BitVec 8

/-- An event of the queue; the members do not have `seen_at`, which is counted in
nanoseconds here. -/
structure Event where
  members : List (Text × Scalar)
  seenAt : ℤ
  seenText : FloatText

def Event.dict (ev : Event) : List (Text × Scalar) :=
  ev.members ++ [(ascii "seen_at", .float ev.seenText)]

/-- What `_broadcast` makes of an event. -/
def Event.msg (ev : Event) : List (Text × Scalar) :=
  if ev.dict.any fun m => m.1 = ascii "type" then ev.dict
  else (ascii "type", .string (ascii "event")) :: ev.dict

def eventText (ev : Event) : Text := dumpsDict ev.msg

def historyText (events : List Event) : Text :=
  0x7B :: joinItems [dumpsMember (ascii "type") (dumpsString (ascii "history")),
    dumpsMember (ascii "events") (dumpsList (events.map fun ev => dumpsDict ev.dict))] ++ [0x7D]

/-- `str.encode`, of ASCII text. -/
def encode (t : Text) : List Byte := t.map (BitVec.ofNat 8)

def line (t : Text) : List Byte := encode t ++ [newline]

/-! Sockets. -/

/-- What a client does at its end. -/
inductive PeerAct where
  | read (n : ℕ)
  | close
  deriving DecidableEq, Repr

/-- A connection: the room of its buffer, what is in it, and what the client has read. -/
structure Conn where
  id : ℕ
  cap : ℕ
  unread : List Byte := []
  got : List Byte := []
  gone : Bool := false

def Conn.free (c : Conn) : ℕ := c.cap - c.unread.length

def Conn.put (bs : List Byte) (c : Conn) : Conn := { c with unread := c.unread ++ bs }

def Conn.peer (c : Conn) : PeerAct → Conn
  | .read n => { c with got := c.got ++ c.unread.take n, unread := c.unread.drop n }
  | .close => { c with gone := true }

/-- `sendall` on a socket that does not block: whether it returns, and what it leaves
behind. The client may act between two of its sends. -/
def sendall : List PeerAct → List Byte → Conn → Bool × Conn
  | [], bs, c =>
    if c.gone then (false, c)
    else if bs.length ≤ c.free then (true, c.put bs)
    else (false, c.put (bs.take c.free))
  | act :: acts, bs, c =>
    if c.gone then (false, c)
    else if bs.length ≤ c.free then (true, c.put bs)
    else if c.free = 0 then (false, c)
    else sendall acts (bs.drop c.free) ((c.put (bs.take c.free)).peer act)

/-! The server. -/

def eventQueueMax : ℕ := 20000

structure Config where
  retention : ℤ
  maxEvents : ℕ
  maxHistorySend : ℤ

/-- An accepted connection: how many events had been taken from the queue, and the time. -/
structure Accepted where
  id : ℕ
  before : ℕ
  now : ℤ

/-- The server, with what it has taken from the queue, the connections that it has
accepted, the latest `seen_at` and the latest reading of the clock. -/
structure Server where
  queue : List Event := []
  history : List Event := []
  clients : List (ℕ × Conn) := []
  taken : List Event := []
  accepted : List Accepted := []
  stamp : ℤ
  clock : ℤ

/-- `put_nowait`. -/
def arrive (ev : Event) (s : Server) : Server :=
  if s.queue.length < eventQueueMax then
    { s with queue := s.queue ++ [ev], stamp := ev.seenAt }
  else { s with stamp := ev.seenAt }

def trimHistory (cfg : Config) (now : ℤ) (s : Server) : Server :=
  { s with
    history := s.history.dropWhile fun ev => ev.seenAt < now - cfg.retention
    clock := now }

/-- The slice `xs[-k:]`. -/
def lastItems (k : ℤ) (xs : List Event) : List Event :=
  if 0 < k then xs.rtake k.toNat else xs.drop (-k).toNat

/-- A connection that waits to be accepted. -/
structure Peer where
  id : ℕ
  cap : ℕ
  authorized : Bool
  gone : Bool

/-- `d[fd] = conn`. -/
def setClient (fd : ℕ) (c : Conn) (clients : List (ℕ × Conn)) : List (ℕ × Conn) :=
  if clients.any fun x => x.1 = fd then clients.map fun x => if x.1 = fd then (fd, c) else x
  else clients ++ [(fd, c)]

def acceptClient (cfg : Config) (fd : ℕ) (peer : Peer) (now : ℤ) (acts : List PeerAct)
    (s : Server) : Server :=
  if peer.authorized then
    let s := trimHistory cfg now
      { s with accepted := s.accepted ++ [⟨peer.id, s.taken.length, now⟩] }
    let historySlice := lastItems cfg.maxHistorySend s.history
    let conn : Conn := ⟨peer.id, peer.cap, [], [], peer.gone⟩
    match sendall acts (line (historyText historySlice)) conn with
    | (true, c) => { s with clients := setClient fd c s.clients }
    | (false, _) => s
  else s

def dropClient (fd : ℕ) (s : Server) : Server :=
  { s with clients := s.clients.filter fun x => x.1 ≠ fd }

def broadcast (acts : ℕ → List PeerAct) (ev : Event) (s : Server) : Server :=
  let sent := s.clients.map fun x => (x.1, sendall (acts x.2.id) (line (eventText ev)) x.2)
  let dead := (sent.filter fun x => !x.2.1).map Prod.fst
  dead.foldl (fun s fd => dropClient fd s)
    { s with clients := sent.map fun x => (x.1, x.2.2) }

/-- An event taken from the queue. -/
def takeEvent (cfg : Config) (acts : ℕ → List PeerAct) (s : Server) : Server :=
  match s.queue with
  | [] => s
  | ev :: rest =>
    broadcast acts ev
      { s with
        queue := rest
        history := (s.history ++ [ev]).rtake cfg.maxEvents
        taken := s.taken ++ [ev] }

/-- What may happen next: the reader thread brings an event, the loop does one of its
steps, or a client acts. -/
inductive Action where
  | arrive (ev : Event)
  | accept (fd : ℕ) (peer : Peer) (now : ℤ) (acts : List PeerAct)
  | recv (fd : ℕ) (empty : Bool)
  | take (acts : ℕ → List PeerAct)
  | trim (now : ℤ)
  | peer (id : ℕ) (act : PeerAct)

def step (cfg : Config) (s : Server) : Action → Server
  | .arrive ev => arrive ev s
  | .accept fd peer now acts => acceptClient cfg fd peer now acts s
  | .recv fd empty => if empty then dropClient fd s else s
  | .take acts => takeEvent cfg acts s
  | .trim now => trimHistory cfg now s
  | .peer id act =>
    { s with clients := s.clients.map fun x => if x.2.id = id then (x.1, x.2.peer act) else x }

/-- What the kernel sees to: the descriptor of a new connection is not in use, and only a
connection whose client is gone reads as empty. -/
def allowed (s : Server) : Action → Bool
  | .accept fd peer _ _ =>
    (s.clients.all fun x => x.1 ≠ fd) && s.accepted.all fun a => a.id ≠ peer.id
  | .recv fd empty => !empty || s.clients.all fun x => x.1 ≠ fd || x.2.gone
  | _ => true

/-! What a client ought to see. -/

/-- The most recent events at an accept, of those taken before it. -/
def recent (cfg : Config) (now : ℤ) (before : List Event) : List Event :=
  ((before.rtake cfg.maxEvents).filter fun ev => now - cfg.retention ≤ ev.seenAt).rtake
    cfg.maxHistorySend.toNat

/-- All that has been sent to a connection. -/
def Conn.stream (c : Conn) : List Byte := c.got ++ c.unread

/-- A connection in the table, on which there are whole lines: the history, then every
event taken since the accept. -/
structure Served (cfg : Config) (s : Server) (a : Accepted) : Prop where
  lines : ∃ x ∈ s.clients, x.2.id = a.id ∧
    DelimitedLines.lines newline x.2.stream =
      encode (historyText (recent cfg a.now (s.taken.take a.before))) ::
        (s.taken.drop a.before).map (fun ev => encode (eventText ev)) ∧
    DelimitedLines.tail newline x.2.stream = []
  atMost : (recent cfg a.now (s.taken.take a.before)).length ≤ cfg.maxHistorySend
  fresh : ∀ ev ∈ recent cfg a.now (s.taken.take a.before), a.now - cfg.retention ≤ ev.seenAt
  once : (recent cfg a.now (s.taken.take a.before)).Sublist (s.taken.take a.before) ∧
    s.taken.take a.before ++ s.taken.drop a.before = s.taken

/-- Whether a line gets into the buffer: it fits, or the client makes room each time that
the buffer is full. -/
def roomFor (cap : ℕ) : List PeerAct → ℕ → ℕ → Bool
  | .read n :: acts, len, free =>
    len ≤ free || (0 < free && roomFor cap acts (len-free) (min n cap))
  | _, len, free => len ≤ free

/-- Client `id` does not go away and there is room for each of its lines; the clock, as
the two threads read it, does not step back. -/
def keepsUp (cfg : Config) (id : ℕ) (s : Server) : Action → Bool
  | .arrive ev => s.stamp ≤ ev.seenAt
  | .accept _ peer now acts => !peer.authorized || (s.clock ≤ now && (peer.id ≠ id ||
      !peer.gone && 0 < cfg.maxHistorySend && roomFor peer.cap acts
        (line (historyText (recent cfg now s.taken))).length peer.cap))
  | .take acts => s.queue.head?.all fun ev => s.clients.all fun x =>
      x.2.id ≠ id || roomFor x.2.cap (acts id) (line (eventText ev)).length x.2.free
  | .trim now => s.clock ≤ now
  | .peer i act => i ≠ id || act ≠ .close
  | .recv .. => true

end AutoXdp.RelayServer
