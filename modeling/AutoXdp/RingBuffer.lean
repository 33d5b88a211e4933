import AutoXdp.ByteRing
import AutoXdp.WordBytes
import AutoXdp.XdpKeys
import Mathlib.Tactic.Basic

/-! The ring buffer `pkt_ringbuf` under its two sides: the kernel, which reserves records
and commits or discards them (`bpf/include/common.h`), and `RingBufReader.drain`
(`pkt_relay.py`). Both sides address the data by positions that count the bytes. -/
namespace AutoXdp.Ringbuf
open ByteRing WordBytes

def busyBit : U32 := 1#32 <<< 31
def discardBit : U32 := 1#32 <<< 30
def hdrSz : ℕ := 8

/-- A multiple of eight. -/
def roundUp (n : ℕ) : ℕ := (n+7)/8*8

/-- The bytes that the kernel reserves. -/
def reserved (len : ℕ) : ℕ := roundUp (len + hdrSz)

inductive RecordState where
  | busy | committed | discarded
  deriving DecidableEq, Repr

/-- A record: the position of its header, counted on beyond 64 bits, and what the program has
put behind it. -/
structure Record where
  pos : ℕ
  len : ℕ
  state : RecordState
  payload : List U8

/-- The first word of the header. -/
def Record.header (r : Record) : U32 :=
  BitVec.ofNat 32 r.len ||| match r.state with
    | .busy => busyBit
    | .committed => 0
    | .discarded => discardBit

/-- Where `drain` stands: outside of it, at the head of its loop, before and behind a
`yield`, or left by a `struct.error`. Its positions are Python integers. -/
inductive Reader where
  | idle
  | looping (cpos ppos : ℕ)
  | copying (cpos dataLen ppos : ℕ)
  | yielded (cpos dataLen ppos : ℕ)
  | failed
  deriving DecidableEq, Repr

/-- The shared pages, the records reserved since position `base`, and the reader with
the payloads that it has yielded. -/
structure Ring where
  data : ℕ → U8
  consumer : U64
  producer : U64
  base : ℕ
  records : List Record := []
  reader : Reader := .idle
  yielded : List (List U8) := []

/-- A ring of `2^bits` bytes, which the 64-bit positions can tell apart, and the length of an
event. -/
structure Config where
  bits : ℕ
  eventSize : ℕ
  bits_lt : bits < 64

def Config.size (cfg : Config) : ℕ := 2^cfg.bits

/-- The position behind some first records. -/
def boundary (base : ℕ) (records : List Record) : ℕ :=
  base + (records.map fun r => reserved r.len).sum

/-! The producer. -/

/-- `bpf_ringbuf_reserve`. -/
def reserve (cfg : Config) (len : ℕ) (pgOff : U32) (s : Ring) : Ring :=
  let pos := s.producer.toNat
  let r : Record :=
    ⟨boundary s.base s.records, len, .busy, getAll cfg.size s.data (pos+hdrSz) len⟩
  { s with
    data := putAll cfg.size s.data pos (wordBytes r.header ++ wordBytes pgOff)
    producer := s.producer + BitVec.ofNat 64 (reserved len)
    records := s.records ++ [r] }

/-- The program sets a byte of the payload. -/
def fill (cfg : Config) (i k : ℕ) (b : U8) (s : Ring) : Ring :=
  match s.records[i]? with
  | none => s
  | some r =>
    { s with
      data := put cfg.size s.data (r.pos+hdrSz+k) b
      records := s.records.set i { r with payload := r.payload.set k b } }

/-- `bpf_ringbuf_submit` and `bpf_ringbuf_discard`. -/
def finish (cfg : Config) (i : ℕ) (state : RecordState) (s : Ring) : Ring :=
  match s.records[i]? with
  | none => s
  | some r =>
    { s with
      data := putAll cfg.size s.data r.pos (wordBytes { r with state := state }.header)
      records := s.records.set i { r with state := state } }

/-! `drain`. -/

/-- The end of an iteration: `_set_cpos` packs the position into 64 bits, or raises after
`struct.pack_into` has cleared them. -/
def publish (cpos dataLen ppos : ℕ) (s : Ring) : Ring :=
  let cpos := cpos + (hdrSz + roundUp dataLen)
  if cpos < 2^64 then { s with consumer := BitVec.ofNat 64 cpos, reader := .looping cpos ppos }
  else { s with consumer := 0, reader := .failed }

/-- The loop down to the `yield`. -/
def look (cfg : Config) (cpos ppos : ℕ) (s : Ring) : Ring :=
  if cpos = ppos then { s with reader := .idle }
  else
    let off := cpos &&& (cfg.size-1)
    let hdr := wordAt (getAll cfg.size s.data off 4) 0
    if hdr &&& busyBit ≠ 0 then { s with reader := .idle }
    else
      let dataLen := (hdr &&& ~~~(busyBit ||| discardBit)).toNat
      if hdr &&& discardBit = 0 ∧ dataLen = cfg.eventSize then
        { s with reader := .copying cpos dataLen ppos }
      else publish cpos dataLen ppos s

/-- The `yield`. -/
def copy (cfg : Config) (cpos dataLen ppos : ℕ) (s : Ring) : Ring :=
  let off := cpos &&& (cfg.size-1)
  { s with
    yielded := s.yielded ++ [getAll cfg.size s.data (off+hdrSz) dataLen]
    reader := .yielded cpos dataLen ppos }

/-- One action of either side. -/
inductive Action where
  | reserve (len : ℕ) (pgOff : U32)
  | fill (i k : ℕ) (b : U8)
  | commit (i : ℕ)
  | discard (i : ℕ)
  | drain
  | next
  deriving DecidableEq, Repr

/-- The reader goes on by one step. -/
def next (cfg : Config) (s : Ring) : Ring :=
  match s.reader with
  | .looping cpos ppos => look cfg cpos ppos s
  | .copying cpos dataLen ppos => copy cfg cpos dataLen ppos s
  | .yielded cpos dataLen ppos => publish cpos dataLen ppos s
  | .idle | .failed => s

def step (cfg : Config) (s : Ring) : Action → Ring
  | .reserve len pgOff => reserve cfg len pgOff s
  | .fill i k b => fill cfg i k b s
  | .commit i => finish cfg i .committed s
  | .discard i => finish cfg i .discarded s
  | .drain => { s with reader := .looping s.consumer.toNat s.producer.toNat }
  | .next => next cfg s

/-- What the kernel and the verifier allow: the producer does not overrun the consumer,
and a program writes and finishes only records that it has reserved. A new drain begins
when the one before is over. -/
def allowed (cfg : Config) (s : Ring) : Action → Bool
  | .reserve len _ =>
    len < 2^30 && (s.producer + BitVec.ofNat 64 (reserved len) - s.consumer).toNat ≤ cfg.size
  | .fill i k _ => (s.records[i]?).any fun r => r.state = .busy && k < r.len
  | .commit i | .discard i => (s.records[i]?).any fun r => r.state = .busy
  | .drain => s.reader = .idle || s.reader = .failed
  | .next => s.reader ≠ .idle && s.reader ≠ .failed

/-- A reader attached to a ring in which nothing is left, wherever its positions are. -/
structure Ring.Start (s : Ring) : Prop where
  empty : s.consumer = s.producer
  base_eq : s.base = s.producer.toNat
  records_eq : s.records = []
  reader_eq : s.reader = .idle
  yielded_eq : s.yielded = []

/-! What the records say. -/

/-- The payloads of the events among some records. -/
def events (cfg : Config) (records : List Record) : List (List U8) :=
  (records.filter fun r => r.state = .committed ∧ r.len = cfg.eventSize).map Record.payload

/-- Payloads yielded whose record is not yet passed. -/
def Reader.ahead : Reader → ℕ
  | .yielded .. => 1
  | _ => 0

/-- The reader has passed the first `n` records, and has yielded their events. -/
structure Exact (cfg : Config) (s : Ring) (n : ℕ) : Prop where
  boundary_eq : s.consumer = BitVec.ofNat 64 (boundary s.base (s.records.take n))
  behind : n ≤ s.records.length ∧ s.producer = BitVec.ofNat 64 (boundary s.base s.records)
  yielded_eq : s.yielded = events cfg (s.records.take (n + s.reader.ahead))
  finished : ∀ r ∈ s.records.take (n + s.reader.ahead), r.state ≠ .busy

/-- A drain stops behind all that was reserved when it began, or at a record still busy,
and nowhere else. -/
def StopsRight (cfg : Config) (s : Ring) (n : ℕ) : Prop :=
  ∀ cpos ppos, s.reader = .looping cpos ppos → ((next cfg s).reader = .idle ↔
    s.consumer.toNat = ppos ∨ ∃ r, s.records[n]? = some r ∧ r.state = .busy)

/-- The reader is where it ought to be, and has not raised. -/
def Right (cfg : Config) (s : Ring) : Prop :=
  ∃ n, Exact cfg s n ∧ StopsRight cfg s n ∧ s.reader ≠ .failed

end AutoXdp.Ringbuf
