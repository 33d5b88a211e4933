import AutoXdp.XdpKeys
import Mathlib.Tactic.Basic

/-! The packet parser (`bpf/include/parse.h`). A frame is its bytes, a pointer is
an offset into them, and `data_end` is their number. `tc_flow_track.c` carries
the same two walks. -/
namespace AutoXdp

abbrev Frame := List U8

namespace Frame

/-- The byte at an offset; only read where the program has checked the bounds. -/
def byte (f : Frame) (off : ℕ) : U8 := f.getD off 0

def be16 (f : Frame) (off : ℕ) : U16 := f.byte off ++ f.byte (off+1)

def be32 (f : Frame) (off : ℕ) : U32 := f.be16 off ++ f.be16 (off+2)

def be64 (f : Frame) (off : ℕ) : U64 := f.be32 off ++ f.be32 (off+4)

def be128 (f : Frame) (off : ℕ) : U128 := f.be64 off ++ f.be64 (off+8)

end Frame

def ethPIp : U16 := 0x0800
def ethPIpv6 : U16 := 0x86DD
def ethP8021q : U16 := 0x8100
def ethP8021ad : U16 := 0x88A8

def ipprotoHopopts : U8 := 0
def ipprotoIcmp : U8 := 1
def ipprotoTcp : U8 := 6
def ipprotoUdp : U8 := 17
def ipprotoIpv6 : U8 := 41
def ipprotoRouting : U8 := 43
def ipprotoFragment : U8 := 44
def ipprotoIcmpv6 : U8 := 58
def ipprotoNone : U8 := 59
def ipprotoDstopts : U8 := 60
def ipprotoSctp : U8 := 132

/-- `IPV6_FRAG_DROP_SENTINEL`. -/
def ipv6FragDropSentinel : U8 := 0xFF

def vlanMaxDepth : ℕ := 4

def isVlanProto (ethProto : U16) : Bool := ethProto == ethP8021q || ethProto == ethP8021ad

/-- `strip_vlan_tags`: the inner EtherType and the offset behind the tags that
were stripped, or nothing for a frame that ends inside a tag. -/
def stripVlanTags (f : Frame) : ℕ → U16 → ℕ → Option (U16 × ℕ)
  | 0, ethProto, l3 => some (ethProto, l3)
  | depth+1, ethProto, l3 =>
    if isVlanProto ethProto then
      if l3 + 4 > f.length then none
      else stripVlanTags f depth (f.be16 (l3+2)) (l3+4)
    else some (ethProto, l3)

/-- The headers `skip_ipv6_exthdr` skips by their length byte. -/
def isOptionsHdr (nexthdr : U8) : Bool :=
  nexthdr == ipprotoHopopts || nexthdr == ipprotoRouting || nexthdr == ipprotoDstopts

/-- `skip_ipv6_exthdr`: the next header after at most `fuel` extension headers, and
where it starts. -/
def skipIpv6Exthdr (f : Frame) : ℕ → ℕ → U8 → U8 × ℕ
  | 0, off, nexthdr => (nexthdr, off)
  | fuel+1, off, nexthdr =>
    if isOptionsHdr nexthdr then
      if off + 2 > f.length then (ipprotoNone, off)
      else
        let next := off + ((f.byte (off+1)).toNat + 1)*8
        if next > f.length then (ipprotoNone, next)
        else skipIpv6Exthdr f fuel next (f.byte off)
    else if nexthdr == ipprotoFragment then
      if off + 8 > f.length then (ipprotoNone, off)
      else if f.be16 (off+2) &&& 0xFFF8 ≠ 0 then (ipv6FragDropSentinel, off)
      else skipIpv6Exthdr f fuel (off+8) (f.byte off)
    else (nexthdr, off)

def ipv6ExthdrMax : ℕ := 6

/-- The flags byte of the TCP header at an offset. -/
def tcpFlags (f : Frame) (tcp : ℕ) : U8 := f.byte (tcp+13)

/-- `tcp_malformed_reason` of the header at `tcp`. -/
def tcpMalformedReason (f : Frame) (tcp : ℕ) : Option Counter :=
  let doff := f.byte (tcp+12) >>> 4
  let flags := tcpFlags f tcp
  if doff < 5 ∨ doff > 15 then some .tcpMalformDoff
  else if tcp + doff.toNat*4 > f.length then some .tcpMalformDoff
  else if f.be16 tcp = 0 ∨ f.be16 (tcp+2) = 0 then some .tcpMalformPort0
  else if flags = 0 then some .tcpMalformNull
  else if flags &&& 0x03 = 0x03 then some .tcpMalformSynFin
  else if flags &&& 0x06 = 0x06 then some .tcpMalformSynRst
  else if flags &&& 0x05 = 0x05 then some .tcpMalformRstFin
  else if flags &&& 0x29 = 0x29 then some .tcpMalformXmas
  else none

/-- `udp_malformed_reason` of the header at `udp`. -/
def udpMalformedReason (f : Frame) (udp : ℕ) : Option Counter :=
  let ulen := f.be16 (udp+4)
  if f.be16 udp = 0 ∨ f.be16 (udp+2) = 0 then some .udpMalformPort0
  else if ulen < 8 ∨ ulen.toNat > f.length - udp then some .udpMalformLen
  else none

/-- `is_bogon_v4`. -/
def isBogonV4 (a : U32) : Bool :=
  let o1 := a >>> 24
  o1 == 0 || o1 == 10 || o1 == 127 || a &&& 0xFFC00000 == 0x64400000 ||
    a &&& 0xFFFF0000 == 0xA9FE0000 || a &&& 0xFFF00000 == 0xAC100000 ||
    a &&& 0xFFFF0000 == 0xC0A80000 || a &&& 0xF0000000 == 0xE0000000 ||
    a &&& 0xF0000000 == 0xF0000000

/-- `is_bogon_v6`. -/
def isBogonV6 (a : U128) : Bool :=
  let w0 := a.extractLsb' 96 32
  let w1 := a.extractLsb' 64 32
  let w2 := a.extractLsb' 32 32
  let w3 := a.extractLsb' 0 32
  (w0 == 0 && w1 == 0 && w2 == 0 && w3 == 0) || (w0 == 0 && w1 == 0 && w2 == 0 && w3 == 1) ||
    w0 &&& 0xFE000000 == 0xFC000000 || w0 &&& 0xFFC00000 == 0xFE800000 ||
    w0 &&& 0xFF000000 == 0xFF000000 || (w0 == 0 && w1 == 0 && w2 == 0x0000FFFF)

/-- The inbound tuple of the transport header at `l4`. -/
def flowKeyV4 (f : Frame) (ip l4 : ℕ) : FlowKey :=
  .v4 (f.be16 l4) (f.be16 (l4+2)) (f.be32 (ip+12)) (f.be32 (ip+16))

def flowKeyV6 (f : Frame) (ip l4 : ℕ) : FlowKey :=
  .v6 (f.be16 l4) (f.be16 (l4+2)) (f.be128 (ip+8)) (f.be128 (ip+24))

/-- The tuple with its two ends exchanged. -/
def FlowKey.reverse : FlowKey → FlowKey
  | .v4 sport dport saddr daddr => .v4 dport sport daddr saddr
  | .v6 sport dport saddr daddr => .v6 dport sport daddr saddr

/-- The bytes of an IPv4 header: `ihl * 4`. -/
def ipHlen (f : Frame) (ip : ℕ) : ℕ := (f.byte ip &&& 0x0F).toNat*4

/-- `ip->frag_off & bpf_htons(IP_MF | IP_OFFSET)`. -/
def isFragmentV4 (f : Frame) (ip : ℕ) : Bool := f.be16 (ip+6) &&& 0x3FFF != 0

/-- The transport header both programs find in a frame: its protocol, the inbound
tuple and the offset. -/
def transport (f : Frame) : Option (U8 × FlowKey × ℕ) :=
  if 14 > f.length then none
  else match stripVlanTags f vlanMaxDepth (f.be16 12) 14 with
    | none => none
    | some (ethProto, l3) =>
      if ethProto = ethPIp then
        let l4 := l3 + ipHlen f l3
        if l3 + 20 > f.length ∨ ipHlen f l3 < 20 ∨ isFragmentV4 f l3 then none
        else some (f.byte (l3+9), flowKeyV4 f l3 l4, l4)
      else if ethProto = ethPIpv6 then
        if l3 + 40 > f.length then none
        else
          let (nexthdr, l4) := skipIpv6Exthdr f ipv6ExthdrMax (l3+40) (f.byte (l3+6))
          if nexthdr = ipprotoNone ∨ nexthdr = ipv6FragDropSentinel then none
          else some (nexthdr, flowKeyV6 f l3 l4, l4)
      else none

/-- The bytes of a word in network order. -/
def wireU16 (w : U16) : List U8 := [w.extractLsb' 8 8, w.extractLsb' 0 8]

def wireU32 (w : U32) : List U8 := wireU16 (w.extractLsb' 16 16) ++ wireU16 (w.extractLsb' 0 16)

/-- The shortest frame that carries a segment of this IPv4 tuple. -/
def ipv4Segment (sport dport : U16) (saddr daddr : U32) (flags : U8) : Frame :=
  List.replicate 12 0 ++ wireU16 ethPIp ++
  [0x45, 0, 0, 40, 0, 0, 0, 0, 64, ipprotoTcp, 0, 0] ++ wireU32 saddr ++ wireU32 daddr ++
  wireU16 sport ++ wireU16 dport ++ List.replicate 8 0 ++ [0x50, flags] ++ List.replicate 6 0

end AutoXdp
