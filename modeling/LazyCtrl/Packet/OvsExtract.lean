import LazyCtrl.Datapath.Skb
import LazyCtrl.Lib.Record

/-!
# Flow keys of the datapath

`ovs_flow_extract` of `datapath/flow.c` for a linear packet without segmentation offload and without
a tag outside the frame.  A position is an offset from the start of the frame, so that
`skb_network_offset` and `skb_transport_offset` are the positions of the headers, and pulling a
header moves the position.
-/

namespace LazyCtrl
namespace Packet

open Bytes

structure KeyIp where
  proto : Byte := 0
  tos : Byte := 0
  ttl : Byte := 0
  frag : Byte := 0
  deriving DecidableEq, Repr

/-- Member `ipv4` of `struct sw_flow_key`.  Of the members `tp` and `arp`, which share their bytes,
only the one that belongs to the frame type is used. -/
structure KeyIpv4 where
  src : BitVec 32 := 0
  dst : BitVec 32 := 0
  tpSrc : BitVec 16 := 0
  tpDst : BitVec 16 := 0
  arpSha : BitVec 48 := 0
  arpTha : BitVec 48 := 0
  deriving DecidableEq, Repr

structure KeyIpv6 where
  src : BitVec 128 := 0
  dst : BitVec 128 := 0
  label : BitVec 32 := 0
  tpSrc : BitVec 16 := 0
  tpDst : BitVec 16 := 0
  ndTarget : BitVec 128 := 0
  ndSll : BitVec 48 := 0
  ndTll : BitVec 48 := 0
  deriving DecidableEq, Repr

/-- `struct sw_flow_key`.  The members `ipv4` and `ipv6` share their bytes; the one that does not
belong to the frame type is zero. -/
structure SwFlowKey where
  tunId : BitVec 64 := 0
  priority : BitVec 32 := 0
  inPort : BitVec 16 := 0
  ethSrc : BitVec 48 := 0
  ethDst : BitVec 48 := 0
  tci : BitVec 16 := 0
  type : BitVec 16 := 0
  ip : KeyIp := {}
  ipv4 : KeyIpv4 := {}
  ipv6 : KeyIpv6 := {}
  deriving DecidableEq, Repr

inductive KeyMember where
  | eth
  | ipv4Addr
  | ipv4Tp
  | ipv4Arp
  | ipv6Label
  | ipv6Tp
  | ipv6Nd
  deriving DecidableEq, Repr

def KeyMember.offset : KeyMember → Nat
  | .eth => 32
  | .ipv4Addr => 44
  | .ipv4Tp => 48
  | .ipv4Arp => 56
  | .ipv6Label => 72
  | .ipv6Tp => 76
  | .ipv6Nd => 104

def ethPArp : BitVec 16 := 0x0806

def ipprotoIcmp : Byte := 1

def ipprotoIcmpv6 : Byte := 58

def nexthdrHop : Byte := 0

def nexthdrRouting : Byte := 43

def nexthdrFragment : Byte := 44

def nexthdrAuth : Byte := 51

def nexthdrNone : Byte := 59

def nexthdrDest : Byte := 60

def ovsFragTypeFirst : Byte := 1

def ovsFragTypeLater : Byte := 2

def ndiscNeighbourSolicitation : Byte := 135

def ndiscNeighbourAdvertisement : Byte := 136

def isNeighbour (icmpType : Byte) : Bool :=
  icmpType = ndiscNeighbourSolicitation ∨ icmpType = ndiscNeighbourAdvertisement

def ndOptSourceLlAddr : Byte := 1

def ndOptTargetLlAddr : Byte := 2

section Frame

variable (frame : List Byte)

def parseVlan (ofs : Nat) : BitVec 16 × Nat :=
  if frame.length < ofs + 6 then (0, ofs)
  else (be16 frame (ofs + 2) ||| vlanTagPresent, ofs + 4)

def parseEthertype (ofs : Nat) : BitVec 16 × Nat :=
  let proto := be16 frame ofs
  if 1536 ≤ proto.toNat then (proto, ofs + 2)
  else if frame.length < ofs + 10 then (ethP8022, ofs + 2)
  else if u8 frame (ofs + 2) ≠ 0xaa ∨ u8 frame (ofs + 3) ≠ 0xaa ∨
      (u8 frame (ofs + 5) ||| u8 frame (ofs + 6) ||| u8 frame (ofs + 7)) ≠ 0 then
    (ethP8022, ofs + 2)
  else (be16 frame (ofs + 8), ofs + 10)

def linkLayer : BitVec 16 × Nat :=
  if be16 frame 12 = ethP8021Q then parseVlan frame 12 else (0, 12)

def checkIphdr (nh : Nat) : Option Nat :=
  if frame.length < nh + 20 then none
  else
    let ipLen := (u8 frame nh &&& 0xf).toNat * 4
    if ipLen < 20 ∨ frame.length < nh + ipLen then none else some (nh + ipLen)

def tcphdrOk (th : Nat) : Bool :=
  th + 20 ≤ frame.length ∧
    let tcpLen := (u8 frame (th + 12) >>> 4).toNat * 4
    ¬ (tcpLen < 20 ∨ frame.length < th + tcpLen)

def udphdrOk (th : Nat) : Bool := th + 8 ≤ frame.length

def icmphdrOk (th : Nat) : Bool := th + 8 ≤ frame.length

def icmp6hdrOk (th : Nat) : Bool := th + 8 ≤ frame.length

def arphdrOk (nh : Nat) : Bool := nh + 28 ≤ frame.length

def ipv6ExtHdr (nexthdr : Byte) : Bool :=
  nexthdr = nexthdrHop ∨ nexthdr = nexthdrRouting ∨ nexthdr = nexthdrFragment ∨
    nexthdr = nexthdrAuth ∨ nexthdr = nexthdrNone ∨ nexthdr = nexthdrDest

/-- `ipv6_skip_exthdr`: the position behind the extension headers, the header there and the last
fragment offset; nothing for `-1`.  Every turn moves the position, so a turn for each byte is
enough. -/
def ipv6SkipExthdr : Nat → Nat → Byte → BitVec 16 → Option (Nat × Byte × BitVec 16)
  | 0, _, _, _ => none
  | turns + 1, start, nexthdr, fragOff =>
    if ¬ ipv6ExtHdr nexthdr then some (start, nexthdr, fragOff)
    else if nexthdr = nexthdrNone then none
    else if frame.length < start + 2 then none
    else if nexthdr = nexthdrFragment then
      if frame.length < start + 4 then none
      else if be16 frame (start + 2) &&& ~~~7 ≠ 0 then
        some (start, nexthdr, be16 frame (start + 2))
      else ipv6SkipExthdr turns (start + 8) (u8 frame start) (be16 frame (start + 2))
    else if nexthdr = nexthdrAuth then
      ipv6SkipExthdr turns (start + ((u8 frame (start + 1)).toNat + 2) * 4) (u8 frame start)
        fragOff
    else
      ipv6SkipExthdr turns (start + ((u8 frame (start + 1)).toNat + 1) * 8) (u8 frame start)
        fragOff

/-- The loop over the options in `parse_icmpv6`, with the link layer addresses it has found;
nothing for `goto invalid`.  Every turn takes at least 8 bytes. -/
def ovsNdOptions (opt : Nat) : Nat → Nat → Nat → BitVec 48 → BitVec 48 →
    Option (BitVec 48 × BitVec 48)
  | 0, _, _, sll, tll => some (sll, tll)
  | turns + 1, icmpLen, offset, sll, tll =>
    if icmpLen < 8 then some (sll, tll)
    else
      let optLen := (u8 frame (opt + offset + 1)).toNat * 8
      if optLen = 0 ∨ icmpLen < optLen then none
      else if u8 frame (opt + offset) = ndOptSourceLlAddr ∧ optLen = 8 then
        if sll ≠ 0 then none
        else ovsNdOptions opt turns (icmpLen - optLen) (offset + optLen)
          (be48 frame (opt + offset + 2)) tll
      else if u8 frame (opt + offset) = ndOptTargetLlAddr ∧ optLen = 8 then
        if tll ≠ 0 then none
        else ovsNdOptions opt turns (icmpLen - optLen) (offset + optLen) sll
          (be48 frame (opt + offset + 2))
      else ovsNdOptions opt turns (icmpLen - optLen) (offset + optLen) sll tll

def ovsNd (th : Nat) : BitVec 128 × BitVec 48 × BitVec 48 :=
  if frame.length - th < 24 then (0, 0, 0)
  else
    match ovsNdOptions frame (th + 24) frame.length (frame.length - th - 24) 0 0 0 with
    | some (sll, tll) => (be128 frame (th + 8), sll, tll)
    | none => (0, 0, 0)

def extractIcmpv6 (th : Nat) (ipv6 : KeyIpv6) : KeyIpv6 × KeyMember :=
  if icmp6hdrOk frame th then
    let icmpType := u8 frame th
    let icmpCode := u8 frame (th + 1)
    let ipv6 := { ipv6 with tpSrc := icmpType.setWidth 16, tpDst := icmpCode.setWidth 16 }
    if icmpCode = 0 ∧ isNeighbour icmpType then
      let (target, sll, tll) := ovsNd frame th
      ({ ipv6 with ndTarget := target, ndSll := sll, ndTll := tll }, .ipv6Nd)
    else (ipv6, .ipv6Tp)
  else (ipv6, .ipv6Tp)

def extractIpv6Tp (proto : Byte) (th : Nat) (ipv6 : KeyIpv6) : KeyIpv6 × KeyMember :=
  if proto = ipprotoTcp then
    (if tcphdrOk frame th then
      { ipv6 with tpSrc := be16 frame th, tpDst := be16 frame (th + 2) } else ipv6, .ipv6Tp)
  else if proto = ipprotoUdp then
    (if udphdrOk frame th then
      { ipv6 with tpSrc := be16 frame th, tpDst := be16 frame (th + 2) } else ipv6, .ipv6Tp)
  else if proto = ipprotoIcmpv6 then extractIcmpv6 frame th ipv6
  else (ipv6, .ipv6Label)

def ipv6Frag (fragOff : BitVec 16) : Byte :=
  if fragOff = 0 then 0 else if fragOff &&& ~~~7 ≠ 0 then ovsFragTypeLater else ovsFragTypeFirst

def ipv6Header (nh : Nat) : KeyIpv6 :=
  { src := be128 frame (nh + 8), dst := be128 frame (nh + 24), label := be32 frame nh &&& 0xfffff }

def ipv6Dsfield (nh : Nat) : Byte := (be16 frame nh >>> 4).setWidth 8

/-- The members of the key for an IPv6 packet, its length, and the transport header.  The members
`frag` and `proto` stay as they are set first when an extension header is not complete. -/
def extractIpv6 (nh : Nat) : KeyIp × KeyIpv6 × KeyMember × Nat :=
  if frame.length < nh + 40 then ({}, {}, .ipv6Label, nh)
  else
    let ip : KeyIp :=
      { proto := nexthdrNone, tos := ipv6Dsfield frame nh, ttl := u8 frame (nh + 7) }
    match ipv6SkipExthdr frame frame.length (nh + 40) (u8 frame (nh + 6)) 0 with
    | none => (ip, ipv6Header frame nh, .ipv6Label, nh)
    | some (th, nexthdr, fragOff) =>
      let ip := { ip with proto := nexthdr, frag := ipv6Frag fragOff }
      if ip.frag = ovsFragTypeLater then (ip, ipv6Header frame nh, .ipv6Label, th)
      else
        let (ipv6, len) := extractIpv6Tp frame nexthdr th (ipv6Header frame nh)
        (ip, ipv6, len, th)

def extractIpv4Tp (proto : Byte) (th : Nat) (ipv4 : KeyIpv4) : KeyIpv4 × KeyMember :=
  if proto = ipprotoTcp then
    (if tcphdrOk frame th then
      { ipv4 with tpSrc := be16 frame th, tpDst := be16 frame (th + 2) } else ipv4, .ipv4Tp)
  else if proto = ipprotoUdp then
    (if udphdrOk frame th then
      { ipv4 with tpSrc := be16 frame th, tpDst := be16 frame (th + 2) } else ipv4, .ipv4Tp)
  else if proto = ipprotoIcmp then
    (if icmphdrOk frame th then
      { ipv4 with
        tpSrc := (u8 frame th).setWidth 16
        tpDst := (u8 frame (th + 1)).setWidth 16 } else ipv4, .ipv4Tp)
  else (ipv4, .ipv4Addr)

def extractIpv4 (nh : Nat) : KeyIp × KeyIpv4 × KeyMember × Nat :=
  match checkIphdr frame nh with
  | none => ({}, {}, .ipv4Addr, nh)
  | some th =>
    let ip : KeyIp :=
      { proto := u8 frame (nh + 9), tos := u8 frame (nh + 1), ttl := u8 frame (nh + 8) }
    let ipv4 : KeyIpv4 := { src := be32 frame (nh + 12), dst := be32 frame (nh + 16) }
    if be16 frame (nh + 6) &&& 0x1fff ≠ 0 then
      ({ ip with frag := ovsFragTypeLater }, ipv4, .ipv4Addr, th)
    else
      let ip :=
        if be16 frame (nh + 6) &&& 0x2000 ≠ 0 then { ip with frag := ovsFragTypeFirst } else ip
      let (ipv4, len) := extractIpv4Tp frame ip.proto th ipv4
      (ip, ipv4, len, th)

def arpIsIpv4 (nh : Nat) : Bool :=
  be16 frame nh = 1 ∧ be16 frame (nh + 2) = ethPIp ∧ u8 frame (nh + 4) = 6 ∧ u8 frame (nh + 5) = 4

def isArpRequestOrReply (proto : Byte) : Bool := proto = 1 ∨ proto = 2

def arpOpcode (nh : Nat) : Byte :=
  if (be16 frame (nh + 6)).toNat ≤ 0xff then (be16 frame (nh + 6)).setWidth 8 else 0

def extractArp (nh : Nat) : KeyIp × KeyIpv4 × KeyMember :=
  if arpIsIpv4 frame nh then
    let proto := arpOpcode frame nh
    if isArpRequestOrReply proto then
      ({ proto },
        { src := be32 frame (nh + 14)
          dst := be32 frame (nh + 24)
          arpSha := be48 frame (nh + 8)
          arpTha := be48 frame (nh + 18) }, .ipv4Arp)
    else ({ proto }, {}, .eth)
  else ({}, {}, .eth)

/-- What `ovs_flow_extract` returns: the key, its length, and the headers of the packet.  The
transport header is left alone unless the packet is an IP packet. -/
structure Extraction where
  key : SwFlowKey
  keyLen : KeyMember
  networkHeader : Nat
  transportHeader : Option Nat
  deriving DecidableEq, Repr

/-- Nothing for `-ENOMEM`, which it returns for the frame type 0. -/
def ovsFlowExtract (priority : BitVec 32) (tunId : BitVec 64) (inPort : BitVec 16) :
    Option Extraction :=
  let (tci, ofs) := linkLayer frame
  let (type, nh) := parseEthertype frame ofs
  let key : SwFlowKey :=
    { tunId, priority, inPort, ethSrc := be48 frame 6, ethDst := be48 frame 0, tci, type }
  if type = 0 then none
  else if type = ethPIp then
    let (ip, ipv4, keyLen, th) := extractIpv4 frame nh
    some ⟨{ key with ip, ipv4 }, keyLen, nh, some th⟩
  else if type = ethPArp ∧ arphdrOk frame nh then
    let (ip, ipv4, keyLen) := extractArp frame nh
    some ⟨{ key with ip, ipv4 }, keyLen, nh, none⟩
  else if type = ethPIpv6 then
    let (ip, ipv6, keyLen, th) := extractIpv6 frame nh
    some ⟨{ key with ip, ipv6 }, keyLen, nh, some th⟩
  else some ⟨key, .eth, nh, none⟩

end Frame

end Packet
end LazyCtrl
