import LazyCtrl.Packet.OvsExtract

/-!
# Flows of the switch daemon

`flow_extract` of `lib/flow.c`.  A position is an offset from the start of the packet: pulling bytes
from the buffer moves the position, and what is left of the buffer lies behind it.
-/

namespace LazyCtrl
namespace Packet

open Bytes

structure Flow where
  tunId : BitVec 64 := 0
  ipv6Src : BitVec 128 := 0
  ipv6Dst : BitVec 128 := 0
  ndTarget : BitVec 128 := 0
  skbPriority : BitVec 32 := 0
  nwSrc : BitVec 32 := 0
  nwDst : BitVec 32 := 0
  ipv6Label : BitVec 32 := 0
  inPort : BitVec 16 := 0
  vlanTci : BitVec 16 := 0
  dlType : BitVec 16 := 0
  tpSrc : BitVec 16 := 0
  tpDst : BitVec 16 := 0
  dlSrc : BitVec 48 := 0
  dlDst : BitVec 48 := 0
  nwProto : Byte := 0
  nwTos : Byte := 0
  arpSha : BitVec 48 := 0
  arpTha : BitVec 48 := 0
  nwTtl : Byte := 0
  nwFrag : Byte := 0
  deriving DecidableEq, Repr

def flowDlTypeNone : BitVec 16 := 0x5ff

def flowNwFragAny : Byte := 1

def flowNwFragLater : Byte := 2

def vlanCfi : BitVec 16 := 0x1000

section Buffer

variable (packet : List Byte)

def tryPull (ofs size : Nat) : Option Nat :=
  if size ≤ packet.length - ofs then some (ofs + size) else none

def pullIp (ofs : Nat) : Option Nat :=
  if 20 ≤ packet.length - ofs then
    let ipLen := (u8 packet ofs &&& 0xf).toNat * 4
    if 20 ≤ ipLen ∧ ipLen ≤ packet.length - ofs then some (ofs + ipLen) else none
  else none

def pullTcp (ofs : Nat) : Option Nat :=
  if 20 ≤ packet.length - ofs then
    let tcpLen := (be16 packet (ofs + 12) >>> 12).toNat * 4
    if 20 ≤ tcpLen ∧ tcpLen ≤ packet.length - ofs then some (ofs + tcpLen) else none
  else none

def userParseVlan (ofs : Nat) : BitVec 16 × Nat :=
  if 6 ≤ packet.length - ofs then (be16 packet (ofs + 2) ||| vlanCfi, ofs + 4) else (0, ofs)

def userParseEthertype (ofs : Nat) : BitVec 16 × Nat :=
  let proto := be16 packet ofs
  let ofs := ofs + 2
  if 1536 ≤ proto.toNat then (proto, ofs)
  else if packet.length - ofs < 8 then (flowDlTypeNone, ofs)
  else if u8 packet ofs ≠ 0xaa ∨ u8 packet (ofs + 1) ≠ 0xaa ∨ u8 packet (ofs + 2) ≠ 3 ∨
      ¬ (u8 packet (ofs + 3) = 0 ∧ u8 packet (ofs + 4) = 0 ∧ u8 packet (ofs + 5) = 0) then
    (flowDlTypeNone, ofs)
  else (be16 packet (ofs + 6), ofs + 8)

structure Parsed where
  flow : Flow
  l3 : Option Nat := none
  l4 : Option Nat := none
  l7 : Option Nat := none
  deriving DecidableEq, Repr

def parsePorts (ofs : Nat) (parsed : Parsed) : Option Nat → Parsed
  | some l7 =>
    { parsed with
      flow := { parsed.flow with tpSrc := be16 packet ofs, tpDst := be16 packet (ofs + 2) }
      l7 := some l7 }
  | none => parsed

def parseTcp (ofs : Nat) (parsed : Parsed) : Parsed :=
  parsePorts packet ofs parsed (pullTcp packet ofs)

def parseUdp (ofs : Nat) (parsed : Parsed) : Parsed :=
  parsePorts packet ofs parsed (tryPull packet ofs 8)

def parseIcmp (ofs : Nat) (parsed : Parsed) : Parsed :=
  match tryPull packet ofs 8 with
  | some l7 =>
    { parsed with
      flow := { parsed.flow with
        tpSrc := (u8 packet ofs).setWidth 16
        tpDst := (u8 packet (ofs + 1)).setWidth 16 }
      l7 := some l7 }
  | none => parsed

/-- The loop over the options in `parse_icmpv6`, with the hardware addresses it has found: the
position where it ends; nothing for `goto invalid`.  Every turn takes at least 8 bytes. -/
def ndOptions : Nat → Nat → BitVec 48 → BitVec 48 → Option (Nat × BitVec 48 × BitVec 48)
  | 0, ofs, sha, tha => some (ofs, sha, tha)
  | turns + 1, ofs, sha, tha =>
    if packet.length - ofs < 8 then some (ofs, sha, tha)
    else
      let optLen := (u8 packet (ofs + 1)).toNat * 8
      if optLen = 0 ∨ packet.length - ofs < optLen then none
      else if u8 packet ofs = ndOptSourceLlAddr ∧ optLen = 8 then
        if sha = 0 then ndOptions turns (ofs + optLen) (be48 packet (ofs + 2)) tha else none
      else if u8 packet ofs = ndOptTargetLlAddr ∧ optLen = 8 then
        if tha = 0 then ndOptions turns (ofs + optLen) sha (be48 packet (ofs + 2)) else none
      else ndOptions turns (ofs + optLen) sha tha

def parseNd (ofs : Nat) (parsed : Parsed) : Parsed :=
  match tryPull packet ofs 16 with
  | none => parsed
  | some options =>
    match ndOptions packet packet.length options parsed.flow.arpSha parsed.flow.arpTha with
    | some (l7, arpSha, arpTha) =>
      { parsed with
        flow := { parsed.flow with ndTarget := be128 packet ofs, arpSha, arpTha }
        l7 := some l7 }
    | none =>
      { parsed with flow := { parsed.flow with ndTarget := 0, arpSha := 0, arpTha := 0 } }

def parseIcmpv6 (ofs : Nat) (parsed : Parsed) : Parsed :=
  match tryPull packet ofs 8 with
  | none => parsed
  | some l7 =>
    let flow := { parsed.flow with
      tpSrc := (u8 packet ofs).setWidth 16
      tpDst := (u8 packet (ofs + 1)).setWidth 16 }
    if u8 packet (ofs + 1) = 0 ∧ isNeighbour (u8 packet ofs) then
      parseNd packet l7 { parsed with flow }
    else { parsed with flow, l7 := some l7 }

def parseIpv4 (ofs : Nat) (parsed : Parsed) : Parsed :=
  match pullIp packet ofs with
  | none => parsed
  | some l4 =>
    let fragOff := be16 packet (ofs + 6)
    let nwFrag :=
      if fragOff &&& 0x3fff ≠ 0 then
        if fragOff &&& 0x1fff ≠ 0 then flowNwFragAny ||| flowNwFragLater else flowNwFragAny
      else 0
    let parsed := { parsed with
      flow := { parsed.flow with
        nwSrc := be32 packet (ofs + 12)
        nwDst := be32 packet (ofs + 16)
        nwProto := u8 packet (ofs + 9)
        nwTos := u8 packet (ofs + 1)
        nwFrag
        nwTtl := u8 packet (ofs + 8) }
      l4 := some l4 }
    if fragOff &&& 0x1fff = 0 then
      if parsed.flow.nwProto = ipprotoTcp then parseTcp packet l4 parsed
      else if parsed.flow.nwProto = ipprotoUdp then parseUdp packet l4 parsed
      else if parsed.flow.nwProto = ipprotoIcmp then parseIcmp packet l4 parsed
      else parsed
    else parsed

/-- The loop over the extension headers in `parse_ipv6`, with `nw_frag`: the last header and its
position; nothing for `EINVAL`.  Every turn moves the position. -/
def parseIpv6Ext : Nat → Nat → Byte → Byte → Byte × Option (Byte × Nat)
  | 0, _, _, nwFrag => (nwFrag, none)
  | turns + 1, ofs, nexthdr, nwFrag =>
    if nexthdr ≠ nexthdrHop ∧ nexthdr ≠ nexthdrRouting ∧ nexthdr ≠ nexthdrDest ∧
        nexthdr ≠ nexthdrAuth ∧ nexthdr ≠ nexthdrFragment then (nwFrag, some (nexthdr, ofs))
    else if packet.length - ofs < 8 then (nwFrag, none)
    else if nexthdr = nexthdrHop ∨ nexthdr = nexthdrRouting ∨ nexthdr = nexthdrDest then
      match tryPull packet ofs (((u8 packet (ofs + 1)).toNat + 1) * 8) with
      | some next => parseIpv6Ext turns next (u8 packet ofs) nwFrag
      | none => (nwFrag, none)
    else if nexthdr = nexthdrAuth then
      match tryPull packet ofs (((u8 packet (ofs + 1)).toNat + 2) * 4) with
      | some next => parseIpv6Ext turns next (u8 packet ofs) nwFrag
      | none => (nwFrag, none)
    else
      -- A fragment header; the 8 bytes are there.
      let offlg := be16 packet (ofs + 2)
      if offlg ≠ 0 then
        if offlg &&& 0xfff8 = 0 then
          parseIpv6Ext turns (ofs + 8) (u8 packet ofs) flowNwFragAny
        else (nwFrag ||| flowNwFragLater, some (nexthdrFragment, ofs + 8))
      else parseIpv6Ext turns (ofs + 8) (u8 packet ofs) nwFrag

def parseIpv6 (ofs : Nat) (parsed : Parsed) : Parsed :=
  match tryPull packet ofs 40 with
  | none => parsed
  | some next =>
    let tcFlow := be32 packet ofs
    let flow := { parsed.flow with
      ipv6Src := be128 packet (ofs + 8)
      ipv6Dst := be128 packet (ofs + 24)
      nwTos := (tcFlow >>> 20).setWidth 8
      ipv6Label := tcFlow &&& 0xfffff
      nwTtl := u8 packet (ofs + 7)
      nwProto := nexthdrNone }
    match parseIpv6Ext packet packet.length next (u8 packet (ofs + 6)) flow.nwFrag with
    | (nwFrag, none) => { parsed with flow := { flow with nwFrag } }
    | (nwFrag, some (nwProto, l4)) =>
      let parsed := { parsed with flow := { flow with nwFrag, nwProto }, l4 := some l4 }
      if nwProto = ipprotoTcp then parseTcp packet l4 parsed
      else if nwProto = ipprotoUdp then parseUdp packet l4 parsed
      else if nwProto = ipprotoIcmpv6 then parseIcmpv6 packet l4 parsed
      else parsed

def parseArp (ofs : Nat) (parsed : Parsed) : Parsed :=
  match tryPull packet ofs 28 with
  | none => parsed
  | some _ =>
    if be16 packet ofs = 1 ∧ be16 packet (ofs + 2) = ethPIp ∧ u8 packet (ofs + 4) = 6 ∧
        u8 packet (ofs + 5) = 4 then
      let op := be16 packet (ofs + 6)
      let flow :=
        if op.toNat ≤ 0xff then { parsed.flow with nwProto := op.setWidth 8 } else parsed.flow
      if flow.nwProto = 1 ∨ flow.nwProto = 2 then
        { parsed with
          flow := { flow with
            nwSrc := be32 packet (ofs + 14)
            nwDst := be32 packet (ofs + 24)
            arpSha := be48 packet (ofs + 8)
            arpTha := be48 packet (ofs + 18) } }
      else { parsed with flow }
    else parsed

def flowExtract (skbPriority : BitVec 32) (tunId : BitVec 64) (ofpInPort : BitVec 16) : Parsed :=
  let flow : Flow := { tunId, inPort := ofpInPort, skbPriority }
  if packet.length < 14 then { flow }
  else
    let (vlanTci, ofs) := if be16 packet 12 = ethP8021Q then userParseVlan packet 12 else (0, 12)
    let (dlType, ofs) := userParseEthertype packet ofs
    let parsed : Parsed :=
      { flow := { flow with dlSrc := be48 packet 6, dlDst := be48 packet 0, vlanTci, dlType }
        l3 := some ofs }
    if dlType = ethPIp then parseIpv4 packet ofs parsed
    else if dlType = ethPIpv6 then parseIpv6 packet ofs parsed
    else if dlType = ethPArp then parseArp packet ofs parsed
    else parsed

end Buffer

end Packet
end LazyCtrl
