import LazyCtrl.Ofp.RoundTrip

/-!
# Messages that carry actions

`ofputil_decode_packet_remote` and the OpenFlow 1.0 part of `ofputil_decode_flow_mod` of
`lib/ofp-util.c`, with the part of `ofpraw_pull` of `lib/ofp-msgs.c` that concerns these two types of
messages.  The match of a flow modification is kept as it stands in the message.
-/

namespace LazyCtrl

open Bytes

inductive Ofpraw where
  | ofpt10FlowMod
  | ofpt10PacketRemote
  deriving DecidableEq, Repr

namespace Ofpraw

def type : Ofpraw → BitVec 8
  | ofpt10FlowMod => 14
  | ofpt10PacketRemote => 22

def minBody : Ofpraw → Nat
  | ofpt10FlowMod => 64
  | ofpt10PacketRemote => 8

def extraMultiple : Ofpraw → Nat
  | ofpt10FlowMod => 8
  | ofpt10PacketRemote => 1

end Ofpraw

def ofprawFromOfphdrs (version type : BitVec 8) : Option Ofpraw :=
  if version = 1 then [Ofpraw.ofpt10FlowMod, .ofpt10PacketRemote].find? fun raw => raw.type = type
  else none

def ofprawPullAssert (msg : List (BitVec 8)) : Option (Ofpraw × List (BitVec 8)) :=
  if msg.length < 8 then none
  else do
    let raw ← ofprawFromOfphdrs (u8 msg 0) (u8 msg 1)
    let minLen := 8 + raw.minBody
    if msg.length < minLen ∨ (msg.length - minLen) % raw.extraMultiple ≠ 0 then none
    else some (raw, msg.drop 8)

inductive MessageError where
  | ofperr (error : Ofperr)
  | nxbrcBadInPort
  deriving DecidableEq, Repr

def messageBytes (oh : List (BitVec 8)) : List (BitVec 8) := oh.take (be16 oh 2).toNat

def uint32Max : BitVec 32 := 0xffffffff

structure OfputilPacketRemote where
  packet : Option (List (BitVec 8))
  bufferId : BitVec 32
  inPort : BitVec 16
  ofpacts : List Ofpact
  deriving DecidableEq, Repr

def ofppNone : BitVec 16 := 0xffff

def inPortOk (inPort : BitVec 16) : Bool :=
  (inPort.toNat : Int) < ofppMax ∨ inPort = ofppLocal ∨ inPort = ofppNone ∨ inPort = ofppController

def finishPacketRemote (bufferId : BitVec 32) (inPort : BitVec 16) (data : List (BitVec 8))
    (translation : Translation) : Except MessageError OfputilPacketRemote :=
  match translation.error with
  | some error => .error (.ofperr error)
  | none =>
    if inPortOk inPort then
      .ok {
        packet := if bufferId = uint32Max then some data else none
        bufferId
        inPort
        ofpacts := translation.ofpacts }
    else .error .nxbrcBadInPort

def ofputilDecodePacketRemote (oh : List (BitVec 8)) :
    Option (Except MessageError OfputilPacketRemote) :=
  match ofprawPullAssert (messageBytes oh) with
  | some (.ofpt10PacketRemote, opr) =>
    let actionsLen := (be16 opr 6).toNat
    (ofpactsPullOpenflow10 (opr.drop 8) actionsLen).map
      (finishPacketRemote (be32 opr 0) (be16 opr 4) ((opr.drop 8).drop actionsLen))
  | _ => none

structure Ofp10Match where
  wildcards : BitVec 32
  inPort : BitVec 16
  dlSrc : BitVec 48
  dlDst : BitVec 48
  dlVlan : BitVec 16
  dlVlanPcp : BitVec 8
  dlType : BitVec 16
  nwTos : BitVec 8
  nwProto : BitVec 8
  nwSrc : BitVec 32
  nwDst : BitVec 32
  tpSrc : BitVec 16
  tpDst : BitVec 16
  deriving DecidableEq, Repr

def ofp10MatchAt (bytes : List (BitVec 8)) : Ofp10Match where
  wildcards := be32 bytes 0
  inPort := be16 bytes 4
  dlSrc := be48 bytes 6
  dlDst := be48 bytes 12
  dlVlan := be16 bytes 18
  dlVlanPcp := u8 bytes 20
  dlType := be16 bytes 22
  nwTos := u8 bytes 24
  nwProto := u8 bytes 25
  nwSrc := be32 bytes 28
  nwDst := be32 bytes 32
  tpSrc := be16 bytes 36
  tpDst := be16 bytes 38

def ofpfw10All : BitVec 32 := 0x3fffff

/-- `struct ofputil_flow_mod` as an OpenFlow 1.0 message fills it in.  Instead of the rule there are
the match and the priority that it is made of. -/
structure OfputilFlowMod where
  ofpMatch : Ofp10Match
  priority : BitVec 16
  newCookie : BitVec 64
  command : BitVec 16
  tableId : BitVec 8
  idleTimeout : BitVec 16
  hardTimeout : BitVec 16
  bufferId : BitVec 32
  outPort : BitVec 16
  flags : BitVec 16
  ofpacts : List Ofpact
  deriving DecidableEq, Repr

def finishFlowMod (tid : Bool) (ofm : List (BitVec 8)) (translation : Translation) :
    Except MessageError OfputilFlowMod :=
  match translation.error with
  | some error => .error (.ofperr error)
  | none =>
    let command := be16 ofm 48
    .ok {
      ofpMatch := ofp10MatchAt ofm
      priority := if be32 ofm 0 &&& ofpfw10All = 0 then 0xffff else be16 ofm 54
      newCookie := be64 ofm 40
      command := if tid then command &&& 0xff else command
      tableId := if tid then (command >>> 8).setWidth 8 else 0xff
      idleTimeout := be16 ofm 50
      hardTimeout := be16 ofm 52
      bufferId := be32 ofm 56
      outPort := be16 ofm 60
      flags := be16 ofm 62
      ofpacts := translation.ofpacts }

def ofputilDecodeFlowMod (tid : Bool) (oh : List (BitVec 8)) :
    Option (Except MessageError OfputilFlowMod) :=
  match ofprawPullAssert (messageBytes oh) with
  | some (.ofpt10FlowMod, ofm) =>
    (ofpactsPullOpenflow10 (ofm.drop 64) (ofm.drop 64).length).map (finishFlowMod tid ofm)
  | _ => none

end LazyCtrl
