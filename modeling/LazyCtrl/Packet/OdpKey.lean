import LazyCtrl.Ofp.Ofpact
import LazyCtrl.Packet.FlowExtract
import LazyCtrl.Packet.OvsNlattrs

/-!
# Flows from netlink attributes

`odp_flow_key_to_flow` of `lib/odp-util.c`: what the switch daemon makes of the attributes of a flow
key.  A set of attribute types is a list of numbers here.
-/

namespace LazyCtrl
namespace Packet

open Bytes Netlink

inductive OdpKeyFitness where
  | perfect
  | tooMuch
  | tooLittle
  | error
  deriving DecidableEq, Repr

namespace OdpKeyFitness

def rank : OdpKeyFitness → Nat
  | .perfect => 0
  | .tooMuch => 1
  | .tooLittle => 2
  | .error => 3

def max (one other : OdpKeyFitness) : OdpKeyFitness := if one.rank > other.rank then one else other

end OdpKeyFitness

def ovspLocal : BitVec 16 := 0

def ovspNone : BitVec 16 := 0xffff

def ofppNone : BitVec 16 := 0xffff

def odpPortToOfpPort (odpPort : BitVec 16) : BitVec 16 :=
  if odpPort = ovspLocal then ofppLocal
  else if odpPort = ovspNone then ofppNone
  else odpPort

def odpFlowKeyAttrLen (type : BitVec 16) : Option Nat :=
  (OvsKeyAttr.ofCode type).bind OvsKeyAttr.size

def odpNlattrsOk : List (BitVec 16) → List Nlattr → Bool
  | _, [] => true
  | seen, attr :: attrs =>
    (odpFlowKeyAttrLen attr.type).all (fun size => attr.payload.length = size) &&
      if attr.type.toNat ≥ 64 then odpNlattrsOk seen attrs
      else !seen.contains attr.type && odpNlattrsOk (attr.type :: seen) attrs

def odpParseFlowNlattrs (bytes : List Byte) : Option (List Nlattr × Bool) :=
  let (attrs, left) := nlAttrForEach bytes
  if odpNlattrsOk [] attrs ∧ ¬ left then
    some (attrs.filter fun attr => attr.type.toNat < 64, attrs.any fun attr => attr.type.toNat ≥ 64)
  else none

def checkExpectations (present : List Nlattr) (outOfRange : Bool) (expected : List (BitVec 16)) :
    OdpKeyFitness :=
  if expected.any fun type => (find present type).isNone then .tooLittle
  else if (present.any fun attr => !expected.contains attr.type) ∨ outOfRange then .tooMuch
  else .perfect

def odpToOvsFrag (odpFrag : Byte) (nwFrag : Byte) : Option Byte :=
  if odpFrag.toNat > ovsFragTypeLater.toNat then none
  else if odpFrag ≠ 0 then
    if odpFrag = ovsFragTypeLater then some (nwFrag ||| flowNwFragAny ||| flowNwFragLater)
    else some (nwFrag ||| flowNwFragAny)
  else some nwFrag

def odpParseEthertype (attrs : List Nlattr) (expected : List (BitVec 16)) :
    Option (BitVec 16 × List (BitVec 16)) :=
  match find attrs OvsKeyAttr.ethertype.code with
  | some p =>
    if (be16 p 0).toNat < 1536 then none
    else some (be16 p 0, OvsKeyAttr.ethertype.code :: expected)
  | none => some (flowDlTypeNone, expected)

def odpParseNetwork (attrs : List Nlattr) (expected : List (BitVec 16)) (flow : Flow) :
    Option (Flow × List (BitVec 16)) :=
  if flow.dlType = ethPIp then
    match find attrs OvsKeyAttr.ipv4.code with
    | some p =>
      (odpToOvsFrag (u8 p 11) flow.nwFrag).map fun nwFrag =>
        ({ flow with
            nwSrc := be32 p 0
            nwDst := be32 p 4
            nwProto := u8 p 8
            nwTos := u8 p 9
            nwTtl := u8 p 10
            nwFrag }, OvsKeyAttr.ipv4.code :: expected)
    | none => some (flow, OvsKeyAttr.ipv4.code :: expected)
  else if flow.dlType = ethPIpv6 then
    match find attrs OvsKeyAttr.ipv6.code with
    | some p =>
      (odpToOvsFrag (u8 p 39) flow.nwFrag).map fun nwFrag =>
        ({ flow with
            ipv6Src := be128 p 0
            ipv6Dst := be128 p 16
            ipv6Label := be32 p 32
            nwProto := u8 p 36
            nwTos := u8 p 37
            nwTtl := u8 p 38
            nwFrag }, OvsKeyAttr.ipv6.code :: expected)
    | none => some (flow, OvsKeyAttr.ipv6.code :: expected)
  else if flow.dlType = ethPArp then
    match find attrs OvsKeyAttr.arp.code with
    | some p =>
      if be16 p 8 &&& 0xff00 ≠ 0 then none
      else
        some ({ flow with
            nwSrc := be32 p 0
            nwDst := be32 p 4
            nwProto := (be16 p 8).setWidth 8
            arpSha := be48 p 10
            arpTha := be48 p 16 }, OvsKeyAttr.arp.code :: expected)
    | none => some (flow, OvsKeyAttr.arp.code :: expected)
  else some (flow, expected)

def odpParsePorts (attr : OvsKeyAttr) (attrs : List Nlattr) (expected : List (BitVec 16))
    (flow : Flow) : Flow × List (BitVec 16) :=
  match find attrs attr.code with
  | some p => ({ flow with tpSrc := be16 p 0, tpDst := be16 p 2 }, attr.code :: expected)
  | none => (flow, attr.code :: expected)

def odpParseIcmp (attrs : List Nlattr) (expected : List (BitVec 16)) (flow : Flow) :
    Flow × List (BitVec 16) :=
  match find attrs OvsKeyAttr.icmp.code with
  | some p =>
    ({ flow with tpSrc := (u8 p 0).setWidth 16, tpDst := (u8 p 1).setWidth 16 },
      OvsKeyAttr.icmp.code :: expected)
  | none => (flow, OvsKeyAttr.icmp.code :: expected)

def odpParseIcmpv6 (attrs : List Nlattr) (expected : List (BitVec 16)) (flow : Flow) :
    Flow × List (BitVec 16) :=
  let expected := OvsKeyAttr.icmpv6.code :: expected
  match find attrs OvsKeyAttr.icmpv6.code with
  | some p =>
    let flow := { flow with tpSrc := (u8 p 0).setWidth 16, tpDst := (u8 p 1).setWidth 16 }
    if flow.tpSrc = 135 ∨ flow.tpSrc = 136 then
      match find attrs OvsKeyAttr.nd.code with
      | some nd =>
        ({ flow with ndTarget := be128 nd 0, arpSha := be48 nd 16, arpTha := be48 nd 22 },
          OvsKeyAttr.nd.code :: expected)
      | none => (flow, OvsKeyAttr.nd.code :: expected)
    else (flow, expected)
  | none => (flow, expected)

def Flow.HasTransport (flow : Flow) : Prop :=
  (flow.dlType = ethPIp ∨ flow.dlType = ethPIpv6) ∧ flow.nwFrag &&& flowNwFragLater = 0

instance (flow : Flow) : Decidable flow.HasTransport := inferInstanceAs (Decidable (_ ∧ _))

def odpParseTransport (attrs : List Nlattr) (expected : List (BitVec 16)) (flow : Flow) :
    Flow × List (BitVec 16) :=
  if flow.nwProto = ipprotoTcp ∧ flow.HasTransport then odpParsePorts .tcp attrs expected flow
  else if flow.nwProto = ipprotoUdp ∧ flow.HasTransport then odpParsePorts .udp attrs expected flow
  else if flow.nwProto = ipprotoIcmp ∧ flow.dlType = ethPIp ∧ flow.HasTransport then
    odpParseIcmp attrs expected flow
  else if flow.nwProto = ipprotoIcmpv6 ∧ flow.dlType = ethPIpv6 ∧ flow.HasTransport then
    odpParseIcmpv6 attrs expected flow
  else (flow, expected)

def parseL3Onward (attrs : List Nlattr) (outOfRange : Bool) (expected : List (BitVec 16))
    (flow : Flow) : OdpKeyFitness × Flow :=
  match odpParseNetwork attrs expected flow with
  | none => (.error, flow)
  | some (flow, expected) =>
    let (flow, expected) := odpParseTransport attrs expected flow
    (checkExpectations attrs outOfRange expected, flow)

def odpParseEncap (encap : List Byte) (flow : Flow) : OdpKeyFitness × Flow :=
  match odpParseFlowNlattrs encap with
  | none => (.error, flow)
  | some (attrs, outOfRange) =>
    match odpParseEthertype attrs [] with
    | none => (.error, flow)
    | some (dlType, expected) => parseL3Onward attrs outOfRange expected { flow with dlType }

def parse8021qOnward (attrs : List Nlattr) (outOfRange : Bool) (expected : List (BitVec 16))
    (flow : Flow) : Option (OdpKeyFitness × Flow) :=
  let encap := find attrs OvsKeyAttr.encap.code
  let expected := OvsKeyAttr.vlan.code :: OvsKeyAttr.encap.code :: expected
  let fitness := checkExpectations attrs outOfRange expected
  match find attrs OvsKeyAttr.vlan.code with
  | none => some (.tooLittle, flow)
  | some vlan =>
    let tci := be16 vlan 0
    if tci = 0 then
      if fitness = .perfect ∧ encap.any (fun payload => payload ≠ []) then some (.tooMuch, flow)
      else some (fitness, flow)
    else if tci &&& vlanCfi = 0 then some (.error, flow)
    else
      encap.map fun payload =>
        let (encapFitness, flow) := odpParseEncap payload { flow with vlanTci := tci, dlType := 0 }
        (fitness.max encapFitness, flow)

def odpParseMetadata (attrs : List Nlattr) : Option Flow :=
  let inPort := (find attrs OvsKeyAttr.inPort.code).map fun p => le32 p 0
  if inPort.any fun port => 65535 ≤ port.toNat ∨ ofppMax ≤ port.toNat then none
  else
    let eth := find attrs OvsKeyAttr.ethernet.code
    some {
      skbPriority := (find attrs OvsKeyAttr.priority.code).elim 0 fun p => le32 p 0
      tunId := (find attrs OvsKeyAttr.tunId.code).elim 0 fun p => be64 p 0
      inPort := inPort.elim ofppNone fun port => odpPortToOfpPort (port.setWidth 16)
      dlSrc := eth.elim 0 fun p => be48 p 0
      dlDst := eth.elim 0 fun p => be48 p 6 }

def metadataExpected (attrs : List Nlattr) : List (BitVec 16) :=
  OvsKeyAttr.ethernet.code ::
    ([OvsKeyAttr.priority, .tunId, .inPort].map OvsKeyAttr.code).filter
      fun type => (find attrs type).isSome

/-- Nothing when it reads an attribute that is not there.  The flow that comes with an error is not
filled in. -/
def odpFlowKeyToFlow (bytes : List Byte) : Option (OdpKeyFitness × Flow) :=
  match odpParseFlowNlattrs bytes with
  | none => some (.error, {})
  | some (attrs, outOfRange) =>
    match odpParseMetadata attrs with
    | none => some (.error, {})
    | some flow =>
      match odpParseEthertype attrs (metadataExpected attrs) with
      | none => some (.error, flow)
      | some (dlType, expected) =>
        if dlType = ethP8021Q then
          parse8021qOnward attrs outOfRange expected { flow with dlType }
        else some (parseL3Onward attrs outOfRange expected { flow with dlType })

end Packet
end LazyCtrl
