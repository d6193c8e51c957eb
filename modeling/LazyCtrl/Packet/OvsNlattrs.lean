import LazyCtrl.Lib.Netlink
import LazyCtrl.Packet.OvsExtract

/-!
# Flow keys as netlink attributes

`ovs_flow_to_nlattrs` and `ovs_flow_from_nlattrs` of `datapath/flow.c`.  The message has room for
all attributes.
-/

namespace LazyCtrl
namespace Packet

open Bytes Netlink

inductive OvsKeyAttr where
  | encap
  | priority
  | inPort
  | ethernet
  | vlan
  | ethertype
  | ipv4
  | ipv6
  | tcp
  | udp
  | icmp
  | icmpv6
  | arp
  | nd
  | tunId
  deriving DecidableEq, Repr

namespace OvsKeyAttr

def code : OvsKeyAttr → BitVec 16
  | .encap => 1
  | .priority => 2
  | .inPort => 3
  | .ethernet => 4
  | .vlan => 5
  | .ethertype => 6
  | .ipv4 => 7
  | .ipv6 => 8
  | .tcp => 9
  | .udp => 10
  | .icmp => 11
  | .icmpv6 => 12
  | .arp => 13
  | .nd => 14
  | .tunId => 63

def all : List OvsKeyAttr :=
  [.encap, .priority, .inPort, .ethernet, .vlan, .ethertype, .ipv4, .ipv6, .tcp, .udp, .icmp,
    .icmpv6, .arp, .nd, .tunId]

def size : OvsKeyAttr → Option Nat
  | .encap => none
  | .priority => some 4
  | .inPort => some 4
  | .ethernet => some 12
  | .vlan => some 2
  | .ethertype => some 2
  | .ipv4 => some 12
  | .ipv6 => some 40
  | .tcp => some 4
  | .udp => some 4
  | .icmp => some 2
  | .icmpv6 => some 2
  | .arp => some 24
  | .nd => some 28
  | .tunId => some 8

def ofCode (type : BitVec 16) : Option OvsKeyAttr := all.find? fun attr => attr.code = type

def nla (attr : OvsKeyAttr) (payload : List Byte) : Nlattr := ⟨attr.code, payload⟩

theorem ofCode_code (attr : OvsKeyAttr) : ofCode attr.code = some attr := by
  cases attr <;> rfl

theorem code_le (attr : OvsKeyAttr) : attr.code.toNat ≤ 63 := by
  cases attr <;> decide

@[simp]
theorem code_inj {attr other : OvsKeyAttr} : attr.code = other.code ↔ attr = other := by
  refine ⟨fun same => ?_, congrArg code⟩
  have found := ofCode_code attr
  rw [same, ofCode_code] at found
  exact (Option.some.inj found).symm

end OvsKeyAttr

def metadataToNlattrs (key : SwFlowKey) : List Nlattr :=
  (if key.priority ≠ 0 then [OvsKeyAttr.priority.nla (putLe32 key.priority)] else []) ++
    (if key.tunId ≠ 0 then [OvsKeyAttr.tunId.nla (put64 key.tunId)] else []) ++
    (if key.inPort ≠ 65535 then [OvsKeyAttr.inPort.nla (putLe32 (key.inPort.setWidth 32))] else [])

def ipv4Payload (ip : KeyIp) (ipv4 : KeyIpv4) : List Byte :=
  put32 ipv4.src ++ (put32 ipv4.dst ++ [ip.proto, ip.tos, ip.ttl, ip.frag])

def ipv6Payload (ip : KeyIp) (ipv6 : KeyIpv6) : List Byte :=
  put128 ipv6.src ++ (put128 ipv6.dst ++ (put32 ipv6.label ++ [ip.proto, ip.tos, ip.ttl, ip.frag]))

def arpPayload (ip : KeyIp) (ipv4 : KeyIpv4) : List Byte :=
  put32 ipv4.src ++ (put32 ipv4.dst ++ (put16 (ip.proto.setWidth 16) ++
    (put48 ipv4.arpSha ++ (put48 ipv4.arpTha ++ [0, 0]))))

def portsPayload (src dst : BitVec 16) : List Byte := put16 src ++ put16 dst

def icmpPayload (src dst : BitVec 16) : List Byte := [src.setWidth 8, dst.setWidth 8]

def ndPayload (ipv6 : KeyIpv6) : List Byte :=
  put128 ipv6.ndTarget ++ (put48 ipv6.ndSll ++ put48 ipv6.ndTll)

def ipv4TpToNlattrs (proto : Byte) (ipv4 : KeyIpv4) : List Nlattr :=
  if proto = ipprotoTcp then [OvsKeyAttr.tcp.nla (portsPayload ipv4.tpSrc ipv4.tpDst)]
  else if proto = ipprotoUdp then [OvsKeyAttr.udp.nla (portsPayload ipv4.tpSrc ipv4.tpDst)]
  else if proto = ipprotoIcmp then [OvsKeyAttr.icmp.nla (icmpPayload ipv4.tpSrc ipv4.tpDst)]
  else []

def ipv6TpToNlattrs (proto : Byte) (ipv6 : KeyIpv6) : List Nlattr :=
  if proto = ipprotoTcp then [OvsKeyAttr.tcp.nla (portsPayload ipv6.tpSrc ipv6.tpDst)]
  else if proto = ipprotoUdp then [OvsKeyAttr.udp.nla (portsPayload ipv6.tpSrc ipv6.tpDst)]
  else if proto = ipprotoIcmpv6 then
    OvsKeyAttr.icmpv6.nla (icmpPayload ipv6.tpSrc ipv6.tpDst) ::
      if isNeighbour (ipv6.tpSrc.setWidth 8) then [OvsKeyAttr.nd.nla (ndPayload ipv6)] else []
  else []

def l3ToNlattrs (key : SwFlowKey) : List Nlattr :=
  if key.type = ethPIp then
    OvsKeyAttr.ipv4.nla (ipv4Payload key.ip key.ipv4) ::
      if key.ip.frag ≠ ovsFragTypeLater then ipv4TpToNlattrs key.ip.proto key.ipv4 else []
  else if key.type = ethPIpv6 then
    OvsKeyAttr.ipv6.nla (ipv6Payload key.ip key.ipv6) ::
      if key.ip.frag ≠ ovsFragTypeLater then ipv6TpToNlattrs key.ip.proto key.ipv6 else []
  else if key.type = ethPArp then [OvsKeyAttr.arp.nla (arpPayload key.ip key.ipv4)]
  else []

def typeToNlattrs (key : SwFlowKey) : List Nlattr :=
  if key.type = ethP8022 then []
  else OvsKeyAttr.ethertype.nla (put16 key.type) :: l3ToNlattrs key

def encapToNlattrs (key : SwFlowKey) : List Nlattr :=
  if key.tci ≠ 0 ∨ key.type = ethP8021Q then
    [OvsKeyAttr.ethertype.nla (put16 ethP8021Q), OvsKeyAttr.vlan.nla (put16 key.tci),
      OvsKeyAttr.encap.nla (if key.tci = 0 then [] else putAttrs (typeToNlattrs key))]
  else typeToNlattrs key

def keyNlattrs (key : SwFlowKey) : List Nlattr :=
  metadataToNlattrs key ++
    OvsKeyAttr.ethernet.nla (put48 key.ethSrc ++ put48 key.ethDst) :: encapToNlattrs key

def ovsFlowToNlattrs (key : SwFlowKey) : List Byte := putAttrs (keyNlattrs key)

def ovsKeyLens (type : BitVec 16) : Option Nat :=
  match OvsKeyAttr.ofCode type with
  | some attr => attr.size
  | none => some 0

/-- The loop of `parse_flow_nlattrs`, with the types it has seen; it stops at an attribute that is
out of range, comes twice or has the wrong size. -/
def flowNlattrsOk : List (BitVec 16) → List Nlattr → Bool
  | _, [] => true
  | seen, attr :: attrs =>
    attr.type.toNat ≤ 63 && !seen.contains attr.type &&
      (ovsKeyLens attr.type).all (fun size => attr.payload.length = size) &&
      flowNlattrsOk (attr.type :: seen) attrs

def parseFlowNlattrs (bytes : List Byte) : Option (List Nlattr) :=
  let (attrs, rem) := nlaForEach bytes
  if flowNlattrsOk [] attrs ∧ ¬ rem then some attrs else none

def require (attrs : List Nlattr) (attr : OvsKeyAttr) : Option (List Byte × List Nlattr) :=
  (find attrs attr.code).map fun payload => (payload, without attrs attr.code)

def ipv4FlowFromNlattrs (proto : Byte) (ipv4 : KeyIpv4) (attrs : List Nlattr) :
    Option (KeyIpv4 × KeyMember × List Nlattr) :=
  if proto = ipprotoTcp then
    (require attrs .tcp).map fun (tcp, attrs) =>
      ({ ipv4 with tpSrc := be16 tcp 0, tpDst := be16 tcp 2 }, .ipv4Tp, attrs)
  else if proto = ipprotoUdp then
    (require attrs .udp).map fun (udp, attrs) =>
      ({ ipv4 with tpSrc := be16 udp 0, tpDst := be16 udp 2 }, .ipv4Tp, attrs)
  else if proto = ipprotoIcmp then
    (require attrs .icmp).map fun (icmp, attrs) =>
      ({ ipv4 with tpSrc := (u8 icmp 0).setWidth 16, tpDst := (u8 icmp 1).setWidth 16 }, .ipv4Tp,
        attrs)
  else some (ipv4, .ipv4Addr, attrs)

def ipv6FlowFromNlattrs (proto : Byte) (ipv6 : KeyIpv6) (attrs : List Nlattr) :
    Option (KeyIpv6 × KeyMember × List Nlattr) :=
  if proto = ipprotoTcp then
    (require attrs .tcp).map fun (tcp, attrs) =>
      ({ ipv6 with tpSrc := be16 tcp 0, tpDst := be16 tcp 2 }, .ipv6Tp, attrs)
  else if proto = ipprotoUdp then
    (require attrs .udp).map fun (udp, attrs) =>
      ({ ipv6 with tpSrc := be16 udp 0, tpDst := be16 udp 2 }, .ipv6Tp, attrs)
  else if proto = ipprotoIcmpv6 then
    (require attrs .icmpv6).bind fun (icmpv6, attrs) =>
      let ipv6 :=
        { ipv6 with tpSrc := (u8 icmpv6 0).setWidth 16, tpDst := (u8 icmpv6 1).setWidth 16 }
      if isNeighbour (u8 icmpv6 0) then
        (require attrs .nd).map fun (nd, attrs) =>
          ({ ipv6 with ndTarget := be128 nd 0, ndSll := be48 nd 16, ndTll := be48 nd 22 }, .ipv6Nd,
            attrs)
      else some (ipv6, .ipv6Tp, attrs)
  else some (ipv6, .ipv6Label, attrs)

def ipv4FromNlattrs (key : SwFlowKey) (attrs : List Nlattr) :
    Option (SwFlowKey × KeyMember × List Nlattr) :=
  (require attrs .ipv4).bind fun (p, attrs) =>
    if (u8 p 11).toNat > ovsFragTypeLater.toNat then none
    else
      let ip : KeyIp := { proto := u8 p 8, tos := u8 p 9, ttl := u8 p 10, frag := u8 p 11 }
      let ipv4 := { key.ipv4 with src := be32 p 0, dst := be32 p 4 }
      if ip.frag ≠ ovsFragTypeLater then
        (ipv4FlowFromNlattrs ip.proto ipv4 attrs).map fun (ipv4, len, attrs) =>
          ({ key with ip, ipv4 }, len, attrs)
      else some ({ key with ip, ipv4 }, .ipv4Addr, attrs)

def ipv6FromNlattrs (key : SwFlowKey) (attrs : List Nlattr) :
    Option (SwFlowKey × KeyMember × List Nlattr) :=
  (require attrs .ipv6).bind fun (p, attrs) =>
    if (u8 p 39).toNat > ovsFragTypeLater.toNat then none
    else
      let ip : KeyIp := { proto := u8 p 36, tos := u8 p 37, ttl := u8 p 38, frag := u8 p 39 }
      let ipv6 := { key.ipv6 with src := be128 p 0, dst := be128 p 16, label := be32 p 32 }
      if ip.frag ≠ ovsFragTypeLater then
        (ipv6FlowFromNlattrs ip.proto ipv6 attrs).map fun (ipv6, len, attrs) =>
          ({ key with ip, ipv6 }, len, attrs)
      else some ({ key with ip, ipv6 }, .ipv6Label, attrs)

def arpFromNlattrs (key : SwFlowKey) (attrs : List Nlattr) :
    Option (SwFlowKey × KeyMember × List Nlattr) :=
  (require attrs .arp).bind fun (p, attrs) =>
    if be16 p 8 &&& 0xff00 ≠ 0 then none
    else
      some ({ key with
          ip := { key.ip with proto := (be16 p 8).setWidth 8 }
          ipv4 := { key.ipv4 with
            src := be32 p 0
            dst := be32 p 4
            arpSha := be48 p 10
            arpTha := be48 p 16 } }, .ipv4Arp, attrs)

def l3FromNlattrs (key : SwFlowKey) (attrs : List Nlattr) :
    Option (SwFlowKey × KeyMember × List Nlattr) :=
  if key.type = ethPIp then ipv4FromNlattrs key attrs
  else if key.type = ethPIpv6 then ipv6FromNlattrs key attrs
  else if key.type = ethPArp then arpFromNlattrs key attrs
  else some (key, .eth, attrs)

def ethertypeFromNlattrs (attrs : List Nlattr) : Option (BitVec 16 × List Nlattr) :=
  match find attrs OvsKeyAttr.ethertype.code with
  | some p =>
    if (be16 p 0).toNat < 1536 then none
    else some (be16 p 0, without attrs OvsKeyAttr.ethertype.code)
  | none => some (ethP8022, attrs)

def typeFromNlattrs (key : SwFlowKey) (attrs : List Nlattr) : Option (SwFlowKey × KeyMember) := do
  let (type, attrs) ← ethertypeFromNlattrs attrs
  let (key, len, attrs) ← l3FromNlattrs { key with type } attrs
  if attrs ≠ [] then none else some (key, len)

def encapFromNlattrs (key : SwFlowKey) (attrs : List Nlattr) : Option (SwFlowKey × KeyMember) :=
  match find attrs OvsKeyAttr.ethertype.code with
  | some p =>
    if be16 p 0 = ethP8021Q then
      if ¬ hasTypes attrs
          [OvsKeyAttr.vlan.code, OvsKeyAttr.ethertype.code, OvsKeyAttr.encap.code] then none
      else do
        let encap ← find attrs OvsKeyAttr.encap.code
        let vlan ← find attrs OvsKeyAttr.vlan.code
        let tci := be16 vlan 0
        if tci &&& vlanTagPresent ≠ 0 then
          let attrs ← parseFlowNlattrs encap
          typeFromNlattrs { key with tci } attrs
        else if tci = 0 then
          if encap ≠ [] then none else some ({ key with type := ethP8021Q }, .eth)
        else none
    else typeFromNlattrs key attrs
  | none => typeFromNlattrs key attrs

def metadataFromNlattrs (attrs : List Nlattr) : Option (SwFlowKey × List Nlattr) :=
  let priority := (find attrs OvsKeyAttr.priority.code).elim 0 fun p => le32 p 0
  let attrs := without attrs OvsKeyAttr.priority.code
  let inPort := (find attrs OvsKeyAttr.inPort.code).elim 65535 fun p => le32 p 0
  let attrs' := without attrs OvsKeyAttr.inPort.code
  if (find attrs OvsKeyAttr.inPort.code).isSome ∧ inPort.toNat ≥ 65535 then none
  else
    let tunId := (find attrs' OvsKeyAttr.tunId.code).elim 0 fun p => be64 p 0
    some ({ priority, inPort := inPort.setWidth 16, tunId },
      without attrs' OvsKeyAttr.tunId.code)

def ovsFlowFromNlattrs (bytes : List Byte) : Option (SwFlowKey × KeyMember) := do
  let attrs ← parseFlowNlattrs bytes
  let (key, attrs) ← metadataFromNlattrs attrs
  let (eth, attrs) ← require attrs .ethernet
  encapFromNlattrs { key with ethSrc := be48 eth 0, ethDst := be48 eth 6 } attrs

end Packet
end LazyCtrl
