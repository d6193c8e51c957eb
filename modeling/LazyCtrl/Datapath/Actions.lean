import LazyCtrl.Datapath.Remote

/-!
# Execution of datapath actions

`do_execute_actions` of `datapath/actions.c` with the functions it calls, and the validation of
action lists in `datapath/datapath.c`, for the actions `OUTPUT`, `REMOTE`, `PUSH_VLAN`, `POP_VLAN`
and `SET`.  An output is deferred to the next action, and `REMOTE` encapsulates the packet in place.
`execute` is the plain meaning of an action list, in which an output sends a copy.
-/

namespace LazyCtrl

open Bytes

structure OvsKeyIpv4 where
  src : BitVec 32
  dst : BitVec 32
  proto : Byte
  tos : Byte
  ttl : Byte
  frag : Byte
  deriving DecidableEq, Repr

inductive SetKey where
  | priority (value : BitVec 32)
  | tunId (value : BitVec 64)
  | ethernet (src dst : Fin 6 → Byte)
  | ipv4 (key : OvsKeyIpv4)
  | tcp (src dst : BitVec 16)
  | udp (src dst : BitVec 16)
  deriving DecidableEq

inductive DpAction where
  | output (port : BitVec 32)
  | remote (payload : BitVec 64)
  | pushVlan (tpid tci : BitVec 16)
  | popVlan
  | set (key : SetKey)
  deriving DecidableEq

def setEthAddr (skb : Skb) (src dst : Fin 6 → Byte) : Option Skb := do
  let eth ← skb.header skb.macHeader ethHlen
  let data := patch skb.data (eth + 6) (List.ofFn src)
  some { skb with data := patch data eth (List.ofFn dst) }

def setIpAddrTransport (summed : CsumType) (data : List Byte) (nh th : Nat)
    (old new : BitVec 32) : List Byte :=
  let transportLen := data.length - th
  if u8 data (nh + 9) = ipprotoTcp then
    if 20 ≤ transportLen then
      patch data (th + 16)
        (put16 (inetProtoCsumReplace4 summed (be16 data (th + 16)) old new true))
    else data
  else if u8 data (nh + 9) = ipprotoUdp then
    if 8 ≤ transportLen then
      if be16 data (th + 6) ≠ 0 ∨ summed = .csumPartial then
        let check := inetProtoCsumReplace4 summed (be16 data (th + 6)) old new true
        patch data (th + 6) (put16 (if check = 0 then 0xffff else check))
      else data
    else data
  else data

def setIpAddr (summed : CsumType) (data : List Byte) (nh th addr : Nat) (new : BitVec 32) :
    List Byte :=
  let old := be32 data addr
  let data := setIpAddrTransport summed data nh th old new
  let data := patch data (nh + 10) (put16 (csumReplace4 (be16 data (nh + 10)) old new))
  patch data addr (put32 new)

def ipv4ChangeDsfield (data : List Byte) (nh : Nat) (dsfield : Byte) : List Byte :=
  let check := (be16 data (nh + 10)).setWidth 32 + (u8 data (nh + 1)).setWidth 32
  let check := if (check + 1) >>> 16 ≠ 0 then (check + 1) &&& 0xffff else check
  let check := check - dsfield.setWidth 32
  let check := check + (check >>> 16)
  let data := patch data (nh + 10) (put16 (check.setWidth 16))
  patch data (nh + 1) [dsfield]

def setIpTtl (data : List Byte) (nh : Nat) (ttl : Byte) : List Byte :=
  let old : BitVec 16 := u8 data (nh + 8) ++ (0 : Byte)
  let data := patch data (nh + 10) (put16 (csumReplace2 (be16 data (nh + 10)) old (ttl ++ (0 : Byte))))
  patch data (nh + 8) [ttl]

def setIpv4 (skb : Skb) (key : OvsKeyIpv4) : Option Skb := do
  let nh ← skb.header skb.networkHeader 20
  let th ← skb.header skb.transportHeader 0
  let data := skb.data
  let data := if key.src ≠ be32 data (nh + 12) then
    setIpAddr skb.ipSummed data nh th (nh + 12) key.src else data
  let data := if key.dst ≠ be32 data (nh + 16) then
    setIpAddr skb.ipSummed data nh th (nh + 16) key.dst else data
  let data := if key.tos ≠ u8 data (nh + 1) then ipv4ChangeDsfield data nh key.tos else data
  let data := if key.ttl ≠ u8 data (nh + 8) then setIpTtl data nh key.ttl else data
  some { skb with data }

def setTpPort (summed : CsumType) (data : List Byte) (port check : Nat) (new : BitVec 16) :
    List Byte :=
  let sum := inetProtoCsumReplace2 summed (be16 data check) (be16 data port) new false
  patch (patch data check (put16 sum)) port (put16 new)

def setUdpPort (summed : CsumType) (data : List Byte) (uh port : Nat) (new : BitVec 16) :
    List Byte :=
  if be16 data (uh + 6) ≠ 0 ∧ summed ≠ .csumPartial then
    let data := setTpPort summed data port (uh + 6) new
    if be16 data (uh + 6) = 0 then patch data (uh + 6) (put16 0xffff) else data
  else patch data port (put16 new)

def setUdp (skb : Skb) (src dst : BitVec 16) : Option Skb := do
  let uh ← skb.header skb.transportHeader 8
  let data := skb.data
  let data := if src ≠ be16 data uh then setUdpPort skb.ipSummed data uh uh src else data
  let data := if dst ≠ be16 data (uh + 2) then setUdpPort skb.ipSummed data uh (uh + 2) dst else data
  some { skb with data }

def setTcp (skb : Skb) (src dst : BitVec 16) : Option Skb := do
  let th ← skb.header skb.transportHeader 20
  let data := skb.data
  let data := if src ≠ be16 data th then setTpPort skb.ipSummed data th (th + 16) src else data
  let data := if dst ≠ be16 data (th + 2) then setTpPort skb.ipSummed data (th + 2) (th + 16) dst
    else data
  some { skb with data }

def executeSetAction (skb : Skb) : SetKey → Option Skb
  | .priority value => some { skb with priority := value }
  | .tunId value => some { skb with tunId := value }
  | .ethernet src dst => setEthAddr skb src dst
  | .ipv4 key => setIpv4 skb key
  | .tcp src dst => setTcp skb src dst
  | .udp src dst => setUdp skb src dst

def dpMaxPorts : Nat := 65535

structure SwFlowKey where
  ethType : BitVec 16
  ipProto : Byte
  ipFrag : Byte
  tpSrc : BitVec 16
  tpDst : BitVec 16
  deriving DecidableEq, Repr

def validateTpPort (key : SwFlowKey) : Bool :=
  (key.ethType = ethPIp ∨ key.ethType = ethPIpv6) ∧ (key.tpSrc ≠ 0 ∨ key.tpDst ≠ 0)

def validateSet (key : SwFlowKey) : SetKey → Bool
  | .priority _ | .tunId _ | .ethernet _ _ => true
  | .ipv4 ipv4 => key.ethType = ethPIp ∧ key.ipProto ≠ 0 ∧ ipv4.proto = key.ipProto ∧
      ipv4.frag = key.ipFrag
  | .tcp _ _ => key.ipProto = ipprotoTcp ∧ validateTpPort key
  | .udp _ _ => key.ipProto = ipprotoUdp ∧ validateTpPort key

def remotePort (payload : BitVec 64) : BitVec 32 := payload.extractLsb' 32 32

def remoteIp (payload : BitVec 64) : BitVec 32 := payload.extractLsb' 0 32

def validateAction (key : SwFlowKey) : DpAction → Bool
  | .output port => port.toNat < dpMaxPorts
  | .remote payload => (remotePort payload).toNat < dpMaxPorts
  | .pushVlan tpid tci => tpid = ethP8021Q ∧ tci &&& vlanTagPresent ≠ 0
  | .popVlan => true
  | .set setKey => validateSet key setKey

def validateActions (key : SwFlowKey) (actions : List DpAction) : Bool :=
  actions.all (validateAction key)

structure Frame where
  data : List Byte
  vlanTci : BitVec 16
  deriving DecidableEq, Repr

def Skb.frame (skb : Skb) : Frame := { data := skb.data, vlanTci := skb.vlanTci }

section Execution

variable (dp : Datapath) (hasVport : BitVec 16 → Bool)

def doOutput (skb : Skb) (outPort : BitVec 32) : List (BitVec 16 × Frame) :=
  if hasVport (outPort.setWidth 16) then [(outPort.setWidth 16, skb.frame)] else []

def flushOutput (skb : Skb) (prevPort : BitVec 32) : List (BitVec 16 × Frame) :=
  if prevPort ≠ -1 then doOutput hasVport skb prevPort else []

def executeAction (skb : Skb) : DpAction → Option (Skb × BitVec 32)
  | .output port => some (skb, port)
  | .remote payload => some (encapulate dp skb (remoteIp payload), remotePort payload)
  | .pushVlan _ tci => some (pushVlan skb tci, -1)
  | .popVlan => some (popVlan skb, -1)
  | .set key => (executeSetAction skb key).map fun skb => (skb, -1)

def executeLoop : Skb → BitVec 32 → List DpAction → Option (List (BitVec 16 × Frame))
  | skb, prevPort, [] => some (flushOutput hasVport skb prevPort)
  | skb, prevPort, action :: actions => do
      let (next, port) ← executeAction dp skb action
      let sent ← executeLoop next port actions
      some (flushOutput hasVport skb prevPort ++ sent)

def doExecuteActions (skb : Skb) (actions : List DpAction) : Option (List (BitVec 16 × Frame)) :=
  executeLoop dp hasVport skb (-1) actions

def alter (skb : Skb) : DpAction → Option Skb
  | .output _ => some skb
  | .remote _ => some skb
  | .pushVlan _ tci => some (pushVlan skb tci)
  | .popVlan => some (popVlan skb)
  | .set key => executeSetAction skb key

def emits (skb : Skb) : DpAction → List (BitVec 16 × Frame)
  | .output port => doOutput hasVport skb port
  | .remote payload =>
    doOutput hasVport (encapulate dp skb (remoteIp payload)) (remotePort payload)
  | _ => []

def execute : Skb → List DpAction → Option (List (BitVec 16 × Frame))
  | _, [] => some []
  | skb, action :: actions => do
      let next ← alter skb action
      let sent ← execute next actions
      some (emits dp hasVport skb action ++ sent)

end Execution

end LazyCtrl
