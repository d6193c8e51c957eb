import LazyCtrl.Lib.Reading
import LazyCtrl.Lib.Record

/-!
# The controller's OpenFlow classes

`OFMatch`, the actions and the messages of the controller's OpenFlow library, with their `readFrom`
and `writeTo`.  A `ChannelBuffer` has a reader index and one mark.  An array that may be null is an
`Option`; an array that `writeTo` takes to be there is a list.
-/

namespace LazyCtrl.Controller

open Bytes Reading

inductive JavaException where
  | indexOutOfBounds
  | arrayIndexOutOfBounds
  | negativeArraySize
  | nullPointer
  | illegalState
  | messageParse (cause : JavaException)
  deriving DecidableEq, Repr

abbrev Parser := Reader JavaException (BitVec 8)

def readBytes (n : Nat) : Parser (List (BitVec 8)) := read .indexOutOfBounds n

def readByte : Parser (BitVec 8) := do
  let bytes ← readBytes 1
  return u8 bytes 0

def readShort : Parser (BitVec 16) := do
  let bytes ← readBytes 2
  return be16 bytes 0

def readInt : Parser (BitVec 32) := do
  let bytes ← readBytes 4
  return be32 bytes 0

def readLong : Parser (BitVec 64) := do
  let bytes ← readBytes 8
  return be64 bytes 0

def readNewBytes (length : Int) : Parser (List (BitVec 8)) :=
  if length < 0 then throw .negativeArraySize else readBytes length.toNat

def elementAt {α : Type} (array : List α) (i : Int) : Parser α :=
  if i < 0 then throw .arrayIndexOutOfBounds
  else
    match array[i.toNat]? with
    | some element => pure element
    | none => throw .arrayIndexOutOfBounds

structure OFMatch where
  wildcards : BitVec 32
  inputPort : BitVec 16
  dataLayerSource : List (BitVec 8)
  dataLayerDestination : List (BitVec 8)
  dataLayerVirtualLan : BitVec 16
  dataLayerVirtualLanPriorityCodePoint : BitVec 8
  dataLayerType : BitVec 16
  networkTypeOfService : BitVec 8
  networkProtocol : BitVec 8
  networkSource : BitVec 32
  networkDestination : BitVec 32
  transportSource : BitVec 16
  transportDestination : BitVec 16
  deriving DecidableEq, Repr

def OFMatch.readFrom : Parser OFMatch := do
  let wildcards ← readInt
  let inputPort ← readShort
  let dataLayerSource ← readBytes 6
  let dataLayerDestination ← readBytes 6
  let dataLayerVirtualLan ← readShort
  let dataLayerVirtualLanPriorityCodePoint ← readByte
  let _ ← readByte
  let dataLayerType ← readShort
  let networkTypeOfService ← readByte
  let networkProtocol ← readByte
  let _ ← readByte
  let _ ← readByte
  let networkSource ← readInt
  let networkDestination ← readInt
  let transportSource ← readShort
  let transportDestination ← readShort
  return {
    wildcards, inputPort, dataLayerSource, dataLayerDestination, dataLayerVirtualLan
    dataLayerVirtualLanPriorityCodePoint, dataLayerType, networkTypeOfService, networkProtocol
    networkSource, networkDestination, transportSource, transportDestination }

def OFMatch.writeTo (ofMatch : OFMatch) : List (BitVec 8) :=
  put32 ofMatch.wildcards ++ (put16 ofMatch.inputPort ++ (ofMatch.dataLayerSource ++
    (ofMatch.dataLayerDestination ++ (put16 ofMatch.dataLayerVirtualLan ++
      ([ofMatch.dataLayerVirtualLanPriorityCodePoint] ++ ([0] ++ (put16 ofMatch.dataLayerType ++
        ([ofMatch.networkTypeOfService] ++ ([ofMatch.networkProtocol] ++ ([0] ++ ([0] ++
          (put32 ofMatch.networkSource ++ (put32 ofMatch.networkDestination ++
            (put16 ofMatch.transportSource ++ put16 ofMatch.transportDestination))))))))))))))

def OFMatch.HasAddresses (ofMatch : OFMatch) : Prop :=
  ofMatch.dataLayerSource.length = 6 ∧ ofMatch.dataLayerDestination.length = 6

instance : DecidablePred OFMatch.HasAddresses := fun _ => inferInstanceAs (Decidable (_ ∧ _))

inductive OFActionType where
  | output
  | setVlanId
  | setVlanPcp
  | stripVlan
  | setDlSrc
  | setDlDst
  | setNwSrc
  | setNwDst
  | setNwTos
  | setTpSrc
  | setTpDst
  | opaqueEnqueue
  | remote
  | vendor
  deriving DecidableEq, Repr

namespace OFActionType

def getTypeValue : OFActionType → BitVec 16
  | output => 0
  | setVlanId => 1
  | setVlanPcp => 2
  | stripVlan => 3
  | setDlSrc => 4
  | setDlDst => 5
  | setNwSrc => 6
  | setNwDst => 7
  | setNwTos => 8
  | setTpSrc => 9
  | setTpDst => 10
  | opaqueEnqueue => 11
  | remote => 12
  | vendor => 0xffff

def mapping : List (Option OFActionType) :=
  [some output, some setVlanId, some setVlanPcp, some stripVlan, some setDlSrc, some setDlDst,
    some setNwSrc, some setNwDst, some setNwTos, some setTpSrc, some setTpDst, some opaqueEnqueue,
    some remote, none, none, some vendor]

def valueOf (i : BitVec 16) : Parser (Option OFActionType) :=
  elementAt mapping (if i.toInt < 0 then 16 + i.toInt else i.toInt)

end OFActionType

inductive OFActionArgs where
  | output (port maxLength : BitVec 16)
  | setVlanId (virtualLanIdentifier : BitVec 16)
  | setVlanPcp (virtualLanPriorityCodePoint : BitVec 8)
  | stripVlan
  | setDlSrc (dataLayerAddress : List (BitVec 8))
  | setDlDst (dataLayerAddress : List (BitVec 8))
  | setNwSrc (networkAddress : BitVec 32)
  | setNwDst (networkAddress : BitVec 32)
  | setNwTos (networkTypeOfService : BitVec 8)
  | setTpSrc (transportPort : BitVec 16)
  | setTpDst (transportPort : BitVec 16)
  | opaqueEnqueue (port : BitVec 16) (queueId : BitVec 32)
  | remote (port : BitVec 16) (ip : BitVec 32)
  | vendor (vendor : BitVec 32)
  deriving DecidableEq, Repr

structure OFAction where
  length : BitVec 16
  args : OFActionArgs
  deriving DecidableEq, Repr

def OFActionArgs.getType : OFActionArgs → OFActionType
  | output .. => .output
  | setVlanId .. => .setVlanId
  | setVlanPcp .. => .setVlanPcp
  | stripVlan => .stripVlan
  | setDlSrc .. => .setDlSrc
  | setDlDst .. => .setDlDst
  | setNwSrc .. => .setNwSrc
  | setNwDst .. => .setNwDst
  | setNwTos .. => .setNwTos
  | setTpSrc .. => .setTpSrc
  | setTpDst .. => .setTpDst
  | opaqueEnqueue .. => .opaqueEnqueue
  | remote .. => .remote
  | vendor .. => .vendor

def readActionHeader : Parser (Option OFActionType × BitVec 16) := do
  let type ← readShort
  let type ← OFActionType.valueOf type
  let length ← readShort
  return (type, length)

def OFActionArgs.readFrom : OFActionType → Parser OFActionArgs
  | .output => do
      let port ← readShort
      let maxLength ← readShort
      return .output port maxLength
  | .setVlanId => do
      let virtualLanIdentifier ← readShort
      let _ ← readShort
      return .setVlanId virtualLanIdentifier
  | .setVlanPcp => do
      let virtualLanPriorityCodePoint ← readByte
      let _ ← readShort
      let _ ← readByte
      return .setVlanPcp virtualLanPriorityCodePoint
  | .stripVlan => do
      let _ ← readInt
      return .stripVlan
  | .setDlSrc => return .setDlSrc (← dataLayer)
  | .setDlDst => return .setDlDst (← dataLayer)
  | .setNwSrc => return .setNwSrc (← readInt)
  | .setNwDst => return .setNwDst (← readInt)
  | .setNwTos => do
      let networkTypeOfService ← readByte
      let _ ← readShort
      let _ ← readByte
      return .setNwTos networkTypeOfService
  | .setTpSrc => return .setTpSrc (← transportLayer)
  | .setTpDst => return .setTpDst (← transportLayer)
  | .opaqueEnqueue => do
      let port ← readShort
      let _ ← readShort
      let _ ← readInt
      let queueId ← readInt
      return .opaqueEnqueue port queueId
  | .remote => do
      let port ← readShort
      let _ ← readShort
      let _ ← readInt
      let ip ← readInt
      return .remote port ip
  | .vendor => return .vendor (← readInt)
where
  dataLayer : Parser (List (BitVec 8)) := do
    let dataLayerAddress ← readBytes 6
    let _ ← readInt
    let _ ← readShort
    return dataLayerAddress
  transportLayer : Parser (BitVec 16) := do
    let transportPort ← readShort
    let _ ← readShort
    return transportPort

def OFActionArgs.writeTo : OFActionArgs → List (BitVec 8)
  | output port maxLength => put16 port ++ put16 maxLength
  | setVlanId virtualLanIdentifier => put16 virtualLanIdentifier ++ put16 0
  | setVlanPcp virtualLanPriorityCodePoint => [virtualLanPriorityCodePoint] ++ (put16 0 ++ [0])
  | stripVlan => put32 0
  | setDlSrc dataLayerAddress | setDlDst dataLayerAddress =>
    dataLayerAddress ++ (put32 0 ++ put16 0)
  | setNwSrc networkAddress | setNwDst networkAddress => put32 networkAddress
  | setNwTos networkTypeOfService => [networkTypeOfService] ++ (put16 0 ++ [0])
  | setTpSrc transportPort | setTpDst transportPort => put16 transportPort ++ put16 0
  | opaqueEnqueue port queueId => put16 port ++ (put16 0 ++ (put32 0 ++ put32 queueId))
  | remote port ip => put16 port ++ (put16 0 ++ (put32 0 ++ put32 ip))
  | .vendor id => put32 id

def OFAction.readFrom (type : OFActionType) : Parser OFAction := do
  let header ← readActionHeader
  let args ← OFActionArgs.readFrom type
  return ⟨header.2, args⟩

def OFAction.writeTo (action : OFAction) : List (BitVec 8) :=
  put16 action.args.getType.getTypeValue ++ (put16 action.length ++ action.args.writeTo)

def writeActions (actions : List OFAction) : List (BitVec 8) := actions.flatMap OFAction.writeTo

/-- `BasicFactory.parseActions`, from a position inside the loop on.  The first argument bounds the
number of turns, each of which reads at least four bytes. -/
def parseActionsLoop (limit stop : Nat) : Nat → Nat → Parser (List OFAction)
  | 0, _ => return []
  | turns + 1, size => do
      if ¬ (limit = 0 ∨ size ≤ limit) then return []
      else if (← readable) < 4 ∨ stop < (← index) + 4 then return []
      else
        setMark
        let demux ← readActionHeader
        reset
        if (← readable) < demux.2.toNat ∨ stop < (← index) + demux.2.toNat then return []
        else
          match demux.1 with
          | none => throw .nullPointer
          | some type =>
            let action ← OFAction.readFrom type
            let actions ← parseActionsLoop limit stop turns (size + 1)
            return action :: actions

def parseActions (length : Int) (limit : Nat) : Parser (List OFAction) := do
  let start ← index
  let turns ← readable
  parseActionsLoop limit (start + length).toNat turns 0

inductive OFType where
  | hello
  | error
  | echoRequest
  | echoReply
  | vendor
  | featuresRequest
  | featuresReply
  | getConfigRequest
  | getConfigReply
  | setConfig
  | packetIn
  | flowRemoved
  | portStatus
  | packetOut
  | flowMod
  | portMod
  | statsRequest
  | statsReply
  | barrierRequest
  | barrierReply
  | queueGetConfigRequest
  | queueGetConfigReply
  | packetRemote
  deriving DecidableEq, Repr

namespace OFType

def all : List OFType :=
  [hello, error, echoRequest, echoReply, vendor, featuresRequest, featuresReply, getConfigRequest,
    getConfigReply, setConfig, packetIn, flowRemoved, portStatus, packetOut, flowMod, portMod,
    statsRequest, statsReply, barrierRequest, barrierReply, queueGetConfigRequest,
    queueGetConfigReply, packetRemote]

def getTypeValue : OFType → BitVec 8
  | hello => 0
  | error => 1
  | echoRequest => 2
  | echoReply => 3
  | vendor => 4
  | featuresRequest => 5
  | featuresReply => 6
  | getConfigRequest => 7
  | getConfigReply => 8
  | setConfig => 9
  | packetIn => 10
  | flowRemoved => 11
  | portStatus => 12
  | packetOut => 13
  | flowMod => 14
  | portMod => 15
  | statsRequest => 16
  | statsReply => 17
  | barrierRequest => 18
  | barrierReply => 19
  | queueGetConfigRequest => 20
  | queueGetConfigReply => 21
  | packetRemote => 22

def valueOf (i : BitVec 8) : Parser (Option OFType) :=
  elementAt (all.map some ++ List.replicate 9 none) i.toInt

end OFType

structure OFHeader where
  version : BitVec 8
  length : BitVec 16
  xid : BitVec 32
  deriving DecidableEq, Repr

def readHeader : Parser (Option OFType × OFHeader) := do
  let version ← readByte
  let type ← readByte
  let type ← OFType.valueOf type
  let length ← readShort
  let xid ← readInt
  return (type, ⟨version, length, xid⟩)

def OFHeader.writeTo (type : OFType) (header : OFHeader) : List (BitVec 8) :=
  [header.version] ++ ([type.getTypeValue] ++ (put16 header.length ++ put32 header.xid))

inductive OFPacketInReason where
  | noMatch
  | action
  deriving DecidableEq, Repr

def OFPacketInReason.ordinal : OFPacketInReason → BitVec 8
  | noMatch => 0
  | action => 1

structure OFPacketIn where
  bufferId : BitVec 32
  totalLength : BitVec 16
  inPort : BitVec 16
  reason : OFPacketInReason
  packetData : List (BitVec 8)
  deriving DecidableEq, Repr

def OFPacketIn.readFrom (length : BitVec 16) : Parser OFPacketIn := do
  let bufferId ← readInt
  let totalLength ← readShort
  let inPort ← readShort
  let reason ← readByte
  let reason ← elementAt [.noMatch, .action] reason.toNat
  let _ ← readByte
  let packetData ← readNewBytes (length.toNat - 18)
  return ⟨bufferId, totalLength, inPort, reason, packetData⟩

def OFPacketIn.writeTo (message : OFPacketIn) : List (BitVec 8) :=
  put32 message.bufferId ++ (put16 message.totalLength ++ (put16 message.inPort ++
    ([message.reason.ordinal] ++ ([0] ++ message.packetData))))

structure OFPacketActions where
  bufferId : BitVec 32
  inPort : BitVec 16
  actionsLength : BitVec 16
  actions : List OFAction
  packetData : Option (List (BitVec 8))
  deriving DecidableEq, Repr

def OFPacketActions.validate (message : OFPacketActions) : Bool :=
  (message.bufferId ≠ 0xffffffff) ^^ (message.packetData.getD [] ≠ [])

def OFPacketActions.readFrom (length : BitVec 16) : Parser OFPacketActions := do
  let bufferId ← readInt
  let inPort ← readShort
  let actionsLength ← readShort
  let actions ← parseActions actionsLength.toNat 0
  let packetData ← readNewBytes (length.toNat - 16 - actionsLength.toNat)
  let message : OFPacketActions := ⟨bufferId, inPort, actionsLength, actions, some packetData⟩
  if message.validate then return message else throw .illegalState

def OFPacketActions.writeTo (message : OFPacketActions) : List (BitVec 8) :=
  put32 message.bufferId ++ (put16 message.inPort ++ (put16 message.actionsLength ++
    (writeActions message.actions ++ message.packetData.getD [])))

structure OFFlowMod where
  ofMatch : OFMatch
  cookie : BitVec 64
  command : BitVec 16
  idleTimeout : BitVec 16
  hardTimeout : BitVec 16
  priority : BitVec 16
  bufferId : BitVec 32
  outPort : BitVec 16
  flags : BitVec 16
  actions : Option (List OFAction)
  deriving DecidableEq, Repr

def OFFlowMod.readFrom (length : BitVec 16) : Parser OFFlowMod := do
  let ofMatch ← OFMatch.readFrom
  let cookie ← readLong
  let command ← readShort
  let idleTimeout ← readShort
  let hardTimeout ← readShort
  let priority ← readShort
  let bufferId ← readInt
  let outPort ← readShort
  let flags ← readShort
  let actions ← parseActions (length.toNat - 72) 0
  return {
    ofMatch, cookie, command, idleTimeout, hardTimeout, priority, bufferId, outPort, flags
    actions := some actions }

def OFFlowMod.writeTo (message : OFFlowMod) : List (BitVec 8) :=
  message.ofMatch.writeTo ++ (put64 message.cookie ++ (put16 message.command ++
    (put16 message.idleTimeout ++ (put16 message.hardTimeout ++ (put16 message.priority ++
      (put32 message.bufferId ++ (put16 message.outPort ++ (put16 message.flags ++
        writeActions (message.actions.getD [])))))))))

inductive OFFlowRemovedReason where
  | ofprrIdleTimeout
  | ofprrHardTimeout
  | ofprrDelete
  deriving DecidableEq, Repr

def OFFlowRemovedReason.ordinal : OFFlowRemovedReason → BitVec 8
  | ofprrIdleTimeout => 0
  | ofprrHardTimeout => 1
  | ofprrDelete => 2

structure OFFlowRemoved where
  ofMatch : OFMatch
  cookie : BitVec 64
  priority : BitVec 16
  reason : OFFlowRemovedReason
  durationSeconds : BitVec 32
  durationNanoseconds : BitVec 32
  idleTimeout : BitVec 16
  packetCount : BitVec 64
  byteCount : BitVec 64
  deriving DecidableEq, Repr

def OFFlowRemoved.readFrom : Parser OFFlowRemoved := do
  let ofMatch ← OFMatch.readFrom
  let cookie ← readLong
  let priority ← readShort
  let reason ← readByte
  let reason ← elementAt [.ofprrIdleTimeout, .ofprrHardTimeout, .ofprrDelete] reason.toNat
  let _ ← readByte
  let durationSeconds ← readInt
  let durationNanoseconds ← readInt
  let idleTimeout ← readShort
  let _ ← readByte
  let _ ← readByte
  let packetCount ← readLong
  let byteCount ← readLong
  return {
    ofMatch, cookie, priority, reason, durationSeconds, durationNanoseconds, idleTimeout
    packetCount, byteCount }

def OFFlowRemoved.writeTo (message : OFFlowRemoved) : List (BitVec 8) :=
  message.ofMatch.writeTo ++ (put64 message.cookie ++ (put16 message.priority ++
    ([message.reason.ordinal] ++ ([0] ++ (put32 message.durationSeconds ++
      (put32 message.durationNanoseconds ++ (put16 message.idleTimeout ++ ([0] ++ ([0] ++
        (put64 message.packetCount ++ put64 message.byteCount))))))))))

structure OFEchoRequest where
  payload : Option (List (BitVec 8))
  deriving DecidableEq, Repr

def readData (length : Int) : Parser (Option (List (BitVec 8))) :=
  if 0 < length then do
    let data ← readNewBytes length
    return some data
  else return none

def OFEchoRequest.readFrom (length : BitVec 16) : Parser OFEchoRequest := do
  let payload ← readData (length.toNat - 8)
  return ⟨payload⟩

def OFEchoRequest.writeTo (message : OFEchoRequest) : List (BitVec 8) := message.payload.getD []

structure OFError where
  errorType : BitVec 16
  errorCode : BitVec 16
  error : Option (List (BitVec 8))
  errorIsAscii : Bool
  deriving DecidableEq, Repr

def OFError.readFrom (length : BitVec 16) : Parser OFError := do
  let errorType ← readShort
  let errorCode ← readShort
  let error ← readData (length.toNat - 12)
  return ⟨errorType, errorCode, error, error.isSome && errorType = 0⟩

def OFError.writeTo (message : OFError) : List (BitVec 8) :=
  put16 message.errorType ++ (put16 message.errorCode ++ message.error.getD [])

/-- A message behind its header.  The members of the classes that are not listed are left out. -/
inductive OFBody where
  | error (message : OFError)
  | echoRequest (message : OFEchoRequest)
  | packetIn (message : OFPacketIn)
  | flowRemoved (message : OFFlowRemoved)
  | packetOut (message : OFPacketActions)
  | flowMod (message : OFFlowMod)
  | packetRemote (message : OFPacketActions)
  | other (type : OFType)
  deriving DecidableEq, Repr

structure OFMessage where
  header : OFHeader
  body : OFBody
  deriving DecidableEq, Repr

def OFBody.getType : OFBody → OFType
  | error _ => .error
  | echoRequest _ => .echoRequest
  | packetIn _ => .packetIn
  | flowRemoved _ => .flowRemoved
  | packetOut _ => .packetOut
  | flowMod _ => .flowMod
  | packetRemote _ => .packetRemote
  | other type => type

def OFBody.readFrom (readOther : OFType → Parser Unit) (length : BitVec 16) :
    OFType → Parser OFBody
  | .error => return .error (← OFError.readFrom length)
  | .echoRequest => return .echoRequest (← OFEchoRequest.readFrom length)
  | .packetIn => return .packetIn (← OFPacketIn.readFrom length)
  | .flowRemoved => return .flowRemoved (← OFFlowRemoved.readFrom)
  | .packetOut => return .packetOut (← OFPacketActions.readFrom length)
  | .flowMod => return .flowMod (← OFFlowMod.readFrom length)
  | .packetRemote => return .packetRemote (← OFPacketActions.readFrom length)
  | type => do
      readOther type
      return .other type

def OFMessage.readFrom (readOther : OFType → Parser Unit) (type : OFType) : Parser OFMessage := do
  let header ← readHeader
  let body ← OFBody.readFrom readOther header.2.length type
  return ⟨header.2, body⟩

/-- `writeTo` of the class of a message, behind the header; nothing is said about the classes that
are not listed. -/
def OFBody.writeTo : OFBody → Option (List (BitVec 8))
  | error message => some message.writeTo
  | echoRequest message => some message.writeTo
  | packetIn message => some message.writeTo
  | flowRemoved message => some message.writeTo
  | flowMod message => some message.writeTo
  | packetOut message | packetRemote message =>
    if message.validate then some message.writeTo else none
  | other _ => none

/-- `writeTo` of the class of a message.  There is no result if `validate` throws an exception. -/
def OFMessage.writeTo (message : OFMessage) : Option (List (BitVec 8)) :=
  message.body.writeTo.map fun bytes =>
    message.header.writeTo message.body.getType ++ bytes

end LazyCtrl.Controller
