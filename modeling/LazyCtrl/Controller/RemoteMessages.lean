import LazyCtrl.Controller.Codec
import LazyCtrl.Ofp.Messages

/-!
# Remote messages from the controller to a switch

The messages with a `REMOTE` action that `DCM.java` sends: `pushPacketRemote` and the `writeFlowMod`
with an address.  The switch decodes them with its own functions.  It reads every member as the
controller wrote it, except that it refuses a packet whose input port is one of the reserved numbers
above `OFPP_MAX`.
-/

namespace LazyCtrl
namespace Controller

open Bytes

def bufferIdNone : BitVec 32 := 0xffffffff

def newOFActionRemote (port : BitVec 16) (ip : BitVec 32) : OFAction := ⟨16, .remote port ip⟩

def packetRemoteOf (buffers : BitVec 32) (pi : OFPacketIn) (outport : BitVec 16)
    (ip : BitVec 32) : OFPacketActions :=
  let bufferId := if buffers = 0 then bufferIdNone else pi.bufferId
  { bufferId
    inPort := pi.inPort
    actionsLength := 16
    actions := [newOFActionRemote outport ip]
    packetData := if bufferId = bufferIdNone then some pi.packetData else none }

/-- The message that `pushPacketRemote` writes; `xid` is set when it is written.  Nothing is sent
back to the input port while debugging. -/
def pushPacketRemote (debugEnabled : Bool) (buffers xid : BitVec 32) (pi : OFPacketIn)
    (outport : BitVec 16) (ip : BitVec 32) : Option OFMessage :=
  if pi.inPort = outport ∧ debugEnabled then none
  else
    let message := packetRemoteOf buffers pi outport ip
    some {
      header := ⟨1, 16 + 16 + BitVec.ofNat 16 (message.packetData.getD []).length, xid⟩
      body := .packetRemote message }

def dcmCookie : BitVec 64 := 2 <<< 52

def ofpfcAdd : BitVec 16 := 0

def ofpfcDelete : BitVec 16 := 3

def writeFlowModWith (action : OFAction) (xid : BitVec 32) (command : BitVec 16)
    (bufferId : BitVec 32) (ofMatch : OFMatch) (outPort : BitVec 16) : OFMessage where
  header := ⟨1, 72 + action.length, xid⟩
  body := .flowMod {
    ofMatch
    cookie := dcmCookie
    command
    idleTimeout := 600
    hardTimeout := 0
    priority := 100
    bufferId
    outPort := if command = ofpfcDelete then outPort else ofppNone
    flags := if command = ofpfcDelete then 0 else 1
    actions := some [action] }

def writeFlowModRemote (xid : BitVec 32) (command : BitVec 16) (bufferId : BitVec 32)
    (ofMatch : OFMatch) (outPort : BitVec 16) (ip : BitVec 32) : OFMessage :=
  writeFlowModWith (newOFActionRemote outPort ip) xid command bufferId ofMatch outPort

def DecodesPacket (message : OFPacketActions) (port : BitVec 16) (ip : BitVec 32)
    (wire : List (BitVec 8)) : Prop :=
  ofputilDecodePacketRemote wire = some (.ok {
    packet := message.packetData
    bufferId := message.bufferId
    inPort := message.inPort
    ofpacts := [.remote port ip] })

theorem writeTo_newOFActionRemote (port : BitVec 16) (ip : BitVec 32) :
    (newOFActionRemote port ip).writeTo = remoteWire port ip := by
  have padding : put48 0 = put16 0 ++ put32 0 := rfl
  simp only [OFAction.writeTo, newOFActionRemote, OFActionArgs.writeTo, OFActionArgs.getType,
    OFActionType.getTypeValue, remoteWire, ofputilPut, padding, List.append_assoc]
  rfl

theorem length_remoteWire (port : BitVec 16) (ip : BitVec 32) : (remoteWire port ip).length = 16 :=
  rfl

theorem ofprawPullAssert_header {type : OFType} {raw : Ofpraw} {length : BitVec 16} (xid : BitVec 32)
    {body : List (BitVec 8)}
    (found : ofprawFromOfphdrs 1 type.getTypeValue = some raw)
    (stated : length.toNat = 8 + body.length) (long : raw.minBody ≤ body.length)
    (aligned : (body.length - raw.minBody) % raw.extraMultiple = 0) :
    ofprawPullAssert (messageBytes (OFHeader.writeTo type ⟨1, length, xid⟩ ++ body)) =
      some (raw, body) := by
  have headerLength : (OFHeader.writeTo type ⟨1, length, xid⟩).length = 8 := rfl
  have whole : messageBytes (OFHeader.writeTo type ⟨1, length, xid⟩ ++ body) =
      OFHeader.writeTo type ⟨1, length, xid⟩ ++ body := by
    have read : be16 (OFHeader.writeTo type ⟨1, length, xid⟩ ++ body) 2 = length := by
      simp [OFHeader.writeTo]
    rw [messageBytes, read, List.take_of_length_le]
    rw [List.length_append, headerLength, stated]
  have version : u8 (OFHeader.writeTo type ⟨1, length, xid⟩ ++ body) 0 = 1 := rfl
  have typeByte : u8 (OFHeader.writeTo type ⟨1, length, xid⟩ ++ body) 1 = type.getTypeValue := rfl
  have rest : (OFHeader.writeTo type ⟨1, length, xid⟩ ++ body).drop 8 = body :=
    List.drop_left' headerLength
  rw [whole, ofprawPullAssert, version, typeByte, found, rest]
  simp only [List.length_append, headerLength, Option.bind_eq_bind, Option.bind_some]
  rw [if_neg (by omega), if_neg]
  rintro (short | ragged)
  · omega
  · exact ragged (by rw [Nat.add_sub_add_left, aligned])

theorem ofputilDecodePacketRemote_writeTo {message : OFPacketActions} {port : BitVec 16}
    {ip xid : BitVec 32} {length : BitVec 16}
    (portOk : ofputilCheckOutputPort port ofppMax = none)
    (actions : message.actions = [newOFActionRemote port ip])
    (actionsLength : message.actionsLength = 16)
    (stated : length.toNat = 32 + (message.packetData.getD []).length) :
    ofputilDecodePacketRemote
        (OFHeader.writeTo .packetRemote ⟨1, length, xid⟩ ++ message.writeTo) =
      some (if inPortOk message.inPort then
        .ok {
          packet := if message.bufferId = uint32Max then some (message.packetData.getD []) else none
          bufferId := message.bufferId
          inPort := message.inPort
          ofpacts := [.remote port ip] }
      else .error .nxbrcBadInPort) := by
  set data := message.packetData.getD [] with dataDef
  have body : message.writeTo = put32 message.bufferId ++ (put16 message.inPort ++ (put16 16 ++
      (remoteWire port ip ++ data))) := by
    simp [OFPacketActions.writeTo, actions, actionsLength, writeActions, writeTo_newOFActionRemote,
      dataDef]
  have bodyLength : message.writeTo.length = 24 + data.length := by
    simp only [body, List.length_append, length_put32, length_put16, length_remoteWire]
    omega
  have pulled : ofprawPullAssert
      (messageBytes (OFHeader.writeTo .packetRemote ⟨1, length, xid⟩ ++ message.writeTo)) =
        some (.ofpt10PacketRemote, message.writeTo) :=
    ofprawPullAssert_header xid rfl (by omega) (by rw [bodyLength, Ofpraw.minBody]; omega)
      (Nat.mod_one _)
  have bufferId : be32 message.writeTo 0 = message.bufferId := by simp [body]
  have inPort : be16 message.writeTo 4 = message.inPort := by simp [body]
  have actionsLen : (be16 message.writeTo 6).toNat = 16 := by simp [body]
  have rest : message.writeTo.drop 8 = remoteWire port ip ++ data := by
    have front : (put32 message.bufferId ++ (put16 message.inPort ++ put16 16)).length = 8 := by
      simp
    rw [body, ← List.append_assoc (put16 _), ← List.append_assoc]
    exact List.drop_left' front
  have behind : (remoteWire port ip ++ data).drop 16 = data :=
    List.drop_left' (length_remoteWire port ip)
  rw [ofputilDecodePacketRemote, pulled]
  simp only [bufferId, inPort, actionsLen, rest, behind,
    ofpactsPullOpenflow10_remoteWire ip portOk data, Option.map_some, finishPacketRemote]

def OFMatch.toOfp10 (ofMatch : OFMatch) : Ofp10Match where
  wildcards := ofMatch.wildcards
  inPort := ofMatch.inputPort
  dlSrc := be48 ofMatch.dataLayerSource 0
  dlDst := be48 ofMatch.dataLayerDestination 0
  dlVlan := ofMatch.dataLayerVirtualLan
  dlVlanPcp := ofMatch.dataLayerVirtualLanPriorityCodePoint
  dlType := ofMatch.dataLayerType
  nwTos := ofMatch.networkTypeOfService
  nwProto := ofMatch.networkProtocol
  nwSrc := ofMatch.networkSource
  nwDst := ofMatch.networkDestination
  tpSrc := ofMatch.transportSource
  tpDst := ofMatch.transportDestination

def DecodesFlowMod (tid : Bool) (message : OFFlowMod) (ofpacts : List Ofpact)
    (wire : List (BitVec 8)) : Prop :=
  ofputilDecodeFlowMod tid wire = some (.ok {
    ofpMatch := message.ofMatch.toOfp10
    priority := if message.ofMatch.wildcards &&& ofpfw10All = 0 then 0xffff else message.priority
    newCookie := message.cookie
    command := if tid then message.command &&& 0xff else message.command
    tableId := if tid then (message.command >>> 8).setWidth 8 else 0xff
    idleTimeout := message.idleTimeout
    hardTimeout := message.hardTimeout
    bufferId := message.bufferId
    outPort := message.outPort
    flags := message.flags
    ofpacts })

theorem ofp10MatchAt_writeTo {ofMatch : OFMatch} (addresses : ofMatch.HasAddresses)
    (rest : List (BitVec 8)) : ofp10MatchAt (ofMatch.writeTo ++ rest) = ofMatch.toOfp10 := by
  obtain ⟨source, destination⟩ := addresses
  have sourceRead (rest : List (BitVec 8)) : be48 (ofMatch.dataLayerSource ++ rest) 0 =
      be48 ofMatch.dataLayerSource 0 := be48_append_left rest (by omega)
  have destinationRead (rest : List (BitVec 8)) : be48 (ofMatch.dataLayerDestination ++ rest) 0 =
      be48 ofMatch.dataLayerDestination 0 := be48_append_left rest (by omega)
  simp only [ofp10MatchAt, OFMatch.writeTo, OFMatch.toOfp10, List.append_assoc]
  simp [drop_add_append source, drop_add_append destination, sourceRead, destinationRead]

theorem OFMatch.HasAddresses.length_writeTo {ofMatch : OFMatch} (addresses : ofMatch.HasAddresses) :
    ofMatch.writeTo.length = 40 := by
  simp [OFMatch.writeTo, addresses.1, addresses.2]

theorem decodesFlowMod_of_translated (tid : Bool) {message : OFFlowMod} {wire : List (BitVec 8)}
    {length : BitVec 16} (xid : BitVec 32) (addresses : message.ofMatch.HasAddresses)
    (actions : writeActions (message.actions.getD []) = wire)
    (stated : length.toNat = 72 + wire.length) (aligned : length.toNat % 8 = 0) :
    (∀ {ofpacts}, ofpactsPullOpenflow10 wire wire.length = some ⟨none, ofpacts⟩ →
      DecodesFlowMod tid message ofpacts
        (OFHeader.writeTo .flowMod ⟨1, length, xid⟩ ++ message.writeTo)) ∧
    ∀ error, ofpactsPullOpenflow10 wire wire.length = some ⟨some error, []⟩ →
      ofputilDecodeFlowMod tid (OFHeader.writeTo .flowMod ⟨1, length, xid⟩ ++ message.writeTo) =
        some (.error (.ofperr error)) := by
  have matchLength := addresses.length_writeTo
  have bodyLength : message.writeTo.length = 64 + wire.length := by
    simp only [OFFlowMod.writeTo, actions, List.length_append, matchLength, length_put64,
      length_put32, length_put16]
    omega
  have pulled : ofprawPullAssert
      (messageBytes (OFHeader.writeTo .flowMod ⟨1, length, xid⟩ ++ message.writeTo)) =
        some (.ofpt10FlowMod, message.writeTo) :=
    ofprawPullAssert_header xid rfl (by rw [bodyLength]; omega)
      (by rw [bodyLength, Ofpraw.minBody]; omega)
      (by rw [bodyLength, Ofpraw.minBody, Ofpraw.extraMultiple]; omega)
  have rest : message.writeTo.drop 64 = wire := by
    simp [OFFlowMod.writeTo, actions, drop_add_append matchLength]
  have wildcards : be32 message.writeTo 0 = message.ofMatch.wildcards := by
    simp [OFFlowMod.writeTo, OFMatch.writeTo]
  constructor
  · intro ofpacts translated
    rw [DecodesFlowMod, ofputilDecodeFlowMod, pulled]
    simp only [rest, translated, Option.map_some, finishFlowMod, wildcards]
    simp [OFFlowMod.writeTo, drop_add_append matchLength, ofp10MatchAt_writeTo addresses]
  · intro error translated
    rw [ofputilDecodeFlowMod, pulled]
    simp only [rest, translated, Option.map_some, finishFlowMod]

theorem decodesFlowMod_writeTo (tid : Bool) {message : OFFlowMod} {port : BitVec 16}
    {ip : BitVec 32} (xid : BitVec 32) (portOk : ofputilCheckOutputPort port ofppMax = none)
    (addresses : message.ofMatch.HasAddresses)
    (actions : message.actions = some [newOFActionRemote port ip]) :
    DecodesFlowMod tid message [.remote port ip]
      (OFHeader.writeTo .flowMod ⟨1, 88, xid⟩ ++ message.writeTo) := by
  have wire : writeActions (message.actions.getD []) = remoteWire port ip := by
    simp [actions, writeActions, writeTo_newOFActionRemote]
  have translated := ofpactsPullOpenflow10_remoteWire ip portOk []
  rw [List.append_nil] at translated
  exact (decodesFlowMod_of_translated tid xid addresses wire rfl rfl).1 translated

theorem writeTo_pushPacketRemote {debugEnabled : Bool} {buffers xid : BitVec 32} {pi : OFPacketIn}
    {outport : BitVec 16} {ip : BitVec 32} {message : OFMessage} {wire : List (BitVec 8)}
    (pushed : pushPacketRemote debugEnabled buffers xid pi outport ip = some message)
    (written : message.writeTo = some wire) :
    wire = OFHeader.writeTo .packetRemote ⟨1, 16 + 16 + BitVec.ofNat 16
        ((packetRemoteOf buffers pi outport ip).packetData.getD []).length, xid⟩ ++
      (packetRemoteOf buffers pi outport ip).writeTo := by
  rw [pushPacketRemote] at pushed
  split at pushed
  · cases pushed
  · obtain rfl := Option.some.inj pushed
    simp only [OFMessage.writeTo, OFBody.writeTo, OFBody.getType] at written
    split at written
    · exact (Option.some.inj written).symm
    · cases written

theorem length_packetRemoteOf (buffers : BitVec 32) (pi : OFPacketIn) (outport : BitVec 16)
    (ip : BitVec 32) :
    (packetRemoteOf buffers pi outport ip).writeTo.length =
      24 + ((packetRemoteOf buffers pi outport ip).packetData.getD []).length := by
  have actions : writeActions (packetRemoteOf buffers pi outport ip).actions =
      remoteWire outport ip := by
    simp [packetRemoteOf, writeActions, writeTo_newOFActionRemote]
  rw [OFPacketActions.writeTo, actions]
  simp only [List.length_append, length_put32, length_put16, length_remoteWire]
  omega

theorem packet_packetRemoteOf (buffers : BitVec 32) (pi : OFPacketIn) (outport : BitVec 16)
    (ip : BitVec 32) :
    (if (packetRemoteOf buffers pi outport ip).bufferId = uint32Max then
      some ((packetRemoteOf buffers pi outport ip).packetData.getD []) else none) =
      (packetRemoteOf buffers pi outport ip).packetData := by
  simp only [packetRemoteOf, show bufferIdNone = uint32Max from rfl]
  generalize (if buffers = 0 then uint32Max else pi.bufferId) = bufferId
  by_cases unbuffered : bufferId = uint32Max
  · rw [if_pos unbuffered, if_pos unbuffered, Option.getD_some]
  · rw [if_neg unbuffered, if_neg unbuffered]

/-- The switch reads the packet messages of the controller as they were meant unless it refuses the
input port, and it reads all flow modifications as they were meant. -/
theorem remoteMessages_decoded {outport : BitVec 16} (ip xid : BitVec 32)
    (portOk : ofputilCheckOutputPort outport ofppMax = none) :
    (∀ {debugEnabled buffers pi message wire},
      pushPacketRemote debugEnabled buffers xid pi outport ip = some message →
      message.writeTo = some wire → wire.length ≤ 65535 →
      (DecodesPacket (packetRemoteOf buffers pi outport ip) outport ip wire ↔
        inPortOk pi.inPort)) ∧
    ∀ {tid command bufferId ofMatch}, ofMatch.HasAddresses →
      ∃ flowMod wire,
        (writeFlowModRemote xid command bufferId ofMatch outport ip).body = .flowMod flowMod ∧
        flowMod.ofMatch = ofMatch ∧ flowMod.bufferId = bufferId ∧
        (writeFlowModRemote xid command bufferId ofMatch outport ip).writeTo = some wire ∧
        DecodesFlowMod tid flowMod [.remote outport ip] wire := by
  constructor
  · intro debugEnabled buffers pi message wire pushed written short
    obtain rfl := writeTo_pushPacketRemote pushed written
    have header (length : BitVec 16) :
        (OFHeader.writeTo .packetRemote ⟨1, length, xid⟩).length = 8 := rfl
    rw [List.length_append, length_packetRemoteOf, header] at short
    have stated : (16 + 16 + BitVec.ofNat 16
        ((packetRemoteOf buffers pi outport ip).packetData.getD []).length).toNat =
          32 + ((packetRemoteOf buffers pi outport ip).packetData.getD []).length := by
      have sixteen : (16 : BitVec 16).toNat = 16 := rfl
      simp only [BitVec.toNat_add, BitVec.toNat_ofNat, sixteen]
      omega
    rw [DecodesPacket, ofputilDecodePacketRemote_writeTo portOk rfl rfl stated,
      packet_packetRemoteOf]
    by_cases accepted : inPortOk pi.inPort
    · exact iff_of_true (congrArg some (if_pos accepted)) accepted
    · refine iff_of_false (fun decoded => ?_) accepted
      rw [if_neg (show ¬ inPortOk (packetRemoteOf buffers pi outport ip).inPort from accepted)]
        at decoded
      cases decoded
  · intro tid command bufferId ofMatch addresses
    exact ⟨_, _, rfl, rfl, rfl, rfl, decodesFlowMod_writeTo tid xid portOk addresses rfl⟩

def samplePacketIn (inPort : BitVec 16) : OFPacketIn where
  bufferId := bufferIdNone
  totalLength := 20
  inPort
  reason := .noMatch
  packetData := List.replicate 20 0xab

def sampleMatch : OFMatch where
  wildcards := 0
  inputPort := 5
  dataLayerSource := [2, 0, 0, 0, 0, 1]
  dataLayerDestination := [2, 0, 0, 0, 0, 2]
  dataLayerVirtualLan := 0xffff
  dataLayerVirtualLanPriorityCodePoint := 0
  dataLayerType := 0x800
  networkTypeOfService := 0
  networkProtocol := 17
  networkSource := 0x0a000101
  networkDestination := 0x0a000202
  transportSource := 1024
  transportDestination := 53

theorem remoteMessages_decoded_port5 :
    (∃ wire, (pushPacketRemote false 256 7 (samplePacketIn 5) 1 0xc0a80001).bind
        OFMessage.writeTo = some wire ∧
      DecodesPacket (packetRemoteOf 256 (samplePacketIn 5) 1 0xc0a80001) 1 0xc0a80001 wire) ∧
    ∃ flowMod wire,
      (writeFlowModRemote 7 ofpfcAdd bufferIdNone sampleMatch 1 0xc0a80001).writeTo = some wire ∧
      DecodesFlowMod false flowMod [.remote 1 0xc0a80001] wire := by
  have portOk : ofputilCheckOutputPort 1 ofppMax = none := by decide
  have decoded := remoteMessages_decoded 0xc0a80001 7 portOk
  constructor
  · exact ⟨_, rfl, (@decoded.1 false 256 (samplePacketIn 5) _ _ rfl rfl (by decide)).mpr
      (by decide)⟩
  · obtain ⟨flowMod, wire, -, -, -, written, result⟩ :=
      @decoded.2 false ofpfcAdd bufferIdNone sampleMatch (by decide)
    exact ⟨flowMod, wire, written, result⟩

/-- The switch refuses a packet that is said to come from `OFPP_FLOOD`. -/
theorem not_decodesPacket_fromFlood :
    ofputilCheckOutputPort 1 ofppMax = none ∧
    ∃ wire, (pushPacketRemote false 256 7 (samplePacketIn 0xfffb) 1 0xc0a80001).bind
        OFMessage.writeTo = some wire ∧ wire.length ≤ 65535 ∧
      ofputilDecodePacketRemote wire = some (.error .nxbrcBadInPort) := by
  have portOk : ofputilCheckOutputPort 1 ofppMax = none := by decide
  have refused : ¬ inPortOk (packetRemoteOf 256 (samplePacketIn 0xfffb) 1 0xc0a80001).inPort := by
    decide
  refine ⟨portOk, _, rfl, by decide, ?_⟩
  exact (ofputilDecodePacketRemote_writeTo portOk rfl rfl (by decide)).trans
    (congrArg some (if_neg refused))

end Controller
end LazyCtrl
