import LazyCtrl.Controller.LoadFromPacket
import LazyCtrl.Controller.LocationTables
import LazyCtrl.Controller.RemoteMessages

/-!
# What the controller does with a packet

`processPacketInMessage` of `DCM.java`, with the functions that write its messages.  The handler
loads a match from the packet, learns the port of the sender, looks up the receiver and writes
messages to the switch that has sent the packet.

Two things are shown about the messages.  The length that a message states is the number of its
bytes as long as it fits into 16 bits.  And whether a message is written depends on the log level,
when the receiver is said to be behind the port that the packet came from.
-/

namespace LazyCtrl
namespace Controller

open Bytes

def ofppFlood : BitVec 16 := 0xfffb

def newOFActionOutput (port maxLength : BitVec 16) : OFAction := ⟨8, .output port maxLength⟩

def packetActionsOf (action : OFAction) (bufferId : BitVec 32) (pi : OFPacketIn) :
    OFPacketActions where
  bufferId
  inPort := pi.inPort
  actionsLength := action.length
  actions := [action]
  packetData := if bufferId = bufferIdNone then some pi.packetData else none

def packetActionsHeader (xid : BitVec 32) (message : OFPacketActions) : OFHeader :=
  ⟨1, message.actionsLength + 16 + BitVec.ofNat 16 (message.packetData.getD []).length, xid⟩

def pushedBufferId (buffers : BitVec 32) (pi : OFPacketIn) : BitVec 32 :=
  if buffers = 0 then bufferIdNone else pi.bufferId

def pushPacket (debugEnabled : Bool) (buffers xid : BitVec 32) (pi : OFPacketIn)
    (outport : BitVec 16) : Option OFMessage :=
  if pi.inPort = outport ∧ debugEnabled then none
  else
    let message := packetActionsOf (newOFActionOutput outport 0xffff) (pushedBufferId buffers pi) pi
    some { header := packetActionsHeader xid message, body := .packetOut message }

def writePacketOutForPacketIn (xid : BitVec 32) (pi : OFPacketIn) (egressPort : BitVec 16) :
    OFMessage :=
  let message := packetActionsOf (newOFActionOutput egressPort 0) pi.bufferId pi
  { header := packetActionsHeader xid message, body := .packetOut message }

def writePacketRemoteForPacketIn (xid : BitVec 32) (pi : OFPacketIn) (remote : PortIpPair) :
    OFMessage :=
  let message := packetActionsOf (newOFActionRemote remote.port remote.ip) pi.bufferId pi
  { header := packetActionsHeader xid message, body := .packetRemote message }

def writeFlowMod (xid : BitVec 32) (command : BitVec 16) (bufferId : BitVec 32) (ofMatch : OFMatch)
    (outPort : BitVec 16) : OFMessage :=
  writeFlowModWith (newOFActionOutput outPort 0xffff) xid command bufferId ofMatch outPort

inductive PacketWriter where
  | pushPacket (debugEnabled : Bool) (buffers : BitVec 32) (outport : BitVec 16)
  | pushPacketRemote (debugEnabled : Bool) (buffers : BitVec 32) (outport : BitVec 16)
      (ip : BitVec 32)
  | writePacketOutForPacketIn (egressPort : BitVec 16)
  | writePacketRemoteForPacketIn (remote : PortIpPair)
  deriving DecidableEq, Repr

namespace PacketWriter

def message (xid : BitVec 32) (pi : OFPacketIn) : PacketWriter → Option OFMessage
  | pushPacket debugEnabled buffers outport =>
    Controller.pushPacket debugEnabled buffers xid pi outport
  | pushPacketRemote debugEnabled buffers outport ip =>
    Controller.pushPacketRemote debugEnabled buffers xid pi outport ip
  | writePacketOutForPacketIn egressPort =>
    some (Controller.writePacketOutForPacketIn xid pi egressPort)
  | writePacketRemoteForPacketIn remote =>
    some (Controller.writePacketRemoteForPacketIn xid pi remote)

def overhead : PacketWriter → Nat
  | pushPacket .. | writePacketOutForPacketIn .. => 24
  | pushPacketRemote .. | writePacketRemoteForPacketIn .. => 32

def bufferId (pi : OFPacketIn) : PacketWriter → BitVec 32
  | pushPacket _ buffers _ | pushPacketRemote _ buffers _ _ => pushedBufferId buffers pi
  | writePacketOutForPacketIn .. | writePacketRemoteForPacketIn .. => pi.bufferId

/-- Number of bytes of the packet that the message carries. -/
def carried (pi : OFPacketIn) (writer : PacketWriter) : Nat :=
  if writer.bufferId pi = bufferIdNone then pi.packetData.length else 0

end PacketWriter

/-- The length that a message states is the number of the bytes that `writeTo` emits for it. -/
def StatesLength (message : OFMessage) : Prop :=
  ∀ wire, message.writeTo = some wire → message.header.length.toNat = wire.length

theorem PacketWriter.exists_of_message {writer : PacketWriter} {xid : BitVec 32} {pi : OFPacketIn}
    {message : OFMessage} (sent : writer.message xid pi = some message) :
    ∃ action : OFAction, action.writeTo.length + 16 = writer.overhead ∧
      action.length.toNat + 16 = writer.overhead ∧
      message.header = packetActionsHeader xid (packetActionsOf action (writer.bufferId pi) pi) ∧
      (message.body = .packetOut (packetActionsOf action (writer.bufferId pi) pi) ∨
        message.body = .packetRemote (packetActionsOf action (writer.bufferId pi) pi)) := by
  cases writer with
  | pushPacket debugEnabled buffers outport =>
    rw [PacketWriter.message, Controller.pushPacket] at sent
    split at sent
    · cases sent
    · obtain rfl := Option.some.inj sent
      exact ⟨newOFActionOutput outport 0xffff, rfl, rfl, rfl, .inl rfl⟩
  | pushPacketRemote debugEnabled buffers outport ip =>
    rw [PacketWriter.message, Controller.pushPacketRemote] at sent
    split at sent
    · cases sent
    · obtain rfl := Option.some.inj sent
      exact ⟨newOFActionRemote outport ip, rfl, rfl, rfl, .inr rfl⟩
  | writePacketOutForPacketIn egressPort =>
    obtain rfl := Option.some.inj sent
    exact ⟨newOFActionOutput egressPort 0, rfl, rfl, rfl, .inl rfl⟩
  | writePacketRemoteForPacketIn remote =>
    obtain rfl := Option.some.inj sent
    exact ⟨newOFActionRemote remote.port remote.ip, rfl, rfl, rfl, .inr rfl⟩

theorem length_packetData (action : OFAction) (writer : PacketWriter) (pi : OFPacketIn) :
    ((packetActionsOf action (writer.bufferId pi) pi).packetData.getD []).length =
      writer.carried pi := by
  rw [packetActionsOf, PacketWriter.carried]
  split <;> rfl

theorem validate_packetActionsOf {action : OFAction} {writer : PacketWriter} {pi : OFPacketIn}
    (carries : writer.carried pi ≠ 0) :
    (packetActionsOf action (writer.bufferId pi) pi).validate = true := by
  have unbuffered : writer.bufferId pi = bufferIdNone := by
    by_contra buffered
    exact carries (if_neg buffered)
  have some_ : pi.packetData ≠ [] := by
    intro empty
    exact carries ((if_pos unbuffered).trans (by rw [empty]; rfl))
  simp [OFPacketActions.validate, packetActionsOf, unbuffered, bufferIdNone, some_]

section Lengths

variable {writer : PacketWriter} {xid : BitVec 32} {pi : OFPacketIn} {message : OFMessage}

theorem PacketWriter.length_header (sent : writer.message xid pi = some message) :
    message.header.length.toNat = (writer.overhead + writer.carried pi) % 2 ^ 16 := by
  obtain ⟨action, -, stated, header, -⟩ := writer.exists_of_message sent
  have actionsLength : (packetActionsOf action (writer.bufferId pi) pi).actionsLength =
      action.length := rfl
  have sixteen : (16 : BitVec 16).toNat = 16 := rfl
  rw [header, packetActionsHeader, length_packetData, actionsLength]
  simp only [BitVec.toNat_add, BitVec.toNat_ofNat, sixteen]
  omega

theorem PacketWriter.writeTo_message (sent : writer.message xid pi = some message) :
    ∃ packet : OFPacketActions, packet.writeTo.length + 8 = writer.overhead + writer.carried pi ∧
      (writer.carried pi ≠ 0 → packet.validate = true) ∧
      message.writeTo = if packet.validate then
        some (message.header.writeTo message.body.getType ++ packet.writeTo) else none := by
  obtain ⟨action, wireLength, -, -, body⟩ := writer.exists_of_message sent
  refine ⟨packetActionsOf action (writer.bufferId pi) pi, ?_, validate_packetActionsOf, ?_⟩
  · have actions : writeActions (packetActionsOf action (writer.bufferId pi) pi).actions =
        action.writeTo := by
      simp [packetActionsOf, writeActions]
    rw [OFPacketActions.writeTo, actions]
    simp only [List.length_append, length_put32, length_put16, length_packetData]
    omega
  · obtain out | remote := body
    · rw [OFMessage.writeTo, out, OFBody.writeTo]
      split <;> rfl
    · rw [OFMessage.writeTo, remote, OFBody.writeTo]
      split <;> rfl

theorem PacketWriter.length_wire (sent : writer.message xid pi = some message)
    {wire : List (BitVec 8)} (written : message.writeTo = some wire) :
    wire.length = writer.overhead + writer.carried pi := by
  obtain ⟨packet, length, -, bytes⟩ := writer.writeTo_message sent
  rw [bytes] at written
  split at written
  · obtain rfl := Option.some.inj written
    have front : (message.header.writeTo message.body.getType).length = 8 := rfl
    rw [List.length_append, front]
    omega
  · cases written

theorem PacketWriter.not_statesLength (sent : writer.message xid pi = some message)
    (long : 2 ^ 16 ≤ writer.overhead + writer.carried pi) : ¬ StatesLength message := by
  have few : writer.overhead ≤ 32 := by
    cases writer <;> simp only [overhead] <;> omega
  obtain ⟨packet, -, valid, bytes⟩ := writer.writeTo_message sent
  rw [if_pos (valid (by omega))] at bytes
  intro right
  have same := right _ bytes
  rw [writer.length_header sent, writer.length_wire sent bytes] at same
  omega

/-- The stated length is right exactly when it fits into 16 bits. -/
theorem statesLength_iff (sent : writer.message xid pi = some message) :
    StatesLength message ↔ writer.overhead + writer.carried pi < 2 ^ 16 := by
  constructor
  · intro right
    by_contra long
    exact writer.not_statesLength sent (Nat.le_of_not_lt long) right
  · intro fits wire written
    rw [writer.length_header sent, writer.length_wire sent written, Nat.mod_eq_of_lt fits]

end Lengths

theorem statesLength_iff_twenty :
    StatesLength (writePacketOutForPacketIn 0 (samplePacketIn 5) ofppFlood) :=
  (@statesLength_iff (.writePacketOutForPacketIn ofppFlood) 0 (samplePacketIn 5) _ rfl).mpr
    (by decide)

def longPacketIn : OFPacketIn where
  bufferId := bufferIdNone
  totalLength := 65512
  inPort := 5
  reason := .noMatch
  packetData := List.replicate 65512 0

/-- The packet-out for it is 65536 bytes long and states the length zero. -/
theorem not_statesLength_long :
    18 + longPacketIn.packetData.length < 2 ^ 16 ∧
      (writePacketOutForPacketIn 0 longPacketIn ofppFlood).header.length.toNat = 0 ∧
      ¬ StatesLength (writePacketOutForPacketIn 0 longPacketIn ofppFlood) := by
  have sent : (PacketWriter.writePacketOutForPacketIn ofppFlood).message 0 longPacketIn =
      some (writePacketOutForPacketIn 0 longPacketIn ofppFlood) := rfl
  have length : longPacketIn.packetData.length = 65512 := List.length_replicate
  have carried : (PacketWriter.writePacketOutForPacketIn ofppFlood).carried longPacketIn =
      65512 := (if_pos rfl).trans length
  have overhead : (PacketWriter.writePacketOutForPacketIn ofppFlood).overhead = 24 := rfl
  refine ⟨by omega, ?_, PacketWriter.not_statesLength sent (by omega)⟩
  rw [PacketWriter.length_header sent, carried, overhead]
  omega

structure LogLevels where
  debug : Bool
  trace : Bool
  deriving DecidableEq, Repr

structure IofSwitch (σ : Type*) where
  object : σ
  stringId : String
  buffers : BitVec 32
  fastWildcards : Option (BitVec 32)

inductive Command where
  | continue
  | stop
  deriving DecidableEq, Repr

inductive PacketInException where
  | buffer (cause : BufferException)
  | nullPointer
  deriving DecidableEq, Repr

structure PacketInResult (σ : Type*) where
  messages : List OFMessage
  dcm : Dcm σ
  outcome : Except PacketInException Command

def macToLong (address : List (BitVec 8)) : BitVec 64 := (be48 address 0).setWidth 64

def ofpfwDlVlan : BitVec 32 := 1 <<< 1

def ofpfwDlSrc : BitVec 32 := 1 <<< 2

def ofpfwDlDst : BitVec 32 := 1 <<< 3

def ofpfwNwSrcMask : BitVec 32 := 63 <<< 8

def ofpfwNwDstMask : BitVec 32 := 63 <<< 14

def remoteWildcards (fastWildcards : BitVec 32) : BitVec 32 :=
  fastWildcards &&& ~~~ofpfwInPort &&& ~~~ofpfwDlVlan &&& ~~~ofpfwDlSrc &&& ~~~ofpfwDlDst &&&
    ~~~ofpfwAll

def learnedWildcards (fastWildcards : BitVec 32) : BitVec 32 :=
  fastWildcards &&& ~~~ofpfwInPort &&& ~~~ofpfwDlVlan &&& ~~~ofpfwDlSrc &&& ~~~ofpfwDlDst &&&
    ~~~ofpfwNwSrcMask &&& ~~~ofpfwNwDstMask

def OFMatch.reversed (ofMatch : OFMatch) : OFMatch :=
  { ofMatch with
    dataLayerSource := ofMatch.dataLayerDestination
    dataLayerDestination := ofMatch.dataLayerSource
    networkSource := ofMatch.networkDestination
    networkDestination := ofMatch.networkSource
    transportSource := ofMatch.transportDestination
    transportDestination := ofMatch.transportSource }

def dcmReverseFlow : Bool := true

section Handler

variable {σ : Type*} [DecidableEq σ]

def forwardRemote (levels : LogLevels) (sw : IofSwitch σ) (pi : OFPacketIn) (ofMatch : OFMatch)
    (remote : PortIpPair) (dcm : Dcm σ) : PacketInResult σ :=
  match sw.fastWildcards with
  | none => ⟨[], dcm, .error .nullPointer⟩
  | some fastWildcards =>
    let ofMatch := { ofMatch with wildcards := remoteWildcards fastWildcards }
    ⟨(pushPacketRemote levels.debug sw.buffers 0 pi remote.port remote.ip).toList ++
        [writeFlowModRemote 0 ofpfcAdd bufferIdNone ofMatch remote.port remote.ip],
      dcm, .ok .continue⟩

def forwardLearned (levels : LogLevels) (sw : IofSwitch σ) (pi : OFPacketIn) (ofMatch : OFMatch)
    (outPort : BitVec 16) (dcm : Dcm σ) : PacketInResult σ :=
  match sw.fastWildcards with
  | none => ⟨[], dcm, .error .nullPointer⟩
  | some fastWildcards =>
    let ofMatch := { ofMatch with wildcards := learnedWildcards fastWildcards }
    ⟨(pushPacket levels.debug sw.buffers 0 pi outPort).toList ++
        writeFlowMod 0 ofpfcAdd bufferIdNone ofMatch outPort ::
          if dcmReverseFlow then
            [writeFlowMod 0 ofpfcAdd 0xffffffff { ofMatch.reversed with inputPort := outPort }
              ofMatch.inputPort]
          else [],
      dcm, .ok .continue⟩

def IsReserved (destMac : BitVec 64) : Prop := destMac &&& 0xfffffffffff0 = 0x0180c2000000

instance (destMac : BitVec 64) : Decidable (IsReserved destMac) := inferInstanceAs (Decidable (_ = _))

/-- The tables after the sender of a packet has been learned, unless it is a group address. -/
def learn (sw : IofSwitch σ) (pi : OFPacketIn) (ofMatch : OFMatch) (dcm : Dcm σ) : Dcm σ :=
  let sourceMac := macToLong ofMatch.dataLayerSource
  if sourceMac &&& 0x010000000000 = 0 then
    dcm.addToPortMap sw.object sourceMac ofMatch.dataLayerVirtualLan pi.inPort
  else dcm

def forward (levels : LogLevels) (sw : IofSwitch σ) (pi : OFPacketIn) (ofMatch : OFMatch)
    (dcm : Dcm σ) : PacketInResult σ :=
  let destMac := macToLong ofMatch.dataLayerDestination
  let vlan := ofMatch.dataLayerVirtualLan
  if IsReserved destMac then ⟨[], dcm, .ok .stop⟩
  else
    let found := (learn sw pi ofMatch dcm).getFromPortMap sw.object destMac vlan
    match found.1 with
    | none =>
      let remote := found.2.getFromPortIpMap sw.stringId destMac vlan
      match remote.1 with
      | some pair => forwardRemote levels sw pi ofMatch pair remote.2
      | none => ⟨[writePacketOutForPacketIn 0 pi ofppFlood], remote.2, .ok .continue⟩
    | some outPort =>
      if outPort = ofMatch.inputPort then ⟨[], found.2, .ok .continue⟩
      else forwardLearned levels sw pi ofMatch outPort found.2

def processPacketInMessage (levels : LogLevels) (sw : IofSwitch σ) (pi : OFPacketIn)
    (dcm : Dcm σ) : PacketInResult σ :=
  match newOFMatch.loadFromPacket pi.packetData pi.inPort with
  | .error cause => ⟨[], dcm, .error (.buffer cause)⟩
  | .ok ofMatch => forward levels sw pi ofMatch dcm

end Handler

def OFActionArgs.outPort : OFActionArgs → Option (BitVec 16)
  | output port _ | remote port _ | opaqueEnqueue port _ => some port
  | _ => none

def GoesBack (inPort outPort : BitVec 16) : Prop :=
  outPort = inPort ∧ outPort ≠ ofppFlood ∨ outPort = ofppInPort

instance (inPort outPort : BitVec 16) : Decidable (GoesBack inPort outPort) :=
  inferInstanceAs (Decidable (_ ∨ _))

/-- A packet message sends the packet back to the port that it came from. -/
def SendsBack (pi : OFPacketIn) (message : OFMessage) : Prop :=
  ∃ packet : OFPacketActions,
    (message.body = .packetOut packet ∨ message.body = .packetRemote packet) ∧
      ∃ action ∈ packet.actions, ∃ port ∈ action.args.outPort, GoesBack pi.inPort port

/-- Messages that are the same for all log levels, and of which none sends the packet back. -/
def LogNeutral (pi : OFPacketIn) (messages : LogLevels → List OFMessage) : Prop :=
  (∀ levels others, messages levels = messages others) ∧
    ∀ levels, ∀ message ∈ messages levels, ¬ SendsBack pi message

theorem LogNeutral.of_eq {pi : OFPacketIn} {messages : LogLevels → List OFMessage}
    {written : List OFMessage} (same : ∀ levels, messages levels = written) :
    LogNeutral pi messages ↔ ∀ message ∈ written, ¬ SendsBack pi message := by
  constructor
  · exact fun neutral message member => neutral.2 ⟨true, true⟩ message (same _ ▸ member)
  · exact fun none_ => ⟨fun levels others => (same levels).trans (same others).symm,
      fun levels message member => none_ message (same levels ▸ member)⟩

theorem sendsBack_iff {pi : OFPacketIn} {message : OFMessage} {action : OFAction} {port : BitVec 16}
    {bufferId : BitVec 32} (outPort : action.args.outPort = some port)
    (body : message.body = .packetOut (packetActionsOf action bufferId pi) ∨
      message.body = .packetRemote (packetActionsOf action bufferId pi)) :
    SendsBack pi message ↔ GoesBack pi.inPort port := by
  constructor
  · rintro ⟨packet, same, other, member, otherPort, isPort, back⟩
    have isPacket : packet = packetActionsOf action bufferId pi := by
      obtain out | remote := body
      · rw [out] at same
        simpa [eq_comm] using same
      · rw [remote] at same
        simpa [eq_comm] using same
    rw [isPacket] at member
    obtain rfl := List.mem_singleton.mp member
    rw [outPort] at isPort
    obtain rfl := Option.some.inj isPort
    exact back
  · exact fun back => ⟨_, body, action, List.mem_singleton.mpr rfl, port, outPort, back⟩

theorem not_sendsBack_flowMod {pi : OFPacketIn} {message : OFMessage} {flowMod : OFFlowMod}
    (body : message.body = .flowMod flowMod) : ¬ SendsBack pi message := by
  rintro ⟨packet, out | remote, -⟩
  · rw [body] at out
    cases out
  · rw [body] at remote
    cases remote

section Neutral

variable {σ : Type*} (sw : IofSwitch σ) (pi : OFPacketIn) (ofMatch : OFMatch)
  (dcm : Dcm σ)

theorem logNeutral_forwardRemote_iff (remote : PortIpPair) :
    LogNeutral pi (fun levels => (forwardRemote levels sw pi ofMatch remote dcm).messages) ↔
      (sw.fastWildcards.isSome → remote.port ≠ pi.inPort ∧ remote.port ≠ ofppInPort) := by
  cases known : sw.fastWildcards with
  | none =>
    rw [LogNeutral.of_eq fun levels => by rw [forwardRemote, known]]
    simp
  | some fastWildcards =>
    simp only [Option.isSome_some, forall_const]
    by_cases same : remote.port = pi.inPort
    · refine iff_of_false (fun neutral => ?_) fun differ => differ.1 same
      have lengths := congrArg List.length (neutral.1 ⟨true, true⟩ ⟨false, true⟩)
      simp [forwardRemote, known, pushPacketRemote, same] at lengths
    · set entry : OFMessage := writeFlowModRemote 0 ofpfcAdd bufferIdNone
        { ofMatch with wildcards := remoteWildcards fastWildcards } remote.port remote.ip
      obtain ⟨packet, written, back⟩ : ∃ packet : OFMessage,
          (∀ levels : LogLevels, pushPacketRemote levels.debug sw.buffers 0 pi remote.port
            remote.ip = some packet) ∧
            (SendsBack pi packet ↔ GoesBack pi.inPort remote.port) :=
        ⟨_, fun levels => if_neg fun both => same both.1.symm,
          @sendsBack_iff pi _ (newOFActionRemote remote.port remote.ip) remote.port
            (pushedBufferId sw.buffers pi) rfl (.inr rfl)⟩
      have messages : ∀ levels : LogLevels,
          (forwardRemote levels sw pi ofMatch remote dcm).messages = [packet, entry] := by
        intro levels
        rw [forwardRemote, known, written levels]
        rfl
      have entryBody : ¬ SendsBack pi entry := not_sendsBack_flowMod rfl
      rw [LogNeutral.of_eq messages]
      simp [back, entryBody, GoesBack, same]

theorem logNeutral_forwardLearned_iff {outPort : BitVec 16} (differs : outPort ≠ pi.inPort) :
    LogNeutral pi (fun levels => (forwardLearned levels sw pi ofMatch outPort dcm).messages) ↔
      (sw.fastWildcards.isSome → outPort ≠ ofppInPort) := by
  cases known : sw.fastWildcards with
  | none =>
    rw [LogNeutral.of_eq fun levels => by rw [forwardLearned, known]]
    simp
  | some fastWildcards =>
    simp only [Option.isSome_some, forall_const]
    set ofMatch' : OFMatch := { ofMatch with wildcards := learnedWildcards fastWildcards }
    set entry : OFMessage := writeFlowMod 0 ofpfcAdd bufferIdNone ofMatch' outPort
    set reverse : OFMessage := writeFlowMod 0 ofpfcAdd 0xffffffff
      { ofMatch'.reversed with inputPort := outPort } ofMatch'.inputPort
    obtain ⟨packet, written, back⟩ : ∃ packet : OFMessage,
        (∀ levels : LogLevels, pushPacket levels.debug sw.buffers 0 pi outPort = some packet) ∧
          (SendsBack pi packet ↔ GoesBack pi.inPort outPort) :=
      ⟨_, fun levels => if_neg fun both => differs both.1.symm, sendsBack_iff rfl (.inl rfl)⟩
    have messages : ∀ levels : LogLevels,
        (forwardLearned levels sw pi ofMatch outPort dcm).messages = [packet, entry, reverse] := by
      intro levels
      rw [forwardLearned, known, written levels]
      rfl
    have entryBody : ¬ SendsBack pi entry := not_sendsBack_flowMod rfl
    have reverseBody : ¬ SendsBack pi reverse := not_sendsBack_flowMod rfl
    rw [LogNeutral.of_eq messages]
    simp [back, entryBody, reverseBody, GoesBack, differs]

variable [DecidableEq σ]

def located : Option (BitVec 16) × Option PortIpPair :=
  let destMac := macToLong ofMatch.dataLayerDestination
  let found := (learn sw pi ofMatch dcm).getFromPortMap sw.object destMac ofMatch.dataLayerVirtualLan
  (found.1, (found.2.getFromPortIpMap sw.stringId destMac ofMatch.dataLayerVirtualLan).1)

def NotBack : Prop :=
  ¬ IsReserved (macToLong ofMatch.dataLayerDestination) → sw.fastWildcards.isSome →
    (∀ outPort, (located sw pi ofMatch dcm).1 = some outPort → outPort ≠ pi.inPort →
      outPort ≠ ofppInPort) ∧
    ∀ remote, located sw pi ofMatch dcm = (none, some remote) →
      remote.port ≠ pi.inPort ∧ remote.port ≠ ofppInPort

variable {ofMatch} in
theorem logNeutral_forward_iff (loaded : ofMatch.inputPort = pi.inPort) :
    LogNeutral pi (fun levels => (forward levels sw pi ofMatch dcm).messages) ↔
      NotBack sw pi ofMatch dcm := by
  unfold NotBack forward located
  by_cases reserved : IsReserved (macToLong ofMatch.dataLayerDestination)
  · simp only [if_pos reserved]
    rw [LogNeutral.of_eq fun _ => rfl]
    simp [reserved]
  · simp only [reserved, if_false, not_false_eq_true, forall_const, loaded]
    generalize (learn sw pi ofMatch dcm).getFromPortMap sw.object
      (macToLong ofMatch.dataLayerDestination) ofMatch.dataLayerVirtualLan = found
    obtain ⟨outPort, dcm⟩ := found
    cases outPort with
    | none =>
      generalize dcm.getFromPortIpMap sw.stringId (macToLong ofMatch.dataLayerDestination)
        ofMatch.dataLayerVirtualLan = found
      obtain ⟨remote, dcm⟩ := found
      cases remote with
      | none =>
        have flood : ¬ SendsBack pi (writePacketOutForPacketIn 0 pi ofppFlood) := by
          rw [sendsBack_iff rfl (.inl rfl)]
          simp [GoesBack, ofppFlood, ofppInPort]
        rw [LogNeutral.of_eq fun _ => rfl]
        refine iff_of_true (fun message member => ?_) (by simp)
        rwa [List.mem_singleton.mp member]
      | some remote =>
        change LogNeutral pi (fun levels =>
          (forwardRemote levels sw pi ofMatch remote dcm).messages) ↔ _
        rw [logNeutral_forwardRemote_iff]
        simp
    | some outPort =>
      by_cases same : outPort = pi.inPort
      · simp only [same, if_true]
        rw [LogNeutral.of_eq fun _ => rfl]
        simp
      · simp only [same, if_false, logNeutral_forwardLearned_iff sw pi ofMatch dcm same]
        simp [same]

variable {sw pi dcm} in
/-- The messages that are written do not depend on the log levels, and none of them sends the packet
back, exactly if the tables do not send it back. -/
theorem processPacketInMessage_logNeutral_iff :
    LogNeutral pi (fun levels => (processPacketInMessage levels sw pi dcm).messages) ↔
      ∀ ofMatch, newOFMatch.loadFromPacket pi.packetData pi.inPort = .ok ofMatch →
        NotBack sw pi ofMatch dcm := by
  cases load : newOFMatch.loadFromPacket pi.packetData pi.inPort with
  | error cause =>
    simp only [processPacketInMessage, load]
    rw [LogNeutral.of_eq fun _ => rfl]
    simp
  | ok ofMatch =>
    simp only [processPacketInMessage, load]
    rw [logNeutral_forward_iff sw pi dcm (newOFMatch.inputPort_of_loadFromPacket load)]
    simp

end Neutral

def sampleSwitch : IofSwitch Nat := ⟨1, "00:01", 0, some ofpfwAll⟩

/-- A frame of an unknown type from one host to another, received on port 5. -/
def framePacketIn : OFPacketIn where
  bufferId := bufferIdNone
  totalLength := 14
  inPort := 5
  reason := .noMatch
  packetData := [2, 0, 0, 0, 0, 2, 2, 0, 0, 0, 0, 1, 0x88, 0xb5]

def sampleTables : Dcm Nat := Dcm.init.addToPortIpMap "00:01" 0x020000000002 0xffff 5 0xc0a80001

/-- With the debug level the packet is dropped, and without it the packet goes back; the entry that
sends all later packets back is written in both cases. -/
theorem not_processPacketInMessage_logNeutral :
    (processPacketInMessage ⟨true, false⟩ sampleSwitch framePacketIn sampleTables).messages.length =
        1 ∧
      (processPacketInMessage ⟨false, false⟩ sampleSwitch framePacketIn
        sampleTables).messages.length = 2 ∧
      ∃ message ∈ (processPacketInMessage ⟨false, false⟩ sampleSwitch framePacketIn
        sampleTables).messages, SendsBack framePacketIn message := by
  refine ⟨by decide +kernel, by decide +kernel, _, List.mem_cons_self, ?_⟩
  exact (@sendsBack_iff framePacketIn _ (newOFActionRemote 5 0xc0a80001) 5 bufferIdNone rfl
    (.inr rfl)).mpr (by decide)

end Controller
end LazyCtrl
