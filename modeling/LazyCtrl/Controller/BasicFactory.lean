import LazyCtrl.Controller.Codec
import LazyCtrl.Lib.Segments

/-!
# Parsing a stream of messages

`BasicFactory.parseMessage`, called with what it left over and the next bytes that arrived.  The
theorem at the end says for which messages the stream that `writeTo` produces is parsed into the
same messages, however it is cut.
-/

namespace LazyCtrl.Controller

open Bytes Reading Segments

section Parser

variable (readOther : OFType → Parser Unit)

def parseMessageBody : Parser (Option OFMessage) := do
  if (← readable) < 8 then return none
  else
    setMark
    let demux ← readHeader
    reset
    if (← readable) < demux.2.length.toNat then return none
    else
      match demux.1 with
      | none => throw .nullPointer
      | some type =>
        let message ← OFMessage.readFrom readOther type
        return some message

def parseMessageOne : Parser (Option OFMessage) :=
  tryCatch (parseMessageBody readOther) fun cause => do
    reset
    throw (.messageParse cause)

def parseMessageLoop : Nat → Parser (List OFMessage)
  | 0 => return []
  | turns + 1 => do
      if (← readable) < 8 then return []
      else
        setMark
        match ← parseMessageOne readOther with
        | none => do
            reset
            return []
        | some message =>
          let messages ← parseMessageLoop turns
          return message :: messages

def parseMessage : Parser (Option (List OFMessage)) := do
  let turns ← readable
  let messages ← parseMessageLoop readOther turns
  return if messages = [] then none else some messages

def parse (bytes : List (BitVec 8)) : Except JavaException (List OFMessage × List (BitVec 8)) :=
  match parseMessage readOther (.ofList bytes) with
  | .ok messages buffer => .ok (messages.getD [], buffer.unread)
  | .error exception _ => .error exception

end Parser

theorem takes_readBytes {bytes : List (BitVec 8)} {n : Nat} (length : bytes.length = n) :
    Takes (readBytes n) bytes bytes := by
  subst length
  exact takes_read _ bytes

theorem takes_readByte (x : BitVec 8) : Takes readByte [x] x :=
  (takes_readBytes rfl).bind_pure fun bytes => u8 bytes 0

theorem takes_readShort (x : BitVec 16) : Takes readShort (put16 x) x := by
  have takes := (takes_readBytes (length_put16 x)).bind_pure fun bytes => be16 bytes 0
  rwa [be16_put16_end] at takes

theorem takes_readInt (x : BitVec 32) : Takes readInt (put32 x) x := by
  have takes := (takes_readBytes (length_put32 x)).bind_pure fun bytes => be32 bytes 0
  have back := be32_put32_append [] x
  rw [List.append_nil] at back
  rwa [back] at takes

theorem takes_readLong (x : BitVec 64) : Takes readLong (put64 x) x := by
  have takes := (takes_readBytes (length_put64 x)).bind_pure fun bytes => be64 bytes 0
  have back := be64_put64_append [] x
  rw [List.append_nil] at back
  rwa [back] at takes

theorem takes_readNewBytes {bytes : List (BitVec 8)} {length : Int}
    (lengthEq : length = bytes.length) : Takes (readNewBytes length) bytes bytes := by
  subst lengthEq
  rw [readNewBytes, if_neg (by omega), Int.toNat_natCast]
  exact takes_readBytes rfl

theorem takes_elementAt {α : Type} {array : List α} {i : Int} {element : α} (positive : 0 ≤ i)
    (found : array[i.toNat]? = some element) : Takes (elementAt array i) [] element := by
  rw [elementAt, if_neg (by omega), found]
  exact .pure element

theorem takes_ofMatch {ofMatch : OFMatch} (addresses : ofMatch.HasAddresses) :
    Takes OFMatch.readFrom ofMatch.writeTo ofMatch := by
  refine (takes_readInt _).bind ((takes_readShort _).bind ?_)
  refine (takes_readBytes addresses.1).bind ((takes_readBytes addresses.2).bind ?_)
  refine (takes_readShort _).bind ((takes_readByte _).bind ((takes_readByte _).bind ?_))
  refine (takes_readShort _).bind ((takes_readByte _).bind ((takes_readByte _).bind ?_))
  refine (takes_readByte _).bind ((takes_readByte _).bind ?_)
  refine (takes_readInt _).bind ((takes_readInt _).bind ((takes_readShort _).bind ?_))
  exact (takes_readShort _).bind_pure _

def OFActionArgs.HasAddress : OFActionArgs → Prop
  | .setDlSrc dataLayerAddress | .setDlDst dataLayerAddress => dataLayerAddress.length = 6
  | _ => True

def OFAction.StatesLength (action : OFAction) : Prop :=
  action.length.toNat = action.writeTo.length

theorem takes_readActionHeader (type : OFActionType) (length : BitVec 16) :
    Takes readActionHeader (put16 type.getTypeValue ++ put16 length) (some type, length) := by
  have found : Takes (OFActionType.valueOf type.getTypeValue) [] (some type) := by
    cases type <;> exact takes_elementAt (by decide) rfl
  exact (takes_readShort _).bind (found.bind_nil ((takes_readShort _).bind_pure _))

theorem takes_actionArgs {args : OFActionArgs} (address : args.HasAddress) :
    Takes (OFActionArgs.readFrom args.getType) args.writeTo args := by
  cases args with
  | output => exact (takes_readShort _).bind ((takes_readShort _).bind_pure _)
  | setVlanId => exact (takes_readShort _).bind ((takes_readShort _).bind_pure fun _ => _)
  | setVlanPcp | setNwTos =>
    exact (takes_readByte _).bind ((takes_readShort _).bind ((takes_readByte _).bind_pure fun _ => _))
  | stripVlan => exact (takes_readInt _).bind_pure fun _ => _
  | setDlSrc | setDlDst =>
    refine Takes.bind_pure ?_ _
    exact (takes_readBytes address).bind ((takes_readInt _).bind
      ((takes_readShort _).bind_pure fun _ => _))
  | setNwSrc | setNwDst | vendor => exact (takes_readInt _).bind_pure _
  | setTpSrc | setTpDst =>
    refine Takes.bind_pure ?_ _
    exact (takes_readShort _).bind ((takes_readShort _).bind_pure fun _ => _)
  | opaqueEnqueue | remote =>
    exact (takes_readShort _).bind ((takes_readShort _).bind ((takes_readInt _).bind
      ((takes_readInt _).bind_pure _)))

theorem takes_action {action : OFAction} (address : action.args.HasAddress) :
    Takes (OFAction.readFrom action.args.getType) action.writeTo action := by
  rw [OFAction.writeTo, ← List.append_assoc]
  exact (takes_readActionHeader _ _).bind ((takes_actionArgs address).bind_pure _)

theorem parseActionsLoop_writeActions {actions : List OFAction}
    (good : ∀ action ∈ actions, action.StatesLength ∧ action.args.HasAddress)
    {buffer : Buffer (BitVec 8)} {rest : List (BitVec 8)} {turns : Nat} (size : Nat)
    (unread : buffer.unread = writeActions actions ++ rest) (enough : actions.length ≤ turns) :
    ∃ after, parseActionsLoop 0 (buffer.index + (writeActions actions).length) turns size buffer =
        .ok actions after ∧ after.elements = buffer.elements ∧
      after.index = buffer.index + (writeActions actions).length := by
  induction actions generalizing buffer turns size with
  | nil =>
    refine ⟨buffer, ?_, rfl, rfl⟩
    cases turns with
    | zero => rfl
    | succ turns =>
      rw [parseActionsLoop, if_neg (by simp)]
      simp [writeActions]
  | cons action actions ih =>
    rw [List.forall_mem_cons] at good
    obtain ⟨turns, rfl⟩ : ∃ more, turns = more + 1 := ⟨turns - 1, by simp at enough; omega⟩
    have stated : action.length.toNat = action.writeTo.length := good.1.1
    have split : writeActions (action :: actions) = action.writeTo ++ writeActions actions := rfl
    rw [split, List.append_assoc] at unread
    have header : buffer.unread = (put16 action.args.getType.getTypeValue ++
        put16 action.length) ++ (action.args.writeTo ++ (writeActions actions ++ rest)) := by
      rw [unread, OFAction.writeTo]
      simp only [List.append_assoc]
    have long : 4 ≤ action.writeTo.length := by
      rw [OFAction.writeTo, ← List.append_assoc, List.length_append]
      exact Nat.le_add_right 4 _
    have room := Buffer.readable_eq unread
    have next : (buffer.setMark.advance action.writeTo.length).index =
        buffer.index + action.writeTo.length := Buffer.index_advance unread
    have behind : (buffer.setMark.advance action.writeTo.length).unread =
        writeActions actions ++ rest := Buffer.unread_advance unread
    obtain ⟨after, looped, elements, index⟩ := ih good.2 (size + 1) behind (by simpa using enough)
    rw [next, Nat.add_assoc, ← List.length_append, ← split] at looped index
    refine ⟨after, ?_, elements, index⟩
    rw [parseActionsLoop, if_neg (by simp), readable_bind, index_bind, if_neg,
      peek_eq (takes_readActionHeader _ _) header, readable_bind, index_bind, if_neg]
    · change (OFAction.readFrom action.args.getType >>= _) buffer.setMark = _
      rw [bind_eq_of_ok (takes_action good.1.2 buffer.setMark _ unread), bind_eq_of_ok looped]
      rfl
    · rw [stated, split, List.length_append]
      simp only [Buffer.readable_setMark, Buffer.index_setMark]
      omega
    · rw [split, List.length_append]
      omega

theorem length_le_length_writeActions (actions : List OFAction) :
    actions.length ≤ (writeActions actions).length := by
  induction actions with
  | nil => exact Nat.le_refl 0
  | cons action actions ih =>
    have split : writeActions (action :: actions) = action.writeTo ++ writeActions actions := rfl
    rw [split, List.length_append, OFAction.writeTo, List.length_append, List.length_cons,
      length_put16]
    omega

theorem reads_parseActions {actions : List OFAction}
    (good : ∀ action ∈ actions, action.StatesLength ∧ action.args.HasAddress) {length : Int}
    (lengthEq : length = (writeActions actions).length) :
    Reads (parseActions length 0) (writeActions actions) actions := fun buffer rest unread => by
  have enough := length_le_length_writeActions actions
  have room := Buffer.readable_eq unread
  have stop : ((buffer.index : Int) + length).toNat =
      buffer.index + (writeActions actions).length := by
    rw [lengthEq]
    omega
  obtain ⟨after, looped, elements, index⟩ :=
    @parseActionsLoop_writeActions actions good buffer rest buffer.readable 0 unread (by omega)
  refine ⟨after, ?_, elements, index⟩
  rw [parseActions, index_bind, readable_bind, stop, looped]

def OFMessage.StatesLengths (message : OFMessage) : Prop :=
  (∀ bytes, message.writeTo = some bytes → message.header.length.toNat = bytes.length) ∧
  match message.body with
  | .packetOut packet | .packetRemote packet =>
    packet.actionsLength.toNat = (writeActions packet.actions).length ∧
      ∀ action ∈ packet.actions, action.StatesLength
  | .flowMod flowMod => ∀ action ∈ flowMod.actions.getD [], action.StatesLength
  | _ => True

/-- The message has the form that the parser gives to its messages: data that is missing is an empty
array in some classes and null in the others, the flag for texts follows from the type of the error,
and all addresses have six bytes. -/
def OFBody.IsCanonical : OFBody → Prop
  | .error message =>
    message.error ≠ some [] ∧
      (message.errorIsAscii ↔ message.error.isSome ∧ message.errorType = 0)
  | .echoRequest message => message.payload ≠ some []
  | .packetIn _ => True
  | .flowRemoved message => message.ofMatch.HasAddresses
  | .packetOut message | .packetRemote message =>
    message.packetData.isSome ∧ ∀ action ∈ message.actions, action.args.HasAddress
  | .flowMod message =>
    message.ofMatch.HasAddresses ∧
      ∃ actions, message.actions = some actions ∧ ∀ action ∈ actions, action.args.HasAddress
  | .other _ => True

theorem takes_readHeader (type : OFType) (header : OFHeader) :
    Takes readHeader (header.writeTo type) (some type, header) := by
  have found : Takes (OFType.valueOf type.getTypeValue) [] (some type) := by
    cases type <;> exact takes_elementAt (by decide) rfl
  exact (takes_readByte _).bind ((takes_readByte _).bind (found.bind_nil
    ((takes_readShort _).bind ((takes_readInt _).bind_pure _))))

theorem takes_readData {data : Option (List (BitVec 8))} (filled : data ≠ some []) {length : Int}
    (lengthEq : length = (data.getD []).length) : Takes (readData length) (data.getD []) data := by
  cases data with
  | none =>
    rw [readData, if_neg (by simpa using lengthEq.le)]
    exact .pure none
  | some bytes =>
    have positive : 0 < bytes.length := by
      rw [List.length_pos_iff]
      rintro rfl
      exact filled rfl
    rw [Option.getD_some] at lengthEq ⊢
    rw [readData, if_pos (by omega)]
    exact (takes_readNewBytes lengthEq).bind_pure _

theorem takes_error {message : OFError} {length : BitVec 16}
    (canonical : (OFBody.error message).IsCanonical)
    (lengthEq : length.toNat = 8 + message.writeTo.length) :
    Takes (OFError.readFrom length) message.writeTo message := by
  obtain ⟨errorType, errorCode, error, errorIsAscii⟩ := message
  obtain ⟨filled, ascii⟩ := canonical
  dsimp only at filled ascii
  obtain rfl : errorIsAscii = (error.isSome && errorType = 0) := by
    rw [Bool.eq_iff_iff, ascii]
    simp
  have data : ((length.toNat : Int) - 12) = (error.getD []).length := by
    simp [OFError.writeTo] at lengthEq
    omega
  exact (takes_readShort _).bind ((takes_readShort _).bind ((takes_readData filled data).bind_pure _))

theorem takes_echoRequest {message : OFEchoRequest} {length : BitVec 16}
    (canonical : (OFBody.echoRequest message).IsCanonical)
    (lengthEq : length.toNat = 8 + message.writeTo.length) :
    Takes (OFEchoRequest.readFrom length) message.writeTo message := by
  refine (takes_readData canonical ?_).bind_pure _
  rw [lengthEq, OFEchoRequest.writeTo]
  omega

theorem takes_packetIn {message : OFPacketIn} {length : BitVec 16}
    (lengthEq : length.toNat = 8 + message.writeTo.length) :
    Takes (OFPacketIn.readFrom length) message.writeTo message := by
  have data : ((length.toNat : Int) - 18) = message.packetData.length := by
    simp [OFPacketIn.writeTo] at lengthEq
    omega
  have found : Takes (elementAt [.noMatch, .action] (message.reason.ordinal.toNat : Int)) []
      message.reason := by
    cases message.reason <;> exact takes_elementAt (by decide) rfl
  exact (takes_readInt _).bind ((takes_readShort _).bind ((takes_readShort _).bind
    ((takes_readByte _).bind (found.bind_nil ((takes_readByte _).bind
      ((takes_readNewBytes data).bind_pure _))))))

theorem takes_flowRemoved {message : OFFlowRemoved} (addresses : message.ofMatch.HasAddresses) :
    Takes OFFlowRemoved.readFrom message.writeTo message := by
  have found : Takes (elementAt [.ofprrIdleTimeout, .ofprrHardTimeout, .ofprrDelete]
      (message.reason.ordinal.toNat : Int)) [] message.reason := by
    cases message.reason <;> exact takes_elementAt (by decide) rfl
  refine (takes_ofMatch addresses).bind ((takes_readLong _).bind ((takes_readShort _).bind ?_))
  refine (takes_readByte _).bind (found.bind_nil ((takes_readByte _).bind ?_))
  refine (takes_readInt _).bind ((takes_readInt _).bind ((takes_readShort _).bind ?_))
  refine (takes_readByte _).bind ((takes_readByte _).bind ((takes_readLong _).bind ?_))
  exact (takes_readLong _).bind_pure _

theorem reads_packetActions {message : OFPacketActions} {length : BitVec 16}
    (good : ∀ action ∈ message.actions, action.StatesLength ∧ action.args.HasAddress)
    (actionsLengthEq : message.actionsLength.toNat = (writeActions message.actions).length)
    (present : message.packetData.isSome) (valid : message.validate)
    (lengthEq : length.toNat = 8 + message.writeTo.length) :
    Reads (OFPacketActions.readFrom length) message.writeTo message := by
  obtain ⟨bufferId, inPort, actionsLength, actions, packetData⟩ := message
  obtain ⟨data, rfl⟩ := Option.isSome_iff_exists.mp present
  dsimp only at good actionsLengthEq
  have dataLength : ((length.toNat : Int) - 16 - actionsLength.toNat) = data.length := by
    simp [OFPacketActions.writeTo] at lengthEq
    omega
  refine (takes_readInt _).bind_reads ((takes_readShort _).bind_reads
    ((takes_readShort _).bind_reads ?_))
  refine (reads_parseActions good (by rw [actionsLengthEq])).bind ?_
  refine ((takes_readNewBytes dataLength).bind_end ?_).reads
  rw [if_pos valid]
  exact .pure _

theorem reads_flowMod {message : OFFlowMod} {length : BitVec 16} {actions : List OFAction}
    (good : ∀ action ∈ actions, action.StatesLength ∧ action.args.HasAddress)
    (present : message.actions = some actions) (addresses : message.ofMatch.HasAddresses)
    (lengthEq : length.toNat = 8 + message.writeTo.length) :
    Reads (OFFlowMod.readFrom length) message.writeTo message := by
  obtain ⟨ofMatch, cookie, command, idleTimeout, hardTimeout, priority, bufferId, outPort, flags,
    _⟩ := message
  dsimp only at present addresses
  subst present
  have actionsLength : ((length.toNat : Int) - 72) = (writeActions actions).length := by
    simp [OFFlowMod.writeTo, OFMatch.writeTo, addresses.1, addresses.2] at lengthEq
    omega
  refine (takes_ofMatch addresses).bind_reads ((takes_readLong _).bind_reads ?_)
  refine (takes_readShort _).bind_reads ((takes_readShort _).bind_reads ?_)
  refine (takes_readShort _).bind_reads ((takes_readShort _).bind_reads ?_)
  refine (takes_readInt _).bind_reads ((takes_readShort _).bind_reads ?_)
  exact (takes_readShort _).bind_reads ((reads_parseActions good actionsLength).bind_pure _)

theorem reads_message (readOther : OFType → Parser Unit) {message : OFMessage}
    {bytes : List (BitVec 8)} (written : message.writeTo = some bytes)
    (stated : message.StatesLengths) (canonical : message.body.IsCanonical) :
    Reads (OFMessage.readFrom readOther message.body.getType) bytes message := by
  obtain ⟨header, body⟩ := message
  obtain ⟨lengthEq, lengths⟩ := stated
  have lengthEq := lengthEq bytes written
  obtain ⟨rest, bodyWritten, rfl⟩ := Option.map_eq_some_iff.mp written
  dsimp only at bodyWritten lengths canonical ⊢
  have restLength : header.length.toNat = 8 + rest.length := by
    rw [lengthEq, List.length_append]
    rfl
  have reads : Reads (OFBody.readFrom readOther header.length body.getType) rest body := by
    cases body with
    | error body =>
      obtain rfl := Option.some.inj bodyWritten
      exact ((takes_error canonical restLength).bind_pure _).reads
    | echoRequest body =>
      obtain rfl := Option.some.inj bodyWritten
      exact ((takes_echoRequest canonical restLength).bind_pure _).reads
    | packetIn body =>
      obtain rfl := Option.some.inj bodyWritten
      exact ((takes_packetIn restLength).bind_pure _).reads
    | flowRemoved body =>
      obtain rfl := Option.some.inj bodyWritten
      exact ((takes_flowRemoved canonical).bind_pure _).reads
    | packetOut body | packetRemote body =>
      obtain ⟨valid, bodyWritten⟩ := Option.ite_none_right_eq_some.mp bodyWritten
      obtain rfl := Option.some.inj bodyWritten
      refine (reads_packetActions (fun action listed => ?_) lengths.1 canonical.1 valid
        restLength).bind_pure _
      exact ⟨lengths.2 action listed, canonical.2 action listed⟩
    | flowMod body =>
      obtain rfl := Option.some.inj bodyWritten
      obtain ⟨addresses, actions, present, complete⟩ := canonical
      refine (reads_flowMod (fun action listed => ?_) present addresses restLength).bind_pure _
      have lengths : ∀ action ∈ body.actions.getD [], action.StatesLength := lengths
      rw [present] at lengths
      exact ⟨lengths action listed, complete action listed⟩
    | other type => cases bodyWritten
  exact (takes_readHeader _ _).bind_reads (reads.bind_pure _)

section Stream

variable {readOther : OFType → Parser Unit}

def IsFrameOf (bytes : List (BitVec 8)) (message : OFMessage) : Prop :=
  message.writeTo = some bytes ∧ message.StatesLengths ∧ message.body.IsCanonical

theorem IsFrameOf.exists_header {bytes : List (BitVec 8)} {message : OFMessage}
    (isFrame : IsFrameOf bytes message) :
    message.header.length.toNat = bytes.length ∧
      ∃ rest, bytes = message.header.writeTo message.body.getType ++ rest := by
  obtain ⟨written, stated, -⟩ := isFrame
  obtain ⟨rest, -, rfl⟩ := Option.map_eq_some_iff.mp written
  exact ⟨stated.1 _ written, rest, rfl⟩

theorem IsFrameOf.long {bytes : List (BitVec 8)} {message : OFMessage}
    (isFrame : IsFrameOf bytes message) : 8 ≤ bytes.length := by
  obtain ⟨-, tail, rfl⟩ := isFrame.exists_header
  rw [List.length_append]
  exact Nat.le_add_right 8 _

theorem parseMessageOne_of_frame {bytes rest : List (BitVec 8)} {message : OFMessage}
    (isFrame : IsFrameOf bytes message) {buffer : Buffer (BitVec 8)}
    (unread : buffer.unread = bytes ++ rest) :
    ∃ after, parseMessageOne readOther buffer = .ok (some message) after ∧
      after.elements = buffer.elements ∧ after.index = buffer.index + bytes.length := by
  obtain ⟨lengthEq, tail, bytesEq⟩ := isFrame.exists_header
  have header : buffer.unread =
      message.header.writeTo message.body.getType ++ (tail ++ rest) := by
    rw [unread, bytesEq, List.append_assoc]
  have room := Buffer.readable_eq unread
  have headerRoom := Buffer.readable_eq header
  have eight : (message.header.writeTo message.body.getType).length = 8 := rfl
  obtain ⟨after, ran, elements, index⟩ :=
    reads_message readOther isFrame.1 isFrame.2.1 isFrame.2.2 buffer.setMark rest unread
  refine ⟨after, tryCatch_eq_of_ok ?_, elements, index⟩
  rw [parseMessageBody, readable_bind, if_neg (by omega), peek_eq (takes_readHeader _ _) header,
    readable_bind, if_neg]
  · change (OFMessage.readFrom readOther message.body.getType >>= _) buffer.setMark = _
    rw [bind_eq_of_ok ran]
    rfl
  · change ¬ buffer.readable < message.header.length.toNat
    omega

theorem parseMessageOne_of_part {bytes part : List (BitVec 8)} {message : OFMessage}
    (isFrame : IsFrameOf bytes message) (isPart : IsPart bytes part) {buffer : Buffer (BitVec 8)}
    (unread : buffer.unread = part) (long : 8 ≤ part.length) :
    parseMessageOne readOther buffer = .ok none buffer.setMark := by
  obtain ⟨lengthEq, tail, rfl⟩ := isFrame.exists_header
  have shorter : part.length < (message.header.writeTo message.body.getType ++ tail).length :=
    Nat.lt_of_le_of_ne isPart.1.length_le fun equal => isPart.2 (isPart.1.eq_of_length equal)
  have front : message.header.writeTo message.body.getType <+: part :=
    List.prefix_of_prefix_length_le (List.prefix_append _ _) isPart.1 long
  obtain ⟨rest, rfl⟩ := front
  have room := Buffer.readable_eq unread
  rw [List.length_append] at long
  refine tryCatch_eq_of_ok ?_
  rw [parseMessageBody, readable_bind, if_neg (by omega), peek_eq (takes_readHeader _ _) unread,
    readable_bind, if_pos]
  · rfl
  · rw [Buffer.readable_setMark, lengthEq, room, ← List.length_append]
    exact shorter

theorem parseMessageLoop_frames {frames : List (List (BitVec 8))} {messages : List OFMessage}
    (framed : List.Forall₂ IsFrameOf frames messages) {part : List (BitVec 8)}
    (isRest : IsRest IsFrameOf part) {buffer : Buffer (BitVec 8)} {turns : Nat}
    (unread : buffer.unread = frames.flatten ++ part) (enough : messages.length ≤ turns) :
    ∃ after, parseMessageLoop readOther turns buffer = .ok messages after ∧
      after.unread = part := by
  induction framed generalizing buffer turns with
  | nil =>
    cases turns with
    | zero => exact ⟨buffer, rfl, unread⟩
    | succ turns =>
      rw [parseMessageLoop, readable_bind]
      by_cases short : buffer.readable < 8
      · exact ⟨buffer, by rw [if_pos short]; rfl, unread⟩
      · rw [if_neg short, setMark_bind]
        obtain rfl | ⟨frame, message, isFrame, isPart⟩ := isRest
        · exact absurd (Buffer.readable_eq unread ▸ Nat.zero_lt_succ 7) short
        · have marked : buffer.setMark.unread = part := unread
          have long : 8 ≤ part.length := by
            rw [← marked, Buffer.length_unread, Buffer.readable_setMark]
            omega
          refine ⟨buffer.setMark.setMark.reset, ?_, unread⟩
          rw [bind_eq_of_ok (parseMessageOne_of_part isFrame isPart marked long)]
          rfl
  | @cons frame message frames messages isFrame framed ih =>
    obtain ⟨turns, rfl⟩ : ∃ more, turns = more + 1 := ⟨turns - 1, by simp at enough; omega⟩
    rw [List.flatten_cons, List.append_assoc] at unread
    have room := Buffer.readable_eq unread
    have long := isFrame.long
    have marked : buffer.setMark.unread = frame ++ (frames.flatten ++ part) := unread
    obtain ⟨middle, ran, elements, index⟩ := parseMessageOne_of_frame isFrame marked
    obtain ⟨after, looped, rest⟩ :=
      ih (Buffer.unread_of_index marked elements index) (Nat.le_of_succ_le_succ enough)
    refine ⟨after, ?_, rest⟩
    rw [parseMessageLoop, readable_bind, if_neg (by omega), setMark_bind, bind_eq_of_ok ran]
    change (parseMessageLoop readOther turns >>= _) middle = _
    rw [bind_eq_of_ok looped]
    rfl

theorem length_le_length_flatten {frames : List (List (BitVec 8))} {messages : List OFMessage}
    (framed : List.Forall₂ IsFrameOf frames messages) : messages.length ≤ frames.flatten.length := by
  induction framed with
  | nil => exact Nat.le_refl 0
  | cons isFrame _ ih =>
    have long := isFrame.long
    rw [List.flatten_cons, List.length_append, List.length_cons]
    omega

theorem drains_parse : Drains (parse readOther) IsFrameOf :=
  fun {frames messages} framed {part} isRest => by
    have enough : messages.length ≤ (frames.flatten ++ part).length := by
      have few := length_le_length_flatten framed
      rw [List.length_append]
      omega
    obtain ⟨after, looped, unread⟩ := @parseMessageLoop_frames readOther frames messages framed part
      isRest (.ofList (frames.flatten ++ part)) _ rfl enough
    rw [parse, parseMessage, readable_bind, Buffer.readable_ofList, bind_eq_of_ok looped]
    by_cases empty : messages = [] <;> simp [empty, unread]

theorem returns_ofMatch : Returns OFMatch.readFrom OFMatch.HasAddresses := by
  refine .skip fun _ => .skip fun _ => ?_
  refine (returns_read _ 6).bind fun source sourceLength => ?_
  refine (returns_read _ 6).bind fun destination destinationLength => ?_
  refine .skip fun _ => .skip fun _ => .skip fun _ => .skip fun _ => .skip fun _ => ?_
  refine .skip fun _ => .skip fun _ => .skip fun _ => .skip fun _ => .skip fun _ => ?_
  refine .skip fun _ => .skip fun _ => .pure ?_
  exact ⟨sourceLength, destinationLength⟩

theorem returns_dataLayer :
    Returns OFActionArgs.readFrom.dataLayer fun address => address.length = 6 :=
  (returns_read _ 6).bind fun _ length => .skip fun _ => .skip fun _ => .pure length

theorem returns_actionArgs (type : OFActionType) :
    Returns (OFActionArgs.readFrom type) OFActionArgs.HasAddress := by
  cases type
  case setDlSrc | setDlDst => exact returns_dataLayer.bind fun _ length => .pure (by exact length)
  all_goals repeat first | exact .pure trivial | refine .skip fun _ => ?_

theorem returns_parseActionsLoop (limit stop turns size : Nat) :
    Returns (parseActionsLoop limit stop turns size)
      fun actions => ∀ action ∈ actions, action.args.HasAddress := by
  have none : Returns (pure [] : Parser (List OFAction))
      fun actions => ∀ action ∈ actions, action.args.HasAddress := .pure (by simp)
  induction turns generalizing size with
  | zero => exact none
  | succ turns ih =>
    refine .ite none (.skip fun _ => .skip fun _ => .ite none ?_)
    refine .skip fun _ => .skip fun demux => .skip fun _ => .skip fun _ => .skip fun _ => ?_
    refine .ite none ?_
    split
    · exact .throw _
    · rename_i type _
      have action : Returns (OFAction.readFrom type) fun action => action.args.HasAddress :=
        .skip fun _ => (returns_actionArgs type).bind fun _ address => .pure address
      refine action.bind fun action address => (ih (size + 1)).bind fun actions addresses => ?_
      exact .pure (List.forall_mem_cons.mpr ⟨address, addresses⟩)

theorem returns_parseActions (length : Int) (limit : Nat) :
    Returns (parseActions length limit)
      fun actions => ∀ action ∈ actions, action.args.HasAddress :=
  .skip fun _ => .skip fun _ => returns_parseActionsLoop _ _ _ _

theorem returns_readData (length : Int) : Returns (readData length) fun data => data ≠ some [] := by
  rw [readData]
  split
  · rename_i positive
    have read : Returns (readNewBytes length) fun bytes => bytes.length = length.toNat := by
      rw [readNewBytes]
      exact .ite (.throw _) (returns_read _ _)
    refine read.bind fun bytes bytesLength => .pure ?_
    rintro ⟨rfl⟩
    rw [List.length_nil] at bytesLength
    omega
  · exact .pure (by simp)

theorem returns_packetActions (length : BitVec 16) :
    Returns (OFPacketActions.readFrom length) fun message =>
      message.packetData.isSome ∧ ∀ action ∈ message.actions, action.args.HasAddress := by
  refine .skip fun _ => .skip fun _ => .skip fun _ => ?_
  refine (returns_parseActions _ _).bind fun actions addresses => .skip fun _ => ?_
  exact .ite (.pure ⟨rfl, addresses⟩) (.throw _)

theorem returns_body (length : BitVec 16) (type : OFType) :
    Returns (OFBody.readFrom readOther length type) OFBody.IsCanonical := by
  cases type
  case error =>
    refine Returns.bind ?_ fun message canonical => .pure canonical
    refine .skip fun errorType => .skip fun _ => ?_
    refine (returns_readData _).bind fun error filled => .pure ⟨filled, ?_⟩
    simp
  case echoRequest =>
    refine Returns.bind ?_ fun message canonical => .pure canonical
    exact (returns_readData _).bind fun payload filled => .pure filled
  case packetIn => exact .skip fun _ => .pure trivial
  case flowRemoved =>
    refine Returns.bind ?_ fun message canonical => .pure canonical
    refine returns_ofMatch.bind fun ofMatch addresses => ?_
    refine .skip fun _ => .skip fun _ => .skip fun _ => .skip fun _ => .skip fun _ => ?_
    refine .skip fun _ => .skip fun _ => .skip fun _ => .skip fun _ => .skip fun _ => ?_
    exact .skip fun _ => .skip fun _ => .pure addresses
  case packetOut | packetRemote =>
    exact (returns_packetActions length).bind fun message canonical => .pure canonical
  case flowMod =>
    refine Returns.bind ?_ fun message canonical => .pure canonical
    refine returns_ofMatch.bind fun ofMatch addresses => ?_
    refine .skip fun _ => .skip fun _ => .skip fun _ => .skip fun _ => .skip fun _ => ?_
    refine .skip fun _ => .skip fun _ => .skip fun _ => ?_
    exact (returns_parseActions _ _).bind fun actions complete => .pure ⟨addresses, _, rfl, complete⟩
  all_goals exact .skip fun _ => .pure trivial

theorem returns_parseMessageOne :
    Returns (parseMessageOne readOther) fun message => ∀ found ∈ message, found.body.IsCanonical := by
  have none : Returns (pure none : Parser (Option OFMessage))
      fun message => ∀ found ∈ message, found.body.IsCanonical := .pure (by simp)
  refine .tryCatch ?_ fun _ => .skip fun _ => .throw _
  refine .skip fun _ => .ite none (.skip fun _ => .skip fun demux => .skip fun _ => .skip fun _ => ?_)
  refine .ite none ?_
  split
  · exact .throw _
  · rename_i type _
    have message : Returns (OFMessage.readFrom readOther type)
        fun message => message.body.IsCanonical :=
      .skip fun _ => (returns_body _ type).bind fun _ canonical => .pure canonical
    exact message.bind fun message canonical => .pure (by simpa using canonical)

theorem returns_parseMessageLoop (turns : Nat) :
    Returns (parseMessageLoop readOther turns)
      fun messages => ∀ message ∈ messages, message.body.IsCanonical := by
  have none : Returns (pure [] : Parser (List OFMessage))
      fun messages => ∀ message ∈ messages, message.body.IsCanonical := .pure (by simp)
  induction turns with
  | zero => exact none
  | succ turns ih =>
    refine .skip fun _ => .ite none (.skip fun _ => ?_)
    refine returns_parseMessageOne.bind fun message canonical => ?_
    split
    · exact .skip fun _ => none
    · rename_i found
      refine ih.bind fun messages others => .pure ?_
      exact List.forall_mem_cons.mpr ⟨canonical found rfl, others⟩

theorem isCanonical_of_parse {bytes rest : List (BitVec 8)} {messages : List OFMessage}
    (parsed : parse readOther bytes = .ok (messages, rest)) :
    ∀ message ∈ messages, message.body.IsCanonical := by
  have returns : Returns (parseMessage readOther)
      fun result => ∀ message ∈ result.getD [], message.body.IsCanonical := by
    refine .skip fun turns => (returns_parseMessageLoop turns).bind fun messages canonical => ?_
    refine .pure ?_
    split
    · simp
    · exact canonical
  rw [parse] at parsed
  split at parsed
  · rename_i result buffer ran
    obtain ⟨rfl, -⟩ := Prod.mk.inj (Except.ok.inj parsed)
    exact returns _ _ _ ran
  · cases parsed

/-- However the stream is cut, the calls return the messages. -/
def ParsesBack (readOther : OFType → Parser Unit) (stream : List (BitVec 8))
    (messages : List OFMessage) : Prop :=
  ∀ segments : List (List (BitVec 8)), segments.flatten = stream →
    ∃ last, feed (parse readOther) [] segments = .ok (messages, last)

/-- What `writeTo` produces for messages that state their lengths is parsed into the same messages,
however it is cut, exactly when the messages have the parser's form. -/
theorem parsesBack_iff_isCanonical {messages : List OFMessage} {wires : List (List (BitVec 8))}
    (written : List.Forall₂ (fun bytes message => message.writeTo = some bytes) wires messages)
    (stated : ∀ message ∈ messages, message.StatesLengths) :
    ParsesBack readOther wires.flatten messages ↔
      ∀ message ∈ messages, message.body.IsCanonical := by
  constructor
  · intro parses
    obtain ⟨last, fed⟩ := parses [wires.flatten] (by simp)
    exact forall_mem_of_feed isCanonical_of_parse fed
  · intro canonical segments stream
    have framed : List.Forall₂ IsFrameOf wires messages := by
      clear stream
      induction written with
      | nil => exact .nil
      | cons first _ ih =>
        rw [List.forall_mem_cons] at stated canonical
        exact .cons ⟨first, stated.1, canonical.1⟩ (ih stated.2 canonical.2)
    refine ⟨[], feed_eq drains_parse (fun frame message isFrame => ?_) framed (.inl rfl) stream⟩
    exact List.length_pos_iff.mp (Nat.lt_of_lt_of_le (Nat.zero_lt_succ 7) isFrame.long)

end Stream

def bufferedPacketOut : OFMessage :=
  ⟨⟨1, 24, 7⟩, .packetOut ⟨1, 2, 8, [⟨8, .output 3 0⟩], none⟩⟩

def parsedPacketOut : OFMessage :=
  ⟨⟨1, 24, 7⟩, .packetOut ⟨1, 2, 8, [⟨8, .output 3 0⟩], some []⟩⟩

def packetOutBytes : List (BitVec 8) :=
  [1, 13, 0, 24, 0, 0, 0, 7, 0, 0, 0, 1, 0, 2, 0, 8, 0, 0, 0, 8, 0, 3, 0, 0]

theorem statesLengths_packetOut {packetData : Option (List (BitVec 8))}
    (empty : packetData.getD [] = []) :
    (OFMessage.mk ⟨1, 24, 7⟩ (.packetOut ⟨1, 2, 8, [⟨8, .output 3 0⟩], packetData⟩)).StatesLengths := by
  refine ⟨fun bytes written => ?_, rfl, ?_⟩
  · obtain ⟨rest, bodyWritten, rfl⟩ := Option.map_eq_some_iff.mp written
    obtain ⟨-, bodyWritten⟩ := Option.ite_none_right_eq_some.mp bodyWritten
    obtain rfl := Option.some.inj bodyWritten
    rw [OFPacketActions.writeTo, empty]
    rfl
  · rintro action listed
    obtain rfl := List.mem_singleton.mp listed
    rfl

theorem parsesBack_parsedPacketOut :
    ParsesBack (fun _ => pure ()) [packetOutBytes].flatten [parsedPacketOut] := by
  refine (parsesBack_iff_isCanonical (.cons (by decide) .nil) ?_).mpr ?_
  · intro message listed
    obtain rfl := List.mem_singleton.mp listed
    exact statesLengths_packetOut rfl
  · simp [parsedPacketOut, OFBody.IsCanonical, OFActionArgs.HasAddress]

/-- Data that is null comes back as an empty array. -/
theorem not_parsesBack_bufferedPacketOut :
    bufferedPacketOut.writeTo = some packetOutBytes ∧ bufferedPacketOut.StatesLengths ∧
      parse (fun _ => pure ()) packetOutBytes = .ok ([parsedPacketOut], []) ∧
      ¬ ParsesBack (fun _ => pure ()) packetOutBytes [bufferedPacketOut] := by
  refine ⟨by decide, statesLengths_packetOut rfl, rfl, fun parses => ?_⟩
  obtain ⟨last, fed⟩ := parses [packetOutBytes] (by simp)
  have canonical := forall_mem_of_feed isCanonical_of_parse fed bufferedPacketOut (by simp)
  cases canonical.1

end LazyCtrl.Controller
