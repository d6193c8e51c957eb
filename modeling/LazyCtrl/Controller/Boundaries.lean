import LazyCtrl.Controller.BasicFactory

/-!
# Message boundaries

`parseMessageOne` leaves it to the class of a message how many bytes to read, and `parseMessage`
takes the next message from where the last one has stopped.  The theorem at the end says for which
bytes this is the end that the message states in its header.

An action is read by its class as well, whatever length it states.  So the list of actions of a
message ends where it should only if the sizes of the classes fill the room for it.
-/

namespace LazyCtrl.Controller

open Bytes Reading

def withHello (readOther : OFType → Parser Unit) : OFType → Parser Unit
  | .hello => pure ()
  | type => readOther type

def OFActionType.ofValue (i : BitVec 16) : Option OFActionType :=
  let index := if i.toInt < 0 then 16 + i.toInt else i.toInt
  if index < 0 then none else mapping[index.toNat]?.join

def OFActionType.size : OFActionType → Nat
  | setDlSrc | setDlDst | opaqueEnqueue | remote => 16
  | _ => 8

/-- The actions at the start of some bytes take up the next `n` bytes, by the sizes of their
classes, and none of them states a length that leaves these bytes. -/
inductive ActionsFill : List (BitVec 8) → Nat → Prop where
  | done (bytes : List (BitVec 8)) : ActionsFill bytes 0
  | next {bytes : List (BitVec 8)} {n : Nat} {type : OFActionType}
      (found : OFActionType.ofValue (be16 bytes 0) = some type) (stated : (be16 bytes 2).toNat ≤ n)
      (fits : type.size ≤ n) (rest : ActionsFill (bytes.drop type.size) (n - type.size)) :
      ActionsFill bytes n

def FramedAs (bytes : List (BitVec 8)) : OFType → Prop
  | .hello => (be16 bytes 2).toNat = 8
  | .error => 12 ≤ (be16 bytes 2).toNat
  | .echoRequest => 8 ≤ (be16 bytes 2).toNat
  | .flowRemoved => (be16 bytes 2).toNat = 88
  | .packetOut | .packetRemote => ActionsFill (bytes.drop 16) (be16 bytes 14).toNat
  | .flowMod =>
    72 ≤ (be16 bytes 2).toNat ∧ ActionsFill (bytes.drop 72) ((be16 bytes 2).toNat - 72)
  | _ => True

/-- The first message in some bytes ends where its header says. -/
def Framed (bytes : List (BitVec 8)) : Prop :=
  ∀ type : OFType, u8 bytes 1 = type.getTypeValue → FramedAs bytes type

def framedTypes : List OFType :=
  [.hello, .error, .echoRequest, .packetIn, .flowRemoved, .packetOut, .flowMod, .packetRemote]

theorem yields_readBytes (n : Nat) :
    Yields (readBytes n) n fun unread bytes => bytes = unread.take n :=
  yields_read _ n

theorem yields_readByte : Yields readByte 1 fun unread x => x = u8 unread 0 := by
  refine ((yields_readBytes 1).bind fun bytes => Yields.pure (u8 bytes 0)).mono ?_
  rintro unread x ⟨bytes, rfl, rfl⟩
  exact u8_take unread (by decide)

theorem yields_readShort : Yields readShort 2 fun unread x => x = be16 unread 0 := by
  refine ((yields_readBytes 2).bind fun bytes => Yields.pure (be16 bytes 0)).mono ?_
  rintro unread x ⟨bytes, rfl, rfl⟩
  exact be16_take unread (by decide)

theorem consumes_readInt : Consumes readInt 4 :=
  (yields_readBytes 4).consumes.bind_pure _

theorem consumes_readLong : Consumes readLong 8 :=
  (yields_readBytes 8).consumes.bind_pure _

theorem yields_readNewBytes (length : Int) :
    Yields (readNewBytes length) length.toNat fun _ _ => 0 ≤ length := by
  rw [readNewBytes]
  split
  · exact Yields.throw _
  · rename_i positive
    exact (yields_readBytes _).mono fun _ _ _ => by omega

theorem yields_elementAt {α : Type} (array : List α) (i : Int) :
    Yields (elementAt array i) 0 fun _ x => 0 ≤ i ∧ array[i.toNat]? = some x := by
  rw [elementAt]
  split
  · exact Yields.throw _
  · rename_i inside
    split
    · rename_i element found
      refine (Yields.pure element).mono ?_
      rintro unread x rfl
      exact ⟨by omega, found⟩
    · exact Yields.throw _

theorem consumes_readData (length : Int) : Consumes (readData length) length.toNat := by
  rw [readData]
  split
  · exact (yields_readNewBytes length).consumes.bind_pure _
  · rename_i none_
    rw [Int.toNat_of_nonpos (by omega)]
    exact .pure none

theorem yields_readActionHeader :
    Yields readActionHeader 4 fun unread header =>
      header.2 = be16 unread 2 ∧
        ∀ type, header.1 = some type → OFActionType.ofValue (be16 unread 0) = some type := by
  refine (yields_readShort.bind fun type => (yields_elementAt _ _).bind fun type =>
    yields_readShort.bind fun length => Yields.pure (type, length)).mono ?_
  rintro unread header ⟨value, rfl, type, ⟨inside, found⟩, length, rfl, rfl⟩
  refine ⟨by rw [List.drop_zero, be16_drop], fun known same => ?_⟩
  rw [OFActionType.ofValue, if_neg (by omega), found]
  exact same

theorem consumes_actionArgs (type : OFActionType) :
    Consumes (OFActionArgs.readFrom type) (type.size - 4) := by
  have short := yields_readShort.consumes
  have byte := yields_readByte.consumes
  have int := consumes_readInt
  have transport : Consumes OFActionArgs.readFrom.transportLayer 4 :=
    short.bind fun _ => short.bind_pure _
  have dataLayer : Consumes OFActionArgs.readFrom.dataLayer 12 :=
    (yields_readBytes 6).consumes.bind fun _ => int.bind fun _ => short.bind_pure _
  cases type with
  | output | setVlanId => exact short.bind fun _ => short.bind_pure _
  | setVlanPcp | setNwTos => exact byte.bind fun _ => short.bind fun _ => byte.bind_pure _
  | stripVlan | setNwSrc | setNwDst | vendor => exact int.bind_pure _
  | setDlSrc | setDlDst => exact dataLayer.bind_pure _
  | setTpSrc | setTpDst => exact transport.bind_pure _
  | opaqueEnqueue | remote =>
    exact short.bind fun _ => short.bind fun _ => int.bind fun _ => int.bind_pure _

theorem OFActionType.eight_le_size (type : OFActionType) : 8 ≤ type.size := by
  cases type <;> decide

theorem consumes_action (type : OFActionType) : Consumes (OFAction.readFrom type) type.size := by
  have size : type.size = 4 + (type.size - 4) := by
    have := type.eight_le_size
    omega
  rw [size]
  exact yields_readActionHeader.consumes.bind fun _ => (consumes_actionArgs type).bind_pure _

theorem parseActionsLoop_cases {stop turns size : Nat} {buffer after : Buffer (BitVec 8)}
    {actions : List OFAction}
    (looped : parseActionsLoop 0 stop (turns + 1) size buffer = .ok actions after) :
    after.elements = buffer.elements ∧ after.index = buffer.index ∧
        (buffer.readable < 4 ∨ stop < buffer.index + 4 ∨
          buffer.readable < (be16 buffer.unread 2).toNat ∨
          stop < buffer.index + (be16 buffer.unread 2).toNat) ∨
      ∃ type rest, OFActionType.ofValue (be16 buffer.unread 0) = some type ∧
        type.size ≤ buffer.readable ∧ buffer.index + 4 ≤ stop ∧
        buffer.index + (be16 buffer.unread 2).toNat ≤ stop ∧
        parseActionsLoop 0 stop turns (size + 1) (buffer.setMark.advance type.size) =
          .ok rest after := by
  rw [parseActionsLoop, if_neg (by simp), readable_bind, index_bind] at looped
  split at looped
  · rename_i short
    obtain ⟨-, rfl⟩ := EStateM.Result.ok.inj looped
    exact .inl ⟨rfl, rfl, short.imp_right .inl⟩
  · rename_i long
    rw [setMark_bind] at looped
    obtain ⟨⟨found, stated⟩, middle, ran, looped⟩ := exists_of_bind_eq_ok looped
    obtain ⟨-, rfl, length, known⟩ := yields_readActionHeader _ _ _ ran
    rw [Buffer.unread_setMark] at length known
    rw [reset_bind, Buffer.reset_advance_setMark, readable_bind, index_bind] at looped
    split at looped
    · rename_i outside
      obtain ⟨-, rfl⟩ := EStateM.Result.ok.inj looped
      rw [length] at outside
      exact .inl ⟨rfl, rfl, .inr (.inr outside)⟩
    · rename_i inside
      rw [length] at inside
      cases found with
      | none => cases looped
      | some type =>
        obtain ⟨action, middle, ran, looped⟩ := exists_of_bind_eq_ok looped
        obtain ⟨room, rfl, -⟩ := consumes_action type _ _ _ ran
        obtain ⟨rest, final, continued, last⟩ := exists_of_bind_eq_ok looped
        obtain ⟨-, rfl⟩ := EStateM.Result.ok.inj last
        refine .inr ⟨type, rest, known type rfl, room, by omega, ?_, continued⟩
        exact Nat.le_of_not_lt (not_or.mp inside).2

theorem ahead_parseActionsLoop (stop turns size : Nat) :
    Ahead (parseActionsLoop 0 stop turns size) := by
  induction turns generalizing size with
  | zero => exact .pure []
  | succ turns ih =>
    intro buffer actions after looped
    obtain ⟨elements, index, -⟩ | ⟨type, rest, -, room, -, -, looped⟩ :=
      parseActionsLoop_cases looped
    · exact ⟨elements, Nat.le_of_eq index.symm⟩
    · obtain ⟨elements, index⟩ := ih _ _ _ _ looped
      rw [@Buffer.index_advance_of_le _ buffer.setMark _ room, Buffer.index_setMark] at index
      exact ⟨elements, by omega⟩

theorem parseActionsLoop_fill_iff {turns : Nat} (size : Nat) {n : Nat}
    {buffer after : Buffer (BitVec 8)} {actions : List OFAction} (inside : n ≤ buffer.readable)
    (enough : buffer.readable ≤ turns)
    (looped : parseActionsLoop 0 (buffer.index + n) turns size buffer = .ok actions after) :
    after.index = buffer.index + n ↔ ActionsFill buffer.unread n := by
  induction turns generalizing size n buffer actions with
  | zero =>
    obtain ⟨-, rfl⟩ := EStateM.Result.ok.inj looped
    obtain rfl : n = 0 := by omega
    exact iff_of_true rfl (.done _)
  | succ turns ih =>
    obtain ⟨-, index, stopped⟩ | ⟨type, rest, found, room, four, stated, looped⟩ :=
      parseActionsLoop_cases looped
    · rw [index]
      constructor
      · intro same
        obtain rfl : n = 0 := by omega
        exact .done _
      · intro fill
        cases fill with
        | done => rfl
        | next found stated fits rest =>
          have := OFActionType.eight_le_size ‹_›
          omega
    · have start : (buffer.setMark.advance type.size).index = buffer.index + type.size :=
        @Buffer.index_advance_of_le _ buffer.setMark _ room
      have left : (buffer.setMark.advance type.size).readable = buffer.readable - type.size :=
        Buffer.readable_advance _
      have behind : (buffer.setMark.advance type.size).unread = buffer.unread.drop type.size :=
        Buffer.unread_advance_eq _
      have long := type.eight_le_size
      by_cases fits : type.size ≤ n
      · have stop : buffer.index + n =
            (buffer.setMark.advance type.size).index + (n - type.size) := by omega
        rw [stop] at looped ⊢
        rw [ih (size + 1) (by omega) (by omega) looped, behind]
        constructor
        · exact fun fill => .next found (by omega) fits fill
        · intro fill
          cases fill with
          | done => omega
          | next other _ _ rest =>
            obtain rfl := Option.some.inj (found.symm.trans other)
            exact rest
      · have ahead := (ahead_parseActionsLoop _ _ _ _ _ _ looped).2
        refine iff_of_false (by omega) fun fill => ?_
        cases fill with
        | done => omega
        | next other _ small _ =>
          obtain rfl := Option.some.inj (found.symm.trans other)
          exact fits small

theorem ahead_parseActions (length : Int) : Ahead (parseActions length 0) :=
  fun _ _ _ ran => ahead_parseActionsLoop _ _ _ _ _ _ ran

private theorem ofType_all :
    (List.range 128).all (fun k => (((OFType.all.map some ++ List.replicate 9 none)[k]?).join).all
      fun type => type.getTypeValue.toNat == k) = true := by
  decide

theorem OFType.all_getTypeValue (type : OFType) : all[type.getTypeValue.toNat]? = some type := by
  cases type <;> rfl

theorem OFType.getTypeValue_injective {type other : OFType}
    (same : type.getTypeValue = other.getTypeValue) : type = other := by
  have found := type.all_getTypeValue
  rw [same, other.all_getTypeValue] at found
  exact (Option.some.inj found).symm

theorem yields_readHeader :
    Yields readHeader 8 fun unread header =>
      header.2.length = be16 unread 2 ∧
        ∀ type, header.1 = some type → u8 unread 1 = type.getTypeValue := by
  refine (yields_readByte.bind fun version => yields_readByte.bind fun type =>
    (yields_elementAt _ _).bind fun type => yields_readShort.bind fun length =>
      Yields.bind consumes_readInt fun xid =>
        Yields.pure (type, OFHeader.mk version length xid)).mono ?_
  rintro unread header ⟨version, -, value, rfl, type, ⟨inside, found⟩, length, rfl, xid, -, rfl⟩
  refine ⟨by simp only [List.drop_drop, be16_drop], fun known same => ?_⟩
  rw [u8_drop, Nat.add_zero] at found inside
  have same : type = some known := same
  have small : (u8 unread 1).toInt.toNat = (u8 unread 1).toNat ∧ (u8 unread 1).toNat < 128 := by
    rw [BitVec.toInt_eq_toNat_cond] at inside ⊢
    split at inside <;> split <;> omega
  have value := List.all_eq_true.mp ofType_all _ (List.mem_range.mpr small.2)
  rw [← small.1, found, same] at value
  refine BitVec.eq_of_toNat_eq ?_
  have numbered : known.getTypeValue.toNat = (u8 unread 1).toInt.toNat := by simpa using value
  rw [numbered, small.1]

theorem consumes_ofMatch : Consumes OFMatch.readFrom 40 := by
  have short := yields_readShort.consumes
  have byte := yields_readByte.consumes
  have int := consumes_readInt
  have address := (yields_readBytes 6).consumes
  exact int.bind fun _ => short.bind fun _ => address.bind fun _ => address.bind fun _ =>
    short.bind fun _ => byte.bind fun _ => byte.bind fun _ => short.bind fun _ => byte.bind fun _ =>
      byte.bind fun _ => byte.bind fun _ => byte.bind fun _ => int.bind fun _ => int.bind fun _ =>
        short.bind fun _ => short.bind_pure _

theorem consumes_flowRemoved : Consumes OFFlowRemoved.readFrom 80 := by
  have short := yields_readShort.consumes
  have byte := yields_readByte.consumes
  have int := consumes_readInt
  have long := consumes_readLong
  exact consumes_ofMatch.bind fun _ => long.bind fun _ => short.bind fun _ => byte.bind fun _ =>
    (yields_elementAt _ _).consumes.bind fun _ => byte.bind fun _ => int.bind fun _ =>
      int.bind fun _ => short.bind fun _ => byte.bind fun _ => byte.bind fun _ => long.bind fun _ =>
        long.bind_pure _

theorem consumes_error (length : BitVec 16) :
    Consumes (OFError.readFrom length) (4 + ((length.toNat : Int) - 12).toNat) := by
  have short := yields_readShort.consumes
  have size : 4 + ((length.toNat : Int) - 12).toNat =
      2 + (2 + ((length.toNat : Int) - 12).toNat) := by omega
  rw [size]
  exact short.bind fun _ => short.bind fun _ => (consumes_readData _).bind_pure _

theorem consumes_echoRequest (length : BitVec 16) :
    Consumes (OFEchoRequest.readFrom length) ((length.toNat : Int) - 8).toNat :=
  (consumes_readData _).bind_pure _

theorem yields_packetIn (length : BitVec 16) :
    Yields (OFPacketIn.readFrom length) (10 + ((length.toNat : Int) - 18).toNat)
      fun _ _ => 18 ≤ length.toNat := by
  have int := consumes_readInt
  have short := yields_readShort.consumes
  have byte := yields_readByte.consumes
  have size : 10 + ((length.toNat : Int) - 18).toNat =
      4 + (2 + (2 + (1 + (0 + (1 + (((length.toNat : Int) - 18).toNat + 0)))))) := by omega
  rw [size]
  refine (Yields.bind int fun _ => Yields.bind short fun _ => Yields.bind short fun _ =>
    Yields.bind byte fun _ => (yields_elementAt _ _).bind fun _ => Yields.bind byte fun _ =>
      (yields_readNewBytes _).bind fun _ => Consumes.pure _).mono ?_
  rintro - - ⟨_, -, _, -, _, -, _, -, _, -, _, -, _, positive, -⟩
  omega

structure BehindHeader (bytes : List (BitVec 8)) (start : Nat) (length : BitVec 16)
    (buffer : Buffer (BitVec 8)) : Prop where
  index_eq : buffer.index = start + 8
  unread_eq : buffer.unread = bytes.drop 8
  length_eq : be16 bytes 2 = length
  received : length.toNat ≤ 8 + buffer.readable

section Bodies

variable {bytes : List (BitVec 8)} {start : Nat} {length : BitVec 16}
  {buffer after : Buffer (BitVec 8)}

theorem BehindHeader.packetActions_iff (behind : BehindHeader bytes start length buffer)
    {message : OFPacketActions} (ran : OFPacketActions.readFrom length buffer = .ok message after) :
    after.index = start + length.toNat ↔ ActionsFill (bytes.drop 16) (be16 bytes 14).toNat := by
  obtain ⟨bufferId, -, -, ran⟩ := consumes_readInt.peel ran
  obtain ⟨inPort, -, -, ran⟩ := yields_readShort.peel ran
  obtain ⟨actionsLength, room, stated, ran⟩ := yields_readShort.peel ran
  simp only [Buffer.advance_advance_eq, Buffer.readable_advance, Buffer.unread_advance_eq,
    behind.unread_eq, List.drop_drop, be16_drop] at room stated ran
  obtain ⟨actions, middle, parsed, ran⟩ := exists_of_bind_eq_ok ran
  obtain ⟨packetData, final, copied, ran⟩ := exists_of_bind_eq_ok ran
  have copiedIndex := (yields_readNewBytes _).index_eq copied
  obtain ⟨-, -, positive⟩ := yields_readNewBytes _ _ _ _ copied
  obtain rfl : final = after := by
    split at ran
    · exact (EStateM.Result.ok.inj ran).2
    · cases ran
  have received := behind.received
  have startActions : (buffer.advance 8).index = start + 16 := by
    rw [Buffer.index_advance_of_le (by omega), behind.index_eq]
  have left : (buffer.advance 8).readable = buffer.readable - 8 := Buffer.readable_advance 8
  have rest : (buffer.advance 8).unread = bytes.drop 16 := by
    rw [Buffer.unread_advance_eq, behind.unread_eq, List.drop_drop]
  have looped : parseActionsLoop 0 ((buffer.advance 8).index + actionsLength.toNat)
      (buffer.advance 8).readable 0 (buffer.advance 8) = .ok actions middle := parsed
  have fill := parseActionsLoop_fill_iff 0 (by omega) (Nat.le_refl _) looped
  rw [rest, startActions] at fill
  rw [← stated, ← fill, copiedIndex]
  omega

theorem BehindHeader.flowMod_iff (behind : BehindHeader bytes start length buffer)
    {message : OFFlowMod} (ran : OFFlowMod.readFrom length buffer = .ok message after) :
    after.index = start + length.toNat ↔
      72 ≤ length.toNat ∧ ActionsFill (bytes.drop 72) (length.toNat - 72) := by
  have short := yields_readShort.consumes
  obtain ⟨ofMatch, -, -, ran⟩ := consumes_ofMatch.peel ran
  obtain ⟨cookie, -, -, ran⟩ := consumes_readLong.peel ran
  obtain ⟨command, -, -, ran⟩ := short.peel ran
  obtain ⟨idleTimeout, -, -, ran⟩ := short.peel ran
  obtain ⟨hardTimeout, -, -, ran⟩ := short.peel ran
  obtain ⟨priority, -, -, ran⟩ := short.peel ran
  obtain ⟨bufferId, -, -, ran⟩ := consumes_readInt.peel ran
  obtain ⟨outPort, -, -, ran⟩ := short.peel ran
  obtain ⟨flags, room, -, ran⟩ := short.peel ran
  simp only [Buffer.advance_advance_eq, Buffer.readable_advance] at room ran
  obtain ⟨actions, final, parsed, ran⟩ := exists_of_bind_eq_ok ran
  obtain rfl : final = after := (EStateM.Result.ok.inj ran).2
  have received := behind.received
  have startActions : (buffer.advance 64).index = start + 72 := by
    rw [Buffer.index_advance_of_le (by omega), behind.index_eq]
  have left : (buffer.advance 64).readable = buffer.readable - 64 := Buffer.readable_advance 64
  have rest : (buffer.advance 64).unread = bytes.drop 72 := by
    rw [Buffer.unread_advance_eq, behind.unread_eq, List.drop_drop]
  simp only [Nat.reduceAdd] at parsed
  by_cases long : 72 ≤ length.toNat
  · have stop : ((buffer.advance 64).index + ((length.toNat : Int) - 72)).toNat =
        (buffer.advance 64).index + (length.toNat - 72) := by omega
    have looped : parseActionsLoop 0 ((buffer.advance 64).index + (length.toNat - 72))
        (buffer.advance 64).readable 0 (buffer.advance 64) = .ok actions final := by
      rw [← stop]
      exact parsed
    have fill := parseActionsLoop_fill_iff 0 (by omega) (Nat.le_refl _) looped
    rw [rest, startActions] at fill
    rw [← fill]
    omega
  · have ahead := (ahead_parseActions _ _ _ _ parsed).2
    exact iff_of_false (by omega) fun both => long both.1

theorem BehindHeader.body_iff (behind : BehindHeader bytes start length buffer)
    {readOther : OFType → Parser Unit} {type : OFType} (listed : type ∈ framedTypes) {body : OFBody}
    (ran : OFBody.readFrom (withHello readOther) length type buffer = .ok body after) :
    after.index = start + length.toNat ↔ FramedAs bytes type := by
  have index := behind.index_eq
  cases type with
  | hello =>
    obtain ⟨-, rfl⟩ := EStateM.Result.ok.inj ran
    rw [FramedAs, behind.length_eq]
    omega
  | error =>
    have moved := ((consumes_error length).bind_pure OFBody.error).index_eq ran
    rw [FramedAs, behind.length_eq]
    omega
  | echoRequest =>
    have moved := ((consumes_echoRequest length).bind_pure OFBody.echoRequest).index_eq ran
    rw [FramedAs, behind.length_eq]
    omega
  | packetIn =>
    obtain ⟨message, room, long, ran⟩ := (yields_packetIn length).peel ran
    obtain ⟨-, rfl⟩ := EStateM.Result.ok.inj ran
    refine iff_of_true ?_ trivial
    rw [Buffer.index_advance_of_le room]
    omega
  | flowRemoved =>
    have moved := (consumes_flowRemoved.bind_pure OFBody.flowRemoved).index_eq ran
    rw [FramedAs, behind.length_eq]
    omega
  | packetOut | packetRemote =>
    obtain ⟨message, final, read, last⟩ := exists_of_bind_eq_ok ran
    obtain ⟨-, rfl⟩ := EStateM.Result.ok.inj last
    exact behind.packetActions_iff read
  | flowMod =>
    obtain ⟨message, final, read, last⟩ := exists_of_bind_eq_ok ran
    obtain ⟨-, rfl⟩ := EStateM.Result.ok.inj last
    rw [FramedAs, behind.length_eq]
    exact behind.flowMod_iff read
  | _ => exact absurd listed (by decide)

end Bodies

theorem returns_getType (readOther : OFType → Parser Unit) (length : BitVec 16) (type : OFType) :
    Returns (OFBody.readFrom readOther length type) fun body => body.getType = type := by
  cases type <;> exact .skip fun _ => .pure rfl

theorem ahead_packetActions (length : BitVec 16) : Ahead (OFPacketActions.readFrom length) := by
  have short := yields_readShort.ahead
  refine consumes_readInt.ahead.bind fun _ => short.bind fun _ => short.bind fun _ =>
    (ahead_parseActions _).bind fun _ => (yields_readNewBytes _).ahead.bind fun _ => ?_
  dsimp only
  split
  · exact .pure _
  · exact .throw _

theorem ahead_flowMod (length : BitVec 16) : Ahead (OFFlowMod.readFrom length) := by
  have short := yields_readShort.ahead
  exact consumes_ofMatch.ahead.bind fun _ => consumes_readLong.ahead.bind fun _ =>
    short.bind fun _ => short.bind fun _ => short.bind fun _ => short.bind fun _ =>
      consumes_readInt.ahead.bind fun _ => short.bind fun _ => short.bind fun _ =>
        (ahead_parseActions _).bind fun _ => .pure _

section Parser

variable {readOther : OFType → Parser Unit}

theorem ahead_body (ahead : ∀ type, Ahead (readOther type)) (length : BitVec 16) (type : OFType) :
    Ahead (OFBody.readFrom readOther length type) := by
  cases type with
  | error => exact (consumes_error length).ahead.bind fun _ => .pure _
  | echoRequest => exact (consumes_echoRequest length).ahead.bind fun _ => .pure _
  | packetIn => exact (yields_packetIn length).ahead.bind fun _ => .pure _
  | flowRemoved => exact consumes_flowRemoved.ahead.bind fun _ => .pure _
  | packetOut | packetRemote => exact (ahead_packetActions length).bind fun _ => .pure _
  | flowMod => exact (ahead_flowMod length).bind fun _ => .pure _
  | _ => exact (ahead _).bind fun _ => .pure _

theorem ahead_withHello (ahead : ∀ type, Ahead (readOther type)) (type : OFType) :
    Ahead (withHello readOther type) := by
  cases type with
  | hello => exact .pure ()
  | _ => exact ahead _

variable {buffer after : Buffer (BitVec 8)} {message : OFMessage}

theorem parseMessageOne_cases (parsed : parseMessageOne readOther buffer = .ok (some message) after) :
    8 ≤ buffer.readable ∧
      BehindHeader buffer.unread buffer.index message.header.length (buffer.setMark.advance 8) ∧
      u8 buffer.unread 1 = message.body.getType.getTypeValue ∧
      OFBody.readFrom readOther message.header.length message.body.getType
        (buffer.setMark.advance 8) = .ok message.body after := by
  have body : parseMessageBody readOther buffer = .ok (some message) after := by
    change EStateM.tryCatch (parseMessageBody readOther) _ buffer = _ at parsed
    rw [EStateM.tryCatch] at parsed
    split at parsed
    · cases parsed
    · exact parsed
  rw [parseMessageBody, readable_bind] at body
  split at body
  · cases body
  · rename_i enough
    rw [setMark_bind] at body
    obtain ⟨demux, room, ⟨length, typed⟩, body⟩ := yields_readHeader.peel body
    rw [reset_bind, Buffer.reset_advance_setMark, readable_bind] at body
    split at body
    · cases body
    · rename_i received
      obtain ⟨found, header⟩ := demux
      cases found with
      | none => cases body
      | some type =>
        obtain ⟨result, final, read, last⟩ := exists_of_bind_eq_ok body
        obtain ⟨rfl, rfl⟩ : result = message ∧ final = after := by
          cases last
          exact ⟨rfl, rfl⟩
        obtain ⟨header', -, ⟨length', -⟩, read⟩ := yields_readHeader.peel read
        obtain ⟨content, final', filled, last⟩ := exists_of_bind_eq_ok read
        obtain ⟨rfl, rfl⟩ := EStateM.Result.ok.inj last
        obtain rfl := returns_getType _ _ _ _ _ _ filled
        refine ⟨room, ⟨?_, ?_, length'.symm, ?_⟩, typed _ rfl, filled⟩
        · exact @Buffer.index_advance_of_le _ buffer.setMark _ room
        · exact Buffer.unread_advance_eq _
        · have stated : header.length = header'.2.length := length.trans length'.symm
          rw [Buffer.readable_advance, ← stated]
          simp only [Buffer.readable_setMark] at received ⊢
          omega

theorem ahead_parseMessageOne (ahead : ∀ type, Ahead (readOther type))
    (parsed : parseMessageOne readOther buffer = .ok (some message) after) :
    after.elements = buffer.elements ∧ buffer.index + 8 ≤ after.index := by
  obtain ⟨room, behind, -, read⟩ := parseMessageOne_cases parsed
  obtain ⟨elements, index⟩ := ahead_body ahead _ _ _ _ _ read
  exact ⟨elements, behind.index_eq ▸ index⟩

theorem parseMessageLoop_short (short : buffer.readable < 8) (turns : Nat) :
    parseMessageLoop readOther turns buffer = .ok [] buffer := by
  cases turns with
  | zero => rfl
  | succ turns =>
    rw [parseMessageLoop, readable_bind, if_pos short]
    rfl

theorem parseMessageLoop_add (ahead : ∀ type, Ahead (readOther type)) {turns : Nat}
    (enough : buffer.readable < 8 * (turns + 1)) (more : Nat) :
    parseMessageLoop readOther (turns + more) buffer = parseMessageLoop readOther turns buffer := by
  induction turns generalizing buffer with
  | zero => rw [parseMessageLoop_short enough, parseMessageLoop_short enough]
  | succ turns ih =>
    rw [Nat.add_right_comm, parseMessageLoop, parseMessageLoop, readable_bind, readable_bind]
    split
    · rfl
    · rw [setMark_bind, setMark_bind]
      refine bind_congr_of_ok fun found after parsed => ?_
      cases found with
      | none => rfl
      | some message =>
        obtain ⟨elements, progress⟩ := ahead_parseMessageOne ahead parsed
        refine bind_congr_first (ih ?_)
        have read : after.readable + after.index = buffer.readable + buffer.index := by
          rw [Buffer.readable_add_index, elements, Buffer.readable_add_index]
          rfl
        rw [Buffer.index_setMark] at progress
        omega

structure KeepsBoundaries (readOther : OFType → Parser Unit) (buffer after : Buffer (BitVec 8))
    (message : OFMessage) : Prop where
  exact : after.index = buffer.index + message.header.length.toNat
  next : after.unread = buffer.unread.drop message.header.length.toNat
  progress : buffer.index + 8 ≤ after.index
  ends : ∀ more, parseMessageLoop readOther (buffer.readable + more) buffer =
    parseMessageLoop readOther buffer.readable buffer

/-- **Message boundaries.** A message that `parseMessageOne` returns has been read up to the end that
its header states exactly if the sizes that its class expects add up to this length. -/
theorem keepsBoundaries_iff_framed (ahead : ∀ type, Ahead (readOther type))
    (parsed : parseMessageOne (withHello readOther) buffer = .ok (some message) after)
    (listed : message.body.getType ∈ framedTypes) :
    KeepsBoundaries (withHello readOther) buffer after message ↔ Framed buffer.unread := by
  obtain ⟨-, behind, typed, read⟩ := parseMessageOne_cases parsed
  obtain ⟨elements, progress⟩ := ahead_parseMessageOne (ahead_withHello ahead) parsed
  have framed : Framed buffer.unread ↔ FramedAs buffer.unread message.body.getType := by
    refine ⟨fun framed => framed _ typed, fun framed type stated => ?_⟩
    rwa [OFType.getTypeValue_injective (stated.symm.trans typed)]
  rw [framed, ← behind.body_iff listed read]
  refine ⟨KeepsBoundaries.exact, fun exact => ⟨exact, ?_, progress, fun more => ?_⟩⟩
  · rw [Buffer.unread, elements, exact, ← List.drop_drop, ← Buffer.unread]
  · exact parseMessageLoop_add (ahead_withHello ahead) (by omega) more

end Parser

theorem keepsBoundaries_packetOut :
    ∃ after, parseMessageOne (withHello fun _ => pure ()) (.ofList packetOutBytes) =
        .ok (some parsedPacketOut) after ∧
      (KeepsBoundaries (withHello fun _ => pure ()) (.ofList packetOutBytes) after
        parsedPacketOut ↔ Framed packetOutBytes) :=
  ⟨_, rfl, keepsBoundaries_iff_framed (fun _ => .pure ()) rfl (by decide)⟩

/-- A `HELLO` of 16 bytes, of which the last 8 look like another message. -/
def longHelloBytes : List (BitVec 8) :=
  [1, 0, 0, 16, 0, 0, 0, 1, 1, 2, 0, 8, 0, 0, 0, 5]

/-- The part of a `HELLO` behind its header is parsed as the next message. -/
theorem not_keepsBoundaries_longHello :
    ∃ after, parseMessageOne (withHello fun _ => pure ()) (.ofList longHelloBytes) =
        .ok (some ⟨⟨1, 16, 1⟩, .other .hello⟩) after ∧
      parse (withHello fun _ => pure ()) longHelloBytes =
        .ok ([⟨⟨1, 16, 1⟩, .other .hello⟩, ⟨⟨1, 8, 5⟩, .echoRequest ⟨none⟩⟩], []) ∧
      ¬ KeepsBoundaries (withHello fun _ => pure ()) (.ofList longHelloBytes) after
        ⟨⟨1, 16, 1⟩, .other .hello⟩ := by
  refine ⟨_, rfl, rfl, fun keeps => ?_⟩
  have index := keeps.exact
  revert index
  decide

end LazyCtrl.Controller
