import LazyCtrl.Ofp.NoDrop

/-!
# The OpenFlow 1.1 decoders

Actions of OpenFlow 1.1 reach the switch on two ways: as they are, through
`ofpacts_pull_openflow11_actions`, and inside an `APPLY_ACTIONS` instruction, through
`ofpacts_pull_openflow11_instructions`.  Both use the same decoder for a list of actions, but the
first one goes through `ofpacts_pull_actions`, which hands every list of 16 bytes to the decoder of
OpenFlow 1.0 remote actions.
-/

namespace LazyCtrl

open Bytes Frames

inductive Action11Code where
  | output
  | setVlanVid
  | setVlanPcp
  | setDlSrc
  | setDlDst
  | setNwSrc
  | setNwDst
  | setNwTos
  | setTpSrc
  | setTpDst
  deriving DecidableEq, Repr

namespace Action11Code

def wireType : Action11Code → BitVec 16
  | output => 0
  | setVlanVid => 1
  | setVlanPcp => 2
  | setDlSrc => 3
  | setDlDst => 4
  | setNwSrc => 5
  | setNwDst => 6
  | setNwTos => 7
  | setTpSrc => 9
  | setTpDst => 10

def size : Action11Code → Nat
  | output | setDlSrc | setDlDst => 16
  | setVlanVid | setVlanPcp | setNwSrc | setNwDst | setNwTos | setTpSrc | setTpDst => 8

def all : List Action11Code :=
  [output, setVlanVid, setVlanPcp, setDlSrc, setDlDst, setNwSrc, setNwDst, setNwTos, setTpSrc,
    setTpDst]

def ofWireType (type : BitVec 16) : Option Action11Code := all.find? (·.wireType = type)

theorem ofWireType_wireType (code : Action11Code) : ofWireType code.wireType = some code := by
  cases code <;> rfl

end Action11Code

def ofpp11Max : Nat := 0xffffff00

def ofputilPortFromOfp11 (ofp11Port : BitVec 32) : Except Fault (BitVec 16) :=
  if ofp11Port.toNat < ofppMax then .ok (ofp11Port.setWidth 16)
  else if ofp11Port.toNat ≥ ofpp11Max then .ok ((ofp11Port - 0xffff0000).setWidth 16)
  else .error (.ofperr .ofpbacBadOutPort)

def outputFromOpenflow11 (a : List (BitVec 8)) : Except Fault Ofpact :=
  (ofputilPortFromOfp11 (be32 a 4)).bind fun port =>
    accept (ofputilCheckOutputPort port ofppMax) (.output port (be16 a 8))

def decodeOpenflow11Type (a : List (BitVec 8)) : Except Fault Action11Code :=
  match Action11Code.ofWireType (be16 a 0) with
  | some code => if actionLen a = code.size then .ok code else badLen
  | none => .error (.ofperr .ofpbacBadType)

def ofpactFromCode11 (a : List (BitVec 8)) : Action11Code → Except Fault Ofpact
  | .output => outputFromOpenflow11 a
  | .setVlanVid => if be16 a 4 &&& ~~~0xfff ≠ 0 then badArgument else .ok (.setVlanVid (be16 a 4))
  | .setVlanPcp => if u8 a 4 &&& ~~~7 ≠ 0 then badArgument else .ok (.setVlanPcp (u8 a 4))
  | .setDlSrc => .ok (.setEthSrc (be48 a 4))
  | .setDlDst => .ok (.setEthDst (be48 a 4))
  | .setNwSrc => .ok (.setIpv4Src (be32 a 4))
  | .setNwDst => .ok (.setIpv4Dst (be32 a 4))
  | .setNwTos => if u8 a 4 &&& ~~~0xfc ≠ 0 then badArgument else .ok (.setIpv4Dscp (u8 a 4))
  | .setTpSrc => .ok (.setL4SrcPort (be16 a 4))
  | .setTpDst => .ok (.setL4DstPort (be16 a 4))

def ofpactFromOpenflow11 (a : List (BitVec 8)) : Except Fault (Option Ofpact) :=
  if be16 a 0 = ofpat10Vendor then
    match decodeNxastAction a with
    | .error fault => .error fault
    | .ok code => ofpactFromCode a code
  else
    match decodeOpenflow11Type a with
    | .error fault => .error fault
    | .ok code => (ofpactFromCode11 a code).map some

def ofpactsFromOpenflow11 (a : List (BitVec 8)) (nIn : Nat) : Option Translation :=
  ofpactsFromOpenflow 8 ofpactFromOpenflow11 nIn nIn a []

def ofpactsPullActions (translate : List (BitVec 8) → Nat → Option Translation)
    (openflow : List (BitVec 8)) (actionsLen : Nat) : Option Translation :=
  if actionsLen % 8 ≠ 0 then some ⟨some .ofpbrcBadLen, []⟩
  else if openflow.length < actionsLen then some ⟨some .ofpbrcBadLen, []⟩
  else
    (if actionsLen = 16 then ofpactsFromOpenflow10Remote openflow (actionsLen / 16)
      else translate openflow (actionsLen / 8)).map Translation.clearOnError

def ofpactsPullOpenflow11Actions (openflow : List (BitVec 8)) (actionsLen : Nat) :
    Option Translation :=
  ofpactsPullActions ofpactsFromOpenflow11 openflow actionsLen

inductive OvsInstructionType where
  | applyActions
  | clearActions
  | writeActions
  | writeMetadata
  | gotoTable
  deriving DecidableEq, Repr

namespace OvsInstructionType

def wireType : OvsInstructionType → BitVec 16
  | gotoTable => 1
  | writeMetadata => 2
  | writeActions => 3
  | applyActions => 4
  | clearActions => 5

def size : OvsInstructionType → Nat
  | writeMetadata => 24
  | applyActions | clearActions | writeActions | gotoTable => 8

def extensible : OvsInstructionType → Bool
  | applyActions | writeActions => true
  | clearActions | writeMetadata | gotoTable => false

def all : List OvsInstructionType :=
  [applyActions, clearActions, writeActions, writeMetadata, gotoTable]

end OvsInstructionType

inductive InstructionError where
  | ofperr (error : Ofperr)
  | ofpbicBadLen
  | ofpbicBadExperimenter
  | ofpbicUnknownInst
  | ofpbicUnsupInst
  | nxbicDupType
  deriving DecidableEq, Repr

structure InstructionTranslation where
  error : Option InstructionError
  ofpacts : List Ofpact
  deriving DecidableEq, Repr

def Translation.inInstruction (translation : Translation) : InstructionTranslation :=
  ⟨translation.error.map .ofperr, translation.ofpacts⟩

def instructionLen (inst : List (BitVec 8)) : Nat := (be16 inst 2).toNat

def instructionIsValid (inst : List (BitVec 8)) (nInstructions : Nat) : Bool :=
  instructionLen inst % 8 = 0 ∧ 8 ≤ instructionLen inst ∧ instructionLen inst / 8 ≤ nInstructions

def decodeOpenflow11Instruction (inst : List (BitVec 8)) :
    Except InstructionError OvsInstructionType :=
  if be16 inst 0 = 0xffff then .error .ofpbicBadExperimenter
  else
    match OvsInstructionType.all.find? (·.wireType = be16 inst 0) with
    | some type =>
      if (if type.extensible then type.size ≤ instructionLen inst
          else instructionLen inst = type.size) then .ok type
      else .error .ofpbicBadLen
    | none => .error .ofpbicUnknownInst

abbrev Instructions := OvsInstructionType → Option (List (BitVec 8))

/-- The loop of `decode_openflow11_instructions` over `left` units of 8 bytes.  The first argument
bounds the number of turns, each of which takes at least one unit. -/
def decodeOpenflow11InstructionsLoop :
    Nat → Nat → List (BitVec 8) → Instructions → Except InstructionError Instructions
  | 0, left, _, out => if left ≠ 0 then .error .ofpbicBadLen else .ok out
  | turns + 1, left, inst, out =>
    if 0 < left ∧ instructionIsValid inst left then
      match decodeOpenflow11Instruction inst with
      | .error error => .error error
      | .ok type =>
        if (out type).isSome then .error .nxbicDupType
        else decodeOpenflow11InstructionsLoop turns (left - instructionLen inst / 8)
          (inst.drop (instructionLen inst)) (Function.update out type (some inst))
    else if left ≠ 0 then .error .ofpbicBadLen
    else .ok out

def decodeOpenflow11Instructions (insts : List (BitVec 8)) (nInsts : Nat) :
    Except InstructionError Instructions :=
  decodeOpenflow11InstructionsLoop nInsts nInsts insts fun _ => none

def ofpactsFromInstruction (inst : List (BitVec 8)) : Option Translation :=
  ofpactsFromOpenflow11 (inst.drop 8) ((instructionLen inst - 8) / 8)

def ofpactsFromInstructions (insts : Instructions) : Option InstructionTranslation := do
  let translation ← match insts .applyActions with
    | some inst => ofpactsFromInstruction inst
    | none => some ⟨none, []⟩
  if translation.error.isSome then
    some translation.clearOnError.inInstruction
  else if (insts .gotoTable).isSome ∨ (insts .writeMetadata).isSome ∨
      (insts .writeActions).isSome ∨ (insts .clearActions).isSome then
    some ⟨some .ofpbicUnsupInst, []⟩
  else some translation.inInstruction

def ofpactsPullOpenflow11Instructions (openflow : List (BitVec 8)) (instructionsLen : Nat) :
    Option InstructionTranslation :=
  if instructionsLen % 8 ≠ 0 then some ⟨some .ofpbicBadLen, []⟩
  else if openflow.length < instructionsLen then some ⟨some .ofpbicBadLen, []⟩
  else
    match decodeOpenflow11Instructions openflow (instructionsLen / 8) with
    | .error error => some ⟨some error, []⟩
    | .ok insts => ofpactsFromInstructions insts

def applyActions (actions : List (BitVec 8)) : List (BitVec 8) :=
  put16 OvsInstructionType.applyActions.wireType ++
    (put16 (BitVec.ofNat 16 (8 + actions.length)) ++ (zeros 4 ++ actions))

def HasWellFormedLengths (actions : List (BitVec 8)) : Prop :=
  ∃ frames, Cuts actionLen actions frames ∧ ∀ frame ∈ frames, frame.length % 8 = 0

/-- Both decoders return the same error and the same actions for a list and for the instruction
around it. -/
def DecodersAgree (actions : List (BitVec 8)) : Prop :=
  (ofpactsPullOpenflow11Actions actions actions.length).map Translation.inInstruction =
    ofpactsPullOpenflow11Instructions (applyActions actions) (8 + actions.length)

section Instruction

variable {actions : List (BitVec 8)}

theorem HasWellFormedLengths.aligned (wellFormed : HasWellFormedLengths actions) :
    actions.length % 8 = 0 := by
  obtain ⟨frames, cuts, aligned⟩ := wellFormed
  induction cuts with
  | nil => rfl
  | cons _ _ _ ih =>
    rw [List.forall_mem_cons] at aligned
    have rest := ih aligned.2
    rw [List.length_append]
    omega

theorem HasWellFormedLengths.head (wellFormed : HasWellFormedLengths actions)
    (nonempty : actions ≠ []) :
    actionLen actions % 8 = 0 ∧ 8 ≤ actionLen actions ∧ actionLen actions ≤ actions.length ∧
      HasWellFormedLengths (actions.drop (actionLen actions)) := by
  obtain ⟨frames, cuts, aligned⟩ := wellFormed
  cases cuts with
  | nil => exact absurd rfl nonempty
  | @cons frame rest frames filled stated rest =>
    rw [List.forall_mem_cons] at aligned
    have positive := List.length_pos_of_ne_nil filled
    have multiple := aligned.1
    rw [stated, List.length_append, List.drop_left]
    exact ⟨multiple, by omega, by omega, frames, rest, aligned.2⟩

theorem inInstruction_injective : Function.Injective Translation.inInstruction := by
  rintro ⟨error, ofpacts⟩ ⟨otherError, otherOfpacts⟩ same
  obtain ⟨errorEq, ofpactsEq⟩ := InstructionTranslation.mk.inj same
  have injective : Function.Injective InstructionError.ofperr := fun _ _ =>
    InstructionError.ofperr.inj
  exact Translation.mk.injEq .. ▸ ⟨Option.map_injective injective errorEq, ofpactsEq⟩

theorem decodeOpenflow11Instruction_applyActions
    (long : 8 ≤ instructionLen (applyActions actions)) :
    decodeOpenflow11Instruction (applyActions actions) = .ok .applyActions := by
  have wire : be16 (applyActions actions) 0 = 4 := be16_put16 [] _ _
  rw [decodeOpenflow11Instruction, wire]
  simp [OvsInstructionType.all, OvsInstructionType.wireType, OvsInstructionType.size,
    OvsInstructionType.extensible, long]

theorem ofpactsPullOpenflow11Instructions_applyActions (aligned : actions.length % 8 = 0)
    (fits : 8 + actions.length < 2 ^ 16) :
    ofpactsPullOpenflow11Instructions (applyActions actions) (8 + actions.length) =
      (ofpactsFromOpenflow11 actions (actions.length / 8)).map fun translation =>
        translation.clearOnError.inInstruction := by
  have length : (applyActions actions).length = 8 + actions.length := by
    simp [applyActions]
    omega
  have stated : instructionLen (applyActions actions) = 8 + actions.length := by
    simpa [instructionLen, applyActions] using fits
  have type := @decodeOpenflow11Instruction_applyActions actions (by omega)
  have units : (8 + actions.length) / 8 = actions.length / 8 + 1 := by omega
  have valid : instructionIsValid (applyActions actions) (actions.length / 8 + 1) := by
    rw [instructionIsValid, stated]
    simp only [decide_eq_true_eq]
    omega
  have decoded : decodeOpenflow11Instructions (applyActions actions) ((8 + actions.length) / 8) =
      .ok (Function.update (fun _ => none) .applyActions (some (applyActions actions))) := by
    rw [decodeOpenflow11Instructions, units, decodeOpenflow11InstructionsLoop,
      if_pos ⟨by omega, valid⟩, type, stated, units, Nat.sub_self]
    cases actions.length / 8 <;> simp [decodeOpenflow11InstructionsLoop]
  have behind : (applyActions actions).drop 8 = actions := by
    simp [applyActions, zeros]
  have inside : ofpactsFromInstruction (applyActions actions) =
      ofpactsFromOpenflow11 actions (actions.length / 8) := by
    rw [ofpactsFromInstruction, behind, stated, Nat.add_sub_cancel_left]
  rw [ofpactsPullOpenflow11Instructions, if_neg (by omega), if_neg (by omega), decoded]
  simp only [ofpactsFromInstructions, Function.update_self, inside]
  cases ofpactsFromOpenflow11 actions (actions.length / 8) with
  | none => rfl
  | some translation =>
    obtain ⟨error, ofpacts⟩ := translation
    cases error <;> simp [Translation.clearOnError, Translation.inInstruction]

theorem decodersAgree_iff_of_aligned (aligned : actions.length % 8 = 0)
    (fits : 8 + actions.length < 2 ^ 16) :
    DecodersAgree actions ↔
      (actions.length = 16 →
        (ofpactsFromOpenflow10Remote actions 1).map Translation.clearOnError =
          (ofpactsFromOpenflow11 actions 2).map Translation.clearOnError) := by
  rw [DecodersAgree, ofpactsPullOpenflow11Instructions_applyActions aligned fits,
    ofpactsPullOpenflow11Actions, ofpactsPullActions, if_neg (by omega), if_neg (by omega),
    ← Function.comp_def, ← Option.map_map, (Option.map_injective inInstruction_injective).eq_iff]
  by_cases sixteen : actions.length = 16
  · rw [if_pos sixteen, sixteen]
    simp
  · rw [if_neg sixteen]
    simp [sixteen]

end Instruction

/-- The type of an action whose structure in OpenFlow 1.1 takes more than 8 bytes: `OUTPUT`,
`SET_DL_SRC`, `SET_DL_DST` and `EXPERIMENTER`. -/
def IsLong (a : List (BitVec 8)) : Prop := be16 a 0 ∈ [0, 3, 4, ofpat10Vendor]

def IsShortAction (a : List (BitVec 8)) : Prop :=
  be16 a 0 ∈ [5, 6, 9, 10] ∨ (be16 a 0 = 1 ∧ be16 a 4 &&& ~~~0xfff = 0) ∨
    (be16 a 0 = 2 ∧ u8 a 4 &&& ~~~7 = 0) ∨ (be16 a 0 = 7 ∧ u8 a 4 &&& ~~~0xfc = 0)

def IsUnknownLong (a : List (BitVec 8)) : Prop :=
  be16 a 0 ∈ [1, 2, 6, 7, 9, 10] ∨ (12 < be16 a 0 ∧ be16 a 0 ≠ ofpat10Vendor) ∨
    (be16 a 0 = ofpat10Vendor ∧ ∀ code, decodeNxastAction a ≠ .ok code)

/-- Both decoders reject the two actions, or the one action, of 16 bytes with the same error. -/
def RejectedAlike (actions : List (BitVec 8)) : Prop :=
  if actionLen actions = 8 then
    IsLong actions ∨ (IsShortAction actions ∧ IsLong (actions.drop 8))
  else IsUnknownLong actions

instance : DecidablePred IsLong := fun _ => inferInstanceAs (Decidable (_ ∈ _))

instance : DecidablePred IsShortAction := fun _ => inferInstanceAs (Decidable (_ ∨ _))

section Sixteen

variable {a : List (BitVec 8)}

theorem eq_of_ofWireType {type : BitVec 16} {code : Action11Code}
    (found : Action11Code.ofWireType type = some code) : type = code.wireType := by
  simpa [eq_comm] using List.find?_some found

theorem wireType_ne {type : BitVec 16} (missing : Action11Code.ofWireType type = none)
    (code : Action11Code) : type ≠ code.wireType := by
  rintro rfl
  rw [Action11Code.ofWireType_wireType] at missing
  cases missing

theorem type_cases (type : BitVec 16) :
    type ∈ [0, 1, 2, 3, 4, 5, 6, 7, 8, 9, 10, 11, 12] ∨ 12 < type := by
  by_cases above : 12 < type
  · exact .inr above
  · left
    have small : type.toNat ≤ 12 := Nat.not_lt.mp above
    obtain ⟨n, rfl⟩ : ∃ n : Fin 13, type = BitVec.ofNat 16 n :=
      ⟨⟨type.toNat, by omega⟩, by simp⟩
    revert n
    decide

theorem ofWireType_of_above {type : BitVec 16} (above : 12 < type) :
    Action11Code.ofWireType type = none ∧ ActionCode.ofWireType (.ofpat10 type) = none := by
  have other (code : BitVec 16) (low : code ≤ 12) : code ≠ type := by
    rintro rfl
    exact Nat.not_lt.mpr low above
  constructor
  · rw [Action11Code.ofWireType, List.find?_eq_none]
    intro code _
    simpa using other code.wireType (by cases code <;> decide)
  · rw [ActionCode.ofWireType, List.find?_eq_none]
    intro code _
    cases code <;> simp [ActionCode.wireType] <;> exact other _ (by decide)

theorem ofpactFromOpenflow11_short (len : actionLen a = 8) :
    (ofpactFromOpenflow11 a = badLen ↔ IsLong a) ∧
      ((∃ emitted, ofpactFromOpenflow11 a = .ok emitted) ↔ IsShortAction a) := by
  by_cases vendor : be16 a 0 = ofpat10Vendor
  · have fails : ofpactFromOpenflow11 a = badLen := by
      rw [ofpactFromOpenflow11, if_pos vendor, decodeNxastAction, if_pos (by omega)]
    rw [IsLong, IsShortAction, vendor, fails]
    simp [ofpat10Vendor]
  · cases found : Action11Code.ofWireType (be16 a 0) with
    | none =>
      have other := wireType_ne found
      have notLong : ¬ IsLong a := by
        simp only [IsLong, List.mem_cons, List.not_mem_nil, or_false, not_or]
        exact ⟨other .output, other .setDlSrc, other .setDlDst, vendor⟩
      have notShort : ¬ IsShortAction a := by
        simp only [IsShortAction, List.mem_cons, List.not_mem_nil, or_false, not_or]
        exact ⟨⟨other .setNwSrc, other .setNwDst, other .setTpSrc, other .setTpDst⟩,
          fun is => other .setVlanVid is.1, fun is => other .setVlanPcp is.1,
          fun is => other .setNwTos is.1⟩
      have fails : ofpactFromOpenflow11 a = .error (.ofperr .ofpbacBadType) := by
        rw [ofpactFromOpenflow11, if_neg vendor, decodeOpenflow11Type, found]
      rw [fails]
      exact ⟨iff_of_false (by simp) notLong, iff_of_false (by simp) notShort⟩
    | some code =>
      rw [ofpactFromOpenflow11, if_neg vendor, IsLong, IsShortAction, decodeOpenflow11Type, found,
        eq_of_ofWireType found, len]
      cases code
      all_goals
        simp [Action11Code.wireType, Action11Code.size, ofpactFromCode11, ofpat10Vendor,
          Except.map]
      case setVlanVid | setVlanPcp | setNwTos => split_ifs with fits <;> simp [fits]

theorem ofputilPortFromOfp11_cases (port : BitVec 32) :
    ofputilPortFromOfp11 port = .error (.ofperr .ofpbacBadOutPort) ∨
      ∃ back, ofputilPortFromOfp11 port = .ok back := by
  rw [ofputilPortFromOfp11]
  by_cases low : port.toNat < ofppMax
  · exact .inr ⟨_, if_pos low⟩
  · rw [if_neg low]
    by_cases high : port.toNat ≥ ofpp11Max
    · exact .inr ⟨_, if_pos high⟩
    · exact .inl (if_neg high)

theorem ofputilCheckOutputPort_cases (port : BitVec 16) (maxPorts : Int) :
    ofputilCheckOutputPort port maxPorts = none ∨
      ofputilCheckOutputPort port maxPorts = some .ofpbacBadOutPort := by
  rw [ofputilCheckOutputPort]
  split
  · exact .inl rfl
  · split
    · exact .inl rfl
    · exact .inr rfl

theorem outputFromOpenflow11_ne_badLen (a : List (BitVec 8)) :
    (outputFromOpenflow11 a).map some ≠ badLen := by
  rw [outputFromOpenflow11]
  obtain fails | ⟨port, decoded⟩ := ofputilPortFromOfp11_cases (be32 a 4)
  · rw [fails]
    nofun
  · obtain passes | fails := ofputilCheckOutputPort_cases port ofppMax
    · rw [decoded, Except.bind, passes]
      nofun
    · rw [decoded, Except.bind, fails]
      nofun

theorem ofpactFromCode_ne_none {code : ActionCode} (aligned : actionLen a % 8 = 0)
    (decoded : decodeNxastAction a = .ok code) : ofpactFromCode a code ≠ .ok none := by
  intro dropped
  rw [decodeNxastAction, reject_eq_ok, reject_eq_ok] at decoded
  obtain ⟨found, lenOk⟩ := decodeWireType_eq_ok decoded.2.2
  obtain ⟨rfl, -⟩ | ⟨-, ofpact, some, -⟩ := ofpactFromCode_suits aligned lenOk dropped
  · cases ofWireType_eq_some found
  · cases some

theorem ofpactFromOpenflow10Remote_eq_iff (len : actionLen a = 16) :
    ofpactFromOpenflow10Remote a = ofpactFromOpenflow11 a ↔ IsUnknownLong a := by
  by_cases vendor : be16 a 0 = ofpat10Vendor
  · rw [ofpactFromOpenflow10Remote, ofpactFromOpenflow11, decodeOpenflow10Action, if_pos vendor,
      if_pos vendor]
    cases decoded : decodeNxastAction a with
    | error fault => exact iff_of_true rfl (.inr (.inr ⟨vendor, fun code ok => by simp [decoded] at ok⟩))
    | ok code =>
      have notRemote : code ≠ .remote := by
        rintro rfl
        rw [decodeNxastAction, reject_eq_ok, reject_eq_ok] at decoded
        cases ofWireType_eq_some (decodeWireType_eq_ok decoded.2.2).1
      have kept := ofpactFromCode_ne_none (by omega) decoded
      simp only [if_neg notRemote]
      refine iff_of_false (Ne.symm kept) ?_
      rintro (listed | ⟨-, other⟩ | ⟨-, unknown⟩)
      · rw [vendor] at listed
        exact absurd listed (by decide)
      · exact other vendor
      · exact unknown code decoded
  · rw [ofpactFromOpenflow10Remote, ofpactFromOpenflow11, decodeOpenflow10Action, if_neg vendor,
      if_neg vendor, len, decodeOpenflow11Type, decodeWireType, len, IsUnknownLong]
    obtain low | above := type_cases (be16 a 0)
    · simp only [List.mem_cons, List.not_mem_nil, or_false] at low
      obtain type | type | type | type | type | type | type | type | type | type | type | type |
        type := low <;> rw [type]
      all_goals
        simp [Action11Code.ofWireType, Action11Code.all, Action11Code.wireType, Action11Code.size,
          ActionCode.ofWireType, ActionCode.all, ActionCode.wireType, ActionCode.lenOk,
          ActionCode.size, ActionCode.extensible, ofpat10Vendor, ofpactFromCode11]
      · exact (outputFromOpenflow11_ne_badLen a).symm
      · exact fun same => by cases same
      · exact fun same => by cases same
      · rw [remoteFromOpenflow10]
        obtain passes | fails := ofputilCheckOutputPort_cases (be16 a 4) ofppMax
        · rw [passes]
          exact fun same => by cases same
        · rw [fails]
          exact fun same => by cases same
    · obtain ⟨missing, missing10⟩ := ofWireType_of_above above
      rw [missing, missing10]
      exact iff_of_true rfl (.inr (.inl ⟨above, vendor⟩))

def settle : Except Fault (Option Ofpact) → Option Translation
  | .error .undefined => none
  | .error (.ofperr error) => some ⟨some error, []⟩
  | .ok ofpact => some ⟨none, ofpact.toList⟩

theorem settle_injective : Function.Injective settle := by
  rintro ((_ | _) | (_ | _)) ((_ | _) | (_ | _)) same <;> simp_all [settle]

theorem settle_clearOnError (decoded : Except Fault (Option Ofpact)) :
    (settle decoded).map Translation.clearOnError = settle decoded := by
  obtain (_ | _) | (_ | _) := decoded <;> rfl

theorem ofpactsFromOpenflow_single {unit turns : Nat}
    {decode : List (BitVec 8) → Except Fault (Option Ofpact)} (left : Nat) (positive : 0 < left)
    (valid : actionIsValid unit a left) (whole : actionLen a / unit = left) :
    ofpactsFromOpenflow unit decode (turns + 1) left a [] = settle (decode a) := by
  rw [ofpactsFromOpenflow, if_pos ⟨positive, valid⟩, whole, Nat.sub_self]
  obtain (_ | _) | ofpact := decode a
  · rfl
  · rfl
  · cases turns <;> simp [ofpactsFromOpenflow, finishActions, settle]

theorem ofpactsFromOpenflow10Remote_short (len : actionLen a = 8) :
    ofpactsFromOpenflow10Remote a 1 = some ⟨some .ofpbacBadLen, []⟩ := by
  have invalid : ¬ (0 < 1 ∧ actionIsValid 16 a 1) := by
    rw [actionIsValid, len]
    decide
  rw [ofpactsFromOpenflow10Remote, ofpactsFromOpenflow, if_neg invalid]
  rfl

theorem ofpactsFromOpenflow11_two (len : actionLen a = 8) (lenNext : actionLen (a.drop 8) = 8) :
    (ofpactsFromOpenflow11 a 2).map Translation.clearOnError = some ⟨some .ofpbacBadLen, []⟩ ↔
      ofpactFromOpenflow11 a = badLen ∨
        ((∃ emitted, ofpactFromOpenflow11 a = .ok emitted) ∧
          ofpactFromOpenflow11 (a.drop 8) = badLen) := by
  have valid : actionIsValid 8 a 2 := by
    rw [actionIsValid, len]
    decide
  have validNext : actionIsValid 8 (a.drop 8) 1 := by
    rw [actionIsValid, lenNext]
    decide
  rw [ofpactsFromOpenflow11, ofpactsFromOpenflow, if_pos ⟨by decide, valid⟩, len]
  obtain (error | _) | first := ofpactFromOpenflow11 a
  · simp [Translation.clearOnError]
  · simp
  · simp only [ofpactsFromOpenflow, if_pos (And.intro Nat.one_pos validNext), lenNext]
    obtain (error | _) | second := ofpactFromOpenflow11 (a.drop 8)
    · simp [Translation.clearOnError]
    · simp
    · simp [Translation.clearOnError, finishActions]

end Sixteen

theorem decodersAgree_iff {actions : List (BitVec 8)} (wellFormed : HasWellFormedLengths actions)
    (fits : 8 + actions.length < 2 ^ 16) :
    DecodersAgree actions ↔ (actions.length = 16 → RejectedAlike actions) := by
  rw [decodersAgree_iff_of_aligned wellFormed.aligned fits]
  refine imp_congr_right fun sixteen => ?_
  have nonempty : actions ≠ [] := List.ne_nil_of_length_pos (by omega)
  obtain ⟨aligned, long, inside, rest⟩ := wellFormed.head nonempty
  rw [RejectedAlike]
  by_cases short : actionLen actions = 8
  · rw [short] at rest
    have length : (actions.drop 8).length = 8 := by rw [List.length_drop, sixteen]
    obtain ⟨alignedNext, longNext, insideNext, -⟩ :=
      rest.head (List.ne_nil_of_length_pos (by omega))
    have lenNext : actionLen (actions.drop 8) = 8 := by omega
    have first := ofpactFromOpenflow11_short short
    have second := ofpactFromOpenflow11_short lenNext
    rw [if_pos short, ofpactsFromOpenflow10Remote_short short, ← first.1, ← first.2, ← second.1,
      ← ofpactsFromOpenflow11_two short lenNext]
    exact eq_comm
  · have len : actionLen actions = 16 := by omega
    have valid : actionIsValid 16 actions 1 := by
      rw [actionIsValid, len]
      decide
    have valid11 : actionIsValid 8 actions 2 := by
      rw [actionIsValid, len]
      decide
    rw [if_neg short, ofpactsFromOpenflow10Remote, ofpactsFromOpenflow11,
      ofpactsFromOpenflow_single 1 Nat.one_pos valid (by omega),
      ofpactsFromOpenflow_single 2 Nat.two_pos valid11 (by omega), settle_clearOnError,
      settle_clearOnError, settle_injective.eq_iff, ofpactFromOpenflow10Remote_eq_iff len]

end LazyCtrl
