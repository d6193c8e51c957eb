import LazyCtrl.Controller.PacketIn
import LazyCtrl.Ofp.ClsRule
import LazyCtrl.Lib.Run

/-!
# Removed flows

The controller adds two entries for a pair of hosts whose ports it has learned.  When a switch
reports that one of them is gone, `processFlowRemovedMessage` has the other one deleted, which the
switch reports in turn.  The match of an entry is changed on the way: the switch normalises it,
encodes it again, and the controller exchanges its addresses and replaces its wildcards.
-/

namespace LazyCtrl
namespace Controller

open Bytes

/-- `struct rule` of the switch, for a flow that an OpenFlow 1.0 message has added. -/
structure Rule where
  cr : ClsRule
  flowCookie : BitVec 64
  sendFlowRemoved : Bool
  ofpacts : List Ofpact
  deriving DecidableEq, Repr

def clsRuleOf (fm : OfputilFlowMod) : ClsRule :=
  ofputilNormalizeRule (ofputilClsRuleFromOfp10Match fm.ofpMatch fm.priority.toNat)

def addFlow (fm : OfputilFlowMod) : Rule :=
  ⟨clsRuleOf fm, fm.newCookie, fm.flags.getLsbD 0, fm.ofpacts⟩

def ofpactOutputsToPort (ofpact : Ofpact) (port : BitVec 16) : Bool :=
  match ofpact with
  | .output out _ | .enqueue out _ | .remote out _ => out = port
  | .controller .. => port = ofppController
  | _ => false

def ofprotoRuleHasOutPort (rule : Rule) (port : BitVec 16) : Bool :=
  port = ofppNone ∨ rule.ofpacts.any (ofpactOutputsToPort · port)

def ofprotoRuleIsHidden (rule : Rule) : Bool := 0xffff < rule.cr.priority

def collectsLoose (fm : OfputilFlowMod) (rule : Rule) : Bool :=
  clsRuleIsLooseMatch rule.cr (clsRuleOf fm) && !ofprotoRuleIsHidden rule &&
    ofprotoRuleHasOutPort rule fm.outPort

def OFMatch.ofOfp10 (ofpMatch : Ofp10Match) : OFMatch where
  wildcards := ofpMatch.wildcards
  inputPort := ofpMatch.inPort
  dataLayerSource := put48 ofpMatch.dlSrc
  dataLayerDestination := put48 ofpMatch.dlDst
  dataLayerVirtualLan := ofpMatch.dlVlan
  dataLayerVirtualLanPriorityCodePoint := ofpMatch.dlVlanPcp
  dataLayerType := ofpMatch.dlType
  networkTypeOfService := ofpMatch.nwTos
  networkProtocol := ofpMatch.nwProto
  networkSource := ofpMatch.nwSrc
  networkDestination := ofpMatch.nwDst
  transportSource := ofpMatch.tpSrc
  transportDestination := ofpMatch.tpDst

def ofprotoRuleSendRemoved (stats : Rule → OFFlowRemoved) (rule : Rule) : Option OFFlowRemoved :=
  if ofprotoRuleIsHidden rule ∨ !rule.sendFlowRemoved then none
  else some { stats rule with
    ofMatch := .ofOfp10 (ofputilClsRuleToOfp10Match rule.cr)
    cookie := rule.flowCookie
    priority := BitVec.ofNat 16 rule.cr.priority }

def removedWildcards (fastWildcards : BitVec 32) : BitVec 32 :=
  fastWildcards &&& ~~~ofpfwDlVlan &&& ~~~ofpfwDlSrc &&& ~~~ofpfwDlDst &&& ~~~ofpfwNwSrcMask &&&
    ~~~ofpfwNwDstMask

variable {σ : Type*}

def processFlowRemovedMessage [DecidableEq σ] (sw : IofSwitch σ)
    (flowRemovedMessage : OFFlowRemoved) (dcm : Dcm σ) : PacketInResult σ :=
  if flowRemovedMessage.cookie ≠ dcmCookie then ⟨[], dcm, .ok .continue⟩
  else
    let ofMatch := flowRemovedMessage.ofMatch
    let dcm := dcm.removeFromPortMap sw.object (macToLong ofMatch.dataLayerSource)
      ofMatch.dataLayerVirtualLan
    match sw.fastWildcards with
    | none => ⟨[], dcm, .error .nullPointer⟩
    | some fastWildcards =>
      ⟨[writeFlowMod 0 ofpfcDelete 0xffffffff
          { ofMatch.reversed with wildcards := removedWildcards fastWildcards } ofMatch.inputPort],
        dcm, .ok .continue⟩

/-- A switch and the controller, with the messages between them and the number of reports so far. -/
structure Exchange (σ : Type*) where
  rules : List Rule
  toController : List OFFlowRemoved
  toSwitch : List OFMessage
  dcm : Dcm σ
  reported : Nat

inductive ExchangeEvent where
  | expire (i : Nat) (stats : Rule → OFFlowRemoved)
  | handleRemoved
  | handleFlowMod (stats : Rule → OFFlowRemoved)

namespace Exchange

def start (rules : List Rule) (dcm : Dcm σ) : Exchange σ := ⟨rules, [], [], dcm, 0⟩

def remove (state : Exchange σ) (stats : Rule → OFFlowRemoved) (gone kept : List Rule) :
    Exchange σ :=
  let reports := gone.filterMap (ofprotoRuleSendRemoved stats)
  { state with
    rules := kept
    toController := state.toController ++ reports
    reported := state.reported + reports.length }

def handleFlowMod (state : Exchange σ) (stats : Rule → OFFlowRemoved) (message : OFMessage) :
    Exchange σ :=
  match message.writeTo.bind (ofputilDecodeFlowMod false) with
  | some (.ok fm) =>
    if fm.command = ofpfcDelete then
      state.remove stats (state.rules.filter (collectsLoose fm))
        (state.rules.filter fun rule => !collectsLoose fm rule)
    else state
  | _ => state

/-- An entry that is left can still cause three steps, a report two and a message one. -/
def work (state : Exchange σ) : Nat :=
  3 * state.rules.length + 2 * state.toController.length + state.toSwitch.length

theorem remove_counts (state : Exchange σ) (stats : Rule → OFFlowRemoved) (gone kept : List Rule)
    (all : gone.length + kept.length = state.rules.length) :
    (state.remove stats gone kept).work + gone.length ≤ state.work ∧
      (state.remove stats gone kept).reported + (state.remove stats gone kept).rules.length ≤
        state.reported + state.rules.length := by
  have reports := List.length_filterMap_le (ofprotoRuleSendRemoved stats) gone
  simp only [remove, work, List.length_append]
  omega

theorem handleFlowMod_counts (state : Exchange σ) (stats : Rule → OFFlowRemoved)
    (message : OFMessage) :
    (state.handleFlowMod stats message).work ≤ state.work ∧
      (state.handleFlowMod stats message).reported +
        (state.handleFlowMod stats message).rules.length ≤ state.reported + state.rules.length := by
  rw [handleFlowMod]
  split
  · rename_i fm _
    split
    · have counts := state.remove_counts stats (state.rules.filter (collectsLoose fm))
        (state.rules.filter fun rule => !collectsLoose fm rule)
        (List.length_eq_length_filter_add _).symm
      exact ⟨Nat.le_of_add_right_le counts.1, counts.2⟩
    · exact ⟨Nat.le_refl _, Nat.le_refl _⟩
  · exact ⟨Nat.le_refl _, Nat.le_refl _⟩

theorem work_start (rules : List Rule) (dcm : Dcm σ) :
    (start rules dcm).work = 3 * rules.length := rfl

variable [DecidableEq σ]

def step (sw : IofSwitch σ) (state : Exchange σ) : ExchangeEvent → Option (Exchange σ)
  | .expire i stats =>
    state.rules[i]?.map fun rule => state.remove stats [rule] (state.rules.eraseIdx i)
  | .handleRemoved =>
    match state.toController with
    | [] => none
    | report :: rest =>
      let result := processFlowRemovedMessage sw report state.dcm
      some { state with
        toController := rest
        toSwitch := state.toSwitch ++ result.messages
        dcm := result.dcm }
  | .handleFlowMod stats =>
    match state.toSwitch with
    | [] => none
    | message :: rest => some ({ state with toSwitch := rest }.handleFlowMod stats message)

theorem step_counts {sw : IofSwitch σ} {state next : Exchange σ} {event : ExchangeEvent}
    (taken : step sw state event = some next) :
    next.work < state.work ∧
      next.reported + next.rules.length ≤ state.reported + state.rules.length := by
  cases event with
  | expire i stats =>
    obtain ⟨rule, found, rfl⟩ := Option.map_eq_some_iff.mp taken
    have inside := (List.getElem?_eq_some_iff.mp found).1
    have counts := state.remove_counts stats [rule] (state.rules.eraseIdx i)
      (by rw [List.length_eraseIdx_of_lt inside, List.length_singleton]; omega)
    exact ⟨counts.1, counts.2⟩
  | handleRemoved =>
    rw [step] at taken
    split at taken
    · cases taken
    · rename_i report rest waiting
      obtain rfl := Option.some.inj taken
      have answers : (processFlowRemovedMessage sw report state.dcm).messages.length ≤ 1 := by
        rw [processFlowRemovedMessage]
        split
        · exact Nat.zero_le _
        · dsimp only
          split <;> simp
      simp only [work, waiting, List.length_append, List.length_cons]
      omega
  | handleFlowMod stats =>
    rw [step] at taken
    split at taken
    · cases taken
    · rename_i message rest waiting
      obtain rfl := Option.some.inj taken
      have counts := handleFlowMod_counts { state with toSwitch := rest } stats message
      refine ⟨Nat.lt_of_le_of_lt counts.1 ?_, counts.2⟩
      simp [work, waiting]

theorem exec_bounds {sw : IofSwitch σ} {rules : List Rule} {dcm : Dcm σ}
    {events : List ExchangeEvent} {final : Exchange σ}
    (run : Run.exec (step sw) (start rules dcm) events = some final) :
    final.reported ≤ rules.length ∧ events.length ≤ 3 * rules.length := by
  have reported : final.reported + final.rules.length ≤ rules.length :=
    Run.exec_preserves (fun state => state.reported + state.rules.length ≤ rules.length)
      (fun bound taken => Nat.le_trans (step_counts taken).2 bound)
      (Nat.le_of_eq (Nat.zero_add _)) run
  have steps := Run.exec_length_le work (fun taken => (step_counts taken).1) run
  rw [work_start] at steps
  omega

theorem step_of_waiting (sw : IofSwitch σ) (state : Exchange σ) (stats : Rule → OFFlowRemoved)
    (waiting : state.toController ≠ [] ∨ state.toSwitch ≠ []) :
    (step sw state .handleRemoved).isSome ∨ (step sw state (.handleFlowMod stats)).isSome := by
  refine waiting.imp (fun some => ?_) fun some => ?_
  · obtain ⟨report, rest, eq⟩ := List.exists_cons_of_ne_nil some
    simp [step, eq]
  · obtain ⟨message, rest, eq⟩ := List.exists_cons_of_ne_nil some
    simp [step, eq]

end Exchange

def vlanPart (dlVlan : BitVec 16) : BitVec 16 × BitVec 16 :=
  if dlVlan = ofp10VlanNone then (0, 0xffff) else ((dlVlan &&& 0x0fff) ||| 0x1000, 0x1fff)

def addressRule (inPort : Option (BitVec 16)) (dlSrc dlDst : BitVec 48)
    (vlan : BitVec 16 × BitVec 16) (priority : Nat) : ClsRule where
  flow := { inPort := inPort.getD 0, vlanTci := vlan.1, dlSrc, dlDst }
  wc := {
    inPort := inPort.isNone, dlType := true, nwProto := true, nwDscp := true
    nwSrcMask := 0, nwDstMask := 0, vlanTciMask := vlan.2, tpSrcMask := 0, tpDstMask := 0
    dlSrcMask := 0xffffffffffff, dlDstMask := 0xffffffffffff }
  priority

theorem clsRule_of_wildcards {ofpMatch : Ofp10Match} (priority : Nat) (anyPort : Bool)
    (wildcards : ofpMatch.wildcards = if anyPort then 0x3000f1 else 0x3000f0) :
    ofputilNormalizeRule (ofputilClsRuleFromOfp10Match ofpMatch priority) =
      addressRule (if anyPort then none else some ofpMatch.inPort) ofpMatch.dlSrc ofpMatch.dlDst
        (vlanPart ofpMatch.dlVlan) priority := by
  have ones (x : BitVec 48) : x &&& 0xffffffffffff#48 = x := BitVec.and_allOnes
  have tci (dlVlan : BitVec 16) (dlVlanPcp : BitVec 8) :
      vlanTciOf dlVlan dlVlanPcp &&& 0x1fff#16 = dlVlan &&& 0x0fff#16 ||| 0x1000#16 := by
    apply BitVec.eq_of_getLsbD_eq
    intro i inside
    interval_cases i <;> simp [vlanTciOf]
  have covered (dlVlan : BitVec 16) : (dlVlan &&& 0x0fff#16 ||| 0x1000#16) &&& 0x1fff#16 =
      dlVlan &&& 0x0fff#16 ||| 0x1000#16 := by
    rw [← tci dlVlan 0, BitVec.and_assoc, BitVec.and_self]
  have wc : ofputilWildcardFromOfpfw10 (ofpMatch.wildcards &&& ofpfw10All) = {
      inPort := anyPort, dlType := true, nwProto := true, nwDscp := true
      nwSrcMask := 0xffffffff, nwDstMask := 0xffffffff, vlanTciMask := 0x1fff, tpSrcMask := 0
      tpDstMask := 0, dlSrcMask := 0xffffffffffff, dlDstMask := 0xffffffffffff } := by
    rw [wildcards]
    cases anyPort <;> decide
  have some : ofpMatch.wildcards &&& ofpfw10All ≠ 0 := by
    rw [wildcards]
    cases anyPort <;> decide
  have vlan : (ofpMatch.wildcards &&& ofpfw10All).getLsbD 1 = false := by
    rw [wildcards]
    cases anyPort <;> decide
  rw [ofputilNormalizeRule_of_zeroed
    (isOfp10_ofputilClsRuleFromOfp10Match ofpMatch priority).zeroed]
  rw [ofputilClsRuleFromOfp10Match]
  simp only [wc, if_neg some, vlan]
  by_cases untagged : ofpMatch.dlVlan = ofp10VlanNone
  · cases anyPort <;> simp [untagged, clsRuleZeroWildcardedFields, mayMatch, FlowWildcards.cleared,
      addressRule, vlanPart, ones, BitVec.and_assoc]
  · cases anyPort <;> simp [untagged, clsRuleZeroWildcardedFields, mayMatch, FlowWildcards.cleared,
      addressRule, vlanPart, ones, tci, covered, BitVec.and_assoc]

theorem vlanPart_ofputilClsRuleToOfp10Match (inPort : BitVec 16) (dlSrc dlDst : BitVec 48)
    (dlVlan : BitVec 16) (priority : Nat) :
    vlanPart (ofputilClsRuleToOfp10Match
      (addressRule (some inPort) dlSrc dlDst (vlanPart dlVlan) priority)).dlVlan =
        vlanPart dlVlan := by
  by_cases untagged : dlVlan = ofp10VlanNone
  · simp [ofputilClsRuleToOfp10Match, addressRule, vlanPart, untagged, vlanToOfp10]
  · have vid : (dlVlan &&& 0x0fff#16 ||| 0x1000#16) &&& 0x0fff#16 = dlVlan &&& 0x0fff#16 := by
      apply BitVec.eq_of_getLsbD_eq
      intro i inside
      interval_cases i <;> simp
    have tagged : dlVlan &&& 0x0fff#16 ≠ ofp10VlanNone := fun none => by
      have bit := congrArg (fun vid : BitVec 16 => vid.getLsbD 12) none
      simp [ofp10VlanNone] at bit
    simp [ofputilClsRuleToOfp10Match, addressRule, vlanPart, untagged, vlanToOfp10, vid, tagged,
      BitVec.and_assoc]

theorem clsRuleIsLooseMatch_addressRule (inPort : BitVec 16) (dlSrc dlDst : BitVec 48)
    (vlan : BitVec 16 × BitVec 16) (priority other : Nat) :
    clsRuleIsLooseMatch (addressRule (some inPort) dlSrc dlDst vlan priority)
      (addressRule none dlSrc dlDst vlan other) := by
  simp [clsRuleIsLooseMatch, flowWildcardsHasExtra, flowEqualExcept, addressRule]

theorem ofpactsPullOpenflow10_output (port maxLength : BitVec 16) :
    ofpactsPullOpenflow10 (writeActions [newOFActionOutput port maxLength]) 8 =
      some (match ofputilCheckOutputPort port ofppMax with
        | none => ⟨none, [.output port maxLength]⟩
        | some error => ⟨some error, []⟩) := by
  have wire : writeActions [newOFActionOutput port maxLength] =
      ActionCode.output.wireType.header 8 ++ (put16 port ++ put16 maxLength) := rfl
  have stated := actionLen_header ActionCode.output.wireType 8 (by decide)
    (put16 port ++ put16 maxLength)
  have code : decodeOpenflow10Action (ActionCode.output.wireType.header 8 ++
      (put16 port ++ put16 maxLength)) = .ok .output :=
    decodeOpenflow10Action_header (by decide) rfl _
  have valid : actionIsValid 8 (ActionCode.output.wireType.header 8 ++
      (put16 port ++ put16 maxLength)) 1 := decide_eq_true (by rw [stated]; decide)
  have output : outputFromOpenflow10 (ActionCode.output.wireType.header 8 ++
      (put16 port ++ put16 maxLength)) =
        accept (ofputilCheckOutputPort port ofppMax) (.output port maxLength) := by
    simp [outputFromOpenflow10, ActionCode.wireType, WireType.header]
  rw [wire, ofpactsPullOpenflow10, if_neg (by decide),
    if_neg (by simp [WireType.header, ActionCode.wireType]), translateActions, if_neg (by decide),
    ofpactsFromOpenflow10]
  simp only [ofpactsFromOpenflow, valid, ofpactFromOpenflow10, code, ofpactFromCode, output, stated]
  cases ofputilCheckOutputPort port ofppMax <;> rfl

def decodedFlowMod (command : BitVec 16) (bufferId : BitVec 32) (ofMatch : OFMatch)
    (outPort : BitVec 16) : OfputilFlowMod where
  ofpMatch := ofMatch.toOfp10
  priority := if ofMatch.wildcards &&& ofpfw10All = 0 then 0xffff else 100
  newCookie := dcmCookie
  command
  tableId := 0xff
  idleTimeout := 600
  hardTimeout := 0
  bufferId
  outPort := if command = ofpfcDelete then outPort else ofppNone
  flags := if command = ofpfcDelete then 0 else 1
  ofpacts := [.output outPort 0xffff]

theorem writeFlowMod_decoded_iff {ofMatch : OFMatch} (addresses : ofMatch.HasAddresses)
    (command : BitVec 16) (bufferId : BitVec 32) (outPort : BitVec 16) :
    ∃ wire, (writeFlowMod 0 command bufferId ofMatch outPort).writeTo = some wire ∧
      ∀ fm, ofputilDecodeFlowMod false wire = some (.ok fm) ↔
        ofputilCheckOutputPort outPort ofppMax = none ∧
          fm = decodedFlowMod command bufferId ofMatch outPort := by
  have translated := ofpactsPullOpenflow10_output outPort 0xffff
  obtain ⟨flowMod, wire, body, written, accepted, refused⟩ :
      ∃ flowMod wire, (writeFlowMod 0 command bufferId ofMatch outPort).body = .flowMod flowMod ∧
        (writeFlowMod 0 command bufferId ofMatch outPort).writeTo = some wire ∧
        (ofputilCheckOutputPort outPort ofppMax = none →
          DecodesFlowMod false flowMod [.output outPort 0xffff] wire) ∧
        ∀ error, ofputilCheckOutputPort outPort ofppMax = some error →
          ofputilDecodeFlowMod false wire = some (.error (.ofperr error)) := by
    refine ⟨_, _, rfl, rfl, fun check => ?_, fun error check => ?_⟩
    · rw [check] at translated
      exact (decodesFlowMod_of_translated false 0 addresses rfl rfl
        (by simp [newOFActionOutput])).1 translated
    · rw [check] at translated
      exact (decodesFlowMod_of_translated false 0 addresses rfl rfl
        (by simp [newOFActionOutput])).2 error translated
  obtain rfl := OFBody.flowMod.inj body
  refine ⟨wire, written, fun fm => ?_⟩
  cases check : ofputilCheckOutputPort outPort ofppMax with
  | none =>
    rw [show ofputilDecodeFlowMod false wire = _ from accepted check]
    simp [decodedFlowMod, eq_comm]
  | some error => simp [refused error check]

theorem hasAddresses_of_loadFromPacket {this ofMatch : OFMatch} {data : List (BitVec 8)}
    {inputPort : BitVec 16} (loaded : this.loadFromPacket data inputPort = .ok ofMatch) :
    ofMatch.HasAddresses := by
  by_cases long : 14 ≤ data.length
  · have loadable := (this.loadable_of_loadFromPacket long) ⟨ofMatch, loaded⟩
    rw [this.loadFromPacket_eq long inputPort loadable] at loaded
    rw [← Except.ok.inj loaded, OFMatch.withHeaders]
    obtain ⟨_, _, transport⟩ := OFMatch.exists_withTransport
      (OFMatch.withNetwork (OFMatch.withDataLayer _ data) data (payloadOfs data)).1 data _
    obtain ⟨_, _, _, _, network⟩ := OFMatch.exists_withNetwork (OFMatch.withDataLayer _ data) data
      (payloadOfs data)
    rw [transport, network]
    simp only [OFMatch.HasAddresses, OFMatch.withDataLayer, List.length_take, List.length_drop]
    omega
  · obtain ⟨cause, stopped⟩ := this.loadFromPacket_of_short (Nat.lt_of_not_le long) inputPort
    rw [stopped] at loaded
    cases loaded

section Learned

variable [DecidableEq σ]

/-- The packet-in takes the branch for a receiver whose port was learned. -/
structure TakesLearned (sw : IofSwitch σ) (pi : OFPacketIn) (dcm : Dcm σ) (ofMatch : OFMatch)
    (outPort : BitVec 16) : Prop where
  loaded : newOFMatch.loadFromPacket pi.packetData pi.inPort = .ok ofMatch
  notReserved : ¬IsReserved (macToLong ofMatch.dataLayerDestination)
  found : ((learn sw pi ofMatch dcm).getFromPortMap sw.object
    (macToLong ofMatch.dataLayerDestination) ofMatch.dataLayerVirtualLan).1 = some outPort
  elsewhere : outPort ≠ ofMatch.inputPort

/-- The switch stores the rule for a message that adds a flow. -/
def Stores (message : OFMessage) (rule : Rule) : Prop :=
  ∃ wire fm, message.writeTo = some wire ∧ ofputilDecodeFlowMod false wire = some (.ok fm) ∧
    fm.command = ofpfcAdd ∧ rule = addFlow fm

def Deletes (message : OFMessage) (rule : Rule) : Prop :=
  ∃ wire fm, message.writeTo = some wire ∧ ofputilDecodeFlowMod false wire = some (.ok fm) ∧
    fm.command = ofpfcDelete ∧ collectsLoose fm rule

/-- The removal of a rule is reported, and the controller answers with the deletion of another
one. -/
def TakesAlong (sw : IofSwitch σ) (removed other : Rule) : Prop :=
  ∀ stats dcm, ∃ report message, ofprotoRuleSendRemoved stats removed = some report ∧
    (processFlowRemovedMessage sw report dcm).messages = [message] ∧ Deletes message other

/-- A rule is left without another one only while a report or a deletion is on its way. -/
def Exchange.Together (gone other : Rule) (state : Exchange σ) : Prop :=
  other ∈ state.rules → gone ∈ state.rules ∨
    (∃ stats, ∃ report ∈ state.toController, ofprotoRuleSendRemoved stats gone = some report) ∨
    ∃ message ∈ state.toSwitch, Deletes message other

section Together

variable {sw : IofSwitch σ} {gone other : Rule} {state : Exchange σ}

theorem Exchange.Together.remove (together : state.Together gone other)
    (along : TakesAlong sw gone other) (stats : Rule → OFFlowRemoved) {removed kept : List Rule}
    (all : (removed ++ kept).Perm state.rules) :
    (state.remove stats removed kept).Together gone other := by
  intro left
  rcases together (all.mem_iff.mp (List.mem_append_right _ left)) with
    there | ⟨others, report, waiting, sent⟩ | deletion
  · rcases List.mem_append.mp (all.mem_iff.mpr there) with now | still
    · obtain ⟨report, -, sent, -⟩ := along stats state.dcm
      exact .inr (.inl ⟨stats, report,
        List.mem_append_right _ (List.mem_filterMap.mpr ⟨gone, now, sent⟩), sent⟩)
    · exact .inl still
  · exact .inr (.inl ⟨others, report, List.mem_append_left _ waiting, sent⟩)
  · exact .inr (.inr deletion)

theorem Exchange.Together.handleFlowMod (along : TakesAlong sw gone other)
    (stats : Rule → OFFlowRemoved) {message : OFMessage}
    (together : ¬Deletes message other → state.Together gone other) :
    (state.handleFlowMod stats message).Together gone other := by
  by_cases deletes : Deletes message other
  · obtain ⟨wire, fm, written, decoded, command, collects⟩ := deletes
    intro left
    simp only [Exchange.handleFlowMod, written, Option.bind_some, decoded, if_pos command,
      Exchange.remove, List.mem_filter, collects] at left
    exact absurd left.2 (by decide)
  · have together := together deletes
    rw [Exchange.handleFlowMod]
    split
    · split
      · exact together.remove along stats (List.filter_append_perm _ _)
      · exact together
    · exact together

theorem Exchange.Together.step (together : state.Together gone other)
    (along : TakesAlong sw gone other) {event : ExchangeEvent} {next : Exchange σ}
    (taken : Exchange.step sw state event = some next) : next.Together gone other := by
  cases event with
  | expire i stats =>
    obtain ⟨rule, found, rfl⟩ := Option.map_eq_some_iff.mp taken
    obtain ⟨inside, rfl⟩ := List.getElem?_eq_some_iff.mp found
    exact together.remove along stats (List.getElem_cons_eraseIdx_perm inside)
  | handleRemoved =>
    rw [Exchange.step] at taken
    split at taken
    · cases taken
    · rename_i report rest waiting
      obtain rfl := Option.some.inj taken
      intro left
      rcases together left with there | ⟨stats, other, inside, sent⟩ | ⟨message, inside, deletes⟩
      · exact .inl there
      · rw [waiting] at inside
        rcases List.mem_cons.mp inside with rfl | later
        · obtain ⟨report, message, again, answer, deletes⟩ := along stats state.dcm
          obtain rfl := Option.some.inj (sent.symm.trans again)
          exact .inr (.inr ⟨message, List.mem_append_right _ (by simp [answer]), deletes⟩)
        · exact .inr (.inl ⟨stats, other, later, sent⟩)
      · exact .inr (.inr ⟨message, List.mem_append_left _ inside, deletes⟩)
  | handleFlowMod stats =>
    rw [Exchange.step] at taken
    split at taken
    · cases taken
    · rename_i message rest waiting
      obtain rfl := Option.some.inj taken
      refine Exchange.Together.handleFlowMod along stats fun spares left => ?_
      refine (together left).imp_right (Or.imp_right ?_)
      rintro ⟨earlier, inside, deletes⟩
      rw [waiting] at inside
      rcases List.mem_cons.mp inside with rfl | later
      · exact absurd deletes spares
      · exact ⟨earlier, later, deletes⟩

theorem Exchange.mem_rules_of_quiet (along : TakesAlong sw gone other) {rules : List Rule}
    (both : gone ∈ rules) {dcm : Dcm σ} {events : List ExchangeEvent} {final : Exchange σ}
    (run : Run.exec (Exchange.step sw) (Exchange.start rules dcm) events = some final)
    (reports : final.toController = []) (messages : final.toSwitch = [])
    (left : other ∈ final.rules) : gone ∈ final.rules := by
  have together : final.Together gone other :=
    Run.exec_preserves (Exchange.Together gone other)
      (fun together taken => together.step along taken) (fun _ => .inl both) run
  simpa [reports, messages] using together left

end Together

def learnedRule (inPort : BitVec 16) (dlSrc dlDst : BitVec 48) (dlVlan outPort : BitVec 16) :
    Rule :=
  ⟨addressRule (some inPort) dlSrc dlDst (vlanPart dlVlan) 100, dcmCookie, true,
    [.output outPort 0xffff]⟩

theorem eq_learnedRule_of_stores {ofMatch : OFMatch} {bufferId : BitVec 32} {outPort : BitVec 16}
    {rule : Rule} (addresses : ofMatch.HasAddresses)
    (wildcards : ofMatch.wildcards = learnedWildcards ofpfwAll)
    (stores : Stores (writeFlowMod 0 ofpfcAdd bufferId ofMatch outPort) rule) :
    ofputilCheckOutputPort outPort ofppMax = none ∧
      rule = learnedRule ofMatch.inputPort ofMatch.toOfp10.dlSrc ofMatch.toOfp10.dlDst
        ofMatch.dataLayerVirtualLan outPort := by
  obtain ⟨wire, fm, written, decoded, -, rfl⟩ := stores
  obtain ⟨wire', written', decodes⟩ := writeFlowMod_decoded_iff addresses ofpfcAdd bufferId outPort
  obtain rfl := Option.some.inj (written'.symm.trans written)
  obtain ⟨check, rfl⟩ := (decodes fm).mp decoded
  refine ⟨check, ?_⟩
  have priority : (decodedFlowMod ofpfcAdd bufferId ofMatch outPort).priority = 100 :=
    if_neg (by rw [wildcards]; decide)
  have cr : clsRuleOf (decodedFlowMod ofpfcAdd bufferId ofMatch outPort) = _ :=
    clsRule_of_wildcards _ false (show ofMatch.toOfp10.wildcards = _ from wildcards)
  rw [addFlow, cr, priority]
  simp [learnedRule, decodedFlowMod, OFMatch.toOfp10, show ofpfcAdd ≠ ofpfcDelete by decide]

theorem takesAlong_learnedRule {sw : IofSwitch σ} (fast : sw.fastWildcards = some ofpfwAll)
    {inPort outPort dlVlan otherVlan : BitVec 16} (dlSrc dlDst : BitVec 48)
    (check : ofputilCheckOutputPort inPort ofppMax = none)
    (sameVlan : vlanPart otherVlan = vlanPart dlVlan) :
    TakesAlong sw (learnedRule inPort dlSrc dlDst dlVlan outPort)
      (learnedRule outPort dlDst dlSrc otherVlan inPort) := by
  intro stats dcm
  have vlan := vlanPart_ofputilClsRuleToOfp10Match inPort dlSrc dlDst dlVlan 100
  have sent : ofprotoRuleSendRemoved stats (learnedRule inPort dlSrc dlDst dlVlan outPort) = _ :=
    if_neg (by simp [learnedRule, ofprotoRuleIsHidden, addressRule])
  obtain ⟨deletion, deletionEq⟩ : ∃ deletion : OFMatch, deletion = { (OFMatch.ofOfp10
      (ofputilClsRuleToOfp10Match (learnedRule inPort dlSrc dlDst dlVlan outPort).cr)).reversed with
        wildcards := removedWildcards ofpfwAll } := ⟨_, rfl⟩
  have addresses : deletion.HasAddresses := by
    rw [deletionEq]
    exact ⟨rfl, rfl⟩
  obtain ⟨wire, written, decodes⟩ :=
    writeFlowMod_decoded_iff addresses ofpfcDelete 0xffffffff inPort
  have cr : clsRuleOf (decodedFlowMod ofpfcDelete 0xffffffff deletion inPort) =
      addressRule none dlDst dlSrc (vlanPart otherVlan) 100 := by
    have wildcards : deletion.wildcards = removedWildcards ofpfwAll := by rw [deletionEq]
    have exchanged : deletion.toOfp10.dlSrc = dlDst ∧ deletion.toOfp10.dlDst = dlSrc ∧
        vlanPart deletion.toOfp10.dlVlan = vlanPart otherVlan := by
      rw [deletionEq]
      exact ⟨be48_put48_end _, be48_put48_end _, vlan.trans sameVlan.symm⟩
    have priority : (decodedFlowMod ofpfcDelete 0xffffffff deletion inPort).priority = 100 :=
      if_neg (by rw [wildcards]; decide)
    rw [clsRuleOf, priority, decodedFlowMod,
      clsRule_of_wildcards _ true (wildcards.trans (by decide)), exchanged.1, exchanged.2.1,
      exchanged.2.2]
    rfl
  refine ⟨_, _, sent, ?_, wire, _, written, (decodes _).mpr ⟨check, rfl⟩, rfl, ?_⟩
  · simp only [processFlowRemovedMessage, fast, deletionEq]
    rfl
  · have covered : clsRuleIsLooseMatch (learnedRule outPort dlDst dlSrc otherVlan inPort).cr _ :=
      clsRuleIsLooseMatch_addressRule outPort dlDst dlSrc (vlanPart otherVlan) 100 100
    rw [collectsLoose, cr, covered]
    simp [ofprotoRuleIsHidden, ofprotoRuleHasOutPort, ofpactOutputsToPort, learnedRule,
      addressRule, decodedFlowMod]

theorem stores_of_check {ofMatch : OFMatch} (addresses : ofMatch.HasAddresses)
    (bufferId : BitVec 32) {outPort : BitVec 16}
    (check : ofputilCheckOutputPort outPort ofppMax = none) :
    ∃ rule, Stores (writeFlowMod 0 ofpfcAdd bufferId ofMatch outPort) rule := by
  obtain ⟨wire, written, decodes⟩ := writeFlowMod_decoded_iff addresses ofpfcAdd bufferId outPort
  exact ⟨_, wire, _, written, (decodes _).mpr ⟨check, rfl⟩, rfl, rfl⟩

/-- Two messages for the two directions: the switch stores a rule for each whose port it accepts,
and the controller has each of the two rules deleted when the other is gone. -/
structure PairsUp (sw : IofSwitch σ) (inPort outPort : BitVec 16) (forward reverse : OFMessage) :
    Prop where
  storesForward : ofputilCheckOutputPort outPort ofppMax = none → ∃ rule, Stores forward rule
  storesReverse : ofputilCheckOutputPort inPort ofppMax = none → ∃ rule, Stores reverse rule
  takesAlong : ∀ f r, Stores forward f → Stores reverse r → TakesAlong sw f r ∧ TakesAlong sw r f

theorem pairsUp_writeFlowMod {sw : IofSwitch σ} (fast : sw.fastWildcards = some ofpfwAll)
    (ofMatch : OFMatch) (addresses : ofMatch.HasAddresses)
    (wildcards : ofMatch.wildcards = learnedWildcards ofpfwAll) (bufferId other : BitVec 32)
    (outPort : BitVec 16) :
    PairsUp sw ofMatch.inputPort outPort (writeFlowMod 0 ofpfcAdd bufferId ofMatch outPort)
      (writeFlowMod 0 ofpfcAdd other { ofMatch.reversed with inputPort := outPort }
        ofMatch.inputPort) := by
  have reversed : { ofMatch.reversed with inputPort := outPort }.HasAddresses :=
    ⟨addresses.2, addresses.1⟩
  refine ⟨stores_of_check addresses bufferId, stores_of_check reversed other,
    fun f r storesF storesR => ?_⟩
  obtain ⟨checkOut, rfl⟩ := eq_learnedRule_of_stores addresses wildcards storesF
  obtain ⟨checkIn, rfl⟩ := eq_learnedRule_of_stores reversed wildcards storesR
  exact ⟨takesAlong_learnedRule fast _ _ checkIn rfl, takesAlong_learnedRule fast _ _ checkOut rfl⟩

theorem TakesLearned.pairsUp {sw : IofSwitch σ} (fast : sw.fastWildcards = some ofpfwAll)
    {pi : OFPacketIn} {dcm : Dcm σ} {ofMatch : OFMatch} {outPort : BitVec 16}
    (taken : TakesLearned sw pi dcm ofMatch outPort) (levels : LogLevels) :
    ∃ pushed forward reverse,
      (processPacketInMessage levels sw pi dcm).messages = pushed ++ [forward, reverse] ∧
        pushed.length ≤ 1 ∧ PairsUp sw ofMatch.inputPort outPort forward reverse := by
  have addresses := hasAddresses_of_loadFromPacket taken.loaded
  refine ⟨(pushPacket levels.debug sw.buffers 0 pi outPort).toList, _, _, ?_, ?_,
    pairsUp_writeFlowMod fast { ofMatch with wildcards := learnedWildcards ofpfwAll } addresses rfl
      bufferIdNone 0xffffffff outPort⟩
  · rw [processPacketInMessage, taken.loaded]
    simp only [forward, if_neg taken.notReserved, taken.found, if_neg taken.elsewhere,
      forwardLearned, fast]
    rfl
  · cases pushPacket levels.debug sw.buffers 0 pi outPort <;> simp

/-- A flow that is gone takes the one of the other direction along, and from any table the exchange
of reports and deletions comes to an end. -/
theorem processFlowRemovedMessage_takesAlong {sw : IofSwitch σ}
    (fast : sw.fastWildcards = some ofpfwAll) {pi : OFPacketIn} {dcm : Dcm σ} {ofMatch : OFMatch}
    {outPort : BitVec 16} (taken : TakesLearned sw pi dcm ofMatch outPort) (levels : LogLevels) :
    (∃ pushed forward reverse,
      (processPacketInMessage levels sw pi dcm).messages = pushed ++ [forward, reverse] ∧
        pushed.length ≤ 1 ∧ PairsUp sw ofMatch.inputPort outPort forward reverse) ∧
    ∀ rules dcm events final,
      Run.exec (Exchange.step sw) (Exchange.start rules dcm) events = some final →
        final.reported ≤ rules.length ∧ events.length ≤ 3 * rules.length ∧
          ∀ stats, final.toController ≠ [] ∨ final.toSwitch ≠ [] →
            (Exchange.step sw final .handleRemoved).isSome ∨
              (Exchange.step sw final (.handleFlowMod stats)).isSome := by
  refine ⟨taken.pairsUp fast levels, ?_⟩
  intro rules dcm events final run
  have bounds := Exchange.exec_bounds run
  exact ⟨bounds.1, bounds.2, Exchange.step_of_waiting sw final⟩

theorem learnedFlows_together {sw : IofSwitch σ} (fast : sw.fastWildcards = some ofpfwAll)
    {pi : OFPacketIn} {dcm : Dcm σ} {ofMatch : OFMatch} {outPort : BitVec 16}
    (taken : TakesLearned sw pi dcm ofMatch outPort) (levels : LogLevels) :
    ∃ pushed forward reverse,
      (processPacketInMessage levels sw pi dcm).messages = pushed ++ [forward, reverse] ∧
        ∀ f r, Stores forward f → Stores reverse r → ∀ rules dcm events final,
          Run.exec (Exchange.step sw) (Exchange.start rules dcm) events = some final →
            f ∈ rules → r ∈ rules → final.toController = [] → final.toSwitch = [] →
              (f ∈ final.rules ↔ r ∈ final.rules) := by
  obtain ⟨pushed, forward, reverse, messages, -, pairs⟩ := taken.pairsUp fast levels
  refine ⟨pushed, forward, reverse, messages, ?_⟩
  intro f r storesF storesR rules dcm events final run hasF hasR reports deletions
  obtain ⟨alongF, alongR⟩ := pairs.takesAlong f r storesF storesR
  exact ⟨Exchange.mem_rules_of_quiet alongR hasR run reports deletions,
    Exchange.mem_rules_of_quiet alongF hasF run reports deletions⟩

end Learned

theorem takesLearned_framePacketIn : ∃ ofMatch, TakesLearned sampleSwitch framePacketIn
    (Dcm.init.addToPortMap sampleSwitch.object 0x020000000002 0xffff 7) ofMatch 7 :=
  ⟨_, rfl, by decide +kernel, by decide +kernel, by decide⟩

theorem processFlowRemovedMessage_takesAlong_sample : ∃ ofMatch,
    TakesLearned sampleSwitch framePacketIn
      (Dcm.init.addToPortMap sampleSwitch.object 0x020000000002 0xffff 7) ofMatch 7 ∧
    ∃ forward reverse f r, Stores forward f ∧ Stores reverse r ∧
      TakesAlong sampleSwitch f r ∧ TakesAlong sampleSwitch r f := by
  obtain ⟨ofMatch, taken⟩ := takesLearned_framePacketIn
  have inPort : ofMatch.inputPort = 5 := newOFMatch.inputPort_of_loadFromPacket taken.loaded
  obtain ⟨_, forward, reverse, _, _, pairs⟩ :=
    (processFlowRemovedMessage_takesAlong rfl taken ⟨false, false⟩).1
  obtain ⟨f, storesF⟩ := pairs.storesForward (by decide)
  obtain ⟨r, storesR⟩ := pairs.storesReverse (by rw [inPort]; decide)
  exact ⟨_, taken, forward, reverse, f, r, storesF, storesR, pairs.takesAlong f r storesF storesR⟩

theorem learnedFlows_together_sample : ∃ pushed forward reverse,
    (processPacketInMessage ⟨false, false⟩ sampleSwitch framePacketIn
        (Dcm.init.addToPortMap sampleSwitch.object 0x020000000002 0xffff 7)).messages =
      pushed ++ [forward, reverse] ∧
    ∀ f r, Stores forward f → Stores reverse r → ∀ dcm events final,
      Run.exec (Exchange.step sampleSwitch) (Exchange.start [f, r] dcm) events = some final →
        final.toController = [] → final.toSwitch = [] → (f ∈ final.rules ↔ r ∈ final.rules) := by
  obtain ⟨ofMatch, taken⟩ := takesLearned_framePacketIn
  obtain ⟨pushed, forward, reverse, messages, together⟩ :=
    learnedFlows_together rfl taken ⟨false, false⟩
  exact ⟨pushed, forward, reverse, messages, fun f r storesF storesR dcm events final run =>
    together f r storesF storesR [f, r] dcm events final run (by simp) (by simp)⟩

end Controller
end LazyCtrl
