import LazyCtrl.Datapath.VlanStack

/-!
# When the datapath executes an action list as it reads

The deferred output sends the packet before the next action changes it, so it is invisible.  The
encapsulation in place is not: every frame that is sent behind a `REMOTE` carries the headers of the
tunnel.  `pop_vlan` may remove a few bytes of them, but never all, so no such frame is right.
-/

namespace LazyCtrl

open Bytes

/-- The data of the packet starts at its Ethernet header, and the headers that the flow key speaks of
lie behind the tags and inside the packet. -/
structure Ready (key : SwFlowKey) (skb : Skb) : Prop where
  mac : skb.macHeader = 0
  long : 14 ≤ skb.data.length
  ip : key.ethType = ethPIp → key.ipProto ≠ 0 →
    skb.Reserved skb.networkHeader 20 ∧ skb.Reserved skb.transportHeader 0
  tcp : key.ipProto = ipprotoTcp → validateTpPort key = true → skb.Reserved skb.transportHeader 20
  udp : key.ipProto = ipprotoUdp → validateTpPort key = true → skb.Reserved skb.transportHeader 8

/-- What `ovs_flow_extract` and the receiving device leave in a packet with its flow key.  A packet
that is announced as tagged has a tag. -/
structure Extracted (key : SwFlowKey) (skb : Skb) : Prop extends Ready key skb where
  announced : skb.protocol = ethP8021Q → be16 skb.data 12 = ethP8021Q

def Silent (hasVport : BitVec 16 → Bool) : DpAction → Prop
  | .output port => hasVport (port.setWidth 16) = false
  | .remote payload => hasVport ((remotePort payload).setWidth 16) = false
  | _ => True

def QuietAfterRemote (hasVport : BitVec 16 → Bool) : List DpAction → Prop
  | [] => True
  | .remote _ :: actions => ∀ action ∈ actions, Silent hasVport action
  | _ :: actions => QuietAfterRemote hasVport actions

theorem Extracted.poppable_le {key : SwFlowKey} {skb : Skb} (extracted : Extracted key skb) :
    skb.poppable ≤ skb.frontTags := by
  rw [Skb.poppable]
  split
  · obtain ⟨protocol, long⟩ := hasVlanHeader_iff.mp ‹_›
    have tagged : be16 (skb.data.drop 12) 0 = ethP8021Q ∧ 6 ≤ (skb.data.drop 12).length := by
      rw [be16_drop, List.length_drop]
      exact ⟨extracted.announced protocol, by omega⟩
    rw [Skb.frontTags, vlanHeaders_eq (skb.data.drop 12), if_pos tagged, List.drop_drop]
  · exact Nat.zero_le _

theorem Ready.moves {key : SwFlowKey} {old new : Skb} {shift : Int} (ready : Ready key old)
    (moves : Moves shift old new) (long : 14 ≤ new.data.length) : Ready key new where
  mac := moves.mac.trans ready.mac
  long := long
  ip := fun ethType ipProto => by
    rw [moves.network, moves.transport]
    exact ⟨moves.reserved (ready.ip ethType ipProto).1, moves.reserved (ready.ip ethType ipProto).2⟩
  tcp := fun ipProto ports => by
    rw [moves.transport]
    exact moves.reserved (ready.tcp ipProto ports)
  udp := fun ipProto ports => by
    rw [moves.transport]
    exact moves.reserved (ready.udp ipProto ports)

theorem Ready.retags {key : SwFlowKey} {old new : Skb} (ready : Ready key old)
    (retags : Retags old new) : Ready key new := by
  obtain ⟨shift, moves⟩ := retags.moves
  exact ready.moves moves retags.long

theorem Ready.encapulate {key : SwFlowKey} {skb : Skb} (ready : Ready key skb) (dp : Datapath)
    (dstIp : BitVec 32) : Ready key (encapulate dp skb dstIp) :=
  ready.moves (moves_encapulate dp dstIp ready.long)
    (by rw [length_encapulate dp dstIp ready.long]; exact Nat.le_add_right_of_le ready.long)

theorem executeSetAction_spec {key : SwFlowKey} {skb : Skb} (ready : Ready key skb) {field : SetKey}
    (valid : validateSet key field = true) :
    ∃ next, executeSetAction skb field = some next ∧ Retags skb next ∧
      next.wireLen = skb.wireLen ∧ next.pops = skb.pops := by
  have plain : ∀ result, SetsFields skb result →
      ∃ next, result = some next ∧ Retags skb next ∧ next.wireLen = skb.wireLen ∧
        next.pops = skb.pops := by
    rintro result ⟨data, rfl, length, keeps⟩
    exact ⟨_, rfl, retags_data ready.long length keeps⟩
  cases field with
  | priority value => exact ⟨_, rfl, retags_metadata ready.long _ _ _, rfl, rfl⟩
  | tunId value => exact ⟨_, rfl, retags_metadata ready.long _ _ _, rfl, rfl⟩
  | ethernet src dst => exact plain _ (setEthAddr_spec ready.mac ready.long src dst)
  | ipv4 ipv4 =>
    obtain ⟨ethType, ipProto, -⟩ := of_decide_eq_true valid
    obtain ⟨network, transport⟩ := ready.ip ethType ipProto
    exact plain _ (setIpv4_spec network transport ipv4)
  | tcp src dst =>
    obtain ⟨ipProto, ports⟩ := of_decide_eq_true valid
    exact plain _ (setTcp_spec (ready.tcp ipProto ports) src dst)
  | udp src dst =>
    obtain ⟨ipProto, ports⟩ := of_decide_eq_true valid
    exact plain _ (setUdp_spec (ready.udp ipProto ports) src dst)

theorem alter_spec {key : SwFlowKey} {skb : Skb} (ready : Ready key skb) {action : DpAction}
    (valid : validateAction key action = true) :
    ∃ next, alter skb action = some next ∧ Retags skb next := by
  cases action with
  | output port => exact ⟨skb, rfl, .refl ready.long⟩
  | remote payload => exact ⟨skb, rfl, .refl ready.long⟩
  | pushVlan tpid tci => exact ⟨_, rfl, (pushVlan_spec ready.long tci).1⟩
  | popVlan => exact ⟨_, rfl, (popVlan_spec ready.long).1⟩
  | set field =>
    obtain ⟨next, result, retags, -⟩ := executeSetAction_spec ready valid
    exact ⟨next, result, retags⟩

def Lead (ahead behind : Skb) : Prop :=
  28 + 4 * (ahead.pops - behind.pops) + behind.wireLen ≤ ahead.wireLen

structure Apart (key : SwFlowKey) (ahead behind : Skb) : Prop where
  aheadReady : Ready key ahead
  behindReady : Ready key behind
  sees : ahead.frontTags ≤ ahead.poppable
  has : behind.poppable ≤ behind.frontTags
  lead : Lead ahead behind

theorem encapulate_wireLen (dp : Datapath) {skb : Skb} (dstIp : BitVec 32)
    (long : 14 ≤ skb.data.length) :
    (encapulate dp skb dstIp).wireLen = skb.wireLen + 36 := by
  have length := length_encapulate dp dstIp long
  have same : vlanTxTagPresent (encapulate dp skb dstIp) = vlanTxTagPresent skb := by
    rw [encapulate_eq dp dstIp long]
    rfl
  rw [Skb.wireLen, Skb.wireLen, same, length]
  omega

theorem encapulate_pops (dp : Datapath) {skb : Skb} (dstIp : BitVec 32)
    (long : 14 ≤ skb.data.length) : (encapulate dp skb dstIp).pops ≤ skb.pops + 2 := by
  have poppable := encapulate_poppable dp dstIp long
  have same : vlanTxTagPresent (encapulate dp skb dstIp) = vlanTxTagPresent skb := by
    rw [encapulate_eq dp dstIp long]
    rfl
  rw [Skb.pops, Skb.pops, same]
  omega

section Apart

variable {key : SwFlowKey} {ahead behind : Skb}

theorem apart_encapulate {skb : Skb} (ready : Ready key skb) (has : skb.poppable ≤ skb.frontTags)
    (dp : Datapath) (dstIp : BitVec 32) : Apart key (encapulate dp skb dstIp) skb := by
  have wireLen := encapulate_wireLen dp dstIp ready.long
  have pops := encapulate_pops dp dstIp ready.long
  refine ⟨ready.encapulate dp dstIp, ready, ?_, has, ?_⟩
  · rw [encapulate_frontTags dp dstIp ready.long]
    exact Nat.zero_le _
  · rw [Lead]
    omega

theorem Apart.encapulate (apart : Apart key ahead behind) (dp : Datapath) (dstIp : BitVec 32) :
    Apart key (encapulate dp ahead dstIp) behind := by
  have long := apart.aheadReady.long
  have wireLen := encapulate_wireLen dp dstIp long
  have pops := encapulate_pops dp dstIp long
  have lead := apart.lead
  refine ⟨apart.aheadReady.encapulate dp dstIp, apart.behindReady, ?_, apart.has, ?_⟩
  · rw [encapulate_frontTags dp dstIp long]
    exact Nat.zero_le _
  · rw [Lead] at lead ⊢
    omega

theorem Apart.alter (apart : Apart key ahead behind) {action : DpAction}
    (valid : validateAction key action = true) :
    ∃ aheadNext behindNext, alter ahead action = some aheadNext ∧
      alter behind action = some behindNext ∧ Apart key aheadNext behindNext := by
  obtain ⟨aheadNext, aheadAlter, aheadRetags⟩ := alter_spec apart.aheadReady valid
  obtain ⟨behindNext, behindAlter, behindRetags⟩ := alter_spec apart.behindReady valid
  refine ⟨aheadNext, behindNext, aheadAlter, behindAlter, apart.aheadReady.retags aheadRetags,
    apart.behindReady.retags behindRetags, aheadRetags.sees apart.sees, behindRetags.has apart.has,
    ?_⟩
  have lead := apart.lead
  have aheadLong := apart.aheadReady.long
  have behindLong := apart.behindReady.long
  rw [Lead] at lead ⊢
  cases action with
  | output port =>
    obtain rfl := Option.some.inj aheadAlter
    obtain rfl := Option.some.inj behindAlter
    exact lead
  | remote payload =>
    obtain rfl := Option.some.inj aheadAlter
    obtain rfl := Option.some.inj behindAlter
    exact lead
  | pushVlan tpid tci =>
    obtain rfl := Option.some.inj aheadAlter
    obtain rfl := Option.some.inj behindAlter
    obtain ⟨-, aheadWire, aheadPops, -⟩ := pushVlan_spec aheadLong tci
    obtain ⟨-, behindWire, -, behindPops⟩ := pushVlan_spec behindLong tci
    have atMost := aheadPops apart.sees
    have atLeast := behindPops apart.has
    omega
  | popVlan =>
    obtain rfl := Option.some.inj aheadAlter
    obtain rfl := Option.some.inj behindAlter
    obtain ⟨-, aheadPops, aheadWire⟩ := popVlan_spec aheadLong
    obtain ⟨-, behindPops, behindWire⟩ := popVlan_spec behindLong
    omega
  | set field =>
    obtain ⟨next, aheadSet, -, aheadWire, aheadPops⟩ :=
      executeSetAction_spec apart.aheadReady valid
    obtain rfl := Option.some.inj (aheadSet.symm.trans aheadAlter)
    obtain ⟨next, behindSet, -, behindWire, behindPops⟩ :=
      executeSetAction_spec apart.behindReady valid
    obtain rfl := Option.some.inj (behindSet.symm.trans behindAlter)
    omega

theorem Apart.wireLen_lt (apart : Apart key ahead behind) : behind.wireLen < ahead.wireLen := by
  have lead := apart.lead
  rw [Lead] at lead
  omega

theorem frame_ne (longer : behind.wireLen < ahead.wireLen) : ahead.frame ≠ behind.frame := by
  intro same
  have data : ahead.data = behind.data := congrArg Frame.data same
  have tci : ahead.vlanTci = behind.vlanTci := congrArg Frame.vlanTci same
  rw [Skb.wireLen, Skb.wireLen, vlanTxTagPresent, vlanTxTagPresent, data, tci] at longer
  exact lt_irrefl _ longer

end Apart

section Runs

variable (dp : Datapath) (hasVport : BitVec 16 → Bool) {key : SwFlowKey}

/-- From the first packet the datapath and from the second one the plain meaning have an outcome, and
they send the same frames, up to the deferred output, exactly under a condition. -/
def Compares (ahead behind : Skb) (actions : List DpAction) (agree : Prop) : Prop :=
  ∀ prevPort, ∃ sent plain,
    executeLoop dp hasVport ahead prevPort actions =
        some (flushOutput hasVport ahead prevPort ++ sent) ∧
      execute dp hasVport behind actions = some plain ∧ (sent = plain ↔ agree)

variable {dp hasVport} {ahead behind next : Skb} {action : DpAction} {actions : List DpAction}
  {agree : Prop}

theorem compares_nil (ahead behind : Skb) : Compares dp hasVport ahead behind [] True :=
  fun prevPort => ⟨[], [], by rw [executeLoop, List.append_nil], rfl, iff_of_true rfl trivial⟩

theorem Compares.congr {other : Prop} (compares : Compares dp hasVport ahead behind actions agree)
    (same : agree ↔ other) : Compares dp hasVport ahead behind actions other := by
  rwa [← propext same]

theorem executeLoop_cons {port : BitVec 32} {sent : List (BitVec 16 × Frame)}
    (taken : executeAction dp ahead action = some (next, port))
    (rest : executeLoop dp hasVport next port actions = some sent) (prevPort : BitVec 32) :
    executeLoop dp hasVport ahead prevPort (action :: actions) =
      some (flushOutput hasVport ahead prevPort ++ sent) := by
  simp only [executeLoop, taken, rest, Option.bind_eq_bind, Option.bind_some]

theorem execute_cons {plain : List (BitVec 16 × Frame)} (taken : alter behind action = some next)
    (rest : execute dp hasVport next actions = some plain) :
    execute dp hasVport behind (action :: actions) =
      some (emits dp hasVport behind action ++ plain) := by
  simp only [execute, taken, rest, Option.bind_eq_bind, Option.bind_some]

theorem Compares.modify {aheadNext behindNext : Skb}
    (rest : Compares dp hasVport aheadNext behindNext actions agree)
    (taken : executeAction dp ahead action = some (aheadNext, -1))
    (altered : alter behind action = some behindNext)
    (quiet : emits dp hasVport behind action = []) :
    Compares dp hasVport ahead behind (action :: actions) agree := by
  intro prevPort
  obtain ⟨sent, plain, loop, run, same⟩ := rest (-1)
  refine ⟨sent, plain, ?_, ?_, same⟩
  · rw [flushOutput, if_neg (not_not_intro rfl), List.nil_append] at loop
    exact executeLoop_cons taken loop prevPort
  · rw [execute_cons altered run, quiet, List.nil_append]

theorem doOutput_eq_iff (port : BitVec 32) :
    doOutput hasVport ahead port = doOutput hasVport behind port ↔
      hasVport (port.setWidth 16) = false ∨ ahead.frame = behind.frame := by
  rw [doOutput, doOutput]
  split
  · simp [*]
  · simp [*]

theorem Compares.output {other : Skb} {port : BitVec 32}
    (rest : Compares dp hasVport next behind actions agree) (valid : port.toNat < dpMaxPorts)
    (taken : executeAction dp ahead action = some (next, port))
    (altered : alter behind action = some behind)
    (emitted : emits dp hasVport behind action = doOutput hasVport other port) :
    Compares dp hasVport ahead behind (action :: actions)
      ((hasVport (port.setWidth 16) = false ∨ next.frame = other.frame) ∧ agree) := by
  intro prevPort
  obtain ⟨sent, plain, loop, run, same⟩ := rest port
  have flushed : flushOutput hasVport next port = doOutput hasVport next port := by
    rw [flushOutput, if_pos]
    rintro rfl
    exact absurd valid (by decide)
  have lengths : (doOutput hasVport next port).length = (doOutput hasVport other port).length := by
    rw [doOutput, doOutput]
    split <;> rfl
  rw [flushed] at loop
  refine ⟨doOutput hasVport next port ++ sent, doOutput hasVport other port ++ plain,
    executeLoop_cons taken loop prevPort, ?_, ?_⟩
  · rw [execute_cons altered run, emitted]
  · rw [← doOutput_eq_iff, ← same]
    constructor
    · exact fun equal => List.append_inj equal lengths
    · rintro ⟨first, rfl⟩
      rw [first]

theorem executeAction_set {field : SetKey} (altered : alter ahead (.set field) = some next) :
    executeAction dp ahead (.set field) = some (next, -1) := by
  rw [executeAction, show executeSetAction ahead field = some next from altered]
  rfl

theorem compares_of_apart (apart : Apart key ahead behind)
    (valid : validateActions key actions = true) :
    Compares dp hasVport ahead behind actions (∀ action ∈ actions, Silent hasVport action) := by
  induction actions generalizing ahead behind with
  | nil => exact (compares_nil ahead behind).congr (by simp)
  | cons action actions ih =>
    obtain ⟨validHead, validTail⟩ : validateAction key action = true ∧
        validateActions key actions = true := by
      simpa [validateActions] using valid
    rw [show (∀ other ∈ action :: actions, Silent hasVport other) =
      (Silent hasVport action ∧ ∀ other ∈ actions, Silent hasVport other) by simp]
    obtain ⟨aheadNext, behindNext, aheadAlter, behindAlter, next⟩ := apart.alter validHead
    cases action with
    | output port =>
      have different := frame_ne apart.wireLen_lt
      refine ((ih apart validTail).output (of_decide_eq_true validHead) rfl rfl rfl).congr ?_
      simp [Silent, different]
    | remote payload =>
      have longer : (encapulate dp behind (remoteIp payload)).wireLen <
          (encapulate dp ahead (remoteIp payload)).wireLen := by
        rw [encapulate_wireLen dp _ apart.aheadReady.long,
          encapulate_wireLen dp _ apart.behindReady.long]
        exact Nat.add_lt_add_right apart.wireLen_lt 36
      have different := frame_ne longer
      refine ((ih (apart.encapulate dp (remoteIp payload)) validTail).output
        (of_decide_eq_true validHead) rfl rfl rfl).congr ?_
      simp [Silent, different]
    | pushVlan tpid tci =>
      obtain rfl := Option.some.inj aheadAlter
      refine ((ih next validTail).modify rfl behindAlter rfl).congr ?_
      simp [Silent]
    | popVlan =>
      obtain rfl := Option.some.inj aheadAlter
      refine ((ih next validTail).modify rfl behindAlter rfl).congr ?_
      simp [Silent]
    | set field =>
      refine ((ih next validTail).modify (executeAction_set aheadAlter) behindAlter rfl).congr ?_
      simp [Silent]

theorem compares_self {skb : Skb} (ready : Ready key skb) (has : skb.poppable ≤ skb.frontTags)
    (valid : validateActions key actions = true) :
    Compares dp hasVport skb skb actions (QuietAfterRemote hasVport actions) := by
  induction actions generalizing skb with
  | nil => exact (compares_nil skb skb).congr (by simp [QuietAfterRemote])
  | cons action actions ih =>
    obtain ⟨validHead, validTail⟩ : validateAction key action = true ∧
        validateActions key actions = true := by
      simpa [validateActions] using valid
    obtain ⟨next, altered, retags⟩ := alter_spec ready validHead
    have nextCompares := ih (ready.retags retags) (retags.has has) validTail
    cases action with
    | output port =>
      obtain rfl := Option.some.inj altered
      refine (nextCompares.output (of_decide_eq_true validHead) rfl rfl rfl).congr ?_
      simp [QuietAfterRemote]
    | remote payload =>
      have apart := apart_encapulate ready has dp (remoteIp payload)
      refine ((compares_of_apart apart validTail).output (of_decide_eq_true validHead)
        rfl rfl rfl).congr ?_
      simp [QuietAfterRemote]
    | pushVlan tpid tci =>
      obtain rfl := Option.some.inj altered
      exact nextCompares.modify rfl rfl rfl
    | popVlan =>
      obtain rfl := Option.some.inj altered
      exact nextCompares.modify rfl rfl rfl
    | set field => exact nextCompares.modify (executeAction_set altered) altered rfl

end Runs

/-- On a packet with its flow key, every validated action list has an outcome in the datapath and by
its plain meaning, and the frames sent are the same exactly if nothing is sent behind a `REMOTE`. -/
theorem doExecuteActions_eq_iff (dp : Datapath) (hasVport : BitVec 16 → Bool) {key : SwFlowKey}
    {skb : Skb} (extracted : Extracted key skb) {actions : List DpAction}
    (valid : validateActions key actions = true) :
    ∃ sent plain, doExecuteActions dp hasVport skb actions = some sent ∧
      execute dp hasVport skb actions = some plain ∧
        (sent = plain ↔ QuietAfterRemote hasVport actions) := by
  obtain ⟨sent, plain, loop, run, same⟩ :=
    compares_self extracted.toReady extracted.poppable_le valid (-1)
  refine ⟨sent, plain, ?_, run, same⟩
  rw [doExecuteActions, loop, flushOutput, if_neg (not_not_intro rfl), List.nil_append]

def sampleUdp : Skb := { sampleSkb with transportHeader := 34 }

def sampleKey : SwFlowKey where
  ethType := ethPIp
  ipProto := ipprotoUdp
  ipFrag := 0
  tpSrc := 7
  tpDst := 8

theorem sampleUdp_extracted : Extracted sampleKey sampleUdp := by
  have tags : sampleUdp.tags = 0 := rfl
  have network : sampleUdp.Reserved sampleUdp.networkHeader 20 :=
    ⟨by rw [tags]; decide, by decide⟩
  have transport : ∀ n : Nat, n ≤ 26 → sampleUdp.Reserved sampleUdp.transportHeader n :=
    fun n small => ⟨by rw [tags]; decide, show (34 : Int) + n ≤ 60 by omega⟩
  exact {
    mac := rfl
    long := by decide
    ip := fun _ _ => ⟨network, transport 0 (by omega)⟩
    tcp := fun _ _ => transport 20 (by omega)
    udp := fun _ _ => transport 8 (by omega)
    announced := fun tagged => absurd tagged (by decide) }

def sampleActions : List DpAction :=
  [.set (.udp 9 10), .output 1, .pushVlan ethP8021Q 0x1005, .remote 0x0000000200000003]

theorem doExecuteActions_sampleUdp :
    ∃ sent plain,
      doExecuteActions { localIp := 1, gdt := none } (fun _ => true) sampleUdp sampleActions =
          some sent ∧
        execute { localIp := 1, gdt := none } (fun _ => true) sampleUdp sampleActions =
            some plain ∧
          sent = plain := by
  have valid : validateActions sampleKey sampleActions = true := by decide
  obtain ⟨sent, plain, loop, run, same⟩ := doExecuteActions_eq_iff { localIp := 1, gdt := none }
    (fun _ => true) sampleUdp_extracted valid
  exact ⟨sent, plain, loop, run, same.mpr (by simp [sampleActions, QuietAfterRemote])⟩

/-- An output behind a `REMOTE` sends the encapsulated packet. -/
theorem doExecuteActions_ne_after_remote :
    Extracted sampleKey sampleUdp ∧
      validateActions sampleKey [.remote 0x0000000200000003, .output 1] = true ∧
        ∃ sent plain,
          doExecuteActions { localIp := 1, gdt := none } (fun _ => true) sampleUdp
              [.remote 0x0000000200000003, .output 1] = some sent ∧
            execute { localIp := 1, gdt := none } (fun _ => true) sampleUdp
              [.remote 0x0000000200000003, .output 1] = some plain ∧
              sent ≠ plain := by
  refine ⟨sampleUdp_extracted, by decide, _, _, rfl, rfl, fun same => ?_⟩
  have lengths := congrArg (List.map fun out : BitVec 16 × Frame => out.2.data.length) same
  exact absurd lengths (by decide)

end LazyCtrl
