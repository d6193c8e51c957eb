import LazyCtrl.Packet.SameFlow

/-!
# Attributes from flows of the switch daemon

`odp_flow_key_from_flow` of `lib/odp-util.c`.  It writes the attributes that `ovs_flow_to_nlattrs`
would write for a certain key, so the flow that `odp_flow_key_to_flow` makes of them is the one that
this key stands for.  It is the flow itself unless the flow has a frame type that is a length, is
from port 0, or has `FLOW_NW_FRAG_LATER` without `FLOW_NW_FRAG_ANY`.
-/

namespace LazyCtrl
namespace Packet

open Bytes Netlink

def ofpPortToOdpPort (ofpPort : BitVec 16) : BitVec 16 :=
  if ofpPort = ofppLocal then ovspLocal
  else if ofpPort = ofppNone then ovspNone
  else ofpPort

def ovsToOdpFrag (nwFrag : Byte) : Byte :=
  if nwFrag = 0 then 0
  else if nwFrag = flowNwFragAny then ovsFragTypeFirst
  else ovsFragTypeLater

def flowMetadataNlattrs (flow : Flow) : List Nlattr :=
  (if flow.skbPriority ≠ 0 then [OvsKeyAttr.priority.nla (putLe32 flow.skbPriority)] else []) ++
    (if flow.tunId ≠ 0 then [OvsKeyAttr.tunId.nla (put64 flow.tunId)] else []) ++
    (if flow.inPort ≠ ofppNone ∧ flow.inPort ≠ ofppController then
      [OvsKeyAttr.inPort.nla (putLe32 ((ofpPortToOdpPort flow.inPort).setWidth 32))]
    else [])

def flowNetworkNlattrs (flow : Flow) : List Nlattr :=
  if flow.dlType = ethPIp then
    [OvsKeyAttr.ipv4.nla (put32 flow.nwSrc ++ (put32 flow.nwDst ++
      [flow.nwProto, flow.nwTos, flow.nwTtl, ovsToOdpFrag flow.nwFrag]))]
  else if flow.dlType = ethPIpv6 then
    [OvsKeyAttr.ipv6.nla (put128 flow.ipv6Src ++ (put128 flow.ipv6Dst ++ (put32 flow.ipv6Label ++
      [flow.nwProto, flow.nwTos, flow.nwTtl, ovsToOdpFrag flow.nwFrag])))]
  else if flow.dlType = ethPArp then
    [OvsKeyAttr.arp.nla (put32 flow.nwSrc ++ (put32 flow.nwDst ++
      (put16 (flow.nwProto.setWidth 16) ++ (put48 flow.arpSha ++ (put48 flow.arpTha ++ [0, 0])))))]
  else []

def flowTransportNlattrs (flow : Flow) : List Nlattr :=
  if flow.HasTransport then
    if flow.nwProto = ipprotoTcp then [OvsKeyAttr.tcp.nla (put16 flow.tpSrc ++ put16 flow.tpDst)]
    else if flow.nwProto = ipprotoUdp then
      [OvsKeyAttr.udp.nla (put16 flow.tpSrc ++ put16 flow.tpDst)]
    else if flow.dlType = ethPIp ∧ flow.nwProto = ipprotoIcmp then
      [OvsKeyAttr.icmp.nla [flow.tpSrc.setWidth 8, flow.tpDst.setWidth 8]]
    else if flow.dlType = ethPIpv6 ∧ flow.nwProto = ipprotoIcmpv6 then
      OvsKeyAttr.icmpv6.nla [flow.tpSrc.setWidth 8, flow.tpDst.setWidth 8] ::
        if isNeighbour (flow.tpSrc.setWidth 8) then
          [OvsKeyAttr.nd.nla (put128 flow.ndTarget ++ (put48 flow.arpSha ++ put48 flow.arpTha))]
        else []
    else []
  else []

def flowTypeNlattrs (flow : Flow) : List Nlattr :=
  if flow.dlType.toNat < 1536 then []
  else
    OvsKeyAttr.ethertype.nla (put16 flow.dlType) ::
      (flowNetworkNlattrs flow ++ flowTransportNlattrs flow)

def flowEncapNlattrs (flow : Flow) : List Nlattr :=
  if flow.vlanTci ≠ 0 ∨ flow.dlType = ethP8021Q then
    [OvsKeyAttr.ethertype.nla (put16 ethP8021Q), OvsKeyAttr.vlan.nla (put16 flow.vlanTci),
      OvsKeyAttr.encap.nla (if flow.vlanTci = 0 then [] else putAttrs (flowTypeNlattrs flow))]
  else flowTypeNlattrs flow

def flowNlattrs (flow : Flow) : List Nlattr :=
  flowMetadataNlattrs flow ++
    OvsKeyAttr.ethernet.nla (put48 flow.dlSrc ++ put48 flow.dlDst) :: flowEncapNlattrs flow

def odpFlowKeyFromFlow (flow : Flow) : List Byte := putAttrs (flowNlattrs flow)

def Flow.key (flow : Flow) : SwFlowKey :=
  { tunId := flow.tunId
    priority := flow.skbPriority
    inPort := ofpPortToOdpPort flow.inPort
    ethSrc := flow.dlSrc
    ethDst := flow.dlDst
    tci := flow.vlanTci
    type := if flow.dlType.toNat < 1536 then ethP8022 else flow.dlType
    ip :=
      { proto := flow.nwProto
        tos := flow.nwTos
        ttl := flow.nwTtl
        frag := ovsToOdpFrag flow.nwFrag }
    ipv4 :=
      if flow.dlType = ethPIpv6 then {}
      else
        { src := flow.nwSrc
          dst := flow.nwDst
          tpSrc := flow.tpSrc
          tpDst := flow.tpDst
          arpSha := flow.arpSha
          arpTha := flow.arpTha }
    ipv6 :=
      if flow.dlType = ethPIpv6 then
        { src := flow.ipv6Src
          dst := flow.ipv6Dst
          label := flow.ipv6Label
          tpSrc := flow.tpSrc
          tpDst := flow.tpDst
          ndTarget := flow.ndTarget
          ndSll := flow.arpSha
          ndTll := flow.arpTha }
      else {} }

def IsInputPort (inPort : BitVec 16) : Prop := (inPort.toNat : Int) < ofppMax ∨ inPort = ofppLocal

instance (inPort : BitVec 16) : Decidable (IsInputPort inPort) :=
  inferInstanceAs (Decidable (_ ∨ _))

theorem IsInputPort.odpPort_lt {inPort : BitVec 16} (port : IsInputPort inPort) :
    ((ofpPortToOdpPort inPort).toNat : Int) < ofppMax := by
  rw [ofpPortToOdpPort]
  obtain ordinary | rfl := port
  · have notLocal : inPort ≠ ofppLocal := by
      rintro rfl
      exact absurd ordinary (by decide)
    have notNone : inPort ≠ ofppNone := by
      rintro rfl
      exact absurd ordinary (by decide)
    rwa [if_neg notLocal, if_neg notNone]
  · decide

theorem IsInputPort.odpPort_lt_none {inPort : BitVec 16} (port : IsInputPort inPort) :
    (ofpPortToOdpPort inPort).toNat < 65535 := by
  have small := port.odpPort_lt
  rw [ofppMax] at small
  omega

theorem flowMetadataNlattrs_eq {flow : Flow} (port : IsInputPort flow.inPort) :
    flowMetadataNlattrs flow = metadataToNlattrs flow.key := by
  have known : flow.inPort ≠ ofppNone ∧ flow.inPort ≠ ofppController := by
    constructor <;> intro reserved <;> rw [reserved] at port <;> exact absurd port (by decide)
  have odpKnown : ofpPortToOdpPort flow.inPort ≠ 65535 := by
    intro none
    have small := port.odpPort_lt_none
    rw [none] at small
    exact absurd small (by decide)
  rw [flowMetadataNlattrs, metadataToNlattrs, if_pos known]
  congr 1
  exact (if_pos odpKnown).symm

theorem ovsToOdpFrag_later_iff {nwFrag : Byte} (known : nwFrag.toNat ≤ 3) :
    ovsToOdpFrag nwFrag = ovsFragTypeLater ↔ ¬ nwFrag &&& flowNwFragLater = 0 := by
  have each : ∀ n ≤ 3, ovsToOdpFrag (BitVec.ofNat 8 n) = ovsFragTypeLater ↔
      ¬ BitVec.ofNat 8 n &&& flowNwFragLater = 0 := by decide
  have value := each nwFrag.toNat known
  rwa [BitVec.ofNat_toNat, BitVec.setWidth_eq] at value

theorem hasTransport_iff {flow : Flow} (known : flow.nwFrag.toNat ≤ 3)
    (isIp : flow.dlType = ethPIp ∨ flow.dlType = ethPIpv6) :
    flow.HasTransport ↔ flow.key.ip.frag ≠ ovsFragTypeLater := by
  have later : flow.key.ip.frag = ovsFragTypeLater ↔ ¬ flow.nwFrag &&& flowNwFragLater = 0 :=
    ovsToOdpFrag_later_iff known
  rw [Flow.HasTransport, and_iff_right isIp, ne_eq, later, not_not]

theorem flowL3_eq_ipv4 {flow : Flow} (known : flow.nwFrag.toNat ≤ 3)
    (isIpv4 : flow.dlType = ethPIp) :
    flowNetworkNlattrs flow ++ flowTransportNlattrs flow =
      OvsKeyAttr.ipv4.nla (ipv4Payload flow.key.ip flow.key.ipv4) ::
        if flow.key.ip.frag ≠ ovsFragTypeLater then ipv4TpToNlattrs flow.key.ip.proto flow.key.ipv4
        else [] := by
  have notIpv6 : flow.dlType ≠ ethPIpv6 := isIpv4.trans_ne (by decide)
  have ipv4 : flow.key.ipv4 = ⟨flow.nwSrc, flow.nwDst, flow.tpSrc, flow.tpDst, flow.arpSha,
    flow.arpTha⟩ := if_neg notIpv6
  rw [flowNetworkNlattrs, if_pos isIpv4, flowTransportNlattrs, ipv4]
  simp only [hasTransport_iff known (.inl isIpv4), isIpv4, true_and]
  rfl

theorem flowL3_eq_ipv6 {flow : Flow} (known : flow.nwFrag.toNat ≤ 3)
    (isIpv6 : flow.dlType = ethPIpv6) :
    flowNetworkNlattrs flow ++ flowTransportNlattrs flow =
      OvsKeyAttr.ipv6.nla (ipv6Payload flow.key.ip flow.key.ipv6) ::
        if flow.key.ip.frag ≠ ovsFragTypeLater then ipv6TpToNlattrs flow.key.ip.proto flow.key.ipv6
        else [] := by
  have notIpv4 : flow.dlType ≠ ethPIp := isIpv6.trans_ne (by decide)
  have ipv6 : flow.key.ipv6 = ⟨flow.ipv6Src, flow.ipv6Dst, flow.ipv6Label, flow.tpSrc, flow.tpDst,
    flow.ndTarget, flow.arpSha, flow.arpTha⟩ := if_pos isIpv6
  rw [flowNetworkNlattrs, if_neg notIpv4, if_pos isIpv6, flowTransportNlattrs, ipv6]
  simp only [hasTransport_iff known (.inr isIpv6), isIpv6, true_and]
  rfl

theorem flowL3_eq {flow : Flow} (known : flow.nwFrag.toNat ≤ 3) (long : ¬ flow.dlType.toNat < 1536) :
    flowNetworkNlattrs flow ++ flowTransportNlattrs flow = l3ToNlattrs flow.key := by
  have type : flow.key.type = flow.dlType := if_neg long
  rw [l3ToNlattrs, type]
  by_cases isIpv4 : flow.dlType = ethPIp
  · rw [if_pos isIpv4, flowL3_eq_ipv4 known isIpv4]
  by_cases isIpv6 : flow.dlType = ethPIpv6
  · rw [if_neg isIpv4, if_pos isIpv6, flowL3_eq_ipv6 known isIpv6]
  have noTransport : ¬ flow.HasTransport := fun has => has.1.elim isIpv4 isIpv6
  have ipv4 : flow.key.ipv4 = ⟨flow.nwSrc, flow.nwDst, flow.tpSrc, flow.tpDst, flow.arpSha,
    flow.arpTha⟩ := if_neg isIpv6
  rw [flowNetworkNlattrs, flowTransportNlattrs, if_neg isIpv4, if_neg isIpv6, if_neg noTransport,
    if_neg isIpv4, if_neg isIpv6, List.append_nil, ipv4]
  rfl

theorem Flow.key_type_eq_iff (flow : Flow) {type : BitVec 16} (long : 1536 ≤ type.toNat) :
    flow.key.type = type ↔ flow.dlType = type := by
  by_cases short : flow.dlType.toNat < 1536
  · have llc : flow.key.type = ethP8022 := if_pos short
    have notLlc : ethP8022 ≠ type := by
      rintro rfl
      exact absurd long (by decide)
    refine iff_of_false (llc.trans_ne notLlc) ?_
    rintro rfl
    omega
  · have same : flow.key.type = flow.dlType := if_neg short
    rw [same]

theorem flowNlattrs_eq {flow : Flow} (known : flow.nwFrag.toNat ≤ 3)
    (port : IsInputPort flow.inPort) : flowNlattrs flow = keyNlattrs flow.key := by
  have type : flowTypeNlattrs flow = typeToNlattrs flow.key := by
    rw [flowTypeNlattrs, typeToNlattrs]
    by_cases short : flow.dlType.toNat < 1536
    · rw [if_pos short]
      exact (if_pos (if_pos short)).symm
    · have same : flow.key.type = flow.dlType := if_neg short
      have notLlc : flow.dlType ≠ ethP8022 := by
        rintro llc
        rw [llc] at short
        exact absurd (by decide) short
      rw [if_neg short, same, if_neg notLlc, flowL3_eq known short]
  have tagged := flow.key_type_eq_iff (by decide : 1536 ≤ ethP8021Q.toNat)
  rw [flowNlattrs, keyNlattrs, flowMetadataNlattrs_eq port, flowEncapNlattrs, encapToNlattrs, type]
  simp only [tagged]
  rfl

structure Flow.Clean (flow : Flow) : Prop where
  key : flow.key.Clean
  frag : flow.nwFrag.toNat ≤ 3
  noIpv4 : flow.dlType = ethPIpv6 → flow.nwSrc = 0 ∧ flow.nwDst = 0
  noIpv6 : flow.dlType ≠ ethPIpv6 →
    flow.ipv6Src = 0 ∧ flow.ipv6Dst = 0 ∧ flow.ipv6Label = 0 ∧ flow.ndTarget = 0

/-- The flow is from a port with a number of its own, its frame type is not a length, and a later
fragment is marked as a fragment. -/
def Flow.Representable (flow : Flow) : Prop :=
  flow.inPort ≠ 0 ∧ (flow.dlType = flowDlTypeNone ∨ 1536 ≤ flow.dlType.toNat) ∧
    flow.nwFrag ≠ flowNwFragLater

theorem odpFlowKeyToFlow_odpFlowKeyFromFlow {flow : Flow} (clean : flow.Clean)
    (port : IsInputPort flow.inPort) :
    odpFlowKeyToFlow (odpFlowKeyFromFlow flow) = some (.perfect, flow.key.flow) := by
  have typeOk : flow.key.TypeOk := by
    by_cases short : flow.dlType.toNat < 1536
    · exact .inl (if_pos short)
    · have same : flow.key.type = flow.dlType := if_neg short
      exact .inr (same ▸ Nat.not_lt.mp short)
  rw [odpFlowKeyFromFlow, flowNlattrs_eq clean.frag port]
  exact odpFlowKeyToFlow_of_typeOk clean.key port.odpPort_lt typeOk

theorem odpPortToOfpPort_eq_iff {inPort : BitVec 16} (port : IsInputPort inPort) :
    odpPortToOfpPort (ofpPortToOdpPort inPort) = inPort ↔ inPort ≠ 0 := by
  obtain ordinary | rfl := port
  · have notLocal : inPort ≠ ofppLocal := by
      rintro rfl
      exact absurd ordinary (by decide)
    have notNone : inPort ≠ ofppNone := by
      rintro rfl
      exact absurd ordinary (by decide)
    have same : ofpPortToOdpPort inPort = inPort := (if_neg notLocal).trans (if_neg notNone)
    rw [same, odpPortToOfpPort]
    by_cases zero : inPort = ovspLocal
    · rw [if_pos zero]
      exact iff_of_false notLocal.symm (not_not_intro zero)
    · rw [if_neg zero, if_neg (show inPort ≠ ovspNone from notNone)]
      exact iff_of_true rfl zero
  · decide

theorem nwFragOf_ovsToOdpFrag_iff {nwFrag : Byte} (known : nwFrag.toNat ≤ 3) :
    nwFragOf (ovsToOdpFrag nwFrag) = nwFrag ↔ nwFrag ≠ flowNwFragLater := by
  have each : ∀ n ≤ 3, nwFragOf (ovsToOdpFrag (BitVec.ofNat 8 n)) = BitVec.ofNat 8 n ↔
      BitVec.ofNat 8 n ≠ flowNwFragLater := by decide
  have value := each nwFrag.toNat known
  rwa [BitVec.ofNat_toNat, BitVec.setWidth_eq] at value

theorem linkFlow_dlType_eq_iff (flow : Flow) :
    flow.key.linkFlow.dlType = flow.dlType ↔
      flow.dlType = flowDlTypeNone ∨ 1536 ≤ flow.dlType.toNat := by
  by_cases short : flow.dlType.toNat < 1536
  · have llc : flow.key.type = ethP8022 := if_pos short
    have none : flow.key.linkFlow.dlType = flowDlTypeNone := if_pos llc
    rw [none, or_iff_left (Nat.not_le.mpr short), eq_comm]
  · have same : flow.key.type = flow.dlType := if_neg short
    have notLlc : flow.key.type ≠ ethP8022 := by
      intro llc
      rw [← same, llc] at short
      exact short (by decide)
    have type : flow.key.linkFlow.dlType = flow.key.type := if_neg notLlc
    exact iff_of_true (type.trans same) (.inr (Nat.not_lt.mp short))

theorem key_flow_eq {flow : Flow} (clean : flow.Clean) :
    flow.key.flow = { flow with
      inPort := odpPortToOfpPort (ofpPortToOdpPort flow.inPort)
      dlType := flow.key.linkFlow.dlType
      nwFrag := nwFragOf (ovsToOdpFrag flow.nwFrag) } := by
  have type := flow.key_type_eq_iff (by decide : 1536 ≤ ethPIpv6.toNat)
  by_cases isIpv6 : flow.dlType = ethPIpv6
  · obtain ⟨noSrc, noDst⟩ := clean.noIpv4 isIpv6
    have ipv6 : flow.key.ipv6 = ⟨flow.ipv6Src, flow.ipv6Dst, flow.ipv6Label, flow.tpSrc, flow.tpDst,
      flow.ndTarget, flow.arpSha, flow.arpTha⟩ := if_pos isIpv6
    rw [SwFlowKey.flow, if_pos (type.mpr isIpv6), ipv6, noSrc, noDst]
    rfl
  · obtain ⟨noSrc, noDst, noLabel, noTarget⟩ := clean.noIpv6 isIpv6
    have ipv4 : flow.key.ipv4 = ⟨flow.nwSrc, flow.nwDst, flow.tpSrc, flow.tpDst, flow.arpSha,
      flow.arpTha⟩ := if_neg isIpv6
    rw [SwFlowKey.flow, if_neg (mt type.mp isIpv6), ipv4, noSrc, noDst, noLabel, noTarget]
    rfl

theorem key_flow_eq_iff {flow : Flow} (clean : flow.Clean) (port : IsInputPort flow.inPort) :
    flow.key.flow = flow ↔ flow.Representable := by
  have members : ∀ inPort dlType nwFrag, { flow with inPort, dlType, nwFrag } = flow ↔
      inPort = flow.inPort ∧ dlType = flow.dlType ∧ nwFrag = flow.nwFrag := by
    intro inPort dlType nwFrag
    cases flow
    simp
  rw [key_flow_eq clean, members, odpPortToOfpPort_eq_iff port, linkFlow_dlType_eq_iff,
    nwFragOf_ovsToOdpFrag_iff clean.frag]
  rfl

section Frame

variable (frame : List Byte)

def HasRegularSnap : Prop := HasSnap frame ∧ snapControl frame = 3

instance : Decidable (HasRegularSnap frame) := inferInstanceAs (Decidable (_ ∧ _))

def daemonType : BitVec 16 :=
  if HasRegularSnap frame then be16 frame (typeOffset frame + 8)
  else if 1536 ≤ (be16 frame (typeOffset frame)).toNat then be16 frame (typeOffset frame)
  else flowDlTypeNone

def daemonOffset : Nat :=
  if HasRegularSnap frame then typeOffset frame + 10 else typeOffset frame + 2

theorem userParseEthertype_eq_daemon :
    userParseEthertype frame (typeOffset frame) = (daemonType frame, daemonOffset frame) := by
  rw [userParseEthertype_eq, daemonType, daemonOffset]
  by_cases snap : HasSnap frame
  · by_cases control : snapControl frame = 3
    · have regular : HasRegularSnap frame := ⟨snap, control⟩
      have inner : frameType frame = be16 frame (typeOffset frame + 8) := if_pos snap
      have offset : networkOffset frame = typeOffset frame + 10 := if_pos snap
      rw [if_pos snap, if_pos control, if_pos regular, if_pos regular, inner, offset]
    · have other : ¬ HasRegularSnap frame := fun regular => control regular.2
      have short : ¬ 1536 ≤ (be16 frame (typeOffset frame)).toNat := Nat.not_le.mpr snap.1
      rw [if_pos snap, if_neg control, if_neg other, if_neg other, if_neg short]
  · have other : ¬ HasRegularSnap frame := fun regular => snap regular.1
    rw [if_neg snap, if_neg other, if_neg other]

def skipHeader (ofs : Nat) (nexthdr : Byte) : Option Nat :=
  if nexthdr = nexthdrHop ∨ nexthdr = nexthdrRouting ∨ nexthdr = nexthdrDest then
    tryPull frame ofs (((u8 frame (ofs + 1)).toNat + 1) * 8)
  else if nexthdr = nexthdrAuth then tryPull frame ofs (((u8 frame (ofs + 1)).toNat + 2) * 4)
  else none

def firstFragment : Nat → Nat → Byte → Option (BitVec 16)
  | 0, _, _ => none
  | turns + 1, ofs, nexthdr =>
    if frame.length - ofs < 8 then none
    else if nexthdr = nexthdrFragment then
      if be16 frame (ofs + 2) ≠ 0 then some (be16 frame (ofs + 2))
      else firstFragment turns (ofs + 8) (u8 frame ofs)
    else (skipHeader frame ofs nexthdr).bind fun next => firstFragment turns next (u8 frame ofs)

def MarksFragments (result : Byte × Option (Byte × Nat)) : Prop :=
  ∃ frag : Byte, frag.toNat ≤ 2 ∧ result.1 = nwFragOf frag ∧
    (frag = ovsFragTypeLater → ∃ ofs, result.2 = some (nexthdrFragment, ofs))

theorem parseIpv6Ext_succ (turns ofs : Nat) (nexthdr nwFrag : Byte) :
    parseIpv6Ext frame (turns + 1) ofs nexthdr nwFrag =
      if IsPlain nexthdr then (nwFrag, some (nexthdr, ofs))
      else if frame.length - ofs < 8 then (nwFrag, none)
      else if nexthdr = nexthdrFragment then
        if be16 frame (ofs + 2) ≠ 0 then
          if be16 frame (ofs + 2) &&& 0xfff8 = 0 then
            parseIpv6Ext frame turns (ofs + 8) (u8 frame ofs) flowNwFragAny
          else (nwFrag ||| flowNwFragLater, some (nexthdrFragment, ofs + 8))
        else parseIpv6Ext frame turns (ofs + 8) (u8 frame ofs) nwFrag
      else
        (skipHeader frame ofs nexthdr).elim (nwFrag, none) fun next =>
          parseIpv6Ext frame turns next (u8 frame ofs) nwFrag := by
  rw [parseIpv6Ext, skipHeader]
  by_cases plain : IsPlain nexthdr
  · rw [if_pos plain]
    exact if_pos plain
  rw [if_neg plain]
  refine (if_neg plain).trans ?_
  by_cases short : frame.length - ofs < 8
  · rw [if_pos short, if_pos short]
  rw [if_neg short, if_neg short]
  by_cases options : nexthdr = nexthdrHop ∨ nexthdr = nexthdrRouting ∨ nexthdr = nexthdrDest
  · have other : nexthdr ≠ nexthdrFragment := by
      rintro rfl
      exact absurd options (by decide)
    rw [if_pos options, if_neg other, if_pos options]
    cases tryPull frame ofs (((u8 frame (ofs + 1)).toNat + 1) * 8) <;> rfl
  rw [if_neg options, if_neg options]
  by_cases auth : nexthdr = nexthdrAuth
  · have other : nexthdr ≠ nexthdrFragment := auth.trans_ne (by decide)
    rw [if_pos auth, if_neg other, if_pos auth]
    cases tryPull frame ofs (((u8 frame (ofs + 1)).toNat + 2) * 4) <;> rfl
  · have fragment : nexthdr = nexthdrFragment := by
      by_contra other
      obtain ⟨hop, routing, dest⟩ := not_or.mp options |>.imp id not_or.mp
      exact plain ⟨hop, routing, dest, auth, other⟩
    rw [if_neg auth, if_pos fragment]

theorem marksFragments_any (turns ofs : Nat) (nexthdr : Byte) :
    MarksFragments (parseIpv6Ext frame turns ofs nexthdr flowNwFragAny) := by
  have first : ∀ result, MarksFragments (flowNwFragAny, result) := fun result =>
    ⟨ovsFragTypeFirst, by decide, rfl, fun later => absurd later (by decide)⟩
  induction turns generalizing ofs nexthdr with
  | zero => exact first none
  | succ turns ih =>
    rw [parseIpv6Ext_succ]
    split_ifs
    · exact first _
    · exact first _
    · exact ih _ _
    · exact ⟨ovsFragTypeLater, by decide, rfl, fun _ => ⟨_, rfl⟩⟩
    · exact ih _ _
    · cases skipHeader frame ofs nexthdr with
      | none => exact first _
      | some next => exact ih _ _

theorem parseIpv6Ext_zero (turns ofs : Nat) (nexthdr : Byte) :
    (∃ offlg ∈ firstFragment frame turns ofs nexthdr, offlg &&& 0xfff8 ≠ 0) ∧
        (∃ l4, parseIpv6Ext frame turns ofs nexthdr 0 =
          (flowNwFragLater, some (nexthdrFragment, l4))) ∨
      (∀ offlg ∈ firstFragment frame turns ofs nexthdr, offlg &&& 0xfff8 = 0) ∧
        MarksFragments (parseIpv6Ext frame turns ofs nexthdr 0) := by
  have none : ∀ result, MarksFragments (0, result) := fun result =>
    ⟨0, by decide, rfl, fun later => absurd later (by decide)⟩
  have listed : ∀ {found : BitVec 16} {result},
      MarksFragments result → found &&& 0xfff8 = 0 →
        (∀ offlg ∈ some found, offlg &&& 0xfff8 = 0) ∧ MarksFragments result := by
    intro found result marked first
    exact ⟨fun offlg same => Option.some.inj same ▸ first, marked⟩
  induction turns generalizing ofs nexthdr with
  | zero => exact .inr ⟨fun _ listed => (nomatch listed), none _⟩
  | succ turns ih =>
    rw [parseIpv6Ext_succ, firstFragment]
    by_cases short : frame.length - ofs < 8
    · rw [if_pos short, if_pos short]
      refine .inr ⟨fun _ listed => (nomatch listed), ?_⟩
      split_ifs <;> exact none _
    rw [if_neg short, if_neg short]
    by_cases fragment : nexthdr = nexthdrFragment
    · have notPlain : ¬ IsPlain nexthdr := fun plain => plain.2.2.2.2 fragment
      rw [if_neg notPlain, if_pos fragment, if_pos fragment]
      split_ifs with some_ first
      · exact .inr (listed (marksFragments_any frame _ _ _) first)
      · exact .inl ⟨⟨_, rfl, first⟩, _, rfl⟩
      · exact ih _ _
    · rw [if_neg fragment, if_neg fragment]
      by_cases plain : IsPlain nexthdr
      · obtain ⟨hop, routing, dest, auth, -⟩ := id plain
        have noHeader : skipHeader frame ofs nexthdr = Option.none := by
          rw [skipHeader, if_neg (not_or.mpr ⟨hop, not_or.mpr ⟨routing, dest⟩⟩), if_neg auth]
        rw [if_pos plain, noHeader]
        exact .inr ⟨fun _ listed => (nomatch listed), none _⟩
      · rw [if_neg plain]
        cases skipHeader frame ofs nexthdr with
        | none => exact .inr ⟨fun _ listed => (nomatch listed), none _⟩
        | some next => exact ih _ _

/-- The IPv6 packet at a position, if it has a complete header, does not get to the header of a later
fragment before that of a first one. -/
def StartsWhole (nh : Nat) : Prop :=
  nh + 40 ≤ frame.length →
    ∀ offlg ∈ firstFragment frame frame.length (nh + 40) (u8 frame (nh + 6)), offlg &&& 0xfff8 = 0

theorem ovsToOdpFrag_nwFragOf {frag : Byte} (known : frag.toNat ≤ 2) :
    ovsToOdpFrag (nwFragOf frag) = frag ∧ (nwFragOf frag).toNat ≤ 3 ∧
      nwFragOf frag ≠ flowNwFragLater := by
  have each : ∀ n ≤ 2, ovsToOdpFrag (nwFragOf (BitVec.ofNat 8 n)) = BitVec.ofNat 8 n ∧
      (nwFragOf (BitVec.ofNat 8 n)).toNat ≤ 3 ∧
        nwFragOf (BitVec.ofNat 8 n) ≠ flowNwFragLater := by decide
  have value := each frag.toNat known
  rwa [BitVec.ofNat_toNat, BitVec.setWidth_eq] at value

structure Ipv6Flow (nh : Nat) (before after : Flow) : Prop where
  members : ∃ ip ipv6, Ipv6Extracted ip ipv6 ∧ ovsToOdpFrag after.nwFrag = ip.frag ∧
    after = { before.setIpv6 ip ipv6 with nwFrag := after.nwFrag }
  frag : after.nwFrag.toNat ≤ 3
  later : after.nwFrag = flowNwFragLater ↔ ¬ StartsWhole frame nh

theorem Ipv6Flow.of {frame : List Byte} {nh : Nat} {before after : Flow} (ip : KeyIp) (ipv6 : KeyIpv6)
    (nwFrag : Byte) (extracted : Ipv6Extracted ip ipv6)
    (same : after = { before.setIpv6 ip ipv6 with nwFrag }) (back : ovsToOdpFrag nwFrag = ip.frag)
    (small : nwFrag.toNat ≤ 3) (later : nwFrag = flowNwFragLater ↔ ¬ StartsWhole frame nh) :
    Ipv6Flow frame nh before after := by
  subst same
  exact ⟨⟨ip, ipv6, extracted, back, rfl⟩, small, later⟩

theorem ipv6Flow_parseIpv6 {nh : Nat} {parsed : Parsed}
    (blank : parsed.flow.setIpv6 {} {} = parsed.flow) :
    Ipv6Flow frame nh parsed.flow (parseIpv6 frame nh parsed).flow := by
  have noFrag : parsed.flow.nwFrag = 0 := (congrArg Flow.nwFrag blank).symm
  rw [parseIpv6, tryPull_eq frame nh (by decide)]
  by_cases long : nh + 40 ≤ frame.length
  · have whole : StartsWhole frame nh ↔ ∀ offlg ∈ firstFragment frame frame.length (nh + 40)
        (u8 frame (nh + 6)), offlg &&& 0xfff8 = 0 := ⟨fun starts => starts long, fun all _ => all⟩
    have header : ∀ (proto frag : Byte), { parsed.flow with
        ipv6Src := be128 frame (nh + 8)
        ipv6Dst := be128 frame (nh + 24)
        nwTos := (be32 frame nh >>> 20).setWidth 8
        ipv6Label := be32 frame nh &&& 0xfffff
        nwTtl := u8 frame (nh + 7)
        nwProto := proto
        nwFrag := nwFragOf frag } =
          parsed.flow.setIpv6 ⟨proto, ipv6Dsfield frame nh, u8 frame (nh + 7), frag⟩
            (ipv6Header frame nh) := by
      intro proto frag
      rw [trafficClass_eq, ← blank]
      rfl
    rw [if_pos long]
    simp only [noFrag]
    obtain ⟨⟨offlg, found, later⟩, l4, ext⟩ | ⟨all, marks⟩ :=
      parseIpv6Ext_zero frame frame.length (nh + 40) (u8 frame (nh + 6))
    · have extracted : Ipv6Extracted ⟨nexthdrFragment, ipv6Dsfield frame nh, u8 frame (nh + 7),
          ovsFragTypeLater⟩ (ipv6Header frame nh) :=
        ⟨⟨rfl, rfl⟩, fun _ => ⟨rfl, rfl, rfl⟩, Nat.le_refl 2⟩
      have flow := congrArg (fun flow => { flow with nwFrag := flowNwFragLater })
        (header nexthdrFragment ovsFragTypeLater)
      simp only [ext]
      rw [if_neg (by decide), if_neg (by decide), if_neg (by decide)]
      exact .of _ _ flowNwFragLater extracted flow rfl (by decide)
        (iff_of_true rfl fun starts => later (starts long offlg found))
    · obtain ⟨frag, known, value, last⟩ := marks
      obtain ⟨back, small, marked⟩ := ovsToOdpFrag_nwFragOf known
      have starts : nwFragOf frag = flowNwFragLater ↔ ¬ StartsWhole frame nh :=
        iff_of_false marked (not_not_intro (whole.mpr all))
      cases ext : parseIpv6Ext frame frame.length (nh + 40) (u8 frame (nh + 6)) 0 with
      | mk nwFrag result =>
        rw [ext] at value last
        obtain rfl : nwFrag = nwFragOf frag := value
        cases result with
        | none =>
          have notLater : frag ≠ ovsFragTypeLater := by
            intro later
            obtain ⟨_, nothing⟩ := last later
            cases nothing
          have extracted : Ipv6Extracted ⟨nexthdrNone, ipv6Dsfield frame nh, u8 frame (nh + 7),
              frag⟩ (ipv6Header frame nh) := by
            refine ⟨?_, fun _ => ⟨rfl, rfl, rfl⟩, known⟩
            rw [CleanTp, if_neg notLater,
              if_neg (by decide : ¬(nexthdrNone = ipprotoTcp ∨ nexthdrNone = ipprotoUdp)),
              if_neg (by decide : nexthdrNone ≠ ipprotoIcmpv6)]
            exact ⟨rfl, rfl⟩
          exact .of _ _ (nwFragOf frag) extracted (header nexthdrNone frag) back small starts
        | some found =>
          obtain ⟨proto, l4⟩ := found
          have extracted : Ipv6Extracted
              ⟨proto, ipv6Dsfield frame nh, u8 frame (nh + 7), frag⟩
              (extractIpv6Tp frame proto l4 (ipv6Header frame nh)).1 := by
            by_cases later : frag = ovsFragTypeLater
            · obtain ⟨ofs, fragment⟩ := last later
              cases fragment
              refine ⟨?_, fun _ => ⟨rfl, rfl, rfl⟩, known⟩
              rw [CleanTp, if_pos later]
              exact ⟨rfl, rfl⟩
            · exact @extractIpv6Tp_extracted frame
                ⟨proto, ipv6Dsfield frame nh, u8 frame (nh + 7), frag⟩ (ipv6Header frame nh) l4
                later known ⟨rfl, rfl⟩ ⟨rfl, rfl, rfl⟩
          have flow := @parseTp_ipv6_flow frame l4 parsed.flow
            ⟨proto, ipv6Dsfield frame nh, u8 frame (nh + 7), frag⟩ (ipv6Header frame nh)
            { parsed with
              flow := parsed.flow.setIpv6
                ⟨proto, ipv6Dsfield frame nh, u8 frame (nh + 7), frag⟩ (ipv6Header frame nh)
              l4 := some l4 } rfl ⟨rfl, rfl, rfl⟩
          simp only [header]
          exact .of _ _ (nwFragOf frag) extracted flow back small starts
  · rw [if_neg long]
    have extracted : Ipv6Extracted {} {} :=
      ⟨⟨rfl, rfl⟩, fun _ => ⟨rfl, rfl, rfl⟩, Nat.zero_le _⟩
    exact .of {} {} 0 extracted blank.symm rfl (by decide)
      (iff_of_false (by decide) (not_not_intro fun starts => absurd starts long))

variable (priority : BitVec 32) (tunId : BitVec 64) (inPort : BitVec 16)

def daemonLink : Flow :=
  { tunId, inPort, skbPriority := priority, dlSrc := be48 frame 6, dlDst := be48 frame 0,
    vlanTci := (linkLayer frame).1, dlType := daemonType frame }

variable {frame}

theorem flowExtract_eq_daemon (long : 14 ≤ frame.length) :
    flowExtract frame priority tunId inPort =
      let parsed : Parsed :=
        { flow := daemonLink frame priority tunId inPort, l3 := some (daemonOffset frame) }
      if daemonType frame = ethPIp then parseIpv4 frame (daemonOffset frame) parsed
      else if daemonType frame = ethPIpv6 then parseIpv6 frame (daemonOffset frame) parsed
      else if daemonType frame = ethPArp then parseArp frame (daemonOffset frame) parsed
      else parsed := by
  have link : (if be16 frame 12 = ethP8021Q then userParseVlan frame 12 else (0, 12)) =
      ((linkLayer frame).1, typeOffset frame) := by
    rw [userParseVlan_eq, ← linkLayer_snd]
    rfl
  rw [flowExtract, if_neg (Nat.not_lt.mpr long)]
  simp only [link, userParseEthertype_eq_daemon]
  rfl

theorem key_setIpv4 {link : Flow} (other : link.dlType ≠ ethPIpv6) {ip : KeyIp} (ipv4 : KeyIpv4)
    (known : ip.frag.toNat ≤ 2) :
    (link.setIpv4 ip ipv4).key = { link.key with ip, ipv4, ipv6 := {} } := by
  have back : ovsToOdpFrag (nwFragOf ip.frag) = ip.frag := (ovsToOdpFrag_nwFragOf known).1
  have type : (link.setIpv4 ip ipv4).dlType ≠ ethPIpv6 := other
  rw [Flow.key, if_neg type, if_neg type]
  simp only [Flow.setIpv4, back]
  rfl

theorem key_setIpv6 {link : Flow} (isIpv6 : link.dlType = ethPIpv6) {ip : KeyIp} (ipv6 : KeyIpv6)
    {nwFrag : Byte} (back : ovsToOdpFrag nwFrag = ip.frag) :
    { link.setIpv6 ip ipv6 with nwFrag }.key = { link.key with ip, ipv4 := {}, ipv6 } := by
  have type : { link.setIpv6 ip ipv6 with nwFrag }.dlType = ethPIpv6 := isIpv6
  rw [Flow.key, if_pos type, if_pos type]
  simp only [Flow.setIpv6, back]
  rfl

section Link

variable {priority tunId inPort} (port : IsInputPort inPort)

include port

theorem clean_setIpv4 {ip : KeyIp} {ipv4 : KeyIpv4} (other : daemonType frame ≠ ethPIpv6)
    (known : ip.frag.toNat ≤ 2)
    (isIpv4 : daemonType frame = ethPIp →
      CleanTp ipprotoIcmp ip ipv4.tpSrc ipv4.tpDst ∧ ipv4.arpSha = 0 ∧ ipv4.arpTha = 0)
    (isArp : daemonType frame = ethPArp →
      ip = { proto := ip.proto } ∧ ipv4.tpSrc = 0 ∧ ipv4.tpDst = 0)
    (none : daemonType frame ≠ ethPIp → daemonType frame ≠ ethPArp → ip = {} ∧ ipv4 = {}) :
    ((daemonLink frame priority tunId inPort).setIpv4 ip ipv4).Clean := by
  have type {type : BitVec 16} (long : 1536 ≤ type.toNat) :
      (daemonLink frame priority tunId inPort).key.type = type ↔ daemonType frame = type :=
    Flow.key_type_eq_iff _ long
  refine ⟨?_, (ovsToOdpFrag_nwFragOf known).2.1, fun isIpv6 => absurd isIpv6 other,
    fun _ => ⟨rfl, rfl, rfl, rfl⟩⟩
  rw [key_setIpv4 other ipv4 known]
  refine ⟨port.odpPort_lt_none, linkLayer_tag frame, known, fun is => ?_, fun is => ?_, fun is => ?_,
    fun no4 _ noArp => ?_⟩
  · obtain ⟨tp, noSha, noTha⟩ := isIpv4 ((type (by decide)).mp is)
    exact ⟨tp, noSha, noTha, rfl⟩
  · exact absurd ((type (by decide)).mp is) other
  · obtain ⟨onlyProto, noSrc, noDst⟩ := isArp ((type (by decide)).mp is)
    exact ⟨onlyProto, noSrc, noDst, rfl⟩
  · obtain ⟨noIp, noIpv4⟩ := none (mt (type (by decide)).mpr no4) (mt (type (by decide)).mpr noArp)
    exact ⟨noIp, noIpv4, rfl⟩

theorem clean_setIpv6 {ip : KeyIp} {ipv6 : KeyIpv6} (isIpv6 : daemonType frame = ethPIpv6)
    (extracted : Ipv6Extracted ip ipv6) {nwFrag : Byte} (back : ovsToOdpFrag nwFrag = ip.frag)
    (small : nwFrag.toNat ≤ 3) :
    { (daemonLink frame priority tunId inPort).setIpv6 ip ipv6 with nwFrag }.Clean := by
  have type : (daemonLink frame priority tunId inPort).key.type = ethPIpv6 :=
    (Flow.key_type_eq_iff _ (by decide)).mpr isIpv6
  refine ⟨?_, small, fun _ => ⟨rfl, rfl⟩, fun other => absurd isIpv6 other⟩
  rw [key_setIpv6 isIpv6 ipv6 back]
  refine ⟨port.odpPort_lt_none, linkLayer_tag frame, extracted.frag, fun is => ?_,
    fun _ => ⟨extracted.tp, rfl, extracted.noNd⟩, fun is => ?_, fun _ no6 => absurd type no6⟩
  · exact absurd (type.symm.trans is) (by decide)
  · exact absurd (type.symm.trans is) (by decide)

end Link

theorem flowExtract_spec (long : 14 ≤ frame.length) (port : IsInputPort inPort) :
    (flowExtract frame priority tunId inPort).flow.Clean ∧
      (flowExtract frame priority tunId inPort).flow.inPort = inPort ∧
      (flowExtract frame priority tunId inPort).flow.dlType = daemonType frame ∧
      ((flowExtract frame priority tunId inPort).flow.nwFrag = flowNwFragLater ↔
        daemonType frame = ethPIpv6 ∧ ¬ StartsWhole frame (daemonOffset frame)) := by
  have blank4 : (daemonLink frame priority tunId inPort).setIpv4 {} {} =
      daemonLink frame priority tunId inPort := rfl
  have blank6 : (daemonLink frame priority tunId inPort).setIpv6 {} {} =
      daemonLink frame priority tunId inPort := rfl
  rw [flowExtract_eq_daemon priority tunId inPort long]
  by_cases isIpv4 : daemonType frame = ethPIp
  · have extracted := extractIpv4_extracted frame (daemonOffset frame)
    have other : daemonType frame ≠ ethPIpv6 := isIpv4.trans_ne (by decide)
    have marked := (ovsToOdpFrag_nwFragOf extracted.frag).2.2
    simp only [if_pos isIpv4]
    rw [parseIpv4_flow frame (daemonOffset frame) blank4]
    refine ⟨clean_setIpv4 port other extracted.frag (fun _ => ⟨extracted.tp, extracted.noArp⟩)
      (fun isArp => absurd (isIpv4.symm.trans isArp) (by decide)) (fun no _ => absurd isIpv4 no),
      rfl, rfl, iff_of_false marked fun both => other both.1⟩
  by_cases isIpv6 : daemonType frame = ethPIpv6
  · obtain ⟨⟨ip, ipv6, extracted, back, same⟩, small, later⟩ :=
      @ipv6Flow_parseIpv6 frame (daemonOffset frame)
        { flow := daemonLink frame priority tunId inPort, l3 := some (daemonOffset frame) } blank6
    simp only [if_neg isIpv4, if_pos isIpv6]
    refine ⟨?_, ?_, ?_, later.trans (and_iff_right isIpv6).symm⟩
    · rw [same]
      exact clean_setIpv6 port isIpv6 extracted back small
    · rw [same]
      rfl
    · rw [same]
      rfl
  have whole : ∀ {frag : Byte}, frag.toNat ≤ 2 → (nwFragOf frag = flowNwFragLater ↔
      daemonType frame = ethPIpv6 ∧ ¬ StartsWhole frame (daemonOffset frame)) := fun known =>
    iff_of_false (ovsToOdpFrag_nwFragOf known).2.2 fun both => isIpv6 both.1
  have plain : (daemonLink frame priority tunId inPort).Clean :=
    clean_setIpv4 port isIpv6 (Nat.zero_le _) (fun is => absurd is isIpv4)
      (fun _ => ⟨rfl, rfl, rfl⟩) fun _ _ => ⟨rfl, rfl⟩
  by_cases isArp : daemonType frame = ethPArp
  · simp only [if_neg isIpv4, if_neg isIpv6, if_pos isArp]
    by_cases complete : arphdrOk frame (daemonOffset frame)
    · have extracted := extractArp_extracted frame (daemonOffset frame)
      have known : (extractArp frame (daemonOffset frame)).1.frag.toNat ≤ 2 := by
        rw [extracted.1]
        exact Nat.zero_le _
      rw [parseArp_flow frame complete blank4]
      exact ⟨clean_setIpv4 port isIpv6 known (fun is => absurd is isIpv4) (fun _ => extracted)
        (fun _ no => absurd isArp no), rfl, rfl, whole known⟩
    · rw [parseArp_short frame complete]
      exact ⟨plain, rfl, rfl, @whole 0 (by decide)⟩
  · simp only [if_neg isIpv4, if_neg isIpv6, if_neg isArp]
    exact ⟨plain, rfl, rfl, @whole 0 (by decide)⟩

/-- The key that `odp_flow_key_from_flow` makes of the flow of a frame gives the flow back, with a
perfect fit. -/
def ComesBack (frame : List Byte) (priority : BitVec 32) (tunId : BitVec 64) (inPort : BitVec 16) :
    Prop :=
  odpFlowKeyToFlow (odpFlowKeyFromFlow (flowExtract frame priority tunId inPort).flow) =
    some (.perfect, (flowExtract frame priority tunId inPort).flow)

theorem comesBack_iff_representable (long : 14 ≤ frame.length) (port : IsInputPort inPort) :
    ComesBack frame priority tunId inPort ↔
      (flowExtract frame priority tunId inPort).flow.Representable := by
  obtain ⟨clean, samePort, -⟩ := flowExtract_spec priority tunId inPort long port
  have flowPort : IsInputPort (flowExtract frame priority tunId inPort).flow.inPort :=
    samePort.symm ▸ port
  rw [ComesBack, odpFlowKeyToFlow_odpFlowKeyFromFlow clean flowPort, ← key_flow_eq_iff clean flowPort]
  simp only [Option.some.injEq, Prod.mk.injEq, true_and]

/-- A SNAP header that the daemon takes for one has a type that is not a length. -/
def HasKnownType (frame : List Byte) : Prop :=
  HasRegularSnap frame →
    be16 frame (typeOffset frame + 8) = flowDlTypeNone ∨
      1536 ≤ (be16 frame (typeOffset frame + 8)).toNat

theorem daemonType_known_iff :
    (daemonType frame = flowDlTypeNone ∨ 1536 ≤ (daemonType frame).toNat) ↔ HasKnownType frame := by
  rw [HasKnownType, daemonType]
  by_cases snap : HasRegularSnap frame
  · simp only [snap, if_true, true_imp_iff]
  · by_cases long : 1536 ≤ (be16 frame (typeOffset frame)).toNat
    · simp only [snap, long, if_true, if_false, or_true, false_imp_iff]
    · simp only [snap, long, if_false, true_or, false_imp_iff]

/-- The flow of a frame survives the conversion to a key exactly if the port is not 0, the frame has no
SNAP header with a length for a type, and an IPv6 packet does not get to the header of a later
fragment before that of a first one. -/
theorem comesBack_iff (long : 14 ≤ frame.length) (port : IsInputPort inPort) :
    ComesBack frame priority tunId inPort ↔
      inPort ≠ 0 ∧ HasKnownType frame ∧
        (daemonType frame = ethPIpv6 → StartsWhole frame (daemonOffset frame)) := by
  obtain ⟨-, samePort, type, later⟩ := flowExtract_spec priority tunId inPort long port
  rw [comesBack_iff_representable priority tunId inPort long port, Flow.Representable, samePort, type,
    daemonType_known_iff, ne_eq _ flowNwFragLater, later, not_and_not_right]

end Frame

def fragmentFrame (offlg : BitVec 16) : List Byte :=
  put48 0x020000000002 ++ put48 0x020000000001 ++ put16 ethPIpv6 ++
    put32 0x60000000 ++ put16 8 ++ [nexthdrFragment, 64] ++ put128 1 ++ put128 2 ++
      [ipprotoUdp, 0] ++ put16 offlg ++ put32 7

theorem comesBack_fragmentFrame : ComesBack (fragmentFrame 1) 0 0 1 := by
  refine (comesBack_iff 0 0 1 (by decide) (by decide)).mpr ⟨by decide, ?_, ?_⟩
  · exact fun snap => absurd snap (by decide)
  · intro _ _ offlg found
    have first : firstFragment (fragmentFrame 1) (fragmentFrame 1).length
        (daemonOffset (fragmentFrame 1) + 40)
        (u8 (fragmentFrame 1) (daemonOffset (fragmentFrame 1) + 6)) = some 1 := by decide
    obtain rfl := Option.some.inj (first.symm.trans found)
    decide

/-- The second fragment of an IPv6 packet comes back with another member for fragments. -/
theorem not_comesBack_fragmentFrame : ¬ ComesBack (fragmentFrame 9) 0 0 1 := by
  rw [comesBack_iff_representable 0 0 1 (by decide) (by decide)]
  exact fun representable => representable.2.2 (by decide)

end Packet
end LazyCtrl
