import LazyCtrl.Packet.Extracted
import LazyCtrl.Packet.OdpKey

/-!
# The flow of a key

What `odp_flow_key_to_flow` makes of the attributes that `ovs_flow_to_nlattrs` writes: the flow that
the key stands for, with a perfect fit, unless the frame type is a length.
-/

namespace LazyCtrl
namespace Packet

open Bytes Netlink

def nwFragOf (frag : Byte) : Byte :=
  if frag = 0 then 0
  else if frag = ovsFragTypeLater then flowNwFragAny ||| flowNwFragLater
  else flowNwFragAny

def SwFlowKey.linkFlow (key : SwFlowKey) : Flow :=
  { tunId := key.tunId
    skbPriority := key.priority
    inPort := odpPortToOfpPort key.inPort
    dlSrc := key.ethSrc
    dlDst := key.ethDst
    vlanTci := key.tci
    dlType := if key.type = ethP8022 then flowDlTypeNone else key.type }

def Flow.setIpv4 (flow : Flow) (ip : KeyIp) (ipv4 : KeyIpv4) : Flow :=
  { flow with
    nwSrc := ipv4.src
    nwDst := ipv4.dst
    nwProto := ip.proto
    nwTos := ip.tos
    nwTtl := ip.ttl
    nwFrag := nwFragOf ip.frag
    tpSrc := ipv4.tpSrc
    tpDst := ipv4.tpDst
    arpSha := ipv4.arpSha
    arpTha := ipv4.arpTha }

def Flow.setIpv6 (flow : Flow) (ip : KeyIp) (ipv6 : KeyIpv6) : Flow :=
  { flow with
    ipv6Src := ipv6.src
    ipv6Dst := ipv6.dst
    ipv6Label := ipv6.label
    nwProto := ip.proto
    nwTos := ip.tos
    nwTtl := ip.ttl
    nwFrag := nwFragOf ip.frag
    tpSrc := ipv6.tpSrc
    tpDst := ipv6.tpDst
    ndTarget := ipv6.ndTarget
    arpSha := ipv6.ndSll
    arpTha := ipv6.ndTll }

def SwFlowKey.flow (key : SwFlowKey) : Flow :=
  if key.type = ethPIpv6 then key.linkFlow.setIpv6 key.ip key.ipv6
  else key.linkFlow.setIpv4 key.ip key.ipv4

theorem find_isSome_iff {attrs : List Nlattr} {type : BitVec 16} :
    (find attrs type).isSome = true ↔ type ∈ attrs.map Nlattr.type := by
  rw [find, Option.isSome_map, List.find?_isSome, List.mem_map]
  simp

theorem checkExpectations_perfect {attrs : List Nlattr} {expected : List (BitVec 16)}
    (same : ∀ type, type ∈ expected ↔ type ∈ attrs.map Nlattr.type) :
    checkExpectations attrs false expected = .perfect := by
  have present : (expected.any fun type => (find attrs type).isNone) = false := by
    rw [List.any_eq_false]
    intro type listed
    rw [Bool.not_eq_true, Option.isNone_eq_false_iff]
    exact find_isSome_iff.mpr ((same type).mp listed)
  have wanted : (attrs.any fun attr => !expected.contains attr.type) = false := by
    rw [List.any_eq_false]
    intro attr listed
    have known := (same attr.type).mpr (List.mem_map_of_mem listed)
    simp [known]
  simp only [checkExpectations, present, wanted]
  rfl

theorem find_append {front rest : List Nlattr} {type : BitVec 16}
    (absent : type ∉ front.map Nlattr.type) : find (front ++ rest) type = find rest type := by
  induction front with
  | nil => rfl
  | cons attr front ih =>
    rw [List.map_cons, List.mem_cons, not_or] at absent
    rw [List.cons_append, find_cons, if_neg fun same => absent.1 same.symm, ih absent.2]

theorem odpNlattrsOk_of_sized {attrs : List Nlattr} {seen : List (BitVec 16)}
    (sized : ∀ attr ∈ attrs, Sized attr)
    (nodup : (attrs.map Nlattr.type).Nodup) (fresh : ∀ attr ∈ attrs, attr.type ∉ seen) :
    odpNlattrsOk seen attrs = true := by
  induction attrs generalizing seen with
  | nil => rfl
  | cons attr attrs ih =>
    rw [List.forall_mem_cons] at sized fresh
    rw [List.map_cons, List.nodup_cons] at nodup
    have rest : odpNlattrsOk (attr.type :: seen) attrs = true := by
      refine ih sized.2 nodup.2 fun other listed => ?_
      rw [List.mem_cons, not_or]
      refine ⟨fun same => nodup.1 ?_, fresh.2 other listed⟩
      rw [← same]
      exact List.mem_map_of_mem listed
    have inRange : ¬ attr.type.toNat ≥ 64 := Nat.not_le.mpr (Nat.lt_succ_of_le sized.1.1)
    have size : (odpFlowKeyAttrLen attr.type).all (fun size => attr.payload.length = size) = true := by
      have whole := sized.1.2.2
      rw [ovsKeyLens] at whole
      rw [odpFlowKeyAttrLen]
      cases known : OvsKeyAttr.ofCode attr.type with
      | none => rfl
      | some kind =>
        rw [known] at whole
        exact whole
    have new : seen.contains attr.type = false := by simpa using fresh.1
    simp only [odpNlattrsOk, size, inRange, if_false, new, rest, Bool.and_self, Bool.not_false]

theorem odpParseFlowNlattrs_putAttrs {attrs : List Nlattr} (sized : ∀ attr ∈ attrs, Sized attr)
    (nodup : (attrs.map Nlattr.type).Nodup) :
    odpParseFlowNlattrs (putAttrs attrs) = some (attrs, false) := by
  have fits (attr : Nlattr) (listed : attr ∈ attrs) : attr.Fits :=
    ⟨(sized attr listed).2.1, lt_of_le_of_lt (sized attr listed).1 (by decide)⟩
  have accepted : odpNlattrsOk [] attrs = true :=
    odpNlattrsOk_of_sized sized nodup (fun _ _ => List.not_mem_nil)
  have inRange (attr : Nlattr) (listed : attr ∈ attrs) : attr.type.toNat < 64 :=
    Nat.lt_succ_of_le (sized attr listed).1
  have kept : (attrs.filter fun attr => attr.type.toNat < 64) = attrs := by
    rw [List.filter_eq_self]
    exact fun attr listed => decide_eq_true (inRange attr listed)
  have none : (attrs.any fun attr => attr.type.toNat ≥ 64) = false := by
    rw [List.any_eq_false]
    intro attr listed
    simp [inRange attr listed]
  simp only [odpParseFlowNlattrs, nlAttrForEach_putAttrs fits, accepted, kept, none]
  rfl

theorem odpToOvsFrag_eq {frag : Byte} (known : frag.toNat ≤ 2) :
    odpToOvsFrag frag 0 = some (nwFragOf frag) := by
  have inRange : ¬ frag.toNat > ovsFragTypeLater.toNat := Nat.not_lt.mpr known
  rw [odpToOvsFrag, nwFragOf, if_neg inRange]
  split_ifs <;> simp_all

theorem nwFragOf_later (frag : Byte) :
    nwFragOf frag &&& flowNwFragLater ≠ 0 ↔ frag = ovsFragTypeLater := by
  rw [nwFragOf]
  split_ifs with none later
  · simp only [none]
    decide
  · simp only [later]
    decide
  · simp only [later]
    decide

theorem odpParsePorts_of_find {kind : OvsKeyAttr} {attrs : List Nlattr} {src dst : BitVec 16}
    (found : find attrs kind.code = some (portsPayload src dst)) (expected : List (BitVec 16))
    (flow : Flow) :
    odpParsePorts kind attrs expected flow =
      ({ flow with tpSrc := src, tpDst := dst }, kind.code :: expected) := by
  rw [odpParsePorts, found]
  simp [portsPayload]

theorem flow_eq_of_tp {flow : Flow} {src dst : BitVec 16}
    (same : src = flow.tpSrc ∧ dst = flow.tpDst) : { flow with tpSrc := src, tpDst := dst } = flow := by
  obtain ⟨rfl, rfl⟩ := same
  rfl

section Transport

variable {ip : KeyIp} {attrs : List Nlattr} {expected : List (BitVec 16)} {flow : Flow}

theorem odpParseTransport_ipv4 {ipv4 : KeyIpv4} (isIpv4 : flow.dlType = ethPIp)
    (has : flow.HasTransport) (proto : flow.nwProto = ip.proto)
    (notLater : ip.frag ≠ ovsFragTypeLater)
    (clean : CleanTp ipprotoIcmp ip ipv4.tpSrc ipv4.tpDst)
    (noTp : flow.tpSrc = 0 ∧ flow.tpDst = 0)
    (inside : ∀ kind ∈ [OvsKeyAttr.tcp, .udp, .icmp],
      find attrs kind.code = find (ipv4TpToNlattrs ip.proto ipv4) kind.code) :
    odpParseTransport attrs expected flow =
      ({ flow with tpSrc := ipv4.tpSrc, tpDst := ipv4.tpDst },
        (ipv4TpToNlattrs ip.proto ipv4).map Nlattr.type ++ expected) := by
  have notIpv6 : flow.dlType ≠ ethPIpv6 := by rw [isIpv4]; decide
  rw [CleanTp, if_neg notLater] at clean
  rw [odpParseTransport]
  by_cases tcp : ip.proto = ipprotoTcp
  · have found := inside .tcp (by decide)
    rw [ipv4TpToNlattrs, if_pos tcp, find_nla_cons, if_pos rfl] at found
    rw [if_pos ⟨proto.trans tcp, has⟩, ipv4TpToNlattrs, if_pos tcp]
    exact odpParsePorts_of_find found expected flow
  rw [if_neg fun is => tcp (proto.symm.trans is.1)]
  by_cases udp : ip.proto = ipprotoUdp
  · have found := inside .udp (by decide)
    rw [ipv4TpToNlattrs, if_neg tcp, if_pos udp, find_nla_cons, if_pos rfl] at found
    rw [if_pos ⟨proto.trans udp, has⟩, ipv4TpToNlattrs, if_neg tcp, if_pos udp]
    exact odpParsePorts_of_find found expected flow
  rw [if_neg (not_or.mpr ⟨tcp, udp⟩)] at clean
  rw [if_neg fun is => udp (proto.symm.trans is.1)]
  by_cases icmp : ip.proto = ipprotoIcmp
  · have found := inside .icmp (by decide)
    rw [ipv4TpToNlattrs, if_neg tcp, if_neg udp, if_pos icmp, find_nla_cons, if_pos rfl] at found
    rw [if_pos icmp] at clean
    rw [if_pos ⟨proto.trans icmp, isIpv4, has⟩, ipv4TpToNlattrs, if_neg tcp, if_neg udp, if_pos icmp,
      odpParseIcmp, found]
    simp [icmpPayload, setWidth_setWidth_of_lt clean.1, setWidth_setWidth_of_lt clean.2,
      OvsKeyAttr.nla]
  · rw [if_neg icmp] at clean
    rw [if_neg fun is => icmp (proto.symm.trans is.1), if_neg fun is => notIpv6 is.2.1, ipv4TpToNlattrs, if_neg tcp,
      if_neg udp, if_neg icmp, flow_eq_of_tp ⟨clean.1.trans noTp.1.symm, clean.2.trans noTp.2.symm⟩]
    rfl

theorem odpParseIcmpv6_of_find {ipv6 : KeyIpv6}
    (bytes : ipv6.tpSrc.toNat < 256 ∧ ipv6.tpDst.toNat < 256)
    (noNd : isNeighbour (ipv6.tpSrc.setWidth 8) = false →
      ipv6.ndTarget = 0 ∧ ipv6.ndSll = 0 ∧ ipv6.ndTll = 0)
    (blank : flow.ndTarget = 0 ∧ flow.arpSha = 0 ∧ flow.arpTha = 0)
    (inside : ∀ kind ∈ [OvsKeyAttr.icmpv6, .nd],
      find attrs kind.code = find (ipv6TpToNlattrs ipprotoIcmpv6 ipv6) kind.code) :
    odpParseIcmpv6 attrs expected flow =
      ({ flow with
          tpSrc := ipv6.tpSrc
          tpDst := ipv6.tpDst
          ndTarget := ipv6.ndTarget
          arpSha := ipv6.ndSll
          arpTha := ipv6.ndTll },
        ((ipv6TpToNlattrs ipprotoIcmpv6 ipv6).map Nlattr.type).reverse ++ expected) := by
  have icmp := inside .icmpv6 (by decide)
  have nd := inside .nd (by decide)
  have read : (u8 (icmpPayload ipv6.tpSrc ipv6.tpDst) 0).setWidth 16 = ipv6.tpSrc ∧
      (u8 (icmpPayload ipv6.tpSrc ipv6.tpDst) 1).setWidth 16 = ipv6.tpDst :=
    ⟨setWidth_setWidth_of_lt bytes.1, setWidth_setWidth_of_lt bytes.2⟩
  have named : isNeighbour (ipv6.tpSrc.setWidth 8) = true ↔ ipv6.tpSrc = 135 ∨ ipv6.tpSrc = 136 := by
    rw [isNeighbour, decide_eq_true_iff]
    simp only [← BitVec.toNat_inj, BitVec.toNat_setWidth, ndiscNeighbourSolicitation,
      ndiscNeighbourAdvertisement]
    simp
    omega
  have list : ipv6TpToNlattrs ipprotoIcmpv6 ipv6 =
      OvsKeyAttr.icmpv6.nla (icmpPayload ipv6.tpSrc ipv6.tpDst) ::
        if isNeighbour (ipv6.tpSrc.setWidth 8) then [OvsKeyAttr.nd.nla (ndPayload ipv6)] else [] := rfl
  rw [list] at icmp nd ⊢
  rw [find_nla_cons, if_pos rfl] at icmp
  rw [find_nla_cons, if_neg (by decide)] at nd
  simp only [odpParseIcmpv6, icmp, read.1, read.2, ← named]
  by_cases neighbour : isNeighbour (ipv6.tpSrc.setWidth 8) = true
  · rw [if_pos neighbour, find_nla_cons, if_pos rfl] at nd
    rw [if_pos neighbour, if_pos neighbour, nd]
    simp [ndPayload, OvsKeyAttr.nla]
  · obtain ⟨noTarget, noSll, noTll⟩ := noNd (Bool.eq_false_iff.mpr neighbour)
    rw [if_neg neighbour, if_neg neighbour, noTarget.trans blank.1.symm,
      noSll.trans blank.2.1.symm, noTll.trans blank.2.2.symm]
    rfl

theorem odpParseTransport_ipv6 {ipv6 : KeyIpv6} (isIpv6 : flow.dlType = ethPIpv6)
    (has : flow.HasTransport) (proto : flow.nwProto = ip.proto)
    (notLater : ip.frag ≠ ovsFragTypeLater)
    (clean : CleanTp ipprotoIcmpv6 ip ipv6.tpSrc ipv6.tpDst)
    (noNd : ¬ NamesNeighbour ip ipv6 → ipv6.ndTarget = 0 ∧ ipv6.ndSll = 0 ∧ ipv6.ndTll = 0)
    (noTp : flow.tpSrc = 0 ∧ flow.tpDst = 0)
    (blank : flow.ndTarget = 0 ∧ flow.arpSha = 0 ∧ flow.arpTha = 0)
    (inside : ∀ kind ∈ [OvsKeyAttr.tcp, .udp, .icmpv6, .nd],
      find attrs kind.code = find (ipv6TpToNlattrs ip.proto ipv6) kind.code) :
    odpParseTransport attrs expected flow =
      ({ flow with
          tpSrc := ipv6.tpSrc
          tpDst := ipv6.tpDst
          ndTarget := ipv6.ndTarget
          arpSha := ipv6.ndSll
          arpTha := ipv6.ndTll },
        ((ipv6TpToNlattrs ip.proto ipv6).map Nlattr.type).reverse ++ expected) := by
  have notIpv4 : flow.dlType ≠ ethPIp := by rw [isIpv6]; decide
  rw [CleanTp, if_neg notLater] at clean
  rw [odpParseTransport]
  by_cases icmp : ip.proto = ipprotoIcmpv6
  · have tcp : flow.nwProto ≠ ipprotoTcp := by rw [proto, icmp]; decide
    have udp : flow.nwProto ≠ ipprotoUdp := by rw [proto, icmp]; decide
    have others : ¬ (ip.proto = ipprotoTcp ∨ ip.proto = ipprotoUdp) := by rw [icmp]; decide
    rw [if_neg others, if_pos icmp] at clean
    rw [if_neg fun is => tcp is.1, if_neg fun is => udp is.1, if_neg fun is => notIpv4 is.2.1,
      if_pos ⟨proto.trans icmp, isIpv6, has⟩]
    rw [icmp] at inside ⊢
    refine odpParseIcmpv6_of_find clean (fun other => noNd fun named => ?_) blank
      fun kind listed => inside kind (List.mem_cons_of_mem _ (List.mem_cons_of_mem _ listed))
    rw [named.2.2] at other
    cases other
  obtain ⟨noTarget, noSll, noTll⟩ := noNd fun named => icmp named.2.1
  rw [noTarget.trans blank.1.symm, noSll.trans blank.2.1.symm, noTll.trans blank.2.2.symm]
  by_cases tcp : ip.proto = ipprotoTcp
  · have found := inside .tcp (by decide)
    rw [ipv6TpToNlattrs, if_pos tcp, find_nla_cons, if_pos rfl] at found
    rw [if_pos ⟨proto.trans tcp, has⟩, ipv6TpToNlattrs, if_pos tcp]
    exact odpParsePorts_of_find found expected flow
  rw [if_neg fun is => tcp (proto.symm.trans is.1)]
  by_cases udp : ip.proto = ipprotoUdp
  · have found := inside .udp (by decide)
    rw [ipv6TpToNlattrs, if_neg tcp, if_pos udp, find_nla_cons, if_pos rfl] at found
    rw [if_pos ⟨proto.trans udp, has⟩, ipv6TpToNlattrs, if_neg tcp, if_pos udp]
    exact odpParsePorts_of_find found expected flow
  rw [if_neg (not_or.mpr ⟨tcp, udp⟩), if_neg icmp] at clean
  rw [if_neg fun is => udp (proto.symm.trans is.1), if_neg fun is => notIpv4 is.2.1,
    if_neg fun is => icmp (proto.symm.trans is.1), ipv6TpToNlattrs, if_neg tcp, if_neg udp,
    if_neg icmp]
  exact congrArg (·, expected)
    (flow_eq_of_tp ⟨clean.1.trans noTp.1.symm, clean.2.trans noTp.2.symm⟩).symm

theorem odpParseTransport_of_not (without : ¬ flow.HasTransport) :
    odpParseTransport attrs expected flow = (flow, expected) := by
  rw [odpParseTransport, if_neg fun is => without is.2, if_neg fun is => without is.2,
    if_neg fun is => without is.2.2, if_neg fun is => without is.2.2]

end Transport

structure Front (inner : List OvsKeyAttr) (front : List Nlattr) (expected : List (BitVec 16)) :
    Prop where
  apart : ∀ kind ∈ inner, kind.code ∉ front.map Nlattr.type
  same : ∀ type, type ∈ expected ↔ type ∈ front.map Nlattr.type

section Onward

variable {key : SwFlowKey} {inner : List OvsKeyAttr} {front : List Nlattr}
  {expected : List (BitVec 16)}

theorem Front.find_eq (ahead : Front inner front expected) {kind : OvsKeyAttr} (listed : kind ∈ inner)
    (rest : List Nlattr) : find (front ++ rest) kind.code = find rest kind.code :=
  find_append (ahead.apart kind listed)

theorem Front.perfect (ahead : Front inner front expected) {rest : List Nlattr}
    {types : List (BitVec 16)}
    (named : ∀ type, type ∈ types ↔ type ∈ rest.map Nlattr.type ∨ type ∈ expected) :
    checkExpectations (front ++ rest) false types = .perfect := by
  refine checkExpectations_perfect fun type => ?_
  rw [List.map_append, List.mem_append, named, ahead.same]
  exact or_comm

theorem parseL3Onward_of {attrs : List Nlattr} {flow network transport : Flow}
    {networkTypes types : List (BitVec 16)}
    (first : odpParseNetwork attrs expected flow = some (network, networkTypes))
    (second : odpParseTransport attrs networkTypes network = (transport, types))
    (perfect : checkExpectations attrs false types = .perfect) :
    parseL3Onward attrs false expected flow = (.perfect, transport) := by
  simp only [parseL3Onward, first, second, perfect]

theorem parseL3Onward_ipv4 (ahead : Front l3Types front expected) (clean : key.Clean)
    (isIpv4 : key.type = ethPIp) :
    parseL3Onward (front ++ l3ToNlattrs key) false expected key.linkFlow =
      (.perfect, key.flow) := by
  obtain ⟨tp, noSha, noTha, noIpv6⟩ := clean.ipv4 isIpv4
  obtain ⟨srcEq, dstEq, protoEq, tosEq, ttlEq, fragEq⟩ := ipv4Payload_reads key.ip key.ipv4
  have list : l3ToNlattrs key = OvsKeyAttr.ipv4.nla (ipv4Payload key.ip key.ipv4) ::
      if key.ip.frag ≠ ovsFragTypeLater then ipv4TpToNlattrs key.ip.proto key.ipv4 else [] :=
    if_pos isIpv4
  have dlType : key.linkFlow.dlType = ethPIp := by
    rw [SwFlowKey.linkFlow, isIpv4]
    rfl
  have found : find (front ++ l3ToNlattrs key) OvsKeyAttr.ipv4.code =
      some (ipv4Payload key.ip key.ipv4) := by
    rw [ahead.find_eq (by decide), list, find_nla_cons, if_pos rfl]
  have network : odpParseNetwork (front ++ l3ToNlattrs key) expected key.linkFlow =
      some ({ key.linkFlow with
          nwSrc := key.ipv4.src
          nwDst := key.ipv4.dst
          nwProto := key.ip.proto
          nwTos := key.ip.tos
          nwTtl := key.ip.ttl
          nwFrag := nwFragOf key.ip.frag }, OvsKeyAttr.ipv4.code :: expected) := by
    rw [odpParseNetwork, if_pos dlType, found]
    simp only [srcEq, dstEq, protoEq, tosEq, ttlEq, fragEq]
    rw [show odpToOvsFrag key.ip.frag key.linkFlow.nwFrag = some (nwFragOf key.ip.frag) from
      odpToOvsFrag_eq clean.frag]
    rfl
  have flow : { key.linkFlow with
      nwSrc := key.ipv4.src
      nwDst := key.ipv4.dst
      nwProto := key.ip.proto
      nwTos := key.ip.tos
      nwTtl := key.ip.ttl
      nwFrag := nwFragOf key.ip.frag
      tpSrc := key.ipv4.tpSrc
      tpDst := key.ipv4.tpDst } = key.flow := by
    have notIpv6 : key.type ≠ ethPIpv6 := by rw [isIpv4]; decide
    rw [SwFlowKey.flow, if_neg notIpv6, Flow.setIpv4, noSha, noTha]
    rfl
  by_cases later : key.ip.frag = ovsFragTypeLater
  · rw [CleanTp, if_pos later] at tp
    rw [if_neg (not_not_intro later)] at list
    rw [← flow, tp.1, tp.2]
    refine parseL3Onward_of network (odpParseTransport_of_not fun has => ?_)
      (ahead.perfect fun type => ?_)
    · exact absurd has.2 ((nwFragOf_later key.ip.frag).mpr later)
    · simp [list, OvsKeyAttr.nla]
  · have inside (kind : OvsKeyAttr) (listed : kind ∈ [OvsKeyAttr.tcp, .udp, .icmp]) :
        find (front ++ l3ToNlattrs key) kind.code =
          find (ipv4TpToNlattrs key.ip.proto key.ipv4) kind.code := by
      have inner : kind ∈ l3Types ∧ OvsKeyAttr.ipv4 ≠ kind := by
        revert kind
        decide
      rw [ahead.find_eq inner.1, list, if_pos later, find_nla_cons, if_neg inner.2]
    rw [← flow]
    refine parseL3Onward_of network
      (odpParseTransport_ipv4 dlType ⟨.inl dlType, ?_⟩ rfl later tp ⟨rfl, rfl⟩ inside)
      (ahead.perfect fun type => ?_)
    · exact not_not.mp fun bad => later ((nwFragOf_later key.ip.frag).mp bad)
    · rw [list, if_pos later]
      simp [OvsKeyAttr.nla, or_left_comm, or_assoc]

theorem parseL3Onward_ipv6 (ahead : Front l3Types front expected) (clean : key.Clean)
    (isIpv6 : key.type = ethPIpv6) :
    parseL3Onward (front ++ l3ToNlattrs key) false expected key.linkFlow =
      (.perfect, key.flow) := by
  obtain ⟨tp, noIpv4, noNd⟩ := clean.ipv6 isIpv6
  obtain ⟨srcEq, dstEq, labelEq, protoEq, tosEq, ttlEq, fragEq⟩ := ipv6Payload_reads key.ip key.ipv6
  have notIpv4 : key.type ≠ ethPIp := by rw [isIpv6]; decide
  have list : l3ToNlattrs key = OvsKeyAttr.ipv6.nla (ipv6Payload key.ip key.ipv6) ::
      if key.ip.frag ≠ ovsFragTypeLater then ipv6TpToNlattrs key.ip.proto key.ipv6 else [] :=
    (if_neg notIpv4).trans (if_pos isIpv6)
  have dlType : key.linkFlow.dlType = ethPIpv6 := by
    rw [SwFlowKey.linkFlow, isIpv6]
    rfl
  have found : find (front ++ l3ToNlattrs key) OvsKeyAttr.ipv6.code =
      some (ipv6Payload key.ip key.ipv6) := by
    rw [ahead.find_eq (by decide), list, find_nla_cons, if_pos rfl]
  have network : odpParseNetwork (front ++ l3ToNlattrs key) expected key.linkFlow =
      some ({ key.linkFlow with
          ipv6Src := key.ipv6.src
          ipv6Dst := key.ipv6.dst
          ipv6Label := key.ipv6.label
          nwProto := key.ip.proto
          nwTos := key.ip.tos
          nwTtl := key.ip.ttl
          nwFrag := nwFragOf key.ip.frag }, OvsKeyAttr.ipv6.code :: expected) := by
    rw [odpParseNetwork, if_neg (dlType.trans_ne (by decide)), if_pos dlType, found]
    simp only [srcEq, dstEq, labelEq, protoEq, tosEq, ttlEq, fragEq]
    rw [show odpToOvsFrag key.ip.frag key.linkFlow.nwFrag = some (nwFragOf key.ip.frag) from
      odpToOvsFrag_eq clean.frag]
    rfl
  have flow : { key.linkFlow with
      ipv6Src := key.ipv6.src
      ipv6Dst := key.ipv6.dst
      ipv6Label := key.ipv6.label
      nwProto := key.ip.proto
      nwTos := key.ip.tos
      nwTtl := key.ip.ttl
      nwFrag := nwFragOf key.ip.frag
      tpSrc := key.ipv6.tpSrc
      tpDst := key.ipv6.tpDst
      ndTarget := key.ipv6.ndTarget
      arpSha := key.ipv6.ndSll
      arpTha := key.ipv6.ndTll } = key.flow := by
    rw [SwFlowKey.flow, if_pos isIpv6, Flow.setIpv6]
  by_cases later : key.ip.frag = ovsFragTypeLater
  · obtain ⟨noTarget, noSll, noTll⟩ := noNd fun named => named.1 later
    rw [CleanTp, if_pos later] at tp
    rw [if_neg (not_not_intro later)] at list
    rw [← flow, tp.1, tp.2, noTarget, noSll, noTll]
    refine parseL3Onward_of network (odpParseTransport_of_not fun has => ?_)
      (ahead.perfect fun type => ?_)
    · exact absurd has.2 ((nwFragOf_later key.ip.frag).mpr later)
    · simp [list, OvsKeyAttr.nla]
  · have inside (kind : OvsKeyAttr) (listed : kind ∈ [OvsKeyAttr.tcp, .udp, .icmpv6, .nd]) :
        find (front ++ l3ToNlattrs key) kind.code =
          find (ipv6TpToNlattrs key.ip.proto key.ipv6) kind.code := by
      have inner : kind ∈ l3Types ∧ OvsKeyAttr.ipv6 ≠ kind := by
        revert kind
        decide
      rw [ahead.find_eq inner.1, list, if_pos later, find_nla_cons, if_neg inner.2]
    rw [← flow]
    refine parseL3Onward_of network
      (odpParseTransport_ipv6 dlType ⟨.inr dlType, ?_⟩ rfl later tp noNd ⟨rfl, rfl⟩
        ⟨rfl, rfl, rfl⟩ inside) (ahead.perfect fun type => ?_)
    · exact not_not.mp fun bad => later ((nwFragOf_later key.ip.frag).mp bad)
    · rw [list, if_pos later]
      simp [OvsKeyAttr.nla, or_left_comm, or_assoc]

theorem parseL3Onward_arp (ahead : Front l3Types front expected) (clean : key.Clean)
    (isArp : key.type = ethPArp) :
    parseL3Onward (front ++ l3ToNlattrs key) false expected key.linkFlow =
      (.perfect, key.flow) := by
  obtain ⟨onlyProto, noSrc, noDst, noIpv6⟩ := clean.arp isArp
  obtain ⟨srcEq, dstEq, opEq, shaEq, thaEq⟩ := arpPayload_reads key.ip key.ipv4
  have notIpv4 : key.type ≠ ethPIp := by rw [isArp]; decide
  have notIpv6 : key.type ≠ ethPIpv6 := by rw [isArp]; decide
  have list : l3ToNlattrs key = [OvsKeyAttr.arp.nla (arpPayload key.ip key.ipv4)] :=
    (if_neg notIpv4).trans ((if_neg notIpv6).trans (if_pos isArp))
  have dlType : key.linkFlow.dlType = ethPArp := by
    rw [SwFlowKey.linkFlow, isArp]
    rfl
  have found : find (front ++ l3ToNlattrs key) OvsKeyAttr.arp.code =
      some (arpPayload key.ip key.ipv4) := by
    rw [ahead.find_eq (by decide), list, find_nla_cons, if_pos rfl]
  have network : odpParseNetwork (front ++ l3ToNlattrs key) expected key.linkFlow =
      some ({ key.linkFlow with
          nwSrc := key.ipv4.src
          nwDst := key.ipv4.dst
          nwProto := key.ip.proto
          arpSha := key.ipv4.arpSha
          arpTha := key.ipv4.arpTha }, OvsKeyAttr.arp.code :: expected) := by
    rw [odpParseNetwork, if_neg (dlType.trans_ne (by decide)),
      if_neg (dlType.trans_ne (by decide)), if_pos dlType, found]
    simp only [srcEq, dstEq, opEq, shaEq, thaEq, setWidth_and_high, setWidth_byte, ne_eq,
      not_true_eq_false, if_false]
  have flow : { key.linkFlow with
      nwSrc := key.ipv4.src
      nwDst := key.ipv4.dst
      nwProto := key.ip.proto
      arpSha := key.ipv4.arpSha
      arpTha := key.ipv4.arpTha } = key.flow := by
    rw [SwFlowKey.flow, if_neg notIpv6, Flow.setIpv4, noSrc, noDst, onlyProto]
    rfl
  rw [← flow]
  refine parseL3Onward_of network (odpParseTransport_of_not fun has => ?_)
    (ahead.perfect fun type => ?_)
  · obtain isIp := has.1
    rw [show _ = ethPArp from dlType] at isIp
    exact absurd isIp (by decide)
  · simp [list, OvsKeyAttr.nla]

theorem parseL3Onward_other (ahead : Front l3Types front expected) (clean : key.Clean)
    (notIpv4 : key.type ≠ ethPIp) (notIpv6 : key.type ≠ ethPIpv6) (notArp : key.type ≠ ethPArp) :
    parseL3Onward (front ++ l3ToNlattrs key) false expected key.linkFlow =
      (.perfect, key.flow) := by
  obtain ⟨noIp, noIpv4, noIpv6⟩ := clean.other notIpv4 notIpv6 notArp
  have list : l3ToNlattrs key = [] :=
    (if_neg notIpv4).trans ((if_neg notIpv6).trans (if_neg notArp))
  have none : flowDlTypeNone ≠ ethPIp ∧ flowDlTypeNone ≠ ethPIpv6 ∧ flowDlTypeNone ≠ ethPArp := by
    decide
  have dlType : key.linkFlow.dlType ≠ ethPIp ∧ key.linkFlow.dlType ≠ ethPIpv6 ∧
      key.linkFlow.dlType ≠ ethPArp := by
    rw [SwFlowKey.linkFlow]
    by_cases llc : key.type = ethP8022
    · simpa only [llc, if_true] using none
    · simpa only [llc, if_false] using ⟨notIpv4, notIpv6, notArp⟩
  have network : odpParseNetwork (front ++ l3ToNlattrs key) expected key.linkFlow =
      some (key.linkFlow, expected) := by
    rw [odpParseNetwork, if_neg dlType.1, if_neg dlType.2.1, if_neg dlType.2.2]
  have flow : key.linkFlow = key.flow := by
    rw [SwFlowKey.flow, if_neg notIpv6, noIp, noIpv4]
    rfl
  rw [← flow]
  refine parseL3Onward_of network (odpParseTransport_of_not fun has => ?_)
    (ahead.perfect fun type => ?_)
  · exact has.1.elim dlType.1 dlType.2.1
  · simp [list]

theorem parseL3Onward_l3ToNlattrs (ahead : Front l3Types front expected) (clean : key.Clean) :
    parseL3Onward (front ++ l3ToNlattrs key) false expected key.linkFlow =
      (.perfect, key.flow) := by
  by_cases isIpv4 : key.type = ethPIp
  · exact parseL3Onward_ipv4 ahead clean isIpv4
  by_cases isIpv6 : key.type = ethPIpv6
  · exact parseL3Onward_ipv6 ahead clean isIpv6
  by_cases isArp : key.type = ethPArp
  · exact parseL3Onward_arp ahead clean isArp
  · exact parseL3Onward_other ahead clean isIpv4 isIpv6 isArp

theorem odpParseEthertype_of_typeOk (ahead : Front (.ethertype :: l3Types) front expected)
    (clean : key.Clean) (known : key.TypeOk) :
    ∃ types, odpParseEthertype (front ++ typeToNlattrs key) expected =
        some (key.linkFlow.dlType, types) ∧
      parseL3Onward (front ++ typeToNlattrs key) false types key.linkFlow =
        (.perfect, key.flow) := by
  have apart (kind : OvsKeyAttr) (listed : kind ∈ l3Types) : kind.code ∉ front.map Nlattr.type :=
    ahead.apart kind (List.mem_cons_of_mem _ listed)
  by_cases llc : key.type = ethP8022
  · have list : typeToNlattrs key = l3ToNlattrs key := by
      rw [typeToNlattrs, if_pos llc, l3ToNlattrs_of_llc llc]
    have absent : find (front ++ typeToNlattrs key) OvsKeyAttr.ethertype.code = none := by
      rw [ahead.find_eq (by decide), typeToNlattrs, if_pos llc, find_nil]
    have dlType : key.linkFlow.dlType = flowDlTypeNone := if_pos llc
    refine ⟨expected, ?_, ?_⟩
    · rw [odpParseEthertype, absent, dlType]
    · rw [list]
      exact parseL3Onward_l3ToNlattrs ⟨apart, ahead.same⟩ clean
  · have list : front ++ typeToNlattrs key =
        (front ++ [OvsKeyAttr.ethertype.nla (put16 key.type)]) ++ l3ToNlattrs key := by
      rw [typeToNlattrs, if_neg llc, List.append_assoc]
      rfl
    have found : find (front ++ typeToNlattrs key) OvsKeyAttr.ethertype.code =
        some (put16 key.type) := by
      rw [ahead.find_eq (by decide), typeToNlattrs, if_neg llc, find_nla_cons, if_pos rfl]
    have dlType : key.linkFlow.dlType = key.type := if_neg llc
    have long : ¬ key.type.toNat < 1536 := Nat.not_lt.mpr (known.resolve_left llc)
    refine ⟨OvsKeyAttr.ethertype.code :: expected, ?_, ?_⟩
    · rw [odpParseEthertype, found, dlType]
      simp only [be16_put16_end, long, if_false]
    · rw [list]
      refine parseL3Onward_l3ToNlattrs ⟨fun kind listed inFront => ?_, fun type => ?_⟩ clean
      · rw [List.map_append, List.mem_append] at inFront
        obtain early | last := inFront
        · exact apart kind listed early
        · obtain rfl : kind = .ethertype := by simpa [OvsKeyAttr.nla] using last
          exact absurd listed (by decide)
      · simp [ahead.same, OvsKeyAttr.nla, or_comm]

theorem odpParseEthertype_of_not_typeOk (ahead : Front (.ethertype :: l3Types) front expected)
    (bad : ¬ key.TypeOk) :
    odpParseEthertype (front ++ typeToNlattrs key) expected = none := by
  obtain ⟨llc, short⟩ := not_or.mp bad
  have found : find (front ++ typeToNlattrs key) OvsKeyAttr.ethertype.code =
      some (put16 key.type) := by
    rw [ahead.find_eq (by decide), typeToNlattrs, if_neg llc, find_nla_cons, if_pos rfl]
  rw [odpParseEthertype, found]
  simp only [be16_put16_end, Nat.not_le.mp short, if_true]

end Onward

theorem odpParseEncap_typeToNlattrs {key : SwFlowKey} (clean : key.Clean) (known : key.TypeOk) :
    odpParseEncap (putAttrs (typeToNlattrs key)) { key.linkFlow with dlType := 0 } =
      (.perfect, key.flow) := by
  have parsed := odpParseFlowNlattrs_putAttrs (sized_typeToNlattrs key)
    ((typesIn_typeToNlattrs key).nodup (by decide))
  have ahead : Front (.ethertype :: l3Types) [] [] := ⟨fun _ _ => List.not_mem_nil, fun _ => Iff.rfl⟩
  obtain ⟨types, read, onward⟩ := odpParseEthertype_of_typeOk ahead clean known
  rw [List.nil_append] at read onward
  rw [odpParseEncap, parsed]
  simp only [read]
  exact onward

theorem odpParseEncap_of_not_typeOk {key : SwFlowKey} (bad : ¬ key.TypeOk) (flow : Flow) :
    odpParseEncap (putAttrs (typeToNlattrs key)) flow = (.error, flow) := by
  have parsed := odpParseFlowNlattrs_putAttrs (sized_typeToNlattrs key)
    ((typesIn_typeToNlattrs key).nodup (by decide))
  have ahead : Front (.ethertype :: l3Types) [] [] := ⟨fun _ _ => List.not_mem_nil, fun _ => Iff.rfl⟩
  have refused := odpParseEthertype_of_not_typeOk ahead bad
  rw [List.nil_append] at refused
  simp only [odpParseEncap, parsed, refused]

def tagTypes : List OvsKeyAttr := [.ethertype, .vlan, .encap]

section Tag

variable {front : List Nlattr} {expected : List (BitVec 16)} {flow : Flow} {tci : BitVec 16}
  {encap : List Byte}

theorem parse8021qOnward_tagged (ahead : Front tagTypes front expected) :
    parse8021qOnward (front ++ taggedNlattrs tci encap) false
        (OvsKeyAttr.ethertype.code :: expected) flow =
      if tci = 0 then
        some (if encap ≠ [] then .tooMuch else .perfect, flow)
      else if tci &&& vlanCfi = 0 then some (.error, flow)
      else some (odpParseEncap encap { flow with vlanTci := tci, dlType := 0 }) := by
  have vlan : find (front ++ taggedNlattrs tci encap) OvsKeyAttr.vlan.code = some (put16 tci) := by
    rw [ahead.find_eq (by decide)]
    simp [taggedNlattrs, find_nla_cons]
  have nested : find (front ++ taggedNlattrs tci encap) OvsKeyAttr.encap.code = some encap := by
    rw [ahead.find_eq (by decide)]
    simp [taggedNlattrs, find_nla_cons]
  have perfect : checkExpectations (front ++ taggedNlattrs tci encap) false
      (OvsKeyAttr.vlan.code :: OvsKeyAttr.encap.code :: OvsKeyAttr.ethertype.code :: expected) =
        .perfect := by
    refine ahead.perfect fun type => ?_
    simp [taggedNlattrs, OvsKeyAttr.nla]
    tauto
  have worst (fitness : OdpKeyFitness) : OdpKeyFitness.perfect.max fitness = fitness := by
    cases fitness <;> rfl
  rw [parse8021qOnward, vlan]
  simp only [be16_put16_end, perfect, nested, Option.map_some, worst]
  by_cases empty : encap = []
  · simp only [empty, Option.any_some, ne_eq, not_true_eq_false, decide_false, Bool.false_eq_true,
      and_false, if_false]
  · simp only [empty, Option.any_some, ne_eq, not_false_eq_true, decide_true, and_self, if_true]

end Tag

section Metadata

variable {key : SwFlowKey} {rest : List Nlattr}

theorem find_metadata_priority (absent : find rest OvsKeyAttr.priority.code = none) :
    find (metadataToNlattrs key ++ rest) OvsKeyAttr.priority.code =
      if key.priority ≠ 0 then some (putLe32 key.priority) else none := by
  rw [metadataToNlattrs]
  split_ifs <;> simp [find_nla_cons, absent]

theorem find_metadata_tunId (absent : find rest OvsKeyAttr.tunId.code = none) :
    find (metadataToNlattrs key ++ rest) OvsKeyAttr.tunId.code =
      if key.tunId ≠ 0 then some (put64 key.tunId) else none := by
  rw [metadataToNlattrs]
  split_ifs <;> simp [find_nla_cons, absent]

theorem find_metadata_inPort (absent : find rest OvsKeyAttr.inPort.code = none) :
    find (metadataToNlattrs key ++ rest) OvsKeyAttr.inPort.code =
      if key.inPort ≠ 65535 then some (putLe32 (key.inPort.setWidth 32)) else none := by
  rw [metadataToNlattrs]
  split_ifs <;> simp [find_nla_cons, absent]

end Metadata

def frontNlattrs (key : SwFlowKey) : List Nlattr :=
  metadataToNlattrs key ++ [OvsKeyAttr.ethernet.nla (put48 key.ethSrc ++ put48 key.ethDst)]

theorem keyNlattrs_eq (key : SwFlowKey) : keyNlattrs key = frontNlattrs key ++ encapToNlattrs key := by
  rw [keyNlattrs, frontNlattrs, List.append_assoc]
  rfl

theorem typesIn_frontNlattrs (key : SwFlowKey) :
    TypesIn (frontNlattrs key) (metadataTypes ++ [.ethernet]) := by
  rw [TypesIn, frontNlattrs, List.map_append, List.map_append]
  exact (typesIn_metadata key).append (List.Sublist.refl _)

theorem mem_frontNlattrs_iff {key : SwFlowKey} {kind : OvsKeyAttr} (listed : kind ∈ metadataTypes) :
    kind.code ∈ (frontNlattrs key).map Nlattr.type ↔
      kind.code ∈ (keyNlattrs key).map Nlattr.type := by
  have outside : kind ∉ encapTypes := by
    revert kind
    decide
  rw [keyNlattrs_eq, List.map_append, List.mem_append]
  refine ⟨.inl, fun found => found.resolve_right fun late => ?_⟩
  obtain ⟨attr, attrListed, same⟩ := List.mem_map.mp late
  exact (typesIn_encapToNlattrs key).type_ne outside attr attrListed same

theorem front_frontNlattrs (key : SwFlowKey) :
    Front encapTypes (frontNlattrs key) (metadataExpected (keyNlattrs key)) := by
  refine ⟨fun kind listed inFront => ?_, fun type => ?_⟩
  · have outside : kind ∉ metadataTypes ++ [.ethernet] := by
      clear inFront
      revert kind
      decide
    obtain ⟨attr, attrListed, same⟩ := List.mem_map.mp inFront
    exact (typesIn_frontNlattrs key).type_ne outside attr attrListed same
  · rw [metadataExpected, List.mem_cons, List.mem_filter, find_isSome_iff]
    constructor
    · rintro (rfl | ⟨named, found⟩)
      · simp [frontNlattrs, OvsKeyAttr.nla]
      · obtain ⟨kind, listed, rfl⟩ := List.mem_map.mp named
        exact (mem_frontNlattrs_iff listed).mpr found
    · intro found
      obtain ⟨kind, listed, rfl⟩ := List.mem_map.mp ((typesIn_frontNlattrs key).subset found)
      rw [List.mem_append, List.mem_singleton] at listed
      obtain listed | rfl := listed
      · exact .inr ⟨List.mem_map_of_mem listed, (mem_frontNlattrs_iff listed).mp found⟩
      · exact .inl rfl

theorem odpParseMetadata_keyNlattrs {key : SwFlowKey} (port : (key.inPort.toNat : Int) < ofppMax) :
    odpParseMetadata (keyNlattrs key) = some { key.linkFlow with vlanTci := 0, dlType := 0 } := by
  have types : TypesIn (OvsKeyAttr.ethernet.nla (put48 key.ethSrc ++ put48 key.ethDst) ::
      encapToNlattrs key) (.ethernet :: encapTypes) :=
    (typesIn_encapToNlattrs key).cons_cons _
  have small : key.inPort.toNat < 0xff00 := by
    rw [ofppMax] at port
    omega
  have set : key.inPort ≠ 65535 := by
    rintro bad
    rw [bad] at small
    exact absurd small (by decide)
  have priority : find (keyNlattrs key) OvsKeyAttr.priority.code =
      if key.priority ≠ 0 then some (putLe32 key.priority) else none :=
    find_metadata_priority (types.find_eq_none (by decide))
  have tunId : find (keyNlattrs key) OvsKeyAttr.tunId.code =
      if key.tunId ≠ 0 then some (put64 key.tunId) else none :=
    find_metadata_tunId (types.find_eq_none (by decide))
  have inPort : find (keyNlattrs key) OvsKeyAttr.inPort.code =
      some (putLe32 (key.inPort.setWidth 32)) :=
    (find_metadata_inPort (types.find_eq_none (by decide))).trans (if_pos set)
  have eth : find (keyNlattrs key) OvsKeyAttr.ethernet.code =
      some (put48 key.ethSrc ++ put48 key.ethDst) := by
    have apart : OvsKeyAttr.ethernet.code ∉ (metadataToNlattrs key).map Nlattr.type := by
      intro inside
      obtain ⟨attr, listed, same⟩ := List.mem_map.mp inside
      exact (typesIn_metadata key).type_ne (by decide) attr listed same
    rw [keyNlattrs, find_append apart, find_nla_cons, if_pos rfl]
  have wide : (key.inPort.setWidth 32).toNat = key.inPort.toNat := by
    rw [BitVec.toNat_setWidth]
    omega
  have narrow : (key.inPort.setWidth 32).setWidth 16 = key.inPort := by
    apply BitVec.eq_of_toNat_eq
    rw [BitVec.toNat_setWidth, wide]
    omega
  have inRange : ¬ (65535 ≤ key.inPort.toNat ∨ ofppMax ≤ key.inPort.toNat) := by omega
  have readPriority : ((find (keyNlattrs key) OvsKeyAttr.priority.code).elim 0 fun p => le32 p 0) =
      key.priority := by
    rw [priority]
    split_ifs with zero
    · exact le32_putLe32 key.priority
    · exact (not_not.mp zero).symm
  have readTunId : ((find (keyNlattrs key) OvsKeyAttr.tunId.code).elim 0 fun p => be64 p 0) =
      key.tunId := by
    rw [tunId]
    split_ifs with zero
    · exact be64_put64 [] [] key.tunId
    · exact (not_not.mp zero).symm
  have readSrc : be48 (put48 key.ethSrc ++ put48 key.ethDst) 0 = key.ethSrc := by simp
  have readDst : be48 (put48 key.ethSrc ++ put48 key.ethDst) 6 = key.ethDst := by simp
  simp only [odpParseMetadata, inPort, Option.map_some, le32_putLe32, Option.any_some, wide,
    inRange, decide_false, Bool.false_eq_true, if_false, readPriority, readTunId, eth,
    Option.elim_some, narrow, readSrc, readDst]
  rfl

theorem Front.mono {inner fewer : List OvsKeyAttr} {front : List Nlattr}
    {expected : List (BitVec 16)} (ahead : Front inner front expected) (part : fewer ⊆ inner) :
    Front fewer front expected :=
  ⟨fun kind listed => ahead.apart kind (part listed), ahead.same⟩

theorem odpFlowKeyToFlow_tagged {key : SwFlowKey} (clean : key.Clean)
    (port : (key.inPort.toNat : Int) < ofppMax) (tagged : key.tci ≠ 0 ∨ key.type = ethP8021Q) :
    odpFlowKeyToFlow (ovsFlowToNlattrs key) =
      if key.tci = 0 then some (.perfect, key.flow)
      else some (odpParseEncap (putAttrs (typeToNlattrs key)) { key.linkFlow with dlType := 0 }) := by
  have parsed := odpParseFlowNlattrs_putAttrs (sized_keyNlattrs key) (nodup_keyNlattrs key)
  have ahead : Front tagTypes (frontNlattrs key) (metadataExpected (keyNlattrs key)) :=
    (front_frontNlattrs key).mono (by decide)
  have list : keyNlattrs key = frontNlattrs key ++
      taggedNlattrs key.tci (if key.tci = 0 then [] else putAttrs (typeToNlattrs key)) := by
    rw [keyNlattrs_eq, encapToNlattrs, if_pos tagged]
    rfl
  have type : odpParseEthertype (keyNlattrs key) (metadataExpected (keyNlattrs key)) =
      some (ethP8021Q, OvsKeyAttr.ethertype.code :: metadataExpected (keyNlattrs key)) := by
    have found : find (keyNlattrs key) OvsKeyAttr.ethertype.code = some (put16 ethP8021Q) := by
      rw [list, ahead.find_eq (by decide), taggedNlattrs, find_nla_cons, if_pos rfl]
    rw [odpParseEthertype, found]
    rfl
  have onward := @parse8021qOnward_tagged _ _ { key.linkFlow with vlanTci := 0, dlType := ethP8021Q }
    key.tci (if key.tci = 0 then [] else putAttrs (typeToNlattrs key)) ahead
  rw [← list] at onward
  rw [odpFlowKeyToFlow, ovsFlowToNlattrs, parsed]
  simp only [odpParseMetadata_keyNlattrs port, type, if_true]
  refine onward.trans ?_
  by_cases untagged : key.tci = 0
  · have short : key.type = ethP8021Q := tagged.resolve_left fun set => set untagged
    obtain ⟨noIp, noIpv4, noIpv6⟩ := clean.other (short.trans_ne (by decide))
      (short.trans_ne (by decide)) (short.trans_ne (by decide))
    simp only [untagged, if_true, ne_eq, not_true_eq_false, if_false, SwFlowKey.flow,
      SwFlowKey.linkFlow, short, noIp, noIpv4]
    rfl
  · have present : ¬ key.tci &&& vlanCfi = 0 := clean.tag.resolve_left untagged
    rw [if_neg untagged, if_neg present, if_neg untagged, if_neg untagged]
    rfl

theorem odpFlowKeyToFlow_untagged {key : SwFlowKey} (port : (key.inPort.toNat : Int) < ofppMax)
    (untagged : key.tci = 0) (other : key.type ≠ ethP8021Q) :
    odpFlowKeyToFlow (ovsFlowToNlattrs key) =
      match odpParseEthertype (frontNlattrs key ++ typeToNlattrs key)
        (metadataExpected (keyNlattrs key)) with
      | none => some (.error, { key.linkFlow with dlType := 0 })
      | some (dlType, expected) =>
        if dlType = ethP8021Q then
          parse8021qOnward (frontNlattrs key ++ typeToNlattrs key) false expected
            { key.linkFlow with dlType }
        else
          some (parseL3Onward (frontNlattrs key ++ typeToNlattrs key) false expected
            { key.linkFlow with dlType }) := by
  have parsed := odpParseFlowNlattrs_putAttrs (sized_keyNlattrs key) (nodup_keyNlattrs key)
  have list : keyNlattrs key = frontNlattrs key ++ typeToNlattrs key := by
    rw [keyNlattrs_eq, encapToNlattrs, if_neg (not_or.mpr ⟨not_not_intro untagged, other⟩)]
  have noTag (dlType : BitVec 16) :
      { key.linkFlow with vlanTci := 0, dlType } = { key.linkFlow with dlType } := by
    rw [SwFlowKey.linkFlow, untagged]
  rw [odpFlowKeyToFlow, ovsFlowToNlattrs, parsed]
  simp only [odpParseMetadata_keyNlattrs port, noTag]
  exact list ▸ rfl

theorem odpFlowKeyToFlow_of_typeOk {key : SwFlowKey} (clean : key.Clean)
    (port : (key.inPort.toNat : Int) < ofppMax) (known : key.TypeOk) :
    odpFlowKeyToFlow (ovsFlowToNlattrs key) = some (.perfect, key.flow) := by
  by_cases tagged : key.tci ≠ 0 ∨ key.type = ethP8021Q
  · rw [odpFlowKeyToFlow_tagged clean port tagged]
    split_ifs
    · rfl
    · rw [odpParseEncap_typeToNlattrs clean known]
  · obtain ⟨untagged, other⟩ := not_or.mp tagged
    obtain ⟨types, read, onward⟩ := odpParseEthertype_of_typeOk
      ((front_frontNlattrs key).mono (by decide)) clean known
    have dlType : key.linkFlow.dlType ≠ ethP8021Q := by
      have none : flowDlTypeNone ≠ ethP8021Q := by decide
      rw [SwFlowKey.linkFlow]
      split_ifs
      · exact none
      · exact other
    rw [odpFlowKeyToFlow_untagged port (not_not.mp untagged) other, read]
    simp only [dlType, if_false]
    exact congrArg some onward

theorem odpFlowKeyToFlow_of_not_typeOk {key : SwFlowKey} (clean : key.Clean)
    (port : (key.inPort.toNat : Int) < ofppMax) (bad : ¬ key.TypeOk) :
    ∃ flow, odpFlowKeyToFlow (ovsFlowToNlattrs key) = some (.error, flow) := by
  have other : key.type ≠ ethP8021Q := by
    rintro announced
    exact bad (.inr (by rw [announced]; decide))
  by_cases untagged : key.tci = 0
  · have refused := odpParseEthertype_of_not_typeOk ((front_frontNlattrs key).mono (by decide)) bad
    rw [odpFlowKeyToFlow_untagged port untagged other, refused]
    exact ⟨_, rfl⟩
  · rw [odpFlowKeyToFlow_tagged clean port (.inl untagged), if_neg untagged,
      odpParseEncap_of_not_typeOk bad]
    exact ⟨_, rfl⟩

end Packet
end LazyCtrl
