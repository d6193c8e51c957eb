import LazyCtrl.Packet.OvsNlattrs

/-!
# From a flow key to attributes and back

What `ovs_flow_from_nlattrs` makes of the attributes that `ovs_flow_to_nlattrs` writes: the key with
the members that its frame type does not use cleared, and a length that depends on the frame type,
the protocol and the ICMPv6 type only.
-/

namespace LazyCtrl
namespace Packet

open Bytes Netlink

theorem find_nla_cons (attr other : OvsKeyAttr) (payload : List Byte) (attrs : List Nlattr) :
    find (attr.nla payload :: attrs) other.code =
      if attr = other then some payload else find attrs other.code := by
  rw [find_cons]
  simp only [OvsKeyAttr.nla, OvsKeyAttr.code_inj]

theorem without_nla_cons (attr other : OvsKeyAttr) (payload : List Byte) (attrs : List Nlattr) :
    without (attr.nla payload :: attrs) other.code =
      if attr = other then without attrs other.code
      else attr.nla payload :: without attrs other.code := by
  rw [without_cons]
  simp only [OvsKeyAttr.nla, OvsKeyAttr.code_inj]

theorem require_nla_cons (attr : OvsKeyAttr) (payload : List Byte) (attrs : List Nlattr) :
    require (attr.nla payload :: attrs) attr = some (payload, without attrs attr.code) := by
  rw [require, find_nla_cons, without_nla_cons, if_pos rfl, if_pos rfl]
  rfl

def TypesIn (attrs : List Nlattr) (allowed : List OvsKeyAttr) : Prop :=
  (attrs.map Nlattr.type).Sublist (allowed.map OvsKeyAttr.code)

section TypesIn

variable {attrs : List Nlattr} {allowed : List OvsKeyAttr} {attr : OvsKeyAttr}

theorem TypesIn.type_ne (types : TypesIn attrs allowed) (foreign : attr ∉ allowed) :
    ∀ other ∈ attrs, other.type ≠ attr.code := by
  intro other listed same
  have named : attr.code ∈ allowed.map OvsKeyAttr.code :=
    types.subset (same ▸ List.mem_map_of_mem listed)
  obtain ⟨kind, kindListed, kindEq⟩ := List.mem_map.mp named
  exact foreign (OvsKeyAttr.code_inj.mp kindEq ▸ kindListed)

theorem TypesIn.find_eq_none (types : TypesIn attrs allowed) (foreign : attr ∉ allowed) :
    find attrs attr.code = none := by
  rw [find, Option.map_eq_none_iff, List.find?_eq_none]
  simpa using types.type_ne foreign

theorem TypesIn.without_eq (types : TypesIn attrs allowed) (foreign : attr ∉ allowed) :
    without attrs attr.code = attrs := by
  rw [without, List.filter_eq_self]
  simpa using types.type_ne foreign

theorem TypesIn.nodup (types : TypesIn attrs allowed)
    (distinct : (allowed.map OvsKeyAttr.code).Nodup) : (attrs.map Nlattr.type).Nodup :=
  distinct.sublist types

end TypesIn

def Sized (attr : Nlattr) : Prop :=
  attr.type.toNat ≤ 63 ∧ attr.len < 2 ^ 16 ∧
    (ovsKeyLens attr.type).all (fun size => attr.payload.length = size) = true

theorem sized_nla {attr : OvsKeyAttr} {payload : List Byte} (size : attr.size = some payload.length)
    : Sized (attr.nla payload) := by
  refine ⟨attr.code_le, ?_, ?_⟩
  · have short : payload.length ≤ 40 := by
      cases attr <;> simp only [OvsKeyAttr.size, Option.some.injEq, reduceCtorEq] at size <;> omega
    simp only [OvsKeyAttr.nla, Nlattr.len]
    omega
  · simp [OvsKeyAttr.nla, ovsKeyLens, OvsKeyAttr.ofCode_code, size]

theorem sized_encap {payload : List Byte} (short : payload.length < 65532) :
    Sized (OvsKeyAttr.encap.nla payload) := by
  refine ⟨OvsKeyAttr.encap.code_le, ?_, rfl⟩
  simp only [OvsKeyAttr.nla, Nlattr.len]
  omega

theorem flowNlattrsOk_of_sized {attrs : List Nlattr} {seen : List (BitVec 16)}
    (sized : ∀ attr ∈ attrs, Sized attr)
    (nodup : (attrs.map Nlattr.type).Nodup) (fresh : ∀ attr ∈ attrs, attr.type ∉ seen) :
    flowNlattrsOk seen attrs = true := by
  induction attrs generalizing seen with
  | nil => rfl
  | cons attr attrs ih =>
    rw [List.forall_mem_cons] at sized fresh
    rw [List.map_cons, List.nodup_cons] at nodup
    have rest : flowNlattrsOk (attr.type :: seen) attrs = true := by
      refine ih sized.2 nodup.2 fun other listed => ?_
      rw [List.mem_cons, not_or]
      refine ⟨fun same => nodup.1 ?_, fresh.2 other listed⟩
      rw [← same]
      exact List.mem_map_of_mem listed
    have new : seen.contains attr.type = false := by simpa using fresh.1
    simp only [flowNlattrsOk, sized.1.1, sized.1.2.2, new, rest, decide_true, Bool.and_self,
      Bool.not_false]

theorem parseFlowNlattrs_putAttrs {attrs : List Nlattr} (sized : ∀ attr ∈ attrs, Sized attr)
    (nodup : (attrs.map Nlattr.type).Nodup) : parseFlowNlattrs (putAttrs attrs) = some attrs := by
  have fits (attr : Nlattr) (listed : attr ∈ attrs) : attr.Fits :=
    ⟨(sized attr listed).2.1, lt_of_le_of_lt (sized attr listed).1 (by decide)⟩
  have accepted : flowNlattrsOk [] attrs = true :=
    flowNlattrsOk_of_sized sized nodup (fun _ _ => List.not_mem_nil)
  simp [parseFlowNlattrs, nlaForEach_putAttrs fits, accepted]

section Attributes

variable (key : SwFlowKey)

theorem sized_ipv4Tp (proto : Byte) (ipv4 : KeyIpv4) :
    ∀ attr ∈ ipv4TpToNlattrs proto ipv4, Sized attr := by
  have tcp := @sized_nla .tcp (portsPayload ipv4.tpSrc ipv4.tpDst) rfl
  have udp := @sized_nla .udp (portsPayload ipv4.tpSrc ipv4.tpDst) rfl
  have icmp := @sized_nla .icmp (icmpPayload ipv4.tpSrc ipv4.tpDst) rfl
  rw [ipv4TpToNlattrs]
  split_ifs <;> simp [*]

theorem sized_ipv6Tp (proto : Byte) (ipv6 : KeyIpv6) :
    ∀ attr ∈ ipv6TpToNlattrs proto ipv6, Sized attr := by
  have tcp := @sized_nla .tcp (portsPayload ipv6.tpSrc ipv6.tpDst) rfl
  have udp := @sized_nla .udp (portsPayload ipv6.tpSrc ipv6.tpDst) rfl
  have icmpv6 := @sized_nla .icmpv6 (icmpPayload ipv6.tpSrc ipv6.tpDst) rfl
  have nd := @sized_nla .nd (ndPayload ipv6) rfl
  rw [ipv6TpToNlattrs]
  split_ifs <;> simp [*]

theorem sized_l3ToNlattrs : ∀ attr ∈ l3ToNlattrs key, Sized attr := by
  have ipv4 := @sized_nla .ipv4 (ipv4Payload key.ip key.ipv4) rfl
  have ipv6 := @sized_nla .ipv6 (ipv6Payload key.ip key.ipv6) rfl
  have arp := @sized_nla .arp (arpPayload key.ip key.ipv4) rfl
  have ipv4Tp := sized_ipv4Tp key.ip.proto key.ipv4
  have ipv6Tp := sized_ipv6Tp key.ip.proto key.ipv6
  rw [l3ToNlattrs]
  split_ifs <;> simp_all

theorem sized_typeToNlattrs : ∀ attr ∈ typeToNlattrs key, Sized attr := by
  rw [typeToNlattrs]
  split_ifs
  · simp
  · rw [List.forall_mem_cons]
    exact ⟨@sized_nla .ethertype (put16 key.type) rfl, sized_l3ToNlattrs key⟩

theorem typesIn_ipv4Tp (proto : Byte) (ipv4 : KeyIpv4) :
    TypesIn (ipv4TpToNlattrs proto ipv4) [.tcp, .udp, .icmp] := by
  rw [TypesIn, ipv4TpToNlattrs]
  split_ifs <;> simp only [List.map_cons, List.map_nil, OvsKeyAttr.nla] <;> decide

theorem typesIn_ipv6Tp (proto : Byte) (ipv6 : KeyIpv6) :
    TypesIn (ipv6TpToNlattrs proto ipv6) [.tcp, .udp, .icmpv6, .nd] := by
  rw [TypesIn, ipv6TpToNlattrs]
  split_ifs <;> simp only [List.map_cons, List.map_nil, OvsKeyAttr.nla] <;> decide

def l3Types : List OvsKeyAttr := [.ipv4, .ipv6, .arp, .tcp, .udp, .icmp, .icmpv6, .nd]

theorem typesIn_l3ToNlattrs : TypesIn (l3ToNlattrs key) l3Types := by
  simp only [TypesIn, l3ToNlattrs, ipv4TpToNlattrs, ipv6TpToNlattrs]
  split_ifs <;> simp only [List.map_cons, List.map_nil, OvsKeyAttr.nla] <;> decide

theorem typesIn_typeToNlattrs : TypesIn (typeToNlattrs key) (.ethertype :: l3Types) := by
  rw [TypesIn, typeToNlattrs]
  split_ifs
  · exact List.nil_sublist _
  · exact (typesIn_l3ToNlattrs key).cons_cons _

end Attributes

def CleanTp (icmp : Byte) (ip : KeyIp) (src dst : BitVec 16) : Prop :=
  if ip.frag = ovsFragTypeLater then src = 0 ∧ dst = 0
  else if ip.proto = ipprotoTcp ∨ ip.proto = ipprotoUdp then True
  else if ip.proto = icmp then src.toNat < 256 ∧ dst.toNat < 256
  else src = 0 ∧ dst = 0

def NamesNeighbour (ip : KeyIp) (ipv6 : KeyIpv6) : Prop :=
  ip.frag ≠ ovsFragTypeLater ∧ ip.proto = ipprotoIcmpv6 ∧ isNeighbour (ipv6.tpSrc.setWidth 8)

structure SwFlowKey.Clean (key : SwFlowKey) : Prop where
  port : key.inPort.toNat < 65535
  tag : key.tci = 0 ∨ key.tci &&& vlanTagPresent ≠ 0
  frag : key.ip.frag.toNat ≤ 2
  ipv4 : key.type = ethPIp →
    CleanTp ipprotoIcmp key.ip key.ipv4.tpSrc key.ipv4.tpDst ∧ key.ipv4.arpSha = 0 ∧
      key.ipv4.arpTha = 0 ∧ key.ipv6 = {}
  ipv6 : key.type = ethPIpv6 →
    CleanTp ipprotoIcmpv6 key.ip key.ipv6.tpSrc key.ipv6.tpDst ∧ key.ipv4 = {} ∧
      (¬ NamesNeighbour key.ip key.ipv6 →
        key.ipv6.ndTarget = 0 ∧ key.ipv6.ndSll = 0 ∧ key.ipv6.ndTll = 0)
  arp : key.type = ethPArp →
    key.ip = { proto := key.ip.proto } ∧ key.ipv4.tpSrc = 0 ∧ key.ipv4.tpDst = 0 ∧ key.ipv6 = {}
  other : key.type ≠ ethPIp → key.type ≠ ethPIpv6 → key.type ≠ ethPArp →
    key.ip = {} ∧ key.ipv4 = {} ∧ key.ipv6 = {}

def KeyIp.tpLen (ip : KeyIp) (icmp : Byte) (none tp : KeyMember) : KeyMember :=
  if ip.frag ≠ ovsFragTypeLater ∧
      (ip.proto = ipprotoTcp ∨ ip.proto = ipprotoUdp ∨ ip.proto = icmp) then tp
  else none

def ipv6AttrLen (ip : KeyIp) (ipv6 : KeyIpv6) : KeyMember :=
  if ip.frag ≠ ovsFragTypeLater ∧ ip.proto = ipprotoIcmpv6 ∧
      isNeighbour (ipv6.tpSrc.setWidth 8) then .ipv6Nd
  else ip.tpLen ipprotoIcmpv6 .ipv6Label .ipv6Tp

def SwFlowKey.attrLen (key : SwFlowKey) : KeyMember :=
  if key.type = ethPIp then key.ip.tpLen ipprotoIcmp .ipv4Addr .ipv4Tp
  else if key.type = ethPIpv6 then ipv6AttrLen key.ip key.ipv6
  else if key.type = ethPArp then .ipv4Arp
  else .eth

def SwFlowKey.link (key : SwFlowKey) : SwFlowKey :=
  { key with type := 0, ip := {}, ipv4 := {}, ipv6 := {} }

theorem setWidth_setWidth_of_lt {x : BitVec 16} (small : x.toNat < 256) :
    (x.setWidth 8).setWidth 16 = x := by
  apply BitVec.eq_of_toNat_eq
  simp only [BitVec.toNat_setWidth]
  omega

theorem setWidth_byte (x : Byte) : (x.setWidth 16 : BitVec 16).setWidth 8 = x := by
  apply BitVec.eq_of_toNat_eq
  simp only [BitVec.toNat_setWidth]
  omega

theorem setWidth_and_high (x : Byte) : (x.setWidth 16 : BitVec 16) &&& 0xff00 = 0 := by
  apply BitVec.eq_of_getLsbD_eq
  intro i inside
  interval_cases i <;> simp

theorem ipv4FlowFromNlattrs_ipv4Tp {ip : KeyIp} {ipv4 : KeyIpv4}
    (notLater : ip.frag ≠ ovsFragTypeLater)
    (clean : CleanTp ipprotoIcmp ip ipv4.tpSrc ipv4.tpDst) :
    ipv4FlowFromNlattrs ip.proto { ipv4 with tpSrc := 0, tpDst := 0 }
        (ipv4TpToNlattrs ip.proto ipv4) =
      some (ipv4, ip.tpLen ipprotoIcmp .ipv4Addr .ipv4Tp, []) := by
  rw [CleanTp, if_neg notLater] at clean
  by_cases tcp : ip.proto = ipprotoTcp
  · rw [ipv4FlowFromNlattrs, ipv4TpToNlattrs, if_pos tcp, if_pos tcp, require_nla_cons,
      KeyIp.tpLen, if_pos ⟨notLater, .inl tcp⟩]
    simp [portsPayload]
  by_cases udp : ip.proto = ipprotoUdp
  · rw [ipv4FlowFromNlattrs, ipv4TpToNlattrs, if_neg tcp, if_neg tcp, if_pos udp, if_pos udp,
      require_nla_cons, KeyIp.tpLen, if_pos ⟨notLater, .inr (.inl udp)⟩]
    simp [portsPayload]
  rw [if_neg (not_or.mpr ⟨tcp, udp⟩)] at clean
  rw [ipv4FlowFromNlattrs, ipv4TpToNlattrs, if_neg tcp, if_neg tcp, if_neg udp, if_neg udp]
  by_cases icmp : ip.proto = ipprotoIcmp
  · rw [if_pos icmp] at clean
    rw [if_pos icmp, if_pos icmp, require_nla_cons, KeyIp.tpLen,
      if_pos ⟨notLater, .inr (.inr icmp)⟩]
    simp [icmpPayload, setWidth_setWidth_of_lt clean.1, setWidth_setWidth_of_lt clean.2]
  · rw [if_neg icmp] at clean
    rw [if_neg icmp, if_neg icmp, KeyIp.tpLen, if_neg (by simp [tcp, udp, icmp])]
    obtain ⟨src, dst, tpSrc, tpDst, arpSha, arpTha⟩ := ipv4
    obtain ⟨rfl, rfl⟩ := clean
    rfl

theorem ipv6FlowFromNlattrs_ipv6Tp {ip : KeyIp} {ipv6 : KeyIpv6}
    (notLater : ip.frag ≠ ovsFragTypeLater)
    (clean : CleanTp ipprotoIcmpv6 ip ipv6.tpSrc ipv6.tpDst)
    (noNd : ¬ NamesNeighbour ip ipv6 → ipv6.ndTarget = 0 ∧ ipv6.ndSll = 0 ∧ ipv6.ndTll = 0) :
    ipv6FlowFromNlattrs ip.proto
        { ipv6 with tpSrc := 0, tpDst := 0, ndTarget := 0, ndSll := 0, ndTll := 0 }
        (ipv6TpToNlattrs ip.proto ipv6) =
      some (ipv6, ipv6AttrLen ip ipv6, []) := by
  rw [CleanTp, if_neg notLater] at clean
  obtain ⟨src, dst, label, tpSrc, tpDst, ndTarget, ndSll, ndTll⟩ := ipv6
  by_cases icmp : ip.proto = ipprotoIcmpv6
  · have tcp : ip.proto ≠ ipprotoTcp := by rw [icmp]; decide
    have udp : ip.proto ≠ ipprotoUdp := by rw [icmp]; decide
    rw [if_neg (not_or.mpr ⟨tcp, udp⟩), if_pos icmp] at clean
    rw [ipv6FlowFromNlattrs, ipv6TpToNlattrs, if_neg tcp, if_neg tcp, if_neg udp, if_neg udp,
      if_pos icmp, if_pos icmp, require_nla_cons]
    by_cases neighbour : isNeighbour (tpSrc.setWidth 8) = true
    · have len : ipv6AttrLen ip ⟨src, dst, label, tpSrc, tpDst, ndTarget, ndSll, ndTll⟩ = .ipv6Nd :=
        if_pos ⟨notLater, icmp, neighbour⟩
      rw [len]
      simp [icmpPayload, neighbour, without_nla_cons, require_nla_cons, ndPayload,
        setWidth_setWidth_of_lt clean.1, setWidth_setWidth_of_lt clean.2]
    · obtain ⟨rfl, rfl, rfl⟩ := noNd fun named => neighbour named.2.2
      have len : ipv6AttrLen ip ⟨src, dst, label, tpSrc, tpDst, 0, 0, 0⟩ = .ipv6Tp :=
        (if_neg fun named => neighbour named.2.2).trans (if_pos ⟨notLater, .inr (.inr icmp)⟩)
      rw [len]
      simp [icmpPayload, neighbour, setWidth_setWidth_of_lt clean.1,
        setWidth_setWidth_of_lt clean.2]
  · obtain ⟨rfl, rfl, rfl⟩ := noNd fun named => icmp named.2.1
    rw [ipv6AttrLen, if_neg fun named => icmp named.2.1]
    by_cases tcp : ip.proto = ipprotoTcp
    · rw [ipv6FlowFromNlattrs, ipv6TpToNlattrs, if_pos tcp, if_pos tcp, require_nla_cons,
        KeyIp.tpLen, if_pos ⟨notLater, .inl tcp⟩]
      simp [portsPayload]
    by_cases udp : ip.proto = ipprotoUdp
    · rw [ipv6FlowFromNlattrs, ipv6TpToNlattrs, if_neg tcp, if_neg tcp, if_pos udp, if_pos udp,
        require_nla_cons, KeyIp.tpLen, if_pos ⟨notLater, .inr (.inl udp)⟩]
      simp [portsPayload]
    rw [if_neg (not_or.mpr ⟨tcp, udp⟩), if_neg icmp] at clean
    rw [ipv6FlowFromNlattrs, ipv6TpToNlattrs, if_neg tcp, if_neg tcp, if_neg udp, if_neg udp,
      if_neg icmp, if_neg icmp, KeyIp.tpLen, if_neg (by simp [tcp, udp, icmp])]
    obtain ⟨rfl, rfl⟩ := clean
    rfl

theorem ipv4Payload_reads (ip : KeyIp) (ipv4 : KeyIpv4) :
    be32 (ipv4Payload ip ipv4) 0 = ipv4.src ∧ be32 (ipv4Payload ip ipv4) 4 = ipv4.dst ∧
      u8 (ipv4Payload ip ipv4) 8 = ip.proto ∧ u8 (ipv4Payload ip ipv4) 9 = ip.tos ∧
      u8 (ipv4Payload ip ipv4) 10 = ip.ttl ∧ u8 (ipv4Payload ip ipv4) 11 = ip.frag := by
  simp [ipv4Payload]

theorem ipv6Payload_reads (ip : KeyIp) (ipv6 : KeyIpv6) :
    be128 (ipv6Payload ip ipv6) 0 = ipv6.src ∧ be128 (ipv6Payload ip ipv6) 16 = ipv6.dst ∧
      be32 (ipv6Payload ip ipv6) 32 = ipv6.label ∧
      u8 (ipv6Payload ip ipv6) 36 = ip.proto ∧ u8 (ipv6Payload ip ipv6) 37 = ip.tos ∧
      u8 (ipv6Payload ip ipv6) 38 = ip.ttl ∧ u8 (ipv6Payload ip ipv6) 39 = ip.frag := by
  simp [ipv6Payload]

theorem arpPayload_reads (ip : KeyIp) (ipv4 : KeyIpv4) :
    be32 (arpPayload ip ipv4) 0 = ipv4.src ∧ be32 (arpPayload ip ipv4) 4 = ipv4.dst ∧
      be16 (arpPayload ip ipv4) 8 = ip.proto.setWidth 16 ∧
      be48 (arpPayload ip ipv4) 10 = ipv4.arpSha ∧ be48 (arpPayload ip ipv4) 16 = ipv4.arpTha := by
  simp [arpPayload]

section FrameType

variable {base : SwFlowKey} {ip : KeyIp} {ipv4 : KeyIpv4} {ipv6 : KeyIpv6}

theorem ipv4FromNlattrs_nla (blank : base.ipv4 = {}) (known : ip.frag.toNat ≤ 2)
    (tp : CleanTp ipprotoIcmp ip ipv4.tpSrc ipv4.tpDst)
    (noArp : ipv4.arpSha = 0 ∧ ipv4.arpTha = 0) :
    ipv4FromNlattrs base
        (OvsKeyAttr.ipv4.nla (ipv4Payload ip ipv4) ::
          if ip.frag ≠ ovsFragTypeLater then ipv4TpToNlattrs ip.proto ipv4 else []) =
      some ({ base with ip, ipv4 }, ip.tpLen ipprotoIcmp .ipv4Addr .ipv4Tp, []) := by
  obtain ⟨srcEq, dstEq, protoEq, tosEq, ttlEq, fragEq⟩ := ipv4Payload_reads ip ipv4
  have inRange : ¬ ip.frag.toNat > ovsFragTypeLater.toNat := Nat.not_lt.mpr known
  rw [ipv4FromNlattrs, require_nla_cons, Option.bind_some]
  simp only [srcEq, dstEq, protoEq, tosEq, ttlEq, fragEq, blank, inRange, if_false]
  by_cases later : ip.frag = ovsFragTypeLater
  · rw [CleanTp, if_pos later] at tp
    rw [if_neg (not_not_intro later), if_neg (not_not_intro later), KeyIp.tpLen,
      if_neg fun has => has.1 later]
    obtain ⟨src, dst, tpSrc, tpDst, arpSha, arpTha⟩ := ipv4
    obtain ⟨⟨rfl, rfl⟩, rfl, rfl⟩ := And.intro tp noArp
    rfl
  · have back := ipv4FlowFromNlattrs_ipv4Tp later tp
    rw [noArp.1, noArp.2] at back
    rw [if_pos later, if_pos later, (typesIn_ipv4Tp _ _).without_eq (by decide), back]
    rfl

theorem ipv6FromNlattrs_nla (blank : base.ipv6 = {}) (known : ip.frag.toNat ≤ 2)
    (tp : CleanTp ipprotoIcmpv6 ip ipv6.tpSrc ipv6.tpDst)
    (noNd : ¬ NamesNeighbour ip ipv6 → ipv6.ndTarget = 0 ∧ ipv6.ndSll = 0 ∧ ipv6.ndTll = 0) :
    ipv6FromNlattrs base
        (OvsKeyAttr.ipv6.nla (ipv6Payload ip ipv6) ::
          if ip.frag ≠ ovsFragTypeLater then ipv6TpToNlattrs ip.proto ipv6 else []) =
      some ({ base with ip, ipv6 }, ipv6AttrLen ip ipv6, []) := by
  obtain ⟨srcEq, dstEq, labelEq, protoEq, tosEq, ttlEq, fragEq⟩ := ipv6Payload_reads ip ipv6
  have inRange : ¬ ip.frag.toNat > ovsFragTypeLater.toNat := Nat.not_lt.mpr known
  rw [ipv6FromNlattrs, require_nla_cons, Option.bind_some]
  simp only [srcEq, dstEq, labelEq, protoEq, tosEq, ttlEq, fragEq, blank, inRange, if_false]
  by_cases later : ip.frag = ovsFragTypeLater
  · rw [CleanTp, if_pos later] at tp
    have nd := noNd fun named => named.1 later
    have len : ipv6AttrLen ip ipv6 = .ipv6Label :=
      (if_neg fun named => named.1 later).trans (if_neg fun has => has.1 later)
    rw [if_neg (not_not_intro later), if_neg (not_not_intro later), len]
    obtain ⟨src, dst, label, tpSrc, tpDst, ndTarget, ndSll, ndTll⟩ := ipv6
    obtain ⟨⟨rfl, rfl⟩, rfl, rfl, rfl⟩ := And.intro tp nd
    rfl
  · rw [if_pos later, if_pos later, (typesIn_ipv6Tp _ _).without_eq (by decide),
      ipv6FlowFromNlattrs_ipv6Tp later tp noNd]
    rfl

theorem arpFromNlattrs_nla (blank : base.ip = {} ∧ base.ipv4 = {})
    (onlyProto : ip = { proto := ip.proto }) (noTp : ipv4.tpSrc = 0 ∧ ipv4.tpDst = 0) :
    arpFromNlattrs base [OvsKeyAttr.arp.nla (arpPayload ip ipv4)] =
      some ({ base with ip, ipv4 }, .ipv4Arp, []) := by
  obtain ⟨srcEq, dstEq, opEq, shaEq, thaEq⟩ := arpPayload_reads ip ipv4
  rw [arpFromNlattrs, require_nla_cons, Option.bind_some]
  simp only [srcEq, dstEq, opEq, shaEq, thaEq, setWidth_and_high, setWidth_byte, blank.1, blank.2, ne_eq,
    not_true_eq_false, if_false, without_nil]
  rw [onlyProto]
  obtain ⟨src, dst, tpSrc, tpDst, arpSha, arpTha⟩ := ipv4
  obtain ⟨rfl, rfl⟩ := noTp
  rfl

end FrameType

def SwFlowKey.TypeOk (key : SwFlowKey) : Prop := key.type = ethP8022 ∨ 1536 ≤ key.type.toNat

instance (key : SwFlowKey) : Decidable key.TypeOk :=
  inferInstanceAs (Decidable (_ ∨ _))

theorem l3FromNlattrs_l3ToNlattrs {key : SwFlowKey} (clean : key.Clean) :
    l3FromNlattrs { key.link with type := key.type } (l3ToNlattrs key) =
      some (key, key.attrLen, []) := by
  obtain ⟨tunId, priority, inPort, ethSrc, ethDst, tci, type, ip, ipv4, ipv6⟩ := key
  have known : ip.frag.toNat ≤ 2 := clean.frag
  rw [l3FromNlattrs, l3ToNlattrs, SwFlowKey.attrLen]
  by_cases isIpv4 : type = ethPIp
  · obtain ⟨tp, noSha, noTha, rfl⟩ := clean.ipv4 isIpv4
    rw [if_pos isIpv4, if_pos isIpv4, if_pos isIpv4]
    exact ipv4FromNlattrs_nla rfl known tp ⟨noSha, noTha⟩
  rw [if_neg isIpv4, if_neg isIpv4, if_neg isIpv4]
  by_cases isIpv6 : type = ethPIpv6
  · obtain ⟨tp, rfl, noNd⟩ := clean.ipv6 isIpv6
    rw [if_pos isIpv6, if_pos isIpv6, if_pos isIpv6]
    exact ipv6FromNlattrs_nla rfl known tp noNd
  rw [if_neg isIpv6, if_neg isIpv6, if_neg isIpv6]
  by_cases isArp : type = ethPArp
  · obtain ⟨onlyProto, noSrc, noDst, rfl⟩ := clean.arp isArp
    rw [if_pos isArp, if_pos isArp, if_pos isArp]
    exact arpFromNlattrs_nla ⟨rfl, rfl⟩ onlyProto ⟨noSrc, noDst⟩
  · obtain ⟨rfl, rfl, rfl⟩ := clean.other isIpv4 isIpv6 isArp
    rw [if_neg isArp, if_neg isArp, if_neg isArp]
    rfl

theorem ethertypeFromNlattrs_typeToNlattrs (key : SwFlowKey) :
    ethertypeFromNlattrs (typeToNlattrs key) =
      if key.TypeOk then some (key.type, if key.type = ethP8022 then [] else l3ToNlattrs key)
      else none := by
  rw [ethertypeFromNlattrs, typeToNlattrs]
  by_cases llc : key.type = ethP8022
  · rw [if_pos llc, if_pos llc, if_pos (.inl llc), find_nil, llc]
  have read : be16 (put16 key.type) 0 = key.type := be16_put16_end key.type
  have kept : without (l3ToNlattrs key) OvsKeyAttr.ethertype.code = l3ToNlattrs key :=
    (typesIn_l3ToNlattrs key).without_eq (by decide)
  rw [if_neg llc, if_neg llc, find_nla_cons, if_pos rfl]
  simp only [read, without_nla_cons, if_true, kept]
  by_cases long : key.type.toNat < 1536
  · have bad : ¬ key.TypeOk := not_or.mpr ⟨llc, Nat.not_le.mpr long⟩
    rw [if_pos long, if_neg bad]
  · rw [if_neg long, if_pos (.inr (Nat.not_lt.mp long))]

theorem l3ToNlattrs_of_llc {key : SwFlowKey} (llc : key.type = ethP8022) : l3ToNlattrs key = [] := by
  simp only [l3ToNlattrs, llc]
  rfl

theorem typeFromNlattrs_typeToNlattrs {key : SwFlowKey} (clean : key.Clean) :
    typeFromNlattrs key.link (typeToNlattrs key) =
      if key.TypeOk then some (key, key.attrLen) else none := by
  rw [typeFromNlattrs, ethertypeFromNlattrs_typeToNlattrs]
  by_cases known : key.TypeOk
  · have inner : (if key.type = ethP8022 then [] else l3ToNlattrs key) = l3ToNlattrs key :=
      ite_eq_right_iff.mpr fun llc => (l3ToNlattrs_of_llc llc).symm
    rw [if_pos known, if_pos known, inner]
    simp [l3FromNlattrs_l3ToNlattrs clean]
  · rw [if_neg known, if_neg known]
    rfl

def encapTypes : List OvsKeyAttr := .ethertype :: .vlan :: .encap :: l3Types

theorem typesIn_encapToNlattrs (key : SwFlowKey) : TypesIn (encapToNlattrs key) encapTypes := by
  rw [encapToNlattrs]
  by_cases tagged : key.tci ≠ 0 ∨ key.type = ethP8021Q
  · rw [if_pos tagged]
    simp only [TypesIn, List.map_cons, List.map_nil, OvsKeyAttr.nla]
    decide
  · rw [if_neg tagged]
    refine (typesIn_typeToNlattrs key).trans ?_
    decide

theorem length_putAttrs_typeToNlattrs (key : SwFlowKey) :
    (putAttrs (typeToNlattrs key)).length < 65532 := by
  simp only [typeToNlattrs, l3ToNlattrs, ipv4TpToNlattrs, ipv6TpToNlattrs, putAttrs]
  split_ifs <;>
    simp [OvsKeyAttr.nla, Nlattr.length_put, Nlattr.len, align, portsPayload, icmpPayload,
      ipv4Payload, ipv6Payload, arpPayload, ndPayload]

theorem sized_encapToNlattrs (key : SwFlowKey) : ∀ attr ∈ encapToNlattrs key, Sized attr := by
  have ethertype := @sized_nla .ethertype (put16 ethP8021Q) rfl
  have vlan := @sized_nla .vlan (put16 key.tci) rfl
  have encap : Sized (OvsKeyAttr.encap.nla
      (if key.tci = 0 then [] else putAttrs (typeToNlattrs key))) := by
    split_ifs
    · exact sized_encap (by decide)
    · exact sized_encap (length_putAttrs_typeToNlattrs key)
  by_cases tagged : key.tci ≠ 0 ∨ key.type = ethP8021Q
  · rw [encapToNlattrs, if_pos tagged]
    simpa only [List.forall_mem_cons] using ⟨ethertype, vlan, encap, List.forall_mem_nil _⟩
  · rw [encapToNlattrs, if_neg tagged]
    exact sized_typeToNlattrs key

theorem parseFlowNlattrs_typeToNlattrs (key : SwFlowKey) :
    parseFlowNlattrs (putAttrs (typeToNlattrs key)) = some (typeToNlattrs key) :=
  parseFlowNlattrs_putAttrs (sized_typeToNlattrs key)
    ((typesIn_typeToNlattrs key).nodup (by decide))

def taggedNlattrs (tci : BitVec 16) (encap : List Byte) : List Nlattr :=
  [OvsKeyAttr.ethertype.nla (put16 ethP8021Q), OvsKeyAttr.vlan.nla (put16 tci),
    OvsKeyAttr.encap.nla encap]

theorem encapFromNlattrs_tagged (base : SwFlowKey) (tci : BitVec 16) (encap : List Byte) :
    encapFromNlattrs base (taggedNlattrs tci encap) =
      if tci &&& vlanTagPresent ≠ 0 then
        (parseFlowNlattrs encap).bind (typeFromNlattrs { base with tci })
      else if tci = 0 then
        if encap ≠ [] then none else some ({ base with type := ethP8021Q }, .eth)
      else none := by
  have types : hasTypes (taggedNlattrs tci encap)
      [OvsKeyAttr.vlan.code, OvsKeyAttr.ethertype.code, OvsKeyAttr.encap.code] = true := by
    rfl
  have type : find (taggedNlattrs tci encap) OvsKeyAttr.ethertype.code = some (put16 ethP8021Q) := by
    rw [taggedNlattrs, find_nla_cons, if_pos rfl]
  have vlan : find (taggedNlattrs tci encap) OvsKeyAttr.vlan.code = some (put16 tci) := by
    simp [taggedNlattrs, find_nla_cons]
  have nested : find (taggedNlattrs tci encap) OvsKeyAttr.encap.code = some encap := by
    simp [taggedNlattrs, find_nla_cons]
  rw [encapFromNlattrs, type]
  simp only [be16_put16_end, types, not_true_eq_false, if_true, if_false, nested, vlan,
    Option.bind_eq_bind, Option.bind_some]

theorem encapFromNlattrs_untagged {base key : SwFlowKey} (other : key.type ≠ ethP8021Q) :
    encapFromNlattrs base (typeToNlattrs key) = typeFromNlattrs base (typeToNlattrs key) := by
  have first : find (typeToNlattrs key) OvsKeyAttr.ethertype.code =
      if key.type = ethP8022 then none else some (put16 key.type) := by
    rw [typeToNlattrs]
    split_ifs
    · rfl
    · rw [find_nla_cons, if_pos rfl]
  rw [encapFromNlattrs, first]
  by_cases llc : key.type = ethP8022
  · rw [if_pos llc]
  · rw [if_neg llc]
    simp only [be16_put16_end, other, if_false]

theorem encapFromNlattrs_encapToNlattrs {key : SwFlowKey} (clean : key.Clean) :
    encapFromNlattrs { key.link with tci := 0 } (encapToNlattrs key) =
      if key.TypeOk then some (key, key.attrLen) else none := by
  have back := typeFromNlattrs_typeToNlattrs clean
  by_cases untagged : key.tci = 0
  · obtain ⟨tunId, priority, inPort, ethSrc, ethDst, tci, type, ip, ipv4, ipv6⟩ := key
    obtain rfl : tci = 0 := untagged
    by_cases short : type = ethP8021Q
    · obtain rfl : type = ethP8021Q := short
      obtain ⟨rfl, rfl, rfl⟩ := clean.other (show ethP8021Q ≠ ethPIp by decide)
        (show ethP8021Q ≠ ethPIpv6 by decide) (show ethP8021Q ≠ ethPArp by decide)
      exact encapFromNlattrs_tagged _ 0 []
    · rw [encapToNlattrs, if_neg (not_or.mpr ⟨not_not_intro rfl, short⟩),
        encapFromNlattrs_untagged short]
      exact back
  · have present := clean.tag.resolve_left untagged
    have tagged := encapFromNlattrs_tagged { key.link with tci := 0 } key.tci
      (putAttrs (typeToNlattrs key))
    rw [if_pos present, parseFlowNlattrs_typeToNlattrs, Option.bind_some] at tagged
    rw [encapToNlattrs, if_pos (.inl untagged), if_neg untagged]
    exact tagged.trans back

theorem metadataFromNlattrs_append {key : SwFlowKey} {rest : List Nlattr}
    {allowed : List OvsKeyAttr} (types : TypesIn rest allowed)
    (foreign : .priority ∉ allowed ∧ .inPort ∉ allowed ∧ .tunId ∉ allowed)
    (port : key.inPort.toNat < 65535) :
    metadataFromNlattrs (metadataToNlattrs key ++ rest) =
      some ({ priority := key.priority, inPort := key.inPort, tunId := key.tunId }, rest) := by
  have noPriority := types.find_eq_none foreign.1
  have noInPort := types.find_eq_none foreign.2.1
  have noTunId := types.find_eq_none foreign.2.2
  have keepPriority := types.without_eq foreign.1
  have keepInPort := types.without_eq foreign.2.1
  have keepTunId := types.without_eq foreign.2.2
  have set : key.inPort ≠ 65535 := by
    rintro bad
    rw [bad] at port
    exact absurd port (by decide)
  have small : ¬ (key.inPort.setWidth 32).toNat ≥ 65535 := by
    simp only [BitVec.toNat_setWidth]
    omega
  have narrow : (key.inPort.setWidth 32).setWidth 16 = key.inPort := by
    apply BitVec.eq_of_toNat_eq
    simp only [BitVec.toNat_setWidth]
    omega
  have read64 : be64 (put64 key.tunId) 0 = key.tunId := be64_put64 [] [] key.tunId
  rw [metadataToNlattrs, if_pos set]
  by_cases priority : key.priority = 0 <;> by_cases tunId : key.tunId = 0 <;>
    simp only [metadataFromNlattrs, priority, tunId, ne_eq, not_true_eq_false, not_false_eq_true,
      if_true, if_false, List.nil_append, List.cons_append, find_nla_cons, without_nla_cons,
      reduceCtorEq, noPriority, noTunId, keepPriority, keepInPort, keepTunId, Option.elim,
      Option.isSome_some, le32_putLe32, read64, small, narrow, true_and]

def metadataTypes : List OvsKeyAttr := [.priority, .tunId, .inPort]

theorem typesIn_metadata (key : SwFlowKey) : TypesIn (metadataToNlattrs key) metadataTypes := by
  rw [TypesIn, metadataToNlattrs]
  split_ifs <;>
    simp only [List.nil_append, List.cons_append, List.map_cons, List.map_nil, OvsKeyAttr.nla] <;>
    decide

theorem sized_metadata (key : SwFlowKey) : ∀ attr ∈ metadataToNlattrs key, Sized attr := by
  have priority := @sized_nla .priority (putLe32 key.priority) rfl
  have tunId := @sized_nla .tunId (put64 key.tunId) rfl
  have inPort := @sized_nla .inPort (putLe32 (key.inPort.setWidth 32)) rfl
  rw [metadataToNlattrs]
  split_ifs <;> simp [*]

theorem sized_keyNlattrs (key : SwFlowKey) : ∀ attr ∈ keyNlattrs key, Sized attr := by
  intro attr listed
  rw [keyNlattrs, List.mem_append, List.mem_cons] at listed
  obtain listed | rfl | listed := listed
  · exact sized_metadata key attr listed
  · exact @sized_nla .ethernet (put48 key.ethSrc ++ put48 key.ethDst) rfl
  · exact sized_encapToNlattrs key attr listed

theorem nodup_keyNlattrs (key : SwFlowKey) : ((keyNlattrs key).map Nlattr.type).Nodup := by
  have types : TypesIn (keyNlattrs key) (metadataTypes ++ .ethernet :: encapTypes) := by
    rw [TypesIn, keyNlattrs, List.map_append, List.map_append, List.map_cons, List.map_cons]
    exact (typesIn_metadata key).append ((typesIn_encapToNlattrs key).cons_cons _)
  exact types.nodup (by decide)

theorem parseFlowNlattrs_keyNlattrs (key : SwFlowKey) :
    parseFlowNlattrs (ovsFlowToNlattrs key) = some (keyNlattrs key) :=
  parseFlowNlattrs_putAttrs (sized_keyNlattrs key) (nodup_keyNlattrs key)

theorem ovsFlowFromNlattrs_ovsFlowToNlattrs {key : SwFlowKey} (clean : key.Clean) :
    ovsFlowFromNlattrs (ovsFlowToNlattrs key) =
      if key.TypeOk then some (key, key.attrLen) else none := by
  have types : TypesIn (OvsKeyAttr.ethernet.nla (put48 key.ethSrc ++ put48 key.ethDst) ::
      encapToNlattrs key) (.ethernet :: encapTypes) :=
    (typesIn_encapToNlattrs key).cons_cons _
  have metadata := metadataFromNlattrs_append types (by decide) clean.port
  have kept : without (encapToNlattrs key) OvsKeyAttr.ethernet.code = encapToNlattrs key :=
    (typesIn_encapToNlattrs key).without_eq (by decide)
  have src : be48 (put48 key.ethSrc ++ put48 key.ethDst) 0 = key.ethSrc := by simp
  have dst : be48 (put48 key.ethSrc ++ put48 key.ethDst) 6 = key.ethDst := by simp
  rw [ovsFlowFromNlattrs, parseFlowNlattrs_keyNlattrs, keyNlattrs]
  simp only [Option.bind_eq_bind, Option.bind_some, metadata, require_nla_cons, kept, src, dst]
  exact encapFromNlattrs_encapToNlattrs clean

end Packet
end LazyCtrl
