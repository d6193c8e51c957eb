import LazyCtrl.Packet.KeyFlow

/-!
# One flow in the datapath and in the switch daemon

The daemon sees a packet of the datapath twice: as the attributes of the key that the datapath has
extracted, and as bytes from which it extracts a flow itself.  Both ways end in the same flow unless
the frame has a SNAP header: only the daemon reads its control field, and only the datapath takes
its frame type 4 for a frame without a type.
-/

namespace LazyCtrl
namespace Packet

open Bytes Netlink

variable (frame : List Byte)

theorem pullIp_eq_checkIphdr (nh : Nat) : pullIp frame nh = checkIphdr frame nh := by
  rw [pullIp, checkIphdr]
  by_cases long : 20 ≤ frame.length - nh
  · have notShort : ¬ frame.length < nh + 20 := by omega
    have same : (20 ≤ (u8 frame nh &&& 0xf).toNat * 4 ∧
        (u8 frame nh &&& 0xf).toNat * 4 ≤ frame.length - nh) ↔
        ¬ ((u8 frame nh &&& 0xf).toNat * 4 < 20 ∨
          frame.length < nh + (u8 frame nh &&& 0xf).toNat * 4) := by omega
    simp only [long, notShort, if_true, if_false, same, ite_not]
  · have short : frame.length < nh + 20 := by omega
    simp only [long, short, if_true, if_false]

theorem tryPull_eq (ofs : Nat) {size : Nat} (positive : 0 < size) :
    tryPull frame ofs size = if ofs + size ≤ frame.length then some (ofs + size) else none := by
  rw [tryPull]
  by_cases long : ofs + size ≤ frame.length
  · rw [if_pos long, if_pos (by omega)]
  · rw [if_neg long, if_neg (by omega)]

theorem tcpOffset_eq (th : Nat) :
    (be16 frame (th + 12) >>> 12).toNat = (u8 frame (th + 12) >>> 4).toNat := by
  have low := (u8 frame (th + 12 + 1)).isLt
  rw [be16, BitVec.toNat_ushiftRight, BitVec.toNat_ushiftRight, BitVec.toNat_append,
    ← Nat.shiftLeft_add_eq_or_of_lt low, Nat.shiftLeft_eq, Nat.shiftRight_eq_div_pow,
    Nat.shiftRight_eq_div_pow]
  omega

theorem isSome_pullTcp (th : Nat) : (pullTcp frame th).isSome = tcphdrOk frame th := by
  rw [pullTcp, tcphdrOk]
  simp only [tcpOffset_eq]
  generalize (u8 frame (th + 12) >>> 4).toNat * 4 = tcpLen
  by_cases long : th + 20 ≤ frame.length
  · have enough : 20 ≤ frame.length - th := by omega
    have same : (20 ≤ tcpLen ∧ tcpLen ≤ frame.length - th) ↔
        ¬ (tcpLen < 20 ∨ frame.length < th + tcpLen) := by omega
    simp only [long, enough, if_true, same, true_and]
    split_ifs <;> simp [*]
  · have short : ¬ 20 ≤ frame.length - th := by omega
    simp [long, short]

theorem parsePorts_flow (th : Nat) (parsed : Parsed) (pulled : Option Nat) :
    (parsePorts frame th parsed pulled).flow =
      if pulled.isSome then
        { parsed.flow with tpSrc := be16 frame th, tpDst := be16 frame (th + 2) }
      else parsed.flow := by
  cases pulled <;> rfl

theorem parseTcp_flow (th : Nat) (parsed : Parsed) :
    (parseTcp frame th parsed).flow =
      if tcphdrOk frame th then
        { parsed.flow with tpSrc := be16 frame th, tpDst := be16 frame (th + 2) }
      else parsed.flow := by
  rw [parseTcp, parsePorts_flow, isSome_pullTcp]

theorem isSome_tryPull_eight (th : Nat) : (tryPull frame th 8).isSome = udphdrOk frame th := by
  rw [tryPull_eq frame th (by decide), udphdrOk]
  split_ifs <;> simp [*]

theorem parseUdp_flow (th : Nat) (parsed : Parsed) :
    (parseUdp frame th parsed).flow =
      if udphdrOk frame th then
        { parsed.flow with tpSrc := be16 frame th, tpDst := be16 frame (th + 2) }
      else parsed.flow := by
  rw [parseUdp, parsePorts_flow, isSome_tryPull_eight]

theorem parseIcmp_flow (th : Nat) (parsed : Parsed) :
    (parseIcmp frame th parsed).flow =
      if icmphdrOk frame th then
        { parsed.flow with
          tpSrc := (u8 frame th).setWidth 16
          tpDst := (u8 frame (th + 1)).setWidth 16 }
      else parsed.flow := by
  have same : (tryPull frame th 8).isSome = icmphdrOk frame th := isSome_tryPull_eight frame th
  rw [parseIcmp, ← same]
  cases tryPull frame th 8 <;> rfl

theorem ovsNdOptions_eq (opt : Nat) (turns icmpLen offset : Nat) (sll tll : BitVec 48)
    (left : icmpLen = frame.length - (opt + offset)) :
    ovsNdOptions frame opt turns icmpLen offset sll tll =
      (ndOptions frame turns (opt + offset) sll tll).map Prod.snd := by
  induction turns generalizing icmpLen offset sll tll with
  | zero => rfl
  | succ turns ih =>
    subst left
    rw [ovsNdOptions, ndOptions]
    generalize (u8 frame (opt + offset + 1)).toNat * 8 = optLen
    have next (sll tll : BitVec 48) :
        ovsNdOptions frame opt turns (frame.length - (opt + offset) - optLen) (offset + optLen)
            sll tll =
          (ndOptions frame turns (opt + offset + optLen) sll tll).map Prod.snd := by
      rw [Nat.add_assoc opt offset optLen]
      exact ih _ _ _ _ (by omega)
    simp only [next, ne_eq, ite_not]
    split_ifs <;> rfl

theorem ovsNd_eq (th : Nat) :
    ovsNd frame th =
      if th + 24 ≤ frame.length then
        match ndOptions frame frame.length (th + 24) 0 0 with
        | some (_, sha, tha) => (be128 frame (th + 8), sha, tha)
        | none => (0, 0, 0)
      else (0, 0, 0) := by
  have loop := ovsNdOptions_eq frame (th + 24) frame.length (frame.length - th - 24) 0 0 0 (by omega)
  rw [ovsNd, loop]
  by_cases long : th + 24 ≤ frame.length
  · rw [if_pos long, if_neg (by omega)]
    cases ndOptions frame frame.length (th + 24 + 0) 0 0 <;> rfl
  · rw [if_neg long, if_pos (by omega)]

section Icmpv6

variable {flow : Flow} {ip : KeyIp} {ipv6 : KeyIpv6} {parsed : Parsed}
  (before : parsed.flow = flow.setIpv6 ip ipv6)
  (noNd : ipv6.ndTarget = 0 ∧ ipv6.ndSll = 0 ∧ ipv6.ndTll = 0)

include before noNd

theorem parseNd_flow (th : Nat) :
    (parseNd frame (th + 8) parsed).flow =
      flow.setIpv6 ip { ipv6 with
        ndTarget := (ovsNd frame th).1
        ndSll := (ovsNd frame th).2.1
        ndTll := (ovsNd frame th).2.2 } := by
  obtain ⟨src, dst, label, tpSrc, tpDst, ndTarget, ndSll, ndTll⟩ := ipv6
  obtain ⟨rfl, rfl, rfl⟩ := noNd
  have sha : parsed.flow.arpSha = 0 := congrArg Flow.arpSha before
  have tha : parsed.flow.arpTha = 0 := congrArg Flow.arpTha before
  rw [parseNd, ovsNd_eq, tryPull_eq frame (th + 8) (by decide), sha, tha, before]
  by_cases target : th + 8 + 16 ≤ frame.length
  · rw [if_pos target, if_pos target]
    simp only
    cases ndOptions frame frame.length (th + 8 + 16) 0 0 <;> rfl
  · rw [if_neg target, if_neg target]
    exact before

theorem parseIcmpv6_flow (th : Nat) :
    (parseIcmpv6 frame th parsed).flow = flow.setIpv6 ip (extractIcmpv6 frame th ipv6).1 := by
  rw [parseIcmpv6, extractIcmpv6, tryPull_eq frame th (by decide), before]
  by_cases long : th + 8 ≤ frame.length
  · have ok : icmp6hdrOk frame th = true := decide_eq_true long
    rw [if_pos long, if_pos ok]
    by_cases neighbour : u8 frame (th + 1) = 0 ∧ isNeighbour (u8 frame th) = true
    · simp only [if_pos neighbour]
      exact @parseNd_flow frame flow ip
        { ipv6 with
          tpSrc := (u8 frame th).setWidth 16
          tpDst := (u8 frame (th + 1)).setWidth 16 } _ rfl noNd th
    · simp only [if_neg neighbour]
      rfl
  · have short : ¬ icmp6hdrOk frame th = true := decide_eq_true_iff.not.mpr long
    rw [if_neg long, if_neg short]
    exact before

end Icmpv6

theorem isFragment_iff (fragOff : BitVec 16) :
    fragOff &&& 0x3fff = 0 ↔ fragOff &&& 0x1fff = 0 ∧ fragOff &&& 0x2000 = 0 := by
  have parts : fragOff &&& 0x3fff = fragOff &&& 0x1fff ||| fragOff &&& 0x2000 :=
    calc fragOff &&& 0x3fff
        = fragOff &&& (0x1fff ||| 0x2000) := rfl
      _ = fragOff &&& 0x1fff ||| fragOff &&& 0x2000 := BitVec.and_or_distrib_left
  rw [parts]
  exact BitVec.or_eq_zero_iff

theorem nwFragOf_ipv4Frag (fragOff : BitVec 16) :
    nwFragOf (ipv4Frag fragOff) =
      if fragOff &&& 0x3fff ≠ 0 then
        if fragOff &&& 0x1fff ≠ 0 then flowNwFragAny ||| flowNwFragLater else flowNwFragAny
      else 0 := by
  simp only [ne_eq, isFragment_iff, ipv4Frag]
  by_cases later : fragOff &&& 0x1fff = 0
  · by_cases first : fragOff &&& 0x2000 = 0
    · simp only [later, first, not_true_eq_false, if_false, and_self]
      rfl
    · simp only [later, first, not_true_eq_false, not_false_eq_true, if_true, if_false,
        and_false]
      rfl
  · simp only [later, not_false_eq_true, if_true, false_and]
    rfl

theorem ipv4Frag_later_iff (fragOff : BitVec 16) :
    ipv4Frag fragOff = ovsFragTypeLater ↔ ¬ fragOff &&& 0x1fff = 0 := by
  rw [ipv4Frag]
  split_ifs with later first
  · exact iff_of_true rfl later
  · exact iff_of_false (by decide) later
  · exact iff_of_false (by decide) later

theorem parseTp_ipv4_flow (th : Nat) {flow : Flow} {ip : KeyIp} {ipv4 : KeyIpv4} {parsed : Parsed}
    (before : parsed.flow = flow.setIpv4 ip ipv4) :
    (if parsed.flow.nwProto = ipprotoTcp then parseTcp frame th parsed
      else if parsed.flow.nwProto = ipprotoUdp then parseUdp frame th parsed
      else if parsed.flow.nwProto = ipprotoIcmp then parseIcmp frame th parsed
      else parsed).flow =
      flow.setIpv4 ip (extractIpv4Tp frame ip.proto th ipv4).1 := by
  have proto : parsed.flow.nwProto = ip.proto := congrArg Flow.nwProto before
  rw [proto, extractIpv4Tp]
  split_ifs <;> simp_all [parseTcp_flow, parseUdp_flow, parseIcmp_flow, Flow.setIpv4]

theorem parseIpv4_flow (nh : Nat) {parsed : Parsed}
    (blank : parsed.flow.setIpv4 {} {} = parsed.flow) :
    (parseIpv4 frame nh parsed).flow =
      parsed.flow.setIpv4 (extractIpv4 frame nh).1 (extractIpv4 frame nh).2.1 := by
  rw [parseIpv4, pullIp_eq_checkIphdr]
  cases valid : checkIphdr frame nh with
  | none =>
    rw [extractIpv4, valid]
    exact blank.symm
  | some th =>
    have header : { parsed.flow with
        nwSrc := be32 frame (nh + 12)
        nwDst := be32 frame (nh + 16)
        nwProto := u8 frame (nh + 9)
        nwTos := u8 frame (nh + 1)
        nwFrag := nwFragOf (ipv4Frag (be16 frame (nh + 6)))
        nwTtl := u8 frame (nh + 8) } =
        parsed.flow.setIpv4 (ipv4Ip frame nh) (ipv4Addr frame nh) := by
      rw [← blank]
      rfl
    rw [extractIpv4_some frame valid]
    simp only [← nwFragOf_ipv4Frag, header]
    by_cases later : (ipv4Ip frame nh).frag = ovsFragTypeLater
    · rw [if_pos later, if_neg ((ipv4Frag_later_iff _).mp later)]
    · rw [if_neg later, if_pos (not_not.mp ((ipv4Frag_later_iff _).not.mp later))]
      exact @parseTp_ipv4_flow frame th parsed.flow (ipv4Ip frame nh) (ipv4Addr frame nh)
        { parsed with
          flow := parsed.flow.setIpv4 (ipv4Ip frame nh) (ipv4Addr frame nh)
          l4 := some th } rfl

def IsPlain (nexthdr : Byte) : Prop :=
  nexthdr ≠ nexthdrHop ∧ nexthdr ≠ nexthdrRouting ∧ nexthdr ≠ nexthdrDest ∧
    nexthdr ≠ nexthdrAuth ∧ nexthdr ≠ nexthdrFragment

instance (nexthdr : Byte) : Decidable (IsPlain nexthdr) := inferInstanceAs (Decidable (_ ∧ _))

theorem parseTp_ipv6_flow (th : Nat) {flow : Flow} {ip : KeyIp} {ipv6 : KeyIpv6} {parsed : Parsed}
    (before : parsed.flow = flow.setIpv6 ip ipv6)
    (noNd : ipv6.ndTarget = 0 ∧ ipv6.ndSll = 0 ∧ ipv6.ndTll = 0) :
    (if ip.proto = ipprotoTcp then parseTcp frame th parsed
      else if ip.proto = ipprotoUdp then parseUdp frame th parsed
      else if ip.proto = ipprotoIcmpv6 then parseIcmpv6 frame th parsed
      else parsed).flow =
      flow.setIpv6 ip (extractIpv6Tp frame ip.proto th ipv6).1 := by
  have icmp := parseIcmpv6_flow frame before noNd th
  rw [extractIpv6Tp]
  split_ifs <;> simp_all [parseTcp_flow, parseUdp_flow, Flow.setIpv6]

theorem trafficClass_eq (nh : Nat) : (be32 frame nh >>> 20).setWidth 8 = ipv6Dsfield frame nh := by
  rw [be32, ipv6Dsfield]
  generalize be16 frame nh = high
  generalize be16 frame (nh + 2) = low
  apply BitVec.eq_of_getLsbD_eq
  intro i inside
  simp only [BitVec.getLsbD_setWidth, BitVec.getLsbD_ushiftRight, BitVec.getLsbD_append]
  have past : ¬ 20 + i < 16 := by omega
  simp only [past, if_false, show 20 + i - 16 = 4 + i by omega]

theorem parseIpv6Ext_plain {nexthdr : Byte} (plain : IsPlain nexthdr) (turns ofs : Nat)
    (nwFrag : Byte) :
    parseIpv6Ext frame (turns + 1) ofs nexthdr nwFrag = (nwFrag, some (nexthdr, ofs)) := by
  rw [parseIpv6Ext]
  exact if_pos plain

theorem ipv6SkipExthdr_plain {nexthdr : Byte} (plain : IsPlain nexthdr) (turns start : Nat)
    (fragOff : BitVec 16) :
    ipv6SkipExthdr frame (turns + 1) start nexthdr fragOff =
      if nexthdr = nexthdrNone then none else some (start, nexthdr, fragOff) := by
  obtain ⟨hop, routing, dest, auth, fragment⟩ := plain
  have last : ipv6ExtHdr nexthdr = decide (nexthdr = nexthdrNone) := by
    simp [ipv6ExtHdr, hop, routing, dest, auth, fragment]
  rw [ipv6SkipExthdr, last]
  by_cases none : nexthdr = nexthdrNone
  · simp [none]
  · simp [none]

theorem extractIpv6_plain {nh : Nat} (long : nh + 40 ≤ frame.length)
    (plain : IsPlain (u8 frame (nh + 6))) :
    (extractIpv6 frame nh).1 = ipv6Ip frame nh (u8 frame (nh + 6)) 0 ∧
      (extractIpv6 frame nh).2.1 =
        (extractIpv6Tp frame (u8 frame (nh + 6)) (nh + 40) (ipv6Header frame nh)).1 := by
  obtain ⟨turns, length⟩ : ∃ turns, frame.length = turns + 1 := ⟨frame.length - 1, by omega⟩
  have skip := ipv6SkipExthdr_plain frame plain turns (nh + 40) 0
  rw [← length] at skip
  by_cases none : u8 frame (nh + 6) = nexthdrNone
  · rw [if_pos none, none] at skip
    rw [none, extractIpv6, if_neg (Nat.not_lt.mpr long), none, skip]
    exact ⟨rfl, rfl⟩
  · rw [if_neg none] at skip
    have notLater : ¬ (ipv6Ip frame nh (u8 frame (nh + 6)) 0).frag = ovsFragTypeLater := by
      simp only [ipv6Ip]
      decide
    rw [extractIpv6_some frame long skip, if_neg notLater]
    exact ⟨rfl, rfl⟩

theorem parseIpv6_flow {nh : Nat} {parsed : Parsed}
    (plain : nh + 40 ≤ frame.length → IsPlain (u8 frame (nh + 6)))
    (blank : parsed.flow.setIpv6 {} {} = parsed.flow) :
    (parseIpv6 frame nh parsed).flow =
      parsed.flow.setIpv6 (extractIpv6 frame nh).1 (extractIpv6 frame nh).2.1 := by
  rw [parseIpv6, tryPull_eq frame nh (by decide)]
  by_cases long : nh + 40 ≤ frame.length
  · obtain ⟨turns, length⟩ : ∃ turns, frame.length = turns + 1 := ⟨frame.length - 1, by omega⟩
    have ext := parseIpv6Ext_plain frame (plain long) turns (nh + 40) parsed.flow.nwFrag
    obtain ⟨ip, ipv6⟩ := extractIpv6_plain frame long (plain long)
    rw [← length] at ext
    have header : { parsed.flow with
        ipv6Src := be128 frame (nh + 8)
        ipv6Dst := be128 frame (nh + 24)
        nwTos := ipv6Dsfield frame nh
        ipv6Label := be32 frame nh &&& 0xfffff
        nwTtl := u8 frame (nh + 7)
        nwProto := u8 frame (nh + 6) } =
        parsed.flow.setIpv6 (ipv6Ip frame nh (u8 frame (nh + 6)) 0) (ipv6Header frame nh) := by
      rw [← blank]
      rfl
    rw [if_pos long, ip, ipv6]
    simp only [ext, trafficClass_eq, header]
    exact @parseTp_ipv6_flow frame (nh + 40) parsed.flow (ipv6Ip frame nh (u8 frame (nh + 6)) 0)
      (ipv6Header frame nh)
      { parsed with
        flow := parsed.flow.setIpv6 (ipv6Ip frame nh (u8 frame (nh + 6)) 0) (ipv6Header frame nh)
        l4 := some (nh + 40) } rfl ⟨rfl, rfl, rfl⟩
  · rw [if_neg long, extractIpv6, if_pos (Nat.not_le.mp long)]
    exact blank.symm

theorem parseArp_flow {nh : Nat} {parsed : Parsed} (complete : arphdrOk frame nh)
    (blank : parsed.flow.setIpv4 {} {} = parsed.flow) :
    (parseArp frame nh parsed).flow =
      parsed.flow.setIpv4 (extractArp frame nh).1 (extractArp frame nh).2.1 := by
  have long : nh + 28 ≤ frame.length := decide_eq_true_iff.mp complete
  have opcode : (if (be16 frame (nh + 6)).toNat ≤ 0xff then
      { parsed.flow with nwProto := (be16 frame (nh + 6)).setWidth 8 } else parsed.flow) =
      parsed.flow.setIpv4 { proto := arpOpcode frame nh } {} := by
    rw [arpOpcode, ← blank]
    split_ifs <;> rfl
  have named : ((parsed.flow.setIpv4 { proto := arpOpcode frame nh } {}).nwProto = 1 ∨
      (parsed.flow.setIpv4 { proto := arpOpcode frame nh } {}).nwProto = 2) ↔
      isArpRequestOrReply (arpOpcode frame nh) = true :=
    decide_eq_true_iff.symm
  have isIpv4 : (be16 frame nh = 1 ∧ be16 frame (nh + 2) = ethPIp ∧ u8 frame (nh + 4) = 6 ∧
      u8 frame (nh + 5) = 4) ↔ arpIsIpv4 frame nh = true :=
    decide_eq_true_iff.symm
  rw [parseArp, tryPull_eq frame nh (by decide), if_pos long, extractArp]
  simp only [opcode, isIpv4]
  by_cases arp : arpIsIpv4 frame nh = true
  · rw [if_pos arp, if_pos arp]
    by_cases regular : isArpRequestOrReply (arpOpcode frame nh) = true
    · rw [if_pos (named.mpr regular), if_pos regular]
      rfl
    · rw [if_neg (named.not.mpr regular), if_neg regular]
  · rw [if_neg arp, if_neg arp]
    exact blank.symm

theorem parseArp_short {nh : Nat} (short : ¬ arphdrOk frame nh) (parsed : Parsed) :
    parseArp frame nh parsed = parsed := by
  have long : ¬ nh + 28 ≤ frame.length := decide_eq_true_iff.not.mp short
  rw [parseArp, tryPull_eq frame nh (by decide), if_neg long]

def snapControl : Byte := u8 frame (typeOffset frame + 4)

theorem userParseVlan_eq : userParseVlan frame 12 = parseVlan frame 12 := by
  rw [userParseVlan, parseVlan]
  by_cases short : frame.length < 12 + 6
  · rw [if_pos short, if_neg (by omega)]
  · rw [if_neg short, if_pos (by omega)]
    rfl

theorem userParseEthertype_eq :
    userParseEthertype frame (typeOffset frame) =
      if HasSnap frame then
        if snapControl frame = 3 then (frameType frame, networkOffset frame)
        else (flowDlTypeNone, typeOffset frame + 2)
      else
        (if 1536 ≤ (be16 frame (typeOffset frame)).toNat then be16 frame (typeOffset frame)
          else flowDlTypeNone, typeOffset frame + 2) := by
  have org : (u8 frame (typeOffset frame + 5) ||| u8 frame (typeOffset frame + 6) |||
      u8 frame (typeOffset frame + 7)) = 0 ↔
      u8 frame (typeOffset frame + 5) = 0 ∧ u8 frame (typeOffset frame + 6) = 0 ∧
        u8 frame (typeOffset frame + 7) = 0 := by
    rw [show (0 : Byte) = 0#8 from rfl, BitVec.or_eq_zero_iff, BitVec.or_eq_zero_iff, and_assoc]
  rw [userParseEthertype]
  by_cases long : 1536 ≤ (be16 frame (typeOffset frame)).toNat
  · have noSnap : ¬ HasSnap frame := fun snap => absurd snap.1 (Nat.not_lt.mpr long)
    simp only [long, noSnap, if_true, if_false]
  by_cases short : frame.length - (typeOffset frame + 2) < 8
  · have noSnap : ¬ HasSnap frame := fun snap => by
      have size := snap.2.1
      omega
    simp only [long, noSnap, short, if_true, if_false]
  have regular : (u8 frame (typeOffset frame + 2) ≠ 0xaa ∨ u8 frame (typeOffset frame + 2 + 1) ≠ 0xaa ∨
      u8 frame (typeOffset frame + 2 + 2) ≠ 3 ∨
        ¬ (u8 frame (typeOffset frame + 2 + 3) = 0 ∧ u8 frame (typeOffset frame + 2 + 4) = 0 ∧
          u8 frame (typeOffset frame + 2 + 5) = 0)) ↔
      ¬ (HasSnap frame ∧ snapControl frame = 3) := by
    have first : (be16 frame (typeOffset frame)).toNat < 1536 := Nat.not_le.mp long
    have second : typeOffset frame + 10 ≤ frame.length := by omega
    simp only [HasSnap, org, first, second, true_and, snapControl, Nat.add_assoc, Nat.reduceAdd]
    tauto
  simp only [long, short, regular, if_false]
  by_cases snap : HasSnap frame
  · by_cases control : snapControl frame = 3
    · rw [if_neg (not_not_intro ⟨snap, control⟩), if_pos snap, if_pos control, frameType,
        networkOffset, if_pos snap, if_pos snap]
    · rw [if_pos fun both => control both.2, if_pos snap, if_neg control]
  · rw [if_pos fun both => snap both.1, if_neg snap]

/-- Where the daemon and the datapath find the same frame type. -/
def SameType : Prop :=
  HasSnap frame →
    (snapControl frame = 3 ∧ 1536 ≤ (be16 frame (typeOffset frame + 8)).toNat) ∨
      (snapControl frame ≠ 3 ∧ be16 frame (typeOffset frame + 8) = ethP8022)

def userType : BitVec 16 := if frameType frame = ethP8022 then flowDlTypeNone else frameType frame

theorem userParseEthertype_of_sameType (same : SameType frame) :
    (userParseEthertype frame (typeOffset frame)).1 = userType frame ∧
      (frameType frame ≠ ethP8022 →
        (userParseEthertype frame (typeOffset frame)).2 = networkOffset frame) := by
  rw [userParseEthertype_eq]
  by_cases snap : HasSnap frame
  · have inner : frameType frame = be16 frame (typeOffset frame + 8) := if_pos snap
    obtain ⟨control, long⟩ | ⟨control, llc⟩ := same snap
    · have other : frameType frame ≠ ethP8022 := by
        rintro llc
        rw [← inner, llc] at long
        exact absurd long (by decide)
      rw [if_pos snap, if_pos control]
      exact ⟨(if_neg other).symm, fun _ => rfl⟩
    · rw [if_pos snap, if_neg control]
      exact ⟨(if_pos (inner.trans llc)).symm, fun other => absurd (inner.trans llc) other⟩
  · have offset : networkOffset frame = typeOffset frame + 2 := if_neg snap
    rw [if_neg snap, offset]
    refine ⟨?_, fun _ => rfl⟩
    rw [userType, frameType, if_neg snap]
    by_cases long : 1536 ≤ (be16 frame (typeOffset frame)).toNat
    · have other : be16 frame (typeOffset frame) ≠ ethP8022 := by
        rintro llc
        rw [llc] at long
        exact absurd long (by decide)
      simp only [long, if_true, other, if_false]
    · simp only [long, if_false, if_true]

/-- The IPv6 packet, if the frame is one, has no extension headers. -/
def HasNoExtension : Prop :=
  frameType frame = ethPIpv6 → networkOffset frame + 40 ≤ frame.length →
    IsPlain (u8 frame (networkOffset frame + 6))

section Whole

variable {frame} {priority : BitVec 32} {tunId : BitVec 64} {inPort : BitVec 16}

def linkParsed (frame : List Byte) (priority : BitVec 32) (tunId : BitVec 64) (inPort : BitVec 16)
    (dlType : BitVec 16) (nh : Nat) : Parsed :=
  { flow := { (linkKey frame priority tunId inPort).linkFlow with dlType }, l3 := some nh }

theorem flowExtract_eq (long : 14 ≤ frame.length) :
    flowExtract frame priority tunId (odpPortToOfpPort inPort) =
      let dlType := (userParseEthertype frame (typeOffset frame)).1
      let nh := (userParseEthertype frame (typeOffset frame)).2
      let parsed := linkParsed frame priority tunId inPort dlType nh
      if dlType = ethPIp then parseIpv4 frame nh parsed
      else if dlType = ethPIpv6 then parseIpv6 frame nh parsed
      else if dlType = ethPArp then parseArp frame nh parsed
      else parsed := by
  have link : (if be16 frame 12 = ethP8021Q then userParseVlan frame 12 else (0, 12)) =
      ((linkLayer frame).1, typeOffset frame) := by
    rw [userParseVlan_eq, ← linkLayer_snd]
    rfl
  rw [flowExtract, if_neg (Nat.not_lt.mpr long)]
  simp only [link]
  rfl

theorem flowExtract_other (long : 14 ≤ frame.length) {dlType : BitVec 16}
    (type : (userParseEthertype frame (typeOffset frame)).1 = dlType)
    (notIpv4 : dlType ≠ ethPIp) (notIpv6 : dlType ≠ ethPIpv6) (notArp : dlType ≠ ethPArp) :
    (flowExtract frame priority tunId (odpPortToOfpPort inPort)).flow =
      { (linkKey frame priority tunId inPort).linkFlow with dlType } := by
  rw [flowExtract_eq long]
  simp only [type, notIpv4, notIpv6, notArp, if_false]
  rfl

theorem userType_ne {type : BitVec 16} (other : frameType frame ≠ type)
    (notNone : flowDlTypeNone ≠ type) : userType frame ≠ type := by
  rw [userType]
  split_ifs
  · exact notNone
  · exact other

theorem flow_eq_of_sameType (long : 14 ≤ frame.length) (same : SameType frame)
    (plain : HasNoExtension frame) {extraction : Extraction}
    (found : ovsFlowExtract frame priority tunId inPort = some extraction) :
    extraction.key.flow = (flowExtract frame priority tunId (odpPortToOfpPort inPort)).flow := by
  obtain ⟨type, offset⟩ := userParseEthertype_of_sameType frame same
  have linkFlow : { (linkKey frame priority tunId inPort).linkFlow with dlType := userType frame } =
      (linkKey frame priority tunId inPort).linkFlow := rfl
  have blank4 (nh : Nat) : (linkParsed frame priority tunId inPort (userType frame) nh).flow.setIpv4
      {} {} = (linkParsed frame priority tunId inPort (userType frame) nh).flow := rfl
  have blank6 (nh : Nat) : (linkParsed frame priority tunId inPort (userType frame) nh).flow.setIpv6
      {} {} = (linkParsed frame priority tunId inPort (userType frame) nh).flow := rfl
  simp only [ovsFlowExtract_eq] at found
  rw [flowExtract_eq long]
  simp only [type]
  split_ifs at found with zero isIpv4 isArp isIpv6
  · have dlType : userType frame = ethPIp := by
      rw [userType, isIpv4]
      rfl
    rw [if_pos dlType, offset (isIpv4.trans_ne (by decide)), parseIpv4_flow frame _ (blank4 _),
      ← Option.some.inj found]
    exact if_neg (isIpv4.trans_ne (by decide))
  · have dlType : userType frame = ethPArp := by
      rw [userType, isArp.1]
      rfl
    rw [if_neg (dlType.trans_ne (by decide)), if_neg (dlType.trans_ne (by decide)), if_pos dlType,
      offset (isArp.1.trans_ne (by decide)), parseArp_flow frame isArp.2 (blank4 _),
      ← Option.some.inj found]
    exact if_neg (isArp.1.trans_ne (by decide))
  · have dlType : userType frame = ethPIpv6 := by
      rw [userType, isIpv6]
      rfl
    rw [if_neg (dlType.trans_ne (by decide)), if_pos dlType, offset (isIpv6.trans_ne (by decide)),
      parseIpv6_flow frame (plain isIpv6) (blank6 _), ← Option.some.inj found]
    exact if_pos isIpv6
  · have flow : (linkKey frame priority tunId inPort).flow =
        (linkKey frame priority tunId inPort).linkFlow := if_neg isIpv6
    rw [if_neg (userType_ne isIpv4 (by decide)), if_neg (userType_ne isIpv6 (by decide)),
      ← Option.some.inj found, flow]
    by_cases arp : frameType frame = ethPArp
    · have dlType : userType frame = ethPArp := by
        rw [userType, arp]
        rfl
      rw [if_pos dlType, offset (arp.trans_ne (by decide)),
        parseArp_short frame fun complete => isArp ⟨arp, complete⟩]
      rfl
    · rw [if_neg (userType_ne arp (by decide))]
      rfl

/-- The attributes of the datapath's key give, with a perfect fit, the flow that the daemon extracts
from the frame. -/
def SeesSameFlow (frame : List Byte) (priority : BitVec 32) (tunId : BitVec 64)
    (inPort : BitVec 16) : Prop :=
  ∃ extraction ∈ ovsFlowExtract frame priority tunId inPort,
    odpFlowKeyToFlow (ovsFlowToNlattrs extraction.key) =
      some (.perfect, (flowExtract frame priority tunId (odpPortToOfpPort inPort)).flow)

theorem linkFlow_of_ovsFlowExtract {extraction : Extraction}
    (found : ovsFlowExtract frame priority tunId inPort = some extraction) :
    extraction.key.linkFlow = (linkKey frame priority tunId inPort).linkFlow ∧
      extraction.key.inPort = inPort := by
  simp only [ovsFlowExtract_eq] at found
  split_ifs at found <;> exact Option.some.inj found ▸ ⟨rfl, rfl⟩

theorem flow_dlType (key : SwFlowKey) : key.flow.dlType = key.linkFlow.dlType := by
  rw [SwFlowKey.flow]
  split_ifs <;> rfl

theorem typeOk_of_perfect {extraction : Extraction} (extracted : Extracted frame extraction)
    (port : (extraction.key.inPort.toNat : Int) < ofppMax) {flow : Flow}
    (converted : odpFlowKeyToFlow (ovsFlowToNlattrs extraction.key) = some (.perfect, flow)) :
    extraction.key.TypeOk ∧ extraction.key.flow = flow := by
  by_cases known : extraction.key.TypeOk
  · rw [odpFlowKeyToFlow_of_typeOk extracted.clean port known] at converted
    exact ⟨known, (Prod.mk.inj (Option.some.inj converted)).2⟩
  · obtain ⟨wrong, refused⟩ := odpFlowKeyToFlow_of_not_typeOk extracted.clean port known
    rw [refused] at converted
    exact absurd (Prod.mk.inj (Option.some.inj converted)).1 (by decide)

theorem sameType_of_seesSameFlow (long : 14 ≤ frame.length)
    (port : (inPort.toNat : Int) < ofppMax) (sees : SeesSameFlow frame priority tunId inPort) :
    SameType frame := by
  intro snap
  obtain ⟨extraction, found, converted⟩ := sees
  have small : inPort.toNat < 65535 := by
    rw [ofppMax] at port
    omega
  have extracted := extracted_of_ovsFlowExtract small found
  obtain ⟨link, keyPort⟩ := linkFlow_of_ovsFlowExtract found
  obtain ⟨known, flow⟩ := typeOk_of_perfect extracted (keyPort ▸ port) converted
  have typeOk := (typeOk_iff frame extracted.type).mp known snap
  have inner : frameType frame = be16 frame (typeOffset frame + 8) := if_pos snap
  have dlType : (flowExtract frame priority tunId (odpPortToOfpPort inPort)).flow.dlType =
      userType frame := by
    rw [← flow, flow_dlType, link]
    rfl
  have type := userParseEthertype_eq frame
  rw [if_pos snap] at type
  by_cases control : snapControl frame = 3
  · refine .inl ⟨control, typeOk.resolve_left fun llc => ?_⟩
    rw [if_pos control, inner, llc] at type
    have read : (userParseEthertype frame (typeOffset frame)).1 = ethP8022 :=
      congrArg Prod.fst type
    have seen : ethP8022 = userType frame :=
      (congrArg Flow.dlType (flowExtract_other long read (by decide) (by decide) (by decide))).symm.trans
        dlType
    rw [userType, inner, llc] at seen
    exact absurd seen (by decide)
  · refine .inr ⟨control, typeOk.resolve_right fun isType => ?_⟩
    rw [if_neg control] at type
    have read : (userParseEthertype frame (typeOffset frame)).1 = flowDlTypeNone :=
      congrArg Prod.fst type
    have seen : flowDlTypeNone = userType frame :=
      (congrArg Flow.dlType (flowExtract_other long read (by decide) (by decide) (by decide))).symm.trans
        dlType
    have other : frameType frame ≠ ethP8022 := by
      rintro llc
      rw [← inner, llc] at isType
      exact absurd isType (by decide)
    rw [userType, if_neg other, inner] at seen
    rw [← seen] at isType
    exact absurd isType (by decide)

/-- Kernel and user space see the same flow exactly when they find the same frame type. -/
theorem seesSameFlow_iff_sameType (long : 14 ≤ frame.length) (port : (inPort.toNat : Int) < ofppMax)
    (plain : HasNoExtension frame) :
    SeesSameFlow frame priority tunId inPort ↔ SameType frame := by
  refine ⟨sameType_of_seesSameFlow long port, fun same => ?_⟩
  have known {key : SwFlowKey} (type : key.type = frameType frame) : key.TypeOk :=
    (typeOk_iff frame type).mpr fun snap =>
      (same snap).elim (fun regular => .inr regular.2) fun llc => .inl llc.2
  cases found : ovsFlowExtract frame priority tunId inPort with
  | none =>
    have zero := (ovsFlowExtract_eq_none_iff ..).mp found
    have typeOk : SwFlowKey.TypeOk { type := 0 } := known zero.symm
    exact absurd typeOk (by decide)
  | some extraction =>
    have small : inPort.toNat < 65535 := by
      rw [ofppMax] at port
      omega
    have extracted := extracted_of_ovsFlowExtract small found
    obtain ⟨-, keyPort⟩ := linkFlow_of_ovsFlowExtract found
    refine ⟨extraction, found, ?_⟩
    rw [odpFlowKeyToFlow_of_typeOk extracted.clean (keyPort ▸ port) (known extracted.type),
      flow_eq_of_sameType long same plain found]

end Whole

def snapFrame (control : Byte) (type : BitVec 16) : List Byte :=
  put48 0xffffffffffff ++ put48 0x020000000001 ++ put16 8 ++
    [0xaa, 0xaa, control, 0, 0, 0] ++ put16 type

theorem seesSameFlow_snapFrame : SeesSameFlow (snapFrame 3 0x0800) 0 0 1 := by
  refine (seesSameFlow_iff_sameType (by decide) (by decide) ?_).mpr fun _ => .inl (by decide)
  exact fun isIpv6 => absurd isIpv6 (by decide)

/-- A SNAP header whose control field is not 3 hides the frame type from the daemon only. -/
theorem not_seesSameFlow_snapFrame : ¬ SeesSameFlow (snapFrame 0 0x0800) 0 0 1 := by
  intro sees
  have same := sameType_of_seesSameFlow (by decide) (by decide) sees
  exact absurd (same (by decide)) (by decide)

end Packet
end LazyCtrl
