import LazyCtrl.Packet.KeyRoundTrip

/-!
# The keys that the datapath extracts

A key of `ovs_flow_extract` has nothing in the members that its frame type and protocol do not use.
The length that comes with it is the one that `ovs_flow_from_nlattrs` finds again for IPv4 packets;
for ARP and IPv6 packets it depends on parts of the packet that the key does not show.
-/

namespace LazyCtrl
namespace Packet

open Bytes Netlink

variable (frame : List Byte)

def typeOffset : Nat := if be16 frame 12 = ethP8021Q ∧ 18 ≤ frame.length then 16 else 12

def HasSnap : Prop :=
  (be16 frame (typeOffset frame)).toNat < 1536 ∧ typeOffset frame + 10 ≤ frame.length ∧
    u8 frame (typeOffset frame + 2) = 0xaa ∧ u8 frame (typeOffset frame + 3) = 0xaa ∧
    (u8 frame (typeOffset frame + 5) ||| u8 frame (typeOffset frame + 6) |||
      u8 frame (typeOffset frame + 7)) = 0

instance : Decidable (HasSnap frame) := inferInstanceAs (Decidable (_ ∧ _))

def frameType : BitVec 16 :=
  if HasSnap frame then be16 frame (typeOffset frame + 8)
  else if 1536 ≤ (be16 frame (typeOffset frame)).toNat then be16 frame (typeOffset frame)
  else ethP8022

def networkOffset : Nat := if HasSnap frame then typeOffset frame + 10 else typeOffset frame + 2

theorem linkLayer_snd : (linkLayer frame).2 = typeOffset frame := by
  rw [linkLayer, typeOffset]
  by_cases tagged : be16 frame 12 = ethP8021Q
  · by_cases short : frame.length < 18
    · rw [if_pos tagged, parseVlan, if_pos short, if_neg fun long => by omega]
    · rw [if_pos tagged, parseVlan, if_neg short, if_pos ⟨tagged, by omega⟩]
  · rw [if_neg tagged, if_neg fun long => tagged long.1]

theorem parseEthertype_eq :
    parseEthertype frame (typeOffset frame) = (frameType frame, networkOffset frame) := by
  rw [parseEthertype, frameType, networkOffset]
  by_cases long : 1536 ≤ (be16 frame (typeOffset frame)).toNat
  · have noSnap : ¬ HasSnap frame := fun snap => absurd snap.1 (Nat.not_lt.mpr long)
    simp only [long, noSnap, if_true, if_false]
  by_cases short : frame.length < typeOffset frame + 10
  · have noSnap : ¬ HasSnap frame := fun snap => absurd snap.2.1 (Nat.not_le.mpr short)
    simp only [long, noSnap, short, if_true, if_false]
  by_cases snap : HasSnap frame
  · obtain ⟨-, -, dsap, ssap, org⟩ := id snap
    simp only [long, short, snap, dsap, ssap, org, if_true, if_false, ne_eq, not_true_eq_false,
      or_self]
  · have foreign : u8 frame (typeOffset frame + 2) ≠ 0xaa ∨ u8 frame (typeOffset frame + 3) ≠ 0xaa ∨
        (u8 frame (typeOffset frame + 5) ||| u8 frame (typeOffset frame + 6) |||
          u8 frame (typeOffset frame + 7)) ≠ 0 := by
      by_contra own
      rw [not_or, not_or, not_not, not_not, not_not] at own
      exact snap ⟨Nat.not_le.mp long, Nat.not_lt.mp short, own⟩
    simp only [long, short, snap, foreign, if_true, if_false]

theorem typeOk_iff {key : SwFlowKey} (type : key.type = frameType frame) :
    key.TypeOk ↔
      (HasSnap frame →
        be16 frame (typeOffset frame + 8) = ethP8022 ∨
          1536 ≤ (be16 frame (typeOffset frame + 8)).toNat) := by
  rw [SwFlowKey.TypeOk, type, frameType]
  by_cases snap : HasSnap frame
  · simp only [snap, if_true, true_imp_iff]
  · by_cases long : 1536 ≤ (be16 frame (typeOffset frame)).toNat
    · simp only [snap, long, if_true, if_false, or_true, false_imp_iff]
    · simp only [snap, long, if_false, true_or, false_imp_iff]

theorem toNat_setWidth_lt (x : Byte) : (x.setWidth 16 : BitVec 16).toNat < 256 := by
  simp only [BitVec.toNat_setWidth]
  omega

structure Ipv4Extracted (ip : KeyIp) (ipv4 : KeyIpv4) (len : KeyMember) : Prop where
  tp : CleanTp ipprotoIcmp ip ipv4.tpSrc ipv4.tpDst
  noArp : ipv4.arpSha = 0 ∧ ipv4.arpTha = 0
  frag : ip.frag.toNat ≤ 2
  len : len = ip.tpLen ipprotoIcmp .ipv4Addr .ipv4Tp

theorem extractIpv4Tp_extracted {ip : KeyIp} {ipv4 : KeyIpv4} (th : Nat)
    (notLater : ip.frag ≠ ovsFragTypeLater) (known : ip.frag.toNat ≤ 2)
    (noArp : ipv4.arpSha = 0 ∧ ipv4.arpTha = 0) (noTp : ipv4.tpSrc = 0 ∧ ipv4.tpDst = 0) :
    Ipv4Extracted ip (extractIpv4Tp frame ip.proto th ipv4).1
      (extractIpv4Tp frame ip.proto th ipv4).2 := by
  have small (x : Byte) := toNat_setWidth_lt x
  refine ⟨?_, ?_, known, ?_⟩
  · rw [CleanTp, if_neg notLater, extractIpv4Tp]
    split_ifs <;> simp_all
  · rw [extractIpv4Tp]
    split_ifs <;> exact noArp
  · rw [extractIpv4Tp, KeyIp.tpLen]
    split_ifs <;> simp_all

def ipv4Frag (fragOff : BitVec 16) : Byte :=
  if fragOff &&& 0x1fff ≠ 0 then ovsFragTypeLater
  else if fragOff &&& 0x2000 ≠ 0 then ovsFragTypeFirst
  else 0

def ipv4Ip (nh : Nat) : KeyIp :=
  { proto := u8 frame (nh + 9)
    tos := u8 frame (nh + 1)
    ttl := u8 frame (nh + 8)
    frag := ipv4Frag (be16 frame (nh + 6)) }

def ipv4Addr (nh : Nat) : KeyIpv4 := { src := be32 frame (nh + 12), dst := be32 frame (nh + 16) }

theorem extractIpv4_some {nh th : Nat} (valid : checkIphdr frame nh = some th) :
    extractIpv4 frame nh =
      if (ipv4Ip frame nh).frag = ovsFragTypeLater then
        (ipv4Ip frame nh, ipv4Addr frame nh, .ipv4Addr, th)
      else
        (ipv4Ip frame nh, (extractIpv4Tp frame (u8 frame (nh + 9)) th (ipv4Addr frame nh)).1,
          (extractIpv4Tp frame (u8 frame (nh + 9)) th (ipv4Addr frame nh)).2, th) := by
  rw [extractIpv4, valid]
  by_cases later : be16 frame (nh + 6) &&& 0x1fff ≠ 0
  · simp only [later, ipv4Ip, ipv4Frag, ipv4Addr, if_true, ne_eq, not_false_eq_true]
  · by_cases first : be16 frame (nh + 6) &&& 0x2000 ≠ 0
    · have other : ovsFragTypeFirst ≠ ovsFragTypeLater := by decide
      simp only [later, first, ipv4Ip, ipv4Frag, ipv4Addr, if_true, if_false, ne_eq,
        not_false_eq_true, other]
    · have other : (0 : Byte) ≠ ovsFragTypeLater := by decide
      simp only [later, first, ipv4Ip, ipv4Frag, ipv4Addr, if_false, other]

theorem ipv4Frag_le (fragOff : BitVec 16) : (ipv4Frag fragOff).toNat ≤ 2 := by
  rw [ipv4Frag]
  split_ifs <;> decide

theorem extractIpv4_extracted (nh : Nat) :
    Ipv4Extracted (extractIpv4 frame nh).1 (extractIpv4 frame nh).2.1
      (extractIpv4 frame nh).2.2.1 := by
  cases valid : checkIphdr frame nh with
  | none =>
    have none : extractIpv4 frame nh = ({}, {}, .ipv4Addr, nh) := by rw [extractIpv4, valid]
    rw [none]
    exact ⟨⟨rfl, rfl⟩, ⟨rfl, rfl⟩, Nat.zero_le _, rfl⟩
  | some th =>
    rw [extractIpv4_some frame valid]
    by_cases later : (ipv4Ip frame nh).frag = ovsFragTypeLater
    · rw [if_pos later]
      refine ⟨?_, ⟨rfl, rfl⟩, ipv4Frag_le _, (if_neg fun has => has.1 later).symm⟩
      rw [CleanTp, if_pos later]
      exact ⟨rfl, rfl⟩
    · rw [if_neg later]
      exact extractIpv4Tp_extracted frame th later (ipv4Frag_le _) ⟨rfl, rfl⟩ ⟨rfl, rfl⟩

def HasOddNeighbour (nh : Nat) : Prop :=
  nh + 40 ≤ frame.length ∧
    ∃ found ∈ ipv6SkipExthdr frame frame.length (nh + 40) (u8 frame (nh + 6)) 0,
      found.2.1 = ipprotoIcmpv6 ∧ ipv6Frag found.2.2 ≠ ovsFragTypeLater ∧
        found.1 + 8 ≤ frame.length ∧ isNeighbour (u8 frame found.1) ∧ u8 frame (found.1 + 1) ≠ 0

structure Ipv6Extracted (ip : KeyIp) (ipv6 : KeyIpv6) : Prop where
  tp : CleanTp ipprotoIcmpv6 ip ipv6.tpSrc ipv6.tpDst
  noNd : ¬ NamesNeighbour ip ipv6 → ipv6.ndTarget = 0 ∧ ipv6.ndSll = 0 ∧ ipv6.ndTll = 0
  frag : ip.frag.toNat ≤ 2

theorem ipv6Frag_le (fragOff : BitVec 16) : (ipv6Frag fragOff).toNat ≤ 2 := by
  rw [ipv6Frag]
  split_ifs <;> decide

theorem cleanTp_icmpv6 {ip : KeyIp} {src dst : BitVec 16} (icmp : ip.proto = ipprotoIcmpv6)
    (notLater : ip.frag ≠ ovsFragTypeLater) (bytes : src.toNat < 256 ∧ dst.toNat < 256) :
    CleanTp ipprotoIcmpv6 ip src dst := by
  have other : ¬ (ip.proto = ipprotoTcp ∨ ip.proto = ipprotoUdp) := by
    rw [icmp]
    decide
  rw [CleanTp, if_neg notLater, if_neg other, if_pos icmp]
  exact bytes

section Icmpv6

variable {ip : KeyIp} {ipv6 : KeyIpv6} (th : Nat) (icmp : ip.proto = ipprotoIcmpv6)
  (notLater : ip.frag ≠ ovsFragTypeLater) (noTp : ipv6.tpSrc = 0 ∧ ipv6.tpDst = 0)

include icmp notLater noTp

theorem extractIcmpv6_extracted (known : ip.frag.toNat ≤ 2)
    (noNd : ipv6.ndTarget = 0 ∧ ipv6.ndSll = 0 ∧ ipv6.ndTll = 0) :
    Ipv6Extracted ip (extractIcmpv6 frame th ipv6).1 := by
  have bytes : ((u8 frame th).setWidth 16 : BitVec 16).toNat < 256 ∧
      ((u8 frame (th + 1)).setWidth 16 : BitVec 16).toNat < 256 :=
    ⟨toNat_setWidth_lt _, toNat_setWidth_lt _⟩
  rw [extractIcmpv6]
  by_cases complete : icmp6hdrOk frame th = true
  · rw [if_pos complete]
    by_cases neighbour : u8 frame (th + 1) = 0 ∧ isNeighbour (u8 frame th) = true
    · simp only [neighbour, if_true, and_self]
      refine ⟨cleanTp_icmpv6 icmp notLater ⟨bytes.1, neighbour.1 ▸ bytes.2⟩, fun unnamed => ?_, known⟩
      exact absurd ⟨notLater, icmp, (setWidth_byte _).symm ▸ neighbour.2⟩ unnamed
    · simp only [neighbour, if_false]
      exact ⟨cleanTp_icmpv6 icmp notLater bytes, fun _ => noNd, known⟩
  · rw [if_neg complete]
    refine ⟨cleanTp_icmpv6 icmp notLater ?_, fun _ => noNd, known⟩
    rw [noTp.1, noTp.2]
    decide

theorem extractIcmpv6_len_iff :
    (extractIcmpv6 frame th ipv6).2 = ipv6AttrLen ip (extractIcmpv6 frame th ipv6).1 ↔
      ¬ (th + 8 ≤ frame.length ∧ isNeighbour (u8 frame th) ∧ u8 frame (th + 1) ≠ 0) := by
  have tp : ip.tpLen ipprotoIcmpv6 .ipv6Label .ipv6Tp = .ipv6Tp :=
    if_pos ⟨notLater, .inr (.inr icmp)⟩
  by_cases complete : th + 8 ≤ frame.length
  · have ok : icmp6hdrOk frame th = true := decide_eq_true complete
    simp only [extractIcmpv6, ok, if_true, complete, true_and]
    generalize u8 frame (th + 1) = code
    by_cases type : isNeighbour (u8 frame th) = true
    · by_cases zero : code = 0#8
      · simp [type, zero, ipv6AttrLen, notLater, icmp]
      · simp [type, zero, ipv6AttrLen, notLater, icmp]
    · simp [type, ipv6AttrLen, tp]
  · have short : icmp6hdrOk frame th = false := decide_eq_false complete
    have none : isNeighbour 0#8 = false := by decide
    simp [extractIcmpv6, short, complete, ipv6AttrLen, noTp.1, none, tp]

end Icmpv6

theorem extractIpv6Tp_extracted {ip : KeyIp} {ipv6 : KeyIpv6} (th : Nat)
    (notLater : ip.frag ≠ ovsFragTypeLater) (known : ip.frag.toNat ≤ 2)
    (noTp : ipv6.tpSrc = 0 ∧ ipv6.tpDst = 0)
    (noNd : ipv6.ndTarget = 0 ∧ ipv6.ndSll = 0 ∧ ipv6.ndTll = 0) :
    Ipv6Extracted ip (extractIpv6Tp frame ip.proto th ipv6).1 := by
  by_cases icmp : ip.proto = ipprotoIcmpv6
  · have tp : extractIpv6Tp frame ip.proto th ipv6 = extractIcmpv6 frame th ipv6 := by
      rw [icmp]
      rfl
    rw [tp]
    exact extractIcmpv6_extracted frame th icmp notLater noTp known noNd
  · refine ⟨?_, fun _ => ?_, known⟩
    · rw [CleanTp, if_neg notLater, extractIpv6Tp]
      split_ifs <;> simp_all
    · rw [extractIpv6Tp]
      split_ifs <;> exact noNd

theorem extractIpv6Tp_len_iff {ip : KeyIp} {ipv6 : KeyIpv6} (th : Nat)
    (notLater : ip.frag ≠ ovsFragTypeLater) (noTp : ipv6.tpSrc = 0 ∧ ipv6.tpDst = 0) :
    (extractIpv6Tp frame ip.proto th ipv6).2 =
        ipv6AttrLen ip (extractIpv6Tp frame ip.proto th ipv6).1 ↔
      ¬ (ip.proto = ipprotoIcmpv6 ∧ th + 8 ≤ frame.length ∧ isNeighbour (u8 frame th) ∧
        u8 frame (th + 1) ≠ 0) := by
  by_cases icmp : ip.proto = ipprotoIcmpv6
  · have tp : extractIpv6Tp frame ip.proto th ipv6 = extractIcmpv6 frame th ipv6 := by
      rw [icmp]
      rfl
    rw [tp, extractIcmpv6_len_iff frame th icmp notLater noTp]
    simp only [icmp, true_and]
  · refine iff_of_true ?_ fun odd => icmp odd.1
    rw [ipv6AttrLen, if_neg fun named => icmp named.2.1, extractIpv6Tp, KeyIp.tpLen]
    split_ifs <;> simp_all

def ipv6Ip (nh : Nat) (nexthdr : Byte) (fragOff : BitVec 16) : KeyIp :=
  { proto := nexthdr
    tos := ipv6Dsfield frame nh
    ttl := u8 frame (nh + 7)
    frag := ipv6Frag fragOff }

theorem extractIpv6_some {nh th : Nat} {nexthdr : Byte} {fragOff : BitVec 16}
    (long : nh + 40 ≤ frame.length)
    (skipped : ipv6SkipExthdr frame frame.length (nh + 40) (u8 frame (nh + 6)) 0 =
      some (th, nexthdr, fragOff)) :
    extractIpv6 frame nh =
      if (ipv6Ip frame nh nexthdr fragOff).frag = ovsFragTypeLater then
        (ipv6Ip frame nh nexthdr fragOff, ipv6Header frame nh, .ipv6Label, th)
      else
        (ipv6Ip frame nh nexthdr fragOff, (extractIpv6Tp frame nexthdr th (ipv6Header frame nh)).1,
          (extractIpv6Tp frame nexthdr th (ipv6Header frame nh)).2, th) := by
  rw [extractIpv6, if_neg (Nat.not_lt.mpr long)]
  simp only [skipped]
  rfl

theorem extractIpv6_extracted (nh : Nat) :
    Ipv6Extracted (extractIpv6 frame nh).1 (extractIpv6 frame nh).2.1 := by
  by_cases long : nh + 40 ≤ frame.length
  · cases skipped : ipv6SkipExthdr frame frame.length (nh + 40) (u8 frame (nh + 6)) 0 with
    | none =>
      rw [extractIpv6, if_neg (Nat.not_lt.mpr long), skipped]
      exact ⟨⟨rfl, rfl⟩, fun _ => ⟨rfl, rfl, rfl⟩, Nat.zero_le _⟩
    | some found =>
      obtain ⟨th, nexthdr, fragOff⟩ := found
      rw [extractIpv6_some frame long skipped]
      by_cases later : (ipv6Ip frame nh nexthdr fragOff).frag = ovsFragTypeLater
      · rw [if_pos later]
        refine ⟨?_, fun _ => ⟨rfl, rfl, rfl⟩, ipv6Frag_le _⟩
        rw [CleanTp, if_pos later]
        exact ⟨rfl, rfl⟩
      · rw [if_neg later]
        exact extractIpv6Tp_extracted frame th later (ipv6Frag_le _) ⟨rfl, rfl⟩ ⟨rfl, rfl, rfl⟩
  · rw [extractIpv6, if_pos (Nat.not_le.mp long)]
    exact ⟨⟨rfl, rfl⟩, fun _ => ⟨rfl, rfl, rfl⟩, Nat.zero_le _⟩

theorem extractIpv6_len_iff (nh : Nat) :
    (extractIpv6 frame nh).2.2.1 = ipv6AttrLen (extractIpv6 frame nh).1 (extractIpv6 frame nh).2.1 ↔
      ¬ HasOddNeighbour frame nh := by
  by_cases long : nh + 40 ≤ frame.length
  · cases skipped : ipv6SkipExthdr frame frame.length (nh + 40) (u8 frame (nh + 6)) 0 with
    | none =>
      rw [HasOddNeighbour, skipped, extractIpv6, if_neg (Nat.not_lt.mpr long), skipped]
      refine iff_of_true rfl ?_
      rintro ⟨-, found, listed, -⟩
      exact nomatch listed
    | some found =>
      obtain ⟨th, nexthdr, fragOff⟩ := found
      have odd : HasOddNeighbour frame nh ↔
          nexthdr = ipprotoIcmpv6 ∧ ipv6Frag fragOff ≠ ovsFragTypeLater ∧ th + 8 ≤ frame.length ∧
            isNeighbour (u8 frame th) ∧ u8 frame (th + 1) ≠ 0 := by
        simp only [HasOddNeighbour, long, skipped, Option.mem_def, Option.some.injEq,
          exists_eq_left', true_and]
      rw [odd, extractIpv6_some frame long skipped]
      by_cases later : (ipv6Ip frame nh nexthdr fragOff).frag = ovsFragTypeLater
      · rw [if_pos later]
        refine iff_of_true ?_ fun named => named.2.1 later
        exact ((if_neg fun named => named.1 later).trans (if_neg fun has => has.1 later)).symm
      · have tp := @extractIpv6Tp_len_iff frame (ipv6Ip frame nh nexthdr fragOff)
          (ipv6Header frame nh) th later ⟨rfl, rfl⟩
        rw [if_neg later]
        refine tp.trans (not_congr ⟨fun named => ⟨named.1, later, named.2⟩, fun named => ?_⟩)
        exact ⟨named.1, named.2.2⟩
  · rw [extractIpv6, if_pos (Nat.not_le.mp long)]
    exact iff_of_true rfl fun named => long named.1

def IsArpRequestOrReply (nh : Nat) : Prop :=
  arphdrOk frame nh ∧ arpIsIpv4 frame nh ∧ (be16 frame (nh + 6) = 1 ∨ be16 frame (nh + 6) = 2)

theorem isArpRequestOrReply_arpOpcode (nh : Nat) :
    isArpRequestOrReply (arpOpcode frame nh) = true ↔
      be16 frame (nh + 6) = 1 ∨ be16 frame (nh + 6) = 2 := by
  rw [isArpRequestOrReply, decide_eq_true_iff, arpOpcode]
  generalize be16 frame (nh + 6) = op
  by_cases small : op.toNat ≤ 0xff
  · simp only [if_pos small, ← BitVec.toNat_inj, BitVec.toNat_setWidth]
    simp
    omega
  · simp only [if_neg small, ← BitVec.toNat_inj]
    simp
    omega

theorem extractArp_len_iff (nh : Nat) :
    (extractArp frame nh).2.2 = .ipv4Arp ↔
      arpIsIpv4 frame nh ∧ (be16 frame (nh + 6) = 1 ∨ be16 frame (nh + 6) = 2) := by
  rw [← isArpRequestOrReply_arpOpcode]
  simp only [extractArp]
  split_ifs <;> simp_all

theorem extractArp_extracted (nh : Nat) :
    (extractArp frame nh).1 = { proto := (extractArp frame nh).1.proto } ∧
      (extractArp frame nh).2.1.tpSrc = 0 ∧ (extractArp frame nh).2.1.tpDst = 0 := by
  simp only [extractArp]
  split_ifs <;> exact ⟨rfl, rfl, rfl⟩

def ShowsLength : Prop :=
  (frameType frame = ethPArp → IsArpRequestOrReply frame (networkOffset frame)) ∧
    (frameType frame = ethPIpv6 → ¬ HasOddNeighbour frame (networkOffset frame))

theorem linkLayer_tag : (linkLayer frame).1 = 0 ∨ (linkLayer frame).1 &&& vlanTagPresent ≠ 0 := by
  have present (x : BitVec 16) : (x ||| vlanTagPresent) &&& vlanTagPresent ≠ 0 := by
    intro none
    have bit := congrArg (fun y : BitVec 16 => y.getLsbD 12) none
    simp [vlanTagPresent] at bit
  rw [linkLayer]
  split_ifs
  · rw [parseVlan]
    split_ifs
    · exact .inl rfl
    · exact .inr (present _)
  · exact .inl rfl

variable (priority : BitVec 32) (tunId : BitVec 64) (inPort : BitVec 16)

def linkKey : SwFlowKey :=
  { tunId, priority, inPort, ethSrc := be48 frame 6, ethDst := be48 frame 0,
    tci := (linkLayer frame).1, type := frameType frame }

theorem ovsFlowExtract_eq :
    ovsFlowExtract frame priority tunId inPort =
      let key := linkKey frame priority tunId inPort
      let nh := networkOffset frame
      if frameType frame = 0 then none
      else if frameType frame = ethPIp then
        let (ip, ipv4, keyLen, th) := extractIpv4 frame nh
        some ⟨{ key with ip, ipv4 }, keyLen, nh, some th⟩
      else if frameType frame = ethPArp ∧ arphdrOk frame nh then
        let (ip, ipv4, keyLen) := extractArp frame nh
        some ⟨{ key with ip, ipv4 }, keyLen, nh, none⟩
      else if frameType frame = ethPIpv6 then
        let (ip, ipv6, keyLen, th) := extractIpv6 frame nh
        some ⟨{ key with ip, ipv6 }, keyLen, nh, some th⟩
      else some ⟨key, .eth, nh, none⟩ := by
  simp only [ovsFlowExtract, linkLayer_snd, parseEthertype_eq, linkKey]

theorem ovsFlowExtract_eq_none_iff :
    ovsFlowExtract frame priority tunId inPort = none ↔ frameType frame = 0 := by
  simp only [ovsFlowExtract_eq]
  split_ifs <;> simp_all

variable {frame priority tunId inPort}

structure Extracted (frame : List Byte) (extraction : Extraction) : Prop where
  clean : extraction.key.Clean
  type : extraction.key.type = frameType frame
  len : extraction.keyLen = extraction.key.attrLen ↔ ShowsLength frame

section Types

variable (port : inPort.toNat < 65535)

include port

theorem extracted_ipv4 (isIpv4 : frameType frame = ethPIp) (th : Option Nat) :
    Extracted frame
      ⟨{ linkKey frame priority tunId inPort with
          ip := (extractIpv4 frame (networkOffset frame)).1
          ipv4 := (extractIpv4 frame (networkOffset frame)).2.1 },
        (extractIpv4 frame (networkOffset frame)).2.2.1, networkOffset frame, th⟩ := by
  obtain ⟨tp, noArp, frag, len⟩ := extractIpv4_extracted frame (networkOffset frame)
  have notIpv6 : frameType frame ≠ ethPIpv6 := by rw [isIpv4]; decide
  have notArp : frameType frame ≠ ethPArp := by rw [isIpv4]; decide
  refine ⟨⟨port, linkLayer_tag frame, frag, fun _ => ⟨tp, noArp.1, noArp.2, rfl⟩,
    fun isIpv6 => absurd isIpv6 notIpv6, fun isArp => absurd isArp notArp,
    fun other => absurd isIpv4 other⟩, rfl, ?_⟩
  have attrLen : SwFlowKey.attrLen { linkKey frame priority tunId inPort with
      ip := (extractIpv4 frame (networkOffset frame)).1
      ipv4 := (extractIpv4 frame (networkOffset frame)).2.1 } =
      (extractIpv4 frame (networkOffset frame)).1.tpLen ipprotoIcmp .ipv4Addr .ipv4Tp :=
    if_pos isIpv4
  rw [attrLen]
  exact iff_of_true len ⟨fun isArp => absurd isArp notArp, fun isIpv6 => absurd isIpv6 notIpv6⟩

theorem extracted_ipv6 (isIpv6 : frameType frame = ethPIpv6) (th : Option Nat) :
    Extracted frame
      ⟨{ linkKey frame priority tunId inPort with
          ip := (extractIpv6 frame (networkOffset frame)).1
          ipv6 := (extractIpv6 frame (networkOffset frame)).2.1 },
        (extractIpv6 frame (networkOffset frame)).2.2.1, networkOffset frame, th⟩ := by
  obtain ⟨tp, noNd, frag⟩ := extractIpv6_extracted frame (networkOffset frame)
  have notIpv4 : frameType frame ≠ ethPIp := by rw [isIpv6]; decide
  have notArp : frameType frame ≠ ethPArp := by rw [isIpv6]; decide
  refine ⟨⟨port, linkLayer_tag frame, frag, fun isIpv4 => absurd isIpv4 notIpv4,
    fun _ => ⟨tp, rfl, noNd⟩, fun isArp => absurd isArp notArp,
    fun _ other => absurd isIpv6 other⟩, rfl, ?_⟩
  have attrLen : SwFlowKey.attrLen { linkKey frame priority tunId inPort with
      ip := (extractIpv6 frame (networkOffset frame)).1
      ipv6 := (extractIpv6 frame (networkOffset frame)).2.1 } =
      ipv6AttrLen (extractIpv6 frame (networkOffset frame)).1
        (extractIpv6 frame (networkOffset frame)).2.1 :=
    (if_neg notIpv4).trans (if_pos isIpv6)
  rw [attrLen, extractIpv6_len_iff]
  exact ⟨fun even => ⟨fun isArp => absurd isArp notArp, fun _ => even⟩, fun shows => shows.2 isIpv6⟩

theorem extracted_arp (isArp : frameType frame = ethPArp)
    (complete : arphdrOk frame (networkOffset frame)) :
    Extracted frame
      ⟨{ linkKey frame priority tunId inPort with
          ip := (extractArp frame (networkOffset frame)).1
          ipv4 := (extractArp frame (networkOffset frame)).2.1 },
        (extractArp frame (networkOffset frame)).2.2, networkOffset frame, none⟩ := by
  obtain ⟨onlyProto, noTp⟩ := extractArp_extracted frame (networkOffset frame)
  have notIpv4 : frameType frame ≠ ethPIp := by rw [isArp]; decide
  have notIpv6 : frameType frame ≠ ethPIpv6 := by rw [isArp]; decide
  have frag : (extractArp frame (networkOffset frame)).1.frag.toNat ≤ 2 := by
    rw [onlyProto]
    exact Nat.zero_le _
  refine ⟨⟨port, linkLayer_tag frame, frag, fun isIpv4 => absurd isIpv4 notIpv4,
    fun isIpv6 => absurd isIpv6 notIpv6, fun _ => ⟨onlyProto, noTp.1, noTp.2, rfl⟩,
    fun _ _ other => absurd isArp other⟩, rfl, ?_⟩
  have attrLen : SwFlowKey.attrLen { linkKey frame priority tunId inPort with
      ip := (extractArp frame (networkOffset frame)).1
      ipv4 := (extractArp frame (networkOffset frame)).2.1 } = .ipv4Arp :=
    (if_neg notIpv4).trans ((if_neg notIpv6).trans (if_pos isArp))
  rw [attrLen, extractArp_len_iff]
  refine ⟨fun regular => ⟨fun _ => ⟨complete, regular⟩, fun isIpv6 => absurd isIpv6 notIpv6⟩, ?_⟩
  exact fun shows => (shows.1 isArp).2

theorem extracted_other (notIpv4 : frameType frame ≠ ethPIp) (notIpv6 : frameType frame ≠ ethPIpv6)
    (notArp : ¬ (frameType frame = ethPArp ∧ arphdrOk frame (networkOffset frame))) :
    Extracted frame ⟨linkKey frame priority tunId inPort, .eth, networkOffset frame, none⟩ := by
  refine ⟨⟨port, linkLayer_tag frame, Nat.zero_le _, fun isIpv4 => absurd isIpv4 notIpv4,
    fun isIpv6 => absurd isIpv6 notIpv6, fun _ => ⟨rfl, rfl, rfl, rfl⟩,
    fun _ _ _ => ⟨rfl, rfl, rfl⟩⟩, rfl, ?_⟩
  have attrLen : (linkKey frame priority tunId inPort).attrLen =
      if frameType frame = ethPArp then .ipv4Arp else .eth :=
    (if_neg notIpv4).trans (if_neg notIpv6)
  rw [attrLen]
  by_cases isArp : frameType frame = ethPArp
  · rw [if_pos isArp]
    exact iff_of_false (fun same => nomatch same) fun shows => notArp ⟨isArp, (shows.1 isArp).1⟩
  · rw [if_neg isArp]
    exact iff_of_true rfl ⟨fun is => absurd is isArp, fun isIpv6 => absurd isIpv6 notIpv6⟩

theorem extracted_of_ovsFlowExtract {extraction : Extraction}
    (found : ovsFlowExtract frame priority tunId inPort = some extraction) :
    Extracted frame extraction := by
  simp only [ovsFlowExtract_eq] at found
  split_ifs at found with zero isIpv4 isArp isIpv6
  · exact Option.some.inj found ▸ extracted_ipv4 port isIpv4 _
  · exact Option.some.inj found ▸ extracted_arp port isArp.1 isArp.2
  · exact Option.some.inj found ▸ extracted_ipv6 port isIpv6 _
  · exact Option.some.inj found ▸ extracted_other port isIpv4 isIpv6 isArp

end Types

end Packet
end LazyCtrl
