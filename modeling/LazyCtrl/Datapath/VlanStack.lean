import LazyCtrl.Datapath.Actions

/-!
# The stack of VLAN tags of a packet

A packet carries its innermost tags in the frame and the outermost one outside it.  This file counts
the tags that `pop_vlan` can still remove and the bytes the frame takes on the wire, and says how
the functions of the datapath change both.  Headers behind the tags move with them.
-/

namespace LazyCtrl

open Bytes

def vlanHeaders : List Byte → Nat
  | a :: b :: _ :: _ :: c :: d :: rest =>
    if a ++ b = ethP8021Q then vlanHeaders (c :: d :: rest) + 1 else 0
  | _ => 0

theorem vlanHeaders_eq (bytes : List Byte) :
    vlanHeaders bytes =
      if be16 bytes 0 = ethP8021Q ∧ 6 ≤ bytes.length then vlanHeaders (bytes.drop 4) + 1 else 0 := by
  match bytes with
  | a :: b :: c :: d :: e :: f :: rest =>
    rw [vlanHeaders]
    simp [be16, u8]
  | [] | [_] | [_, _] | [_, _, _] | [_, _, _, _] | [_, _, _, _, _] => simp [vlanHeaders]

theorem vlanHeaders_of_keepsFront {n : Nat} {old new : List Byte} (keeps : KeepsFront n old new)
    (covers : 4 * vlanHeaders old + 2 ≤ n) : vlanHeaders new = vlanHeaders old := by
  induction count : vlanHeaders old generalizing n old new with
  | zero =>
    have none : ¬ (be16 old 0 = ethP8021Q ∧ 6 ≤ old.length) := fun tagged => by
      rw [vlanHeaders_eq, if_pos tagged] at count
      exact Nat.succ_ne_zero _ count
    rw [vlanHeaders_eq, keeps.be16_eq (by omega), keeps.1, if_neg none]
  | succ k ih =>
    have tagged : be16 old 0 = ethP8021Q ∧ 6 ≤ old.length := by
      by_contra none
      rw [vlanHeaders_eq, if_neg none] at count
      exact Nat.succ_ne_zero _ count.symm
    have rest : vlanHeaders (old.drop 4) = k := by
      rw [vlanHeaders_eq, if_pos tagged] at count
      exact Nat.succ.inj count
    obtain ⟨m, rfl⟩ : ∃ m, n = 4 + m := ⟨n - 4, by omega⟩
    rw [vlanHeaders_eq, keeps.be16_eq (by omega), keeps.1, if_pos tagged,
      ih keeps.drop (by omega) rest]

def Skb.frontTags (skb : Skb) : Nat := vlanHeaders (skb.data.drop 12)

def Skb.poppable (skb : Skb) : Nat :=
  if hasVlanHeader skb then vlanHeaders (skb.data.drop 16) + 1 else 0

def Skb.pops (skb : Skb) : Nat := skb.poppable + if vlanTxTagPresent skb then 1 else 0

def Skb.wireLen (skb : Skb) : Nat := skb.data.length + if vlanTxTagPresent skb then 4 else 0

theorem Skb.pops_tagged {skb : Skb} (tagged : vlanTxTagPresent skb = true) :
    skb.pops = skb.poppable + 1 := by
  rw [Skb.pops, if_pos tagged]

theorem Skb.wireLen_tagged {skb : Skb} (tagged : vlanTxTagPresent skb = true) :
    skb.wireLen = skb.data.length + 4 := by
  rw [Skb.wireLen, if_pos tagged]

theorem Skb.pops_untagged {skb : Skb} (untagged : vlanTxTagPresent skb = false) :
    skb.pops = skb.poppable := by
  rw [Skb.pops, untagged]
  rfl

theorem Skb.wireLen_untagged {skb : Skb} (untagged : vlanTxTagPresent skb = false) :
    skb.wireLen = skb.data.length := by
  rw [Skb.wireLen, untagged]
  rfl

theorem hasVlanHeader_iff {skb : Skb} :
    hasVlanHeader skb = true ↔ skb.protocol = ethP8021Q ∧ 18 ≤ skb.data.length := by
  rw [hasVlanHeader, decide_eq_true_iff]
  rfl

theorem vlanSetEncapProto_iff (proto : BitVec 16) (data : List Byte) :
    vlanSetEncapProto proto data = ethP8021Q ↔ proto = ethP8021Q := by
  rw [vlanSetEncapProto]
  split
  · rfl
  · have small : proto ≠ ethP8021Q := by
      rintro rfl
      exact absurd (by decide) ‹¬ 1536 ≤ ethP8021Q.toNat›
    have others : ethP8023 ≠ ethP8021Q ∧ ethP8022 ≠ ethP8021Q := by decide
    split
    · exact iff_of_false others.1 small
    · exact iff_of_false others.2 small

section PopVlanTci

variable {skb : Skb} (long : 18 ≤ skb.data.length)

include long

theorem popVlanTci_length : (popVlanTci skb).1.data.length + 4 = skb.data.length := by
  simp only [popVlanTci, skbResetMacLen, List.length_append, List.length_take, List.length_drop]
  omega

theorem popVlanTci_drop : (popVlanTci skb).1.data.drop 12 = skb.data.drop 16 := by
  have front : (skb.data.take 12).length = 12 := by
    rw [List.length_take]
    omega
  exact List.drop_left' front

theorem popVlanTci_frontTags : (popVlanTci skb).1.frontTags = vlanHeaders (skb.data.drop 16) := by
  rw [Skb.frontTags, popVlanTci_drop long]

theorem popVlanTci_poppable : (popVlanTci skb).1.poppable = vlanHeaders (skb.data.drop 16) := by
  have length := popVlanTci_length long
  have next : (popVlanTci skb).1.data.drop 16 = (skb.data.drop 16).drop 4 := by
    rw [← popVlanTci_drop long, List.drop_drop]
  have guard : hasVlanHeader (popVlanTci skb).1 = true ↔
      be16 (skb.data.drop 16) 0 = ethP8021Q ∧ 6 ≤ (skb.data.drop 16).length := by
    rw [hasVlanHeader_iff, be16_drop, List.length_drop]
    have proto := vlanSetEncapProto_iff (be16 skb.data 16) (popVlanTci skb).1.data
    constructor
    · rintro ⟨type, left⟩
      exact ⟨proto.mp type, by omega⟩
    · rintro ⟨type, left⟩
      exact ⟨proto.mpr type, by omega⟩
  rw [Skb.poppable, vlanHeaders_eq (skb.data.drop 16), next]
  simp only [guard]

end PopVlanTci

section VlanPutTag

variable {skb : Skb} (long : 14 ≤ skb.data.length) (tci : BitVec 16)

include long

theorem vlanPutTag_length : (vlanPutTag skb tci).data.length = skb.data.length + 4 := by
  simp only [vlanPutTag, List.length_append, List.length_take, List.length_drop, length_put16]
  omega

theorem vlanPutTag_drop :
    (vlanPutTag skb tci).data.drop 12 = put16 ethP8021Q ++ (put16 tci ++ skb.data.drop 12) := by
  have front : (skb.data.take 12).length = 12 := by
    rw [List.length_take]
    omega
  simp only [vlanPutTag, List.append_assoc]
  exact List.drop_left' front

theorem vlanPutTag_frontTags : (vlanPutTag skb tci).frontTags = skb.frontTags + 1 := by
  rw [Skb.frontTags, vlanPutTag_drop long, vlanHeaders_eq, if_pos]
  · rfl
  · refine ⟨be16_put16 [] _ ethP8021Q, ?_⟩
    simp only [List.length_append, length_put16, List.length_drop]
    omega

theorem vlanPutTag_poppable : (vlanPutTag skb tci).poppable = skb.frontTags + 1 := by
  have next : (vlanPutTag skb tci).data.drop 16 = skb.data.drop 12 := by
    rw [show 16 = 12 + 4 from rfl, ← List.drop_drop, vlanPutTag_drop long]
    rfl
  have tagged : hasVlanHeader (vlanPutTag skb tci) = true := by
    rw [hasVlanHeader_iff, vlanPutTag_length long]
    exact ⟨rfl, by omega⟩
  rw [Skb.poppable, if_pos tagged, next, Skb.frontTags]

end VlanPutTag

def Skb.tags (skb : Skb) : Nat := max skb.frontTags skb.poppable

structure Skb.Reserved (skb : Skb) (ofs : Int) (n : Nat) : Prop where
  behind : 14 + 4 * (skb.tags : Int) ≤ ofs
  inside : ofs + n ≤ skb.data.length

structure Moves (shift : Int) (old new : Skb) : Prop where
  mac : new.macHeader = old.macHeader
  network : new.networkHeader = old.networkHeader + shift
  transport : new.transportHeader = old.transportHeader + shift
  length : (new.data.length : Int) = old.data.length + shift
  tags : 4 * (new.tags : Int) ≤ 4 * old.tags + shift

theorem Moves.reserved {shift ofs : Int} {old new : Skb} {n : Nat} (moves : Moves shift old new)
    (reserved : old.Reserved ofs n) : new.Reserved (ofs + shift) n := by
  have length := moves.length
  have tags := moves.tags
  have behind := reserved.behind
  have inside := reserved.inside
  constructor <;> omega

/-- An operation on the tags leaves a full frame, moves the headers, and keeps the protocol in step
with the tags in both directions. -/
structure Retags (old new : Skb) : Prop where
  long : 14 ≤ new.data.length
  moves : ∃ shift, Moves shift old new
  sees : old.frontTags ≤ old.poppable → new.frontTags ≤ new.poppable
  has : old.poppable ≤ old.frontTags → new.poppable ≤ new.frontTags

theorem Retags.trans {old mid new : Skb} (first : Retags old mid) (second : Retags mid new) :
    Retags old new := by
  obtain ⟨shift, moves⟩ := first.moves
  obtain ⟨more, again⟩ := second.moves
  refine ⟨second.long, ⟨shift + more, ?_⟩, fun sees => second.sees (first.sees sees),
    fun has => second.has (first.has has)⟩
  have length := moves.length
  have tags := moves.tags
  have moreLength := again.length
  have moreTags := again.tags
  exact ⟨again.mac.trans moves.mac, by rw [again.network, moves.network, Int.add_assoc],
    by rw [again.transport, moves.transport, Int.add_assoc], by omega, by omega⟩

theorem retags_metadata {skb : Skb} (long : 14 ≤ skb.data.length) (tci : BitVec 16)
    (priority : BitVec 32) (tunId : BitVec 64) :
    Retags skb { skb with vlanTci := tci, priority, tunId } :=
  ⟨long, ⟨0, rfl, (Int.add_zero _).symm, (Int.add_zero _).symm, (Int.add_zero _).symm,
    (Int.add_zero _).ge⟩, id, id⟩

theorem Retags.refl {skb : Skb} (long : 14 ≤ skb.data.length) : Retags skb skb :=
  retags_metadata long skb.vlanTci skb.priority skb.tunId

theorem Retags.putTag {old new : Skb} (retags : Retags old new) (tci : BitVec 16) :
    Retags old { new with vlanTci := tci } :=
  retags.trans (retags_metadata retags.long tci new.priority new.tunId)

theorem retags_popVlanTci {skb : Skb} (tagged : hasVlanHeader skb = true) :
    Retags skb (popVlanTci skb).1 := by
  have long := (hasVlanHeader_iff.mp tagged).2
  have length := popVlanTci_length long
  have front := popVlanTci_frontTags long
  have poppable := popVlanTci_poppable long
  have before : skb.poppable = vlanHeaders (skb.data.drop 16) + 1 := if_pos tagged
  have tags : (popVlanTci skb).1.tags + 1 = skb.poppable := by
    rw [Skb.tags, front, poppable, max_self, before]
  have bound : skb.poppable ≤ skb.tags := le_max_right _ _
  refine ⟨by omega, ⟨-4, rfl, rfl, rfl, by omega, by omega⟩, fun _ => ?_, fun _ => ?_⟩
  · rw [front, poppable]
  · rw [front, poppable]

theorem retags_vlanPutTag {skb : Skb} (long : 14 ≤ skb.data.length) (tci : BitVec 16) :
    Retags skb (vlanPutTag skb tci) := by
  have length := vlanPutTag_length long tci
  have front := vlanPutTag_frontTags long tci
  have poppable := vlanPutTag_poppable long tci
  have tags : (vlanPutTag skb tci).tags = skb.frontTags + 1 := by
    rw [Skb.tags, front, poppable, max_self]
  have bound : skb.frontTags ≤ skb.tags := le_max_left _ _
  refine ⟨by omega, ⟨4, rfl, rfl, rfl, by omega, by omega⟩, fun _ => ?_, fun _ => ?_⟩
  · rw [front, poppable]
  · rw [front, poppable]

theorem vlanTxTagPresent_put (skb : Skb) (tci : BitVec 16) :
    vlanTxTagPresent (vlanHwaccelPutTag skb tci) = true := by
  have bit : ((vlanTagPresent ||| tci) &&& vlanTagPresent).getLsbD 12 = true := by
    simp [vlanTagPresent]
  rw [vlanTxTagPresent, decide_eq_true_iff]
  intro zero
  rw [show (vlanTagPresent ||| tci) &&& vlanTagPresent = 0 from zero] at bit
  exact Bool.false_ne_true bit

theorem acceleratedTag_spec {skb : Skb} (long : 14 ≤ skb.data.length)
    (untagged : vlanTxTagPresent skb = false) :
    Retags skb (acceleratedTag skb) ∧ (acceleratedTag skb).wireLen = skb.wireLen ∧
      (acceleratedTag skb).pops = skb.pops := by
  rw [Skb.wireLen_untagged untagged, Skb.pops_untagged untagged]
  by_cases header : hasVlanHeader skb = true
  · have headerLong := (hasVlanHeader_iff.mp header).2
    have popped := retags_popVlanTci header
    have result : acceleratedTag skb = vlanHwaccelPutTag (popVlanTci skb).1 (popVlanTci skb).2 := by
      rw [acceleratedTag, if_pos header]
    have tagged := vlanTxTagPresent_put (popVlanTci skb).1 (popVlanTci skb).2
    have before : skb.poppable = vlanHeaders (skb.data.drop 16) + 1 := if_pos header
    rw [result, Skb.wireLen_tagged tagged, Skb.pops_tagged tagged, before]
    exact ⟨popped.putTag _, popVlanTci_length headerLong,
      congrArg (· + 1) (popVlanTci_poppable headerLong)⟩
  · have result : acceleratedTag skb = skb := by rw [acceleratedTag, if_neg header]
    rw [result]
    exact ⟨.refl long, Skb.wireLen_untagged untagged,
      Skb.pops_untagged untagged⟩

theorem popVlan_spec {skb : Skb} (long : 14 ≤ skb.data.length) :
    Retags skb (popVlan skb) ∧ (popVlan skb).pops = skb.pops - 1 ∧
      (popVlan skb).wireLen + 4 * min 1 skb.pops = skb.wireLen := by
  by_cases tagged : vlanTxTagPresent skb = true
  · -- The tag outside the frame goes.
    set bare : Skb := { skb with vlanTci := 0 } with bareDef
    have untagged : vlanTxTagPresent bare = false := by simp [bareDef, vlanTxTagPresent]
    have result : popVlan skb = acceleratedTag bare := by rw [popVlan, if_pos tagged]
    obtain ⟨retags, wireLen, pops⟩ := acceleratedTag_spec (show 14 ≤ bare.data.length from long)
      untagged
    rw [result, wireLen, pops, Skb.wireLen_untagged untagged, Skb.pops_untagged untagged,
      Skb.wireLen_tagged tagged, Skb.pops_tagged tagged, Nat.min_eq_left (by omega)]
    exact ⟨((Retags.refl long).putTag 0).trans retags, rfl, rfl⟩
  · have untagged : vlanTxTagPresent skb = false := Bool.eq_false_iff.mpr tagged
    rw [Skb.wireLen_untagged untagged, Skb.pops_untagged untagged]
    by_cases header : hasVlanHeader skb = true
    · -- The outermost tag of the frame goes, and the next one moves out.
      have result : popVlan skb = acceleratedTag (popVlanTci skb).1 := by
        rw [popVlan, if_neg tagged, if_pos header]
      have headerLong := (hasVlanHeader_iff.mp header).2
      have popped := retags_popVlanTci header
      have still : vlanTxTagPresent (popVlanTci skb).1 = false := untagged
      obtain ⟨retags, wireLen, pops⟩ := acceleratedTag_spec popped.long still
      have before : skb.poppable = vlanHeaders (skb.data.drop 16) + 1 := if_pos header
      rw [result, wireLen, pops, Skb.wireLen_untagged still, Skb.pops_untagged still,
        popVlanTci_poppable headerLong, before, Nat.min_eq_left (by omega)]
      exact ⟨popped.trans retags, rfl, popVlanTci_length headerLong⟩
    · have result : popVlan skb = skb := by rw [popVlan, if_neg tagged, if_neg header]
      have none : skb.poppable = 0 := if_neg header
      rw [result, Skb.wireLen_untagged untagged, Skb.pops_untagged untagged, none]
      exact ⟨.refl long, rfl, rfl⟩

theorem pushVlan_spec {skb : Skb} (long : 14 ≤ skb.data.length) (tci : BitVec 16) :
    Retags skb (pushVlan skb tci) ∧ (pushVlan skb tci).wireLen = skb.wireLen + 4 ∧
      (skb.frontTags ≤ skb.poppable → (pushVlan skb tci).pops ≤ skb.pops + 1) ∧
        (skb.poppable ≤ skb.frontTags → skb.pops + 1 ≤ (pushVlan skb tci).pops) := by
  by_cases tagged : vlanTxTagPresent skb = true
  · set inner := vlanPutTag skb (vlanTxTagGet skb) with innerDef
    have result : pushVlan skb tci = vlanHwaccelPutTag inner (tci &&& ~~~vlanTagPresent) := by
      rw [pushVlan, if_pos tagged]
    have put : Retags skb inner := retags_vlanPutTag long (vlanTxTagGet skb)
    have still := vlanTxTagPresent_put inner (tci &&& ~~~vlanTagPresent)
    have pops : (pushVlan skb tci).pops = skb.frontTags + 1 + 1 := by
      rw [result, Skb.pops_tagged still]
      exact congrArg (· + 1) (vlanPutTag_poppable long (vlanTxTagGet skb))
    rw [pops, Skb.pops_tagged tagged, result, Skb.wireLen_tagged still, Skb.wireLen_tagged tagged]
    exact ⟨put.putTag _,
      congrArg (· + 4) (vlanPutTag_length long (vlanTxTagGet skb)), fun sees => by omega,
      fun has => by omega⟩
  · have untagged : vlanTxTagPresent skb = false := Bool.eq_false_iff.mpr tagged
    have result : pushVlan skb tci = vlanHwaccelPutTag skb (tci &&& ~~~vlanTagPresent) := by
      rw [pushVlan, if_neg tagged]
    have still := vlanTxTagPresent_put skb (tci &&& ~~~vlanTagPresent)
    rw [result, Skb.pops_tagged still, Skb.wireLen_tagged still, Skb.pops_untagged untagged,
      Skb.wireLen_untagged untagged]
    exact ⟨(Retags.refl long).putTag _, rfl, fun _ => le_rfl, fun _ => le_rfl⟩

theorem retags_data {skb : Skb} {data : List Byte} (long : 14 ≤ skb.data.length)
    (length : data.length = skb.data.length)
    (keeps : KeepsFront (2 + 4 * skb.tags) (skb.data.drop 12) (data.drop 12)) :
    Retags skb { skb with data } ∧ { skb with data }.wireLen = skb.wireLen ∧
      { skb with data }.pops = skb.pops := by
  have frontBound : skb.frontTags ≤ skb.tags := le_max_left _ _
  have popBound : skb.poppable ≤ skb.tags := le_max_right _ _
  have front : { skb with data }.frontTags = skb.frontTags :=
    vlanHeaders_of_keepsFront keeps (show 4 * skb.frontTags + 2 ≤ _ by omega)
  have poppable : { skb with data }.poppable = skb.poppable := by
    have header : hasVlanHeader { skb with data } = hasVlanHeader skb := by
      simp only [hasVlanHeader, length]
    simp only [Skb.poppable, header] at popBound ⊢
    split at popBound
    · obtain ⟨more, tagsEq⟩ : ∃ more, 2 + 4 * skb.tags = 4 + (2 + 4 * more) :=
        ⟨skb.tags - 1, by omega⟩
      rw [tagsEq] at keeps
      have next := keeps.drop
      simp only [List.drop_drop, Nat.reduceAdd] at next
      rw [if_pos ‹_›, if_pos ‹_›, vlanHeaders_of_keepsFront next (by omega)]
    · rw [if_neg ‹_›, if_neg ‹_›]
  have tags : { skb with data }.tags = skb.tags := by rw [Skb.tags, Skb.tags, front, poppable]
  refine ⟨⟨by rw [← length] at long; exact long, ⟨0, rfl, (Int.add_zero _).symm,
    (Int.add_zero _).symm, by simp [length], by rw [tags]; omega⟩, ?_, ?_⟩, ?_, ?_⟩
  · rw [front, poppable]
    exact id
  · rw [front, poppable]
    exact id
  · simp only [Skb.wireLen, length]
    rfl
  · rw [Skb.pops, Skb.pops, poppable]
    rfl

section SetFields

variable {n nh th : Nat} {data : List Byte} (summed : CsumType)

theorem setIpAddrTransport_keepsFront (nh : Nat) (behind : n ≤ th) (inside : th ≤ data.length)
    (old new : BitVec 32) :
    KeepsFront n data (setIpAddrTransport summed data nh th old new) := by
  rw [setIpAddrTransport]
  refine KeepsFront.ite (fun _ => .ite (fun long => ?_) fun _ => .refl n data) fun _ =>
    .ite (fun _ => .ite (fun long => .ite (fun _ => ?_) fun _ => .refl n data) fun _ =>
      .refl n data) fun _ => .refl n data
  · exact (KeepsFront.refl n data).patch _ (by omega) (by rw [length_put16]; omega)
  · exact (KeepsFront.refl n data).patch _ (by omega) (by rw [length_put16]; omega)

theorem setIpAddr_keepsFront {addr : Nat} (behind : n ≤ nh) (inside : nh + 20 ≤ data.length)
    (transportBehind : n ≤ th) (transportInside : th ≤ data.length) (field : nh ≤ addr)
    (fieldInside : addr + 4 ≤ nh + 20) (new : BitVec 32) :
    KeepsFront n data (setIpAddr summed data nh th addr new) := by
  have transport := setIpAddrTransport_keepsFront summed nh transportBehind transportInside
    (be32 data addr) new
  have check := transport.patch (put16 (csumReplace4 (be16 (setIpAddrTransport summed data nh th
    (be32 data addr) new) (nh + 10)) (be32 data addr) new)) (show n ≤ nh + 10 by omega)
    (by rw [length_put16]; omega)
  exact check.patch _ (by omega) (by rw [length_put32]; omega)

theorem ipv4ChangeDsfield_keepsFront (behind : n ≤ nh) (inside : nh + 20 ≤ data.length)
    (dsfield : Byte) : KeepsFront n data (ipv4ChangeDsfield data nh dsfield) := by
  rw [ipv4ChangeDsfield]
  refine ((KeepsFront.refl n data).patch _ (by omega) ?_).patch _ (by omega) ?_
  · rw [length_put16]
    omega
  · rw [List.length_singleton]
    omega

theorem setIpTtl_keepsFront (behind : n ≤ nh) (inside : nh + 20 ≤ data.length) (ttl : Byte) :
    KeepsFront n data (setIpTtl data nh ttl) := by
  rw [setIpTtl]
  refine ((KeepsFront.refl n data).patch _ (by omega) ?_).patch _ (by omega) ?_
  · rw [length_put16]
    omega
  · rw [List.length_singleton]
    omega

theorem setTpPort_keepsFront {port check : Nat} (behind : n ≤ port) (inside : port + 2 ≤ data.length)
    (checkBehind : n ≤ check) (checkInside : check + 2 ≤ data.length) (new : BitVec 16) :
    KeepsFront n data (setTpPort summed data port check new) := by
  rw [setTpPort]
  refine ((KeepsFront.refl n data).patch _ checkBehind ?_).patch _ behind ?_
  · exact checkInside
  · exact inside

theorem setUdpPort_keepsFront {uh port : Nat} (behind : n ≤ uh) (inside : uh + 8 ≤ data.length)
    (field : uh ≤ port) (fieldInside : port + 2 ≤ uh + 8) (new : BitVec 16) :
    KeepsFront n data (setUdpPort summed data uh port new) := by
  rw [setUdpPort]
  have keeps : KeepsFront n data (setTpPort summed data port (uh + 6) new) :=
    setTpPort_keepsFront summed (by omega) (by omega) (by omega) (by omega) new
  refine KeepsFront.ite (fun _ => .ite (fun _ => ?_) fun _ => keeps) fun _ => ?_
  · exact keeps.patch _ (by omega) (by rw [length_put16]; omega)
  · exact (KeepsFront.refl n data).patch _ (by omega) (by rw [length_put16]; omega)

end SetFields

section SetActions

variable {skb : Skb}

theorem Skb.Reserved.header {ofs : Int} {n : Nat} (reserved : skb.Reserved ofs n) :
    ∃ k : Nat, skb.header ofs n = some k ∧ 14 + 4 * skb.tags ≤ k ∧ k + n ≤ skb.data.length := by
  have behind := reserved.behind
  have inside := reserved.inside
  obtain ⟨k, rfl⟩ := Int.eq_ofNat_of_zero_le (show 0 ≤ ofs by omega)
  exact ⟨k, Skb.header_eq (by omega), by omega, by omega⟩

def SetsFields (skb : Skb) (result : Option Skb) : Prop :=
  ∃ data, result = some { skb with data } ∧ data.length = skb.data.length ∧
    KeepsFront (2 + 4 * skb.tags) (skb.data.drop 12) (data.drop 12)

theorem setsFields_of_keepsFront {data : List Byte}
    (keeps : KeepsFront (14 + 4 * skb.tags) skb.data data) :
    SetsFields skb (some { skb with data }) :=
  ⟨data, rfl, keeps.1, .drop (by rwa [← Nat.add_assoc])⟩

theorem setEthAddr_spec (mac : skb.macHeader = 0) (long : 14 ≤ skb.data.length)
    (src dst : Fin 6 → Byte) : SetsFields skb (setEthAddr skb src dst) := by
  have header : skb.header skb.macHeader ethHlen = some 0 := by
    rw [mac]
    exact Skb.header_eq (show 0 + 14 ≤ _ by omega)
  set first := patch skb.data 6 (List.ofFn src) with firstDef
  have firstLen : first.length = skb.data.length :=
    length_patch (by rw [List.length_ofFn]; omega)
  have firstDrop : first.drop 12 = skb.data.drop 12 :=
    drop_patch (by rw [List.length_ofFn]) (by omega)
  set second := patch first 0 (List.ofFn dst) with secondDef
  have secondLen : second.length = skb.data.length := by
    rw [secondDef, length_patch (by rw [List.length_ofFn]; omega), firstLen]
  have secondDrop : second.drop 12 = skb.data.drop 12 := by
    rw [secondDef, drop_patch (by rw [List.length_ofFn]; omega) (by omega), firstDrop]
  refine ⟨second, ?_, secondLen, ?_⟩
  · rw [setEthAddr, header]
    rfl
  · rw [secondDrop]
    exact .refl _ _

theorem setIpv4_spec (network : skb.Reserved skb.networkHeader 20)
    (transport : skb.Reserved skb.transportHeader 0) (key : OvsKeyIpv4) :
    SetsFields skb (setIpv4 skb key) := by
  obtain ⟨nh, nhEq, nhBehind, nhInside⟩ := network.header
  obtain ⟨th, thEq, thBehind, thInside⟩ := transport.header
  rw [setIpv4, nhEq, thEq]
  apply setsFields_of_keepsFront
  refine .thenIte (.thenIte (.thenIte (.thenIte (.refl _ _) fun _ => ?_) fun len => ?_)
    fun len => ?_) fun len => ?_
  · exact setIpAddr_keepsFront _ nhBehind nhInside thBehind (by omega) (by omega) (by omega) _
  · exact setIpAddr_keepsFront _ nhBehind (by omega) thBehind (by omega) (by omega) (by omega) _
  · exact ipv4ChangeDsfield_keepsFront nhBehind (by omega) _
  · exact setIpTtl_keepsFront nhBehind (by omega) _

theorem setTcp_spec (transport : skb.Reserved skb.transportHeader 20) (src dst : BitVec 16) :
    SetsFields skb (setTcp skb src dst) := by
  obtain ⟨th, thEq, behind, inside⟩ := transport.header
  rw [setTcp, thEq]
  apply setsFields_of_keepsFront
  refine .thenIte (.thenIte (.refl _ _) fun _ => ?_) fun len => ?_
  · exact setTpPort_keepsFront _ behind (by omega) (by omega) (by omega) _
  · exact setTpPort_keepsFront _ (by omega) (by omega) (by omega) (by omega) _

theorem setUdp_spec (transport : skb.Reserved skb.transportHeader 8) (src dst : BitVec 16) :
    SetsFields skb (setUdp skb src dst) := by
  obtain ⟨uh, uhEq, behind, inside⟩ := transport.header
  rw [setUdp, uhEq]
  apply setsFields_of_keepsFront
  refine .thenIte (.thenIte (.refl _ _) fun _ => ?_) fun len => ?_
  · exact setUdpPort_keepsFront _ behind inside (by omega) (by omega) _
  · exact setUdpPort_keepsFront _ behind (by omega) (by omega) (by omega) _

end SetActions

section Encapsulation

variable (dp : Datapath) {skb : Skb} (dstIp : BitVec 32) (long : 14 ≤ skb.data.length)

include long

theorem encapulate_frontTags : (encapulate dp skb dstIp).frontTags = 0 := by
  rw [Skb.frontTags, drop_encapulate dp dstIp long, vlanHeaders_eq, if_neg]
  rintro ⟨type, -⟩
  rw [show be16 (put16 ethPIp ++ _) 0 = ethPIp from be16_put16 [] _ ethPIp] at type
  exact absurd type (by decide)

/-- The protocol field of an encapsulated packet is still that of the inner frame, so `pop_vlan` may
take the outer type for a tag, and the total length behind it for another one. -/
theorem encapulate_poppable : (encapulate dp skb dstIp).poppable ≤ 2 := by
  have packet : (encapulate dp skb dstIp).data.drop 14 =
      remoteHeader dp (skb.data.length + 22) dstIp ++ (etherIphdr ++ skb.data) := by
    rw [show 14 = 12 + 2 from rfl, ← List.drop_drop, drop_encapulate dp dstIp long]
    rfl
  have fragment : be16 (((encapulate dp skb dstIp).data.drop 16).drop 4) 0 = 0 := by
    rw [List.drop_drop, be16_drop, show 16 + 4 + 0 = 14 + 6 from rfl, ← be16_drop, packet,
      be16_append_left _ (by simp), be16_remoteHeader]
  have last : vlanHeaders (((encapulate dp skb dstIp).data.drop 16).drop 4) = 0 := by
    rw [vlanHeaders_eq, if_neg]
    rintro ⟨type, -⟩
    rw [fragment] at type
    exact absurd type (by decide)
  have atMost : vlanHeaders ((encapulate dp skb dstIp).data.drop 16) ≤ 1 := by
    rw [vlanHeaders_eq, last]
    split <;> omega
  rw [Skb.poppable]
  split <;> omega

theorem moves_encapulate : Moves 36 skb (encapulate dp skb dstIp) := by
  have front := encapulate_frontTags dp dstIp long
  have poppable := encapulate_poppable dp dstIp long
  have length := length_encapulate dp dstIp long
  have tags : (encapulate dp skb dstIp).tags ≤ 2 := by
    rw [Skb.tags, front]
    exact max_le (by omega) poppable
  have headers := encapulate_eq dp dstIp long
  exact ⟨by rw [headers], by rw [headers], by rw [headers], by omega, by omega⟩

end Encapsulation

end LazyCtrl
