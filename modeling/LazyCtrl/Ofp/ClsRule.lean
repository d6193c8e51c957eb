import LazyCtrl.Ofp.Messages
import LazyCtrl.Packet.FlowExtract

/-!
# Rules of OpenFlow 1.0 matches

The switch turns a match into a rule, clears what packets of its type do not have, and turns the
rule into a match again when it reports the entry.  A rule has masks for the members of an
OpenFlow 1.0 match only: the other members of a flow are wildcarded and zero.
-/

namespace LazyCtrl

/-- `struct flow_wildcards`: the `FWW_*` bits, which wildcard a member, and the masks, whose bits
do not. -/
structure FlowWildcards where
  inPort : Bool
  dlType : Bool
  nwProto : Bool
  nwDscp : Bool
  nwSrcMask : BitVec 32
  nwDstMask : BitVec 32
  vlanTciMask : BitVec 16
  tpSrcMask : BitVec 16
  tpDstMask : BitVec 16
  dlSrcMask : BitVec 48
  dlDstMask : BitVec 48
  deriving DecidableEq, Repr

structure ClsRule where
  flow : Packet.Flow
  wc : FlowWildcards
  priority : Nat
  deriving DecidableEq, Repr

def ofputilWcbitsToNetmask (wcbits : BitVec 32) : BitVec 32 :=
  let wcbits := (wcbits &&& 0x3f).toNat
  if wcbits < 32 then ~~~((1 : BitVec 32) <<< wcbits - 1) else 0

def ctz (n : BitVec 32) : Nat := ((List.range 32).find? n.getLsbD).getD 32

def ipCountCidrBits (netmask : BitVec 32) : Nat := 32 - ctz netmask

def ofputilNetmaskToWcbits (netmask : BitVec 32) : Nat := 32 - ipCountCidrBits netmask

def ofputilWildcardFromOfpfw10 (ofpfw : BitVec 32) : FlowWildcards where
  inPort := ofpfw.getLsbD 0
  dlType := ofpfw.getLsbD 4
  nwProto := ofpfw.getLsbD 5
  nwDscp := ofpfw.getLsbD 21
  nwSrcMask := ofputilWcbitsToNetmask (ofpfw >>> 8)
  nwDstMask := ofputilWcbitsToNetmask (ofpfw >>> 14)
  tpSrcMask := if ofpfw.getLsbD 6 then 0 else 0xffff
  tpDstMask := if ofpfw.getLsbD 7 then 0 else 0xffff
  dlSrcMask := if ofpfw.getLsbD 2 then 0 else 0xffffffffffff
  dlDstMask := if ofpfw.getLsbD 3 then 0 else 0xffffffffffff
  vlanTciMask :=
    (if ofpfw.getLsbD 20 then 0 else 0xe000 ||| 0x1000) |||
      if ofpfw.getLsbD 1 then 0 else 0x0fff ||| 0x1000

def clsRuleZeroWildcardedFields (rule : ClsRule) : ClsRule :=
  { rule with flow := {
      nwSrc := rule.flow.nwSrc &&& rule.wc.nwSrcMask
      nwDst := rule.flow.nwDst &&& rule.wc.nwDstMask
      inPort := if rule.wc.inPort then 0 else rule.flow.inPort
      vlanTci := rule.flow.vlanTci &&& rule.wc.vlanTciMask
      dlType := if rule.wc.dlType then 0 else rule.flow.dlType
      tpSrc := rule.flow.tpSrc &&& rule.wc.tpSrcMask
      tpDst := rule.flow.tpDst &&& rule.wc.tpDstMask
      dlSrc := rule.flow.dlSrc &&& rule.wc.dlSrcMask
      dlDst := rule.flow.dlDst &&& rule.wc.dlDstMask
      nwProto := if rule.wc.nwProto then 0 else rule.flow.nwProto
      -- `FWW_NW_ECN` is always set.
      nwTos := (if rule.wc.nwDscp then rule.flow.nwTos &&& ~~~0xfc else rule.flow.nwTos) &&& ~~~3 } }

def ofputilDlTypeFromOpenflow (dlType : BitVec 16) : BitVec 16 :=
  if dlType = 0x05ff then Packet.flowDlTypeNone else dlType

def ofputilDlTypeToOpenflow (dlType : BitVec 16) : BitVec 16 :=
  if dlType = Packet.flowDlTypeNone then 0x05ff else dlType

def ofp10VlanNone : BitVec 16 := 0xffff

def vlanTciOf (dlVlan : BitVec 16) (dlVlanPcp : BitVec 8) : BitVec 16 :=
  let vid := dlVlan &&& 0x0fff
  let pcp := (dlVlanPcp.setWidth 16 <<< 13) &&& 0xe000
  vid ||| pcp ||| 0x1000

def ofputilClsRuleFromOfp10Match (ofpMatch : Ofp10Match) (priority : Nat) : ClsRule :=
  let ofpfw := ofpMatch.wildcards &&& ofpfw10All
  let priority := if ofpfw = 0 then 0xffff else priority
  let wc := ofputilWildcardFromOfpfw10 ofpfw
  let flow : Packet.Flow := {
    nwSrc := ofpMatch.nwSrc
    nwDst := ofpMatch.nwDst
    inPort := ofpMatch.inPort
    dlType := ofputilDlTypeFromOpenflow ofpMatch.dlType
    tpSrc := ofpMatch.tpSrc
    tpDst := ofpMatch.tpDst
    dlSrc := ofpMatch.dlSrc
    dlDst := ofpMatch.dlDst
    nwTos := ofpMatch.nwTos &&& 0xfc
    nwProto := ofpMatch.nwProto }
  clsRuleZeroWildcardedFields <|
    if !ofpfw.getLsbD 1 ∧ ofpMatch.dlVlan = ofp10VlanNone then
      ⟨{ flow with vlanTci := 0 }, { wc with vlanTciMask := 0xffff }, priority⟩
    else
      let tci := vlanTciOf ofpMatch.dlVlan ofpMatch.dlVlanPcp
      ⟨{ flow with vlanTci := tci &&& wc.vlanTciMask }, wc, priority⟩

structure MayMatch where
  nwAddr : Bool
  tpAddr : Bool
  nwProto : Bool
  ipvx : Bool
  deriving DecidableEq, Repr

def mayMatch (flow : Packet.Flow) : MayMatch :=
  if flow.dlType = 0x0800 then
    ⟨true, flow.nwProto = 6 ∨ flow.nwProto = 17 ∨ flow.nwProto = 1, true, true⟩
  else if flow.dlType = 0x86dd then
    ⟨false, flow.nwProto = 6 ∨ flow.nwProto = 17 ∨ flow.nwProto = 58, true, true⟩
  else if flow.dlType = 0x0806 then ⟨true, false, true, false⟩
  else ⟨false, false, false, false⟩

def FlowWildcards.cleared (wc : FlowWildcards) (may : MayMatch) : FlowWildcards :=
  { wc with
    nwSrcMask := if may.nwAddr then wc.nwSrcMask else 0
    nwDstMask := if may.nwAddr then wc.nwDstMask else 0
    tpSrcMask := if may.tpAddr then wc.tpSrcMask else 0
    tpDstMask := if may.tpAddr then wc.tpDstMask else 0
    nwProto := wc.nwProto || !may.nwProto
    nwDscp := wc.nwDscp || !may.ipvx }

def ofputilNormalizeRule (rule : ClsRule) : ClsRule :=
  let wc := rule.wc.cleared (mayMatch rule.flow)
  if wc = rule.wc then rule else clsRuleZeroWildcardedFields { rule with wc }

def flowEqualExcept (a b : Packet.Flow) (wc : FlowWildcards) : Bool :=
  (a.nwSrc ^^^ b.nwSrc) &&& wc.nwSrcMask = 0 ∧ (a.nwDst ^^^ b.nwDst) &&& wc.nwDstMask = 0 ∧
    (wc.inPort ∨ a.inPort = b.inPort) ∧ (a.vlanTci ^^^ b.vlanTci) &&& wc.vlanTciMask = 0 ∧
    (wc.dlType ∨ a.dlType = b.dlType) ∧ (a.tpSrc ^^^ b.tpSrc) &&& wc.tpSrcMask = 0 ∧
    (a.tpDst ^^^ b.tpDst) &&& wc.tpDstMask = 0 ∧ (a.dlSrc ^^^ b.dlSrc) &&& wc.dlSrcMask = 0 ∧
    (a.dlDst ^^^ b.dlDst) &&& wc.dlDstMask = 0 ∧ (wc.nwProto ∨ a.nwProto = b.nwProto) ∧
    (wc.nwDscp ∨ (a.nwTos ^^^ b.nwTos) &&& 0xfc = 0)

def flowWildcardsHasExtra (a b : FlowWildcards) : Bool :=
  a.dlSrcMask &&& b.dlSrcMask ≠ b.dlSrcMask ∨ a.dlDstMask &&& b.dlDstMask ≠ b.dlDstMask ∨
    a.inPort ∧ !b.inPort ∨ a.dlType ∧ !b.dlType ∨ a.nwProto ∧ !b.nwProto ∨ a.nwDscp ∧ !b.nwDscp ∨
    a.nwSrcMask &&& b.nwSrcMask ≠ b.nwSrcMask ∨ a.nwDstMask &&& b.nwDstMask ≠ b.nwDstMask ∨
    a.vlanTciMask &&& b.vlanTciMask ≠ b.vlanTciMask ∨ a.tpSrcMask &&& b.tpSrcMask ≠ b.tpSrcMask ∨
    a.tpDstMask &&& b.tpDstMask ≠ b.tpDstMask

def clsRuleIsLooseMatch (rule target : ClsRule) : Bool :=
  !flowWildcardsHasExtra rule.wc target.wc && flowEqualExcept rule.flow target.flow target.wc

def bitIf (cond : Prop) [Decidable cond] (bit : Nat) : BitVec 32 :=
  if cond then BitVec.twoPow 32 bit else 0

def vlanToOfp10 (mask tci : BitVec 16) : BitVec 32 × BitVec 16 × BitVec 8 :=
  if mask = 0 then (BitVec.twoPow 32 1 ||| BitVec.twoPow 32 20, 0, 0)
  else if mask.getLsbD 12 ∧ ¬tci.getLsbD 12 then (BitVec.twoPow 32 20, ofp10VlanNone, 0)
  else
    (bitIf (mask &&& 0x0fff = 0) 1 ||| bitIf (mask &&& 0xe000 = 0) 20,
      if mask &&& 0x0fff = 0 then 0 else tci &&& 0x0fff,
      if mask &&& 0xe000 = 0 then 0 else ((tci &&& 0xe000) >>> 13).setWidth 8)

def ofputilClsRuleToOfp10Match (rule : ClsRule) : Ofp10Match :=
  let wc := rule.wc
  let ofpfw := bitIf wc.inPort 0 ||| bitIf wc.dlType 4 ||| bitIf wc.nwProto 5 |||
    BitVec.ofNat 32 (ofputilNetmaskToWcbits wc.nwSrcMask) <<< 8 |||
    BitVec.ofNat 32 (ofputilNetmaskToWcbits wc.nwDstMask) <<< 14 |||
    bitIf wc.nwDscp 21 ||| bitIf (wc.tpSrcMask = 0) 6 ||| bitIf (wc.tpDstMask = 0) 7 |||
    bitIf (wc.dlSrcMask = 0) 2 ||| bitIf (wc.dlDstMask = 0) 3
  let vlan := vlanToOfp10 wc.vlanTciMask rule.flow.vlanTci
  { wildcards := ofpfw ||| vlan.1
    inPort := rule.flow.inPort
    dlSrc := rule.flow.dlSrc
    dlDst := rule.flow.dlDst
    dlVlan := vlan.2.1
    dlVlanPcp := vlan.2.2
    dlType := ofputilDlTypeToOpenflow rule.flow.dlType
    nwTos := rule.flow.nwTos &&& 0xfc
    nwProto := rule.flow.nwProto
    nwSrc := rule.flow.nwSrc
    nwDst := rule.flow.nwDst
    tpSrc := rule.flow.tpSrc
    tpDst := rule.flow.tpDst }

@[simp]
theorem getLsbD_bitIf (cond : Prop) [Decidable cond] (bit i : Nat) :
    (bitIf cond bit).getLsbD i = (decide cond && (decide (bit < 32) && decide (bit = i))) := by
  unfold bitIf
  split <;> rename_i h <;> simp [h, BitVec.getLsbD_twoPow]

theorem wcbits_roundTrip (wcbits : BitVec 32) :
    ofputilWcbitsToNetmask
      (BitVec.ofNat 32 (ofputilNetmaskToWcbits (ofputilWcbitsToNetmask wcbits))) =
        ofputilWcbitsToNetmask wcbits := by
  have small : (wcbits &&& 0x3f).toNat < 64 := by
    rw [BitVec.toNat_and]
    exact Nat.lt_of_le_of_lt Nat.and_le_right (by decide)
  have all : ∀ n < 64, ofputilWcbitsToNetmask (BitVec.ofNat 32 (ofputilNetmaskToWcbits
      (if n < 32 then ~~~((1 : BitVec 32) <<< n - 1) else 0))) =
        if n < 32 then ~~~((1 : BitVec 32) <<< n - 1) else 0 := by
    decide +kernel
  exact all _ small

theorem testBit_wcbits (netmask : BitVec 32) {i : Nat} (high : 6 ≤ i) :
    (ofputilNetmaskToWcbits netmask).testBit i = false := by
  apply Nat.testBit_lt_two_pow
  calc
    ofputilNetmaskToWcbits netmask ≤ 32 := Nat.sub_le _ _
    _ < 2 ^ 6 := by decide
    _ ≤ 2 ^ i := Nat.pow_le_pow_right (by decide) high

structure ClsRule.IsOfp10 (rule : ClsRule) : Prop where
  zeroed : clsRuleZeroWildcardedFields rule = rule
  nwSrc : ∃ wcbits, rule.wc.nwSrcMask = ofputilWcbitsToNetmask wcbits
  nwDst : ∃ wcbits, rule.wc.nwDstMask = ofputilWcbitsToNetmask wcbits
  tpSrc : rule.wc.tpSrcMask = 0 ∨ rule.wc.tpSrcMask = 0xffff
  tpDst : rule.wc.tpDstMask = 0 ∨ rule.wc.tpDstMask = 0xffff
  dlSrc : rule.wc.dlSrcMask = 0 ∨ rule.wc.dlSrcMask = 0xffffffffffff
  dlDst : rule.wc.dlDstMask = 0 ∨ rule.wc.dlDstMask = 0xffffffffffff
  vlan : rule.wc.vlanTciMask = 0 ∨ rule.wc.vlanTciMask = 0xffff ∧ rule.flow.vlanTci = 0 ∨
    rule.wc.vlanTciMask ∈ [0xf000, 0x1fff, 0xffff] ∧ rule.flow.vlanTci.getLsbD 12

theorem clsRuleZeroWildcardedFields_idem (rule : ClsRule) :
    clsRuleZeroWildcardedFields (clsRuleZeroWildcardedFields rule) =
      clsRuleZeroWildcardedFields rule := by
  cases port : rule.wc.inPort <;> cases type : rule.wc.dlType <;>
    cases proto : rule.wc.nwProto <;> cases dscp : rule.wc.nwDscp <;>
    simp [clsRuleZeroWildcardedFields, port, type, proto, dscp, BitVec.and_assoc]

theorem isOfp10_ofputilClsRuleFromOfp10Match (ofpMatch : Ofp10Match) (priority : Nat) :
    (ofputilClsRuleFromOfp10Match ofpMatch priority).IsOfp10 := by
  have either {w : Nat} (wild : Bool) (ones : BitVec w) :
      (if wild then 0 else ones) = 0 ∨ (if wild then 0 else ones) = ones := by
    cases wild <;> simp
  have tagged (noPcp noVid : Bool) (tci mask : BitVec 16)
      (maskEq : mask = (if noPcp then 0 else 0xe000 ||| 0x1000) |||
        if noVid then 0 else 0x0fff ||| 0x1000) :
      mask = 0 ∨ mask = 0xffff ∧ (tci ||| 0x1000) &&& mask &&& mask = 0 ∨
        mask ∈ [0xf000, 0x1fff, 0xffff] ∧ ((tci ||| 0x1000) &&& mask &&& mask).getLsbD 12 := by
    subst maskEq
    cases noPcp <;> cases noVid <;> simp
  refine ⟨clsRuleZeroWildcardedFields_idem _, ?_, ?_, ?_, ?_, ?_, ?_, ?_⟩ <;>
    rw [ofputilClsRuleFromOfp10Match] <;> dsimp only [clsRuleZeroWildcardedFields] <;>
    split <;> rename_i untagged
  iterate 4 exact ⟨_, rfl⟩
  iterate 8 exact either _ _
  · exact Or.inr (Or.inl ⟨rfl, by simp⟩)
  · exact tagged _ _ _ _ rfl

theorem ofputilNormalizeRule_of_zeroed {rule : ClsRule}
    (zeroed : clsRuleZeroWildcardedFields rule = rule) :
    ofputilNormalizeRule rule =
      clsRuleZeroWildcardedFields { rule with wc := rule.wc.cleared (mayMatch rule.flow) } := by
  rw [ofputilNormalizeRule]
  split
  · rename_i same
    rw [same]
    exact zeroed.symm
  · rfl

theorem ClsRule.IsOfp10.ofputilNormalizeRule {rule : ClsRule} (ofp10 : rule.IsOfp10) :
    (ofputilNormalizeRule rule).IsOfp10 := by
  have cleared {w : Nat} {mask ones : BitVec w} (may : Bool) (either : mask = 0 ∨ mask = ones) :
      (if may then mask else 0) = 0 ∨ (if may then mask else 0) = ones := by
    cases may
    · exact Or.inl rfl
    · exact either
  have netmask {mask : BitVec 32} (may : Bool)
      (cidr : ∃ wcbits, mask = ofputilWcbitsToNetmask wcbits) :
      ∃ wcbits, (if may then mask else 0) = ofputilWcbitsToNetmask wcbits := by
    cases may
    · exact ⟨32, rfl⟩
    · exact cidr
  have tci : rule.flow.vlanTci &&& rule.wc.vlanTciMask = rule.flow.vlanTci :=
    congrArg (fun rule : ClsRule => rule.flow.vlanTci) ofp10.zeroed
  rw [ofputilNormalizeRule_of_zeroed ofp10.zeroed]
  refine ⟨clsRuleZeroWildcardedFields_idem _, netmask _ ofp10.nwSrc, netmask _ ofp10.nwDst,
    cleared _ ofp10.tpSrc, cleared _ ofp10.tpDst, ofp10.dlSrc, ofp10.dlDst, ?_⟩
  simpa only [clsRuleZeroWildcardedFields, FlowWildcards.cleared, tci] using ofp10.vlan

section Bits

variable (rule : ClsRule)

theorem getLsbD_vlanToOfp10 (mask tci : BitVec 16) {i : Nat} (vid : i ≠ 1)
    (pcp : i ≠ 20) : (vlanToOfp10 mask tci).1.getLsbD i = false := by
  rw [vlanToOfp10]
  split_ifs <;> simp [BitVec.getLsbD_twoPow, Ne.symm vid, Ne.symm pcp]

theorem getLsbD_wildcards {i : Nat} (known : i < 22) :
    ((ofputilClsRuleToOfp10Match rule).wildcards &&& ofpfw10All).getLsbD i =
      (rule.wc.inPort && decide (0 = i) || rule.wc.dlType && decide (4 = i) ||
        rule.wc.nwProto && decide (5 = i) ||
        decide (8 ≤ i) && (ofputilNetmaskToWcbits rule.wc.nwSrcMask).testBit (i - 8) ||
        decide (14 ≤ i) && (ofputilNetmaskToWcbits rule.wc.nwDstMask).testBit (i - 14) ||
        rule.wc.nwDscp && decide (21 = i) || decide (rule.wc.tpSrcMask = 0) && decide (6 = i) ||
        decide (rule.wc.tpDstMask = 0) && decide (7 = i) ||
        decide (rule.wc.dlSrcMask = 0) && decide (2 = i) ||
        decide (rule.wc.dlDstMask = 0) && decide (3 = i) ||
        (vlanToOfp10 rule.wc.vlanTciMask rule.flow.vlanTci).1.getLsbD i) := by
  have all : ∀ i < 22, ofpfw10All.getLsbD i = true := by decide
  have shifted (n shift : Nat) : (BitVec.ofNat 32 n <<< shift).getLsbD i =
      (decide (shift ≤ i) && n.testBit (i - shift)) := by
    rw [BitVec.getLsbD_shiftLeft, BitVec.getLsbD_ofNat]
    simp [show i < 32 by omega, show i - shift < 32 by omega, ← decide_not]
  rw [BitVec.getLsbD_and, all i known, Bool.and_true]
  simp only [ofputilClsRuleToOfp10Match, BitVec.getLsbD_or, getLsbD_bitIf, shifted]
  simp

theorem wcbits_wildcards (shift : Nat) (netmask : BitVec 32)
    (bits : ∀ i < 6,
      ((ofputilClsRuleToOfp10Match rule).wildcards &&& ofpfw10All).getLsbD (shift + i) =
        (ofputilNetmaskToWcbits netmask).testBit i) :
    ofputilWcbitsToNetmask (((ofputilClsRuleToOfp10Match rule).wildcards &&& ofpfw10All) >>> shift) =
      ofputilWcbitsToNetmask (BitVec.ofNat 32 (ofputilNetmaskToWcbits netmask)) := by
  have masked : ((ofputilClsRuleToOfp10Match rule).wildcards &&& ofpfw10All) >>> shift &&& 0x3f =
      BitVec.ofNat 32 (ofputilNetmaskToWcbits netmask) &&& 0x3f := by
    apply BitVec.eq_of_getLsbD_eq
    intro i inside
    rw [BitVec.getLsbD_and, BitVec.getLsbD_and, BitVec.getLsbD_ushiftRight]
    by_cases low : i < 6
    · rw [bits i low, BitVec.getLsbD_ofNat]
      simp [inside]
    · have high : ∀ i < 32, ¬i < 6 → (0x3f : BitVec 32).getLsbD i = false := by decide
      rw [high i inside low, Bool.and_false, Bool.and_false]
  rw [ofputilWcbitsToNetmask, ofputilWcbitsToNetmask, masked]

end Bits

theorem ClsRule.IsOfp10.wildcards {rule : ClsRule} (ofp10 : rule.IsOfp10) :
    ofputilWildcardFromOfpfw10 ((ofputilClsRuleToOfp10Match rule).wildcards &&& ofpfw10All) =
      { rule.wc with vlanTciMask :=
          (if (vlanToOfp10 rule.wc.vlanTciMask rule.flow.vlanTci).1.getLsbD 20 then 0
            else 0xe000 ||| 0x1000) |||
          if (vlanToOfp10 rule.wc.vlanTciMask rule.flow.vlanTci).1.getLsbD 1 then 0
            else 0x0fff ||| 0x1000 } := by
  have other {i : Nat} (vid : i ≠ 1) (pcp : i ≠ 20) :=
    getLsbD_vlanToOfp10 rule.wc.vlanTciMask rule.flow.vlanTci vid pcp
  have ones {w : Nat} {mask ones : BitVec w} (either : mask = 0 ∨ mask = ones) :
      (if decide (mask = 0) then 0 else ones) = mask := by
    rcases either with rfl | rfl
    · simp
    · split <;> simp_all
  obtain ⟨srcBits, src⟩ := ofp10.nwSrc
  obtain ⟨dstBits, dst⟩ := ofp10.nwDst
  rw [ofputilWildcardFromOfpfw10, FlowWildcards.mk.injEq]
  refine ⟨?_, ?_, ?_, ?_, ?_, ?_, ?_, ?_, ?_, ?_, ?_⟩
  · rw [getLsbD_wildcards rule (by decide), other (by decide) (by decide)]
    simp
  · rw [getLsbD_wildcards rule (by decide), other (by decide) (by decide)]
    simp
  · rw [getLsbD_wildcards rule (by decide), other (by decide) (by decide)]
    simp
  · rw [getLsbD_wildcards rule (by decide), other (by decide) (by decide)]
    simp [testBit_wcbits]
  · rw [wcbits_wildcards rule 8 rule.wc.nwSrcMask ?_, src, wcbits_roundTrip]
    intro i low
    rw [getLsbD_wildcards rule (by omega), other (by omega) (by omega)]
    interval_cases i <;> simp
  · rw [wcbits_wildcards rule 14 rule.wc.nwDstMask ?_, dst, wcbits_roundTrip]
    intro i low
    rw [getLsbD_wildcards rule (by omega), other (by omega) (by omega)]
    interval_cases i <;> simp [testBit_wcbits]
  · rw [getLsbD_wildcards rule (by decide), getLsbD_wildcards rule (by decide)]
    simp [testBit_wcbits]
  · rw [getLsbD_wildcards rule (by decide), other (by decide) (by decide), ← ones ofp10.tpSrc]
    simp
  · rw [getLsbD_wildcards rule (by decide), other (by decide) (by decide), ← ones ofp10.tpDst]
    simp
  · rw [getLsbD_wildcards rule (by decide), other (by decide) (by decide), ← ones ofp10.dlSrc]
    simp
  · rw [getLsbD_wildcards rule (by decide), other (by decide) (by decide), ← ones ofp10.dlDst]
    simp

theorem vlanTci_roundTrip {mask tci : BitVec 16} (covered : tci &&& mask = tci)
    (among : mask ∈ [0xf000, 0x1fff, 0xffff]) (cfi : tci.getLsbD 12) :
    vlanTciOf (if mask &&& 0x0fff = 0 then 0 else tci &&& 0x0fff)
      (if mask &&& 0xe000 = 0 then 0 else ((tci &&& 0xe000) >>> 13).setWidth 8) &&& mask = tci := by
  refine Eq.trans ?_ covered
  clear covered
  simp only [List.mem_cons, List.not_mem_nil, or_false] at among
  apply BitVec.eq_of_getLsbD_eq
  intro i inside
  rcases among with rfl | rfl | rfl <;> interval_cases i <;> simp_all [vlanTciOf]

theorem ClsRule.IsOfp10.vlan_roundTrip {rule : ClsRule} (ofp10 : rule.IsOfp10)
    {back : BitVec 32 × BitVec 16 × BitVec 8}
    (encoded : vlanToOfp10 rule.wc.vlanTciMask rule.flow.vlanTci = back) :
    ((!back.1.getLsbD 1) = true ∧ back.2.1 = ofp10VlanNone) ∧ rule.wc.vlanTciMask = 0xffff ∧
        rule.flow.vlanTci = 0 ∨
      ¬((!back.1.getLsbD 1) = true ∧ back.2.1 = ofp10VlanNone) ∧
        ((if back.1.getLsbD 20 then 0 else 0xe000 ||| 0x1000) |||
          if back.1.getLsbD 1 then 0 else 0x0fff ||| 0x1000) = rule.wc.vlanTciMask ∧
        vlanTciOf back.2.1 back.2.2 &&& rule.wc.vlanTciMask = rule.flow.vlanTci := by
  have covered : rule.flow.vlanTci &&& rule.wc.vlanTciMask = rule.flow.vlanTci :=
    congrArg (fun rule : ClsRule => rule.flow.vlanTci) ofp10.zeroed
  rcases ofp10.vlan with none | ⟨mask, untagged⟩ | ⟨among, cfi⟩
  · rw [none, vlanToOfp10, if_pos rfl] at encoded
    subst encoded
    refine Or.inr ⟨by decide, ?_, ?_⟩
    · rw [none]
      decide
    · rw [← covered, none]
      simp
  · rw [mask, untagged] at encoded
    subst encoded
    exact Or.inl ⟨by decide, mask, untagged⟩
  · have tagged := vlanTci_roundTrip covered among cfi
    have bits : ¬(rule.wc.vlanTciMask.getLsbD 12 ∧ ¬rule.flow.vlanTci.getLsbD 12) :=
      fun both => both.2 cfi
    have some : rule.wc.vlanTciMask ≠ 0 := by
      rintro zero
      rw [zero] at among
      revert among
      decide
    rw [vlanToOfp10, if_neg some, if_neg bits] at encoded
    subst encoded
    refine Or.inr ⟨?_, ?_, tagged⟩
    · rintro ⟨-, vlanNone⟩
      have bit := congrArg (fun vid : BitVec 16 => vid.getLsbD 12) vlanNone
      split at bit <;> simp [ofp10VlanNone] at bit
    · simp only [List.mem_cons, List.not_mem_nil, or_false] at among ⊢
      rcases among with mask | mask | mask <;>
        simp only [mask, BitVec.getLsbD_or, getLsbD_bitIf] <;> decide

theorem dlType_roundTrip (dlType : BitVec 16) :
    ofputilDlTypeFromOpenflow (ofputilDlTypeToOpenflow dlType) = dlType := by
  rw [ofputilDlTypeToOpenflow]
  split
  · rename_i notEth
    exact notEth.symm
  · rename_i isEth
    exact if_neg isEth

theorem ClsRule.IsOfp10.comesBack {rule : ClsRule} (ofp10 : rule.IsOfp10) (priority : Nat) :
    (ofputilClsRuleFromOfp10Match (ofputilClsRuleToOfp10Match rule) priority).flow = rule.flow ∧
      (ofputilClsRuleFromOfp10Match (ofputilClsRuleToOfp10Match rule) priority).wc = rule.wc := by
  have bit : ((ofputilClsRuleToOfp10Match rule).wildcards &&& ofpfw10All).getLsbD 1 =
      (vlanToOfp10 rule.wc.vlanTciMask rule.flow.vlanTci).1.getLsbD 1 := by
    rw [getLsbD_wildcards rule (by decide)]
    simp
  have dlVlan : (ofputilClsRuleToOfp10Match rule).dlVlan =
      (vlanToOfp10 rule.wc.vlanTciMask rule.flow.vlanTci).2.1 := rfl
  have dlVlanPcp : (ofputilClsRuleToOfp10Match rule).dlVlanPcp =
      (vlanToOfp10 rule.wc.vlanTciMask rule.flow.vlanTci).2.2 := rfl
  have tos (dscp : Bool) (tos : BitVec 8) :
      (if dscp then tos &&& 0xfc &&& 0xfc &&& ~~~0xfc else tos &&& 0xfc &&& 0xfc) &&& ~~~3 =
        (if dscp then tos &&& ~~~0xfc else tos) &&& ~~~3 := by
    cases dscp <;> simp [BitVec.and_assoc]
  have wc := ofp10.wildcards
  have flow := congrArg ClsRule.flow ofp10.zeroed
  rw [ofputilClsRuleFromOfp10Match]
  simp only [bit, wc, dlVlan, dlVlanPcp]
  rcases ofp10.vlan_roundTrip rfl with ⟨isNone, mask, untagged⟩ | ⟨tagged, mask, tci⟩
  · rw [if_pos isNone]
    refine ⟨Eq.trans ?_ flow, by rw [← mask]; rfl⟩
    simp only [clsRuleZeroWildcardedFields, ofputilClsRuleToOfp10Match, dlType_roundTrip, tos, mask,
      untagged]
  · rw [if_neg tagged]
    simp only [mask, tci]
    refine ⟨Eq.trans ?_ flow, rfl⟩
    simp only [clsRuleZeroWildcardedFields, ofputilClsRuleToOfp10Match, dlType_roundTrip, tos]

theorem cleared_ofputilNormalizeRule {rule : ClsRule}
    (zeroed : clsRuleZeroWildcardedFields rule = rule) :
    (ofputilNormalizeRule rule).wc.cleared (mayMatch (ofputilNormalizeRule rule).flow) =
      (ofputilNormalizeRule rule).wc := by
  have type : (ofputilNormalizeRule rule).flow.dlType = rule.flow.dlType := by
    rw [ofputilNormalizeRule_of_zeroed zeroed]
    have same := congrArg (fun rule : ClsRule => rule.flow.dlType) zeroed
    exact same
  have proto (may : (mayMatch rule.flow).nwProto = true) :
      (ofputilNormalizeRule rule).flow.nwProto = rule.flow.nwProto := by
    rw [ofputilNormalizeRule_of_zeroed zeroed]
    have same := congrArg (fun rule : ClsRule => rule.flow.nwProto) zeroed
    simpa [clsRuleZeroWildcardedFields, FlowWildcards.cleared, may] using same
  have sameMay : mayMatch (ofputilNormalizeRule rule).flow = mayMatch rule.flow := by
    unfold mayMatch at proto ⊢
    rw [type]
    split_ifs at proto ⊢
    · rw [proto rfl]
    · rw [proto rfl]
    · rfl
    · rfl
  rw [sameMay, ofputilNormalizeRule_of_zeroed zeroed]
  generalize mayMatch rule.flow = may
  simp only [clsRuleZeroWildcardedFields, FlowWildcards.cleared, Bool.or_assoc, Bool.or_self]
  congr 1 <;> split <;> rfl

theorem ofputilNormalizeRule_comesBack (ofpMatch : Ofp10Match) (priority again : Nat) :
    let rule := ofputilNormalizeRule (ofputilClsRuleFromOfp10Match ofpMatch priority)
    let back := ofputilNormalizeRule
      (ofputilClsRuleFromOfp10Match (ofputilClsRuleToOfp10Match rule) again)
    back.flow = rule.flow ∧ back.wc = rule.wc := by
  intro rule back
  have decoded := isOfp10_ofputilClsRuleFromOfp10Match ofpMatch priority
  have same := decoded.ofputilNormalizeRule.comesBack again
  have unchanged : back = ofputilClsRuleFromOfp10Match (ofputilClsRuleToOfp10Match rule) again := by
    refine if_pos ?_
    rw [same.1, same.2]
    exact cleared_ofputilNormalizeRule decoded.zeroed
  rw [unchanged]
  exact same

end LazyCtrl
