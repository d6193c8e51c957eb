import LazyCtrl.Lib.Record
import Mathlib.Data.Fintype.Fin
import Mathlib.Tactic.FinCases

/-!
# Match fields

The table of `lib/meta-flow.c`: for every field its width, whether it can be masked, its
prerequisites, whether an action may write it, and its headers in the two wire formats.  Actions
name a part of a field by a subfield, which `mf_check_src` and `mf_check_dst` check before it is
read or written.
-/

namespace LazyCtrl

open Bytes

inductive Ofperr where
  | ofpbrcBadLen
  | ofpbacBadType
  | ofpbacBadLen
  | ofpbacBadVendor
  | ofpbacBadOutPort
  | ofpbacBadArgument
  | nxbrcMustBeZero
  deriving DecidableEq, Repr

inductive MfPrereqs where
  | none
  | arp
  | ipv4
  | ipv6
  | vlanVid
  | ipAny
  | tcp
  | udp
  | icmpv4
  | icmpv6
  | nd
  | ndSolicit
  | ndAdvert
  deriving DecidableEq, Repr

inductive MfFieldId where
  | tunId
  | metadata
  | inPort
  | reg (idx : Fin 8)
  | ethSrc
  | ethDst
  | ethType
  | vlanTci
  | dlVlan
  | vlanVid
  | dlVlanPcp
  | vlanPcp
  | ipv4Src
  | ipv4Dst
  | ipv6Src
  | ipv6Dst
  | ipv6Label
  | ipProto
  | ipDscp
  | ipEcn
  | ipTtl
  | ipFrag
  | arpOp
  | arpSpa
  | arpTpa
  | arpSha
  | arpTha
  | tcpSrc
  | tcpDst
  | udpSrc
  | udpDst
  | icmpv4Type
  | icmpv4Code
  | icmpv6Type
  | icmpv6Code
  | ndTarget
  | ndSll
  | ndTll
  deriving DecidableEq, Repr

structure MfField where
  nBits : Nat
  maskable : Bool
  prereqs : MfPrereqs
  writable : Bool
  nxmHeader : BitVec 32
  oxmHeader : BitVec 32

def nxmHeader (vendor field hasmask length : Nat) : BitVec 32 :=
  BitVec.ofNat 32 (vendor <<< 16 ||| field <<< 9 ||| hasmask <<< 8 ||| length)

def nxmOf (field length : Nat) : BitVec 32 := nxmHeader 0x0000 field 0 length

def nxmNx (field length : Nat) : BitVec 32 := nxmHeader 0x0001 field 0 length

def oxmOf (field length : Nat) : BitVec 32 := nxmHeader 0x8000 field 0 length

def nxmMakeWildHeader (header : BitVec 32) : BitVec 32 :=
  nxmHeader (header.toNat >>> 16) (header.toNat >>> 9 &&& 0x7f) 1 ((header.toNat &&& 0xff) * 2)

def mfFields : MfFieldId → MfField
  | .tunId => ⟨64, true, .none, true, nxmNx 16 8, nxmNx 16 8⟩
  | .metadata => ⟨64, true, .none, true, oxmOf 2 8, oxmOf 2 8⟩
  | .inPort => ⟨16, false, .none, false, nxmOf 0 2, oxmOf 0 4⟩
  | .reg idx => ⟨32, true, .none, true, nxmNx idx 4, nxmNx idx 4⟩
  | .ethSrc => ⟨48, true, .none, true, nxmOf 2 6, oxmOf 4 6⟩
  | .ethDst => ⟨48, true, .none, true, nxmOf 1 6, oxmOf 3 6⟩
  | .ethType => ⟨16, false, .none, false, nxmOf 3 2, oxmOf 5 2⟩
  | .vlanTci => ⟨16, true, .none, true, nxmOf 4 2, nxmOf 4 2⟩
  | .dlVlan => ⟨12, false, .none, true, 0, 0⟩
  | .vlanVid => ⟨12, true, .none, true, oxmOf 6 2, oxmOf 6 2⟩
  | .dlVlanPcp => ⟨3, false, .none, true, 0, 0⟩
  | .vlanPcp => ⟨3, false, .vlanVid, true, oxmOf 7 1, oxmOf 7 1⟩
  | .ipv4Src => ⟨32, true, .ipv4, true, nxmOf 7 4, oxmOf 11 4⟩
  | .ipv4Dst => ⟨32, true, .ipv4, true, nxmOf 8 4, oxmOf 12 4⟩
  | .ipv6Src => ⟨128, true, .ipv6, true, nxmNx 19 16, oxmOf 26 16⟩
  | .ipv6Dst => ⟨128, true, .ipv6, true, nxmNx 20 16, oxmOf 27 16⟩
  | .ipv6Label => ⟨20, true, .ipv6, false, nxmNx 27 4, oxmOf 28 4⟩
  | .ipProto => ⟨8, false, .ipAny, false, nxmOf 6 1, oxmOf 10 1⟩
  | .ipDscp => ⟨8, false, .ipAny, true, nxmOf 5 1, oxmOf 8 1⟩
  | .ipEcn => ⟨2, false, .ipAny, true, nxmNx 28 1, oxmOf 9 1⟩
  | .ipTtl => ⟨8, false, .ipAny, true, nxmNx 29 1, nxmNx 29 1⟩
  | .ipFrag => ⟨2, true, .ipAny, false, nxmNx 26 1, nxmNx 26 1⟩
  | .arpOp => ⟨16, false, .arp, false, nxmOf 15 2, oxmOf 21 2⟩
  | .arpSpa => ⟨32, true, .arp, false, nxmOf 16 4, oxmOf 22 4⟩
  | .arpTpa => ⟨32, true, .arp, false, nxmOf 17 4, oxmOf 23 4⟩
  | .arpSha => ⟨48, true, .arp, false, nxmNx 17 6, oxmOf 24 6⟩
  | .arpTha => ⟨48, true, .arp, false, nxmNx 18 6, oxmOf 25 6⟩
  | .tcpSrc => ⟨16, true, .tcp, true, nxmOf 9 2, oxmOf 13 2⟩
  | .tcpDst => ⟨16, true, .tcp, true, nxmOf 10 2, oxmOf 14 2⟩
  | .udpSrc => ⟨16, true, .udp, true, nxmOf 11 2, oxmOf 15 2⟩
  | .udpDst => ⟨16, true, .udp, true, nxmOf 12 2, oxmOf 16 2⟩
  | .icmpv4Type => ⟨8, false, .icmpv4, false, nxmOf 13 1, oxmOf 19 1⟩
  | .icmpv4Code => ⟨8, false, .icmpv4, false, nxmOf 14 1, oxmOf 20 1⟩
  | .icmpv6Type => ⟨8, false, .icmpv6, false, nxmNx 21 1, oxmOf 29 1⟩
  | .icmpv6Code => ⟨8, false, .icmpv6, false, nxmNx 22 1, oxmOf 30 1⟩
  | .ndTarget => ⟨128, true, .nd, false, nxmNx 23 16, oxmOf 31 16⟩
  | .ndSll => ⟨48, true, .ndSolicit, false, nxmNx 24 6, oxmOf 32 6⟩
  | .ndTll => ⟨48, true, .ndAdvert, false, nxmNx 25 6, oxmOf 33 6⟩

def mfFieldIds : List MfFieldId :=
  [.tunId, .metadata, .inPort, .reg 0, .reg 1, .reg 2, .reg 3, .reg 4, .reg 5, .reg 6, .reg 7,
    .ethSrc, .ethDst, .ethType, .vlanTci, .dlVlan, .vlanVid, .dlVlanPcp, .vlanPcp, .ipv4Src,
    .ipv4Dst, .ipv6Src, .ipv6Dst, .ipv6Label, .ipProto, .ipDscp, .ipEcn, .ipTtl, .ipFrag, .arpOp,
    .arpSpa, .arpTpa, .arpSha, .arpTha, .tcpSrc, .tcpDst, .udpSrc, .udpDst, .icmpv4Type,
    .icmpv4Code, .icmpv6Type, .icmpv6Code, .ndTarget, .ndSll, .ndTll]

def nxmInitAddField (mf : MfField) (header : BitVec 32) : List (BitVec 32) :=
  if header = 0 then [] else header :: if mf.maskable then [nxmMakeWildHeader header] else []

def MfField.headers (mf : MfField) : List (BitVec 32) :=
  nxmInitAddField mf mf.nxmHeader ++
    if mf.oxmHeader ≠ mf.nxmHeader then nxmInitAddField mf mf.oxmHeader else []

def mfFromNxmHeader (header : BitVec 32) : Option MfFieldId :=
  mfFieldIds.find? fun id => decide (header ∈ (mfFields id).headers)

theorem mfFromNxmHeader_nxmHeader {id : MfFieldId} (coded : (mfFields id).nxmHeader ≠ 0) :
    mfFromNxmHeader (mfFields id).nxmHeader = some id := by
  cases id with
  | reg idx => fin_cases idx <;> decide
  | dlVlan => exact absurd rfl coded
  | dlVlanPcp => exact absurd rfl coded
  | _ => decide

theorem nxmHeader_ne_zero_of_mfFromNxmHeader {header : BitVec 32} {id : MfFieldId}
    (found : mfFromNxmHeader header = some id) : (mfFields id).nxmHeader ≠ 0 := by
  have listed : header ∈ (mfFields id).headers := by
    rw [mfFromNxmHeader] at found
    simpa using List.find?_some found
  intro uncoded
  cases id with
  | reg idx => fin_cases idx <;> exact absurd uncoded (by decide)
  | dlVlan => simp [mfFields, MfField.headers, nxmInitAddField] at listed
  | dlVlanPcp => simp [mfFields, MfField.headers, nxmInitAddField] at listed
  | _ => exact absurd uncoded (by decide)

/-- The members of `struct flow` that prerequisites read, in host byte order. -/
structure Flow where
  dlType : BitVec 16
  vlanTci : BitVec 16
  nwProto : BitVec 8
  tpSrc : BitVec 16
  tpDst : BitVec 16
  deriving DecidableEq, Repr

def Flow.isIpAny (flow : Flow) : Bool := flow.dlType = 0x0800 ∨ flow.dlType = 0x86dd

def Flow.isIcmpv4 (flow : Flow) : Bool := flow.dlType = 0x0800 ∧ flow.nwProto = 1

def Flow.isIcmpv6 (flow : Flow) : Bool := flow.dlType = 0x86dd ∧ flow.nwProto = 58

def mfArePrereqsOk (mf : MfField) (flow : Flow) : Bool :=
  match mf.prereqs with
  | .none => true
  | .arp => flow.dlType = 0x0806
  | .ipv4 => flow.dlType = 0x0800
  | .ipv6 => flow.dlType = 0x86dd
  | .vlanVid => flow.vlanTci &&& 0x1000 ≠ 0
  | .ipAny => flow.isIpAny
  | .tcp => flow.isIpAny ∧ flow.nwProto = 6
  | .udp => flow.isIpAny ∧ flow.nwProto = 17
  | .icmpv4 => flow.isIcmpv4
  | .icmpv6 => flow.isIcmpv6
  | .nd => flow.isIcmpv6 ∧ flow.tpDst = 0 ∧ (flow.tpSrc = 135 ∨ flow.tpSrc = 136)
  | .ndSolicit => flow.isIcmpv6 ∧ flow.tpDst = 0 ∧ flow.tpSrc = 135
  | .ndAdvert => flow.isIcmpv6 ∧ flow.tpDst = 0 ∧ flow.tpSrc = 136

structure MfSubfield where
  field : Option MfFieldId
  ofs : BitVec 32
  nBits : BitVec 32
  deriving DecidableEq, Repr

def MfSubfield.zero : MfSubfield := ⟨none, 0, 0⟩

structure MfSubvalue where
  u8 : List (BitVec 8)
  length_eq : u8.length = 16
  deriving DecidableEq, Repr

def mfCheck (sf : MfSubfield) (flow : Option Flow) : Option Ofperr :=
  match sf.field with
  | none => some .ofpbacBadArgument
  | some id =>
    if sf.nBits = 0 then some .ofpbacBadArgument
    else if sf.ofs.toNat ≥ (mfFields id).nBits then some .ofpbacBadArgument
    else if (sf.ofs + sf.nBits).toNat > (mfFields id).nBits then some .ofpbacBadArgument
    else if (flow.any fun flow => !mfArePrereqsOk (mfFields id) flow) = true then
      some .ofpbacBadArgument
    else none

def mfCheckSrc (sf : MfSubfield) (flow : Option Flow) : Option Ofperr := mfCheck sf flow

def mfCheckDst (sf : MfSubfield) (flow : Option Flow) : Option Ofperr :=
  match mfCheck sf flow with
  | some error => some error
  | none =>
    if sf.field.any fun id => !(mfFields id).writable then some .ofpbacBadArgument else none

def nxmEncodeOfsNbits (ofs nBits : BitVec 32) : BitVec 16 := (ofs <<< 6 ||| nBits - 1).setWidth 16

def nxmDecodeOfs (ofsNbits : BitVec 16) : BitVec 32 := (ofsNbits >>> 6).setWidth 32

def nxmDecodeNBits (ofsNbits : BitVec 16) : BitVec 32 := (ofsNbits &&& 0x3f).setWidth 32 + 1

private theorem toNat_nxmEncodeOfsNbits {ofs nBits : BitVec 32} (lowOfs : ofs.toNat < 1024)
    (some_ : nBits ≠ 0) (narrow : nBits.toNat ≤ 64) :
    (nxmEncodeOfsNbits ofs nBits).toNat = 64 * ofs.toNat + (nBits.toNat - 1) := by
  have positive : 1 ≤ nBits.toNat := Nat.pos_of_ne_zero fun zero => some_ (BitVec.eq_of_toNat_eq zero)
  have width : (nBits - 1).toNat = nBits.toNat - 1 :=
    BitVec.toNat_sub_of_le (BitVec.le_def.mpr positive)
  have shifted : (ofs <<< 6).toNat = ofs.toNat <<< 6 := by
    rw [BitVec.toNat_shiftLeft, Nat.shiftLeft_eq]
    omega
  have disjoint : ofs.toNat <<< 6 + (nBits.toNat - 1) = ofs.toNat <<< 6 ||| nBits.toNat - 1 :=
    Nat.shiftLeft_add_eq_or_of_lt (by omega) _
  rw [nxmEncodeOfsNbits, BitVec.toNat_setWidth, BitVec.toNat_or, width, shifted, ← disjoint,
    Nat.shiftLeft_eq]
  omega

theorem nxmDecodeOfs_nxmEncodeOfsNbits {ofs nBits : BitVec 32} (lowOfs : ofs.toNat < 1024)
    (some_ : nBits ≠ 0) (narrow : nBits.toNat ≤ 64) :
    nxmDecodeOfs (nxmEncodeOfsNbits ofs nBits) = ofs := by
  apply BitVec.eq_of_toNat_eq
  rw [nxmDecodeOfs, BitVec.toNat_setWidth, BitVec.toNat_ushiftRight,
    toNat_nxmEncodeOfsNbits lowOfs some_ narrow, Nat.shiftRight_eq_div_pow]
  omega

theorem nxmDecodeNBits_nxmEncodeOfsNbits {ofs nBits : BitVec 32} (lowOfs : ofs.toNat < 1024)
    (some_ : nBits ≠ 0) (narrow : nBits.toNat ≤ 64) :
    nxmDecodeNBits (nxmEncodeOfsNbits ofs nBits) = nBits := by
  have positive : 1 ≤ nBits.toNat := Nat.pos_of_ne_zero fun zero => some_ (BitVec.eq_of_toNat_eq zero)
  have mask : (0x3f : BitVec 16).toNat = 2 ^ 6 - 1 := rfl
  have one : (1 : BitVec 32).toNat = 1 := rfl
  apply BitVec.eq_of_toNat_eq
  rw [nxmDecodeNBits, BitVec.toNat_add, BitVec.toNat_setWidth, BitVec.toNat_and, mask,
    Nat.and_two_pow_sub_one_eq_mod, toNat_nxmEncodeOfsNbits lowOfs some_ narrow, one]
  omega

theorem mfFields_nBits_le (id : MfFieldId) : (mfFields id).nBits ≤ 128 := by
  cases id <;> simp [mfFields]

theorem exists_field_of_mfCheck {sf : MfSubfield} {flow : Option Flow}
    (checked : mfCheck sf flow = none) :
    ∃ id, sf.field = some id ∧ sf.nBits ≠ 0 ∧ sf.ofs.toNat < 128 := by
  rw [mfCheck] at checked
  split at checked
  · cases checked
  · rename_i id named
    have := mfFields_nBits_le id
    split at checked
    · cases checked
    · split at checked
      · cases checked
      · exact ⟨id, named, ‹_›, by omega⟩

theorem mfCheck_none_of_mfCheck {sf : MfSubfield} {flow : Option Flow}
    (checked : mfCheck sf flow = none) : mfCheck sf none = none := by
  rw [mfCheck] at checked ⊢
  cases named : sf.field with
  | none =>
    rw [named] at checked
    cases checked
  | some id =>
    simp only [named] at checked ⊢
    split at checked
    · cases checked
    · split at checked
      · cases checked
      · split at checked
        · cases checked
        · rename_i positive low inside
          rw [if_neg positive, if_neg low, if_neg inside]
          rfl

theorem mfCheckDst_none_of_mfCheckDst {sf : MfSubfield} {flow : Option Flow}
    (checked : mfCheckDst sf flow = none) : mfCheckDst sf none = none := by
  rw [mfCheckDst] at checked ⊢
  cases first : mfCheck sf flow with
  | some error =>
    rw [first] at checked
    cases checked
  | none =>
    rw [first] at checked
    rw [mfCheck_none_of_mfCheck first]
    exact checked

theorem mfCheck_of_mfCheckDst {sf : MfSubfield} {flow : Option Flow}
    (checked : mfCheckDst sf flow = none) : mfCheck sf flow = none := by
  rw [mfCheckDst] at checked
  split at checked
  · cases checked
  · assumption

end LazyCtrl
