import LazyCtrl.Ofp.Image

/-!
# Learning steps on the wire

The steps of a learning action have no length of their own: the decoder finds the next one by what
the header of a step says about its source and destination.  Steps that pass `learn_check` and fit
into the wire format are read back one after the other, and the zeros behind the last one end the
loop.
-/

namespace LazyCtrl

open Bytes

theorem exists_nxmHeader {sf : MfSubfield} (named : sf.field.isSome) (coded : sf.HasHeader) :
    ∃ header, sf.nxmHeader = some header ∧ mfFromNxmHeader header = sf.field := by
  obtain ⟨id, named⟩ := Option.isSome_iff_exists.mp named
  refine ⟨(mfFields id).nxmHeader, by rw [MfSubfield.nxmHeader, named, Option.map_some], ?_⟩
  rw [mfFromNxmHeader_nxmHeader (coded id named), named]

theorem isSome_of_mfCheck {sf : MfSubfield} {flow : Option Flow}
    (checked : mfCheck sf flow = none) : sf.field.isSome := by
  obtain ⟨id, named, -, -⟩ := exists_field_of_mfCheck checked
  rw [named]
  rfl

theorem decodeSubfield_ofsNbits {sf : MfSubfield} {flow : Option Flow}
    (checked : mfCheck sf flow = none) (coded : sf.Coded) :
    ∃ header, sf.nxmHeader = some header ∧ decodeSubfield header sf.ofsNbits = sf := by
  obtain ⟨header, headerEq, found⟩ := exists_nxmHeader (isSome_of_mfCheck checked) coded.2
  obtain ⟨id, -, positive, low⟩ := exists_field_of_mfCheck checked
  refine ⟨header, headerEq, ?_⟩
  rw [decodeSubfield, MfSubfield.ofsNbits, found,
    nxmDecodeOfs_nxmEncodeOfsNbits (by omega) positive coded.1,
    nxmDecodeNBits_nxmEncodeOfsNbits (by omega) positive coded.1]

theorem getSubfield_drop (nBits : Nat) (a : List (BitVec 8)) (p : Nat) :
    getSubfield nBits (a.drop p) 0 = getSubfield nBits a p := by
  rw [getSubfield, getSubfield, be32_drop, be16_drop, Nat.add_zero, Nat.zero_add]

theorem getSubfield_putSubfield {sf : MfSubfield} {nBits : Nat} (named : sf.field.isSome)
    (coded : sf.CodedAt nBits) :
    ∃ bytes, putSubfield sf = some bytes ∧ bytes.length = 6 ∧
      ∀ rest, getSubfield nBits (bytes ++ rest) 0 = sf := by
  obtain ⟨header, headerEq, found⟩ := exists_nxmHeader named coded.2.2
  refine ⟨put32 header ++ put16 (sf.ofs.setWidth 16), ?_, rfl, fun rest => ?_⟩
  · rw [putSubfield, headerEq]
    rfl
  · have ofs : (sf.ofs.setWidth 16).setWidth 32 = sf.ofs := by
      apply BitVec.eq_of_toNat_eq
      have := coded.2.1
      rw [BitVec.toNat_setWidth, BitVec.toNat_setWidth]
      omega
    simp [getSubfield, found, ofs, ← coded.1]

private theorem and_low_of_lt {n : Nat} (small : n < 1024) :
    BitVec.ofNat 16 n &&& 0x3ff = BitVec.ofNat 16 n := by
  have mask : (0x3ff : BitVec 16).toNat = 2 ^ 10 - 1 := rfl
  apply BitVec.eq_of_toNat_eq
  rw [BitVec.toNat_and, mask, Nat.and_two_pow_sub_one_eq_mod, BitVec.toNat_ofNat]
  omega

private theorem and_high_of_lt {n : Nat} (small : n < 1024) {mask : BitVec 16}
    (high : 0x3ff &&& mask = 0#16) : BitVec.ofNat 16 n &&& mask = 0#16 := by
  rw [← and_low_of_lt small, BitVec.and_assoc, high, BitVec.and_zero]

section Header

variable {spec : LearnSpec}

theorem header_and_of_high (small : spec.nBits < 1024) {mask : BitVec 16}
    (high : 0x3ff &&& mask = 0#16) :
    spec.header &&& mask = spec.dst.type &&& mask ||| spec.src.type &&& mask := by
  have distrib (x y : BitVec 16) : (x ||| y) &&& mask = x &&& mask ||| y &&& mask :=
    BitVec.and_or_distrib_right
  rw [LearnSpec.header, distrib, distrib, and_high_of_lt small high, BitVec.zero_or]

theorem learnNBits_header (small : spec.nBits < 1024) : learnNBits spec.header = spec.nBits := by
  have distrib (x y : BitVec 16) : (x ||| y) &&& 0x3ff = x &&& 0x3ff ||| y &&& 0x3ff :=
    BitVec.and_or_distrib_right
  have dst : spec.dst.type &&& 0x3ff = 0#16 := by
    cases spec.dst <;> simp [LearnDst.type, nxLearnDstLoad, nxLearnDstOutput]
  have src : spec.src.type &&& 0x3ff = 0#16 := by
    cases spec.src <;> simp [LearnSrc.type, nxLearnSrcImmediate]
  rw [learnNBits, LearnSpec.header, distrib, distrib, dst, src, and_low_of_lt small,
    BitVec.or_zero, BitVec.or_zero, BitVec.toNat_ofNat]
  omega

theorem header_and_srcMask (small : spec.nBits < 1024) :
    spec.header &&& learnSrcMask = spec.src.type := by
  rw [header_and_of_high small (by decide)]
  cases spec.dst <;> cases spec.src <;> simp [LearnDst.type, LearnSrc.type, learnSrcMask,
    nxLearnSrcImmediate, nxLearnDstLoad, nxLearnDstOutput]

theorem header_and_dstMask (small : spec.nBits < 1024) :
    spec.header &&& learnDstMask = spec.dst.type := by
  rw [header_and_of_high small (by decide)]
  cases spec.dst <;> cases spec.src <;> simp [LearnDst.type, LearnSrc.type, learnDstMask,
    nxLearnSrcImmediate, nxLearnDstLoad, nxLearnDstOutput]

end Header

def LearnSrc.Checked : LearnSrc → Prop
  | .field src => mfCheck src none = none
  | .immediate _ => True

def LearnDst.Checked : LearnDst → Prop
  | .matching dst => mfCheck dst none = none
  | .load dst => mfCheck dst none = none
  | .output => True

def LearnSrc.Named : LearnSrc → Prop
  | .field src => src.field.isSome
  | .immediate _ => True

def LearnDst.Named : LearnDst → Prop
  | .matching dst => dst.field.isSome
  | .load dst => dst.field.isSome
  | .output => True

def LearnSrc.wireLen (nBits : Nat) : LearnSrc → Nat
  | .field _ => 6
  | .immediate _ => immediateBytes nBits

def LearnDst.wireLen : LearnDst → Nat
  | .matching _ => 6
  | .load _ => 6
  | .output => 0

theorem getImmediate_bitwiseCopy {value : MfSubvalue} {nBits : Nat} (fits : value.Fits nBits)
    (rest : List (BitVec 8)) :
    getImmediate nBits (bitwiseCopy value.u8 (zeros (immediateBytes nBits)) nBits ++ rest) 0 =
      value := by
  have length :
      (bitwiseCopy value.u8 (zeros (immediateBytes nBits)) nBits).length = immediateBytes nBits := by
    simp [bitwiseCopy]
  have copied : bitwiseCopy (bitwiseCopy value.u8 (zeros (immediateBytes nBits)) nBits) (zeros 16)
      nBits = value.u8 := by
    rw [bitwiseCopy_bitwiseCopy, fits.2]
    · rw [value.length_eq]
      exact fits.1
    · rw [length_zeros]
      exact le_immediateBytes nBits
  obtain ⟨u8, length_eq⟩ := value
  simp only [getImmediate, List.drop_zero, List.take_left' length, copied]

section Step

variable {spec : LearnSpec}

theorem learnSrcIsField_header (small : spec.nBits < 1024) :
    learnSrcIsField spec.header = true ↔ spec.src.type = 0 := by
  rw [learnSrcIsField, decide_eq_true_iff, header_and_srcMask small]

theorem learnSrcLen_header (small : spec.nBits < 1024) :
    learnSrcLen spec.header = spec.src.wireLen spec.nBits := by
  rw [learnSrcLen, learnNBits_header small]
  simp only [learnSrcIsField_header small]
  cases spec.src <;> simp [LearnSrc.type, LearnSrc.wireLen, nxLearnSrcImmediate]

theorem learnDstIsField_header (small : spec.nBits < 1024) :
    learnDstIsField spec.header = true ↔ spec.dst ≠ .output := by
  rw [learnDstIsField, decide_eq_true_iff, header_and_dstMask small]
  cases spec.dst <;> simp [LearnDst.type, nxLearnDstLoad, nxLearnDstOutput]

theorem learnDstLen_header (small : spec.nBits < 1024) :
    learnDstLen spec.header = spec.dst.wireLen := by
  rw [learnDstLen]
  simp only [learnDstIsField_header small]
  cases spec.dst <;> simp [LearnDst.wireLen]

theorem learnMinLen_le (header : BitVec 16) :
    learnMinLen header ≤ learnSrcLen header + learnDstLen header := by
  rw [learnMinLen, learnSrcLen, learnDstLen, immediateBytes]
  split <;> omega

theorem learnTypesOk_header (carried : spec.Carried) : learnTypesOk spec.header = true := by
  obtain ⟨small, -, -, fromField⟩ := carried
  rw [learnTypesOk, decide_eq_true_iff, learnDstIsField_header small,
    learnSrcIsField_header small, header_and_dstMask small]
  by_cases output : spec.dst = .output
  · obtain ⟨src, srcEq⟩ := fromField output
    exact .inr ⟨by rw [output, LearnDst.type], by rw [srcEq, LearnSrc.type]⟩
  · exact .inl output

theorem getLearnSrc_put (named : spec.src.Named) (carried : spec.Carried) :
    ∃ bytes, spec.src.put spec.nBits = some bytes ∧
      bytes.length = spec.src.wireLen spec.nBits ∧
      ∀ rest, getLearnSrc spec.header (bytes ++ rest) 0 = spec.src := by
  obtain ⟨small, srcCarried, -, -⟩ := carried
  simp only [getLearnSrc, learnSrcIsField_header small, learnNBits_header small]
  cases srcEq : spec.src with
  | field src =>
    rw [srcEq] at named srcCarried
    obtain ⟨bytes, put, length, back⟩ := getSubfield_putSubfield named srcCarried
    exact ⟨bytes, put, length, fun rest => by rw [if_pos (by rfl), back]⟩
  | immediate srcImm =>
    rw [srcEq] at srcCarried
    refine ⟨_, if_pos srcCarried.1, by simp [bitwiseCopy, LearnSrc.wireLen], fun rest => ?_⟩
    rw [if_neg (by simp [LearnSrc.type, nxLearnSrcImmediate]), getImmediate_bitwiseCopy srcCarried]

theorem getLearnDst_put (named : spec.dst.Named) (carried : spec.Carried) :
    ∃ bytes, spec.dst.put = some bytes ∧ bytes.length = spec.dst.wireLen ∧
      ∀ rest, getLearnDst spec.header (bytes ++ rest) 0 = spec.dst := by
  obtain ⟨small, -, dstCarried, -⟩ := carried
  simp only [getLearnDst, header_and_dstMask small, learnNBits_header small]
  cases dstEq : spec.dst with
  | matching dst =>
    rw [dstEq] at named dstCarried
    obtain ⟨bytes, put, length, back⟩ := getSubfield_putSubfield named dstCarried
    exact ⟨bytes, put, length, fun rest => by rw [if_pos (by rfl), back]⟩
  | load dst =>
    rw [dstEq] at named dstCarried
    obtain ⟨bytes, put, length, back⟩ := getSubfield_putSubfield named dstCarried
    refine ⟨bytes, put, length, fun rest => ?_⟩
    rw [if_neg (by simp [LearnDst.type, nxLearnDstLoad]), if_pos (by rw [LearnDst.type]), back]
  | output => exact ⟨[], rfl, rfl, fun rest => by
      simp [LearnDst.type, nxLearnDstLoad, nxLearnDstOutput]⟩

theorem header_ne_zero (checked : spec.dst.Checked) (carried : spec.Carried) :
    spec.header ≠ 0 := by
  obtain ⟨small, -, dstCarried, -⟩ := carried
  intro zero
  have width := learnNBits_header small
  have type := header_and_dstMask small
  rw [zero] at width type
  have noWidth {sf : MfSubfield} (passed : mfCheck sf none = none)
      (coded : sf.CodedAt spec.nBits) : False := by
    obtain ⟨-, -, positive, -⟩ := exists_field_of_mfCheck passed
    exact positive (by rw [coded.1, ← width]; rfl)
  cases dstEq : spec.dst with
  | matching dst =>
    rw [dstEq] at checked dstCarried
    exact noWidth checked dstCarried
  | load dst =>
    rw [dstEq] at checked dstCarried
    exact noWidth checked dstCarried
  | output =>
    rw [dstEq] at type
    exact absurd type (by simp [LearnDst.type, nxLearnDstOutput])

end Step

def LearnSpec.Checked (spec : LearnSpec) : Prop := spec.src.Checked ∧ spec.dst.Checked

def LearnSpec.Written (spec : LearnSpec) : Prop :=
  spec.src.Named ∧ spec.dst.Named ∧ spec.header ≠ 0

theorem LearnSpec.Checked.written {spec : LearnSpec} (checked : spec.Checked)
    (carried : spec.Carried) : spec.Written := by
  refine ⟨?_, ?_, header_ne_zero checked.2 carried⟩
  · have passed := checked.1
    cases srcEq : spec.src with
    | field src =>
      rw [srcEq] at passed
      exact isSome_of_mfCheck passed
    | immediate srcImm => trivial
  · have passed := checked.2
    cases dstEq : spec.dst with
    | matching dst | load dst =>
      rw [dstEq] at passed
      exact isSome_of_mfCheck passed
    | output => trivial

def LearnSpec.wireLen (spec : LearnSpec) : Nat :=
  2 + (spec.src.wireLen spec.nBits + spec.dst.wireLen)

theorem getLearnSrc_drop (header : BitVec 16) (a : List (BitVec 8)) (p : Nat) :
    getLearnSrc header (a.drop p) 0 = getLearnSrc header a p := by
  simp only [getLearnSrc, getSubfield_drop, getImmediate, List.drop_zero]

theorem getLearnDst_drop (header : BitVec 16) (a : List (BitVec 8)) (p : Nat) :
    getLearnDst header (a.drop p) 0 = getLearnDst header a p := by
  simp only [getLearnDst, getSubfield_drop]

theorem learnTurn_put {spec : LearnSpec} (written : spec.Written) (carried : spec.Carried) :
    ∃ bytes, spec.put = some bytes ∧ bytes.length = spec.wireLen ∧
      ∀ {a : List (BitVec 8)} {stop p : Nat} {rest : List (BitVec 8)},
        a.drop p = bytes ++ rest → p + bytes.length ≤ stop → stop ≤ a.length →
        learnTurn a stop p = .ok (some spec, p + bytes.length) := by
  obtain ⟨src, srcPut, srcLength, srcBack⟩ := getLearnSrc_put written.1 carried
  obtain ⟨dst, dstPut, dstLength, dstBack⟩ := getLearnDst_put written.2.1 carried
  have srcLen := learnSrcLen_header carried.1
  have dstLen := learnDstLen_header carried.1
  have minLen := learnMinLen_le spec.header
  refine ⟨put16 spec.header ++ (src ++ dst), ?_, ?_, fun {a stop p rest} front inside room => ?_⟩
  · rw [LearnSpec.put, srcPut, dstPut]
    rfl
  · rw [List.length_append, List.length_append, length_put16, srcLength, dstLength,
      LearnSpec.wireLen]
  · rw [List.length_append, List.length_append, length_put16, srcLength, dstLength] at inside ⊢
    rw [List.append_assoc, List.append_assoc] at front
    have header : be16 a p = spec.header := by
      have atFront := be16_drop a p 0
      rw [front, be16_put16_append, Nat.add_zero] at atFront
      exact atFront.symm
    have behindHeader : a.drop (p + 2) = src ++ (dst ++ rest) := by
      rw [← List.drop_drop, front, drop_put16, List.drop_zero]
    have behindSrc : a.drop (p + 2 + learnSrcLen spec.header) = dst ++ rest := by
      rw [← List.drop_drop, behindHeader, srcLen, List.drop_left' srcLength]
    rw [learnTurn, header, if_neg (by omega), if_neg (by omega),
      if_neg written.2.2, learnSpecFromOpenflow,
      if_neg (not_not.mpr (learnTypesOk_header carried)), if_neg (by omega), if_neg ?_,
      if_neg (by omega), learnNBits_header carried.1, ← getLearnSrc_drop, behindHeader, srcBack,
      ← getLearnDst_drop, behindSrc, dstBack, Except.map, srcLen, dstLen]
    · rw [Nat.add_assoc, Nat.add_assoc]
    · rintro ⟨immediate, wide⟩
      rw [learnSrcIsField_header carried.1] at immediate
      rw [learnNBits_header carried.1] at wide
      have fits := carried.2.1
      cases srcEq : spec.src with
      | field sf =>
        rw [srcEq] at immediate
        exact immediate rfl
      | immediate value =>
        rw [srcEq] at fits
        exact Nat.not_lt.mpr fits.1 wide

def specsLen (specs : List LearnSpec) : Nat := (specs.map LearnSpec.wireLen).sum

theorem learnSpecsFromOpenflow_of_some {a : List (BitVec 8)} {stop p q last : Nat}
    {spec : LearnSpec} {specs : List LearnSpec} (turn : learnTurn a stop p = .ok (some spec, q))
    (rest : learnSpecsFromOpenflow a stop q = .ok (specs, last)) :
    learnSpecsFromOpenflow a stop p = .ok (spec :: specs, last) := by
  rw [learnSpecsFromOpenflow]
  split
  · rename_i other
    rw [turn] at other
    cases other
  · rename_i other
    rw [turn] at other
    cases other
  · rename_i other next same
    rw [turn] at same
    obtain ⟨specEq, rfl⟩ := Prod.mk.inj (Except.ok.inj same)
    obtain rfl := Option.some.inj specEq
    rw [rest]
    rfl

theorem learnSpecsFromOpenflow_of_none {a : List (BitVec 8)} {stop p q : Nat}
    (turn : learnTurn a stop p = .ok (none, q)) :
    learnSpecsFromOpenflow a stop p = .ok ([], q) := by
  rw [learnSpecsFromOpenflow]
  split
  · rename_i other
    rw [turn] at other
    cases other
  · rename_i next same
    rw [turn] at same
    obtain ⟨-, rfl⟩ := Prod.mk.inj (Except.ok.inj same)
    rfl
  · rename_i other
    rw [turn] at other
    cases other

theorem allZeros_of_drop {a rest : List (BitVec 8)} {p n : Nat}
    (front : a.drop p = zeros n ++ rest) : allZeros a p n = true := by
  rw [← allZeros_zeros_append n rest, ← front]
  rfl

theorem learnSpecsFromOpenflow_zeros {a rest : List (BitVec 8)} {p pad : Nat}
    (front : a.drop p = zeros pad ++ rest) (room : p + pad ≤ a.length)
    (whole : pad = 0 ∨ 2 ≤ pad) :
    ∃ last, learnSpecsFromOpenflow a (p + pad) p = .ok ([], last) ∧
      learnTrailer a (p + pad) last = .ok () := by
  obtain rfl | long := whole
  · refine ⟨p, learnSpecsFromOpenflow_of_none ?_, ?_⟩
    · rw [learnTurn, if_pos (Nat.add_zero p).symm]
    · rw [Nat.add_zero, learnTrailer, if_pos (Nat.le_refl p), Nat.sub_self,
        if_pos (by simp [allZeros])]
  · obtain ⟨more, rfl⟩ := Nat.exists_eq_add_of_le long
    have pair : zeros (2 + more) = put16 0 ++ zeros more := by
      rw [zeros, Nat.add_comm, List.replicate_succ, List.replicate_succ]
      rfl
    rw [pair, List.append_assoc] at front
    have header : be16 a p = 0 := by
      have atFront := be16_drop a p 0
      rw [front, be16_put16_append, Nat.add_zero] at atFront
      exact atFront.symm
    have behind : a.drop (p + 2) = zeros more ++ rest := by
      rw [← List.drop_drop, front, drop_put16, List.drop_zero]
    refine ⟨p + 2, learnSpecsFromOpenflow_of_none ?_, ?_⟩
    · rw [learnTurn, if_neg (by omega), if_neg (by omega), if_pos header]
    · have length : p + (2 + more) - (p + 2) = more := by omega
      rw [learnTrailer, if_pos (by omega), length, if_pos (allZeros_of_drop behind)]

theorem learnSpecsFromOpenflow_putSpecs {specs : List LearnSpec}
    (good : ∀ spec ∈ specs, spec.Written ∧ spec.Carried) :
    ∃ bytes, putSpecs specs = some bytes ∧ bytes.length = specsLen specs ∧
      ∀ {a rest : List (BitVec 8)} {p pad : Nat}, a.drop p = bytes ++ (zeros pad ++ rest) →
        p + bytes.length + pad ≤ a.length → (pad = 0 ∨ 2 ≤ pad) →
        ∃ last, learnSpecsFromOpenflow a (p + bytes.length + pad) p = .ok (specs, last) ∧
          learnTrailer a (p + bytes.length + pad) last = .ok () := by
  induction specs with
  | nil => exact ⟨[], rfl, rfl, fun front room whole => learnSpecsFromOpenflow_zeros front room whole⟩
  | cons spec specs ih =>
    rw [List.forall_mem_cons] at good
    obtain ⟨front, put, length, turn⟩ := learnTurn_put good.1.1 good.1.2
    obtain ⟨back, putBack, backLength, loop⟩ := ih good.2
    refine ⟨front ++ back, by rw [putSpecs, put, putBack]; rfl, ?_,
      fun {a rest p pad} split room whole => ?_⟩
    · rw [List.length_append, length, backLength, specsLen, specsLen, List.map_cons,
        List.sum_cons]
    · rw [List.length_append] at room ⊢
      rw [List.append_assoc] at split
      have behind : a.drop (p + front.length) = back ++ (zeros pad ++ rest) := by
        rw [← List.drop_drop, split, List.drop_left]
      have stopEq : p + (front.length + back.length) + pad =
          p + front.length + back.length + pad := by omega
      obtain ⟨last, looped, trailer⟩ := loop behind (by omega) whole
      rw [stopEq]
      exact ⟨last, learnSpecsFromOpenflow_of_some (turn split (by omega) (by omega)) looped,
        trailer⟩

theorem specsLen_even (specs : List LearnSpec) : specsLen specs % 2 = 0 := by
  induction specs with
  | nil => rfl
  | cons spec specs ih =>
    have src : spec.src.wireLen spec.nBits % 2 = 0 := by
      cases spec.src <;> simp [LearnSrc.wireLen, immediateBytes]
    have dst : spec.dst.wireLen % 2 = 0 := by cases spec.dst <;> simp [LearnDst.wireLen]
    rw [specsLen] at ih ⊢
    rw [List.map_cons, List.sum_cons, LearnSpec.wireLen]
    omega

theorem specsLen_le {specs : List LearnSpec} (carried : ∀ spec ∈ specs, spec.Carried) :
    specsLen specs ≤ 24 * specs.length := by
  induction specs with
  | nil => exact Nat.le_refl 0
  | cons spec specs ih =>
    rw [List.forall_mem_cons] at carried
    have rest := ih carried.2
    have src : spec.src.wireLen spec.nBits ≤ 16 := by
      have fits := carried.1.2.1
      cases srcEq : spec.src with
      | field sf => exact (by decide : 6 ≤ 16)
      | immediate value =>
        rw [srcEq] at fits
        have narrow := fits.1
        rw [LearnSrc.wireLen, immediateBytes]
        omega
    have dst : spec.dst.wireLen ≤ 6 := by cases spec.dst <;> simp [LearnDst.wireLen]
    rw [specsLen] at rest ⊢
    rw [List.map_cons, List.sum_cons, LearnSpec.wireLen, List.length_cons]
    omega

theorem checked_of_learnCheckSpecs {mfWriteSubfield : MfSubfield → MfSubvalue → Flow → Flow}
    {flow rule : Flow} {specs : List LearnSpec}
    (checked : learnCheckSpecs mfWriteSubfield flow rule specs = none) :
    ∀ spec ∈ specs, spec.Checked := by
  induction specs generalizing rule with
  | nil => simp
  | cons spec specs ih =>
    rw [learnCheckSpecs] at checked
    obtain ⟨srcChecked, checked⟩ := Option.or_eq_none_iff.mp checked
    have src : spec.src.Checked := by
      cases srcEq : spec.src with
      | field sf =>
        rw [srcEq] at srcChecked
        exact mfCheck_none_of_mfCheck srcChecked
      | immediate value => trivial
    rw [List.forall_mem_cons]
    cases dstEq : spec.dst with
    | matching dst =>
      rw [dstEq] at checked
      obtain ⟨dstChecked, rest⟩ := Option.or_eq_none_iff.mp checked
      exact ⟨⟨src, by rw [dstEq]; exact mfCheck_none_of_mfCheck dstChecked⟩, ih rest⟩
    | load dst =>
      rw [dstEq] at checked
      obtain ⟨dstChecked, rest⟩ := Option.or_eq_none_iff.mp checked
      refine ⟨⟨src, ?_⟩, ih rest⟩
      rw [dstEq]
      exact mfCheck_none_of_mfCheck (mfCheck_of_mfCheckDst dstChecked)
    | output =>
      rw [dstEq] at checked
      exact ⟨⟨src, by rw [dstEq]; trivial⟩, ih checked⟩

end LazyCtrl
