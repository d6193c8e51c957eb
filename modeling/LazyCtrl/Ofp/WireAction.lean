import LazyCtrl.Ofp.LearnCodec

/-!
# Encoding and decoding a single action

An action that `ofpacts_check` has accepted and whose arguments fit into its wire action is read
back from it by the general decoder, whatever follows it in the message.  Not everything comes back
as it was: a remote action is dropped, and a few arguments that the wire action does not carry are
replaced by fixed ones.
-/

namespace LazyCtrl

open Bytes

structure WireFrame (wire : List (BitVec 8)) (emitted : Option Ofpact) : Prop where
  aligned : wire.length % 8 = 0
  long : 8 ≤ wire.length
  stated : ∀ rest, actionLen (wire ++ rest) = wire.length
  decoded : ∀ rest, ofpactFromOpenflow10 (wire ++ rest) = .ok emitted

/-- The bytes are a wire action, from which a decoder gets the given result, whatever follows
them. -/
structure Framed (decode : List (BitVec 8) → Except Fault (Option Ofpact)) (wire : List (BitVec 8))
    (emitted : Option Ofpact) : Prop where
  aligned : wire.length % 8 = 0
  long : 8 ≤ wire.length
  stated : ∀ rest, actionLen (wire ++ rest) = wire.length
  decoded : ∀ rest, decode (wire ++ rest) = .ok emitted

theorem WireFrame.framed {wire : List (BitVec 8)} {emitted : Option Ofpact}
    (frame : WireFrame wire emitted) : Framed ofpactFromOpenflow10 wire emitted where
  aligned := frame.aligned
  long := frame.long
  stated := frame.stated
  decoded := frame.decoded

theorem actionLen_header (type : WireType) (len : Nat) (fits : len < 2 ^ 16)
    (rest : List (BitVec 8)) : actionLen (type.header len ++ rest) = len := by
  cases type <;> simpa [actionLen, WireType.header] using fits

theorem decodeWireType_wireType {code : ActionCode} {len : Nat} (lenOk : code.lenOk len) :
    decodeWireType code.wireType len = .ok code := by
  simp only [decodeWireType, ActionCode.ofWireType_wireType, lenOk, if_true]

theorem size_of_nxast {code : ActionCode} {subtype : BitVec 16}
    (nxast : code.wireType = .nxast subtype) : 16 ≤ code.size := by
  cases code <;> cases nxast <;> decide

theorem size_le_of_lenOk {code : ActionCode} {len : Nat} (lenOk : code.lenOk len) :
    code.size ≤ len := by
  rw [ActionCode.lenOk] at lenOk
  split at lenOk
  · exact of_decide_eq_true lenOk
  · exact (of_decide_eq_true lenOk).ge

theorem ofpat10_ne_vendor {code : ActionCode} {type : BitVec 16}
    (ofpat10 : code.wireType = .ofpat10 type) : type ≠ ofpat10Vendor := by
  cases code <;> cases ofpat10 <;> decide

theorem decodeOpenflow10Action_header {code : ActionCode} {len : Nat} (fits : len < 2 ^ 16)
    (lenOk : code.lenOk len) (rest : List (BitVec 8)) :
    decodeOpenflow10Action (code.wireType.header len ++ rest) = .ok code := by
  have stated := actionLen_header code.wireType len fits rest
  have found := decodeWireType_wireType lenOk
  cases wire : code.wireType with
  | ofpat10 type =>
    rw [wire] at stated found
    rw [decodeOpenflow10Action, stated]
    simp [WireType.header, ofpat10_ne_vendor wire, found]
  | nxast subtype =>
    have long := size_of_nxast wire
    have := size_le_of_lenOk lenOk
    rw [wire] at stated found
    rw [decodeOpenflow10Action, decodeNxastAction, stated]
    simp [WireType.header, found, show ¬ len < 16 by omega]

theorem WireFrame.of_code {code : ActionCode} {len : Nat} {body : List (BitVec 8)}
    {emitted : Option Ofpact} (length : (code.wireType.header len ++ body).length = len)
    (aligned : len % 8 = 0) (fits : len < 2 ^ 16) (lenOk : code.lenOk len)
    (reads : ∀ rest, ofpactFromCode (code.wireType.header len ++ (body ++ rest)) code =
      .ok emitted) :
    WireFrame (code.wireType.header len ++ body) emitted where
  aligned := by rw [length, aligned]
  long := by
    have := size_le_of_lenOk lenOk
    have : 8 ≤ code.size := by cases code <;> decide
    omega
  stated rest := by rw [length, List.append_assoc, actionLen_header _ _ fits]
  decoded rest := by
    rw [ofpactFromOpenflow10, List.append_assoc, decodeOpenflow10Action_header fits lenOk]
    exact reads rest

theorem WireFrame.fixed {code : ActionCode} {body : List (BitVec 8)} {emitted : Option Ofpact}
    (fixed : code.extensible = false) (length : (ofputilPut code body).length = code.size)
    (reads : ∀ rest, ofpactFromCode (code.wireType.header code.size ++ (body ++ rest)) code =
      .ok emitted) :
    WireFrame (ofputilPut code body) emitted :=
  WireFrame.of_code length (by cases code <;> rfl) (by cases code <;> decide)
    (by rw [ActionCode.lenOk, fixed]; simp) reads

def Ofpact.wireLen : Ofpact → Nat
  | .output .. | .setVlanVid .. | .setVlanPcp .. | .stripVlan | .setIpv4Src .. | .setIpv4Dst ..
  | .setIpv4Dscp .. | .setL4SrcPort .. | .setL4DstPort .. => 8
  | .remote .. | .enqueue .. | .setEthSrc .. | .setEthDst .. | .controller .. | .setQueue ..
  | .popQueue | .finTimeout .. | .resubmit .. | .exit => 16
  | .outputReg .. | .regMove .. | .regLoad .. | .autopath .. => 24
  | .multipath .. => 32
  | .setTunnel tunId compat =>
    if tunId.toNat ≤ 0xffffffff ∧ compat ≠ some .setTunnel64 then 16 else 24
  | .decTtl cntIds compat =>
    if compat = some .decTtl then 16
    else 16 + (2 * cntIds.length + padding (2 * cntIds.length))
  | .bundle act => 32 + (2 * act.slaves.length + padding (2 * act.slaves.length))
  | .learn act => 32 + (specsLen act.specs + padding (specsLen act.specs))
  | .note data => 10 + data.length + padding (10 + data.length)

/-- The action that the general decoder reads from the wire action of an action: the `compat` member
names the wire action, a plain TTL action has one controller id, a plain bundle has no destination,
and a note includes its padding. -/
def Ofpact.reread : Ofpact → Option Ofpact
  | .remote .. => none
  | .setTunnel tunId compat =>
    some (.setTunnel tunId (some
      (if tunId.toNat ≤ 0xffffffff ∧ compat ≠ some .setTunnel64 then .setTunnel
        else .setTunnel64)))
  | .resubmit inPort tableId compat =>
    some (.resubmit inPort tableId (some
      (if tableId = 0xff ∧ compat ≠ some .resubmitTable then .resubmit else .resubmitTable)))
  | .decTtl cntIds compat =>
    some (if compat = some .decTtl then .decTtl [0] (some .decTtl)
      else .decTtl cntIds (some .decTtlCntIds))
  | .bundle act => some (.bundle (if act.dst.field.isSome then act else { act with dst := .zero }))
  | .note data => some (.note (data ++ zeros (padding (10 + data.length))))
  | ofpact => some ofpact

def Ofpact.Checked : Ofpact → Prop
  | .outputReg src _ => mfCheckSrc src none = none
  | .bundle act => act.dst.field.isSome → mfCheckDst act.dst none = none
  | .regMove src dst => mfCheckSrc src none = none ∧ mfCheckDst dst none = none
  | .regLoad dst _ => mfCheckDst dst none = none
  | .learn act => ∀ spec ∈ act.specs, spec.Checked
  | .multipath mp => mfCheckDst mp.dst none = none
  | .autopath dst _ => mfCheckDst dst none = none
  | _ => True

theorem checked_of_ofpactCheck {mfWriteSubfield : MfSubfield → MfSubvalue → Flow → Flow}
    {flow : Flow} {maxPorts : Int} {ofpact : Ofpact}
    (accepted : ofpactCheck mfWriteSubfield flow maxPorts ofpact = none) : ofpact.Checked := by
  cases ofpact
  case outputReg => exact mfCheck_none_of_mfCheck accepted
  case bundle act =>
    intro named
    have dst := (Option.or_eq_none_iff.mp accepted).1
    rw [if_pos named] at dst
    exact mfCheckDst_none_of_mfCheckDst dst
  case regMove =>
    obtain ⟨src, dst⟩ := Option.or_eq_none_iff.mp accepted
    exact ⟨mfCheck_none_of_mfCheck src, dst⟩
  case regLoad => exact mfCheckDst_none_of_mfCheckDst accepted
  case learn => exact checked_of_learnCheckSpecs accepted
  case multipath => exact mfCheckDst_none_of_mfCheckDst accepted
  case autopath => exact mfCheckDst_none_of_mfCheckDst accepted
  all_goals trivial

def Ofpact.Encodes (ofpact : Ofpact) : Prop :=
  ∃ wire, ofpactToOpenflow10 ofpact = some wire ∧ wire.length = ofpact.wireLen ∧
    WireFrame wire ofpact.reread

theorem Ofpact.Encodes.fixed {ofpact : Ofpact} {code : ActionCode} {body : List (BitVec 8)}
    (encoded : ofpactToOpenflow10 ofpact = some (ofputilPut code body))
    (fixed : code.extensible = false) (length : (ofputilPut code body).length = code.size)
    (wireLen : ofpact.wireLen = code.size)
    (reads : ∀ rest, ofpactFromCode (code.wireType.header code.size ++ (body ++ rest)) code =
      .ok ofpact.reread) :
    ofpact.Encodes :=
  ⟨_, encoded, by rw [length, wireLen], WireFrame.fixed fixed length reads⟩

section Fixed

open ActionCode (wireType)

theorem encodes_output {port maxLen : BitVec 16} (carried : (Ofpact.output port maxLen).Carried) :
    (Ofpact.output port maxLen).Encodes := by
  have portOk : ofputilCheckOutputPort port ofppMax = none := carried
  refine .fixed rfl rfl rfl rfl fun rest => ?_
  simp [ofpactFromCode, outputFromOpenflow10, wireType, WireType.header, accept, Except.map, portOk,
    Ofpact.reread]

theorem encodes_enqueue {port : BitVec 16} {queue : BitVec 32}
    (carried : (Ofpact.enqueue port queue).Carried) : (Ofpact.enqueue port queue).Encodes := by
  have portOk : checkEnqueuePort port ofppMax = none := carried
  refine .fixed rfl rfl rfl rfl fun rest => ?_
  simp [ofpactFromCode, enqueueFromOpenflow10, wireType, WireType.header, accept, Except.map,
    portOk, Ofpact.reread]

theorem encodes_setTunnel (tunId : BitVec 64) (compat : Option ActionCode) :
    (Ofpact.setTunnel tunId compat).Encodes := by
  by_cases short : tunId.toNat ≤ 0xffffffff ∧ compat ≠ some .setTunnel64
  · have back : (tunId.setWidth 32).setWidth 64 = tunId := by
      apply BitVec.eq_of_toNat_eq
      rw [BitVec.toNat_setWidth, BitVec.toNat_setWidth]
      omega
    refine .fixed (congrArg some (if_pos short)) rfl rfl (if_pos short) fun rest => ?_
    rw [Ofpact.reread, if_pos short]
    simp [ofpactFromCode, wireType, WireType.header, back]
  · refine .fixed (congrArg some (if_neg short)) rfl rfl (if_neg short) fun rest => ?_
    rw [Ofpact.reread, if_neg short]
    simp [ofpactFromCode, wireType, WireType.header]

theorem encodes_resubmit (inPort : BitVec 16) (tableId : BitVec 8) (compat : Option ActionCode) :
    (Ofpact.resubmit inPort tableId compat).Encodes := by
  by_cases plain : tableId = 0xff ∧ compat ≠ some .resubmitTable
  · refine .fixed (congrArg some (if_pos plain)) rfl rfl rfl fun rest => ?_
    rw [Ofpact.reread, if_pos plain, plain.1]
    simp [ofpactFromCode, resubmitFromOpenflow, wireType, WireType.header, Except.map]
  · refine .fixed (congrArg some (if_neg plain)) rfl rfl rfl fun rest => ?_
    rw [Ofpact.reread, if_neg plain]
    simp [ofpactFromCode, resubmitTableFromOpenflow, wireType, WireType.header, Except.map]

theorem encodes_outputReg {src : MfSubfield} {maxLen : BitVec 16}
    (checked : (Ofpact.outputReg src maxLen).Checked)
    (carried : (Ofpact.outputReg src maxLen).Carried) :
    (Ofpact.outputReg src maxLen).Encodes := by
  obtain ⟨header, headerEq, back⟩ := decodeSubfield_ofsNbits checked carried
  have encoded : ofpactToOpenflow10 (.outputReg src maxLen) = some (ofputilPut .outputReg
      (put16 src.ofsNbits ++ (put32 header ++ (put16 maxLen ++ zeros 6)))) := by
    rw [ofpactToOpenflow10, ofpactOutputRegToNxast, headerEq]
    rfl
  have passed : mfCheckSrc src none = none := checked
  refine .fixed encoded rfl rfl rfl fun rest => ?_
  simp [ofpactFromCode, outputRegFromOpenflow, wireType, WireType.header, back, passed, accept,
    Except.map, Ofpact.reread]

theorem encodes_regMove {src dst : MfSubfield} (checked : (Ofpact.regMove src dst).Checked)
    (carried : (Ofpact.regMove src dst).Carried) : (Ofpact.regMove src dst).Encodes := by
  obtain ⟨srcChecked, dstChecked⟩ := checked
  obtain ⟨sameWidth, narrow, srcHas, dstHas⟩ := carried
  have dstPassed := mfCheck_of_mfCheckDst dstChecked
  obtain ⟨srcHeader, srcHeaderEq, srcFound⟩ := exists_nxmHeader (isSome_of_mfCheck srcChecked) srcHas
  obtain ⟨dstHeader, dstHeaderEq, dstFound⟩ := exists_nxmHeader (isSome_of_mfCheck dstPassed) dstHas
  obtain ⟨-, -, -, srcLow⟩ := exists_field_of_mfCheck srcChecked
  obtain ⟨-, -, -, dstLow⟩ := exists_field_of_mfCheck dstPassed
  have encoded : ofpactToOpenflow10 (.regMove src dst) = some (ofputilPut .regMove
      (put16 (dst.nBits.setWidth 16) ++ (put16 (src.ofs.setWidth 16) ++
        (put16 (dst.ofs.setWidth 16) ++ (put32 srcHeader ++ put32 dstHeader))))) := by
    rw [ofpactToOpenflow10, nxmRegMoveToNxast, srcHeaderEq, dstHeaderEq]
    rfl
  have back {x : BitVec 32} (small : x.toNat < 2 ^ 16) : (x.setWidth 16).setWidth 32 = x := by
    apply BitVec.eq_of_toNat_eq
    rw [BitVec.toNat_setWidth, BitVec.toNat_setWidth]
    omega
  have srcBack : MfSubfield.mk src.field src.ofs dst.nBits = src := by rw [← sameWidth]
  have passed : nxmRegMoveCheck src dst none = none :=
    Option.or_eq_none_iff.mpr ⟨srcChecked, dstChecked⟩
  have srcOfs : src.ofs.toNat < 2 ^ 16 := by omega
  have dstOfs : dst.ofs.toNat < 2 ^ 16 := by omega
  refine .fixed encoded rfl rfl rfl fun rest => ?_
  simp [ofpactFromCode, nxmRegMoveFromOpenflow, wireType, WireType.header, srcFound, dstFound,
    back narrow, back srcOfs, back dstOfs, srcBack, passed, accept, Except.map, Ofpact.reread]

theorem encodes_regLoad {dst : MfSubfield} {value : BitVec 64}
    (checked : (Ofpact.regLoad dst value).Checked) (carried : (Ofpact.regLoad dst value).Carried) :
    (Ofpact.regLoad dst value).Encodes := by
  obtain ⟨coded, fits⟩ := carried
  obtain ⟨header, headerEq, back⟩ := decodeSubfield_ofsNbits (mfCheck_of_mfCheckDst checked) coded
  have encoded : ofpactToOpenflow10 (.regLoad dst value) = some (ofputilPut .regLoad
      (put16 dst.ofsNbits ++ (put32 header ++ put64 value))) := by
    rw [ofpactToOpenflow10, nxmRegLoadToNxast, headerEq]
    rfl
  have passed : mfCheckDst dst none = none := checked
  refine .fixed encoded rfl rfl rfl fun rest => ?_
  have valueFits : ¬ (dst.nBits.toNat < 64 ∧ ¬ value >>> dst.nBits.toNat = 0#64) := fits
  simp [ofpactFromCode, nxmRegLoadFromOpenflow, wireType, WireType.header, back, passed, accept,
    Except.map, Ofpact.reread, if_neg valueFits]

theorem encodes_multipath {mp : OfpactMultipath} (checked : (Ofpact.multipath mp).Checked)
    (carried : (Ofpact.multipath mp).Carried) : (Ofpact.multipath mp).Encodes := by
  obtain ⟨coded, wide⟩ := carried
  obtain ⟨header, headerEq, back⟩ := decodeSubfield_ofsNbits (mfCheck_of_mfCheckDst checked) coded
  have encoded : ofpactToOpenflow10 (.multipath mp) = some (ofputilPut .multipath
      (put16 mp.fields.wire ++ (put16 mp.basis ++ (put16 0 ++ (put16 mp.algorithm.wire ++
        (put16 mp.maxLink ++ (put32 mp.arg ++ (put16 0 ++ (put16 mp.dst.ofsNbits ++
          put32 header))))))))) := by
    rw [ofpactToOpenflow10, multipathToNxast, headerEq]
    rfl
  have passed : mfCheckDst mp.dst none = none := checked
  refine .fixed encoded rfl rfl rfl fun rest => ?_
  simp [ofpactFromCode, multipathFromOpenflow, wireType, WireType.header, back, passed, accept,
    Except.map, Ofpact.reread, Nat.not_lt.mpr wide]

theorem encodes_autopath {dst : MfSubfield} {port : BitVec 32}
    (checked : (Ofpact.autopath dst port).Checked) (carried : (Ofpact.autopath dst port).Carried) :
    (Ofpact.autopath dst port).Encodes := by
  obtain ⟨coded, wide⟩ := carried
  obtain ⟨header, headerEq, back⟩ := decodeSubfield_ofsNbits (mfCheck_of_mfCheckDst checked) coded
  have encoded : ofpactToOpenflow10 (.autopath dst port) = some (ofputilPut .autopath
      (put16 dst.ofsNbits ++ (put32 header ++ (put32 port ++ put32 0)))) := by
    rw [ofpactToOpenflow10, autopathToNxast, headerEq]
    rfl
  have passed : mfCheckDst dst none = none := checked
  refine .fixed encoded rfl rfl rfl fun rest => ?_
  simp [ofpactFromCode, autopathFromOpenflow, wireType, WireType.header, back, passed, accept,
    Except.map, Ofpact.reread, Nat.not_lt.mpr wide]

end Fixed

theorem encodes_note {data : List (BitVec 8)} (carried : (Ofpact.note data).Carried) :
    (Ofpact.note data).Encodes := by
  have short : 10 + data.length ≤ 65528 := carried
  have less := padding_lt (10 + data.length)
  have aligned := aligned_add_padding (10 + data.length)
  have length : (ActionCode.note.wireType.header (10 + data.length + padding (10 + data.length)) ++
      (data ++ zeros (padding (10 + data.length)))).length =
        10 + data.length + padding (10 + data.length) := by
    simp [ActionCode.wireType, WireType.header]
    omega
  refine ⟨_, rfl, length, .of_code length aligned (by omega) ?_ fun rest => ?_⟩
  · exact decide_eq_true (by rw [ActionCode.size]; omega)
  · rw [ofpactFromCode, noteFromOpenflow, actionLen_header _ _ (by omega), ← List.append_assoc,
      List.take_left' length]
    rfl

theorem length_putPadded (xs : List (BitVec 16)) :
    (putPadded xs).length = 2 * xs.length + padding (2 * xs.length) := by
  rw [putPadded, List.length_append, length_put16s, length_zeros]

theorem Ofpact.Encodes.long {ofpact : Ofpact} {code : ActionCode} {more : Nat}
    {body : List (BitVec 8)}
    (encoded : ofpactToOpenflow10 ofpact = some (ofputilPutLong code more body))
    (extensible : code.extensible = true)
    (length : (ofputilPutLong code more body).length = code.size + more)
    (aligned : more % 8 = 0) (fits : code.size + more < 2 ^ 16)
    (wireLen : ofpact.wireLen = code.size + more)
    (reads : ∀ rest,
      actionLen (code.wireType.header (code.size + more) ++ (body ++ rest)) = code.size + more →
      ofpactFromCode (code.wireType.header (code.size + more) ++ (body ++ rest)) code =
        .ok ofpact.reread) :
    ofpact.Encodes := by
  have whole : code.size % 8 = 0 := by cases code <;> rfl
  have lenOk : code.lenOk (code.size + more) := by
    rw [ActionCode.lenOk, if_pos extensible]
    exact decide_eq_true (Nat.le_add_right _ _)
  exact ⟨_, encoded, by rw [length, wireLen], WireFrame.of_code length (by omega) fits lenOk
    fun rest => reads rest (actionLen_header _ _ fits _)⟩

theorem encodes_decTtl {cntIds : List (BitVec 16)} {compat : Option ActionCode}
    (carried : (Ofpact.decTtl cntIds compat).Carried) : (Ofpact.decTtl cntIds compat).Encodes := by
  by_cases plain : compat = some .decTtl
  · refine .fixed (congrArg some (if_pos plain)) rfl rfl (if_pos plain) fun rest => ?_
    rw [Ofpact.reread, if_pos plain]
    rfl
  · have short : 2 * cntIds.length ≤ 65512 := carried
    have less := padding_lt (2 * cntIds.length)
    have aligned := aligned_add_padding (2 * cntIds.length)
    have size : ActionCode.decTtlCntIds.size = 16 := rfl
    have count : cntIds.length % 65536 = cntIds.length := by omega
    refine .long (congrArg some (if_neg plain)) rfl ?_ aligned (by omega) (if_neg plain)
      fun rest stated => ?_
    · simp [ofputilPutLong, ActionCode.wireType, WireType.header, length_putPadded, size]
      omega
    · rw [ofpactFromCode, decTtlCntIdsFromOpenflow, stated, size, Nat.add_sub_cancel_left,
        Ofpact.reread, if_neg plain]
      simp [ActionCode.wireType, WireType.header, count, putPadded, Except.map]

theorem length_bundle (code : ActionCode) (nxast : ∃ subtype, code.wireType = .nxast subtype)
    (more : Nat) (bundle : OfpactBundle) (ofsNbits : BitVec 16) (dst : BitVec 32) :
    (ofputilPutLong code more (bundleBody bundle ofsNbits dst)).length =
      32 + (2 * bundle.slaves.length + padding (2 * bundle.slaves.length)) := by
  obtain ⟨subtype, wire⟩ := nxast
  simp [ofputilPutLong, wire, WireType.header, bundleBody, length_putPadded]
  omega

theorem encodes_bundle {bundle : OfpactBundle} (checked : (Ofpact.bundle bundle).Checked)
    (carried : (Ofpact.bundle bundle).Carried) : (Ofpact.bundle bundle).Encodes := by
  obtain ⟨few, slavesOk, wide⟩ := carried
  have fewer : bundle.slaves.length ≤ 2048 := few
  have less := padding_lt (2 * bundle.slaves.length)
  have aligned := aligned_add_padding (2 * bundle.slaves.length)
  have count : bundle.slaves.length % 65536 = bundle.slaves.length := by omega
  cases named : bundle.dst.field with
  | some id =>
    have isSome : bundle.dst.field.isSome := by rw [named, Option.isSome_some]
    obtain ⟨coded, sixteen⟩ := wide isSome
    have dstOk := checked isSome
    obtain ⟨header, headerEq, back⟩ :=
      decodeSubfield_ofsNbits (mfCheck_of_mfCheckDst dstOk) coded
    have size : ActionCode.bundleLoad.size = 32 := rfl
    have encoded : ofpactToOpenflow10 (.bundle bundle) = some (ofputilPutLong .bundleLoad
        (2 * bundle.slaves.length + padding (2 * bundle.slaves.length))
        (bundleBody bundle bundle.dst.ofsNbits header)) := by
      rw [ofpactToOpenflow10, bundleToNxast, headerEq]
    have passed : bundleCheck bundle ofppMax none = none := by
      rw [bundleCheck, if_pos isSome, dstOk, slavesOk, Option.or_none]
    refine .long encoded rfl (length_bundle _ ⟨_, rfl⟩ _ _ _ _) aligned (by omega) rfl
      fun rest stated => ?_
    rw [ofpactFromCode, bundleFromOpenflow, stated, size, Nat.add_sub_cancel_left,
      Ofpact.reread, if_pos isSome]
    simp [ActionCode.wireType, WireType.header, bundleBody, bundleDst, count, putPadded,
      Except.map, back, accept, passed, Nat.not_lt.mpr sixteen, bundleMaxSlaves,
      Nat.not_lt.mpr fewer]
  | none =>
    have isNone : ¬ bundle.dst.field.isSome := by simp [named]
    have size : ActionCode.bundle.size = 32 := rfl
    have encoded : ofpactToOpenflow10 (.bundle bundle) = some (ofputilPutLong .bundle
        (2 * bundle.slaves.length + padding (2 * bundle.slaves.length))
        (bundleBody bundle 0 0)) := by
      rw [ofpactToOpenflow10, bundleToNxast, MfSubfield.nxmHeader, named, Option.map_none]
    have passed : bundleCheck { bundle with dst := .zero } ofppMax none = none := by
      rw [bundleCheck, if_neg (by simp [MfSubfield.zero]), slavesOk, Option.or_none]
    refine .long encoded rfl (length_bundle _ ⟨_, rfl⟩ _ _ _ _) aligned (by omega) rfl
      fun rest stated => ?_
    rw [ofpactFromCode, bundleFromOpenflow, stated, size, Nat.add_sub_cancel_left,
      Ofpact.reread, if_neg isNone]
    simp [ActionCode.wireType, WireType.header, bundleBody, bundleDst, count, putPadded,
      Except.map, accept, passed, bundleMaxSlaves, Nat.not_lt.mpr fewer]

theorem encodes_learn {learn : OfpactLearn} (written : ∀ spec ∈ learn.specs, spec.Written)
    (carried : (Ofpact.learn learn).Carried) : (Ofpact.learn learn).Encodes := by
  obtain ⟨flagsOk, tableOk, few, specsCarried⟩ := carried
  have fewer : learn.specs.length ≤ 1023 := few
  have even := specsLen_even learn.specs
  have bounded := specsLen_le specsCarried
  have less := padding_lt (specsLen learn.specs)
  have aligned := aligned_add_padding (specsLen learn.specs)
  have size : ActionCode.learn.size = 32 := rfl
  obtain ⟨bytes, put, length, loop⟩ := learnSpecsFromOpenflow_putSpecs
    fun spec listed => ⟨written spec listed, specsCarried spec listed⟩
  rw [← length] at even bounded less aligned
  have encoded : ofpactToOpenflow10 (.learn learn) = some (ofputilPutLong .learn
      (bytes.length + padding bytes.length)
      (learnBody learn ++ (bytes ++ zeros (padding bytes.length)))) := by
    rw [ofpactToOpenflow10, learnToNxast, put]
    rfl
  refine .long encoded rfl ?_ aligned (by omega) ?_ fun rest stated => ?_
  · simp [ofputilPutLong, ActionCode.wireType, WireType.header, learnBody, size]
    omega
  · rw [Ofpact.wireLen, ← length]
    rfl
  · obtain ⟨a, aEq⟩ : ∃ a, a = ActionCode.learn.wireType.header
        (ActionCode.learn.size + (bytes.length + padding bytes.length)) ++
          ((learnBody learn ++ (bytes ++ zeros (padding bytes.length))) ++ rest) := ⟨_, rfl⟩
    rw [← aEq, size, ← Nat.add_assoc] at stated
    rw [← aEq]
    have front : a.drop 32 = bytes ++ (zeros (padding bytes.length) ++ rest) := by
      simp [aEq, ActionCode.wireType, WireType.header, learnBody]
    have room : 32 + bytes.length + padding bytes.length ≤ a.length := by
      simp [aEq, ActionCode.wireType, WireType.header, learnBody]
      omega
    obtain ⟨last, looped, trailer⟩ := loop front room (by omega)
    rw [ofpactFromCode, learnFromOpenflow, stated, looped]
    have allowed : ¬ (¬ learn.flags &&& 65534#16 = 0#16 ∨ learn.tableId = 255#8) := by
      rintro (flags | table)
      · exact flags flagsOk
      · exact tableOk table
    simp only [trailer]
    simp [aEq, ActionCode.wireType, WireType.header, learnBody, if_neg allowed,
      Nat.not_lt.mpr few, Except.map, Ofpact.reread]

theorem encodes_remote (port : BitVec 16) (ip : BitVec 32) : (Ofpact.remote port ip).Encodes :=
  .fixed rfl rfl rfl rfl fun _ => rfl

theorem Ofpact.encodes {ofpact : Ofpact} (checked : ofpact.Checked) (carried : ofpact.Carried) :
    ofpact.Encodes := by
  cases ofpact
  case output => exact encodes_output carried
  case remote => exact encodes_remote _ _
  case enqueue => exact encodes_enqueue carried
  case outputReg => exact encodes_outputReg checked carried
  case bundle => exact encodes_bundle checked carried
  case regMove => exact encodes_regMove checked carried
  case regLoad => exact encodes_regLoad checked carried
  case decTtl => exact encodes_decTtl carried
  case setTunnel => exact encodes_setTunnel _ _
  case resubmit => exact encodes_resubmit _ _ _
  case learn =>
    obtain ⟨-, -, -, specsCarried⟩ := id carried
    exact encodes_learn (fun spec listed => (checked spec listed).written (specsCarried spec listed))
      carried
  case multipath => exact encodes_multipath checked carried
  case autopath => exact encodes_autopath checked carried
  case note => exact encodes_note carried
  case setVlanVid | setVlanPcp | setIpv4Dscp =>
    refine .fixed rfl rfl rfl rfl fun rest => ?_
    rw [Ofpact.Carried] at carried
    simpa [ofpactFromCode, ActionCode.wireType, WireType.header, reread] using carried
  case stripVlan | popQueue | exit => exact .fixed rfl rfl rfl rfl fun _ => rfl
  case setEthSrc | setEthDst | setIpv4Src | setIpv4Dst | setL4SrcPort | setL4DstPort | setQueue =>
    refine .fixed rfl rfl rfl rfl fun rest => ?_
    simp [ofpactFromCode, ActionCode.wireType, WireType.header, reread]
  case controller | finTimeout =>
    refine .fixed rfl rfl rfl rfl fun rest => ?_
    simp [ofpactFromCode, controllerFromOpenflow, finTimeoutFromOpenflow, ActionCode.wireType,
      WireType.header, Except.map, reread]

end LazyCtrl
