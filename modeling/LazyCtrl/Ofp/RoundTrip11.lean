import LazyCtrl.Ofp.Openflow11
import LazyCtrl.Ofp.RoundTrip

/-!
# Encoding and decoding a list of actions in OpenFlow 1.1

`ofpacts_put_openflow11_actions` and `ofpacts_put_openflow11_instructions`, and what their decoders
make of the bytes.  The actions that OpenFlow 1.1 has no encoding for are left out.  The Nicira
actions are those of OpenFlow 1.0.  The theorem at the end says for which lists both decoders return
the list that was encoded.
-/

namespace LazyCtrl

open Bytes Frames

def ofputilPortToOfp11 (ofp10Port : BitVec 16) : BitVec 32 :=
  if ofp10Port.toNat < ofppMax then ofp10Port.setWidth 32 else ofp10Port.setWidth 32 + 0xffff0000

def ofputilPut11 (code : Action11Code) (body : List (BitVec 8)) : List (BitVec 8) :=
  put16 code.wireType ++ (put16 (BitVec.ofNat 16 code.size) ++ body)

def ofpactToOpenflow11 : Ofpact → Option (List (BitVec 8))
  | .output port maxLen =>
    some (ofputilPut11 .output (put32 (ofputilPortToOfp11 port) ++ (put16 maxLen ++ zeros 6)))
  | .enqueue .. | .remote .. | .stripVlan => some []
  | .setVlanVid vlanVid => some (ofputilPut11 .setVlanVid (put16 vlanVid ++ zeros 2))
  | .setVlanPcp vlanPcp => some (ofputilPut11 .setVlanPcp (vlanPcp :: zeros 3))
  | .setEthSrc mac => some (ofputilPut11 .setDlSrc (put48 mac ++ zeros 6))
  | .setEthDst mac => some (ofputilPut11 .setDlDst (put48 mac ++ zeros 6))
  | .setIpv4Src ipv4 => some (ofputilPut11 .setNwSrc (put32 ipv4))
  | .setIpv4Dst ipv4 => some (ofputilPut11 .setNwDst (put32 ipv4))
  | .setIpv4Dscp dscp => some (ofputilPut11 .setNwTos (dscp :: zeros 3))
  | .setL4SrcPort port => some (ofputilPut11 .setTpSrc (put16 port ++ zeros 2))
  | .setL4DstPort port => some (ofputilPut11 .setTpDst (put16 port ++ zeros 2))
  | ofpact => ofpactToOpenflow10 ofpact

def ofpactsPutOpenflow11Actions : List Ofpact → Option (List (BitVec 8))
  | [] => some []
  | ofpact :: ofpacts => do
      let front ← ofpactToOpenflow11 ofpact
      let back ← ofpactsPutOpenflow11Actions ofpacts
      return front ++ back

def ofpactsPutOpenflow11Instructions (ofpacts : List Ofpact) : Option (List (BitVec 8)) :=
  (ofpactsPutOpenflow11Actions ofpacts).map fun actions =>
    if actions ≠ [] then applyActions actions else []

def Ofpact.IsLeftOut (ofpact : Ofpact) : Prop :=
  ofpact.type = .enqueue ∨ ofpact.type = .remote ∨ ofpact.type = .stripVlan

def Ofpact.wireLen11 : Ofpact → Nat
  | .output .. => 16
  | ofpact => ofpact.wireLen

/-- The subfields of the action pass the checks of the decoder; a learning step is not taken for the
end of the steps. -/
def Ofpact.Intact : Ofpact → Prop
  | .learn act => ∀ spec ∈ act.specs, spec.header ≠ 0
  | ofpact => ofpact.Checked

def Ofpact.Encodes11 (ofpact : Ofpact) : Prop :=
  ∃ wire, ofpactToOpenflow11 ofpact = some wire ∧ wire.length = ofpact.wireLen11 ∧
    Framed ofpactFromOpenflow11 wire ofpact.reread

theorem actionLen_ofputilPut11 (code : Action11Code) (body rest : List (BitVec 8)) :
    actionLen (ofputilPut11 code body ++ rest) = code.size := by
  have fits : code.size < 2 ^ 16 := by cases code <;> decide
  simpa [actionLen, ofputilPut11] using fits

theorem ofpactFromOpenflow11_ofputilPut11 (code : Action11Code) (body rest : List (BitVec 8)) :
    ofpactFromOpenflow11 (ofputilPut11 code body ++ rest) =
      (ofpactFromCode11 (ofputilPut11 code body ++ rest) code).map some := by
  have type : be16 (ofputilPut11 code body ++ rest) 0 = code.wireType := by simp [ofputilPut11]
  have notVendor : code.wireType ≠ ofpat10Vendor := by cases code <;> decide
  rw [ofpactFromOpenflow11, type, if_neg notVendor, decodeOpenflow11Type, type,
    Action11Code.ofWireType_wireType, actionLen_ofputilPut11]
  simp

theorem Ofpact.Encodes11.fixed {ofpact : Ofpact} {code : Action11Code} {body : List (BitVec 8)}
    (encoded : ofpactToOpenflow11 ofpact = some (ofputilPut11 code body))
    (length : (ofputilPut11 code body).length = code.size) (wireLen : ofpact.wireLen11 = code.size)
    (reads : ∀ rest, (ofpactFromCode11 (ofputilPut11 code body ++ rest) code).map some =
      .ok ofpact.reread) :
    ofpact.Encodes11 :=
  ⟨_, encoded, length.trans wireLen.symm,
    { aligned := by
        rw [length]
        cases code <;> rfl
      long := by
        rw [length]
        cases code <;> decide
      stated := fun rest => by rw [actionLen_ofputilPut11, length]
      decoded := fun rest => (ofpactFromOpenflow11_ofputilPut11 code body rest).trans (reads rest) }⟩

theorem ofputilPortFromOfp11_ofputilPortToOfp11 (port : BitVec 16) :
    ofputilPortFromOfp11 (ofputilPortToOfp11 port) = .ok port := by
  have small := port.isLt
  rw [ofputilPortToOfp11]
  by_cases low : port.toNat < ofppMax
  · have wide : (port.setWidth 32).toNat = port.toNat := by
      rw [BitVec.toNat_setWidth]
      omega
    rw [if_pos low, ofputilPortFromOfp11, wide, if_pos low]
    simp
  · have high : 0xff00 ≤ port.toNat := by
      have := low
      rw [ofppMax] at this
      omega
    have offset : (0xffff0000 : BitVec 32).toNat = 0xffff0000 := rfl
    have wide : (port.setWidth 32 + 0xffff0000).toNat = port.toNat + 0xffff0000 := by
      rw [BitVec.toNat_add, BitVec.toNat_setWidth, offset]
      omega
    rw [if_neg low, ofputilPortFromOfp11, wide, if_neg, if_pos]
    · rw [BitVec.add_sub_cancel]
      simp
    · rw [ofpp11Max]
      omega
    · rw [ofppMax]
      omega

def Ofpact.IsNicira : Ofpact → Prop
  | .output .. | .enqueue .. | .remote .. | .stripVlan | .setVlanVid .. | .setVlanPcp ..
  | .setEthSrc .. | .setEthDst .. | .setIpv4Src .. | .setIpv4Dst .. | .setIpv4Dscp ..
  | .setL4SrcPort .. | .setL4DstPort .. => False
  | _ => True

theorem be16_header {type : WireType} {subtype : BitVec 16} (nxast : type = .nxast subtype)
    (len : Nat) (body : List (BitVec 8)) : be16 (type.header len ++ body) 0 = ofpat10Vendor := by
  subst nxast
  simp [WireType.header]

theorem be16_of_nicira {ofpact : Ofpact} {wire : List (BitVec 8)} (nicira : ofpact.IsNicira)
    (encoded : ofpactToOpenflow10 ofpact = some wire) (rest : List (BitVec 8)) :
    be16 (wire ++ rest) 0 = ofpat10Vendor := by
  have front {code : ActionCode} {subtype : BitVec 16} (nxast : code.wireType = .nxast subtype)
      (len : Nat) (body : List (BitVec 8)) :
      be16 (code.wireType.header len ++ body ++ rest) 0 = ofpat10Vendor := by
    rw [List.append_assoc, be16_header nxast]
  cases ofpact
  case output | enqueue | remote | stripVlan | setVlanVid | setVlanPcp | setEthSrc | setEthDst
      | setIpv4Src | setIpv4Dst | setIpv4Dscp | setL4SrcPort | setL4DstPort => exact nicira.elim
  case outputReg | regLoad | multipath | autopath | learn =>
    obtain ⟨_, -, encoded⟩ := Option.bind_eq_some_iff.mp encoded
    obtain rfl := Option.some.inj encoded
    exact front rfl _ _
  case regMove =>
    obtain ⟨_, -, encoded⟩ := Option.bind_eq_some_iff.mp encoded
    obtain ⟨_, -, encoded⟩ := Option.bind_eq_some_iff.mp encoded
    obtain rfl := Option.some.inj encoded
    exact front rfl _ _
  all_goals obtain rfl := Option.some.inj encoded
  case decTtl =>
    rw [ofpactDecTtlToNxast]
    split <;> exact front rfl _ _
  case setTunnel =>
    rw [ofpactSetTunnelToNxast]
    split <;> exact front rfl _ _
  case resubmit =>
    rw [ofpactResubmitToNxast]
    split <;> exact front rfl _ _
  case bundle =>
    rw [bundleToNxast]
    split <;> exact front rfl _ _
  all_goals exact front rfl _ _

theorem ofpactFromOpenflow11_of_vendor {a : List (BitVec 8)} (vendor : be16 a 0 = ofpat10Vendor) :
    ofpactFromOpenflow11 a = ofpactFromOpenflow10 a := by
  have same : decodeOpenflow10Action a = decodeNxastAction a := if_pos vendor
  cases decoded : decodeNxastAction a <;>
    simp [ofpactFromOpenflow11, ofpactFromOpenflow10, vendor, same, decoded]

theorem Ofpact.Encodes.encodes11 {ofpact : Ofpact} (encodes : ofpact.Encodes)
    (nicira : ofpact.IsNicira) : ofpact.Encodes11 := by
  obtain ⟨wire, encoded, length, frame⟩ := encodes
  have vendor := be16_of_nicira nicira encoded
  refine ⟨wire, ?_, ?_, ?_⟩
  · rw [← encoded]
    cases ofpact <;> first | rfl | exact nicira.elim
  · rw [length]
    cases ofpact <;> first | rfl | exact nicira.elim
  · exact {
      aligned := frame.aligned
      long := frame.long
      stated := frame.stated
      decoded := fun rest => by rw [ofpactFromOpenflow11_of_vendor (vendor rest), frame.decoded] }

theorem LearnSpec.named_of_put {spec : LearnSpec} {bytes : List (BitVec 8)}
    (put : spec.put = some bytes) : spec.src.Named ∧ spec.dst.Named := by
  have named {sf : MfSubfield} {bytes : List (BitVec 8)} (put : putSubfield sf = some bytes) :
      sf.field.isSome := by
    obtain ⟨header, found, -⟩ := Option.bind_eq_some_iff.mp put
    obtain ⟨id, field, -⟩ := Option.map_eq_some_iff.mp found
    rw [field]
    rfl
  obtain ⟨src, srcPut, put⟩ := Option.bind_eq_some_iff.mp put
  obtain ⟨dst, dstPut, -⟩ := Option.bind_eq_some_iff.mp put
  constructor
  · cases srcEq : spec.src with
    | field sf =>
      rw [srcEq] at srcPut
      exact named srcPut
    | immediate value => trivial
  · cases dstEq : spec.dst with
    | matching sf | load sf =>
      rw [dstEq] at dstPut
      exact named dstPut
    | output => trivial

theorem exists_put_of_putSpecs {specs : List LearnSpec} {bytes : List (BitVec 8)}
    (put : putSpecs specs = some bytes) : ∀ spec ∈ specs, ∃ front, spec.put = some front := by
  induction specs generalizing bytes with
  | nil => simp
  | cons spec specs ih =>
    obtain ⟨front, frontPut, put⟩ := Option.bind_eq_some_iff.mp put
    obtain ⟨back, backPut, -⟩ := Option.bind_eq_some_iff.mp put
    exact List.forall_mem_cons.mpr ⟨⟨front, frontPut⟩, ih backPut⟩

theorem Ofpact.encodes11 {ofpact : Ofpact} {wire : List (BitVec 8)} (leftIn : ¬ ofpact.IsLeftOut)
    (encoded : ofpactToOpenflow11 ofpact = some wire) (carried : ofpact.Carried)
    (intact : ofpact.Intact) : ofpact.Encodes11 := by
  cases ofpact
  case output port maxLen =>
    have portOk : ofputilCheckOutputPort port ofppMax = none := carried
    refine .fixed rfl rfl rfl fun rest => ?_
    have wirePort : be32 (ofputilPut11 .output (put32 (ofputilPortToOfp11 port) ++
        (put16 maxLen ++ zeros 6)) ++ rest) 4 = ofputilPortToOfp11 port := by
      simp [ofputilPut11]
    have wireMaxLen : be16 (ofputilPut11 .output (put32 (ofputilPortToOfp11 port) ++
        (put16 maxLen ++ zeros 6)) ++ rest) 8 = maxLen := by
      simp [ofputilPut11]
    rw [ofpactFromCode11, outputFromOpenflow11, wirePort, wireMaxLen,
      ofputilPortFromOfp11_ofputilPortToOfp11, Except.bind, portOk]
    rfl
  case enqueue => exact absurd (.inl rfl) leftIn
  case remote => exact absurd (.inr (.inl rfl)) leftIn
  case stripVlan => exact absurd (.inr (.inr rfl)) leftIn
  case setVlanVid | setVlanPcp | setIpv4Dscp =>
    refine .fixed rfl rfl rfl fun rest => ?_
    simp only [Ofpact.Carried, BitVec.reduceNot] at carried
    simp [ofpactFromCode11, ofputilPut11, reread, Except.map, carried]
  case setEthSrc | setEthDst | setIpv4Src | setIpv4Dst | setL4SrcPort | setL4DstPort =>
    refine .fixed rfl rfl rfl fun rest => ?_
    simp [ofpactFromCode11, ofputilPut11, reread, Except.map]
  case learn act =>
    obtain ⟨bytes, put, -⟩ := Option.bind_eq_some_iff.mp encoded
    refine (encodes_learn (fun spec listed => ?_) carried).encodes11 trivial
    obtain ⟨front, put⟩ := exists_put_of_putSpecs put spec listed
    obtain ⟨src, dst⟩ := LearnSpec.named_of_put put
    exact ⟨src, dst, intact spec listed⟩
  all_goals
    refine (Ofpact.encodes ?_ carried).encodes11 trivial
    exact intact

def OfpactType.HasSubfields (type : OfpactType) : Prop :=
  type ∈ [.outputReg, .bundle, .regMove, .regLoad, .learn, .multipath, .autopath]

instance : DecidablePred OfpactType.HasSubfields := fun _ => inferInstanceAs (Decidable (_ ∈ _))

theorem checked_of_not_hasSubfields {ofpact : Ofpact} (plain : ¬ ofpact.type.HasSubfields) :
    ofpact.Checked := by
  cases ofpact
  case outputReg | bundle | regMove | regLoad | learn | multipath | autopath =>
    exact absurd (by simp [OfpactType.HasSubfields, Ofpact.type]) plain
  all_goals trivial

section Decoder

variable {a : List (BitVec 8)}

theorem ofpactFromCode_checked {code : ActionCode} {ofpact : Ofpact} (aligned : actionLen a % 8 = 0)
    (lenOk : code.lenOk (actionLen a)) (notLearn : code ≠ .learn)
    (decoded : ofpactFromCode a code = .ok (some ofpact)) : ofpact.Checked := by
  by_cases plain : code.ofpactType.HasSubfields
  · cases code
    case outputReg =>
      obtain ⟨_, returned, some⟩ := map_some_eq_ok.mp decoded
      obtain rfl := Option.some.inj some
      rw [outputRegFromOpenflow, badArgument, reject_eq_ok, accept_eq_ok] at returned
      obtain ⟨-, checked, rfl⟩ := returned
      exact checked
    case regMove =>
      obtain ⟨_, returned, some⟩ := map_some_eq_ok.mp decoded
      obtain rfl := Option.some.inj some
      rw [nxmRegMoveFromOpenflow, accept_eq_ok] at returned
      obtain ⟨checked, rfl⟩ := returned
      exact Option.or_eq_none_iff.mp checked
    case regLoad =>
      obtain ⟨_, returned, some⟩ := map_some_eq_ok.mp decoded
      obtain rfl := Option.some.inj some
      rw [nxmRegLoadFromOpenflow, badArgument, reject_eq_ok, accept_eq_ok] at returned
      obtain ⟨-, checked, rfl⟩ := returned
      exact checked
    case autopath =>
      obtain ⟨_, returned, some⟩ := map_some_eq_ok.mp decoded
      obtain rfl := Option.some.inj some
      rw [autopathFromOpenflow, badArgument, reject_eq_ok, accept_eq_ok] at returned
      obtain ⟨-, checked, rfl⟩ := returned
      exact checked
    case multipath =>
      obtain ⟨_, returned, some⟩ := map_some_eq_ok.mp decoded
      obtain rfl := Option.some.inj some
      rw [multipathFromOpenflow] at returned
      split at returned
      · rw [badArgument, reject_eq_ok, accept_eq_ok] at returned
        obtain ⟨-, checked, rfl⟩ := returned
        exact checked
      · cases returned
    case bundle | bundleLoad =>
      obtain ⟨_, returned, some⟩ := map_some_eq_ok.mp decoded
      obtain rfl := Option.some.inj some
      rw [bundleFromOpenflow, badLen, reject_eq_ok] at returned
      obtain ⟨-, returned⟩ := returned
      split at returned
      · rw [badArgument, reject_eq_ok, accept_eq_ok] at returned
        obtain ⟨-, checked, rfl⟩ := returned
        intro named
        have passed := (Option.or_eq_none_iff.mp checked).1
        rw [if_pos named] at passed
        exact passed
      · cases returned
    case learn => exact absurd rfl notLearn
    all_goals exact absurd plain (by decide)
  · obtain ⟨-, none⟩ | ⟨-, other, some, suits⟩ := ofpactFromCode_suits aligned lenOk decoded
    · cases none
    · obtain rfl := Option.some.inj some
      refine checked_of_not_hasSubfields ?_
      rw [suits.1]
      exact plain

theorem ofpactFromCode11_suits {code : Action11Code} {ofpact : Ofpact}
    (decoded : ofpactFromCode11 a code = .ok ofpact) :
    ¬ ofpact.type.HasSubfields ∧ ofpact.Carried := by
  cases code
  case output =>
    rw [ofpactFromCode11, outputFromOpenflow11] at decoded
    obtain fails | ⟨port, found⟩ := ofputilPortFromOfp11_cases (be32 a 4)
    · rw [fails] at decoded
      cases decoded
    · rw [found, Except.bind, accept_eq_ok] at decoded
      obtain ⟨checked, rfl⟩ := decoded
      exact ⟨by simp [Ofpact.type, OfpactType.HasSubfields], checked⟩
  case setVlanVid | setVlanPcp | setNwTos =>
    rw [ofpactFromCode11, badArgument, reject_eq_ok] at decoded
    obtain ⟨fits, decoded⟩ := decoded
    obtain rfl := Except.ok.inj decoded
    exact ⟨by simp [Ofpact.type, OfpactType.HasSubfields], not_not.mp fits⟩
  all_goals
    obtain rfl := Except.ok.inj decoded
    exact ⟨by simp [Ofpact.type, OfpactType.HasSubfields], trivial⟩

theorem ofpactFromOpenflow11_suits {emitted : Option Ofpact} (aligned : actionLen a % 8 = 0)
    (decoded : ofpactFromOpenflow11 a = .ok emitted) :
    ∃ ofpact, emitted = some ofpact ∧ ofpact.Carried ∧ (ofpact.type ≠ .learn → ofpact.Checked) := by
  by_cases vendor : be16 a 0 = ofpat10Vendor
  · rw [ofpactFromOpenflow11, if_pos vendor] at decoded
    split at decoded
    · cases decoded
    · rename_i code codeEq
      have kept := ofpactFromCode_ne_none aligned codeEq
      rw [decodeNxastAction, reject_eq_ok, reject_eq_ok] at codeEq
      obtain ⟨-, lenOk⟩ := decodeWireType_eq_ok codeEq.2.2
      obtain ⟨-, rfl⟩ | ⟨-, ofpact, rfl, suits⟩ := ofpactFromCode_suits aligned lenOk decoded
      · exact absurd decoded kept
      · refine ⟨ofpact, rfl, suits.2, fun notLearn => ?_⟩
        refine ofpactFromCode_checked aligned lenOk ?_ decoded
        rintro rfl
        exact notLearn suits.1
  · rw [ofpactFromOpenflow11, if_neg vendor] at decoded
    split at decoded
    · cases decoded
    · obtain ⟨ofpact, returned, rfl⟩ := map_some_eq_ok.mp decoded
      obtain ⟨plain, carried⟩ := ofpactFromCode11_suits returned
      exact ⟨ofpact, rfl, carried, fun _ => checked_of_not_hasSubfields plain⟩

theorem learnSpecsFromOpenflow_cons {stop p last : Nat} {spec : LearnSpec} {specs : List LearnSpec}
    (loop : learnSpecsFromOpenflow a stop p = .ok (spec :: specs, last)) :
    ∃ q, learnTurn a stop p = .ok (some spec, q) ∧
      learnSpecsFromOpenflow a stop q = .ok (specs, last) := by
  rw [learnSpecsFromOpenflow] at loop
  split at loop
  · cases loop
  · cases loop
  · rename_i other q turn
    cases rest : learnSpecsFromOpenflow a stop q with
    | error fault =>
      rw [rest] at loop
      cases loop
    | ok result =>
      rw [rest] at loop
      obtain ⟨listed, rfl⟩ := Prod.mk.inj (Except.ok.inj loop)
      obtain ⟨rfl, rfl⟩ := List.cons.inj listed
      exact ⟨q, turn, rest⟩

theorem header_ne_zero_of_loop {stop p last : Nat} {specs : List LearnSpec}
    {bytes rest : List (BitVec 8)} (carried : ∀ spec ∈ specs, spec.Carried)
    (put : putSpecs specs = some bytes) (front : a.drop p = bytes ++ rest)
    (inside : p + bytes.length ≤ stop) (room : stop ≤ a.length)
    (loop : learnSpecsFromOpenflow a stop p = .ok (specs, last)) :
    ∀ spec ∈ specs, spec.header ≠ 0 := by
  induction specs generalizing p bytes with
  | nil => simp
  | cons spec specs ih =>
    rw [List.forall_mem_cons] at carried ⊢
    obtain ⟨first, firstPut, put⟩ := Option.bind_eq_some_iff.mp put
    obtain ⟨others, othersPut, put⟩ := Option.bind_eq_some_iff.mp put
    obtain rfl := Option.some.inj put
    obtain ⟨q, turn, loop⟩ := learnSpecsFromOpenflow_cons loop
    have nonzero : spec.header ≠ 0 := by
      obtain ⟨src, -, parts⟩ := Option.bind_eq_some_iff.mp firstPut
      obtain ⟨dst, -, parts⟩ := Option.bind_eq_some_iff.mp parts
      obtain rfl := Option.some.inj parts
      have header : be16 a p = spec.header := by
        have atFront := be16_drop a p 0
        rw [front, List.append_assoc, List.append_assoc, be16_put16_append, Nat.add_zero]
          at atFront
        exact atFront.symm
      intro zero
      rw [learnTurn, header, if_pos zero] at turn
      split at turn
      · cases turn
      · split at turn <;> cases turn
    refine ⟨nonzero, ?_⟩
    obtain ⟨src, dst⟩ := LearnSpec.named_of_put firstPut
    obtain ⟨_, samePut, -, turns⟩ := learnTurn_put ⟨src, dst, nonzero⟩ carried.1
    obtain rfl := Option.some.inj (firstPut.symm.trans samePut)
    rw [List.append_assoc] at front
    rw [List.length_append] at inside
    have taken := turns front (by omega) room
    obtain ⟨-, rfl⟩ := Prod.mk.inj (Except.ok.inj (turn.symm.trans taken))
    refine ih carried.2 othersPut ?_ (by omega) loop
    rw [← List.drop_drop, front, List.drop_left]

end Decoder

theorem learnSpecs_of_learnFromOpenflow {a : List (BitVec 8)} {learn : OfpactLearn}
    (decoded : learnFromOpenflow a = .ok (.learn learn)) :
    ∃ last, learnSpecsFromOpenflow a (actionLen a) 32 = .ok (learn.specs, last) := by
  rw [learnFromOpenflow, badArgument, reject_eq_ok, reject_eq_ok] at decoded
  obtain ⟨-, -, decoded⟩ := decoded
  split at decoded
  · cases decoded
  · rename_i specs last loop
    split at decoded
    · cases decoded
    · rw [reject_eq_ok] at decoded
      obtain rfl := Ofpact.learn.inj (Except.ok.inj decoded.2)
      exact ⟨last, loop⟩

theorem header_ne_zero_of_decoded {learn : OfpactLearn} {wire rest : List (BitVec 8)}
    (encoded : learnToNxast learn = some wire) (carried : learn.Carried)
    (stated : actionLen (wire ++ rest) = wire.length)
    (decoded : ofpactFromOpenflow11 (wire ++ rest) = .ok (some (.learn learn))) :
    ∀ spec ∈ learn.specs, spec.header ≠ 0 := by
  obtain ⟨bytes, put, encoded⟩ := Option.bind_eq_some_iff.mp encoded
  obtain rfl := Option.some.inj encoded
  have size : ActionCode.learn.size = 32 := rfl
  have length : (ofputilPutLong .learn (bytes.length + padding bytes.length)
      (learnBody learn ++ (bytes ++ zeros (padding bytes.length)))).length =
        32 + (bytes.length + padding bytes.length) := by
    simp [ofputilPutLong, ActionCode.wireType, WireType.header, learnBody]
    omega
  have fits := (be16 (ofputilPutLong .learn (bytes.length + padding bytes.length)
    (learnBody learn ++ (bytes ++ zeros (padding bytes.length))) ++ rest) 2).isLt
  rw [← actionLen, stated, length] at fits
  have code : decodeOpenflow10Action (ofputilPutLong .learn (bytes.length + padding bytes.length)
      (learnBody learn ++ (bytes ++ zeros (padding bytes.length))) ++ rest) = .ok .learn := by
    rw [ofputilPutLong, List.append_assoc]
    exact decodeOpenflow10Action_header (by rw [size]; exact fits)
      (by simp [ActionCode.lenOk, ActionCode.extensible]) _
  have front : (ofputilPutLong .learn (bytes.length + padding bytes.length)
      (learnBody learn ++ (bytes ++ zeros (padding bytes.length))) ++ rest).drop 32 =
        bytes ++ (zeros (padding bytes.length) ++ rest) := by
    simp [ofputilPutLong, ActionCode.wireType, WireType.header, learnBody]
  generalize wireEq : ofputilPutLong .learn (bytes.length + padding bytes.length)
    (learnBody learn ++ (bytes ++ zeros (padding bytes.length))) = wire at *
  have vendor : be16 (wire ++ rest) 0 = ofpat10Vendor := by
    rw [← wireEq, ofputilPutLong, List.append_assoc]
    exact be16_header rfl _ _
  rw [ofpactFromOpenflow11_of_vendor vendor, ofpactFromOpenflow10, code] at decoded
  obtain ⟨_, returned, some⟩ := map_some_eq_ok.mp decoded
  obtain rfl := Option.some.inj some
  obtain ⟨last, loop⟩ := learnSpecs_of_learnFromOpenflow returned
  rw [stated] at loop
  exact header_ne_zero_of_loop carried.2.2.2 put front (by omega)
    (by rw [List.length_append]; omega) loop

theorem intact_of_decoded {ofpact : Ofpact} {wire rest : List (BitVec 8)}
    (encoded : ofpactToOpenflow11 ofpact = some wire) (carried : ofpact.Carried)
    (stated : actionLen (wire ++ rest) = wire.length) (aligned : wire.length % 8 = 0)
    (decoded : ofpactFromOpenflow11 (wire ++ rest) = .ok (some ofpact)) : ofpact.Intact := by
  have multiple : actionLen (wire ++ rest) % 8 = 0 := by rw [stated, aligned]
  obtain ⟨other, some, -, checked⟩ := ofpactFromOpenflow11_suits multiple decoded
  obtain rfl := Option.some.inj some
  cases ofpact
  case learn => exact header_ne_zero_of_decoded encoded carried stated decoded
  all_goals exact checked (by simp [Ofpact.type])

structure IsFrame (wire : List (BitVec 8)) : Prop where
  aligned : wire.length % 8 = 0
  long : 8 ≤ wire.length
  stated : ∀ rest, actionLen (wire ++ rest) = wire.length

theorem Framed.isFrame {decode : List (BitVec 8) → Except Fault (Option Ofpact)}
    {wire : List (BitVec 8)} {emitted : Option Ofpact} (framed : Framed decode wire emitted) :
    IsFrame wire :=
  ⟨framed.aligned, framed.long, framed.stated⟩

theorem IsFrame.of_header {type : WireType} {len : Nat} {body : List (BitVec 8)}
    (length : (type.header len ++ body).length = len) (aligned : len % 8 = 0) (long : 8 ≤ len)
    (fits : len < 2 ^ 16) : IsFrame (type.header len ++ body) where
  aligned := by rw [length, aligned]
  long := by rw [length]; exact long
  stated := fun rest => by rw [List.append_assoc, actionLen_header type len fits, length]

theorem length_le_of_put {spec : LearnSpec} {bytes : List (BitVec 8)}
    (put : spec.put = some bytes) : bytes.length ≤ 24 := by
  have short {sf : MfSubfield} {bytes : List (BitVec 8)} (put : putSubfield sf = some bytes) :
      bytes.length = 6 := by
    obtain ⟨header, -, put⟩ := Option.bind_eq_some_iff.mp put
    obtain rfl := Option.some.inj put
    rfl
  obtain ⟨src, srcPut, put⟩ := Option.bind_eq_some_iff.mp put
  obtain ⟨dst, dstPut, put⟩ := Option.bind_eq_some_iff.mp put
  obtain rfl := Option.some.inj put
  have srcShort : src.length ≤ 16 := by
    cases srcEq : spec.src with
    | field sf =>
      rw [srcEq] at srcPut
      rw [short srcPut]
      decide
    | immediate value =>
      rw [srcEq, LearnSrc.put] at srcPut
      split at srcPut
      · obtain rfl := Option.some.inj srcPut
        simp [bitwiseCopy, immediateBytes]
        omega
      · cases srcPut
  have dstShort : dst.length ≤ 6 := by
    cases dstEq : spec.dst with
    | matching sf | load sf =>
      rw [dstEq] at dstPut
      rw [short dstPut]
    | output =>
      rw [dstEq] at dstPut
      obtain rfl := Option.some.inj dstPut
      exact Nat.zero_le _
  rw [List.length_append, List.length_append, length_put16]
  omega

theorem length_le_of_putSpecs {specs : List LearnSpec} {bytes : List (BitVec 8)}
    (put : putSpecs specs = some bytes) : bytes.length ≤ 24 * specs.length := by
  induction specs generalizing bytes with
  | nil =>
    obtain rfl := Option.some.inj put
    exact Nat.le_refl 0
  | cons spec specs ih =>
    obtain ⟨front, frontPut, put⟩ := Option.bind_eq_some_iff.mp put
    obtain ⟨back, backPut, put⟩ := Option.bind_eq_some_iff.mp put
    obtain rfl := Option.some.inj put
    have first := length_le_of_put frontPut
    have rest := ih backPut
    rw [List.length_append, List.length_cons]
    omega

theorem isFrame_of_carried {ofpact : Ofpact} {wire : List (BitVec 8)}
    (leftIn : ¬ ofpact.IsLeftOut) (encoded : ofpactToOpenflow11 ofpact = some wire)
    (carried : ofpact.Carried) : IsFrame wire := by
  by_cases plain : ofpact.type.HasSubfields
  · cases ofpact
    case outputReg | regLoad | multipath | autopath =>
      obtain ⟨_, -, encoded⟩ := Option.bind_eq_some_iff.mp encoded
      obtain rfl := Option.some.inj encoded
      exact .of_header rfl rfl (by decide) (by decide)
    case regMove =>
      obtain ⟨_, -, encoded⟩ := Option.bind_eq_some_iff.mp encoded
      obtain ⟨_, -, encoded⟩ := Option.bind_eq_some_iff.mp encoded
      obtain rfl := Option.some.inj encoded
      exact .of_header rfl rfl (by decide) (by decide)
    case bundle act =>
      obtain rfl := Option.some.inj encoded
      have few : act.slaves.length ≤ 2048 := carried.1
      have less := padding_lt (2 * act.slaves.length)
      have aligned := aligned_add_padding (2 * act.slaves.length)
      rw [bundleToNxast]
      split
      · refine .of_header (length_bundle _ ⟨_, rfl⟩ _ _ _ _) ?_ ?_ ?_ <;>
          simp only [ActionCode.size] <;> omega
      · refine .of_header (length_bundle _ ⟨_, rfl⟩ _ _ _ _) ?_ ?_ ?_ <;>
          simp only [ActionCode.size] <;> omega
    case learn act =>
      obtain ⟨bytes, put, encoded⟩ := Option.bind_eq_some_iff.mp encoded
      obtain rfl := Option.some.inj encoded
      have few : act.specs.length ≤ 1023 := carried.2.2.1
      have short := length_le_of_putSpecs put
      have less := padding_lt bytes.length
      have aligned := aligned_add_padding bytes.length
      refine .of_header ?_ ?_ ?_ ?_
      · simp [ActionCode.wireType, WireType.header, learnBody, ActionCode.size]
        omega
      all_goals simp only [ActionCode.size]; omega
    all_goals exact absurd plain (by simp [Ofpact.type, OfpactType.HasSubfields])
  · have intact : ofpact.Intact := by
      have checked := checked_of_not_hasSubfields plain
      cases ofpact
      case learn => exact absurd (by simp [Ofpact.type, OfpactType.HasSubfields]) plain
      all_goals exact checked
    obtain ⟨other, otherEncoded, -, framed⟩ := Ofpact.encodes11 leftIn encoded carried intact
    obtain rfl := Option.some.inj (encoded.symm.trans otherEncoded)
    exact framed.isFrame

theorem isSome_of_decodeLoop {turns left : Nat} {inst : List (BitVec 8)} {out insts : Instructions}
    (decoded : decodeOpenflow11InstructionsLoop turns left inst out = .ok insts)
    {type : OvsInstructionType} (found : (out type).isSome) : (insts type).isSome := by
  induction turns generalizing left inst out with
  | zero =>
    rw [decodeOpenflow11InstructionsLoop] at decoded
    split at decoded
    · cases decoded
    · obtain rfl := Except.ok.inj decoded
      exact found
  | succ turns ih =>
    rw [decodeOpenflow11InstructionsLoop] at decoded
    split at decoded
    · split at decoded
      · cases decoded
      · rename_i next _
        split at decoded
        · cases decoded
        · refine ih decoded ?_
          by_cases same : type = next
          · rw [same, Function.update_self, Option.isSome_some]
          · rw [Function.update_of_ne same]
            exact found
    · split at decoded
      · cases decoded
      · obtain rfl := Except.ok.inj decoded
        exact found

theorem exists_of_decodeLoop {turns left : Nat} {inst : List (BitVec 8)} {out insts : Instructions}
    (ongoing : left ≠ 0)
    (decoded : decodeOpenflow11InstructionsLoop turns left inst out = .ok insts) :
    ∃ type, ¬ (out type).isSome ∧ (insts type).isSome := by
  cases turns with
  | zero =>
    rw [decodeOpenflow11InstructionsLoop, if_pos ongoing] at decoded
    cases decoded
  | succ turns =>
    rw [decodeOpenflow11InstructionsLoop] at decoded
    split at decoded
    · split at decoded
      · cases decoded
      · rename_i next _
        split at decoded
        · cases decoded
        · rename_i fresh
          refine ⟨next, fresh, isSome_of_decodeLoop decoded ?_⟩
          rw [Function.update_self, Option.isSome_some]
    · cases decoded

theorem ofpactsFromInstructions_ne {insts : Instructions} {type : OvsInstructionType}
    (other : type ≠ .applyActions) (found : (insts type).isSome) (ofpacts : List Ofpact) :
    ofpactsFromInstructions insts ≠ some ⟨none, ofpacts⟩ := by
  have unsupported : (insts .gotoTable).isSome ∨ (insts .writeMetadata).isSome ∨
      (insts .writeActions).isSome ∨ (insts .clearActions).isSome := by
    cases type
    case applyActions => exact absurd rfl other
    all_goals simp [found]
  intro returned
  rw [ofpactsFromInstructions] at returned
  split at returned
  all_goals
    obtain ⟨translation, -, returned⟩ := Option.bind_eq_some_iff.mp returned
    simp only [if_pos unsupported] at returned
    cases errorEq : translation.error <;>
      simp [Translation.clearOnError, Translation.inInstruction, errorEq] at returned

theorem ofpactsPullOpenflow11Instructions_oversize {actions : List (BitVec 8)}
    (large : 2 ^ 16 ≤ 8 + actions.length) (ofpacts : List Ofpact) :
    ofpactsPullOpenflow11Instructions (applyActions actions) (8 + actions.length) ≠
      some ⟨none, ofpacts⟩ := by
  intro returned
  have stated : instructionLen (applyActions actions) = (8 + actions.length) % 2 ^ 16 := by
    simp [instructionLen, applyActions]
  rw [ofpactsPullOpenflow11Instructions] at returned
  split at returned
  · cases (InstructionTranslation.mk.inj (Option.some.inj returned)).1
  split at returned
  · cases (InstructionTranslation.mk.inj (Option.some.inj returned)).1
  split at returned
  · cases (InstructionTranslation.mk.inj (Option.some.inj returned)).1
  rename_i aligned _ _ insts decoded
  obtain ⟨units, unitsEq⟩ : ∃ units, (8 + actions.length) / 8 = units + 1 :=
    ⟨(8 + actions.length) / 8 - 1, by omega⟩
  rw [decodeOpenflow11Instructions, unitsEq, decodeOpenflow11InstructionsLoop] at decoded
  split at decoded
  · rename_i ongoing
    obtain ⟨-, long, -⟩ := of_decide_eq_true ongoing.2
    rw [decodeOpenflow11Instruction_applyActions long] at decoded
    simp only [Option.isSome_none, Bool.false_eq_true, if_false, stated] at decoded
    obtain ⟨type, fresh, found⟩ := exists_of_decodeLoop (by omega) decoded
    refine ofpactsFromInstructions_ne ?_ found ofpacts returned
    rintro rfl
    simp at fresh
  · rw [if_pos (by omega)] at decoded
    cases decoded

/-- Both encoders take the list, and both decoders return it unchanged. -/
def RoundTrips11 (ofpacts : List Ofpact) : Prop :=
  (∃ wire, ofpactsPutOpenflow11Actions ofpacts = some wire ∧
    ofpactsPullOpenflow11Actions wire wire.length = some ⟨none, ofpacts⟩) ∧
  (∃ wire, ofpactsPutOpenflow11Instructions ofpacts = some wire ∧
    ofpactsPullOpenflow11Instructions wire wire.length = some ⟨none, ofpacts⟩)

/-- Nothing of the action is rewritten on the way: the `compat` member names the wire action that
the encoder chooses, a plain TTL action has the controller id 0, a plain bundle has no destination,
and a note needs no padding. -/
def Ofpact.Stable : Ofpact → Prop
  | .setTunnel tunId compat =>
    compat = some .setTunnel ∧ tunId.toNat ≤ 0xffffffff ∨ compat = some .setTunnel64
  | .resubmit _ tableId compat =>
    compat = some .resubmit ∧ tableId = 0xff ∨ compat = some .resubmitTable
  | .decTtl cntIds compat =>
    compat = some .decTtl ∧ cntIds = [0] ∨ compat = some .decTtlCntIds
  | .bundle act => act.dst.field = none → act.dst = .zero
  | .note data => (10 + data.length) % 8 = 0
  | _ => True

theorem reread_eq_self_iff {ofpact : Ofpact} (leftIn : ¬ ofpact.IsLeftOut) :
    ofpact.reread = some ofpact ↔ ofpact.Stable := by
  cases ofpact
  case enqueue => exact absurd (.inl rfl) leftIn
  case remote => exact absurd (.inr (.inl rfl)) leftIn
  case stripVlan => exact absurd (.inr (.inr rfl)) leftIn
  case setTunnel tunId compat =>
    simp only [Ofpact.reread, Option.some.injEq, Ofpact.setTunnel.injEq, true_and, Ofpact.Stable]
    split <;> rename_i narrow <;> grind
  case resubmit inPort tableId compat =>
    simp only [Ofpact.reread, Option.some.injEq, Ofpact.resubmit.injEq, true_and, Ofpact.Stable]
    split <;> rename_i plain <;> grind
  case decTtl cntIds compat =>
    simp only [Ofpact.reread, Option.some.injEq, Ofpact.Stable]
    split <;> rename_i plain <;> grind
  case bundle act =>
    simp only [Ofpact.reread, Option.some.injEq, Ofpact.bundle.injEq, Ofpact.Stable]
    cases named : act.dst.field with
    | some id => simp
    | none =>
      obtain ⟨algorithm, fields, basis, dst, slaves⟩ := act
      simp [eq_comm]
  case note data =>
    have less := padding_lt (10 + data.length)
    have aligned := aligned_add_padding (10 + data.length)
    rw [Ofpact.reread, Option.some.injEq, Ofpact.note.injEq, List.append_right_eq_self,
      ← List.length_eq_zero_iff, length_zeros, Ofpact.Stable]
    omega
  all_goals exact iff_of_true rfl trivial

section Lists

variable {ofpacts : List Ofpact}

theorem reduceOption_reread_eq_iff (leftIn : ∀ ofpact ∈ ofpacts, ¬ ofpact.IsLeftOut) :
    (ofpacts.map Ofpact.reread).reduceOption = ofpacts ↔ ∀ ofpact ∈ ofpacts, ofpact.Stable := by
  induction ofpacts with
  | nil => simp
  | cons ofpact ofpacts ih =>
    rw [List.forall_mem_cons] at leftIn ⊢
    rw [← ih leftIn.2, ← reread_eq_self_iff leftIn.1, List.map_cons]
    obtain ⟨back, reread⟩ : ∃ back, ofpact.reread = some back := by
      cases ofpact
      case remote => exact absurd (.inr (.inl rfl)) leftIn.1
      all_goals exact ⟨_, rfl⟩
    rw [reread, List.reduceOption_cons_of_some, List.cons.injEq, Option.some.injEq]

theorem exists_wires {wire : List (BitVec 8)}
    (encoded : ofpactsPutOpenflow11Actions ofpacts = some wire) :
    ∃ wires, wire = wires.flatten ∧
      List.Forall₂ (fun ofpact wire => ofpactToOpenflow11 ofpact = some wire) ofpacts wires := by
  induction ofpacts generalizing wire with
  | nil =>
    obtain rfl := Option.some.inj encoded
    exact ⟨[], rfl, .nil⟩
  | cons ofpact ofpacts ih =>
    obtain ⟨front, frontEncoded, encoded⟩ := Option.bind_eq_some_iff.mp encoded
    obtain ⟨back, backEncoded, encoded⟩ := Option.bind_eq_some_iff.mp encoded
    obtain rfl := Option.some.inj encoded
    obtain ⟨wires, rfl, frames⟩ := ih backEncoded
    exact ⟨front :: wires, rfl, .cons frontEncoded frames⟩

theorem ofpactsFromOpenflow_turn {decode : List (BitVec 8) → Except Fault (Option Ofpact)}
    {wire rest : List (BitVec 8)} {turns left : Nat} {out all : List Ofpact} (frame : IsFrame wire)
    (enough : left ≤ turns) (room : wire.length ≤ 8 * left)
    (walked : ofpactsFromOpenflow 8 decode turns left (wire ++ rest) out = some ⟨none, all⟩) :
    ∃ emitted turns, decode (wire ++ rest) = .ok emitted ∧ left - wire.length / 8 ≤ turns ∧
      ofpactsFromOpenflow 8 decode turns (left - wire.length / 8) rest (out ++ emitted.toList) =
        some ⟨none, all⟩ := by
  have long := frame.long
  obtain ⟨turns, rfl⟩ : ∃ more, turns = more + 1 := ⟨turns - 1, by omega⟩
  have ongoing : 0 < left ∧ actionIsValid 8 (wire ++ rest) left := by
    refine ⟨by omega, decide_eq_true ?_⟩
    rw [frame.stated]
    exact ⟨frame.aligned, long, by omega⟩
  rw [ofpactsFromOpenflow, if_pos ongoing, frame.stated] at walked
  split at walked
  · cases walked
  · cases Option.some.inj walked
  · rename_i emitted decoded
    rw [List.drop_left] at walked
    exact ⟨emitted, turns, decoded, by omega, walked⟩

theorem intact_of_walk {wires : List (List (BitVec 8))}
    (encoded : List.Forall₂ (fun ofpact wire => ofpactToOpenflow11 ofpact = some wire) ofpacts wires)
    (leftIn : ∀ ofpact ∈ ofpacts, ¬ ofpact.IsLeftOut) (carried : ∀ ofpact ∈ ofpacts, ofpact.Carried)
    {turns left : Nat} (enough : left ≤ turns) (length : wires.flatten.length = 8 * left)
    {out : List Ofpact}
    (walked : ofpactsFromOpenflow 8 ofpactFromOpenflow11 turns left wires.flatten out =
      some ⟨none, out ++ ofpacts⟩) :
    ∀ ofpact ∈ ofpacts, ofpact.Intact := by
  induction encoded generalizing turns left out with
  | nil => simp
  | @cons ofpact wire ofpacts wires encoded _ ih =>
    rw [List.forall_mem_cons] at leftIn carried ⊢
    rw [List.flatten_cons] at walked length
    rw [List.length_append] at length
    have frame := isFrame_of_carried leftIn.1 encoded carried.1
    have aligned := frame.aligned
    obtain ⟨emitted, turns, decoded, enough, walked⟩ :=
      ofpactsFromOpenflow_turn frame enough (by omega) walked
    have stated := frame.stated wires.flatten
    obtain ⟨back, rfl, -, -⟩ := ofpactFromOpenflow11_suits (by rw [stated, aligned]) decoded
    obtain ⟨_, _, -, -, split⟩ := ofpactsFromOpenflow_cuts (fun _ _ => True)
      (fun _ _ _ => trivial) enough (by omega) walked
    rw [Option.toList_some, List.append_assoc, List.append_cancel_left_eq,
      List.singleton_append, List.cons.injEq] at split
    obtain ⟨rfl, -⟩ := split
    refine ⟨intact_of_decoded encoded carried.1 stated aligned decoded, ?_⟩
    rw [List.append_cons] at walked
    exact ih leftIn.2 carried.2 enough (by omega) walked

theorem forall₂_framed {wires : List (List (BitVec 8))}
    (encoded : List.Forall₂ (fun ofpact wire => ofpactToOpenflow11 ofpact = some wire) ofpacts wires)
    (leftIn : ∀ ofpact ∈ ofpacts, ¬ ofpact.IsLeftOut)
    (good : ∀ ofpact ∈ ofpacts, ofpact.Carried ∧ ofpact.Intact) :
    wires.flatten.length = (ofpacts.map Ofpact.wireLen11).sum ∧
      List.Forall₂ (Framed ofpactFromOpenflow11) wires (ofpacts.map Ofpact.reread) := by
  induction encoded with
  | nil => exact ⟨rfl, .nil⟩
  | @cons ofpact wire ofpacts wires encoded _ ih =>
    rw [List.forall_mem_cons] at leftIn good
    obtain ⟨other, otherEncoded, length, framed⟩ :=
      Ofpact.encodes11 leftIn.1 encoded good.1.1 good.1.2
    obtain rfl := Option.some.inj (encoded.symm.trans otherEncoded)
    obtain ⟨restLength, frames⟩ := ih leftIn.2 good.2
    refine ⟨?_, .cons framed frames⟩
    rw [List.flatten_cons, List.length_append, length, restLength, List.map_cons, List.sum_cons]

theorem carried_of_ofpactsFromOpenflow11 {wire : List (BitVec 8)} (aligned : wire.length % 8 = 0)
    (walked : ofpactsFromOpenflow11 wire (wire.length / 8) = some ⟨none, ofpacts⟩) :
    ∀ ofpact ∈ ofpacts, ofpact.Carried := by
  obtain ⟨frames, emitted, -, added, rfl⟩ :=
    ofpactsFromOpenflow_cuts (fun _ emitted => ∀ ofpact ∈ emitted, ofpact.Carried)
      (fun aligned _ decoded => by
        obtain ⟨ofpact, rfl, carried, -⟩ := ofpactFromOpenflow11_suits aligned decoded
        simpa using carried)
      (Nat.le_refl (wire.length / 8)) (by omega) walked
  exact forall_mem_reduceOption added

theorem ofpactsFromOpenflow11_of_pull {wire : List (BitVec 8)}
    (leftIn : ∀ ofpact ∈ ofpacts, ¬ ofpact.IsLeftOut)
    (encoded : ofpactsPutOpenflow11Actions ofpacts = some wire)
    (returned : ofpactsPullOpenflow11Actions wire wire.length = some ⟨none, ofpacts⟩) :
    wire.length % 8 = 0 ∧ wire.length ≠ 16 ∧
      ofpactsFromOpenflow11 wire (wire.length / 8) = some ⟨none, ofpacts⟩ := by
  rw [ofpactsPullOpenflow11Actions, ofpactsPullActions] at returned
  split at returned
  · cases (Translation.mk.inj (Option.some.inj returned)).1
  rename_i aligned
  rw [if_neg (Nat.lt_irrefl _)] at returned
  obtain ⟨translation, walked, cleared⟩ := Option.map_eq_some_iff.mp returned
  have succeeded : translation.error = none := by rw [← clearOnError_error, cleared]
  rw [clearOnError_of_none succeeded] at cleared
  subst cleared
  split at walked
  · rename_i sixteen
    rw [sixteen] at walked
    obtain ⟨emitted, decoded, rfl⟩ := ofpactsFromOpenflow10Remote_eq walked
    obtain ⟨-, -, ofpact, rfl, suits⟩ | ⟨-, rfl⟩ := ofpactFromOpenflow10Remote_eq_ok decoded
    · exact absurd (.inr (.inl suits.1)) (leftIn ofpact (by simp))
    · obtain rfl := Option.some.inj encoded
      cases sixteen
  · rename_i general
    exact ⟨not_not.mp aligned, general, walked⟩

theorem fits_of_pull {wire instruction : List (BitVec 8)}
    (encoded : ofpactsPutOpenflow11Actions ofpacts = some wire)
    (put : ofpactsPutOpenflow11Instructions ofpacts = some instruction)
    (returned : ofpactsPullOpenflow11Instructions instruction instruction.length =
      some ⟨none, ofpacts⟩) : 8 + wire.length < 2 ^ 16 := by
  rw [ofpactsPutOpenflow11Instructions, encoded, Option.map_some, Option.some.injEq] at put
  subst put
  by_cases nonempty : wire ≠ []
  · have length : (applyActions wire).length = 8 + wire.length := by
      simp [applyActions]
      omega
    rw [if_pos nonempty, length] at returned
    by_contra large
    exact ofpactsPullOpenflow11Instructions_oversize (Nat.not_lt.mp large) _ returned
  · rw [not_not.mp nonempty]
    decide

theorem roundTrips11_of_framed {wires : List (List (BitVec 8))}
    (encoded : ofpactsPutOpenflow11Actions ofpacts = some wires.flatten)
    (framed : List.Forall₂ (Framed ofpactFromOpenflow11) wires (ofpacts.map Ofpact.reread))
    (same : (ofpacts.map Ofpact.reread).reduceOption = ofpacts)
    (general : wires.flatten.length ≠ 16) (fits : 8 + wires.flatten.length < 2 ^ 16) :
    RoundTrips11 ofpacts := by
  have aligned := length_flatten_aligned framed
  have walked : ofpactsFromOpenflow11 wires.flatten (wires.flatten.length / 8) =
      some ⟨none, ofpacts⟩ := by
    rw [ofpactsFromOpenflow11, ofpactsFromOpenflow_frames framed (Nat.le_refl _) (by omega),
      List.nil_append, same]
  refine ⟨⟨_, encoded, ?_⟩, ?_⟩
  · rw [ofpactsPullOpenflow11Actions, ofpactsPullActions, if_neg (by omega), if_neg (by omega),
      if_neg general, walked]
    rfl
  · rw [ofpactsPutOpenflow11Instructions, encoded]
    by_cases nonempty : wires.flatten ≠ []
    · refine ⟨applyActions wires.flatten, congrArg some (if_pos nonempty), ?_⟩
      have length : (applyActions wires.flatten).length = 8 + wires.flatten.length := by
        simp [applyActions]
        omega
      rw [length, ofpactsPullOpenflow11Instructions_applyActions aligned fits, walked]
      rfl
    · refine ⟨[], congrArg some (if_neg nonempty), ?_⟩
      rw [not_not.mp nonempty] at walked
      obtain ⟨-, rfl⟩ := Translation.mk.inj (Option.some.inj walked)
      rfl

theorem roundTrips11_iff {wire : List (BitVec 8)}
    (leftIn : ∀ ofpact ∈ ofpacts, ¬ ofpact.IsLeftOut)
    (encoded : ofpactsPutOpenflow11Actions ofpacts = some wire) :
    RoundTrips11 ofpacts ↔
      (∀ ofpact ∈ ofpacts, ofpact.Carried ∧ ofpact.Intact ∧ ofpact.Stable) ∧
        (ofpacts.map Ofpact.wireLen11).sum ≠ 16 ∧
        8 + (ofpacts.map Ofpact.wireLen11).sum < 2 ^ 16 := by
  obtain ⟨wires, rfl, separate⟩ := exists_wires encoded
  constructor
  · rintro ⟨⟨wire, otherEncoded, returned⟩, instruction, put, instructionReturned⟩
    obtain rfl := Option.some.inj (encoded.symm.trans otherEncoded)
    obtain ⟨aligned, general, walked⟩ := ofpactsFromOpenflow11_of_pull leftIn encoded returned
    have fits := fits_of_pull encoded put instructionReturned
    have carried := carried_of_ofpactsFromOpenflow11 aligned walked
    have intact := intact_of_walk separate leftIn carried (Nat.le_refl _) (by omega) walked
    obtain ⟨length, framed⟩ := forall₂_framed separate leftIn
      fun ofpact listed => ⟨carried ofpact listed, intact ofpact listed⟩
    rw [← length]
    rw [ofpactsFromOpenflow11, ofpactsFromOpenflow_frames framed (Nat.le_refl _) (by omega),
      List.nil_append] at walked
    obtain ⟨-, same⟩ := Translation.mk.inj (Option.some.inj walked)
    have stable := (reduceOption_reread_eq_iff leftIn).mp same
    exact ⟨fun ofpact listed => ⟨carried ofpact listed, intact ofpact listed, stable ofpact listed⟩,
      general, fits⟩
  · rintro ⟨good, general, fits⟩
    obtain ⟨length, framed⟩ := forall₂_framed separate leftIn
      fun ofpact listed => ⟨(good ofpact listed).1, (good ofpact listed).2.1⟩
    rw [← length] at general fits
    have same := (reduceOption_reread_eq_iff leftIn).mpr fun ofpact listed =>
      (good ofpact listed).2.2
    exact roundTrips11_of_framed encoded framed same general fits

end Lists

/-- The decoder of actions and the decoder of instructions agree on a list of wire actions unless it
has 16 bytes, when the former reads it with the tables of OpenFlow 1.0.  A list of actions that is
encoded comes back through both of them exactly when each of its actions does and when its length
suits both. -/
theorem decoders11_agree_and_roundTrip_iff (actions wire : List (BitVec 8))
    (ofpacts : List Ofpact) :
    (HasWellFormedLengths actions → 8 + actions.length < 2 ^ 16 →
      (DecodersAgree actions ↔ (actions.length = 16 → RejectedAlike actions))) ∧
    ((∀ ofpact ∈ ofpacts, ¬ ofpact.IsLeftOut) → ofpactsPutOpenflow11Actions ofpacts = some wire →
      (RoundTrips11 ofpacts ↔
        (∀ ofpact ∈ ofpacts, ofpact.Carried ∧ ofpact.Intact ∧ ofpact.Stable) ∧
          (ofpacts.map Ofpact.wireLen11).sum ≠ 16 ∧
          8 + (ofpacts.map Ofpact.wireLen11).sum < 2 ^ 16)) :=
  ⟨decodersAgree_iff, roundTrips11_iff⟩

def sampleList11 : List Ofpact := [.setVlanVid 5, .setVlanPcp 3, .setL4SrcPort 7]

def sampleActions11 : List (BitVec 8) :=
  [0, 1, 0, 8, 0, 5, 0, 0, 0, 2, 0, 8, 3, 0, 0, 0, 0, 9, 0, 8, 0, 7, 0, 0]

theorem hasWellFormedLengths_sampleActions11 : HasWellFormedLengths sampleActions11 := by
  refine ⟨[[0, 1, 0, 8, 0, 5, 0, 0], [0, 2, 0, 8, 3, 0, 0, 0], [0, 9, 0, 8, 0, 7, 0, 0]], ?_,
    by decide⟩
  change Cuts actionLen ([0, 1, 0, 8, 0, 5, 0, 0] ++ ([0, 2, 0, 8, 3, 0, 0, 0] ++
    ([0, 9, 0, 8, 0, 7, 0, 0] ++ []))) _
  exact .cons (by decide) (by decide)
    (.cons (by decide) (by decide) (.cons (by decide) (by decide) .nil))

theorem decoders11_sampleActions11 :
    DecodersAgree sampleActions11 ∧ RoundTrips11 sampleList11 := by
  obtain ⟨agree, roundTrip⟩ :=
    decoders11_agree_and_roundTrip_iff sampleActions11 sampleActions11 sampleList11
  constructor
  · exact (agree hasWellFormedLengths_sampleActions11 (by decide)).mpr
      fun sixteen => absurd sixteen (by decide)
  · refine (roundTrip ?_ (by decide)).mpr ⟨?_, by decide, by decide⟩
    · simp [sampleList11, Ofpact.IsLeftOut, Ofpact.type]
    · simp [sampleList11, Ofpact.Carried, Ofpact.Intact, Ofpact.Stable, Ofpact.Checked]

def outputAction11 : List (BitVec 8) := [0, 0, 0, 16, 0, 0, 0, 1, 0, 0, 0, 0, 0, 0, 0, 0]

/-- The decoder of actions refuses a single output, which the decoder of instructions takes. -/
theorem not_decodersAgree_outputAction11 :
    HasWellFormedLengths outputAction11 ∧ ¬ DecodersAgree outputAction11 ∧
      ofpactsPutOpenflow11Actions [.output 1 0] = some outputAction11 ∧
      ¬ RoundTrips11 [.output 1 0] := by
  have encoded : ofpactsPutOpenflow11Actions [.output 1 0] = some outputAction11 := by decide
  have refused : ofpactsPullOpenflow11Actions outputAction11 outputAction11.length =
      some ⟨some .ofpbacBadLen, []⟩ := by decide
  have taken : ofpactsPullOpenflow11Instructions (applyActions outputAction11)
      (8 + outputAction11.length) = some ⟨none, [.output 1 0]⟩ := by decide
  refine ⟨⟨[outputAction11], ?_, by decide⟩, ?_, encoded, ?_⟩
  · rw [← List.append_nil outputAction11]
    exact .cons (by decide) (by decide) .nil
  · rw [DecodersAgree, refused, taken]
    decide
  · rintro ⟨⟨wire, otherEncoded, returned⟩, -⟩
    obtain rfl := Option.some.inj (encoded.symm.trans otherEncoded)
    cases refused.symm.trans returned

end LazyCtrl
