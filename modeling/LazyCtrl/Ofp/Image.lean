import LazyCtrl.Ofp.Decode

/-!
# What the decoders can return

An action that comes out of a decoder is of the type that its wire action names, and its arguments
are such that a wire action can carry them: the fields in it have a header, widths fit into the bits
reserved for them, and the lists are short enough for the 16-bit lengths.
-/

namespace LazyCtrl

open Bytes

def MfSubfield.HasHeader (sf : MfSubfield) : Prop :=
  ∀ id, sf.field = some id → (mfFields id).nxmHeader ≠ 0

def MfSubfield.Coded (sf : MfSubfield) : Prop := sf.nBits.toNat ≤ 64 ∧ sf.HasHeader

def MfSubfield.CodedAt (nBits : Nat) (sf : MfSubfield) : Prop :=
  sf.nBits = BitVec.ofNat 32 nBits ∧ sf.ofs.toNat < 2 ^ 16 ∧ sf.HasHeader

def MfSubvalue.Fits (nBits : Nat) (value : MfSubvalue) : Prop :=
  nBits ≤ 128 ∧ bitwiseCopy value.u8 (zeros 16) nBits = value.u8

/-- The source of a step of the given width fits. -/
def LearnSrc.Carried (nBits : Nat) : LearnSrc → Prop
  | .field src => src.CodedAt nBits
  | .immediate srcImm => srcImm.Fits nBits

/-- The destination of a step of the given width fits. -/
def LearnDst.Carried (nBits : Nat) : LearnDst → Prop
  | .matching dst => dst.CodedAt nBits
  | .load dst => dst.CodedAt nBits
  | .output => True

/-- A learning step fits.  Only a field can be output. -/
def LearnSpec.Carried (spec : LearnSpec) : Prop :=
  spec.nBits < 1024 ∧ spec.src.Carried spec.nBits ∧ spec.dst.Carried spec.nBits ∧
    (spec.dst = .output → ∃ src, spec.src = .field src)

def OfpactLearn.Carried (learn : OfpactLearn) : Prop :=
  learn.flags &&& ~~~1 = 0 ∧ learn.tableId ≠ 0xff ∧ learn.specs.length ≤ learnMaxSpecs ∧
    ∀ spec ∈ learn.specs, spec.Carried

def OfpactBundle.Carried (bundle : OfpactBundle) : Prop :=
  bundle.slaves.length ≤ bundleMaxSlaves ∧
    bundle.slaves.findSome? (checkSlave ofppMax) = none ∧
    (bundle.dst.field.isSome → bundle.dst.Coded ∧ 16 ≤ bundle.dst.nBits.toNat)

/-- The arguments of the action fit into its wire action. -/
def Ofpact.Carried : Ofpact → Prop
  | .output port _ => ofputilCheckOutputPort port ofppMax = none
  | .remote port _ => ofputilCheckOutputPort port ofppMax = none
  | .enqueue port _ => checkEnqueuePort port ofppMax = none
  | .outputReg src _ => src.Coded
  | .bundle act => act.Carried
  | .setVlanVid vlanVid => vlanVid &&& ~~~0xfff = 0
  | .setVlanPcp vlanPcp => vlanPcp &&& ~~~7 = 0
  | .setIpv4Dscp dscp => dscp &&& ~~~0xfc = 0
  | .regMove src dst =>
    src.nBits = dst.nBits ∧ dst.nBits.toNat < 2 ^ 16 ∧ src.HasHeader ∧ dst.HasHeader
  | .regLoad dst value =>
    dst.Coded ∧ ¬ (dst.nBits.toNat < 64 ∧ value >>> dst.nBits.toNat ≠ 0)
  | .decTtl cntIds _ => 2 * cntIds.length ≤ 65512
  | .learn act => act.Carried
  | .multipath mp => mp.dst.Coded ∧ log2Ceil (mp.maxLink.toNat + 1) ≤ mp.dst.nBits.toNat
  | .autopath dst _ => dst.Coded ∧ 16 ≤ dst.nBits.toNat
  | .note data => 10 + data.length ≤ 65528
  | _ => True

theorem hasHeader_mfFromNxmHeader (header : BitVec 32) (ofs nBits : BitVec 32) :
    (MfSubfield.mk (mfFromNxmHeader header) ofs nBits).HasHeader :=
  fun _ found => nxmHeader_ne_zero_of_mfFromNxmHeader found

theorem decodeSubfield_coded (header : BitVec 32) (ofsNbits : BitVec 16) :
    (decodeSubfield header ofsNbits).Coded := by
  refine ⟨?_, hasHeader_mfFromNxmHeader header _ _⟩
  have low : (ofsNbits &&& 0x3f).toNat ≤ 63 := by
    rw [BitVec.toNat_and]
    exact Nat.and_le_right
  have one : (1 : BitVec 32).toNat = 1 := rfl
  rw [decodeSubfield, nxmDecodeNBits, BitVec.toNat_add, BitVec.toNat_setWidth]
  omega

theorem getSubfield_codedAt (nBits : Nat) (a : List (BitVec 8)) (p : Nat) :
    (getSubfield nBits a p).CodedAt nBits := by
  refine ⟨rfl, ?_, hasHeader_mfFromNxmHeader _ _ _⟩
  simp only [getSubfield, BitVec.toNat_setWidth]
  have := (be16 a (p + 4)).isLt
  omega

theorem map_some_eq_ok {decoded : Except Fault Ofpact} {emitted : Option Ofpact} :
    decoded.map some = .ok emitted ↔ ∃ ofpact, decoded = .ok ofpact ∧ emitted = some ofpact := by
  cases decoded <;> simp [Except.map, eq_comm]

section Decoders

variable {a : List (BitVec 8)} {ofpact : Ofpact}

def Ofpact.Suits (type : OfpactType) (ofpact : Ofpact) : Prop :=
  ofpact.type = type ∧ ofpact.Carried

theorem outputFromOpenflow10_suits (decoded : outputFromOpenflow10 a = .ok ofpact) :
    ofpact.Suits .output := by
  obtain ⟨checked, rfl⟩ := accept_eq_ok.mp decoded
  exact ⟨rfl, checked⟩

theorem remoteFromOpenflow10_suits (decoded : remoteFromOpenflow10 a = .ok ofpact) :
    ofpact.Suits .remote := by
  obtain ⟨checked, rfl⟩ := accept_eq_ok.mp decoded
  exact ⟨rfl, checked⟩

theorem enqueueFromOpenflow10_suits (decoded : enqueueFromOpenflow10 a = .ok ofpact) :
    ofpact.Suits .enqueue := by
  obtain ⟨checked, rfl⟩ := accept_eq_ok.mp decoded
  exact ⟨rfl, checked⟩

theorem resubmitTableFromOpenflow_suits (decoded : resubmitTableFromOpenflow a = .ok ofpact) :
    ofpact.Suits .resubmit := by
  obtain ⟨-, returned⟩ := reject_eq_ok.mp decoded
  obtain rfl := Except.ok.inj returned
  exact ⟨rfl, trivial⟩

theorem outputRegFromOpenflow_suits (decoded : outputRegFromOpenflow a = .ok ofpact) :
    ofpact.Suits .outputReg := by
  obtain ⟨-, accepted⟩ := reject_eq_ok.mp decoded
  obtain ⟨-, rfl⟩ := accept_eq_ok.mp accepted
  exact ⟨rfl, decodeSubfield_coded _ _⟩

theorem actionLen_le (aligned : actionLen a % 8 = 0) : actionLen a ≤ 65528 := by
  have := (be16 a 2).isLt
  rw [actionLen] at aligned ⊢
  omega

theorem noteFromOpenflow_suits (aligned : actionLen a % 8 = 0) (long : 16 ≤ actionLen a)
    (decoded : noteFromOpenflow a = .ok ofpact) : ofpact.Suits .note := by
  obtain rfl := Except.ok.inj decoded
  refine ⟨rfl, ?_⟩
  have := actionLen_le aligned
  rw [Ofpact.Carried, List.length_drop, List.length_take]
  omega

theorem decTtlCntIdsFromOpenflow_suits (aligned : actionLen a % 8 = 0)
    (decoded : decTtlCntIdsFromOpenflow a = .ok ofpact) : ofpact.Suits .decTtl := by
  obtain ⟨-, rest⟩ := reject_eq_ok.mp decoded
  obtain ⟨room, returned⟩ := reject_eq_ok.mp rest
  obtain rfl := Except.ok.inj returned
  refine ⟨rfl, ?_⟩
  have := actionLen_le aligned
  rw [Ofpact.Carried, length_be16s]
  omega

theorem nxmRegMoveFromOpenflow_suits (decoded : nxmRegMoveFromOpenflow a = .ok ofpact) :
    ofpact.Suits .regMove := by
  obtain ⟨-, rfl⟩ := accept_eq_ok.mp decoded
  refine ⟨rfl, rfl, ?_, hasHeader_mfFromNxmHeader _ _ _, hasHeader_mfFromNxmHeader _ _ _⟩
  have := (be16 a 10).isLt
  simp only [BitVec.toNat_setWidth]
  omega

theorem nxmRegLoadFromOpenflow_suits (decoded : nxmRegLoadFromOpenflow a = .ok ofpact) :
    ofpact.Suits .regLoad := by
  obtain ⟨fits, accepted⟩ := reject_eq_ok.mp decoded
  obtain ⟨-, rfl⟩ := accept_eq_ok.mp accepted
  exact ⟨rfl, decodeSubfield_coded _ _, fits⟩

theorem multipathFromOpenflow_suits (decoded : multipathFromOpenflow a = .ok ofpact) :
    ofpact.Suits .multipath := by
  rw [multipathFromOpenflow] at decoded
  split at decoded
  · obtain ⟨wide, accepted⟩ := reject_eq_ok.mp decoded
    obtain ⟨-, rfl⟩ := accept_eq_ok.mp accepted
    exact ⟨rfl, decodeSubfield_coded _ _, Nat.le_of_not_lt wide⟩
  · cases decoded

theorem autopathFromOpenflow_suits (decoded : autopathFromOpenflow a = .ok ofpact) :
    ofpact.Suits .autopath := by
  obtain ⟨wide, accepted⟩ := reject_eq_ok.mp decoded
  obtain ⟨-, rfl⟩ := accept_eq_ok.mp accepted
  exact ⟨rfl, decodeSubfield_coded _ _, Nat.le_of_not_lt wide⟩

theorem bundleDst_eq_of_isSome (named : (bundleDst a).field.isSome) :
    WireType.nxast (be16 a 8) = ActionCode.bundleLoad.wireType ∧
      bundleDst a = decodeSubfield (be32 a 24) (be16 a 22) := by
  rw [bundleDst] at named ⊢
  split at named
  · exact ⟨‹_›, if_pos ‹_›⟩
  · cases named

theorem bundleFromOpenflow_suits (decoded : bundleFromOpenflow a = .ok ofpact) :
    ofpact.Suits .bundle := by
  rw [bundleFromOpenflow] at decoded
  obtain ⟨-, decoded⟩ := reject_eq_ok.mp decoded
  split at decoded
  · obtain ⟨allowed, accepted⟩ := reject_eq_ok.mp decoded
    obtain ⟨checked, rfl⟩ := accept_eq_ok.mp accepted
    obtain ⟨few, -, -, -, wide⟩ := by simpa only [not_or] using allowed
    refine ⟨rfl, ?_, (Option.or_eq_none_iff.mp checked).2, fun named => ?_⟩
    · rw [length_be16s]
      exact Nat.le_of_not_lt few
    · obtain ⟨load, dstEq⟩ := bundleDst_eq_of_isSome named
      refine ⟨?_, Nat.le_of_not_lt fun narrow => wide ⟨load, narrow⟩⟩
      show (bundleDst a).Coded
      rw [dstEq]
      exact decodeSubfield_coded _ _
  · cases decoded

theorem bitwiseCopy_bitwiseCopy {nBits : Nat} {src middle : List (BitVec 8)}
    (dst : List (BitVec 8)) (srcRoom : nBits ≤ 8 * src.length)
    (room : nBits ≤ 8 * middle.length) :
    bitwiseCopy (bitwiseCopy src middle nBits) dst nBits = bitwiseCopy src dst nBits := by
  rw [bitwiseCopy, bitwiseCopy, bitwiseCopy, List.reverse_reverse,
    copyLow_copyLow _ (by simpa using srcRoom) (by simpa using room)]

theorem le_immediateBytes (nBits : Nat) : nBits ≤ 8 * immediateBytes nBits := by
  rw [immediateBytes]
  omega

theorem getImmediate_fits {nBits p : Nat} (narrow : nBits ≤ 128)
    (inside : p + immediateBytes nBits ≤ a.length) : (getImmediate nBits a p).Fits nBits := by
  have := le_immediateBytes nBits
  refine ⟨narrow, bitwiseCopy_bitwiseCopy _ ?_ ?_⟩
  · rw [List.length_take, List.length_drop]
    omega
  · rw [length_zeros]
    omega

theorem learnNBits_lt (header : BitVec 16) : learnNBits header < 1024 := by
  have low : (header &&& 0x3ff).toNat ≤ 0x3ff := by
    rw [BitVec.toNat_and]
    exact Nat.and_le_right
  rw [learnNBits]
  omega

theorem getLearnDst_carried (header : BitVec 16) (a : List (BitVec 8)) (p : Nat) :
    (getLearnDst header a p).Carried (learnNBits header) := by
  rw [getLearnDst]
  split
  · exact getSubfield_codedAt _ _ _
  · split
    · exact getSubfield_codedAt _ _ _
    · trivial

theorem learnSrcIsField_of_output {header : BitVec 16} {p : Nat} (allowed : learnTypesOk header)
    (output : getLearnDst header a p = .output) : learnSrcIsField header := by
  obtain dstIsField | ⟨-, srcIsField⟩ := of_decide_eq_true allowed
  · rw [getLearnDst] at output
    obtain matching | load := of_decide_eq_true dstIsField
    · rw [if_pos matching] at output
      cases output
    · rw [if_pos load] at output
      split at output <;> cases output
  · exact srcIsField

theorem learnSpecFromOpenflow_carried {stop p : Nat} {header : BitVec 16} {spec : LearnSpec}
    (decoded : learnSpecFromOpenflow a stop p header = .ok spec) : spec.Carried := by
  simp only [learnSpecFromOpenflow, reject_eq_ok, not_not] at decoded
  obtain ⟨allowed, -, narrow, inside, returned⟩ := decoded
  obtain rfl := Except.ok.inj returned
  refine ⟨learnNBits_lt header, ?_, getLearnDst_carried _ _ _, fun output => ?_⟩
  · rw [getLearnSrc]
    split
    · exact getSubfield_codedAt _ _ _
    · rename_i immediate
      rw [learnSrcLen, if_neg immediate] at inside
      exact getImmediate_fits (Nat.le_of_not_lt fun wide => narrow ⟨immediate, wide⟩)
        (Nat.le_trans (Nat.le_add_right _ _) (Nat.le_of_not_lt inside))
  · exact ⟨_, if_pos (learnSrcIsField_of_output allowed output)⟩

theorem learnTurn_carried {stop p q : Nat} {spec : LearnSpec}
    (turn : learnTurn a stop p = .ok (some spec, q)) : spec.Carried := by
  rw [learnTurn] at turn
  split at turn
  · cases turn
  · obtain ⟨-, rest⟩ := reject_eq_ok.mp turn
    split at rest
    · cases rest
    · cases decoded : learnSpecFromOpenflow a stop (p + 2) (be16 a p) with
      | error fault =>
        rw [decoded] at rest
        cases rest
      | ok other =>
        rw [decoded] at rest
        obtain rfl : other = spec := Option.some.inj (congrArg Prod.fst (Except.ok.inj rest))
        exact learnSpecFromOpenflow_carried decoded

theorem learnSpecsFromOpenflow_carried {stop p q : Nat} {specs : List LearnSpec}
    (decoded : learnSpecsFromOpenflow a stop p = .ok (specs, q)) :
    ∀ spec ∈ specs, spec.Carried := by
  induction specs generalizing p with
  | nil => simp
  | cons spec specs ih =>
    rw [learnSpecsFromOpenflow] at decoded
    split at decoded
    · cases decoded
    · cases decoded
    · rename_i other next turn
      cases rest : learnSpecsFromOpenflow a stop next with
      | error fault =>
        rw [rest] at decoded
        cases decoded
      | ok result =>
        obtain ⟨later, last⟩ := result
        rw [rest] at decoded
        obtain ⟨specsEq, rfl⟩ := Prod.mk.inj (Except.ok.inj decoded)
        obtain ⟨rfl, rfl⟩ := List.cons.inj specsEq
        exact List.forall_mem_cons.mpr ⟨learnTurn_carried turn, ih rest⟩

theorem learnFromOpenflow_suits (decoded : learnFromOpenflow a = .ok ofpact) :
    ofpact.Suits .learn := by
  rw [learnFromOpenflow, reject_eq_ok, reject_eq_ok] at decoded
  obtain ⟨-, allowed, decoded⟩ := decoded
  obtain ⟨flags, table⟩ := not_or.mp allowed
  split at decoded
  · cases decoded
  · rename_i specsEq
    split at decoded
    · cases decoded
    · obtain ⟨few, returned⟩ := reject_eq_ok.mp decoded
      obtain rfl := Except.ok.inj returned
      exact ⟨rfl, not_not.mp flags, table, Nat.le_of_not_lt few,
        learnSpecsFromOpenflow_carried specsEq⟩

theorem ofpactFromCode_suits {code : ActionCode} {emitted : Option Ofpact}
    (aligned : actionLen a % 8 = 0) (lenOk : code.lenOk (actionLen a))
    (decoded : ofpactFromCode a code = .ok emitted) :
    (code = .remote ∧ emitted = none) ∨
      (code ≠ .remote ∧ ∃ ofpact, emitted = some ofpact ∧ ofpact.Suits code.ofpactType) := by
  cases code
  case remote => exact .inl ⟨rfl, (Except.ok.inj decoded).symm⟩
  all_goals
    refine .inr ⟨by decide, ?_⟩
    rw [ofpactFromCode] at decoded
  case stripVlan | setDlSrc | setDlDst | setNwSrc | setNwDst | setTpSrc | setTpDst | setTunnel
      | setQueue | popQueue | setTunnel64 | exit =>
    exact ⟨_, (Except.ok.inj decoded).symm, rfl, trivial⟩
  case setVlanVid | setVlanPcp | setNwTos =>
    obtain ⟨masked, returned⟩ := reject_eq_ok.mp decoded
    exact ⟨_, (Except.ok.inj returned).symm, rfl, not_not.mp masked⟩
  all_goals
    obtain ⟨ofpact, returned, rfl⟩ := map_some_eq_ok.mp decoded
    refine ⟨ofpact, rfl, ?_⟩
  case resubmit | finTimeout | controller =>
    obtain rfl := Except.ok.inj returned
    exact ⟨rfl, trivial⟩
  case decTtl =>
    obtain rfl := Except.ok.inj returned
    exact ⟨rfl, show 2 * 1 ≤ 65512 by decide⟩
  case output => exact outputFromOpenflow10_suits returned
  case enqueue => exact enqueueFromOpenflow10_suits returned
  case regMove => exact nxmRegMoveFromOpenflow_suits returned
  case regLoad => exact nxmRegLoadFromOpenflow_suits returned
  case note => exact noteFromOpenflow_suits aligned (of_decide_eq_true lenOk) returned
  case multipath => exact multipathFromOpenflow_suits returned
  case autopath => exact autopathFromOpenflow_suits returned
  case bundle => exact bundleFromOpenflow_suits returned
  case bundleLoad => exact bundleFromOpenflow_suits returned
  case resubmitTable => exact resubmitTableFromOpenflow_suits returned
  case outputReg => exact outputRegFromOpenflow_suits returned
  case learn => exact learnFromOpenflow_suits returned
  case decTtlCntIds => exact decTtlCntIdsFromOpenflow_suits aligned returned

end Decoders

end LazyCtrl
