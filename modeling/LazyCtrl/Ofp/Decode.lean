import LazyCtrl.Ofp.Encode

/-!
# From wire actions to actions

`ofpacts_pull_openflow10` and the functions it calls.  A decoder gets the bytes from the first byte
of a wire action to the end of the message.  It returns an action, an error of the protocol, or
`undefined` where the code leaves the memory that belongs to it.

There are two decoders for a list of wire actions.  The general one decodes every action except
`OFPAT10_REMOTE`, which it accepts and drops.  The other one is used for lists of exactly 16 bytes;
it decodes `OFPAT10_REMOTE` and accepts and drops everything else.
-/

namespace LazyCtrl

open Bytes

inductive Fault where
  | ofperr (error : Ofperr)
  | undefined
  deriving DecidableEq, Repr

def accept {α : Type} (check : Option Ofperr) (ofpact : α) : Except Fault α :=
  match check with
  | none => .ok ofpact
  | some error => .error (.ofperr error)

abbrev badArgument {α : Type} : Except Fault α := .error (.ofperr .ofpbacBadArgument)

abbrev badLen {α : Type} : Except Fault α := .error (.ofperr .ofpbacBadLen)

theorem accept_eq_ok {α : Type} {check : Option Ofperr} {ofpact result : α} :
    accept check ofpact = .ok result ↔ check = none ∧ ofpact = result := by
  cases check <;> simp [accept]

theorem reject_eq_ok {α : Type} {cond : Prop} [Decidable cond] {fault : Fault}
    {rest : Except Fault α} {result : α} :
    (if cond then .error fault else rest) = .ok result ↔ ¬ cond ∧ rest = .ok result := by
  by_cases holds : cond <;> simp [holds]

def actionLen (a : List (BitVec 8)) : Nat := (be16 a 2).toNat

def wireTypeOf (a : List (BitVec 8)) : WireType :=
  if be16 a 0 = ofpat10Vendor then .nxast (be16 a 8) else .ofpat10 (be16 a 0)

def ActionCode.lenOk (code : ActionCode) (len : Nat) : Bool :=
  if code.extensible then code.size ≤ len else len = code.size

def decodeWireType (type : WireType) (len : Nat) : Except Fault ActionCode :=
  match ActionCode.ofWireType type with
  | some code => if code.lenOk len then .ok code else badLen
  | none => .error (.ofperr .ofpbacBadType)

def decodeNxastAction (a : List (BitVec 8)) : Except Fault ActionCode :=
  if actionLen a < 16 then badLen
  else if be32 a 4 ≠ nxVendorId then .error (.ofperr .ofpbacBadVendor)
  else decodeWireType (.nxast (be16 a 8)) (actionLen a)

def decodeOpenflow10Action (a : List (BitVec 8)) : Except Fault ActionCode :=
  if be16 a 0 = ofpat10Vendor then decodeNxastAction a
  else decodeWireType (.ofpat10 (be16 a 0)) (actionLen a)

def decodeSubfield (header : BitVec 32) (ofsNbits : BitVec 16) : MfSubfield :=
  ⟨mfFromNxmHeader header, nxmDecodeOfs ofsNbits, nxmDecodeNBits ofsNbits⟩

def outputFromOpenflow10 (a : List (BitVec 8)) : Except Fault Ofpact :=
  accept (ofputilCheckOutputPort (be16 a 4) ofppMax) (.output (be16 a 4) (be16 a 6))

def remoteFromOpenflow10 (a : List (BitVec 8)) : Except Fault Ofpact :=
  accept (ofputilCheckOutputPort (be16 a 4) ofppMax) (.remote (be16 a 4) (be32 a 12))

def enqueueFromOpenflow10 (a : List (BitVec 8)) : Except Fault Ofpact :=
  accept (checkEnqueuePort (be16 a 4) ofppMax) (.enqueue (be16 a 4) (be32 a 12))

def resubmitFromOpenflow (a : List (BitVec 8)) : Except Fault Ofpact :=
  .ok (.resubmit (be16 a 10) 0xff (some .resubmit))

def resubmitTableFromOpenflow (a : List (BitVec 8)) : Except Fault Ofpact :=
  if ¬ allZeros a 13 3 then badArgument
  else .ok (.resubmit (be16 a 10) (u8 a 12) (some .resubmitTable))

def outputRegFromOpenflow (a : List (BitVec 8)) : Except Fault Ofpact :=
  if ¬ allZeros a 18 6 then badArgument
  else
    let src := decodeSubfield (be32 a 12) (be16 a 10)
    accept (mfCheckSrc src none) (.outputReg src (be16 a 16))

def finTimeoutFromOpenflow (a : List (BitVec 8)) : Except Fault Ofpact :=
  .ok (.finTimeout (be16 a 10) (be16 a 12))

def controllerFromOpenflow (a : List (BitVec 8)) : Except Fault Ofpact :=
  .ok (.controller (be16 a 10) (be16 a 12) (u8 a 14))

def noteFromOpenflow (a : List (BitVec 8)) : Except Fault Ofpact :=
  .ok (.note ((a.take (actionLen a)).drop 10))

def decTtlFromOpenflow : Except Fault Ofpact := .ok (.decTtl [0] (some .decTtl))

def decTtlCntIdsFromOpenflow (a : List (BitVec 8)) : Except Fault Ofpact :=
  let nControllers := (be16 a 10).toNat
  if ¬ allZeros a 12 4 then .error (.ofperr .nxbrcMustBeZero)
  else if actionLen a - 16 < 2 * nControllers then badLen
  else .ok (.decTtl (be16s a 16 nControllers) (some .decTtlCntIds))

def nxmRegMoveFromOpenflow (a : List (BitVec 8)) : Except Fault Ofpact :=
  let nBits := (be16 a 10).setWidth 32
  let src : MfSubfield := ⟨mfFromNxmHeader (be32 a 16), (be16 a 12).setWidth 32, nBits⟩
  let dst : MfSubfield := ⟨mfFromNxmHeader (be32 a 20), (be16 a 14).setWidth 32, nBits⟩
  accept (nxmRegMoveCheck src dst none) (.regMove src dst)

def nxmRegLoadFromOpenflow (a : List (BitVec 8)) : Except Fault Ofpact :=
  let dst := decodeSubfield (be32 a 12) (be16 a 10)
  let value := be64 a 16
  if dst.nBits.toNat < 64 ∧ value >>> dst.nBits.toNat ≠ 0 then badArgument
  else accept (mfCheckDst dst none) (.regLoad dst value)

def log2Ceil (n : Nat) : Nat := n.log2 + if n &&& (n - 1) = 0 then 0 else 1

def multipathFromOpenflow (a : List (BitVec 8)) : Except Fault Ofpact :=
  let maxLink := be16 a 18
  let dst := decodeSubfield (be32 a 28) (be16 a 26)
  match NxHashFields.ofWire (be16 a 10), NxMpAlgorithm.ofWire (be16 a 16) with
  | some fields, some algorithm =>
    if dst.nBits.toNat < log2Ceil (maxLink.toNat + 1) then badArgument
    else
      accept (mfCheckDst dst none)
        (.multipath ⟨fields, be16 a 12, algorithm, maxLink, be32 a 20, dst⟩)
  | _, _ => badArgument

def autopathFromOpenflow (a : List (BitVec 8)) : Except Fault Ofpact :=
  let dst := decodeSubfield (be32 a 12) (be16 a 10)
  if dst.nBits.toNat < 16 then badArgument
  else accept (mfCheckDst dst none) (.autopath dst (be32 a 16))

def bundleMaxSlaves : Nat := 2048

def bundleDst (a : List (BitVec 8)) : MfSubfield :=
  if .nxast (be16 a 8) = ActionCode.bundleLoad.wireType then decodeSubfield (be32 a 24) (be16 a 22)
  else .zero

def bundleFromOpenflow (a : List (BitVec 8)) : Except Fault Ofpact :=
  let nSlaves := (be16 a 20).toNat
  let subtype := WireType.nxast (be16 a 8)
  if actionLen a - 32 < 2 * nSlaves then badLen
  else
    match NxHashFields.ofWire (be16 a 12), NxBdAlgorithm.ofWire (be16 a 10) with
    | some fields, some algorithm =>
      if nSlaves > bundleMaxSlaves ∨ be32 a 16 ≠ nxmOfInPort ∨ ¬ allZeros a 28 4 ∨
          (subtype = ActionCode.bundle.wireType ∧ (be16 a 22 ≠ 0 ∨ be32 a 24 ≠ 0)) ∨
          (subtype = ActionCode.bundleLoad.wireType ∧ (bundleDst a).nBits.toNat < 16) then
        badArgument
      else
        let bundle : OfpactBundle :=
          ⟨algorithm, fields, be16 a 14, bundleDst a, be16s a 32 nSlaves⟩
        accept (bundleCheck bundle ofppMax none) (.bundle bundle)
    | _, _ => badArgument

def learnSrcMask : BitVec 16 := 0x2000

def learnDstMask : BitVec 16 := 0x1800

def learnNBits (header : BitVec 16) : Nat := (header &&& 0x3ff).toNat

def learnSrcIsField (header : BitVec 16) : Bool := header &&& learnSrcMask = 0

def learnDstIsField (header : BitVec 16) : Bool :=
  header &&& learnDstMask = 0 ∨ header &&& learnDstMask = nxLearnDstLoad

def learnTypesOk (header : BitVec 16) : Bool :=
  learnDstIsField header ∨ (header &&& learnDstMask = nxLearnDstOutput ∧ learnSrcIsField header)

def learnMinLen (header : BitVec 16) : Nat :=
  (if learnSrcIsField header then 6 else (learnNBits header + 15) / 16) +
    if learnDstIsField header then 6 else 0

def learnSrcLen (header : BitVec 16) : Nat :=
  if learnSrcIsField header then 6 else immediateBytes (learnNBits header)

def learnDstLen (header : BitVec 16) : Nat := if learnDstIsField header then 6 else 0

def getSubfield (nBits : Nat) (a : List (BitVec 8)) (p : Nat) : MfSubfield :=
  ⟨mfFromNxmHeader (be32 a p), (be16 a (p + 4)).setWidth 32, BitVec.ofNat 32 nBits⟩

def getImmediate (nBits : Nat) (a : List (BitVec 8)) (p : Nat) : MfSubvalue :=
  ⟨bitwiseCopy ((a.drop p).take (immediateBytes nBits)) (zeros 16) nBits, by
    simp [bitwiseCopy]⟩

def getLearnSrc (header : BitVec 16) (a : List (BitVec 8)) (p : Nat) : LearnSrc :=
  if learnSrcIsField header then .field (getSubfield (learnNBits header) a p)
  else .immediate (getImmediate (learnNBits header) a p)

def getLearnDst (header : BitVec 16) (a : List (BitVec 8)) (p : Nat) : LearnDst :=
  if header &&& learnDstMask = 0 then .matching (getSubfield (learnNBits header) a p)
  else if header &&& learnDstMask = nxLearnDstLoad then .load (getSubfield (learnNBits header) a p)
  else .output

/-- The body of the loop of `learn_from_openflow` behind the header of a step.  An immediate of more
than 128 bits is written over the memory before the subvalue.  An immediate can also run past the
end of the action, and then past the end of the message. -/
def learnSpecFromOpenflow (a : List (BitVec 8)) (stop p : Nat) (header : BitVec 16) :
    Except Fault LearnSpec :=
  if ¬ learnTypesOk header then badArgument
  else if (stop : Int) - p < learnMinLen header then badLen
  else if ¬ learnSrcIsField header ∧ learnNBits header > 128 then .error .undefined
  else if a.length < p + learnSrcLen header + learnDstLen header then .error .undefined
  else .ok ⟨learnNBits header, getLearnSrc header a p, getLearnDst header a (p + learnSrcLen header)⟩

theorem le_stop_of_learnSpecFromOpenflow {a : List (BitVec 8)} {stop p : Nat} {header : BitVec 16}
    {spec : LearnSpec} (decoded : learnSpecFromOpenflow a stop p header = .ok spec) : p ≤ stop := by
  rw [learnSpecFromOpenflow, badArgument, badLen] at decoded
  split at decoded
  · cases decoded
  · split at decoded
    · cases decoded
    · omega

/-- One turn of the loop of `learn_from_openflow`: no step at the end of the action or at a zero
header, with the position behind it, and otherwise the step and the position behind that. -/
def learnTurn (a : List (BitVec 8)) (stop p : Nat) : Except Fault (Option LearnSpec × Nat) :=
  if p = stop then .ok (none, p)
  else if a.length < p + 2 then .error .undefined
  else if be16 a p = 0 then .ok (none, p + 2)
  else
    (learnSpecFromOpenflow a stop (p + 2) (be16 a p)).map fun spec =>
      (some spec, p + 2 + learnSrcLen (be16 a p) + learnDstLen (be16 a p))

theorem learnTurn_moves {a : List (BitVec 8)} {stop p q : Nat} {spec : LearnSpec}
    (turn : learnTurn a stop p = .ok (some spec, q)) : p < stop ∧ p < q := by
  rw [learnTurn] at turn
  split at turn
  · cases turn
  · split at turn
    · cases turn
    · split at turn
      · cases turn
      · cases decoded : learnSpecFromOpenflow a stop (p + 2) (be16 a p) with
        | error fault =>
          rw [decoded] at turn
          cases turn
        | ok other =>
          rw [decoded] at turn
          have inside := le_stop_of_learnSpecFromOpenflow decoded
          have moved : p + 2 + learnSrcLen (be16 a p) + learnDstLen (be16 a p) = q :=
            congrArg Prod.snd (Except.ok.inj turn)
          omega

def learnSpecsFromOpenflow (a : List (BitVec 8)) (stop p : Nat) :
    Except Fault (List LearnSpec × Nat) :=
  match _turn : learnTurn a stop p with
  | .error fault => .error fault
  | .ok (none, q) => .ok ([], q)
  | .ok (some spec, q) =>
    (learnSpecsFromOpenflow a stop q).map fun (specs, last) => (spec :: specs, last)
  termination_by stop - p
  decreasing_by
    have moves := learnTurn_moves _turn
    omega

/-- The check of the bytes behind the last step.  Past the end of the action the number of bytes is
negative, which `is_all_zeros` takes for a huge one. -/
def learnTrailer (a : List (BitVec 8)) (stop p : Nat) : Except Fault Unit :=
  if p ≤ stop then if allZeros a p (stop - p) then .ok () else badArgument
  else if allZeros a p a.length then .error .undefined else badArgument

/-- The number of steps for which `ofpact_update_len` can store the length of the action: its
structure takes 40 bytes and 64 for every step. -/
def learnMaxSpecs : Nat := 1023

def learnFromOpenflow (a : List (BitVec 8)) : Except Fault Ofpact :=
  if u8 a 27 ≠ 0 then badArgument
  else if be16 a 24 &&& ~~~1 ≠ 0 ∨ u8 a 26 = 0xff then badArgument
  else
    match learnSpecsFromOpenflow a (actionLen a) 32 with
    | .error fault => .error fault
    | .ok (specs, p) =>
      match learnTrailer a (actionLen a) p with
      | .error fault => .error fault
      | .ok () =>
        if specs.length > learnMaxSpecs then .error .undefined
        else
          .ok (.learn ⟨be16 a 10, be16 a 12, be16 a 14, be64 a 16, be16 a 24, u8 a 26,
            be16 a 28, be16 a 30, specs⟩)

/-- `ofpact_from_openflow10` behind the decoding of the type, with `ofpact_from_nxast`.  Nothing is
appended for `OFPAT10_REMOTE`. -/
def ofpactFromCode (a : List (BitVec 8)) : ActionCode → Except Fault (Option Ofpact)
  | .output => (outputFromOpenflow10 a).map some
  | .remote => .ok none
  | .setVlanVid =>
    if be16 a 4 &&& ~~~0xfff ≠ 0 then badArgument else .ok (some (.setVlanVid (be16 a 4)))
  | .setVlanPcp =>
    if u8 a 4 &&& ~~~7 ≠ 0 then badArgument else .ok (some (.setVlanPcp (u8 a 4)))
  | .stripVlan => .ok (some .stripVlan)
  | .setDlSrc => .ok (some (.setEthSrc (be48 a 4)))
  | .setDlDst => .ok (some (.setEthDst (be48 a 4)))
  | .setNwSrc => .ok (some (.setIpv4Src (be32 a 4)))
  | .setNwDst => .ok (some (.setIpv4Dst (be32 a 4)))
  | .setNwTos =>
    if u8 a 4 &&& ~~~0xfc ≠ 0 then badArgument else .ok (some (.setIpv4Dscp (u8 a 4)))
  | .setTpSrc => .ok (some (.setL4SrcPort (be16 a 4)))
  | .setTpDst => .ok (some (.setL4DstPort (be16 a 4)))
  | .enqueue => (enqueueFromOpenflow10 a).map some
  | .resubmit => (resubmitFromOpenflow a).map some
  | .setTunnel => .ok (some (.setTunnel ((be32 a 12).setWidth 64) (some .setTunnel)))
  | .setQueue => .ok (some (.setQueue (be32 a 12)))
  | .popQueue => .ok (some .popQueue)
  | .regMove => (nxmRegMoveFromOpenflow a).map some
  | .regLoad => (nxmRegLoadFromOpenflow a).map some
  | .note => (noteFromOpenflow a).map some
  | .setTunnel64 => .ok (some (.setTunnel (be64 a 16) (some .setTunnel64)))
  | .multipath => (multipathFromOpenflow a).map some
  | .autopath => (autopathFromOpenflow a).map some
  | .bundle => (bundleFromOpenflow a).map some
  | .bundleLoad => (bundleFromOpenflow a).map some
  | .resubmitTable => (resubmitTableFromOpenflow a).map some
  | .outputReg => (outputRegFromOpenflow a).map some
  | .learn => (learnFromOpenflow a).map some
  | .exit => .ok (some .exit)
  | .decTtl => decTtlFromOpenflow.map some
  | .finTimeout => (finTimeoutFromOpenflow a).map some
  | .controller => (controllerFromOpenflow a).map some
  | .decTtlCntIds => (decTtlCntIdsFromOpenflow a).map some

def ofpactFromOpenflow10 (a : List (BitVec 8)) : Except Fault (Option Ofpact) :=
  match decodeOpenflow10Action a with
  | .error fault => .error fault
  | .ok code => ofpactFromCode a code

def ofpactFromOpenflow10Remote (a : List (BitVec 8)) : Except Fault (Option Ofpact) :=
  match decodeOpenflow10Action a with
  | .error fault => .error fault
  | .ok code => if code = .remote then (remoteFromOpenflow10 a).map some else .ok none

/-- What a decoder of lists leaves behind: the error that it returns and the actions in the buffer.
The part of an action that failed is not kept. -/
structure Translation where
  error : Option Ofperr
  ofpacts : List Ofpact
  deriving DecidableEq, Repr

def actionIsValid (unit : Nat) (a : List (BitVec 8)) (nActions : Nat) : Bool :=
  actionLen a % 8 = 0 ∧ unit ≤ actionLen a ∧ actionLen a / unit ≤ nActions

def finishActions (left : Nat) (out : List Ofpact) : Translation :=
  if left ≠ 0 then ⟨some .ofpbacBadLen, out⟩ else ⟨none, out⟩

/-- `ofpacts_from_openflow` and `ofpacts_from_openflow_remote`: the walk over `left` units of wire
actions.  Every turn takes at least one unit, so that the walk ends before the first argument, which
is the number of units at the start, runs out. -/
def ofpactsFromOpenflow (unit : Nat)
    (ofpactFromOpenflow : List (BitVec 8) → Except Fault (Option Ofpact)) :
    Nat → Nat → List (BitVec 8) → List Ofpact → Option Translation
  | 0, left, _, out => some (finishActions left out)
  | turns + 1, left, a, out =>
    if 0 < left ∧ actionIsValid unit a left then
      match ofpactFromOpenflow a with
      | .error .undefined => none
      | .error (.ofperr error) => some ⟨some error, out⟩
      | .ok ofpact =>
        ofpactsFromOpenflow unit ofpactFromOpenflow turns (left - actionLen a / unit)
          (a.drop (actionLen a)) (out ++ ofpact.toList)
    else some (finishActions left out)

def ofpactsFromOpenflow10 (a : List (BitVec 8)) (nIn : Nat) : Option Translation :=
  ofpactsFromOpenflow 8 ofpactFromOpenflow10 nIn nIn a []

def ofpactsFromOpenflow10Remote (a : List (BitVec 8)) (nIn : Nat) : Option Translation :=
  ofpactsFromOpenflow 16 ofpactFromOpenflow10Remote nIn nIn a []

def translateActions (actions : List (BitVec 8)) (actionsLen : Nat) : Option Translation :=
  if actionsLen = 16 then ofpactsFromOpenflow10Remote actions (actionsLen / 16)
  else ofpactsFromOpenflow10 actions (actionsLen / 8)

def Translation.clearOnError (translation : Translation) : Translation :=
  if translation.error.isSome then { translation with ofpacts := [] } else translation

/-- `ofpacts_pull_openflow10`, with `ofpacts_pull_actions`.  The first argument is what is left of
the message. -/
def ofpactsPullOpenflow10 (openflow : List (BitVec 8)) (actionsLen : Nat) : Option Translation :=
  if actionsLen % 8 ≠ 0 then some ⟨some .ofpbrcBadLen, []⟩
  else if openflow.length < actionsLen then some ⟨some .ofpbrcBadLen, []⟩
  else (translateActions openflow actionsLen).map Translation.clearOnError

end LazyCtrl
