import LazyCtrl.Ofp.Ofpact

/-!
# From actions to wire actions

`ofpacts_put_openflow10` and the functions it calls.  A wire action is a header, which the
`ofputil_put_*` functions write, and a body.  An action that names a null field has no encoding:
the code would follow the null pointer.
-/

namespace LazyCtrl

open Bytes

def ofpat10Vendor : BitVec 16 := 0xffff

def nxVendorId : BitVec 32 := 0x00002320

def WireType.header (len : Nat) : WireType → List (BitVec 8)
  | ofpat10 type => put16 type ++ put16 (BitVec.ofNat 16 len)
  | nxast subtype =>
    put16 ofpat10Vendor ++ (put16 (BitVec.ofNat 16 len) ++ (put32 nxVendorId ++ put16 subtype))

def ofputilPut (code : ActionCode) (body : List (BitVec 8)) : List (BitVec 8) :=
  code.wireType.header code.size ++ body

def ofputilPutLong (code : ActionCode) (more : Nat) (body : List (BitVec 8)) : List (BitVec 8) :=
  code.wireType.header (code.size + more) ++ body

def MfSubfield.nxmHeader (sf : MfSubfield) : Option (BitVec 32) :=
  sf.field.map fun id => (mfFields id).nxmHeader

def MfSubfield.ofsNbits (sf : MfSubfield) : BitVec 16 := nxmEncodeOfsNbits sf.ofs sf.nBits

def putPadded (xs : List (BitVec 16)) : List (BitVec 8) :=
  put16s xs ++ zeros (padding (2 * xs.length))

def ofpactOutputRegToNxast (src : MfSubfield) (maxLen : BitVec 16) : Option (List (BitVec 8)) := do
  let header ← src.nxmHeader
  return ofputilPut .outputReg
    (put16 src.ofsNbits ++ (put32 header ++ (put16 maxLen ++ zeros 6)))

def ofpactResubmitToNxast (inPort : BitVec 16) (tableId : BitVec 8) (compat : Option ActionCode) :
    List (BitVec 8) :=
  if tableId = 0xff ∧ compat ≠ some .resubmitTable then
    ofputilPut .resubmit (put16 inPort ++ (0 :: zeros 3))
  else
    ofputilPut .resubmitTable (put16 inPort ++ (tableId :: zeros 3))

def ofpactSetTunnelToNxast (tunId : BitVec 64) (compat : Option ActionCode) : List (BitVec 8) :=
  if tunId.toNat ≤ 0xffffffff ∧ compat ≠ some .setTunnel64 then
    ofputilPut .setTunnel (put16 0 ++ put32 (tunId.setWidth 32))
  else
    ofputilPut .setTunnel64 (put48 0 ++ put64 tunId)

def ofpactNoteToNxast (data : List (BitVec 8)) : List (BitVec 8) :=
  let len := 10 + data.length
  ActionCode.note.wireType.header (len + padding len) ++ (data ++ zeros (padding len))

def ofpactControllerToNxast (maxLen controllerId : BitVec 16) (reason : BitVec 8) :
    List (BitVec 8) :=
  ofputilPut .controller (put16 maxLen ++ (put16 controllerId ++ (reason :: zeros 1)))

def ofpactDecTtlToNxast (cntIds : List (BitVec 16)) (compat : Option ActionCode) :
    List (BitVec 8) :=
  if compat = some .decTtl then
    ofputilPut .decTtl (zeros 6)
  else
    ofputilPutLong .decTtlCntIds (2 * cntIds.length + padding (2 * cntIds.length))
      (put16 (BitVec.ofNat 16 cntIds.length) ++ (put32 0 ++ putPadded cntIds))

def ofpactFinTimeoutToNxast (finIdleTimeout finHardTimeout : BitVec 16) : List (BitVec 8) :=
  ofputilPut .finTimeout (put16 finIdleTimeout ++ (put16 finHardTimeout ++ put16 0))

def nxmOfInPort : BitVec 32 := nxmOf 0 2

def bundleBody (bundle : OfpactBundle) (ofsNbits : BitVec 16) (dst : BitVec 32) :
    List (BitVec 8) :=
  put16 bundle.algorithm.wire ++ (put16 bundle.fields.wire ++ (put16 bundle.basis ++
    (put32 nxmOfInPort ++ (put16 (BitVec.ofNat 16 bundle.slaves.length) ++ (put16 ofsNbits ++
      (put32 dst ++ (put32 0 ++ putPadded bundle.slaves)))))))

def bundleToNxast (bundle : OfpactBundle) : List (BitVec 8) :=
  let slavesLen := 2 * bundle.slaves.length + padding (2 * bundle.slaves.length)
  match bundle.dst.nxmHeader with
  | some header =>
    ofputilPutLong .bundleLoad slavesLen (bundleBody bundle bundle.dst.ofsNbits header)
  | none => ofputilPutLong .bundle slavesLen (bundleBody bundle 0 0)

def nxmRegMoveToNxast (src dst : MfSubfield) : Option (List (BitVec 8)) := do
  let srcHeader ← src.nxmHeader
  let dstHeader ← dst.nxmHeader
  return ofputilPut .regMove
    (put16 (dst.nBits.setWidth 16) ++ (put16 (src.ofs.setWidth 16) ++
      (put16 (dst.ofs.setWidth 16) ++ (put32 srcHeader ++ put32 dstHeader))))

def nxmRegLoadToNxast (dst : MfSubfield) (value : BitVec 64) : Option (List (BitVec 8)) := do
  let header ← dst.nxmHeader
  return ofputilPut .regLoad (put16 dst.ofsNbits ++ (put32 header ++ put64 value))

def multipathToNxast (mp : OfpactMultipath) : Option (List (BitVec 8)) := do
  let header ← mp.dst.nxmHeader
  return ofputilPut .multipath
    (put16 mp.fields.wire ++ (put16 mp.basis ++ (put16 0 ++ (put16 mp.algorithm.wire ++
      (put16 mp.maxLink ++ (put32 mp.arg ++ (put16 0 ++ (put16 mp.dst.ofsNbits ++
        put32 header))))))))

def autopathToNxast (dst : MfSubfield) (port : BitVec 32) : Option (List (BitVec 8)) := do
  let header ← dst.nxmHeader
  return ofputilPut .autopath (put16 dst.ofsNbits ++ (put32 header ++ (put32 port ++ put32 0)))

def bitwiseCopy (src dst : List (BitVec 8)) (nBits : Nat) : List (BitVec 8) :=
  (copyLow nBits src.reverse dst.reverse).reverse

def immediateBytes (nBits : Nat) : Nat := 2 * ((nBits + 15) / 16)

def nxLearnSrcImmediate : BitVec 16 := 0x2000

def nxLearnDstLoad : BitVec 16 := 0x0800

def nxLearnDstOutput : BitVec 16 := 0x1000

def LearnSrc.type : LearnSrc → BitVec 16
  | .field _ => 0
  | .immediate _ => nxLearnSrcImmediate

def LearnDst.type : LearnDst → BitVec 16
  | .matching _ => 0
  | .load _ => nxLearnDstLoad
  | .output => nxLearnDstOutput

def LearnSpec.header (spec : LearnSpec) : BitVec 16 :=
  BitVec.ofNat 16 spec.nBits ||| spec.dst.type ||| spec.src.type

def putSubfield (sf : MfSubfield) : Option (List (BitVec 8)) := do
  let header ← sf.nxmHeader
  return put32 header ++ put16 (sf.ofs.setWidth 16)

def LearnSrc.put (nBits : Nat) : LearnSrc → Option (List (BitVec 8))
  | .field src => putSubfield src
  | .immediate srcImm =>
    if nBits ≤ 128 then some (bitwiseCopy srcImm.u8 (zeros (immediateBytes nBits)) nBits)
    else none

def LearnDst.put : LearnDst → Option (List (BitVec 8))
  | .matching dst => putSubfield dst
  | .load dst => putSubfield dst
  | .output => some []

def LearnSpec.put (spec : LearnSpec) : Option (List (BitVec 8)) := do
  let src ← spec.src.put spec.nBits
  let dst ← spec.dst.put
  return put16 spec.header ++ (src ++ dst)

def putSpecs : List LearnSpec → Option (List (BitVec 8))
  | [] => some []
  | spec :: specs => do
      let front ← spec.put
      let back ← putSpecs specs
      return front ++ back

def learnBody (learn : OfpactLearn) : List (BitVec 8) :=
  put16 learn.idleTimeout ++ (put16 learn.hardTimeout ++ (put16 learn.priority ++
    (put64 learn.cookie ++ (put16 learn.flags ++ ([learn.tableId, 0] ++
      (put16 learn.finIdleTimeout ++ put16 learn.finHardTimeout))))))

def learnToNxast (learn : OfpactLearn) : Option (List (BitVec 8)) := do
  let specs ← putSpecs learn.specs
  return ofputilPutLong .learn (specs.length + padding specs.length)
    (learnBody learn ++ (specs ++ zeros (padding specs.length)))

def ofpactToOpenflow10 : Ofpact → Option (List (BitVec 8))
  | .output port maxLen => some (ofputilPut .output (put16 port ++ put16 maxLen))
  | .remote port ip => some (ofputilPut .remote (put16 port ++ (put48 0 ++ put32 ip)))
  | .enqueue port queue => some (ofputilPut .enqueue (put16 port ++ (put48 0 ++ put32 queue)))
  | .setVlanVid vlanVid => some (ofputilPut .setVlanVid (put16 vlanVid ++ zeros 2))
  | .setVlanPcp vlanPcp => some (ofputilPut .setVlanPcp (vlanPcp :: zeros 3))
  | .stripVlan => some (ofputilPut .stripVlan (zeros 4))
  | .setEthSrc mac => some (ofputilPut .setDlSrc (put48 mac ++ zeros 6))
  | .setEthDst mac => some (ofputilPut .setDlDst (put48 mac ++ zeros 6))
  | .setIpv4Src ipv4 => some (ofputilPut .setNwSrc (put32 ipv4))
  | .setIpv4Dst ipv4 => some (ofputilPut .setNwDst (put32 ipv4))
  | .setIpv4Dscp dscp => some (ofputilPut .setNwTos (dscp :: zeros 3))
  | .setL4SrcPort port => some (ofputilPut .setTpSrc (put16 port ++ zeros 2))
  | .setL4DstPort port => some (ofputilPut .setTpDst (put16 port ++ zeros 2))
  | .controller maxLen controllerId reason =>
    some (ofpactControllerToNxast maxLen controllerId reason)
  | .outputReg src maxLen => ofpactOutputRegToNxast src maxLen
  | .bundle bundle => some (bundleToNxast bundle)
  | .regMove src dst => nxmRegMoveToNxast src dst
  | .regLoad dst value => nxmRegLoadToNxast dst value
  | .decTtl cntIds compat => some (ofpactDecTtlToNxast cntIds compat)
  | .setTunnel tunId compat => some (ofpactSetTunnelToNxast tunId compat)
  | .setQueue queueId => some (ofputilPut .setQueue (put16 0 ++ put32 queueId))
  | .popQueue => some (ofputilPut .popQueue (zeros 6))
  | .finTimeout finIdleTimeout finHardTimeout =>
    some (ofpactFinTimeoutToNxast finIdleTimeout finHardTimeout)
  | .resubmit inPort tableId compat => some (ofpactResubmitToNxast inPort tableId compat)
  | .learn learn => learnToNxast learn
  | .multipath mp => multipathToNxast mp
  | .autopath dst port => autopathToNxast dst port
  | .note data => some (ofpactNoteToNxast data)
  | .exit => some (ofputilPut .exit (zeros 6))

def ofpactsPutOpenflow10 : List Ofpact → Option (List (BitVec 8))
  | [] => some []
  | ofpact :: ofpacts => do
      let front ← ofpactToOpenflow10 ofpact
      let back ← ofpactsPutOpenflow10 ofpacts
      return front ++ back

end LazyCtrl
