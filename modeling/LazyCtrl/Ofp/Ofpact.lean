import LazyCtrl.Ofp.MetaFlow

/-!
# Actions inside the switch

The `ofpact` structures of `lib/ofp-actions.h`, the table of the wire actions of
`lib/ofp-util.def`, and `ofpacts_check`, which decides whether a list of actions suits a flow and a
switch.  Of the `compat` member only the uses that the codec makes of it are kept.
-/

namespace LazyCtrl

/-- The OpenFlow 1.0 and Nicira members of `enum ofputil_action_code`. -/
inductive ActionCode where
  | output
  | setVlanVid
  | setVlanPcp
  | stripVlan
  | setDlSrc
  | setDlDst
  | setNwSrc
  | setNwDst
  | setNwTos
  | setTpSrc
  | setTpDst
  | enqueue
  | remote
  | resubmit
  | setTunnel
  | setQueue
  | popQueue
  | regMove
  | regLoad
  | note
  | setTunnel64
  | multipath
  | autopath
  | bundle
  | bundleLoad
  | resubmitTable
  | outputReg
  | learn
  | exit
  | decTtl
  | finTimeout
  | controller
  | decTtlCntIds
  deriving DecidableEq, Repr

inductive WireType where
  | ofpat10 (type : BitVec 16)
  | nxast (subtype : BitVec 16)
  deriving DecidableEq, Repr

namespace ActionCode

def wireType : ActionCode → WireType
  | output => .ofpat10 0
  | setVlanVid => .ofpat10 1
  | setVlanPcp => .ofpat10 2
  | stripVlan => .ofpat10 3
  | setDlSrc => .ofpat10 4
  | setDlDst => .ofpat10 5
  | setNwSrc => .ofpat10 6
  | setNwDst => .ofpat10 7
  | setNwTos => .ofpat10 8
  | setTpSrc => .ofpat10 9
  | setTpDst => .ofpat10 10
  | enqueue => .ofpat10 11
  | remote => .ofpat10 12
  | resubmit => .nxast 1
  | setTunnel => .nxast 2
  | setQueue => .nxast 4
  | popQueue => .nxast 5
  | regMove => .nxast 6
  | regLoad => .nxast 7
  | note => .nxast 8
  | setTunnel64 => .nxast 9
  | multipath => .nxast 10
  | autopath => .nxast 11
  | bundle => .nxast 12
  | bundleLoad => .nxast 13
  | resubmitTable => .nxast 14
  | outputReg => .nxast 15
  | learn => .nxast 16
  | exit => .nxast 17
  | decTtl => .nxast 18
  | finTimeout => .nxast 19
  | controller => .nxast 20
  | decTtlCntIds => .nxast 21

def size : ActionCode → Nat
  | output | setVlanVid | setVlanPcp | stripVlan | setNwSrc | setNwDst | setNwTos | setTpSrc
  | setTpDst => 8
  | setDlSrc | setDlDst | enqueue | remote | resubmit | setTunnel | setQueue | popQueue | note
  | resubmitTable | exit | decTtl | finTimeout | controller | decTtlCntIds => 16
  | regMove | regLoad | setTunnel64 | autopath | outputReg => 24
  | multipath | bundle | bundleLoad | learn => 32

def extensible : ActionCode → Bool
  | note | bundle | bundleLoad | learn | decTtlCntIds => true
  | _ => false

def all : List ActionCode :=
  [output, setVlanVid, setVlanPcp, stripVlan, setDlSrc, setDlDst, setNwSrc, setNwDst, setNwTos,
    setTpSrc, setTpDst, enqueue, remote, resubmit, setTunnel, setQueue, popQueue, regMove, regLoad,
    note, setTunnel64, multipath, autopath, bundle, bundleLoad, resubmitTable, outputReg, learn,
    exit, decTtl, finTimeout, controller, decTtlCntIds]

def ofWireType (type : WireType) : Option ActionCode := all.find? (·.wireType = type)

theorem ofWireType_wireType (code : ActionCode) : ofWireType code.wireType = some code := by
  cases code <;> rfl

end ActionCode

inductive NxHashFields where
  | ethSrc
  | symmetricL4
  deriving DecidableEq, Repr

inductive NxMpAlgorithm where
  | moduloN
  | hashThreshold
  | hrw
  | iterHash
  deriving DecidableEq, Repr

inductive NxBdAlgorithm where
  | activeBackup
  | hrw
  deriving DecidableEq, Repr

def NxHashFields.wire : NxHashFields → BitVec 16
  | ethSrc => 0
  | symmetricL4 => 1

def NxMpAlgorithm.wire : NxMpAlgorithm → BitVec 16
  | moduloN => 0
  | hashThreshold => 1
  | hrw => 2
  | iterHash => 3

def NxBdAlgorithm.wire : NxBdAlgorithm → BitVec 16
  | activeBackup => 0
  | hrw => 1

def NxHashFields.ofWire (x : BitVec 16) : Option NxHashFields :=
  [ethSrc, symmetricL4].find? (·.wire = x)

def NxMpAlgorithm.ofWire (x : BitVec 16) : Option NxMpAlgorithm :=
  [moduloN, hashThreshold, hrw, iterHash].find? (·.wire = x)

def NxBdAlgorithm.ofWire (x : BitVec 16) : Option NxBdAlgorithm :=
  [activeBackup, hrw].find? (·.wire = x)

@[simp]
theorem NxHashFields.ofWire_wire (fields : NxHashFields) : ofWire fields.wire = some fields := by
  cases fields <;> rfl

@[simp]
theorem NxMpAlgorithm.ofWire_wire (algorithm : NxMpAlgorithm) :
    ofWire algorithm.wire = some algorithm := by
  cases algorithm <;> rfl

@[simp]
theorem NxBdAlgorithm.ofWire_wire (algorithm : NxBdAlgorithm) :
    ofWire algorithm.wire = some algorithm := by
  cases algorithm <;> rfl

inductive OfpactType where
  | output
  | controller
  | enqueue
  | remote
  | outputReg
  | bundle
  | setVlanVid
  | setVlanPcp
  | stripVlan
  | setEthSrc
  | setEthDst
  | setIpv4Src
  | setIpv4Dst
  | setIpv4Dscp
  | setL4SrcPort
  | setL4DstPort
  | regMove
  | regLoad
  | decTtl
  | setTunnel
  | setQueue
  | popQueue
  | finTimeout
  | resubmit
  | learn
  | multipath
  | autopath
  | note
  | exit
  deriving DecidableEq, Repr

structure OfpactBundle where
  algorithm : NxBdAlgorithm
  fields : NxHashFields
  basis : BitVec 16
  dst : MfSubfield
  slaves : List (BitVec 16)
  deriving DecidableEq, Repr

structure OfpactMultipath where
  fields : NxHashFields
  basis : BitVec 16
  algorithm : NxMpAlgorithm
  maxLink : BitVec 16
  arg : BitVec 32
  dst : MfSubfield
  deriving DecidableEq, Repr

inductive LearnSrc where
  | field (src : MfSubfield)
  | immediate (srcImm : MfSubvalue)
  deriving DecidableEq, Repr

inductive LearnDst where
  | matching (dst : MfSubfield)
  | load (dst : MfSubfield)
  | output
  deriving DecidableEq, Repr

structure LearnSpec where
  nBits : Nat
  src : LearnSrc
  dst : LearnDst
  deriving DecidableEq, Repr

structure OfpactLearn where
  idleTimeout : BitVec 16
  hardTimeout : BitVec 16
  priority : BitVec 16
  cookie : BitVec 64
  flags : BitVec 16
  tableId : BitVec 8
  finIdleTimeout : BitVec 16
  finHardTimeout : BitVec 16
  specs : List LearnSpec
  deriving DecidableEq, Repr

inductive Ofpact where
  | output (port maxLen : BitVec 16)
  | controller (maxLen controllerId : BitVec 16) (reason : BitVec 8)
  | enqueue (port : BitVec 16) (queue : BitVec 32)
  | remote (port : BitVec 16) (ip : BitVec 32)
  | outputReg (src : MfSubfield) (maxLen : BitVec 16)
  | bundle (bundle : OfpactBundle)
  | setVlanVid (vlanVid : BitVec 16)
  | setVlanPcp (vlanPcp : BitVec 8)
  | stripVlan
  | setEthSrc (mac : BitVec 48)
  | setEthDst (mac : BitVec 48)
  | setIpv4Src (ipv4 : BitVec 32)
  | setIpv4Dst (ipv4 : BitVec 32)
  | setIpv4Dscp (dscp : BitVec 8)
  | setL4SrcPort (port : BitVec 16)
  | setL4DstPort (port : BitVec 16)
  | regMove (src dst : MfSubfield)
  | regLoad (dst : MfSubfield) (value : BitVec 64)
  | decTtl (cntIds : List (BitVec 16)) (compat : Option ActionCode)
  | setTunnel (tunId : BitVec 64) (compat : Option ActionCode)
  | setQueue (queueId : BitVec 32)
  | popQueue
  | finTimeout (finIdleTimeout finHardTimeout : BitVec 16)
  | resubmit (inPort : BitVec 16) (tableId : BitVec 8) (compat : Option ActionCode)
  | learn (learn : OfpactLearn)
  | multipath (mp : OfpactMultipath)
  | autopath (dst : MfSubfield) (port : BitVec 32)
  | note (data : List (BitVec 8))
  | exit
  deriving DecidableEq, Repr

def Ofpact.type : Ofpact → OfpactType
  | output .. => .output
  | controller .. => .controller
  | enqueue .. => .enqueue
  | remote .. => .remote
  | outputReg .. => .outputReg
  | bundle .. => .bundle
  | setVlanVid .. => .setVlanVid
  | setVlanPcp .. => .setVlanPcp
  | stripVlan => .stripVlan
  | setEthSrc .. => .setEthSrc
  | setEthDst .. => .setEthDst
  | setIpv4Src .. => .setIpv4Src
  | setIpv4Dst .. => .setIpv4Dst
  | setIpv4Dscp .. => .setIpv4Dscp
  | setL4SrcPort .. => .setL4SrcPort
  | setL4DstPort .. => .setL4DstPort
  | regMove .. => .regMove
  | regLoad .. => .regLoad
  | decTtl .. => .decTtl
  | setTunnel .. => .setTunnel
  | setQueue .. => .setQueue
  | popQueue => .popQueue
  | finTimeout .. => .finTimeout
  | resubmit .. => .resubmit
  | learn .. => .learn
  | multipath .. => .multipath
  | autopath .. => .autopath
  | note .. => .note
  | exit => .exit

def ActionCode.ofpactType : ActionCode → OfpactType
  | output => .output
  | setVlanVid => .setVlanVid
  | setVlanPcp => .setVlanPcp
  | stripVlan => .stripVlan
  | setDlSrc => .setEthSrc
  | setDlDst => .setEthDst
  | setNwSrc => .setIpv4Src
  | setNwDst => .setIpv4Dst
  | setNwTos => .setIpv4Dscp
  | setTpSrc => .setL4SrcPort
  | setTpDst => .setL4DstPort
  | enqueue => .enqueue
  | remote => .remote
  | resubmit | resubmitTable => .resubmit
  | setTunnel | setTunnel64 => .setTunnel
  | setQueue => .setQueue
  | popQueue => .popQueue
  | regMove => .regMove
  | regLoad => .regLoad
  | note => .note
  | multipath => .multipath
  | autopath => .autopath
  | bundle | bundleLoad => .bundle
  | outputReg => .outputReg
  | learn => .learn
  | exit => .exit
  | decTtl | decTtlCntIds => .decTtl
  | finTimeout => .finTimeout
  | controller => .controller

def ofppMax : Int := 0xff00

def ofppInPort : BitVec 16 := 0xfff8

def ofppController : BitVec 16 := 0xfffd

def ofppLocal : BitVec 16 := 0xfffe

/-- The reserved ports that `ofputil_check_output_port` lists: `OFPP_IN_PORT`, `OFPP_TABLE`,
`OFPP_NORMAL`, `OFPP_FLOOD`, `OFPP_ALL`, `OFPP_CONTROLLER`, `OFPP_LOCAL` and `OFPP_NONE`. -/
def reservedPorts : List (BitVec 16) :=
  [ofppInPort, 0xfff9, 0xfffa, 0xfffb, 0xfffc, ofppController, ofppLocal, 0xffff]

def ofputilCheckOutputPort (port : BitVec 16) (maxPorts : Int) : Option Ofperr :=
  if port ∈ reservedPorts then none
  else if port.toNat < maxPorts then none
  else some .ofpbacBadOutPort

def checkEnqueuePort (port : BitVec 16) (maxPorts : Int) : Option Ofperr :=
  if port.toNat ≥ maxPorts ∧ port ≠ ofppInPort ∧ port ≠ ofppLocal then some .ofpbacBadOutPort
  else none

def checkSlave (maxPorts : Int) (slave : BitVec 16) : Option Ofperr :=
  (ofputilCheckOutputPort slave maxPorts).or
    (if slave = ofppController then some .ofpbacBadOutPort else none)

def bundleCheck (bundle : OfpactBundle) (maxPorts : Int) (flow : Option Flow) : Option Ofperr :=
  (if bundle.dst.field.isSome then mfCheckDst bundle.dst flow else none).or
    (bundle.slaves.findSome? (checkSlave maxPorts))

def nxmRegMoveCheck (src dst : MfSubfield) (flow : Option Flow) : Option Ofperr :=
  (mfCheckSrc src flow).or (mfCheckDst dst none)

def LearnSrc.srcImm : LearnSrc → MfSubvalue
  | .field _ => ⟨Bytes.zeros 16, by simp⟩
  | .immediate srcImm => srcImm

def LearnSrc.check (flow : Flow) : LearnSrc → Option Ofperr
  | .field src => mfCheckSrc src (some flow)
  | .immediate _ => none

section Check

-- `mf_write_subfield`, as far as it changes the members of a flow that prerequisites read.
variable (mfWriteSubfield : MfSubfield → MfSubvalue → Flow → Flow)

def learnCheckSpecs (flow : Flow) : Flow → List LearnSpec → Option Ofperr
  | _, [] => none
  | rule, spec :: specs =>
    (spec.src.check flow).or <|
      match spec.dst with
      | .matching dst =>
        (mfCheckSrc dst (some rule)).or
          (learnCheckSpecs flow (mfWriteSubfield dst spec.src.srcImm rule) specs)
      | .load dst => (mfCheckDst dst (some rule)).or (learnCheckSpecs flow rule specs)
      | .output => learnCheckSpecs flow rule specs

def learnCheck (learn : OfpactLearn) (flow : Flow) : Option Ofperr :=
  learnCheckSpecs mfWriteSubfield flow ⟨0, 0, 0, 0, 0⟩ learn.specs

def ofpactCheck (flow : Flow) (maxPorts : Int) : Ofpact → Option Ofperr
  | .output port _ => ofputilCheckOutputPort port maxPorts
  | .remote port _ => ofputilCheckOutputPort port maxPorts
  | .enqueue port _ => checkEnqueuePort port maxPorts
  | .outputReg src _ => mfCheckSrc src (some flow)
  | .bundle bundle => bundleCheck bundle maxPorts (some flow)
  | .regMove src dst => nxmRegMoveCheck src dst (some flow)
  | .regLoad dst _ => mfCheckDst dst (some flow)
  | .learn learn => learnCheck mfWriteSubfield learn flow
  | .multipath mp => mfCheckDst mp.dst (some flow)
  | .autopath dst _ => mfCheckDst dst (some flow)
  | _ => none

def ofpactsCheck (flow : Flow) (maxPorts : Int) (ofpacts : List Ofpact) : Option Ofperr :=
  ofpacts.findSome? (ofpactCheck mfWriteSubfield flow maxPorts)

end Check

end LazyCtrl
