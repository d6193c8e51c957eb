import LazyCtrl.Controller.Codec

/-!
# Matches from packets

`OFMatch.loadFromPacket`, which reads the headers of a packet through a `ByteBuffer`.  It mixes
relative reads, absolute reads and jumps to computed positions, and each of them throws when it
leaves the array.  The switch may have cut the packet anywhere, so the theorem says for which bytes
the match is built, and what it then is.

The source reads the Ethernet header, the network header and the transport header one after the
other; the three parts are functions of their own here.
-/

namespace LazyCtrl.Controller

open Bytes

inductive BufferException where
  | bufferUnderflow
  | indexOutOfBounds
  | illegalArgument
  deriving DecidableEq, Repr

abbrev PacketReader := StateT Nat (Except BufferException)

section ByteBuffer

variable (data : List (BitVec 8))

def relative {α : Type} (size : Nat) (value : Nat → α) : PacketReader α := fun position =>
  if position + size ≤ data.length then .ok (value position, position + size)
  else .error .bufferUnderflow

def absolute {α : Type} (size : Nat) (value : Nat → α) (i : Nat) : PacketReader α := fun position =>
  if i + size ≤ data.length then .ok (value i, position) else .error .indexOutOfBounds

def getAddress : PacketReader (List (BitVec 8)) := relative data 6 fun i => (data.drop i).take 6

def getByte : PacketReader (BitVec 8) := relative data 1 (u8 data)

def getShort : PacketReader (BitVec 16) := relative data 2 (be16 data)

def getInt : PacketReader (BitVec 32) := relative data 4 (be32 data)

def getByteAt : Nat → PacketReader (BitVec 8) := absolute data 1 (u8 data)

def getShortAt : Nat → PacketReader (BitVec 16) := absolute data 2 (be16 data)

def getIntAt : Nat → PacketReader (BitVec 32) := absolute data 4 (be32 data)

def getPosition : PacketReader Nat := fun position => .ok (position, position)

def setPosition (newPosition : Nat) : PacketReader Unit := fun _ =>
  if newPosition ≤ data.length then .ok ((), newPosition) else .error .illegalArgument

end ByteBuffer

def ofppAll : BitVec 16 := 0xfffc

def ofpfwInPort : BitVec 32 := 1

def ofpfwAll : BitVec 32 := 0x3fffff

def newOFMatch : OFMatch where
  wildcards := ofpfwAll
  inputPort := 0
  dataLayerSource := List.replicate 6 0
  dataLayerDestination := List.replicate 6 0
  dataLayerVirtualLan := 0xffff
  dataLayerVirtualLanPriorityCodePoint := 0
  dataLayerType := 0
  networkTypeOfService := 0
  networkProtocol := 0
  networkSource := 0
  networkDestination := 0
  transportSource := 0
  transportDestination := 0

namespace OFMatch

variable (data : List (BitVec 8))

def loadDataLayer (this : OFMatch) : PacketReader OFMatch := do
  let dataLayerDestination ← getAddress data
  let dataLayerSource ← getAddress data
  let dataLayerType ← getShort data
  if dataLayerType ≠ 0x8100 then
    return { this with
      dataLayerDestination, dataLayerSource, dataLayerType
      dataLayerVirtualLan := 0xffff
      dataLayerVirtualLanPriorityCodePoint := 0 }
  else
    let scratch ← getShort data
    let dataLayerType ← getShort data
    return { this with
      dataLayerDestination, dataLayerSource, dataLayerType
      dataLayerVirtualLan := 0xfff &&& scratch
      dataLayerVirtualLanPriorityCodePoint := ((0xe000 &&& scratch) >>> 13).setWidth 8 }

def loadIpv4 (this : OFMatch) : PacketReader OFMatch := do
  let scratch ← getByte data
  let transportOffset := (← getPosition) - 1 + (0xf &&& scratch).toNat * 4
  let scratch ← getByte data
  setPosition data ((← getPosition) + 7)
  let networkProtocol ← getByte data
  setPosition data ((← getPosition) + 2)
  let networkSource ← getInt data
  let networkDestination ← getInt data
  setPosition data transportOffset
  return { this with
    networkTypeOfService := (0xfc &&& scratch) >>> 2
    networkProtocol, networkSource, networkDestination }

def loadArp (this : OFMatch) : PacketReader OFMatch := do
  let arpPos ← getPosition
  let scratch ← getShortAt data (arpPos + 6)
  let this := { this with networkProtocol := scratch.setWidth 8 }
  let scratch ← getShortAt data (arpPos + 2)
  if scratch = 0x800 then
    let addressLength ← getByteAt data (arpPos + 5)
    if addressLength = 4 then
      let networkSource ← getIntAt data (arpPos + 14)
      let networkDestination ← getIntAt data (arpPos + 24)
      return { this with networkSource, networkDestination }
    else return { this with networkSource := 0, networkDestination := 0 }
  else return { this with networkSource := 0, networkDestination := 0 }

def withoutNetwork (this : OFMatch) : OFMatch :=
  { this with
    networkTypeOfService := 0
    networkProtocol := 0
    networkSource := 0
    networkDestination := 0 }

def loadNetwork (this : OFMatch) : PacketReader OFMatch :=
  if this.dataLayerType = 0x0800 then this.loadIpv4 data
  else if this.dataLayerType = 0x0806 then this.loadArp data
  else return this.withoutNetwork

def loadTransport (this : OFMatch) : PacketReader OFMatch :=
  if this.networkProtocol = 0x01 then do
    let type ← getByte data
    let code ← getByte data
    return { this with transportSource := type.setWidth 16, transportDestination := code.setWidth 16 }
  else if this.networkProtocol = 0x06 ∨ this.networkProtocol = 0x11 then do
    let transportSource ← getShort data
    let transportDestination ← getShort data
    return { this with transportSource, transportDestination }
  else return { this with transportSource := 0, transportDestination := 0 }

def loadHeaders (this : OFMatch) : PacketReader OFMatch := do
  let this ← this.loadDataLayer data
  let this ← this.loadNetwork data
  this.loadTransport data

def loadFromPacket (this : OFMatch) (packetData : List (BitVec 8)) (inputPort : BitVec 16) :
    Except BufferException OFMatch :=
  let this := { this with
    inputPort
    wildcards := if inputPort = ofppAll then ofpfwInPort else 0 }
  (this.loadHeaders packetData 0).map Prod.fst

end OFMatch

section Steps

variable {α β : Type} {data : List (BitVec 8)} {position : Nat}

theorem relative_bind (size : Nat) (value : Nat → α) (next : α → PacketReader β) :
    (relative data size value >>= next) position =
      if position + size ≤ data.length then next (value position) (position + size)
      else .error .bufferUnderflow := by
  change (relative data size value position).bind _ = _
  unfold relative
  split <;> rfl

theorem absolute_bind (size : Nat) (value : Nat → α) (i : Nat) (next : α → PacketReader β) :
    (absolute data size value i >>= next) position =
      if i + size ≤ data.length then next (value i) position else .error .indexOutOfBounds := by
  change (absolute data size value i position).bind _ = _
  unfold absolute
  split <;> rfl

theorem getPosition_bind (next : Nat → PacketReader β) :
    (getPosition >>= next) position = next position position := rfl

theorem setPosition_bind (newPosition : Nat) (next : Unit → PacketReader β) :
    (setPosition data newPosition >>= next) position =
      if newPosition ≤ data.length then next () newPosition else .error .illegalArgument := by
  change (setPosition data newPosition position).bind _ = _
  unfold setPosition
  split <;> rfl

theorem pure_run (value : α) : (pure value : PacketReader α) position = .ok (value, position) := rfl

end Steps

section Headers

variable (data : List (BitVec 8))

def Tagged : Prop := be16 data 12 = 0x8100

instance : Decidable (Tagged data) := inferInstanceAs (Decidable (_ = _))

def payloadOfs : Nat := if Tagged data then 18 else 14

def payloadType : BitVec 16 := be16 data (payloadOfs data - 2)

def ipv4End : Nat := payloadOfs data + (0xf &&& u8 data (payloadOfs data)).toNat * 4

def transportLen (protocol : BitVec 8) : Nat :=
  if protocol = 0x01 then 2 else if protocol = 0x06 ∨ protocol = 0x11 then 4 else 0

def ArpIpv4 : Prop := be16 data (payloadOfs data + 2) = 0x800 ∧ u8 data (payloadOfs data + 5) = 4

instance : Decidable (ArpIpv4 data) := inferInstanceAs (Decidable (_ ∧ _))

/-- The bytes end behind everything that is read of them. -/
def Loadable : Prop :=
  payloadOfs data ≤ data.length ∧
    (payloadType data = 0x0800 →
      payloadOfs data + 20 ≤ data.length ∧
        ipv4End data + transportLen (u8 data (payloadOfs data + 9)) ≤ data.length) ∧
    (payloadType data = 0x0806 →
      payloadOfs data + 8 ≤ data.length ∧ (ArpIpv4 data → payloadOfs data + 28 ≤ data.length))

instance : Decidable (Loadable data) := inferInstanceAs (Decidable (_ ∧ _ ∧ _))

end Headers

def RunsIf {α : Type} (run : Except BufferException α) (fits : Prop) (value : α) : Prop :=
  (fits → run = .ok value) ∧ (¬ fits → ∃ error, run = .error error)

section RunsIf

variable {α β : Type} {run : Except BufferException α} {fits others : Prop} {value : α}

theorem RunsIf.ok (value : α) : RunsIf (.ok value) True value :=
  ⟨fun _ => rfl, fun never => absurd trivial never⟩

theorem RunsIf.check {cond : Prop} [Decidable cond] (error : BufferException)
    (runs : RunsIf run fits value) :
    RunsIf (if cond then run else .error error) (cond ∧ fits) value := by
  by_cases holds : cond
  · rw [if_pos holds]
    exact ⟨fun enough => runs.1 enough.2, fun short => runs.2 fun enough => short ⟨holds, enough⟩⟩
  · rw [if_neg holds]
    exact ⟨fun enough => absurd enough.1 holds, fun _ => ⟨error, rfl⟩⟩

theorem RunsIf.congr (runs : RunsIf run fits value) (same : fits ↔ others) :
    RunsIf run others value :=
  ⟨fun enough => runs.1 (same.mpr enough), fun short => runs.2 fun enough => short (same.mp enough)⟩

theorem RunsIf.bind {program : PacketReader α} {next : α → PacketReader β} {position middle : Nat}
    {result : β × Nat} (first : RunsIf (program position) fits (value, middle))
    (second : fits → RunsIf (next value middle) others result) :
    RunsIf ((program >>= next) position) (fits ∧ others) result := by
  change RunsIf ((program position).bind _) _ _
  by_cases enough : fits
  · rw [first.1 enough]
    exact ⟨fun both => (second enough).1 both.2,
      fun short => (second enough).2 fun more => short ⟨enough, more⟩⟩
  · obtain ⟨error, thrown⟩ := first.2 enough
    rw [thrown]
    exact ⟨fun both => absurd both.1 enough, fun _ => ⟨error, rfl⟩⟩

end RunsIf

namespace OFMatch

variable (this : OFMatch) (data : List (BitVec 8)) (position : Nat)

def withDataLayer : OFMatch :=
  { this with
    dataLayerDestination := (data.drop 0).take 6
    dataLayerSource := (data.drop 6).take 6
    dataLayerType := payloadType data
    dataLayerVirtualLan := if Tagged data then 0xfff &&& be16 data 14 else 0xffff
    dataLayerVirtualLanPriorityCodePoint :=
      if Tagged data then ((0xe000 &&& be16 data 14) >>> 13).setWidth 8 else 0 }

def withIpv4 : OFMatch :=
  { this with
    networkTypeOfService := (0xfc &&& u8 data (position + 1)) >>> 2
    networkProtocol := u8 data (position + 9)
    networkSource := be32 data (position + 12)
    networkDestination := be32 data (position + 16) }

def withArp : OFMatch :=
  let ipv4 := be16 data (position + 2) = 0x800 ∧ u8 data (position + 5) = 4
  { this with
    networkProtocol := (be16 data (position + 6)).setWidth 8
    networkSource := if ipv4 then be32 data (position + 14) else 0
    networkDestination := if ipv4 then be32 data (position + 24) else 0 }

def withNetwork : OFMatch × Nat :=
  if this.dataLayerType = 0x0800 then
    (this.withIpv4 data position, position + (0xf &&& u8 data position).toNat * 4)
  else if this.dataLayerType = 0x0806 then (this.withArp data position, position)
  else (this.withoutNetwork, position)

def withTransport : OFMatch :=
  if this.networkProtocol = 0x01 then
    { this with
      transportSource := (u8 data position).setWidth 16
      transportDestination := (u8 data (position + 1)).setWidth 16 }
  else if this.networkProtocol = 0x06 ∨ this.networkProtocol = 0x11 then
    { this with
      transportSource := be16 data position
      transportDestination := be16 data (position + 2) }
  else { this with transportSource := 0, transportDestination := 0 }

variable {data}

theorem loadDataLayer_runs (long : 14 ≤ data.length) :
    RunsIf (this.loadDataLayer data 0) (payloadOfs data ≤ data.length)
      (this.withDataLayer data, payloadOfs data) := by
  simp only [loadDataLayer, getAddress, getShort, relative_bind]
  by_cases tagged : Tagged data
  · have ofs : payloadOfs data = 18 := if_pos tagged
    have type : be16 data (0 + 6 + 6) = 0x8100 := tagged
    simp only [type, ne_eq, not_true_eq_false, if_false, relative_bind, pure_run]
    have result : this.withDataLayer data = { this with
        dataLayerDestination := (data.drop 0).take 6
        dataLayerSource := (data.drop 6).take 6
        dataLayerType := be16 data 16
        dataLayerVirtualLan := 0xfff &&& be16 data 14
        dataLayerVirtualLanPriorityCodePoint := ((0xe000 &&& be16 data 14) >>> 13).setWidth 8 } := by
      simp only [withDataLayer, payloadType, ofs, if_pos tagged]
    rw [result, ofs]
    refine ((RunsIf.ok _).check _ |>.check _ |>.check _ |>.check _ |>.check _).congr ?_
    simp only [and_true]
    omega
  · have ofs : payloadOfs data = 14 := if_neg tagged
    have type : ¬ be16 data (0 + 6 + 6) = 0x8100 := tagged
    simp only [type, ne_eq, not_false_eq_true, if_true, pure_run]
    have result : this.withDataLayer data = { this with
        dataLayerDestination := (data.drop 0).take 6
        dataLayerSource := (data.drop 6).take 6
        dataLayerType := be16 data 12
        dataLayerVirtualLan := 0xffff
        dataLayerVirtualLanPriorityCodePoint := 0 } := by
      simp only [withDataLayer, payloadType, ofs, if_neg tagged]
    rw [result, ofs]
    refine ((RunsIf.ok _).check _ |>.check _ |>.check _).congr ?_
    simp only [and_true]
    omega

theorem loadIpv4_runs :
    RunsIf (this.loadIpv4 data position)
      (position + 20 ≤ data.length ∧
        position + (0xf &&& u8 data position).toNat * 4 ≤ data.length)
      (this.withIpv4 data position, position + (0xf &&& u8 data position).toNat * 4) := by
  simp only [loadIpv4, getByte, getInt, relative_bind, getPosition_bind, setPosition_bind, pure_run,
    Nat.add_sub_cancel, Nat.add_assoc]
  refine ((RunsIf.ok _).check _ |>.check _ |>.check _ |>.check _ |>.check _ |>.check _ |>.check _
    |>.check _).congr ?_
  simp only [and_true]
  omega

theorem loadArp_runs :
    RunsIf (this.loadArp data position)
      (position + 8 ≤ data.length ∧
        (be16 data (position + 2) = 0x800 ∧ u8 data (position + 5) = 4 →
          position + 28 ≤ data.length))
      (this.withArp data position, position) := by
  simp only [loadArp, getShortAt, getByteAt, getIntAt, getPosition_bind, absolute_bind, withArp]
  by_cases ip : be16 data (position + 2) = 0x800
  · by_cases four : u8 data (position + 5) = 4
    · simp only [ip, four, if_true, absolute_bind, pure_run, and_self,
        forall_const]
      refine ((RunsIf.ok _).check _ |>.check _ |>.check _ |>.check _ |>.check _).congr ?_
      simp only [and_true]
      omega
    · simp only [ip, four, if_true, if_false, absolute_bind, pure_run, and_false,
        false_implies]
      refine ((RunsIf.ok _).check _ |>.check _ |>.check _).congr ?_
      simp only [and_true]
      omega
  · simp only [ip, if_false, pure_run, false_and, false_implies]
    refine ((RunsIf.ok _).check _ |>.check _).congr ?_
    simp only [and_true]
    omega

theorem loadTransport_runs (inside : position ≤ data.length) :
    RunsIf (this.loadTransport data position)
      (position + transportLen this.networkProtocol ≤ data.length)
      (this.withTransport data position, position + transportLen this.networkProtocol) := by
  unfold loadTransport withTransport transportLen
  by_cases icmp : this.networkProtocol = 0x01
  · simp only [icmp, if_true, getByte, relative_bind, pure_run]
    refine ((RunsIf.ok _).check _ |>.check _).congr ?_
    simp only [and_true]
    omega
  · by_cases ports : this.networkProtocol = 0x06 ∨ this.networkProtocol = 0x11
    · simp only [icmp, ports, if_true, if_false, getShort, relative_bind, pure_run]
      refine ((RunsIf.ok _).check _ |>.check _).congr ?_
      simp only [and_true]
      omega
    · simp only [icmp, ports, if_false, pure_run]
      exact (RunsIf.ok _).congr (iff_of_true trivial inside)

theorem loadNetwork_runs :
    RunsIf (this.loadNetwork data position)
      ((this.dataLayerType = 0x0800 → position + 20 ≤ data.length ∧
          position + (0xf &&& u8 data position).toNat * 4 ≤ data.length) ∧
        (this.dataLayerType = 0x0806 → position + 8 ≤ data.length ∧
          (be16 data (position + 2) = 0x800 ∧ u8 data (position + 5) = 4 →
            position + 28 ≤ data.length)))
      ((this.withNetwork data position).1, (this.withNetwork data position).2) := by
  unfold loadNetwork withNetwork
  by_cases ipv4 : this.dataLayerType = 0x0800
  · have noArp : ¬ this.dataLayerType = 0x0806 := by rw [ipv4]; decide
    rw [if_pos ipv4, if_pos ipv4]
    exact (this.loadIpv4_runs position).congr
      ⟨fun fits => ⟨fun _ => fits, fun arp => absurd arp noArp⟩, fun both => both.1 ipv4⟩
  · by_cases arp : this.dataLayerType = 0x0806
    · rw [if_neg ipv4, if_neg ipv4, if_pos arp, if_pos arp]
      exact (this.loadArp_runs position).congr
        ⟨fun fits => ⟨fun isIpv4 => absurd isIpv4 ipv4, fun _ => fits⟩, fun both => both.2 arp⟩
    · rw [if_neg ipv4, if_neg ipv4, if_neg arp, if_neg arp, pure_run]
      exact (RunsIf.ok _).congr (iff_of_true trivial
        ⟨fun isIpv4 => absurd isIpv4 ipv4, fun isArp => absurd isArp arp⟩)

def withHeaders (data : List (BitVec 8)) : OFMatch :=
  let network := (this.withDataLayer data).withNetwork data (payloadOfs data)
  network.1.withTransport data network.2

theorem withNetwork_ipv4 (type : payloadType data = 0x0800) :
    (this.withDataLayer data).withNetwork data (payloadOfs data) =
      ((this.withDataLayer data).withIpv4 data (payloadOfs data), ipv4End data) :=
  if_pos type

theorem withNetwork_arp (type : payloadType data = 0x0806) :
    (this.withDataLayer data).withNetwork data (payloadOfs data) =
      ((this.withDataLayer data).withArp data (payloadOfs data), payloadOfs data) := by
  have noIpv4 : ¬ payloadType data = 0x0800 := by rw [type]; decide
  exact (if_neg noIpv4).trans (if_pos type)

theorem transportLen_le (protocol : BitVec 8) : transportLen protocol ≤ 4 := by
  unfold transportLen
  split
  · omega
  · split <;> omega

theorem withNetwork_other (ipv4 : payloadType data ≠ 0x0800) (arp : payloadType data ≠ 0x0806) :
    (this.withDataLayer data).withNetwork data (payloadOfs data) =
      ((this.withDataLayer data).withoutNetwork, payloadOfs data) :=
  (if_neg ipv4).trans (if_neg arp)

theorem loadHeaders_runs (long : 14 ≤ data.length) :
    ∃ final, RunsIf (this.loadHeaders data 0) (Loadable data) (this.withHeaders data, final) := by
  refine ⟨_, ((this.loadDataLayer_runs long).bind fun inside =>
    ((this.withDataLayer data).loadNetwork_runs (payloadOfs data)).bind fun fits =>
      loadTransport_runs ((this.withDataLayer data).withNetwork data (payloadOfs data)).1
        ((this.withDataLayer data).withNetwork data (payloadOfs data)).2 ?_).congr ?_⟩
  · by_cases ipv4 : payloadType data = 0x0800
    · rw [withNetwork_ipv4 this ipv4]
      exact (fits.1 ipv4).2
    · by_cases arp : payloadType data = 0x0806
      · rwa [withNetwork_arp this arp]
      · rwa [withNetwork_other this ipv4 arp]
  · refine and_congr_right fun inside => ?_
    by_cases ipv4 : payloadType data = 0x0800
    · rw [withNetwork_ipv4 this ipv4]
      have noArp : ¬ payloadType data = 0x0806 := by rw [ipv4]; decide
      constructor
      · exact fun both => ⟨fun _ => ⟨(both.1.1 ipv4).1, both.2⟩, fun isArp => absurd isArp noArp⟩
      · intro both
        obtain ⟨header, transport⟩ := both.1 ipv4
        exact ⟨⟨fun _ => ⟨header, Nat.le_of_add_right_le transport⟩,
          fun isArp => absurd isArp noArp⟩, transport⟩
    · by_cases arp : payloadType data = 0x0806
      · rw [withNetwork_arp this arp]
        refine ⟨fun both => ⟨fun isIpv4 => absurd isIpv4 ipv4, both.1.2⟩,
          fun both => ⟨⟨fun isIpv4 => absurd isIpv4 ipv4, both.2⟩, ?_⟩⟩
        have header := (both.2 arp).1
        exact (Nat.add_le_add_left (transportLen_le _) _).trans (by omega)
      · rw [withNetwork_other this ipv4 arp]
        exact ⟨fun _ => ⟨fun isIpv4 => absurd isIpv4 ipv4, fun isArp => absurd isArp arp⟩,
          fun _ => ⟨⟨fun isIpv4 => absurd isIpv4 ipv4, fun isArp => absurd isArp arp⟩, inside⟩⟩

theorem loadFromPacket_eq (long : 14 ≤ data.length) (inputPort : BitVec 16)
    (loadable : Loadable data) :
    this.loadFromPacket data inputPort = .ok ({ this with
      inputPort
      wildcards := if inputPort = ofppAll then ofpfwInPort else 0 }.withHeaders data) := by
  obtain ⟨final, runs⟩ := loadHeaders_runs { this with
    inputPort
    wildcards := if inputPort = ofppAll then ofpfwInPort else 0 } long
  rw [loadFromPacket, runs.1 loadable]
  rfl

theorem loadable_of_loadFromPacket (long : 14 ≤ data.length) {inputPort : BitVec 16}
    (returns : ∃ result, this.loadFromPacket data inputPort = .ok result) : Loadable data := by
  obtain ⟨final, runs⟩ := loadHeaders_runs { this with
    inputPort
    wildcards := if inputPort = ofppAll then ofpfwInPort else 0 } long
  obtain ⟨result, returned⟩ := returns
  by_contra short
  obtain ⟨error, thrown⟩ := runs.2 short
  rw [loadFromPacket, thrown] at returned
  cases returned

/-- A match is built exactly if the packet has everything that is read of it. -/
theorem loadFromPacket_returns_iff (long : 14 ≤ data.length) (inputPort : BitVec 16) :
    (∃ result, this.loadFromPacket data inputPort = .ok result) ↔ Loadable data :=
  ⟨this.loadable_of_loadFromPacket long,
    fun loadable => ⟨_, this.loadFromPacket_eq long inputPort loadable⟩⟩

/-- An empty frame of an unknown type. -/
theorem loadFromPacket_returns_empty :
    ∃ result, newOFMatch.loadFromPacket (List.replicate 14 0) 1 = .ok result :=
  (loadFromPacket_returns_iff newOFMatch (by decide) 1).mpr (by decide)

/-- An IPv4 frame that was cut behind the Ethernet header, one with a TCP header that was cut behind
the IPv4 header, and a tagged frame that was cut behind the tag. -/
theorem not_loadFromPacket_returns_cut :
    newOFMatch.loadFromPacket (List.replicate 12 0 ++ [8, 0]) 1 = .error .bufferUnderflow ∧
    newOFMatch.loadFromPacket
      (List.replicate 12 0 ++ [8, 0, 0x45, 0] ++ List.replicate 7 0 ++ [6] ++ List.replicate 10 0)
      1 = .error .bufferUnderflow ∧
    newOFMatch.loadFromPacket (List.replicate 12 0 ++ [0x81, 0, 0, 1]) 1 =
      .error .bufferUnderflow := by
  refine ⟨?_, ?_, ?_⟩ <;> decide +kernel

theorem loadFromPacket_of_short (short : data.length < 14) (inputPort : BitVec 16) :
    ∃ cause, this.loadFromPacket data inputPort = .error cause := by
  have stops : ∀ other : OFMatch, ∃ cause, other.loadHeaders data 0 = .error cause := by
    intro other
    refine ⟨.bufferUnderflow, ?_⟩
    have dataLayer : other.loadDataLayer data 0 = .error .bufferUnderflow := by
      simp only [loadDataLayer, getAddress, getShort, relative_bind]
      split
      · split
        · rw [if_neg (by omega)]
        · rfl
      · rfl
    change (other.loadDataLayer data 0).bind _ = _
    rw [dataLayer]
    rfl
  obtain ⟨cause, stopped⟩ := stops { this with
    inputPort
    wildcards := if inputPort = ofppAll then ofpfwInPort else 0 }
  exact ⟨cause, by rw [loadFromPacket, stopped]; rfl⟩

variable (data) in
theorem exists_withTransport : ∃ transportSource transportDestination,
    this.withTransport data position =
      { this with transportSource, transportDestination } := by
  unfold withTransport
  split
  · exact ⟨_, _, rfl⟩
  · split
    · exact ⟨_, _, rfl⟩
    · exact ⟨_, _, rfl⟩

variable (data) in
theorem exists_withNetwork :
    ∃ networkTypeOfService networkProtocol networkSource networkDestination,
      (this.withNetwork data position).1 = { this with
        networkTypeOfService, networkProtocol, networkSource, networkDestination } := by
  unfold withNetwork
  split
  · exact ⟨_, _, _, _, rfl⟩
  · split
    · exact ⟨_, _, _, _, rfl⟩
    · exact ⟨_, _, _, _, rfl⟩

variable (data) in
theorem inputPort_withHeaders : (this.withHeaders data).inputPort = this.inputPort := by
  obtain ⟨tos, protocol, source, destination, network⟩ :=
    (this.withDataLayer data).exists_withNetwork data (payloadOfs data)
  obtain ⟨transportSource, transportDestination, transport⟩ :=
    ((this.withDataLayer data).withNetwork data (payloadOfs data)).1.exists_withTransport data
      ((this.withDataLayer data).withNetwork data (payloadOfs data)).2
  rw [withHeaders, transport, network]
  rfl

theorem inputPort_of_loadFromPacket {inputPort : BitVec 16} {result : OFMatch}
    (loaded : this.loadFromPacket data inputPort = .ok result) : result.inputPort = inputPort := by
  by_cases long : 14 ≤ data.length
  · have loadable := (this.loadable_of_loadFromPacket long) ⟨result, loaded⟩
    rw [this.loadFromPacket_eq long inputPort loadable] at loaded
    rw [← Except.ok.inj loaded, inputPort_withHeaders]
  · obtain ⟨cause, stopped⟩ := this.loadFromPacket_of_short (Nat.lt_of_not_le long) inputPort
    rw [stopped] at loaded
    cases loaded

end OFMatch

end LazyCtrl.Controller
