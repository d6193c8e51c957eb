import Mathlib.Data.Finset.Insert
import Mathlib.Data.Finset.Card
import LazyCtrl.Bf.Filter
import LazyCtrl.Daemons.DoGroup

/-!
# The data center of the simulator

`DC`, `Group`, `EdgeSwitch`, `VM` and `BloomFilter_256` of `lc_sim`, up to the functions that read
the placement of switches and hosts from files.  Dictionaries are lists of records with distinct
keys; where the values of a dictionary are objects that another dictionary holds too, only the keys
are listed.

A function of the simulator changes the data center and may raise an exception on the way: its
result is the data center that it leaves behind and the exception.  The hash function SHA-1 is a parameter.
-/

namespace LazyCtrl
namespace Sim

open Text Keyed

inductive SimError where
  | key
  | value
  | attr
  | index
  | noSwitch
  deriving DecidableEq, Repr

def pyIntLine (line : Chars) : Option Int :=
  match pySplit line with
  | [word] => pyIntOf word
  | _ => none

abbrev FilterBytes := Fin 256 → Byte

def binByte (i : Fin 2048) : Fin 256 := ⟨i.val / 8, by omega⟩

def setBin (array : FilterBytes) (i : Fin 2048) : FilterBytes :=
  Function.update array (binByte i) (array (binByte i) ||| 1#8 <<< (i.val % 8))

def getBin (array : FilterBytes) (i : Fin 2048) : Bool :=
  array (binByte i) &&& 1#8 <<< (i.val % 8) != 0

def probesFrom : Nat → Nat → List (Fin 2048)
  | 0, _ => []
  | n + 1, h => Fin.ofNat 2048 h :: probesFrom n (h >>> 11)

def edgeProbes : Nat := 16

section Filters

variable (sha1 : Chars → Nat)

def getProbes (key : Int) : List (Fin 2048) := probesFrom edgeProbes (sha1 (pyDecimal key))

def filterUpdate (array : FilterBytes) (key : Int) : FilterBytes :=
  (getProbes sha1 key).foldl setBin array

def filterContains (array : FilterBytes) (key : Int) : Bool :=
  (getProbes sha1 key).all (getBin array)

end Filters

structure Vm where
  vmid : Int
  swid : Int
  deriving DecidableEq, Repr

instance : Keyed Vm Int := ⟨Vm.vmid⟩

structure EdgeSwitch where
  swid : Int
  gid : Int
  numVm : Int
  vmDic : List Vm
  bf : FilterBytes

inductive Switch where
  | core (swid : Int)
  | agg (swid : Int)
  | edge (sw : EdgeSwitch)

def Switch.getid : Switch → Int
  | .core swid | .agg swid => swid
  | .edge sw => sw.swid

instance : Keyed Switch Int := ⟨Switch.getid⟩

structure Group where
  id : Int
  numSwitch : Int
  swDic : Finset Int
  bfDic : Finset Int

instance : Keyed Group Int := ⟨Group.id⟩

def Group.new (id : Int) : Group := { id, numSwitch := 0, swDic := ∅, bfDic := ∅ }

def Group.addSwitch (group : Group) (swid : Int) : Group :=
  { group with
    swDic := insert swid group.swDic
    bfDic := insert swid group.bfDic
    numSwitch := group.numSwitch + 1 }

def Group.removeSwitch (group : Group) (swid : Int) : Group × Option SimError :=
  if swid ∈ group.swDic then
    let popped := { group with swDic := group.swDic.erase swid }
    if swid ∈ group.bfDic then
      ({ popped with bfDic := group.bfDic.erase swid, numSwitch := group.numSwitch - 1 }, none)
    else (popped, some .key)
  else (group, some .key)

section EdgeSwitch

variable (sha1 : Chars → Nat)

def EdgeSwitch.addVM (sw : EdgeSwitch) (vm : Vm) : EdgeSwitch :=
  { sw with
    vmDic := upsert sw.vmDic vm.vmid fun _ => vm
    bf := filterUpdate sha1 sw.bf vm.vmid
    numVm := sw.numVm + 1 }

def portVms (swid numPort : Int) : List Vm :=
  (List.range numPort.toNat).map fun i => ⟨swid * numPort + i, swid⟩

def EdgeSwitch.new (swid gid numPort : Int) : EdgeSwitch :=
  (portVms swid numPort).foldl (EdgeSwitch.addVM sha1)
    { swid, gid, numVm := numPort, vmDic := [], bf := fun _ => 0 }

end EdgeSwitch

def EdgeSwitch.hasVM (sw : EdgeSwitch) (vm : Vm) : Bool := (lookup sw.vmDic vm.vmid).isSome

def EdgeSwitch.hasVMbyBF (sha1 : Chars → Nat) (sw : EdgeSwitch) (vm : Vm) : Bool :=
  filterContains sha1 sw.bf vm.vmid

def defaultGroupId : Int := -1

structure Topo where
  coreSWList : List Int
  aggSWList : List Int
  edgeSWList : List Int
  numPort : Int

def Topo.flat (numSw numPort : Int) : Topo :=
  { coreSWList := []
    aggSWList := []
    edgeSWList := (List.range numSw.toNat).map Int.ofNat
    numPort }

structure Dc where
  numSwitch : Int
  numVm : Int
  swDic : List Switch
  coreSWList : List Int
  aggSWList : List Int
  edgeSWList : List Int
  vmDic : List Vm
  numGroup : Int
  groupDic : List Group

def Dc.empty : Dc :=
  { numSwitch := 0, numVm := 0, swDic := [], coreSWList := [], aggSWList := [], edgeSWList := [],
    vmDic := [], numGroup := 0, groupDic := [] }

abbrev Outcome := Dc × Option SimError

def Outcome.andThen (outcome : Outcome) (next : Dc → Outcome) : Outcome :=
  match outcome with
  | (dc, none) => next dc
  | (dc, some error) => (dc, some error)

theorem Outcome.andThen_of_none {outcome : Outcome} (noError : outcome.2 = none)
    (next : Dc → Outcome) : outcome.andThen next = next outcome.1 := by
  obtain ⟨dc, error⟩ := outcome
  obtain rfl : error = none := noError
  rfl

theorem Outcome.andThen_keeps (inv : Dc → Prop) {outcome : Outcome} {next : Dc → Outcome}
    (first : inv outcome.1) (later : inv (next outcome.1).1) : inv (outcome.andThen next).1 := by
  obtain ⟨dc, error⟩ := outcome
  cases error with
  | none => exact later
  | some error => exact first

namespace Dc

def addGroup (dc : Dc) (group : Group) : Dc :=
  { dc with
    groupDic := upsert dc.groupDic group.id fun _ => group
    numGroup := dc.numGroup + 1 }

def ensureGroup (dc : Dc) (gid : Int) : Dc :=
  if (lookup dc.groupDic gid).isSome then dc else dc.addGroup (.new gid)

def joinGroup (dc : Dc) (gid swid : Int) : Dc :=
  { dc with
    groupDic := upsert dc.groupDic gid fun present => (present.getD (.new gid)).addSwitch swid }

def leaveGroup (dc : Dc) (gid swid : Int) : Outcome :=
  match lookup dc.groupDic gid with
  | none => (dc, none)
  | some group =>
    let (group, error) := group.removeSwitch swid
    ({ dc with groupDic := upsert dc.groupDic gid fun _ => group }, error)

def mergeVms (dc : Dc) (sw : EdgeSwitch) : Dc :=
  if 0 < sw.numVm then
    { dc with
      vmDic := sw.vmDic.foldl (fun vmDic vm => upsert vmDic vm.vmid fun _ => vm) dc.vmDic
      numVm := dc.numVm + sw.numVm }
  else dc

def addSwitch (dc : Dc) (sw : Switch) : Dc :=
  let dc :=
    { dc with
      swDic := upsert dc.swDic sw.getid fun _ => sw
      numSwitch := dc.numSwitch + 1 }
  match sw with
  | .core swid => { dc with coreSWList := dc.coreSWList ++ [swid] }
  | .agg swid => { dc with aggSWList := dc.aggSWList ++ [swid] }
  | .edge sw =>
    let dc := { dc with edgeSWList := dc.edgeSWList ++ [sw.swid] }
    let dc :=
      if sw.gid ≠ defaultGroupId then (dc.ensureGroup sw.gid).joinGroup sw.gid sw.swid else dc
    dc.mergeVms sw

def updateEdgeSWInfo (dc : Dc) (swid gid : Int) : Outcome :=
  match lookup dc.swDic swid with
  | none | some (.core _) | some (.agg _) => (dc, none)
  | some (.edge sw) =>
    (dc.leaveGroup sw.gid swid).andThen fun dc =>
      let dc := (dc.ensureGroup gid).joinGroup gid swid
      ({ dc with swDic := upsert dc.swDic swid fun _ => .edge { sw with gid } }, none)

def addVM (dc : Dc) (vm : Vm) : Dc :=
  { dc with
    vmDic := upsert dc.vmDic vm.vmid fun _ => vm
    numVm := dc.numVm + 1 }

section Read

variable (sha1 : Chars → Nat)

def ofTopo (topo : Topo) : Dc :=
  let dc := topo.coreSWList.foldl (fun dc swid => dc.addSwitch (.core swid)) empty
  let dc := topo.aggSWList.foldl (fun dc swid => dc.addSwitch (.agg swid)) dc
  topo.edgeSWList.foldl
    (fun dc swid => dc.addSwitch (.edge (.new sha1 swid defaultGroupId topo.numPort))) dc

def placeSwitch (dc : Dc) (swid gid : Int) : Outcome :=
  if dc.edgeSWList.contains swid then dc.updateEdgeSWInfo swid gid
  else (dc.addSwitch (.edge (.new sha1 swid gid 0)), none)

def readSwitches : Int → List Chars → Dc → Outcome
  | _, [], dc => (dc, none)
  | swid, line :: lines, dc =>
    match pyIntLine line with
    | none => (dc, some .value)
    | some gid => (dc.placeSwitch sha1 swid gid).andThen (readSwitches (swid + 1) lines)

def readinEdgeSWInfo (dc : Dc) (lines : List Chars) : Outcome := readSwitches sha1 1 lines dc

def readVm (line : Chars) : Option Vm :=
  match pySplit line with
  | [vmid, swid] => do
      let vmid ← pyIntOf vmid
      let swid ← pyIntOf swid
      some { vmid, swid }
  | _ => none

def placeVm (dc : Dc) (vm : Vm) : Outcome :=
  let dc := dc.addVM vm
  match lookup dc.swDic vm.swid with
  | none => (dc, some .noSwitch)
  | some (.core _) | some (.agg _) => (dc, some .attr)
  | some (.edge sw) =>
    ({ dc with swDic := upsert dc.swDic vm.swid fun _ => .edge (sw.addVM sha1 vm) }, none)

def readVms : List Chars → Dc → Outcome
  | [], dc => (dc, none)
  | line :: lines, dc =>
    match readVm line with
    | none => (dc, some .value)
    | some vm => (dc.placeVm sha1 vm).andThen (readVms lines)

def readinVMInfo (dc : Dc) (lines : List Chars) : Outcome := readVms sha1 lines dc

variable {sha1} {dc : Dc} (inv : Dc → Prop)

theorem readSwitches_keeps (kept : ∀ dc swid gid, inv dc → inv (placeSwitch sha1 dc swid gid).1)
    (start : inv dc) (swid : Int) (lines : List Chars) :
    inv (dc.readSwitches sha1 swid lines).1 := by
  induction lines generalizing dc swid with
  | nil => exact start
  | cons line lines ih =>
    rw [readSwitches]
    split
    · exact start
    · rename_i gid _
      exact Outcome.andThen_keeps inv (kept dc swid gid start)
        (ih (kept dc swid gid start) (swid + 1))

theorem readVms_keeps (kept : ∀ dc vm, inv dc → inv (placeVm sha1 dc vm).1) (start : inv dc)
    (lines : List Chars) : inv (dc.readVms sha1 lines).1 := by
  induction lines generalizing dc with
  | nil => exact start
  | cons line lines ih =>
    rw [readVms]
    split
    · exact start
    · rename_i vm _
      exact Outcome.andThen_keeps inv (kept dc vm start) (ih (kept dc vm start))

end Read

def randint (n : Int) (draw : Nat) : Option Int := if n < 1 then none else some (1 + draw % n)

def genGroups (numGroup : Int) (draws : Int → Nat) : List Int → Dc → Outcome
  | [], dc => (dc, none)
  | swid :: swids, dc =>
    match lookup dc.swDic swid with
    | some (.edge _) =>
      match randint numGroup (draws swid) with
      | none => (dc, some .value)
      | some gid => (dc.updateEdgeSWInfo swid gid).andThen (genGroups numGroup draws swids)
    | _ => genGroups numGroup draws swids dc

def genGroupRandom (dc : Dc) (order : DictOrder Switch) (numGroup : Int) (draws : Int → Nat) :
    Outcome :=
  genGroups numGroup draws (keys (order.visit dc.swDic)) dc

end Dc

def binsOf (array : FilterBytes) : Set (Fin 2048) := {i | getBin array i = true}

theorem getBin_eq (array : FilterBytes) (i : Fin 2048) :
    getBin array i = (array (binByte i)).getLsbD (i.val % 8) :=
  and_one_shift_ne_zero _ _ (Nat.mod_lt _ (by decide))

theorem binsOf_setBin (array : FilterBytes) (i : Fin 2048) :
    binsOf (setBin array i) = insert i (binsOf array) := by
  ext j
  have low : j.val % 8 < 8 := Nat.mod_lt _ (by decide)
  have read : ∀ array, j ∈ binsOf array ↔ (array (binByte j)).getLsbD (j.val % 8) = true :=
    fun array => by rw [← getBin_eq]; rfl
  rw [Set.mem_insert_iff, read, read, setBin]
  by_cases sameByte : binByte j = binByte i
  · have bitEq : j.val % 8 = i.val % 8 ↔ j = i := by
      rw [binByte, binByte, Fin.mk.injEq] at sameByte
      rw [Fin.ext_iff]
      omega
    rw [sameByte, Function.update_self, BitVec.getLsbD_or, one_shift_getLsbD _ _ low,
      Bool.or_eq_true, decide_eq_true_eq, bitEq, or_comm]
  · have differ : j ≠ i := fun equal => sameByte (by rw [equal])
    rw [Function.update_of_ne sameByte]
    simp [differ]

theorem binsOf_foldl_setBin (probes : List (Fin 2048)) (array : FilterBytes) :
    binsOf (probes.foldl setBin array) = binsOf array ∪ {i | i ∈ probes} := by
  induction probes generalizing array with
  | nil => simp
  | cons i probes ih =>
    rw [List.foldl_cons, ih, binsOf_setBin]
    ext j
    simp only [Set.mem_union, Set.mem_insert_iff, Set.mem_ofPred_eq, List.mem_cons]
    tauto

def probeSet (sha1 : Chars → Nat) (key : Int) : Set (Fin 2048) := {i | i ∈ getProbes sha1 key}

theorem binsOf_filterUpdate (sha1 : Chars → Nat) (array : FilterBytes) (key : Int) :
    binsOf (filterUpdate sha1 array key) = Bloom.add (probeSet sha1) (binsOf array) key :=
  binsOf_foldl_setBin _ _

theorem filterContains_iff (sha1 : Chars → Nat) (array : FilterBytes) (key : Int) :
    filterContains sha1 array key = true ↔ Bloom.Reports (probeSet sha1) (binsOf array) key := by
  rw [filterContains, List.all_eq_true]
  rfl

end Sim
end LazyCtrl
