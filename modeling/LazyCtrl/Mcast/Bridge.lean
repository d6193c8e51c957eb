import Mathlib.Data.List.OfFn
import LazyCtrl.Datapath.BfGdtCmd

/-!
# The daemon's side of a group

What `vswitchd/bridge.c` and `vswitchd/ovs-mcast.c` keep for the group of a bridge: the table, the
multicast addresses and the path of a filter into the datapath.  The host is little-endian, as for
the layout of the messages, so `inet_addr` and `htonl` swap bytes.
-/

namespace LazyCtrl

open Keyed

def lcGroupDftId : BitVec 32 := 0

def htonl (x : BitVec 32) : BitVec 32 := Bytes.swap32 x

/-- `inet_addr` of an address in dotted notation: the bytes in memory are in the given order. -/
def inetAddr (a b c d : Byte) : BitVec 32 := d ++ c ++ b ++ a

def lcMcastGroupIp : BitVec 32 := inetAddr 239 0 0 1

/-- The numbers that `fscanf` reads from `/tmp/lc_gid.dat`, zero where it reads none. -/
structure GidFile where
  gid : BitVec 32
  ddcm : BitVec 32
  deriving DecidableEq

/-- The members of `struct bridge` that the group code added.  The arguments of the two threads
repeat the table and the id and are not listed again. -/
structure Bridge where
  localId : BitVec 32
  gdt : BfGdt
  sendGroupIp : BitVec 64
  recvGroupIp : BitVec 64
  isDdcm : BitVec 32

/-- The address that `bridge_lc_init` gives the sender: a sum of two 32-bit values. -/
def sendGroupIp (gid : BitVec 32) : BitVec 64 := (lcMcastGroupIp + htonl gid).setWidth 64

/-- The address that `bridge_lc_init` gives the receiver.  Here the group id is added as it is. -/
def recvGroupIp (gid : BitVec 32) : BitVec 64 := (lcMcastGroupIp + gid).setWidth 64

def mcSendAddr (groupIp : BitVec 64) : BitVec 32 := groupIp.setWidth 32

def mcRecvAddr (groupIp : BitVec 64) : BitVec 32 := groupIp.setWidth 32

/-- `bridge_lc_init` up to the start of the threads.  The result of adding the local filter is not
looked at. -/
def bridgeLcInit (alloc : Alloc) (localId : BitVec 32) (gidFile : Option GidFile) :
    Option Bridge := do
  let read := gidFile.getD { gid := lcGroupDftId, ddcm := 0 }
  let (gdt, _) ← bfGdtAddFilter alloc (bfGdtInit read.gid) localId lcBfLocalPort lcBfDftLen
  some
    { localId
      gdt
      sendGroupIp := sendGroupIp read.gid
      recvGroupIp := recvGroupIp read.gid
      isDdcm := read.ddcm }

def bridgeUpdateLocalBf (alloc : Alloc) (br : Bridge) (srcMac : List Byte) :
    Option (Bridge × Int) := do
  let (gdt, found) ←
    match ← bfGdtFindFilter br.gdt br.localId with
    | some i => some (br.gdt, some i)
    | none => bfGdtAddFilter alloc br.gdt br.localId lcBfRemotePort lcBfDftLen
  match found with
  | none => some ({ br with gdt }, -1)
  | some _ =>
    let (gdt, ret) ← bfGdtAddItem gdt br.localId srcMac
    some ({ br with gdt }, ret)

def hexDigit (x : BitVec 4) : Byte :=
  if x.toNat < 10 then 48 + x.setWidth 8 else 87 + x.setWidth 8

/-- `sprintf(buf, "%02x%02x%02x%02x%02x%02x", ...)`, the string under which the daemon learns a
source address and the datapath looks up a destination address. -/
def macString (mac : Fin 6 → Byte) : List Byte :=
  (List.ofFn mac).flatMap fun x => [hexDigit (x.extractLsb' 4 4), hexDigit (x.extractLsb' 0 4)]

inductive DpLink where
  | noOfproto
  | failed
  | delivered (alloc : Alloc)

def bridgeUpdateBfGdtToDp (link : DpLink) (dp : Datapath) (bf : BloomFilter) : Option Datapath :=
  match link with
  | .noOfproto | .failed => some dp
  | .delivered alloc => dp.update alloc bf

def mcUpdateDp (link : DpLink) (dp : Datapath) (bf : BloomFilter) (ret : Int) : Option Datapath :=
  if ret > 0 then bridgeUpdateBfGdtToDp link dp { bf with portNo := lcBfRemotePort } else some dp

def mcUpdate (alloc : Alloc) (link : DpLink) (br : Bridge) (dp : Datapath) (bf : BloomFilter) :
    Option (Bridge × Datapath × Int) := do
  let (gdt, ret) ← bfGdtUpdateFilter alloc br.gdt bf
  let dp ← mcUpdateDp link dp bf ret
  some ({ br with gdt }, dp, ret)

def mcRecvFilter (alloc : Alloc) (link : DpLink) (br : Bridge) (dp : Datapath) (bf : BloomFilter) :
    Option (Bridge × Datapath) :=
  if bf.bfId = br.localId then
    some (br, dp)
  else do
    let (br, dp, _) ← mcUpdate alloc link br dp bf
    some (br, dp)

theorem bridgeLcInit_holds {alloc : Alloc} {localId : BitVec 32} {gidFile : Option GidFile}
    {br : Bridge} (init : bridgeLcInit alloc localId gidFile = some br) :
    ∃ gid gdt ddcm,
      gid = (gidFile.map GidFile.gid).getD lcGroupDftId ∧
      br = { localId, gdt, sendGroupIp := sendGroupIp gid, recvGroupIp := recvGroupIp gid,
             isDdcm := ddcm } ∧
        gdt.gid = gid ∧
          (alloc = none ∧ gdt.Holds [] ∨ gdt.Holds [.empty localId lcBfLocalPort]) := by
  simp only [bridgeLcInit, Option.bind_eq_bind, Option.bind_eq_some_iff, Prod.exists,
    Option.some.injEq] at init
  obtain ⟨gdt, slot, added, rfl⟩ := init
  obtain ⟨sameGid, holds⟩ := bfGdtAddFilter_init added
  refine ⟨_, gdt, _, ?_, rfl, sameGid, ?_⟩
  · cases gidFile <;> rfl
  · exact holds.imp (fun failed => ⟨failed.1, failed.2.2⟩) And.right

def Bridge.HasLocal (br : Bridge) : Prop :=
  ∃ filters bf, br.gdt.Holds filters ∧ lookup filters br.localId = some bf ∧ bf.Valid

/-- The table of a bridge is well formed, and its local filter is valid if there is one. -/
def Bridge.Sound (br : Bridge) : Prop :=
  ∃ filters, br.gdt.Holds filters ∧ ∀ bf, lookup filters br.localId = some bf → bf.Valid

theorem Bridge.HasLocal.sound {br : Bridge} (hasLocal : br.HasLocal) : br.Sound := by
  obtain ⟨filters, bf, holds, found, valid⟩ := hasLocal
  refine ⟨filters, holds, fun other same => ?_⟩
  obtain rfl := Option.some.inj (found.symm.trans same)
  exact valid

def Bridge.LocalReports (br : Bridge) (s : List Byte) : Prop :=
  ∃ bf, findFilter (some br.gdt) br.localId = some (some bf) ∧ bfCheck bf s = some true

theorem Bridge.localReports_iff {br : Bridge} {filters : List BloomFilter} {bf : BloomFilter}
    (holds : br.gdt.Holds filters) (found : lookup filters br.localId = some bf) (valid : bf.Valid)
    (s : List Byte) : br.LocalReports s ↔ Bloom.Reports bf.probes bf.bits s := by
  obtain ⟨result, checked, meaning⟩ := bfCheck_of_valid valid s
  rw [Bridge.LocalReports, findFilter_of_holds holds, found, ← meaning]
  constructor
  · rintro ⟨other, same, reported⟩
    obtain rfl := Option.some.inj (Option.some.inj same)
    exact Option.some.inj (checked.symm.trans reported)
  · rintro rfl
    exact ⟨bf, rfl, checked⟩

theorem Bridge.HasLocal.addItem {br : Bridge} (hasLocal : br.HasLocal) (s : List Byte) :
    ∃ gdt, bfGdtAddItem br.gdt br.localId s = some (gdt, 0) ∧
      Bridge.HasLocal { br with gdt } ∧ Bridge.LocalReports { br with gdt } s ∧
        ∀ other, br.LocalReports other → Bridge.LocalReports { br with gdt } other := by
  obtain ⟨filters, bf, holds, found, valid⟩ := hasLocal
  obtain ⟨i, array, search, added, bits⟩ := tableAddItem_of_valid found valid s
  have refines := bfGdtAddItem_refines holds br.localId s
  rw [added] at refines
  obtain ⟨gdt, concrete, -, holdsAfter⟩ := refines
  have foundAfter : lookup (filters.set i { bf with array }) br.localId = some { bf with array } := by
    rw [lookup_set search _ (show ({ bf with array } : BloomFilter).bfId = _ from lookup_key found),
      if_pos rfl]
  have reports : ∀ other, Bridge.LocalReports { br with gdt } other ↔
      Bloom.Reports bf.probes (Bloom.add bf.probes bf.bits s) other := fun other => by
    rw [← bits]
    exact @localReports_iff { br with gdt } _ _ holdsAfter foundAfter valid other
  refine ⟨gdt, concrete, ⟨_, _, holdsAfter, foundAfter, valid⟩, ?_, fun other reported => ?_⟩
  · rw [reports]
    exact Bloom.reports_add_self bf.probes bf.bits s
  · rw [localReports_iff holds found valid] at reported
    rw [reports]
    exact reported.mono (Bloom.subset_add bf.probes bf.bits s)

theorem Bridge.HasLocal.update {br : Bridge} (hasLocal : br.HasLocal) (alloc : Alloc)
    (s : List Byte) :
    ∃ gdt, bridgeUpdateLocalBf alloc br s = some ({ br with gdt }, 0) ∧
      Bridge.HasLocal { br with gdt } ∧ Bridge.LocalReports { br with gdt } s ∧
        ∀ other, br.LocalReports other → Bridge.LocalReports { br with gdt } other := by
  obtain ⟨gdt, added, learned⟩ := hasLocal.addItem s
  obtain ⟨filters, bf, holds, found, -⟩ := hasLocal
  obtain ⟨i, search, -⟩ := position_of_lookup found
  refine ⟨gdt, ?_, learned⟩
  simp [bridgeUpdateLocalBf, bfGdtFindFilter_of_holds holds, search, added]

theorem tableAdd_dftLen {filters : List BloomFilter} {bfId : BitVec 32}
    (absent : lookup filters bfId = none) (alloc : Alloc) (portNo : BitVec 16) :
    tableAdd alloc filters bfId portNo lcBfDftLen = some (filters, none) ∨
      ∃ slot, tableAdd alloc filters bfId portNo lcBfDftLen =
        some (filters ++ [.empty bfId portNo], some slot) ∧
          lookup (filters ++ [.empty bfId portNo]) bfId = some (.empty bfId portNo) := by
  by_cases full : bfGdtMaxFilters ≤ filters.length
  · exact .inl (if_pos full)
  · rw [tableAdd, if_neg full]
    cases alloc with
    | none => exact .inl rfl
    | some heap =>
      rw [bfCreate_dftLen]
      refine .inr ⟨_, rfl, ?_⟩
      rw [lookup_append (show lookup filters (key (BloomFilter.empty bfId portNo)) = none from absent)]
      exact if_pos rfl

theorem Bridge.Sound.update {br : Bridge} (sound : br.Sound) (alloc : Alloc) (s : List Byte) :
    ∃ gdt ret, bridgeUpdateLocalBf alloc br s = some ({ br with gdt }, ret) ∧
      Bridge.Sound { br with gdt } := by
  obtain ⟨filters, holds, valid⟩ := sound
  cases found : lookup filters br.localId with
  | some bf =>
    obtain ⟨gdt, updated, after, -⟩ :=
      Bridge.HasLocal.update ⟨filters, bf, holds, found, valid bf found⟩ alloc s
    exact ⟨gdt, 0, updated, after.sound⟩
  | none =>
    have missing := position_eq_none.mpr (lookup_eq_none.mp found)
    have refines := bfGdtAddFilter_refines holds alloc br.localId lcBfRemotePort lcBfDftLen
    rcases tableAdd_dftLen found alloc lcBfRemotePort with failed | ⟨slot, created, own⟩
    · rw [failed] at refines
      obtain ⟨gdt, added, -, holdsAfter⟩ := refines
      refine ⟨gdt, -1, ?_, filters, holdsAfter, valid⟩
      simp [bridgeUpdateLocalBf, bfGdtFindFilter_of_holds holds, missing, added]
    · rw [created] at refines
      obtain ⟨middle, added, -, holdsMiddle⟩ := refines
      have hasLocal : Bridge.HasLocal { br with gdt := middle } :=
        ⟨_, _, holdsMiddle, own, BloomFilter.valid_of_dftLen rfl⟩
      obtain ⟨gdt, item, after, -⟩ := hasLocal.addItem s
      refine ⟨gdt, 0, ?_, after.sound⟩
      simp [bridgeUpdateLocalBf, bfGdtFindFilter_of_holds holds, missing, added, item]

@[simp]
theorem mcSendAddr_sendGroupIp (gid : BitVec 32) :
    mcSendAddr (sendGroupIp gid) = lcMcastGroupIp + htonl gid := by
  simp [mcSendAddr, sendGroupIp]

@[simp]
theorem mcRecvAddr_recvGroupIp (gid : BitVec 32) :
    mcRecvAddr (recvGroupIp gid) = lcMcastGroupIp + gid := by
  simp [mcRecvAddr, recvGroupIp]

/-- The members of a group send to the address they join, and no other group uses it. -/
def OwnsAddress (gid : BitVec 32) : Prop :=
  mcSendAddr (sendGroupIp gid) = mcRecvAddr (recvGroupIp gid) ∧
    ∀ other, other ≠ gid →
      mcSendAddr (sendGroupIp other) ≠ mcSendAddr (sendGroupIp gid) ∧
        mcSendAddr (sendGroupIp other) ≠ mcRecvAddr (recvGroupIp gid) ∧
          mcRecvAddr (recvGroupIp other) ≠ mcSendAddr (sendGroupIp gid) ∧
            mcRecvAddr (recvGroupIp other) ≠ mcRecvAddr (recvGroupIp gid)

/-- A group owns an address exactly when the bytes of its id form a palindrome. -/
theorem ownsAddress_iff (gid : BitVec 32) :
    OwnsAddress gid ↔
      gid.extractLsb' 0 8 = gid.extractLsb' 24 8 ∧ gid.extractLsb' 8 8 = gid.extractLsb' 16 8 := by
  rw [← Bytes.swap32_eq_self_iff]
  simp only [OwnsAddress, mcSendAddr_sendGroupIp, mcRecvAddr_recvGroupIp, BitVec.add_right_inj,
    htonl, ne_eq]
  refine ⟨And.left, fun same => ⟨same, fun other differs => ?_⟩⟩
  have swapped : Bytes.swap32 other ≠ gid := fun equal => by
    rw [← same, Bytes.swap32_inj] at equal
    exact differs equal
  exact ⟨mt Bytes.swap32_inj.mp differs, swapped, same.symm ▸ differs, differs⟩

/-- The members of group 1 send to `239.0.0.2` and join `240.0.0.1`. -/
theorem not_ownsAddress_one :
    ¬ OwnsAddress 1 ∧ mcSendAddr (sendGroupIp 1) = inetAddr 239 0 0 2 ∧
      mcRecvAddr (recvGroupIp 1) = inetAddr 240 0 0 1 := by
  have send : mcSendAddr (sendGroupIp 1) = inetAddr 239 0 0 2 := by decide
  have recv : mcRecvAddr (recvGroupIp 1) = inetAddr 240 0 0 1 := by decide
  refine ⟨fun owns => ?_, send, recv⟩
  have equal := owns.1
  rw [send, recv] at equal
  exact absurd equal (by decide)

end LazyCtrl
