import LazyCtrl.Mcast.Bridge

/-!
# The two copies of the table of a switch

A switch keeps its table twice: in the daemon and in the datapath.  `mc_recv` compares a message
with the daemon's copy only, and forwards it to the datapath only if that copy has changed.  This
file describes one reception by what it does to the arrays of both copies, and says when the copies
agree after it.
-/

namespace LazyCtrl

open Keyed

/-- A switch: the bridge of the daemon and the datapath it manages. -/
structure Switch where
  br : Bridge
  dp : Datapath

def Switch.Starts (switch : Switch) : Prop :=
  ∃ alloc kernelAlloc gidFile gid,
    bridgeLcInit alloc switch.br.localId gidFile = some switch.br ∧
      ovsDpCmdNew switch.br.localId kernelAlloc gid = some (some switch.dp)

/-- The filter of a message that `mc_recv` has received, and what its processing meets. -/
structure Reception where
  bf : BloomFilter
  alloc : Alloc
  link : DpLink

def Switch.recv (switch : Switch) (reception : Reception) : Option Switch :=
  (mcRecvFilter reception.alloc reception.link switch.br switch.dp reception.bf).map
    fun copies => { br := copies.1, dp := copies.2 }

def BfGdt.arrayOf (gdt : BfGdt) (bfId : BitVec 32) : Option BitArray :=
  (findFilter (some gdt) bfId).join.map BloomFilter.array

def BfGdt.CanStore (alloc : Alloc) (gdt : BfGdt) (bfId : BitVec 32) : Prop :=
  findFilter (some gdt) bfId ≠ some none ∨ gdt.nbf < bfGdtMaxFilters ∧ alloc.isSome

def Switch.daemonArray (switch : Switch) (bfId : BitVec 32) : Option BitArray :=
  switch.br.gdt.arrayOf bfId

def Switch.kernelArray (switch : Switch) (bfId : BitVec 32) : Option BitArray :=
  switch.dp.gdt.bind fun gdt => gdt.arrayOf bfId

/-- Both copies hold a filter for the id, with the same bit array. -/
def Switch.Agrees (switch : Switch) (bfId : BitVec 32) : Prop :=
  ∃ array, switch.kernelArray bfId = some array ∧ switch.daemonArray bfId = some array

structure Switch.Holds (switch : Switch) (daemon kernel : List BloomFilter) : Prop where
  daemon_holds : switch.br.gdt.Holds daemon
  daemon_table : WideTable daemon
  kernel_holds : ∃ gdt, switch.dp.gdt = some gdt ∧ gdt.Holds kernel
  kernel_table : WideTable kernel

def KernelUpdated (link : DpLink) (ret : Int) (kernel : List BloomFilter) (bf : BloomFilter)
    (after : List BloomFilter) : Prop :=
  match link with
  | .delivered alloc =>
    if 0 < ret then
      ∃ kernelRet, Updated alloc kernel { bf with portNo := lcBfRemotePort } after kernelRet
    else
      after = kernel
  | _ => after = kernel

section Reception

variable {switch : Switch} {daemon kernel : List BloomFilter}

theorem BfGdt.Holds.arrayOf_eq {gdt : BfGdt} {filters : List BloomFilter}
    (holds : gdt.Holds filters) (bfId : BitVec 32) : gdt.arrayOf bfId = contents filters bfId := by
  rw [BfGdt.arrayOf, findFilter_of_holds holds]
  rfl

theorem BfGdt.Holds.canStore_iff {gdt : BfGdt} {filters : List BloomFilter}
    (holds : gdt.Holds filters) (alloc : Alloc) (bfId : BitVec 32) :
    gdt.CanStore alloc bfId ↔ LazyCtrl.CanStore alloc filters bfId := by
  simp [BfGdt.CanStore, findFilter_of_holds holds, holds.nbf_eq, LazyCtrl.CanStore,
    Option.isSome_iff_ne_none]

theorem KernelUpdated.cases {link : DpLink} {ret : Int} {bf : BloomFilter}
    {after : List BloomFilter} (updated : KernelUpdated link ret kernel bf after) :
    after = kernel ∨ 0 < ret ∧ ∃ alloc kernelRet, link = .delivered alloc ∧
      Updated alloc kernel { bf with portNo := lcBfRemotePort } after kernelRet := by
  cases link with
  | noOfproto | failed => exact Or.inl updated
  | delivered alloc =>
    by_cases changed : 0 < ret
    · obtain ⟨kernelRet, inner⟩ : ∃ kernelRet, Updated alloc kernel _ after kernelRet := by
        simpa only [KernelUpdated, changed, if_true] using updated
      exact Or.inr ⟨changed, alloc, kernelRet, rfl, inner⟩
    · exact Or.inl (by simpa only [KernelUpdated, changed, if_false] using updated)

theorem bfGdtUpdateFilter_updated {gdt : BfGdt} {filters : List BloomFilter}
    (holds : gdt.Holds filters) (table : WideTable filters) (alloc : Alloc) {bf : BloomFilter}
    (wide : bf.nbytes = 128) :
    ∃ gdtAfter after ret, bfGdtUpdateFilter alloc gdt bf = some (gdtAfter, ret) ∧
      gdtAfter.Holds after ∧ gdtAfter.gid = gdt.gid ∧ Updated alloc filters bf after ret := by
  obtain ⟨after, ret, update, updated⟩ := table.update alloc bf fun _ => wide
  have refines := bfGdtUpdateFilter_refines holds alloc bf
  rw [update] at refines
  obtain ⟨gdtAfter, concrete, sameGid, holdsAfter⟩ := refines
  exact ⟨gdtAfter, after, ret, concrete, holdsAfter, sameGid, updated⟩

theorem mcUpdateDp_updated {dp : Datapath} {gdt : BfGdt} (gdtEq : dp.gdt = some gdt)
    (holds : gdt.Holds kernel) (table : WideTable kernel) (link : DpLink) {bf : BloomFilter}
    (wide : bf.nbytes = 128) (ret : Int) :
    ∃ dpAfter gdtAfter after, mcUpdateDp link dp bf ret = some dpAfter ∧
      dpAfter.gdt = some gdtAfter ∧ gdtAfter.Holds after ∧ WideTable after ∧
        KernelUpdated link ret kernel bf after := by
  unfold mcUpdateDp KernelUpdated
  cases link with
  | noOfproto | failed =>
    refine ⟨dp, gdt, kernel, ?_, gdtEq, holds, table, rfl⟩
    split <;> rfl
  | delivered alloc =>
    by_cases changed : 0 < ret
    · obtain ⟨gdtAfter, after, kernelRet, update, holdsAfter, -, updated⟩ :
          ∃ gdtAfter after kernelRet,
            bfGdtUpdateFilter alloc gdt { bf with portNo := lcBfRemotePort } =
              some (gdtAfter, kernelRet) ∧ gdtAfter.Holds after ∧ gdtAfter.gid = gdt.gid ∧
                Updated alloc kernel { bf with portNo := lcBfRemotePort } after kernelRet :=
        bfGdtUpdateFilter_updated holds table alloc wide
      refine ⟨{ dp with gdt := some gdtAfter }, gdtAfter, after, ?_, rfl, holdsAfter,
        updated.table, ?_⟩
      · simp [changed, bridgeUpdateBfGdtToDp, Datapath.update, gdtEq, update]
      · simp only [changed, if_true]
        exact ⟨kernelRet, updated⟩
    · exact ⟨dp, gdt, kernel, by simp [changed], gdtEq, holds, table, by simp [changed]⟩

theorem Switch.Holds.recv (holds : switch.Holds daemon kernel) (reception : Reception)
    (wide : reception.bf.nbytes = 128) (remote : reception.bf.bfId ≠ switch.br.localId) :
    ∃ gdtAfter dpAfter daemonAfter kernelAfter ret,
      switch.recv reception =
          some { br := { switch.br with gdt := gdtAfter }, dp := dpAfter } ∧
        gdtAfter.gid = switch.br.gdt.gid ∧
        Switch.Holds { br := { switch.br with gdt := gdtAfter }, dp := dpAfter }
          daemonAfter kernelAfter ∧
        Updated reception.alloc daemon reception.bf daemonAfter ret ∧
          KernelUpdated reception.link ret kernel reception.bf kernelAfter := by
  obtain ⟨gdt, gdtEq, kernelHolds⟩ := holds.kernel_holds
  obtain ⟨gdtAfter, daemonAfter, ret, update, daemonHolds, sameGid, updated⟩ :=
    bfGdtUpdateFilter_updated holds.daemon_holds holds.daemon_table reception.alloc wide
  obtain ⟨dpAfter, kernelGdt, kernelAfter, kernelUpdate, kernelEq, kernelHoldsAfter, kernelTable,
    kernelUpdated⟩ :=
    mcUpdateDp_updated gdtEq kernelHolds holds.kernel_table reception.link wide ret
  refine ⟨gdtAfter, dpAfter, daemonAfter, kernelAfter, ret, ?_, sameGid,
    ⟨daemonHolds, updated.table, ⟨kernelGdt, kernelEq, kernelHoldsAfter⟩, kernelTable⟩, updated,
    kernelUpdated⟩
  simp [Switch.recv, mcRecvFilter, remote, mcUpdate, update, kernelUpdate]

theorem Switch.recv_own {reception : Reception}
    (own : reception.bf.bfId = switch.br.localId) : switch.recv reception = some switch := by
  simp [Switch.recv, mcRecvFilter, own]

/-- The condition under which the copies agree on a filter after its reception has been delivered:
the daemon can store the filter, and the datapath has it already or gets it because the daemon's
copy changes. -/
def Repairs (switch : Switch) (bf : BloomFilter) (alloc kernelAlloc : Alloc) : Prop :=
  switch.br.gdt.CanStore alloc bf.bfId ∧
    (switch.kernelArray bf.bfId = some bf.array ∨
      switch.daemonArray bf.bfId ≠ some bf.array ∧
        ∃ gdt, switch.dp.gdt = some gdt ∧ gdt.CanStore kernelAlloc bf.bfId)

theorem KernelUpdated.contents_eq {kernelAlloc : Alloc} {ret : Int} {bf : BloomFilter}
    {after : List BloomFilter} (updated : KernelUpdated (.delivered kernelAlloc) ret kernel bf after) :
    contents after bf.bfId = some bf.array ↔
      contents kernel bf.bfId = some bf.array ∨
        0 < ret ∧ LazyCtrl.CanStore kernelAlloc kernel bf.bfId := by
  unfold KernelUpdated at updated
  by_cases changed : 0 < ret
  · simp only [changed, if_true] at updated
    obtain ⟨kernelRet, inner⟩ := updated
    have content := inner.contents_eq bf.bfId
    by_cases stores : LazyCtrl.CanStore kernelAlloc kernel bf.bfId
    · simp [content, changed, stores]
    · simp [content, stores]
  · simp only [changed, if_false] at updated
    simp [updated, changed]

theorem Switch.Holds.daemonArray_eq (holds : switch.Holds daemon kernel) (bfId : BitVec 32) :
    switch.daemonArray bfId = contents daemon bfId :=
  holds.daemon_holds.arrayOf_eq bfId

theorem Switch.Holds.kernelArray_eq (holds : switch.Holds daemon kernel) (bfId : BitVec 32) :
    switch.kernelArray bfId = contents kernel bfId := by
  obtain ⟨gdt, gdtEq, kernelHolds⟩ := holds.kernel_holds
  simp [Switch.kernelArray, gdtEq, kernelHolds.arrayOf_eq]

theorem Switch.Holds.repairs_iff (holds : switch.Holds daemon kernel) (bf : BloomFilter)
    (alloc kernelAlloc : Alloc) :
    Repairs switch bf alloc kernelAlloc ↔
      LazyCtrl.CanStore alloc daemon bf.bfId ∧
        (contents kernel bf.bfId = some bf.array ∨
          contents daemon bf.bfId ≠ some bf.array ∧
            LazyCtrl.CanStore kernelAlloc kernel bf.bfId) := by
  obtain ⟨gdt, gdtEq, kernelHolds⟩ := holds.kernel_holds
  simp [Repairs, gdtEq, holds.daemonArray_eq, holds.kernelArray_eq, kernelHolds.canStore_iff,
    holds.daemon_holds.canStore_iff]

theorem Switch.Holds.recv_agrees_iff (holds : switch.Holds daemon kernel) {bf : BloomFilter}
    (wide : bf.nbytes = 128) (remote : bf.bfId ≠ switch.br.localId) (alloc kernelAlloc : Alloc) :
    ∃ after, switch.recv { bf, alloc, link := .delivered kernelAlloc } = some after ∧
      (after.Agrees bf.bfId ↔ Repairs switch bf alloc kernelAlloc) := by
  obtain ⟨gdtAfter, dpAfter, daemonAfter, kernelAfter, ret, received, -, holdsAfter, updated,
    kernelUpdated⟩ :=
    holds.recv { bf, alloc, link := .delivered kernelAlloc } wide remote
  refine ⟨_, received, ?_⟩
  rw [Switch.Agrees, holdsAfter.kernelArray_eq, holdsAfter.daemonArray_eq, holds.repairs_iff,
    ← updated.changed, ← kernelUpdated.contents_eq, updated.contents_eq]
  by_cases stores : LazyCtrl.CanStore alloc daemon bf.bfId
  · simp [stores]
  · simp [stores, contents_of_not_canStore stores]

end Reception

def Switch.WellFormed (switch : Switch) : Prop := ∃ daemon kernel, switch.Holds daemon kernel

theorem Switch.Starts.wellFormed {switch : Switch} (starts : switch.Starts) :
    switch.WellFormed := by
  obtain ⟨alloc, kernelAlloc, gidFile, gid, init, created⟩ := starts
  obtain ⟨gdt, dpEq, kernelHolds⟩ := ovsDpCmdNew_holds created
  obtain ⟨_, daemonGdt, _, _, brEq, _, daemonHolds⟩ := bridgeLcInit_holds init
  have kernel : ∃ gdt, switch.dp.gdt = some gdt ∧
      gdt.Holds [.empty switch.br.localId lcBfLocalPort] := ⟨gdt, by rw [dpEq], kernelHolds⟩
  have gdtEq : switch.br.gdt = daemonGdt := by rw [brEq]
  rcases daemonHolds with ⟨-, holds⟩ | holds
  · exact ⟨[], _, gdtEq ▸ holds, ⟨by simp [keys], by simp⟩, kernel, wideTable_empty _ _⟩
  · exact ⟨_, _, gdtEq ▸ holds, wideTable_empty _ _, kernel, wideTable_empty _ _⟩

theorem wellFormed_of_exec {start switch : Switch} (starts : start.Starts) {receptions : List Reception}
    (sent : ∀ reception ∈ receptions, reception.bf.len = lcBfDftLen)
    (run : Run.exec Switch.recv start receptions = some switch) :
    switch.WellFormed := by
  refine Run.exec_invariant Switch.WellFormed ?_ starts.wellFormed (Run.along_of_forall sent) run
  rintro before reception after ⟨daemon, kernel, holds⟩ len received
  by_cases own : reception.bf.bfId = before.br.localId
  · obtain rfl := Option.some.inj ((Switch.recv_own own).symm.trans received)
    exact ⟨daemon, kernel, holds⟩
  · obtain ⟨gdtAfter, dpAfter, daemonAfter, kernelAfter, ret, step, -, holdsAfter, -⟩ :=
      holds.recv reception (BloomFilter.nbytes_of_dftLen len) own
    obtain rfl := Option.some.inj (step.symm.trans received)
    exact ⟨daemonAfter, kernelAfter, holdsAfter⟩

/-- In every state that messages of the group can lead to, whatever became of the datapath updates
so far: after a delivered reception of a remote filter the two copies agree on it exactly when the
daemon could store it and either the datapath had it already or the daemon's copy changed. -/
theorem agrees_after_delivered_iff {start switch : Switch} (starts : start.Starts)
    {receptions : List Reception}
    (sent : ∀ reception ∈ receptions, reception.bf.len = lcBfDftLen)
    (run : Run.exec Switch.recv start receptions = some switch)
    {bf : BloomFilter} (len : bf.len = lcBfDftLen) (remote : bf.bfId ≠ switch.br.localId)
    (alloc kernelAlloc : Alloc) :
    ∃ after, switch.recv { bf, alloc, link := .delivered kernelAlloc } = some after ∧
      (after.Agrees bf.bfId ↔ Repairs switch bf alloc kernelAlloc) := by
  obtain ⟨daemon, kernel, holds⟩ := wellFormed_of_exec starts sent run
  exact holds.recv_agrees_iff (BloomFilter.nbytes_of_dftLen len) remote alloc kernelAlloc

def freshGdt (localId gid : BitVec 32) : BfGdt where
  gid := gid
  nbf := 1
  bfArray := some (.empty localId lcBfLocalPort) :: List.replicate 63 none

def freshSwitch (localId gid : BitVec 32) : Switch where
  br :=
    { localId
      gdt := freshGdt localId gid
      sendGroupIp := sendGroupIp gid
      recvGroupIp := recvGroupIp gid
      isDdcm := 0 }
  dp := { localIp := localId, gdt := some (freshGdt localId gid) }

theorem bfGdtAddFilter_freshGdt (heap : BitArray) (localId gid : BitVec 32) :
    bfGdtAddFilter (some heap) (bfGdtInit gid) localId lcBfLocalPort lcBfDftLen =
      some (freshGdt localId gid, some 0) := by
  have room : ¬ (bfGdtInit gid).nbf ≥ bfGdtMaxFilters := Nat.not_le_of_lt (by decide : 0 < 64)
  rw [bfGdtAddFilter, if_neg room, bfCreate_dftLen]
  rfl

theorem freshSwitch_starts (localId gid : BitVec 32) : (freshSwitch localId gid).Starts := by
  refine ⟨some fun _ => 0, some fun _ => 0, some { gid, ddcm := 0 }, gid, ?_, ?_⟩
  · simp [bridgeLcInit, freshSwitch, bfGdtAddFilter_freshGdt]
  · simp [ovsDpCmdNew, freshSwitch, bfGdtAddFilter_freshGdt]

/-- The message of a switch `1.1.1.1` that has not learned anything. -/
def sampleFilter : BloomFilter := .empty 0x01010101 lcBfLocalPort

theorem agrees_after_delivered_sampleFilter :
    ∃ after, (freshSwitch lcBfLocalId 0).recv
        { bf := sampleFilter, alloc := some fun _ => 0, link := .delivered (some fun _ => 0) } =
          some after ∧
      (after.Agrees sampleFilter.bfId ↔
        Repairs (freshSwitch lcBfLocalId 0) sampleFilter (some fun _ => 0) (some fun _ => 0)) :=
  agrees_after_delivered_iff (freshSwitch_starts lcBfLocalId 0)
    (fun _ member => absurd member List.not_mem_nil) rfl rfl (by decide) _ _

/-- A message whose datapath update fails and that is received again: the second reception finds the
daemon's copy unchanged and does not reach the datapath. -/
theorem not_agrees_after_failed_update :
    (freshSwitch lcBfLocalId 0).Starts ∧
      ∃ failed, (freshSwitch lcBfLocalId 0).recv
          { bf := sampleFilter, alloc := some fun _ => 0, link := .failed } = some failed ∧
        ∃ again, failed.recv
            { bf := sampleFilter, alloc := some fun _ => 0,
              link := .delivered (some fun _ => 0) } = some again ∧
          ¬ again.Agrees sampleFilter.bfId := by
  refine ⟨freshSwitch_starts lcBfLocalId 0, _, rfl, _, rfl, ?_⟩
  rintro ⟨array, found, -⟩
  cases found

end LazyCtrl
