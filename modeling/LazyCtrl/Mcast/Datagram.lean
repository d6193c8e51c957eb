import LazyCtrl.Mcast.Bridge

/-!
# Datagrams from the multicast socket

The loop body of `mc_recv` on the bytes of a datagram.  The message buffer is allocated once and
reused, so a short datagram leaves the rest of the previous message in place.  The layout of
`struct mcast_msg` is that of a 64-bit little-endian host.
-/

namespace LazyCtrl

open Keyed

def sizeofMcastMsg : Nat := 192

def lcNumStatEntry : Nat := 1

structure StatEntry where
  srcSwId : BitVec 32
  dstSwId : BitVec 32
  bytes : BitVec 64
  deriving DecidableEq

def msgBf (buffer : List Byte) : BloomFilter := bloomFilterAt buffer 8

def msgNum (buffer : List Byte) : BitVec 32 := Bytes.le32 buffer 160

def msgEntry (buffer : List Byte) (i : Nat) : StatEntry where
  srcSwId := Bytes.le32 buffer (168 + 16 * i)
  dstSwId := Bytes.le32 buffer (172 + 16 * i)
  bytes := Bytes.le32 buffer (180 + 16 * i) ++ Bytes.le32 buffer (176 + 16 * i)

def setMsgPort (buffer : List Byte) (portNo : BitVec 16) : List Byte :=
  (buffer.set 16 (portNo.extractLsb' 0 8)).set 17 (portNo.extractLsb' 8 8)

def statLoop (buffer : List Byte) (i : Nat) : Nat → Option (List StatEntry)
  | 0 => some []
  | n + 1 =>
    if i < lcNumStatEntry then (statLoop buffer (i + 1) n).map (msgEntry buffer i :: ·) else none

structure Receiver where
  buffer : List Byte
  br : Bridge
  dp : Datapath
  statFile : List StatEntry

structure Datagram where
  bytes : List Byte
  alloc : Alloc
  link : DpLink
  statOpens : Bool

def Receiver.received (receiver : Receiver) (bytes : List Byte) : List Byte :=
  bytes.take sizeofMcastMsg ++ receiver.buffer.drop bytes.length

def Receiver.report (receiver : Receiver) (statOpens : Bool) (buffer : List Byte) :
    Option (List StatEntry) :=
  if receiver.br.isDdcm ≠ 0 ∧ statOpens = true then statLoop buffer 0 (msgNum buffer).toNat
  else some []

/-- The loop body of `mc_recv` after a datagram has arrived.  The comparison of the group ids only
writes a warning and is left out. -/
def mcRecv (receiver : Receiver) (datagram : Datagram) : Option Receiver :=
  let buffer := receiver.received datagram.bytes
  if (msgBf buffer).bfId = receiver.br.localId then
    some { receiver with buffer }
  else do
    let (br, dp, ret) ←
      mcUpdate datagram.alloc datagram.link receiver.br receiver.dp (msgBf buffer)
    let buffer := if ret > 0 then setMsgPort buffer lcBfRemotePort else buffer
    let lines ← receiver.report datagram.statOpens buffer
    some { buffer, br, dp, statFile := receiver.statFile ++ lines }

def BfGdt.Stores (gdt : BfGdt) (bf : BloomFilter) : Prop := some bf ∈ gdt.bfArray.take gdt.nbf

/-- Every stored filter has a length for which all of its bit indexes lie in the array, and later
checks and additions have a defined outcome. -/
structure BfGdt.Sound (gdt : BfGdt) : Prop where
  valid : ∀ bf, gdt.Stores bf → bf.Valid
  check : ∀ s, ∃ result, bfGdtCheck gdt s = some result
  addItem : ∀ bfId s, ∃ result, bfGdtAddItem gdt bfId s = some result

def Receiver.Sound (receiver : Receiver) : Prop :=
  receiver.br.gdt.Sound ∧ ∀ gdt, receiver.dp.gdt = some gdt → gdt.Sound

def Inserts (alloc : Alloc) (gdt : BfGdt) (bfId : BitVec 32) : Prop :=
  bfGdtFindFilter gdt bfId = some none ∧ gdt.nbf < bfGdtMaxFilters ∧ alloc.isSome

def Unchanged (gdt : BfGdt) (bf : BloomFilter) : Prop :=
  ∃ i matched, bfGdtFindFilter gdt bf.bfId = some (some i) ∧ gdt.slot i = some matched ∧
    matched.SameContent bf

/-- The datagrams that break nothing: those of the switch itself, and those whose filter has a valid
length unless neither copy of the table inserts it, with at most one statistics entry where the
entries are read. -/
def DatagramOk (receiver : Receiver) (datagram : Datagram) : Prop :=
  let buffer := receiver.received datagram.bytes
  (msgBf buffer).bfId = receiver.br.localId ∨
    (Inserts datagram.alloc receiver.br.gdt (msgBf buffer).bfId → (msgBf buffer).Valid) ∧
      (∀ alloc gdt, datagram.link = .delivered alloc → receiver.dp.gdt = some gdt →
        ¬ Unchanged receiver.br.gdt (msgBf buffer) →
          Inserts alloc gdt (msgBf buffer).bfId → (msgBf buffer).Valid) ∧
        (receiver.br.isDdcm ≠ 0 → datagram.statOpens = true →
          (msgNum buffer).toNat ≤ lcNumStatEntry)

section Table

variable {gdt : BfGdt} {filters : List BloomFilter} {alloc : Alloc} {bf : BloomFilter}

theorem stores_iff (holds : gdt.Holds filters) : gdt.Stores bf ↔ bf ∈ filters := by
  have slots : gdt.bfArray.take gdt.nbf = filters.map some := by
    rw [holds.slots_eq, holds.nbf_eq, List.take_left' (by simp)]
  simp [BfGdt.Stores, slots]

theorem sound_iff (holds : gdt.Holds filters) : gdt.Sound ↔ ∀ bf ∈ filters, bf.Valid := by
  refine ⟨fun sound bf member => sound.valid bf ((stores_iff holds).mpr member), fun valid => ?_⟩
  refine ⟨fun bf stored => valid bf ((stores_iff holds).mp stored), fun s => ?_, fun bfId s => ?_⟩
  · obtain ⟨result, returned, -⟩ := bfGdtCheck_of_holds holds valid s
    exact ⟨result, returned⟩
  · have refines := bfGdtAddItem_refines holds bfId s
    unfold tableAddItem at refines
    cases found : position filters bfId with
    | none =>
      rw [found] at refines
      obtain ⟨after, concrete, -⟩ := refines
      exact ⟨_, concrete⟩
    | some i =>
      obtain ⟨inside, -, -⟩ := position_eq_some found
      obtain ⟨array, added, -⟩ := bfAdd_of_valid (valid _ (List.getElem_mem inside)) s
      simp only [found, List.getElem?_eq_getElem inside, Option.bind_some, added,
        Option.map_some] at refines
      obtain ⟨after, concrete, -⟩ := refines
      exact ⟨_, concrete⟩

theorem inserts_iff (holds : gdt.Holds filters) (bfId : BitVec 32) :
    Inserts alloc gdt bfId ↔
      position filters bfId = none ∧ filters.length < bfGdtMaxFilters ∧ alloc.isSome := by
  rw [Inserts, bfGdtFindFilter_of_holds holds, holds.nbf_eq, Option.some.injEq]

theorem unchanged_iff (holds : gdt.Holds filters) :
    Unchanged gdt bf ↔ ∃ matched, lookup filters bf.bfId = some matched ∧
      matched.SameContent bf := by
  simp only [Unchanged, bfGdtFindFilter_of_holds holds, Option.some.injEq]
  constructor
  · rintro ⟨i, matched, found, slot, same⟩
    obtain ⟨inside, -, here⟩ := position_eq_some found
    rw [holds.slot_eq inside] at slot
    exact ⟨matched, here.trans slot, same⟩
  · rintro ⟨matched, found, same⟩
    obtain ⟨i, search, inside, here⟩ := position_of_lookup found
    exact ⟨i, matched, search, by rw [holds.slot_eq inside, here], same⟩

theorem tableUpdate_of_valid (valid : ∀ other ∈ filters, other.Valid)
    (insertsValid : position filters bf.bfId = none ∧ filters.length < bfGdtMaxFilters ∧
      alloc.isSome → bf.Valid) :
    ∃ after ret, tableUpdate alloc filters bf = some (after, ret) ∧ ∀ other ∈ after, other.Valid := by
  unfold tableUpdate
  cases found : position filters bf.bfId with
  | some i =>
    obtain ⟨inside, -, -⟩ := position_eq_some found
    have matchedValid := valid _ (List.getElem_mem inside)
    simp only [List.getElem?_eq_getElem inside, Option.bind_some,
      matchedValid.nbytes_le, if_true]
    split
    · exact ⟨filters, -1, rfl, valid⟩
    · refine ⟨_, 1, rfl, fun other member => ?_⟩
      rcases List.mem_or_eq_of_mem_set member with old | rfl
      · exact valid other old
      · exact matchedValid
  | none =>
    by_cases full : bfGdtMaxFilters ≤ filters.length
    · exact ⟨filters, 2, by simp [full], valid⟩
    · cases alloc with
      | none => exact ⟨filters, 2, by simp [full], valid⟩
      | some heap =>
        have bfValid := insertsValid ⟨found, Nat.lt_of_not_le full, rfl⟩
        refine ⟨filters ++ [bf.copyOf heap], 2, by simp [full, bfValid.nbytes_le],
          fun other member => ?_⟩
        rcases List.mem_append.mp member with old | new
        · exact valid other old
        · rw [List.mem_singleton.mp new]
          exact bfValid

theorem valid_of_tableUpdate {after : List BloomFilter} {ret : Int}
    (update : tableUpdate alloc filters bf = some (after, ret))
    (valid : ∀ other ∈ after, other.Valid) (absent : position filters bf.bfId = none)
    (room : filters.length < bfGdtMaxFilters) (allocated : alloc.isSome) : bf.Valid := by
  obtain ⟨heap, rfl⟩ := Option.isSome_iff_exists.mp allocated
  simp only [tableUpdate, absent, Nat.not_le_of_lt room, if_false] at update
  split at update
  · obtain ⟨rfl, -⟩ := Prod.mk.inj (Option.some.inj update)
    exact valid (bf.copyOf heap) (by simp)
  · cases update

theorem tableUpdate_ret {after : List BloomFilter} {ret : Int}
    (update : tableUpdate alloc filters bf = some (after, ret)) :
    0 < ret ↔ ¬ ∃ matched, lookup filters bf.bfId = some matched ∧ matched.SameContent bf := by
  unfold tableUpdate at update
  cases found : position filters bf.bfId with
  | some i =>
    obtain ⟨inside, -, here⟩ := position_eq_some found
    simp only [found, List.getElem?_eq_getElem inside, Option.bind_some] at update
    split at update
    · split at update
      · rename_i same
        obtain ⟨-, rfl⟩ := Prod.mk.inj (Option.some.inj update)
        simp [here, same]
      · rename_i differs
        obtain ⟨-, rfl⟩ := Prod.mk.inj (Option.some.inj update)
        simp [here, differs]
    · cases update
  | none =>
    have missing := lookup_eq_none.mpr (position_eq_none.mp found)
    have positive : ret = 2 := by
      simp only [found] at update
      split at update
      · exact (Prod.mk.inj (Option.some.inj update)).2.symm
      · split at update
        · exact (Prod.mk.inj (Option.some.inj update)).2.symm
        · split at update
          · exact (Prod.mk.inj (Option.some.inj update)).2.symm
          · cases update
    simp [missing, positive]

def BfGdt.Good (gdt : BfGdt) : Prop := ∃ filters, gdt.Holds filters ∧ ∀ bf ∈ filters, bf.Valid

theorem BfGdt.Good.sound (good : gdt.Good) : gdt.Sound := by
  obtain ⟨filters, holds, valid⟩ := good
  exact (sound_iff holds).mpr valid

theorem bfGdtUpdateFilter_of_good (good : gdt.Good)
    (insertsValid : Inserts alloc gdt bf.bfId → bf.Valid) :
    ∃ after ret, bfGdtUpdateFilter alloc gdt bf = some (after, ret) ∧ after.Good := by
  obtain ⟨filters, holds, valid⟩ := good
  rw [inserts_iff holds] at insertsValid
  obtain ⟨after, ret, update, afterValid⟩ := tableUpdate_of_valid valid insertsValid
  have refines := bfGdtUpdateFilter_refines holds alloc bf
  rw [update] at refines
  obtain ⟨gdtAfter, concrete, -, holdsAfter⟩ := refines
  exact ⟨gdtAfter, ret, concrete, after, holdsAfter, afterValid⟩

theorem of_bfGdtUpdateFilter (good : gdt.Good) {after : BfGdt} {ret : Int}
    (update : bfGdtUpdateFilter alloc gdt bf = some (after, ret)) :
    (0 < ret ↔ ¬ Unchanged gdt bf) ∧
      (after.Sound → after.Good ∧ (Inserts alloc gdt bf.bfId → bf.Valid)) := by
  obtain ⟨filters, holds, -⟩ := good
  have refines := bfGdtUpdateFilter_refines holds alloc bf
  cases listUpdate : tableUpdate alloc filters bf with
  | none =>
    rw [listUpdate, Refines, update] at refines
    cases refines
  | some outcome =>
    obtain ⟨filtersAfter, listRet⟩ := outcome
    rw [listUpdate] at refines
    obtain ⟨gdtAfter, concrete, -, holdsAfter⟩ := refines
    obtain ⟨rfl, rfl⟩ := Prod.mk.inj (Option.some.inj (concrete.symm.trans update))
    rw [unchanged_iff holds]
    refine ⟨tableUpdate_ret listUpdate, fun sound => ?_⟩
    have valid := (sound_iff holdsAfter).mp sound
    refine ⟨⟨filtersAfter, holdsAfter, valid⟩, fun inserts => ?_⟩
    obtain ⟨absent, room, allocated⟩ := (inserts_iff holds bf.bfId).mp inserts
    exact valid_of_tableUpdate listUpdate valid absent room allocated

end Table

theorem statLoop_isSome_iff (buffer : List Byte) (n : Nat) :
    (∃ lines, statLoop buffer 0 n = some lines) ↔ n ≤ lcNumStatEntry := by
  match n with
  | 0 => simp [statLoop]
  | 1 => simp [statLoop, lcNumStatEntry]
  | n + 2 => simp [statLoop, lcNumStatEntry]

theorem msgNum_setMsgPort (buffer : List Byte) (portNo : BitVec 16) :
    msgNum (setMsgPort buffer portNo) = msgNum buffer := by
  simp [msgNum, setMsgPort, Bytes.le32, Bytes.le16, Bytes.u8, List.getD_eq_getElem?_getD]

theorem msgBf_setMsgPort {buffer : List Byte} (length : buffer.length = sizeofMcastMsg)
    (portNo : BitVec 16) :
    msgBf (setMsgPort buffer portNo) = { msgBf buffer with portNo } := by
  have inside : 17 < buffer.length := by
    rw [length]
    decide
  have joined : portNo.extractLsb' 8 8 ++ portNo.extractLsb' 0 8 = portNo := by
    apply BitVec.eq_of_getLsbD_eq
    intro i inside
    simp only [BitVec.getLsbD_append, BitVec.getLsbD_extractLsb']
    interval_cases i <;> simp
  have early : 16 < buffer.length := by omega
  simp only [msgBf, bloomFilterAt, setMsgPort, Bytes.le32, Bytes.le16, Bytes.u8,
    List.getD_eq_getElem?_getD, List.getElem?_set]
  simp [inside, early, joined]
  funext i
  have far : ¬ 17 = 18 + i.val ∧ ¬ 16 = 18 + i.val := by omega
  simp [far]

theorem u8_drop_take {buffer : List Byte} {ofs n i : Nat} (inside : i < n) :
    Bytes.u8 ((buffer.drop ofs).take n) i = Bytes.u8 buffer (ofs + i) := by
  simp [Bytes.u8, List.getD_eq_getElem?_getD, inside]

def filterAttr (buffer : List Byte) : List Byte :=
  ((setMsgPort buffer lcBfRemotePort).drop 8).take sizeofBloomFilter

theorem length_filterAttr {buffer : List Byte} (length : buffer.length = sizeofMcastMsg) :
    (filterAttr buffer).length = sizeofBloomFilter := by
  simp [filterAttr, setMsgPort, length, sizeofMcastMsg, sizeofBloomFilter]

theorem bloomFilterAt_filterAttr {buffer : List Byte} (length : buffer.length = sizeofMcastMsg) :
    bloomFilterAt (filterAttr buffer) 0 = { msgBf buffer with portNo := lcBfRemotePort } := by
  rw [← msgBf_setMsgPort length]
  simp (disch := omega) only [filterAttr, bloomFilterAt, msgBf, Bytes.le32, Bytes.le16,
    sizeofBloomFilter, u8_drop_take, Nat.zero_add, ← Nat.add_assoc, Nat.reduceAdd]

structure Receiver.Good (receiver : Receiver) : Prop where
  daemon : receiver.br.gdt.Good
  kernel : ∃ gdt, receiver.dp.gdt = some gdt ∧ gdt.Good

theorem Receiver.Good.sound {receiver : Receiver} (good : receiver.Good) : receiver.Sound := by
  obtain ⟨gdt, gdtEq, kernelGood⟩ := good.kernel
  refine ⟨good.daemon.sound, fun other otherEq => ?_⟩
  obtain rfl := Option.some.inj (gdtEq.symm.trans otherEq)
  exact kernelGood.sound

section Step

variable {receiver : Receiver} {datagram : Datagram}

theorem report_isSome_iff (buffer : List Byte) (statOpens : Bool) :
    (∃ lines, receiver.report statOpens buffer = some lines) ↔
      (receiver.br.isDdcm ≠ 0 → statOpens = true → (msgNum buffer).toNat ≤ lcNumStatEntry) := by
  unfold Receiver.report
  split
  · rename_i reads
    rw [statLoop_isSome_iff]
    exact ⟨fun small _ _ => small, fun small => small reads.1 reads.2⟩
  · rename_i skips
    simp only [Option.some.injEq, exists_eq', true_iff]
    exact fun isDdcm opens => absurd ⟨isDdcm, opens⟩ skips

theorem mcUpdate_of_ok (good : receiver.Good) {alloc : Alloc} {link : DpLink} {bf : BloomFilter}
    (daemonOk : Inserts alloc receiver.br.gdt bf.bfId → bf.Valid)
    (kernelOk : ∀ kernelAlloc gdt, link = .delivered kernelAlloc → receiver.dp.gdt = some gdt →
      ¬ Unchanged receiver.br.gdt bf → Inserts kernelAlloc gdt bf.bfId → bf.Valid) :
    ∃ gdtAfter dp ret, mcUpdate alloc link receiver.br receiver.dp bf =
        some ({ receiver.br with gdt := gdtAfter }, dp, ret) ∧
      gdtAfter.Good ∧ ∃ gdt, dp.gdt = some gdt ∧ gdt.Good := by
  obtain ⟨gdtAfter, ret, update, goodAfter⟩ := bfGdtUpdateFilter_of_good good.daemon daemonOk
  have changes := (of_bfGdtUpdateFilter good.daemon update).1
  obtain ⟨gdt, gdtEq, kernelGood⟩ := good.kernel
  suffices kernel : ∃ dp, mcUpdateDp link receiver.dp bf ret = some dp ∧
      ∃ gdt, dp.gdt = some gdt ∧ gdt.Good by
    obtain ⟨dp, kernelUpdate, kernelGoodAfter⟩ := kernel
    exact ⟨gdtAfter, dp, ret, by simp [mcUpdate, update, kernelUpdate], goodAfter,
      kernelGoodAfter⟩
  unfold mcUpdateDp
  split
  · rename_i changed
    cases link with
    | noOfproto | failed => exact ⟨receiver.dp, rfl, gdt, gdtEq, kernelGood⟩
    | delivered kernelAlloc =>
      obtain ⟨kernelAfter, kernelRet, kernelUpdate, kernelGoodAfter⟩ :
          ∃ after kernelRet,
            bfGdtUpdateFilter kernelAlloc gdt { bf with portNo := lcBfRemotePort } =
              some (after, kernelRet) ∧ after.Good :=
        bfGdtUpdateFilter_of_good kernelGood
          (kernelOk kernelAlloc gdt rfl gdtEq (changes.mp changed))
      refine ⟨{ receiver.dp with gdt := some kernelAfter }, ?_, kernelAfter, rfl,
        kernelGoodAfter⟩
      simp [bridgeUpdateBfGdtToDp, Datapath.update, gdtEq, kernelUpdate]
  · exact ⟨receiver.dp, rfl, gdt, gdtEq, kernelGood⟩

theorem ok_of_mcUpdate (good : receiver.Good) {alloc : Alloc} {link : DpLink} {bf : BloomFilter}
    {br : Bridge} {dp : Datapath} {ret : Int}
    (update : mcUpdate alloc link receiver.br receiver.dp bf = some (br, dp, ret))
    (daemonSound : br.gdt.Sound) (kernelSound : ∀ gdt, dp.gdt = some gdt → gdt.Sound) :
    (Inserts alloc receiver.br.gdt bf.bfId → bf.Valid) ∧
      ∀ kernelAlloc gdt, link = .delivered kernelAlloc → receiver.dp.gdt = some gdt →
        ¬ Unchanged receiver.br.gdt bf → Inserts kernelAlloc gdt bf.bfId → bf.Valid := by
  simp only [mcUpdate, Option.bind_eq_bind, Option.bind_eq_some_iff, Prod.exists,
    Option.some.injEq, Prod.mk.injEq] at update
  obtain ⟨gdtAfter, ret', daemonUpdate, dp', kernelUpdate, rfl, rfl, rfl⟩ := update
  obtain ⟨changes, ofSound⟩ := of_bfGdtUpdateFilter good.daemon daemonUpdate
  refine ⟨(ofSound daemonSound).2, fun kernelAlloc gdt linkEq gdtEq changed => ?_⟩
  rw [mcUpdateDp, if_pos (changes.mpr changed), linkEq] at kernelUpdate
  simp only [bridgeUpdateBfGdtToDp, Datapath.update, gdtEq, Option.bind_eq_bind,
    Option.bind_eq_some_iff, Prod.exists, Option.some.injEq] at kernelUpdate
  obtain ⟨kernelAfter, kernelRet, updated, rfl⟩ := kernelUpdate
  obtain ⟨kernel, kernelEq, kernelGood⟩ := good.kernel
  obtain rfl := Option.some.inj (kernelEq.symm.trans gdtEq)
  exact ((of_bfGdtUpdateFilter kernelGood updated).2 (kernelSound kernelAfter rfl)).2

theorem mcRecv_of_ok (good : receiver.Good) (ok : DatagramOk receiver datagram) :
    ∃ after, mcRecv receiver datagram = some after ∧ after.Good := by
  by_cases own : (msgBf (receiver.received datagram.bytes)).bfId = receiver.br.localId
  · refine ⟨{ receiver with buffer := receiver.received datagram.bytes }, ?_, good.daemon,
      good.kernel⟩
    rw [mcRecv, if_pos own]
  · obtain ⟨daemonOk, kernelOk, statOk⟩ := ok.resolve_left own
    obtain ⟨gdtAfter, dp, ret, update, daemonGood, kernelGood⟩ :=
      mcUpdate_of_ok good daemonOk kernelOk
    have sameNum : ∀ buffer : List Byte,
        msgNum (if 0 < ret then setMsgPort buffer lcBfRemotePort else buffer) = msgNum buffer :=
      fun buffer => by split <;> simp [msgNum_setMsgPort]
    obtain ⟨lines, reported⟩ := (report_isSome_iff _ _).mpr fun isDdcm opens => by
      rw [sameNum]
      exact statOk isDdcm opens
    refine ⟨{
        buffer := if 0 < ret then setMsgPort (receiver.received datagram.bytes) lcBfRemotePort
          else receiver.received datagram.bytes
        br := { receiver.br with gdt := gdtAfter }
        dp := dp
        statFile := receiver.statFile ++ lines }, ?_, daemonGood, kernelGood⟩
    rw [mcRecv, if_neg own, update]
    simp only [Option.bind_eq_bind, Option.bind_some, gt_iff_lt, reported]

theorem ok_of_mcRecv (good : receiver.Good) {after : Receiver}
    (step : mcRecv receiver datagram = some after) (sound : after.Sound) :
    DatagramOk receiver datagram := by
  by_cases own : (msgBf (receiver.received datagram.bytes)).bfId = receiver.br.localId
  · exact Or.inl own
  · rw [mcRecv, if_neg own] at step
    simp only [Option.bind_eq_bind, Option.bind_eq_some_iff, Prod.exists, Option.some.injEq] at step
    obtain ⟨br, dp, ret, update, lines, reported, rfl⟩ := step
    obtain ⟨daemonOk, kernelOk⟩ := ok_of_mcUpdate good update sound.1 sound.2
    refine Or.inr ⟨daemonOk, kernelOk, fun isDdcm opens => ?_⟩
    have small := (report_isSome_iff _ _).mp ⟨lines, reported⟩ isDdcm opens
    split at small
    · rwa [msgNum_setMsgPort] at small
    · exact small

theorem mcRecv_sound_iff (good : receiver.Good) :
    (∃ after, mcRecv receiver datagram = some after ∧ after.Sound) ↔
      DatagramOk receiver datagram := by
  constructor
  · rintro ⟨after, step, sound⟩
    exact ok_of_mcRecv good step sound
  · intro ok
    obtain ⟨after, step, goodAfter⟩ := mcRecv_of_ok good ok
    exact ⟨after, step, goodAfter.sound⟩

theorem good_of_mcRecv (good : receiver.Good) {after : Receiver}
    (step : mcRecv receiver datagram = some after) (sound : after.Sound) : after.Good := by
  obtain ⟨other, otherStep, goodOther⟩ := mcRecv_of_ok good (ok_of_mcRecv good step sound)
  obtain rfl := Option.some.inj (step.symm.trans otherStep)
  exact goodOther

end Step

theorem good_empty {gdt : BfGdt} {bfId : BitVec 32} {portNo : BitVec 16}
    (holds : gdt.Holds [.empty bfId portNo]) : gdt.Good := by
  refine ⟨_, holds, fun bf member => ?_⟩
  obtain rfl := List.mem_singleton.mp member
  exact BloomFilter.valid_of_dftLen rfl

/-- From the start of the daemon on, the tables stay sound exactly along the datagrams that meet
the condition. -/
theorem soundRun_iff (alloc kernelAlloc : Alloc) (localId gid : BitVec 32)
    (gidFile : Option GidFile) {br : Bridge} {dp : Datapath}
    (daemon : bridgeLcInit alloc localId gidFile = some br)
    (kernel : ovsDpCmdNew localId kernelAlloc gid = some (some dp)) (buffer : List Byte)
    (datagrams : List Datagram) :
    Run.EveryStep mcRecv Receiver.Sound { buffer, br, dp, statFile := [] } datagrams ↔
      Run.Along mcRecv DatagramOk { buffer, br, dp, statFile := [] } datagrams := by
  refine Run.everyStep_iff_along mcRecv_sound_iff
    (fun good step sound => good_of_mcRecv good step sound) ⟨?_, ?_⟩
  · obtain ⟨-, gdt, -, -, rfl, -, ⟨-, holds⟩ | holds⟩ := bridgeLcInit_holds daemon
    · exact ⟨[], holds, by simp⟩
    · exact good_empty holds
  · obtain ⟨gdt, rfl, holds⟩ := ovsDpCmdNew_holds kernel
    exact ⟨gdt, rfl, good_empty holds⟩

/-- A datagram with a filter of the switch `1.1.1.1` and the given length field. -/
def sampleDatagram (len : List Byte) : Datagram where
  bytes := List.replicate 8 0 ++ List.replicate 4 1 ++ len ++ List.replicate 176 0
  alloc := some fun _ => 0
  link := .delivered (some fun _ => 0)
  statOpens := true

theorem soundRun_of_dftLen :
    ∃ br dp, bridgeLcInit (some fun _ => 0) lcBfLocalId none = some br ∧
      ovsDpCmdNew lcBfLocalId (some fun _ => 0) 0 = some (some dp) ∧
        Run.EveryStep mcRecv Receiver.Sound { buffer := List.replicate sizeofMcastMsg 0, br, dp, statFile := [] }
          [sampleDatagram [0, 4, 0, 0]] := by
  refine ⟨_, _, rfl, rfl, (soundRun_iff (some fun _ => 0) (some fun _ => 0) lcBfLocalId 0 none
    rfl rfl _ [sampleDatagram [0, 4, 0, 0]]).mpr ⟨Or.inr ⟨?_, ?_, ?_⟩, fun _ _ => trivial⟩⟩
  · intro _
    decide
  · intro _ _ _ _ _ _
    decide
  · intro isDdcm
    exact absurd rfl isDdcm

/-- A datagram of full size whose length field has all bits set makes the daemon clear and copy half
a gigabyte in an array of 128 bytes. -/
theorem not_soundRun_of_len :
    ∃ br dp, bridgeLcInit (some fun _ => 0) lcBfLocalId none = some br ∧
      ovsDpCmdNew lcBfLocalId (some fun _ => 0) 0 = some (some dp) ∧
        ¬ Run.EveryStep mcRecv Receiver.Sound
          { buffer := List.replicate sizeofMcastMsg 0, br, dp, statFile := [] }
          [sampleDatagram [255, 255, 255, 255]] := by
  refine ⟨_, _, rfl, rfl, fun sound => ?_⟩
  obtain ⟨next, step, -⟩ := Run.everyStep_cons.mp sound
  cases step

/-- The datapath has served a netlink command with the bytes of a whole filter, which belongs to
another switch and has the remote port. -/
def Puts (localId : BitVec 32) (dp after : Datapath) : Prop :=
  ∃ data alloc, data.length = sizeofBloomFilter ∧ (bloomFilterAt data 0).bfId ≠ localId ∧
    (bloomFilterAt data 0).portNo = lcBfRemotePort ∧
      serve (some dp) (.newOrSet (some data) alloc) = some (some after, .status 0)

theorem mcUpdateDp_puts {buffer : List Byte} (sized : buffer.length = sizeofMcastMsg)
    {localId : BitVec 32} (other : (msgBf buffer).bfId ≠ localId) {link : DpLink} {ret : Int}
    {dp after : Datapath} (update : mcUpdateDp link dp (msgBf buffer) ret = some after) :
    after = dp ∨ Puts localId dp after := by
  rw [mcUpdateDp] at update
  split at update
  · cases link with
    | noOfproto | failed => exact .inl (Option.some.inj update).symm
    | delivered alloc =>
      have attr := bloomFilterAt_filterAttr sized
      refine .inr ⟨filterAttr buffer, alloc, length_filterAttr sized, ?_, ?_, ?_⟩
      · rwa [attr]
      · rw [attr]
      · change (dp.update alloc _) = _ at update
        simp [serve, ovsBfGdtCmdNewOrSet, length_filterAttr sized, attr, update]
  · exact .inl (Option.some.inj update).symm

theorem mcRecv_puts {receiver after : Receiver} {datagram : Datagram}
    (length : receiver.buffer.length = sizeofMcastMsg)
    (step : mcRecv receiver datagram = some after) :
    after.buffer.length = sizeofMcastMsg ∧ after.br.localId = receiver.br.localId ∧
      (after.dp = receiver.dp ∨ Puts receiver.br.localId receiver.dp after.dp) := by
  have sized : (receiver.received datagram.bytes).length = sizeofMcastMsg := by
    simp only [Receiver.received, List.length_append, List.length_take, List.length_drop, length]
    omega
  by_cases own : (msgBf (receiver.received datagram.bytes)).bfId = receiver.br.localId
  · rw [mcRecv, if_pos own] at step
    obtain rfl := Option.some.inj step
    exact ⟨sized, rfl, .inl rfl⟩
  · rw [mcRecv, if_neg own] at step
    simp only [mcUpdate, Option.bind_eq_bind, Option.bind_eq_some_iff, Prod.exists,
      Option.some.injEq, Prod.mk.injEq] at step
    obtain ⟨_, _, ret, ⟨gdt, _, _, dp, update, rfl, rfl, rfl⟩, lines, _, rfl⟩ := step
    refine ⟨?_, rfl, mcUpdateDp_puts sized own update⟩
    split <;> simp [setMsgPort, sized]

/-- Whatever datagrams arrive, all that becomes of the datapath comes from netlink commands with
whole filters of other switches. -/
theorem puts_of_datagrams {receiver final : Receiver} {datagrams : List Datagram}
    (length : receiver.buffer.length = sizeofMcastMsg)
    (run : Run.exec mcRecv receiver datagrams = some final) :
    Relation.ReflTransGen (Puts receiver.br.localId) receiver.dp final.dp := by
  have kept := Run.exec_preserves (fun state : Receiver =>
    state.buffer.length = sizeofMcastMsg ∧ state.br.localId = receiver.br.localId ∧
      Relation.ReflTransGen (Puts receiver.br.localId) receiver.dp state.dp)
    (fun ⟨sized, sameId, reached⟩ taken => by
      obtain ⟨sizedNext, sameNext, stays | puts⟩ := mcRecv_puts sized taken
      · exact ⟨sizedNext, sameNext.trans sameId, stays ▸ reached⟩
      · exact ⟨sizedNext, sameNext.trans sameId, reached.tail (sameId ▸ puts)⟩)
    ⟨length, rfl, .refl⟩ run
  exact kept.2.2

theorem puts_of_datagrams_sample :
    ∃ br dp final, bridgeLcInit (some fun _ => 0) lcBfLocalId none = some br ∧
      ovsDpCmdNew lcBfLocalId (some fun _ => 0) 0 = some (some dp) ∧
        Run.exec mcRecv ⟨List.replicate sizeofMcastMsg 0, br, dp, []⟩
          [sampleDatagram [0, 4, 0, 0]] = some final ∧
            Relation.ReflTransGen (Puts br.localId) dp final.dp := by
  refine ⟨_, _, _, rfl, rfl, rfl, ?_⟩
  exact puts_of_datagrams List.length_replicate (show Run.exec mcRecv
    ⟨List.replicate sizeofMcastMsg 0, _, _, []⟩ [sampleDatagram [0, 4, 0, 0]] = some _ from rfl)

end LazyCtrl
