import Mathlib.Data.Fintype.Card
import LazyCtrl.Bf.Standard
import LazyCtrl.Mcast.Switch

/-!
# A group of switches

The switches of a group and the datagrams they have multicast.  A datagram stays available for ever:
the network may lose, delay, repeat and reorder it, so a switch receives any datagram at any time,
or never.  The sending thread reads the group id once, when it starts; the receiving thread reads it
again for every message; the controller rewrites the file at any time.
-/

namespace LazyCtrl

open Keyed

structure Member where
  switch : Switch
  gidFile : Option GidFile
  sendGid : Option (BitVec 32)

/-- A multicast datagram: its destination and the parts of the message that receivers use. -/
structure Packet where
  addr : BitVec 32
  gid : BitVec 32
  bf : BloomFilter

structure Group (n : Nat) where
  members : Fin n → Member
  packets : List Packet

inductive GroupEvent (n : Nat) where
  | regroup (i : Fin n) (gidFile : Option GidFile)
  | start (i : Fin n)
  | learn (i : Fin n) (mac : Fin 6 → Byte) (alloc : Alloc)
  | send (i : Fin n)
  | recv (i : Fin n) (k : Nat) (alloc : Alloc) (link : DpLink)

def Member.currentGid (member : Member) : BitVec 32 :=
  match member.gidFile with
  | some file => file.gid
  | none => member.switch.br.gdt.gid

def mcSend (br : Bridge) (gid : BitVec 32) : Option (Option Packet) := do
  let bf ← findFilter (some br.gdt) br.localId
  some (bf.map fun bf => { addr := mcSendAddr br.sendGroupIp, gid, bf })

def Group.set {n : Nat} (group : Group n) (i : Fin n) (member : Member) : Group n :=
  { group with members := Function.update group.members i member }

/-- One event.  Sending needs a running thread, receiving needs a datagram. -/
def Group.step {n : Nat} (group : Group n) : GroupEvent n → Option (Group n)
  | .regroup i gidFile => some (group.set i { group.members i with gidFile })
  | .start i =>
    some (group.set i
      { group.members i with sendGid := some (group.members i).currentGid })
  | .learn i mac alloc => do
      let (br, _) ← bridgeUpdateLocalBf alloc (group.members i).switch.br (macString mac)
      some (group.set i
        { group.members i with switch := { (group.members i).switch with br } })
  | .send i => do
      let gid ← (group.members i).sendGid
      let packet ← mcSend (group.members i).switch.br gid
      some { group with packets := group.packets ++ packet.toList }
  | .recv i k alloc link => do
      let packet ← group.packets[k]?
      let switch ← (group.members i).switch.recv { bf := packet.bf, alloc, link }
      some (group.set i { group.members i with switch })

def Member.Starts (member : Member) : Prop :=
  member.sendGid = none ∧
    ∃ alloc kernelAlloc gid,
      bridgeLcInit alloc member.switch.br.localId member.gidFile = some member.switch.br ∧
        ovsDpCmdNew member.switch.br.localId kernelAlloc gid = some (some member.switch.dp)

/-- A group of at most 64 switches with pairwise distinct ids, right after its start. -/
structure Group.Starts {n : Nat} (group : Group n) : Prop where
  small : n ≤ bfGdtMaxFilters
  distinct : Function.Injective fun i => (group.members i).switch.br.localId
  starts : ∀ i, (group.members i).Starts
  silent : group.packets = []

def Switch.InGroup (ids : Set (BitVec 32)) (switch : Switch) : Prop :=
  ∃ daemon kernel, switch.Holds daemon kernel ∧ StdTable daemon ∧ StdTable kernel ∧
    (∀ id ∈ keys daemon, id ∈ ids) ∧ ∀ id ∈ keys kernel, id ∈ ids

structure Switch.Received (before after : Switch) (bf : BloomFilter) (link : DpLink) : Prop where
  daemon_others : ∀ id, id ≠ bf.bfId → after.daemonArray id = before.daemonArray id
  kernel_others : ∀ id, id ≠ bf.bfId → after.kernelArray id = before.kernelArray id
  daemon : after.daemonArray bf.bfId = some bf.array ∨ after.daemonArray bf.bfId = none
  kernel : after.kernelArray bf.bfId = before.kernelArray bf.bfId ∨
    after.kernelArray bf.bfId = some bf.array
  unchanged : before.daemonArray bf.bfId = some bf.array →
    after.kernelArray bf.bfId = before.kernelArray bf.bfId
  delivered : before.daemonArray bf.bfId ≠ some bf.array →
    (∃ heap, link = .delivered (some heap)) → after.kernelArray bf.bfId = some bf.array

section Switch

variable {n : Nat} {ids : Fin n → BitVec 32} {switch : Switch}

theorem canStore_of_inGroup (small : n ≤ bfGdtMaxFilters) {filters : List BloomFilter}
    (nodup : (keys filters).Nodup) (within : ∀ id ∈ keys filters, id ∈ Set.range ids)
    {bfId : BitVec 32} (member : bfId ∈ Set.range ids) {alloc : Alloc} (memory : alloc.isSome) :
    CanStore alloc filters bfId := by
  by_cases present : bfId ∈ keys filters
  · exact Or.inl (lookup_isSome_iff.mpr present)
  · refine Or.inr ⟨?_, memory⟩
    have consNodup : (bfId :: keys filters).Nodup := List.nodup_cons.mpr ⟨present, nodup⟩
    have inside : (bfId :: keys filters).toFinset ⊆ Finset.univ.image ids := by
      intro id idMember
      rw [List.mem_toFinset, List.mem_cons] at idMember
      obtain ⟨i, rfl⟩ : id ∈ Set.range ids := by
        rcases idMember with rfl | old
        · exact member
        · exact within id old
      exact Finset.mem_image_of_mem ids (Finset.mem_univ i)
    calc
      filters.length < (bfId :: keys filters).length := by simp [keys]
      _ = (bfId :: keys filters).toFinset.card := (List.toFinset_card_of_nodup consNodup).symm
      _ ≤ (Finset.univ.image ids).card := Finset.card_le_card inside
      _ ≤ n := by simpa using Finset.card_image_le (s := Finset.univ) (f := ids)
      _ ≤ bfGdtMaxFilters := small

theorem KernelUpdated.contents_cases {link : DpLink} {ret : Int} {kernel after : List BloomFilter}
    {bf : BloomFilter} (updated : KernelUpdated link ret kernel bf after) (id : BitVec 32) :
    contents after id = contents kernel id ∨ id = bf.bfId ∧ contents after id = some bf.array := by
  rcases updated.cases with rfl | ⟨-, alloc, kernelRet, -, inner⟩
  · exact Or.inl rfl
  · rw [inner.contents_eq]
    split
    · rename_i here
      exact Or.inr ⟨here.1, rfl⟩
    · exact Or.inl rfl

theorem KernelUpdated.stdTable {link : DpLink} {ret : Int} {kernel after : List BloomFilter}
    {bf : BloomFilter} (updated : KernelUpdated link ret kernel bf after)
    (table : StdTable kernel) (len : bf.len = lcBfDftLen) :
    StdTable after ∧ ∀ id ∈ keys after, id = bf.bfId ∨ id ∈ keys kernel := by
  rcases updated.cases with rfl | ⟨-, alloc, kernelRet, -, inner⟩
  · exact ⟨table, fun _ => Or.inr⟩
  · exact ⟨inner.stdTable table len, inner.keys_subset⟩

theorem Switch.InGroup.recv (inGroup : switch.InGroup (Set.range ids)) (small : n ≤ bfGdtMaxFilters)
    (reception : Reception) (len : reception.bf.len = lcBfDftLen)
    (member : reception.bf.bfId ∈ Set.range ids)
    (remote : reception.bf.bfId ≠ switch.br.localId) :
    ∃ gdt dp, switch.recv reception = some { br := { switch.br with gdt }, dp } ∧
      gdt.gid = switch.br.gdt.gid ∧
        Switch.InGroup (Set.range ids) { br := { switch.br with gdt }, dp } ∧
          switch.Received { br := { switch.br with gdt }, dp } reception.bf reception.link := by
  obtain ⟨daemon, kernel, holds, daemonStd, kernelStd, daemonIds, kernelIds⟩ := inGroup
  obtain ⟨gdt, dp, daemonAfter, kernelAfter, ret, received, sameGid, holdsAfter, updated,
    kernelUpdated⟩ := holds.recv reception (BloomFilter.nbytes_of_dftLen len) remote
  obtain ⟨kernelStdAfter, kernelKeys⟩ := kernelUpdated.stdTable kernelStd len
  refine ⟨gdt, dp, received, sameGid,
    ⟨daemonAfter, kernelAfter, holdsAfter, updated.stdTable daemonStd len, kernelStdAfter,
      fun id idMember => ?_, fun id idMember => ?_⟩, ?_⟩
  · rcases updated.keys_subset id idMember with rfl | old
    · exact member
    · exact daemonIds id old
  · rcases kernelKeys id idMember with rfl | old
    · exact member
    · exact kernelIds id old
  · refine ⟨fun id differs => ?_, fun id differs => ?_, ?_, ?_, fun same => ?_,
      fun differs ⟨heap, linkEq⟩ => ?_⟩
    all_goals simp only [holds.daemonArray_eq, holds.kernelArray_eq, holdsAfter.daemonArray_eq,
      holdsAfter.kernelArray_eq] at *
    · simp [updated.contents_eq, differs]
    · exact (kernelUpdated.contents_cases id).resolve_right fun here => differs here.1
    · rw [updated.contents_eq]
      by_cases stores : CanStore reception.alloc daemon reception.bf.bfId
      · simp [stores]
      · simp [stores, contents_of_not_canStore stores]
    · exact (kernelUpdated.contents_cases _).imp_right And.right
    · rcases kernelUpdated.cases with rfl | ⟨changed, -⟩
      · rfl
      · exact absurd same (updated.changed.mp changed)
    · rw [linkEq] at kernelUpdated
      exact kernelUpdated.contents_eq.mpr (Or.inr ⟨updated.changed.mpr differs,
        canStore_of_inGroup small kernelStd.nodup kernelIds member rfl⟩)

structure Switch.Learned (before after : Switch) (s : List Byte) (ret : Int) : Prop where
  others : ∀ id, id ≠ before.br.localId → after.daemonArray id = before.daemonArray id
  grows : ∀ old, before.daemonArray before.br.localId = some old →
    ∃ array, after.daemonArray before.br.localId = some array ∧ bitsOf old ⊆ bitsOf array
  covers : ret = 0 → ∃ array, after.daemonArray before.br.localId = some array ∧ Covers array s

private theorem bfGdtAddItem_local {gdt : BfGdt} {filters : List BloomFilter}
    (holds : gdt.Holds filters) (table : StdTable filters) {bfId : BitVec 32} {bf : BloomFilter}
    (found : lookup filters bfId = some bf) (s : List Byte) :
    ∃ gdtAfter after, bfGdtAddItem gdt bfId s = some (gdtAfter, 0) ∧ gdtAfter.gid = gdt.gid ∧
      gdtAfter.Holds after ∧ ItemAdded filters bfId s after := by
  obtain ⟨after, added, item⟩ := tableAddItem_of_found table found s
  have refines := bfGdtAddItem_refines holds bfId s
  rw [added] at refines
  obtain ⟨gdtAfter, concrete, sameGid, holdsAfter⟩ := refines
  exact ⟨gdtAfter, after, concrete, sameGid, holdsAfter, item⟩

private theorem learn_of_found {daemon kernel : List BloomFilter}
    (holds : switch.Holds daemon kernel) (table : StdTable daemon) {bf : BloomFilter}
    (found : lookup daemon switch.br.localId = some bf) (alloc : Alloc) (s : List Byte) :
    ∃ gdt after, bridgeUpdateLocalBf alloc switch.br s = some ({ switch.br with gdt }, 0) ∧
      gdt.gid = switch.br.gdt.gid ∧ gdt.Holds after ∧
        ItemAdded daemon switch.br.localId s after := by
  obtain ⟨i, search, -⟩ := position_of_lookup found
  obtain ⟨gdt, after, added, sameGid, holdsAfter, item⟩ :=
    bfGdtAddItem_local holds.daemon_holds table found s
  refine ⟨gdt, after, ?_, sameGid, holdsAfter, item⟩
  simp [bridgeUpdateLocalBf, bfGdtFindFilter_of_holds holds.daemon_holds, search, added]

private theorem learn_of_absent {daemon kernel : List BloomFilter}
    (holds : switch.Holds daemon kernel) (table : StdTable daemon)
    (absent : lookup daemon switch.br.localId = none) (room : daemon.length < bfGdtMaxFilters)
    (heap : BitArray) (s : List Byte) :
    ∃ gdt after, bridgeUpdateLocalBf (some heap) switch.br s = some ({ switch.br with gdt }, 0) ∧
      gdt.gid = switch.br.gdt.gid ∧ gdt.Holds after ∧
        ItemAdded (daemon ++ [.empty switch.br.localId lcBfRemotePort]) switch.br.localId s
          after := by
  have missing := position_eq_none.mpr (lookup_eq_none.mp absent)
  have refines := bfGdtAddFilter_refines holds.daemon_holds (some heap) switch.br.localId
    lcBfRemotePort lcBfDftLen
  rw [tableAdd, if_neg (Nat.not_le_of_lt room), bfCreate_dftLen] at refines
  obtain ⟨middle, created, middleGid, middleHolds⟩ := refines
  have absentKey :
      lookup daemon (key (BloomFilter.empty switch.br.localId lcBfRemotePort)) = none := absent
  have middleTable : StdTable (daemon ++ [.empty switch.br.localId lcBfRemotePort]) := by
    refine ⟨keys_append_nodup table.nodup absentKey, fun bf member => ?_⟩
    rcases List.mem_append.mp member with old | new
    · exact table.standard bf old
    · obtain rfl := List.mem_singleton.mp new
      exact ⟨rfl, rfl⟩
  have found : lookup (daemon ++ [.empty switch.br.localId lcBfRemotePort]) switch.br.localId =
      some (.empty switch.br.localId lcBfRemotePort) := by
    rw [lookup_append absentKey]
    exact if_pos rfl
  obtain ⟨gdt, after, added, sameGid, holdsAfter, item⟩ :=
    bfGdtAddItem_local middleHolds middleTable found s
  refine ⟨gdt, after, ?_, sameGid.trans middleGid, holdsAfter, item⟩
  simp [bridgeUpdateLocalBf, bfGdtFindFilter_of_holds holds.daemon_holds, missing, created, added]

theorem Switch.InGroup.learn (inGroup : switch.InGroup (Set.range ids))
    (small : n ≤ bfGdtMaxFilters) (member : switch.br.localId ∈ Set.range ids) (alloc : Alloc)
    (s : List Byte) :
    ∃ gdt ret, bridgeUpdateLocalBf alloc switch.br s = some ({ switch.br with gdt }, ret) ∧
      gdt.gid = switch.br.gdt.gid ∧
        Switch.InGroup (Set.range ids) { switch with br := { switch.br with gdt } } ∧
          switch.Learned { switch with br := { switch.br with gdt } } s ret := by
  obtain ⟨daemon, kernel, holds, daemonStd, kernelStd, daemonIds, kernelIds⟩ := inGroup
  cases found : lookup daemon switch.br.localId with
  | some bf =>
    obtain ⟨gdt, after, learned, sameGid, holdsAfter, item⟩ :=
      learn_of_found holds daemonStd found alloc s
    have arrays : ∀ id, Switch.daemonArray { switch with br := { switch.br with gdt } } id =
        contents after id := holdsAfter.arrayOf_eq
    obtain ⟨array, arrayEq, covers, grows⟩ := item.covers
    refine ⟨gdt, 0, learned, sameGid,
      ⟨after, kernel, ⟨holdsAfter, item.table.wide, holds.kernel_holds, holds.kernel_table⟩,
        item.table, kernelStd, item.keys_eq ▸ daemonIds, kernelIds⟩, ?_, ?_, ?_⟩
    · intro id differs
      rw [arrays, holds.daemonArray_eq, item.contents_of_ne id differs]
    · intro old oldEq
      rw [holds.daemonArray_eq] at oldEq
      exact ⟨array, (arrays _).trans arrayEq, grows old oldEq⟩
    · exact fun _ => ⟨array, (arrays _).trans arrayEq, covers⟩
  | none =>
    have missing := position_eq_none.mpr (lookup_eq_none.mp found)
    have room : daemon.length < bfGdtMaxFilters := by
      have stores : CanStore (some fun _ => 0) daemon switch.br.localId :=
        canStore_of_inGroup small daemonStd.nodup daemonIds member rfl
      simpa [CanStore, found] using stores
    have noOld : ∀ old, switch.daemonArray switch.br.localId ≠ some old := fun old oldEq => by
      rw [holds.daemonArray_eq, contents, found] at oldEq
      cases oldEq
    cases alloc with
    | none =>
      refine ⟨switch.br.gdt, -1, ?_, rfl,
        ⟨daemon, kernel, holds, daemonStd, kernelStd, daemonIds, kernelIds⟩,
        fun _ _ => rfl, fun old oldEq => absurd oldEq (noOld old),
        fun success => absurd success (by decide)⟩
      simp [bridgeUpdateLocalBf, bfGdtFindFilter_of_holds holds.daemon_holds, missing,
        bfGdtAddFilter, holds.daemon_holds.nbf_eq, Nat.not_le_of_lt room, bfCreate]
    | some heap =>
      obtain ⟨gdt, after, learned, sameGid, holdsAfter, item⟩ :=
        learn_of_absent holds daemonStd found room heap s
      have arrays : ∀ id, Switch.daemonArray { switch with br := { switch.br with gdt } } id =
          contents after id := holdsAfter.arrayOf_eq
      obtain ⟨array, arrayEq, covers, -⟩ := item.covers
      refine ⟨gdt, 0, learned, sameGid,
        ⟨after, kernel, ⟨holdsAfter, item.table.wide, holds.kernel_holds, holds.kernel_table⟩,
          item.table, kernelStd, ?_, kernelIds⟩, ?_, ?_, ?_⟩
      · intro id idMember
        rw [item.keys_eq, keys, List.map_append, List.mem_append] at idMember
        rcases idMember with old | new
        · exact daemonIds id old
        · rw [List.mem_singleton.mp new]
          exact member
      · intro id differs
        rw [arrays, holds.daemonArray_eq, item.contents_of_ne id differs,
          contents_append found]
        exact if_neg differs
      · exact fun old oldEq => absurd oldEq (noOld old)
      · exact fun _ => ⟨array, (arrays _).trans arrayEq, covers⟩

end Switch

structure Group.Inv {n : Nat} (ids : Fin n → BitVec 32) (group : Group n) : Prop where
  localId : ∀ i, (group.members i).switch.br.localId = ids i
  inGroup : ∀ i, (group.members i).switch.InGroup (Set.range ids)
  packets : ∀ packet ∈ group.packets,
    packet.bf.len = lcBfDftLen ∧ packet.bf.bfId ∈ Set.range ids

section Steps

variable {n : Nat} {ids : Fin n → BitVec 32} {group next : Group n}

@[simp]
theorem Group.set_packets (i : Fin n) (member : Member) :
    (group.set i member).packets = group.packets := rfl

@[simp]
theorem Group.set_members_self (i : Fin n) (member : Member) :
    (group.set i member).members i = member := by
  simp [Group.set]

theorem Group.set_members_of_ne {i j : Fin n} (differs : j ≠ i) (member : Member) :
    (group.set i member).members j = group.members j := by
  simp [Group.set, differs]

theorem Group.Inv.set (inv : group.Inv ids) {i : Fin n} {member : Member}
    (localId : member.switch.br.localId = ids i)
    (inGroup : member.switch.InGroup (Set.range ids)) : (group.set i member).Inv ids := by
  refine ⟨fun j => ?_, fun j => ?_, inv.packets⟩ <;> by_cases same : j = i
  · rwa [same, Group.set_members_self]
  · rw [Group.set_members_of_ne same, inv.localId j]
  · rwa [same, Group.set_members_self]
  · rw [Group.set_members_of_ne same]
    exact inv.inGroup j

theorem Group.step_learn (inv : group.Inv ids) (small : n ≤ bfGdtMaxFilters) {i : Fin n}
    {mac : Fin 6 → Byte} {alloc : Alloc} (taken : group.step (.learn i mac alloc) = some next) :
    ∃ gdt ret,
      bridgeUpdateLocalBf alloc (group.members i).switch.br (macString mac) =
          some ({ (group.members i).switch.br with gdt }, ret) ∧
        gdt.gid = (group.members i).switch.br.gdt.gid ∧
        next = group.set i { group.members i with
          switch := { (group.members i).switch with
            br := { (group.members i).switch.br with gdt } } } ∧
        next.Inv ids ∧
          (group.members i).switch.Learned (next.members i).switch (macString mac) ret := by
  obtain ⟨gdt, ret, learned, sameGid, inGroup, effect⟩ :=
    (inv.inGroup i).learn small (inv.localId i ▸ Set.mem_range_self i) alloc (macString mac)
  simp only [Group.step, learned, Option.bind_eq_bind, Option.bind_some, Option.some.injEq] at taken
  subst taken
  exact ⟨gdt, ret, learned, sameGid, rfl, inv.set (inv.localId i) inGroup, by simpa using effect⟩

theorem Group.step_send (inv : group.Inv ids) {i : Fin n}
    (taken : group.step (.send i) = some next) :
    next.Inv ids ∧ next.members = group.members ∧
      ((group.members i).switch.daemonArray (ids i) = none ∧ next.packets = group.packets ∨
        ∃ packet, next.packets = group.packets ++ [packet] ∧
          (group.members i).sendGid = some packet.gid ∧
          packet.addr = mcSendAddr (group.members i).switch.br.sendGroupIp ∧
          packet.bf.bfId = ids i ∧
            (group.members i).switch.daemonArray (ids i) = some packet.bf.array) := by
  obtain ⟨daemon, kernel, holds, daemonStd, -⟩ := inv.inGroup i
  have search := findFilter_of_holds holds.daemon_holds (ids i)
  simp only [Group.step, mcSend, inv.localId i, search, Option.bind_eq_bind, Option.bind_some,
    Option.bind_eq_some_iff, Option.some.injEq] at taken
  obtain ⟨gid, started, rfl⟩ := taken
  rw [holds.daemonArray_eq, contents]
  cases found : lookup daemon (ids i) with
  | none =>
    refine ⟨⟨inv.localId, inv.inGroup, ?_⟩, rfl, Or.inl ⟨rfl, by simp⟩⟩
    simpa using inv.packets
  | some bf =>
    refine ⟨⟨inv.localId, inv.inGroup, fun packet member => ?_⟩, rfl,
      Or.inr ⟨_, rfl, started, rfl, lookup_key found, rfl⟩⟩
    rcases List.mem_append.mp member with old | new
    · exact inv.packets packet old
    · obtain rfl := List.mem_singleton.mp new
      exact ⟨(daemonStd.standard bf (lookup_mem found)).1, i, (lookup_key found).symm⟩

theorem Group.step_recv (inv : group.Inv ids) (small : n ≤ bfGdtMaxFilters) {i : Fin n} {k : Nat}
    {alloc : Alloc} {link : DpLink} (taken : group.step (.recv i k alloc link) = some next) :
    ∃ packet gdt dp, group.packets[k]? = some packet ∧
      gdt.gid = (group.members i).switch.br.gdt.gid ∧
      next = group.set i { group.members i with
        switch := { br := { (group.members i).switch.br with gdt }, dp } } ∧
      next.Inv ids ∧
        (packet.bf.bfId = ids i ∧ next = group ∨
          packet.bf.bfId ≠ ids i ∧
            (group.members i).switch.Received (next.members i).switch packet.bf link) := by
  simp only [Group.step, Option.bind_eq_bind, Option.bind_eq_some_iff, Option.some.injEq] at taken
  obtain ⟨packet, found, switch, received, rfl⟩ := taken
  obtain ⟨len, member⟩ := inv.packets packet (List.mem_of_getElem? found)
  by_cases own : packet.bf.bfId = ids i
  · rw [Switch.recv_own (own.trans (inv.localId i).symm), Option.some.injEq] at received
    subst received
    have same : group.set i (group.members i) = group := by simp [Group.set]
    refine ⟨packet, (group.members i).switch.br.gdt, (group.members i).switch.dp, found, rfl, rfl,
      inv.set (inv.localId i) (inv.inGroup i), Or.inl ⟨own, same⟩⟩
  · obtain ⟨gdt, dp, step, sameGid, inGroup, effect⟩ :=
      (inv.inGroup i).recv small { bf := packet.bf, alloc, link } len member
        (by rwa [inv.localId i])
    obtain rfl := Option.some.inj (step.symm.trans received)
    exact ⟨packet, gdt, dp, found, sameGid, rfl, inv.set (inv.localId i) inGroup,
      Or.inr ⟨own, by simpa using effect⟩⟩

theorem Group.Inv.step (inv : group.Inv ids) (small : n ≤ bfGdtMaxFilters) {event : GroupEvent n}
    (taken : group.step event = some next) : next.Inv ids := by
  cases event with
  | regroup i gidFile | start i =>
    obtain rfl := Option.some.inj taken
    exact inv.set (inv.localId i) (inv.inGroup i)
  | learn i mac alloc =>
    obtain ⟨-, -, -, -, -, kept, -⟩ := Group.step_learn inv small taken
    exact kept
  | send i => exact (Group.step_send inv taken).1
  | recv i k alloc link =>
    obtain ⟨-, -, -, -, -, -, kept, -⟩ := Group.step_recv inv small taken
    exact kept

theorem Member.Starts.inGroup {member : Member} (starts : member.Starts)
    (ids : Fin n → BitVec 32) (inside : member.switch.br.localId ∈ Set.range ids) :
    member.switch.InGroup (Set.range ids) ∧
      ∀ id, id ≠ member.switch.br.localId → member.switch.daemonArray id = none := by
  obtain ⟨-, alloc, kernelAlloc, gid, init, created⟩ := starts
  obtain ⟨gdt, dpEq, kernelHolds⟩ := ovsDpCmdNew_holds created
  obtain ⟨_, daemonGdt, _, _, brEq, _, daemonHolds⟩ := bridgeLcInit_holds init
  have kernel : ∃ gdt, member.switch.dp.gdt = some gdt ∧
      gdt.Holds [.empty member.switch.br.localId lcBfLocalPort] := ⟨gdt, by rw [dpEq], kernelHolds⟩
  have gdtEq : member.switch.br.gdt = daemonGdt := by rw [brEq]
  have within : ∀ id ∈ keys [BloomFilter.empty member.switch.br.localId lcBfLocalPort],
      id ∈ Set.range ids := fun id idMember => by
    rw [List.mem_singleton.mp idMember]
    exact inside
  rw [← gdtEq] at daemonHolds
  rcases daemonHolds with ⟨-, holds⟩ | holds
  · refine ⟨⟨[], _, ⟨holds, stdTable_nil.wide, kernel, wideTable_empty _ _⟩, stdTable_nil,
      stdTable_empty _ _, by simp [keys], within⟩, fun id _ => holds.arrayOf_eq id⟩
  · refine ⟨⟨_, _, ⟨holds, wideTable_empty _ _, kernel, wideTable_empty _ _⟩, stdTable_empty _ _,
      stdTable_empty _ _, within, within⟩, fun id differs => ?_⟩
    rw [Switch.daemonArray, holds.arrayOf_eq, contents]
    simp [lookup, BloomFilter.empty, Ne.symm differs]

theorem Group.Starts.inv (starts : group.Starts) :
    group.Inv fun i => (group.members i).switch.br.localId := by
  refine ⟨fun _ => rfl, fun i => ((starts.starts i).inGroup _ (Set.mem_range_self i)).1, ?_⟩
  simp [starts.silent]

theorem Group.Inv.exec (inv : group.Inv ids) (small : n ≤ bfGdtMaxFilters)
    {events : List (GroupEvent n)} (run : Run.exec Group.step group events = some next) :
    next.Inv ids :=
  Run.exec_preserves (Group.Inv ids) (fun inv taken => inv.step small taken) inv run

end Steps

end LazyCtrl
