import LazyCtrl.Packet.Received
import LazyCtrl.Mcast.Coverage
import LazyCtrl.Mcast.TableCalls

/-!
# No switch encapsulates to itself

The datapath of a switch is created with an empty filter for the switch's own id.  Filters come into
it only from `mc_recv`, which ignores the switch's own messages and rewrites the port of the others
before it passes them on.  So the empty filter stays empty, never reports a host, and every packet
that the table sends away goes through the remote port to another switch.  The group may have any
number of switches.

What a datapath knows of another switch comes from that switch: a packet is sent to a switch only if
the filter of that switch itself reports the destination.
-/

namespace LazyCtrl

open Keyed

/-- The filters of a datapath: an empty one for the own id, and those of other switches of the group
with the remote port. -/
structure BfGdt.GuardsSelf {n : Nat} (ids : Fin n → BitVec 32) (i : Fin n) (gdt : BfGdt) : Prop where
  own : ∃ bf, findFilter (some gdt) (ids i) = some (some bf) ∧ bf.array = fun _ => 0
  others : ∀ k bf, gdt.slot k = some bf → bf.bfId ≠ ids i →
    bf.portNo = lcBfRemotePort ∧ ∃ j, bf.bfId = ids j

/-- If actions are executed at all, it is one `REMOTE` that `do_execute_actions` turns into an
encapsulation for another switch and an output to the remote port. -/
def SendsToOther {n : Nat} (ids : Fin n → BitVec 32) (i : Fin n) (dp : Datapath) :
    Packet.Verdict → Prop
  | .execute skb actions => ∃ payload j, ids j ≠ ids i ∧ actions = [.remote payload] ∧
      executeAction dp skb (.remote payload) =
        some (encapulate dp skb (ids j), lcBfRemotePort.setWidth 32)
  | _ => True

structure GuardedFilters {n : Nat} (ids : Fin n → BitVec 32) (i : Fin n)
    (filters : List BloomFilter) : Prop where
  table : StdTable filters
  own : contents filters (ids i) = some fun _ => 0
  others : ∀ bf ∈ filters, bf.bfId ≠ ids i →
    bf.portNo = lcBfRemotePort ∧ bf.bfId ∈ Set.range ids

section Table

variable {n : Nat} {ids : Fin n → BitVec 32} {i : Fin n} {filters : List BloomFilter} {gdt : BfGdt}

theorem GuardedFilters.guardsSelf (guarded : GuardedFilters ids i filters)
    (holds : gdt.Holds filters) : gdt.GuardsSelf ids i := by
  constructor
  · obtain ⟨bf, found, array⟩ := Option.map_eq_some_iff.mp guarded.own
    exact ⟨bf, by rw [findFilter_of_holds holds, found], array⟩
  · intro k bf slot differs
    rw [holds.slot_eq_getElem?] at slot
    obtain ⟨port, j, idEq⟩ := guarded.others bf (List.mem_of_getElem? slot) differs
    exact ⟨port, j, idEq.symm⟩

theorem GuardedFilters.update (guarded : GuardedFilters ids i filters) (holds : gdt.Holds filters)
    {alloc : Alloc} (bf : BloomFilter) (len : bf.len = lcBfDftLen) (member : bf.bfId ∈ Set.range ids)
    (remote : bf.bfId ≠ ids i) (port : bf.portNo = lcBfRemotePort) {gdtAfter : BfGdt} {ret : Int}
    (update : bfGdtUpdateFilter alloc gdt bf = some (gdtAfter, ret)) :
    ∃ after, gdtAfter.Holds after ∧ GuardedFilters ids i after := by
  obtain ⟨after, list, afterHolds⟩ :=
    (bfGdtUpdateFilter_refines holds alloc bf).exists_holds update
  obtain ⟨other, otherRet, otherList, updated⟩ :=
    guarded.table.wide.update alloc bf fun _ => BloomFilter.nbytes_of_dftLen len
  obtain ⟨rfl, -⟩ := Prod.mk.inj (Option.some.inj (otherList.symm.trans list))
  refine ⟨other, afterHolds, updated.stdTable guarded.table len, ?_, ?_⟩
  · rw [updated.contents_eq, if_neg fun here => remote here.1.symm, guarded.own]
  · exact (tableUpdate_step list).forall_mem (fun _ _ => id)
      (fun _ new _ => ⟨new.portNo_eq.trans port, new.bfId_eq ▸ member⟩) guarded.others

theorem GuardedFilters.checkFilter (guarded : GuardedFilters ids i filters)
    (holds : gdt.Holds filters) (s : List Byte) :
    ∃ found, Packet.checkFilter (some gdt) s = some found ∧
      ∀ bf, found = some bf →
        bf.bfId ≠ ids i ∧ bf.portNo = lcBfRemotePort ∧ ∃ j, bf.bfId = ids j := by
  obtain ⟨result, returned, -⟩ := bfGdtCheck_of_holds holds guarded.table.valid s
  cases result with
  | none => exact ⟨none, by simp [Packet.checkFilter, returned], by simp⟩
  | some k =>
    obtain ⟨bf, member, slot, reports⟩ :=
      reports_of_bfGdtCheck holds guarded.table.valid returned
    refine ⟨some bf, by simp [Packet.checkFilter, returned, slot], fun other same => ?_⟩
    obtain rfl := Option.some.inj same
    have differs : bf.bfId ≠ ids i := by
      intro ownId
      obtain ⟨own, found, empty⟩ := Option.map_eq_some_iff.mp guarded.own
      have search := (lookup_eq_some_iff guarded.table.nodup).mpr ⟨member, ownId⟩
      obtain rfl : own = bf := Option.some.inj (found.symm.trans search)
      exact not_reports_of_empty (guarded.table.standard own member) empty s reports
    exact ⟨differs, (guarded.guardsSelf holds).others k bf slot differs⟩

end Table

structure Switch.Guarded {n : Nat} (ids : Fin n → BitVec 32) (i : Fin n) (switch : Switch) :
    Prop where
  localId : switch.br.localId = ids i
  daemon : ∃ filters, switch.br.gdt.Holds filters ∧ ∀ bf ∈ filters, bf.len = lcBfDftLen
  kernel : ∃ gdt filters, switch.dp.gdt = some gdt ∧ gdt.Holds filters ∧
    GuardedFilters ids i filters

section Switch

variable {n : Nat} {ids : Fin n → BitVec 32} {i : Fin n} {switch after : Switch}

theorem bridgeUpdateLocalBf_cases {alloc : Alloc} {br brAfter : Bridge} {srcMac : List Byte}
    {ret : Int} (learned : bridgeUpdateLocalBf alloc br srcMac = some (brAfter, ret)) :
    brAfter = { br with gdt := brAfter.gdt } ∧
      (GdtCall.updateLocalBf alloc br srcMac).run br.gdt = some brAfter.gdt := by
  have missing (gdt : BfGdt) (rest : some ({ br with gdt }, -1) = some (brAfter, ret)) :
      brAfter = { br with gdt := brAfter.gdt } := by
    obtain ⟨rfl, -⟩ := Prod.mk.inj (Option.some.inj rest)
    rfl
  have found (gdt : BfGdt) (rest : (bfGdtAddItem gdt br.localId srcMac).bind (fun added =>
      some ({ br with gdt := added.1 }, added.2)) = some (brAfter, ret)) :
      brAfter = { br with gdt := brAfter.gdt } := by
    obtain ⟨added, -, result⟩ := Option.bind_eq_some_iff.mp rest
    obtain ⟨rfl, -⟩ := Prod.mk.inj (Option.some.inj result)
    rfl
  constructor
  · obtain ⟨search, -, rest⟩ := Option.bind_eq_some_iff.mp learned
    cases search with
    | some i => exact found br.gdt rest
    | none =>
      obtain ⟨⟨gdt, slot⟩, -, last⟩ := Option.bind_eq_some_iff.mp rest
      cases slot with
      | none => exact missing gdt last
      | some i => exact found gdt last
  · rw [GdtCall.run, learned]
    rfl

theorem Switch.Guarded.learn (guarded : switch.Guarded ids i) {alloc : Alloc} {srcMac : List Byte}
    {brAfter : Bridge} {ret : Int}
    (learned : bridgeUpdateLocalBf alloc switch.br srcMac = some (brAfter, ret)) :
    Switch.Guarded ids i { switch with br := brAfter } := by
  obtain ⟨brEq, run⟩ := bridgeUpdateLocalBf_cases learned
  obtain ⟨filters, holds, lens⟩ := guarded.daemon
  obtain ⟨middle, last, lastHolds, first, second⟩ := GdtCall.run_cases holds run
  refine ⟨?_, ⟨last, lastHolds, ?_⟩, guarded.kernel⟩
  · rw [brEq]
    exact guarded.localId
  · exact second.forall_mem (fun _ _ => id) (fun _ new => new.len_eq)
      (first.forall_mem (fun _ _ => id) (fun _ new => new.len_eq) lens)

theorem Switch.recv_cases {reception : Reception} (received : switch.recv reception = some after)
    (remote : reception.bf.bfId ≠ switch.br.localId) :
    ∃ gdt ret dp, bfGdtUpdateFilter reception.alloc switch.br.gdt reception.bf = some (gdt, ret) ∧
      after = { br := { switch.br with gdt }, dp } ∧
        (dp = switch.dp ∨
          ∃ alloc, switch.dp.update alloc { reception.bf with portNo := lcBfRemotePort } =
            some dp) := by
  simp only [Switch.recv, mcRecvFilter, remote, if_false, mcUpdate, Option.bind_eq_bind,
    Option.map_eq_some_iff, Option.bind_eq_some_iff, Option.some.injEq] at received
  obtain ⟨copies, ⟨⟨br, dp, ret⟩, ⟨⟨gdt, code⟩, update, dpAfter, forward, triple⟩, rfl⟩, rfl⟩ :=
    received
  obtain ⟨rfl, rfl, rfl⟩ : { switch.br with gdt } = br ∧ dpAfter = dp ∧ code = ret := by
    simpa using triple
  refine ⟨gdt, code, dpAfter, update, rfl, ?_⟩
  rw [mcUpdateDp] at forward
  split at forward
  · cases linkEq : reception.link with
    | noOfproto | failed =>
      rw [linkEq] at forward
      exact Or.inl (Option.some.inj forward).symm
    | delivered alloc =>
      rw [linkEq] at forward
      exact Or.inr ⟨alloc, forward⟩
  · exact Or.inl (Option.some.inj forward).symm

theorem Switch.Guarded.recv (guarded : switch.Guarded ids i) {reception : Reception}
    (len : reception.bf.len = lcBfDftLen) (member : reception.bf.bfId ∈ Set.range ids)
    (received : switch.recv reception = some after) : after.Guarded ids i := by
  by_cases own : reception.bf.bfId = switch.br.localId
  · rw [Switch.recv_own own] at received
    exact Option.some.inj received ▸ guarded
  · obtain ⟨gdt, ret, dp, update, rfl, forward⟩ := Switch.recv_cases received own
    obtain ⟨filters, holds, lens⟩ := guarded.daemon
    obtain ⟨last, list, lastHolds⟩ := (bfGdtUpdateFilter_refines holds _ _).exists_holds update
    refine ⟨guarded.localId, ⟨last, lastHolds, ?_⟩, ?_⟩
    · exact (tableUpdate_step list).forall_mem (fun _ _ => id)
        (fun _ new => new.len_eq.trans len) lens
    · rcases forward with rfl | ⟨alloc, kernelUpdate⟩
      · exact guarded.kernel
      · obtain ⟨kernelGdt, kernelFilters, gdtEq, kernelHolds, kernelGuarded⟩ := guarded.kernel
        simp only [Datapath.update, gdtEq, Option.bind_eq_bind, Option.bind_eq_some_iff,
          Option.some.injEq] at kernelUpdate
        obtain ⟨⟨kernelAfter, code⟩, kernelRun, rfl⟩ := kernelUpdate
        obtain ⟨list, listHolds, listGuarded⟩ :=
          kernelGuarded.update kernelHolds { reception.bf with portNo := lcBfRemotePort } len member
            (guarded.localId ▸ own) rfl kernelRun
        exact ⟨kernelAfter, list, rfl, listHolds, listGuarded⟩

end Switch

structure Group.Guarded {n : Nat} (ids : Fin n → BitVec 32) (group : Group n) : Prop where
  switches : ∀ i, (group.members i).switch.Guarded ids i
  packets : ∀ packet ∈ group.packets,
    packet.bf.len = lcBfDftLen ∧ packet.bf.bfId ∈ Set.range ids

section Group

variable {n : Nat} {ids : Fin n → BitVec 32} {group next : Group n}

theorem Group.Guarded.set (guarded : group.Guarded ids) {i : Fin n} {member : Member}
    (switch : member.switch.Guarded ids i) : (group.set i member).Guarded ids := by
  refine ⟨fun j => ?_, guarded.packets⟩
  by_cases same : j = i
  · subst same
    rwa [Group.set_members_self]
  · rw [Group.set_members_of_ne same]
    exact guarded.switches j

theorem Switch.Guarded.mcSend {switch : Switch} {i : Fin n} (guarded : switch.Guarded ids i)
    {gid : BitVec 32} {packet : Packet} (sent : mcSend switch.br gid = some (some packet)) :
    packet.bf.len = lcBfDftLen ∧ packet.bf.bfId ∈ Set.range ids := by
  obtain ⟨filters, holds, lens⟩ := guarded.daemon
  simp only [LazyCtrl.mcSend, findFilter_of_holds holds, Option.bind_eq_bind, Option.bind_some,
    Option.some.injEq, Option.map_eq_some_iff] at sent
  obtain ⟨bf, found, rfl⟩ := sent
  refine ⟨lens bf (lookup_mem found), i, ?_⟩
  rw [← guarded.localId]
  exact (lookup_key found).symm

theorem Group.Guarded.step (guarded : group.Guarded ids) {event : GroupEvent n}
    (taken : group.step event = some next) : next.Guarded ids := by
  cases event with
  | regroup i gidFile | start i =>
    obtain rfl := Option.some.inj taken
    exact guarded.set (guarded.switches i)
  | learn i mac alloc =>
    obtain ⟨⟨br, ret⟩, learned, result⟩ := Option.bind_eq_some_iff.mp taken
    obtain rfl := Option.some.inj result
    exact guarded.set ((guarded.switches i).learn learned)
  | send i =>
    obtain ⟨gid, -, rest⟩ := Option.bind_eq_some_iff.mp taken
    obtain ⟨sent, send, result⟩ := Option.bind_eq_some_iff.mp rest
    obtain rfl := Option.some.inj result
    refine ⟨guarded.switches, fun packet member => ?_⟩
    rcases List.mem_append.mp member with old | new
    · exact guarded.packets packet old
    · rw [Option.mem_toList] at new
      rw [new] at send
      exact (guarded.switches i).mcSend send
  | recv i k alloc link =>
    obtain ⟨packet, found, rest⟩ := Option.bind_eq_some_iff.mp taken
    obtain ⟨switch, received, result⟩ := Option.bind_eq_some_iff.mp rest
    obtain rfl := Option.some.inj result
    obtain ⟨len, member⟩ := guarded.packets packet (List.mem_of_getElem? found)
    exact guarded.set ((guarded.switches i).recv len member received)

theorem Member.Starts.guarded {member : Member} (starts : member.Starts) {i : Fin n}
    (localId : member.switch.br.localId = ids i) : member.switch.Guarded ids i := by
  obtain ⟨-, alloc, kernelAlloc, gid, init, created⟩ := starts
  obtain ⟨gdt, dpEq, kernelHolds⟩ := ovsDpCmdNew_holds created
  obtain ⟨_, daemonGdt, _, _, brEq, _, daemonHolds⟩ := bridgeLcInit_holds init
  have gdtEq : member.switch.br.gdt = daemonGdt := by rw [brEq]
  refine ⟨localId, ?_, gdt, _, by rw [dpEq], kernelHolds, stdTable_empty _ _, ?_, ?_⟩
  · rw [gdtEq]
    rcases daemonHolds with ⟨-, holds⟩ | holds
    · exact ⟨[], holds, by simp⟩
    · exact ⟨_, holds, by simp [BloomFilter.empty]⟩
  · simp [contents, lookup, BloomFilter.empty, localId]
  · intro bf here differs
    rw [List.mem_singleton.mp here] at differs
    exact absurd localId differs

theorem Group.Guarded.exec (guarded : group.Guarded ids) {events : List (GroupEvent n)}
    (run : Run.exec Group.step group events = some next) : next.Guarded ids :=
  Run.exec_preserves (Group.Guarded ids) (fun guarded taken => guarded.step taken) guarded run

end Group

section Received

variable {n : Nat} {ids : Fin n → BitVec 32} {i : Fin n} {switch : Switch}

theorem Switch.Guarded.sendsToOther (guarded : switch.Guarded ids i)
    {jhash2 : List Byte → BitVec 32} {jhash1word : BitVec 32 → BitVec 32 → BitVec 32}
    {table : Packet.FlowTable (List DpAction)} {skb : Skb} {portNo : BitVec 16}
    {extraction : Packet.Extraction}
    (extract : Packet.ovsFlowExtract skb.data skb.priority skb.tunId portNo = some extraction)
    (miss : table.ovsFlowTblLookup jhash2 jhash1word extraction.key extraction.keyLen = none) :
    ∃ verdict, Packet.ovsDpProcessReceivedPacket jhash2 jhash1word switch.dp table portNo false skb =
        some verdict ∧ SendsToOther ids i switch.dp verdict := by
  obtain ⟨gdt, filters, gdtEq, holds, filtersGuarded⟩ := guarded.kernel
  obtain ⟨found, checked, other⟩ := filtersGuarded.checkFilter holds
    (macString (Packet.macBytes extraction.key.ethDst))
  have process : ∀ found, Packet.missFilter switch.dp false extraction.key = some found →
      Packet.ovsDpProcessReceivedPacket jhash2 jhash1word switch.dp table portNo false skb =
        some (extraction.missVerdict skb found) := fun found missed => by
    simp [Packet.ovsDpProcessReceivedPacket, Packet.decapulateReceived, extract,
      Packet.processExtracted, miss, missed]
  by_cases arp : extraction.key.type = Packet.ethPArp
  · exact ⟨_, process none (by simp [Packet.missFilter, arp]), trivial⟩
  · refine ⟨_, process found (by simp [Packet.missFilter, arp, gdtEq, checked]), ?_⟩
    cases found with
    | none => trivial
    | some bf =>
      obtain ⟨differs, port, j, idEq⟩ := other bf rfl
      refine ⟨Packet.remotePayload bf, j, idEq ▸ differs, rfl, ?_⟩
      rw [executeAction, Packet.remoteIp_remotePayload, Packet.remotePort_remotePayload, port,
        idEq]

end Received

/-- In every reachable state of a group, the datapath of each switch has an empty filter for its own
id and sends the packets that its table takes care of to other switches only, through the remote
port. -/
theorem guardsSelf_of_run {n : Nat} {group final : Group n}
    (starts : ∀ i, (group.members i).Starts) (silent : group.packets = [])
    {events : List (GroupEvent n)} (run : Run.exec Group.step group events = some final)
    (i : Fin n) :
    let ids := fun j => (group.members j).switch.br.localId
    (∃ gdt, (final.members i).switch.dp.gdt = some gdt ∧ gdt.GuardsSelf ids i) ∧
      ∀ (jhash2 : List Byte → BitVec 32) (jhash1word : BitVec 32 → BitVec 32 → BitVec 32)
        (table : Packet.FlowTable (List DpAction)) (portNo : BitVec 16) (skb : Skb)
        (extraction : Packet.Extraction),
        Packet.ovsFlowExtract skb.data skb.priority skb.tunId portNo = some extraction →
        table.ovsFlowTblLookup jhash2 jhash1word extraction.key extraction.keyLen = none →
        ∃ verdict,
          Packet.ovsDpProcessReceivedPacket jhash2 jhash1word (final.members i).switch.dp table
              portNo false skb = some verdict ∧
            SendsToOther ids i (final.members i).switch.dp verdict := by
  intro ids
  have initial : group.Guarded ids :=
    ⟨fun j => (starts j).guarded rfl, by simp [silent]⟩
  have guarded := (initial.exec run).switches i
  refine ⟨?_, fun jhash2 jhash1word table portNo skb extraction extract miss =>
    guarded.sendsToOther extract miss⟩
  obtain ⟨gdt, filters, gdtEq, holds, filtersGuarded⟩ := guarded.kernel
  exact ⟨gdt, gdtEq, filtersGuarded.guardsSelf holds⟩

/-- The second of two switches has received the filter of the first one. -/
theorem guardsSelf_freshPair :
    ∃ final, Run.exec Group.step freshPair
        [.learn 0 sampleMac none, .start 0, .send 0,
          .recv 1 0 (some fun _ => 0) (.delivered (some fun _ => 0))] = some final ∧
      ∃ gdt, (final.members 1).switch.dp.gdt = some gdt ∧
        gdt.nbf = 2 ∧ gdt.GuardsSelf (fun j => (freshPair.members j).switch.br.localId) 1 := by
  refine ⟨_, rfl, ?_⟩
  obtain ⟨gdt, gdtEq, guards⟩ :=
    (guardsSelf_of_run (fun j => freshMember_starts _) rfl
      (show Run.exec Group.step freshPair
        [.learn 0 sampleMac none, .start 0, .send 0,
          .recv 1 0 (some fun _ => 0) (.delivered (some fun _ => 0))] = some _ from rfl) 1).1
  refine ⟨gdt, gdtEq, ?_, guards⟩
  obtain rfl := Option.some.inj gdtEq
  rfl

section Origin

variable {n : Nat} {ids : Fin n → BitVec 32} {group next : Group n}

def Group.Owns (ids : Fin n → BitVec 32) (a : Fin n) (array : BitArray) (group : Group n) : Prop :=
  ∀ i ∈ bitsOf array,
    ∃ own, (group.members a).switch.daemonArray (ids a) = some own ∧ i ∈ bitsOf own

theorem Group.Owns.step {a : Fin n} {array : BitArray} (owns : group.Owns ids a array)
    (inv : group.Inv ids) (small : n ≤ bfGdtMaxFilters) {event : GroupEvent n}
    (taken : group.step event = some next) : next.Owns ids a array := by
  intro i set
  obtain ⟨own, found, member⟩ := owns i set
  obtain ⟨more, moreFound, grows⟩ := Group.localArray_step inv small taken found
  exact ⟨more, moreFound, grows member⟩

structure Group.Traced (ids : Fin n → BitVec 32) (group : Group n) : Prop where
  packets : ∀ packet ∈ group.packets, ∀ a, packet.bf.bfId = ids a →
    group.Owns ids a packet.bf.array
  kernel : ∀ a b array, (group.members b).switch.kernelArray (ids a) = some array →
    group.Owns ids a array

theorem Group.Traced.step (traced : group.Traced ids) (inv : group.Inv ids)
    (small : n ≤ bfGdtMaxFilters) (distinct : Function.Injective ids) {event : GroupEvent n}
    (taken : group.step event = some next) : next.Traced ids := by
  have kept {a : Fin n} {array : BitArray} (owns : group.Owns ids a array) :=
    owns.step inv small taken
  constructor
  · intro packet member a fromA
    rcases Group.packets_step inv small distinct taken with same | ⟨new, appended, newArray⟩
    · exact kept (traced.packets packet (same ▸ member) a fromA)
    · rw [appended] at member
      rcases List.mem_append.mp member with old | last
      · exact kept (traced.packets packet old a fromA)
      · obtain rfl := List.mem_singleton.mp last
        exact kept fun i set => ⟨_, newArray a fromA, set⟩
  · intro a b array found
    rcases Group.kernelArray_step inv small taken b (ids a) with
      same | ⟨k, alloc, link, packet, -, received, fromA, changed⟩
    · exact kept (traced.kernel a b array (same ▸ found))
    · obtain rfl := Option.some.inj (changed.symm.trans found)
      exact kept (traced.packets packet (List.mem_of_getElem? received) a fromA)

theorem Group.Starts.traced (starts : group.Starts) :
    group.Traced fun i => (group.members i).switch.br.localId := by
  refine ⟨by simp [starts.silent], fun a b array found i set => ?_⟩
  obtain ⟨-, alloc, kernelAlloc, gid, init, created⟩ := starts.starts b
  obtain ⟨gdt, dpEq, holds⟩ := ovsDpCmdNew_holds created
  rw [Switch.kernelArray, dpEq, Option.bind_some, holds.arrayOf_eq, contents,
    Option.map_eq_some_iff] at found
  obtain ⟨bf, search, rfl⟩ := found
  obtain rfl := List.mem_singleton.mp (lookup_mem search)
  obtain ⟨inside, bit⟩ := mem_bitsOf.mp set
  simp [BloomFilter.empty] at bit

/-- In every reachable state of a group, the filter that a datapath finds for a destination is the
one of another switch, and the local filter of that switch reports the destination. -/
theorem checkFilter_traced {start final : Group n} (starts : start.Starts)
    {events : List (GroupEvent n)} (run : Run.exec Group.step start events = some final) {b : Fin n}
    {s : List Byte} {bf : BloomFilter}
    (found : Packet.checkFilter (final.members b).switch.dp.gdt s = some (some bf)) :
    ∃ a own, a ≠ b ∧ bf.bfId = (start.members a).switch.br.localId ∧
      (final.members a).switch.daemonArray bf.bfId = some own ∧ Covers own s := by
  set ids : Fin n → BitVec 32 := fun i => (start.members i).switch.br.localId
  have both : final.Inv ids ∧ final.Traced ids :=
    Run.exec_preserves (fun group => group.Inv ids ∧ group.Traced ids)
      (fun kept taken => ⟨kept.1.step starts.small taken,
        kept.2.step kept.1 starts.small starts.distinct taken⟩)
      ⟨starts.inv, starts.traced⟩ run
  have guarded : final.Guarded ids :=
    Group.Guarded.exec ⟨fun j => (starts.starts j).guarded rfl, by simp [starts.silent]⟩ run
  obtain ⟨gdt, filters, gdtEq, holds, filtersGuarded⟩ := (guarded.switches b).kernel
  obtain ⟨result, checked, other⟩ := filtersGuarded.checkFilter holds s
  rw [gdtEq] at found
  obtain ⟨differs, -, a, idEq⟩ := other bf (Option.some.inj (checked.symm.trans found))
  obtain ⟨k, returned, isSlot⟩ : ∃ k, bfGdtCheck gdt s = some (some k) ∧ gdt.slot k = some bf := by
    obtain ⟨_ | k, returned, slot⟩ := Option.bind_eq_some_iff.mp found
    · cases slot
    · exact ⟨k, returned, by simpa using slot⟩
  obtain ⟨stored, member, storedSlot, reports⟩ :=
    reports_of_bfGdtCheck holds filtersGuarded.table.valid returned
  obtain rfl := Option.some.inj (storedSlot.symm.trans isSlot)
  have search := (lookup_eq_some_iff filtersGuarded.table.nodup).mpr ⟨member, idEq⟩
  have kernel : (final.members b).switch.kernelArray (ids a) = some stored.array := by
    rw [Switch.kernelArray, gdtEq, Option.bind_some, holds.arrayOf_eq, contents, search]
    rfl
  rw [(filtersGuarded.table.standard stored member).probes_eq] at reports
  have owned := both.2.kernel a b stored.array kernel
  obtain ⟨own, ownFound, -⟩ := owned _ (reports ⟨.sax, by decide, rfl⟩)
  refine ⟨a, own, fun same => differs (same ▸ idEq), idEq, idEq ▸ ownFound, fun i probe => ?_⟩
  obtain ⟨again, againFound, set⟩ := owned i (reports probe)
  obtain rfl := Option.some.inj (ownFound.symm.trans againFound)
  exact set

theorem checkFilter_traced_freshPair :
    ∃ final bf, Run.exec Group.step freshPair
        [.learn 0 sampleMac none, .start 0, .send 0,
          .recv 1 0 (some fun _ => 0) (.delivered (some fun _ => 0))] = some final ∧
      Packet.checkFilter (final.members 1).switch.dp.gdt (macString sampleMac) = some (some bf) ∧
      ∃ a own, a ≠ 1 ∧ bf.bfId = (freshPair.members a).switch.br.localId ∧
        (final.members a).switch.daemonArray bf.bfId = some own ∧
          Covers own (macString sampleMac) := by
  refine ⟨_, _, rfl, rfl, ?_⟩
  exact checkFilter_traced freshPair_starts
    (show Run.exec Group.step freshPair
      [.learn 0 sampleMac none, .start 0, .send 0,
        .recv 1 0 (some fun _ => 0) (.delivered (some fun _ => 0))] = some _ from rfl) rfl

end Origin

end LazyCtrl
