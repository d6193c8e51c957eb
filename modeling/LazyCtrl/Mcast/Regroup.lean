import LazyCtrl.Mcast.Coverage

/-!
# Isolation of groups under regrouping

The group id of a switch is read at three moments: when the bridge is created, when the sending
thread starts, and for every received message.  Only the addresses of the first moment keep groups
apart, since the comparison in `mc_recv` has no effect.  This file says when that is enough: as long
as no rewriting of the group file changes the id that a switch reads, and only groups that own their
address send.
-/

namespace LazyCtrl

open Keyed

variable {n : Nat}

def Avoids (i : Fin n) (id : BitVec 32) (group : Group n) : GroupEvent n → Prop
  | .recv j k _ _ => j = i → ∀ packet, group.packets[k]? = some packet → packet.bf.bfId ≠ id
  | _ => True

/-- The array that a member holds for an id comes from the latest datagram with that id that it has
received in the run, and that datagram carried the group id that the member had at that moment. -/
def AcceptedInGroup (start : Group n) (events : List (GroupEvent n)) (i : Fin n)
    (id : BitVec 32) (array : BitArray) : Prop :=
  ∃ front k alloc link back before after packet,
    events = front ++ .recv i k alloc link :: back ∧
      Run.exec Group.step start front = some before ∧
        before.step (.recv i k alloc link) = some after ∧
          Run.Along Group.step (Avoids i id) after back ∧ before.packets[k]? = some packet ∧
            packet.bf.bfId = id ∧ packet.bf.array = array ∧
              packet.gid = (before.members i).currentGid

/-- Every filter of another switch was accepted from a message of the own group, and every message
that is sent carries the group id that the receiver of the same switch reads at that moment. -/
structure Isolated (start : Group n) (events : List (GroupEvent n)) : Prop where
  filters : ∀ final, Run.exec Group.step start events = some final →
    ∀ i id array, id ≠ (start.members i).switch.br.localId →
      (final.members i).switch.daemonArray id = some array →
        AcceptedInGroup start events i id array
  messages : ∀ front i back before after packet, events = front ++ .send i :: back →
    Run.exec Group.step start front = some before → before.step (.send i) = some after →
      after.packets = before.packets ++ [packet] →
        packet.gid = (before.members i).currentGid

/-- The network hands a datagram to the switches that have joined its destination address. -/
def Routed (group : Group n) : GroupEvent n → Prop
  | .recv i k _ _ => ∀ packet, group.packets[k]? = some packet →
      packet.addr = mcRecvAddr (group.members i).switch.br.recvGroupIp
  | _ => True

/-- A rewriting of the group file leaves the id that the switch reads as it was, and a switch that
sends was created in a group whose id reads the same in both byte orders. -/
def KeepsGroup (group : Group n) : GroupEvent n → Prop
  | .regroup i gidFile =>
    Member.currentGid { group.members i with gidFile } = (group.members i).currentGid
  | .send i =>
    let gid := (group.members i).switch.br.gdt.gid
    gid.extractLsb' 0 8 = gid.extractLsb' 24 8 ∧ gid.extractLsb' 8 8 = gid.extractLsb' 16 8
  | _ => True

/-- The threads of a member, its addresses and its table all have the same group id. -/
structure Member.Stable (member : Member) : Prop where
  current : member.currentGid = member.switch.br.gdt.gid
  send : member.switch.br.sendGroupIp = sendGroupIp member.switch.br.gdt.gid
  recv : member.switch.br.recvGroupIp = recvGroupIp member.switch.br.gdt.gid
  thread : ∀ gid, member.sendGid = some gid → gid = member.switch.br.gdt.gid

/-- All members are stable, and every datagram was sent to the address of its group id. -/
structure Group.Stable (group : Group n) : Prop where
  members : ∀ i, (group.members i).Stable
  packets : ∀ packet ∈ group.packets, packet.addr = lcMcastGroupIp + packet.gid

section Stable

variable {ids : Fin n → BitVec 32} {group next : Group n}

theorem Group.Stable.set (stable : group.Stable) {i : Fin n} {member : Member}
    (memberStable : member.Stable) : (group.set i member).Stable := by
  refine ⟨fun j => ?_, stable.packets⟩
  by_cases same : j = i
  · rwa [same, Group.set_members_self]
  · rw [Group.set_members_of_ne same]
    exact stable.members j

theorem Member.Stable.withTables {member : Member} (stable : member.Stable) {gdt : BfGdt}
    (sameGid : gdt.gid = member.switch.br.gdt.gid) (dp : Datapath) :
    Member.Stable { member with switch := { br := { member.switch.br with gdt }, dp } } := by
  refine ⟨?_, ?_, ?_, ?_⟩
  · have current := stable.current
    unfold Member.currentGid at current ⊢
    cases fileEq : member.gidFile with
    | none => rfl
    | some file =>
      rw [fileEq] at current
      exact current.trans sameGid.symm
  · rw [sameGid]
    exact stable.send
  · rw [sameGid]
    exact stable.recv
  · rw [sameGid]
    exact stable.thread

theorem Group.Stable.step (stable : group.Stable) (inv : group.Inv ids)
    (small : n ≤ bfGdtMaxFilters) {event : GroupEvent n} (keeps : KeepsGroup group event)
    (taken : group.step event = some next) : next.Stable := by
  cases event with
  | regroup i gidFile =>
    obtain rfl := Option.some.inj taken
    have member := stable.members i
    exact stable.set ⟨keeps.trans member.current, member.send, member.recv, member.thread⟩
  | start i =>
    obtain rfl := Option.some.inj taken
    have member := stable.members i
    refine stable.set ⟨member.current, member.send, member.recv, fun gid started => ?_⟩
    rw [← Option.some.inj started]
    exact member.current
  | learn i mac alloc =>
    obtain ⟨gdt, ret, -, sameGid, rfl, -, -⟩ := Group.step_learn inv small taken
    exact stable.set ((stable.members i).withTables sameGid _)
  | recv i k alloc link =>
    obtain ⟨packet, gdt, dp, -, sameGid, rfl, -, -⟩ := Group.step_recv inv small taken
    exact stable.set ((stable.members i).withTables sameGid dp)
  | send i =>
    obtain ⟨-, same, sent⟩ := Group.step_send inv taken
    refine ⟨same ▸ stable.members, ?_⟩
    rcases sent with ⟨-, quiet⟩ | ⟨packet, appended, started, addrEq, -, -⟩
    · rw [quiet]
      exact stable.packets
    · have member := stable.members i
      have symmetric : htonl (group.members i).switch.br.gdt.gid =
          (group.members i).switch.br.gdt.gid := (Bytes.swap32_eq_self_iff _).mpr keeps
      intro other otherMember
      rw [appended, List.mem_append] at otherMember
      rcases otherMember with old | new
      · exact stable.packets other old
      · rw [List.mem_singleton.mp new, addrEq, member.send, mcSendAddr_sendGroupIp, symmetric,
          member.thread _ started]

theorem Group.Starts.stable (starts : group.Starts) : group.Stable := by
  refine ⟨fun i => ?_, by simp [starts.silent]⟩
  obtain ⟨idle, alloc, kernelAlloc, gid, init, -⟩ := starts.starts i
  obtain ⟨fileGid, gdt, ddcm, fileEq, brEq, gdtGid, -⟩ := bridgeLcInit_holds init
  refine ⟨?_, ?_, ?_, fun gid started => ?_⟩
  · unfold Member.currentGid
    cases file : (group.members i).gidFile with
    | none => rfl
    | some content =>
      rw [file] at fileEq
      rw [brEq]
      exact (gdtGid.trans fileEq).symm
  · rw [brEq]
    exact congrArg sendGroupIp gdtGid.symm
  · rw [brEq]
    exact congrArg recvGroupIp gdtGid.symm
  · rw [idle] at started
    cases started

theorem Group.Starts.exec {start : Group n} (starts : start.Starts)
    {events : List (GroupEvent n)} (keeps : Run.Along Group.step KeepsGroup start events)
    (run : Run.exec Group.step start events = some group) :
    group.Inv (fun i => (start.members i).switch.br.localId) ∧ group.Stable :=
  Run.exec_invariant
    (fun state => state.Inv (fun i => (start.members i).switch.br.localId) ∧ state.Stable)
    (fun kept keeps taken => ⟨kept.1.step starts.small taken,
      kept.2.step kept.1 starts.small keeps taken⟩)
    ⟨starts.inv, starts.stable⟩ keeps run

theorem Group.Stable.gid_eq (stable : group.Stable) {i : Fin n} {k : Nat} {alloc : Alloc}
    {link : DpLink} (routed : Routed group (.recv i k alloc link)) {packet : Packet}
    (found : group.packets[k]? = some packet) :
    packet.gid = (group.members i).currentGid := by
  have member := stable.members i
  have arrived := routed packet found
  rw [stable.packets packet (List.mem_of_getElem? found), member.recv, mcRecvAddr_recvGroupIp,
    BitVec.add_right_inj] at arrived
  rw [member.current, arrived]

end Stable

section Filters

variable {ids : Fin n → BitVec 32} {start group next final : Group n} {i : Fin n}
  {id : BitVec 32} {array : BitArray}

theorem Group.daemonArray_step (inv : group.Inv ids) (small : n ≤ bfGdtMaxFilters)
    {event : GroupEvent n} (taken : group.step event = some next) (remote : id ≠ ids i)
    (found : (next.members i).switch.daemonArray id = some array) :
    (group.members i).switch.daemonArray id = some array ∧ Avoids i id group event ∨
      ∃ k alloc link packet, event = .recv i k alloc link ∧ group.packets[k]? = some packet ∧
        packet.bf.bfId = id ∧ packet.bf.array = array := by
  cases event with
  | regroup j gidFile | start j =>
    obtain rfl := Option.some.inj taken
    refine Or.inl ⟨?_, trivial⟩
    by_cases here : i = j
    · subst here
      simpa using found
    · rwa [Group.set_members_of_ne here] at found
  | learn j mac alloc =>
    obtain ⟨gdt, ret, -, -, nextEq, -, learned⟩ := Group.step_learn inv small taken
    refine Or.inl ⟨?_, trivial⟩
    by_cases here : i = j
    · subst here
      rwa [learned.others id (by rwa [inv.localId i])] at found
    · rwa [nextEq, Group.set_members_of_ne here] at found
  | send j =>
    obtain ⟨-, same, -⟩ := Group.step_send inv taken
    exact Or.inl ⟨same ▸ found, trivial⟩
  | recv j k alloc link =>
    obtain ⟨packet, gdt, dp, packetFound, -, nextEq, -, effect⟩ :=
      Group.step_recv inv small taken
    by_cases here : i = j
    · subst here
      by_cases idEq : packet.bf.bfId = id
      · rcases effect with ⟨own, -⟩ | ⟨-, received⟩
        · exact absurd (idEq.symm.trans own) remote
        · refine Or.inr ⟨k, alloc, link, packet, rfl, packetFound, idEq, ?_⟩
          rw [← idEq] at found
          rcases received.daemon with stored | missing
          · exact Option.some.inj (stored.symm.trans found)
          · rw [missing] at found
            cases found
      · refine Or.inl ⟨?_, fun _ other otherFound => ?_⟩
        · rcases effect with ⟨-, same⟩ | ⟨-, received⟩
          · rwa [same] at found
          · rwa [received.daemon_others id (Ne.symm idEq)] at found
        · obtain rfl := Option.some.inj (packetFound.symm.trans otherFound)
          exact idEq
    · refine Or.inl ⟨?_, fun isHere => absurd isHere.symm here⟩
      rwa [nextEq, Group.set_members_of_ne here] at found

theorem AcceptedInGroup.append {events : List (GroupEvent n)} {event : GroupEvent n}
    (accepted : AcceptedInGroup start events i id array)
    (run : Run.exec Group.step start events = some group) (avoids : Avoids i id group event) :
    AcceptedInGroup start (events ++ [event]) i id array := by
  obtain ⟨front, k, alloc, link, back, before, after, packet, rfl, frontRun, taken, along, rest⟩ :=
    accepted
  refine ⟨front, k, alloc, link, back ++ [event], before, after, packet, by simp, frontRun, taken,
    ?_, rest⟩
  refine Run.along_append.mpr ⟨along, fun middle backRun => ⟨?_, fun _ _ => trivial⟩⟩
  have whole : Run.exec Group.step start (front ++ .recv i k alloc link :: back) = some middle :=
    Run.exec_append_eq_some.mpr
      ⟨before, frontRun, Run.exec_cons_eq_some.mpr ⟨after, taken, backRun⟩⟩
  obtain rfl := Option.some.inj (run.symm.trans whole)
  exact avoids

theorem acceptedInGroup_of_exec (starts : start.Starts) {events : List (GroupEvent n)}
    (routed : Run.Along Group.step Routed start events)
    (keeps : Run.Along Group.step KeepsGroup start events)
    (run : Run.exec Group.step start events = some final)
    (remote : id ≠ (start.members i).switch.br.localId)
    (found : (final.members i).switch.daemonArray id = some array) :
    AcceptedInGroup start events i id array := by
  induction events using List.reverseRecOn generalizing final with
  | nil =>
    obtain rfl : start = final := by simpa using run
    have missing := ((starts.starts i).inGroup
      (fun i => (start.members i).switch.br.localId) (Set.mem_range_self i)).2 id remote
    rw [missing] at found
    cases found
  | append_singleton events event ih =>
    obtain ⟨middle, front, last⟩ := Run.exec_append_eq_some.mp run
    obtain ⟨next, taken, rest⟩ := Run.exec_cons_eq_some.mp last
    obtain rfl : next = final := by simpa using rest
    obtain ⟨routedFront, routedLast⟩ := Run.along_append.mp routed
    obtain ⟨keepsFront, -⟩ := Run.along_append.mp keeps
    obtain ⟨inv, stable⟩ := starts.exec keepsFront front
    rcases Group.daemonArray_step inv starts.small taken remote found with
      ⟨old, avoids⟩ | ⟨k, alloc, link, packet, rfl, packetFound, idEq, arrayEq⟩
    · exact (ih routedFront keepsFront front old).append front avoids
    · exact ⟨events, k, alloc, link, [], middle, next, packet, rfl, front, taken, trivial,
        packetFound, idEq, arrayEq, stable.gid_eq (routedLast middle front).1 packetFound⟩

end Filters

/-- Groups stay isolated in every run in which datagrams are routed by their address, no rewriting
of a group file changes the id that the switch reads, and only groups send whose id reads the same
in both byte orders. -/
theorem isolated_of_keepsGroup {start : Group n} (starts : start.Starts)
    {events : List (GroupEvent n)} (routed : Run.Along Group.step Routed start events)
    (keeps : Run.Along Group.step KeepsGroup start events) : Isolated start events := by
  refine ⟨fun final run i id array remote found =>
    acceptedInGroup_of_exec starts routed keeps run remote found, ?_⟩
  rintro front i back before after packet rfl run taken appended
  obtain ⟨keepsFront, -⟩ := Run.along_append.mp keeps
  obtain ⟨inv, stable⟩ := starts.exec keepsFront run
  have member := stable.members i
  obtain ⟨-, -, ⟨-, quiet⟩ | ⟨sent, sentEq, started, -⟩⟩ := Group.step_send inv taken
  · rw [quiet] at appended
    exact absurd appended (by simp)
  · obtain rfl : sent = packet := by
      have lists := sentEq.symm.trans appended
      simpa using lists
    rw [member.thread _ started, member.current]

theorem isolated_freshPair :
    Isolated freshPair
      [.start 0, .send 0, .recv 1 0 (some fun _ => 0) (.delivered (some fun _ => 0))] := by
  refine isolated_of_keepsGroup freshPair_starts ?_ ?_
  · refine ⟨trivial, fun _ started => ⟨trivial, fun _ sent => ⟨fun packet found => ?_,
      fun _ _ => trivial⟩⟩⟩
    obtain rfl := Option.some.inj started
    obtain rfl := Option.some.inj sent
    obtain rfl := Option.some.inj found
    rfl
  · refine ⟨trivial, fun _ started => ⟨?_, fun _ _ => ⟨trivial, fun _ _ => trivial⟩⟩⟩
    obtain rfl := Option.some.inj started
    exact ⟨rfl, rfl⟩

/-- The second member is moved to group 5 and then receives a message of group 0, which is routed to
the address it joined before: it stores the filter. -/
theorem not_isolated_after_regroup :
    freshPair.Starts ∧
      ¬ Isolated freshPair
        [.start 0, .regroup 1 (some { gid := 5, ddcm := 0 }), .send 0,
          .recv 1 0 (some fun _ => 0) (.delivered (some fun _ => 0))] := by
  refine ⟨freshPair_starts, fun isolated => ?_⟩
  obtain ⟨front, k, alloc, link, back, before, after, packet, split, run, -, -, found, -, -, gidEq⟩ :=
    isolated.filters _ rfl 1 1 _ (by decide) rfl
  match front, split with
  | [_, _, _], split =>
    simp only [List.cons_append, List.nil_append, List.cons.injEq, GroupEvent.recv.injEq] at split
    obtain ⟨rfl, rfl, rfl, ⟨-, rfl, -, -⟩, -⟩ := split
    obtain rfl := Option.some.inj run
    obtain rfl := Option.some.inj found
    exact absurd gidEq (by decide)
  | [], split | [_], split | [_, _], split => simp at split
  | _ :: _ :: _ :: _ :: _, split => simp at split

end LazyCtrl
