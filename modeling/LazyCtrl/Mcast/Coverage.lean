import LazyCtrl.Mcast.Group

/-!
# No false negatives across the group

A switch learns a host, multicasts its filter, and another switch receives the datagram and updates
its datapath: from then on the datapath of the receiver reports the host.  Messages carry no sequence
number and a reception overwrites the stored array, so this lasts as long as the receiver gets no
datagram that the sender had sent before it learned the host.
-/

namespace LazyCtrl

open Keyed

variable {n : Nat}

/-- The datapath of a member returns a filter for a destination address. -/
def Group.Reports (group : Group n) (b : Fin n) (mac : Fin 6 → Byte) : Prop :=
  ∃ gdt slot, (group.members b).switch.dp.gdt = some gdt ∧
    bfGdtCheck gdt (macString mac) = some (some slot)

/-- A run in which `a` learns an address and later sends a datagram, which `b` later receives with a
working path to its datapath. -/
structure Delivery (start : Group n) (a b : Fin n) (mac : Fin 6 → Byte) (final : Group n) where
  earlier : List (GroupEvent n)
  unaware : Group n
  aware : Group n
  learnAlloc : Alloc
  waiting : List (GroupEvent n)
  ready : Group n
  sent : Group n
  travelling : List (GroupEvent n)
  arriving : Group n
  received : Group n
  recvAlloc : Alloc
  heap : BitArray
  later : List (GroupEvent n)
  earlier_run : Run.exec Group.step start earlier = some unaware
  learn_step : unaware.step (.learn a mac learnAlloc) = some aware
  learn_returns : ∃ br, bridgeUpdateLocalBf learnAlloc (unaware.members a).switch.br
    (macString mac) = some (br, 0)
  waiting_run : Run.exec Group.step aware waiting = some ready
  send_step : ready.step (.send a) = some sent
  travelling_run : Run.exec Group.step sent travelling = some arriving
  recv_step : arriving.step
    (.recv b ready.packets.length recvAlloc (.delivered (some heap))) = some received
  later_run : Run.exec Group.step received later = some final

/-- The event does not let `b` receive a datagram of `a` older than the given number. -/
def NotStale (sender : BitVec 32) (b : Fin n) (since : Nat) (group : Group n) :
    GroupEvent n → Prop
  | .recv i k _ _ => i = b → ∀ packet, group.packets[k]? = some packet →
      packet.bf.bfId = sender → since ≤ k
  | _ => True

def Delivers (sender : BitVec 32) (b : Fin n) (group : Group n) : GroupEvent n → Prop
  | .recv i k _ link => i = b → ∀ packet, group.packets[k]? = some packet →
      packet.bf.bfId = sender → ∃ heap, link = .delivered (some heap)
  | _ => True

structure Group.Knows (ids : Fin n → BitVec 32) (a : Fin n) (s : List Byte) (since : Nat)
    (group : Group n) : Prop where
  filter : ∃ array, (group.members a).switch.daemonArray (ids a) = some array ∧ Covers array s
  packets : ∀ k packet, since ≤ k → group.packets[k]? = some packet → packet.bf.bfId = ids a →
    Covers packet.bf.array s

section Sender

variable {ids : Fin n → BitVec 32} {a : Fin n} {s : List Byte} {since : Nat}
  {group next : Group n}

theorem Group.localArray_step (inv : group.Inv ids) (small : n ≤ bfGdtMaxFilters)
    {event : GroupEvent n} (taken : group.step event = some next) {array : BitArray}
    (found : (group.members a).switch.daemonArray (ids a) = some array) :
    ∃ more, (next.members a).switch.daemonArray (ids a) = some more ∧
      bitsOf array ⊆ bitsOf more := by
  cases event with
  | regroup i gidFile | start i =>
    obtain rfl := Option.some.inj taken
    refine ⟨array, ?_, subset_rfl⟩
    by_cases here : a = i
    · rw [here] at found ⊢
      simpa using found
    · rwa [Group.set_members_of_ne here]
  | learn i mac alloc =>
    obtain ⟨gdt, ret, -, -, rfl, -, learned⟩ := Group.step_learn inv small taken
    by_cases here : a = i
    · subst here
      have grows := learned.grows array (by rwa [inv.localId a])
      rwa [inv.localId a] at grows
    · exact ⟨array, by rwa [Group.set_members_of_ne here], subset_rfl⟩
  | send i =>
    obtain ⟨-, same, -⟩ := Group.step_send inv taken
    exact ⟨array, by rwa [same], subset_rfl⟩
  | recv i k alloc link =>
    obtain ⟨packet, gdt, dp, -, -, rfl, -, effect⟩ := Group.step_recv inv small taken
    refine ⟨array, ?_, subset_rfl⟩
    by_cases here : a = i
    · subst here
      rcases effect with ⟨-, same⟩ | ⟨differs, received⟩
      · rwa [same]
      · rwa [received.daemon_others (ids a) (Ne.symm differs)]
    · rwa [Group.set_members_of_ne here]

theorem Group.packets_step (inv : group.Inv ids) (small : n ≤ bfGdtMaxFilters)
    (distinct : Function.Injective ids) {event : GroupEvent n}
    (taken : group.step event = some next) :
    next.packets = group.packets ∨
      ∃ packet, next.packets = group.packets ++ [packet] ∧
        ∀ a, packet.bf.bfId = ids a →
          (group.members a).switch.daemonArray (ids a) = some packet.bf.array := by
  cases event with
  | regroup i gidFile | start i =>
    obtain rfl := Option.some.inj taken
    exact Or.inl rfl
  | learn i mac alloc =>
    obtain ⟨-, -, -, -, rfl, -, -⟩ := Group.step_learn inv small taken
    exact Or.inl rfl
  | recv i k alloc link =>
    obtain ⟨-, -, -, -, -, rfl, -, -⟩ := Group.step_recv inv small taken
    exact Or.inl rfl
  | send i =>
    obtain ⟨-, -, ⟨-, same⟩ | ⟨packet, appended, -, -, idEq, arrayEq⟩⟩ :=
      Group.step_send inv taken
    · exact Or.inl same
    · refine Or.inr ⟨packet, appended, fun a fromA => ?_⟩
      obtain rfl : i = a := distinct (idEq.symm.trans fromA)
      exact arrayEq

theorem Group.Knows.step (knows : group.Knows ids a s since) (inv : group.Inv ids)
    (small : n ≤ bfGdtMaxFilters) (distinct : Function.Injective ids) {event : GroupEvent n}
    (taken : group.step event = some next) : next.Knows ids a s since := by
  obtain ⟨array, arrayEq, covers⟩ := knows.filter
  obtain ⟨more, moreEq, grows⟩ := Group.localArray_step inv small taken arrayEq
  refine ⟨⟨more, moreEq, covers.mono grows⟩, fun k packet young found fromA => ?_⟩
  rcases Group.packets_step inv small distinct taken with same | ⟨new, appended, newArray⟩
  · exact knows.packets k packet young (same ▸ found) fromA
  · rw [appended, List.getElem?_append] at found
    split at found
    · exact knows.packets k packet young found fromA
    · obtain rfl : new = packet := by
        have member := List.mem_of_getElem? found
        exact (List.mem_singleton.mp member).symm
      obtain rfl := Option.some.inj ((newArray a fromA).symm.trans arrayEq)
      exact covers

end Sender

section Receiver

variable {ids : Fin n → BitVec 32} {a b : Fin n} {s : List Byte} {since : Nat}
  {group next : Group n}

theorem Group.kernelArray_step (inv : group.Inv ids) (small : n ≤ bfGdtMaxFilters)
    {event : GroupEvent n} (taken : group.step event = some next) (b : Fin n) (id : BitVec 32) :
    (next.members b).switch.kernelArray id = (group.members b).switch.kernelArray id ∨
      ∃ k alloc link packet, event = .recv b k alloc link ∧ group.packets[k]? = some packet ∧
        packet.bf.bfId = id ∧
          (next.members b).switch.kernelArray id = some packet.bf.array := by
  cases event with
  | regroup i gidFile | start i =>
    obtain rfl := Option.some.inj taken
    refine Or.inl ?_
    by_cases here : b = i
    · subst here
      simp
    · rw [Group.set_members_of_ne here]
  | learn i mac alloc =>
    obtain ⟨gdt, ret, -, -, rfl, -, -⟩ := Group.step_learn inv small taken
    refine Or.inl ?_
    by_cases here : b = i
    · subst here
      rw [Group.set_members_self]
      rfl
    · rw [Group.set_members_of_ne here]
  | send i =>
    obtain ⟨-, same, -⟩ := Group.step_send inv taken
    exact Or.inl (by rw [same])
  | recv i k alloc link =>
    obtain ⟨packet, gdt, dp, found, -, nextEq, -, effect⟩ := Group.step_recv inv small taken
    by_cases here : b = i
    · subst here
      rcases effect with ⟨-, same⟩ | ⟨-, received⟩
      · exact Or.inl (by rw [same])
      · by_cases idEq : id = packet.bf.bfId
        · subst idEq
          exact received.kernel.imp_right fun changed =>
            ⟨k, alloc, link, packet, rfl, found, rfl, changed⟩
        · exact Or.inl (received.kernel_others id idEq)
    · refine Or.inl ?_
      rw [nextEq, Group.set_members_of_ne here]

def Group.Covered (ids : Fin n → BitVec 32) (a b : Fin n) (s : List Byte) (group : Group n) :
    Prop :=
  ∃ array, (group.members b).switch.kernelArray (ids a) = some array ∧ Covers array s

theorem Group.Covered.step (covered : group.Covered ids a b s) (knows : group.Knows ids a s since)
    (inv : group.Inv ids) (small : n ≤ bfGdtMaxFilters) {event : GroupEvent n}
    (fresh : NotStale (ids a) b since group event) (taken : group.step event = some next) :
    next.Covered ids a b s := by
  obtain ⟨array, arrayEq, covers⟩ := covered
  rcases Group.kernelArray_step inv small taken b (ids a) with
    same | ⟨k, alloc, link, packet, rfl, found, fromA, changed⟩
  · exact ⟨array, same.trans arrayEq, covers⟩
  · exact ⟨packet.bf.array, changed,
      knows.packets k packet (fresh rfl packet found fromA) found fromA⟩

def Group.InStep (ids : Fin n → BitVec 32) (a b : Fin n) (group : Group n) : Prop :=
  ∀ array, (group.members b).switch.daemonArray (ids a) = some array →
    (group.members b).switch.kernelArray (ids a) = some array

theorem Group.InStep.step (inStep : group.InStep ids a b) (inv : group.Inv ids)
    (small : n ≤ bfGdtMaxFilters) (distinct : Function.Injective ids) (other : b ≠ a)
    {event : GroupEvent n} (delivers : Delivers (ids a) b group event)
    (taken : group.step event = some next) : next.InStep ids a b := by
  intro array found
  cases event with
  | regroup i gidFile | start i =>
    obtain rfl := Option.some.inj taken
    by_cases here : b = i
    · subst here
      rw [Group.set_members_self] at found ⊢
      exact inStep array found
    · rw [Group.set_members_of_ne here] at found ⊢
      exact inStep array found
  | learn i mac alloc =>
    obtain ⟨gdt, ret, -, -, nextEq, -, learned⟩ := Group.step_learn inv small taken
    have kernelSame := (Group.kernelArray_step inv small taken b (ids a)).resolve_right
      fun ⟨_, _, _, _, isRecv, _⟩ => by cases isRecv
    rw [kernelSame]
    apply inStep
    by_cases here : b = i
    · subst here
      have differs : ids a ≠ (group.members b).switch.br.localId := by
        rw [inv.localId b]
        exact fun equal => other (distinct equal).symm
      rwa [learned.others (ids a) differs] at found
    · rwa [nextEq, Group.set_members_of_ne here] at found
  | send i =>
    obtain ⟨-, same, -⟩ := Group.step_send inv taken
    rw [same] at found ⊢
    exact inStep array found
  | recv i k alloc link =>
    obtain ⟨packet, gdt, dp, packetFound, -, nextEq, -, effect⟩ :=
      Group.step_recv inv small taken
    by_cases here : b = i
    · subst here
      rcases effect with ⟨-, same⟩ | ⟨-, received⟩
      · rw [same] at found ⊢
        exact inStep array found
      · by_cases fromA : packet.bf.bfId = ids a
        · rw [← fromA] at found ⊢
          obtain rfl : packet.bf.array = array := by
            rcases received.daemon with stored | missing
            · exact Option.some.inj (stored.symm.trans found)
            · rw [missing] at found
              cases found
          by_cases unchanged : (group.members b).switch.daemonArray packet.bf.bfId =
              some packet.bf.array
          · rw [received.unchanged unchanged, fromA]
            exact inStep _ (fromA ▸ unchanged)
          · exact received.delivered unchanged (delivers rfl packet packetFound fromA)
        · rw [received.daemon_others _ (Ne.symm fromA)] at found
          rw [received.kernel_others _ (Ne.symm fromA)]
          exact inStep array found
    · rw [nextEq, Group.set_members_of_ne here] at found ⊢
      exact inStep array found

end Receiver

section Run

variable {start final : Group n} {a b : Fin n} {mac : Fin 6 → Byte}

def Delivery.before (delivery : Delivery start a b mac final) : List (GroupEvent n) :=
  delivery.earlier ++ .learn a mac delivery.learnAlloc ::
    (delivery.waiting ++ .send a :: delivery.travelling)

/-- The reception brings the datapath of `b` up to date: it changes the daemon's copy, so that the
datapath is updated, or no earlier update of the datapath for `a` has failed. -/
def Delivery.Updates (delivery : Delivery start a b mac final) : Prop :=
  (∀ packet, delivery.arriving.packets[delivery.ready.packets.length]? = some packet →
    (delivery.arriving.members b).switch.daemonArray packet.bf.bfId ≠ some packet.bf.array) ∨
  Run.Along Group.step (Delivers (start.members a).switch.br.localId b) start delivery.before

theorem Delivery.before_run (delivery : Delivery start a b mac final) :
    Run.exec Group.step start delivery.before = some delivery.arriving := by
  refine Run.exec_append_eq_some.mpr ⟨_, delivery.earlier_run, ?_⟩
  refine Run.exec_cons_eq_some.mpr ⟨_, delivery.learn_step, ?_⟩
  refine Run.exec_append_eq_some.mpr ⟨_, delivery.waiting_run, ?_⟩
  exact Run.exec_cons_eq_some.mpr ⟨_, delivery.send_step, delivery.travelling_run⟩

variable {ids : Fin n → BitVec 32} {s : List Byte} {since : Nat} {group next : Group n}

theorem Group.Knows.exec (knows : group.Knows ids a s since) (inv : group.Inv ids)
    (small : n ≤ bfGdtMaxFilters) (distinct : Function.Injective ids)
    {events : List (GroupEvent n)} (run : Run.exec Group.step group events = some next) :
    next.Knows ids a s since := by
  have both : next.Inv ids ∧ next.Knows ids a s since :=
    Run.exec_preserves (fun state => state.Inv ids ∧ state.Knows ids a s since)
      (fun kept taken => ⟨kept.1.step small taken, kept.2.step kept.1 small distinct taken⟩)
      ⟨inv, knows⟩ run
  exact both.2

theorem Group.packet_exec (inv : group.Inv ids) (small : n ≤ bfGdtMaxFilters)
    (distinct : Function.Injective ids) {k : Nat} {packet : Packet}
    (found : group.packets[k]? = some packet) {events : List (GroupEvent n)}
    (run : Run.exec Group.step group events = some next) : next.packets[k]? = some packet := by
  induction events generalizing group with
  | nil =>
    obtain rfl : group = next := by simpa using run
    exact found
  | cons event events ih =>
    obtain ⟨middle, taken, rest⟩ := Run.exec_cons_eq_some.mp run
    refine ih (inv.step small taken) ?_ rest
    rcases Group.packets_step inv small distinct taken with same | ⟨new, appended, -⟩
    · rwa [same]
    · rw [appended, List.getElem?_append_left]
      · exact found
      · exact (List.getElem?_eq_some_iff.mp found).1

theorem Delivery.knows_aware (delivery : Delivery start a b mac final)
    (inv : delivery.unaware.Inv ids) (small : n ≤ bfGdtMaxFilters) :
    delivery.aware.Knows ids a (macString mac) delivery.unaware.packets.length := by
  obtain ⟨gdt, ret, returned, -, awareEq, -, learned⟩ :=
    Group.step_learn inv small delivery.learn_step
  obtain ⟨br, success⟩ := delivery.learn_returns
  obtain ⟨-, rfl⟩ := Prod.mk.inj (Option.some.inj (returned.symm.trans success))
  obtain ⟨array, arrayEq, covers⟩ := learned.covers rfl
  refine ⟨⟨array, inv.localId a ▸ arrayEq, covers⟩, fun k packet young found => ?_⟩
  rw [awareEq, Group.set_packets, List.getElem?_eq_none young] at found
  cases found

theorem Delivery.packet_sent (delivery : Delivery start a b mac final)
    (inv : delivery.ready.Inv ids)
    (knows : delivery.ready.Knows ids a (macString mac) delivery.unaware.packets.length) :
    ∃ packet, delivery.sent.packets[delivery.ready.packets.length]? = some packet ∧
      packet.bf.bfId = ids a ∧ Covers packet.bf.array (macString mac) := by
  obtain ⟨array, arrayEq, covers⟩ := knows.filter
  obtain ⟨-, -, ⟨missing, -⟩ | ⟨packet, appended, -, -, idEq, localArray⟩⟩ :=
    Group.step_send inv delivery.send_step
  · rw [missing] at arrayEq
    cases arrayEq
  · obtain rfl := Option.some.inj (localArray.symm.trans arrayEq)
    exact ⟨packet, by rw [appended]; simp, idEq, covers⟩

theorem Delivery.covered_received (delivery : Delivery start a b mac final)
    (inv : delivery.arriving.Inv ids) (small : n ≤ bfGdtMaxFilters)
    (distinct : Function.Injective ids) (other : b ≠ a) {packet : Packet}
    (found : delivery.arriving.packets[delivery.ready.packets.length]? = some packet)
    (fromA : packet.bf.bfId = ids a) (covers : Covers packet.bf.array s)
    (upToDate : (delivery.arriving.members b).switch.daemonArray packet.bf.bfId =
        some packet.bf.array →
      (delivery.arriving.members b).switch.kernelArray packet.bf.bfId = some packet.bf.array) :
    delivery.received.Covered ids a b s := by
  obtain ⟨arrived, gdt, dp, arrivedFound, -, -, -, effect⟩ :=
    Group.step_recv inv small delivery.recv_step
  obtain rfl := Option.some.inj (found.symm.trans arrivedFound)
  rcases effect with ⟨own, -⟩ | ⟨-, received⟩
  · exact absurd (distinct (fromA.symm.trans own)) (Ne.symm other)
  · refine ⟨packet.bf.array, ?_, covers⟩
    rw [← fromA]
    by_cases unchanged : (delivery.arriving.members b).switch.daemonArray packet.bf.bfId =
        some packet.bf.array
    · exact (received.unchanged unchanged).trans (upToDate unchanged)
    · exact received.delivered unchanged ⟨delivery.heap, rfl⟩

theorem Group.Covered.exec (covered : group.Covered ids a b s) (knows : group.Knows ids a s since)
    (inv : group.Inv ids) (small : n ≤ bfGdtMaxFilters) (distinct : Function.Injective ids)
    {events : List (GroupEvent n)}
    (fresh : Run.Along Group.step (NotStale (ids a) b since) group events)
    (run : Run.exec Group.step group events = some next) : next.Covered ids a b s := by
  have all : next.Inv ids ∧ next.Knows ids a s since ∧ next.Covered ids a b s :=
    Run.exec_invariant
      (fun state => state.Inv ids ∧ state.Knows ids a s since ∧ state.Covered ids a b s)
      (fun kept fresh taken => ⟨kept.1.step small taken, kept.2.1.step kept.1 small distinct taken,
        kept.2.2.step kept.2.1 kept.1 small fresh taken⟩)
      ⟨inv, knows, covered⟩ fresh run
  exact all.2.2

theorem Group.Covered.reports (covered : group.Covered ids a b (macString mac))
    (inv : group.Inv ids) : group.Reports b mac := by
  obtain ⟨array, arrayEq, covers⟩ := covered
  obtain ⟨daemon, kernel, holds, -, kernelStd, -⟩ := inv.inGroup b
  obtain ⟨gdt, gdtEq, kernelHolds⟩ := holds.kernel_holds
  rw [holds.kernelArray_eq] at arrayEq
  obtain ⟨slot, returned⟩ := bfGdtCheck_of_covers kernelHolds kernelStd arrayEq covers
  exact ⟨gdt, slot, gdtEq, returned⟩

theorem Group.Starts.inStep (starts : start.Starts) (other : b ≠ a) :
    start.InStep (fun i => (start.members i).switch.br.localId) a b := by
  intro array found
  have differs : (start.members a).switch.br.localId ≠ (start.members b).switch.br.localId :=
    fun equal => other (starts.distinct equal).symm
  have missing := ((starts.starts b).inGroup
    (fun i => (start.members i).switch.br.localId) (Set.mem_range_self b)).2 _ differs
  rw [missing] at found
  cases found

/-- If switch `a` learned an address, later sent a datagram and switch `b` later received it and
brought its datapath up to date, then the datapath of `b` reports the address from then on, whatever
follows, as long as `b` receives no datagram that `a` had sent before it learned the address. -/
theorem Delivery.reports_of_notStale (starts : start.Starts) (other : b ≠ a)
    (delivery : Delivery start a b mac final) (updates : delivery.Updates)
    (fresh : Run.Along Group.step
      (NotStale (start.members a).switch.br.localId b delivery.unaware.packets.length)
      delivery.received delivery.later) :
    final.Reports b mac := by
  have small := starts.small
  have distinct := starts.distinct
  set ids : Fin n → BitVec 32 := fun i => (start.members i).switch.br.localId with idsDef
  have inv : start.Inv ids := starts.inv
  have unawareInv := inv.exec small delivery.earlier_run
  have awareInv := unawareInv.step small delivery.learn_step
  have readyInv := awareInv.exec small delivery.waiting_run
  have sentInv := readyInv.step small delivery.send_step
  have arrivingInv := sentInv.exec small delivery.travelling_run
  have receivedInv := arrivingInv.step small delivery.recv_step
  have readyKnows := (delivery.knows_aware unawareInv small).exec awareInv small distinct
    delivery.waiting_run
  have arrivingKnows := (readyKnows.step readyInv small distinct delivery.send_step).exec sentInv
    small distinct delivery.travelling_run
  obtain ⟨packet, sentFound, fromA, covers⟩ := delivery.packet_sent readyInv readyKnows
  have found := Group.packet_exec sentInv small distinct sentFound delivery.travelling_run
  have covered : delivery.received.Covered ids a b (macString mac) := by
    refine delivery.covered_received arrivingInv small distinct other found fromA covers
      fun unchanged => ?_
    rcases updates with changes | delivers
    · exact absurd unchanged (changes packet found)
    · have both : delivery.arriving.Inv ids ∧ delivery.arriving.InStep ids a b :=
        Run.exec_invariant (fun state => state.Inv ids ∧ state.InStep ids a b)
          (fun kept delivers taken => ⟨kept.1.step small taken,
            kept.2.step kept.1 small distinct other delivers taken⟩)
          ⟨inv, starts.inStep other⟩ delivers delivery.before_run
      rw [fromA] at unchanged ⊢
      exact both.2 _ unchanged
  have receivedKnows := arrivingKnows.step arrivingInv small distinct delivery.recv_step
  exact (covered.exec receivedKnows receivedInv small distinct fresh delivery.later_run).reports
    (receivedInv.exec small delivery.later_run)

end Run

def freshMember (localId : BitVec 32) : Member where
  switch := freshSwitch localId 0
  gidFile := none
  sendGid := none

def freshPair : Group 2 where
  members := fun i => freshMember (if i = 0 then 1 else 2)
  packets := []

theorem freshMember_starts (localId : BitVec 32) : (freshMember localId).Starts := by
  refine ⟨rfl, some fun _ => 0, some fun _ => 0, 0, ?_, ?_⟩
  · simp [freshMember, bridgeLcInit, freshSwitch, bfGdtAddFilter_freshGdt, lcGroupDftId]
  · simp [freshMember, ovsDpCmdNew, freshSwitch, bfGdtAddFilter_freshGdt]

theorem freshPair_starts : freshPair.Starts := by
  refine ⟨by decide, ?_, fun i => freshMember_starts _, rfl⟩
  have differ : ∀ i j : Fin 2, (if i = 0 then 1 else 2 : BitVec 32) = (if j = 0 then 1 else 2) →
      i = j := by decide
  exact fun i j equal => differ i j equal

/-- The address `01:01:01:01:01:01`. -/
def sampleMac : Fin 6 → Byte := fun _ => 1

theorem reports_freshPair :
    ∃ final, ∃ delivery : Delivery freshPair 0 1 sampleMac final,
      delivery.Updates ∧ final.Reports 1 sampleMac := by
  obtain ⟨final, delivery, updates, fresh⟩ :
      ∃ final, ∃ delivery : Delivery freshPair 0 1 sampleMac final, delivery.Updates ∧
        Run.Along Group.step
          (NotStale (freshPair.members 0).switch.br.localId 1 delivery.unaware.packets.length)
          delivery.received delivery.later := by
    refine ⟨_, {
      earlier := [.start 0], unaware := _, aware := _, learnAlloc := none, waiting := [],
      ready := _, sent := _, travelling := [], arriving := _, received := _,
      recvAlloc := some fun _ => 0, heap := fun _ => 0, later := [],
      earlier_run := rfl, learn_step := rfl, learn_returns := ⟨_, rfl⟩, waiting_run := rfl,
      send_step := rfl, travelling_run := rfl, recv_step := rfl, later_run := rfl }, ?_, trivial⟩
    refine Or.inl fun packet found unchanged => ?_
    obtain rfl := Option.some.inj found
    cases unchanged
  exact ⟨final, delivery, updates,
    delivery.reports_of_notStale freshPair_starts (by decide) updates fresh⟩

/-- The second member receives the datagram that the first one sent after it had learned the address,
and then the one that it had sent before: its datapath does not report the address any more. -/
theorem not_reports_after_stale :
    freshPair.Starts ∧
      ∃ final, ∃ delivery : Delivery freshPair 0 1 sampleMac final,
        delivery.Updates ∧ ¬ final.Reports 1 sampleMac := by
  refine ⟨freshPair_starts, _, {
    earlier := [.start 0, .send 0], unaware := _, aware := _, learnAlloc := none, waiting := [],
    ready := _, sent := _, travelling := [], arriving := _, received := _,
    recvAlloc := some fun _ => 0, heap := fun _ => 0,
    later := [.recv 1 0 (some fun _ => 0) (.delivered (some fun _ => 0))],
    earlier_run := rfl, learn_step := rfl, learn_returns := ⟨_, rfl⟩, waiting_run := rfl,
    send_step := rfl, travelling_run := rfl, recv_step := rfl, later_run := rfl }, ?_, ?_⟩
  · refine Or.inl fun packet found unchanged => ?_
    obtain rfl := Option.some.inj found
    cases unchanged
  · rintro ⟨gdt, slot, gdtEq, check⟩
    obtain rfl := Option.some.inj gdtEq
    cases check
end LazyCtrl
