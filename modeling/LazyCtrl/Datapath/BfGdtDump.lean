import LazyCtrl.Datapath.BfGdtCmd

/-!
# Dumping the datapath's table

`ovs_bf_gdt_cmd_dump` and the calls that netlink makes of it.  Netlink hands it one reply buffer
after the other, keeps the arguments of the callback between the calls, and stops at the first call
that leaves its buffer empty.

The first argument is read as a bound on the number of filters, and neither argument is ever
written.  So a dump never resumes: with the arguments that netlink starts with, which are zero, it
ends at once, and with a bound it would begin at the first filter in every call.
-/

namespace LazyCtrl

/-- A message of a dump: the id of the filter, and the filter unless there was no room for it. -/
structure DumpMsg where
  bfId : BitVec 32
  bf : Option BloomFilter
  deriving DecidableEq

structure DumpSkb where
  size : Nat
  len : Nat
  msgs : List DumpMsg

def DumpSkb.alloc (size : Nat) : DumpSkb := { size, len := 0, msgs := [] }

def dumpHdrLen : Nat := 16 + 4 + 4

def attrKeyLen : Nat := 8

def attrBfLen : Nat := 4 + sizeofBloomFilter

def dumpMsgLen : Nat := dumpHdrLen + attrKeyLen + attrBfLen

/-- `ovs_bf_gdt_cmd_fill_info`, with whether it returned a length and not `-EMSGSIZE`.  In an empty
buffer a filter that does not fit is left out of its message; otherwise the message is taken
back. -/
def ovsBfGdtCmdFillInfo (bf : BloomFilter) (skb : DumpSkb) : DumpSkb × Bool :=
  if skb.size < skb.len + dumpHdrLen then (skb, false)
  else if skb.size < skb.len + dumpHdrLen + attrKeyLen then (skb, false)
  else if skb.size < skb.len + dumpMsgLen then
    if skb.len ≠ 0 then (skb, false)
    else
      ({ skb with len := dumpHdrLen + attrKeyLen, msgs := skb.msgs ++ [⟨bf.bfId, none⟩] }, true)
  else
    ({ skb with len := skb.len + dumpMsgLen, msgs := skb.msgs ++ [⟨bf.bfId, some bf⟩] }, true)

structure DumpArgs where
  bucket : BitVec 64
  last : BitVec 64
  deriving DecidableEq

def DumpArgs.zero : DumpArgs := ⟨0, 0⟩

def dumpSlots (bucket nbf : Nat) : Nat → List (Option BloomFilter) → DumpSkb → Option DumpSkb
  | i, [], skb => if i < bucket ∧ i < nbf then none else some skb
  | i, slot :: slots, skb =>
    if i < bucket ∧ i < nbf then
      match slot with
      | none => some skb
      | some bf =>
        match ovsBfGdtCmdFillInfo bf skb with
        | (skb, true) => dumpSlots bucket nbf (i + 1) slots skb
        | (skb, false) => some skb
    else
      some skb

def ovsBfGdtCmdDump (dp : Option Datapath) (args : DumpArgs) (skb : DumpSkb) :
    Option (DumpSkb × DumpArgs × Int) :=
  match dp with
  | none => some (skb, args, -enodev)
  | some dp => do
      let bucket := (args.bucket.setWidth 32).toNat
      let skb ← match dp.gdt with
        | none => if 0 < bucket then none else some skb
        | some gdt => dumpSlots bucket gdt.nbf 0 gdt.bfArray skb
      some (skb, args, skb.len)

/-- The next calls of a dump, into buffers of the given sizes: the messages of all calls, and
whether the dump has ended. -/
def netlinkDump (dp : Option Datapath) : List Nat → DumpArgs → Option (List DumpMsg × Bool)
  | [], _ => some ([], false)
  | size :: sizes, args => do
      let (skb, args, len) ← ovsBfGdtCmdDump dp args (.alloc size)
      if len ≤ 0 then some ([], true)
      else
        let (msgs, ended) ← netlinkDump dp sizes args
        some (skb.msgs ++ msgs, ended)

def Datapath.Filters (dp : Datapath) (filters : List BloomFilter) : Prop :=
  match dp.gdt with
  | none => filters = []
  | some gdt => gdt.Holds filters

/-- A dump into buffers of the given sizes ends, and reports every filter of the table once. -/
def DumpComplete (dp : Datapath) (args : DumpArgs) (sizes : Nat → Nat) : Prop :=
  ∃ filters, dp.Filters filters ∧ ∃ calls msgs,
    netlinkDump (some dp) ((List.range calls).map sizes) args = some (msgs, true) ∧
      msgs.Perm (filters.map fun bf => ⟨bf.bfId, some bf⟩)

theorem dump_zero (dp : Datapath) (skb : DumpSkb) :
    ovsBfGdtCmdDump (some dp) .zero skb = some (skb, DumpArgs.zero, (skb.len : Int)) := by
  have loop : ∀ nbf slots, dumpSlots 0 nbf 0 slots skb = some skb := by
    intro nbf slots
    cases slots <;> simp [dumpSlots]
  cases table : dp.gdt with
  | none => simp [ovsBfGdtCmdDump, table, DumpArgs.zero]
  | some gdt => simp [ovsBfGdtCmdDump, table, DumpArgs.zero, loop]

theorem netlinkDump_zero (dp : Datapath) (size : Nat) (sizes : List Nat) :
    netlinkDump (some dp) (size :: sizes) .zero = some ([], true) := by
  rw [netlinkDump, dump_zero]
  rfl

theorem filters_nil_of_dumpComplete {dp : Datapath} {sizes : Nat → Nat}
    (complete : DumpComplete dp .zero sizes) : dp.Filters [] := by
  obtain ⟨filters, holds, calls, msgs, ended, reported⟩ := complete
  cases calls with
  | zero => cases ended
  | succ calls =>
    rw [List.range_succ_eq_map, List.map_cons, netlinkDump_zero] at ended
    obtain ⟨rfl, -⟩ := Prod.mk.inj (Option.some.inj ended)
    rwa [List.map_eq_nil_iff.mp (List.nil_perm.mp reported)] at holds

/-- A dump as netlink makes it is complete exactly for an empty table, whatever the sizes of the
buffers. -/
theorem dumpComplete_iff (dp : Datapath) (sizes : Nat → Nat) :
    DumpComplete dp .zero sizes ↔ dp.Filters [] :=
  ⟨filters_nil_of_dumpComplete,
    fun empty => ⟨[], empty, 1, [], netlinkDump_zero dp (sizes 0) [], List.Perm.nil⟩⟩

/-- A new datapath has its local filter in the table, and a dump does not report it. -/
theorem not_dumpComplete_new :
    ∃ dp, ovsDpCmdNew lcBfLocalId (some fun _ => 0) 0 = some (some dp) ∧
      dp.Filters [.empty lcBfLocalId lcBfLocalPort] ∧
      netlinkDump (some dp) [4096, 4096] .zero = some ([], true) ∧
      ¬ DumpComplete dp .zero fun _ => 4096 := by
  refine ⟨_, rfl, ?_, netlinkDump_zero _ _ _, fun complete => ?_⟩
  · obtain ⟨gdt, same, holds⟩ := @ovsDpCmdNew_holds lcBfLocalId (some fun _ => 0) 0 _ rfl
    rw [same]
    exact holds
  · have count : 1 = 0 := (filters_nil_of_dumpComplete complete).nbf_eq
    cases count

end LazyCtrl
