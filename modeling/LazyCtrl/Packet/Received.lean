import LazyCtrl.Packet.FlowTable
import LazyCtrl.Mcast.Bridge

/-!
# Reception of a packet

`ovs_vport_receive` of `datapath/vport.c` and `ovs_dp_process_received_packet` of
`datapath/datapath.c`.  A packet of another edge switch is decapsulated first.  A packet that no flow
matches goes to the daemon, except that a local packet for a host in the group table is sent to the
host's switch by a `REMOTE` action made on the spot.  Memory for that action is always available.
-/

namespace LazyCtrl
namespace Packet

open Bytes

inductive Verdict where
  | dropped
  | upcall (key : SwFlowKey) (skb : Skb)
  | execute (skb : Skb) (actions : List DpAction)

def macBytes (mac : BitVec 48) : Fin 6 → Byte := fun i => u8 (put48 mac) i

def checkFilter (gdt : Option BfGdt) (s : List Byte) : Option (Option BloomFilter) :=
  match gdt with
  | none => some none
  | some gdt => do
      match ← bfGdtCheck gdt s with
      | none => some none
      | some i => (gdt.slot i).map some

def remotePayload (bf : BloomFilter) : BitVec 64 :=
  (bf.portNo.setWidth 64 <<< 32) + bf.bfId.setWidth 64

/-- The filter of another switch that a packet without a flow is looked up in.  Neither packets of
other switches nor ARP packets are looked up. -/
def missFilter (dp : Datapath) (encaped : Bool) (key : SwFlowKey) : Option (Option BloomFilter) :=
  if encaped = false ∧ key.type ≠ ethPArp then
    checkFilter dp.gdt (macString (macBytes key.ethDst))
  else
    some none

def Extraction.apply (extraction : Extraction) (skb : Skb) : Skb :=
  { skb with
    macHeader := 0
    networkHeader := extraction.networkHeader
    transportHeader := (extraction.transportHeader.map Int.ofNat).getD skb.transportHeader }

def Extraction.missVerdict (extraction : Extraction) (skb : Skb) : Option BloomFilter → Verdict
  | some bf => .execute (extraction.apply skb) [.remote (remotePayload bf)]
  | none => .upcall extraction.key (extraction.apply skb)

def decapulateReceived (encaped : Bool) (skb : Skb) : Option (Option Skb) :=
  if encaped then
    (remoteDecapulation skb).map fun result => if result.2 < 0 then none else some result.1
  else
    some (some skb)

section Process

variable (jhash2 : List Byte → BitVec 32) (jhash1word : BitVec 32 → BitVec 32 → BitVec 32)
  (dp : Datapath) (table : FlowTable (List DpAction)) (portNo : BitVec 16)

def processExtracted (encaped : Bool) (skb : Skb) (extraction : Extraction) : Option Verdict :=
  match table.ovsFlowTblLookup jhash2 jhash1word extraction.key extraction.keyLen with
  | some flow => some (.execute (extraction.apply skb) flow.sfActs)
  | none => (missFilter dp encaped extraction.key).map (extraction.missVerdict skb)

def ovsDpProcessReceivedPacket (encaped : Bool) (skb : Skb) : Option Verdict := do
  match ← decapulateReceived encaped skb with
  | none => some .dropped
  | some skb =>
    match ovsFlowExtract skb.data skb.priority skb.tunId portNo with
    | none => some .dropped
    | some extraction =>
      processExtracted jhash2 jhash1word dp table encaped skb extraction

def ovsVportReceive (skb : Skb) : Option Verdict := do
  let encaped ← ovsVportReceiveEncaped skb
  ovsDpProcessReceivedPacket jhash2 jhash1word dp table portNo encaped { skb with tunId := 0 }

end Process

theorem checkFilter_of_holds {gdt : BfGdt} {filters : List BloomFilter} (holds : gdt.Holds filters)
    (valid : ∀ bf ∈ filters, bf.Valid) (s : List Byte) :
    ∃ found, checkFilter (some gdt) s = some found ∧
      (found ≠ none ↔ ∃ bf ∈ filters, Bloom.Reports bf.probes bf.bits s) ∧
        ∀ bf, found = some bf → bf ∈ filters ∧ Bloom.Reports bf.probes bf.bits s := by
  obtain ⟨result, returned, meaning⟩ := bfGdtCheck_of_holds holds valid s
  cases result with
  | none => exact ⟨none, by simp [checkFilter, returned], by simpa using meaning, by simp⟩
  | some i =>
    obtain ⟨bf, member, slot, reports⟩ := reports_of_bfGdtCheck holds valid returned
    refine ⟨some bf, by simp [checkFilter, returned, slot], ?_, fun other same => ?_⟩
    · exact iff_of_true (Option.some_ne_none bf) ⟨bf, member, reports⟩
    · obtain rfl := Option.some.inj same
      exact ⟨member, reports⟩

theorem ovsVportReceive_of_plain {jhash2 : List Byte → BitVec 32}
    {jhash1word : BitVec 32 → BitVec 32 → BitVec 32} {dp : Datapath}
    {table : FlowTable (List DpAction)} {portNo : BitVec 16} {skb : Skb}
    (plain : ovsVportReceiveEncaped skb = some false) :
    ovsVportReceive jhash2 jhash1word dp table portNo skb =
      match ovsFlowExtract skb.data skb.priority 0 portNo with
      | none => some .dropped
      | some extraction =>
        processExtracted jhash2 jhash1word dp table false { skb with tunId := 0 } extraction := by
  rw [ovsVportReceive, plain]
  rfl

theorem remotePort_remotePayload (bf : BloomFilter) :
    remotePort (remotePayload bf) = bf.portNo.setWidth 32 := by
  apply BitVec.eq_of_toNat_eq
  have port := bf.portNo.isLt
  have id := bf.bfId.isLt
  simp only [remotePort, remotePayload, BitVec.extractLsb'_toNat, BitVec.toNat_add,
    BitVec.toNat_shiftLeft, BitVec.toNat_setWidth, Nat.shiftLeft_eq, Nat.shiftRight_eq_div_pow]
  omega

theorem remoteIp_remotePayload (bf : BloomFilter) : remoteIp (remotePayload bf) = bf.bfId := by
  apply BitVec.eq_of_toNat_eq
  have port := bf.portNo.isLt
  have id := bf.bfId.isLt
  simp only [remoteIp, remotePayload, BitVec.extractLsb'_toNat, BitVec.toNat_add,
    BitVec.toNat_shiftLeft, BitVec.toNat_setWidth, Nat.shiftLeft_eq, Nat.shiftRight_eq_div_pow]
  omega

end Packet
end LazyCtrl
