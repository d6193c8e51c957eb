import LazyCtrl.Datapath.Actions
import LazyCtrl.Packet.Extracted

/-!
# The flow table of the datapath

`ovs_flow_hash`, `ovs_flow_tbl_insert` and `ovs_flow_tbl_lookup` of `datapath/flow.c`.  A flow is put
into a bucket by the hash of the first bytes of its key, and found by comparing these bytes.  The
hash functions are those of the kernel and stay arguments here.

A flow that is installed with the attributes of an upcall is found by the next packet of the same
content when the key and the length survive the way through the attributes, and this fails for some
frames.
-/

namespace LazyCtrl
namespace Packet

open Bytes Netlink

def SwFlowKey.unionBytes (key : SwFlowKey) : List Byte :=
  if key.type = ethPIpv6 then
    put128 key.ipv6.src ++ put128 key.ipv6.dst ++ put32 key.ipv6.label ++
      put16 key.ipv6.tpSrc ++ put16 key.ipv6.tpDst ++
      put128 key.ipv6.ndTarget ++ put48 key.ipv6.ndSll ++ put48 key.ipv6.ndTll
  else if key.type = ethPArp then
    put32 key.ipv4.src ++ put32 key.ipv4.dst ++ put48 key.ipv4.arpSha ++ put48 key.ipv4.arpTha ++
      zeros 48
  else
    put32 key.ipv4.src ++ put32 key.ipv4.dst ++ put16 key.ipv4.tpSrc ++ put16 key.ipv4.tpDst ++
      zeros 56

def SwFlowKey.bytes (key : SwFlowKey) : List Byte :=
  put64 key.tunId ++ putLe32 key.priority ++ putLe16 key.inPort ++ zeros 2 ++
    put48 key.ethSrc ++ put48 key.ethDst ++ put16 key.tci ++ put16 key.type ++
    [key.ip.proto, key.ip.tos, key.ip.ttl, key.ip.frag] ++ key.unionBytes

def SwFlowKey.bytesTo (key : SwFlowKey) (keyLen : KeyMember) : List Byte :=
  key.bytes.take keyLen.offset

structure SwFlow (Acts : Type) where
  hash : BitVec 32
  key : SwFlowKey
  sfActs : Acts

/-- `struct flow_table`.  The number of buckets is a power of two. -/
structure FlowTable (Acts : Type) where
  buckets : List (List (SwFlow Acts))
  hashSeed : BitVec 32
  sized : ∃ bits, buckets.length = 2 ^ bits

namespace FlowTable

variable {Acts : Type} (jhash2 : List Byte → BitVec 32) (jhash1word : BitVec 32 → BitVec 32 → BitVec 32)

def ovsFlowHash (key : SwFlowKey) (keyLen : KeyMember) : BitVec 32 := jhash2 (key.bytesTo keyLen)

def findBucket (table : FlowTable Acts) (hash : BitVec 32) : Nat :=
  (jhash1word hash table.hashSeed).toNat &&& (table.buckets.length - 1)

def ovsFlowTblLookup (table : FlowTable Acts) (key : SwFlowKey) (keyLen : KeyMember) :
    Option (SwFlow Acts) :=
  let hash := ovsFlowHash jhash2 key keyLen
  (table.buckets.getD (table.findBucket jhash1word hash) []).find? fun flow =>
    flow.hash = hash ∧ flow.key.bytesTo keyLen = key.bytesTo keyLen

def ovsFlowTblInsert (table : FlowTable Acts) (flow : SwFlow Acts) : FlowTable Acts :=
  { table with
    buckets := table.buckets.modify (table.findBucket jhash1word flow.hash) (flow :: ·)
    sized := by simpa using table.sized }

theorem findBucket_lt (table : FlowTable Acts) (hash : BitVec 32) :
    table.findBucket jhash1word hash < table.buckets.length := by
  obtain ⟨bits, size⟩ := table.sized
  have positive : 0 < 2 ^ bits := Nat.two_pow_pos bits
  have below : table.findBucket jhash1word hash ≤ table.buckets.length - 1 := Nat.and_le_right
  omega

theorem lookup_insert (table : FlowTable Acts) (key : SwFlowKey) (keyLen : KeyMember) (acts : Acts) :
    (table.ovsFlowTblInsert jhash1word ⟨ovsFlowHash jhash2 key keyLen, key, acts⟩).ovsFlowTblLookup
        jhash2 jhash1word key keyLen =
      some ⟨ovsFlowHash jhash2 key keyLen, key, acts⟩ := by
  have inside := table.findBucket_lt jhash1word (ovsFlowHash jhash2 key keyLen)
  have same : (table.ovsFlowTblInsert jhash1word
      ⟨ovsFlowHash jhash2 key keyLen, key, acts⟩).findBucket jhash1word
        (ovsFlowHash jhash2 key keyLen) =
      table.findBucket jhash1word (ovsFlowHash jhash2 key keyLen) := by
    simp [findBucket, ovsFlowTblInsert]
  rw [ovsFlowTblLookup, same]
  simp [ovsFlowTblInsert, List.getD_eq_getElem?_getD, inside]

def setActs (table : FlowTable Acts) (key : SwFlowKey) (keyLen : KeyMember) (acts : Acts) :
    FlowTable Acts :=
  let hash := ovsFlowHash jhash2 key keyLen
  { table with
    buckets := table.buckets.modify (table.findBucket jhash1word hash) fun bucket =>
      bucket.modify (bucket.findIdx fun flow =>
        flow.hash = hash ∧ flow.key.bytesTo keyLen = key.bytesTo keyLen)
        fun flow => { flow with sfActs := acts }
    sized := by simpa using table.sized }

/-- `ovs_flow_cmd_new_or_set` for a request that may create a flow or modify one.  `validate` are the
actions of an attribute that is valid for the key, if there is memory for them. -/
def ovsFlowCmdNew (validate : SwFlowKey → List Byte → Option Acts) (table : FlowTable Acts)
    (key actions : List Byte) : FlowTable Acts :=
  match ovsFlowFromNlattrs key with
  | none => table
  | some (key, keyLen) =>
    match validate key actions with
    | none => table
    | some acts =>
      match table.ovsFlowTblLookup jhash2 jhash1word key keyLen with
      | none =>
        table.ovsFlowTblInsert jhash1word ⟨ovsFlowHash jhash2 key keyLen, key, acts⟩
      | some _ => table.setActs jhash2 jhash1word key keyLen acts

def Has (table : FlowTable Acts) (flow : SwFlow Acts) : Prop := ∃ bucket ∈ table.buckets, flow ∈ bucket

theorem has_of_lookup {table : FlowTable Acts} {key : SwFlowKey} {keyLen : KeyMember}
    {flow : SwFlow Acts}
    (found : table.ovsFlowTblLookup jhash2 jhash1word key keyLen = some flow) :
    table.Has flow ∧ flow.key.bytesTo keyLen = key.bytesTo keyLen := by
  have inside := table.findBucket_lt jhash1word (ovsFlowHash jhash2 key keyLen)
  rw [ovsFlowTblLookup, List.getD_eq_getElem?_getD, List.getElem?_eq_getElem inside,
    Option.getD_some] at found
  have same : flow.hash = ovsFlowHash jhash2 key keyLen ∧
      flow.key.bytesTo keyLen = key.bytesTo keyLen := by simpa using List.find?_some found
  exact ⟨⟨_, List.getElem_mem inside, List.mem_of_find?_eq_some found⟩, same.2⟩

theorem mem_modify {α : Type} {xs : List α} {i : Nat} {change : α → α} {x : α}
    (member : x ∈ xs.modify i change) : x ∈ xs ∨ ∃ old ∈ xs, x = change old := by
  obtain ⟨j, found⟩ := List.mem_iff_getElem?.mp member
  rw [List.getElem?_modify] at found
  obtain ⟨old, present, rfl⟩ := Option.map_eq_some_iff.mp found
  split
  · exact .inr ⟨old, List.mem_of_getElem? present, rfl⟩
  · exact .inl (List.mem_of_getElem? present)

theorem has_of_ovsFlowCmdNew {validate : SwFlowKey → List Byte → Option Acts}
    {table : FlowTable Acts} {key actions : List Byte} {flow : SwFlow Acts}
    (has : (table.ovsFlowCmdNew jhash2 jhash1word validate key actions).Has flow) :
    (∃ old, table.Has old ∧ old.key = flow.key) ∨
      ∃ keyLen, ovsFlowFromNlattrs key = some (flow.key, keyLen) := by
  rw [ovsFlowCmdNew] at has
  split at has
  · exact .inl ⟨flow, has, rfl⟩
  rename_i swKey keyLen parsed
  split at has
  · exact .inl ⟨flow, has, rfl⟩
  obtain ⟨bucket, listed, member⟩ : FlowTable.Has _ flow := has
  split at listed
  · rcases mem_modify listed with before | ⟨old, before, rfl⟩
    · exact .inl ⟨flow, ⟨bucket, before, member⟩, rfl⟩
    · rcases List.mem_cons.mp member with rfl | inOld
      · exact .inr ⟨keyLen, parsed⟩
      · exact .inl ⟨flow, ⟨old, before, inOld⟩, rfl⟩
  · rcases mem_modify listed with before | ⟨old, before, rfl⟩
    · exact .inl ⟨flow, ⟨bucket, before, member⟩, rfl⟩
    · rcases mem_modify member with inOld | ⟨changed, inOld, rfl⟩
      · exact .inl ⟨flow, ⟨old, before, inOld⟩, rfl⟩
      · exact .inl ⟨changed, ⟨old, before, inOld⟩, rfl⟩

end FlowTable

theorem SwFlowKey.link_of_bytesTo {key other : SwFlowKey} {keyLen : KeyMember}
    (same : key.bytesTo keyLen = other.bytesTo keyLen) :
    key.ethSrc = other.ethSrc ∧ key.type = other.type := by
  have long : 32 ≤ keyLen.offset := by cases keyLen <;> decide
  have front : key.bytes.take 32 = other.bytes.take 32 := by
    have shorter := congrArg (List.take 32) same
    rwa [SwFlowKey.bytesTo, SwFlowKey.bytesTo, List.take_take, List.take_take,
      Nat.min_eq_left long] at shorter
  have link (key : SwFlowKey) : key.bytes.take 32 = put64 key.tunId ++ (putLe32 key.priority ++
      (putLe16 key.inPort ++ (zeros 2 ++ (put48 key.ethSrc ++ (put48 key.ethDst ++
        (put16 key.tci ++ put16 key.type)))))) := by
    simp only [SwFlowKey.bytes, ← List.append_assoc]
    rw [List.append_assoc _ _ key.unionBytes]
    exact List.take_left' rfl
  have src (key : SwFlowKey) : be48 (key.bytes.take 32) 16 = key.ethSrc := by
    rw [link]
    simp [putLe32, putLe16, zeros]
  have type (key : SwFlowKey) : be16 (key.bytes.take 32) 30 = key.type := by
    rw [link]
    simp [putLe32, putLe16, zeros]
  rw [← src key, ← type key, front, src, type]
  exact ⟨rfl, rfl⟩

section Upcall

variable (frame : List Byte) (priority : BitVec 32) (tunId : BitVec 64) (inPort : BitVec 16)

/-- The attributes of an upcall stand for the key and the length of the packet, and the flow that is
put into a table with them is found by a packet of the same content. -/
def FoundAgain : Prop :=
  ∃ extraction ∈ ovsFlowExtract frame priority tunId inPort,
    ovsFlowFromNlattrs (ovsFlowToNlattrs extraction.key) =
        some (extraction.key, extraction.keyLen) ∧
      ∀ installed ∈ ovsFlowFromNlattrs (ovsFlowToNlattrs extraction.key),
        ∀ (Acts : Type) (jhash2 : List Byte → BitVec 32)
          (jhash1word : BitVec 32 → BitVec 32 → BitVec 32) (table : FlowTable Acts) (acts : Acts),
          let flow : SwFlow Acts :=
            ⟨FlowTable.ovsFlowHash jhash2 installed.1 installed.2, installed.1, acts⟩
          (table.ovsFlowTblInsert jhash1word flow).ovsFlowTblLookup jhash2 jhash1word
              extraction.key extraction.keyLen =
            some flow

/-- The frame type is not a length, an ARP packet is a request or a reply, and a neighbour
solicitation or advertisement has code 0. -/
def SuitsAttributes : Prop :=
  (HasSnap frame →
      be16 frame (typeOffset frame + 8) = ethP8022 ∨
        1536 ≤ (be16 frame (typeOffset frame + 8)).toNat) ∧
    ShowsLength frame

variable {frame priority tunId inPort}

theorem ovsFlowFromNlattrs_extracted {extraction : Extraction}
    (extracted : Extracted frame extraction) :
    ovsFlowFromNlattrs (ovsFlowToNlattrs extraction.key) =
        some (extraction.key, extraction.keyLen) ↔
      SuitsAttributes frame := by
  rw [ovsFlowFromNlattrs_ovsFlowToNlattrs extracted.clean, SuitsAttributes,
    ← typeOk_iff frame extracted.type, ← extracted.len]
  by_cases known : extraction.key.TypeOk
  · simp only [known, if_true, Option.some.injEq, Prod.mk.injEq, true_and]
    exact eq_comm
  · simp only [known, if_false, reduceCtorEq, false_and]

theorem frameType_ne_zero (suits : SuitsAttributes frame) : frameType frame ≠ 0 := by
  intro zero
  have known : SwFlowKey.TypeOk { type := 0 } := (typeOk_iff frame zero.symm).mpr suits.1
  exact absurd known (by decide)

theorem suitsAttributes_of_foundAgain (port : inPort.toNat < dpMaxPorts)
    (found : FoundAgain frame priority tunId inPort) : SuitsAttributes frame := by
  obtain ⟨extraction, extract, accepted, -⟩ := found
  exact (ovsFlowFromNlattrs_extracted (extracted_of_ovsFlowExtract port extract)).mp accepted

/-- The flow of an upcall is hit by the packet that it was installed for exactly when the frame suits
the attributes. -/
theorem foundAgain_iff_suitsAttributes (port : inPort.toNat < dpMaxPorts) :
    FoundAgain frame priority tunId inPort ↔ SuitsAttributes frame := by
  refine ⟨suitsAttributes_of_foundAgain port, fun suits => ?_⟩
  cases extract : ovsFlowExtract frame priority tunId inPort with
  | none => exact absurd ((ovsFlowExtract_eq_none_iff ..).mp extract) (frameType_ne_zero suits)
  | some extraction =>
    have accepted :=
      (ovsFlowFromNlattrs_extracted (extracted_of_ovsFlowExtract port extract)).mpr suits
    refine ⟨extraction, extract, accepted, fun installed listed => ?_⟩
    obtain rfl : (extraction.key, extraction.keyLen) = installed :=
      Option.some.inj (accepted.symm.trans listed)
    exact fun Acts jhash2 jhash1word table acts =>
      table.lookup_insert jhash2 jhash1word extraction.key extraction.keyLen acts

end Upcall

def arpFrame (op : BitVec 16) : List Byte :=
  put48 0xffffffffffff ++ put48 0x020000000001 ++ put16 ethPArp ++
    put16 1 ++ put16 ethPIp ++ [6, 4] ++ put16 op ++
    put48 0x020000000001 ++ put32 0x0a000001 ++ put48 0 ++ put32 0x0a000002

theorem foundAgain_arpRequest : FoundAgain (arpFrame 1) 0 0 1 := by
  refine (foundAgain_iff_suitsAttributes (by decide)).mpr ⟨fun snap => ?_, fun _ => ?_, ?_⟩
  · exact absurd snap.1 (by decide)
  · exact ⟨by decide, by decide, .inl (by decide)⟩
  · exact fun isIpv6 => absurd isIpv6 (by decide)

/-- The flow of a reverse ARP request is not found again: its key ends with the addresses, and the
one made of its attributes with the ARP members. -/
theorem not_foundAgain_rarpRequest : ¬ FoundAgain (arpFrame 3) 0 0 1 := by
  intro found
  have suits := suitsAttributes_of_foundAgain (by decide) found
  have regular := (suits.2.1 (by decide)).2.2
  exact absurd regular (by decide)

end Packet
end LazyCtrl
