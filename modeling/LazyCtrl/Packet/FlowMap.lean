import LazyCtrl.Packet.FlowTable

/-!
# The flow table as a map

Requests put flows into the table or change their actions, and a lookup compares only as many bytes
of a key as the length that it is given.  Still no flow is found in place of another one: the bytes
up to the end of a key show where it ends, so that keys of different lengths differ before that.
-/

namespace LazyCtrl
namespace Packet

open Bytes Netlink

section Keys

variable {key other : SwFlowKey}

theorem ipv4FlowFromNlattrs_len {proto : Byte} {ipv4 parsedIpv4 : KeyIpv4}
    {attrs rest : List Nlattr} {len : KeyMember}
    (parsed : ipv4FlowFromNlattrs proto ipv4 attrs = some (parsedIpv4, len, rest)) :
    len = if proto = ipprotoTcp ∨ proto = ipprotoUdp ∨ proto = ipprotoIcmp then .ipv4Tp
      else .ipv4Addr := by
  rw [ipv4FlowFromNlattrs] at parsed
  split_ifs at parsed with tcp udp icmp
  · obtain ⟨_, -, ⟨⟩⟩ := Option.map_eq_some_iff.mp parsed
    rw [if_pos (.inl tcp)]
  · obtain ⟨_, -, ⟨⟩⟩ := Option.map_eq_some_iff.mp parsed
    rw [if_pos (.inr (.inl udp))]
  · obtain ⟨_, -, ⟨⟩⟩ := Option.map_eq_some_iff.mp parsed
    rw [if_pos (.inr (.inr icmp))]
  · cases parsed
    rw [if_neg (by simp [tcp, udp, icmp])]

theorem ipv6FlowFromNlattrs_len {proto : Byte} {ipv6 parsedIpv6 : KeyIpv6}
    {attrs rest : List Nlattr} {len : KeyMember}
    (parsed : ipv6FlowFromNlattrs proto ipv6 attrs = some (parsedIpv6, len, rest)) :
    len = if proto = ipprotoIcmpv6 ∧ isNeighbour (parsedIpv6.tpSrc.setWidth 8) then .ipv6Nd
      else if proto = ipprotoTcp ∨ proto = ipprotoUdp ∨ proto = ipprotoIcmpv6 then .ipv6Tp
      else .ipv6Label := by
  rw [ipv6FlowFromNlattrs] at parsed
  split_ifs at parsed with tcp udp icmp
  · obtain ⟨_, -, ⟨⟩⟩ := Option.map_eq_some_iff.mp parsed
    simp [tcp, show ipprotoTcp ≠ ipprotoIcmpv6 by decide]
  · obtain ⟨_, -, ⟨⟩⟩ := Option.map_eq_some_iff.mp parsed
    simp [udp, show ipprotoUdp ≠ ipprotoIcmpv6 by decide]
  · obtain ⟨_, -, inner⟩ := Option.bind_eq_some_iff.mp parsed
    dsimp only at inner
    split_ifs at inner with neighbour
    · obtain ⟨_, -, ⟨⟩⟩ := Option.map_eq_some_iff.mp inner
      rw [setWidth_byte, if_pos ⟨icmp, neighbour⟩]
    · cases inner
      rw [setWidth_byte, if_neg fun all => neighbour all.2, if_pos (.inr (.inr icmp))]
  · cases parsed
    simp [tcp, udp, icmp]

theorem l3FromNlattrs_attrLen {attrs rest : List Nlattr} {len : KeyMember}
    (parsed : l3FromNlattrs key attrs = some (other, len, rest)) : len = other.attrLen := by
  rw [l3FromNlattrs] at parsed
  split_ifs at parsed with v4 v6 arp
  · obtain ⟨_, -, ipv4⟩ := Option.bind_eq_some_iff.mp parsed
    dsimp only at ipv4
    split_ifs at ipv4 with range later
    · obtain ⟨_, found, ⟨⟩⟩ := Option.map_eq_some_iff.mp ipv4
      rw [ipv4FlowFromNlattrs_len found, SwFlowKey.attrLen, if_pos v4, KeyIp.tpLen]
      simp only [later, ne_eq, not_false_eq_true, true_and]
    · cases ipv4
      rw [SwFlowKey.attrLen, if_pos v4, KeyIp.tpLen, if_neg fun all => later all.1]
  · obtain ⟨_, -, ipv6⟩ := Option.bind_eq_some_iff.mp parsed
    dsimp only at ipv6
    split_ifs at ipv6 with range later
    · obtain ⟨_, found, ⟨⟩⟩ := Option.map_eq_some_iff.mp ipv6
      rw [ipv6FlowFromNlattrs_len found, SwFlowKey.attrLen, if_neg v4, if_pos v6, ipv6AttrLen,
        KeyIp.tpLen]
      simp only [later, ne_eq, not_false_eq_true, true_and]
    · cases ipv6
      rw [SwFlowKey.attrLen, if_neg v4, if_pos v6, ipv6AttrLen, if_neg fun all => later all.1,
        KeyIp.tpLen, if_neg fun all => later all.1]
  · obtain ⟨_, -, last⟩ := Option.bind_eq_some_iff.mp parsed
    dsimp only at last
    split_ifs at last
    cases last
    rw [SwFlowKey.attrLen, if_neg v4, if_neg v6, if_pos arp]
  · cases parsed
    rw [SwFlowKey.attrLen, if_neg v4, if_neg v6, if_neg arp]

theorem typeFromNlattrs_attrLen {attrs : List Nlattr} {len : KeyMember}
    (parsed : typeFromNlattrs key attrs = some (other, len)) : len = other.attrLen := by
  simp only [typeFromNlattrs, Option.bind_eq_bind, Option.bind_eq_some_iff] at parsed
  obtain ⟨⟨type, behind⟩, -, ⟨parsedKey, parsedLen, rest⟩, inner, last⟩ := parsed
  split at last
  · cases last
  · cases last
    exact l3FromNlattrs_attrLen inner

theorem ovsFlowFromNlattrs_attrLen {bytes : List Byte} {len : KeyMember}
    (parsed : ovsFlowFromNlattrs bytes = some (key, len)) : len = key.attrLen := by
  simp only [ovsFlowFromNlattrs, Option.bind_eq_bind, Option.bind_eq_some_iff] at parsed
  obtain ⟨attrs, -, ⟨metadata, behind⟩, -, ⟨eth, rest⟩, -, encap⟩ := parsed
  rw [encapFromNlattrs] at encap
  split at encap
  · split at encap
    · split at encap
      · cases encap
      · simp only [Option.bind_eq_bind, Option.bind_eq_some_iff] at encap
        obtain ⟨inner, -, vlan, -, tagged⟩ := encap
        split at tagged
        · obtain ⟨attrs, -, last⟩ := Option.bind_eq_some_iff.mp tagged
          exact typeFromNlattrs_attrLen last
        · split at tagged
          · split at tagged
            · cases tagged
            · cases tagged
              rfl
          · cases tagged
    · exact typeFromNlattrs_attrLen encap
  · exact typeFromNlattrs_attrLen encap

theorem u8_bytes (key : SwFlowKey) :
    u8 key.bytes 32 = key.ip.proto ∧ u8 key.bytes 35 = key.ip.frag := by
  simp [SwFlowKey.bytes, putLe32, putLe16, zeros]

theorem be16_bytes (ipv6 : key.type = ethPIpv6) : be16 key.bytes 72 = key.ipv6.tpSrc := by
  simp [SwFlowKey.bytes, SwFlowKey.unionBytes, ipv6, putLe32, putLe16, zeros]

theorem SwFlowKey.attrLen_of_bytesTo (same : key.bytesTo key.attrLen = other.bytesTo key.attrLen) :
    other.attrLen = key.attrLen := by
  have type := (SwFlowKey.link_of_bytesTo same).2
  have u8_eq {i : Nat} (inside : i < key.attrLen.offset) : u8 key.bytes i = u8 other.bytes i := by
    rw [← u8_take key.bytes inside, ← u8_take other.bytes inside]
    exact congrArg (u8 · i) same
  have ip (long : 36 ≤ key.attrLen.offset) :
      key.ip.proto = other.ip.proto ∧ key.ip.frag = other.ip.frag := by
    rw [← (u8_bytes key).1, ← (u8_bytes key).2, ← (u8_bytes other).1, ← (u8_bytes other).2]
    exact ⟨u8_eq (by omega), u8_eq (by omega)⟩
  by_cases v4 : key.type = ethPIp
  · have len : key.attrLen = key.ip.tpLen ipprotoIcmp .ipv4Addr .ipv4Tp := if_pos v4
    obtain ⟨proto, frag⟩ := ip (by rw [len, KeyIp.tpLen]; split <;> decide)
    rw [len, SwFlowKey.attrLen, if_pos (type ▸ v4), KeyIp.tpLen, KeyIp.tpLen, proto, frag]
  by_cases v6 : key.type = ethPIpv6
  · have len : key.attrLen = ipv6AttrLen key.ip key.ipv6 := by
      rw [SwFlowKey.attrLen, if_neg v4, if_pos v6]
    obtain ⟨proto, frag⟩ := ip (by rw [len, ipv6AttrLen, KeyIp.tpLen]; split_ifs <;> decide)
    have tpSrc (icmp : key.ip.frag ≠ ovsFragTypeLater ∧ key.ip.proto = ipprotoIcmpv6) :
        key.ipv6.tpSrc = other.ipv6.tpSrc := by
      have long : 76 ≤ key.attrLen.offset := by
        rw [len, ipv6AttrLen, KeyIp.tpLen]
        simp only [icmp, ne_eq, not_false_eq_true, true_and, or_true, if_true]
        split <;> decide
      rw [← be16_bytes v6, ← be16_bytes (type ▸ v6), be16, be16, u8_eq (by omega), u8_eq (by omega)]
    rw [len, SwFlowKey.attrLen, if_neg (type ▸ v4), if_pos (type ▸ v6), ipv6AttrLen, ipv6AttrLen,
      KeyIp.tpLen, KeyIp.tpLen, ← proto, ← frag]
    by_cases icmp : key.ip.frag ≠ ovsFragTypeLater ∧ key.ip.proto = ipprotoIcmpv6
    · rw [tpSrc icmp]
    · have differs (tpSrc : Byte) : ¬(key.ip.frag ≠ ovsFragTypeLater ∧
          key.ip.proto = ipprotoIcmpv6 ∧ isNeighbour tpSrc) := fun all => icmp ⟨all.1, all.2.1⟩
      rw [if_neg (differs _), if_neg (differs _)]
  · rw [SwFlowKey.attrLen, SwFlowKey.attrLen, ← type, if_neg v4, if_neg v4, if_neg v6, if_neg v6]

end Keys

theorem find?_modify_findIdx {α : Type} {p : α → Bool} {change : α → α}
    (keeps : ∀ x, p (change x) = p x) (xs : List α) :
    (xs.modify (xs.findIdx p) change).find? p = (xs.find? p).map change := by
  induction xs with
  | nil => rfl
  | cons x xs ih =>
    rw [List.findIdx_cons]
    cases found : p x with
    | true => simp [keeps, found]
    | false => simpa [found] using ih

theorem find?_modify_of_disjoint {α : Type} {p q : α → Bool} {change : α → α}
    (keeps : ∀ x, q (change x) = q x) {xs : List α} (disjoint : ∀ x ∈ xs, p x → ¬q x) :
    (xs.modify (xs.findIdx p) change).find? q = xs.find? q := by
  induction xs with
  | nil => rfl
  | cons x xs ih =>
    obtain ⟨here, rest⟩ := List.forall_mem_cons.mp disjoint
    rw [List.findIdx_cons]
    cases found : p x with
    | true => simp [keeps, here found]
    | false => simpa [List.find?_cons] using by rw [ih rest]

namespace FlowTable

variable {Acts : Type} (jhash2 : List Byte → BitVec 32)
  (jhash1word : BitVec 32 → BitVec 32 → BitVec 32) (table : FlowTable Acts)

theorem ovsFlowTblLookup_modify (hash : BitVec 32)
    (change : List (SwFlow Acts) → List (SwFlow Acts)) (sized) (key : SwFlowKey)
    (keyLen : KeyMember) :
    ovsFlowTblLookup jhash2 jhash1word { table with
        buckets := table.buckets.modify (table.findBucket jhash1word hash) change
        sized } key keyLen =
      ((if table.findBucket jhash1word hash =
          table.findBucket jhash1word (ovsFlowHash jhash2 key keyLen) then change else id)
        (table.buckets.getD (table.findBucket jhash1word (ovsFlowHash jhash2 key keyLen)) [])).find?
          fun flow => flow.hash = ovsFlowHash jhash2 key keyLen ∧
            flow.key.bytesTo keyLen = key.bytesTo keyLen := by
  have inside := table.findBucket_lt jhash1word (ovsFlowHash jhash2 key keyLen)
  have same (other : BitVec 32) : findBucket jhash1word { table with
      buckets := table.buckets.modify (table.findBucket jhash1word hash) change
      sized } other = table.findBucket jhash1word other := by
    simp [findBucket]
  simp only [ovsFlowTblLookup, same, List.getD_eq_getElem?_getD, List.getElem?_modify,
    List.getElem?_eq_getElem inside]
  split <;> rfl

theorem ovsFlowTblLookup_insert (flow : SwFlow Acts) (key : SwFlowKey) (keyLen : KeyMember) :
    (table.ovsFlowTblInsert jhash1word flow).ovsFlowTblLookup jhash2 jhash1word key keyLen =
      if flow.hash = ovsFlowHash jhash2 key keyLen ∧
          flow.key.bytesTo keyLen = key.bytesTo keyLen then some flow
      else table.ovsFlowTblLookup jhash2 jhash1word key keyLen := by
  rw [ovsFlowTblInsert, ovsFlowTblLookup_modify]
  by_cases found : flow.hash = ovsFlowHash jhash2 key keyLen ∧
      flow.key.bytesTo keyLen = key.bytesTo keyLen
  · rw [if_pos (by rw [found.1]), if_pos found]
    exact List.find?_cons_of_pos (decide_eq_true found)
  · rw [if_neg found]
    split
    · exact List.find?_cons_of_neg (by simpa using found)
    · rfl

theorem ovsFlowTblLookup_congr {key other : SwFlowKey} {keyLen : KeyMember}
    (same : key.bytesTo keyLen = other.bytesTo keyLen) :
    table.ovsFlowTblLookup jhash2 jhash1word key keyLen =
      table.ovsFlowTblLookup jhash2 jhash1word other keyLen := by
  rw [ovsFlowTblLookup, ovsFlowTblLookup, ovsFlowHash, ovsFlowHash, same]

theorem ovsFlowTblLookup_setActs_self (key : SwFlowKey) (keyLen : KeyMember) (acts : Acts) :
    (table.setActs jhash2 jhash1word key keyLen acts).ovsFlowTblLookup jhash2 jhash1word key
        keyLen =
      (table.ovsFlowTblLookup jhash2 jhash1word key keyLen).map
        fun flow => { flow with sfActs := acts } := by
  rw [setActs, ovsFlowTblLookup_modify, if_pos rfl]
  apply find?_modify_findIdx
  exact fun _ => rfl

theorem ovsFlowTblLookup_setActs_of_ne {key other : SwFlowKey} (acts : Acts)
    (differs : key.bytesTo key.attrLen ≠ other.bytesTo key.attrLen) :
    (table.setActs jhash2 jhash1word other other.attrLen acts).ovsFlowTblLookup jhash2 jhash1word
        key key.attrLen =
      table.ovsFlowTblLookup jhash2 jhash1word key key.attrLen := by
  rw [setActs, ovsFlowTblLookup_modify]
  split
  · apply find?_modify_of_disjoint
    · exact fun _ => rfl
    · intro flow _ hitsOther hits
      have toOther := (of_decide_eq_true hitsOther).2
      have toKey := (of_decide_eq_true hits).2
      have lens : other.attrLen = key.attrLen := by
        rw [← SwFlowKey.attrLen_of_bytesTo toOther.symm, ← SwFlowKey.attrLen_of_bytesTo toKey.symm]
      exact differs (toKey.symm.trans (lens ▸ toOther))
  · rfl

/-- The actions that an accepted request gives to a key. -/
def answer (validate : SwFlowKey → List Byte → Option Acts) (key : SwFlowKey)
    (request : List Byte × List Byte) : Option Acts :=
  match ovsFlowFromNlattrs request.1 with
  | none => none
  | some (other, _) =>
    if key.bytesTo key.attrLen = other.bytesTo key.attrLen then validate other request.2 else none

variable (validate : SwFlowKey → List Byte → Option Acts) (key : SwFlowKey)

theorem lookup_ovsFlowCmdNew (request : List Byte × List Byte) :
    ((table.ovsFlowCmdNew jhash2 jhash1word validate request.1 request.2).ovsFlowTblLookup jhash2
        jhash1word key key.attrLen).map SwFlow.sfActs =
      (answer validate key request).or
        ((table.ovsFlowTblLookup jhash2 jhash1word key key.attrLen).map SwFlow.sfActs) := by
  rw [ovsFlowCmdNew, answer]
  cases parsed : ovsFlowFromNlattrs request.1 with
  | none => rfl
  | some result =>
    obtain ⟨other, len⟩ := result
    obtain rfl := ovsFlowFromNlattrs_attrLen parsed
    cases valid : validate other request.2 with
    | none => simp [valid]
    | some acts =>
      by_cases same : key.bytesTo key.attrLen = other.bytesTo key.attrLen
      · have asOther (table : FlowTable Acts) :
            table.ovsFlowTblLookup jhash2 jhash1word key key.attrLen =
              table.ovsFlowTblLookup jhash2 jhash1word other other.attrLen := by
          rw [ovsFlowTblLookup_congr _ _ _ same, SwFlowKey.attrLen_of_bytesTo same]
        simp only [valid, if_pos same, asOther, Option.some_or]
        cases found : table.ovsFlowTblLookup jhash2 jhash1word other other.attrLen with
        | none => rw [lookup_insert, Option.map_some]
        | some flow => rw [ovsFlowTblLookup_setActs_self, found, Option.map_some, Option.map_some]
      · simp only [valid, if_neg same, Option.none_or]
        cases table.ovsFlowTblLookup jhash2 jhash1word other other.attrLen with
        | none => rw [ovsFlowTblLookup_insert, if_neg fun hits => same hits.2.symm]
        | some flow => rw [ovsFlowTblLookup_setActs_of_ne _ _ _ _ same]

end FlowTable

end Packet
end LazyCtrl
