import LazyCtrl.Bf.Filter

/-!
# Packets in the datapath

A packet buffer of the kernel as `datapath/actions.c` and the VLAN helpers of
`datapath/linux/compat` use it.  The bytes start at `skb->data`, and the header pointers are
offsets from there, so that pushing bytes moves every header up and pulling bytes moves it down.
Memory is always available: a helper that only fails for lack of memory has no error here.  A
header that is accessed outside the bytes of the packet has no defined outcome.
-/

namespace LazyCtrl

open Bytes

def ethHlen : Nat := 14

def vlanHlen : Nat := 4

def vlanEthHlen : Nat := 18

def ethPIp : BitVec 16 := 0x0800

def ethPIpv6 : BitVec 16 := 0x86dd

def ethP8021Q : BitVec 16 := 0x8100

def ethP8023 : BitVec 16 := 0x0001

def ethP8022 : BitVec 16 := 0x0004

def ipprotoTcp : Byte := 6

def ipprotoUdp : Byte := 17

def vlanTagPresent : BitVec 16 := 0x1000

inductive CsumType where
  | csumNone
  | csumUnnecessary
  | csumComplete
  | csumPartial
  deriving DecidableEq, Repr

/-- `struct sk_buff` with the tunnel id of its control block. -/
structure Skb where
  data : List Byte
  macHeader : Int
  networkHeader : Int
  transportHeader : Int
  macLen : BitVec 16
  protocol : BitVec 16
  vlanTci : BitVec 16
  ipSummed : CsumType
  priority : BitVec 32
  tunId : BitVec 64
  deriving DecidableEq, Repr

def skbPush (skb : Skb) (bytes : List Byte) : Skb :=
  { skb with
    data := bytes ++ skb.data
    macHeader := skb.macHeader + bytes.length
    networkHeader := skb.networkHeader + bytes.length
    transportHeader := skb.transportHeader + bytes.length }

def skbPull (skb : Skb) (n : Nat) : Skb :=
  if n ≤ skb.data.length then
    { skb with
      data := skb.data.drop n
      macHeader := skb.macHeader - n
      networkHeader := skb.networkHeader - n
      transportHeader := skb.transportHeader - n }
  else skb

def skbResetMacHeader (skb : Skb) : Skb := { skb with macHeader := 0 }

def skbResetNetworkHeader (skb : Skb) : Skb := { skb with networkHeader := 0 }

def skbResetMacLen (skb : Skb) : Skb :=
  { skb with macLen := BitVec.ofInt 16 (skb.networkHeader - skb.macHeader) }

/-- The position of a header of `n` bytes, which has to lie inside the packet. -/
def Skb.header (skb : Skb) (ofs : Int) (n : Nat) : Option Nat :=
  if 0 ≤ ofs ∧ ofs + n ≤ skb.data.length then some ofs.toNat else none

theorem Skb.header_eq {skb : Skb} {ofs n : Nat} (inside : ofs + n ≤ skb.data.length) :
    skb.header ofs n = some ofs := by
  rw [Skb.header, if_pos ⟨by omega, by omega⟩, Int.toNat_natCast]

theorem skbPull_data {skb : Skb} {n : Nat} (inside : n ≤ skb.data.length) :
    (skbPull skb n).data = skb.data.drop n := by
  rw [skbPull, if_pos inside]

def csumAdd (x y : BitVec 32) : BitVec 32 := if x + y < y then x + y + 1 else x + y

def csumFold (sum : BitVec 32) : BitVec 16 :=
  let sum := (sum &&& 0xffff) + (sum >>> 16)
  let sum := (sum &&& 0xffff) + (sum >>> 16)
  ~~~(sum.setWidth 16)

def ipFastCsum (iph : List Byte) (ihl : Nat) : BitVec 16 :=
  csumFold ((List.range ihl).foldl (fun sum i => csumAdd sum (be32 iph (4 * i))) 0)

def csumReplace4 (sum : BitVec 16) (old new : BitVec 32) : BitVec 16 :=
  csumFold (csumAdd (csumAdd (~~~(sum.setWidth 32)) (~~~old)) new)

def csumReplace2 (sum old new : BitVec 16) : BitVec 16 :=
  csumReplace4 sum (old.setWidth 32) (new.setWidth 32)

def inetProtoCsumReplace4 (summed : CsumType) (sum : BitVec 16) (old new : BitVec 32)
    (pseudohdr : Bool) : BitVec 16 :=
  if summed ≠ .csumPartial then csumReplace4 sum old new
  else if pseudohdr then ~~~(csumFold (csumAdd (csumAdd (sum.setWidth 32) (~~~old)) new))
  else sum

def inetProtoCsumReplace2 (summed : CsumType) (sum old new : BitVec 16) (pseudohdr : Bool) :
    BitVec 16 :=
  inetProtoCsumReplace4 summed sum (old.setWidth 32) (new.setWidth 32) pseudohdr

def vlanTxTagPresent (skb : Skb) : Bool := skb.vlanTci &&& vlanTagPresent ≠ 0

def vlanTxTagGet (skb : Skb) : BitVec 16 := skb.vlanTci &&& ~~~vlanTagPresent

def vlanHwaccelPutTag (skb : Skb) (tci : BitVec 16) : Skb :=
  { skb with vlanTci := vlanTagPresent ||| tci }

def vlanPutTag (skb : Skb) (tci : BitVec 16) : Skb :=
  { skb with
    data := skb.data.take 12 ++ put16 ethP8021Q ++ put16 tci ++ skb.data.drop 12
    networkHeader := skb.networkHeader + vlanHlen
    transportHeader := skb.transportHeader + vlanHlen
    protocol := ethP8021Q }

def vlanSetEncapProto (proto : BitVec 16) (data : List Byte) : BitVec 16 :=
  if 1536 ≤ proto.toNat then proto
  else if be16 data 0 = 0xffff then ethP8023
  else ethP8022

def popVlanTci (skb : Skb) : Skb × BitVec 16 :=
  let data := skb.data.take 12 ++ skb.data.drop 16
  (skbResetMacLen
    { skb with
      data
      networkHeader := skb.networkHeader - vlanHlen
      transportHeader := skb.transportHeader - vlanHlen
      protocol := vlanSetEncapProto (be16 skb.data 16) data },
    be16 skb.data 14)

def hasVlanHeader (skb : Skb) : Bool :=
  skb.protocol = ethP8021Q ∧ vlanEthHlen ≤ skb.data.length

def acceleratedTag (skb : Skb) : Skb :=
  if hasVlanHeader skb then
    let (skb, tci) := popVlanTci skb
    vlanHwaccelPutTag skb tci
  else skb

def popVlan (skb : Skb) : Skb :=
  if vlanTxTagPresent skb then
    acceleratedTag { skb with vlanTci := 0 }
  else if hasVlanHeader skb then
    acceleratedTag (popVlanTci skb).1
  else skb

def pushVlan (skb : Skb) (tci : BitVec 16) : Skb :=
  let skb := if vlanTxTagPresent skb then vlanPutTag skb (vlanTxTagGet skb) else skb
  vlanHwaccelPutTag skb (tci &&& ~~~vlanTagPresent)

end LazyCtrl
