import LazyCtrl.Datapath.BfGdtCmd
import LazyCtrl.Datapath.Skb

/-!
# Encapsulation between edge switches

`__remote_encapulation` and `__remote_decapulation` of `datapath/remote.c`, and the classification
of received packets in `datapath/vport.c`.  The network between the switches may rewrite the outer
Ethernet addresses.
-/

namespace LazyCtrl

open Bytes

def ipHlen : Nat := 20

def ethIpHlen : Nat := 2

def lcRemoteIpProto : Byte := 97

def gwMac : List Byte := [0x0a, 0x00, 0x27, 0x00, 0x00, 0x01]

def remoteIphdr (totLen check : BitVec 16) (saddr daddr : BitVec 32) : List Byte :=
  [0x45, 0] ++ put16 totLen ++ put16 0 ++ put16 0 ++ [255, lcRemoteIpProto] ++ put16 check ++
    put32 saddr ++ put32 daddr

def etherIphdr : List Byte := [0x03, 0x00]

def remoteHeader (dp : Datapath) (len : Nat) (dstIp : BitVec 32) : List Byte :=
  let totLen := BitVec.ofNat 16 len
  let check := ipFastCsum (remoteIphdr totLen 0 dp.localIp dstIp) 5
  remoteIphdr totLen check dp.localIp dstIp

def encapulate (dp : Datapath) (skb : Skb) (dstIp : BitVec 32) : Skb :=
  let skb := skbPush skb etherIphdr
  let skb := skbPush skb (remoteHeader dp (skb.data.length + ipHlen) dstIp)
  -- The new Ethernet header is a copy of the inner one, then its type and destination are set.
  let inner := skb.data.drop (ipHlen + ethIpHlen)
  let skb := skbPush skb (gwMac ++ (inner.drop 6).take 6 ++ put16 ethPIp)
  { skb with macHeader := skb.macHeader - (ethIpHlen + ipHlen + ethHlen : Nat) }

def remoteEncapulation (room : Bool) (dp : Datapath) (skb : Skb) (dstIp : BitVec 32) :
    Option Skb :=
  if room then some (encapulate dp skb dstIp) else none

def remoteDecapulation (skb : Skb) : Option (Skb × Int) := do
  let skb := skbResetMacHeader skb
  let _ ← skb.header skb.macHeader ethHlen
  let eth := skb.data.take ethHlen
  let skb := skbPull skb skb.macLen.toNat
  if be16 eth 12 ≠ ethPIp then
    some (skb, -1)
  else
    let skb := skbResetNetworkHeader skb
    let _ ← skb.header skb.networkHeader 10
    let protocol := u8 skb.data 9
    let skb := skbPull skb ipHlen
    if protocol ≠ lcRemoteIpProto then
      some (skb, -1)
    else
      let skb := skbPull skb ethIpHlen
      let _ ← skb.header 0 12
      some ({ skb with data := patch skb.data 0 (eth.take 12) }, 0)

def ovsVportGetIpProto (skb : Skb) : Option Int :=
  if skb.protocol ≠ ethPIp then some (-1)
  else (skb.header skb.networkHeader 10).map fun nh => ((u8 skb.data (nh + 9)).toNat : Int)

def ovsVportReceiveEncaped (skb : Skb) : Option Bool :=
  (ovsVportGetIpProto skb).map fun proto => proto = (lcRemoteIpProto.toNat : Int)

def ethTypeTrans (frame : List Byte) : BitVec 16 :=
  if 1536 ≤ (be16 frame 12).toNat then be16 frame 12
  else if be16 frame 14 = 0xffff then ethP8023
  else ethP8022

/-- The packet that a network device hands to `ovs_vport_receive` for a frame: the data starts at
the Ethernet header and the network header follows it. -/
def netdevReceive (frame : List Byte) : Skb where
  data := frame
  macHeader := 0
  networkHeader := ethHlen
  transportHeader := ethHlen
  macLen := BitVec.ofNat 16 ethHlen
  protocol := ethTypeTrans frame
  vlanTci := 0
  ipSummed := .csumNone
  priority := 0
  tunId := 0

def readdress (addresses : Fin 12 → Byte) (frame : List Byte) : List Byte :=
  List.ofFn addresses ++ frame.drop 12

/-- The packet is encapsulated, readdressed, classified and decapsulated, and comes out unchanged. -/
def RoundTrips (dp : Datapath) (skb : Skb) (dstIp : BitVec 32) (addresses : Fin 12 → Byte) : Prop :=
  ∃ sent final, remoteEncapulation true dp skb dstIp = some sent ∧
    ovsVportReceiveEncaped (netdevReceive (readdress addresses sent.data)) = some true ∧
      remoteDecapulation (netdevReceive (readdress addresses sent.data)) = some (final, 0) ∧
        final.data = skb.data

@[simp]
theorem length_remoteHeader (dp : Datapath) (len : Nat) (dstIp : BitVec 32) :
    (remoteHeader dp len dstIp).length = 20 := rfl

theorem u8_remoteHeader (dp : Datapath) (len : Nat) (dstIp : BitVec 32) :
    u8 (remoteHeader dp len dstIp) 9 = lcRemoteIpProto := rfl

theorem be16_remoteHeader (dp : Datapath) (len : Nat) (dstIp : BitVec 32) :
    be16 (remoteHeader dp len dstIp) 6 = 0 :=
  join 8 8 (0 : BitVec 16)

/-- An encapsulated packet is the original one behind 36 bytes of headers.  Its protocol field and
its network header are still those of the inner frame. -/
theorem encapulate_eq (dp : Datapath) {skb : Skb} (dstIp : BitVec 32)
    (long : 14 ≤ skb.data.length) :
    encapulate dp skb dstIp =
      { skb with
        data := gwMac ++ (skb.data.drop 6).take 6 ++ (put16 ethPIp ++
          (remoteHeader dp (skb.data.length + 22) dstIp ++ (etherIphdr ++ skb.data)))
        networkHeader := skb.networkHeader + 36
        transportHeader := skb.transportHeader + 36 } := by
  have inner : (remoteHeader dp (skb.data.length + 22) dstIp ++ (etherIphdr ++ skb.data)).drop
      (ipHlen + ethIpHlen) = skb.data := by
    rw [← List.append_assoc]
    exact List.drop_left' rfl
  have len : (etherIphdr ++ skb.data).length + ipHlen = skb.data.length + 22 := by
    simp only [etherIphdr, ipHlen, List.length_append, List.length_cons, List.length_nil]
    omega
  have header : (gwMac ++ ((skb.data.drop 6).take 6 ++ put16 ethPIp)).length = 14 := by
    simp [gwMac]
    omega
  simp only [encapulate, skbPush, len, inner, header, length_remoteHeader, List.append_assoc,
    Skb.mk.injEq, true_and, and_true]
  simp only [etherIphdr, ethIpHlen, ipHlen, ethHlen, List.length_cons, List.length_nil]
  omega

theorem length_encapulate (dp : Datapath) {skb : Skb} (dstIp : BitVec 32)
    (long : 14 ≤ skb.data.length) :
    (encapulate dp skb dstIp).data.length = skb.data.length + 36 := by
  rw [encapulate_eq dp dstIp long]
  simp [gwMac, etherIphdr]
  omega

theorem drop_encapulate (dp : Datapath) {skb : Skb} (dstIp : BitVec 32)
    (long : 14 ≤ skb.data.length) :
    (encapulate dp skb dstIp).data.drop 12 =
      put16 ethPIp ++
        (remoteHeader dp (skb.data.length + 22) dstIp ++ (etherIphdr ++ skb.data)) := by
  have length : (gwMac ++ (skb.data.drop 6).take 6).length = 12 := by
    simp [gwMac]
    omega
  rw [encapulate_eq dp dstIp long]
  exact List.drop_left' length

theorem ovsVportReceiveEncaped_of_long {frame : List Byte} (long : 24 ≤ frame.length)
    (ethType : be16 frame 12 = ethPIp) (ipProto : u8 frame 23 = lcRemoteIpProto) :
    ovsVportReceiveEncaped (netdevReceive frame) = some true := by
  have protocol : (netdevReceive frame).protocol = ethPIp := by
    rw [netdevReceive, ethTypeTrans, ethType, if_pos (by decide)]
  have header : (netdevReceive frame).header (netdevReceive frame).networkHeader 10 = some 14 :=
    Skb.header_eq (show 14 + 10 ≤ frame.length from long)
  rw [ovsVportReceiveEncaped, ovsVportGetIpProto, protocol, if_neg (not_not_intro rfl), header]
  simp only [Option.map_some, netdevReceive, ipProto, decide_true]

def pulled (len ofs n : Nat) : Nat := if ofs + n ≤ len then ofs + n else ofs

theorem skbPull_drop {skb : Skb} {frame : List Byte} {ofs : Nat} (data : skb.data = frame.drop ofs)
    (inside : ofs ≤ frame.length) (n : Nat) :
    (skbPull skb n).data = frame.drop (pulled frame.length ofs n) := by
  have length : skb.data.length = frame.length - ofs := by rw [data, List.length_drop]
  rw [skbPull, pulled]
  by_cases fits : ofs + n ≤ frame.length
  · rw [if_pos fits, if_pos (by omega)]
    change skb.data.drop n = _
    rw [data, List.drop_drop]
  · rw [if_neg fits, if_neg (by omega), data]

theorem pulled_le {len ofs : Nat} (inside : ofs ≤ len) (n : Nat) : pulled len ofs n ≤ len := by
  rw [pulled]
  split <;> assumption

theorem pulled_pulled_iff {len ip inner : Nat} (room : ip + 10 ≤ len) :
    pulled len (pulled len ip ipHlen) ethIpHlen = inner ∧ inner + 12 ≤ len ↔
      inner + 12 ≤ len ∧ (inner = ip + 22 ∨ inner = ip + 2 ∧ len < ip + 20) := by
  have stripped : pulled len ip ipHlen = if ip + 20 ≤ len then ip + 20 else ip := rfl
  have both : pulled len (pulled len ip ipHlen) ethIpHlen =
      if pulled len ip ipHlen + 2 ≤ len then pulled len ip ipHlen + 2
      else pulled len ip ipHlen := rfl
  split at stripped <;> split at both <;> omega

/-- What is left of the bytes of an IP packet by `__remote_decapulation`, and its result.  A pull
that goes too far has no effect. -/
def decapulated (frame : List Byte) (macLen : Nat) : Option (List Byte × Int) :=
  let len := frame.length
  let ip := pulled len 0 macLen
  let inner := pulled len (pulled len ip ipHlen) ethIpHlen
  if ip + 10 ≤ len then
    if u8 frame (ip + 9) ≠ lcRemoteIpProto then some (frame.drop (pulled len ip ipHlen), -1)
    else if inner + 12 ≤ len then some (frame.take 12 ++ frame.drop (inner + 12), 0)
    else none
  else none

theorem remoteDecapulation_data {skb : Skb} (long : 14 ≤ skb.data.length)
    (ethType : be16 skb.data 12 = ethPIp) :
    (remoteDecapulation skb).map (fun result => (result.1.data, result.2)) =
      decapulated skb.data skb.macLen.toNat := by
  set len := skb.data.length with lenDef
  set ip := pulled len 0 skb.macLen.toNat with ipDef
  set inner := pulled len (pulled len ip ipHlen) ethIpHlen with innerDef
  have ethHeader : (skbResetMacHeader skb).header (skbResetMacHeader skb).macHeader ethHlen =
      some 0 :=
    Skb.header_eq (show 0 + 14 ≤ skb.data.length by omega)
  have frameType : be16 ((skbResetMacHeader skb).data.take ethHlen) 12 = ethPIp := by
    rw [be16_take _ (by decide)]
    exact ethType
  have ipLe : ip ≤ len := pulled_le (Nat.zero_le _) _
  set network := skbResetNetworkHeader
    (skbPull (skbResetMacHeader skb) (skbResetMacHeader skb).macLen.toNat) with networkDef
  have ipData : network.data = skb.data.drop ip := skbPull_drop rfl (Nat.zero_le _) _
  have protocol : u8 network.data 9 = u8 skb.data (ip + 9) := by rw [ipData, u8_drop]
  have strippedData : (skbPull network ipHlen).data = skb.data.drop (pulled len ip ipHlen) :=
    skbPull_drop ipData ipLe _
  have innerData : (skbPull (skbPull network ipHlen) ethIpHlen).data = skb.data.drop inner :=
    skbPull_drop strippedData (pulled_le ipLe _) _
  have front : ((skbResetMacHeader skb).data.take ethHlen).take 12 = skb.data.take 12 := by
    rw [List.take_take]
    rfl
  have frontLen : (skb.data.take 12).length = 12 := by
    rw [List.length_take]
    omega
  rw [remoteDecapulation, decapulated, ethHeader, ← lenDef]
  simp only [← ipDef, ← innerDef]
  simp only [Option.bind_eq_bind, Option.bind_some, frameType, ne_eq, not_true_eq_false, if_false,
    ← networkDef, protocol]
  by_cases room : ip + 10 ≤ len
  · have header : network.header network.networkHeader 10 = some 0 :=
      Skb.header_eq (show 0 + 10 ≤ network.data.length by rw [ipData, List.length_drop]; omega)
    rw [header, if_pos room, Option.bind_some]
    by_cases remote : u8 skb.data (ip + 9) = lcRemoteIpProto
    · simp only [remote, not_true_eq_false, if_false]
      by_cases space : inner + 12 ≤ len
      · have header : (skbPull (skbPull network ipHlen) ethIpHlen).header 0 12 = some 0 :=
          Skb.header_eq (show 0 + 12 ≤ _ by rw [innerData, List.length_drop]; omega)
        rw [header, if_pos space]
        simp only [Option.bind_some, Option.map_some, patch, front, frontLen, innerData,
          List.take_zero, List.nil_append, List.drop_drop, Nat.zero_add]
      · have header : (skbPull (skbPull network ipHlen) ethIpHlen).header 0 12 = none := by
          rw [Skb.header, innerData, List.length_drop, if_neg (by omega)]
        rw [header, if_neg space]
        rfl
    · simp only [remote, not_false_eq_true, if_true, Option.map_some, strippedData]
  · have header : network.header network.networkHeader 10 = none := by
      rw [Skb.header, ipData, List.length_drop, if_neg (by omega)]
    rw [header, if_neg room]
    rfl

theorem remoteDecapulation_of_long {skb : Skb} (macLen : skb.macLen.toNat = ethHlen)
    (long : 48 ≤ skb.data.length) (ethType : be16 skb.data 12 = ethPIp)
    (ipProto : u8 skb.data 23 = lcRemoteIpProto) :
    ∃ final, remoteDecapulation skb = some (final, 0) ∧
      final.data = skb.data.take 12 ++ skb.data.drop 48 := by
  have ip : pulled skb.data.length 0 skb.macLen.toNat = 14 := by
    rw [macLen, pulled, ethHlen, if_pos (by omega)]
  obtain ⟨inner, -⟩ := (pulled_pulled_iff (show 14 + 10 ≤ skb.data.length by omega)).mpr
    ⟨(show 36 + 12 ≤ skb.data.length from long), .inl rfl⟩
  have data := remoteDecapulation_data (by omega) ethType
  rw [decapulated, ip, inner, if_pos (by omega), if_neg (not_not_intro ipProto), if_pos long] at data
  obtain ⟨⟨final, error⟩, ran, same⟩ := Option.map_eq_some_iff.mp data
  obtain ⟨bytes, rfl⟩ := Prod.mk.inj same
  exact ⟨final, ran, bytes⟩

/-- The frame comes out of the tunnel unchanged exactly when it arrives with its own addresses in
the outer header. -/
theorem roundTrips_iff (dp : Datapath) {skb : Skb} (dstIp : BitVec 32) (addresses : Fin 12 → Byte)
    (long : 14 ≤ skb.data.length) :
    RoundTrips dp skb dstIp addresses ↔ skb.data.take 12 = List.ofFn addresses := by
  set frame := readdress addresses (encapulate dp skb dstIp).data with frameDef
  have shape : frame = List.ofFn addresses ++ (put16 ethPIp ++
      (remoteHeader dp (skb.data.length + 22) dstIp ++ (etherIphdr ++ skb.data))) := by
    rw [frameDef, readdress, drop_encapulate dp dstIp long]
  have addressesLen : (List.ofFn addresses).length = 12 := List.length_ofFn
  have frameLen : frame.length = skb.data.length + 36 := by
    rw [frameDef, readdress, List.length_append, addressesLen, List.length_drop,
      length_encapulate dp dstIp long]
    omega
  have ethType : be16 frame 12 = ethPIp := by
    rw [shape]
    exact be16_put16 (List.ofFn addresses) _ ethPIp
  have ipProto : u8 frame 23 = lcRemoteIpProto := by
    have packet : frame.drop 14 =
        remoteHeader dp (skb.data.length + 22) dstIp ++ (etherIphdr ++ skb.data) := by
      rw [shape, ← List.append_assoc]
      exact List.drop_left' (by simp)
    rw [show 23 = 14 + 9 from rfl, ← u8_drop, packet, u8_append_left _ (by simp), u8_remoteHeader]
  have classified := ovsVportReceiveEncaped_of_long (by omega) ethType ipProto
  obtain ⟨final, decapulated, finalData⟩ := remoteDecapulation_of_long
    (show (netdevReceive frame).macLen.toNat = ethHlen from rfl)
    (show 48 ≤ frame.length by omega) ethType ipProto
  have finalEq : final.data = List.ofFn addresses ++ skb.data.drop 12 := by
    have outer : frame.take 12 = List.ofFn addresses := by
      rw [shape]
      exact List.take_left' addressesLen
    have inner : frame.drop 36 = skb.data := by
      rw [shape]
      simp only [← List.append_assoc]
      exact List.drop_left' rfl
    have split : frame.drop 48 = skb.data.drop 12 := by
      rw [← inner, List.drop_drop]
    rw [finalData]
    exact congrArg₂ _ outer split
  constructor
  · rintro ⟨sent, other, encapulated, -, again, same⟩
    obtain rfl : encapulate dp skb dstIp = sent := Option.some.inj encapulated
    obtain rfl : final = other := congrArg Prod.fst (Option.some.inj (decapulated.symm.trans again))
    rw [← same, finalEq]
    exact List.take_left' addressesLen
  · intro own
    refine ⟨encapulate dp skb dstIp, final, rfl, classified, decapulated, ?_⟩
    rw [finalEq, ← own, List.take_append_drop]

def sampleSkb : Skb := netdevReceive (List.replicate 12 2 ++ put16 ethPIp ++ List.replicate 46 0)

theorem roundTrips_own_addresses :
    RoundTrips { localIp := 1, gdt := none } sampleSkb 2 (fun _ => 2) :=
  (roundTrips_iff _ _ _ (by decide)).mpr (by decide)

/-- Without any rewriting in between, the frame comes out with the address of the gateway as its
destination. -/
theorem not_roundTrips_unchanged :
    ¬ RoundTrips { localIp := 1, gdt := none } sampleSkb 2
        (fun i => u8 (encapulate { localIp := 1, gdt := none } sampleSkb 2).data i) := by
  rintro ⟨sent, final, encapulated, -, decapulated, same⟩
  obtain rfl := Option.some.inj encapulated
  have first : u8 final.data 0 = 0x0a := by
    obtain rfl := congrArg Prod.fst (Option.some.inj decapulated)
    rfl
  rw [same] at first
  exact absurd first (by decide)

def outerIhl (frame : List Byte) : Nat := (u8 frame 14).toNat % 16

def receivedSkb (frame : List Byte) (macLen : BitVec 16) : Skb :=
  { netdevReceive frame with macLen }

/-- Decapsulation stays inside the frame, and it reports an error or leaves what follows the outer
headers. -/
def Decapsulates (frame : List Byte) (macLen : BitVec 16) : Prop :=
  ∃ final error, remoteDecapulation (receivedSkb frame macLen) = some (final, error) ∧
    (error < 0 ∨ final.data = frame.drop (ethHlen + 4 * outerIhl frame + ethIpHlen))

/-- The headers of a frame are those that decapsulation removes.  The header that it takes for the
IP header starts behind the link layer header, or at the start of a frame that is shorter.  Then 22
bytes are removed from there, or only 2 from a packet that has no room for an IP header, and the
inner frame has to carry the outer addresses. -/
def HasRemoteHeaders (frame : List Byte) (macLen : BitVec 16) : Prop :=
  let ip := if macLen.toNat ≤ frame.length then macLen.toNat else 0
  let inner := 16 + 4 * outerIhl frame
  ip + 10 ≤ frame.length ∧
    (u8 frame (ip + 9) = lcRemoteIpProto →
      inner + 12 ≤ frame.length ∧ (frame.drop inner).take 12 = frame.take 12 ∧
        (inner = ip + 22 ∨ inner = ip + 2 ∧ frame.length < ip + 20))

theorem of_classified {frame : List Byte} {macLen : BitVec 16}
    (classified : ovsVportReceiveEncaped (receivedSkb frame macLen) = some true) :
    24 ≤ frame.length ∧ be16 frame 12 = ethPIp := by
  rw [ovsVportReceiveEncaped, Option.map_eq_some_iff] at classified
  obtain ⟨proto, found, remote⟩ := classified
  rw [ovsVportGetIpProto] at found
  split at found
  · obtain rfl := Option.some.inj found
    cases remote
  · rename_i ip
    obtain ⟨nh, header, -⟩ := Option.map_eq_some_iff.mp found
    have inside := (Option.ite_none_right_eq_some.mp header).1.2
    refine ⟨by simpa [receivedSkb, netdevReceive, ethHlen] using inside, ?_⟩
    have type : ethTypeTrans frame = ethPIp := not_not.mp ip
    rw [ethTypeTrans] at type
    split at type
    · exact type
    · split at type <;> cases type

theorem decapsulates_iff_map {frame : List Byte} {macLen : BitVec 16} :
    Decapsulates frame macLen ↔
      ∃ bytes error, (remoteDecapulation (receivedSkb frame macLen)).map
          (fun result => (result.1.data, result.2)) = some (bytes, error) ∧
        (error < 0 ∨ bytes = frame.drop (ethHlen + 4 * outerIhl frame + ethIpHlen)) := by
  constructor
  · rintro ⟨final, error, ran, result⟩
    exact ⟨final.data, error, by rw [ran]; rfl, result⟩
  · rintro ⟨bytes, error, mapped, result⟩
    obtain ⟨⟨final, error'⟩, ran, same⟩ := Option.map_eq_some_iff.mp mapped
    obtain ⟨rfl, rfl⟩ := Prod.mk.inj same
    exact ⟨final, error', ran, result⟩

theorem patched_eq_drop_iff {frame : List Byte} {inner want : Nat}
    (room : inner + 12 ≤ frame.length) :
    frame.take 12 ++ frame.drop (inner + 12) = frame.drop want ↔
      want = inner ∧ (frame.drop inner).take 12 = frame.take 12 := by
  have split : frame.drop inner = (frame.drop inner).take 12 ++ frame.drop (inner + 12) := by
    rw [← List.drop_drop, List.take_append_drop]
  constructor
  · intro same
    have lengths := congrArg List.length same
    simp only [List.length_append, List.length_take, List.length_drop] at lengths
    obtain rfl : want = inner := by omega
    rw [split] at same
    exact ⟨rfl, (List.append_cancel_right same).symm⟩
  · rintro ⟨rfl, same⟩
    rw [split, same]

/-- **Decapsulation of arbitrary input.** A frame that is classified as encapsulated is decapsulated
without an access outside it, to what follows its outer headers, exactly if these are the headers
that are always removed and the inner frame carries the outer addresses. -/
theorem decapsulates_iff {frame : List Byte} {macLen : BitVec 16}
    (classified : ovsVportReceiveEncaped (receivedSkb frame macLen) = some true) :
    Decapsulates frame macLen ↔ HasRemoteHeaders frame macLen := by
  obtain ⟨long, ethType⟩ := of_classified classified
  have data : Option.map _ _ = decapulated frame macLen.toNat :=
    @remoteDecapulation_data (receivedSkb frame macLen) (show 14 ≤ frame.length by omega) ethType
  have start : pulled frame.length 0 macLen.toNat =
      if macLen.toNat ≤ frame.length then macLen.toNat else 0 := by
    rw [pulled, Nat.zero_add]
  rw [HasRemoteHeaders, ← start, decapsulates_iff_map, data, decapulated]
  clear data start
  generalize pulled frame.length 0 macLen.toNat = ip
  by_cases room : ip + 10 ≤ frame.length
  · rw [if_pos room]
    by_cases remote : u8 frame (ip + 9) = lcRemoteIpProto
    · rw [if_neg (not_not_intro remote)]
      have want : ethHlen + 4 * outerIhl frame + ethIpHlen = 16 + 4 * outerIhl frame := by
        rw [ethHlen, ethIpHlen, Nat.add_right_comm]
      simp only [room, remote, forall_true_left, true_and, want]
      generalize 16 + 4 * outerIhl frame = inner
      rw [and_left_comm, ← pulled_pulled_iff room]
      generalize pulled frame.length (pulled frame.length ip ipHlen) ethIpHlen = place
      by_cases space : place + 12 ≤ frame.length
      · rw [if_pos space]
        constructor
        · rintro ⟨bytes, error, same, result⟩
          obtain ⟨rfl, rfl⟩ := Prod.mk.inj (Option.some.inj same)
          obtain ⟨rfl, addresses⟩ := (patched_eq_drop_iff space).mp (result.resolve_left (by decide))
          exact ⟨addresses, rfl, space⟩
        · rintro ⟨addresses, rfl, -⟩
          exact ⟨_, _, rfl, .inr ((patched_eq_drop_iff space).mpr ⟨rfl, addresses⟩)⟩
      · rw [if_neg space]
        refine iff_of_false (by rintro ⟨_, _, none, -⟩; cases none) ?_
        rintro ⟨-, rfl, fits⟩
        exact space fits
    · rw [if_pos remote]
      exact iff_of_true ⟨_, _, rfl, .inl (by decide)⟩ ⟨room, fun other => absurd other remote⟩
  · rw [if_neg room]
    exact iff_of_false (by rintro ⟨_, _, none, -⟩; cases none) fun headers => room headers.1

/-- A frame with its own addresses in the outer header, which has the given first byte. -/
def tunnelFrame (versionIhl : Byte) : List Byte :=
  List.replicate 12 2 ++ put16 ethPIp ++
    ([versionIhl, 0, 0, 82, 0, 0, 0, 0, 255, lcRemoteIpProto] ++ List.replicate 10 0) ++ etherIphdr ++
      (List.replicate 12 2 ++ put16 ethPIp ++ List.replicate 46 0)

theorem decapsulates_tunnelFrame :
    ovsVportReceiveEncaped (receivedSkb (tunnelFrame 0x45) 14) = some true ∧
      Decapsulates (tunnelFrame 0x45) 14 :=
  ⟨by decide, (decapsulates_iff (by decide)).mpr
    ⟨by decide, fun _ => ⟨by decide, by decide, .inl (by decide)⟩⟩⟩

/-- A frame that ends behind the outer IP header is written to behind its end, and with one word of
options in this header the options are taken for the start of the inner frame. -/
theorem not_decapsulates_short_options :
    ovsVportReceiveEncaped (receivedSkb ((tunnelFrame 0x45).take 34) 14) = some true ∧
      ¬ Decapsulates ((tunnelFrame 0x45).take 34) 14 ∧
      ovsVportReceiveEncaped (receivedSkb (tunnelFrame 0x46) 14) = some true ∧
      ¬ Decapsulates (tunnelFrame 0x46) 14 := by
  refine ⟨by decide, ?_, by decide, ?_⟩
  · rintro ⟨final, error, ran, -⟩
    have none : remoteDecapulation (receivedSkb ((tunnelFrame 0x45).take 34) 14) = none := by decide
    rw [none] at ran
    cases ran
  · rintro ⟨final, error, ran, result⟩
    obtain ⟨rfl, rfl⟩ := Prod.mk.inj (Option.some.inj ran)
    revert result
    decide

end LazyCtrl
