import LazyCtrl.Datapath.Execution
import LazyCtrl.Packet.FlowExtract

/-!
# The datapath of the switch daemon

`dp_netdev_execute_actions` of `lib/dpif-netdev.c` with the packet functions of `lib/packets.c` and
`lib/csum.c`, and the ports it sends to, compared with the ports of `do_execute_actions`.  The ports
do not depend on the packet, but an execution is only defined as long as every header that a `SET`
names lies inside the packet.
-/

namespace LazyCtrl
namespace Netdev

open Bytes

/-- `struct ofpbuf` of a packet; a position is an offset from `data`, which is also `l2`. -/
structure Ofpbuf where
  data : List Byte
  l3 : Option Int
  l4 : Option Int
  l7 : Option Int
  deriving DecidableEq, Repr

def Ofpbuf.received (packet : List Byte) : Ofpbuf :=
  let parsed := Packet.flowExtract packet 0 0 0
  { data := packet
    l3 := parsed.l3.map Int.ofNat
    l4 := parsed.l4.map Int.ofNat
    l7 := parsed.l7.map Int.ofNat }

def Ofpbuf.header (packet : Ofpbuf) (ofs : Option Int) (n : Nat) : Option Nat := do
  let ofs ← ofs
  if 0 ≤ ofs ∧ ofs + n ≤ packet.data.length then some ofs.toNat else none

def Ofpbuf.moved (packet : Ofpbuf) (shift : Int) (data : List Byte) : Ofpbuf :=
  { data
    l3 := packet.l3.map (· + shift)
    l4 := packet.l4.map (· + shift)
    l7 := packet.l7.map (· + shift) }

def ethPushVlan (packet : Ofpbuf) (tci : BitVec 16) : Ofpbuf :=
  packet.moved 4 (packet.data.take 12 ++ put16 ethP8021Q ++ put16 (tci &&& ~~~Packet.vlanCfi) ++
    packet.data.drop 12)

def ethPopVlan (packet : Ofpbuf) : Ofpbuf :=
  if vlanEthHlen ≤ packet.data.length ∧ be16 packet.data 12 = ethP8021Q then
    packet.moved (-4) (packet.data.take 12 ++ packet.data.drop 16)
  else packet

def csumFinish (sum : BitVec 32) : BitVec 16 := csumFold sum

def recalcCsum16 (oldCsum oldU16 newU16 : BitVec 16) : BitVec 16 :=
  csumFinish ((~~~oldCsum).setWidth 32 + (~~~oldU16).setWidth 32 + newU16.setWidth 32)

def recalcCsum32 (oldCsum : BitVec 16) (oldU32 newU32 : BitVec 32) : BitVec 16 :=
  recalcCsum16 (recalcCsum16 oldCsum (oldU32.extractLsb' 16 16) (newU32.extractLsb' 16 16))
    (oldU32.extractLsb' 0 16) (newU32.extractLsb' 0 16)

def dpNetdevSetDl (packet : Ofpbuf) (src dst : Fin 6 → Byte) : Option Ofpbuf := do
  let eh ← packet.header (some 0) ethHlen
  let data := patch packet.data (eh + 6) (List.ofFn src)
  some { packet with data := patch data eh (List.ofFn dst) }

def setIpv4AddrTransport (packet : Ofpbuf) (nh : Nat) (old new : BitVec 32) :
    Option (List Byte) :=
  if u8 packet.data (nh + 9) = ipprotoTcp ∧ packet.l7.isSome then do
    let th ← packet.header packet.l4 20
    let csum := recalcCsum32 (be16 packet.data (th + 16)) old new
    some (patch packet.data (th + 16) (put16 csum))
  else if u8 packet.data (nh + 9) = ipprotoUdp ∧ packet.l7.isSome then do
    let uh ← packet.header packet.l4 8
    if be16 packet.data (uh + 6) ≠ 0 then
      let csum := recalcCsum32 (be16 packet.data (uh + 6)) old new
      some (patch packet.data (uh + 6) (put16 (if csum = 0 then 0xffff else csum)))
    else some packet.data
  else some packet.data

def packetSetIpv4Addr (packet : Ofpbuf) (nh addr : Nat) (new : BitVec 32) : Option Ofpbuf := do
  let old := be32 packet.data addr
  let data ← setIpv4AddrTransport packet nh old new
  let data := patch data (nh + 10) (put16 (recalcCsum32 (be16 data (nh + 10)) old new))
  some { packet with data := patch data addr (put32 new) }

def setIpv4Byte (packet : Ofpbuf) (nh field : Nat) (new : Byte) (word : Byte → BitVec 16) :
    Ofpbuf :=
  if u8 packet.data field ≠ new then
    let csum := recalcCsum16 (be16 packet.data (nh + 10)) (word (u8 packet.data field)) (word new)
    { packet with data := patch (patch packet.data (nh + 10) (put16 csum)) field [new] }
  else packet

def packetSetIpv4 (packet : Ofpbuf) (src dst : BitVec 32) (tos ttl : Byte) : Option Ofpbuf := do
  let nh ← packet.header packet.l3 20
  let packet ← if be32 packet.data (nh + 12) ≠ src then packetSetIpv4Addr packet nh (nh + 12) src
    else some packet
  let packet ← if be32 packet.data (nh + 16) ≠ dst then packetSetIpv4Addr packet nh (nh + 16) dst
    else some packet
  let packet := setIpv4Byte packet nh (nh + 1) tos (·.setWidth 16)
  some (setIpv4Byte packet nh (nh + 8) ttl (· ++ (0 : Byte)))

def packetSetPort (data : List Byte) (port csum : Nat) (new : BitVec 16) : List Byte :=
  if be16 data port ≠ new then
    let sum := recalcCsum16 (be16 data csum) (be16 data port) new
    patch (patch data csum (put16 sum)) port (put16 new)
  else data

def packetSetTcpPort (packet : Ofpbuf) (src dst : BitVec 16) : Option Ofpbuf := do
  let th ← packet.header packet.l4 20
  let data := packetSetPort packet.data th (th + 16) src
  some { packet with data := packetSetPort data (th + 2) (th + 16) dst }

def packetSetUdpPort (packet : Ofpbuf) (src dst : BitVec 16) : Option Ofpbuf := do
  let uh ← packet.header packet.l4 8
  if be16 packet.data (uh + 6) ≠ 0 then
    let data := packetSetPort packet.data uh (uh + 6) src
    let data := packetSetPort data (uh + 2) (uh + 6) dst
    some { packet with
      data := if be16 data (uh + 6) = 0 then patch data (uh + 6) (put16 0xffff) else data }
  else some { packet with data := patch packet.data uh (put16 src ++ put16 dst) }

def executeSetAction (packet : Ofpbuf) : SetKey → Option Ofpbuf
  | .priority _ | .tunId _ => some packet
  | .ethernet src dst => dpNetdevSetDl packet src dst
  | .ipv4 key => packetSetIpv4 packet key.src key.dst key.tos key.ttl
  | .tcp src dst => packetSetTcpPort packet src dst
  | .udp src dst => packetSetUdpPort packet src dst

def maxPorts : Nat := 256

def nlAttrGetU32 (payload : BitVec 64) : BitVec 32 := payload.extractLsb' 0 32

section Execution

variable (hasPort : BitVec 16 → Bool)

def dpNetdevOutputPort (packet : Ofpbuf) (outPort : BitVec 16) :
    Option (List (BitVec 16 × List Byte)) :=
  if outPort.toNat < maxPorts then
    some (if hasPort outPort then [(outPort, packet.data)] else [])
  else none

def dpNetdevRemotePort (packet : Ofpbuf) (outPort : BitVec 16) :
    Option (List (BitVec 16 × List Byte)) :=
  dpNetdevOutputPort hasPort packet outPort

def sends (packet : Ofpbuf) : DpAction → Option (List (BitVec 16 × List Byte))
  | .output port => dpNetdevOutputPort hasPort packet (port.setWidth 16)
  | .remote payload => dpNetdevRemotePort hasPort packet ((nlAttrGetU32 payload).setWidth 16)
  | .pushVlan _ _ | .popVlan | .set _ => some []

def rewrite (packet : Ofpbuf) : DpAction → Option Ofpbuf
  | .output _ | .remote _ => some packet
  | .pushVlan _ tci => some (ethPushVlan packet tci)
  | .popVlan => some (ethPopVlan packet)
  | .set key => executeSetAction packet key

def dpNetdevExecuteActions : Ofpbuf → List DpAction → Option (List (BitVec 16 × List Byte))
  | _, [] => some []
  | packet, action :: actions => do
      let sent ← sends hasPort packet action
      let next ← rewrite packet action
      let rest ← dpNetdevExecuteActions next actions
      some (sent ++ rest)

end Execution

def PortBelow : DpAction → Prop
  | .output port => port.toNat < maxPorts
  | .remote payload => (LazyCtrl.remotePort payload).toNat < maxPorts
  | .pushVlan _ _ | .popVlan | .set _ => True

def kernelPorts : DpAction → List (BitVec 16)
  | .output port => [port.setWidth 16]
  | .remote payload => [(LazyCtrl.remotePort payload).setWidth 16]
  | .pushVlan _ _ | .popVlan | .set _ => []

def ports : DpAction → List (BitVec 16)
  | .output port => [port.setWidth 16]
  | .remote payload => [(nlAttrGetU32 payload).setWidth 16]
  | .pushVlan _ _ | .popVlan | .set _ => []

def KernelFinds (dp : Datapath) (skb : Skb) (actions : List DpAction) : Prop :=
  (actions.foldlM (fun skb action => (executeAction dp skb action).map Prod.fst) skb).isSome

def Finds (packet : Ofpbuf) (actions : List DpAction) : Prop :=
  (actions.foldlM rewrite packet).isSome

instance (dp : Datapath) (skb : Skb) (actions : List DpAction) :
    Decidable (KernelFinds dp skb actions) :=
  inferInstanceAs (Decidable (_ = true))

instance (packet : Ofpbuf) (actions : List DpAction) : Decidable (Finds packet actions) :=
  inferInstanceAs (Decidable (_ = true))

theorem kernelFinds_cons {dp : Datapath} {skb next : Skb} {action : DpAction} {port : BitVec 32}
    {actions : List DpAction} (taken : executeAction dp skb action = some (next, port)) :
    KernelFinds dp skb (action :: actions) ↔ KernelFinds dp next actions := by
  rw [KernelFinds, List.foldlM_cons, taken]
  rfl

theorem finds_cons {packet next : Ofpbuf} {action : DpAction} {actions : List DpAction}
    (taken : rewrite packet action = some next) :
    Finds packet (action :: actions) ↔ Finds next actions := by
  rw [Finds, List.foldlM_cons, taken]
  rfl

def pendingPorts (prevPort : BitVec 32) : List (BitVec 16) :=
  if prevPort ≠ -1 then [prevPort.setWidth 16] else []

theorem pendingPorts_of_below {port : BitVec 32} (below : port.toNat < maxPorts) :
    pendingPorts port = [port.setWidth 16] := by
  refine if_pos ?_
  rintro rfl
  exact absurd below (by decide)

theorem pendingPorts_executeAction {dp : Datapath} {skb next : Skb} {action : DpAction}
    {port : BitVec 32} (below : PortBelow action)
    (taken : executeAction dp skb action = some (next, port)) :
    pendingPorts port = kernelPorts action := by
  cases action with
  | output out =>
    obtain ⟨rfl, rfl⟩ := Prod.mk.inj (Option.some.inj taken)
    exact pendingPorts_of_below below
  | remote payload =>
    obtain ⟨rfl, rfl⟩ := Prod.mk.inj (Option.some.inj taken)
    exact pendingPorts_of_below below
  | pushVlan tpid tci =>
    obtain ⟨rfl, rfl⟩ := Prod.mk.inj (Option.some.inj taken)
    rfl
  | popVlan =>
    obtain ⟨rfl, rfl⟩ := Prod.mk.inj (Option.some.inj taken)
    rfl
  | set key =>
    obtain ⟨_, _, same⟩ := Option.map_eq_some_iff.mp taken
    obtain ⟨rfl, rfl⟩ := Prod.mk.inj same
    rfl

theorem flushOutput_ports (hasVport : BitVec 16 → Bool) (skb : Skb) (prevPort : BitVec 32) :
    (flushOutput hasVport skb prevPort).map Prod.fst = (pendingPorts prevPort).filter hasVport := by
  rw [flushOutput, pendingPorts]
  split
  · rw [doOutput, List.filter_singleton]
    split <;> simp [*]
  · rfl

theorem executeLoop_ports {dp : Datapath} {hasVport : BitVec 16 → Bool} {skb : Skb}
    {prevPort : BitVec 32} {actions : List DpAction} {sentTo : List (BitVec 16)}
    (below : ∀ action ∈ actions, PortBelow action) :
    (∃ sent, executeLoop dp hasVport skb prevPort actions = some sent ∧
        sent.map Prod.fst = sentTo) ↔
      KernelFinds dp skb actions ∧
        sentTo = (pendingPorts prevPort ++ actions.flatMap kernelPorts).filter hasVport := by
  induction actions generalizing skb prevPort sentTo with
  | nil =>
    simp [executeLoop, KernelFinds, flushOutput_ports, eq_comm]
  | cons action actions ih =>
    cases taken : executeAction dp skb action with
    | none => simp [executeLoop, KernelFinds, taken]
    | some result =>
      obtain ⟨next, port⟩ := result
      have rest := pendingPorts_executeAction (below action (List.mem_cons_self ..)) taken
      have tail : ∀ later ∈ actions, PortBelow later :=
        fun later mem => below later (List.mem_cons_of_mem _ mem)
      rw [kernelFinds_cons taken, List.flatMap_cons, ← rest, List.filter_append]
      constructor
      · rintro ⟨sent, run, rfl⟩
        simp only [executeLoop, taken, Option.bind_eq_bind, Option.bind_some,
          Option.bind_eq_some_iff, Option.some.injEq] at run
        obtain ⟨later, run, rfl⟩ := run
        obtain ⟨finds, same⟩ := (ih tail).mp ⟨later, run, rfl⟩
        exact ⟨finds, by rw [List.map_append, flushOutput_ports, same]⟩
      · rintro ⟨finds, rfl⟩
        obtain ⟨later, run, same⟩ := (@ih next port _ tail).mpr ⟨finds, rfl⟩
        refine ⟨flushOutput hasVport skb prevPort ++ later, ?_, ?_⟩
        · simp [executeLoop, taken, run]
        · rw [List.map_append, flushOutput_ports, same]

theorem dpNetdevOutputPort_ports (hasPort : BitVec 16 → Bool) (packet : Ofpbuf)
    (outPort : BitVec 16) (sentTo : List (BitVec 16)) :
    (∃ sent, dpNetdevOutputPort hasPort packet outPort = some sent ∧ sent.map Prod.fst = sentTo) ↔
      outPort.toNat < maxPorts ∧ sentTo = [outPort].filter hasPort := by
  rw [dpNetdevOutputPort, List.filter_singleton]
  by_cases inside : outPort.toNat < maxPorts
  · cases present : hasPort outPort <;> simp [inside, eq_comm]
  · simp [inside]

theorem sends_ports (hasPort : BitVec 16 → Bool) (packet : Ofpbuf) (action : DpAction)
    (sentTo : List (BitVec 16)) :
    (∃ sent, sends hasPort packet action = some sent ∧ sent.map Prod.fst = sentTo) ↔
      (∀ port ∈ ports action, port.toNat < maxPorts) ∧
        sentTo = (ports action).filter hasPort := by
  cases action with
  | output port =>
    rw [ports, List.forall_mem_singleton]
    exact dpNetdevOutputPort_ports ..
  | remote payload =>
    rw [ports, List.forall_mem_singleton]
    exact dpNetdevOutputPort_ports ..
  | pushVlan tpid tci => simp [sends, ports, eq_comm]
  | popVlan => simp [sends, ports, eq_comm]
  | set key => simp [sends, ports, eq_comm]

theorem dpNetdevExecuteActions_ports {hasPort : BitVec 16 → Bool} {packet : Ofpbuf}
    {actions : List DpAction} {sentTo : List (BitVec 16)} :
    (∃ sent, dpNetdevExecuteActions hasPort packet actions = some sent ∧
        sent.map Prod.fst = sentTo) ↔
      (∀ port ∈ actions.flatMap ports, port.toNat < maxPorts) ∧ Finds packet actions ∧
        sentTo = (actions.flatMap ports).filter hasPort := by
  induction actions generalizing packet sentTo with
  | nil => simp [dpNetdevExecuteActions, Finds, eq_comm]
  | cons action actions ih =>
    rw [List.flatMap_cons, List.filter_append, List.forall_mem_append]
    cases taken : rewrite packet action with
    | none =>
      simp [dpNetdevExecuteActions, Finds, taken]
    | some next =>
      rw [finds_cons taken]
      constructor
      · rintro ⟨sent, run, rfl⟩
        simp only [dpNetdevExecuteActions, taken, Option.bind_eq_bind, Option.bind_some,
          Option.bind_eq_some_iff, Option.some.injEq] at run
        obtain ⟨first, sends, later, run, rfl⟩ := run
        obtain ⟨firstInside, firstSame⟩ := (sends_ports ..).mp ⟨first, sends, rfl⟩
        obtain ⟨inside, finds, same⟩ := ih.mp ⟨later, run, rfl⟩
        exact ⟨⟨firstInside, inside⟩, finds, by rw [List.map_append, firstSame, same]⟩
      · rintro ⟨⟨firstInside, inside⟩, finds, rfl⟩
        obtain ⟨first, sends, firstSame⟩ :=
          (sends_ports hasPort packet action _).mpr ⟨firstInside, rfl⟩
        obtain ⟨later, run, same⟩ := (@ih next _).mpr ⟨inside, finds, rfl⟩
        refine ⟨first ++ later, ?_, by rw [List.map_append, firstSame, same]⟩
        rw [dpNetdevExecuteActions, sends, taken]
        simp [run]

/-- Both datapaths execute the actions and send to the same ports in the same order, whichever
ports exist. -/
def SendsSamePorts (dp : Datapath) (skb : Skb) (packet : Ofpbuf) (actions : List DpAction) : Prop :=
  ∀ hasPort : BitVec 16 → Bool, ∃ kernelSent sent,
    doExecuteActions dp hasPort skb actions = some kernelSent ∧
      dpNetdevExecuteActions hasPort packet actions = some sent ∧
      sent.map Prod.fst = kernelSent.map Prod.fst

/-- The half word of the payload of a `REMOTE` that the daemon reads is its port. -/
def ReadsPort : DpAction → Prop
  | .remote payload =>
    (LazyCtrl.remoteIp payload).setWidth 16 = (LazyCtrl.remotePort payload).setWidth 16
  | .output _ | .pushVlan _ _ | .popVlan | .set _ => True

instance : DecidablePred ReadsPort := by
  intro action
  cases action <;> unfold ReadsPort <;> infer_instance

theorem ports_eq_iff (action : DpAction) : ports action = kernelPorts action ↔ ReadsPort action := by
  cases action <;> simp [ports, kernelPorts, ReadsPort, nlAttrGetU32, LazyCtrl.remoteIp]

theorem length_ports (action : DpAction) :
    (ports action).length = (kernelPorts action).length := by
  cases action <;> rfl

theorem flatMap_ports_eq_iff (actions : List DpAction) :
    actions.flatMap ports = actions.flatMap kernelPorts ↔ ∀ action ∈ actions, ReadsPort action := by
  induction actions with
  | nil => simp
  | cons action actions ih =>
    rw [List.flatMap_cons, List.flatMap_cons, List.forall_mem_cons, ← ih, ← ports_eq_iff]
    refine ⟨fun same => List.append_inj same (length_ports action), ?_⟩
    rintro ⟨first, rest⟩
    rw [first, rest]

theorem kernelPorts_below {action : DpAction} (below : PortBelow action) :
    ∀ port ∈ kernelPorts action, port.toNat < maxPorts := by
  have narrow (port : BitVec 32) (below : port.toNat < maxPorts) :
      (port.setWidth 16).toNat < maxPorts := by
    rw [BitVec.toNat_setWidth]
    exact lt_of_le_of_lt (Nat.mod_le ..) below
  cases action with
  | output port => exact List.forall_mem_singleton.mpr (narrow port below)
  | remote payload => exact List.forall_mem_singleton.mpr (narrow _ below)
  | pushVlan tpid tci => exact fun _ mem => nomatch mem
  | popVlan => exact fun _ mem => nomatch mem
  | set key => exact fun _ mem => nomatch mem

/-- The datapaths send to the same ports exactly when the low half word of the address of every
`REMOTE` is its port, and both find every header that a `SET` names. -/
theorem sendsSamePorts_iff (dp : Datapath) (skb : Skb) (packet : Ofpbuf) {actions : List DpAction}
    (below : ∀ action ∈ actions, PortBelow action) :
    SendsSamePorts dp skb packet actions ↔
      (∀ action ∈ actions, ReadsPort action) ∧ KernelFinds dp skb actions ∧
        Finds packet actions := by
  constructor
  · intro same
    obtain ⟨kernelSent, sent, kernelRun, run, agree⟩ := same fun _ => true
    obtain ⟨kernelFinds, kernelSame⟩ := (executeLoop_ports below).mp ⟨kernelSent, kernelRun, rfl⟩
    obtain ⟨_, finds, sentTo⟩ := dpNetdevExecuteActions_ports.mp ⟨sent, run, rfl⟩
    refine ⟨(flatMap_ports_eq_iff actions).mp ?_, kernelFinds, finds⟩
    rw [sentTo, kernelSame] at agree
    simpa [pendingPorts] using agree
  · rintro ⟨reads, kernelFinds, finds⟩ hasPort
    have agree := (flatMap_ports_eq_iff actions).mpr reads
    have inside : ∀ port ∈ actions.flatMap ports, port.toNat < maxPorts := by
      rw [agree]
      intro port mem
      obtain ⟨action, mem, portMem⟩ := List.mem_flatMap.mp mem
      exact kernelPorts_below (below action mem) port portMem
    obtain ⟨kernelSent, kernelRun, kernelSame⟩ :=
      (@executeLoop_ports dp hasPort skb (-1) actions _ below).mpr ⟨kernelFinds, rfl⟩
    obtain ⟨sent, run, same⟩ :=
      (@dpNetdevExecuteActions_ports hasPort packet actions _).mpr ⟨inside, finds, rfl⟩
    refine ⟨kernelSent, sent, kernelRun, run, ?_⟩
    rw [same, kernelSame, agree]
    rfl

def udpFrame : List Byte :=
  List.replicate 12 2 ++ put16 ethPIp ++ [0x45, 0, 0, 46, 0, 0, 0, 0, 64, ipprotoUdp, 0, 0] ++
    put32 0x0a000001 ++ put32 0x0a000002 ++ [0, 7, 0, 8, 0, 26, 0, 0] ++ List.replicate 18 0

def udpSkb : Skb := { netdevReceive udpFrame with transportHeader := 34 }

theorem sendsSamePorts_udpFrame :
    SendsSamePorts { localIp := 1, gdt := none } udpSkb (.received udpFrame)
      [.set (.udp 9 10), .output 1, .pushVlan ethP8021Q 0x1005, .remote 0x000000020a000002] :=
  (sendsSamePorts_iff _ _ _ (by simp [PortBelow, LazyCtrl.remotePort, maxPorts])).mpr (by decide)

/-- For port 2 and the address 10.0.0.1 the daemon sends to port 1. -/
theorem not_sendsSamePorts_remote :
    (∀ action ∈ [DpAction.remote 0x000000020a000001], PortBelow action) ∧
      ¬ SendsSamePorts { localIp := 1, gdt := none } udpSkb (.received udpFrame)
          [.remote 0x000000020a000001] := by
  refine ⟨by simp [PortBelow, LazyCtrl.remotePort, maxPorts], fun same => ?_⟩
  obtain ⟨kernelSent, sent, kernelRun, run, agree⟩ := same fun _ => true
  have kernelTo : some (kernelSent.map Prod.fst) = some [2] := by
    rw [← Option.map_some, ← kernelRun]
    decide
  have sentTo : some (sent.map Prod.fst) = some [1] := by
    rw [← Option.map_some, ← run]
    decide
  rw [Option.some.inj kernelTo, Option.some.inj sentTo] at agree
  exact absurd agree (by decide)

end Netdev
end LazyCtrl
