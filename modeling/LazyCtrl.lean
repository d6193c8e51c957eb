import LazyCtrl.Lib.Run
import LazyCtrl.Lib.Keyed
import LazyCtrl.Lib.Lru
import LazyCtrl.Lib.Bloom
import LazyCtrl.Lib.Bytes
import LazyCtrl.Lib.Record
import LazyCtrl.Lib.Frames
import LazyCtrl.Lib.Netlink
import LazyCtrl.Lib.Reading
import LazyCtrl.Lib.Segments
import LazyCtrl.Lib.Text
import LazyCtrl.Bf.Filter
import LazyCtrl.Bf.Gdt
import LazyCtrl.Bf.Table
import LazyCtrl.Bf.Standard
import LazyCtrl.Bf.Lengths
import LazyCtrl.Datapath.BfGdtCmd
import LazyCtrl.Datapath.BfGdtDump
import LazyCtrl.Datapath.UpdateFilter
import LazyCtrl.Datapath.Skb
import LazyCtrl.Datapath.Remote
import LazyCtrl.Datapath.Actions
import LazyCtrl.Datapath.VlanStack
import LazyCtrl.Datapath.Execution
import LazyCtrl.Datapath.Ownership
import LazyCtrl.Packet.OvsExtract
import LazyCtrl.Packet.OvsNlattrs
import LazyCtrl.Packet.KeyRoundTrip
import LazyCtrl.Packet.Extracted
import LazyCtrl.Packet.FlowTable
import LazyCtrl.Packet.FlowMap
import LazyCtrl.Ofp.MetaFlow
import LazyCtrl.Ofp.Ofpact
import LazyCtrl.Ofp.Encode
import LazyCtrl.Ofp.Decode
import LazyCtrl.Ofp.Image
import LazyCtrl.Ofp.NoDrop
import LazyCtrl.Ofp.LearnCodec
import LazyCtrl.Ofp.WireAction
import LazyCtrl.Ofp.RoundTrip
import LazyCtrl.Ofp.Messages
import LazyCtrl.Ofp.Openflow11
import LazyCtrl.Ofp.RoundTrip11
import LazyCtrl.Packet.FlowExtract
import LazyCtrl.Datapath.Netdev
import LazyCtrl.Packet.OdpKey
import LazyCtrl.Packet.KeyFlow
import LazyCtrl.Packet.SameFlow
import LazyCtrl.Mcast.Bridge
import LazyCtrl.Mcast.TableCalls
import LazyCtrl.Mcast.Datagram
import LazyCtrl.Mcast.Switch
import LazyCtrl.Mcast.Group
import LazyCtrl.Mcast.Coverage
import LazyCtrl.Mcast.Regroup
import LazyCtrl.Packet.FlowKey
import LazyCtrl.Packet.Received
import LazyCtrl.Mcast.NoSelf
import LazyCtrl.Ofproto.LocalSenders
import LazyCtrl.Ofproto.MissUpcalls
import LazyCtrl.Controller.Codec
import LazyCtrl.Controller.BasicFactory
import LazyCtrl.Controller.Boundaries
import LazyCtrl.Controller.RemoteMessages
import LazyCtrl.Controller.LocationTables
import LazyCtrl.Controller.LoadFromPacket
import LazyCtrl.Controller.PacketIn
import LazyCtrl.Ofp.ClsRule
import LazyCtrl.Controller.FlowRemoved
import LazyCtrl.Daemons.GroupPush
import LazyCtrl.Daemons.DoGroup
import LazyCtrl.Odp.ActionText
import LazyCtrl.Odp.TextRoundTrip
import LazyCtrl.Odp.ErrorContract
import LazyCtrl.Ofp.ActionText
import LazyCtrl.Ofp.TextRoundTrip
import LazyCtrl.Sim.DataCenter
import LazyCtrl.Sim.Groups
import LazyCtrl.Sim.MetisPartition
import LazyCtrl.Sim.Hosts
import LazyCtrl.Sim.Traffic
import LazyCtrl.Sim.ControllerLoad
import LazyCtrl.Sim.Affinity
import LazyCtrl.Sim.Cut
import LazyCtrl.Lib.Adjacency
import LazyCtrl.Sim.FatTree
import LazyCtrl.Lib.NlaWalk
import LazyCtrl.Datapath.NestedActions
