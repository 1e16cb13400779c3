import OpenMul.Core.References
import OpenMul.Core.ActiveCount
import OpenMul.Topo.SpanningTree
import OpenMul.Core.MirrorRun
import OpenMul.Core.SwitchRun
import OpenMul.Topo.LldpDiscovery
import OpenMul.Ha.SingleMaster
import OpenMul.Core.OxmRoundTrip
import OpenMul.Core.CookieRun
import OpenMul.Core.ActRoundTrip
import OpenMul.Core.AppAtomic
import OpenMul.Core.StatsSound
import OpenMul.Core.TableIndex
import OpenMul.Core.MeterSeparated
import OpenMul.Core.RegistrationBooked
import OpenMul.Core.InProcess
import OpenMul.Topo.RouteEqualCost
import OpenMul.Core.L2FdbRun
import OpenMul.Core.SocketIntegrity
import OpenMul.Ha.GenerationId
import OpenMul.Core.SocketSched
import OpenMul.Core.Rlim
import OpenMul.Core.FlowExtract
import OpenMul.Core.PacketOut
import OpenMul.Core.NormalizeExact
import OpenMul.Core.Of10Match
import OpenMul.Core.AppPortView
import OpenMul.Topo.LldpCounted
import OpenMul.Conx.UserFlow
import OpenMul.Conx.TunnelRoute
import OpenMul.Core.AppPrep
import OpenMul.Core.GroupMirror
import OpenMul.Fabric.Route
import OpenMul.Makdi.NfvGroup
import OpenMul.Core.IndexPool
import OpenMul.Topo.AdjMatrix
import OpenMul.Core.CbufRefined
