import Iperf3.MachineInt
import Iperf3.Binary64
import Iperf3.CJson
import Iperf3.TestModel
import Iperf3.Parameters
import Iperf3.Arguments
import Iperf3.ServerStart
import Iperf3.ParameterFields
import Iperf3.Isolation
import Iperf3.IperfTime
import Iperf3.LinkedList
import Iperf3.TimerQueue
import Iperf3.TimerOrder
import Iperf3.ServerLimits
import Iperf3.RateWindow
import Iperf3.SequenceLoss
import Iperf3.Udp
import Iperf3.UdpAccounting
import Iperf3.JsonFrame
import Iperf3.Results
import Iperf3.ResultAgreement
import Iperf3.ClientStart
import Iperf3.ParameterRoundTrip
import Iperf3.Server
import Iperf3.ServerFrame
import Iperf3.WorkerLifetime
import Iperf3.StrangerIsolation
import Iperf3.ServerRuns
import Iperf3.IntervalBytes
import Iperf3.EndCondition
import Iperf3.ErrorReports
import Iperf3.OneOff
import Iperf3.ControlOrder
import Iperf3.ServerTimers
import Iperf3.Descriptors
import Iperf3.ServerSockets
import Iperf3.Sequence
import Iperf3.Workers
import Iperf3.ServerJoins
import Iperf3.Client
import Iperf3.ClientJoins
import Iperf3.ObjectTable
import Iperf3.Win32Dispatch
import Iperf3.SocketLoops
import Iperf3.WindowsService
import Iperf3.StrideLoop
import Iperf3.UdpBuffers
import Iperf3.SendPaths
import Iperf3.ReceivePaths
import Iperf3.OmitAccounting
import Iperf3.CyclicBuffer
import Iperf3.RateAverage
import Iperf3.TimerFirings
import Iperf3.ReceiveTimeout
import Iperf3.DataWatch
import Iperf3.StreamPairing
import Iperf3.TcpSend
import Iperf3.WriteCounts
import Iperf3.TcpAccounting
import Iperf3.DiskfileSend
import Iperf3.JsonTransfer
import Iperf3.UdpTotals
import Iperf3.IntervalSums
import Iperf3.Channel
import Iperf3.ControlConnection
import Iperf3.ControlScript
import Iperf3.ServerScript
import Iperf3.ControlServer
import Iperf3.ClientScript
import Iperf3.ControlClient
import Iperf3.ControlAgreement
import Iperf3.TimerTimeout
import Iperf3.CString
import Iperf3.Getopt
import Iperf3.GetoptProgress
import Iperf3.GetoptRoundTrip
import Iperf3.FloatScan
import Iperf3.DecimalNumeral
import Iperf3.SizeOptions
import Iperf3.ClientPorts
import Iperf3.StreamResources
import Iperf3.Base64
import Iperf3.ScanFormat
import Iperf3.AuthToken
import Iperf3.UsersFile
import Iperf3.UdpConnect
import Iperf3.DecodeLength
import Iperf3.WindowsClock
import Iperf3.DoubleRange
import Iperf3.Strtod
import Iperf3.DecimalPrinting
import Iperf3.JsonItem
import Iperf3.JsonNumber
import Iperf3.JsonParser
import Iperf3.JsonReader
import Iperf3.JsonParserSafety
import Iperf3.JsonText
import Iperf3.JsonRoundTrip
import Iperf3.PrintBuffer
import Iperf3.PrintRefinement
import Iperf3.JsonCodec
import Iperf3.Contracts
import Iperf3.SystemCalls
import Iperf3.SocketSetup
import Iperf3.TcpSockets
import Iperf3.RingList
import Iperf3.JsonHeap
import Iperf3.JsonForest
import Iperf3.JsonOwnership
import Iperf3.JsonMembers
import Iperf3.JsonBuilding
import Iperf3.JsonDetach
import Iperf3.JsonLifecycle
