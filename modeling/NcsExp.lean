import NcsExp.Theory.Runs
import NcsExp.Theory.History
import NcsExp.Theory.Memory
import NcsExp.Theory.Semaphore
import NcsExp.Theory.Progress
import NcsExp.Theory.SList
import NcsExp.Theory.FloatOrder
import NcsExp.Theory.SelectionSort
import NcsExp.UartAdapter.Model
import NcsExp.UartAdapter.TxLedger
import NcsExp.UartAdapter.TxConservation
import NcsExp.UartAdapter.TxTimeout
import NcsExp.UartAdapter.CallStack
import NcsExp.UartAdapter.RxLedger
import NcsExp.UartAdapter.RxStream
import NcsExp.UartAdapter.RxConservation
import NcsExp.UartAdapter.RxOwnership
import NcsExp.UartAdapter.RxOff
import NcsExp.FlashStream.Model
import NcsExp.FlashStream.Overrun
import NcsExp.FlashStream.Credits
import NcsExp.Pcd.Model
import NcsExp.Pcd.Turns
import NcsExp.Pcd.AppSteps
import NcsExp.Pcd.NetSteps
import NcsExp.Pcd.Handover
import NcsExp.Pcd.Complete
import NcsExp.Pcd.Progress
import NcsExp.Pcd.Exclusive
import NcsExp.Throughput.Model
import NcsExp.Throughput.Config
import NcsExp.Throughput.Connections
import NcsExp.Peers.Model
import NcsExp.Peers.Structure
import NcsExp.Peers.Retention
import NcsExp.Peers.Closest
import NcsExp.Peers.Filter
import NcsExp.Peers.Leds
import NcsExp.CentralUart.Pacing
import NcsExp.NusBridge.Model
import NcsExp.NusBridge.RxModel
import NcsExp.NusBridge.RxOwnership
import NcsExp.NusBridge.TxOrder
import NcsExp.NusBridge.AbortResume
import NcsExp.Gateway.Aggregator
import NcsExp.Gateway.Model
import NcsExp.Gateway.Records
import NcsExp.Gateway.CloudLink
import NcsExp.Gateway.Drain
import NcsExp.HsUart.DoubleBuffer
import NcsExp.IsoBroadcast.Settings
import NcsExp.IsoBroadcast.Payload
import NcsExp.Rpc.Model
import NcsExp.Rpc.Responses
import NcsExp.Rpc.RoundTrip
import NcsExp.Rpc.Smp
import NcsExp.SimUart.Link
import NcsExp.NusBridge.Connections
import NcsExp.UartAdapter.RxBusy
import NcsExp.UartAdapter.RxError
import NcsExp.UdpOnOff.Sockets
import NcsExp.LteUpload.Cycle
import NcsExp.LteUpload.Registration
import NcsExp.Theory.Slots
import NcsExp.MultiLink.Model
import NcsExp.MultiLink.Table
import NcsExp.MultiLink.Scanning
import NcsExp.IsoReceiver.Model
import NcsExp.IsoReceiver.PaSync
import NcsExp.IsoReceiver.BigSync
import NcsExp.Battery.Level
import NcsExp.Battery.Sample
import NcsExp.Throughput.Service
import NcsExp.Throughput.Rate
import NcsExp.Theory.Numerals
import NcsExp.Throughput.Shell
import NcsExp.Peers.FindClosest
import NcsExp.Peers.TrimmedMean
import NcsExp.NusBridge.Chunking
import NcsExp.IsoBroadcast.Prompts
import NcsExp.Rpc.Bounds
import NcsExp.IsoReceiver.Statistics
import NcsExp.BeaconScan.Bounds
import NcsExp.IsoBroadcast.Bis
import NcsExp.IsoReceiver.AverageDuration
import NcsExp.Mqtt.Reader
import NcsExp.NusThroughput.Reports
import NcsExp.UdpOnOff.Payload
import NcsExp.Theory.DelayableWork
import NcsExp.Gateway.Reconnect
import NcsExp.NusThroughput.Tests
import NcsExp.Theory.LittleEndian
import NcsExp.Throughput.Measurement
import NcsExp.FlashStream.Image
import NcsExp.BeaconScan.Beacon
import NcsExp.Loader.Model
import NcsExp.Loader.Contracts
import NcsExp.Loader.NetworkCore
import NcsExp.Loader.Validated
import NcsExp.Theory.NorFlash
import NcsExp.Loader.Overwrite
import NcsExp.Peers.Sync
import NcsExp.Theory.Insertion
import NcsExp.NusBridge.EndToEnd
import NcsExp.Loader.DirectXip
