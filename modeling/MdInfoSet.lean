import MdInfoSet.Core.Machine
import MdInfoSet.Core.Mem
import MdInfoSet.Core.Framing
import MdInfoSet.Core.Fifo
import MdInfoSet.L1Encoding.Lv2Frame
import MdInfoSet.L2Machine.RingBuffer
import MdInfoSet.L5Concurrency.RingMpsc
import MdInfoSet.L5Concurrency.RingSpsc
import MdInfoSet.L4App.Filter
import MdInfoSet.L4App.GfexFilter
import MdInfoSet.L4App.DceFilter
import MdInfoSet.L1Encoding.Lv2Quote
import MdInfoSet.L4App.VolumeDecoder
import MdInfoSet.Core.XorStream
import MdInfoSet.L1Encoding.DceKey
import MdInfoSet.L3Protocol.DceDecode
import MdInfoSet.L4App.GfexHandlers
import MdInfoSet.L4App.GfexIndex
import MdInfoSet.L4App.GfexReceiver
import MdInfoSet.L4App.GfexSaved
import MdInfoSet.L4App.GfexStaticInfo
import MdInfoSet.L4App.Suppression
import MdInfoSet.L2Machine.Lv2Handler
import MdInfoSet.L3Protocol.Lv2Reassembly
import MdInfoSet.L1Encoding.Lv1Head
import MdInfoSet.L2Machine.Lv1Handler
import MdInfoSet.L3Protocol.Lv1Reassembly
import MdInfoSet.L4App.GfexDispatch
import MdInfoSet.L4App.DceClock
import MdInfoSet.Core.EarlyExit
import MdInfoSet.L1Encoding.SzseSnapshot
import MdInfoSet.L4App.DceSession
import MdInfoSet.Core.Setbacks
import MdInfoSet.L4App.NanoGfex
import MdInfoSet.L4App.SzseOption
import MdInfoSet.L1Encoding.ZxMessage
import MdInfoSet.L4App.ZxGfex
import MdInfoSet.Core.LowerBound
import MdInfoSet.L2Machine.InstMap
import MdInfoSet.L1Encoding.DceL2
import MdInfoSet.L4App.DceReceiver
import MdInfoSet.L4App.DceDepth
import MdInfoSet.L1Encoding.ExanicMessages
import MdInfoSet.L4App.ExanicHandlers
import MdInfoSet.L4App.ExanicSnapshot
import MdInfoSet.Core.Debounce
import MdInfoSet.L1Encoding.AccMd
import MdInfoSet.L4App.GfexAgreement
import MdInfoSet.L4App.TrafficControl
import MdInfoSet.L2Machine.ShmLog
import MdInfoSet.L1Encoding.NanoMd
import MdInfoSet.L4App.ShmCsv
import MdInfoSet.L5Concurrency.TcpServer
import MdInfoSet.L5Concurrency.TcpHandles
import MdInfoSet.L5Concurrency.TcpThreads
import MdInfoSet.L5Concurrency.TcpMessages
import MdInfoSet.L4App.DayInterval
import MdInfoSet.L5Concurrency.ThreadPool
import MdInfoSet.Core.WhileLoop
import MdInfoSet.L2Machine.Lv1Termination
import MdInfoSet.L2Machine.Lv2Rounds
import MdInfoSet.L3Protocol.Lv2Products
import MdInfoSet.L2Machine.Lv1Bounds
import MdInfoSet.Core.IndexedTable
import MdInfoSet.Core.KeyedWrites
import MdInfoSet.L4App.Lv1Fields
import MdInfoSet.L4App.Lv1Increments
import MdInfoSet.L2Machine.InstMapRuns
import MdInfoSet.L4App.GfexIsolation
import MdInfoSet.L4App.InstrumentLoading
import MdInfoSet.L4App.GfexSymbol
import MdInfoSet.L2Machine.RawTcpReceiver
import MdInfoSet.L3Protocol.TcpFrames
import MdInfoSet.Core.Spans
import MdInfoSet.L4App.ZxBounds
import MdInfoSet.L4App.SzseBounds
import MdInfoSet.L4App.SzseEntries
import MdInfoSet.Core.DayTime
import MdInfoSet.L4App.SseOption
import MdInfoSet.L4App.ExchangeTime
import MdInfoSet.Core.Calendar
import MdInfoSet.Core.Checked
import MdInfoSet.L4App.TradingTime
import MdInfoSet.L4App.TradingDays
import MdInfoSet.L4App.WeekNumber
import MdInfoSet.L4App.ContractCode
import MdInfoSet.L4App.FutureExpiry
import MdInfoSet.L4App.OptionExpiry
import MdInfoSet.L4App.FebaoInstruments
import MdInfoSet.L2Machine.ShmPosix
import MdInfoSet.L4App.NanoGfexRecord
import MdInfoSet.Core.Binary64Normal
import MdInfoSet.L4App.DceRejected
import MdInfoSet.L4App.SseDayRange
import MdInfoSet.Core.Search
import MdInfoSet.L4App.StringSplit
import MdInfoSet.L4App.BulkSubscribe
import MdInfoSet.L4App.TimeStrings
import MdInfoSet.L4App.ClearRecords
import MdInfoSet.L2Machine.Lv2HalfPacket
import MdInfoSet.Core.GenerationRing
import MdInfoSet.L2Machine.ExanicRx
import MdInfoSet.L2Machine.ExanicCatchup
import MdInfoSet.L5Concurrency.ExanicReader
import MdInfoSet.L5Concurrency.GfexPipeline
import MdInfoSet.L5Concurrency.ThreadPoolWakeups
import MdInfoSet.L5Concurrency.TcpWire
import MdInfoSet.Core.PackedRecord
import MdInfoSet.L1Encoding.CffexQuote
import MdInfoSet.L4App.CffexQuota
import MdInfoSet.L5Concurrency.CffexPipeline
import MdInfoSet.L5Concurrency.ShmLive
import MdInfoSet.L4App.DceFeed
import MdInfoSet.L4App.DcePipeline
