import Cva6.Sync.Machine
import Cva6.Sync.Answer
import Cva6.Sync.Overlay
import Cva6.Sync.Handshake
import Cva6.Sync.Pair
import Cva6.Sync.Ring
import Cva6.Sync.Speculation
import Cva6.Sync.Forward
import Cva6.Sync.RoundRobin
import Cva6.Sync.Schedule
import Cva6.Arith.SerialDivision
import Cva6.Pkg
import Cva6.Riscv
import Cva6.Decoder
import Cva6.Cfi
import Cva6.Commit
import Cva6.Csr.Regs
import Cva6.Csr.Regfile
import Cva6.Csr.Properties
import Cva6.Csr.Pmp
import Cva6.Csr.Privilege
import Cva6.Csr.CounterAccess
import Cva6.Csr.Effects
import Cva6.Csr.DecodeContext
import Cva6.Csr.TrapReturn
import Cva6.Csr.TrapVector
import Cva6.Csr.PerfCounters
import Cva6.Pmp.Region
import Cva6.Pmp.Check
import Cva6.Pmp.ReadBack
import Cva6.Controller
import Cva6.Backend.Model
import Cva6.Backend.Exceptions
import Cva6.Backend.CsrFaults
import Cva6.Backend.LowerPrivilege
import Cva6.Backend.DebugSession
import Cva6.Backend.FailStop
import Cva6.Backend.Traps
import Cva6.Backend.Flush
import Cva6.Issue.Scoreboard
import Cva6.Issue.Window
import Cva6.Issue.ScoreboardOrder
import Cva6.Issue.ReadOperands
import Cva6.Lsu.Types
import Cva6.Lsu.StoreBuffer
import Cva6.Lsu.StoreUnit
import Cva6.Lsu.StoreOrder
import Cva6.Core.Model
import Cva6.Core.StoreCommit
import Cva6.Core.Operands
import Cva6.Core.Forwarding
import Cva6.Core.Sequential
import Cva6.Core.RegisterWrites
import Cva6.Core.DualCommit
import Cva6.Sync.Fifo
import Cva6.CompressedDecoder
import Cva6.BranchUnit
import Cva6.Alu
import Cva6.Isa.Instr
import Cva6.Isa.Decode
import Cva6.Isa.Accept
import Cva6.Isa.Compressed
import Cva6.Mult.Serdiv
import Cva6.Mult.Model
import Cva6.Mult.Values
import Cva6.Ex.FixedLatency
import Cva6.Ex.WritePort
import Cva6.Core.Executed
import Cva6.Core.CsrAddress
import Cva6.Core.Marker
import Cva6.Core.EventCounts
import Cva6.IdStage
import Cva6.Lsu.LoadUnit
import Cva6.Lsu.Bypass
import Cva6.Lsu.Model
import Cva6.Lsu.Misaligned
import Cva6.Lsu.LoadOrder
import Cva6.Lsu.LoadPath
import Cva6.Lsu.LoadWriteBack
import Cva6.Icache.Model
import Cva6.Icache.Contents
import Cva6.Icache.Memory
import Cva6.Frontend.Scan
import Cva6.Frontend.Realign
import Cva6.Frontend.Queue
import Cva6.Frontend.InOrder
import Cva6.Frontend.Model
import Cva6.Frontend.Parcels
import Cva6.Frontend.Walk
import Cva6.Frontend.Prediction
import Cva6.Frontend.Stream
import Cva6.Frontend.Delivery
import Cva6.Frontend.Predecode
import Cva6.Frontend.Redirect
import Cva6.Pipeline.Model
import Cva6.Pipeline.Squash
import Cva6.Arith.Words
import Cva6.Dcache.Types
import Cva6.Dcache.Mem
import Cva6.Dcache.Wbuffer
import Cva6.Dcache.Missunit
import Cva6.Dcache.Ctrl
import Cva6.Dcache.Model
import Cva6.Dcache.WbufferInv
import Cva6.Dcache.ByteStates
import Cva6.Dcache.Requests
import Cva6.Dcache.Splitting
import Cva6.Dcache.NonIdempotent
import Cva6.Dcache.Lines
import Cva6.Dcache.OneHolder
import Cva6.Dcache.Checked
import Cva6.Dcache.InFlight
import Cva6.Dcache.Consistency
import Cva6.DataSide.Model
import Cva6.DataSide.DataPath
import Cva6.DataSide.Tracked
import Cva6.DataSide.Linked
import Cva6.DataSide.Loads
import Cva6.DataSide.Atomics
import Cva6.Axi.Adapter
import Cva6.Axi.Shim
import Cva6.Axi.StoreBytes
import Cva6.Axi.Bus
import Cva6.Axi.Arbiter
import Cva6.Axi.Flight
import Cva6.Axi.Cycle
import Cva6.Axi.Routing
import Cva6.Axi.Attached
import Cva6.Axi.StoreConditional
import Cva6.Pipeline.InFlight
import Cva6.Pipeline.Restart
import Cva6.Pipeline.Context
import Cva6.Pipeline.Interrupts
import Cva6.Pipeline.InterruptSelect
import Cva6.Cdc.TwoPhase
import Cva6.Plic.Claims
