import XpNet.Interference.Logic
import XpNet.Tx.Model
import XpNet.Tx.Rules
import XpNet.Tx.Indices
import XpNet.Tx.Chain
import XpNet.Tx.Discipline
import XpNet.Tx.Enqueue
import XpNet.Tx.Calls
import XpNet.Tx.Runs
import XpNet.Tx.Frame
import XpNet.Interference.Trace
import XpNet.Tx.Netdev
import XpNet.Intf.Messages
import XpNet.Buckets
import XpNet.Intf.Table
import XpNet.Intf.Trap
import XpNet.Intf.Driver
import XpNet.Intf.Netlink
import XpNet.Rx.Model
import XpNet.Rx.Window
import XpNet.Rx.Polls
import XpNet.Pci.Regs
import XpNet.Pci.RegAccess
import XpNet.Pci.RegTransfers
import XpNet.Pci.Irq
import XpNet.Histories
import XpNet.Pci.DmaMem
import XpNet.Pci.Probe
import XpNet.Tx.Buffers
import XpNet.Tx.Entries
import XpNet.Tx.Release
import XpNet.Netdev.Deinit
import XpNet.Init.Mode
import XpNet.Init.Queues
import XpNet.Init.Balance
import XpNet.Init.Teardown
import XpNet.Init.Globals
import XpNet.Init.Requests
import XpNet.Init.Failures
import XpNet.Pci.Fields
import XpNet.Pci.MgmtIrq
import XpNet.Intf.Receive
import XpNet.Rx.Swap
import XpNet.Rx.Headers
import XpNet.IrqLocks
import XpNet.Intf.Locks
import XpNet.Interference.Track
import XpNet.Tx.Counters
import XpNet.Tx.Tally
import XpNet.Tx.Recovery
import XpNet.Intf.Malformed
import XpNet.Interference.Refines
import XpNet.Interference.Locking
import XpNet.Regs.Access
import XpNet.Regs.Setup
import XpNet.Regs.Traffic
import XpNet.Regs.Operations
import XpNet.Interference.History
import XpNet.Tx.Drops
import XpNet.Tx.Publish
import XpNet.Rx.Rejects
import XpNet.Rx.Stores
import XpNet.Intf.Links
import XpNet.Intf.Addressed
import XpNet.Init.Sockets
import XpNet.Intf.Atomic
import XpNet.Intf.TrapEntries
import XpNet.Init.AllOrNothing
import XpNet.Holding
import XpNet.Pci.Touches
import XpNet.Pci.LowSummary
import XpNet.Pci.RegMemory
import XpNet.Pci.DmaBlocks
import XpNet.Pci.ProbeUnwind
import XpNet.Pci.ModuleInit
import XpNet.Pci.Minors
import XpNet.Interference.Upheld
import XpNet.Rx.Armed
import XpNet.Rx.Chain
import XpNet.Interference.Masked
import XpNet.Tx.Completion
import XpNet.Tx.Wire
import XpNet.Simulation
import XpNet.Registry
import XpNet.Intf.Switchboard
import XpNet.Lifecycle
import XpNet.Intf.NetDevices
import XpNet.Interference.Monitor
import XpNet.Interference.Sections
import XpNet.Interference.Threads
import XpNet.Regs.Senders
import XpNet.Regs.Serial
import XpNet.Tx.Beside
import XpNet.Tx.Paths
import XpNet.Pci.Events
import XpNet.Scan
import XpNet.Rx.Row
import XpNet.Rx.Delivery
import XpNet.Pci.ProcText
