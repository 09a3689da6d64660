import TraveoBodyDomain.Lib.Machine
import TraveoBodyDomain.Lib.Increasing
import TraveoBodyDomain.Lib.DurableMap
import TraveoBodyDomain.Lib.LittleEndian
import TraveoBodyDomain.Secoc.Freshness
import TraveoBodyDomain.Secoc.Sender
import TraveoBodyDomain.Secoc.Receiver
import TraveoBodyDomain.Secoc.Preemption
import TraveoBodyDomain.Secoc.Frame
import TraveoBodyDomain.Messages
import TraveoBodyDomain.Secoc.Rx
import TraveoBodyDomain.Store.Record
import TraveoBodyDomain.Node.App
import TraveoBodyDomain.Node.Network
import TraveoBodyDomain.Node.Steps
import TraveoBodyDomain.Node.Invariants
import TraveoBodyDomain.Node.Authenticity
import TraveoBodyDomain.Node.Heard
import TraveoBodyDomain.Node.Resync
import TraveoBodyDomain.Node.Adoption
import TraveoBodyDomain.Node.Recovery
import TraveoBodyDomain.Lib.TwoSlot
import TraveoBodyDomain.Lib.WordFlash
import TraveoBodyDomain.Store.Store
import TraveoBodyDomain.Store.Port
import TraveoBodyDomain.Store.Commit
import TraveoBodyDomain.Store.FailedCommit
import TraveoBodyDomain.Store.Crash
import TraveoBodyDomain.Store.Interleaving
import TraveoBodyDomain.Diag.Isotp
import TraveoBodyDomain.Diag.HostIsotp
import TraveoBodyDomain.Diag.IsotpPair
import TraveoBodyDomain.Diag.Flash
import TraveoBodyDomain.Diag.Uds
import TraveoBodyDomain.Diag.Privilege
import TraveoBodyDomain.Diag.Interference
import TraveoBodyDomain.Diag.Reprogram
import TraveoBodyDomain.Crypto.Ipc
import TraveoBodyDomain.Crypto.Service
import TraveoBodyDomain.Crypto.Dispatch
import TraveoBodyDomain.Crypto.Mailbox
import TraveoBodyDomain.Lib.CircularBuffer
import TraveoBodyDomain.Log.Log
import TraveoBodyDomain.Log.Fifo
import TraveoBodyDomain.Lib.Incremental
import TraveoBodyDomain.Log.Decoder
import TraveoBodyDomain.Log.RoundTrip
import TraveoBodyDomain.Log.Loss
import TraveoBodyDomain.Log.Nested
import TraveoBodyDomain.Log.InTurn
import TraveoBodyDomain.Sched.Invariant
import TraveoBodyDomain.Boot.Boot
import TraveoBodyDomain.Boot.Decision
import TraveoBodyDomain.Boot.HandOff
import TraveoBodyDomain.Boot.Containment
import TraveoBodyDomain.Boot.Authentic
import TraveoBodyDomain.SysMgr.Sequencing
import TraveoBodyDomain.Node.LostSync
import TraveoBodyDomain.Node.SenderDown
import TraveoBodyDomain.Node.Delivery
import TraveoBodyDomain.Secoc.FreshnessPair
import TraveoBodyDomain.Secoc.EpochRecovery
import TraveoBodyDomain.Secoc.EpochWrap
import TraveoBodyDomain.Secoc.Verdicts
import TraveoBodyDomain.Secoc.FrameLength
import TraveoBodyDomain.Diag.SecurityAccess
import TraveoBodyDomain.Diag.Independence
import TraveoBodyDomain.Diag.UnlockLifetime
import TraveoBodyDomain.Diag.IsotpMemory
import TraveoBodyDomain.Diag.Reassembly
import TraveoBodyDomain.Crypto.IpcResources
import TraveoBodyDomain.Crypto.MacClient
import TraveoBodyDomain.Crypto.MacRpc
import TraveoBodyDomain.Log.Chunks
import TraveoBodyDomain.Diag.FlashGeometry
import TraveoBodyDomain.Boot.ImageBounds
import TraveoBodyDomain.Diag.DownloadRun
import TraveoBodyDomain.Log.Flush
import TraveoBodyDomain.Sched.Tick
import TraveoBodyDomain.Sched.Preempt
import TraveoBodyDomain.Lib.Rotation
import TraveoBodyDomain.Sched.RoundRobin
import TraveoBodyDomain.Sched.Delay
import TraveoBodyDomain.SysMgr.Attempts
import TraveoBodyDomain.Lib.Loop
import TraveoBodyDomain.Lib.AlignedBlock
import TraveoBodyDomain.Prot.Region
import TraveoBodyDomain.Log.UartClock
import TraveoBodyDomain.Diag.IntelHex
import TraveoBodyDomain.Diag.EraseLoop
import TraveoBodyDomain.Checksums
import TraveoBodyDomain.Lib.Crc
import TraveoBodyDomain.Lib.Relay
import TraveoBodyDomain.Lib.Layer
import TraveoBodyDomain.Control.Logic
import TraveoBodyDomain.Control.Vehicle
import TraveoBodyDomain.Control.Steps
import TraveoBodyDomain.Node.Unbuilt
import TraveoBodyDomain.Control.DoorHolds
import TraveoBodyDomain.Control.Stages
import TraveoBodyDomain.Control.Courtesy
import TraveoBodyDomain.Control.Liveness
import TraveoBodyDomain.Control.Attack
import TraveoBodyDomain.Diag.DownloadImage
import TraveoBodyDomain.Diag.Finished
import TraveoBodyDomain.Boot.Update
import TraveoBodyDomain.Boot.Stamp
import TraveoBodyDomain.Boot.Trailer
import TraveoBodyDomain.Lib.Alongside
import TraveoBodyDomain.Diag.UdsClient
import TraveoBodyDomain.Diag.OverFrames
import TraveoBodyDomain.Boot.OnTheBus
import TraveoBodyDomain.Log.AcceptFolder
import TraveoBodyDomain.Log.Console
import TraveoBodyDomain.Crypto.MacServer
import TraveoBodyDomain.SysMgr.Settles
import TraveoBodyDomain.Diag.Conversation
