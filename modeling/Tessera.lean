import Tessera.ObjectIdentity
import Tessera.Exec.MachineLock
import Tessera.Process.Confinement
import Tessera.Vm.Revocation
import Tessera.Vm.ShootdownRequests
import Tessera.Vm.PageRights
import Tessera.Vm.CopyOnWrite
import Tessera.Vm.FrameConservation
import Tessera.X8664.SharedHalf
import Tessera.Exec.ReplyMatching
import Tessera.Exec.Closing
import Tessera.Exec.CallChains
import Tessera.Job.JobKill
import Tessera.Process.MemoryHolders
import Tessera.Kernel.Reclaim
import Tessera.Kernel.Removal
import Tessera.Device.Lifecycle
import Tessera.Power.Suspend
import Tessera.Kernel.DeviceDeclare
import Tessera.Kernel.Classification
import Tessera.Kernel.CacheAccounting
import Tessera.Exec.LockExclusion
import Tessera.Pager.ServiceCalls
import Tessera.Net.TcpStream
import Tessera.Image.ImageStore
import Tessera.Process.FailedSend
import Tessera.Process.ReferenceCounts
import Tessera.Memory.SlotRuns
import Tessera.Process.HandleRegisters
import Tessera.Exec.Epoch
import Tessera.Exec.ReadyRing
import Tessera.Ipc.EndpointRing
import Tessera.Isl.StructLayout
import Tessera.Hash.Streaming
import Tessera.Pci.Capabilities
