/-!
The sizes of the kernel's pools. They are fixed when the kernel is built, and
every one of them may be chosen within a range; the model takes the whole record
as a parameter.
-/
namespace Tessera

structure Config where
  maxFreeFrames : Nat
  maxSharedFrames : Nat
  maxMemoryObjects : Nat
  maxFrameSlots : Nat
  maxObjectPages : Nat
  maxCachedPages : Nat
  maxHolders : Nat
  maxChannels : Nat
  queueCap : Nat
  maxInlineBytes : Nat
  maxMsgHandles : Nat
  maxPorts : Nat
  maxBindings : Nat
  maxDevices : Nat
  maxExtraIrqs : Nat
  maxDependents : Nat
  maxHandles : Nat
  maxMappings : Nat
  maxCpus : Nat
  maxThreads : Nat
  maxPagers : Nat
  maxJobs : Nat
  maxMembersPerJob : Nat
  maxChildrenPerJob : Nat
  maxWaiters : Nat
  maxProcesses : Nat
  maxDeviceWindows : Nat
  maxMemoryMappings : Nat
  maxWakeHolds : Nat

/-- The configuration the kernel is built with when no profile overrides it. -/
def Config.default : Config where
  maxFreeFrames := 256
  maxSharedFrames := 256
  maxMemoryObjects := 64
  maxFrameSlots := 512
  maxObjectPages := 16
  maxCachedPages := 64
  maxHolders := 4
  maxChannels := 64
  queueCap := 16
  maxInlineBytes := 256
  maxMsgHandles := 4
  maxPorts := 16
  maxBindings := 8
  maxDevices := 16
  maxExtraIrqs := 3
  maxDependents := 4
  maxHandles := 1024
  maxMappings := 64
  maxCpus := 8
  maxThreads := 16
  maxPagers := 8
  maxJobs := 48
  maxMembersPerJob := 8
  maxChildrenPerJob := 8
  maxWaiters := 16
  maxProcesses := 16
  maxDeviceWindows := 8
  maxMemoryMappings := 8
  maxWakeHolds := 8

theorem Config.boot_cpu : 0 < Config.default.maxCpus := by decide

theorem Config.next_cpu : 1 < Config.default.maxCpus := by decide

/-- The profile sized for one driver and its client. -/
def Config.minimal : Config :=
  { Config.default with maxProcesses := 4, maxThreads := 8, maxHandles := 128, maxChannels := 8, maxDevices := 2 }

theorem Config.only_cpu : 0 < Config.minimal.maxCpus := by decide

end Tessera
