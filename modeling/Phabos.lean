import Phabos.Construction.Gpio.Tca64xx
import Phabos.Construction.Greybus.CportPool
import Phabos.Construction.Svc.ConnectionCreate
import Phabos.Library.ByteMemory
import Phabos.Proof.Apps.LineEditor
import Phabos.Proof.Ara.DeviceLifeCycle
import Phabos.Proof.Ara.RingAllocation
import Phabos.Proof.Drivers.DeviceNumbers
import Phabos.Proof.Drivers.ProbePasses
import Phabos.Proof.Fs.CreateOpen
import Phabos.Proof.Fs.DirectoryListing
import Phabos.Proof.Fs.DirectoryLock
import Phabos.Proof.Fs.ImageBounds
import Phabos.Proof.Fs.NormalForm
import Phabos.Proof.Fs.OpenAtomicity
import Phabos.Proof.Fs.TreeShape
import Phabos.Proof.Gpio.LineRanges
import Phabos.Proof.Gpio.PinInterrupts
import Phabos.Proof.Greybus.DriverRegistration
import Phabos.Proof.Greybus.FailedHotplug
import Phabos.Proof.Greybus.HandlerDispatch
import Phabos.Proof.Greybus.HeldCports
import Phabos.Proof.Greybus.I2cBounds
import Phabos.Proof.Greybus.ManifestBytes
import Phabos.Proof.Greybus.ManifestOrder
import Phabos.Proof.Greybus.ManifestReads
import Phabos.Proof.Greybus.ManifestVisits
import Phabos.Proof.Greybus.MessageSizes
import Phabos.Proof.Greybus.Rearming
import Phabos.Proof.Greybus.ReceiveOwnership
import Phabos.Proof.Greybus.ReferenceCounting
import Phabos.Proof.Greybus.RemoteI2c
import Phabos.Proof.Greybus.RequestDiscipline
import Phabos.Proof.Greybus.TapeReplay
import Phabos.Proof.Greybus.TimeoutPass
import Phabos.Proof.Greybus.UartStream
import Phabos.Proof.Hashtable.Iteration
import Phabos.Proof.Hashtable.Termination
import Phabos.Proof.I2c.CommandStream
import Phabos.Proof.I2c.TransferEnd
import Phabos.Proof.I2s.RingOrder
import Phabos.Proof.Kernel.ConditionWakeups
import Phabos.Proof.Kernel.ElfSegments
import Phabos.Proof.Kernel.HighestPriority
import Phabos.Proof.Kernel.IrqBalance
import Phabos.Proof.Kernel.PolicyChange
import Phabos.Proof.Kernel.RoundRobin
import Phabos.Proof.Kernel.SlabAlignment
import Phabos.Proof.Kernel.SlabLifecycle
import Phabos.Proof.Kernel.SleepTime
import Phabos.Proof.Kernel.TaskEnding
import Phabos.Proof.Kernel.TaskLookup
import Phabos.Proof.Kernel.TaskPlaces
import Phabos.Proof.Kernel.TicklessTimer
import Phabos.Proof.Kernel.WatchdogPass
import Phabos.Proof.Lib.EmptyQueue
import Phabos.Proof.Lib.NumberFields
import Phabos.Proof.Lib.PrintedCounts
import Phabos.Proof.Lib.QueueDrain
import Phabos.Proof.Lib.SemaphorePermits
import Phabos.Proof.Lib.WorkDelivery
import Phabos.Proof.Mm.BootRegions
import Phabos.Proof.Mm.BuddyHeap
import Phabos.Proof.Mm.HeaderRoom
import Phabos.Proof.Mm.HeapUsage
import Phabos.Proof.Mm.PageRoundTrip
import Phabos.Proof.Mm.Reallocation
import Phabos.Proof.Mm.Requests
import Phabos.Proof.Ramfs.OffsetRange
import Phabos.Proof.Ramfs.ReadAfterWrite
import Phabos.Proof.Scm.PinOwnership
import Phabos.Proof.Serial.InputFifo
import Phabos.Proof.Serial.TransmitRing
import Phabos.Proof.Spi.LastSettings
import Phabos.Proof.Svc.ConnectionSetup
import Phabos.Proof.Svc.ConnectionUndo
import Phabos.Proof.Svc.LifeCycle
import Phabos.Proof.Svc.ReadBounds
import Phabos.Proof.Svc.RouteTable
import Phabos.Proof.Svc.UseCount
import Phabos.Proof.Unipro.CportNumbers
import Phabos.Proof.Unipro.MailboxFrame
import Phabos.Proof.Unipro.QueuedUrbs
import Phabos.Proof.Unipro.TransmitQueue
import Phabos.Proof.Usb.BulkOut
import Phabos.Proof.Usb.ControlRequest
import Phabos.Proof.Usb.DescriptorWalk
import Phabos.Proof.Usb.DriverMatching
import Phabos.Proof.Usb.EndpointMapping
import Phabos.Proof.Usb.HostDelivery
