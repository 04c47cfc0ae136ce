import Horizon.Device.Registry
import Horizon.Drivers.Tty
import Horizon.Fs.Btrfs.Search
import Horizon.Fs.Ext2.DirMap
import Horizon.Fs.Ext2.DirScan
import Horizon.Fs.Ext2.InodeAccounting
import Horizon.Fs.FileTable.Sharing
import Horizon.Fs.Mounts
import Horizon.Fs.Path
import Horizon.Fs.Ramfs.Contents
import Horizon.Interrupt.Deferred
import Horizon.Interrupt.Lock
import Horizon.Io.Aio.Conservation
import Horizon.Io.Eventfd
import Horizon.Ipc.Keys
import Horizon.Ipc.MqueueTasks
import Horizon.Ipc.MsgWait
import Horizon.Ipc.UnixSocket.Protocol
import Horizon.Ipc.UnixSocket.RefCount
import Horizon.Ipc.UnixSocket.Stream
import Horizon.Locking.Rwlock
import Horizon.Mm.Coherency.ReadWrite
import Horizon.Mm.Early
import Horizon.Mm.Numa.Accounting
import Horizon.Mm.Numa.Locks
import Horizon.Mm.PageTable
import Horizon.Mm.Pmm.Flags
import Horizon.Mm.Slab.Kmalloc
import Horizon.Mm.Swap.Faults
import Horizon.Mm.Vmm.Accounting
import Horizon.Net.Checksum
import Horizon.Process.Exec
import Horizon.Sched.Steps
import Horizon.Security.Acl
import Horizon.Security.Inheritance
import Horizon.Signal.Queue
import Horizon.Task.Tree
import Horizon.Thread.Mutex.Stranded
import Horizon.Thread.Registry
import Horizon.Thread.Semaphore
import Horizon.Thread.Tsd
import Horizon.Time.Timer
import Horizon.Trace.Buffer
