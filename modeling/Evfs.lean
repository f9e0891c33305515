import Evfs.Lib.UnorderedMap
import Evfs.Lib.Run
import Evfs.Common.Defs
import Evfs.Common.Path
import Evfs.Common.Disk
import Evfs.Common.Filesystem
import Evfs.Common.FileDescriptorContainer
import Evfs.Common.Vfs
import Evfs.Common.VfsStep
import Evfs.Vfs.Dispatch
import Evfs.Vfs.Rename
import Evfs.Vfs.Unlink
import Evfs.Vfs.DeferredUnlink
import Evfs.Vfs.Handles
import Evfs.Vfs.Mount
import Evfs.Lwext4.Ext4
import Evfs.Fstypes.FilesystemLwext4
import Evfs.Common.VfsCalls
import Evfs.Lwext4.Walk
import Evfs.Vfs.OneMount
import Evfs.Lwext4.Renaming
import Evfs.Vfs.RenameOpen
import Evfs.Fstypes.ReadOnly
import Evfs.Vfs.ReadOnlyMount
import Evfs.Vfs.Link
import Evfs.Vfs.UmountAll
import Evfs.Vfs.RootChoice
import Evfs.Common.DescriptorHistory
import Evfs.Common.Partition
import Evfs.Vfs.Destroy
import Evfs.Fstypes.NativePath
import Evfs.Fstypes.MountSlot
import Evfs.Vfs.Resolvers
import Evfs.Lib.Prog
import Evfs.Lib.Threads
import Evfs.Common.VfsOps
import Evfs.Common.VfsProg
import Evfs.Common.VfsAlone
import Evfs.Vfs.Locking
import Evfs.Vfs.Deadlock
import Evfs.Vfs.OpEffects
import Evfs.Vfs.Lifetime
import Evfs.Vfs.MountLocks
import Evfs.Lwext4.InUse
import Evfs.Fstypes.FileData
import Evfs.Vfs.Recreate
import Evfs.Vfs.Descriptors
import Evfs.Vfs.DiskNames
import Evfs.Vfs.RegisteredDisks
import Evfs.Vfs.Truncate
import Evfs.Adapters.Dirstream
import Evfs.Adapters.Seekdir
import Evfs.Adapters.Syscalls
import Evfs.Fstypes.MountRollback
import Evfs.Lwext4.Subtree
import Evfs.Vfs.Rmdir
import Evfs.Fstypes.Contents
import Evfs.Vfs.ReadingSession
import Evfs.Lib.Bytes
import Evfs.Tools.Storage
import Evfs.Tools.FdiskWrite
import Evfs.Tools.FdiskOutcome
import Evfs.Tools.Slots
import Evfs.Tools.Listing
import Evfs.Tools.Signature
import Evfs.Tools.WriteRead
import Evfs.Tools.WriteBounds
import Evfs.Vfs.TypeChoice
import Evfs.Adapters.ReaddirR
import Evfs.Lib.MixedRadix
import Evfs.Tools.Chs
import Evfs.Adapters.FsDir
import Evfs.Lib.Forest
import Evfs.Adapters.DirService
import Evfs.Adapters.DirOnExt4
import Evfs.Adapters.VolumeTree
import Evfs.Adapters.DirLedger
import Evfs.Fstypes.OpenFile
import Evfs.Lib.Simulation
import Evfs.Vfs.FileSession
import Evfs.Vfs.ReadBack
import Evfs.Fstypes.CleanVolume
import Evfs.Vfs.CleanSession
