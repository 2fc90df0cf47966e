import LiamOS.I386.Heap.Rollback
import LiamOS.X64.BootInfoBounds
import LiamOS.X64.Vfs.Canonical
import LiamOS.I386.Heap.Filling
import LiamOS.I386.BootMap
import LiamOS.X64.Tracking
import LiamOS.X64.Framebuffer
import LiamOS.I386.Scheduler.Disabled
import LiamOS.I386.Scheduler.Sleep
import LiamOS.I386.Scheduler.Repair
import LiamOS.I386.Process.Leak
import LiamOS.I386.Process.Spawns
import LiamOS.I386.Syscall.Write
import LiamOS.I386.Loader.Elf32
import LiamOS.X64.Keyboard.Characters
import LiamOS.ShiftKeys
import LiamOS.TickWaits
import LiamOS.X64.Process.Children
import LiamOS.X64.Vfs.Truncate
import LiamOS.X64.Exec.Agreement
import LiamOS.X64.PlannedSpace
import LiamOS.X64.Syscall.Bracket
import LiamOS.X64.Exec.Accepted
import LiamOS.X64.Heap
import LiamOS.X64.Process.Failure
