import KernelPlay.Heap.Runs
import KernelPlay.Heap.Bounds
import KernelPlay.Heap.Undo
import KernelPlay.Heap.FirstFit
import KernelPlay.Heap.Reserve
import KernelPlay.Heap.Accesses
import KernelPlay.Heap.Geometry
import KernelPlay.Heap.Accounts
import KernelPlay.Disk.Ports
import KernelPlay.Boot.Loader
import KernelPlay.Gdt.Tables
import KernelPlay.Idt.Interrupts
import KernelPlay.Strings.Compare
import KernelPlay.Memory.Copy
import KernelPlay.Terminal.Screen
import KernelPlay.Kernel.Start
import KernelPlay.Fat.EndOfChain
import KernelPlay.Fat.Reach
import KernelPlay.Fat.Ownership
import KernelPlay.Fat.Scan
import KernelPlay.Fat.Failure
import KernelPlay.Fat.Writes
import KernelPlay.Fat.Dots
import KernelPlay.Fat.Rendering
import KernelPlay.File.Refusal
import KernelPlay.File.Seek
import KernelPlay.File.Slack
import KernelPlay.File.Leak
import KernelPlay.File.Handles
import KernelPlay.File.Independence
import KernelPlay.File.Grammar
import KernelPlay.File.Release
import KernelPlay.File.Tags
import KernelPlay.File.Indices
import KernelPlay.File.Stat
import KernelPlay.File.Likeness
import KernelPlay.File.Search
import KernelPlay.Memory.Paging
import KernelPlay.Memory.IdentityMap
import KernelPlay.Memory.KernelPages
