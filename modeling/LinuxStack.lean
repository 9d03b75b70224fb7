import LinuxStack.Transition.Run
import LinuxStack.Registry.Ladder
import LinuxStack.Kernel.Calls
import LinuxStack.Kernel.Chrdev
import LinuxStack.Ioctl.Load
import LinuxStack.Kernel.Uaccess
import LinuxStack.Gpio.Driver
import LinuxStack.Gpio.Load
import LinuxStack.Gpio.Unload
import LinuxStack.Gpio.Interrupt
import LinuxStack.Sdio.Driver
import LinuxStack.Sdio.Lifecycle
import LinuxStack.Led.Driver
import LinuxStack.Led.Mapping
import LinuxStack.Led.Pin
import LinuxStack.Proc.Driver
import LinuxStack.Proc.Readers
import LinuxStack.Deferred.Module
import LinuxStack.Deferred.Unload
import LinuxStack.Hello.Driver
import LinuxStack.Hello.Store
import LinuxStack.Gpio.Debounce
import LinuxStack.Ioctl.Value
import LinuxStack.Proc.RoundTrip
import LinuxStack.Gpio.Report
import LinuxStack.Dump.Driver
import LinuxStack.Dump.Bounds
import LinuxStack.Led.Frame
import LinuxStack.Led.Rebind
import LinuxStack.Led.Binding
import LinuxStack.Sdio.Claims
import LinuxStack.Memory.Word
import LinuxStack.Sysfs.Value
import LinuxStack.Transition.Latch
import LinuxStack.Ch36x.Store
import LinuxStack.Ch36x.Isr
import LinuxStack.Ch36x.Lifecycle
import LinuxStack.Ch36xLinux.Interrupt
import LinuxStack.Ch36xLinux.Poll
import LinuxStack.Ch36xLinux.Lifecycle
import LinuxStack.Ch36xLinux.Wire
import LinuxStack.Ch36xLinux.Routine
import LinuxStack.Deferred.Job
