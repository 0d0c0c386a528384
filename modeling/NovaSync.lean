import NovaSync.Concurrency.Transition
import NovaSync.Concurrency.Threads
import NovaSync.Concurrency.Moments
import NovaSync.Detail.Atomic
import NovaSync.Detail.Backoff
import NovaSync.Detail.Eventfd
import NovaSync.Detail.EventfdTokens
import NovaSync.Detail.Kevent
import NovaSync.Detail.KeventTimers
import NovaSync.Detail.TimedWait
import NovaSync.Detail.InterruptedWait
import NovaSync.Detail.PollIntr
import NovaSync.Futex.AtomicWait
import NovaSync.Futex.PortableAtomicWait
import NovaSync.Futex.AtomicWaitTimeouts
import NovaSync.Mutex.ParkingMutex
import NovaSync.Mutex.ParkingMutexSafety
import NovaSync.Mutex.ParkingMutexTimeouts
import NovaSync.Mutex.TicketMutex
import NovaSync.Mutex.TicketMutexSafety
import NovaSync.Mutex.TicketMutexWakeups
import NovaSync.Mutex.SharedSpinlock
import NovaSync.Mutex.SharedSpinlockSafety
import NovaSync.Mutex.RecursiveSpinlock
import NovaSync.Mutex.FastAsyncMutex
import NovaSync.Mutex.FastAsyncMutexSafety
import NovaSync.Mutex.FastEventfdMutexWakeups
import NovaSync.Mutex.FastKqueueMutexDeadlines
import NovaSync.Mutex.FastKqueueMutexWakeups
import NovaSync.Mutex.EventfdMutex
import NovaSync.Mutex.Win32EventMutex
import NovaSync.Mutex.KqueueMutex
import NovaSync.Mutex.RelativeAcquisition
import NovaSync.Mutex.PthreadMutex
import NovaSync.Semaphore.TokenLedger
import NovaSync.Semaphore.ParkingSemaphore
import NovaSync.Semaphore.ParkingSemaphoreTokens
import NovaSync.Semaphore.KqueueSemaphore
import NovaSync.Semaphore.EventfdSemaphore
import NovaSync.Backoff.SpinPhases
import NovaSync.Backoff.SpinPhasesEnd
import NovaSync.Event.ParkingAutoResetEvent
import NovaSync.Event.ParkingAutoResetEventTokens
import NovaSync.Event.ParkingAutoResetEventDelivery
import NovaSync.Event.ParkingManualResetEvent
import NovaSync.Event.NativeManualResetEvent
import NovaSync.Event.NativeManualResetEventKqueue
import NovaSync.Event.NativeAutoResetEventKqueue
import NovaSync.Event.NativeAutoResetEventEventfd
import NovaSync.Event.NativeAutoResetEventTimeouts
import NovaSync.Event.NativeEventDeadlines
import NovaSync.Support.BoostAsioFuture
import NovaSync.Support.BoostAsioCancel
import NovaSync.Support.CancellableHandles
import NovaSync.Support.QtCancellable
import NovaSync.Support.QtOperations
import NovaSync.Support.DispatchCancellable
import NovaSync.Support.DispatchDelivery
import NovaSync.Support.DispatchOperations
import NovaSync.Support.DispatchOperationsDelivery
import NovaSync.ThreadSafety.LockedObject
import NovaSync.Mutex.Spinlock
import NovaSync.Semaphore.KernelSemaphores
