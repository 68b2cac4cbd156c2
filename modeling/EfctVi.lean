import EfctVi.PktId
import EfctVi.RxHeader
import EfctVi.RxPoll
import EfctVi.RxFreeList
import EfctVi.RxTrace
import EfctVi.RxStep
import EfctVi.RxPointer
import EfctVi.RxRefcount
import EfctVi.RxTimestamp
import EfctVi.RxSequence
import EfctVi.TxStream
import EfctVi.TxQueue
import EfctVi.TxEvents
import EfctVi.TxPhase
import EfctVi.TxRing
import EfctVi.TxRun
import EfctVi.EventqPoll
import EfctVi.EventqBound
import EfctVi.RxConfig
import EfctVi.RxFuture
import EfctVi.TxFallback
import EfctVi.RxWakeup
import EfctVi.ControlPath
import EfctVi.TxCtpio
import EfctVi.TxTimestamp
import EfctVi.TxRequestIds
import EfctVi.TxHeader
