import Wsio.Basic
import Wsio.Create
import Wsio.Dispatch
import Wsio.Api
import Wsio.Trace
import Wsio.Flat
import Wsio.Lifecycle
import Wsio.Queue
import Wsio.Partial
import Wsio.Reentrancy
import Wsio.OpenComplete
import Wsio.Writable
import Wsio.Delivery
import Wsio.StateMachine
import Wsio.NestedSend
