import Mathlib.Data.List.Basic

/-! # The wsio instance and its world

The data of `wsio.c`: IO states, pending writes, the instance record, the engine
events `on_ws_callback` handles, and the world a run acts on. The world holds the
instance, a supply of fresh addresses, and an append-only log of every interaction of
the instance with its caller, the list module, libwebsockets and OpenSSL. Callbacks
and callback contexts are named by their addresses; `none` is a NULL pointer.
-/

namespace Wsio

/-- `IO_STATE`; `opened` is `IO_STATE_OPEN`. -/
inductive IoState
  | notOpen
  | opening
  | opened
  | closing
  | error
  deriving DecidableEq, Repr

/-- `IO_OPEN_RESULT`. -/
inductive IoOpenResult
  | ok
  | error
  | cancelled
  deriving DecidableEq, Repr

/-- `IO_SEND_RESULT`. -/
inductive IoSendResult
  | ok
  | error
  | cancelled
  deriving DecidableEq, Repr

/-- `PENDING_SOCKET_IO`; `io` is the record's address, by which the list names it. -/
structure PendingSocketIo where
  io : Nat
  bytes : List UInt8
  size : Nat
  onSendComplete : Option Nat
  callbackContext : Nat
  isPartiallySent : Bool
  deriving DecidableEq, Repr

/-- An entry of the `lws_protocols` table; `callback` says whether it is `on_ws_callback`. -/
structure LwsProtocols where
  name : Option String
  callback : Bool
  id : Nat
  perSessionDataSize : Nat
  rxBufferSize : Nat
  user : Option Nat
  deriving DecidableEq, Repr

/-- `WSIO_INSTANCE`. -/
structure WsioInstance where
  onBytesReceived : Option Nat
  onIoOpenComplete : Option Nat
  onIoError : Option Nat
  openCallbackContext : Nat
  ioState : IoState
  pendingIoList : List PendingSocketIo
  wsContext : Option Nat
  wsi : Option Nat
  port : Int
  host : String
  relativePath : String
  protocolName : String
  trustedCa : Option String
  protocols : List LwsProtocols
  useSsl : Bool
  deriving DecidableEq, Repr

/-- `WSIO_CONFIG`. -/
structure WsioConfig where
  host : Option String
  port : Int
  relativePath : Option String
  protocolName : Option String
  useSsl : Bool
  trustedCa : Option String
  deriving DecidableEq, Repr

/-- A `CONCRETE_IO_HANDLE` argument: NULL, or the instance of the world. -/
inductive Handle
  | null
  | wsio
  deriving DecidableEq, Repr

/-- The `lws_callback_reasons` that `on_ws_callback` tells apart. -/
inductive Reason
  | clientEstablished
  | clientConnectionError
  | clientWriteable
  | clientReceive
  | loadExtraClientVerifyCerts
  | other
  deriving DecidableEq, Repr

/-- One call of `on_ws_callback`, with the answers of the allocator, the list module,
libwebsockets and OpenSSL to the calls its handler makes. -/
inductive LwsEvent
  | clientEstablished
  | clientConnectionError
  | clientWriteable (wsBuffer : Bool) (written : Int) (removed : Bool) (onWritable : Int)
  | clientReceive (bytes : List UInt8)
  | loadExtraClientVerifyCerts (bio : Bool) (puts : Int) (certs : List (Nat × Bool))
  | other
  deriving DecidableEq, Repr

/-- The reason an event is delivered for. -/
def LwsEvent.reason : LwsEvent → Reason
  | .clientEstablished => .clientEstablished
  | .clientConnectionError => .clientConnectionError
  | .clientWriteable .. => .clientWriteable
  | .clientReceive _ => .clientReceive
  | .loadExtraClientVerifyCerts .. => .loadExtraClientVerifyCerts
  | .other => .other

/-- The blocks `wsio_create` allocates; `pendingIoList` is the list of `list_create`. -/
inductive Block
  | wsioInstance
  | pendingIoList
  | host
  | relativePath
  | protocolName
  | protocols
  | trustedCa
  deriving DecidableEq, Repr

/-- One interaction of the instance; `opened`, `closed` and `sent` are the results of
`wsio_open`, `wsio_close` and `wsio_send`, and `free` is a release of `wsio_destroy`. -/
inductive Effect
  | openComplete (cb ctx : Nat) (result : IoOpenResult)
  | sendComplete (io cb ctx : Nat) (result : IoSendResult)
  | ioError (cb ctx : Nat)
  | bytesReceived (cb : Option Nat) (ctx : Nat) (bytes : List UInt8)
  | closeComplete (cb ctx : Nat)
  | listAdd (p : PendingSocketIo) (ok : Bool)
  | listRemove (io : Nat) (ok : Bool)
  | createContext (context : Option Nat)
  | clientConnect (context : Nat) (address : String) (port : Int) (ssl : Bool) (path : String)
      (host origin : String) (protocol : Option String) (ietfVersion : Int)
  | contextDestroy (context : Option Nat)
  | service (context : Option Nat)
  | write (wsi : Option Nat) (bytes : List UInt8) (written : Int)
  | callbackOnWritable (wsi : Option Nat) (result : Int)
  | delivered (reason : Reason)
  | bioPuts (s : Option String)
  | strlen (s : Option String)
  | storeAddCert (cert : Nat)
  | opened (cb : Option Nat) (ctx : Nat) (result : Nat)
  | closed (result : Nat)
  | sent (result : Nat)
  | free (b : Block)
  deriving DecidableEq, Repr

/-- The instance, the fresh addresses left, and the log of interactions so far. -/
structure World where
  wsio : WsioInstance
  trace : List Effect
  next : Nat
  deriving Repr

namespace World

/-- Append one interaction to the log. -/
def emit (e : Effect) (w : World) : World := { w with trace := w.trace ++ [e] }

/-- Append several interactions to the log. -/
def log (es : List Effect) (w : World) : World := { w with trace := w.trace ++ es }

/-- Update the instance. -/
def modify (f : WsioInstance → WsioInstance) (w : World) : World := { w with wsio := f w.wsio }

/-- Assign `io_state`. -/
def setIoState (s : IoState) (w : World) : World := w.modify fun i => { i with ioState := s }

/-- Take the next fresh address. -/
def fresh (w : World) : World := { w with next := w.next + 1 }

/-- The world right after `wsio_create` returned the instance. -/
def init (i : WsioInstance) : World := { wsio := i, trace := [], next := 0 }

@[simp] theorem emit_wsio (e : Effect) (w : World) : (w.emit e).wsio = w.wsio := rfl
@[simp] theorem emit_trace (e : Effect) (w : World) : (w.emit e).trace = w.trace ++ [e] := rfl
@[simp] theorem emit_next (e : Effect) (w : World) : (w.emit e).next = w.next := rfl
@[simp] theorem log_wsio (es : List Effect) (w : World) : (w.log es).wsio = w.wsio := rfl
@[simp] theorem log_trace (es : List Effect) (w : World) : (w.log es).trace = w.trace ++ es := rfl
@[simp] theorem log_next (es : List Effect) (w : World) : (w.log es).next = w.next := rfl
theorem log_append (es es' : List Effect) (w : World) : w.log (es ++ es') = (w.log es).log es' := by
  simp [log]

@[simp] theorem modify_wsio (f : WsioInstance → WsioInstance) (w : World) :
    (w.modify f).wsio = f w.wsio := rfl
@[simp] theorem modify_trace (f : WsioInstance → WsioInstance) (w : World) :
    (w.modify f).trace = w.trace := rfl
@[simp] theorem modify_next (f : WsioInstance → WsioInstance) (w : World) :
    (w.modify f).next = w.next := rfl
@[simp] theorem setIoState_wsio (s : IoState) (w : World) :
    (w.setIoState s).wsio = { w.wsio with ioState := s } := rfl
@[simp] theorem setIoState_trace (s : IoState) (w : World) :
    (w.setIoState s).trace = w.trace := rfl
@[simp] theorem setIoState_next (s : IoState) (w : World) : (w.setIoState s).next = w.next := rfl
@[simp] theorem fresh_wsio (w : World) : w.fresh.wsio = w.wsio := rfl
@[simp] theorem fresh_trace (w : World) : w.fresh.trace = w.trace := rfl
@[simp] theorem fresh_next (w : World) : w.fresh.next = w.next + 1 := rfl

end World

end Wsio
