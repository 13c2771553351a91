import Wsio.Create
import Wsio.Dispatch

/-! # The IO interface

`wsio_open`, `wsio_close`, `wsio_send`, `wsio_dowork` and `wsio_destroy`, each with
the answers of its collaborators as arguments. Failures return the source line of their
`__LINE__`. The drain loop of `wsio_close` takes `list_remove`'s answers in turn and
has no result when they run out before the list is empty: a close that does not
return.
-/

namespace Wsio

/-- The answers of the allocator, `list_add` and `lws_callback_on_writable` to the calls
of `wsio_send`. -/
structure SendReplies where
  pendingSocketIo : Bool
  bytes : Bool
  listAdd : Bool
  onWritable : Int
  deriving DecidableEq, Repr

/-- The answers of `lws_create_context` and `lws_client_connect` to `wsio_open`. -/
structure OpenReplies where
  createContext : Bool
  clientConnect : Bool
  deriving DecidableEq, Repr

/-- The record `add_pending_io` fills in at address `io`: a copy of `size` bytes of the
buffer, not partially sent. -/
def newPendingIo (io : Nat) (buffer : List UInt8) (size : Nat) (onSendComplete : Option Nat)
    (callbackContext : Nat) : PendingSocketIo :=
  { io := io, bytes := buffer.take size, size := size, onSendComplete := onSendComplete,
    callbackContext := callbackContext, isPartiallySent := false }

/-- `add_pending_io`: copy the buffer into a fresh record and append it to
`pending_io_list`. -/
def addPendingIo (buffer : List UInt8) (size : Nat) (onSendComplete : Option Nat)
    (callbackContext : Nat) (r : SendReplies) (w : World) : Nat × World :=
  if !r.pendingSocketIo then (82, w)
  else if !r.bytes then (91, w)
  else
    let p := newPendingIo w.next buffer size onSendComplete callbackContext
    let w := w.fresh.emit (.listAdd p r.listAdd)
    if r.listAdd then (0, w.modify fun i => { i with pendingIoList := i.pendingIoList ++ [p] })
    else (108, w)

/-- `wsio_send`. -/
def wsioSend (wsIo : Handle) (buffer : Option (List UInt8)) (size : Nat)
    (onSendComplete : Option Nat) (callbackContext : Nat) (r : SendReplies) (w : World) :
    World :=
  match wsIo, buffer with
  | .wsio, some buffer =>
    if size = 0 then w.emit (.sent 711)
    else if w.wsio.ioState ≠ .opened then w.emit (.sent 720)
    else
      match addPendingIo buffer size onSendComplete callbackContext r w with
      | (0, w) =>
        let w := w.emit (.callbackOnWritable w.wsio.wsi r.onWritable)
        if r.onWritable < 0 then w.emit (.sent 744) else w.emit (.sent 0)
      | (_, w) => w.emit (.sent 736)
  | _, _ => w.emit (.sent 711)

/-- The arguments of `lws_client_connect`: the context, `host` as address, host and origin,
the port, `use_ssl`, the path, `protocols[0]`'s name and `ietf_version` -1. -/
def connectEntry (c : Nat) (i : WsioInstance) : Effect :=
  .clientConnect c i.host i.port i.useSsl i.relativePath i.host i.host
    ((i.protocols.head?).bind (·.name)) (-1)

section Reentrant

variable (reenter : World → World)

/-- `wsio_open`. The engine may deliver events from inside `lws_client_connect`; a
connection it opens is named by the address of its context. -/
def wsioOpen (wsIo : Handle) (onIoOpenComplete onBytesReceived onIoError : Option Nat)
    (callbackContext : Nat) (r : OpenReplies) (w : World) : World :=
  match wsIo with
  | .null => w.emit (.opened onIoOpenComplete callbackContext 529)
  | .wsio =>
    if w.wsio.ioState ≠ .notOpen then w.emit (.opened onIoOpenComplete callbackContext 538)
    else
      let w := w.modify fun i =>
        { i with onBytesReceived := onBytesReceived, onIoOpenComplete := onIoOpenComplete,
                 onIoError := onIoError, openCallbackContext := callbackContext }
      if !r.createContext then
        ((w.modify fun i => { i with wsContext := none }).emit (.createContext none)).emit
          (.opened onIoOpenComplete callbackContext 584)
      else
        let c := w.next
        let w := ((w.fresh.modify fun i => { i with wsContext := some c }).emit
          (.createContext (some c))).setIoState .opening
        let w := reenter (w.emit (connectEntry c w.wsio))
        if r.clientConnect then
          (w.modify fun i => { i with wsi := some c }).emit
            (.opened onIoOpenComplete callbackContext 0)
        else
          let w := w.modify fun i => { i with wsi := none }
          let w := lwsContextDestroy reenter w.wsio.wsContext w
          (w.setIoState .notOpen).emit (.opened onIoOpenComplete callbackContext 606)

/-- One pass of the drain loop of `wsio_close` on the head `p`: IO_SEND_CANCELLED, then
`list_remove`, whose result is ignored. -/
def cancelPendingIo (p : PendingSocketIo) (removed : Bool) (w : World) : World :=
  listRemove p.io removed (indicateSendComplete reenter p .cancelled w)

/-- The drain loop of `wsio_close`, with `list_remove` answering `removes` in turn. -/
def drainPendingIo : List Bool → World → Option World
  | removes, w =>
    match w.wsio.pendingIoList, removes with
    | [], _ => some w
    | _ :: _, [] => none
    | p :: _, removed :: removes => drainPendingIo removes (cancelPendingIo reenter p removed w)

section Drain

variable {removes : List Bool} {w : World}

theorem drainPendingIo_empty (hq : w.wsio.pendingIoList = []) :
    drainPendingIo reenter removes w = some w := by
  unfold drainPendingIo; rw [hq]

theorem drainPendingIo_exhausted {p : PendingSocketIo} {ps : List PendingSocketIo}
    (hq : w.wsio.pendingIoList = p :: ps) : drainPendingIo reenter [] w = none := by
  unfold drainPendingIo; rw [hq]

theorem drainPendingIo_head {p : PendingSocketIo} {ps : List PendingSocketIo} (removed : Bool)
    (hq : w.wsio.pendingIoList = p :: ps) :
    drainPendingIo reenter (removed :: removes) w =
      drainPendingIo reenter removes (cancelPendingIo reenter p removed w) := by
  conv_lhs => unfold drainPendingIo
  rw [hq]

theorem drainPendingIo_pendingIoList {w' : World}
    (hd : drainPendingIo reenter removes w = some w') : w'.wsio.pendingIoList = [] := by
  induction removes generalizing w with
  | nil =>
    cases hq : w.wsio.pendingIoList with
    | nil => rw [drainPendingIo_empty reenter hq] at hd; cases hd; exact hq
    | cons p ps => rw [drainPendingIo_exhausted reenter hq] at hd; cases hd
  | cons r removes ih =>
    cases hq : w.wsio.pendingIoList with
    | nil => rw [drainPendingIo_empty reenter hq] at hd; cases hd; exact hq
    | cons p ps => rw [drainPendingIo_head reenter r hq] at hd; exact ih hd

end Drain

/-- The end of `wsio_close`: destroy the context, go NOT_OPEN, report the close. -/
def finishClose (onIoCloseComplete : Option Nat) (callbackContext : Nat) (w : World) : World :=
  let w := (lwsContextDestroy reenter w.wsio.wsContext w).setIoState .notOpen
  let w :=
    match onIoCloseComplete with
    | some cb => reenter (w.emit (.closeComplete cb callbackContext))
    | none => w
  w.emit (.closed 0)

/-- `wsio_close`. -/
def wsioClose (wsIo : Handle) (onIoCloseComplete : Option Nat) (callbackContext : Nat)
    (removes : List Bool) (w : World) : Option World :=
  match wsIo with
  | .null => some (w.emit (.closed 627))
  | .wsio =>
    if w.wsio.ioState = .notOpen then some (w.emit (.closed 637))
    else
      let drained :=
        if w.wsio.ioState = .opening then some (indicateOpenComplete reenter .cancelled w)
        else drainPendingIo reenter removes w
      drained.map (finishClose reenter onIoCloseComplete callbackContext)

/-- `wsio_dowork`: `lws_service` on the context while OPEN or OPENING, which delivers
`events` to `on_ws_callback`. -/
def wsioDowork (wsIo : Handle) (events : List LwsEvent) (w : World) : World :=
  match wsIo with
  | .null => w
  | .wsio =>
    if w.wsio.ioState = .opened ∨ w.wsio.ioState = .opening then
      events.foldl (fun w e => onWsCallback reenter e w) (w.emit (.service w.wsio.wsContext))
    else w

/-- The blocks `wsio_destroy` releases once its close returns, in order; `amqpalloc_free` of
a NULL trusted CA releases nothing. -/
def destroyFrees (i : WsioInstance) : List Block :=
  [.protocols, .host, .protocolName, .relativePath] ++
    (i.trustedCa.map fun _ => Block.trustedCa).toList ++ [.pendingIoList, .wsioInstance]

/-- `wsio_destroy`: close without callback, then release the instance's blocks. -/
def wsioDestroy (wsIo : Handle) (removes : List Bool) (w : World) : Option World :=
  match wsIo with
  | .null => some w
  | .wsio =>
    (wsioClose reenter .wsio none 0 removes w).map fun w => w.log ((destroyFrees w.wsio).map .free)

end Reentrant

/-- A call of the IO interface with its arguments and its collaborators' answers. -/
inductive Call
  | wsioOpen (wsIo : Handle) (onIoOpenComplete onBytesReceived onIoError : Option Nat)
      (callbackContext : Nat) (r : OpenReplies)
  | wsioClose (wsIo : Handle) (onIoCloseComplete : Option Nat) (callbackContext : Nat)
      (removes : List Bool)
  | wsioSend (wsIo : Handle) (buffer : Option (List UInt8)) (size : Nat)
      (onSendComplete : Option Nat) (callbackContext : Nat) (r : SendReplies)
  | wsioDowork (wsIo : Handle) (events : List LwsEvent)
  deriving DecidableEq, Repr

/-- Run one call; no result when it does not return. -/
def Call.exec (reenter : World → World) : Call → World → Option World
  | .wsioOpen h onOpen onBytes onError ctx r, w =>
    some (Wsio.wsioOpen reenter h onOpen onBytes onError ctx r w)
  | .wsioClose h onClose ctx removes, w => Wsio.wsioClose reenter h onClose ctx removes w
  | .wsioSend h buffer size onSend ctx r, w => some (Wsio.wsioSend h buffer size onSend ctx r w)
  | .wsioDowork h events, w => some (Wsio.wsioDowork reenter h events w)

/-- Run calls one after another; no result once one of them does not return. -/
def Call.run (reenter : World → World) : List Call → World → Option World
  | [], w => some w
  | c :: cs, w => (c.exec reenter w).bind (Call.run reenter cs)

/-- The worlds a run of calls reaches from a created instance. -/
inductive Reachable (reenter : World → World) : World → Prop
  | create {config : Option WsioConfig} {r : CreateReplies} {i : WsioInstance} :
      (wsioCreate config r).1 = some i → Reachable reenter (World.init i)
  | step {w w' : World} (c : Call) :
      Reachable reenter w → c.exec reenter w = some w' → Reachable reenter w'

theorem Reachable.run {reenter : World → World} {cs : List Call} {w w' : World}
    (h : Reachable reenter w) (hr : Call.run reenter cs w = some w') : Reachable reenter w' := by
  induction cs generalizing w with
  | nil => cases hr; exact h
  | cons c cs ih =>
    obtain ⟨w1, h1, h2⟩ := Option.bind_eq_some.mp hr
    exact ih (h.step c h1) h2

end Wsio
