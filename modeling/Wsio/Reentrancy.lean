import Wsio.Flat

/-! # Calls that nest

Two ways control can come back into the instance before a call has finished: the engine
delivering CLIENT_CONNECTION_ERROR from inside `lws_client_connect`, and a caller whose
`on_send_complete` closes the instance when it is told IO_SEND_OK. Both are values of the
`reenter` hook. In the first, `wsio_open` fails with `on_io_open_complete` already invoked
and destroys the context the event handler destroyed; in the second, the write being
completed is still queued when the nested `wsio_close` drains the queue, so it is reported
twice.
-/

namespace Wsio

/-- An engine that, inside `lws_client_connect`, delivers CLIENT_CONNECTION_ERROR to
`on_ws_callback` before returning. -/
def connectErrorHook (w : World) : World :=
  match w.trace.getLast? with
  | some (.clientConnect ..) => onWsCallback id .clientConnectionError w
  | _ => w

/-- A caller whose `on_send_complete`, told IO_SEND_OK, calls `wsio_close` without a
close callback, `list_remove` succeeding. -/
def closeOnSendHook (w : World) : World :=
  match w.trace.getLast? with
  | some (.sendComplete _ _ _ .ok) => (wsioClose id .wsio none 0 [true] w).getD w
  | _ => w

/-- A connection error inside `lws_client_connect`: IO_OPEN_ERROR, the context destroyed by the
handler and again by `wsio_open`, which returns 606. -/
theorem connect_error_inside_connect (w : World) (hs : w.wsio.ioState = .notOpen)
    (oc ob oe : Option Nat) (ctx : Nat) :
    (wsioOpen connectErrorHook .wsio oc ob oe ctx ⟨true, false⟩ w).trace =
      w.trace ++ [.createContext (some w.next), connectEntry w.next w.wsio,
        .delivered .clientConnectionError] ++ openLog oc ctx .error ++
        [.contextDestroy (some w.next), .contextDestroy (some w.next), .opened oc ctx 606] := by
  cases oc <;>
    simp [wsioOpen, hs, connectErrorHook, connectEntry, onWsCallback, onClientConnectionError,
      lwsContextDestroy, indicateOpenComplete, openLog, callbackLog, World.modify, World.setIoState,
      World.fresh,
      LwsEvent.reason, List.getLast?_append]

theorem indicateError_closeOnSendHook (w : World) :
    indicateError closeOnSendHook w = indicateError id w := by
  unfold indicateError; split <;> simp [closeOnSendHook, World.emit]

/-- A close from the IO_SEND_OK of the only queued write finds it still queued: it is reported
IO_SEND_OK and then IO_SEND_CANCELLED. -/
theorem close_inside_send_complete (w : World) {p : PendingSocketIo} {cb : Nat}
    (hs : w.wsio.ioState = .opened) (hq : w.wsio.pendingIoList = [p])
    (hcb : p.onSendComplete = some cb) {n : Int} (hn : 0 ≤ n ∧ p.size ≤ n.toNat)
    (onWritable : Int) :
    reports (onWsCallback closeOnSendHook (.clientWriteable true n false onWritable) w).trace =
      reports w.trace ++ [.sendComplete p.io cb p.callbackContext .ok,
        .sendComplete p.io cb p.callbackContext .cancelled] := by
  have h0 : ¬ n < 0 := Int.not_lt.mpr hn.1
  have h1 : ¬ n.toNat < p.size := Nat.not_lt.mpr hn.2
  let w3 := ((w.emit (.delivered .clientWriteable)).emit
    (.write w.wsio.wsi (p.bytes.take p.size) n)).emit (.sendComplete p.io cb p.callbackContext .ok)
  have hq3 : w3.wsio.pendingIoList = [p] := hq
  have hd : drainPendingIo id [true] w3 = some (cancelPendingIo id p true w3) := by
    rw [drainPendingIo_head id true hq3, drainPendingIo_empty id (by simp [cancelPendingIo, hq3])]
  have hhook : closeOnSendHook w3 = finishClose id none 0 (cancelPendingIo id p true w3) := by
    simp only [closeOnSendHook, wsioClose]
    simp [w3, hs, hd]
  simp only [onWsCallback, onClientWriteable, World.emit_wsio, hq, sendHead, h0, sendWritten, h1,
    if_false, if_true, removePendingIo, indicateSendComplete, hcb, indicateError_closeOnSendHook,
    LwsEvent.reason, Bool.false_eq_true]
  rw [hhook]
  split_ifs <;>
    simp [cancelPendingIo, sendLog, callbackLog, hcb, Effect.isReport, errorLog, closeLog, w3] <;>
    split <;> simp [Effect.isReport]

/-- Both nestings from a created instance: a connect error inside `lws_client_connect` destroys
context 0 twice, and a close from IO_SEND_OK reports the write twice. -/
theorem nested_calls_repeat_callbacks :
    (let w := wsioOpen connectErrorHook .wsio (some 1) (some 2) (some 3) 4 ⟨true, false⟩
      (World.init sampleInstance)
    w.trace.getLast? = some (.opened (some 1) 4 606) ∧ Effect.openComplete 1 4 .error ∈ w.trace ∧
      destroyedContexts w.trace = [some 0, some 0]) ∧
    ∃ w, Call.run closeOnSendHook [.wsioOpen .wsio (some 1) (some 2) (some 3) 4 ⟨true, true⟩,
      .wsioDowork .wsio [.clientEstablished],
      .wsioSend .wsio (some [7]) 1 (some 6) 7 ⟨true, true, true, 0⟩,
      .wsioDowork .wsio [.clientWriteable true 1 false 0]] (World.init sampleInstance) = some w ∧
      completions w.trace = [(1, 6, 7), (1, 6, 7)] :=
  ⟨by decide, _, rfl, by decide⟩

end Wsio
