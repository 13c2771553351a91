import Wsio.Lifecycle

/-! # The open-complete protocol

A `wsio_open` that returns 0 leaves the instance OPENING, waiting for its completion: the
first CLIENT_ESTABLISHED, CLIENT_CONNECTION_ERROR or `wsio_close` after it completes it with
IO_OPEN_OK, IO_OPEN_ERROR or IO_OPEN_CANCELLED, and its `on_io_open_complete` is then due
with that result and the open's context, unless it is NULL. `OpenProtocol` reads this off
the log, and `awaiting` is the open an instance waits for. While callbacks return, every
run keeps the two in step, and the `on_io_open_complete` calls of the log are exactly the
ones the protocol expects.
-/

namespace Wsio

/-- The `on_io_open_complete` call an entry records, with its context and result. -/
def Effect.openCompleted : Effect → Option (Nat × Nat × IoOpenResult)
  | .openComplete cb ctx r => some (cb, ctx, r)
  | _ => none

/-- The `on_io_open_complete` calls, in order. -/
def openCompletions (tr : List Effect) : List (Nat × Nat × IoOpenResult) :=
  tr.filterMap Effect.openCompleted

@[simp] theorem openCompletions_append (tr tr' : List Effect) :
    openCompletions (tr ++ tr') = openCompletions tr ++ openCompletions tr' :=
  List.filterMap_append _ _ _

@[simp] theorem openCompletions_nil : openCompletions [] = [] := rfl

@[simp] theorem openCompletions_cons (e : Effect) (tr : List Effect) :
    openCompletions (e :: tr) = e.openCompleted.toList ++ openCompletions tr := by
  cases h : e.openCompleted <;> simp [openCompletions, List.filterMap_cons, h]

@[simp] theorem openCompletions_openLog (oc : Option Nat) (ctx : Nat) (r : IoOpenResult) :
    openCompletions (openLog oc ctx r) = (oc.map fun cb => (cb, ctx, r)).toList := by
  cases oc <;> rfl

/-- The protocol after a log: the `wsio_open` waiting for its completion, with its
`on_io_open_complete` and context, and the `on_io_open_complete` calls due so far. -/
structure OpenProtocol where
  waiting : Option (Option Nat × Nat)
  expected : List (Nat × Nat × IoOpenResult)
  deriving DecidableEq, Repr

namespace OpenProtocol

/-- No open waiting and no call due. -/
def init : OpenProtocol := ⟨none, []⟩

/-- Complete the open waiting, if any, with `r`: its callback is due, unless NULL. -/
def complete (s : OpenProtocol) (r : IoOpenResult) : OpenProtocol where
  waiting := none
  expected := s.expected ++
    match s.waiting with
    | some (oc, ctx) => (oc.map fun cb => (cb, ctx, r)).toList
    | none => []

/-- One entry of the log: a `wsio_open` returning 0 starts waiting; CLIENT_ESTABLISHED,
CLIENT_CONNECTION_ERROR and a `wsio_close` returning 0 complete the open waiting. -/
def step (s : OpenProtocol) : Effect → OpenProtocol
  | .opened oc ctx 0 => { s with waiting := some (oc, ctx) }
  | .delivered .clientEstablished => s.complete .ok
  | .delivered .clientConnectionError => s.complete .error
  | .closed 0 => s.complete .cancelled
  | _ => s

/-- The protocol after the entries `tr`. -/
def run (s : OpenProtocol) (tr : List Effect) : OpenProtocol := tr.foldl step s

@[simp] theorem run_nil (s : OpenProtocol) : s.run [] = s := rfl

@[simp] theorem run_cons (s : OpenProtocol) (e : Effect) (tr : List Effect) :
    s.run (e :: tr) = (s.step e).run tr := rfl

@[simp] theorem run_append (s : OpenProtocol) (tr tr' : List Effect) :
    s.run (tr ++ tr') = (s.run tr).run tr' := List.foldl_append _ _ _ _

/- Only the first completion of an open counts, and an open whose callback is NULL is due
none. -/
example : (init.run [.opened (some 1) 4 0, .delivered .clientEstablished,
    .delivered .clientConnectionError, .opened none 5 0, .closed 0]).expected =
    [(1, 4, .ok)] := by decide

@[simp] theorem run_openLog (s : OpenProtocol) (oc : Option Nat) (ctx : Nat) (r : IoOpenResult) :
    s.run (openLog oc ctx r) = s := by
  cases oc <;> rfl

end OpenProtocol

/-- An entry the protocol ignores: no result 0 of `wsio_open` or `wsio_close`, no
CLIENT_ESTABLISHED or CLIENT_CONNECTION_ERROR, and no `on_io_open_complete` call. -/
def Effect.openQuiet : Effect → Bool
  | .opened _ _ 0 | .closed 0 | .delivered .clientEstablished
  | .delivered .clientConnectionError | .openComplete .. => false
  | _ => true

section Quiet

variable {es : List Effect}

theorem OpenProtocol.run_quiet (s : OpenProtocol) (hes : es.all Effect.openQuiet) :
    s.run es = s := by
  induction es with
  | nil => rfl
  | cons e es ih =>
    simp only [List.all_cons, Bool.and_eq_true] at hes
    have hs : s.step e = s := by
      have he := hes.1
      unfold Effect.openQuiet at he; unfold OpenProtocol.step; split <;> simp_all
    rw [OpenProtocol.run_cons, hs, ih hes.2]

theorem openCompletions_quiet (hes : es.all Effect.openQuiet) : openCompletions es = [] := by
  simp only [List.all_eq_true] at hes
  simp only [openCompletions, List.filterMap_eq_nil_iff]
  intro e he
  have := hes e he
  cases e <;> first | rfl | simp [Effect.openQuiet] at this

end Quiet

/-- The open an instance waits for: while OPENING, the one whose `on_io_open_complete` and
context are registered. -/
def awaiting (i : WsioInstance) : Option (Option Nat × Nat) :=
  if i.ioState = .opening then some (i.onIoOpenComplete, i.openCallbackContext) else none

theorem awaiting_of_ne {i : WsioInstance} (h : i.ioState ≠ .opening) : awaiting i = none := by
  simp [awaiting, h]

/-- The protocol read off the log waits for the open the instance waits for, and the
calls it expects are those of the log. -/
def OpenAgrees (w : World) : Prop :=
  OpenProtocol.init.run w.trace = ⟨awaiting w.wsio, openCompletions w.trace⟩

section Steps

variable {w w' : World}

theorem OpenAgrees.extend (h : OpenAgrees w) (es : List Effect) (htr : w'.trace = w.trace ++ es)
    (hes : (⟨awaiting w.wsio, openCompletions w.trace⟩ : OpenProtocol).run es =
      ⟨awaiting w'.wsio, openCompletions w.trace ++ openCompletions es⟩) : OpenAgrees w' := by
  unfold OpenAgrees at h ⊢
  rw [htr, OpenProtocol.run_append, h, hes, openCompletions_append]

theorem OpenAgrees.quiet (h : OpenAgrees w) (es : List Effect) (htr : w'.trace = w.trace ++ es)
    (hes : es.all Effect.openQuiet) (hs : awaiting w'.wsio = awaiting w.wsio) : OpenAgrees w' :=
  h.extend es htr (by rw [OpenProtocol.run_quiet _ hes, openCompletions_quiet hes, hs,
    List.append_nil])

theorem OpenAgrees.log (h : OpenAgrees w) {es : List Effect} (hes : es.all Effect.openQuiet) :
    OpenAgrees (w.log es) :=
  h.quiet es rfl hes rfl

theorem OpenAgrees.emit (h : OpenAgrees w) (e : Effect) (he : e.openQuiet) :
    OpenAgrees (w.emit e) :=
  h.quiet [e] rfl (by simpa using he) rfl

theorem OpenAgrees.release (h : OpenAgrees w) (hs : w.wsio.ioState ≠ .opening)
    (p : PendingSocketIo) (r : IoSendResult) (fail removed : Bool) :
    OpenAgrees (release p r fail removed w) := by
  have he : (errorLog w.wsio.onIoError w.wsio.openCallbackContext).all Effect.openQuiet :=
    all_callbackLog fun _ => rfl
  have hp : (sendLog p r).all Effect.openQuiet := all_callbackLog fun _ => rfl
  refine h.quiet (sendLog p r ++ (if fail then errorLog w.wsio.onIoError w.wsio.openCallbackContext
      else []) ++ .listRemove p.io removed ::
      (if removed then [] else errorLog w.wsio.onIoError w.wsio.openCallbackContext))
    (by simp [Wsio.release]) (by cases fail <;> cases removed <;> simp [he, hp, Effect.openQuiet])
    ?_
  rw [awaiting_of_ne hs, awaiting_of_ne]
  simp only [Wsio.release]
  split_ifs <;> simp [hs]

theorem OpenAgrees.delivered (h : OpenAgrees w) (hs : w.wsio.ioState ≠ .opening) (r : Reason) :
    OpenAgrees (w.emit (.delivered r)) :=
  h.extend [.delivered r] rfl (by
    cases r <;>
      simp [awaiting_of_ne hs, OpenProtocol.step, OpenProtocol.complete, Effect.openCompleted])

theorem OpenAgrees.indicateError (h : OpenAgrees w) : OpenAgrees (indicateError id w) := by
  rw [indicateError_id]; exact h.log (all_callbackLog fun _ => rfl)

theorem OpenAgrees.sendHead (h : OpenAgrees w) (hs : w.wsio.ioState ≠ .opening)
    (p : PendingSocketIo) (rest : List PendingSocketIo) (wsBuffer : Bool) (n : Int) (ok : Bool) :
    OpenAgrees (sendHead id p rest wsBuffer n ok w) := by
  have hw := h.emit (.write w.wsio.wsi (p.bytes.take p.size) n) rfl
  simp only [Wsio.sendHead, sendFailed_id, sendWritten_id]
  split_ifs
  · exact hw.release hs _ _ _ _
  · exact hw.quiet [] (by simp) rfl (by simp [awaiting])
  · exact hw.release hs _ _ _ _
  · exact h.release hs _ _ _ _

theorem OpenAgrees.writeable (h : OpenAgrees w) (hi : Inv w) (wsi : Option Nat) (wsBuffer : Bool)
    (n : Int) (ok : Bool) (onWritable : Int) :
    OpenAgrees (onClientWriteable id wsi wsBuffer n ok onWritable w) := by
  unfold onClientWriteable
  split
  · exact h
  · rename_i p rest hq
    have hs : w.wsio.ioState ≠ .opening := fun hs => by simp [hi.queue_empty (.inr hs)] at hq
    have h1 := h.sendHead hs p rest wsBuffer n ok
    dsimp only
    split
    exacts [h1, h1.emit _ rfl]

theorem OpenAgrees.established (h : OpenAgrees w) :
    OpenAgrees (onClientEstablished id (w.emit (.delivered .clientEstablished))) := by
  unfold onClientEstablished
  split <;> rename_i hs <;> simp only [World.emit_wsio] at hs
  · refine h.extend (.delivered .clientEstablished :: openLog w.wsio.onIoOpenComplete
      w.wsio.openCallbackContext .ok) (by simp [World.log]) ?_
    simp [awaiting, hs, OpenProtocol.step, OpenProtocol.complete, Effect.openCompleted]
  · exact (h.delivered hs _).indicateError

theorem OpenAgrees.connectionError (h : OpenAgrees w) :
    OpenAgrees (onClientConnectionError id (w.emit (.delivered .clientConnectionError))) := by
  unfold onClientConnectionError
  split <;> rename_i hs <;> simp only [World.emit_wsio] at hs
  · refine h.extend (.delivered .clientConnectionError :: openLog w.wsio.onIoOpenComplete
      w.wsio.openCallbackContext .error ++ [.contextDestroy w.wsio.wsContext]) (by simp) ?_
    simp [awaiting, hs, OpenProtocol.step, OpenProtocol.complete, Effect.openCompleted]
  · exact (h.delivered hs _).indicateError

theorem OpenAgrees.certs (h : OpenAgrees w) (bio : Bool) (puts : Int) (certs : List (Nat × Bool)) :
    OpenAgrees (onLoadExtraClientVerifyCerts bio puts certs w) := by
  obtain ⟨es, he, hes⟩ := onLoadExtraClientVerifyCerts_log bio puts certs w
  rw [he]
  exact h.log (List.all_eq_true.mpr fun e he => by
    rcases hes e he with rfl | rfl | ⟨c, rfl⟩ <;> rfl)

theorem OpenAgrees.callback (h : OpenAgrees w) (hi : Inv w) (e : LwsEvent) :
    OpenAgrees (onWsCallback id e w) := by
  unfold onWsCallback
  cases e with
  | clientEstablished => exact h.established
  | clientConnectionError => exact h.connectionError
  | clientWriteable wsBuffer n ok onWritable =>
    exact (h.emit (.delivered .clientWriteable) rfl).writeable
      (hi.emit (.delivered .clientWriteable) ⟨rfl, rfl, rfl, rfl⟩) _ wsBuffer n ok onWritable
  | clientReceive bytes => exact (h.emit (.delivered .clientReceive) rfl).emit _ rfl
  | loadExtraClientVerifyCerts bio puts certs =>
    exact (h.emit (.delivered .loadExtraClientVerifyCerts) rfl).certs bio puts certs
  | other => exact h.emit (.delivered .other) rfl

theorem OpenAgrees.send (h : OpenAgrees w) (hd : Handle) (b : Option (List UInt8)) (n : Nat)
    (cb : Option Nat) (ctx : Nat) (r : SendReplies) : OpenAgrees (wsioSend hd b n cb ctx r w) := by
  rcases wsioSend_cases w hd b n cb ctx r with
    ⟨k, -, -, he⟩ | ⟨buf, -, -, he⟩ | ⟨buf, -, -, -, -, he⟩ <;> rw [he]
  · exact h.emit _ rfl
  · exact h.quiet _ rfl rfl rfl
  · exact h.quiet _ rfl (by simp [Effect.openQuiet]) (by simp [awaiting])

theorem OpenAgrees.open (h : OpenAgrees w) (hd : Handle) (oc ob oe : Option Nat) (ctx : Nat)
    (r : OpenReplies) : OpenAgrees (wsioOpen id hd oc ob oe ctx r w) := by
  rcases wsioOpen_cases w hd oc ob oe ctx r with
    ⟨k, hk, -, he⟩ | ⟨-, hs, he⟩ | ⟨-, hs, he⟩ | ⟨-, hs, he⟩ <;> rw [he]
  · exact h.emit _ (by cases k <;> simp_all [Effect.openQuiet])
  · exact h.quiet _ rfl rfl (by simp [awaiting, hs])
  · exact h.quiet _ rfl (by simp [Effect.openQuiet, connectEntry]) (by simp [awaiting, hs])
  · refine h.extend _ rfl ?_
    simp [awaiting, hs, connectEntry, OpenProtocol.step, Effect.openCompleted]

theorem OpenAgrees.listRemove (h : OpenAgrees w) (io : Nat) (ok : Bool) :
    OpenAgrees (listRemove io ok w) :=
  h.quiet [.listRemove io ok] (by simp) rfl (by simp [awaiting])

theorem OpenAgrees.drain (h : OpenAgrees w) (hs : w.wsio.ioState ≠ .opening)
    {removes : List Bool} (hd : drainPendingIo id removes w = some w') : OpenAgrees w' := by
  induction removes generalizing w with
  | nil =>
    cases hq : w.wsio.pendingIoList with
    | nil => rw [drainPendingIo_empty id hq] at hd; cases hd; exact h
    | cons p ps => rw [drainPendingIo_exhausted id hq] at hd; cases hd
  | cons r removes ih =>
    cases hq : w.wsio.pendingIoList with
    | nil => rw [drainPendingIo_empty id hq] at hd; cases hd; exact h
    | cons p ps =>
      rw [drainPendingIo_head id r hq] at hd
      have hp : (sendLog p .cancelled).all Effect.openQuiet := all_callbackLog fun _ => rfl
      refine ih ?_ (by simpa [cancelPendingIo] using hs) hd
      simpa [cancelPendingIo] using (h.log hp).listRemove p.io r

theorem OpenAgrees.finishClose (h : OpenAgrees w) (hs : w.wsio.ioState ≠ .opening)
    (cb : Option Nat) (ctx : Nat) : OpenAgrees (finishClose id cb ctx w) := by
  have hc : (closeLog cb ctx).all Effect.openQuiet := all_callbackLog fun _ => rfl
  rw [finishClose_id]
  refine h.extend (.contextDestroy w.wsio.wsContext :: closeLog cb ctx ++ [.closed 0]) (by simp) ?_
  rw [awaiting_of_ne hs]
  simp [awaiting, OpenProtocol.step, OpenProtocol.complete, Effect.openCompleted,
    OpenProtocol.run_quiet _ hc, openCompletions_quiet hc]

theorem OpenAgrees.close (h : OpenAgrees w) (hi : Inv w) (hd : Handle) (cb : Option Nat) (ctx : Nat)
    {removes : List Bool} (hc : wsioClose id hd cb ctx removes w = some w') : OpenAgrees w' := by
  unfold wsioClose at hc
  split at hc
  · cases hc; exact h.emit _ rfl
  · split_ifs at hc with hs hs'
    · cases hc; exact h.emit _ rfl
    · cases hc
      have hc : (closeLog cb ctx).all Effect.openQuiet := all_callbackLog fun _ => rfl
      simp only [finishClose_id, indicateOpenComplete_id]
      refine h.extend (openLog w.wsio.onIoOpenComplete w.wsio.openCallbackContext .cancelled ++
        .contextDestroy w.wsio.wsContext :: closeLog cb ctx ++ [.closed 0]) (by simp) ?_
      simp [awaiting, hs', OpenProtocol.step, OpenProtocol.complete, Effect.openCompleted,
        OpenProtocol.run_quiet _ hc, openCompletions_quiet hc]
    · obtain ⟨w1, hw1, rfl⟩ := Option.map_eq_some'.mp hc
      exact (h.drain hs' hw1).finishClose (by rw [(hi.drain hw1).2.1]; exact hs') cb ctx

end Steps

end Wsio
