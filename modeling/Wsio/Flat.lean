import Wsio.Api
import Wsio.Trace

/-! # Callbacks that return

When the caller's callbacks return without calling back into the instance and the
engine delivers events only from `lws_service`, `reenter` is `id`: every callback the
instance invokes only leaves its entry in the log.
-/

namespace Wsio

/-- The entry a callback leaves when it is invoked; none when it is NULL. -/
def callbackLog (cb : Option Nat) (entry : Nat → Effect) : List Effect :=
  match cb with
  | some c => [entry c]
  | none => []

/-- What `indicate_error` leaves. -/
def errorLog (onIoError : Option Nat) (ctx : Nat) : List Effect :=
  callbackLog onIoError (Effect.ioError · ctx)

/-- What `indicate_open_complete` leaves. -/
def openLog (onIoOpenComplete : Option Nat) (ctx : Nat) (r : IoOpenResult) : List Effect :=
  callbackLog onIoOpenComplete (Effect.openComplete · ctx r)

/-- What a write's `on_send_complete` leaves. -/
def sendLog (p : PendingSocketIo) (r : IoSendResult) : List Effect :=
  callbackLog p.onSendComplete (Effect.sendComplete p.io · p.callbackContext r)

/-- What `on_io_close_complete` leaves. -/
def closeLog (onIoCloseComplete : Option Nat) (ctx : Nat) : List Effect :=
  callbackLog onIoCloseComplete (Effect.closeComplete · ctx)

theorem forall_mem_callbackLog {P : Effect → Prop} {cb : Option Nat} {entry : Nat → Effect}
    (h : ∀ c, P (entry c)) : ∀ e ∈ callbackLog cb entry, P e := by
  cases cb <;> simp [callbackLog, h]

theorem filterMap_callbackLog {α : Type} {f : Effect → Option α} {cb : Option Nat}
    {entry : Nat → Effect} (h : ∀ c, f (entry c) = none) :
    (callbackLog cb entry).filterMap f = [] :=
  List.filterMap_eq_nil_iff.mpr (forall_mem_callbackLog h)

theorem all_callbackLog {p : Effect → Bool} {cb : Option Nat} {entry : Nat → Effect}
    (h : ∀ c, p (entry c) = true) : (callbackLog cb entry).all p = true :=
  List.all_eq_true.mpr (forall_mem_callbackLog h)

@[simp] theorem completions_sendLog (p : PendingSocketIo) (r : IoSendResult) :
    completions (sendLog p r) = p.completion.toList := by
  unfold sendLog callbackLog PendingSocketIo.completion; cases p.onSendComplete <;> rfl

@[simp] theorem reports_sendLog (p : PendingSocketIo) (r : IoSendResult) :
    reports (sendLog p r) = sendLog p r := by
  unfold sendLog callbackLog; cases p.onSendComplete <;> rfl

section Id

variable (w : World)

@[simp] theorem indicateError_id :
    indicateError id w = w.log (errorLog w.wsio.onIoError w.wsio.openCallbackContext) := by
  unfold indicateError errorLog callbackLog; split <;> simp_all [World.log, World.emit]

@[simp] theorem indicateOpenComplete_id (r : IoOpenResult) :
    indicateOpenComplete id r w =
      w.log (openLog w.wsio.onIoOpenComplete w.wsio.openCallbackContext r) := by
  unfold indicateOpenComplete openLog callbackLog; split <;> simp_all [World.log, World.emit]

@[simp] theorem indicateSendComplete_id (p : PendingSocketIo) (r : IoSendResult) :
    indicateSendComplete id p r w = w.log (sendLog p r) := by
  unfold indicateSendComplete sendLog callbackLog; split <;> simp_all [World.log, World.emit]

@[simp] theorem lwsContextDestroy_id (c : Option Nat) :
    lwsContextDestroy id c w = w.emit (.contextDestroy c) := rfl

@[simp] theorem finishClose_id (cb : Option Nat) (ctx : Nat) :
    finishClose id cb ctx w =
      ((w.emit (.contextDestroy w.wsio.wsContext)).setIoState .notOpen).log
        (closeLog cb ctx ++ [.closed 0]) := by
  unfold finishClose closeLog callbackLog
  split <;> simp [World.log, World.emit, World.setIoState, World.modify]

/-- Reporting `r` for the head `p` and releasing it: the completion, ERROR first when
`fail`, then `list_remove` answering `removed` and ERROR again when it failed. -/
def release (p : PendingSocketIo) (r : IoSendResult) (fail removed : Bool) (w : World) : World :=
  let err := errorLog w.wsio.onIoError w.wsio.openCallbackContext
  { wsio := { w.wsio with
      ioState := if fail || !removed then .error else w.wsio.ioState
      pendingIoList :=
        if removed then w.wsio.pendingIoList.eraseP (·.io == p.io) else w.wsio.pendingIoList }
    trace := w.trace ++ sendLog p r ++ (if fail then err else []) ++
      .listRemove p.io removed :: (if removed then [] else err)
    next := w.next }

theorem sendFailed_id (p : PendingSocketIo) (removed : Bool) :
    sendFailed id p removed w = release p .error p.isPartiallySent removed w := by
  unfold sendFailed removePendingIo release listRemove
  cases p.isPartiallySent <;> cases removed <;>
    simp [World.log, World.emit, World.setIoState, World.modify]

theorem removePendingIo_id (p : PendingSocketIo) (r : IoSendResult) (removed : Bool) :
    removePendingIo id p removed (w.log (sendLog p r)) = release p r false removed w := by
  unfold removePendingIo release listRemove
  cases removed <;> simp [World.log, World.emit, World.setIoState, World.modify]

theorem sendWritten_id (p : PendingSocketIo) (rest : List PendingSocketIo) (n : Int)
    (removed : Bool) :
    sendWritten id p rest n removed w =
      if n.toNat < p.size then
        w.modify fun i =>
          { i with pendingIoList := { p with bytes := memmoveDown p.bytes n.toNat p.size } :: rest }
      else release p .ok false removed w := by
  unfold sendWritten
  split
  · rfl
  · rw [indicateSendComplete_id, removePendingIo_id]

theorem cancelPendingIo_id (p : PendingSocketIo) :
    cancelPendingIo id p true w = release p .cancelled false true w := by
  simp [cancelPendingIo, release, listRemove, World.log, World.emit, World.modify]

end Id

section Cases

variable (w : World)

/-- What `wsio_send` can do: refuse with a non-zero result, queue nothing because `list_add`
failed, or queue a record at the tail and request a writable notification. -/
theorem wsioSend_cases (hd : Handle) (b : Option (List UInt8)) (n : Nat) (cb : Option Nat)
    (ctx : Nat) (r : SendReplies) :
    (∃ k, k ≠ 0 ∧ k ≠ 744 ∧ wsioSend hd b n cb ctx r w = w.emit (.sent k)) ∨
    (∃ buf, b = some buf ∧ w.wsio.ioState = .opened ∧ wsioSend hd b n cb ctx r w =
      w.fresh.log [.listAdd (newPendingIo w.next buf n cb ctx) false, .sent 736]) ∨
    (∃ buf, b = some buf ∧ hd = .wsio ∧ n ≠ 0 ∧ w.wsio.ioState = .opened ∧
      wsioSend hd b n cb ctx r w =
        (w.fresh.modify fun i =>
          { i with pendingIoList := i.pendingIoList ++ [newPendingIo w.next buf n cb ctx] }).log
          [.listAdd (newPendingIo w.next buf n cb ctx) true,
           .callbackOnWritable w.wsio.wsi r.onWritable,
           .sent (if r.onWritable < 0 then 744 else 0)]) := by
  unfold wsioSend
  split
  · rename_i buf
    split
    · exact .inl ⟨711, by decide, by decide, rfl⟩
    split
    · exact .inl ⟨720, by decide, by decide, rfl⟩
    rename_i h0 hs
    simp only [ne_eq, not_not] at hs
    unfold addPendingIo
    by_cases hp : r.pendingSocketIo = true
    · by_cases hb : r.bytes = true
      · by_cases ha : r.listAdd = true
        · refine .inr (.inr ⟨buf, rfl, rfl, h0, hs, ?_⟩)
          simp only [hp, hb, ha, Bool.not_true, Bool.false_eq_true, if_false, if_true]
          split <;> simp_all [World.log, World.emit, World.modify]
        · refine .inr (.inl ⟨buf, rfl, hs, ?_⟩)
          simp [hp, hb, ha, World.log, World.emit]
      · exact .inl ⟨736, by decide, by decide, by simp [hp, hb]⟩
    · exact .inl ⟨736, by decide, by decide, by simp [hp]⟩
  · exact .inl ⟨711, by decide, by decide, rfl⟩

/-- A `wsio_send` that returns 744 has appended its write; any other non-zero result leaves
the queue as it was. -/
theorem wsioSend_nonzero (hd : Handle) (b : Option (List UInt8)) (n : Nat) (cb : Option Nat)
    (ctx : Nat) (r : SendReplies) {k : Nat} (hk : k ≠ 0)
    (h : ∃ pre, (wsioSend hd b n cb ctx r w).trace = pre ++ [.sent k]) :
    (k = 744 → ∃ buf, b = some buf ∧ (wsioSend hd b n cb ctx r w).wsio.pendingIoList =
      w.wsio.pendingIoList ++ [newPendingIo w.next buf n cb ctx]) ∧
    (k ≠ 744 → (wsioSend hd b n cb ctx r w).wsio.pendingIoList = w.wsio.pendingIoList) := by
  obtain ⟨pre, hp⟩ := h
  have hlast := congrArg List.getLast? hp
  rcases wsioSend_cases w hd b n cb ctx r with
    ⟨k', -, h744, he⟩ | ⟨_, -, -, he⟩ | ⟨buf, hb, -, -, -, he⟩ <;> rw [he] at hlast ⊢ <;>
    simp [World.emit, World.log] at hlast
  · exact ⟨fun h => absurd (hlast.trans h) h744, fun _ => rfl⟩
  · exact ⟨fun h => absurd (hlast.trans h) (by decide), fun _ => rfl⟩
  · refine ⟨fun _ => ⟨buf, hb, rfl⟩, fun h => ?_⟩
    split_ifs at hlast <;> omega

/-- What `wsio_open` can do: refuse, fail to create a context, fail to connect and destroy
the context, or connect and go OPENING. -/
theorem wsioOpen_cases (hd : Handle) (oc ob oe : Option Nat) (ctx : Nat) (r : OpenReplies) :
    (∃ k, k ≠ 0 ∧ (hd = .null ∨ w.wsio.ioState ≠ .notOpen) ∧
      wsioOpen id hd oc ob oe ctx r w = w.emit (.opened oc ctx k)) ∨
    (hd = .wsio ∧ w.wsio.ioState = .notOpen ∧
      wsioOpen id hd oc ob oe ctx r w =
        (w.modify fun i =>
          { i with onBytesReceived := ob, onIoOpenComplete := oc, onIoError := oe,
                   openCallbackContext := ctx, wsContext := none }).log
          [.createContext none, .opened oc ctx 584]) ∨
    (hd = .wsio ∧ w.wsio.ioState = .notOpen ∧
      wsioOpen id hd oc ob oe ctx r w =
        (w.fresh.modify fun i =>
          { i with onBytesReceived := ob, onIoOpenComplete := oc, onIoError := oe,
                   openCallbackContext := ctx, wsContext := some w.next, wsi := none }).log
          [.createContext (some w.next), connectEntry w.next w.wsio,
           .contextDestroy (some w.next), .opened oc ctx 606]) ∨
    (hd = .wsio ∧ w.wsio.ioState = .notOpen ∧
      wsioOpen id hd oc ob oe ctx r w =
        (w.fresh.modify fun i =>
          { i with onBytesReceived := ob, onIoOpenComplete := oc, onIoError := oe,
                   openCallbackContext := ctx, wsContext := some w.next, ioState := .opening,
                   wsi := some w.next }).log
          [.createContext (some w.next), connectEntry w.next w.wsio, .opened oc ctx 0]) := by
  unfold wsioOpen
  split
  · exact .inl ⟨529, by decide, .inl rfl, rfl⟩
  split
  · exact .inl ⟨538, by decide, .inr ‹_›, rfl⟩
  rename_i hs
  simp only [ne_eq, not_not] at hs
  obtain ⟨_ | _, _ | _⟩ := r
  · exact .inr (.inl ⟨rfl, hs, by simp [World.log, World.emit, World.modify]⟩)
  · exact .inr (.inl ⟨rfl, hs, by simp [World.log, World.emit, World.modify]⟩)
  · exact .inr (.inr (.inl ⟨rfl, hs, by simp [hs, World.log, World.emit, World.modify,
      World.setIoState, World.fresh, connectEntry]⟩))
  · exact .inr (.inr (.inr ⟨rfl, hs, by simp [hs, World.log, World.emit, World.modify,
      World.setIoState, World.fresh, connectEntry]⟩))

theorem wsioClose_notOpen {cb : Option Nat} {ctx : Nat} {removes : List Bool} {w' : World}
    (h : wsioClose id .wsio cb ctx removes w = some w') : w'.wsio.ioState = .notOpen := by
  unfold wsioClose at h
  split_ifs at h with hs hs'
  · cases h; simpa using hs
  · cases h; simp
  · obtain ⟨w1, -, rfl⟩ := Option.map_eq_some'.mp h; simp

theorem wsioClose_zero {cb : Option Nat} {ctx : Nat} {removes : List Bool} {w' : World}
    (h : wsioClose id .wsio cb ctx removes w = some w')
    (h0 : ∃ pre, w'.trace = pre ++ [.closed 0]) :
    ∃ pre, w'.trace = pre ++ closeLog cb ctx ++ [.closed 0] := by
  have hf : ∀ w1 : World, (finishClose id cb ctx w1).trace =
      w1.trace ++ [.contextDestroy w1.wsio.wsContext] ++ closeLog cb ctx ++ [.closed 0] := by
    simp
  unfold wsioClose at h
  split_ifs at h
  · cases h
    obtain ⟨pre, hp⟩ := h0
    obtain ⟨-, h1⟩ := List.append_inj' hp rfl
    simp at h1
  · cases h; exact ⟨_, hf _⟩
  · obtain ⟨w1, -, rfl⟩ := Option.map_eq_some'.mp h; exact ⟨_, hf _⟩

end Cases

section Grows

/-! The log is append-only: every call and every event only adds entries to it, as long as
the caller's callbacks only add entries too. -/

/-- The caller's callbacks, and whatever they call, only add entries to the log. -/
def HookGrows (reenter : World → World) : Prop := ∀ w, w.trace <+: (reenter w).trace

theorem hookGrows_id : HookGrows id := fun _ => List.prefix_refl _

theorem World.trace_prefix_emit (w : World) (e : Effect) : w.trace <+: (w.emit e).trace :=
  List.prefix_append _ _

theorem World.prefix_emit_of {l : List Effect} {w : World} (h : l <+: w.trace) (e : Effect) :
    l <+: (w.emit e).trace :=
  h.trans (w.trace_prefix_emit e)

theorem HookGrows.prefix_of {reenter : World → World} (hg : HookGrows reenter) {l : List Effect}
    {w : World} (h : l <+: w.trace) : l <+: (reenter w).trace :=
  h.trans (hg w)

namespace HookGrows

variable {reenter : World → World} (hg : HookGrows reenter) (w : World)
include hg

theorem emit (e : Effect) : w.trace <+: (reenter (w.emit e)).trace :=
  (w.trace_prefix_emit e).trans (hg _)

theorem indicateError : w.trace <+: (indicateError reenter w).trace := by
  unfold Wsio.indicateError; split
  exacts [hg.emit w _, List.prefix_refl _]

theorem indicateOpenComplete (r : IoOpenResult) :
    w.trace <+: (indicateOpenComplete reenter r w).trace := by
  unfold Wsio.indicateOpenComplete; split
  exacts [hg.emit w _, List.prefix_refl _]

theorem indicateSendComplete (p : PendingSocketIo) (r : IoSendResult) :
    w.trace <+: (indicateSendComplete reenter p r w).trace := by
  unfold Wsio.indicateSendComplete; split
  exacts [hg.emit w _, List.prefix_refl _]

theorem removePendingIo (p : PendingSocketIo) (removed : Bool) :
    w.trace <+: (removePendingIo reenter p removed w).trace := by
  have h1 : w.trace <+: (listRemove p.io removed w).trace := by simp
  simp only [Wsio.removePendingIo]; split
  exacts [h1, h1.trans (hg.indicateError ((listRemove p.io removed w).setIoState .error))]

theorem sendFailed (p : PendingSocketIo) (removed : Bool) :
    w.trace <+: (sendFailed reenter p removed w).trace := by
  have h1 := hg.indicateSendComplete w p .error
  simp only [Wsio.sendFailed]; split_ifs
  · exact (h1.trans (hg.indicateError ((Wsio.indicateSendComplete reenter p .error w).setIoState
      .error))).trans (hg.removePendingIo _ p removed)
  · exact h1.trans (hg.removePendingIo _ p removed)

theorem sendWritten (p : PendingSocketIo) (rest : List PendingSocketIo) (n : Int)
    (removed : Bool) : w.trace <+: (sendWritten reenter p rest n removed w).trace := by
  unfold Wsio.sendWritten; split_ifs
  exacts [List.prefix_refl _,
    (hg.indicateSendComplete w p .ok).trans (hg.removePendingIo _ p removed)]

theorem sendHead (p : PendingSocketIo) (rest : List PendingSocketIo) (wsBuffer : Bool)
    (n : Int) (removed : Bool) :
    w.trace <+: (sendHead reenter p rest wsBuffer n removed w).trace := by
  simp only [Wsio.sendHead]; split_ifs
  · exact (w.trace_prefix_emit _).trans (hg.sendFailed _ p removed)
  · exact (w.trace_prefix_emit _).trans (hg.sendWritten _ p rest n removed)
  · exact hg.sendFailed w p removed

theorem onClientWriteable (wsi : Option Nat) (wsBuffer : Bool) (n : Int) (removed : Bool)
    (onWritable : Int) :
    w.trace <+: (onClientWriteable reenter wsi wsBuffer n removed onWritable w).trace := by
  unfold Wsio.onClientWriteable
  cases w.wsio.pendingIoList with
  | nil => exact List.prefix_refl _
  | cons p rest =>
    have h1 := hg.sendHead w p rest wsBuffer n removed
    dsimp only; split
    exacts [h1, h1.trans (World.trace_prefix_emit _ _)]

theorem onWsCallback (e : LwsEvent) : w.trace <+: (onWsCallback reenter e w).trace := by
  refine (w.trace_prefix_emit (.delivered e.reason)).trans ?_
  unfold Wsio.onWsCallback
  generalize w.emit (.delivered e.reason) = w
  cases e <;> dsimp only
  case clientEstablished =>
    unfold onClientEstablished; split
    exacts [hg.indicateOpenComplete (w.setIoState .opened) .ok, hg.indicateError w]
  case clientConnectionError =>
    unfold onClientConnectionError; split
    exacts [(hg.indicateOpenComplete w .error).trans (hg.emit _ _), hg.indicateError w]
  case clientWriteable wsBuffer n removed onWritable =>
    exact hg.onClientWriteable w _ wsBuffer n removed onWritable
  case clientReceive bytes => exact hg.emit w _
  case loadExtraClientVerifyCerts bio puts certs =>
    obtain ⟨es, he, -⟩ := onLoadExtraClientVerifyCerts_log bio puts certs w
    rw [he]; exact List.prefix_append _ _
  case other => exact List.prefix_refl _

theorem callbacks (events : List LwsEvent) :
    w.trace <+: (events.foldl (fun w e => Wsio.onWsCallback reenter e w) w).trace := by
  induction events generalizing w with
  | nil => exact List.prefix_refl _
  | cons e events ih => exact (hg.onWsCallback w e).trans (ih _)

theorem wsioDowork (hd : Handle) (events : List LwsEvent) :
    w.trace <+: (wsioDowork reenter hd events w).trace := by
  unfold Wsio.wsioDowork
  split
  · exact List.prefix_refl _
  · split
    · exact (w.trace_prefix_emit _).trans (hg.callbacks _ events)
    · exact List.prefix_refl _

theorem drainPendingIo {removes : List Bool} {w' : World}
    (h : drainPendingIo reenter removes w = some w') : w.trace <+: w'.trace := by
  induction removes generalizing w with
  | nil =>
    cases hq : w.wsio.pendingIoList with
    | nil => rw [drainPendingIo_empty reenter hq] at h; cases h; exact List.prefix_refl _
    | cons p ps => rw [drainPendingIo_exhausted reenter hq] at h; cases h
  | cons r removes ih =>
    cases hq : w.wsio.pendingIoList with
    | nil => rw [drainPendingIo_empty reenter hq] at h; cases h; exact List.prefix_refl _
    | cons p ps =>
      rw [drainPendingIo_head reenter r hq] at h
      exact ((hg.indicateSendComplete w p .cancelled).trans (by simp [cancelPendingIo])).trans
        (ih _ h)

theorem finishClose (cb : Option Nat) (ctx : Nat) :
    w.trace <+: (finishClose reenter cb ctx w).trace := by
  have h1 := hg.emit w (.contextDestroy w.wsio.wsContext)
  simp only [Wsio.finishClose, lwsContextDestroy]
  generalize reenter _ = w1 at h1 ⊢
  split
  · exact World.prefix_emit_of (hg.prefix_of (World.prefix_emit_of
      (show w.trace <+: (w1.setIoState .notOpen).trace from h1) _)) _
  · exact World.prefix_emit_of h1 _

theorem wsioOpen (hd : Handle) (oc ob oe : Option Nat) (ctx : Nat) (r : OpenReplies) :
    w.trace <+: (wsioOpen reenter hd oc ob oe ctx r w).trace := by
  simp only [Wsio.wsioOpen, lwsContextDestroy]
  split
  · exact w.trace_prefix_emit _
  · split_ifs
    · exact w.trace_prefix_emit _
    · simp
    all_goals apply World.prefix_emit_of; apply hg.prefix_of; apply World.prefix_emit_of
    · simp
    · apply hg.prefix_of; apply World.prefix_emit_of; simp

theorem wsioClose (hd : Handle) (cb : Option Nat) (ctx : Nat) {removes : List Bool} {w' : World}
    (h : wsioClose reenter hd cb ctx removes w = some w') : w.trace <+: w'.trace := by
  unfold Wsio.wsioClose at h
  split at h
  · cases h; exact w.trace_prefix_emit _
  · split_ifs at h
    · cases h; exact w.trace_prefix_emit _
    · cases h; exact (hg.indicateOpenComplete w _).trans (hg.finishClose _ cb ctx)
    · obtain ⟨w1, h1, rfl⟩ := Option.map_eq_some'.mp h
      exact (hg.drainPendingIo w h1).trans (hg.finishClose _ cb ctx)

theorem exec (c : Call) {w' : World} (h : c.exec reenter w = some w') : w.trace <+: w'.trace := by
  cases c with
  | wsioOpen hd oc ob oe ctx r => cases h; exact hg.wsioOpen w hd oc ob oe ctx r
  | wsioClose hd cb ctx removes => exact hg.wsioClose w hd cb ctx h
  | wsioSend hd b n cb ctx r =>
    cases h
    rcases wsioSend_cases w hd b n cb ctx r with
      ⟨_, -, -, he⟩ | ⟨_, -, -, he⟩ | ⟨_, -, -, -, -, he⟩ <;> simp [he]
  | wsioDowork hd events => cases h; exact hg.wsioDowork w hd events

end HookGrows

variable (w : World)

theorem onWsCallback_grows (e : LwsEvent) : w.trace <+: (onWsCallback id e w).trace :=
  hookGrows_id.onWsCallback w e

theorem callbacks_grows (events : List LwsEvent) :
    w.trace <+: (events.foldl (fun w e => onWsCallback id e w) w).trace :=
  hookGrows_id.callbacks w events

theorem drainPendingIo_grows {removes : List Bool} {w' : World}
    (h : drainPendingIo id removes w = some w') : w.trace <+: w'.trace :=
  hookGrows_id.drainPendingIo w h

theorem Call.exec_grows (c : Call) {w' : World} (h : c.exec id w = some w') :
    w.trace <+: w'.trace :=
  hookGrows_id.exec w c h

end Grows

/-- With no `trusted_ca` and no `on_bytes_received`, the dispatcher passes NULL to `BIO_puts`
and `strlen` and calls a NULL `on_bytes_received`. -/
theorem null_trusted_ca_and_receiver_used :
    (wsioCreate (some sampleConfig) allGranted).1 = some sampleInstance ∧
    sampleConfig.trustedCa = none ∧
    ∃ w, Call.run id [.wsioOpen .wsio (some 1) none (some 3) 4 ⟨true, true⟩,
      .wsioDowork .wsio [.loadExtraClientVerifyCerts true 0 [], .clientEstablished,
        .clientReceive [1]]] (World.init sampleInstance) = some w ∧
      Effect.opened (some 1) 4 0 ∈ w.trace ∧ Effect.bioPuts none ∈ w.trace ∧
      Effect.strlen none ∈ w.trace ∧ Effect.bytesReceived none 4 [1] ∈ w.trace :=
  ⟨rfl, rfl, _, rfl, by decide, by decide, by decide, by decide⟩

end Wsio
