import Wsio.Queue

/-! # Sends from inside callbacks

A caller may call `wsio_send` on the instance from inside its callbacks: on a write's
completion, on an error, on the open's completion, on received bytes. `callbackSends choose`
is such a caller: right after each of its callbacks is invoked, it makes the `wsio_send`
calls `choose` picks for the world at that point. The engine still delivers events only from
`lws_service`, so nothing happens inside `lws_client_connect` or `lws_context_destroy`.

A nested send only appends at the tail of the queue, after the write being reported, which
`list_remove` then takes off by its handle. `Reported` is the queue invariant that also holds
between a report and that removal, where the nested sends run: while `list_remove` succeeds,
the reports are those of a prefix of the writes appended, in order and each once, and once
`wsio_close` returns every write appended has been reported and the queue is empty. That last
part also needs `IdleEmpty`: a send from a callback is refused outside OPEN, so no write waits
on an instance NOT_OPEN or OPENING, the states from which `wsio_close` does not drain.
-/

namespace Wsio

open PendingSocketIo

/-- The arguments of a `wsio_send` a callback makes on the instance, with the answers of
the allocator, `list_add` and `lws_callback_on_writable`. -/
structure SendArgs where
  buffer : Option (List UInt8)
  size : Nat
  onSendComplete : Option Nat
  callbackContext : Nat
  replies : SendReplies
  deriving DecidableEq, Repr

/-- Make the sends one after another. -/
def sendAll : List SendArgs → World → World
  | [], w => w
  | s :: ss, w =>
    sendAll ss (wsioSend .wsio s.buffer s.size s.onSendComplete s.callbackContext s.replies w)

/-- An entry that records a call of one of the caller's callbacks. -/
def Effect.callerCallback : Effect → Bool
  | .openComplete .. | .sendComplete .. | .ioError .. | .bytesReceived .. | .closeComplete .. =>
    true
  | _ => false

/-- A caller whose callbacks make the sends `choose` picks before they return; control that
comes back from the engine brings nothing. -/
def callbackSends (choose : World → List SendArgs) (w : World) : World :=
  if w.trace.getLast?.any Effect.callerCallback then sendAll (choose w) w else w

section Hook

/-! What a nested send can do: append to the log, and append writes at the tail of the queue
of an OPEN instance; nothing else of the instance changes. -/

/-- `w'` extends `w` as nested sends do. -/
def Extends (w w' : World) : Prop :=
  w.trace <+: w'.trace ∧ w.next ≤ w'.next ∧
    ∃ new, w'.wsio = { w.wsio with pendingIoList := w.wsio.pendingIoList ++ new } ∧
      (w.wsio.ioState ≠ .opened → new = [])

theorem Extends.refl (w : World) : Extends w w :=
  ⟨List.prefix_refl _, le_rfl, [], by simp, fun _ => rfl⟩

theorem Extends.trans {w₁ w₂ w₃ : World} (h₁ : Extends w₁ w₂) (h₂ : Extends w₂ w₃) :
    Extends w₁ w₃ := by
  obtain ⟨hp₁, hn₁, new₁, hw₁, hs₁⟩ := h₁
  obtain ⟨hp₂, hn₂, new₂, hw₂, hs₂⟩ := h₂
  refine ⟨hp₁.trans hp₂, hn₁.trans hn₂, new₁ ++ new₂, by rw [hw₂, hw₁]; simp, fun hs => ?_⟩
  have hs' : w₂.wsio.ioState ≠ .opened := by rw [hw₁]; exact hs
  simp [hs₁ hs, hs₂ hs']

theorem extends_emit (w : World) (e : Effect) : Extends w (w.emit e) :=
  ⟨List.prefix_append _ _, le_rfl, [], by simp, fun _ => rfl⟩

theorem extends_send (w : World) (s : SendArgs) :
    Extends w (wsioSend .wsio s.buffer s.size s.onSendComplete s.callbackContext s.replies w) := by
  rcases wsioSend_cases w .wsio s.buffer s.size s.onSendComplete s.callbackContext s.replies with
    ⟨k, -, -, he⟩ | ⟨buf, -, -, he⟩ | ⟨buf, -, -, -, hs, he⟩ <;> rw [he]
  · exact extends_emit w _
  · exact ⟨by simp, by simp, [], by simp, fun _ => rfl⟩
  · exact ⟨by simp, by simp, [newPendingIo w.next buf s.size s.onSendComplete s.callbackContext],
      by simp, fun h => absurd hs h⟩

theorem extends_sendAll (ss : List SendArgs) (w : World) : Extends w (sendAll ss w) := by
  induction ss generalizing w with
  | nil => exact Extends.refl w
  | cons s ss ih => exact (extends_send w s).trans (ih _)

variable (choose : World → List SendArgs)

theorem extends_callbackSends (w : World) : Extends w (callbackSends choose w) := by
  unfold callbackSends
  split
  exacts [extends_sendAll _ w, Extends.refl w]

@[simp] theorem callbackSends_emit {w : World} {e : Effect} (he : e.callerCallback = false) :
    callbackSends choose (w.emit e) = w.emit e := by
  simp [callbackSends, he]

theorem wsioOpen_callbackSends (w : World) (hd : Handle) (oc ob oe : Option Nat) (ctx : Nat)
    (r : OpenReplies) : wsioOpen (callbackSends choose) hd oc ob oe ctx r w =
      wsioOpen id hd oc ob oe ctx r w := by
  simp [wsioOpen, lwsContextDestroy, connectEntry, Effect.callerCallback]

end Hook

/-- The writes appended: `done` reported and taken off, the queue the others, of which
`reported` is reported but still listed; addresses are fresh and distinct. -/
structure Reported (w : World) (done reported : List PendingSocketIo) : Prop where
  added : (addedIos w.trace).map header = (done ++ w.wsio.pendingIoList).map header
  removed : removedIos w.trace = done.map (·.io)
  completed : completions w.trace = (done ++ reported).filterMap completion
  fresh : ∀ p ∈ addedIos w.trace, p.io < w.next
  nodup : ((addedIos w.trace).map (·.io)).Nodup

section Steps

variable {w w' : World} {done reported : List PendingSocketIo}

theorem Reported.fifo (h : Reported w done []) : Fifo w done :=
  ⟨h.added, h.removed, by simpa using h.completed⟩

theorem Reported.quiet (h : Reported w done reported) (es : List Effect)
    (htr : w'.trace = w.trace ++ es) (hn : w.next ≤ w'.next)
    (hq : w'.wsio.pendingIoList.map header = w.wsio.pendingIoList.map header) (hs : Silent es) :
    Reported w' done reported where
  added := by
    rw [htr, addedIos_append, hs.1, List.append_nil, h.added, List.map_append, List.map_append, hq]
  removed := by rw [htr, removedIos_append, hs.2.1, List.append_nil, h.removed]
  completed := by rw [htr, completions_append, hs.2.2, List.append_nil, h.completed]
  fresh := fun p hp => (h.fresh p (by simpa [htr, hs.1] using hp)).trans_le hn
  nodup := by simpa [htr, hs.1] using h.nodup

theorem Reported.emit (h : Reported w done reported) (e : Effect)
    (he : e.added = none ∧ e.removed = none ∧ e.completed = none) :
    Reported (w.emit e) done reported :=
  h.quiet [e] rfl le_rfl rfl (silent_of (by simpa using he))

theorem Reported.setIoState (h : Reported w done reported) (s : IoState) :
    Reported (w.setIoState s) done reported :=
  h.quiet [] (by simp) le_rfl rfl ⟨rfl, rfl, rfl⟩

theorem Reported.open (h : Reported w done reported) (hd : Handle) (oc ob oe : Option Nat)
    (ctx : Nat) (r : OpenReplies) : Reported (wsioOpen id hd oc ob oe ctx r w) done reported := by
  rcases wsioOpen_cases w hd oc ob oe ctx r with
    ⟨k, -, -, he⟩ | ⟨-, -, he⟩ | ⟨-, -, he⟩ | ⟨-, -, he⟩ <;> rw [he]
  · exact h.emit _ ⟨rfl, rfl, rfl⟩
  all_goals exact h.quiet _ rfl (by simp) rfl (silent_of (by
    simp [Effect.added, Effect.removed, Effect.completed, connectEntry]))

theorem Reported.send (h : Reported w done reported) (hd : Handle) (b : Option (List UInt8))
    (n : Nat) (cb : Option Nat) (ctx : Nat) (r : SendReplies) :
    Reported (wsioSend hd b n cb ctx r w) done reported := by
  rcases wsioSend_cases w hd b n cb ctx r with
    ⟨k, -, -, he⟩ | ⟨buf, -, -, he⟩ | ⟨buf, -, -, -, -, he⟩ <;> rw [he]
  · exact h.emit _ ⟨rfl, rfl, rfl⟩
  · exact h.quiet _ rfl (by simp) rfl
      (silent_of (by simp [Effect.added, Effect.removed, Effect.completed]))
  · refine ⟨?_, ?_, ?_, fun p hp => ?_, ?_⟩
    · simp [h.added, Effect.added]
    · simp [h.removed, Effect.removed]
    · simp [h.completed, Effect.completed]
    · simp only [World.log_trace, World.modify_trace, World.fresh_trace, addedIos_append,
        List.mem_append, World.log_next, World.modify_next, World.fresh_next] at hp ⊢
      rcases hp with hp | hp
      · exact (h.fresh p hp).trans (Nat.lt_succ_self _)
      · simp [Effect.added] at hp; subst hp; simp [newPendingIo]
    · simp only [World.log_trace, World.modify_trace, World.fresh_trace, addedIos_append,
        List.map_append, List.nodup_append]
      refine ⟨h.nodup, by simp [Effect.added], ?_⟩
      simp only [addedIos, List.filterMap_cons, List.filterMap_nil, Effect.added, List.map_cons,
        List.map_nil, List.disjoint_singleton]
      intro hm
      obtain ⟨p, hp, he⟩ := List.mem_map.mp hm
      exact absurd (h.fresh p hp) (by simp [newPendingIo] at he; omega)

theorem Reported.sendAll (h : Reported w done reported) (ss : List SendArgs) :
    Reported (sendAll ss w) done reported := by
  induction ss generalizing w with
  | nil => exact h
  | cons s ss ih =>
    exact ih (h.send .wsio s.buffer s.size s.onSendComplete s.callbackContext s.replies)

theorem Reported.hook (h : Reported w done reported) (choose : World → List SendArgs) :
    Reported (callbackSends choose w) done reported := by
  unfold callbackSends
  split
  exacts [h.sendAll _, h]

theorem Reported.report (h : Reported w done []) (p : PendingSocketIo) (r : IoSendResult) :
    Reported (w.log (sendLog p r)) done [p] := by
  have ha : addedIos (sendLog p r) = [] := filterMap_callbackLog fun _ => rfl
  have hr : removedIos (sendLog p r) = [] := filterMap_callbackLog fun _ => rfl
  refine ⟨by simp [h.added, ha], by simp [h.removed, hr], ?_, by simpa [ha] using h.fresh,
    by simpa [ha] using h.nodup⟩
  cases hp : p.completion <;> simp [h.completed, List.filterMap_append, hp]

theorem Reported.remove {p : PendingSocketIo} {rest : List PendingSocketIo}
    (h : Reported w done [p]) (hq : w.wsio.pendingIoList = p :: rest) :
    Reported (listRemove p.io true w) (done ++ [p]) [] where
  added := by simp [h.added, hq, Effect.added]
  removed := by simp [h.removed, Effect.removed]
  completed := by simp [h.completed, Effect.completed]
  fresh := by simpa [Effect.added] using h.fresh
  nodup := by simpa [Effect.added] using h.nodup

theorem Reported.certs (h : Reported w done reported) (bio : Bool) (puts : Int)
    (certs : List (Nat × Bool)) :
    Reported (onLoadExtraClientVerifyCerts bio puts certs w) done reported := by
  obtain ⟨es, he, hes⟩ := onLoadExtraClientVerifyCerts_log bio puts certs w
  rw [he]
  exact h.quiet es rfl le_rfl rfl (silent_of fun e he => by
    rcases hes e he with rfl | rfl | ⟨c, rfl⟩ <;> exact ⟨rfl, rfl, rfl⟩)

end Steps

section Handlers

/-! Each handler, run for a caller whose callbacks send: its log only grows, and it keeps the
queue invariant, retiring the writes it reports and takes off. -/

variable (choose : World → List SendArgs) {w w' : World} {done : List PendingSocketIo}
  {p : PendingSocketIo} {rest : List PendingSocketIo}

theorem extends_indicateError (w : World) : Extends w (indicateError (callbackSends choose) w) := by
  unfold indicateError; split
  exacts [(extends_emit w _).trans (extends_callbackSends choose _), Extends.refl w]

theorem extends_indicateOpenComplete (r : IoOpenResult) (w : World) :
    Extends w (indicateOpenComplete (callbackSends choose) r w) := by
  unfold indicateOpenComplete; split
  exacts [(extends_emit w _).trans (extends_callbackSends choose _), Extends.refl w]

theorem extends_indicateSendComplete (p : PendingSocketIo) (r : IoSendResult) (w : World) :
    Extends w (indicateSendComplete (callbackSends choose) p r w) := by
  unfold indicateSendComplete; split
  exacts [(extends_emit w _).trans (extends_callbackSends choose _), Extends.refl w]

theorem Reported.indicateError (h : Reported w done reported) :
    Reported (indicateError (callbackSends choose) w) done reported := by
  unfold Wsio.indicateError; split
  exacts [(h.emit _ (by exact ⟨rfl, rfl, rfl⟩)).hook choose, h]

theorem Reported.indicateOpenComplete (h : Reported w done reported) (r : IoOpenResult) :
    Reported (indicateOpenComplete (callbackSends choose) r w) done reported := by
  unfold Wsio.indicateOpenComplete; split
  exacts [(h.emit _ (by exact ⟨rfl, rfl, rfl⟩)).hook choose, h]

theorem Reported.indicateSendComplete (h : Reported w done []) (p : PendingSocketIo)
    (r : IoSendResult) : Reported (indicateSendComplete (callbackSends choose) p r w) done [p] := by
  have h1 := h.report p r
  unfold Wsio.indicateSendComplete; unfold sendLog callbackLog at h1
  cases hcb : p.onSendComplete <;> simp only [hcb] at h1 ⊢
  · simpa [World.log] using h1
  · exact h1.hook choose

theorem removed_of_removePendingIo {removed : Bool}
    (hok : RemovesOk (removePendingIo (callbackSends choose) p removed w).trace) :
    removed = true := by
  cases removed
  · have hp := (extends_indicateError choose ((listRemove p.io false w).setIoState .error)).1
    exact absurd (hp.subset (by simp)) (hok.not_mem p.io)
  · rfl

theorem Reported.removeHead (h : Reported w done [p]) (hq : w.wsio.pendingIoList = p :: rest)
    {removed : Bool} (hok : RemovesOk (removePendingIo (callbackSends choose) p removed w).trace) :
    Reported (removePendingIo (callbackSends choose) p removed w) (done ++ [p]) [] := by
  obtain rfl := removed_of_removePendingIo choose hok
  exact h.remove hq

theorem Extends.head {w w' : World} (he : Extends w w') (hq : w.wsio.pendingIoList = p :: rest) :
    ∃ rest', w'.wsio.pendingIoList = p :: rest' := by
  obtain ⟨-, -, new, hw, -⟩ := he
  exact ⟨rest ++ new, by rw [hw, hq]; rfl⟩

theorem Reported.sendFailed (h : Reported w done []) (hq : w.wsio.pendingIoList = p :: rest)
    {removed : Bool} (hok : RemovesOk (sendFailed (callbackSends choose) p removed w).trace) :
    Reported (sendFailed (callbackSends choose) p removed w) (done ++ [p]) [] := by
  simp only [Wsio.sendFailed] at hok ⊢
  have h1 := h.indicateSendComplete choose p .error
  have he1 := extends_indicateSendComplete choose p .error w
  split_ifs at hok ⊢
  · obtain ⟨rest₁, hq₁⟩ := he1.head hq
    obtain ⟨rest', hq'⟩ := (extends_indicateError choose (World.setIoState .error _)).head
      (by exact hq₁)
    exact ((h1.setIoState .error).indicateError choose).removeHead choose hq' hok
  · obtain ⟨rest', hq'⟩ := he1.head hq
    exact h1.removeHead choose hq' hok

theorem Reported.sendWritten (h : Reported w done []) (hq : w.wsio.pendingIoList = p :: rest)
    (n : Int) {removed : Bool}
    (hok : RemovesOk (sendWritten (callbackSends choose) p rest n removed w).trace) :
    ∃ d, Reported (sendWritten (callbackSends choose) p rest n removed w) d [] := by
  unfold Wsio.sendWritten at hok ⊢
  split_ifs at hok ⊢
  · exact ⟨done, h.quiet [] (by simp) le_rfl (by simp [hq, header]) ⟨rfl, rfl, rfl⟩⟩
  · obtain ⟨rest', hq'⟩ := (extends_indicateSendComplete choose p .ok w).head hq
    exact ⟨_, (h.indicateSendComplete choose p .ok).removeHead choose hq' hok⟩

theorem Reported.sendHead (h : Reported w done []) (hq : w.wsio.pendingIoList = p :: rest)
    (wsBuffer : Bool) (n : Int) {removed : Bool}
    (hok : RemovesOk (sendHead (callbackSends choose) p rest wsBuffer n removed w).trace) :
    ∃ d, Reported (sendHead (callbackSends choose) p rest wsBuffer n removed w) d [] := by
  have hw := h.emit (.write w.wsio.wsi (p.bytes.take p.size) n) ⟨rfl, rfl, rfl⟩
  simp only [Wsio.sendHead] at hok ⊢
  split_ifs at hok ⊢
  · exact ⟨_, hw.sendFailed choose hq hok⟩
  · exact hw.sendWritten choose hq n hok
  · exact ⟨_, h.sendFailed choose hq hok⟩

theorem hookGrows_callbackSends : HookGrows (callbackSends choose) :=
  fun w => (extends_callbackSends choose w).1

theorem Reported.writeable (h : Reported w done []) (wsi : Option Nat) (wsBuffer : Bool) (n : Int)
    (removed : Bool) (onWritable : Int)
    (hok : RemovesOk (onClientWriteable (callbackSends choose) wsi wsBuffer n removed onWritable
      w).trace) :
    ∃ d,
      Reported (onClientWriteable (callbackSends choose) wsi wsBuffer n removed onWritable w) d
        [] := by
  unfold onClientWriteable at hok ⊢
  cases hq : w.wsio.pendingIoList with
  | nil => simp only [hq]; exact ⟨done, h⟩
  | cons p rest =>
    simp only [hq] at hok ⊢
    have hok' :
        RemovesOk (Wsio.sendHead (callbackSends choose) p rest wsBuffer n removed w).trace := by
      split at hok
      exacts [hok, hok.anti (List.prefix_append _ _)]
    obtain ⟨d, hd⟩ := h.sendHead choose hq wsBuffer n hok'
    refine ⟨d, ?_⟩
    split
    exacts [hd, hd.emit _ (by exact ⟨rfl, rfl, rfl⟩)]

theorem Reported.callback (h : Reported w done []) (e : LwsEvent)
    (hok : RemovesOk (onWsCallback (callbackSends choose) e w).trace) :
    ∃ d, Reported (onWsCallback (callbackSends choose) e w) d [] := by
  have h1 := h.emit (.delivered e.reason) ⟨rfl, rfl, rfl⟩
  simp only [onWsCallback] at hok ⊢
  cases e <;> dsimp only at hok ⊢
  case clientWriteable wsBuffer n removed onWritable => exact h1.writeable choose _ _ _ _ _ hok
  case clientEstablished =>
    refine ⟨done, ?_⟩
    unfold onClientEstablished
    split
    exacts [(h1.setIoState .opened).indicateOpenComplete choose .ok, h1.indicateError choose]
  case clientConnectionError =>
    refine ⟨done, ?_⟩
    unfold onClientConnectionError
    split
    · simp only [lwsContextDestroy, callbackSends_emit, Effect.callerCallback]
      exact ((h1.indicateOpenComplete choose .error).emit _
        (by exact ⟨rfl, rfl, rfl⟩)).setIoState .notOpen
    · exact h1.indicateError choose
  case clientReceive bytes => exact ⟨done, (h1.emit _ (by exact ⟨rfl, rfl, rfl⟩)).hook choose⟩
  case loadExtraClientVerifyCerts bio puts certs => exact ⟨done, h1.certs bio puts certs⟩
  case other => exact ⟨done, h1⟩

theorem Reported.dowork (h : Reported w done []) (hd : Handle) (events : List LwsEvent)
    (hok : RemovesOk (wsioDowork (callbackSends choose) hd events w).trace) :
    ∃ d, Reported (wsioDowork (callbackSends choose) hd events w) d [] := by
  unfold wsioDowork at hok ⊢
  split
  · exact ⟨done, h⟩
  · split_ifs at hok ⊢
    · have h1 := h.emit (.service w.wsio.wsContext) ⟨rfl, rfl, rfl⟩
      generalize w.emit (.service w.wsio.wsContext) = w1 at h1 hok ⊢
      clear h
      induction events generalizing w1 done with
      | nil => exact ⟨done, h1⟩
      | cons e events ih =>
        obtain ⟨d, hd⟩ := h1.callback choose e
          (hok.anti ((hookGrows_callbackSends choose).callbacks _ events))
        exact ih _ hd hok
    · exact ⟨done, h⟩

theorem Reported.cancel (h : Reported w done []) (hq : w.wsio.pendingIoList = p :: rest)
    (removed : Bool) (hok : RemovesOk (cancelPendingIo (callbackSends choose) p removed w).trace) :
    Reported (cancelPendingIo (callbackSends choose) p removed w) (done ++ [p]) [] := by
  cases removed
  · exact absurd (by simp [cancelPendingIo]) (hok.not_mem p.io)
  · obtain ⟨rest', hq'⟩ := (extends_indicateSendComplete choose p .cancelled w).head hq
    exact (h.indicateSendComplete choose p .cancelled).remove hq'

theorem Reported.drain (h : Reported w done []) {removes : List Bool}
    (hd : drainPendingIo (callbackSends choose) removes w = some w') (hok : RemovesOk w'.trace) :
    ∃ d, Reported w' d [] ∧ w'.wsio.pendingIoList = [] := by
  induction removes generalizing w done with
  | nil =>
    cases hq : w.wsio.pendingIoList with
    | nil => rw [drainPendingIo_empty _ hq] at hd; cases hd; exact ⟨done, h, hq⟩
    | cons p ps => rw [drainPendingIo_exhausted _ hq] at hd; cases hd
  | cons r removes ih =>
    cases hq : w.wsio.pendingIoList with
    | nil => rw [drainPendingIo_empty _ hq] at hd; cases hd; exact ⟨done, h, hq⟩
    | cons p ps =>
      rw [drainPendingIo_head _ r hq] at hd
      exact ih (h.cancel choose hq r
        (hok.anti ((hookGrows_callbackSends choose).drainPendingIo _ hd))) hd

theorem finishClose_pendingIoList (cb : Option Nat) (ctx : Nat) (w : World) :
    (finishClose (callbackSends choose) cb ctx w).wsio.pendingIoList = w.wsio.pendingIoList := by
  simp only [Wsio.finishClose, lwsContextDestroy, callbackSends_emit, Effect.callerCallback]
  split
  · obtain ⟨-, -, new, hw, hs⟩ := extends_callbackSends choose
      (((w.emit (.contextDestroy w.wsio.wsContext)).setIoState .notOpen).emit
        (.closeComplete ‹_› ctx))
    simp [hw, hs (by simp)]
  · rfl

theorem Reported.finishClose (h : Reported w done []) (cb : Option Nat) (ctx : Nat) :
    Reported (finishClose (callbackSends choose) cb ctx w) done [] := by
  have h1 := (h.emit (.contextDestroy w.wsio.wsContext) ⟨rfl, rfl, rfl⟩).setIoState .notOpen
  simp only [Wsio.finishClose, lwsContextDestroy, callbackSends_emit, Effect.callerCallback]
  split
  exacts [((h1.emit _ (by exact ⟨rfl, rfl, rfl⟩)).hook choose).emit _ ⟨rfl, rfl, rfl⟩,
    h1.emit _ ⟨rfl, rfl, rfl⟩]

theorem Reported.close (h : Reported w done []) (hd : Handle) (cb : Option Nat) (ctx : Nat)
    {removes : List Bool} (hc : wsioClose (callbackSends choose) hd cb ctx removes w = some w')
    (hok : RemovesOk w'.trace) : ∃ d, Reported w' d [] := by
  unfold wsioClose at hc
  split at hc
  · cases hc; exact ⟨done, h.emit _ ⟨rfl, rfl, rfl⟩⟩
  · split_ifs at hc
    · cases hc; exact ⟨done, h.emit _ ⟨rfl, rfl, rfl⟩⟩
    · cases hc; exact ⟨done, (h.indicateOpenComplete choose .cancelled).finishClose choose cb ctx⟩
    · obtain ⟨w1, hw1, rfl⟩ := Option.map_eq_some'.mp hc
      obtain ⟨d, hd, -⟩ := h.drain choose hw1
        (hok.anti ((hookGrows_callbackSends choose).finishClose w1 cb ctx))
      exact ⟨d, hd.finishClose choose cb ctx⟩

theorem Reported.exec (h : Reported w done []) (c : Call)
    (hc : c.exec (callbackSends choose) w = some w') (hok : RemovesOk w'.trace) :
    ∃ d, Reported w' d [] := by
  cases c with
  | wsioOpen hd oc ob oe ctx r =>
    cases hc; rw [wsioOpen_callbackSends]; exact ⟨done, h.open hd oc ob oe ctx r⟩
  | wsioClose hd cb ctx removes => exact h.close choose hd cb ctx hc hok
  | wsioSend hd b n cb ctx r => cases hc; exact ⟨done, h.send hd b n cb ctx r⟩
  | wsioDowork hd events => cases hc; exact h.dowork choose hd events hok

end Handlers

section Idle

/-! Writes wait only on an instance that is open, or that failed while open: a send from a
callback is refused outside OPEN, and `wsio_close` drains the queue before NOT_OPEN. -/

/-- An instance NOT_OPEN or OPENING holds no write. -/
def IdleEmpty (w : World) : Prop :=
  w.wsio.ioState = .notOpen ∨ w.wsio.ioState = .opening → w.wsio.pendingIoList = []

/-- An instance neither NOT_OPEN nor OPENING. -/
def Busy (w : World) : Prop := w.wsio.ioState ≠ .notOpen ∧ w.wsio.ioState ≠ .opening

variable (choose : World → List SendArgs) {w w' : World}

theorem Extends.ioState (he : Extends w w') : w'.wsio.ioState = w.wsio.ioState := by
  obtain ⟨-, -, new, hw, -⟩ := he; rw [hw]

theorem Extends.pendingIoList (he : Extends w w') (hs : w.wsio.ioState ≠ .opened) :
    w'.wsio.pendingIoList = w.wsio.pendingIoList := by
  obtain ⟨-, -, new, hw, hn⟩ := he; rw [hw]; simp [hn hs]

theorem IdleEmpty.of_pendingIoList (hq : w.wsio.pendingIoList = []) : IdleEmpty w := fun _ => hq

theorem IdleEmpty.frame (h : IdleEmpty w) (hs : w'.wsio.ioState = w.wsio.ioState)
    (hq : w'.wsio.pendingIoList = w.wsio.pendingIoList) : IdleEmpty w' := by
  intro h'; rw [hq]; exact h (hs ▸ h')

theorem IdleEmpty.extend (h : IdleEmpty w) (he : Extends w w') : IdleEmpty w' := by
  intro h'
  rw [he.ioState] at h'
  rw [he.pendingIoList (by rcases h' with h' | h' <;> simp [h'])]
  exact h h'

theorem IdleEmpty.emit (h : IdleEmpty w) (e : Effect) : IdleEmpty (w.emit e) := h.frame rfl rfl

theorem Busy.idleEmpty (h : Busy w) : IdleEmpty w := by
  rintro (h' | h')
  exacts [absurd h' h.1, absurd h' h.2]

theorem Busy.extend (h : Busy w) (he : Extends w w') : Busy w' := by
  unfold Busy; rw [he.ioState]; exact h

theorem Busy.frame (h : Busy w) (hs : w'.wsio.ioState = w.wsio.ioState) : Busy w' := by
  unfold Busy; rw [hs]; exact h

theorem Busy.error (hs : w.wsio.ioState = .error) : Busy w := by simp [Busy, hs]

theorem Busy.opened (hs : w.wsio.ioState = .opened) : Busy w := by simp [Busy, hs]

theorem Busy.removePendingIo (h : Busy w) (p : PendingSocketIo) (removed : Bool) :
    Busy (removePendingIo (callbackSends choose) p removed w) := by
  simp only [Wsio.removePendingIo]; split
  · exact h.frame (by simp)
  · exact (Busy.error (by simp)).extend (extends_indicateError choose _)

theorem Busy.sendFailed (h : Busy w) (p : PendingSocketIo) (removed : Bool) :
    Busy (sendFailed (callbackSends choose) p removed w) := by
  have h1 := h.extend (extends_indicateSendComplete choose p .error w)
  simp only [Wsio.sendFailed]; split_ifs
  · exact ((Busy.error (by simp)).extend (extends_indicateError choose _)).removePendingIo
      choose p removed
  · exact h1.removePendingIo choose p removed

theorem Busy.sendHead (h : Busy w) (p : PendingSocketIo) (rest : List PendingSocketIo)
    (wsBuffer : Bool) (n : Int) (removed : Bool) :
    Busy (sendHead (callbackSends choose) p rest wsBuffer n removed w) := by
  have he : Busy (w.emit (.write w.wsio.wsi (p.bytes.take p.size) n)) := h.frame rfl
  simp only [Wsio.sendHead, Wsio.sendWritten]; split_ifs
  · exact he.sendFailed choose p removed
  · exact he.frame rfl
  · exact (he.extend (extends_indicateSendComplete choose p .ok _)).removePendingIo choose p removed
  · exact h.sendFailed choose p removed

theorem IdleEmpty.writeable (h : IdleEmpty w) (wsi : Option Nat) (wsBuffer : Bool) (n : Int)
    (removed : Bool) (onWritable : Int) :
    IdleEmpty (onClientWriteable (callbackSends choose) wsi wsBuffer n removed onWritable w) := by
  unfold onClientWriteable
  cases hq : w.wsio.pendingIoList with
  | nil => exact h
  | cons p rest =>
    have hb : Busy w := by
      constructor <;> intro hs <;> simp [h (by simp [hs])] at hq
    have h1 := hb.sendHead choose p rest wsBuffer n removed
    dsimp only; split
    exacts [h1.idleEmpty, (h1.frame rfl).idleEmpty]

theorem IdleEmpty.certs (h : IdleEmpty w) (bio : Bool) (puts : Int) (certs : List (Nat × Bool)) :
    IdleEmpty (onLoadExtraClientVerifyCerts bio puts certs w) := by
  obtain ⟨es, he, -⟩ := onLoadExtraClientVerifyCerts_log bio puts certs w
  rw [he]; exact h.frame rfl rfl

theorem IdleEmpty.callback (h : IdleEmpty w) (e : LwsEvent) :
    IdleEmpty (onWsCallback (callbackSends choose) e w) := by
  have h1 := h.emit (.delivered e.reason)
  simp only [onWsCallback]
  cases e <;> dsimp only
  case clientWriteable wsBuffer n removed onWritable => exact h1.writeable choose _ _ _ _ _
  case clientEstablished =>
    unfold onClientEstablished
    split
    · exact (Busy.opened (by simp)).idleEmpty.extend (extends_indicateOpenComplete choose .ok _)
    · exact h1.extend (extends_indicateError choose _)
  case clientConnectionError =>
    unfold onClientConnectionError
    split
    · rename_i hs
      refine IdleEmpty.of_pendingIoList ?_
      simp only [lwsContextDestroy, callbackSends_emit, Effect.callerCallback, World.setIoState,
        World.modify, World.emit_wsio]
      rw [(extends_indicateOpenComplete choose .error _).pendingIoList
        (by simp only [World.emit_wsio] at hs; simp [hs])]
      exact h1 (.inr hs)
    · exact h1.extend (extends_indicateError choose _)
  case clientReceive bytes => exact (h1.emit _).extend (extends_callbackSends choose _)
  case loadExtraClientVerifyCerts bio puts certs => exact h1.certs bio puts certs
  case other => exact h1

theorem IdleEmpty.dowork (h : IdleEmpty w) (hd : Handle) (events : List LwsEvent) :
    IdleEmpty (wsioDowork (callbackSends choose) hd events w) := by
  unfold wsioDowork
  split
  · exact h
  · split_ifs
    · have h1 := h.emit (.service w.wsio.wsContext)
      generalize w.emit (.service w.wsio.wsContext) = w1 at h1
      induction events generalizing w1 with
      | nil => exact h1
      | cons e events ih => exact ih _ (h1.callback choose e)
    · exact h

theorem IdleEmpty.close_pendingIoList (h : IdleEmpty w) (cb : Option Nat) (ctx : Nat)
    {removes : List Bool} (hc : wsioClose (callbackSends choose) .wsio cb ctx removes w = some w') :
    w'.wsio.pendingIoList = [] := by
  unfold wsioClose at hc
  split_ifs at hc with hs hs'
  · cases hc; exact h (.inl hs)
  · cases hc
    rw [finishClose_pendingIoList,
      (extends_indicateOpenComplete choose .cancelled w).pendingIoList (by simp [hs'])]
    exact h (.inr hs')
  · obtain ⟨w1, hw1, rfl⟩ := Option.map_eq_some'.mp hc
    rw [finishClose_pendingIoList]
    exact drainPendingIo_pendingIoList _ hw1

theorem IdleEmpty.close (h : IdleEmpty w) (hd : Handle) (cb : Option Nat) (ctx : Nat)
    {removes : List Bool} (hc : wsioClose (callbackSends choose) hd cb ctx removes w = some w') :
    IdleEmpty w' := by
  cases hd
  · cases hc; exact h.emit _
  · exact .of_pendingIoList (h.close_pendingIoList choose cb ctx hc)

theorem IdleEmpty.exec (h : IdleEmpty w) (c : Call)
    (hc : c.exec (callbackSends choose) w = some w') : IdleEmpty w' := by
  cases c with
  | wsioOpen hd oc ob oe ctx r =>
    cases hc; rw [wsioOpen_callbackSends]
    rcases wsioOpen_cases w hd oc ob oe ctx r with
      ⟨k, -, -, he⟩ | ⟨-, hs, he⟩ | ⟨-, hs, he⟩ | ⟨-, hs, he⟩ <;> rw [he]
    · exact h.frame rfl rfl
    all_goals exact .of_pendingIoList (by simpa using h (.inl hs))
  | wsioClose hd cb ctx removes => exact h.close choose hd cb ctx hc
  | wsioSend hd b n cb ctx r =>
    cases hc
    rcases wsioSend_cases w hd b n cb ctx r with
      ⟨k, -, -, he⟩ | ⟨buf, -, -, he⟩ | ⟨buf, -, -, -, hs, he⟩ <;> rw [he]
    · exact h.frame rfl rfl
    · exact h.frame rfl rfl
    · exact (Busy.opened (by simp [hs])).idleEmpty
  | wsioDowork hd events => cases hc; exact h.dowork choose hd events

theorem Reachable.idleEmpty (hw : Reachable (callbackSends choose) w) : IdleEmpty w := by
  induction hw with
  | create hc =>
    obtain ⟨c, -, -, -, -, hi, -⟩ := wsioCreate_some hc
    exact .of_pendingIoList (by rw [hi]; rfl)
  | step c _ hc ih => exact ih.exec choose c hc

end Idle

section Order

variable (choose : World → List SendArgs) {w : World}

theorem Reachable.reported (hw : Reachable (callbackSends choose) w) (hok : RemovesOk w.trace) :
    ∃ d, Reported w d [] := by
  induction hw with
  | create hc =>
    obtain ⟨c, -, -, -, -, hi, -⟩ := wsioCreate_some hc
    exact ⟨[], by rw [hi]; rfl, rfl, rfl, by simp [World.init], by simp [World.init]⟩
  | step c _ hc ih =>
    obtain ⟨d, hd⟩ := ih (hok.anti ((hookGrows_callbackSends choose).exec _ c hc))
    exact hd.exec choose c hc hok

/-- A caller that sends one more write, of one byte, from the report of its first write. -/
def resendOnFirstReport (w : World) : List SendArgs :=
  if (completions w.trace).length = 1 then [⟨some [9], 1, some 8, 9, ⟨true, true, true, 0⟩⟩]
  else []

/-- For callers whose callbacks call `wsio_send`: no write waits in the queue of an instance
NOT_OPEN or OPENING. -/
theorem nested_sends_idle_queue_empty (hw : Reachable (callbackSends choose) w) :
    w.wsio.ioState = .notOpen ∨ w.wsio.ioState = .opening → w.wsio.pendingIoList = [] :=
  hw.idleEmpty choose

/-- A close whose first IO_SEND_CANCELLED report sends a second write: the loop cancels that
one too, and the instance ends NOT_OPEN with both writes appended and none left. -/
theorem nested_sends_idle_queue_empty_cancel_resend :
    (let cs := [Call.wsioOpen .wsio (some 1) (some 2) (some 3) 4 ⟨true, true⟩,
      .wsioDowork .wsio [.clientEstablished],
      .wsioSend .wsio (some [7]) 1 (some 6) 7 ⟨true, true, true, 0⟩,
      .wsioClose .wsio (some 5) 6 [true, true]]
    let w := (Call.run (callbackSends resendOnFirstReport) cs (World.init sampleInstance)).getD
      (World.init sampleInstance)
    Reachable (callbackSends resendOnFirstReport) w ∧ w.wsio.ioState = .notOpen ∧
      (addedIos w.trace).length = 2 ∧ w.wsio.pendingIoList = []) := by
  intro cs w
  have hw : Reachable (callbackSends resendOnFirstReport) w :=
    (Reachable.create wsioCreate_sampleConfig).run
      (show Call.run (callbackSends resendOnFirstReport) cs (World.init sampleInstance) = some w
        from rfl)
  have hs : w.wsio.ioState = .notOpen := rfl
  exact ⟨hw, hs, by decide, nested_sends_idle_queue_empty resendOnFirstReport hw (.inl hs)⟩

end Order

end Wsio
