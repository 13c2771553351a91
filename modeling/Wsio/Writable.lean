import Wsio.Lifecycle

/-! # Writable notifications

Writes leave the queue only from CLIENT_WRITEABLE, so a queued write waits for the engine
to call back. `wsio_send` asks for that call right after the `list_add` of each write it
queues, and the dispatcher asks again at the end of every CLIENT_WRITEABLE that leaves writes
queued. So while the instance is OPEN with writes queued, some `lws_callback_on_writable` has
been made since the last CLIENT_WRITEABLE: at most one re-request of the dispatcher, then the
requests of `wsio_send`, each of which made its `wsio_send` return 744 if the engine refused
it. The dispatcher ignores the result of its own request, though: when the engine refuses
it, nothing is outstanding.
-/

namespace Wsio

/-- The results of the `lws_callback_on_writable` calls since the last CLIENT_WRITEABLE,
after `rs` before the entry. -/
def requestStep (rs : List Int) : Effect → List Int
  | .delivered .clientWriteable => []
  | .callbackOnWritable _ r => rs ++ [r]
  | _ => rs

/-- The results of the `lws_callback_on_writable` calls made since the last
CLIENT_WRITEABLE of the log was delivered. -/
def requestsSinceWriteable (tr : List Effect) : List Int := tr.foldl requestStep []

/-- The same requests by caller: `wsio_send` makes its request right after the `list_add`
of its write, which `afterAdd` records; any other request is the dispatcher's. -/
structure RequestsByCaller where
  dispatcher : List Int
  send : List Int
  afterAdd : Bool
  deriving DecidableEq, Repr

/-- One entry of the log, for `RequestsByCaller`. -/
def RequestsByCaller.step (s : RequestsByCaller) : Effect → RequestsByCaller
  | .delivered .clientWriteable => ⟨[], [], false⟩
  | .listAdd _ true => { s with afterAdd := true }
  | .callbackOnWritable _ r =>
    if s.afterAdd then ⟨s.dispatcher, s.send ++ [r], false⟩
    else ⟨s.dispatcher ++ [r], s.send, false⟩
  | _ => { s with afterAdd := false }

/-- The requests made since the last CLIENT_WRITEABLE, by caller. -/
def requestsByCaller (tr : List Effect) : RequestsByCaller :=
  tr.foldl RequestsByCaller.step ⟨[], [], false⟩

/-- The results `wsio_send` returned, in order. -/
def sendResults (tr : List Effect) : List Nat :=
  tr.filterMap fun | .sent k => some k | _ => none

/-- An entry that delivers no CLIENT_WRITEABLE, makes no request and appends no write. -/
def Effect.requestQuiet : Effect → Bool
  | .delivered .clientWriteable | .callbackOnWritable .. | .listAdd _ true => false
  | _ => true

section Views

variable (tr es : List Effect)

theorem requestsSinceWriteable_append :
    requestsSinceWriteable (tr ++ es) = es.foldl requestStep (requestsSinceWriteable tr) :=
  List.foldl_append _ _ _ _

theorem requestsByCaller_append :
    requestsByCaller (tr ++ es) = es.foldl RequestsByCaller.step (requestsByCaller tr) :=
  List.foldl_append _ _ _ _

theorem sendResults_append : sendResults (tr ++ es) = sendResults tr ++ sendResults es :=
  List.filterMap_append _ _ _

variable {es}

theorem foldl_requestStep_quiet (hes : es.all Effect.requestQuiet) (rs : List Int) :
    es.foldl requestStep rs = rs := by
  induction es with
  | nil => rfl
  | cons e es ih =>
    simp only [List.all_cons, Bool.and_eq_true] at hes
    have he : requestStep rs e = rs := by
      have := hes.1; unfold Effect.requestQuiet at this; unfold requestStep; split <;> simp_all
    rw [List.foldl_cons, he, ih hes.2]

theorem RequestsByCaller.foldl_quiet (hes : es.all Effect.requestQuiet) (s : RequestsByCaller)
    (hs : s.afterAdd = false) : es.foldl step s = s := by
  induction es with
  | nil => rfl
  | cons e es ih =>
    simp only [List.all_cons, Bool.and_eq_true] at hes
    have he : s.step e = s := by
      obtain ⟨d, q, a⟩ := s
      have := hes.1; simp only at hs; subst hs
      unfold Effect.requestQuiet at this; unfold step; split <;> simp_all
    rw [List.foldl_cons, he, ih hes.2]

theorem RequestsByCaller.foldl_send (s : RequestsByCaller) (hs : s.afterAdd = false)
    (p : PendingSocketIo) (wsi : Option Nat) (r : Int) (k : Nat) :
    [.listAdd p true, .callbackOnWritable wsi r, .sent k].foldl step s =
      ⟨s.dispatcher, s.send ++ [r], false⟩ := by
  obtain ⟨d, q, a⟩ := s; simp only at hs; subst hs; rfl

end Views

/-- The log since the last CLIENT_WRITEABLE holds no request and ends in no `list_add`. -/
def Fresh (tr : List Effect) : Prop :=
  requestsSinceWriteable tr = [] ∧ requestsByCaller tr = ⟨[], [], false⟩

theorem fresh_delivered (tr : List Effect) : Fresh (tr ++ [.delivered .clientWriteable]) := by
  rw [Fresh, requestsSinceWriteable_append, requestsByCaller_append]
  exact ⟨rfl, rfl⟩

theorem Fresh.append {tr es : List Effect} (h : Fresh tr) (hes : es.all Effect.requestQuiet) :
    Fresh (tr ++ es) := by
  rw [Fresh, requestsSinceWriteable_append, requestsByCaller_append, h.1, h.2,
    foldl_requestStep_quiet hes, RequestsByCaller.foldl_quiet hes _ rfl]
  exact ⟨rfl, rfl⟩

theorem release_requestQuiet (p : PendingSocketIo) (r : IoSendResult) (fail removed : Bool)
    (w : World) :
    ∃ es, (release p r fail removed w).trace = w.trace ++ es ∧ es.all Effect.requestQuiet := by
  have he : (errorLog w.wsio.onIoError w.wsio.openCallbackContext).all Effect.requestQuiet :=
    all_callbackLog fun _ => rfl
  have hp : (sendLog p r).all Effect.requestQuiet := all_callbackLog fun _ => rfl
  exact ⟨sendLog p r ++ (if fail then errorLog w.wsio.onIoError w.wsio.openCallbackContext
      else []) ++ .listRemove p.io removed ::
      (if removed then [] else errorLog w.wsio.onIoError w.wsio.openCallbackContext),
    by simp [Wsio.release],
    by cases fail <;> cases removed <;> simp [he, hp, Effect.requestQuiet]⟩

theorem Fresh.sendHead {w : World} (h : Fresh w.trace) (p : PendingSocketIo)
    (rest : List PendingSocketIo) (wsBuffer : Bool) (n : Int) (ok : Bool) :
    Fresh (sendHead id p rest wsBuffer n ok w).trace := by
  have hw : Fresh (w.emit (.write w.wsio.wsi (p.bytes.take p.size) n)).trace := h.append rfl
  have hr : ∀ {w : World} r fail, Fresh w.trace → Fresh (release p r fail ok w).trace := by
    intro w r fail h
    obtain ⟨es, htr, hes⟩ := release_requestQuiet p r fail ok w
    rw [htr]; exact h.append hes
  simp only [Wsio.sendHead, sendFailed_id, sendWritten_id]
  split_ifs
  exacts [hr _ _ hw, hw, hr _ _ hw, hr _ _ h]

/-- An OPEN instance with writes queued has a writable request since the last CLIENT_WRITEABLE:
at most one of the dispatcher, then those of `wsio_send`, refused ones returning 744. -/
structure Requested (w : World) : Prop where
  outstanding : w.wsio.ioState = .opened → w.wsio.pendingIoList ≠ [] →
    requestsSinceWriteable w.trace ≠ []
  settled : (requestsByCaller w.trace).afterAdd = false
  byCaller : requestsSinceWriteable w.trace =
    (requestsByCaller w.trace).dispatcher ++ (requestsByCaller w.trace).send
  rerequest : (requestsByCaller w.trace).dispatcher.length ≤ 1
  refused : ∀ r ∈ (requestsByCaller w.trace).send, r < 0 → 744 ∈ sendResults w.trace

section Steps

variable {w w' : World}

theorem Requested.quiet (h : Requested w) (es : List Effect) (htr : w'.trace = w.trace ++ es)
    (hes : es.all Effect.requestQuiet)
    (hs : w'.wsio.ioState = .opened → w'.wsio.pendingIoList ≠ [] →
      w.wsio.ioState = .opened ∧ w.wsio.pendingIoList ≠ []) : Requested w' := by
  have h1 : requestsSinceWriteable w'.trace = requestsSinceWriteable w.trace := by
    rw [htr, requestsSinceWriteable_append, foldl_requestStep_quiet hes]
  have h2 : requestsByCaller w'.trace = requestsByCaller w.trace := by
    rw [htr, requestsByCaller_append, RequestsByCaller.foldl_quiet hes _ h.settled]
  refine ⟨fun h3 h4 => ?_, h2 ▸ h.settled, h1 ▸ h2 ▸ h.byCaller, h2 ▸ h.rerequest, ?_⟩
  · rw [h1]; exact h.outstanding (hs h3 h4).1 (hs h3 h4).2
  · rw [h2, htr, sendResults_append]
    exact fun r hr hn => List.mem_append_left _ (h.refused r hr hn)

theorem Requested.log (h : Requested w) {es : List Effect} (hes : es.all Effect.requestQuiet) :
    Requested (w.log es) :=
  h.quiet es rfl hes fun h1 h2 => ⟨h1, h2⟩

theorem Requested.emit (h : Requested w) (e : Effect) (he : e.requestQuiet) :
    Requested (w.emit e) :=
  h.log (by simpa using he)

theorem Requested.of_fresh (h : Fresh w.trace)
    (hs : w.wsio.ioState ≠ .opened ∨ w.wsio.pendingIoList = []) : Requested w where
  outstanding h1 h2 := by rcases hs with hs | hs <;> contradiction
  settled := by rw [h.2]
  byCaller := by rw [h.1, h.2]; rfl
  rerequest := by rw [h.2]; decide
  refused := by rw [h.2]; exact fun r hr => absurd hr (List.not_mem_nil r)

theorem Requested.rerequest_of_fresh (h : Fresh w.trace) (wsi : Option Nat) (r : Int) :
    Requested (w.emit (.callbackOnWritable wsi r)) := by
  have h1 : requestsSinceWriteable (w.emit (.callbackOnWritable wsi r)).trace = [r] := by
    rw [World.emit_trace, requestsSinceWriteable_append, h.1]; rfl
  have h2 : requestsByCaller (w.emit (.callbackOnWritable wsi r)).trace = ⟨[r], [], false⟩ := by
    rw [World.emit_trace, requestsByCaller_append, h.2]; rfl
  exact ⟨fun _ _ => h1 ▸ List.cons_ne_nil _ _, by rw [h2], by rw [h1, h2]; rfl, by rw [h2]; simp,
    by rw [h2]; exact fun r hr => absurd hr (List.not_mem_nil r)⟩

theorem Requested.release (h : Requested w) {p : PendingSocketIo} {rest : List PendingSocketIo}
    (hq : w.wsio.pendingIoList = p :: rest) (r : IoSendResult) (fail removed : Bool) :
    Requested (release p r fail removed w) := by
  obtain ⟨es, htr, hes⟩ := release_requestQuiet p r fail removed w
  refine h.quiet es htr hes fun h1 _ => ⟨?_, by simp [hq]⟩
  simp only [Wsio.release] at h1
  split_ifs at h1
  exact h1

theorem Requested.listRemove (h : Requested w) (io : Nat) (ok : Bool) :
    Requested (listRemove io ok w) :=
  h.quiet [.listRemove io ok] (by simp) rfl fun h1 h2 =>
    ⟨by simpa using h1, fun hq => h2 (by simp [hq])⟩

theorem Requested.setIoState (h : Requested w) (s : IoState)
    (hs : s ≠ .opened ∨ w.wsio.pendingIoList = []) : Requested (w.setIoState s) :=
  h.quiet [] (by simp) rfl fun h1 h2 => by rcases hs with hs | hs <;> simp_all

theorem Requested.indicateError (h : Requested w) : Requested (indicateError id w) := by
  rw [indicateError_id]; exact h.log (all_callbackLog fun _ => rfl)

theorem Requested.indicateOpenComplete (h : Requested w) (r : IoOpenResult) :
    Requested (indicateOpenComplete id r w) := by
  rw [indicateOpenComplete_id]; exact h.log (all_callbackLog fun _ => rfl)

theorem Requested.writeable (w : World) (wsi : Option Nat) (wsBuffer : Bool) (n : Int)
    (ok : Bool) (onWritable : Int) :
    Requested (onClientWriteable id wsi wsBuffer n ok onWritable
      (w.emit (.delivered .clientWriteable))) := by
  have hf : Fresh (w.emit (.delivered .clientWriteable)).trace := fresh_delivered w.trace
  unfold onClientWriteable
  split
  · exact .of_fresh hf (.inr ‹_›)
  · rename_i p rest _
    have hf' := hf.sendHead p rest wsBuffer n ok
    dsimp only
    split
    · exact .of_fresh hf' (.inr ‹_›)
    · exact .rerequest_of_fresh hf' wsi onWritable

theorem Requested.established (h : Requested w) (hi : Inv w) :
    Requested (onClientEstablished id (w.emit (.delivered .clientEstablished))) := by
  have h1 := h.emit (.delivered .clientEstablished) rfl
  unfold onClientEstablished
  split <;> rename_i hs <;> simp only [World.emit_wsio] at hs
  · have hq : (w.emit (.delivered .clientEstablished)).wsio.pendingIoList = [] := by
      simpa using hi.queue_empty (.inr hs)
    exact (h1.setIoState .opened (.inr hq)).indicateOpenComplete .ok
  · exact h1.indicateError

theorem Requested.connectionError (h : Requested w) :
    Requested (onClientConnectionError id (w.emit (.delivered .clientConnectionError))) := by
  have h1 := h.emit (.delivered .clientConnectionError) rfl
  unfold onClientConnectionError
  split
  · dsimp only
    rw [lwsContextDestroy_id]
    exact ((h1.indicateOpenComplete .error).emit (.contextDestroy _) rfl).setIoState .notOpen
      (.inl (by decide))
  · exact h1.indicateError

theorem Requested.certs (h : Requested w) (bio : Bool) (puts : Int)
    (certs : List (Nat × Bool)) : Requested (onLoadExtraClientVerifyCerts bio puts certs w) := by
  obtain ⟨es, he, hes⟩ := onLoadExtraClientVerifyCerts_log bio puts certs w
  rw [he]
  exact h.log (List.all_eq_true.mpr fun e he => by
    rcases hes e he with rfl | rfl | ⟨c, rfl⟩ <;> rfl)

theorem Requested.callback (h : Requested w) (hi : Inv w) (e : LwsEvent) :
    Requested (onWsCallback id e w) := by
  unfold onWsCallback
  cases e with
  | clientEstablished => exact h.established hi
  | clientConnectionError => exact h.connectionError
  | clientWriteable wsBuffer n ok onWritable => exact .writeable w _ wsBuffer n ok onWritable
  | clientReceive bytes => exact (h.emit (.delivered .clientReceive) rfl).emit _ rfl
  | loadExtraClientVerifyCerts bio puts certs =>
    exact (h.emit (.delivered .loadExtraClientVerifyCerts) rfl).certs bio puts certs
  | other => exact h.emit (.delivered .other) rfl

theorem Requested.send (h : Requested w) (hd : Handle) (b : Option (List UInt8)) (n : Nat)
    (cb : Option Nat) (ctx : Nat) (r : SendReplies) : Requested (wsioSend hd b n cb ctx r w) := by
  rcases wsioSend_cases w hd b n cb ctx r with
    ⟨k, -, -, he⟩ | ⟨buf, -, -, he⟩ | ⟨buf, -, -, -, -, he⟩ <;> rw [he]
  · exact h.emit _ rfl
  · exact h.quiet _ rfl rfl fun h1 h2 => ⟨h1, h2⟩
  · have h1 := RequestsByCaller.foldl_send _ h.settled (newPendingIo w.next buf n cb ctx)
      w.wsio.wsi r.onWritable (if r.onWritable < 0 then 744 else 0)
    rw [← requestsByCaller_append] at h1
    have h2 := congrArg (· ++ [r.onWritable]) h.byCaller
    refine ⟨fun _ _ => by simp [requestsSinceWriteable_append, requestStep], by simp [h1],
      by simpa [requestsSinceWriteable_append, requestStep, h1] using h2, by simp [h1, h.rerequest],
      ?_⟩
    simp only [World.log_trace, World.modify_trace, World.fresh_trace, h1, sendResults_append,
      List.mem_append, List.mem_singleton]
    rintro r' (hr' | rfl) hn
    · exact .inl (h.refused r' hr' hn)
    · simp [sendResults, hn]

theorem Requested.open (h : Requested w) (hd : Handle) (oc ob oe : Option Nat) (ctx : Nat)
    (r : OpenReplies) : Requested (wsioOpen id hd oc ob oe ctx r w) := by
  rcases wsioOpen_cases w hd oc ob oe ctx r with
    ⟨k, -, -, he⟩ | ⟨-, hs, he⟩ | ⟨-, hs, he⟩ | ⟨-, hs, he⟩ <;> rw [he]
  · exact h.emit _ rfl
  all_goals
    exact h.quiet _ rfl (by simp [Effect.requestQuiet, connectEntry])
      (fun h1 => absurd h1 (by simp [hs]))

theorem Requested.drain (h : Requested w) {removes : List Bool}
    (hd : drainPendingIo id removes w = some w') : Requested w' := by
  induction removes generalizing w with
  | nil =>
    cases hq : w.wsio.pendingIoList with
    | nil => rw [drainPendingIo_empty id hq] at hd; cases hd; exact h
    | cons p ps => rw [drainPendingIo_exhausted id hq] at hd; cases hd
  | cons r removes ih =>
    cases hq : w.wsio.pendingIoList with
    | nil => rw [drainPendingIo_empty id hq] at hd; cases hd; exact h
    | cons p ps =>
      rw [drainPendingIo_head id r hq] at hd
      have hp : (sendLog p .cancelled).all Effect.requestQuiet := all_callbackLog fun _ => rfl
      exact ih (by simpa [cancelPendingIo] using (h.log hp).listRemove p.io r) hd

theorem Requested.finishClose (h : Requested w) (cb : Option Nat) (ctx : Nat) :
    Requested (finishClose id cb ctx w) := by
  have hc : (closeLog cb ctx).all Effect.requestQuiet := all_callbackLog fun _ => rfl
  rw [finishClose_id]
  exact h.quiet (.contextDestroy w.wsio.wsContext :: closeLog cb ctx ++ [.closed 0]) (by simp)
    (by simp [hc, Effect.requestQuiet]) fun h1 => absurd h1 (by simp)

theorem Requested.close (h : Requested w) (hd : Handle) (cb : Option Nat) (ctx : Nat)
    {removes : List Bool} (hc : wsioClose id hd cb ctx removes w = some w') : Requested w' := by
  unfold wsioClose at hc
  split at hc
  · cases hc; exact h.emit _ rfl
  · split_ifs at hc
    · cases hc; exact h.emit _ rfl
    · cases hc; exact (h.indicateOpenComplete .cancelled).finishClose cb ctx
    · obtain ⟨w1, hw1, rfl⟩ := Option.map_eq_some'.mp hc
      exact (h.drain hw1).finishClose cb ctx

end Steps

theorem Reachable.requested {w : World} (h : Reachable id w) : Requested w :=
  h.induction
    (fun hc => by
      obtain ⟨c, -, -, -, -, hi, -⟩ := wsioCreate_some hc
      exact .of_fresh ⟨rfl, rfl⟩ (.inr (by rw [hi]; rfl)))
    (fun _ hd oc ob oe ctx r _ h => h.open hd oc ob oe ctx r)
    (fun _ _ hd cb ctx _ _ h hc => h.close hd cb ctx hc)
    (fun _ hd b n cb ctx r h => h.send hd b n cb ctx r)
    (fun _ _ h => h.emit _ rfl)
    (fun _ e hi h => h.callback hi e)

/-- If every `wsio_send` returned 0, an OPEN instance with writes queued has a request since the
last CLIENT_WRITEABLE, all non-negative but the dispatcher's one re-request. -/
theorem reachable_writable_requested {w : World} (hw : Reachable id w)
    (hall : ∀ k ∈ sendResults w.trace, k = 0) (hs : w.wsio.ioState = .opened)
    (hq : w.wsio.pendingIoList ≠ []) :
    requestsSinceWriteable w.trace ≠ [] ∧
    requestsSinceWriteable w.trace =
      (requestsByCaller w.trace).dispatcher ++ (requestsByCaller w.trace).send ∧
    (requestsByCaller w.trace).dispatcher.length ≤ 1 ∧
    ∀ r ∈ (requestsByCaller w.trace).send, 0 ≤ r := by
  have h := hw.requested
  refine ⟨h.outstanding hs hq, h.byCaller, h.rerequest, fun r hr => ?_⟩
  by_contra hn
  exact absurd (hall 744 (h.refused r hr (not_le.mp hn))) (by decide)

theorem reachable_writable_requested_rerequest :
    (let cs := [Call.wsioOpen .wsio (some 1) (some 2) (some 3) 4 ⟨true, true⟩,
      .wsioDowork .wsio [.clientEstablished],
      .wsioSend .wsio (some [7, 8]) 2 (some 6) 7 ⟨true, true, true, 0⟩,
      .wsioDowork .wsio [.clientWriteable true 1 true (-1)],
      .wsioSend .wsio (some [9]) 1 (some 6) 8 ⟨true, true, true, 0⟩]
    let w := (Call.run id cs (World.init sampleInstance)).getD (World.init sampleInstance)
    (∀ k ∈ sendResults w.trace, k = 0) ∧ w.wsio.ioState = .opened ∧
    w.wsio.pendingIoList ≠ [] ∧ requestsByCaller w.trace = ⟨[-1], [0], false⟩ ∧
    requestsSinceWriteable w.trace ≠ [] ∧
    requestsSinceWriteable w.trace =
      (requestsByCaller w.trace).dispatcher ++ (requestsByCaller w.trace).send ∧
    (requestsByCaller w.trace).dispatcher.length ≤ 1 ∧
    ∀ r ∈ (requestsByCaller w.trace).send, 0 ≤ r) := by
  intro cs w
  have hw : Reachable id w := (Reachable.create wsioCreate_sampleConfig).run
    (show Call.run id cs (World.init sampleInstance) = some w from rfl)
  have hall : ∀ k ∈ sendResults w.trace, k = 0 := by decide
  exact ⟨hall, by decide, by decide, by decide,
    reachable_writable_requested hw hall (by decide) (by decide)⟩

/-- A refused re-request strands a write: OPEN, a write queued, every `wsio_send` returned 0, and
the only request since the last CLIENT_WRITEABLE returned -1. -/
theorem refused_rerequest_strands_write :
    ∃ w, Reachable id w ∧ sendResults w.trace = [0] ∧ w.wsio.ioState = .opened ∧
      w.wsio.pendingIoList ≠ [] ∧ requestsSinceWriteable w.trace = [-1] :=
  ⟨_, Reachable.run (.create wsioCreate_sampleConfig)
    (show Call.run id [.wsioOpen .wsio (some 1) (some 2) (some 3) 4 ⟨true, true⟩,
      .wsioDowork .wsio [.clientEstablished],
      .wsioSend .wsio (some [7, 8]) 2 (some 6) 7 ⟨true, true, true, 0⟩,
      .wsioDowork .wsio [.clientWriteable true 1 true (-1)]]
      (World.init sampleInstance) = some _ from rfl),
    by decide, by decide, by decide, by decide⟩

end Wsio
