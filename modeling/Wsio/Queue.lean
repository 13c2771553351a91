import Wsio.Lifecycle

/-! # The pending-write queue

`add_pending_io` appends every accepted write at the tail of `pending_io_list`, and every
report of a write is followed by the `list_remove` of the head. While `list_remove`
succeeds, the writes reported so far are therefore those of a prefix of the writes
appended, each reported once, to its own `on_send_complete` and context, and a close
reports all the others before `on_io_close_complete`.
-/

namespace Wsio

open PendingSocketIo

/-- A `list_remove` that returned non-zero. -/
def Effect.removeFailed : Effect → Bool
  | .listRemove _ false => true
  | _ => false

/-- `list_remove` returned 0 at every call of the log. -/
def RemovesOk (tr : List Effect) : Prop := ∀ e ∈ tr, e.removeFailed = false

instance : DecidablePred RemovesOk := fun tr => inferInstanceAs (Decidable (∀ e ∈ tr, _))

theorem RemovesOk.not_mem {tr : List Effect} (h : RemovesOk tr) (io : Nat) :
    Effect.listRemove io false ∉ tr :=
  fun hm => by simpa [Effect.removeFailed] using h _ hm

theorem RemovesOk.anti {tr tr' : List Effect} (h : RemovesOk tr') (hp : tr <+: tr') :
    RemovesOk tr :=
  fun e he => h e (hp.subset he)

theorem RemovesOk.removed_of_release {p : PendingSocketIo} {r : IoSendResult} {fail removed : Bool}
    {w : World} (hok : RemovesOk (release p r fail removed w).trace) : removed = true := by
  cases removed
  · exact absurd (by simp [Wsio.release]) (hok.not_mem p.io)
  · rfl

theorem PendingSocketIo.map_io_of_header : ∀ {l l' : List PendingSocketIo},
    l.map header = l'.map header → l.map (·.io) = l'.map (·.io)
  | [], [], _ => rfl
  | p :: l, q :: l', h => by
    simp only [List.map_cons, List.cons.injEq] at h ⊢
    exact ⟨by rw [← header_io, h.1, header_io], map_io_of_header h.2⟩
  | [], _ :: _, h | _ :: _, [], h => by simp at h

theorem PendingSocketIo.filterMap_completion_of_header : ∀ {l l' : List PendingSocketIo},
    l.map header = l'.map header → l.filterMap completion = l'.filterMap completion
  | [], [], _ => rfl
  | p :: l, q :: l', h => by
    simp only [List.map_cons, List.cons.injEq] at h
    simp only [List.filterMap_cons, completion_eq_of_header h.1,
      filterMap_completion_of_header h.2]
  | [], _ :: _, h | _ :: _, [], h => by simp at h

/-- Entries that append, take off and report no write. -/
def Silent (es : List Effect) : Prop :=
  addedIos es = [] ∧ removedIos es = [] ∧ completions es = []

theorem silent_of {es : List Effect}
    (h : ∀ e ∈ es, e.added = none ∧ e.removed = none ∧ e.completed = none) : Silent es := by
  induction es with
  | nil => exact ⟨rfl, rfl, rfl⟩
  | cons e es ih =>
    obtain ⟨h1, h2, h3⟩ := h e (List.mem_cons_self _ _)
    obtain ⟨ih1, ih2, ih3⟩ := ih fun e' he' => h e' (List.mem_cons_of_mem _ he')
    simp [Silent, h1, h2, h3, ih1, ih2, ih3]

/-- The writes appended so far, in order: those of `done` were reported and taken off the
list, and the queue holds the others. -/
structure Fifo (w : World) (done : List PendingSocketIo) : Prop where
  added : (addedIos w.trace).map header = (done ++ w.wsio.pendingIoList).map header
  removed : removedIos w.trace = done.map (·.io)
  completed : completions w.trace = done.filterMap completion

section Steps

variable {w w' : World} {done : List PendingSocketIo}

theorem Fifo.extend (h : Fifo w done) (es : List Effect) (retired added : List PendingSocketIo)
    (htr : w'.trace = w.trace ++ es)
    (hq : (w.wsio.pendingIoList ++ added).map header =
      (retired ++ w'.wsio.pendingIoList).map header)
    (ha : addedIos es = added) (hr : removedIos es = retired.map (·.io))
    (hc : completions es = retired.filterMap completion) : Fifo w' (done ++ retired) where
  added := by
    simp only [List.map_append] at hq
    simp only [htr, addedIos_append, ha, List.map_append, h.added, List.append_assoc, hq]
  removed := by simp [htr, hr, h.removed]
  completed := by simp [htr, hc, h.completed, List.filterMap_append]

theorem Fifo.quiet (h : Fifo w done) (es : List Effect) (htr : w'.trace = w.trace ++ es)
    (hq : w'.wsio.pendingIoList = w.wsio.pendingIoList) (hs : Silent es) : Fifo w' done := by
  simpa using h.extend es [] [] htr (by simp [hq]) hs.1 hs.2.1 hs.2.2

theorem Fifo.log (h : Fifo w done) {es : List Effect} (hs : Silent es) : Fifo (w.log es) done :=
  h.quiet es rfl rfl hs

theorem Fifo.emit (h : Fifo w done) (e : Effect)
    (he : e.added = none ∧ e.removed = none ∧ e.completed = none) : Fifo (w.emit e) done :=
  h.quiet [e] rfl rfl (silent_of (by simpa using he))

theorem Fifo.setIoState (h : Fifo w done) (s : IoState) : Fifo (w.setIoState s) done :=
  h.quiet [] (by simp) rfl ⟨rfl, rfl, rfl⟩

theorem Fifo.release (h : Fifo w done) {p : PendingSocketIo} {rest : List PendingSocketIo}
    (hq : w.wsio.pendingIoList = p :: rest) (r : IoSendResult) (fail removed : Bool)
    (hok : RemovesOk (release p r fail removed w).trace) :
    Fifo (release p r fail removed w) (done ++ [p]) := by
  obtain rfl := hok.removed_of_release
  have he : Silent (errorLog w.wsio.onIoError w.wsio.openCallbackContext) :=
    silent_of (forall_mem_callbackLog fun _ => ⟨rfl, rfl, rfl⟩)
  have hc : p.completion.toList = [p].filterMap completion := by
    cases hp : p.completion <;> simp [hp]
  have hs : addedIos (sendLog p r) = [] ∧ removedIos (sendLog p r) = [] :=
    ⟨filterMap_callbackLog fun _ => rfl, filterMap_callbackLog fun _ => rfl⟩
  refine h.extend (sendLog p r ++ (if fail then errorLog w.wsio.onIoError
    w.wsio.openCallbackContext else []) ++ [.listRemove p.io true]) [p] [] (by simp [Wsio.release])
    (by simp [Wsio.release, hq]) ?_ ?_ ?_ <;>
    cases fail <;>
      simp [he.1, he.2.1, he.2.2, hs.1, hs.2, hc, Effect.added, Effect.removed, Effect.completed]

theorem Fifo.indicateError (h : Fifo w done) : Fifo (indicateError id w) done := by
  rw [indicateError_id]
  exact h.log (silent_of (forall_mem_callbackLog fun _ => by exact ⟨rfl, rfl, rfl⟩))

theorem Fifo.indicateOpenComplete (h : Fifo w done) (r : IoOpenResult) :
    Fifo (indicateOpenComplete id r w) done := by
  rw [indicateOpenComplete_id]
  exact h.log (silent_of (forall_mem_callbackLog fun _ => by exact ⟨rfl, rfl, rfl⟩))

theorem Fifo.send (h : Fifo w done) (hd : Handle) (b : Option (List UInt8)) (n : Nat)
    (cb : Option Nat) (ctx : Nat) (r : SendReplies) : Fifo (wsioSend hd b n cb ctx r w) done := by
  rcases wsioSend_cases w hd b n cb ctx r with
    ⟨k, -, -, he⟩ | ⟨buf, -, -, he⟩ | ⟨buf, -, -, -, -, he⟩ <;> rw [he]
  · exact h.emit _ ⟨rfl, rfl, rfl⟩
  · exact h.quiet _ rfl rfl (silent_of (by simp [Effect.added, Effect.removed, Effect.completed]))
  · simpa using h.extend _ [] [newPendingIo w.next buf n cb ctx] rfl (by simp)
      (by simp [Effect.added]) (by simp [Effect.removed]) (by simp [Effect.completed])

theorem Fifo.open (h : Fifo w done) (hd : Handle) (oc ob oe : Option Nat) (ctx : Nat)
    (r : OpenReplies) : Fifo (wsioOpen id hd oc ob oe ctx r w) done := by
  rcases wsioOpen_cases w hd oc ob oe ctx r with
    ⟨k, -, -, he⟩ | ⟨-, -, he⟩ | ⟨-, -, he⟩ | ⟨-, -, he⟩ <;> rw [he]
  · exact h.emit _ ⟨rfl, rfl, rfl⟩
  all_goals exact h.quiet _ rfl rfl (silent_of (by
    simp [Effect.added, Effect.removed, Effect.completed, connectEntry]))

theorem Fifo.sendHead (h : Fifo w done) {p : PendingSocketIo} {rest : List PendingSocketIo}
    (hq : w.wsio.pendingIoList = p :: rest) (wsBuffer : Bool) (n : Int) (removed : Bool)
    (hok : RemovesOk (sendHead id p rest wsBuffer n removed w).trace) :
    ∃ d, Fifo (sendHead id p rest wsBuffer n removed w) d := by
  have hw := h.emit (.write w.wsio.wsi (p.bytes.take p.size) n) ⟨rfl, rfl, rfl⟩
  simp only [Wsio.sendHead, sendFailed_id, sendWritten_id] at hok ⊢
  split_ifs at hok ⊢
  · exact ⟨_, hw.release hq _ _ _ hok⟩
  · exact ⟨_, hw.extend [] [] [] (by simp) (by simp [hq, header]) rfl rfl rfl⟩
  · exact ⟨_, hw.release hq _ _ _ hok⟩
  · exact ⟨_, h.release hq _ _ _ hok⟩

theorem Fifo.writeable (h : Fifo w done) (wsi : Option Nat) (wsBuffer : Bool) (n : Int)
    (removed : Bool) (onWritable : Int)
    (hok : RemovesOk (onClientWriteable id wsi wsBuffer n removed onWritable w).trace) :
    ∃ d, Fifo (onClientWriteable id wsi wsBuffer n removed onWritable w) d := by
  unfold onClientWriteable at hok ⊢
  cases hq : w.wsio.pendingIoList with
  | nil => simp only [hq]; exact ⟨done, h⟩
  | cons p rest =>
    simp only [hq] at hok ⊢
    have hok' : RemovesOk (Wsio.sendHead id p rest wsBuffer n removed w).trace := by
      split at hok
      exacts [hok, hok.anti (List.prefix_append _ _)]
    obtain ⟨d, hd⟩ := h.sendHead hq wsBuffer n removed hok'
    refine ⟨d, ?_⟩
    split
    exacts [hd, hd.emit _ ⟨rfl, rfl, rfl⟩]

theorem Fifo.certs (h : Fifo w done) (bio : Bool) (puts : Int) (certs : List (Nat × Bool)) :
    Fifo (onLoadExtraClientVerifyCerts bio puts certs w) done := by
  obtain ⟨es, he, hes⟩ := onLoadExtraClientVerifyCerts_log bio puts certs w
  rw [he]
  exact h.log (silent_of fun e he => by
    rcases hes e he with rfl | rfl | ⟨c, rfl⟩ <;> exact ⟨rfl, rfl, rfl⟩)

theorem Fifo.callback (h : Fifo w done) (e : LwsEvent)
    (hok : RemovesOk (onWsCallback id e w).trace) : ∃ d, Fifo (onWsCallback id e w) d := by
  have h1 := h.emit (.delivered e.reason) ⟨rfl, rfl, rfl⟩
  simp only [onWsCallback] at hok ⊢
  cases e <;> dsimp only at hok ⊢
  case clientWriteable wsBuffer n removed onWritable => exact h1.writeable _ _ _ _ _ hok
  case clientEstablished =>
    refine ⟨done, ?_⟩
    unfold onClientEstablished
    split
    exacts [(h1.setIoState .opened).indicateOpenComplete .ok, h1.indicateError]
  case clientConnectionError =>
    refine ⟨done, ?_⟩
    unfold onClientConnectionError
    split
    exacts [((h1.indicateOpenComplete .error).emit (.contextDestroy _) ⟨rfl, rfl, rfl⟩).setIoState
      .notOpen,
      h1.indicateError]
  case clientReceive bytes =>
    exact ⟨done, by simpa using h1.emit (.bytesReceived _ _ _) ⟨rfl, rfl, rfl⟩⟩
  case loadExtraClientVerifyCerts bio puts certs => exact ⟨done, h1.certs bio puts certs⟩
  case other => exact ⟨done, h1⟩

theorem Fifo.dowork (h : Fifo w done) (hd : Handle) (events : List LwsEvent)
    (hok : RemovesOk (wsioDowork id hd events w).trace) :
    ∃ d, Fifo (wsioDowork id hd events w) d := by
  unfold wsioDowork at hok ⊢
  split
  · exact ⟨done, h⟩
  · split_ifs at hok ⊢
    · have h1 := h.emit (.service w.wsio.wsContext) ⟨rfl, rfl, rfl⟩
      generalize w.emit (.service w.wsio.wsContext) = w1 at h1 hok ⊢
      clear h
      induction events generalizing w1 done with
      | nil => exact ⟨done, h1⟩
      | cons e events ih =>
        obtain ⟨d, hd⟩ := h1.callback e (hok.anti (callbacks_grows _ events))
        exact ih _ hd hok
    · exact ⟨done, h⟩

theorem Fifo.cancel (h : Fifo w done) {p : PendingSocketIo} {rest : List PendingSocketIo}
    (hq : w.wsio.pendingIoList = p :: rest) (removed : Bool)
    (hok : RemovesOk (cancelPendingIo id p removed w).trace) :
    Fifo (cancelPendingIo id p removed w) (done ++ [p]) := by
  cases removed
  · exact absurd (by simp [cancelPendingIo]) (hok.not_mem p.io)
  · rw [cancelPendingIo_id] at hok ⊢
    exact h.release hq _ _ _ hok

theorem Fifo.drain (h : Fifo w done) {removes : List Bool}
    (hd : drainPendingIo id removes w = some w') (hok : RemovesOk w'.trace) :
    Fifo w' (done ++ w.wsio.pendingIoList) := by
  induction removes generalizing w done with
  | nil =>
    cases hq : w.wsio.pendingIoList with
    | nil => rw [drainPendingIo_empty id hq] at hd; cases hd; simpa [hq] using h
    | cons p ps => rw [drainPendingIo_exhausted id hq] at hd; cases hd
  | cons r removes ih =>
    cases hq : w.wsio.pendingIoList with
    | nil => rw [drainPendingIo_empty id hq] at hd; cases hd; simpa [hq] using h
    | cons p ps =>
      rw [drainPendingIo_head id r hq] at hd
      have h1 := h.cancel hq r (hok.anti (drainPendingIo_grows _ hd))
      have hq1 : (cancelPendingIo id p r w).wsio.pendingIoList = ps := by
        cases r
        · exact absurd (List.IsPrefix.subset (drainPendingIo_grows _ hd)
            (by simp [cancelPendingIo])) (hok.not_mem p.io)
        · simp [cancelPendingIo, hq]
      simpa [hq1] using ih h1 hd

theorem Fifo.finishClose (h : Fifo w done) (cb : Option Nat) (ctx : Nat) :
    Fifo (finishClose id cb ctx w) done := by
  have hc : Silent (closeLog cb ctx) := silent_of (forall_mem_callbackLog fun _ => ⟨rfl, rfl, rfl⟩)
  rw [finishClose_id, World.log_append]
  exact (((h.emit (.contextDestroy w.wsio.wsContext) ⟨rfl, rfl, rfl⟩).setIoState _).log hc).emit
    (.closed 0) ⟨rfl, rfl, rfl⟩

theorem Fifo.close (h : Fifo w done) (hd : Handle) (cb : Option Nat) (ctx : Nat)
    {removes : List Bool} (hc : wsioClose id hd cb ctx removes w = some w')
    (hok : RemovesOk w'.trace) : ∃ d, Fifo w' d := by
  unfold wsioClose at hc
  split at hc
  · cases hc; exact ⟨done, h.emit _ ⟨rfl, rfl, rfl⟩⟩
  · split_ifs at hc
    · cases hc; exact ⟨done, h.emit _ ⟨rfl, rfl, rfl⟩⟩
    · cases hc; exact ⟨done, (h.indicateOpenComplete .cancelled).finishClose cb ctx⟩
    · obtain ⟨w1, hw1, rfl⟩ := Option.map_eq_some'.mp hc
      have hok1 := hok.anti (by simp : w1.trace <+: (Wsio.finishClose id cb ctx w1).trace)
      exact ⟨_, (h.drain hw1 hok1).finishClose cb ctx⟩

theorem Fifo.exec (h : Fifo w done) (c : Call) (hc : c.exec id w = some w')
    (hok : RemovesOk w'.trace) : ∃ d, Fifo w' d := by
  cases c with
  | wsioOpen hd oc ob oe ctx r => cases hc; exact ⟨done, h.open hd oc ob oe ctx r⟩
  | wsioClose hd cb ctx removes => exact h.close hd cb ctx hc hok
  | wsioSend hd b n cb ctx r => cases hc; exact ⟨done, h.send hd b n cb ctx r⟩
  | wsioDowork hd events => cases hc; exact h.dowork hd events hok

end Steps

theorem Reachable.fifo {w : World} (h : Reachable id w) (hok : RemovesOk w.trace) :
    ∃ d, Fifo w d := by
  induction h with
  | create hc =>
    obtain ⟨c, -, -, -, -, hi, -⟩ := wsioCreate_some hc
    refine ⟨[], ?_, rfl, rfl⟩
    rw [hi]; rfl
  | step c _ hc ih =>
    obtain ⟨d, hd⟩ := ih (hok.anti (Call.exec_grows _ c hc))
    exact hd.exec c hc hok

theorem PendingSocketIo.completions_sublist : ∀ d : List PendingSocketIo,
    List.Sublist ((d.filterMap completion).map (·.1)) (d.map (·.io))
  | [] => List.Sublist.slnil
  | p :: d => by
    cases hp : p.onSendComplete <;>
      simp [completion, hp, (completions_sublist d).cons, (completions_sublist d).cons₂]

theorem Fifo.reports {w : World} {done : List PendingSocketIo} (h : Fifo w done)
    (hnd : ((addedIos w.trace).map (·.io)).Nodup) :
    completions w.trace = ((addedIos w.trace).take done.length).filterMap completion ∧
    ((completions w.trace).map (·.1)).Nodup ∧
    (w.wsio.pendingIoList = [] →
      completions w.trace = (addedIos w.trace).filterMap completion) := by
  have ht : ((addedIos w.trace).take done.length).map header = done.map header := by
    rw [List.map_take, h.added, List.map_append, List.take_left' (List.length_map _ _)]
  refine ⟨?_, ?_, fun hq => ?_⟩
  · rw [h.completed, filterMap_completion_of_header ht]
  · rw [h.completed]
    refine List.Nodup.sublist (completions_sublist done) (List.Nodup.sublist ?_ hnd)
    rw [← map_io_of_header ht]
    exact (List.take_sublist _ _).map _
  · rw [h.completed]
    exact filterMap_completion_of_header (by rw [h.added, hq, List.append_nil])

/-- While `list_remove` succeeds, reports follow the append order, once each, skipping NULL
callbacks; a `wsio_close` returning 0, or `wsio_destroy`, has reported every write. -/
theorem reachable_send_order {w : World} (hw : Reachable id w) (hok : RemovesOk w.trace) :
    (∃ k, completions w.trace = ((addedIos w.trace).take k).filterMap completion) ∧
    ((completions w.trace).map (·.1)).Nodup ∧
    (∀ cb ctx removes w', wsioClose id .wsio cb ctx removes w = some w' →
      RemovesOk w'.trace → (∃ pre, w'.trace = pre ++ [.closed 0]) →
      completions w'.trace = (addedIos w'.trace).filterMap completion ∧
        w'.wsio.pendingIoList = [] ∧ ∃ pre, w'.trace = pre ++ closeLog cb ctx ++ [.closed 0]) ∧
    (∀ removes w', wsioDestroy id .wsio removes w = some w' → RemovesOk w'.trace →
      completions w'.trace = (addedIos w'.trace).filterMap completion ∧
        w'.wsio.pendingIoList = []) := by
  obtain ⟨d, hd⟩ := hw.fifo hok
  obtain ⟨h1, h2, -⟩ := hd.reports hw.inv.added_nodup
  have hclose : ∀ cb ctx removes w', wsioClose id .wsio cb ctx removes w = some w' →
      RemovesOk w'.trace →
      completions w'.trace = (addedIos w'.trace).filterMap completion ∧
        w'.wsio.pendingIoList = [] := by
    intro cb ctx removes w' hc hok'
    have hw' := hw.step (.wsioClose .wsio cb ctx removes) hc
    have hq := hw'.inv.queue_empty (.inl (wsioClose_notOpen _ hc))
    obtain ⟨d', hd'⟩ := hw'.fifo hok'
    exact ⟨(hd'.reports hw'.inv.added_nodup).2.2 hq, hq⟩
  refine ⟨⟨_, h1⟩, h2, fun cb ctx removes w' hc hok' h0 => ?_, fun removes w' hd' hok' => ?_⟩
  · obtain ⟨h3, h4⟩ := hclose cb ctx removes w' hc hok'
    exact ⟨h3, h4, wsioClose_zero _ hc h0⟩
  · obtain ⟨w1, hc1, rfl⟩ := Option.map_eq_some'.mp hd'
    obtain ⟨h3, h4⟩ := hclose none 0 removes w1 hc1 (hok'.anti (List.prefix_append _ _))
    have hs : Silent ((destroyFrees w1.wsio).map .free) :=
      silent_of (by simp [Effect.added, Effect.removed, Effect.completed])
    simp [World.log, hs.1, hs.2.2, h3, h4]

theorem reachable_send_order_close :
    (let cs := [Call.wsioOpen .wsio (some 1) (some 2) (some 3) 4 ⟨true, true⟩,
      .wsioDowork .wsio [.clientEstablished],
      .wsioSend .wsio (some [7]) 1 (some 6) 7 ⟨true, true, true, 0⟩,
      .wsioSend .wsio (some [8]) 1 (some 8) 9 ⟨true, true, true, 0⟩,
      .wsioDowork .wsio [.clientWriteable true 1 true 0]]
    let w := (Call.run id cs (World.init sampleInstance)).getD (World.init sampleInstance)
    let w' := (wsioClose id .wsio (some 5) 10 [true] w).getD w
    let w'' := (wsioDestroy id .wsio [true] w).getD w
    RemovesOk w.trace ∧
    (∃ k, completions w.trace = ((addedIos w.trace).take k).filterMap completion) ∧
    ((completions w.trace).map (·.1)).Nodup ∧
    (completions w'.trace = (addedIos w'.trace).filterMap completion ∧
      w'.wsio.pendingIoList = [] ∧ ∃ pre, w'.trace = pre ++ closeLog (some 5) 10 ++ [.closed 0]) ∧
    completions w''.trace = (addedIos w''.trace).filterMap completion ∧
      w''.wsio.pendingIoList = []) := by
  intro cs w w' w''
  have hw : Reachable id w := (Reachable.create wsioCreate_sampleConfig).run
    (show Call.run id cs (World.init sampleInstance) = some w from rfl)
  have hok : RemovesOk w.trace := by decide
  obtain ⟨h1, h2, h3, h4⟩ := reachable_send_order hw hok
  exact ⟨hok, h1, h2, h3 _ _ [true] w' rfl (by decide) ⟨w'.trace.dropLast, by decide⟩,
    h4 [true] w'' rfl (by decide)⟩

/-- A write whose `on_send_complete` is NULL is never reported, so the reports need not begin
the writes appended. -/
theorem null_send_callback_unreported :
    ∃ w, Reachable id w ∧ RemovesOk w.trace ∧
      ¬ ((completions w.trace).map (·.1) <+: (addedIos w.trace).map (·.io)) :=
  ⟨_, Reachable.run (.create wsioCreate_sampleConfig)
    (show Call.run id [.wsioOpen .wsio (some 1) (some 2) (some 3) 4 ⟨true, true⟩,
      .wsioDowork .wsio [.clientEstablished],
      .wsioSend .wsio (some [7]) 1 none 5 ⟨true, true, true, 0⟩,
      .wsioSend .wsio (some [8]) 1 (some 6) 7 ⟨true, true, true, 0⟩,
      .wsioDowork .wsio [.clientWriteable true 1 true 0, .clientWriteable true 1 true 0]]
      (World.init sampleInstance) = some _ from rfl), by decide, by decide⟩

/-- A `wsio_send` whose `lws_callback_on_writable` fails returns 744 but leaves its write
queued, and the next `wsio_close` reports it with IO_SEND_CANCELLED. -/
theorem failed_notify_send_reported :
    ∃ w, Call.run id [.wsioOpen .wsio (some 1) (some 2) (some 3) 4 ⟨true, true⟩,
      .wsioDowork .wsio [.clientEstablished],
      .wsioSend .wsio (some [7]) 1 (some 6) 7 ⟨true, true, true, -1⟩]
      (World.init sampleInstance) = some w ∧
      w.trace.getLast? = some (.sent 744) ∧ w.wsio.pendingIoList.map (·.io) = [1] ∧
      (wsioClose id .wsio none 0 [true] w).map (completions ·.trace) = some [(1, 6, 7)] :=
  ⟨_, rfl, by decide, by decide, by decide⟩

/-- When `list_remove` fails at every pass, the drain loop of `wsio_close` never empties a
non-empty queue: no number of answers lets it return. -/
theorem drainPendingIo_spins {w : World} (hq : w.wsio.pendingIoList ≠ []) (n : Nat) :
    drainPendingIo id (List.replicate n false) w = none := by
  obtain ⟨p, ps, hp⟩ := List.exists_cons_of_ne_nil hq
  induction n generalizing w with
  | zero => exact drainPendingIo_exhausted id hp
  | succ n ih =>
    rw [List.replicate_succ, drainPendingIo_head id false hp]
    have hq' : (cancelPendingIo id p false w).wsio.pendingIoList = p :: ps := by
      simp [cancelPendingIo, hp]
    exact ih (by simp [hq']) hq'

/-- An IO_SEND_OK whose `list_remove` fails leaves the write listed: the next `wsio_close`
reports it again, and a close whose `list_remove` keeps failing never returns. -/
theorem failed_remove_reports_twice :
    ∃ w, Call.run id [.wsioOpen .wsio (some 1) (some 2) (some 3) 4 ⟨true, true⟩,
      .wsioDowork .wsio [.clientEstablished],
      .wsioSend .wsio (some [7]) 1 (some 6) 7 ⟨true, true, true, 0⟩,
      .wsioDowork .wsio [.clientWriteable true 1 false 0]] (World.init sampleInstance) = some w ∧
      (wsioClose id .wsio none 0 [true] w).map (completions ·.trace) =
        some [(1, 6, 7), (1, 6, 7)] ∧
      ∀ n, wsioClose id .wsio none 0 (List.replicate n false) w = none := by
  refine ⟨_, rfl, by decide, fun n => ?_⟩
  unfold wsioClose
  rw [if_neg (by decide), if_neg (by decide), drainPendingIo_spins (by decide) n]
  rfl

end Wsio
