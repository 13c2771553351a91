import Wsio.Queue

/-! # Writes reach the engine in order

When no `lws_write` accepts only part of a write, a write leaves the queue in the round that
first hands it to the engine, and its buffer is never shifted. The buffers `lws_write`
receives are then those of the writes `wsio_send` queued, in the order they were queued,
each whole and at most once: the order of the queue, with the fragmentation that breaks
it (`short_rounds`) ruled out.
-/

namespace Wsio

/-- Every write `add_pending_io` appended holds its `size` bytes, and no `lws_write` of the
log accepted part of its buffer: it failed, or took all of it. -/
def WholeWrites (tr : List Effect) : Prop :=
  (∀ p, Effect.listAdd p true ∈ tr → p.bytes.length = p.size) ∧
  ∀ wsi bytes n, Effect.write wsi bytes n ∈ tr → n < 0 ∨ bytes.length ≤ n.toNat

/-- The entry appends a write holding its `size` bytes, or is an `lws_write` that failed or
took its whole buffer, or is neither. -/
def Effect.whole : Effect → Bool
  | .listAdd p true => p.bytes.length == p.size
  | .write _ bytes n => decide (n < 0 ∨ bytes.length ≤ n.toNat)
  | _ => true

theorem wholeWrites_iff {tr : List Effect} : WholeWrites tr ↔ ∀ e ∈ tr, e.whole := by
  refine ⟨fun ⟨h1, h2⟩ e he => ?_, fun h =>
    ⟨fun p hp => by simpa [Effect.whole] using h _ hp,
      fun wsi bytes n hm => by simpa [Effect.whole] using h _ hm⟩⟩
  cases e with
  | listAdd p ok => cases ok; rfl; simpa [Effect.whole] using h1 p he
  | write wsi bytes n => simpa [Effect.whole] using h2 wsi bytes n he
  | _ => rfl

instance : DecidablePred WholeWrites := fun _ => decidable_of_iff _ wholeWrites_iff.symm

theorem WholeWrites.anti {tr tr' : List Effect} (h : WholeWrites tr') (hp : tr <+: tr') :
    WholeWrites tr :=
  ⟨fun p hm => h.1 p (hp.subset hm), fun wsi bytes n hm => h.2 wsi bytes n (hp.subset hm)⟩

/-- The buffers handed to `lws_write` so far are those of writes already retired, in order and
at most once each; the queue holds the other writes appended, intact. -/
structure InOrder (w : World) (done : List PendingSocketIo) : Prop where
  added : addedIos w.trace = done ++ w.wsio.pendingIoList
  written : List.Sublist (writes w.trace) (done.map (·.bytes))
  intact : ∀ p ∈ w.wsio.pendingIoList, p.bytes.length = p.size

theorem release_views (p : PendingSocketIo) (r : IoSendResult) (fail removed : Bool) (w : World) :
    addedIos (release p r fail removed w).trace = addedIos w.trace ∧
    writes (release p r fail removed w).trace = writes w.trace := by
  have hs : addedIos (sendLog p r) = [] ∧ writes (sendLog p r) = [] :=
    ⟨filterMap_callbackLog fun _ => rfl, filterMap_callbackLog fun _ => rfl⟩
  have he : addedIos (errorLog w.wsio.onIoError w.wsio.openCallbackContext) = [] ∧
      writes (errorLog w.wsio.onIoError w.wsio.openCallbackContext) = [] :=
    ⟨filterMap_callbackLog fun _ => rfl, filterMap_callbackLog fun _ => rfl⟩
  cases fail <;> cases removed <;> simp [release, hs, he, Effect.added, Effect.written]

section Steps

variable {w w' : World} {done : List PendingSocketIo}

theorem InOrder.quiet (h : InOrder w done) (es : List Effect) (htr : w'.trace = w.trace ++ es)
    (hq : w'.wsio.pendingIoList = w.wsio.pendingIoList) (ha : addedIos es = [])
    (hw : writes es = []) : InOrder w' done where
  added := by rw [htr, addedIos_append, ha, List.append_nil, hq, h.added]
  written := by rw [htr, writes_append, hw, List.append_nil]; exact h.written
  intact := hq ▸ h.intact

theorem InOrder.log (h : InOrder w done) {es : List Effect} (ha : addedIos es = [])
    (hw : writes es = []) : InOrder (w.log es) done :=
  h.quiet es rfl rfl ha hw

theorem InOrder.emit (h : InOrder w done) (e : Effect) (ha : e.added = none)
    (hw : e.written = none) : InOrder (w.emit e) done :=
  h.quiet [e] rfl rfl (by simp [ha]) (by simp [hw])

theorem InOrder.setIoState (h : InOrder w done) (st : IoState) : InOrder (w.setIoState st) done :=
  h.quiet [] (by simp) rfl rfl rfl

theorem InOrder.release {p : PendingSocketIo} {rest : List PendingSocketIo}
    (h : InOrder w done) (hq : w.wsio.pendingIoList = p :: rest) (r : IoSendResult)
    (fail removed : Bool) (hok : RemovesOk (Wsio.release p r fail removed w).trace) :
    InOrder (Wsio.release p r fail removed w) (done ++ [p]) := by
  obtain rfl := hok.removed_of_release
  obtain ⟨ha, hw⟩ := release_views p r fail true w
  refine ⟨by rw [ha, h.added]; simp [Wsio.release, hq], ?_,
    fun q hm => h.intact q (by simp [Wsio.release, hq] at hm; simp [hq, hm])⟩
  rw [hw, List.map_append]
  exact h.written.trans (List.sublist_append_left _ _)

theorem InOrder.release_written {p : PendingSocketIo} {rest : List PendingSocketIo}
    (h : InOrder w done) (hq : w.wsio.pendingIoList = p :: rest) (wsi : Option Nat) (n : Int)
    (r : IoSendResult) (fail removed : Bool)
    (hok : RemovesOk
      (Wsio.release p r fail removed (w.emit (.write wsi (p.bytes.take p.size) n))).trace) :
    InOrder (Wsio.release p r fail removed (w.emit (.write wsi (p.bytes.take p.size) n)))
      (done ++ [p]) := by
  obtain rfl := hok.removed_of_release
  obtain ⟨ha, hw⟩ := release_views p r fail true (w.emit (.write wsi (p.bytes.take p.size) n))
  refine ⟨by rw [ha]; simp [h.added, Wsio.release, hq, Effect.added], ?_,
    fun q hm => h.intact q (by simp [Wsio.release, hq] at hm; simp [hq, hm])⟩
  have hp : p.bytes.take p.size = p.bytes := List.take_of_length_le (h.intact p (by simp [hq])).le
  rw [hw]
  simpa [Effect.written, hp] using h.written.append (List.Sublist.refl [p.bytes])

theorem InOrder.sendHead {p : PendingSocketIo} {rest : List PendingSocketIo}
    (h : InOrder w done) (hq : w.wsio.pendingIoList = p :: rest) (wsBuffer : Bool) (n : Int)
    (removed : Bool) (hok : RemovesOk (sendHead id p rest wsBuffer n removed w).trace)
    (hwh : WholeWrites (sendHead id p rest wsBuffer n removed w).trace) :
    InOrder (sendHead id p rest wsBuffer n removed w) (done ++ [p]) := by
  simp only [Wsio.sendHead, sendFailed_id, sendWritten_id] at hok hwh ⊢
  split_ifs at hok hwh ⊢
  · exact h.release_written hq _ _ _ _ _ hok
  · have hshort := hwh.2 w.wsio.wsi (p.bytes.take p.size) n (by simp)
    simp only [List.length_take, h.intact p (by simp [hq]), min_self] at hshort
    omega
  · exact h.release_written hq _ _ _ _ _ hok
  · exact h.release hq _ _ _ hok

theorem InOrder.writeable (h : InOrder w done) (wsi : Option Nat) (wsBuffer : Bool) (n : Int)
    (removed : Bool) (onWritable : Int)
    (hok : RemovesOk (onClientWriteable id wsi wsBuffer n removed onWritable w).trace)
    (hwh : WholeWrites (onClientWriteable id wsi wsBuffer n removed onWritable w).trace) :
    ∃ d, InOrder (onClientWriteable id wsi wsBuffer n removed onWritable w) d := by
  unfold onClientWriteable at hok hwh ⊢
  cases hq : w.wsio.pendingIoList with
  | nil => simp only [hq]; exact ⟨done, h⟩
  | cons p rest =>
    simp only [hq] at hok hwh ⊢
    have hg : (Wsio.sendHead id p rest wsBuffer n removed w).trace <+:
        (if (Wsio.sendHead id p rest wsBuffer n removed w).wsio.pendingIoList = [] then
          Wsio.sendHead id p rest wsBuffer n removed w
        else (Wsio.sendHead id p rest wsBuffer n removed w).emit
          (.callbackOnWritable wsi onWritable)).trace := by
      split
      exacts [List.prefix_refl _, List.prefix_append _ _]
    have hd := h.sendHead hq wsBuffer n removed (hok.anti hg) (hwh.anti hg)
    refine ⟨done ++ [p], ?_⟩
    split
    exacts [hd, hd.emit _ rfl rfl]

theorem InOrder.indicateError (h : InOrder w done) : InOrder (indicateError id w) done := by
  rw [indicateError_id]
  exact h.log (filterMap_callbackLog fun _ => rfl) (filterMap_callbackLog fun _ => rfl)

theorem InOrder.indicateOpenComplete (h : InOrder w done) (r : IoOpenResult) :
    InOrder (indicateOpenComplete id r w) done := by
  rw [indicateOpenComplete_id]
  exact h.log (filterMap_callbackLog fun _ => rfl) (filterMap_callbackLog fun _ => rfl)

theorem InOrder.certs (h : InOrder w done) (bio : Bool) (puts : Int) (certs : List (Nat × Bool)) :
    InOrder (onLoadExtraClientVerifyCerts bio puts certs w) done := by
  obtain ⟨es, he, hes⟩ := onLoadExtraClientVerifyCerts_log bio puts certs w
  have hq : ∀ e ∈ es, e.added = none ∧ e.written = none := fun e he => by
    rcases hes e he with rfl | rfl | ⟨c, rfl⟩ <;> exact ⟨rfl, rfl⟩
  rw [he]
  exact h.log (List.filterMap_eq_nil_iff.mpr fun e he => (hq e he).1)
    (List.filterMap_eq_nil_iff.mpr fun e he => (hq e he).2)

theorem InOrder.callback (h : InOrder w done) (e : LwsEvent)
    (hok : RemovesOk (onWsCallback id e w).trace) (hwh : WholeWrites (onWsCallback id e w).trace) :
    ∃ d, InOrder (onWsCallback id e w) d := by
  have h1 := h.emit (.delivered e.reason) rfl rfl
  simp only [onWsCallback] at hok hwh ⊢
  cases e <;> dsimp only at hok hwh ⊢
  case clientWriteable wsBuffer n removed onWritable => exact h1.writeable _ _ _ _ _ hok hwh
  case clientEstablished =>
    refine ⟨done, ?_⟩
    unfold onClientEstablished
    split
    exacts [(h1.setIoState .opened).indicateOpenComplete .ok, h1.indicateError]
  case clientConnectionError =>
    refine ⟨done, ?_⟩
    unfold onClientConnectionError
    split
    exacts [((h1.indicateOpenComplete .error).emit (.contextDestroy _) rfl rfl).setIoState .notOpen,
      h1.indicateError]
  case clientReceive bytes => exact ⟨done, by simpa using h1.emit (.bytesReceived _ _ _) rfl rfl⟩
  case loadExtraClientVerifyCerts bio puts certs => exact ⟨done, h1.certs bio puts certs⟩
  case other => exact ⟨done, h1⟩

theorem InOrder.send (h : InOrder w done) (hd : Handle) (b : Option (List UInt8)) (n : Nat)
    (cb : Option Nat) (ctx : Nat) (r : SendReplies)
    (hwh : WholeWrites (wsioSend hd b n cb ctx r w).trace) :
    InOrder (wsioSend hd b n cb ctx r w) done := by
  rcases wsioSend_cases w hd b n cb ctx r with
    ⟨k, -, -, he⟩ | ⟨buf, -, -, he⟩ | ⟨buf, -, -, -, -, he⟩ <;> rw [he] at hwh ⊢
  · exact h.emit _ rfl rfl
  · exact h.quiet _ rfl rfl (by simp [Effect.added]) (by simp [Effect.written])
  · have hp := hwh.1 (newPendingIo w.next buf n cb ctx) (by simp)
    refine ⟨by simp [h.added, Effect.added], by simpa [Effect.written] using h.written, ?_⟩
    intro q hq
    simp only [World.log_wsio, World.modify_wsio, World.fresh_wsio, List.mem_append,
      List.mem_singleton] at hq
    rcases hq with hq | rfl
    exacts [h.intact q hq, hp]

theorem InOrder.open (h : InOrder w done) (hd : Handle) (oc ob oe : Option Nat) (ctx : Nat)
    (r : OpenReplies) : InOrder (wsioOpen id hd oc ob oe ctx r w) done := by
  rcases wsioOpen_cases w hd oc ob oe ctx r with
    ⟨k, -, -, he⟩ | ⟨-, -, he⟩ | ⟨-, -, he⟩ | ⟨-, -, he⟩ <;> rw [he]
  · exact h.emit _ rfl rfl
  all_goals
    exact h.quiet _ rfl rfl (by simp [Effect.added, connectEntry])
      (by simp [Effect.written, connectEntry])

theorem InOrder.drain (h : InOrder w done) {removes : List Bool}
    (hd : drainPendingIo id removes w = some w') (hok : RemovesOk w'.trace) :
    InOrder w' (done ++ w.wsio.pendingIoList) := by
  induction removes generalizing w done with
  | nil =>
    cases hq : w.wsio.pendingIoList with
    | nil => rw [drainPendingIo_empty id hq] at hd; cases hd; simpa [hq] using h
    | cons p ps => rw [drainPendingIo_exhausted id hq] at hd; cases hd
  | cons r removes ih =>
    cases hq : w.wsio.pendingIoList with
    | nil => rw [drainPendingIo_empty id hq] at hd; cases hd; simpa [hq] using h
    | cons p ps =>
      rw [drainPendingIo_head id r hq] at hd
      cases r
      · exact absurd (List.IsPrefix.subset (drainPendingIo_grows _ hd)
          (by simp [cancelPendingIo])) (hok.not_mem p.io)
      · rw [cancelPendingIo_id] at hd
        have hq1 : (Wsio.release p .cancelled false true w).wsio.pendingIoList = ps := by
          simp [Wsio.release, hq]
        simpa [hq1] using
          ih (h.release hq .cancelled false true (hok.anti (drainPendingIo_grows _ hd))) hd

theorem InOrder.finishClose (h : InOrder w done) (cb : Option Nat) (ctx : Nat) :
    InOrder (finishClose id cb ctx w) done := by
  have hc : addedIos (closeLog cb ctx) = [] ∧ writes (closeLog cb ctx) = [] :=
    ⟨filterMap_callbackLog fun _ => rfl, filterMap_callbackLog fun _ => rfl⟩
  rw [finishClose_id, World.log_append]
  exact (((h.emit (.contextDestroy w.wsio.wsContext) rfl rfl).setIoState _).log hc.1 hc.2).emit
    (.closed 0) rfl rfl

theorem InOrder.close (h : InOrder w done) (hd : Handle) (cb : Option Nat) (ctx : Nat)
    {removes : List Bool} (hc : wsioClose id hd cb ctx removes w = some w')
    (hok : RemovesOk w'.trace) : ∃ d, InOrder w' d := by
  unfold wsioClose at hc
  split at hc
  · cases hc; exact ⟨done, h.emit _ rfl rfl⟩
  · split_ifs at hc
    · cases hc; exact ⟨done, h.emit _ rfl rfl⟩
    · cases hc
      exact ⟨done, (h.indicateOpenComplete .cancelled).finishClose cb ctx⟩
    · obtain ⟨w1, hw1, rfl⟩ := Option.map_eq_some'.mp hc
      have hok1 := hok.anti (by simp : w1.trace <+: (Wsio.finishClose id cb ctx w1).trace)
      exact ⟨_, (h.drain hw1 hok1).finishClose cb ctx⟩

end Steps

theorem Reachable.inOrder {w : World} (hw : Reachable id w) :
    RemovesOk w.trace → WholeWrites w.trace → ∃ d, InOrder w d :=
  @Reachable.induction (fun w => RemovesOk w.trace → WholeWrites w.trace → ∃ d, InOrder w d)
    (fun hc _ _ => by
      obtain ⟨c, -, -, -, -, hi, -⟩ := wsioCreate_some hc
      exact ⟨[], by rw [hi]; exact ⟨rfl, .slnil, by simp [createdInstance, World.init]⟩⟩)
    (fun w hd oc ob oe ctx r _ h hok hwh => by
      have hp := Call.exec_grows w (.wsioOpen hd oc ob oe ctx r) rfl
      obtain ⟨d, hd'⟩ := h (hok.anti hp) (hwh.anti hp)
      exact ⟨d, hd'.open hd oc ob oe ctx r⟩)
    (fun w _ hd cb ctx removes _ h hc hok hwh => by
      have hp := Call.exec_grows w (.wsioClose hd cb ctx removes) hc
      obtain ⟨d, hd'⟩ := h (hok.anti hp) (hwh.anti hp)
      exact hd'.close hd cb ctx hc hok)
    (fun w hd b n cb ctx r h hok hwh => by
      have hp := Call.exec_grows w (.wsioSend hd b n cb ctx r) rfl
      obtain ⟨d, hd'⟩ := h (hok.anti hp) (hwh.anti hp)
      exact ⟨d, hd'.send hd b n cb ctx r hwh⟩)
    (fun w _ h hok hwh => by
      have hp : w.trace <+: (w.emit (.service w.wsio.wsContext)).trace := List.prefix_append _ _
      obtain ⟨d, hd'⟩ := h (hok.anti hp) (hwh.anti hp)
      exact ⟨d, hd'.emit _ rfl rfl⟩)
    (fun w e _ h hok hwh => by
      have hp := onWsCallback_grows w e
      obtain ⟨d, hd'⟩ := h (hok.anti hp) (hwh.anti hp)
      exact hd'.callback e hok hwh) w hw

/-- While `list_remove` succeeds and no `lws_write` takes part of a write, `lws_write` gets
whole buffers of some appended writes, in append order, each once. -/
theorem reachable_writes_in_order {w : World} (hw : Reachable id w) (hok : RemovesOk w.trace)
    (hwh : WholeWrites w.trace) :
    ∃ ps, List.Sublist ps (addedIos w.trace) ∧ writes w.trace = ps.map (·.bytes) ∧
      (ps.map (·.io)).Nodup := by
  obtain ⟨d, h⟩ := hw.inOrder hok hwh
  have hs : List.Sublist (writes w.trace) ((addedIos w.trace).map (·.bytes)) := by
    rw [h.added, List.map_append]
    exact h.written.trans (List.sublist_append_left _ _)
  obtain ⟨ps, hps, he⟩ := List.sublist_map_iff.mp hs
  exact ⟨ps, hps, he, hw.inv.added_nodup.sublist (hps.map _)⟩

/-- Two writes queued, then taken whole by two CLIENT_WRITEABLE rounds. -/
theorem reachable_writes_in_order_two_sends :
    (let cs := [Call.wsioOpen .wsio (some 1) (some 2) (some 3) 4 ⟨true, true⟩,
      .wsioDowork .wsio [.clientEstablished],
      .wsioSend .wsio (some [1, 2]) 2 (some 5) 6 ⟨true, true, true, 0⟩,
      .wsioSend .wsio (some [3]) 1 (some 5) 7 ⟨true, true, true, 0⟩,
      .wsioDowork .wsio [.clientWriteable true 2 true 0, .clientWriteable true 1 true 0]]
    let w := (Call.run id cs (World.init sampleInstance)).getD (World.init sampleInstance)
    Reachable id w ∧ RemovesOk w.trace ∧ WholeWrites w.trace ∧
      ∃ ps, List.Sublist ps (addedIos w.trace) ∧ writes w.trace = ps.map (·.bytes) ∧
        (ps.map (·.io)).Nodup) := by
  intro cs w
  have hw : Reachable id w := (Reachable.create wsioCreate_sampleConfig).run
    (show Call.run id cs (World.init sampleInstance) = some w from rfl)
  exact ⟨hw, by decide, by decide, reachable_writes_in_order hw (by decide) (by decide)⟩

section WholeRounds

/-! CLIENT_WRITEABLE rounds in which `lws_write` takes the head write whole and `list_remove`
succeeds retire one write each, so as many such rounds as writes are queued drain the
queue. -/

/-- The log of CLIENT_WRITEABLE rounds that each send the head whole: its write, IO_SEND_OK,
removal, and a writable request while writes are left. -/
def wholeRoundsLog (wsi : Option Nat) : List PendingSocketIo → List (Int × Int) → List Effect
  | p :: ps, (n, r) :: rs =>
    [.delivered .clientWriteable, .write wsi (p.bytes.take p.size) n] ++ sendLog p .ok ++
      .listRemove p.io true :: (if ps = [] then [] else [.callbackOnWritable wsi r]) ++
      wholeRoundsLog wsi ps rs
  | _, _ => []

variable {w : World} {p : PendingSocketIo} {ps : List PendingSocketIo}

theorem onWsCallback_whole (hq : w.wsio.pendingIoList = p :: ps) {n : Int} (hn : 0 ≤ n)
    (hs : p.size ≤ n.toNat) (r : Int) :
    (onWsCallback id (.clientWriteable true n true r) w).wsio =
        { w.wsio with pendingIoList := ps } ∧
      (onWsCallback id (.clientWriteable true n true r) w).trace = w.trace ++
        ([.delivered .clientWriteable, .write w.wsio.wsi (p.bytes.take p.size) n] ++
          sendLog p .ok ++ .listRemove p.io true ::
          (if ps = [] then [] else [.callbackOnWritable w.wsio.wsi r])) := by
  have h0 : ¬ n < 0 := Int.not_lt.mpr hn
  have h1 : ¬ n.toNat < p.size := Nat.not_lt.mpr hs
  simp only [onWsCallback, onClientWriteable, World.emit_wsio, hq, sendHead, sendWritten_id,
    if_true, h0, h1, if_false, release, Bool.or_false, Bool.not_true, beq_self_eq_true,
    List.eraseP_cons_of_pos, LwsEvent.reason]
  split <;> simp_all [World.emit]

/-- As many whole rounds as queued writes drain the queue, each write reported IO_SEND_OK in
queue order with its own context, and change nothing else of the instance. -/
theorem whole_rounds_drain (rounds : List (Int × Int))
    (hlen : rounds.length = w.wsio.pendingIoList.length)
    (hn : ∀ x ∈ w.wsio.pendingIoList.zip rounds, 0 ≤ x.2.1 ∧ x.1.size ≤ x.2.1.toNat) :
    (let w' := (rounds.map fun r => LwsEvent.clientWriteable true r.1 true r.2).foldl
      (fun w e => onWsCallback id e w) w
    w'.wsio = { w.wsio with pendingIoList := [] } ∧
      w'.trace = w.trace ++ wholeRoundsLog w.wsio.wsi w.wsio.pendingIoList rounds) := by
  induction rounds generalizing w with
  | nil =>
    have hq : w.wsio.pendingIoList = [] := List.length_eq_zero.mp hlen.symm
    exact ⟨by rw [← hq]; rfl, by simp [wholeRoundsLog]⟩
  | cons x rounds ih =>
    obtain ⟨n, r⟩ := x
    cases hq : w.wsio.pendingIoList with
    | nil => simp [hq] at hlen
    | cons p ps =>
      rw [hq] at hlen hn
      have hx := hn (p, (n, r)) (List.mem_cons_self _ _)
      obtain ⟨hw1, ht1⟩ := onWsCallback_whole hq hx.1 hx.2 r
      have h2 := ih (w := onWsCallback id (.clientWriteable true n true r) w)
        (by simpa [hw1] using hlen)
        (by simpa [hw1] using fun y hy => hn y (List.mem_cons_of_mem _ hy))
      simp only [List.map_cons, List.foldl_cons]
      refine ⟨by rw [h2.1, hw1], ?_⟩
      rw [h2.2, ht1, hw1]
      simp [wholeRoundsLog]

/-- Two writes queued on an OPEN instance, taken whole by two rounds. -/
theorem whole_rounds_drain_two_writes :
    (let cs := [Call.wsioOpen .wsio (some 1) (some 2) (some 3) 4 ⟨true, true⟩,
      .wsioDowork .wsio [.clientEstablished],
      .wsioSend .wsio (some [1, 2]) 2 (some 5) 6 ⟨true, true, true, 0⟩,
      .wsioSend .wsio (some [3]) 1 none 7 ⟨true, true, true, 0⟩]
    let w := (Call.run id cs (World.init sampleInstance)).getD (World.init sampleInstance)
    let rounds : List (Int × Int) := [(2, 0), (1, 0)]
    rounds.length = w.wsio.pendingIoList.length ∧
      (∀ x ∈ w.wsio.pendingIoList.zip rounds, 0 ≤ x.2.1 ∧ x.1.size ≤ x.2.1.toNat) ∧
      let w' := (rounds.map fun r => LwsEvent.clientWriteable true r.1 true r.2).foldl
        (fun w e => onWsCallback id e w) w
      w'.wsio = { w.wsio with pendingIoList := [] } ∧
        w'.trace = w.trace ++ wholeRoundsLog w.wsio.wsi w.wsio.pendingIoList rounds) := by
  intro cs w rounds
  exact ⟨by decide, by decide, whole_rounds_drain rounds (by decide) (by decide)⟩

end WholeRounds

end Wsio
