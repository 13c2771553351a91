import Wsio.Lifecycle

/-! # The io_state machine

`io_state` changes at five kinds of moment, each of which leaves an entry in the log: a
`wsio_open` returning 0 leaves the instance OPENING; CLIENT_ESTABLISHED and
CLIENT_CONNECTION_ERROR take an OPENING instance to OPEN and to NOT_OPEN; a failed
`list_remove` puts it in ERROR; a `wsio_close` returning 0 leaves it NOT_OPEN. `IoState.run`
is this machine, read off the log. While callbacks return, the `io_state` of every reachable
world is the state the machine reaches on the world's log, whatever the engine, the
allocator and the list module answer, and no queued write is ever marked partially sent,
so the branches of CLIENT_WRITEABLE that test `is_partially_sent` never go to ERROR. Once in
ERROR, the instance refuses every call but `wsio_close` of the instance.
-/

namespace Wsio

namespace IoState

/-- One entry of the log, as it moves `io_state`. -/
def step (s : IoState) : Effect → IoState
  | .opened _ _ 0 => .opening
  | .delivered .clientEstablished => if s = .opening then .opened else s
  | .delivered .clientConnectionError => if s = .opening then .notOpen else s
  | .listRemove _ false => .error
  | .closed 0 => .notOpen
  | _ => s

/-- The state after the entries `tr`. -/
def run (s : IoState) (tr : List Effect) : IoState := tr.foldl step s

@[simp] theorem run_nil (s : IoState) : s.run [] = s := rfl

@[simp] theorem run_cons (s : IoState) (e : Effect) (tr : List Effect) :
    s.run (e :: tr) = (s.step e).run tr := rfl

@[simp] theorem run_append (s : IoState) (tr tr' : List Effect) :
    s.run (tr ++ tr') = (s.run tr).run tr' := List.foldl_append _ _ _ _

/- An open that connects, is established, loses a write's removal, and is closed. -/
example : IoState.notOpen.run [.opened none 4 0, .delivered .clientEstablished,
    .listRemove 7 false, .sent 720] = .error ∧
    IoState.notOpen.run [.opened none 4 0, .delivered .clientEstablished,
    .listRemove 7 false, .closed 0] = .notOpen := by decide

theorem step_eq_error {s : IoState} {e : Effect} (h : s.step e = .error) :
    s = .error ∨ ∃ io, e = .listRemove io false := by
  unfold step at h
  split at h
  all_goals first | exact .inr ⟨_, rfl⟩ | (split_ifs at h <;> simp_all) | simp_all

theorem run_eq_error {s : IoState} {tr : List Effect} (h : s.run tr = .error) :
    s = .error ∨ ∃ io, Effect.listRemove io false ∈ tr := by
  induction tr generalizing s with
  | nil => exact .inl h
  | cons e tr ih =>
    rcases ih h with h1 | ⟨io, hio⟩
    · rcases step_eq_error h1 with h2 | ⟨io, rfl⟩
      exacts [.inl h2, .inr ⟨io, List.mem_cons_self _ _⟩]
    · exact .inr ⟨io, List.mem_cons_of_mem _ hio⟩

end IoState

/-- An entry that does not move `io_state`. -/
def Effect.stateQuiet : Effect → Bool
  | .opened _ _ 0 | .closed 0 | .delivered .clientEstablished
  | .delivered .clientConnectionError | .listRemove _ false => false
  | _ => true

section Quiet

theorem IoState.run_quiet (s : IoState) {es : List Effect} (hes : es.all Effect.stateQuiet) :
    s.run es = s := by
  induction es with
  | nil => rfl
  | cons e es ih =>
    simp only [List.all_cons, Bool.and_eq_true] at hes
    have hs : s.step e = s := by
      have he := hes.1
      unfold Effect.stateQuiet at he; unfold IoState.step; split <;> simp_all
    rw [IoState.run_cons, hs, ih hes.2]

end Quiet

/-- The machine run on the log from NOT_OPEN reaches the world's `io_state`, and no queued
write is marked partially sent. -/
structure StateAgrees (w : World) : Prop where
  state : IoState.notOpen.run w.trace = w.wsio.ioState
  unmarked : ∀ p ∈ w.wsio.pendingIoList, p.isPartiallySent = false

section Steps

variable {w w' : World}

theorem StateAgrees.extend (h : StateAgrees w) (es : List Effect) (htr : w'.trace = w.trace ++ es)
    (hs : w.wsio.ioState.run es = w'.wsio.ioState)
    (hq : ∀ p ∈ w'.wsio.pendingIoList, p.isPartiallySent = false) : StateAgrees w' :=
  ⟨by rw [htr, IoState.run_append, h.state, hs], hq⟩

theorem StateAgrees.quiet (h : StateAgrees w) (es : List Effect) (htr : w'.trace = w.trace ++ es)
    (hes : es.all Effect.stateQuiet) (hs : w'.wsio.ioState = w.wsio.ioState)
    (hq : w'.wsio.pendingIoList = w.wsio.pendingIoList) : StateAgrees w' :=
  h.extend es htr (by rw [IoState.run_quiet _ hes, hs]) (hq ▸ h.unmarked)

theorem StateAgrees.log (h : StateAgrees w) {es : List Effect} (hes : es.all Effect.stateQuiet) :
    StateAgrees (w.log es) :=
  h.quiet es rfl hes rfl rfl

theorem StateAgrees.emit (h : StateAgrees w) (e : Effect) (he : e.stateQuiet) :
    StateAgrees (w.emit e) :=
  h.quiet [e] rfl (by simpa using he) rfl rfl

theorem StateAgrees.release (h : StateAgrees w) (p : PendingSocketIo) (r : IoSendResult)
    (removed : Bool) : StateAgrees (release p r false removed w) := by
  have hp : (sendLog p r).all Effect.stateQuiet := all_callbackLog fun _ => rfl
  have he : (errorLog w.wsio.onIoError w.wsio.openCallbackContext).all Effect.stateQuiet :=
    all_callbackLog fun _ => rfl
  refine h.extend (sendLog p r ++ .listRemove p.io removed ::
      (if removed then [] else errorLog w.wsio.onIoError w.wsio.openCallbackContext))
    (by simp [Wsio.release]) ?_ fun q hq => h.unmarked q ?_
  · cases removed <;>
      simp [Wsio.release, IoState.run_quiet _ hp, IoState.run_quiet _ he, IoState.step]
  · simp only [Wsio.release] at hq
    split at hq
    exacts [List.mem_of_mem_eraseP hq, hq]

theorem StateAgrees.sendHead (h : StateAgrees w) {p : PendingSocketIo} {rest : List PendingSocketIo}
    (hq : w.wsio.pendingIoList = p :: rest) (wsBuffer : Bool) (n : Int) (removed : Bool) :
    StateAgrees (sendHead id p rest wsBuffer n removed w) := by
  have hp : p.isPartiallySent = false := h.unmarked p (by simp [hq])
  have hw := h.emit (.write w.wsio.wsi (p.bytes.take p.size) n) rfl
  simp only [Wsio.sendHead, sendFailed_id, sendWritten_id, hp]
  split_ifs
  · exact hw.release _ _ _
  · refine hw.extend [] (by simp) rfl fun q hq' => ?_
    simp only [World.modify_wsio, List.mem_cons] at hq'
    rcases hq' with rfl | hq'
    exacts [rfl, h.unmarked q (by simp [hq, hq'])]
  · exact hw.release _ _ _
  · exact h.release _ _ _

theorem StateAgrees.writeable (h : StateAgrees w) (wsi : Option Nat) (wsBuffer : Bool) (n : Int)
    (removed : Bool) (onWritable : Int) :
    StateAgrees (onClientWriteable id wsi wsBuffer n removed onWritable w) := by
  unfold onClientWriteable
  split
  · exact h
  · rename_i p rest hq
    have h1 := h.sendHead hq wsBuffer n removed
    dsimp only
    split
    exacts [h1, h1.emit _ rfl]

theorem StateAgrees.established (h : StateAgrees w) :
    StateAgrees (onClientEstablished id (w.emit (.delivered .clientEstablished))) := by
  have ho : (openLog w.wsio.onIoOpenComplete w.wsio.openCallbackContext .ok).all
      Effect.stateQuiet := all_callbackLog fun _ => rfl
  have he : (errorLog w.wsio.onIoError w.wsio.openCallbackContext).all Effect.stateQuiet :=
    all_callbackLog fun _ => rfl
  unfold onClientEstablished
  split <;> rename_i hs <;> simp only [World.emit_wsio] at hs
  · refine h.extend (.delivered .clientEstablished :: openLog w.wsio.onIoOpenComplete
      w.wsio.openCallbackContext .ok) (by simp [World.log]) ?_ (by simpa using h.unmarked)
    simp [hs, IoState.step, IoState.run_quiet _ ho]
  · refine h.extend (.delivered .clientEstablished :: errorLog w.wsio.onIoError
      w.wsio.openCallbackContext) (by simp) ?_ (by simpa using h.unmarked)
    simp [show w.wsio.ioState ≠ .opening from hs, IoState.step, IoState.run_quiet _ he]

theorem StateAgrees.connectionError (h : StateAgrees w) :
    StateAgrees (onClientConnectionError id (w.emit (.delivered .clientConnectionError))) := by
  have ho : (openLog w.wsio.onIoOpenComplete w.wsio.openCallbackContext .error).all
      Effect.stateQuiet := all_callbackLog fun _ => rfl
  have he : (errorLog w.wsio.onIoError w.wsio.openCallbackContext).all Effect.stateQuiet :=
    all_callbackLog fun _ => rfl
  unfold onClientConnectionError
  split <;> rename_i hs <;> simp only [World.emit_wsio] at hs
  · refine h.extend (.delivered .clientConnectionError :: openLog w.wsio.onIoOpenComplete
      w.wsio.openCallbackContext .error ++ [.contextDestroy w.wsio.wsContext]) (by simp) ?_
      (by simpa using h.unmarked)
    simp [hs, IoState.step, IoState.run_quiet _ ho]
  · refine h.extend (.delivered .clientConnectionError :: errorLog w.wsio.onIoError
      w.wsio.openCallbackContext) (by simp) ?_ (by simpa using h.unmarked)
    simp [show w.wsio.ioState ≠ .opening from hs, IoState.step, IoState.run_quiet _ he]

theorem StateAgrees.certs (h : StateAgrees w) (bio : Bool) (puts : Int)
    (certs : List (Nat × Bool)) : StateAgrees (onLoadExtraClientVerifyCerts bio puts certs w) := by
  obtain ⟨es, he, hes⟩ := onLoadExtraClientVerifyCerts_log bio puts certs w
  rw [he]
  exact h.log (List.all_eq_true.mpr fun e he => by
    rcases hes e he with rfl | rfl | ⟨c, rfl⟩ <;> rfl)

theorem StateAgrees.callback (h : StateAgrees w) (e : LwsEvent) :
    StateAgrees (onWsCallback id e w) := by
  unfold onWsCallback
  cases e with
  | clientEstablished => exact h.established
  | clientConnectionError => exact h.connectionError
  | clientWriteable wsBuffer n removed onWritable =>
    exact (h.emit (.delivered .clientWriteable) rfl).writeable _ wsBuffer n removed onWritable
  | clientReceive bytes => exact (h.emit (.delivered .clientReceive) rfl).emit _ rfl
  | loadExtraClientVerifyCerts bio puts certs =>
    exact (h.emit (.delivered .loadExtraClientVerifyCerts) rfl).certs bio puts certs
  | other => exact h.emit (.delivered .other) rfl

theorem StateAgrees.send (h : StateAgrees w) (hd : Handle) (b : Option (List UInt8)) (n : Nat)
    (cb : Option Nat) (ctx : Nat) (r : SendReplies) : StateAgrees (wsioSend hd b n cb ctx r w) := by
  rcases wsioSend_cases w hd b n cb ctx r with
    ⟨k, -, -, he⟩ | ⟨buf, -, -, he⟩ | ⟨buf, -, -, -, -, he⟩ <;> rw [he]
  · exact h.emit _ rfl
  · exact h.quiet _ rfl rfl rfl rfl
  · refine h.extend _ rfl (IoState.run_quiet _ (by simp [Effect.stateQuiet])) fun q hq => ?_
    simp only [World.log_wsio, World.modify_wsio, World.fresh_wsio, List.mem_append,
      List.mem_singleton] at hq
    rcases hq with hq | rfl
    exacts [h.unmarked q hq, rfl]

theorem StateAgrees.open (h : StateAgrees w) (hd : Handle) (oc ob oe : Option Nat) (ctx : Nat)
    (r : OpenReplies) : StateAgrees (wsioOpen id hd oc ob oe ctx r w) := by
  rcases wsioOpen_cases w hd oc ob oe ctx r with
    ⟨k, hk, -, he⟩ | ⟨-, hs, he⟩ | ⟨-, hs, he⟩ | ⟨-, hs, he⟩ <;> rw [he]
  · exact h.emit _ (by cases k <;> simp_all [Effect.stateQuiet])
  · exact h.quiet _ rfl rfl (by simp [hs]) rfl
  · exact h.quiet _ rfl (by simp [Effect.stateQuiet, connectEntry]) (by simp [hs]) rfl
  · exact h.extend _ rfl (by simp [connectEntry, IoState.step]) h.unmarked

theorem StateAgrees.close (h : StateAgrees w) (hi : Inv w) (hd : Handle) (cb : Option Nat)
    (ctx : Nat) {removes : List Bool} (hc : wsioClose id hd cb ctx removes w = some w') :
    StateAgrees w' := by
  have hf : ∀ w1 : World, w1.wsio.pendingIoList = [] → StateAgrees (finishClose id cb ctx w1) :=
    fun w1 hq => ⟨by simp [IoState.step], by simp [hq]⟩
  unfold wsioClose at hc
  split at hc
  · cases hc; exact h.emit _ rfl
  · split_ifs at hc with hs hs'
    · cases hc; exact h.emit _ rfl
    · cases hc; exact hf _ (by simpa using hi.queue_empty (.inr hs'))
    · obtain ⟨w1, hw1, rfl⟩ := Option.map_eq_some'.mp hc
      exact hf w1 (hi.drain hw1).2.2

end Steps

theorem Reachable.stateAgrees {w : World} (h : Reachable id w) : StateAgrees w :=
  h.induction
    (fun hc => by
      obtain ⟨c, -, -, -, -, hi, -⟩ := wsioCreate_some hc
      exact ⟨by rw [hi]; rfl, by rw [hi]; simp [createdInstance, World.init]⟩)
    (fun _ hd oc ob oe ctx r _ h => h.open hd oc ob oe ctx r)
    (fun _ _ hd cb ctx _ hi h hc => h.close hi hd cb ctx hc)
    (fun _ hd b n cb ctx r h => h.send hd b n cb ctx r)
    (fun _ _ h => h.emit _ rfl)
    (fun _ e _ h => h.callback e)

/-- A call of `wsio_close` on the instance. -/
def Call.closesInstance : Call → Bool
  | .wsioClose .wsio .. => true
  | _ => false

/-- A non-zero result of `wsio_open`, `wsio_close` or `wsio_send`: the call refused. -/
def Effect.refused : Effect → Bool
  | .opened _ _ k | .closed k | .sent k => k != 0
  | _ => false

section Error

variable {w w' : World} (hs : w.wsio.ioState = .error)
include hs

/-- In ERROR, a call other than `wsio_close` of the instance returns non-zero or does nothing,
and leaves the instance as it is. -/
theorem exec_of_error {c : Call} (hc : c.closesInstance = false) (he : c.exec id w = some w') :
    w'.wsio = w.wsio ∧ ∃ es, w'.trace = w.trace ++ es ∧ es.all Effect.refused := by
  cases c with
  | wsioOpen hd oc ob oe ctx r =>
    cases he
    rcases wsioOpen_cases w hd oc ob oe ctx r with
      ⟨k, hk, -, he⟩ | ⟨-, hs', -⟩ | ⟨-, hs', -⟩ | ⟨-, hs', -⟩ <;> simp_all [Effect.refused]
  | wsioClose hd cb ctx removes =>
    cases hd with
    | null => cases he; exact ⟨rfl, _, rfl, rfl⟩
    | wsio => cases hc
  | wsioSend hd b n cb ctx r =>
    cases he
    rcases wsioSend_cases w hd b n cb ctx r with
      ⟨k, hk, -, he⟩ | ⟨_, -, hs', -⟩ | ⟨_, -, -, -, hs', -⟩ <;> simp_all [Effect.refused]
  | wsioDowork hd events =>
    cases he
    refine ⟨?_, [], ?_, rfl⟩ <;> unfold wsioDowork <;> split <;> simp [hs]

theorem run_of_error {cs : List Call} (hc : ∀ c ∈ cs, c.closesInstance = false)
    (hr : Call.run id cs w = some w') :
    w'.wsio = w.wsio ∧ ∃ es, w'.trace = w.trace ++ es ∧ es.all Effect.refused := by
  induction cs generalizing w with
  | nil => cases hr; exact ⟨rfl, [], by simp, rfl⟩
  | cons c cs ih =>
    obtain ⟨w1, h1, h2⟩ := Option.bind_eq_some.mp hr
    obtain ⟨hw1, es1, ht1, hr1⟩ := exec_of_error hs (hc c (List.mem_cons_self _ _)) h1
    obtain ⟨hw2, es2, ht2, hr2⟩ := ih (hw1 ▸ hs) (fun c hm => hc c (List.mem_cons_of_mem _ hm)) h2
    exact ⟨hw2.trans hw1, es1 ++ es2, by simp [ht2, ht1], by simp [hr1, hr2]⟩

end Error

/-- In every reachable world `io_state` is the state the machine reaches on the log, and no
queued write is marked partially sent. -/
theorem reachable_ioState_machine {w : World} (hw : Reachable id w) :
    w.wsio.ioState = IoState.notOpen.run w.trace ∧
      ∀ p ∈ w.wsio.pendingIoList, p.isPartiallySent = false :=
  ⟨hw.stateAgrees.state.symm, hw.stateAgrees.unmarked⟩

/-- An open established, then a write whose removal fails: the machine reads ERROR. -/
theorem reachable_ioState_machine_lost_removal :
    (let cs := [Call.wsioOpen .wsio (some 1) (some 2) (some 3) 4 ⟨true, true⟩,
      .wsioDowork .wsio [.clientEstablished],
      .wsioSend .wsio (some [7]) 1 (some 5) 6 ⟨true, true, true, 0⟩,
      .wsioDowork .wsio [.clientWriteable true 1 false 0]]
    let w := (Call.run id cs (World.init sampleInstance)).getD (World.init sampleInstance)
    Reachable id w ∧ w.wsio.ioState = IoState.notOpen.run w.trace ∧
      ∀ p ∈ w.wsio.pendingIoList, p.isPartiallySent = false) := by
  intro cs w
  have hw : Reachable id w := (Reachable.create wsioCreate_sampleConfig).run
    (show Call.run id cs (World.init sampleInstance) = some w from rfl)
  exact ⟨hw, reachable_ioState_machine hw⟩

/-- ERROR comes from a failed `list_remove`, and until `wsio_close` every call returns non-zero
or does nothing, with the instance unchanged. -/
theorem error_until_close {w w' : World} (hw : Reachable id w) (hs : w.wsio.ioState = .error)
    {cs : List Call} (hc : ∀ c ∈ cs, c.closesInstance = false) (hr : Call.run id cs w = some w') :
    (∃ io, Effect.listRemove io false ∈ w.trace) ∧ w'.wsio = w.wsio ∧
      ∃ es, w'.trace = w.trace ++ es ∧ es.all Effect.refused := by
  have hcause := IoState.run_eq_error (hw.stateAgrees.state.trans hs)
  exact ⟨hcause.resolve_left (by decide), run_of_error hs hc hr⟩

/-- A write whose removal fails after it was sent; then a send, an open, a service and a
close with a NULL handle. -/
theorem error_until_close_lost_removal :
    (let pre := [Call.wsioOpen .wsio (some 1) (some 2) (some 3) 4 ⟨true, true⟩,
      .wsioDowork .wsio [.clientEstablished],
      .wsioSend .wsio (some [7]) 1 (some 5) 6 ⟨true, true, true, 0⟩,
      .wsioDowork .wsio [.clientWriteable true 1 false 0]]
    let w := (Call.run id pre (World.init sampleInstance)).getD (World.init sampleInstance)
    let cs := [Call.wsioSend .wsio (some [8]) 1 none 0 ⟨true, true, true, 0⟩,
      .wsioOpen .wsio none none none 0 ⟨true, true⟩, .wsioDowork .wsio [.clientEstablished],
      .wsioClose .null none 0 []]
    let w' := (Call.run id cs w).getD w
    Reachable id w ∧ w.wsio.ioState = .error ∧ (∀ c ∈ cs, c.closesInstance = false) ∧
      Call.run id cs w = some w' ∧
      (∃ io, Effect.listRemove io false ∈ w.trace) ∧ w'.wsio = w.wsio ∧
      ∃ es, w'.trace = w.trace ++ es ∧ es.all Effect.refused) := by
  intro pre w cs w'
  have hw : Reachable id w := (Reachable.create wsioCreate_sampleConfig).run
    (show Call.run id pre (World.init sampleInstance) = some w from rfl)
  have hr : Call.run id cs w = some w' := rfl
  exact ⟨hw, by decide, by decide, hr, error_until_close hw (by decide) (by decide) hr⟩

end Wsio
