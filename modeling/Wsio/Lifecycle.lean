import Wsio.Flat
import Mathlib.Data.List.Nodup

/-! # The lifecycle invariant

The queue is empty unless the instance is OPEN or in ERROR; while the instance is not
NOT_OPEN exactly one context is live, `ws_context`, whose connection is `wsi`, and while
it is NOT_OPEN none is; every engine call reaches a live context; every destroyed
context was created and is destroyed once; every address handed out is fresh. Every
operation and every event keeps this, so it holds in every reachable world.
-/

namespace Wsio

/-- The lifecycle invariant of a world. -/
structure Inv (w : World) : Prop where
  not_closing : w.wsio.ioState ≠ .closing
  queue_empty : w.wsio.ioState = .notOpen ∨ w.wsio.ioState = .opening →
    w.wsio.pendingIoList = []
  none_live : w.wsio.ioState = .notOpen → ∀ c, ¬ Live w.trace c
  one_live : w.wsio.ioState ≠ .notOpen →
    ∃ c, w.wsio.wsContext = some c ∧ w.wsio.wsi = some c ∧ ∀ c', Live w.trace c' ↔ c' = c
  created_fresh : ∀ c ∈ createdContexts w.trace, c < w.next
  destroyed_created : ∀ c, some c ∈ destroyedContexts w.trace → c ∈ createdContexts w.trace
  destroyed_once : ∀ c, (destroyedContexts w.trace).count (some c) ≤ 1
  no_null_destroy : none ∉ destroyedContexts w.trace
  targets_live : TargetsLive w.trace
  added_fresh : ∀ p ∈ addedIos w.trace, p.io < w.next
  added_nodup : ((addedIos w.trace).map (·.io)).Nodup

/-- The state changes an operation may make without touching contexts: none, or from an
opened instance to OPEN or ERROR. -/
def StateStep (s s' : IoState) : Prop :=
  s' = s ∨ (s ≠ .notOpen ∧ s ≠ .closing ∧ (s' = .opened ∨ s' = .error))

theorem StateStep.refl (s : IoState) : StateStep s s := .inl rfl

theorem live_append (tr es : List Effect) (hc : createdContexts es = [])
    (hd : destroyedContexts es = []) (c : Nat) : Live (tr ++ es) c ↔ Live tr c := by
  simp [Live, hc, hd]

theorem targetsLive_append_live {tr es : List Effect} (hc : createdContexts es = [])
    (hd : destroyedContexts es = [])
    (ht : ∀ e ∈ es, ∀ t, e.target = some t → ∃ c, t = some c ∧ Live tr c)
    (h : TargetsLive tr) : TargetsLive (tr ++ es) := by
  induction es generalizing tr with
  | nil => simpa using h
  | cons e es ih =>
    simp only [createdContexts_cons, destroyedContexts_cons, List.append_eq_nil] at hc hd
    have hl := live_append tr [e] (by simpa using hc.1) (by simpa using hd.1)
    rw [← List.singleton_append, ← List.append_assoc]
    refine ih hc.2 hd.2 (fun e' he' t ht' => ?_)
      (targetsLive_snoc.mpr ⟨h, ht e (List.mem_cons_self _ _)⟩)
    obtain ⟨c, rfl, hlc⟩ := ht e' (List.mem_cons_of_mem _ he') t ht'
    exact ⟨c, rfl, (hl c).mpr hlc⟩

theorem Inv.extend {w w' : World} (es : List Effect) (h : Inv w)
    (htr : w'.trace = w.trace ++ es) (hn : w.next ≤ w'.next)
    (hc : createdContexts es = []) (hd : destroyedContexts es = [])
    (ht : ∀ e ∈ es, ∀ t, e.target = some t → ∃ c, t = some c ∧ Live w.trace c)
    (ha : (addedIos es).map (·.io) = [] ∨ ((addedIos es).map (·.io) = [w.next] ∧ w.next < w'.next))
    (hs : StateStep w.wsio.ioState w'.wsio.ioState)
    (hctx : w'.wsio.ioState ≠ .notOpen →
      w'.wsio.wsContext = w.wsio.wsContext ∧ w'.wsio.wsi = w.wsio.wsi)
    (hq : w'.wsio.ioState = .notOpen ∨ w'.wsio.ioState = .opening →
      w.wsio.pendingIoList = [] → w'.wsio.pendingIoList = []) : Inv w' := by
  obtain ⟨i', tr', n'⟩ := w'
  dsimp only at htr hn ha hs hctx hq ⊢
  subst htr
  have hl := live_append w.trace es hc hd
  have hsame : i'.ioState = .notOpen ∨ i'.ioState = .opening → i'.ioState = w.wsio.ioState := by
    rintro (h' | h') <;> rcases hs with hs | ⟨-, -, hs | hs⟩ <;> simp_all
  refine ⟨?_, fun h' => hq h' (h.queue_empty (hsame h' ▸ h')), fun h' c => ?_, fun h' => ?_,
    ?_, ?_, ?_, ?_, targetsLive_append_live hc hd ht h.targets_live, ?_, ?_⟩
  · rcases hs with hs | ⟨-, -, hs | hs⟩ <;> simp [hs, h.not_closing]
  · rw [hl]; exact h.none_live (hsame (.inl h') ▸ h') c
  · have hw : w.wsio.ioState ≠ .notOpen := by
      rcases hs with hs | ⟨hs, -⟩
      · exact hs ▸ h'
      · exact hs
    obtain ⟨c, h1, h2, h3⟩ := h.one_live hw
    exact ⟨c, (hctx h').1 ▸ h1, (hctx h').2 ▸ h2, fun c' => (hl c').trans (h3 c')⟩
  · simpa [hc] using fun c hc' => (h.created_fresh c hc').trans_le hn
  · simpa [hc, hd] using h.destroyed_created
  · simpa [hd] using h.destroyed_once
  · simpa [hd] using h.no_null_destroy
  · simp only [addedIos_append, List.mem_append]
    rintro p (hp | hp)
    · exact (h.added_fresh p hp).trans_le hn
    · have hp' : p.io ∈ (addedIos es).map (·.io) := List.mem_map_of_mem _ hp
      rcases ha with ha | ⟨ha, hlt⟩ <;> simp [ha] at hp'
      exact hp' ▸ hlt
  · simp only [addedIos_append, List.map_append]
    rcases ha with ha | ⟨ha, -⟩
    · simpa [ha] using h.added_nodup
    · rw [ha, List.nodup_append]
      refine ⟨h.added_nodup, List.nodup_singleton _, ?_⟩
      simpa using fun p hp he => (h.added_fresh p hp).ne he

/-- An entry that creates, destroys and targets no context and appends no record. -/
def Quiet (e : Effect) : Prop :=
  e.created = none ∧ e.destroyed = none ∧ e.target = none ∧ e.added = none

theorem Inv.log {w : World} {es : List Effect} (h : Inv w) (hes : ∀ e ∈ es, Quiet e) :
    Inv (w.log es) := by
  have hc : createdContexts es = [] := by
    simpa [createdContexts] using fun e he => (hes e he).1
  have hd : destroyedContexts es = [] := by
    simpa [destroyedContexts] using fun e he => (hes e he).2.1
  have ha : addedIos es = [] := by
    simpa [addedIos] using fun e he => (hes e he).2.2.2
  refine h.extend es rfl le_rfl hc hd (fun e he t ht => ?_) (.inl (by simp [ha])) (.refl _)
    (fun _ => ⟨rfl, rfl⟩) fun _ => id
  simp [(hes e he).2.2.1] at ht

theorem Inv.emit {w : World} (h : Inv w) (e : Effect) (he : Quiet e) : Inv (w.emit e) :=
  h.log (by simpa using he : ∀ x ∈ [e], Quiet x)

section Steps

variable {w : World}

theorem Inv.setError (h : Inv w) (hs : w.wsio.ioState = .opened ∨ w.wsio.ioState = .error) :
    Inv (w.setIoState .error) := by
  refine h.extend [] (by simp) le_rfl rfl rfl (by simp) (.inl rfl) (.inr ?_)
    (fun _ => ⟨rfl, rfl⟩) fun _ hq => by simpa using hq
  rcases hs with hs | hs <;> simp [hs]

theorem Inv.indicateError (h : Inv w) : Inv (indicateError id w) := by
  simpa using h.log (forall_mem_callbackLog fun _ => by exact ⟨rfl, rfl, rfl, rfl⟩)

theorem Inv.indicateOpenComplete (h : Inv w) (r : IoOpenResult) :
    Inv (indicateOpenComplete id r w) := by
  simpa using h.log (forall_mem_callbackLog fun _ => by exact ⟨rfl, rfl, rfl, rfl⟩)

theorem Inv.indicateSendComplete (h : Inv w) (p : PendingSocketIo) (r : IoSendResult) :
    Inv (indicateSendComplete id p r w) := by
  simpa using h.log (forall_mem_callbackLog fun _ => by exact ⟨rfl, rfl, rfl, rfl⟩)

theorem Inv.listRemove (h : Inv w) (io : Nat) (ok : Bool) : Inv (listRemove io ok w) := by
  refine h.extend [.listRemove io ok] (by simp) (by simp) rfl rfl
    (by simp [Effect.target]) (.inl (by simp [Effect.added])) (by simp [StateStep]) (by simp) ?_
  intro _ hq; simp [hq]

theorem Inv.removePendingIo (h : Inv w) (hs : w.wsio.ioState = .opened ∨ w.wsio.ioState = .error)
    (p : PendingSocketIo) (ok : Bool) : Inv (removePendingIo id p ok w) := by
  unfold Wsio.removePendingIo
  split
  · exact h.listRemove _ _
  · exact ((h.listRemove _ _).setError (by simpa using hs)).indicateError

theorem Inv.emit_live (h : Inv w) (e : Effect) (hs : w.wsio.ioState ≠ .notOpen)
    (hc : e.created = none) (hd : e.destroyed = none) (ha : e.added = none)
    (ht : e.target = some w.wsio.wsContext ∨ e.target = some w.wsio.wsi) : Inv (w.emit e) := by
  obtain ⟨c, h1, h2, h3⟩ := h.one_live hs
  refine h.extend [e] rfl le_rfl (by simp [hc]) (by simp [hd]) ?_ (.inl (by simp [ha]))
    (.refl _) (fun _ => ⟨rfl, rfl⟩) fun _ => id
  simp only [List.mem_singleton, forall_eq]
  intro t he
  exact ⟨c, by rcases ht with ht | ht <;> simp_all, (h3 c).mpr rfl⟩

theorem Inv.sendFailed (h : Inv w) (hs : w.wsio.ioState = .opened ∨ w.wsio.ioState = .error)
    (p : PendingSocketIo) (ok : Bool) : Inv (sendFailed id p ok w) := by
  have h1 : Inv (w.log (sendLog p .error)) :=
    h.log (forall_mem_callbackLog fun _ => ⟨rfl, rfl, rfl, rfl⟩)
  have hs1 : (w.log (sendLog p .error)).wsio.ioState = .opened ∨
      (w.log (sendLog p .error)).wsio.ioState = .error := by simpa using hs
  unfold Wsio.sendFailed
  simp only [indicateSendComplete_id]
  split
  · exact (h1.setError hs1).indicateError.removePendingIo (by simp) p ok
  · exact h1.removePendingIo hs1 p ok

theorem Inv.sendWritten (h : Inv w) (hs : w.wsio.ioState = .opened ∨ w.wsio.ioState = .error)
    {p : PendingSocketIo} {rest : List PendingSocketIo} (hq : w.wsio.pendingIoList = p :: rest)
    (n : Int) (ok : Bool) : Inv (sendWritten id p rest n ok w) := by
  unfold Wsio.sendWritten
  split
  · exact h.extend [] (by simp) le_rfl rfl rfl (by simp) (.inl rfl) (.refl _)
      (fun _ => ⟨rfl, rfl⟩) (by simp [hq])
  · exact (h.indicateSendComplete p .ok).removePendingIo (by simpa using hs) p ok

theorem sendHead_frame (w : World) (p : PendingSocketIo) (rest : List PendingSocketIo)
    (wsBuffer : Bool) (n : Int) (ok : Bool) :
    let w' := sendHead id p rest wsBuffer n ok w
    w'.wsio.wsi = w.wsio.wsi ∧ w'.wsio.wsContext = w.wsio.wsContext ∧
      (w'.wsio.ioState = w.wsio.ioState ∨ w'.wsio.ioState = .error) := by
  have hr : ∀ (w : World) r fail, let w' := release p r fail ok w
      w'.wsio.wsi = w.wsio.wsi ∧ w'.wsio.wsContext = w.wsio.wsContext ∧
        (w'.wsio.ioState = w.wsio.ioState ∨ w'.wsio.ioState = .error) := by
    intro w r fail; simp only [release]; split <;> simp
  simp only [sendHead, sendFailed_id, sendWritten_id]
  split_ifs <;> first | exact hr _ _ _ | simp

theorem Inv.reRequest {w : World} {wsi : Option Nat} (h : Inv w) (hwsi : w.wsio.wsi = wsi)
    (hs : w.wsio.ioState ≠ .notOpen) (onWritable : Int) :
    Inv (if w.wsio.pendingIoList = [] then w else w.emit (.callbackOnWritable wsi onWritable)) := by
  split
  · exact h
  · exact h.emit_live _ hs rfl rfl rfl (.inr (by simp [Effect.target, hwsi]))

theorem Inv.writeable (h : Inv w) (wsBuffer : Bool) (n : Int) (ok : Bool) (onWritable : Int) :
    Inv (onClientWriteable id w.wsio.wsi wsBuffer n ok onWritable w) := by
  unfold onClientWriteable
  split
  · exact h
  · rename_i p rest hq
    have hs : w.wsio.ioState = .opened ∨ w.wsio.ioState = .error := by
      have := h.not_closing
      have := mt h.queue_empty (by simp [hq])
      cases hst : w.wsio.ioState <;> simp_all
    have hw : w.wsio.ioState ≠ .notOpen := by rcases hs with hs | hs <;> simp [hs]
    have hwrite := h.emit_live (.write w.wsio.wsi (p.bytes.take p.size) n) hw rfl rfl rfl
      (.inr rfl)
    have h1 : Inv (sendHead id p rest wsBuffer n ok w) := by
      unfold sendHead
      split_ifs
      · exact hwrite.sendFailed (by simpa using hs) p ok
      · exact hwrite.sendWritten (by simpa using hs) (by simpa using hq) n ok
      · exact h.sendFailed hs p ok
    obtain ⟨hwsi, -, hst⟩ := sendHead_frame w p rest wsBuffer n ok
    exact h1.reRequest hwsi (by rcases hst with hst | hst <;> rw [hst] <;> simp [hw]) onWritable

theorem Inv.teardown (h : Inv w) (hs : w.wsio.ioState ≠ .notOpen)
    (hq : w.wsio.pendingIoList = []) :
    Inv ((w.emit (.contextDestroy w.wsio.wsContext)).setIoState .notOpen) := by
  obtain ⟨c, hc, -, hl⟩ := h.one_live hs
  have hlc : c ∈ createdContexts w.trace ∧ some c ∉ destroyedContexts w.trace := (hl c).mpr rfl
  refine ⟨by simp, fun _ => by simpa using hq, fun _ c' ⟨h1, h2⟩ => ?_, by simp, ?_, ?_, ?_, ?_,
    ?_, ?_, by simpa [Effect.added] using h.added_nodup⟩
  · have : c' ≠ c := by rintro rfl; simp [hc, Effect.destroyed] at h2
    exact this ((hl c').mp ⟨by simpa [Effect.created] using h1, fun h' => h2 (by simp [h'])⟩)
  · simpa [Effect.created] using h.created_fresh
  · simp only [World.setIoState_trace, World.emit_trace, destroyedContexts_append,
      createdContexts_append, destroyedContexts_cons, createdContexts_cons, hc]
    intro c' h'
    simp [Effect.destroyed] at h'
    rcases h' with h' | rfl
    exacts [List.mem_append_left _ (h.destroyed_created c' h'), List.mem_append_left _ hlc.1]
  · intro c'
    simp only [World.setIoState_trace, World.emit_trace, destroyedContexts_append,
      destroyedContexts_cons, hc]
    by_cases hcc : c' = c
    · subst hcc; simp [Effect.destroyed, List.count_eq_zero_of_not_mem hlc.2]
    · simpa [Effect.destroyed, hcc] using h.destroyed_once c'
  · simpa [Effect.destroyed, hc] using h.no_null_destroy
  · exact (targetsLive_append (by simp [Effect.target])).mpr h.targets_live
  · simpa [Effect.added] using h.added_fresh

theorem Inv.established (h : Inv w) : Inv (onClientEstablished id w) := by
  unfold onClientEstablished
  split
  · rename_i hs
    have h1 : Inv (w.setIoState .opened) := h.extend [] (by simp) le_rfl rfl rfl
      (by simp) (.inl rfl) (.inr ⟨by simp [hs], by simp [hs], by simp⟩)
      (fun _ => ⟨rfl, rfl⟩) (by simp)
    exact h1.indicateOpenComplete .ok
  · exact h.indicateError

theorem Inv.connectionError (h : Inv w) : Inv (onClientConnectionError id w) := by
  unfold onClientConnectionError
  split
  · rename_i hs
    simpa using (h.indicateOpenComplete .error).teardown (by simp [hs])
      (by simpa using h.queue_empty (.inr hs))
  · exact h.indicateError

theorem Inv.certs (h : Inv w) (bio : Bool) (puts : Int) (certs : List (Nat × Bool)) :
    Inv (onLoadExtraClientVerifyCerts bio puts certs w) := by
  obtain ⟨es, he, hes⟩ := onLoadExtraClientVerifyCerts_log bio puts certs w
  rw [he]
  exact h.log fun e he => by
    rcases hes e he with rfl | rfl | ⟨c, rfl⟩ <;> exact ⟨rfl, rfl, rfl, rfl⟩

theorem Inv.callback (h : Inv w) (e : LwsEvent) : Inv (onWsCallback id e w) := by
  have h1 := h.emit (.delivered e.reason) ⟨rfl, rfl, rfl, rfl⟩
  unfold onWsCallback
  cases e with
  | clientEstablished => exact h1.established
  | clientConnectionError => exact h1.connectionError
  | clientWriteable wsBuffer n ok onWritable => exact h1.writeable wsBuffer n ok onWritable
  | clientReceive bytes => exact h1.emit _ ⟨rfl, rfl, rfl, rfl⟩
  | loadExtraClientVerifyCerts bio puts certs => exact h1.certs bio puts certs
  | other => exact h1

theorem Inv.dowork (h : Inv w) (hd : Handle) (events : List LwsEvent) :
    Inv (wsioDowork id hd events w) := by
  unfold wsioDowork
  split
  · exact h
  · split
    · rename_i hs
      have h1 := h.emit_live (.service w.wsio.wsContext)
        (by rcases hs with hs | hs <;> simp [hs]) rfl rfl rfl (.inl rfl)
      generalize w.emit (.service w.wsio.wsContext) = w1 at h1 ⊢
      induction events generalizing w1 with
      | nil => exact h1
      | cons e events ih => exact ih _ (h1.callback e)
    · exact h

theorem Inv.send (h : Inv w) (hd : Handle) (b : Option (List UInt8)) (n : Nat)
    (cb : Option Nat) (ctx : Nat) (r : SendReplies) : Inv (wsioSend hd b n cb ctx r w) := by
  rcases wsioSend_cases w hd b n cb ctx r with
    ⟨k, -, -, he⟩ | ⟨buf, -, -, he⟩ | ⟨buf, -, -, -, hs, he⟩ <;> rw [he]
  · exact h.emit _ ⟨rfl, rfl, rfl, rfl⟩
  · exact h.extend _ rfl (by simp) rfl rfl (by simp [Effect.target]) (.inl (by simp [Effect.added]))
      (.refl _) (fun _ => ⟨rfl, rfl⟩) fun _ => id
  · obtain ⟨c, -, hw, hl⟩ := h.one_live (by simp [hs])
    refine h.extend _ rfl (by simp) rfl rfl ?_
      (.inr ⟨by simp [Effect.added, newPendingIo], by simp⟩) (.refl _)
      (fun _ => ⟨rfl, rfl⟩) (by simp [hs])
    simp only [List.mem_cons, List.mem_singleton, List.not_mem_nil, or_false]
    rintro e (rfl | rfl | rfl) t ht <;> simp [Effect.target] at ht
    exact ⟨c, ht ▸ hw, (hl c).mpr rfl⟩

theorem Inv.next_not_created (h : Inv w) : w.next ∉ createdContexts w.trace :=
  fun hc => lt_irrefl _ (h.created_fresh _ hc)

theorem Inv.next_not_destroyed (h : Inv w) : some w.next ∉ destroyedContexts w.trace :=
  fun hd => h.next_not_created (h.destroyed_created _ hd)

theorem Inv.live_create (h : Inv w) (hs : w.wsio.ioState = .notOpen) {es : List Effect}
    (hc : createdContexts es = [w.next]) (hd : destroyedContexts es = []) (c : Nat) :
    Live (w.trace ++ es) c ↔ c = w.next := by
  have hl := h.none_live hs c
  simp only [Live, createdContexts_append, destroyedContexts_append, hc, hd, List.append_nil,
    List.mem_append, List.mem_singleton] at hl ⊢
  constructor
  · rintro ⟨h1 | h1, h2⟩
    exacts [absurd ⟨h1, h2⟩ hl, h1]
  · rintro rfl
    exact ⟨.inr rfl, h.next_not_destroyed⟩

theorem Inv.books_create (h : Inv w) (es : List Effect) {n' : Nat} (hn : w.next < n')
    (hc : createdContexts es = [w.next])
    (hd : destroyedContexts es = [] ∨ destroyedContexts es = [some w.next])
    (ht : ∀ e ∈ es, e.target = none) (ha : addedIos es = []) :
    (∀ c ∈ createdContexts (w.trace ++ es), c < n') ∧
    (∀ c, some c ∈ destroyedContexts (w.trace ++ es) → c ∈ createdContexts (w.trace ++ es)) ∧
    (∀ c, (destroyedContexts (w.trace ++ es)).count (some c) ≤ 1) ∧
    none ∉ destroyedContexts (w.trace ++ es) ∧ TargetsLive (w.trace ++ es) ∧
    (∀ p ∈ addedIos (w.trace ++ es), p.io < n') ∧
    ((addedIos (w.trace ++ es)).map (·.io)).Nodup := by
  simp only [createdContexts_append, destroyedContexts_append, addedIos_append, hc, ha,
    List.append_nil, List.mem_append, List.mem_singleton]
  refine ⟨?_, ?_, ?_, ?_, (targetsLive_append ht).mpr h.targets_live,
    fun p hp => (h.added_fresh p hp).trans hn, h.added_nodup⟩
  · rintro c (hc' | rfl)
    exacts [(h.created_fresh c hc').trans hn, hn]
  · intro c hc'
    rcases hd with hd | hd <;> simp only [hd, List.mem_append, List.mem_singleton,
      List.not_mem_nil, or_false, Option.some.injEq] at hc'
    · exact .inl (h.destroyed_created c hc')
    · rcases hc' with hc' | rfl
      exacts [.inl (h.destroyed_created c hc'), .inr rfl]
  · intro c
    rcases hd with hd | hd
    · simpa [hd] using h.destroyed_once c
    · by_cases hcn : c = w.next
      · subst hcn; simp [hd, List.count_eq_zero_of_not_mem h.next_not_destroyed]
      · simpa [hd, hcn] using h.destroyed_once c
  · rcases hd with hd | hd <;> simpa [hd] using h.no_null_destroy

theorem Inv.open (h : Inv w) (hd : Handle) (oc ob oe : Option Nat) (ctx : Nat)
    (r : OpenReplies) : Inv (wsioOpen id hd oc ob oe ctx r w) := by
  rcases wsioOpen_cases w hd oc ob oe ctx r with
    ⟨k, -, -, he⟩ | ⟨-, hs, he⟩ | ⟨-, hs, he⟩ | ⟨-, hs, he⟩ <;> rw [he]
  · exact h.emit _ ⟨rfl, rfl, rfl, rfl⟩
  · exact h.extend _ rfl le_rfl rfl rfl (by simp [Effect.target]) (.inl (by simp [Effect.added]))
      (.refl _) (fun h' => (h' hs).elim) fun _ => id
  · obtain ⟨h1, h2, h3, h4, h5, h6, h7⟩ := h.books_create [.createContext (some w.next),
      connectEntry w.next w.wsio, .contextDestroy (some w.next), .opened oc ctx 606]
      (Nat.lt_succ_self _) (by simp [Effect.created, connectEntry])
      (.inr (by simp [Effect.destroyed, connectEntry])) (by simp [Effect.target, connectEntry])
      (by simp [Effect.added, connectEntry])
    refine ⟨by simp [hs], fun _ => by simpa using h.queue_empty (.inl hs), fun _ c hl => ?_,
      by simp [hs], h1, h2, h3, h4, h5, h6, h7⟩
    have hn := h.none_live hs c
    simp [Live, Effect.created, Effect.destroyed, connectEntry] at hl hn
    obtain ⟨h1 | rfl, h2, h3⟩ := hl
    exacts [h2 (hn h1), h3 rfl]
  · obtain ⟨h1, h2, h3, h4, h5, h6, h7⟩ := h.books_create [.createContext (some w.next),
      connectEntry w.next w.wsio, .opened oc ctx 0]
      (Nat.lt_succ_self _) (by simp [Effect.created, connectEntry])
      (.inl (by simp [Effect.destroyed, connectEntry])) (by simp [Effect.target, connectEntry])
      (by simp [Effect.added, connectEntry])
    refine ⟨by simp, fun _ => by simpa using h.queue_empty (.inl hs), by simp,
      fun _ => ⟨w.next, rfl, rfl, h.live_create hs (by simp [Effect.created, connectEntry])
        (by simp [Effect.destroyed, connectEntry])⟩, h1, h2, h3, h4, h5, h6, h7⟩

theorem Inv.finishClose (h : Inv w) (hs : w.wsio.ioState ≠ .notOpen)
    (hq : w.wsio.pendingIoList = []) (cb : Option Nat) (ctx : Nat) :
    Inv (finishClose id cb ctx w) := by
  have hc : ∀ e ∈ closeLog cb ctx, Quiet e := forall_mem_callbackLog fun _ => ⟨rfl, rfl, rfl, rfl⟩
  rw [finishClose_id, World.log_append]
  exact ((h.teardown hs hq).log hc).emit _ ⟨rfl, rfl, rfl, rfl⟩

theorem Inv.drain (h : Inv w) {removes : List Bool} {w' : World}
    (hd : drainPendingIo id removes w = some w') :
    Inv w' ∧ w'.wsio.ioState = w.wsio.ioState ∧ w'.wsio.pendingIoList = [] := by
  induction removes generalizing w with
  | nil =>
    cases hq : w.wsio.pendingIoList with
    | nil => rw [drainPendingIo_empty id hq] at hd; cases hd; exact ⟨h, rfl, hq⟩
    | cons p ps => rw [drainPendingIo_exhausted id hq] at hd; cases hd
  | cons r removes ih =>
    cases hq : w.wsio.pendingIoList with
    | nil => rw [drainPendingIo_empty id hq] at hd; cases hd; exact ⟨h, rfl, hq⟩
    | cons p ps =>
      rw [drainPendingIo_head id r hq] at hd
      have hc : Inv (cancelPendingIo id p r w) := (h.indicateSendComplete p .cancelled).listRemove p.io r
      obtain ⟨h1, h2, h3⟩ := ih hc hd
      exact ⟨h1, by simpa [cancelPendingIo] using h2, h3⟩

theorem Inv.close (h : Inv w) (hd : Handle) (cb : Option Nat) (ctx : Nat)
    {removes : List Bool} {w' : World} (hc : wsioClose id hd cb ctx removes w = some w') :
    Inv w' := by
  unfold wsioClose at hc
  split at hc
  · cases hc; exact h.emit _ ⟨rfl, rfl, rfl, rfl⟩
  · split_ifs at hc with hs hs'
    · cases hc; exact h.emit _ ⟨rfl, rfl, rfl, rfl⟩
    · cases hc
      exact (h.indicateOpenComplete .cancelled).finishClose (by simp [hs'])
        (by simpa using h.queue_empty (.inr hs')) cb ctx
    · obtain ⟨w1, hw1, rfl⟩ := Option.map_eq_some'.mp hc
      obtain ⟨h1, h2, h3⟩ := h.drain hw1
      exact h1.finishClose (by simp [h2, hs]) h3 cb ctx

end Steps

theorem Inv.init {config : Option WsioConfig} {r : CreateReplies} {i : WsioInstance}
    (h : (wsioCreate config r).1 = some i) : Inv (World.init i) := by
  obtain ⟨c, -, -, -, -, hi, -⟩ := wsioCreate_some h
  rw [hi]
  constructor <;> simp [World.init, createdInstance, Live, targetsLive_nil]

theorem Reachable.inv {w : World} (h : Reachable id w) : Inv w := by
  induction h with
  | create hc => exact Inv.init hc
  | step c _ hc ih =>
    cases c with
    | wsioOpen hd oc ob oe ctx r => cases hc; exact ih.open hd oc ob oe ctx r
    | wsioClose hd cb ctx removes => exact ih.close hd cb ctx hc
    | wsioSend hd b n cb ctx r => cases hc; exact ih.send hd b n cb ctx r
    | wsioDowork hd events => cases hc; exact ih.dowork hd events

/-- Induction over the worlds reachable while callbacks return, one case per API call and one
per engine event, each with the lifecycle invariant before it. -/
theorem Reachable.induction {P : World → Prop}
    (hinit : ∀ {config r i}, (wsioCreate config r).1 = some i → P (World.init i))
    (hopen : ∀ w hd oc ob oe ctx r, Inv w → P w → P (wsioOpen id hd oc ob oe ctx r w))
    (hclose : ∀ w w' hd cb ctx removes, Inv w → P w →
      wsioClose id hd cb ctx removes w = some w' → P w')
    (hsend : ∀ w hd b n cb ctx r, P w → P (wsioSend hd b n cb ctx r w))
    (hservice : ∀ w, w.wsio.ioState ≠ .notOpen → P w → P (w.emit (.service w.wsio.wsContext)))
    (hcallback : ∀ w e, Inv w → P w → P (onWsCallback id e w))
    {w : World} (hw : Reachable id w) : P w := by
  induction hw with
  | create hc => exact hinit hc
  | step c hw hc ih =>
    have hi := hw.inv
    cases c with
    | wsioOpen hd oc ob oe ctx r => cases hc; exact hopen _ hd oc ob oe ctx r hi ih
    | wsioClose hd cb ctx removes => exact hclose _ _ hd cb ctx removes hi ih hc
    | wsioSend hd b n cb ctx r => cases hc; exact hsend _ hd b n cb ctx r ih
    | wsioDowork hd events =>
      cases hc
      unfold wsioDowork
      split
      · exact ih
      split
      · rename_i w0 _ hs
        have hs' : w0.wsio.ioState ≠ .notOpen := by rcases hs with hs | hs <;> simp [hs]
        have h1 := hservice _ hs' ih
        have hi1 := hi.emit_live (.service w0.wsio.wsContext) hs' rfl rfl rfl (.inl rfl)
        generalize w0.emit (.service w0.wsio.wsContext) = w1 at h1 hi1 ⊢
        induction events generalizing w1 with
        | nil => exact h1
        | cons e events ih' => exact ih' _ (hcallback _ e hi1 h1) (hi1.callback e)
      · exact ih

/-- The queue and context lifecycle of every reachable world: one live context exactly while not
NOT_OPEN, engine calls on live contexts, every context destroyed once by `wsio_destroy`. -/
theorem reachable_lifecycle {w : World} (hw : Reachable id w) :
    (w.wsio.ioState = .notOpen ∨ w.wsio.ioState = .opening → w.wsio.pendingIoList = []) ∧
    (w.wsio.ioState ≠ .notOpen →
      ∃ c, w.wsio.wsContext = some c ∧ ∀ c', Live w.trace c' ↔ c' = c) ∧
    (w.wsio.ioState = .notOpen → ∀ c, ¬ Live w.trace c) ∧
    TargetsLive w.trace ∧
    ∀ removes w', wsioDestroy id .wsio removes w = some w' →
      ∀ c ∈ createdContexts w'.trace, (destroyedContexts w'.trace).count (some c) = 1 := by
  have h := hw.inv
  refine ⟨h.queue_empty, fun hs => ?_, h.none_live, h.targets_live, fun removes w' hd c hc => ?_⟩
  · obtain ⟨c, h1, -, h2⟩ := h.one_live hs
    exact ⟨c, h1, h2⟩
  · obtain ⟨w1, hc1, rfl⟩ := Option.map_eq_some'.mp hd
    have h' : Inv (w1.log ((destroyFrees w1.wsio).map .free)) :=
      (hw.step (.wsioClose .wsio none 0 removes) hc1).inv.log
        (by simp [Quiet, Effect.created, Effect.destroyed, Effect.target, Effect.added])
    have hd' : some c ∈ destroyedContexts (w1.log ((destroyFrees w1.wsio).map .free)).trace := by
      by_contra hn
      exact h'.none_live (by simpa using wsioClose_notOpen _ hc1) c ⟨hc, hn⟩
    exact le_antisymm (h'.destroyed_once c) (List.count_pos_iff.mpr hd')

/-- An open, its ESTABLISHED, a send and its write: context 0 is the one live context and every
engine call reached it; the destroy that follows destroys it once. -/
theorem reachable_lifecycle_open_send_destroy :
    (let cs := [Call.wsioOpen .wsio (some 1) (some 2) (some 3) 4 ⟨true, true⟩,
      .wsioDowork .wsio [.clientEstablished],
      .wsioSend .wsio (some [7]) 1 (some 6) 7 ⟨true, true, true, 0⟩,
      .wsioDowork .wsio [.clientWriteable true 1 true 0]]
    let w := (Call.run id cs (World.init sampleInstance)).getD (World.init sampleInstance)
    let w' := (wsioDestroy id .wsio [] w).getD w
    w.wsio.ioState = .opened ∧ (∃ c, w.wsio.wsContext = some c ∧ ∀ c', Live w.trace c' ↔ c' = c) ∧
      TargetsLive w.trace ∧ createdContexts w'.trace = [0] ∧
      (destroyedContexts w'.trace).count (some 0) = 1) := by
  intro cs w w'
  have hw : Reachable id w := (Reachable.create wsioCreate_sampleConfig).run
    (show Call.run id cs (World.init sampleInstance) = some w from rfl)
  have hs : w.wsio.ioState = .opened := rfl
  obtain ⟨-, h2, -, h4, h5⟩ := reachable_lifecycle hw
  exact ⟨hs, h2 (by simp [hs]), h4, rfl, h5 [] w' rfl 0 (by decide)⟩

end Wsio
