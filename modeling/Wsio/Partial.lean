import Wsio.Flat

/-! # Partial sends

A CLIENT_WRITEABLE round in which `lws_write` accepts fewer bytes than the head write's
`size` shifts the unsent bytes down in place, but leaves `size` and `is_partially_sent`
as `add_pending_io` set them. Every later round therefore passes `size` bytes again, the
stale tail included; the write is reported IO_SEND_OK only by a round that accepts `size`
bytes at once; and a failure after short rounds is handled as a failure of a write none of
whose bytes were sent.
-/

namespace Wsio

section Rounds

variable {w : World} {p : PendingSocketIo} {rest : List PendingSocketIo}

theorem onWsCallback_short (hq : w.wsio.pendingIoList = p :: rest) {n : Int}
    (hn : 0 ≤ n ∧ n.toNat < p.size) (removed : Bool) (onWritable : Int) :
    onWsCallback id (.clientWriteable true n removed onWritable) w =
      ((((w.emit (.delivered .clientWriteable)).emit
        (.write w.wsio.wsi (p.bytes.take p.size) n)).modify fun i =>
          { i with
            pendingIoList := { p with bytes := memmoveDown p.bytes n.toNat p.size } :: rest }).emit
        (.callbackOnWritable w.wsio.wsi onWritable)) := by
  have h0 : ¬ n < 0 := Int.not_lt.mpr hn.1
  simp [onWsCallback, onClientWriteable, hq, sendHead, sendWritten_id, h0, hn.2, LwsEvent.reason]

/-- The buffer a write holds after short rounds accepting `ns`. -/
def shifted (p : PendingSocketIo) (ns : List Int) : List UInt8 :=
  ns.foldl (fun b n => memmoveDown b n.toNat p.size) p.bytes

/-- Short rounds keep the head at the head with its buffer shifted and its size, pass
`lws_write` its first `size` bytes each time, and report nothing. -/
theorem short_rounds (hq : w.wsio.pendingIoList = p :: rest) (ns : List Int)
    (hns : ∀ n ∈ ns, 0 ≤ n ∧ n.toNat < p.size) (removed : Bool) (onWritable : Int) :
    let w' := (ns.map fun n => LwsEvent.clientWriteable true n removed onWritable).foldl
      (fun w e => onWsCallback id e w) w
    w'.wsio.pendingIoList = { p with bytes := shifted p ns } :: rest ∧
      reports w'.trace = reports w.trace ∧ ioErrors w'.trace = ioErrors w.trace ∧
      w'.wsio.ioState = w.wsio.ioState ∧
      writes w'.trace = writes w.trace ++
        ((ns.scanl (fun b n => memmoveDown b n.toNat p.size) p.bytes).dropLast.map
          (·.take p.size)) := by
  induction ns generalizing w p with
  | nil => simp [hq, shifted]
  | cons n ns ih =>
    have hn := hns n (List.mem_cons_self _ _)
    let p' : PendingSocketIo := { p with bytes := memmoveDown p.bytes n.toNat p.size }
    have h1 := ih (w := (((w.emit (.delivered .clientWriteable)).emit
      (.write w.wsio.wsi (p.bytes.take p.size) n)).modify fun i =>
        { i with pendingIoList := p' :: rest }).emit (.callbackOnWritable w.wsio.wsi onWritable))
      (p := p') rfl (fun m hm => hns m (List.mem_cons_of_mem _ hm))
    simp only [List.map_cons, List.foldl_cons, onWsCallback_short hq hn]
    refine ⟨h1.1, ?_, ?_, ?_, ?_⟩
    · simpa [Effect.isReport] using h1.2.1
    · simpa [Effect.errorCall] using h1.2.2.1
    · simpa using h1.2.2.2.1
    · rw [h1.2.2.2.2]
      cases ns <;> simp [p', Effect.written, List.scanl]

/-- A failing round on a head not marked partially sent reports IO_SEND_ERROR for it and takes
it off the queue, without `on_io_error` or a change of `io_state`. -/
theorem failed_round (hq : w.wsio.pendingIoList = p :: rest) (hp : p.isPartiallySent = false)
    {wsBuffer : Bool} {n : Int} (hf : wsBuffer = false ∨ n < 0) (onWritable : Int) :
    let w' := onWsCallback id (.clientWriteable wsBuffer n true onWritable) w
    w'.wsio.pendingIoList = rest ∧ reports w'.trace = reports w.trace ++ sendLog p .error ∧
      ioErrors w'.trace = ioErrors w.trace ∧ w'.wsio.ioState = w.wsio.ioState := by
  have hr : (p :: rest).eraseP (·.io == p.io) = rest := by simp
  have he : ioErrors (sendLog p .error) = [] := filterMap_callbackLog fun _ => rfl
  rcases hf with rfl | hn
  all_goals
    simp only [onWsCallback, onClientWriteable, World.emit_wsio, hq, sendHead, sendFailed_id]
    split_ifs <;> simp_all [release, Effect.isReport, Effect.errorCall, Effect.written]

/-- Short rounds, then a failing round: the one report is IO_SEND_ERROR for the write, which
leaves the queue, with `io_state` unchanged and no `on_io_error`. -/
theorem short_rounds_then_failure (hq : w.wsio.pendingIoList = p :: rest)
    (hp : p.isPartiallySent = false) (ns : List Int) (hns : ∀ n ∈ ns, 0 ≤ n ∧ n.toNat < p.size)
    {wsBuffer : Bool} {n : Int} (hf : wsBuffer = false ∨ n < 0) (onWritable : Int) :
    (let w' := (ns.map (fun n => LwsEvent.clientWriteable true n true onWritable) ++
      [LwsEvent.clientWriteable wsBuffer n true onWritable]).foldl
        (fun w e => onWsCallback id e w) w
    w'.wsio.pendingIoList = rest ∧ reports w'.trace = reports w.trace ++ sendLog p .error ∧
      ioErrors w'.trace = ioErrors w.trace ∧ w'.wsio.ioState = w.wsio.ioState) := by
  obtain ⟨h1, h2, h3, h4, -⟩ := short_rounds hq ns hns true onWritable
  obtain ⟨h5, h6, h7, h8⟩ := failed_round h1 hp hf onWritable
  simp only [List.foldl_append, List.foldl_cons, List.foldl_nil]
  exact ⟨h5, h6.trans (by rw [h2]; rfl), h7.trans h3, h8.trans h4⟩

/-- Five bytes of a 30-byte write accepted, then a negative `lws_write`. -/
theorem short_rounds_then_failure_thirty :
    let w := (Call.run id [.wsioOpen .wsio (some 1) (some 2) (some 3) 4 ⟨true, true⟩,
      .wsioDowork .wsio [.clientEstablished],
      .wsioSend .wsio (some ((List.range 30).map Nat.toUInt8)) 30 (some 5) 6 ⟨true, true, true, 0⟩]
      (World.init sampleInstance)).getD (World.init sampleInstance)
    let p := newPendingIo 1 ((List.range 30).map Nat.toUInt8) 30 (some 5) 6
    let w' := ([5].map (fun n => LwsEvent.clientWriteable true n true 0) ++
      [LwsEvent.clientWriteable true (-1) true 0]).foldl (fun w e => onWsCallback id e w) w
    w'.wsio.pendingIoList = [] ∧ reports w'.trace = reports w.trace ++ sendLog p .error ∧
      ioErrors w'.trace = ioErrors w.trace ∧ w'.wsio.ioState = w.wsio.ioState :=
  short_rounds_then_failure (by decide) rfl [5] (by decide) (.inr (by decide)) 0

end Rounds

/-- A 30-byte write accepted as 10 then 20 bytes: round two passes bytes 10 to 29 and the stale
bytes 20 to 29, no IO_SEND_OK follows, and the write stays queued. -/
theorem thirty_bytes_in_two_rounds :
    ∃ w, Call.run id [.wsioOpen .wsio (some 1) (some 2) (some 3) 4 ⟨true, true⟩,
      .wsioDowork .wsio [.clientEstablished],
      .wsioSend .wsio (some ((List.range 30).map Nat.toUInt8)) 30 (some 5) 6 ⟨true, true, true, 0⟩,
      .wsioDowork .wsio [.clientWriteable true 10 true 0],
      .wsioDowork .wsio [.clientWriteable true 20 true 0]] (World.init sampleInstance) = some w ∧
      writes w.trace = [(List.range 30).map Nat.toUInt8,
        (List.range' 10 20).map Nat.toUInt8 ++ (List.range' 20 10).map Nat.toUInt8] ∧
      completions w.trace = [] ∧ w.wsio.pendingIoList.map (·.size) = [30] :=
  ⟨_, rfl, by decide, by decide, by decide⟩

/-- A write failing after 5 of its 30 bytes: IO_SEND_ERROR once, but the instance stays OPEN
without `on_io_error`, and the next `wsio_send` returns 0. -/
theorem failure_after_five_bytes_stays_open :
    ∃ w, Call.run id [.wsioOpen .wsio (some 1) (some 2) (some 3) 4 ⟨true, true⟩,
      .wsioDowork .wsio [.clientEstablished],
      .wsioSend .wsio (some ((List.range 30).map Nat.toUInt8)) 30 (some 5) 6 ⟨true, true, true, 0⟩,
      .wsioDowork .wsio [.clientWriteable true 5 true 0],
      .wsioDowork .wsio [.clientWriteable true (-1) true 0]] (World.init sampleInstance) = some w ∧
      completions w.trace = [(1, 5, 6)] ∧ Effect.sendComplete 1 5 6 .error ∈ w.trace ∧
      w.wsio.ioState = .opened ∧ ioErrors w.trace = [] ∧
      (wsioSend .wsio (some [0]) 1 none 0 ⟨true, true, true, 0⟩ w).trace.getLast? =
        some (.sent 0) :=
  ⟨_, rfl, by decide, by decide, by decide, by decide, by decide⟩

end Wsio
