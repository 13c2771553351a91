import Wsio.Basic

/-! # The event dispatcher

`on_ws_callback` and the helpers it shares with the API: invoking the caller's
callbacks, releasing a pending write, and one handler per engine event. After every
callback it invokes, and inside `lws_context_destroy`, control passes to `reenter`: what
the caller's code, or the engine, does before control comes back. A caller whose
callbacks never call back into the instance is `reenter = id`.
-/

namespace Wsio

section Handlers

variable (reenter : World → World)

/-- `indicate_error`. -/
def indicateError (w : World) : World :=
  match w.wsio.onIoError with
  | some cb => reenter (w.emit (.ioError cb w.wsio.openCallbackContext))
  | none => w

/-- `indicate_open_complete`. -/
def indicateOpenComplete (openResult : IoOpenResult) (w : World) : World :=
  match w.wsio.onIoOpenComplete with
  | some cb => reenter (w.emit (.openComplete cb w.wsio.openCallbackContext openResult))
  | none => w

/-- A pending write's `on_send_complete`, invoked unless it is NULL. -/
def indicateSendComplete (p : PendingSocketIo) (sendResult : IoSendResult) (w : World) :
    World :=
  match p.onSendComplete with
  | some cb => reenter (w.emit (.sendComplete p.io cb p.callbackContext sendResult))
  | none => w

/-- `lws_context_destroy`, inside which the engine may deliver events. -/
def lwsContextDestroy (context : Option Nat) (w : World) : World :=
  reenter (w.emit (.contextDestroy context))

/-- `list_remove` on `pending_io_list`: on success the item leaves the list. -/
def listRemove (io : Nat) (ok : Bool) (w : World) : World :=
  let w := w.emit (.listRemove io ok)
  if ok then w.modify fun i => { i with pendingIoList := i.pendingIoList.eraseP (·.io == io) }
  else w

section ListRemove

variable (io : Nat) (ok : Bool) (w : World)

@[simp] theorem listRemove_wsio :
    (listRemove io ok w).wsio = { w.wsio with pendingIoList :=
      (if ok then w.wsio.pendingIoList.eraseP (·.io == io) else w.wsio.pendingIoList) } := by
  unfold listRemove; split <;> simp_all [World.modify]

@[simp] theorem listRemove_trace :
    (listRemove io ok w).trace = w.trace ++ [.listRemove io ok] := by
  unfold listRemove; split <;> rfl

@[simp] theorem listRemove_next : (listRemove io ok w).next = w.next := by
  unfold listRemove; split <;> rfl

end ListRemove

/-- `remove_pending_io`: release the record and take it off the list; a failed
`list_remove` puts the instance in ERROR. -/
def removePendingIo (p : PendingSocketIo) (removed : Bool) (w : World) : World :=
  let w := listRemove p.io removed w
  if removed then w else indicateError reenter (w.setIoState .error)

/-- The two failure branches of CLIENT_WRITEABLE, an unallocated framing buffer and a
negative `lws_write`, which share one body. -/
def sendFailed (p : PendingSocketIo) (removed : Bool) (w : World) : World :=
  let w := indicateSendComplete reenter p .error w
  let w := if p.isPartiallySent then indicateError reenter (w.setIoState .error) else w
  removePendingIo reenter p removed w

/-- `memmove(bytes, bytes + n, size - n)` on a buffer of `size` bytes. -/
def memmoveDown (bytes : List UInt8) (n size : Nat) : List UInt8 :=
  (bytes.drop n).take (size - n) ++ bytes.drop (size - n)

/-- CLIENT_WRITEABLE once `lws_write` accepted `written ≥ 0` bytes of the head: a short write
shifts the buffer in place, a whole one reports IO_SEND_OK and releases the record. -/
def sendWritten (p : PendingSocketIo) (rest : List PendingSocketIo) (written : Int)
    (removed : Bool) (w : World) : World :=
  if written.toNat < p.size then
    w.modify fun i =>
      { i with
        pendingIoList := { p with bytes := memmoveDown p.bytes written.toNat p.size } :: rest }
  else removePendingIo reenter p removed (indicateSendComplete reenter p .ok w)

/-- The send branches of CLIENT_WRITEABLE on the head `p`: `lws_write` of `size` bytes once
the framing buffer is allocated, then a failure, a short write or a whole one. -/
def sendHead (p : PendingSocketIo) (rest : List PendingSocketIo) (wsBuffer : Bool)
    (written : Int) (removed : Bool) (w : World) : World :=
  if wsBuffer then
    let w := w.emit (.write w.wsio.wsi (p.bytes.take p.size) written)
    if written < 0 then sendFailed reenter p removed w
    else sendWritten reenter p rest written removed w
  else sendFailed reenter p removed w

/-- LWS_CALLBACK_CLIENT_WRITEABLE on connection `wsi`: send the head of
`pending_io_list`, then ask to be called again while writes are left. -/
def onClientWriteable (wsi : Option Nat) (wsBuffer : Bool) (written : Int) (removed : Bool)
    (onWritable : Int) (w : World) : World :=
  match w.wsio.pendingIoList with
  | [] => w
  | p :: rest =>
    let w := sendHead reenter p rest wsBuffer written removed w
    if w.wsio.pendingIoList = [] then w else w.emit (.callbackOnWritable wsi onWritable)

/-- LWS_CALLBACK_CLIENT_RECEIVE: the payload goes to `on_bytes_received`, unchecked. -/
def onClientReceive (bytes : List UInt8) (w : World) : World :=
  reenter (w.emit (.bytesReceived w.wsio.onBytesReceived w.wsio.openCallbackContext bytes))

/-- LWS_CALLBACK_CLIENT_ESTABLISHED. -/
def onClientEstablished (w : World) : World :=
  match w.wsio.ioState with
  | .opening => indicateOpenComplete reenter .ok (w.setIoState .opened)
  | _ => indicateError reenter w

/-- LWS_CALLBACK_CLIENT_CONNECTION_ERROR. -/
def onClientConnectionError (w : World) : World :=
  match w.wsio.ioState with
  | .opening =>
    let w := indicateOpenComplete reenter .error w
    (lwsContextDestroy reenter w.wsio.wsContext w).setIoState .notOpen
  | _ => indicateError reenter w

end Handlers

/-- `strlen`; a NULL string has no length, and the model takes 0. -/
def strlen : Option String → Nat
  | some s => s.utf8ByteSize
  | none => 0

/-- The `PEM_read_bio_X509` loop: each certificate read goes to `X509_STORE_add_cert`,
until the reads run out or the store refuses one. -/
def addCertificates : List (Nat × Bool) → World → World
  | [], w => w
  | (cert, added) :: certs, w =>
    let w := w.emit (.storeAddCert cert)
    if added then addCertificates certs w else w

/-- LWS_CALLBACK_OPENSSL_LOAD_EXTRA_CLIENT_VERIFY_CERTS: load `trusted_ca` into the
verification store. -/
def onLoadExtraClientVerifyCerts (bio : Bool) (puts : Int) (certs : List (Nat × Bool))
    (w : World) : World :=
  if bio then
    let w := (w.emit (.bioPuts w.wsio.trustedCa)).emit (.strlen w.wsio.trustedCa)
    if puts < strlen w.wsio.trustedCa then w else addCertificates certs w
  else w

/-- The certificate loop only appends `X509_STORE_add_cert` calls. -/
theorem addCertificates_log (certs : List (Nat × Bool)) (w : World) :
    ∃ es, addCertificates certs w = w.log es ∧ ∀ e ∈ es, ∃ c, e = .storeAddCert c := by
  induction certs generalizing w with
  | nil => exact ⟨[], by simp [addCertificates, World.log], by simp⟩
  | cons c certs ih =>
    obtain ⟨cert, added⟩ := c
    obtain ⟨es, he, hes⟩ := ih (w.emit (.storeAddCert cert))
    simp only [addCertificates]
    split
    · refine ⟨.storeAddCert cert :: es, by rw [he]; simp [World.log, World.emit], ?_⟩
      simpa using hes
    · exact ⟨[.storeAddCert cert], rfl, by simp⟩

/-- LOAD_EXTRA_CLIENT_VERIFY_CERTS only appends the `BIO_puts`, `strlen` and
`X509_STORE_add_cert` calls. -/
theorem onLoadExtraClientVerifyCerts_log (bio : Bool) (puts : Int) (certs : List (Nat × Bool))
    (w : World) : ∃ es, onLoadExtraClientVerifyCerts bio puts certs w = w.log es ∧
      ∀ e ∈ es, e = .bioPuts w.wsio.trustedCa ∨ e = .strlen w.wsio.trustedCa ∨
        ∃ c, e = .storeAddCert c := by
  simp only [onLoadExtraClientVerifyCerts]
  split_ifs
  · exact ⟨[.bioPuts w.wsio.trustedCa, .strlen w.wsio.trustedCa], by simp [World.log, World.emit],
      by simp⟩
  · obtain ⟨es, he, hes⟩ := addCertificates_log certs
      ((w.emit (.bioPuts w.wsio.trustedCa)).emit (.strlen w.wsio.trustedCa))
    refine ⟨.bioPuts w.wsio.trustedCa :: .strlen w.wsio.trustedCa :: es,
      by rw [he]; simp [World.log, World.emit], ?_⟩
    simp only [List.mem_cons, forall_eq_or_imp, true_or, or_true, true_and]
    exact fun e he => .inr (.inr (hes e he))
  · exact ⟨[], by simp [World.log], by simp⟩

/-- `on_ws_callback`, for an event on the instance's connection. -/
def onWsCallback (reenter : World → World) (e : LwsEvent) (w : World) : World :=
  let wsi := w.wsio.wsi
  let w := w.emit (.delivered e.reason)
  match e with
  | .clientEstablished => onClientEstablished reenter w
  | .clientConnectionError => onClientConnectionError reenter w
  | .clientWriteable wsBuffer written removed onWritable =>
    onClientWriteable reenter wsi wsBuffer written removed onWritable w
  | .clientReceive bytes => onClientReceive reenter bytes w
  | .loadExtraClientVerifyCerts bio puts certs => onLoadExtraClientVerifyCerts bio puts certs w
  | .other => w

end Wsio
