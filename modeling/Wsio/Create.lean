import Wsio.Basic

/-! # Creating an instance

`wsio_create`: the required configuration fields, the chain of allocations with its
rollback on every failure, and the protocol table later handed to libwebsockets.
Every failed creation releases exactly what it had allocated; a successful one starts
NOT_OPEN with an empty queue, no callbacks and copies of the configuration.
-/

namespace Wsio

/-- An allocation (`amqpalloc_malloc`, `list_create`) or a release (`amqpalloc_free`,
`list_destroy`). -/
inductive HeapOp
  | alloc (b : Block)
  | free (b : Block)
  deriving DecidableEq, Repr

/-- The answers of the allocator and of `list_create` to the calls of `wsio_create`. -/
structure CreateReplies where
  wsioInstance : Bool
  listCreate : Bool
  host : Bool
  relativePath : Bool
  protocolName : Bool
  protocols : Bool
  trustedCa : Bool
  deriving DecidableEq, Repr

/-- The two-entry `lws_protocols` table: the protocol served by `on_ws_callback`, then
an all-NULL terminator. -/
def protocolTable (protocolName : String) : List LwsProtocols :=
  [{ name := some protocolName, callback := true, id := 0, perSessionDataSize := 0,
     rxBufferSize := 0, user := none },
   { name := none, callback := false, id := 0, perSessionDataSize := 0, rxBufferSize := 0,
     user := none }]

/-- The instance `wsio_create` fills in once every allocation succeeded. -/
def createdInstance (c : WsioConfig) (host relativePath protocolName : String) : WsioInstance where
  onBytesReceived := none
  onIoOpenComplete := none
  onIoError := none
  openCallbackContext := 0
  ioState := .notOpen
  pendingIoList := []
  wsContext := none
  wsi := none
  port := c.port
  host := host
  relativePath := relativePath
  protocolName := protocolName
  trustedCa := c.trustedCa
  protocols := protocolTable protocolName
  useSsl := c.useSsl

open HeapOp in
/-- `wsio_create`: the instance or NULL, with the heap operations made on the way. -/
def wsioCreate (config : Option WsioConfig) (r : CreateReplies) :
    Option WsioInstance × List HeapOp :=
  match config with
  | none => (none, [])
  | some c =>
    match c.host, c.protocolName, c.relativePath with
    | some host, some protocolName, some relativePath =>
      if !r.wsioInstance then (none, [])
      else if !r.listCreate then (none, [alloc .wsioInstance, free .wsioInstance])
      else if !r.host then
        (none, [alloc .wsioInstance, alloc .pendingIoList, free .pendingIoList, free .wsioInstance])
      else if !r.relativePath then
        (none, [alloc .wsioInstance, alloc .pendingIoList, alloc .host, free .host,
          free .pendingIoList, free .wsioInstance])
      else if !r.protocolName then
        (none, [alloc .wsioInstance, alloc .pendingIoList, alloc .host, alloc .relativePath,
          free .relativePath, free .host, free .pendingIoList, free .wsioInstance])
      else if !r.protocols then
        (none, [alloc .wsioInstance, alloc .pendingIoList, alloc .host, alloc .relativePath,
          alloc .protocolName, free .relativePath, free .protocolName, free .host,
          free .pendingIoList, free .wsioInstance])
      else
        let made := [alloc .wsioInstance, alloc .pendingIoList, alloc .host, alloc .relativePath,
          alloc .protocolName, alloc .protocols]
        match c.trustedCa with
        | none => (some (createdInstance c host relativePath protocolName), made)
        | some _ =>
          if !r.trustedCa then
            (none, made ++ [free .protocols, free .protocolName, free .relativePath, free .host,
              free .pendingIoList, free .wsioInstance])
          else
            (some (createdInstance c host relativePath protocolName), made ++ [alloc .trustedCa])
    | _, _, _ => (none, [])

/-- The block an operation allocates. -/
def HeapOp.allocated : HeapOp → Option Block
  | .alloc b => some b
  | .free _ => none

/-- The block an operation releases. -/
def HeapOp.freed : HeapOp → Option Block
  | .alloc _ => none
  | .free b => some b

/-- A configuration missing host, protocol name or relative path is refused before any
allocation. -/
theorem wsioCreate_missing (c : WsioConfig) (r : CreateReplies)
    (h : c.host = none ∨ c.protocolName = none ∨ c.relativePath = none) :
    wsioCreate (some c) r = (none, []) := by
  rcases c with ⟨_ | _, _, _ | _, _ | _, _, _⟩ <;> simp_all [wsioCreate]

/-- A failed creation releases exactly the blocks it allocated. -/
theorem wsioCreate_rollback (config : Option WsioConfig) (r : CreateReplies)
    (h : (wsioCreate config r).1 = none) :
    ((wsioCreate config r).2.filterMap HeapOp.allocated).Perm
      ((wsioCreate config r).2.filterMap HeapOp.freed) := by
  generalize hres : wsioCreate config r = res at h ⊢
  unfold wsioCreate at hres
  repeat' split at hres
  all_goals subst hres; first | decide | cases h

/-- A created instance is NOT_OPEN with an empty queue and copies of the configuration, after
six allocations, a seventh for a trusted CA, and no release. -/
theorem wsioCreate_some {config : Option WsioConfig} {r : CreateReplies} {i : WsioInstance}
    (h : (wsioCreate config r).1 = some i) :
    ∃ c, config = some c ∧ c.host = some i.host ∧ c.relativePath = some i.relativePath ∧
      c.protocolName = some i.protocolName ∧
      i = createdInstance c i.host i.relativePath i.protocolName ∧
      (wsioCreate config r).2 = [.alloc .wsioInstance, .alloc .pendingIoList, .alloc .host,
        .alloc .relativePath, .alloc .protocolName, .alloc .protocols] ++
        (c.trustedCa.map fun _ => HeapOp.alloc .trustedCa).toList := by
  generalize hres : wsioCreate config r = res at h ⊢
  unfold wsioCreate at hres
  repeat' split at hres
  all_goals subst hres; cases h
  all_goals exact ⟨_, rfl, ‹_›, ‹_›, ‹_›, rfl, by simp [*]⟩

/-- A configuration with every field but the optional trusted CA. -/
def sampleConfig : WsioConfig :=
  { host := some "host", port := 443, relativePath := some "/", protocolName := some "AMQPWSB10",
    useSsl := true, trustedCa := none }

/-- Every allocation of `wsio_create` succeeds. -/
def allGranted : CreateReplies := ⟨true, true, true, true, true, true, true⟩

/-- The instance `wsio_create` makes of `sampleConfig`. -/
def sampleInstance : WsioInstance := createdInstance sampleConfig "host" "/" "AMQPWSB10"

theorem wsioCreate_sampleConfig :
    (wsioCreate (some sampleConfig) allGranted).1 = some sampleInstance :=
  rfl

end Wsio
