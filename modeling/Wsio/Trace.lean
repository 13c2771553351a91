import Wsio.Basic

/-! # Views of the interaction log

What the log says about the pending writes (appended, removed, completed), about the
engine's contexts (created, destroyed, live), and about the targets of the engine calls
that must reach a live context. Each view reads the log entry by entry, so it maps an
appended log to an appended view.
-/

namespace Wsio

namespace Effect

/-- The record a successful `list_add` appended. -/
def added : Effect → Option PendingSocketIo
  | listAdd p true => some p
  | _ => none

/-- The record a successful `list_remove` took off the list. -/
def removed : Effect → Option Nat
  | listRemove io true => some io
  | _ => none

/-- The write whose `on_send_complete` was invoked, with the callback and its context. -/
def completed : Effect → Option (Nat × Nat × Nat)
  | sendComplete io cb ctx _ => some (io, cb, ctx)
  | _ => none

/-- Whether an entry is a call of `on_send_complete`. -/
def isReport : Effect → Bool
  | sendComplete .. => true
  | _ => false

/-- The context `lws_create_context` returned. -/
def created : Effect → Option Nat
  | createContext (some c) => some c
  | _ => none

/-- The context passed to `lws_context_destroy`. -/
def destroyed : Effect → Option (Option Nat)
  | contextDestroy c => some c
  | _ => none

/-- The bytes passed to `lws_write`. -/
def written : Effect → Option (List UInt8)
  | write _ bytes _ => some bytes
  | _ => none

/-- The `on_io_error` call an entry records, with its context. -/
def errorCall : Effect → Option (Nat × Nat)
  | ioError cb ctx => some (cb, ctx)
  | _ => none

/-- The context or connection an `lws_service`, `lws_write` or `lws_callback_on_writable`
is called on. -/
def target : Effect → Option (Option Nat)
  | service c => some c
  | write wsi _ _ => some wsi
  | callbackOnWritable wsi _ => some wsi
  | _ => none

end Effect

/-- The callback a write reports its completion to, with its context, unless NULL. -/
def PendingSocketIo.completion (p : PendingSocketIo) : Option (Nat × Nat × Nat) :=
  p.onSendComplete.map fun cb => (p.io, cb, p.callbackContext)

/-- What of a record never changes while it is queued: everything but its buffer. -/
def PendingSocketIo.header (p : PendingSocketIo) : PendingSocketIo := { p with bytes := [] }

@[simp] theorem PendingSocketIo.header_io (p : PendingSocketIo) : p.header.io = p.io := rfl

theorem PendingSocketIo.completion_eq_of_header {p q : PendingSocketIo}
    (h : p.header = q.header) : p.completion = q.completion := by
  cases p; cases q; cases h; rfl

section Views

variable (tr : List Effect)

/-- The records appended to `pending_io_list`, in order. -/
def addedIos : List PendingSocketIo := tr.filterMap Effect.added

/-- The records taken off `pending_io_list`, in order. -/
def removedIos : List Nat := tr.filterMap Effect.removed

/-- The `on_send_complete` invocations, in order. -/
def completions : List (Nat × Nat × Nat) := tr.filterMap Effect.completed

/-- The `on_send_complete` calls, each with the result it reports, in order. -/
def reports : List Effect := tr.filter Effect.isReport

/-- The buffers passed to `lws_write`, in order. -/
def writes : List (List UInt8) := tr.filterMap Effect.written

/-- The `on_io_error` calls, in order. -/
def ioErrors : List (Nat × Nat) := tr.filterMap Effect.errorCall

/-- The contexts `lws_create_context` returned. -/
def createdContexts : List Nat := tr.filterMap Effect.created

/-- The arguments of `lws_context_destroy`. -/
def destroyedContexts : List (Option Nat) := tr.filterMap Effect.destroyed

/-- Context `c` was returned by `lws_create_context` and not yet destroyed. -/
def Live (c : Nat) : Prop := c ∈ createdContexts tr ∧ some c ∉ destroyedContexts tr

/-- Every `lws_service`, `lws_write` and `lws_callback_on_writable` of the log was called
on a context, or the connection of a context, live at the time. -/
def TargetsLive : Prop :=
  ∀ pre e post, tr = pre ++ e :: post → ∀ t, e.target = some t → ∃ c, t = some c ∧ Live pre c

end Views

section Append

variable (tr tr' : List Effect) (e : Effect)

@[simp] theorem addedIos_append : addedIos (tr ++ tr') = addedIos tr ++ addedIos tr' :=
  List.filterMap_append _ _ _
@[simp] theorem removedIos_append : removedIos (tr ++ tr') = removedIos tr ++ removedIos tr' :=
  List.filterMap_append _ _ _
@[simp] theorem completions_append :
    completions (tr ++ tr') = completions tr ++ completions tr' := List.filterMap_append _ _ _
@[simp] theorem reports_append : reports (tr ++ tr') = reports tr ++ reports tr' :=
  List.filter_append _ _
@[simp] theorem writes_append : writes (tr ++ tr') = writes tr ++ writes tr' :=
  List.filterMap_append _ _ _
@[simp] theorem ioErrors_append : ioErrors (tr ++ tr') = ioErrors tr ++ ioErrors tr' :=
  List.filterMap_append _ _ _
@[simp] theorem createdContexts_append :
    createdContexts (tr ++ tr') = createdContexts tr ++ createdContexts tr' :=
  List.filterMap_append _ _ _
@[simp] theorem destroyedContexts_append :
    destroyedContexts (tr ++ tr') = destroyedContexts tr ++ destroyedContexts tr' :=
  List.filterMap_append _ _ _

@[simp] theorem addedIos_cons : addedIos (e :: tr) = (e.added).toList ++ addedIos tr := by
  cases h : e.added <;> rw [addedIos, List.filterMap_cons, h] <;> rfl
@[simp] theorem removedIos_cons : removedIos (e :: tr) = (e.removed).toList ++ removedIos tr := by
  cases h : e.removed <;> rw [removedIos, List.filterMap_cons, h] <;> rfl
@[simp] theorem completions_cons :
    completions (e :: tr) = (e.completed).toList ++ completions tr := by
  cases h : e.completed <;> rw [completions, List.filterMap_cons, h] <;> rfl
@[simp] theorem reports_cons :
    reports (e :: tr) = (if e.isReport then [e] else []) ++ reports tr := by
  cases h : e.isReport <;> simp [reports, List.filter_cons, h]
@[simp] theorem writes_cons : writes (e :: tr) = (e.written).toList ++ writes tr := by
  cases h : e.written <;> rw [writes, List.filterMap_cons, h] <;> rfl
@[simp] theorem ioErrors_cons : ioErrors (e :: tr) = (e.errorCall).toList ++ ioErrors tr := by
  cases h : e.errorCall <;> rw [ioErrors, List.filterMap_cons, h] <;> rfl
@[simp] theorem createdContexts_cons :
    createdContexts (e :: tr) = (e.created).toList ++ createdContexts tr := by
  cases h : e.created <;> rw [createdContexts, List.filterMap_cons, h] <;> rfl
@[simp] theorem destroyedContexts_cons :
    destroyedContexts (e :: tr) = (e.destroyed).toList ++ destroyedContexts tr := by
  cases h : e.destroyed <;> rw [destroyedContexts, List.filterMap_cons, h] <;> rfl

@[simp] theorem addedIos_nil : addedIos [] = [] := rfl
@[simp] theorem removedIos_nil : removedIos [] = [] := rfl
@[simp] theorem completions_nil : completions [] = [] := rfl
@[simp] theorem reports_nil : reports [] = [] := rfl
@[simp] theorem writes_nil : writes [] = [] := rfl
@[simp] theorem ioErrors_nil : ioErrors [] = [] := rfl
@[simp] theorem createdContexts_nil : createdContexts [] = [] := rfl
@[simp] theorem destroyedContexts_nil : destroyedContexts [] = [] := rfl

end Append

section Targets

variable {tr : List Effect} {e : Effect}

theorem targetsLive_nil : TargetsLive [] := by
  intro pre e post h
  simp at h

theorem targetsLive_snoc :
    TargetsLive (tr ++ [e]) ↔
      TargetsLive tr ∧ ∀ t, e.target = some t → ∃ c, t = some c ∧ Live tr c := by
  constructor
  · intro h
    exact ⟨fun pre e' post hp => h pre e' (post ++ [e]) (by simp [hp]), h tr e [] rfl⟩
  · rintro ⟨h, he⟩ pre e' post hp
    rcases List.eq_nil_or_concat post with rfl | ⟨post', x, rfl⟩
    · obtain ⟨rfl, he'⟩ := List.append_inj' hp rfl
      cases he'
      exact he
    · rw [List.concat_eq_append, ← List.cons_append, ← List.append_assoc] at hp
      obtain ⟨rfl, -⟩ := List.append_inj' hp rfl
      exact h pre e' post' rfl

theorem targetsLive_append {es : List Effect} (hes : ∀ e ∈ es, e.target = none) :
    TargetsLive (tr ++ es) ↔ TargetsLive tr := by
  induction es generalizing tr with
  | nil => simp
  | cons e es ih =>
    rw [← List.singleton_append, ← List.append_assoc,
      ih fun e' he' => hes e' (List.mem_cons_of_mem _ he'), targetsLive_snoc,
      hes e (List.mem_cons_self _ _)]
    simp

end Targets

end Wsio
