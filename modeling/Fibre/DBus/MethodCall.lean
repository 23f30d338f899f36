import Fibre.DBus.Push
import Fibre.DBus.Pop

/-!
# Calling a method: `handle_reply_message` and `DBusObject::method_call_async`

`method_call_async` creates the method call message, packs the inputs into it,
sends it expecting a reply, releases its own reference to the message, and
registers `pending_call_handler` as the pending call's notify function; a reply
that arrived before the function was registered is handled at once. A libdbus
call that fails sends the function to one of two labels: `fail2` releases the
message and falls through to `fail1`, which returns `-1`. Whoever takes the
reply hands it to `handle_reply_message`, which unpacks a method return into
the callback's outputs.

The pending call is shared with libdbus, which completes it when the connection
is dispatched with the reply (or with libdbus's own error reply, at the
timeout). The model follows what libdbus does with it, which the wrapper
relies on: `dbus_connection_send_with_reply` hands the caller one reference,
and the connection keeps another until the call completes; completing stores
the reply, releases the connection's reference and runs the notify function if
one is set by then (`dbus_pending_call_set_notify` runs none for a call that
has already completed); `dbus_pending_call_steal_reply` hands the stored reply
out once, and `NULL` before it has arrived; a pending call whose references are
all released is freed.

A run interleaves the function's calls with one dispatch of the connection, at
any point, as when the connection is dispatched on another thread. The states a
run reaches are listed phase by phase in `Phase`. Over every run the reply is
handled at most once and every reference is released at most once, and a run in
which the function returned `0` and the call completed has handled the reply
once and freed the pending call. Two kinds of run go wrong. When the dispatch
falls between `set_notify` and `steal_reply`, the notify function takes the
reply and releases the pending call, which libdbus then frees, and the function
calls `steal_reply` on it. When `set_notify` fails, the function returns `-1`
for a call it has sent, and the pending call is never freed.
-/

namespace Fibre.DBus

/-! ## `handle_reply_message` -/

/-- `dbus_message_get_type`: `DBUS_MESSAGE_TYPE_INVALID`, `_METHOD_CALL`,
`_METHOD_RETURN`, `_ERROR` and `_SIGNAL`. -/
inductive MessageType
  | invalid
  | methodCall
  | methodReturn
  | error
  | signal
  deriving DecidableEq

/-- A received message, as the handler reads it. -/
structure Message where
  /-- `dbus_message_get_type(msg)`. -/
  type : MessageType
  /-- The arguments `dbus_message_iter_init(msg, &args)` iterates over. -/
  args : DBusValues
  deriving DecidableEq

/-- What `handle_reply_message` does about the callback. -/
inductive ReplyOutcome
  /-- `callback->callback` is called with `callback->ctx` and these values. -/
  | invoked (values : List CValue)
  /-- It returns without calling it. -/
  | ignored
  /-- It unpacks in a way whose outcome is undefined. -/
  | undefined
  deriving DecidableEq

/-- `handle_reply_message<TOutputs...>(msg, callback)`, with `hasCallback` for
`callback && callback->callback`. -/
def handleReplyMessage (outputs : List CType) (hasCallback : Bool) (msg : Message) :
    ReplyOutcome :=
  if msg.type = .error then
    -- the error text only goes to `std::cerr`
    match unpackMessage [.string] msg.args with
    | .undefined => .undefined
    | .ok _ | .failed => .ignored
  else if msg.type ≠ .methodReturn then .ignored
  else
    match unpackMessage outputs msg.args with
    | .ok values => if hasCallback then .invoked values else .ignored
    | .failed => .ignored
    | .undefined => .undefined

/-! ## A run of `method_call_async` -/

/-- What libdbus answers to the calls of `method_call_async` other than the
appends and the pending call's own. -/
structure Connection where
  /-- `dbus_message_new_method_call` returns a message. -/
  newMethodCall : Bool
  /-- `dbus_connection_send_with_reply` returns `TRUE`. -/
  sendWithReply : Bool
  /-- It sets `pending` to a pending call. -/
  pending : Bool
  /-- `dbus_pending_call_set_notify` returns `TRUE`. -/
  setNotify : Bool

/-- One call of `method_call_async<TInputs..., TOutputs...>(interface_name,
method_name, inputs..., callback)`: what libdbus answers, the inputs with the
appends' `Libdbus`, the output types, whether `callback && callback->callback`,
and the reply the pending call completes with. -/
structure AsyncCall where
  conn : Connection
  lib : Libdbus
  inputs : List (CType × CValue)
  outputs : List CType
  hasCallback : Bool
  reply : Message

/-- The calls `method_call_async` and its notify function make. -/
inductive CallStep
  /-- `dbus_message_new_method_call`, and whether it returned a message. -/
  | newMethodCall (created : Bool)
  /-- `pack_message` on the new message. -/
  | pack
  /-- `dbus_connection_send_with_reply`. -/
  | sendWithReply
  /-- `dbus_connection_flush`. -/
  | flush
  /-- `dbus_message_unref` on the method call. -/
  | unrefMessage
  /-- `dbus_pending_call_set_notify`. -/
  | setNotify
  /-- `dbus_pending_call_steal_reply`. -/
  | stealReply
  /-- `dbus_pending_call_unref`. -/
  | unrefPending
  /-- `handle_reply_message(msg, callback)`, with what it did. -/
  | handleReply (outcome : ReplyOutcome)
  /-- `dbus_message_unref` on the reply. -/
  | unrefReply
  deriving DecidableEq

/-- The call is `handle_reply_message`. -/
def CallStep.isHandleReply : CallStep → Bool
  | .handleReply _ => true
  | _ => false

/-- `pending_call_handler`, the notify function: take the reply, release the
pending call, handle the reply and release it. -/
def pendingCallHandler (outputs : List CType) (hasCallback : Bool) (reply : Message) :
    List CallStep :=
  [.stealReply, .unrefPending, .handleReply (handleReplyMessage outputs hasCallback reply),
    .unrefReply]

/-- The calls up to registering the notify function, on the path that sent the
message. -/
def sentSteps : List CallStep :=
  [.newMethodCall true, .pack, .sendWithReply, .flush, .unrefMessage, .setNotify]

/-- libdbus's pending call: whether the reference `send_with_reply` handed the
caller is still held, whether the call has completed (which releases the
connection's reference), the reply until it is stolen, and whether
`pending_call_handler` is its notify function. -/
structure PendingCall where
  callerRef : Bool
  completed : Bool
  reply : Option Message
  notify : Bool
  deriving DecidableEq

/-- Both references are released: libdbus has freed the pending call. -/
def PendingCall.freed (p : PendingCall) : Bool :=
  !p.callerRef && p.completed

/-- Where `method_call_async` stands: the call it makes next, with the reply it
holds in `msg` once `steal_reply` gave it one. -/
inductive Pc
  | newMethodCall
  | pack
  | sendWithReply
  | flush
  | unrefMessage
  | setNotify
  | stealReply
  | unrefPending (reply : Message)
  | handleReply (reply : Message)
  | unrefReply (reply : Message)
  /-- `fail2`: release the message, then return `-1` at `fail1`. -/
  | fail2
  | returned (status : Int)
  /-- It called libdbus on a pending call libdbus had freed, which is undefined
  behaviour; nothing after it is modelled. -/
  | useAfterFree
  deriving DecidableEq

/-- A state of a run: where the function stands, the pending call once
`send_with_reply` gave one, and every call made so far, the notify function's
included, in order. -/
structure CallState where
  pc : Pc
  pending : Option PendingCall
  log : List CallStep
  deriving DecidableEq

/-- Before the first call. -/
def CallState.init : CallState := ⟨.newMethodCall, none, []⟩

/-- What happens next in a run: the function makes its next call, or the
connection is dispatched with the reply. -/
inductive Event
  | program
  | dispatch
  deriving DecidableEq

namespace AsyncCall

variable (c : AsyncCall)

/-- The function's next call. -/
def programStep (s : CallState) : CallState :=
  match s.pc, s.pending with
  | .newMethodCall, pending =>
    if c.conn.newMethodCall then ⟨.pack, pending, s.log ++ [.newMethodCall true]⟩
    else ⟨.returned (-1), pending, s.log ++ [.newMethodCall false]⟩
  | .pack, pending =>
    ⟨if (packMessage c.lib c.inputs .empty).1 ≠ 0 then .fail2 else .sendWithReply, pending,
      s.log ++ [.pack]⟩
  | .sendWithReply, pending =>
    if c.conn.sendWithReply && c.conn.pending then
      ⟨.flush, some ⟨true, false, none, false⟩, s.log ++ [.sendWithReply]⟩
    else ⟨.fail2, pending, s.log ++ [.sendWithReply]⟩
  | .flush, pending => ⟨.unrefMessage, pending, s.log ++ [.flush]⟩
  | .unrefMessage, pending => ⟨.setNotify, pending, s.log ++ [.unrefMessage]⟩
  | .setNotify, some p =>
    if p.freed then ⟨.useAfterFree, some p, s.log⟩
    else if c.conn.setNotify then ⟨.stealReply, some { p with notify := true }, s.log ++ [.setNotify]⟩
    -- `fail1`: the message is released already
    else ⟨.returned (-1), some p, s.log ++ [.setNotify]⟩
  | .stealReply, some p =>
    if p.freed then ⟨.useAfterFree, some p, s.log⟩
    else match p.reply with
      | some reply => ⟨.unrefPending reply, some { p with reply := none }, s.log ++ [.stealReply]⟩
      | none => ⟨.returned 0, some p, s.log ++ [.stealReply]⟩
  | .unrefPending reply, some p =>
    if p.freed then ⟨.useAfterFree, some p, s.log⟩
    else ⟨.handleReply reply, some { p with callerRef := false }, s.log ++ [.unrefPending]⟩
  | .handleReply reply, pending =>
    ⟨.unrefReply reply, pending,
      s.log ++ [.handleReply (handleReplyMessage c.outputs c.hasCallback reply)]⟩
  | .unrefReply _, pending => ⟨.returned 0, pending, s.log ++ [.unrefReply]⟩
  | .fail2, pending => ⟨.returned (-1), pending, s.log ++ [.unrefMessage]⟩
  -- a call on a pending call it does not have, which no run reaches, makes none
  | .setNotify, none | .stealReply, none | .unrefPending _, none => s
  | .returned _, _ | .useAfterFree, _ => s

/-- The connection is dispatched with the reply: libdbus completes the pending
call, storing the reply, and runs `pending_call_handler` if it is set by then.
Before the call is sent, or once it has completed, there is nothing to do. -/
def dispatch (s : CallState) : CallState :=
  match s.pending with
  | some p =>
    if p.completed then s
    else if p.notify then
      ⟨s.pc, some { p with completed := true, callerRef := false },
        s.log ++ pendingCallHandler c.outputs c.hasCallback c.reply⟩
    else ⟨s.pc, some { p with completed := true, reply := some c.reply }, s.log⟩
  | none => s

/-- Before the call is sent, or once it has completed, a dispatch changes
nothing. -/
theorem dispatch_of_completed {s : CallState} (hdone : ∀ p ∈ s.pending, p.completed = true) :
    c.dispatch s = s := by
  unfold dispatch
  split
  · next p hp => simp [hdone p hp]
  · rfl

/-- One event of a run. -/
def step (s : CallState) : Event → CallState
  | .program => c.programStep s
  | .dispatch => c.dispatch s

/-- A run: the events in order. -/
def run (s : CallState) : List Event → CallState
  | [] => s
  | e :: events => run (c.step s e) events

/-! ## The phases of a run -/

/-- The pending call while the caller's reference is held and the reply is not
stolen: with `pending_call_handler` registered or not, and completed or not, a
completed call storing the reply. -/
def pendingCall (notify completed : Bool) : PendingCall :=
  ⟨true, completed, if completed then some c.reply else none, notify⟩

/-- The calls of `pending_call_handler` on this call's reply; the function makes
the same four when it takes the reply itself. -/
def handlerCalls : List CallStep :=
  pendingCallHandler c.outputs c.hasCallback c.reply

end AsyncCall

/-- The completed pending call whose reply the function stole, its reference
still held. -/
def PendingCall.stolen : PendingCall := ⟨true, true, none, true⟩

/-- The completed pending call whose reply was taken and whose references are
both released. -/
def PendingCall.released : PendingCall := ⟨false, true, none, true⟩

/-- The states a run of `method_call_async` reaches, phase by phase. Until the
message is sent there is no pending call. From then on the dispatch may come at
any point: before `set_notify`, the reply waits in the pending call; between
`set_notify` and `steal_reply`, the notify function takes it; after that, the
function has taken it, or the notify function takes it once the function has
returned. -/
inductive Phase (c : AsyncCall) : CallState → Prop
  | start : Phase c ⟨.newMethodCall, none, []⟩
  | packing : Phase c ⟨.pack, none, [.newMethodCall true]⟩
  | sending : Phase c ⟨.sendWithReply, none, [.newMethodCall true, .pack]⟩
  /-- No message was created: `fail1`. -/
  | noMessage : Phase c ⟨.returned (-1), none, [.newMethodCall false]⟩
  /-- The pack or the send failed: `fail2`, then `fail1`. -/
  | failing (send : List CallStep) (hsend : send = [] ∨ send = [.sendWithReply]) :
      Phase c ⟨.fail2, none, [.newMethodCall true, .pack] ++ send⟩
  | failed (send : List CallStep) (hsend : send = [] ∨ send = [.sendWithReply]) :
      Phase c ⟨.returned (-1), none, [.newMethodCall true, .pack] ++ send ++ [.unrefMessage]⟩
  /-- Sent, with no notify function yet. -/
  | flushing (completed : Bool) :
      Phase c ⟨.flush, some (c.pendingCall false completed), sentSteps.take 3⟩
  | unrefing (completed : Bool) :
      Phase c ⟨.unrefMessage, some (c.pendingCall false completed), sentSteps.take 4⟩
  | registering (completed : Bool) :
      Phase c ⟨.setNotify, some (c.pendingCall false completed), sentSteps.take 5⟩
  /-- `set_notify` refused: `fail1`, with the pending call as it is. -/
  | refused (completed : Bool) (hrefused : c.conn.setNotify = false) :
      Phase c ⟨.returned (-1), some (c.pendingCall false completed), sentSteps⟩
  /-- `set_notify` done; a reply dispatched before it waits in the pending call. -/
  | stealing (completed : Bool) (hnotify : c.conn.setNotify = true) :
      Phase c ⟨.stealReply, some (c.pendingCall true completed), sentSteps⟩
  /-- The dispatch came between `set_notify` and `steal_reply`: the notify
  function took the reply and released the pending call, and libdbus freed it. -/
  | raced (hnotify : c.conn.setNotify = true) :
      Phase c ⟨.stealReply, some .released, sentSteps ++ c.handlerCalls⟩
  /-- The function then called `steal_reply` on the freed pending call. -/
  | usedAfterFree (hnotify : c.conn.setNotify = true) :
      Phase c ⟨.useAfterFree, some .released, sentSteps ++ c.handlerCalls⟩
  /-- The function took the reply; it releases the pending call, handles the
  reply and releases it. -/
  | stolen (hnotify : c.conn.setNotify = true) :
      Phase c ⟨.unrefPending c.reply, some .stolen, sentSteps ++ c.handlerCalls.take 1⟩
  | handling (hnotify : c.conn.setNotify = true) :
      Phase c ⟨.handleReply c.reply, some .released, sentSteps ++ c.handlerCalls.take 2⟩
  | releasing (hnotify : c.conn.setNotify = true) :
      Phase c ⟨.unrefReply c.reply, some .released, sentSteps ++ c.handlerCalls.take 3⟩
  | handled (hnotify : c.conn.setNotify = true) :
      Phase c ⟨.returned 0, some .released, sentSteps ++ c.handlerCalls⟩
  /-- `steal_reply` found no reply; the notify function will take it. -/
  | waiting (hnotify : c.conn.setNotify = true) :
      Phase c ⟨.returned 0, some (c.pendingCall true false), sentSteps ++ [.stealReply]⟩
  | notified (hnotify : c.conn.setNotify = true) :
      Phase c ⟨.returned 0, some .released, sentSteps ++ [.stealReply] ++ c.handlerCalls⟩

namespace Phase

variable {c : AsyncCall} {s : CallState}

/-- The function's next call moves a run to the next phase. -/
theorem programStep (h : Phase c s) : Phase c (c.programStep s) := by
  cases h with
  | start =>
    by_cases hnew : c.conn.newMethodCall
    · simpa [AsyncCall.programStep, hnew] using packing
    · simpa [AsyncCall.programStep, hnew] using noMessage
  | packing =>
    by_cases hpack : (packMessage c.lib c.inputs .empty).1 = 0
    · simpa [AsyncCall.programStep, hpack] using sending
    · simpa [AsyncCall.programStep, hpack] using failing [] (.inl rfl)
  | sending =>
    by_cases hsend : (c.conn.sendWithReply && c.conn.pending) = true
    · simpa [AsyncCall.programStep, hsend] using flushing (c := c) false
    · simpa [AsyncCall.programStep, hsend] using failing [.sendWithReply] (.inr rfl)
  | noMessage => exact noMessage
  | failing send hsend => exact failed send hsend
  | failed send hsend => exact failed send hsend
  | flushing completed => exact unrefing completed
  | unrefing completed => exact registering completed
  | registering completed =>
    cases hnotify : c.conn.setNotify
    · simpa [AsyncCall.programStep, hnotify, AsyncCall.pendingCall, PendingCall.freed] using
        refused completed hnotify
    · simpa [AsyncCall.programStep, hnotify, AsyncCall.pendingCall, PendingCall.freed] using
        stealing completed hnotify
  | refused completed hrefused => exact refused completed hrefused
  | stealing completed hnotify =>
    cases completed
    · exact waiting hnotify
    · exact stolen hnotify
  | raced hnotify => exact usedAfterFree hnotify
  | usedAfterFree hnotify => exact usedAfterFree hnotify
  | stolen hnotify => exact handling hnotify
  | handling hnotify => exact releasing hnotify
  | releasing hnotify => exact handled hnotify
  | handled hnotify => exact handled hnotify
  | waiting hnotify => exact waiting hnotify
  | notified hnotify => exact notified hnotify

/-- A dispatch completes a pending call that has not completed: before
`set_notify` the reply is stored, after it the notify function runs. -/
theorem dispatch (h : Phase c s) : Phase c (c.dispatch s) := by
  by_cases hdone : ∀ p ∈ s.pending, p.completed = true
  · rwa [c.dispatch_of_completed hdone]
  cases h with
  | flushing completed => cases completed <;> exact flushing true
  | unrefing completed => cases completed <;> exact unrefing true
  | registering completed => cases completed <;> exact registering true
  | refused completed hrefused => cases completed <;> exact refused true hrefused
  | stealing completed hnotify =>
    cases completed
    · exact raced hnotify
    · exact stealing true hnotify
  | waiting hnotify => exact notified hnotify
  | _ => simp [PendingCall.released, PendingCall.stolen] at hdone

theorem step (h : Phase c s) : ∀ e, Phase c (c.step s e)
  | .program => h.programStep
  | .dispatch => h.dispatch

/-- Every run stays within the phases. -/
theorem run : ∀ {s : CallState}, Phase c s → ∀ events, Phase c (c.run s events)
  | _, h, [] => h
  | _, h, e :: events => run (h.step e) events

end Phase

theorem AsyncCall.phase_run (c : AsyncCall) (events : List Event) :
    Phase c (c.run .init events) :=
  Phase.start.run events

/-! ## What every run does -/

namespace Phase

variable {c : AsyncCall} {s : CallState}

theorem releases_le_one (h : Phase c s) :
    s.log.countP CallStep.isHandleReply ≤ 1 ∧ s.log.count .unrefMessage ≤ 1 ∧
      s.log.count .unrefPending ≤ 1 ∧ s.log.count .unrefReply ≤ 1 := by
  cases h with
  | failing send hsend | failed send hsend =>
    rcases hsend with rfl | rfl <;> simp [CallStep.isHandleReply]
  | _ => simp [sentSteps, AsyncCall.handlerCalls, pendingCallHandler, CallStep.isHandleReply]

theorem handled_once (h : Phase c s) (hreturned : s.pc = .returned 0)
    (hcompleted : s.pending.any PendingCall.completed = true) :
    s.log.filter CallStep.isHandleReply =
        [.handleReply (handleReplyMessage c.outputs c.hasCallback c.reply)] ∧
      s.log.count .unrefPending = 1 ∧ s.log.count .unrefReply = 1 ∧
      s.pending.any PendingCall.freed = true := by
  cases h with
  | handled _ | notified _ =>
    simp [sentSteps, AsyncCall.handlerCalls, pendingCallHandler, CallStep.isHandleReply,
      PendingCall.released, PendingCall.freed]
  | waiting _ => simp [AsyncCall.pendingCall] at hcompleted
  | failed send hsend => simp at hreturned
  | _ => cases hreturned

theorem useAfterFree_log (h : Phase c s) (hfreed : s.pc = .useAfterFree) :
    s.log = sentSteps ++ pendingCallHandler c.outputs c.hasCallback c.reply ∧
      s.pending.any PendingCall.freed = true := by
  cases h with
  | usedAfterFree _ => exact ⟨rfl, rfl⟩
  | _ => cases hfreed

theorem of_setNotify_false (h : Phase c s) (hrefused : c.conn.setNotify = false) :
    (∀ p, s.pending = some p → p.callerRef = true ∧ p.notify = false) ∧ s.pc ≠ .returned 0 ∧
      s.log.countP CallStep.isHandleReply = 0 ∧ s.log.count .unrefReply = 0 := by
  cases h with
  | failing send hsend | failed send hsend =>
    rcases hsend with rfl | rfl <;> simp [CallStep.isHandleReply]
  | flushing _ | unrefing _ | registering _ | refused _ _ =>
    simp [sentSteps, AsyncCall.pendingCall, CallStep.isHandleReply]
  | stealing _ hnotify | raced hnotify | usedAfterFree hnotify | stolen hnotify
  | handling hnotify | releasing hnotify | handled hnotify | waiting hnotify
  | notified hnotify => exact absurd hnotify (by simp [hrefused])
  | _ => simp [CallStep.isHandleReply]

end Phase

/-- Over every run, whatever point the dispatch comes at and however often it is
attempted, `handle_reply_message` runs at most once, and the method call
message, the pending call and the reply are each released at most once. -/
theorem methodCallAsync_run_at_most_once (c : AsyncCall) (events : List Event) :
    let s := c.run .init events
    s.log.countP CallStep.isHandleReply ≤ 1 ∧ s.log.count .unrefMessage ≤ 1 ∧
      s.log.count .unrefPending ≤ 1 ∧ s.log.count .unrefReply ≤ 1 :=
  (c.phase_run events).releases_le_one

/-- A run in which the function returned `0` and the pending call completed has
handed the reply to `handle_reply_message` exactly once, whoever took it, and has
released the reply and the pending call, which libdbus has freed. -/
theorem methodCallAsync_run_handled_once (c : AsyncCall) (events : List Event)
    (hreturned : (c.run .init events).pc = .returned 0)
    (hcompleted : (c.run .init events).pending.any PendingCall.completed = true) :
    let s := c.run .init events
    s.log.filter CallStep.isHandleReply =
        [.handleReply (handleReplyMessage c.outputs c.hasCallback c.reply)] ∧
      s.log.count .unrefPending = 1 ∧ s.log.count .unrefReply = 1 ∧
      s.pending.any PendingCall.freed = true :=
  (c.phase_run events).handled_once hreturned hcompleted

/-- The reply dispatched after the function has returned: the notify function
handles it. -/
theorem methodCallAsync_run_handled_once_notified :
    let c : AsyncCall :=
      ⟨⟨true, true, true, true⟩, .completesAll, [], [], true, ⟨.methodReturn, .nil⟩⟩
    let events := List.replicate 7 Event.program ++ [.dispatch]
    ((c.run .init events).pc = .returned 0 ∧
      (c.run .init events).pending.any PendingCall.completed = true) ∧
    let s := c.run .init events
    s.log.filter CallStep.isHandleReply =
        [.handleReply (handleReplyMessage c.outputs c.hasCallback c.reply)] ∧
      s.log.count .unrefPending = 1 ∧ s.log.count .unrefReply = 1 ∧
      s.pending.any PendingCall.freed = true :=
  ⟨⟨by decide, by decide⟩, methodCallAsync_run_handled_once _ _ (by decide) (by decide)⟩

/-- The function uses the pending call after libdbus freed it in exactly one
kind of run: the connection is dispatched between `set_notify` and
`steal_reply`, so the notify function takes the reply and releases the pending
call, and the function's `steal_reply` comes after. -/
theorem methodCallAsync_run_useAfterFree (c : AsyncCall) (events : List Event)
    (hfreed : (c.run .init events).pc = .useAfterFree) :
    (c.run .init events).log = sentSteps ++ pendingCallHandler c.outputs c.hasCallback c.reply ∧
      (c.run .init events).pending.any PendingCall.freed = true :=
  (c.phase_run events).useAfterFree_log hfreed

/-- The dispatch right after `set_notify`. -/
theorem methodCallAsync_run_useAfterFree_race :
    let c : AsyncCall :=
      ⟨⟨true, true, true, true⟩, .completesAll, [], [], true, ⟨.methodReturn, .nil⟩⟩
    let events := List.replicate 6 Event.program ++ [.dispatch, .program]
    (c.run .init events).pc = .useAfterFree ∧
      (c.run .init events).log =
        sentSteps ++ pendingCallHandler c.outputs c.hasCallback c.reply ∧
      (c.run .init events).pending.any PendingCall.freed = true :=
  ⟨by decide, methodCallAsync_run_useAfterFree _ _ (by decide)⟩

/-- When `set_notify` fails, no run returns `0`, the pending call keeps the
caller's reference and no notify function, so libdbus never frees it, and the
reply is neither handled nor released, whenever it comes. -/
theorem methodCallAsync_run_setNotify_refused (c : AsyncCall) (hrefused : c.conn.setNotify = false)
    (events : List Event) :
    let s := c.run .init events
    (∀ p, s.pending = some p → p.callerRef = true ∧ p.notify = false) ∧ s.pc ≠ .returned 0 ∧
      s.log.countP CallStep.isHandleReply = 0 ∧ s.log.count .unrefReply = 0 :=
  (c.phase_run events).of_setNotify_false hrefused

/-- `set_notify` refused, and the reply dispatched afterwards. -/
theorem methodCallAsync_run_setNotify_refused_dispatched :
    let c : AsyncCall :=
      ⟨⟨true, true, true, false⟩, .completesAll, [], [], true, ⟨.methodReturn, .nil⟩⟩
    let events := List.replicate 7 Event.program ++ [.dispatch]
    c.conn.setNotify = false ∧
    let s := c.run .init events
    (∀ p, s.pending = some p → p.callerRef = true ∧ p.notify = false) ∧ s.pc ≠ .returned 0 ∧
      s.log.countP CallStep.isHandleReply = 0 ∧ s.log.count .unrefReply = 0 :=
  ⟨rfl, methodCallAsync_run_setNotify_refused _ rfl _⟩

end Fibre.DBus
