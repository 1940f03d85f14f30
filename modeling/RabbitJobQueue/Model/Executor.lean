import Mathlib.Data.List.Basic

/-! # Executors and their channels

An `Executor` of the pool wraps one channel and is a node of the pool's hand-written linked list.
Executors are referred to by the order of their construction; the pool keeps every executor it
ever constructed, reachable over the list or not. What the executor does with a delivery is in
`Model.Delivery`.
-/

namespace RabbitJobQueue.Model

/-- Who closed a channel. -/
inductive CloseCause
  | executorStop
  | callbackException
  | connectionAbort
  | broker
  | connectionFailure
deriving DecidableEq, Repr

/-- The flag of the shutdown signal the client passes on: `Channel.close`, also when the client's
default exception handler calls it, and `Connection.abort` are calls of the application. -/
def CloseCause.isInitiatedByApplication : CloseCause → Bool
  | .executorStop | .callbackException | .connectionAbort => true
  | .broker | .connectionFailure => false

/-- The pool itself closed the channel, by `Executor.stop` or by its shutdown callback. -/
def CloseCause.isOwnStop : CloseCause → Bool
  | .executorStop | .connectionAbort => true
  | .callbackException | .broker | .connectionFailure => false

/-- A channel is open until it is first closed, and never opens again. -/
structure Channel where
  closedBy : Option CloseCause := none
deriving DecidableEq, Repr

namespace Channel

def isOpen (channel : Channel) : Bool := channel.closedBy.isNone

def close (channel : Channel) (cause : CloseCause) : Channel :=
  if channel.isOpen then { closedBy := some cause } else channel

@[simp] theorem isOpen_close (channel : Channel) (cause : CloseCause) :
    (channel.close cause).isOpen = false := by
  rw [close]
  split
  · rfl
  · next closed => simpa using closed

theorem close_of_closed {channel : Channel} (closed : channel.isOpen = false) (cause : CloseCause) :
    channel.close cause = channel := by
  simp [close, closed]

/-- The first cause is the one that stays. -/
theorem closedBy_close {channel : Channel} {cause first : CloseCause}
    (already : channel.closedBy = some first) : (channel.close cause).closedBy = some first := by
  rw [close_of_closed (by simp [isOpen, already])]
  exact already

theorem closedBy_close_of_isOpen {channel : Channel} (opened : channel.isOpen = true)
    (cause : CloseCause) : (channel.close cause).closedBy = some cause := by
  rw [close, if_pos opened]

/-- What `Executor.silenced` comes to for an executor that has just been constructed. -/
theorem silenced_of_new : 0 < 0 ∨ false = true → isOpen { closedBy := none } = false :=
  fun either => absurd either (by decide)

end Channel

/-- A reference to an executor: its index in the order of construction. -/
abbrev ExecutorRef := ℕ

/-- `subscribed` says that `basicConsume` has registered its consumer, `signalled` that the client
has started the consumer's shutdown callback; `stopCalls` counts the calls of `stop`. Neither
happens to an executor whose channel stays open. -/
structure Executor where
  id : String
  channel : Channel := {}
  prev : Option ExecutorRef := none
  next : Option ExecutorRef := none
  subscribed : Bool := false
  signalled : Bool := false
  stopCalls : ℕ := 0
  silenced : 0 < stopCalls ∨ signalled = true → channel.isOpen = false := by
    exact Channel.silenced_of_new
deriving DecidableEq, Repr

namespace Executor

/-- Something closes the executor's channel. -/
def closeBy (executor : Executor) (cause : CloseCause) : Executor :=
  { executor with
    channel := executor.channel.close cause
    silenced := fun _ => Channel.isOpen_close _ _ }

/-- The client passes on that the channel has closed. -/
def die (executor : Executor) (cause : CloseCause) : Executor :=
  { executor with
    channel := executor.channel.close cause
    signalled := true
    silenced := fun _ => Channel.isOpen_close _ _ }

/-- `Executor.stop`; whatever `Channel.close` throws is dropped. -/
def stop (executor : Executor) : Executor :=
  { executor with
    channel := executor.channel.close .executorStop
    stopCalls := executor.stopCalls + 1
    silenced := fun _ => Channel.isOpen_close _ _ }

/-- The consumer is registered, and its channel has neither died nor been stopped. -/
def isLive (executor : Executor) : Bool := executor.subscribed && executor.channel.isOpen

@[simp] theorem stop_prev (executor : Executor) : executor.stop.prev = executor.prev := rfl
@[simp] theorem stop_next (executor : Executor) : executor.stop.next = executor.next := rfl
@[simp] theorem stop_subscribed (executor : Executor) :
    executor.stop.subscribed = executor.subscribed := rfl
@[simp] theorem stop_signalled (executor : Executor) :
    executor.stop.signalled = executor.signalled := rfl
@[simp] theorem stop_stopCalls (executor : Executor) :
    executor.stop.stopCalls = executor.stopCalls + 1 := rfl
@[simp] theorem stop_isOpen (executor : Executor) : executor.stop.channel.isOpen = false :=
  Channel.isOpen_close _ _
@[simp] theorem stop_isLive (executor : Executor) : executor.stop.isLive = false := by
  simp [isLive]

@[simp] theorem closeBy_isOpen (executor : Executor) (cause : CloseCause) :
    (executor.closeBy cause).channel.isOpen = false := Channel.isOpen_close _ _

@[simp] theorem die_isOpen (executor : Executor) (cause : CloseCause) :
    (executor.die cause).channel.isOpen = false := Channel.isOpen_close _ _

/-- The signal of a channel that is closed already changes nothing but that it is passed on. -/
theorem die_closeBy {executor : Executor} {cause : CloseCause} :
    (executor.closeBy cause).die cause = executor.die cause := by
  simp only [die, closeBy, Executor.mk.injEq, and_true, true_and]
  exact Channel.close_of_closed (Channel.isOpen_close _ _) cause

/-- An executor that has been stopped consumes nothing. -/
theorem isLive_of_stopped {executor : Executor} (stopped : 0 < executor.stopCalls) :
    executor.isLive = false := by
  rw [isLive, executor.silenced (.inl stopped), Bool.and_false]

theorem signalled_of_isOpen (executor : Executor) (open' : executor.channel.isOpen = true) :
    executor.signalled = false := by
  by_contra signalled
  rw [executor.silenced (.inr (Bool.not_eq_false _ ▸ signalled))] at open'
  contradiction

end Executor

end RabbitJobQueue.Model
