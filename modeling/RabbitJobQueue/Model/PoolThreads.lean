import RabbitJobQueue.Machine.Run
import RabbitJobQueue.Model.ExecutorPool

/-! # The threads that run the pool's methods

`start`, the shutdown callbacks, `stop` and `stopNow` run on threads of their own. Each is the list
of statements it has still to execute; a statement is one atomic step and may put further
statements in front of the rest. Only `stopExecutors` holds a lock. Its list work is done when the
lock is taken; the channels it then closes are closed one at a time.
-/

namespace RabbitJobQueue.Model

open Machine

inductive Instr
  | markFailure
  | shouldHalt (ex : ExecutorRef)
  | reason
  | remove (ex : ExecutorRef)
  | stop (ex : ExecutorRef)
  | unlessClosing
  | createNew
  | init (ex : ExecutorRef)
  | add (ex : ExecutorRef)
  | stopExecutors
  | unlock
  | shutdown
  | shutdownNow
  | shutdownCB
  | isTerminated
  | awaitKillAfter (blockAfterKill : Bool)
  | awaitTermination
  | returned (code : StopCode)
deriving DecidableEq, Repr

namespace JobQueueExecutorPool

variable {ε π : Type}

/-- The executors the loop of `stopExecutors` visits, each unlinked as it is passed. -/
def detach : ℕ → Option ExecutorRef → Code ε π (List ExecutorRef)
  | _, none => pure []
  | 0, some _ => Effect.diverge
  | fuel + 1, some ref => do
    let tn := (← get).nextOf ref
    modify (·.setPrev ref none)
    modify (·.setNext ref none)
    let rest ← detach fuel tn
    pure (ref :: rest)

end JobQueueExecutorPool

namespace Instr

open JobQueueExecutorPool

/-- The shutdown callback from where the failure policy has let it pass. -/
def replacement (ex : ExecutorRef) : List Instr := [.remove ex, .stop ex, .unlessClosing]

def onConsumerShutdown (ex : ExecutorRef) (isInitiatedByApplication : Bool) : List Instr :=
  if isInitiatedByApplication then replacement ex else [.markFailure, .shouldHalt ex]

def stopNowCode (block : Bool) : List Instr :=
  [.stopExecutors, .shutdownNow, .shutdownCB] ++ if block then [.awaitTermination] else []

def stopCode (block blockAfterKill : Bool) : List Instr :=
  [.stopExecutors, .shutdown, if block then .awaitKillAfter blockAfterKill else .isTerminated]

def startCode (poolSize : ℕ) : List Instr := List.replicate poolSize .createNew

variable {ε π : Type} [ExecutorFailureEnforcer ε]

/-- One statement: what it does to the pool, and the statements it puts in front of the rest.
`expired` says whether a `stop` has waited for its `killAfter`. -/
def code (answers : ClientAnswers) (expired : Bool) : Instr → Code ε π (List Instr)
  | .markFailure => do
    JobQueueExecutorPool.markFailure
    pure []
  | .shouldHalt ex => do
    if ← JobQueueExecutorPool.shouldHalt then pure (.reason :: stopNowCode true)
    else pure (replacement ex)
  | .reason => do
    let _ ← JobQueueExecutorPool.reason
    pure []
  | .remove ex => do
    modify (·.remove ex)
    pure []
  | .stop ex => do
    modify (·.stopExecutor ex)
    pure []
  | .unlessClosing => do
    if (← get).closing then pure [] else pure [.createNew]
  | .createNew => do
    let ex ← JobQueueExecutorPool.createNew answers
    pure [.init ex, .add ex]
  | .init ex => do
    JobQueueExecutorPool.init ex answers
    pure []
  | .add ex => do
    Effect.ofExcept (JobQueueExecutorPool.add ex)
    pure []
  | .stopExecutors => do
    let pool ← get
    if pool.closing then pure []
    else
      modify ({ · with closing := true, head := none, tail := none })
      let visited ← detach (pool.executors.length + 1) pool.head
      pure (visited.map .stop ++ [.unlock])
  | .unlock => pure []
  | .shutdown => do
    modify fun pool => { pool with threads := pool.threads.shutdown }
    pure []
  | .shutdownNow => do
    modify fun pool => { pool with threads := pool.threads.shutdownNow }
    pure []
  | .shutdownCB => do
    Effect.swallow (modify abort)
    pure []
  | .isTerminated => do
    pure [.returned (if (← get).threads.isTerminated then .graceful else .unknown)]
  | .awaitKillAfter blockAfterKill => do
    if (← get).threads.isTerminated then pure [.returned .graceful]
    else if expired then
      pure ([.shutdownNow, .shutdownCB] ++ (if blockAfterKill then [.awaitTermination] else []) ++
        [.returned .forced])
    else Effect.diverge
  | .awaitTermination => do
    JobQueueExecutorPool.awaitTermination
    pure []
  | .returned _ => Effect.diverge

end Instr

/-- The pool and the statements each thread has still to execute. -/
structure PoolThreads (ε π : Type) where
  pool : JobQueueExecutorPool ε π
  activities : List (List Instr) := []

inductive PoolAction
  | callStop (block blockAfterKill : Bool)
  | callStopNow (block : Bool)
  /-- Something other than the pool closes an open channel. -/
  | close (ex : ExecutorRef) (cause : CloseCause)
  /-- The client starts the shutdown callback of a consumer whose channel has closed. -/
  | signal (ex : ExecutorRef)
  /-- A thread executes its next statement. -/
  | exec (activity : ℕ) (answers : ClientAnswers) (expired : Bool)

namespace PoolThreads

variable {ε π : Type}

/-- The constructor has returned, and a thread calls `start`. -/
def starting (pool : JobQueueExecutorPool ε π) : PoolThreads ε π :=
  { pool, activities := [Instr.startCode pool.poolSize] }

def call (threads : PoolThreads ε π) (code : List Instr) : PoolThreads ε π :=
  { threads with activities := threads.activities ++ [code] }

/-- A thread is inside the synchronized block of `stopExecutors`. -/
def locked (threads : PoolThreads ε π) : Bool := threads.activities.any (·.contains .unlock)

/-- Why the shutdown callback of an executor is due: its consumer was registered, its channel is
closed, and the client has not run the callback yet. -/
def dueSignal (threads : PoolThreads ε π) (ex : ExecutorRef) : Option CloseCause :=
  (threads.pool.executors[ex]?).bind fun executor =>
    if executor.subscribed && !executor.signalled then executor.channel.closedBy else none

variable [ExecutorFailureEnforcer ε]

/-- A statement that throws ends the method it is part of. -/
def exec (threads : PoolThreads ε π) (activity : ℕ) (answers : ClientAnswers) (expired : Bool) :
    Option (PoolThreads ε π) :=
  match threads.activities[activity]? with
  | none | some [] => none
  | some (instr :: rest) =>
    if instr = .stopExecutors && threads.locked then none
    else ((instr.code answers expired).exec threads.pool).map fun (result, pool) =>
      { pool
        activities := threads.activities.set activity
          (match result with
          | .ok more => more ++ rest
          | .error _ => []) }

def step (threads : PoolThreads ε π) : PoolAction → Option (PoolThreads ε π)
  | .callStop block blockAfterKill => some (threads.call (Instr.stopCode block blockAfterKill))
  | .callStopNow block => some (threads.call (Instr.stopNowCode block ++ [.returned .forced]))
  | .close ex cause =>
    if threads.pool.isOpen ex && !cause.isOwnStop then
      some { threads with pool := threads.pool.closeChannel ex cause }
    else none
  | .signal ex => (threads.dueSignal ex).map fun cause =>
    { pool := threads.pool.kill ex cause
      activities :=
        threads.activities ++ [Instr.onConsumerShutdown ex cause.isInitiatedByApplication] }
  | .exec activity answers expired => threads.exec activity answers expired

end PoolThreads

end RabbitJobQueue.Model
