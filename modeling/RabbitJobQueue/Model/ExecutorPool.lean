import RabbitJobQueue.Machine.Heap
import RabbitJobQueue.Machine.ThreadPool
import RabbitJobQueue.Model.Executor
import RabbitJobQueue.Model.FailureEnforcer

/-! # The executor pool

The methods of `JobQueueExecutorPool`, each as one block of code over the pool's fields and the
heap of its executors. Nothing here interleaves: the threads on which these methods run, and the
points at which one can overtake another, are in `Model.PoolThreads`. Channels come from the
client library, so a method that asks for one is given the client's answers.
-/

namespace RabbitJobQueue.Model

open Machine

/-- What the client library answers when a replacement is set up. -/
structure ClientAnswers where
  channelProvider : Except Throwable Unit := .ok ()
  basicConsume : Except Throwable Unit := .ok ()

/-- The channel is opened and the consumer registered. -/
def ClientAnswers.succeed (answers : ClientAnswers) : Prop :=
  answers.channelProvider = .ok () ∧ answers.basicConsume = .ok ()

inductive StopCode
  | unknown
  | graceful
  | forced
deriving DecidableEq, Repr

/-- The part of `ExecutorPoolConfig` the pool's own methods read. -/
structure ExecutorPoolConfig (ε : Type) where
  queueName : String
  poolSize : ℤ
  failureChecker : ε

/-- The pool's fields. `executors` is the heap of all executors it ever constructed, and
`failuresMarked` counts its calls of `failureChecker.markFailure`. -/
structure JobQueueExecutorPool (ε π : Type) where
  poolSize : ℕ
  queueName : String
  failureChecker : ε
  clock : Clock
  threads : ThreadPool π
  closing : Bool := false
  head : Option ExecutorRef := none
  tail : Option ExecutorRef := none
  counter : UInt32 := 0
  executors : List Executor := []
  failuresMarked : ℕ := 0

namespace JobQueueExecutorPool

variable {ε π : Type}

/-- The constructor. `newFixedThreadPool` comes first and refuses a size below one by itself. -/
def new (config : ExecutorPoolConfig ε) (clock : Clock) :
    Except Throwable (JobQueueExecutorPool ε π) :=
  if config.poolSize < 1 then .error (.illegalArgument none)
  else if config.poolSize > 64 then
    .error (.illegalArgument
      (some s!"invalid size value {config.poolSize}, must be in the range [1, 64]"))
  else .ok {
    poolSize := config.poolSize.toNat
    queueName := config.queueName
    failureChecker := config.failureChecker
    clock
    threads := { size := config.poolSize.toNat } }

section Heap

variable (pool : JobQueueExecutorPool ε π) (ref : ExecutorRef)

def nextOf : Option ExecutorRef := (pool.executors[ref]?).bind (·.next)

def prevOf : Option ExecutorRef := (pool.executors[ref]?).bind (·.prev)

def update (change : Executor → Executor) : JobQueueExecutorPool ε π :=
  { pool with executors := pool.executors.modify ref change }

def setNext (target : Option ExecutorRef) : JobQueueExecutorPool ε π :=
  pool.update ref ({ · with next := target })

def setPrev (target : Option ExecutorRef) : JobQueueExecutorPool ε π :=
  pool.update ref ({ · with prev := target })

/-- `ex.stop()`. -/
def stopExecutor : JobQueueExecutorPool ε π := pool.update ref Executor.stop

/-- The executor's channel is open. -/
def isOpen : Bool := (pool.executors[ref]?).any (·.channel.isOpen)

/-- The executor consumes from the queue. -/
def isLive : Bool := (pool.executors[ref]?).any (·.isLive)

/-- The number of executors that consume from the queue. -/
def liveCount : ℕ := pool.executors.countP (·.isLive)

/-- Something other than the pool closes the channel of an executor. -/
def closeChannel (cause : CloseCause) : JobQueueExecutorPool ε π :=
  pool.update ref (·.closeBy cause)

/-- The channel of a dying consumer is closed and its one shutdown signal is on its way. -/
def kill (cause : CloseCause) : JobQueueExecutorPool ε π := pool.update ref (·.die cause)

/-- `config.shutdownCB`, that is `JobQueueExecutor.abort`: the connection goes, with every channel. -/
def abort : JobQueueExecutorPool ε π :=
  { pool with executors := pool.executors.map (·.closeBy .connectionAbort) }

end Heap

/-- `add`: `tail!!` throws when the list has a head and no tail. `prev` is not assigned. -/
def add (ref : ExecutorRef) (pool : JobQueueExecutorPool ε π) :
    Except Throwable Unit × JobQueueExecutorPool ε π :=
  match pool.head with
  | none => (.ok (), { pool with head := some ref, tail := some ref })
  | some _ =>
    match pool.tail with
    | none => (.error .nullPointer, pool)
    | some last => (.ok (), { pool.setNext last (some ref) with tail := some ref })

def remove (pool : JobQueueExecutorPool ε π) (ref : ExecutorRef) : JobQueueExecutorPool ε π :=
  if pool.head = some ref then
    let pool := { pool with head := pool.nextOf ref }
    match pool.head with
    | some first => pool.setPrev first none
    | none => pool
  else if pool.tail = some ref then
    let pool := { pool with tail := pool.prevOf ref }
    match pool.tail with
    | some last => pool.setNext last none
    | none => pool
  else
    let pool := match pool.nextOf ref with
      | some after => pool.setPrev after (pool.prevOf ref)
      | none => pool
    match pool.prevOf ref with
    | some before => pool.setNext before (pool.nextOf ref)
    | none => pool

/-- A block of pool code. -/
abbrev Code (ε π : Type) := Effect Throwable (JobQueueExecutorPool ε π)

/-- A call of the failure checker: it works on its own state and reads the clock. -/
def enforce {α : Type} (method : Effect Throwable (ε × Clock) α) : Code ε π α :=
  ExceptT.mk fun pool => (method.exec (pool.failureChecker, pool.clock)).map
    fun (result, failureChecker, clock) => (result, { pool with failureChecker, clock })

section Methods

variable [ExecutorFailureEnforcer ε]

def markFailure : Code ε π Unit := do
  modify fun pool => { pool with failuresMarked := pool.failuresMarked + 1 }
  enforce ExecutorFailureEnforcer.markFailure

def shouldHalt : Code ε π Bool := enforce ExecutorFailureEnforcer.shouldHalt

def reason : Code ε π String := enforce ExecutorFailureEnforcer.reason

omit [ExecutorFailureEnforcer ε] in
/-- The name is logged; nothing else reads it. -/
def createNew (answers : ClientAnswers) : Code ε π ExecutorRef := do
  modify fun pool => { pool with counter := pool.counter + 1 }
  let pool ← get
  let id := s!"{pool.queueName}-consumer-pool-{pool.counter}"
  match answers.channelProvider with
  | .error exception => throw exception
  | .ok () =>
    modify fun pool => { pool with executors := pool.executors ++ [{ id }] }
    pure pool.executors.length

/-- `Executor.init`: `basicConsume` on the executor's channel. -/
def init (ref : ExecutorRef) (answers : ClientAnswers) : Code ε π Unit := do
  match answers.basicConsume with
  | .error exception => throw exception
  | .ok () =>
    if (← get).isOpen ref then modify (·.update ref ({ · with subscribed := true }))
    else throw .alreadyClosed

/-- `add(createNew().also { it.init(..) })`. -/
def addNew (answers : ClientAnswers) : Code ε π Unit := do
  let ref ← createNew answers
  init ref answers
  Effect.ofExcept (add ref)

/-- The iterations of `start` still to come. -/
def startFrom (answers : ℕ → ClientAnswers) : ℕ → ℕ → Code ε π Unit
  | _, 0 => pure ()
  | i, remaining + 1 => do
    addNew (answers i)
    startFrom answers (i + 1) remaining

def start (answers : ℕ → ClientAnswers) : Code ε π Unit := do
  startFrom answers 0 (← get).poolSize

/-- The loop of `stopExecutors`. Its fuel counts visits: every visit clears a `next` link, so one
more visit than there are executors is always enough (`stopLoop_returns`). -/
def stopLoop : ℕ → Option ExecutorRef → Code ε π Unit
  | _, none => pure ()
  | 0, some _ => Effect.diverge
  | fuel + 1, some ref => do
    let tn := (← get).nextOf ref
    modify (·.setPrev ref none)
    modify (·.setNext ref none)
    modify (·.stopExecutor ref)
    stopLoop fuel tn

def stopExecutors : Code ε π Unit := do
  let pool ← get
  if pool.closing then pure ()
  else
    modify ({ · with closing := true, head := none, tail := none })
    stopLoop (pool.executors.length + 1) pool.head

/-- Wait without a limit for the thread pool to terminate. -/
def awaitTermination : Code ε π Unit := do
  if (← get).threads.isTerminated then pure () else Effect.diverge

def stopNow (block : Bool) : Code ε π StopCode := do
  stopExecutors
  modify fun pool => { pool with threads := pool.threads.shutdownNow }
  Effect.swallow (modify abort)
  if block then awaitTermination
  pure .forced

/-- `stop`; run on its own, the wait for `killAfter` is over at once or lasts to its end. -/
def stop (block blockAfterKill : Bool) : Code ε π StopCode := do
  stopExecutors
  modify fun pool => { pool with threads := pool.threads.shutdown }
  let terminated := (← get).threads.isTerminated
  if !block then pure (if terminated then .graceful else .unknown)
  else if terminated then pure .graceful
  else
    modify fun pool => { pool with threads := pool.threads.shutdownNow }
    Effect.swallow (modify abort)
    if blockAfterKill then awaitTermination
    pure .forced

/-- The end of the shutdown callback, after the failure policy has let it pass. -/
def replace (ref : ExecutorRef) (answers : ClientAnswers) : Code ε π Unit := do
  modify (·.remove ref)
  modify (·.stopExecutor ref)
  if (← get).closing then pure () else addNew answers

/-- The callback `onConsumerShutdown` returns. -/
def onConsumerShutdown (ref : ExecutorRef) (isInitiatedByApplication : Bool)
    (answers : ClientAnswers) : Code ε π Unit := do
  if isInitiatedByApplication then replace ref answers
  else
    markFailure
    if ← shouldHalt then
      let _ ← reason
      let _ ← stopNow true
      pure ()
    else replace ref answers

end Methods

end JobQueueExecutorPool

end RabbitJobQueue.Model
