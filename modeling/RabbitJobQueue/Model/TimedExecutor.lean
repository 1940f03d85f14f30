import RabbitJobQueue.Machine.SerialServer
import RabbitJobQueue.Model.QueueWrapper

/-! # An executor in time

The delivery callback of an executor blocks in `future.get`, and the client runs the callbacks of a
channel one after the other: in time an executor is a serial server. `basicQos` is never called, so the
broker hands a message out whenever it likes (`arrive`); the client starts the callback of the next
delivery (`begin`), and acknowledging it ends the callback (`complete`). Handlers are taken to return,
a thread to be free for every job, and statements to take no time. Times are in nanoseconds.
-/

namespace RabbitJobQueue.Model

open Machine

/-- `TimeUnit.SECONDS.toNanos`: what does not fit becomes the largest `Long`. -/
def secondsToNanos (count : ℕ) : ℕ := min (count * 1000000000) maxLong

/-- How long `future.get(jobTimeout.inWholeSeconds, TimeUnit.SECONDS)` waits. -/
def waitLimit (jobTimeout : Duration) : ℕ := secondsToNanos jobTimeout.inWholeSeconds

/-- How long the broker waits for an acknowledgement. -/
def ackTimeout (config : QueueConfig) : ℕ := config.consumerTimeout * 1000000

/-- The same with the product taken exactly. -/
def exactAckTimeout (jobTimeout : Duration) : ℕ :=
  jobTimeout.inWholeNanoseconds * 3 / (2 * 1000000) * 1000000

/-- A delivery in turn is a message whose handlers run for `payload`. -/
abbrev TimedExecutor := SerialServer Duration

abbrev TimedAction := ServerAction Duration

namespace TimedExecutor

/-- How long a delivery callback takes: `future.get` returns when the job has come back, or when its
time is over; both ends acknowledge. -/
def occupancy (jobTimeout duration : Duration) : ℕ := min duration.inWholeNanoseconds (waitLimit jobTimeout)

def step (config : QueueConfig) : TimedExecutor → TimedAction → Option TimedExecutor :=
  SerialServer.step (occupancy config.maxJobExecutionTime)

end TimedExecutor

end RabbitJobQueue.Model
