import RabbitJobQueue.Machine.Effect
import RabbitJobQueue.Model.FailurePolicy
import Mathlib.Data.Nat.Notation

/-! # Connection and executor settings

The settings of `ConnectionConfig` and `ExecutorConfig`, with their defaults. Three of them are assigned
through setters that may refuse. The setters of the port and of the worker count check the value they are
given; the setter of the host name checks the name that it is about to replace.
-/

namespace RabbitJobQueue.Model

open Machine

/-- Kotlin's `Char.isWhitespace` on the JVM: `Character.isWhitespace` or `Character.isSpaceChar`. -/
def isWhitespace (char : Char) : Bool :=
  let code := char.toNat
  (0x9 ≤ code && code ≤ 0xD) || (0x1C ≤ code && code ≤ 0x20) || code == 0xA0 || code == 0x1680 ||
    (0x2000 ≤ code && code ≤ 0x200A) || code == 0x2028 || code == 0x2029 || code == 0x202F ||
    code == 0x205F || code == 0x3000

def isBlank (text : String) : Bool := text.toList.all isWhitespace

/-- A setter that refuses an invalid value. -/
def checkedSetter {σ α : Type} (invalid : α → Bool) (message : α → String) (assign : α → σ → σ) (value : α) :
    Effect Throwable σ Unit := do
  if invalid value then throw (.illegalArgument (some (message value)))
  else modify (assign value)

/-- `config/ConnectionConfig.kt`, over the client library's connection factories. -/
structure ConnectionConfig (φ : Type) where
  hostname : String := "rabbit"
  username : String := "guest"
  password : String := "guest"
  hostPort : Int32 := 5672
  timeout : SignedDuration := ⟨5000000000⟩
  connectionFactory : φ
deriving Repr

namespace ConnectionConfig

variable {φ : Type}

/-- The name tested is the one in the field, not the one assigned. -/
def setHostname (value : String) : Effect Throwable (ConnectionConfig φ) Unit := do
  if isBlank (← get).hostname then
    throw (.illegalArgument (some "RabbitMQ hostname cannot be blank"))
  else modify fun config => { config with hostname := value }

def setHostPort : Int32 → Effect Throwable (ConnectionConfig φ) Unit :=
  checkedSetter (fun value => !(decide (1 ≤ value) && decide (value ≤ 65535)))
    (fun value => s!"invalid port number {value}") fun value config => { config with hostPort := value }

/-- What the setters are there to keep. -/
structure Valid (config : ConnectionConfig φ) : Prop where
  hostname : isBlank config.hostname = false
  hostPort : 1 ≤ config.hostPort ∧ config.hostPort ≤ 65535

end ConnectionConfig

/-- `config/ExecutorConfig.kt`; `κ` are the callbacks for jobs that take too long. -/
structure ExecutorConfig (κ : Type) where
  workers : Int32 := 5
  maxJobExecutionTime : SignedDuration := ⟨900000000000⟩
  jobTimeoutCallback : κ
  failurePolicy : Option ExecutorFailurePolicy := none
deriving Repr

namespace ExecutorConfig

variable {κ : Type}

def setWorkers : Int32 → Effect Throwable (ExecutorConfig κ) Unit :=
  checkedSetter (fun value => decide (value < 1))
    (fun _ => "cannot set worker count to a value less than 1") fun value config =>
      { config with workers := value }

def getOrCreateFailureEnforcer (config : ExecutorConfig κ) : PolicyEnforcer :=
  Model.getOrCreateFailureEnforcer config.workers config.failurePolicy

def Valid (config : ExecutorConfig κ) : Prop := 1 ≤ config.workers

end ExecutorConfig

/-- A caller's two configuration objects. -/
structure Settings (φ κ : Type) where
  connection : ConnectionConfig φ
  executor : ExecutorConfig κ
deriving Repr

/-- An assignment to one of the checked settings. -/
inductive Assignment
  | hostname (value : String)
  | hostPort (value : Int32)
  | workers (value : Int32)
deriving DecidableEq, Repr

namespace Assignment

/-- The value is one the setting may have. -/
def Valid : Assignment → Prop
  | .hostname value => isBlank value = false
  | .hostPort value => 1 ≤ value ∧ value ≤ 65535
  | .workers value => 1 ≤ value

instance : ∀ assignment : Assignment, Decidable assignment.Valid
  | .hostname _ => inferInstanceAs (Decidable (_ = _))
  | .hostPort _ => inferInstanceAs (Decidable (_ ∧ _))
  | .workers _ => inferInstanceAs (Decidable (_ ≤ _))

variable {φ κ : Type}

/-- The settings with the assigned value in its field and every other field as it was. -/
def write (settings : Settings φ κ) : Assignment → Settings φ κ
  | .hostname value => { settings with connection := { settings.connection with hostname := value } }
  | .hostPort value => { settings with connection := { settings.connection with hostPort := value } }
  | .workers value => { settings with executor := { settings.executor with workers := value } }

/-- The setter the assignment calls: what it returns or throws, and the settings it leaves. -/
def perform (settings : Settings φ κ) : Assignment → Option (Except Throwable Unit × Settings φ κ)
  | .hostname value => ((ConnectionConfig.setHostname value).exec settings.connection).map
      fun (result, connection) => (result, { settings with connection })
  | .hostPort value => ((ConnectionConfig.setHostPort value).exec settings.connection).map
      fun (result, connection) => (result, { settings with connection })
  | .workers value => ((ExecutorConfig.setWorkers value).exec settings.executor).map
      fun (result, executor) => (result, { settings with executor })

/-- The caller goes on, whether or not the setter has thrown. -/
def step (settings : Settings φ κ) (assignment : Assignment) : Option (Settings φ κ) :=
  (assignment.perform settings).map (·.2)

end Assignment

end RabbitJobQueue.Model
