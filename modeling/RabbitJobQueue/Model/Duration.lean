import RabbitJobQueue.Machine.BinaryRounding

/-! # Durations

The durations that are not negative, in whole nanoseconds, as far as the configuration needs them; and
the finite ones of either sign, which a failure policy takes and prints. A product with a fraction is
taken in Doubles, which have 53 significant binary digits.
-/

namespace RabbitJobQueue.Model

open Machine

/-- `Long.MAX_VALUE`. -/
def maxLong : ℕ := 9223372036854775807

/-- From `MAX_MILLIS` milliseconds on it is the infinite one. -/
structure Duration where
  inWholeNanoseconds : ℕ
deriving DecidableEq, Repr

namespace Duration

/-- `MAX_NANOS`: what is longer is kept in milliseconds. -/
def maxNanos : ℕ := 4611686018426999999

/-- `MAX_MILLIS`: so many milliseconds stand for an infinite duration. -/
def maxMillis : ℕ := 4611686018427387903

def seconds (count : ℕ) : Duration := ⟨count * 1000000000⟩

def minutes (count : ℕ) : Duration := seconds (count * 60)

/-- In whole units of so many nanoseconds; the largest `Long` when it is infinite. -/
def toLong (duration : Duration) (unit : ℕ) : ℕ :=
  if duration.inWholeNanoseconds < maxMillis * 1000000 then duration.inWholeNanoseconds / unit
  else maxLong

def inWholeMilliseconds (duration : Duration) : ℕ := duration.toLong 1000000

def inWholeSeconds (duration : Duration) : ℕ := duration.toLong 1000000000

/-- The nearest Double. -/
def toDouble (x : ℚ) : ℚ := roundTo 53 x

/-- The nearest `Long`, half up; what does not fit becomes the largest. -/
def roundToLong (x : ℚ) : ℕ := min ⌊x + 1 / 2⌋₊ maxLong

/-- `Double.toDuration` of a number of units of so many nanoseconds. -/
def ofDouble (value : ℚ) (unit : ℕ) : Duration :=
  let nanos := roundToLong (toDouble (value * unit))
  if nanos ≤ maxNanos then ⟨nanos⟩
  else ⟨min (roundToLong (toDouble (value * unit / 1000000))) maxMillis * 1000000⟩

/-- The product with a Double that is no whole number, in the unit the duration is kept in. -/
def times (duration : Duration) (scale : ℚ) : Duration :=
  if duration.inWholeNanoseconds ≤ maxNanos then
    ofDouble (toDouble (toDouble duration.inWholeNanoseconds * scale)) 1
  else ofDouble (toDouble (toDouble (duration.inWholeNanoseconds / 1000000 : ℕ) * scale)) 1000000

end Duration

/-- A finite duration of either sign, in whole nanoseconds. -/
structure SignedDuration where
  inWholeNanoseconds : ℤ
deriving DecidableEq, Repr

namespace SignedDuration

/-- Rounded towards zero. -/
def inWholeMilliseconds (duration : SignedDuration) : ℤ := duration.inWholeNanoseconds.tdiv 1000000

/-- `appendFractional`: the digits behind the point without the zeros at their end, but in groups of
three when there are three or more. -/
def fractional (whole fraction size : ℕ) (unit : String) : String :=
  if fraction = 0 then s!"{whole}{unit}"
  else
    let digits := (Nat.toDigits 10 fraction).leftpad size '0'
    let significant := (digits.reverse.dropWhile (· == '0')).length
    let shown := if significant < 3 then significant else (significant + 2) / 3 * 3
    let behind := String.ofList (digits.take shown)
    s!"{whole}.{behind}{unit}"

/-- The components of the absolute value, from the days down. -/
def components (nanoseconds : ℕ) : List String :=
  let days := nanoseconds / 86400000000000
  let hours := nanoseconds / 3600000000000 % 24
  let minutes := nanoseconds / 60000000000 % 60
  let seconds := nanoseconds / 1000000000 % 60
  let rest := nanoseconds % 1000000000
  let hasSeconds := seconds ≠ 0 ∨ rest ≠ 0
  (if days ≠ 0 then [s!"{days}d"] else []) ++
  (if hours ≠ 0 ∨ (days ≠ 0 ∧ (minutes ≠ 0 ∨ hasSeconds)) then [s!"{hours}h"] else []) ++
  (if minutes ≠ 0 ∨ (hasSeconds ∧ (hours ≠ 0 ∨ days ≠ 0)) then [s!"{minutes}m"] else []) ++
  (if ¬ hasSeconds then []
  else if seconds ≠ 0 ∨ days ≠ 0 ∨ hours ≠ 0 ∨ minutes ≠ 0 then [fractional seconds rest 9 "s"]
  else if 1000000 ≤ rest then [fractional (rest / 1000000) (rest % 1000000) 6 "ms"]
  else if 1000 ≤ rest then [fractional (rest / 1000) (rest % 1000) 3 "us"]
  else [s!"{rest}ns"])

def toString (duration : SignedDuration) : String :=
  let parts := components duration.inWholeNanoseconds.natAbs
  let text := " ".intercalate parts
  if duration.inWholeNanoseconds = 0 then "0s"
  else if 0 < duration.inWholeNanoseconds then text
  else if parts.length > 1 then s!"-({text})"
  else s!"-{text}"

instance : ToString SignedDuration := ⟨toString⟩

end SignedDuration

end RabbitJobQueue.Model
