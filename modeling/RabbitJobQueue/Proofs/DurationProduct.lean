import RabbitJobQueue.Model.TimedExecutor

/-! # The consumer timeout in Doubles

The argument `x-consumer-timeout` comes from a product of Doubles and is cut to whole milliseconds. Each
rounding loses next to nothing, so the broker waits longer than the executor for every limit that is at
least a millisecond; and a limit of whole seconds that lasts less than some thirty years is not rounded.
-/

namespace RabbitJobQueue.Model

open Machine Duration

private theorem maxNanos_eq : maxNanos = 4611686018426999999 := rfl

private theorem maxLong_eq : maxLong = 9223372036854775807 := rfl

private theorem maxMillis_eq : maxMillis = 4611686018427387903 := rfl

/-- A Double is off by less than one in a thousand, to either side. -/
private theorem toDouble_near {x : ℚ} (positive : 0 < x) :
    999 / 1000 * x ≤ toDouble x ∧ toDouble x ≤ 1001 / 1000 * x := by
  have error := abs_roundTo_sub_le 53 positive
  have bound : |toDouble x - x| ≤ x / 1000 := by
    have power : (2 : ℚ) ^ 53 = 9007199254740992 := by norm_num
    rw [power] at error
    rw [toDouble]
    linarith
  rw [abs_le] at bound
  constructor <;> linarith

private theorem le_roundToLong {x : ℚ} (fits : roundToLong x < maxLong) : x - 1 / 2 ≤ roundToLong x := by
  have same : roundToLong x = ⌊x + 1 / 2⌋₊ := by
    unfold roundToLong at fits ⊢
    omega
  have above := Nat.lt_floor_add_one (x + 1 / 2)
  rw [same]
  linarith

private theorem roundToLong_le {x : ℚ} (positive : 0 < x) : (roundToLong x : ℚ) ≤ x + 1 / 2 := by
  have below := Nat.floor_le (by linarith : (0 : ℚ) ≤ x + 1 / 2)
  have capped : ((roundToLong x : ℕ) : ℚ) ≤ ⌊x + 1 / 2⌋₊ := by exact_mod_cast Nat.min_le_left _ _
  linarith

/-- The duration made of a Double loses little of it, unless it becomes the infinite one. -/
private theorem le_ofDouble {value : ℚ} {unit : ℕ} (positive : 0 < value * unit) :
    maxMillis * 1000000 ≤ (ofDouble value unit).inWholeNanoseconds ∨
      998 / 1000 * (value * unit) - 1 ≤ (ofDouble value unit).inWholeNanoseconds := by
  obtain ⟨low, high⟩ := toDouble_near positive
  unfold ofDouble
  dsimp only
  split
  next short =>
    have fits : roundToLong (toDouble (value * unit)) < maxLong := by
      rw [maxNanos_eq] at short
      rw [maxLong_eq]
      omega
    have rounded := le_roundToLong fits
    right
    linarith
  next long =>
    -- the product is so large that half a millisecond does not count
    have least : (maxNanos : ℚ) < roundToLong (toDouble (value * unit)) := by exact_mod_cast not_le.mp long
    have large := roundToLong_le (x := toDouble (value * unit)) (by linarith)
    rw [maxNanos_eq] at least
    push_cast at least
    rcases Nat.lt_or_ge (roundToLong (toDouble (value * unit / 1000000))) maxMillis with finite | infinite
    · right
      have millis := (toDouble_near (div_pos positive (by norm_num : (0 : ℚ) < 1000000))).1
      have rounded := le_roundToLong (lt_trans finite (by decide))
      rw [Nat.min_eq_left finite.le]
      push_cast
      linarith
    · left
      rw [Nat.min_eq_right infinite]

/-- The product with one and a half is not far below it. -/
private theorem le_times (duration : Duration) (some : 1000000 ≤ duration.inWholeNanoseconds) :
    maxMillis * 1000000 ≤ (duration.times (3 / 2)).inWholeNanoseconds ∨
      14 * duration.inWholeNanoseconds ≤ 10 * (duration.times (3 / 2)).inWholeNanoseconds + 10 := by
  have least : (1000000 : ℚ) ≤ duration.inWholeNanoseconds := by exact_mod_cast some
  unfold times
  split
  next short =>
    have first := (toDouble_near (by linarith : (0 : ℚ) < duration.inWholeNanoseconds)).1
    have second := (toDouble_near (by linarith :
      (0 : ℚ) < toDouble duration.inWholeNanoseconds * (3 / 2))).1
    refine (le_ofDouble (by rw [Nat.cast_one]; linarith)).imp_right fun loss => ?_
    rw [Nat.cast_one, mul_one] at loss
    have whole : (14 * duration.inWholeNanoseconds : ℚ) ≤ 10 * (ofDouble (toDouble (toDouble
        duration.inWholeNanoseconds * (3 / 2))) 1).inWholeNanoseconds + 10 := by linarith
    exact_mod_cast whole
  next long =>
    rw [maxNanos_eq] at long
    have cut : duration.inWholeNanoseconds ≤ duration.inWholeNanoseconds / 1000000 * 1000000 + 999999 := by
      omega
    have large : (4611686018426999999 : ℚ) < duration.inWholeNanoseconds := by
      exact_mod_cast not_le.mp long
    have millis : (duration.inWholeNanoseconds : ℚ) ≤
        (duration.inWholeNanoseconds / 1000000 : ℕ) * 1000000 + 999999 := by exact_mod_cast cut
    have first := (toDouble_near (by linarith :
      (0 : ℚ) < (duration.inWholeNanoseconds / 1000000 : ℕ))).1
    have second := (toDouble_near (by linarith :
      (0 : ℚ) < toDouble (duration.inWholeNanoseconds / 1000000 : ℕ) * (3 / 2))).1
    refine (le_ofDouble (by push_cast at *; linarith)).imp_right fun loss => ?_
    push_cast at loss
    have whole : (14 * duration.inWholeNanoseconds : ℚ) ≤ 10 * (ofDouble (toDouble (toDouble
        (duration.inWholeNanoseconds / 1000000 : ℕ) * (3 / 2))) 1000000).inWholeNanoseconds + 10 := by
      linarith
    exact_mod_cast whole

/-- The broker waits longer than the executor. -/
theorem waitLimit_lt_ackTimeout {config : QueueConfig}
    (atLeast : 1000000 ≤ config.maxJobExecutionTime.inWholeNanoseconds) :
    waitLimit config.maxJobExecutionTime < ackTimeout config := by
  have product := le_times config.maxJobExecutionTime atLeast
  unfold waitLimit secondsToNanos ackTimeout QueueConfig.consumerTimeout inWholeSeconds inWholeMilliseconds
    toLong
  rw [maxMillis_eq] at *
  rw [maxLong_eq]
  split <;> split <;> omega

/-- So it does with the product taken exactly. -/
theorem waitLimit_lt_exactAckTimeout {jobTimeout : Duration}
    (atLeast : 1000000 ≤ jobTimeout.inWholeNanoseconds) : waitLimit jobTimeout < exactAckTimeout jobTimeout := by
  unfold waitLimit secondsToNanos exactAckTimeout inWholeSeconds toLong
  rw [maxMillis_eq, maxLong_eq]
  split <;> omega

private theorem toDouble_of_fits {mantissa : ℕ} (fits : mantissa < 2 ^ 53) (exponent : ℕ) :
    toDouble ((mantissa * 2 ^ exponent : ℕ) : ℚ) = (mantissa * 2 ^ exponent : ℕ) :=
  @roundTo_of_fits 53 _ mantissa exponent fits (by push_cast; rw [zpow_natCast])

/-- The product of whole seconds is a Double, up to 2^30 of them. -/
private theorem times_seconds {count : ℕ} (below : count < 2 ^ 30) :
    (Duration.seconds count).times (3 / 2) = ⟨count * 1500000000⟩ := by
  have argument : count * 1000000000 = count * 1953125 * 2 ^ 9 := by omega
  have product : ((count * 1953125 * 2 ^ 9 : ℕ) : ℚ) * (3 / 2) = (count * 5859375 * 2 ^ 8 : ℕ) := by
    push_cast
    ring
  have nanos : roundToLong ((count * 5859375 * 2 ^ 8 : ℕ) : ℚ) = count * 1500000000 := by
    have half : ⌊((count * 5859375 * 2 ^ 8 : ℕ) : ℚ) + 1 / 2⌋₊ = count * 5859375 * 2 ^ 8 := by
      rw [add_comm, Nat.floor_add_natCast (by norm_num)]
      norm_num
    rw [roundToLong, half, maxLong_eq]
    omega
  rw [Duration.times, Duration.seconds, if_pos (by rw [maxNanos_eq]; dsimp only; omega)]
  dsimp only
  rw [argument, toDouble_of_fits (by omega), product, toDouble_of_fits (by omega), ofDouble, Nat.cast_one,
    mul_one, toDouble_of_fits (by omega), nanos, if_pos (by rw [maxNanos_eq]; omega)]

/-- So up to there nothing is rounded. -/
theorem ackTimeout_seconds {config : QueueConfig} {count : ℕ}
    (limit : config.maxJobExecutionTime = .seconds count) (below : count < 2 ^ 30) :
    ackTimeout config = exactAckTimeout config.maxJobExecutionTime := by
  have finite : count * 1500000000 < maxMillis * 1000000 := by
    rw [maxMillis_eq]
    omega
  rw [ackTimeout, QueueConfig.consumerTimeout, exactAckTimeout, limit, times_seconds below,
    inWholeMilliseconds, toLong, if_pos finite, Duration.seconds]
  dsimp only
  omega

end RabbitJobQueue.Model
