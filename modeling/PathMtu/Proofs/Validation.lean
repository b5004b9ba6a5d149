import Mathlib.Algebra.Group.Int.Defs
import Mathlib.Algebra.Group.Nat.Defs
import PathMtu.Simulator.Options

namespace PathMtu

/-- What a configuration must be to be accepted. -/
structure Config.Accepted (config : Config) : Prop where
  minSize_pos : 0 < config.minSize.toNat
  ordered : config.minSize.toNat ≤ config.maxSize.toNat
  fragmentSize_pos : 0 < config.fragmentSize.toNat
  buffer : config.minSize.toNat ≤ config.receiveBuffer.toNat
  interval : 0 ≤ config.interval.toInt

theorem Config.validate_eq_ok {config : Config} : config.validate = .ok () ↔ config.Accepted := by
  have hmin : config.minSize = 0 ↔ config.minSize.toNat = 0 := UInt16.toNat_inj.symm
  have hmax : config.maxSize < config.minSize ↔ config.maxSize.toNat < config.minSize.toNat :=
    UInt16.lt_iff_toNat_lt
  have hfragment : config.fragmentSize = 0 ↔ config.fragmentSize.toNat = 0 := UInt16.toNat_inj.symm
  have hinterval : config.interval < 0 ↔ config.interval.toInt < 0 := Int64.lt_iff_toInt_lt
  unfold validate
  simp only [hmin, hmax, hfragment, hinterval]
  constructor
  · intro h
    split at h
    · cases h
    split at h
    · cases h
    split at h
    · cases h
    split at h
    · cases h
    split at h
    · cases h
    constructor <;> omega
  · intro h
    have h0 := h.minSize_pos
    have h1 := h.ordered
    have h2 := h.fragmentSize_pos
    have h3 := h.buffer
    have h4 := h.interval
    rw [if_neg (by omega), if_neg (by omega), if_neg (by omega), if_neg (by omega),
      if_neg (by omega)]

theorem Config.Accepted.lowest_le {config : Config} (h : config.Accepted) :
    config.lowest ≤ min config.maxSize.toNat config.cap := by
  have hordered := h.ordered
  have hbuffer := h.buffer
  have hword := config.minSize.toNat_lt
  unfold lowest cap largestSize
  omega

theorem Options.validate_eq_ok {options : Options} : options.validate = .ok () ↔
    ¬(options.lossRate < 0 ∨ 1 < options.lossRate) ∧ 0 < options.tickInterval.toNat ∧
      options.config.Accepted := by
  have htick : options.tickInterval = 0 ↔ options.tickInterval.toNat = 0 := UInt32.toNat_inj.symm
  rw [← Config.validate_eq_ok]
  unfold validate
  simp only [htick]
  by_cases hloss : options.lossRate < 0 ∨ 1 < options.lossRate
  · rw [if_pos hloss]
    exact iff_of_false nofun fun h => h.1 hloss
  rw [if_neg hloss]
  by_cases hzero : options.tickInterval.toNat = 0
  · rw [if_pos hzero]
    refine iff_of_false nofun fun h => ?_
    have := h.2.1
    omega
  rw [if_neg hzero]
  cases options.config.validate with
  | ok => exact iff_of_true rfl ⟨hloss, Nat.pos_of_ne_zero hzero, rfl⟩
  | error error => exact iff_of_false nofun fun h => nomatch h.2.2

theorem Options.accepted_of_validate {options : Options} (h : options.validate = .ok ()) :
    0 < options.tickInterval.toNat ∧ options.config.Accepted :=
  (validate_eq_ok.mp h).2

theorem Config.intervalNanos_eq_bmod (config : Config) :
    config.intervalNanos = (config.interval.toInt * 1000000).bmod (2 ^ 64) := by
  unfold intervalNanos
  rw [Int64.toInt_mul]
  rfl

/-- An interval that fits into 64 bits as a number of nanoseconds keeps its length. -/
theorem Config.intervalNanos_eq_of_fits {config : Config} (nonneg : 0 ≤ config.interval.toInt)
    (fits : config.interval.toInt * 1000000 < 2 ^ 63) :
    config.intervalNanos = config.interval.toInt * 1000000 := by
  rw [intervalNanos_eq_bmod]
  apply Int.bmod_eq_of_le <;> omega

/-- An interval of the accepted range is the same number of nanoseconds. -/
theorem Config.intervalNanos_eq {config : Config} (nonneg : 0 ≤ config.interval.toInt)
    (small : config.interval.toInt < 2 ^ 32) :
    config.intervalNanos = config.interval.toInt * 1000000 :=
  intervalNanos_eq_of_fits nonneg (by omega)

end PathMtu
