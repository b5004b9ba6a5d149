import PathMtu.Proofs.History
import PathMtu.Proofs.Validation
import PathMtu.Random.Predictable

namespace PathMtu

namespace Session

variable {σ : Type} [RandomSource σ]

/-- Nothing but the interval holds back an open search that waits for no reply. -/
theorem tick_issues_iff {s : Session σ} (enabled : s.config.enabled = true)
    (idle : s.outstanding = none) (opened : ¬s.clamp.Converged) (now rto : Int) :
    (s.tick now rto).answer.isSome = true ↔ s.config.intervalNanos ≤ now - s.lastActivity := by
  have hc := tick_case s now rto
  generalize (s.tick now rto).session = after at hc
  generalize (s.tick now rto).answer = answer at hc ⊢
  cases hc with
  | disabled hd => rw [enabled] at hd; cases hd
  | waiting _ ho _ => rw [idle] at ho; cases ho
  | expired _ ho _ => rw [idle] at ho; cases ho
  | settled _ _ hclosed => exact absurd hclosed opened
  | early _ _ _ hearly => exact iff_of_false Bool.false_ne_true (Int.not_le.mpr hearly)
  | issued _ _ _ hdue => exact iff_of_true rfl hdue

/-- The interval is held against the elapsed time as the number of nanoseconds that 64 bits keep of
it. That is the interval itself, for every elapsed time that 64 bits hold, exactly if they hold the
interval as well. An accepted configuration may have a longer one. -/
theorem interval_gate_exact_iff {config : Config} (valid : config.validate = .ok ())
    (enabled : config.enabled = true) (now : Int) (source : σ) {calls : List Call}
    (idle : ((start config now source).after calls).outstanding = none)
    (opened : ¬((start config now source).after calls).clamp.Converged) :
    let s := (start config now source).after calls
    let interval := config.interval.toInt * 1000000
    (∀ later rto, (s.tick later rto).answer.isSome = true ↔
        interval.bmod (2 ^ 64) ≤ later - s.lastActivity) ∧
      ((∀ later rto, -2 ^ 63 ≤ later - s.lastActivity → later - s.lastActivity < 2 ^ 63 →
          ((s.tick later rto).answer.isSome = true ↔ interval ≤ later - s.lastActivity)) ↔
        interval < 2 ^ 63) := by
  intro s interval
  have hconfig : s.config = config := start_after_config config now source calls
  have hnonneg := (Config.validate_eq_ok.mp valid).interval
  have hissues : ∀ later rto, (s.tick later rto).answer.isSome = true ↔
      config.intervalNanos ≤ later - s.lastActivity := by
    intro later rto
    rw [← hconfig]
    exact tick_issues_iff (by rw [hconfig]; exact enabled) idle opened later rto
  refine ⟨?_, ?_, ?_⟩
  · intro later rto
    rw [← config.intervalNanos_eq_bmod]
    exact hissues later rto
  · intro hexact
    have hge : -2 ^ 63 ≤ config.intervalNanos := Int64.le_toInt _
    have hlt : config.intervalNanos < 2 ^ 63 := Int64.toInt_lt _
    -- A probe is issued once the kept number has passed, so the interval has passed by then.
    have hpassed :
        s.lastActivity + config.intervalNanos - s.lastActivity = config.intervalNanos := by omega
    have hgate := hexact (s.lastActivity + config.intervalNanos) 0
    rw [hpassed, hissues, hpassed] at hgate
    exact Int.lt_of_le_of_lt ((hgate hge hlt).mp (Int.le_refl _)) hlt
  · intro hfits later rto _ _
    rw [hissues, Config.intervalNanos_eq_of_fits hnonneg hfits]

/-- The longest interval that 64 bits hold as nanoseconds, counted from a restart. -/
theorem interval_gate_exact_9223372036854 :
    let config : Config := { interval := 9223372036854 }
    let s := (start config 0 ({} : CountingSource)).after [.reply ⟨900, 1000⟩ 3, .restart 5]
    config.validate = .ok () ∧ s.lastActivity = 5 ∧
      (s.tick 9223372036854000004 0).answer.isSome = false ∧
      (s.tick 9223372036854000005 0).answer.isSome = true := by
  intro config s
  have valid : config.validate = .ok () := rfl
  have hlast : s.lastActivity = 5 := rfl
  have hinterval : config.interval.toInt * 1000000 = 9223372036854000000 := by decide
  obtain ⟨_, hexact⟩ := interval_gate_exact_iff valid rfl 0 ({} : CountingSource)
    (rfl : s.outstanding = none) (by decide +kernel)
  have hgate := hexact.mpr (by decide)
  change ∀ later rto, -2 ^ 63 ≤ later - s.lastActivity → later - s.lastActivity < 2 ^ 63 →
    ((s.tick later rto).answer.isSome = true ↔ _ ≤ later - s.lastActivity) at hgate
  rw [hlast, hinterval] at hgate
  refine ⟨valid, hlast, ?_, ?_⟩
  · have hearly := hgate 9223372036854000004 0 (by decide) (by decide)
    exact Bool.eq_false_iff.mpr fun hissued => absurd (hearly.mp hissued) (by decide)
  · have hdue := hgate 9223372036854000005 0 (by decide) (by decide)
    exact hdue.mpr (by decide)

/-- With one millisecond more, 64 bits keep a negative number, and a nanosecond is time enough. -/
theorem wrapped_interval_issues_at_once :
    let config : Config := { interval := 9223372036855 }
    let s := start config 0 ({} : CountingSource)
    config.validate = .ok () ∧ config.enabled = true ∧ s.outstanding = none ∧
      ¬s.clamp.Converged ∧ config.intervalNanos = -9223372036854551616 ∧
      (s.tick 1 0).answer.isSome = true ∧
      ¬config.interval.toInt * 1000000 ≤ 1 - s.lastActivity :=
  ⟨rfl, rfl, rfl, by decide +kernel, by decide +kernel, by decide +kernel, by decide +kernel⟩

end Session

end PathMtu
