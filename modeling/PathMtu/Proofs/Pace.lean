import PathMtu.Proofs.Gap

namespace PathMtu

namespace Session

variable {σ : Type}

/-- How many probes are over. -/
def finished (s : Session σ) : Nat := s.tally.timedOut + s.tally.accepted

/-- The longest that one probe takes with ticks that are `step` apart. It is issued at the first
tick after the interval, and given up at the first tick after its timeout. -/
def period (s : Session σ) (step rto : Int) : Int :=
  s.config.intervalNanos + probeTimeout rto + 2 * step

/-- A search that was on time at its latest tick: the range has been halved for every probe that is
over, and none of them took longer than a period. -/
structure Paced (step rto : Int) (k : Nat) (latest : Int) (s : Session σ) : Prop where
  gap : s.clamp.high - s.low ≤ s.config.threshold.toNat * 2 ^ (k - s.finished)
  idle : s.outstanding = none → s.lastActivity ≤ s.finished * s.period step rto ∧
    latest ≤ s.lastActivity + s.config.intervalNanos
  probing : ∀ probe, s.outstanding = some probe →
    probe.sentAt ≤ s.finished * s.period step rto + s.config.intervalNanos + step ∧
      latest ≤ probe.sentAt + probeTimeout rto

theorem probeTimeout_pos (rto : Int) : 0 < probeTimeout rto := by
  unfold probeTimeout leastProbeTimeout
  omega

theorem start_paced {config : Config} {step rto : Int} {k : Nat} (source : σ)
    (nonneg : 0 ≤ config.intervalNanos) (ordered : config.lowest ≤ config.cap)
    (range : min config.highest config.cap - config.lowest ≤ config.threshold.toNat * 2 ^ k) :
    (start config 0 source).Paced step rto k 0 := by
  refine ⟨?_, ?_, ?_⟩
  · have hhigh : (start config 0 source).clamp.high ≤ min config.highest config.cap := by
      rcases clamp_high (start config 0 source) with ⟨hcap, hclamp⟩ | ⟨hcap, hclamp⟩
      · have hlt : config.cap < config.highest := hcap
        have heq : (start config 0 source).clamp.high = max config.cap config.lowest := hclamp
        omega
      · have hle : config.highest ≤ config.cap := hcap
        have heq : (start config 0 source).clamp.high = config.highest := hclamp
        omega
    show (start config 0 source).clamp.high - config.lowest ≤ config.threshold.toNat * 2 ^ k
    omega
  · intro _
    have hzero : ((start config 0 source).finished : Int) * (start config 0 source).period step rto
        = 0 := Int.zero_mul _
    rw [hzero]
    refine ⟨Int.le_refl 0, ?_⟩
    show 0 ≤ 0 + config.intervalNanos
    omega
  · intro probe hp
    cases hp

theorem Paced.next_period {step rto : Int} {s : Session σ} {probe : Outstanding} {k : Nat}
    {latest now : Int} (h : s.Paced step rto k latest) (ho : s.outstanding = some probe)
    (hnow : now ≤ probe.sentAt + probeTimeout rto + step) :
    now ≤ ((s.finished + 1 : Nat) : Int) * s.period step rto := by
  have hsent := (h.probing probe ho).1
  push_cast
  rw [Int.add_mul, Int.one_mul]
  unfold period at hsent ⊢
  omega

/-- A probe that is over in time has halved the range in time. -/
theorem Paced.resolve {step rto : Int} {k : Nat} {latest now : Int} {s after : Session σ}
    {probe : Outstanding} (h : s.Paced step rto k latest) (hs : s.Coherent)
    (ho : s.outstanding = some probe) (same : after.config = s.config)
    (resolved : after.outstanding = none) (finished : after.finished = s.finished + 1)
    (ordered : after.low ≤ after.high)
    (halved : after.gap ≤ (s.gap + 1) / 2)
    (hactivity : after.lastActivity ≤ probe.sentAt + probeTimeout rto + step)
    (hnow : now ≤ after.lastActivity + s.config.intervalNanos) : after.Paced step rto k now := by
  obtain ⟨hclamp, hopened⟩ := hs.opened_gap ho
  have hgap := h.gap
  rw [hclamp] at hgap
  have hhalf := half_gap_le hgap hopened
  have hle := clamp_high_le ordered
  refine ⟨?_, ?_, ?_⟩
  · rw [finished, same, ← Nat.sub_sub]
    calc after.clamp.high - after.low ≤ after.high - after.low := Nat.sub_le_sub_right hle _
      _ ≤ (s.gap + 1) / 2 := halved
      _ ≤ s.config.threshold.toNat * 2 ^ (k - s.finished - 1) := hhalf
  · intro _
    have hperiod : after.period step rto = s.period step rto := by
      unfold period
      rw [same]
    rw [finished, same, hperiod]
    exact ⟨h.next_period ho hactivity, hnow⟩
  · intro o hp
    rw [resolved] at hp
    cases hp

theorem Paced.expire {step rto : Int} {k : Nat} {latest : Int} {s : Session σ}
    {probe : Outstanding} (h : s.Paced step rto k latest) (hs : s.Coherent)
    (threshold : 1 ≤ s.config.threshold.toNat) (nonneg : 0 ≤ s.config.intervalNanos)
    (ho : s.outstanding = some probe) :
    (s.expire probe (latest + step)).Paced step rto k (latest + step) := by
  obtain ⟨_, hopened⟩ := hs.opened_gap ho
  have hlatest := (h.probing probe ho).2
  have hactivity : latest + step ≤ probe.sentAt + probeTimeout rto + step := by omega
  have hnow : latest + step ≤ latest + step + s.config.intervalNanos :=
    Int.le_add_of_nonneg_right nonneg
  have hfinished : (s.expire probe (latest + step)).finished = s.finished + 1 := by
    show s.tally.timedOut + 1 + s.tally.accepted = s.tally.timedOut + s.tally.accepted + 1
    omega
  -- The range holds at least two sizes more than the lower bound, so the candidate is not zero.
  have hpositive : 0 < probe.candidate := by
    rw [hs.candidate probe ho]
    unfold midpoint
    unfold Session.gap at hopened
    omega
  have hhalf := hs.expire_gap_le_half ho hpositive (latest + step)
  exact h.resolve hs ho rfl rfl hfinished (Nat.le_max_right _ _) (by omega) hactivity hnow

theorem Paced.confirm {step rto : Int} {k : Nat} {latest due : Int} {s : Session σ}
    {probe : Outstanding} (h : s.Paced step rto k latest) (hs : s.Coherent) (hstep : 0 ≤ step)
    (nonneg : 0 ≤ s.config.intervalNanos) (ho : s.outstanding = some probe)
    (hdue : due ≤ probe.sentAt + probeTimeout rto) (hlatest : latest ≤ due) :
    (s.confirm probe.candidate due).Paced step rto k latest := by
  have hactivity : due ≤ probe.sentAt + probeTimeout rto + step := by omega
  have hnow : latest ≤ due + s.config.intervalNanos :=
    Int.le_trans hlatest (Int.le_add_of_nonneg_right nonneg)
  have hhalf := hs.confirm_gap ho due
  exact h.resolve hs ho rfl rfl rfl (Nat.le_max_right _ _) (Nat.le_of_eq hhalf) hactivity hnow

/-- The search is over before the last period is. -/
theorem Paced.latest_le {step rto : Int} {k : Nat} {latest : Int} {s : Session σ}
    (h : s.Paced step rto k latest) (hs : s.Coherent) (clamped : s.Clamped) (hstep : 0 ≤ step)
    (nonneg : 0 ≤ s.config.intervalNanos) (unfinished : s.phase ≠ .converged) :
    latest + step ≤ k * s.period step rto := by
  have htimeout := probeTimeout_pos rto
  have hopened : ¬s.Converged := by
    intro hc
    cases ho : s.outstanding with
    | none => exact unfinished (phase_eq_converged.mpr ⟨ho, hc⟩)
    | some probe => exact (hs.open_of_waits ho).1 hc
  have hlt : s.finished < k := by
    by_cases hlt : s.finished < k
    · exact hlt
    · have hgap := h.gap
      rw [clamped.clamp_eq hs.ordered, Nat.sub_eq_zero_of_le (Nat.le_of_not_lt hlt), Nat.pow_zero,
        Nat.mul_one] at hgap
      exact absurd hgap hopened
  have hperiods : ((s.finished + 1 : Nat) : Int) * s.period step rto ≤ k * s.period step rto := by
    apply Int.mul_le_mul_of_nonneg_right
    · exact_mod_cast hlt
    · unfold period
      omega
  push_cast at hperiods
  rw [Int.add_mul, Int.one_mul] at hperiods
  have hperiod : s.period step rto = s.config.intervalNanos + probeTimeout rto + 2 * step := rfl
  cases ho : s.outstanding with
  | none =>
    have hidle := h.idle ho
    omega
  | some probe =>
    have hprobing := h.probing probe ho
    omega

variable [RandomSource σ]

theorem TickCase.paced {step rto : Int} {k : Nat} {latest : Int} {s after : Session σ}
    {answer : Option Probe} (hc : TickCase s (latest + step) rto after answer)
    (h : s.Paced step rto k latest) (hs : s.Coherent) (enabled : s.config.enabled = true)
    (threshold : 1 ≤ s.config.threshold.toNat) (nonneg : 0 ≤ s.config.intervalNanos) :
    after.phase = .converged ∨ after.Paced step rto k (latest + step) := by
  have htimeout := probeTimeout_pos rto
  have hagain : s.clamp.clamp = s.clamp := (clamp_clamped s).clamp_eq (clamp_ordered hs.ordered)
  have hgap : s.clamp.clamp.high - s.low ≤ s.config.threshold.toNat * 2 ^ (k - s.finished) := by
    rw [hagain]
    exact h.gap
  cases hc with
  | disabled hd =>
    rw [enabled] at hd
    cases hd
  | @waiting probe _ ho hwait =>
    right
    refine ⟨h.gap, ?_, ?_⟩
    · intro hn
      rw [ho] at hn
      cases hn
    · intro o hp
      cases Option.some.inj (ho.symm.trans hp)
      have hsent := (h.probing probe ho).1
      exact ⟨hsent, by omega⟩
  | expired _ ho _ => exact Or.inr (h.expire hs threshold nonneg ho)
  | settled _ ho hconverged => exact Or.inl (phase_eq_converged.mpr ⟨ho, hconverged⟩)
  | early _ ho _ hearly =>
    right
    have hidle := h.idle ho
    refine ⟨hgap, ?_, ?_⟩
    · intro _
      refine ⟨hidle.1, ?_⟩
      show latest + step ≤ s.lastActivity + s.config.intervalNanos
      omega
    · intro o hp
      rw [show s.outstanding = some o from hp] at ho
      cases ho
  | issued _ ho _ _ =>
    right
    have hidle := h.idle ho
    refine ⟨hgap, ?_, ?_⟩
    · intro hn
      cases hn
    · intro o hp
      cases Option.some.inj hp
      constructor
      · show latest + step ≤ s.finished * s.period step rto + s.config.intervalNanos + step
        omega
      · show latest + step ≤ latest + step + probeTimeout rto
        omega

end Session

end PathMtu
