import PathMtu.Proofs.SessionSteps

namespace PathMtu

namespace Session

variable {σ : Type}

theorem phase_eq_converged {s : Session σ} :
    s.phase = .converged ↔ s.outstanding = none ∧ s.Converged := by
  unfold phase
  cases ho : s.outstanding with
  | some probe => simp
  | none => by_cases hc : s.Converged <;> simp [hc]

theorem low_lt_high_of_not_converged {s : Session σ} (h : ¬s.Converged) : s.low < s.high := by
  unfold Converged at h
  omega

theorem clamp_high (s : Session σ) :
    s.config.cap < s.high ∧ s.clamp.high = max s.config.cap s.low ∨
      s.high ≤ s.config.cap ∧ s.clamp.high = s.high := by
  by_cases h : s.config.cap < s.high
  · exact Or.inl ⟨h, if_pos h⟩
  · exact Or.inr ⟨by omega, if_neg h⟩

theorem clamp_ordered {s : Session σ} (ordered : s.low ≤ s.high) : s.low ≤ s.clamp.high := by
  rcases clamp_high s with ⟨_, hhigh⟩ | ⟨_, hhigh⟩ <;> omega

theorem clamp_high_le {s : Session σ} (ordered : s.low ≤ s.high) : s.clamp.high ≤ s.high := by
  rcases clamp_high s with ⟨_, hhigh⟩ | ⟨_, hhigh⟩ <;> omega

theorem clamp_high_le_cap {s : Session σ} (h : ¬s.clamp.Converged) :
    s.clamp.high ≤ s.config.cap := by
  have hlt : s.low < s.clamp.high := low_lt_high_of_not_converged h
  rcases clamp_high s with ⟨_, hhigh⟩ | ⟨_, hhigh⟩ <;> omega

/-- The upper bound exceeds the cap only together with the lower bound. -/
def Clamped (s : Session σ) : Prop := s.high ≤ max s.config.cap s.low

theorem clamp_clamped (s : Session σ) : s.clamp.Clamped := by
  show s.clamp.high ≤ max s.config.cap s.low
  rcases clamp_high s with ⟨_, hhigh⟩ | ⟨_, hhigh⟩ <;> omega

theorem Clamped.clamp_eq {s : Session σ} (h : s.Clamped) (ordered : s.low ≤ s.high) :
    s.clamp = s := by
  have hhigh : s.clamp.high = s.high := by
    unfold Clamped at h
    rcases clamp_high s with ⟨_, hhigh⟩ | ⟨_, hhigh⟩ <;> omega
  calc s.clamp = { s with high := s.clamp.high } := rfl
    _ = s := by rw [hhigh]

theorem expire_high_le {s : Session σ} (ordered : s.low ≤ s.high) (probe : Outstanding)
    (now : Int) : (s.expire probe now).high ≤ s.high := by
  show max (if probe.candidate = 0 then s.high else min s.high (probe.candidate - 1)) s.low ≤ s.high
  split <;> omega

theorem midpoint_lt_high {s : Session σ} (h : ¬s.Converged) : s.midpoint < s.high := by
  have := low_lt_high_of_not_converged h
  unfold midpoint
  omega

/-- What holds of every session that a run reaches: the bounds are in order, and a probe that waits
for its reply was sent for the midpoint of bounds that are open and within the cap. -/
structure Coherent (s : Session σ) : Prop where
  ordered : s.low ≤ s.high
  candidate : ∀ probe, s.outstanding = some probe → probe.candidate = s.midpoint
  opened : s.outstanding ≠ none → ¬s.Converged
  capped : s.outstanding ≠ none → s.high ≤ s.config.cap

theorem coherent_of_none {s : Session σ} (ordered : s.low ≤ s.high) (h : s.outstanding = none) :
    s.Coherent := by
  refine ⟨ordered, ?_, fun hn => absurd h hn, fun hn => absurd h hn⟩
  intro probe hp
  rw [h] at hp
  cases hp

theorem Coherent.open_of_waits {s : Session σ} (hs : s.Coherent) {probe : Outstanding}
    (ho : s.outstanding = some probe) : ¬s.Converged ∧ s.high ≤ s.config.cap := by
  have hne : s.outstanding ≠ none := by
    rw [ho]
    exact Option.some_ne_none probe
  exact ⟨hs.opened hne, hs.capped hne⟩

theorem start_coherent (config : Config) (now : Int) (source : σ) :
    (start config now source).Coherent :=
  coherent_of_none (Nat.le_max_right _ _) rfl

variable [RandomSource σ]

theorem TickCase.coherent {s after : Session σ} {now rto : Int} {answer : Option Probe}
    (h : TickCase s now rto after answer) (hs : s.Coherent) : after.Coherent := by
  have hclamp := clamp_ordered hs.ordered
  cases h with
  | disabled => exact hs
  | waiting => exact hs
  | expired => exact coherent_of_none (Nat.le_max_right _ _) rfl
  | settled _ ho _ => exact coherent_of_none hclamp ho
  | early _ ho _ _ => exact coherent_of_none hclamp ho
  | issued _ _ hc _ =>
    refine ⟨hclamp, ?_, fun _ => hc, fun _ => clamp_high_le_cap hc⟩
    intro probe hp
    cases Option.some.inj hp
    rfl

theorem TickCase.clamped {s after : Session σ} {now rto : Int} {answer : Option Probe}
    (h : TickCase s now rto after answer) (hs : s.Coherent) (enabled : s.config.enabled = true) :
    after.Clamped := by
  cases h with
  | disabled hd =>
    rw [enabled] at hd
    cases hd
  | waiting _ ho _ =>
    have hcap := (hs.open_of_waits ho).2
    exact Nat.le_trans hcap (Nat.le_max_left _ _)
  | @expired probe _ ho _ =>
    have hcap := (hs.open_of_waits ho).2
    have hle := expire_high_le hs.ordered probe now
    exact Nat.le_trans (Nat.le_trans hle hcap) (Nat.le_max_left _ _)
  | settled => exact clamp_clamped s
  | early => exact clamp_clamped s
  | issued => exact clamp_clamped s

theorem CallCase.coherent {s after : Session σ} {call : Call} {answer : Answer}
    (h : CallCase s call after answer) (hs : s.Coherent) : after.Coherent := by
  cases h with
  | tick h => exact h.coherent hs
  | accepted => exact coherent_of_none (Nat.le_max_right _ _) rfl
  | rejected => exact ⟨hs.ordered, hs.candidate, hs.opened, hs.capped⟩
  | restarted => exact coherent_of_none (Nat.le_max_right _ _) rfl
  | resized => exact ⟨hs.ordered, hs.candidate, hs.opened, hs.capped⟩

theorem CallCase.config {s after : Session σ} {call : Call} {answer : Answer}
    (h : CallCase s call after answer) : after.config = s.config := by
  cases h with
  | tick h => cases h <;> rfl
  | _ => rfl

theorem issue_size {s : Session σ} (hc : ¬s.Converged) (hcap : s.high ≤ s.config.cap) (now : Int) :
    (s.issue now).answer.size = s.midpoint := by
  have := midpoint_lt_high hc
  show min s.midpoint s.config.cap = s.midpoint
  omega

theorem issue_payload_size (s : Session σ) (now : Int) :
    (s.issue now).answer.payload.size =
      s.config.framing.payloadLength (s.issue now).answer.size := by
  show (RandomSource.fill s.source (s.config.framing.payloadLength s.target)).value.toArray.size = _
  rw [List.size_toArray, RandomSource.length_fill]
  rfl

/-- A probe's datagram has the advertised size, unless the framing alone exceeds it. -/
theorem issue_encodedSize (s : Session σ) (now : Int) :
    (s.issue now).answer.encodedSize s.config.framing =
      max (s.issue now).answer.size (s.config.framing.overhead + 1) := by
  unfold Probe.encodedSize
  rw [issue_payload_size, Framing.encodedSize_payloadLength]

end Session

end PathMtu
