import Mathlib.Algebra.Group.Nat.Defs
import PathMtu.Proofs.SearchRange

namespace PathMtu

namespace Session

variable {σ : Type}

/-- How far the bounds of a search are apart. -/
def gap (s : Session σ) : Nat := s.high - s.low

theorem half_gap_le {gap threshold n : Nat} (h : gap ≤ threshold * 2 ^ n)
    (opened : threshold < gap) : (gap + 1) / 2 ≤ threshold * 2 ^ (n - 1) := by
  cases n with
  | zero =>
    rw [Nat.pow_zero, Nat.mul_one] at h
    omega
  | succ n =>
    rw [Nat.pow_succ, ← Nat.mul_assoc] at h
    rw [Nat.add_sub_cancel]
    omega

theorem Coherent.opened_gap {s : Session σ} (hs : s.Coherent) {probe : Outstanding}
    (ho : s.outstanding = some probe) :
    s.clamp.high = s.high ∧ s.config.threshold.toNat < s.gap := by
  obtain ⟨hopened, hcap⟩ := hs.open_of_waits ho
  unfold Converged at hopened
  unfold gap
  refine ⟨?_, by omega⟩
  rcases clamp_high s with ⟨_, _⟩ | ⟨_, hhigh⟩
  · omega
  · exact hhigh

theorem Coherent.rounds_pos {s : Session σ} (hs : s.Coherent) {probe : Outstanding}
    (ho : s.outstanding = some probe) {k : Nat}
    (hgap : s.gap ≤ s.config.threshold.toNat * 2 ^ k) : 0 < k := by
  have hopened := (hs.opened_gap ho).2
  cases k with
  | zero =>
    rw [Nat.pow_zero, Nat.mul_one] at hgap
    omega
  | succ k => exact Nat.succ_pos k

theorem Coherent.candidate_pos {s : Session σ} (hs : s.Coherent) (positive : 0 < s.low)
    {probe : Outstanding} (ho : s.outstanding = some probe) : 0 < probe.candidate := by
  have hordered := hs.ordered
  rw [hs.candidate probe ho]
  unfold midpoint
  omega

theorem clamp_gap_le (s : Session σ) : s.clamp.gap ≤ s.gap := by
  show s.clamp.high - s.low ≤ s.high - s.low
  rcases clamp_high s with ⟨_, hhigh⟩ | ⟨_, hhigh⟩ <;> omega

theorem expire_gap_le (s : Session σ) (probe : Outstanding) (now : Int) :
    (s.expire probe now).gap ≤ s.gap := by
  show max (if probe.candidate = 0 then s.high else min s.high (probe.candidate - 1)) s.low -
    s.low ≤ s.high - s.low
  split <;> omega

theorem confirm_gap_le (s : Session σ) (size : Nat) (now : Int) :
    (s.confirm size now).gap ≤ s.gap := by
  show max s.high (max s.low size) - max s.low size ≤ s.high - s.low
  omega

/-- A lost probe takes its own size and all above it out of the range. Only for size zero it
does not. -/
theorem Coherent.expire_gap_le_half {s : Session σ} (hs : s.Coherent) {probe : Outstanding}
    (ho : s.outstanding = some probe) (positive : 0 < probe.candidate) (now : Int) :
    (s.expire probe now).gap ≤ s.gap / 2 := by
  have hcandidate := hs.candidate probe ho
  unfold midpoint at hcandidate
  show max (if probe.candidate = 0 then s.high else min s.high (probe.candidate - 1)) s.low -
    s.low ≤ (s.high - s.low) / 2
  rw [if_neg (by omega)]
  omega

theorem Coherent.confirm_high_le {s : Session σ} (hs : s.Coherent) {probe : Outstanding}
    (ho : s.outstanding = some probe) (now : Int) :
    (s.confirm probe.candidate now).high ≤ s.high := by
  have hordered := hs.ordered
  have hcandidate := hs.candidate probe ho
  unfold midpoint at hcandidate
  show max s.high (max s.low probe.candidate) ≤ s.high
  omega

/-- A confirmed probe leaves its own size in the range. -/
theorem Coherent.confirm_gap {s : Session σ} (hs : s.Coherent) {probe : Outstanding}
    (ho : s.outstanding = some probe) (now : Int) :
    (s.confirm probe.candidate now).gap = (s.gap + 1) / 2 := by
  have hcandidate := hs.candidate probe ho
  have hordered := hs.ordered
  unfold midpoint at hcandidate
  show max s.high (max s.low probe.candidate) - max s.low probe.candidate = (s.high - s.low + 1) / 2
  omega

theorem Coherent.confirm_gap_le_half {s : Session σ} (hs : s.Coherent) {probe : Outstanding}
    (ho : s.outstanding = some probe) {size : Nat} (hsize : probe.candidate ≤ size) (now : Int) :
    (s.confirm size now).gap ≤ (s.gap + 1) / 2 := by
  rw [← hs.confirm_gap ho now]
  show max s.high (max s.low size) - max s.low size ≤
    max s.high (max s.low probe.candidate) - max s.low probe.candidate
  omega

end Session

end PathMtu
