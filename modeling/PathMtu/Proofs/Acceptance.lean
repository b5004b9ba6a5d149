import PathMtu.Proofs.Validation
import PathMtu.Random.Predictable
import PathMtu.Simulator.Simulation

namespace PathMtu

open Float.Model (UnpackedFloat)

theorem magnitude_compare_swap (e f : Int) (m n : Nat) :
    (compare f e).then (compare n m) = ((compare e f).then (compare m n)).swap := by
  rw [Ordering.swap_then, ← Std.OrientedOrd.eq_swap, ← Std.OrientedOrd.eq_swap]

theorem float_compare_swap (a b : UnpackedFloat) :
    b.compare a = (a.compare b).map Ordering.swap := by
  cases a with
  | notANumber => cases b <;> rfl
  | infinity s =>
    cases b with
    | infinity t => cases s <;> cases t <;> rfl
    | finite t => cases s <;> cases t <;> rfl
    | _ => cases s <;> rfl
  | zero s =>
    cases b with
    | infinity t => cases t <;> rfl
    | finite t => cases t <;> rfl
    | _ => rfl
  | finite s m e =>
    cases b with
    | infinity t => cases s <;> cases t <;> rfl
    | finite t n f =>
      cases s with
      | negative =>
        cases t with
        | negative => exact congrArg (some ·.swap) (magnitude_compare_swap e f m n)
        | positive => rfl
      | positive =>
        cases t with
        | negative => rfl
        | positive => exact congrArg some (magnitude_compare_swap e f m n)
    | _ => cases s <;> rfl

theorem float_compare_eq_none {a b : UnpackedFloat} :
    a.compare b = none ↔ a.isNaN = true ∨ b.isNaN = true := by
  have hordered {a b : UnpackedFloat} {o : Ordering} (h : a.compare b = some o)
      (ha : a.isNaN = false) (hb : b.isNaN = false) :
      a.compare b = none ↔ a.isNaN = true ∨ b.isNaN = true := by
    rw [h, ha, hb]
    exact iff_of_false (Option.some_ne_none o) (by decide)
  cases a with
  | notANumber => exact iff_of_true (by cases b <;> rfl) (Or.inl rfl)
  | infinity s =>
    cases b with
    | notANumber => exact iff_of_true (by cases s <;> rfl) (Or.inr rfl)
    | infinity t => cases s <;> cases t <;> exact hordered rfl rfl rfl
    | _ => cases s <;> exact hordered rfl rfl rfl
  | zero s =>
    cases b with
    | notANumber => exact iff_of_true rfl (Or.inr rfl)
    | zero t => exact hordered rfl rfl rfl
    | _ t => cases t <;> exact hordered rfl rfl rfl
  | finite s =>
    cases b with
    | notANumber => exact iff_of_true (by cases s <;> rfl) (Or.inr rfl)
    | zero t => cases s <;> exact hordered rfl rfl rfl
    | _ t => cases s <;> cases t <;> exact hordered rfl rfl rfl

theorem float_lt_iff {x y : Float} :
    x < y ↔ x.toModel.unpack.compare y.toModel.unpack = some .lt := by
  have hlt : x < y ↔ x.toModel.unpack.lt y.toModel.unpack = true := decide_eq_true_iff
  exact hlt.trans beq_iff_eq

theorem float_le_iff {x y : Float} :
    x ≤ y ↔ (x.toModel.unpack.compare y.toModel.unpack).any Ordering.isLE = true :=
  decide_eq_true_iff

/-- What is not below a number is above it, equal to it, or no number. -/
theorem float_not_lt_iff {x y : Float} :
    ¬x < y ↔ (x.isNaN = true ∨ y.isNaN = true) ∨ y ≤ x := by
  have hnan : x.isNaN = true ∨ y.isNaN = true ↔
      x.toModel.unpack.compare y.toModel.unpack = none := float_compare_eq_none.symm
  rw [float_lt_iff, float_le_iff, hnan, float_compare_swap x.toModel.unpack]
  rcases x.toModel.unpack.compare y.toModel.unpack with _ | _ | _ | _ <;> decide

theorem float_not_le_of_isNaN {x y : Float} (h : y.isNaN = true) : ¬x ≤ y := by
  have hnone : x.toModel.unpack.compare y.toModel.unpack = none :=
    float_compare_eq_none.mpr (Or.inr h)
  rw [float_le_iff, hnone]
  exact Bool.false_ne_true

/-- The check of the loss rate rejects what lies outside, so it lets pass what compares with
nothing. -/
theorem loss_check_iff {rate : Float} :
    ¬(rate < 0 ∨ 1 < rate) ↔ rate.isNaN = true ∨ 0 ≤ rate ∧ rate ≤ 1 := by
  have hzero : (0 : Float).isNaN = false := by decide
  have hone : (1 : Float).isNaN = false := by decide
  rw [not_or, float_not_lt_iff, float_not_lt_iff, hzero, hone]
  simp only [Bool.false_eq_true, or_false, false_or]
  exact or_and_left.symm

namespace Simulation

variable {σ : Type}

/-- What is taken for granted about a simulation that starts, its loss rate apart: time passes with
its ticks, the session has nothing to warn of, and it has a size to begin with, a range above it
that the receiver does not cut off, a fragment size, and an interval to keep. -/
structure Ready (sim : Simulation σ) : Prop where
  tick : 0 < sim.options.tickInterval.toNat
  silent : sim.lines = #[]
  low : sim.session.low = sim.options.config.minSize.toNat
  positive : 1 ≤ sim.session.low
  high : sim.session.high = sim.options.config.maxSize.toNat
  ordered : sim.session.low ≤ sim.session.high
  capped : sim.session.low ≤ sim.session.config.cap
  fragment : sim.session.fragment ≠ 0
  interval : 0 ≤ sim.session.config.interval.toInt

def Usable (sim : Simulation σ) : Prop :=
  sim.Ready ∧ 0 ≤ sim.path.lossRate ∧ sim.path.lossRate ≤ 1

theorem start_ready_iff (options : Options) (source : σ) (device : UInt32) :
    (start options source device).Ready ↔
      0 < options.tickInterval.toNat ∧ options.config.Accepted := by
  have hcap : options.config.cap = min options.config.receiveBuffer.toNat 65535 := rfl
  constructor
  · intro h
    have hmax : max options.config.maxSize.toNat options.config.minSize.toNat =
      options.config.maxSize.toNat := h.high
    have hcapped : options.config.minSize.toNat ≤ options.config.cap := h.capped
    refine ⟨h.tick, h.positive, by omega, Nat.pos_of_ne_zero h.fragment, by omega, h.interval⟩
  · rintro ⟨htick, h⟩
    have hordered := h.ordered
    have hsilent : Session.openingNotices options.config = [] :=
      if_neg (mt UInt16.lt_iff_toNat_lt.mp (Nat.not_lt.mpr hordered))
    have hhigh : (start options source device).session.high = options.config.maxSize.toNat :=
      Nat.max_eq_left hordered
    refine ⟨htick, ?_, rfl, h.minSize_pos, hhigh, ?_, ?_, Nat.ne_of_gt h.fragmentSize_pos,
      h.interval⟩
    · show ((Session.openingNotices options.config).map Notice.line).toArray = #[]
      rw [hsilent]
      rfl
    · rw [hhigh]
      exact hordered
    · exact Nat.le_trans h.lowest_le (Nat.min_le_right _ _)

/-- Options are accepted exactly if the simulation that starts with them is ready and their loss
rate is a rate or no number. So they are accepted exactly if the simulation is usable, except for a
loss rate that is no number where nothing else is wrong. -/
theorem accepted_options_usable_iff (options : Options) (source : σ) (device : UInt32) :
    let sim := start options source device
    (options.validate = .ok () ↔ sim.Ready ∧
        (options.lossRate.isNaN = true ∨ 0 ≤ options.lossRate ∧ options.lossRate ≤ 1)) ∧
      ((options.validate = .ok () ↔ sim.Usable) ↔
        ¬(sim.Ready ∧ options.lossRate.isNaN = true)) := by
  intro sim
  have haccepted : options.validate = .ok () ↔ sim.Ready ∧
      (options.lossRate.isNaN = true ∨ 0 ≤ options.lossRate ∧ options.lossRate ≤ 1) := by
    rw [Options.validate_eq_ok, loss_check_iff, start_ready_iff]
    exact and_comm
  have husable : sim.Usable ↔ sim.Ready ∧ 0 ≤ options.lossRate ∧ options.lossRate ≤ 1 := Iff.rfl
  refine ⟨haccepted, ?_⟩
  rw [haccepted, husable]
  constructor
  · rintro hexact ⟨hready, hnan⟩
    have hrate := hexact.mp ⟨hready, Or.inl hnan⟩
    exact float_not_le_of_isNaN hnan hrate.2.1
  · intro hvalue
    refine and_congr_right fun hready => ?_
    exact or_iff_right fun hnan => hvalue ⟨hready, hnan⟩

/-- A loss rate that is no number is accepted, although it is neither at least 0 nor at most 1. -/
theorem loss_rate_without_value_accepted :
    let options : Options := { lossRate := 0 / 0 }
    options.validate = .ok () ∧ ¬0 ≤ options.lossRate ∧ ¬options.lossRate ≤ 1 ∧
      ¬(start options ({} : CountingSource) 1).Usable := by
  intro options
  have hnot : ¬0 ≤ options.lossRate := by decide
  refine ⟨?_, hnot, by decide, fun h => hnot h.2.1⟩
  unfold Options.validate
  rw [if_neg (by decide), if_neg (by decide)]
  rfl

end Simulation

end PathMtu
