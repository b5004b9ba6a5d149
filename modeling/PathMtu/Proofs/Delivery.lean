import PathMtu.Path

namespace PathMtu

namespace Path

theorem fate_eq_oversize_iff {path : Path} {probe : Probe} :
    path.fate probe = .oversize ↔ ¬path.Fits probe := by
  unfold fate
  by_cases h : path.Fits probe
  · rw [if_pos h]
    refine iff_of_false ?_ (not_not_intro h)
    split <;> nofun
  · rw [if_neg h]
    exact iff_of_true rfl h

theorem fate_eq_oversize {path : Path} {probe : Probe} :
    path.fate probe = .oversize ↔ path.mtu < probe.encodedSize path.framing :=
  fate_eq_oversize_iff.trans Nat.not_le

@[simp] theorem advance_framing (path : Path) (fate : Fate) :
    (path.advance fate).framing = path.framing := by
  cases fate <;> rfl

@[simp] theorem advance_mtu (path : Path) (fate : Fate) : (path.advance fate).mtu = path.mtu := by
  cases fate <;> rfl

@[simp] theorem advance_lossRate (path : Path) (fate : Fate) :
    (path.advance fate).lossRate = path.lossRate := by
  cases fate <;> rfl

theorem lost_le_advance (path : Path) (fate : Fate) : path.lost ≤ (path.advance fate).lost := by
  cases fate with
  | lost => exact Nat.le_succ _
  | _ => exact Nat.le_refl _

/-- How many probes the path was handed. -/
def handed (path : Path) : Nat := path.delivered + path.oversize + path.lost

theorem advance_handed (path : Path) (fate : Fate) :
    (path.advance fate).handed = path.handed + 1 := by
  cases fate with
  | delivered =>
    show path.delivered + 1 + path.oversize + path.lost = path.handed + 1
    unfold handed
    omega
  | oversize =>
    show path.delivered + (path.oversize + 1) + path.lost = path.handed + 1
    unfold handed
    omega
  | lost => rfl

/-- How many of the probes that the path was handed had a fate. -/
def counted (path : Path) : Fate → Nat
  | .delivered => path.delivered
  | .oversize => path.oversize
  | .lost => path.lost

theorem advance_counted (path : Path) (fate other : Fate) :
    (path.advance fate).counted other = path.counted other + if fate = other then 1 else 0 := by
  cases fate <;> cases other <;> rfl

/-- Each delivery is answered by one reply. -/
theorem deliver_delivered (path : Path) (probe : Probe) :
    (path.deliver probe).2.delivered = path.delivered + (path.deliver probe).1.toList.length := by
  unfold deliver
  cases h : path.fate probe <;> rfl

/-- A reply comes back exactly from a delivery. -/
theorem deliver_cases (path : Path) (probe : Probe) :
    (path.deliver probe).2.delivered = path.delivered + 1 ∧
        (path.deliver probe).1 = some ⟨probe.size, probe.token⟩ ∨
      (path.deliver probe).2.delivered = path.delivered ∧ (path.deliver probe).1 = none := by
  unfold deliver
  cases path.fate probe with
  | delivered => exact Or.inl ⟨rfl, rfl⟩
  | oversize => exact Or.inr ⟨rfl, rfl⟩
  | lost => exact Or.inr ⟨rfl, rfl⟩

theorem deliver_fits (path : Path) (probe other : Probe) :
    (path.deliver probe).2.Fits other ↔ path.Fits other := by
  show other.encodedSize (path.advance _).framing ≤ (path.advance _).mtu ↔ _
  rw [advance_framing, advance_mtu]
  rfl

/-- The fate of the fitting probe with a number, counted from zero. Each one before it has taken two
outputs of the generator. -/
def fittingFate (lossRate : Float) (generator : Twister) (number : Nat) : Fate :=
  if (generator.skip (2 * number)).nextUnit.1 < lossRate then .lost else .delivered

theorem fittingFate_succ (lossRate : Float) (generator : Twister) (number : Nat) :
    fittingFate lossRate generator (number + 1) =
      fittingFate lossRate (generator.skip 2) number := by
  unfold fittingFate
  rw [← Twister.skip_add, show 2 * (number + 1) = 2 + 2 * number by omega]

theorem fate_of_fits {path : Path} {probe : Probe} (h : path.Fits probe) :
    path.fate probe = fittingFate path.lossRate path.generator 0 := by
  unfold fate
  rw [if_pos h]
  simp only [drawLoss, decide_eq_true_eq]
  rfl

theorem deliver_generator_of_fits {path : Path} {probe : Probe} (h : path.Fits probe) :
    (path.deliver probe).2.generator = path.generator.skip 2 := by
  show (path.advance (path.fate probe)).generator = _
  rw [fate_of_fits h]
  unfold fittingFate
  split <;> rfl

theorem deliver_of_not_fits {path : Path} {probe : Probe} (h : ¬path.Fits probe) :
    path.deliver probe = (none, { path with oversize := path.oversize + 1 }) := by
  unfold deliver
  rw [fate_eq_oversize_iff.mpr h]
  rfl

/-- The path after it was handed probes, one after the other. -/
def after (path : Path) (probes : List Probe) : Path :=
  probes.foldl (fun path probe => (path.deliver probe).2) path

/-- The probes that the path is handed, one after the other, each with its fate. -/
def fates (path : Path) : List Probe → List (Probe × Fate)
  | [] => []
  | probe :: probes => (probe, path.fate probe) :: (path.deliver probe).2.fates probes

theorem after_cons (path : Path) (probe : Probe) (probes : List Probe) :
    path.after (probe :: probes) = (path.deliver probe).2.after probes := rfl

theorem after_handed (path : Path) (probes : List Probe) :
    (path.after probes).handed = path.handed + probes.length := by
  induction probes generalizing path with
  | nil => rfl
  | cons probe probes ih =>
    have hstep : (path.deliver probe).2.handed = path.handed + 1 := advance_handed _ _
    rw [after_cons, ih, hstep, List.length_cons]
    omega

theorem after_counted (path : Path) (probes : List Probe) (fate : Fate) :
    (path.after probes).counted fate =
      path.counted fate + (path.fates probes).countP fun entry => entry.2 = fate := by
  induction probes generalizing path with
  | nil => rfl
  | cons probe probes ih =>
    have hstep : (path.deliver probe).2.counted fate =
        path.counted fate + if path.fate probe = fate then 1 else 0 := advance_counted _ _ _
    rw [after_cons, ih, hstep, fates, List.countP_cons]
    simp only [decide_eq_true_eq]
    omega

theorem mem_fates_oversize {path : Path} {probes : List Probe} {entry : Probe × Fate}
    (h : entry ∈ path.fates probes) : entry.2 = .oversize ↔ ¬path.Fits entry.1 := by
  induction probes generalizing path with
  | nil => cases h
  | cons probe probes ih =>
    rcases List.mem_cons.mp h with rfl | h
    · exact fate_eq_oversize_iff
    · rw [ih h, deliver_fits]

/-- Only the fitting probes count for what is delivered and what is lost. -/
theorem countP_fates {path : Path} {fate : Fate} (h : fate ≠ .oversize) (probes : List Probe) :
    ((path.fates probes).countP fun entry => entry.2 = fate) =
      ((path.fates probes).filter fun entry => path.Fits entry.1).countP
        fun entry => entry.2 = fate := by
  rw [List.countP_filter]
  apply List.countP_congr
  intro entry hentry
  have hsize := mem_fates_oversize hentry
  simp only [decide_eq_true_eq, Bool.and_eq_true]
  constructor
  · intro hfate
    refine ⟨hfate, Decidable.not_not.mp fun hnot => h ?_⟩
    rw [← hfate]
    exact hsize.mpr hnot
  · exact fun hboth => hboth.1

theorem fates_filter_fits (path : Path) (probes : List Probe) :
    ((path.fates probes).filter fun entry => path.Fits entry.1) =
      (probes.filter fun probe => path.Fits probe).mapIdx
        fun number probe => (probe, fittingFate path.lossRate path.generator number) := by
  induction probes generalizing path with
  | nil => rfl
  | cons probe probes ih =>
    -- What fits the path that is left fits this one, so both filters keep the same probes.
    have hrest := ih (path.deliver probe).2
    simp only [deliver_fits] at hrest
    rw [fates, List.filter_cons, List.filter_cons, hrest]
    by_cases h : path.Fits probe
    · have hrate : (path.deliver probe).2.lossRate = path.lossRate := advance_lossRate _ _
      simp only [h, decide_true, if_true, List.mapIdx_cons, fittingFate_succ, hrate,
        deliver_generator_of_fits h, fate_of_fits h]
    · simp only [h, decide_false, Bool.false_eq_true, if_false, deliver_of_not_fits h]

theorem after_generator (path : Path) (probes : List Probe) :
    (path.after probes).generator =
      path.generator.skip (2 * (probes.filter fun probe => path.Fits probe).length) := by
  induction probes generalizing path with
  | nil => rfl
  | cons probe probes ih =>
    have hrest := ih (path.deliver probe).2
    simp only [deliver_fits] at hrest
    rw [after_cons, hrest, List.filter_cons]
    by_cases h : path.Fits probe
    · simp only [h, decide_true, if_true, List.length_cons, deliver_generator_of_fits h,
        ← Twister.skip_add]
      congr 1
      omega
    · simp only [h, decide_false, Bool.false_eq_true, if_false, deliver_of_not_fits h]

/-- Oversize probes do not touch the loss process. The fate of a fitting probe follows from the
seed, the loss rate, and how many fitting probes came before it, so that it stays the same whatever
oversize probes there are among them, and so do the counts of what was delivered and lost and the
state of the generator. -/
theorem oversize_leaves_fates (framing : Framing) (mtu : Nat) (lossRate : Float)
    (seed device : UInt32) (probes : List Probe) :
    let path := ofSeed framing mtu lossRate seed device
    let last := path.after probes
    let generator := Twister.seeded (effectiveSeed seed device)
    last.delivered + last.oversize + last.lost = probes.length ∧
      (∀ probe,
        (last.deliver probe).2.delivered = last.delivered + 1 ∧
            (last.deliver probe).1 = some ⟨probe.size, probe.token⟩ ∨
          (last.deliver probe).2.delivered = last.delivered ∧ (last.deliver probe).1 = none) ∧
      (∀ entry ∈ path.fates probes, entry.2 = .oversize ↔ ¬path.Fits entry.1) ∧
      ((path.fates probes).filter fun entry => path.Fits entry.1) =
        ((probes.filter fun probe => path.Fits probe).mapIdx
          fun number probe => (probe, fittingFate lossRate generator number)) ∧
      last.generator = generator.skip (2 * (probes.filter fun probe => path.Fits probe).length) ∧
      ∀ others : List Probe,
        (others.filter fun probe => path.Fits probe) =
          (probes.filter fun probe => path.Fits probe) →
        ((path.fates others).filter fun entry => path.Fits entry.1) =
            ((path.fates probes).filter fun entry => path.Fits entry.1) ∧
          (path.after others).delivered = last.delivered ∧
          (path.after others).lost = last.lost ∧
          (path.after others).generator = last.generator := by
  intro path last generator
  have hhanded : last.handed = path.handed + probes.length := path.after_handed probes
  have hzero : path.handed = 0 := rfl
  refine ⟨?_, last.deliver_cases, fun _ => mem_fates_oversize, path.fates_filter_fits probes,
    path.after_generator probes, ?_⟩
  · rw [hzero, Nat.zero_add] at hhanded
    exact hhanded
  · intro others hsame
    have hfates : ((path.fates others).filter fun entry => path.Fits entry.1) =
        ((path.fates probes).filter fun entry => path.Fits entry.1) := by
      rw [fates_filter_fits, fates_filter_fits, hsame]
    have hcounts {fate : Fate} (h : fate ≠ .oversize) :
        (path.after others).counted fate = last.counted fate := by
      rw [after_counted, after_counted, countP_fates h, countP_fates h, hfates]
    refine ⟨hfates, hcounts (by decide : Fate.delivered ≠ .oversize),
      hcounts (by decide : Fate.lost ≠ .oversize), ?_⟩
    rw [after_generator, after_generator, hsame]

/-- On a lossy path of 100 bytes, three probes of 1400 bytes change nothing
for two small ones. -/
theorem oversize_leaves_fates_100 :
    let path := ofSeed {} 100 0.5 7 0
    let large : Probe := ⟨1400, 1, Array.replicate 1387 0⟩
    let first : Probe := ⟨60, 2, Array.replicate 47 0⟩
    let second : Probe := ⟨100, 3, Array.replicate 87 0⟩
    let probes := [large, first, large, large, second]
    ((path.fates [first, second]).filter fun entry => path.Fits entry.1) =
        ((path.fates probes).filter fun entry => path.Fits entry.1) ∧
      (path.after [first, second]).delivered = (path.after probes).delivered ∧
      (path.after [first, second]).lost = (path.after probes).lost ∧
      (path.after probes).delivered + (path.after probes).oversize + (path.after probes).lost = 5 ∧
      (path.after [first, second]).generator = (path.after probes).generator := by
  intro path large first second probes
  obtain ⟨hhanded, _, _, _, _, hothers⟩ := oversize_leaves_fates {} 100 0.5 7 0 probes
  have hsame : ([first, second].filter fun probe => path.Fits probe) =
      (probes.filter fun probe => path.Fits probe) := by decide +kernel
  obtain ⟨hfates, hdelivered, hlost, hgenerator⟩ := hothers [first, second] hsame
  exact ⟨hfates, hdelivered, hlost, hhanded, hgenerator⟩

end Path

end PathMtu
