import Mathlib.Data.List.DropRight
import Mathlib.Data.List.Induction
import PathMtu.Proofs.History
import PathMtu.Random.Predictable

namespace PathMtu

/-- The largest size that an event leaves to search. A tick that looks at the bounds knows the cap,
and the loss of size zero rules nothing out. -/
def Event.ceiling? (cap : Nat) : Event → Option Nat
  | searched _ => some cap
  | expired probe => if probe.candidate = 0 then none else some (probe.candidate - 1)
  | _ => none

def sinceRestart (events : List Event) : List Event := events.rtakeWhile fun e => e ≠ .restarted

def confirmedSizes (events : List Event) : List Nat :=
  events.filterMap fun e => e.confirmed?.map Reply.size

def ceilings (cap : Nat) (events : List Event) : List Nat := events.filterMap (Event.ceiling? cap)

theorem foldl_max_le_iff {sizes : List Nat} {a n : Nat} :
    sizes.foldl max a ≤ n ↔ a ≤ n ∧ ∀ x ∈ sizes, x ≤ n := by
  rw [List.max?_le_iff List.max?_cons', List.forall_mem_cons]

theorem le_foldl_min_iff {sizes : List Nat} {a n : Nat} :
    n ≤ sizes.foldl min a ↔ n ≤ a ∧ ∀ x ∈ sizes, n ≤ x := by
  rw [List.le_min?_iff List.min?_cons', List.forall_mem_cons]

theorem foldl_max_congr {sizes others : List Nat} (a : Nat)
    (same : ∀ x, x ∈ sizes ↔ x ∈ others) : sizes.foldl max a = others.foldl max a := by
  apply eq_of_forall_ge_iff
  intro n
  rw [foldl_max_le_iff, foldl_max_le_iff]
  simp only [same]

theorem foldl_min_congr {sizes others : List Nat} (a : Nat)
    (same : ∀ x, x ∈ sizes ↔ x ∈ others) : sizes.foldl min a = others.foldl min a := by
  apply eq_of_forall_le_iff
  intro n
  rw [le_foldl_min_iff, le_foldl_min_iff]
  simp only [same]

theorem sinceRestart_concat_restarted (events : List Event) :
    sinceRestart (events ++ [.restarted]) = [] :=
  List.rtakeWhile_concat_neg _ _ _ (by decide)

theorem sinceRestart_concat {e : Event} (h : e ≠ .restarted) (events : List Event) :
    sinceRestart (events ++ [e]) = sinceRestart events ++ [e] :=
  List.rtakeWhile_concat_pos _ _ _ (decide_eq_true h)

namespace Session

variable {σ : Type}

structure Bounded (events : List Event) (s : Session σ) : Prop where
  low : s.low = (confirmedSizes events).foldl max s.config.lowest
  high : s.high = max s.low ((ceilings s.config.cap events).foldl min s.config.highest)

theorem bounded_nil {s : Session σ} (low : s.low = s.config.lowest)
    (high : s.high = s.config.highest) : s.Bounded [] := by
  refine ⟨low, ?_⟩
  have hle : s.config.lowest ≤ s.config.highest := Nat.le_max_right _ _
  show s.high = max s.low s.config.highest
  omega

theorem Bounded.concat {events : List Event} {s after : Session σ} {e : Event}
    (h : s.Bounded events) (same : after.config = s.config)
    (low : after.low = (confirmedSizes [e]).foldl max s.low)
    (high : ∀ n, s.high = max s.low n →
      after.high = max after.low ((ceilings s.config.cap [e]).foldl min n)) :
    after.Bounded (events ++ [e]) := by
  refine ⟨?_, ?_⟩
  · rw [same, confirmedSizes, List.filterMap_append, List.foldl_append, ← confirmedSizes, ← h.low]
    exact low
  · rw [same, ceilings, List.filterMap_append, List.foldl_append, ← ceilings]
    exact high _ h.high

variable [RandomSource σ]

theorem EventCase.bounded {events : List Event} {s after : Session σ} {e : Event}
    (hc : EventCase s e after) (h : s.Bounded events) (hne : e ≠ .restarted) :
    after.Bounded (events ++ [e]) := by
  cases hc with
  | quiet same low high _ =>
    refine h.concat same low ?_
    intro n hn
    rw [high, low]
    exact hn
  | looked _ _ same low high _ =>
    refine h.concat same low ?_
    intro n hn
    show after.high = max after.low (min n s.config.cap)
    rw [high, low]
    rcases clamp_high s with ⟨_, hclamp⟩ | ⟨_, hclamp⟩ <;> omega
  | @issued now =>
    refine h.concat rfl rfl ?_
    intro n hn
    show s.clamp.high = max s.low (min n s.config.cap)
    rcases clamp_high s with ⟨_, hclamp⟩ | ⟨_, hclamp⟩ <;> omega
  | @expired probe now =>
    refine h.concat rfl rfl ?_
    intro n hn
    show max (if probe.candidate = 0 then s.high else min s.high (probe.candidate - 1)) s.low =
      max s.low ((ceilings s.config.cap [.expired probe]).foldl min n)
    by_cases hzero : probe.candidate = 0
    · have hnone : ceilings s.config.cap [.expired probe] = [] := by
        simp [ceilings, Event.ceiling?, hzero]
      rw [if_pos hzero, hnone]
      show max s.high s.low = max s.low n
      omega
    · have hsome : ceilings s.config.cap [.expired probe] = [probe.candidate - 1] := by
        simp [ceilings, Event.ceiling?, hzero]
      rw [if_neg hzero, hsome]
      show max (min s.high (probe.candidate - 1)) s.low = max s.low (min n (probe.candidate - 1))
      omega
  | @confirmed reply now =>
    refine h.concat rfl rfl ?_
    intro n hn
    show max s.high (max s.low reply.size) = max (max s.low reply.size) n
    omega
  | restarted => exact absurd rfl hne

omit [RandomSource σ] in
theorem Bounded.lowest_le {events : List Event} {s : Session σ} (h : s.Bounded events) :
    s.config.lowest ≤ s.low := by
  rw [h.low]
  exact (foldl_max_le_iff.mp (Nat.le_refl _)).1

omit [RandomSource σ] in
theorem Bounded.high_le {events : List Event} {s : Session σ} (h : s.Bounded events) :
    s.high ≤ max s.low s.config.highest := by
  have hle := (le_foldl_min_iff.mp (Nat.le_refl
    ((ceilings s.config.cap events).foldl min s.config.highest))).1
  rw [h.high]
  omega

/-- After any run the bounds are what the events since the latest restart make them. -/
theorem start_after_bounded (config : Config) (now : Int) (source : σ) (calls : List Call) :
    ((start config now source).after calls).Bounded
      (sinceRestart ((start config now source).events calls)) := by
  -- From the end, since a restart forgets all that came before it.
  induction calls using List.reverseRecOn with
  | nil => exact bounded_nil rfl rfl
  | append_singleton calls call ih =>
    have hc := event_case ((start config now source).after calls) call
    rw [after_append, events_append]
    show (((start config now source).after calls).perform call).session.Bounded
      (sinceRestart ((start config now source).events calls ++
        [((start config now source).after calls).event call]))
    generalize (start config now source).events calls = events at ih ⊢
    generalize (start config now source).after calls = s at ih hc ⊢
    by_cases h : s.event call = .restarted
    · rw [h, sinceRestart_concat_restarted]
      rw [h] at hc
      generalize (s.perform call).session = after at hc ⊢
      cases hc with
      | restarted => exact bounded_nil rfl rfl
    · rw [sinceRestart_concat h]
      exact hc.bounded ih h

theorem low_le_after_low (s : Session σ) {calls : List Call}
    (steady : ∀ call ∈ calls, ¬call.Restarts) : s.low ≤ (s.after calls).low := by
  induction calls generalizing s with
  | nil => exact Nat.le_refl _
  | cons call calls ih =>
    obtain ⟨hcall, hcalls⟩ := List.forall_mem_cons.mp steady
    exact Nat.le_trans ((event_case s call).low_le (event_ne_restarted hcall)) (ih _ hcalls)

theorem sinceRestart_events (s : Session σ) {calls : List Call}
    (steady : ∀ call ∈ calls, ¬call.Restarts) : sinceRestart (s.events calls) = s.events calls := by
  have hsteady : ∀ e ∈ s.events calls, e ≠ .restarted := by
    induction calls generalizing s with
    | nil => exact nofun
    | cons call calls ih =>
      obtain ⟨hcall, hcalls⟩ := List.forall_mem_cons.mp steady
      exact List.forall_mem_cons.mpr ⟨event_ne_restarted hcall, ih _ hcalls⟩
  exact List.rtakeWhile_eq_self_iff.mpr fun e he => decide_eq_true (hsteady e he)

/-- A search that has issued a probe keeps to the cap. -/
theorem start_after_clamped (config : Config) (now : Int) (source : σ) {calls : List Call}
    (steady : ∀ call ∈ calls, ¬call.Restarts)
    (issued : (start config now source).probes calls ≠ []) :
    ((start config now source).after calls).Clamped := by
  have hbounded := start_after_bounded config now source calls
  rw [sinceRestart_events _ steady] at hbounded
  obtain ⟨probe, hprobe⟩ := List.exists_mem_of_ne_nil _ issued
  obtain ⟨e, hmem, he⟩ := List.mem_filterMap.mp hprobe
  have hcap : config.cap ∈ ceilings config.cap ((start config now source).events calls) := by
    refine List.mem_filterMap.mpr ⟨e, hmem, ?_⟩
    cases e with
    | searched => rfl
    | _ => cases he
  have hle := (le_foldl_min_iff.mp (Nat.le_refl
    ((ceilings config.cap ((start config now source).events calls)).foldl min config.highest))).2
    _ hcap
  have hhigh := hbounded.high
  unfold Clamped
  rw [start_after_config] at hhigh ⊢
  omega

/-- The bounds of a search are a maximum and a minimum over what has happened since it was opened.
How often and in which order it happened makes no difference. -/
theorem start_after_bounds (config : Config) (now : Int) (source : σ) (calls : List Call) :
    let s := (start config now source).after calls
    let events := sinceRestart ((start config now source).events calls)
    s.low = (confirmedSizes events).foldl max config.lowest ∧
      s.high = max s.low ((ceilings config.cap events).foldl min config.highest) ∧
      s.low ≤ s.high ∧
      (∀ more : List Call, (∀ call ∈ more, ¬call.Restarts) → s.low ≤ (s.after more).low) ∧
      ∀ (now' : Int) (source' : σ) (calls' : List Call),
        let s' := (start config now' source').after calls'
        let events' := sinceRestart ((start config now' source').events calls')
        (∀ n, n ∈ confirmedSizes events ↔ n ∈ confirmedSizes events') →
          (∀ n, n ∈ ceilings config.cap events ↔ n ∈ ceilings config.cap events') →
            s.low = s'.low ∧ s.high = s'.high := by
  intro s events
  have hbounds : ∀ (now : Int) (source : σ) (calls : List Call),
      let s := (start config now source).after calls
      let events := sinceRestart ((start config now source).events calls)
      s.low = (confirmedSizes events).foldl max config.lowest ∧
        s.high = max s.low ((ceilings config.cap events).foldl min config.highest) := by
    intro now source calls
    obtain ⟨hlow, hhigh⟩ := start_after_bounded config now source calls
    rw [start_after_config] at hlow hhigh
    exact ⟨hlow, hhigh⟩
  obtain ⟨hlow, hhigh⟩ := hbounds now source calls
  refine ⟨hlow, hhigh, ?_, fun more steady => low_le_after_low s steady, ?_⟩
  · exact hhigh ▸ Nat.le_max_left _ _
  · intro now' source' calls' s' events' sizes ceilings
    obtain ⟨hlow', hhigh'⟩ := hbounds now' source' calls'
    have hsame : s.low = s'.low := by
      rw [hlow, hlow']
      exact foldl_max_congr _ sizes
    refine ⟨hsame, ?_⟩
    rw [hhigh, hhigh', hsame]
    exact congrArg _ (foldl_min_congr _ ceilings)

/-- A receiver of 130 bytes, a probe that a restart drops, a reply that confirms more than was asked
for, and a loss. The second run has the same reply once more. -/
theorem start_after_bounds_118 :
    let config : Config :=
      { minSize := 100, maxSize := 140, interval := 0, threshold := 4, receiveBuffer := 130,
        fragmentSize := 100 }
    let first := start config 0 ({} : CountingSource)
    let calls : List Call := [.tick 1 0, .restart 2, .tick 3 0, .reply ⟨118, 1001⟩ 4, .tick 5 0,
      .tick 200000006 0]
    let others : List Call := [.tick 1 0, .reply ⟨118, 1000⟩ 2, .tick 3 0, .reply ⟨118, 1001⟩ 4,
      .tick 5 0, .tick 200000006 0]
    (first.after calls).low = 118 ∧ (first.after calls).high = 123 ∧
      118 ≤ ((first.after calls).after [.tick 200000007 0]).low ∧
      (first.after others).low = 118 ∧ (first.after others).high = 123 := by
  intro config first calls others
  have hlow : (first.after calls).low = 118 := by decide +kernel
  have hhigh : (first.after calls).high = 123 := by decide +kernel
  have hsizes : confirmedSizes (sinceRestart (first.events calls)) = [118] := by decide +kernel
  have hsizes' : confirmedSizes (sinceRestart (first.events others)) = [118, 118] := by
    decide +kernel
  have hceilings : ceilings config.cap (sinceRestart (first.events calls)) = [130, 130, 123] := by
    decide +kernel
  have hceilings' : ceilings config.cap (sinceRestart (first.events others)) =
      [130, 130, 130, 123] := by decide +kernel
  obtain ⟨_, _, _, hrises, hset⟩ := start_after_bounds config 0 ({} : CountingSource) calls
  obtain ⟨hlow', hhigh'⟩ := hset 0 {} others
    (by intro n; rw [hsizes, hsizes']; simp) (by intro n; rw [hceilings, hceilings']; simp)
  have hmore := hrises [.tick 200000007 0] (by decide)
  exact ⟨hlow, hhigh, hlow ▸ hmore, hlow'.symm.trans hlow, hhigh'.symm.trans hhigh⟩

end Session

end PathMtu
