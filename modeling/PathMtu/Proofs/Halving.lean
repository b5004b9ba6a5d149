import Mathlib.Algebra.Order.Floor.Div
import PathMtu.Proofs.BoundsOfEvents
import PathMtu.Proofs.Gap

namespace PathMtu

/-- Every size that is confirmed stands in the relation to the size that its probe advertised. The
latest probe from before the events is given. -/
def Confirms (rel : Nat → Nat → Prop) : Option Probe → List Event → Prop
  | _, [] => True
  | latest, e :: events =>
    (∀ reply ∈ e.confirmed?, ∀ probe ∈ latest, rel probe.size reply.size) ∧
      Confirms rel (e.issued?.or latest) events

instance Confirms.decidable (rel : Nat → Nat → Prop) [DecidableRel rel] :
    ∀ (latest : Option Probe) (events : List Event), Decidable (Confirms rel latest events)
  | _, [] => inferInstanceAs (Decidable True)
  | latest, e :: events =>
    have := Confirms.decidable rel (e.issued?.or latest) events
    inferInstanceAs (Decidable (_ ∧ Confirms rel (e.issued?.or latest) events))

theorem ceilDiv_two_ceilDiv (gap k : Nat) : ((gap + 1) / 2) ⌈/⌉ 2 ^ k ≤ gap ⌈/⌉ 2 ^ (k + 1) := by
  have hle : gap ≤ 2 ^ (k + 1) * (gap ⌈/⌉ 2 ^ (k + 1)) := le_smul_ceilDiv (Nat.two_pow_pos _)
  have hdouble : 2 ^ (k + 1) * (gap ⌈/⌉ 2 ^ (k + 1)) = 2 * (2 ^ k * (gap ⌈/⌉ 2 ^ (k + 1))) := by
    rw [← Nat.mul_assoc, Nat.mul_comm 2, ← Nat.pow_succ]
  rw [ceilDiv_le_iff_le_mul (Nat.two_pow_pos _)]
  omega

theorem ceilDiv_mono {a b : Nat} (h : a ≤ b) (k : Nat) : a ⌈/⌉ 2 ^ k ≤ b ⌈/⌉ 2 ^ k := by
  rw [ceilDiv_le_iff_le_mul (Nat.two_pow_pos _)]
  exact Nat.le_trans h (le_smul_ceilDiv (Nat.two_pow_pos _))

namespace Session

variable {σ : Type} [RandomSource σ]

def Announced (latest : Option Probe) (s : Session σ) : Prop :=
  ∀ o ∈ s.outstanding, ∃ probe ∈ latest, probe.size = o.candidate

theorem EventCase.gap_le {s after : Session σ} {e : Event} (hc : EventCase s e after)
    (hne : e ≠ .restarted) : after.gap ≤ s.gap := by
  cases hc with
  | quiet _ low high _ =>
    unfold gap
    rw [low, high]
  | looked _ _ _ low high _ =>
    have hclamp := clamp_gap_le s
    unfold gap
    rw [low, high]
    exact hclamp
  | issued => exact clamp_gap_le s
  | expired => exact expire_gap_le s _ _
  | confirmed => exact confirm_gap_le s _ _
  | restarted => exact absurd rfl hne

theorem Announced.next {latest : Option Probe} {s after : Session σ} {e : Event}
    (h : s.Announced latest) (hc : EventCase s e after) :
    after.Announced (e.issued?.or latest) := by
  intro o ho
  cases hc with
  | quiet _ _ _ hsame => exact h o (hsame ▸ ho)
  | looked _ _ _ _ _ hnone =>
    rw [hnone] at ho
    cases ho
  | @issued now _ _ hopen =>
    cases Option.some.inj ho
    exact ⟨_, rfl, issue_size hopen (clamp_high_le_cap hopen) now⟩
  | expired => cases ho
  | confirmed => cases ho
  | restarted => cases ho

omit [RandomSource σ] in
/-- A reply that echoes the size of the latest probe has the size that the search waits for. -/
theorem Announced.candidate_of_expects {latest : Option Probe} {s : Session σ} {reply : Reply}
    (h : s.Announced latest) (hexp : s.Expects reply)
    (honest : ∀ probe ∈ latest, probe.size = reply.size) :
    ∃ o, s.outstanding = some o ∧ reply.size = o.candidate := by
  obtain ⟨o, ho, _⟩ := Option.map_eq_some_iff.mp hexp
  obtain ⟨probe, hlatest, hsize⟩ := h o ho
  exact ⟨o, ho, (honest probe hlatest).symm.trans hsize⟩

/-- However a probe is resolved, it leaves at most half of the range. -/
theorem EventCase.halves {latest : Option Probe} {s after : Session σ} {e : Event}
    (hc : EventCase s e after) (hs : s.Coherent) (positive : 0 < s.low)
    (announced : s.Announced latest)
    (generous : ∀ reply ∈ e.confirmed?, ∀ probe ∈ latest, probe.size ≤ reply.size)
    (hr : e.resolves = true) :
    (∃ o, s.outstanding = some o) ∧ after.outstanding = none ∧ after.gap ≤ (s.gap + 1) / 2 := by
  cases hc with
  | @expired probe now _ ho =>
    have hhalf := hs.expire_gap_le_half ho (hs.candidate_pos positive ho) now
    exact ⟨⟨probe, ho⟩, rfl, by omega⟩
  | @confirmed reply now hexp =>
    obtain ⟨o, ho, _⟩ := Option.map_eq_some_iff.mp hexp
    obtain ⟨probe, hlatest, hsize⟩ := announced o ho
    have hle := generous reply rfl probe hlatest
    exact ⟨⟨o, ho⟩, rfl, hs.confirm_gap_le_half ho (by omega) now⟩
  | quiet => cases hr
  | looked => cases hr
  | issued => cases hr
  | restarted => cases hr

/-- What a run without restart keeps of the search that it starts from. -/
structure Continues (latest : Option Probe) (s : Session σ) : Prop where
  coherent : s.Coherent
  positive : 0 < s.low
  announced : s.Announced latest

theorem Continues.next {latest : Option Probe} {s : Session σ} {call : Call}
    (h : s.Continues latest) (hcall : ¬call.Restarts) :
    (s.perform call).session.Continues ((s.event call).issued?.or latest) := by
  have hc := event_case s call
  have hne := event_ne_restarted (s := s) hcall
  exact ⟨(call_case s call).coherent h.coherent, Nat.lt_of_lt_of_le h.positive (hc.low_le hne),
    h.announced.next hc⟩

theorem Continues.gap_le_ceilDiv {latest : Option Probe} {s : Session σ} {calls : List Call}
    (h : s.Continues latest) (steady : ∀ call ∈ calls, ¬call.Restarts)
    (generous : Confirms (· ≤ ·) latest (s.events calls)) :
    (s.after calls).gap ≤ s.gap ⌈/⌉ 2 ^ (s.resolutions calls).length := by
  induction calls generalizing latest s with
  | nil =>
    show s.gap ≤ s.gap ⌈/⌉ 2 ^ 0
    rw [Nat.ceilDiv_eq_add_pred_div]
    simp
  | cons call calls ih =>
    obtain ⟨hcall, hcalls⟩ := List.forall_mem_cons.mp steady
    obtain ⟨hsize, hrest⟩ := generous
    have hc := event_case s call
    have hlater := ih (h.next hcall) hcalls hrest
    rw [resolutions_cons]
    show ((s.perform call).session.after calls).gap ≤ _
    cases hr : (s.event call).resolves with
    | true =>
      obtain ⟨_, _, hhalf⟩ := hc.halves h.coherent h.positive h.announced hsize hr
      calc ((s.perform call).session.after calls).gap
        _ ≤ (s.perform call).session.gap ⌈/⌉
            2 ^ ((s.perform call).session.resolutions calls).length := hlater
        _ ≤ ((s.gap + 1) / 2) ⌈/⌉ 2 ^ ((s.perform call).session.resolutions calls).length :=
          ceilDiv_mono hhalf _
        _ ≤ s.gap ⌈/⌉ 2 ^ (((s.perform call).session.resolutions calls).length + 1) :=
          ceilDiv_two_ceilDiv _ _
    | false =>
      have hle := hc.gap_le (event_ne_restarted hcall)
      exact Nat.le_trans hlater (ceilDiv_mono hle _)

theorem Continues.probes_length_le {latest : Option Probe} {s : Session σ} {calls : List Call}
    {k : Nat} (h : s.Continues latest) (steady : ∀ call ∈ calls, ¬call.Restarts)
    (generous : Confirms (· ≤ ·) latest (s.events calls))
    (hgap : s.gap ≤ s.config.threshold.toNat * 2 ^ k) :
    s.waiting.length + (s.probes calls).length ≤ k := by
  -- Each probe that is over spends one of the `k` halvings.
  induction calls generalizing latest s k with
  | nil =>
    cases ho : s.outstanding with
    | none => simp [waiting, ho, probes, events, history]
    | some probe =>
      have hpos := h.coherent.rounds_pos ho hgap
      simp [waiting, ho, probes, events, history]
      omega
  | cons call calls ih =>
    obtain ⟨hcall, hcalls⟩ := List.forall_mem_cons.mp steady
    obtain ⟨hsize, hrest⟩ := generous
    have hc := event_case s call
    have hne := event_ne_restarted (s := s) hcall
    have hconfig := (call_case s call).config
    rw [probes_cons, List.length_append]
    cases hr : (s.event call).resolves with
    | true =>
      obtain ⟨⟨probe, ho⟩, hnone, hhalf⟩ := hc.halves h.coherent h.positive h.announced hsize hr
      have hpos := h.coherent.rounds_pos ho hgap
      have hopened := (h.coherent.opened_gap ho).2
      have hlater := ih (k := k - 1) (h.next hcall) hcalls hrest
        (hconfig ▸ Nat.le_trans hhalf (half_gap_le hgap hopened))
      simp only [waiting, ho, hnone, Event.issued?_of_resolves hr, Option.toList_some,
        Option.toList_none, List.map_cons, List.map_nil, List.length_cons,
        List.length_nil] at hlater ⊢
      omega
    | false =>
      have hwaiting := hc.waiting_eq hne hr
      have hlater := ih (h.next hcall) hcalls hrest
        (hconfig ▸ Nat.le_trans (hc.gap_le hne) hgap)
      rw [hwaiting, List.length_append, List.length_map] at hlater
      omega

theorem probes_eq_nil {s : Session σ} {calls : List Call}
    (steady : ∀ call ∈ calls, ¬call.Restarts) (closed : s.gap ≤ s.config.threshold.toNat) :
    s.probes calls = [] := by
  induction calls generalizing s with
  | nil => rfl
  | cons call calls ih =>
    obtain ⟨hcall, hcalls⟩ := List.forall_mem_cons.mp steady
    have hc := event_case s call
    have hconfig := (call_case s call).config
    have hlater := ih hcalls (hconfig ▸ Nat.le_trans (hc.gap_le (event_ne_restarted hcall)) closed)
    have hnone : (s.event call).issued? = none := by
      generalize s.event call = e at hc ⊢
      generalize (s.perform call).session = after at hc
      cases hc with
      | issued _ _ hopen => exact absurd (Nat.le_trans (clamp_gap_le s) closed) hopen
      | _ => rfl
    rw [probes_cons, hnone, hlater]
    rfl

omit [RandomSource σ] in
theorem Coherent.phase_of_gap_le {s : Session σ} (hs : s.Coherent)
    (closed : s.gap ≤ s.config.threshold.toNat) : s.phase = .converged := by
  refine phase_eq_converged.mpr ⟨?_, closed⟩
  cases ho : s.outstanding with
  | none => rfl
  | some probe =>
    have hopened := (hs.opened_gap ho).2
    omega

theorem start_after_continues {config : Config} (positive : 0 < config.minSize.toNat) (now : Int)
    (source : σ) {calls : List Call}
    (idle : ((start config now source).after calls).outstanding = none) :
    ((start config now source).after calls).Continues none := by
  have hlowest := (start_after_bounded config now source calls).lowest_le
  rw [start_after_config] at hlowest
  refine ⟨after_coherent (start_coherent config now source) calls,
    Nat.lt_of_lt_of_le positive hlowest, ?_⟩
  intro o ho
  rw [idle] at ho
  cases ho

theorem start_after_gap_le (config : Config) (now : Int) (source : σ) (calls : List Call) :
    ((start config now source).after calls).gap ≤ 65535 := by
  have hbounded := start_after_bounded config now source calls
  have hlowest := hbounded.lowest_le
  have hhigh := hbounded.high_le
  rw [start_after_config] at hlowest hhigh
  have hhighest : config.highest = max config.maxSize.toNat config.minSize.toNat := rfl
  have hmax := config.maxSize.toNat_lt
  have hmin := config.minSize.toNat_lt
  unfold gap
  omega

/-- Every probe that is over has halved the range, whether it was answered or lost. So a search ends
once it has halved its range down to the threshold, and with a threshold of at least one it takes no
more than 16 probes. -/
theorem gap_halves_per_resolution {config : Config} (positive : 0 < config.minSize.toNat)
    (now : Int) (source : σ) (past : List Call) {calls : List Call}
    (idle : ((start config now source).after past).outstanding = none)
    (steady : ∀ call ∈ calls, ¬call.Restarts)
    (generous : Confirms (· ≤ ·) none (((start config now source).after past).events calls)) :
    let s := (start config now source).after past
    (s.after calls).gap ≤ s.gap ⌈/⌉ 2 ^ (s.resolutions calls).length ∧
      (∀ k ≤ (s.resolutions calls).length, s.gap ≤ config.threshold.toNat * 2 ^ k →
        (s.after calls).phase = .converged ∧
          ∀ more : List Call, (∀ call ∈ more, ¬call.Restarts) → (s.after calls).probes more = []) ∧
      (1 ≤ config.threshold.toNat → (s.probes calls).length ≤ 16) := by
  intro s
  have h : s.Continues none := start_after_continues positive now source idle
  have hconfig : s.config = config := start_after_config config now source past
  have hgap := h.gap_le_ceilDiv steady generous
  refine ⟨hgap, ?_, ?_⟩
  · intro k hk hrange
    have hpow : 2 ^ k ≤ 2 ^ (s.resolutions calls).length := Nat.pow_le_pow_right (by decide) hk
    have hclosed : (s.after calls).gap ≤ (s.after calls).config.threshold.toNat := by
      rw [after_config, hconfig]
      apply Nat.le_trans hgap
      rw [ceilDiv_le_iff_le_mul (Nat.two_pow_pos _), Nat.mul_comm]
      exact Nat.le_trans hrange (Nat.mul_le_mul_left _ hpow)
    exact ⟨(after_coherent h.coherent calls).phase_of_gap_le hclosed,
      fun more hmore => probes_eq_nil hmore hclosed⟩
  · intro threshold
    have hmax : s.gap ≤ 65535 := start_after_gap_le config now source past
    have hrange : s.gap ≤ s.config.threshold.toNat * 2 ^ 16 := by
      rw [hconfig]
      omega
    have hcount := h.probes_length_le steady generous hrange
    omega

/-- From 100 to 140, after a restart that drops a probe: a reply confirms 122 bytes for a probe of
120, the probe of 131 bytes is lost, and the one of 126 bytes is answered. -/
theorem gap_halves_per_resolution_40 :
    let config : Config :=
      { minSize := 100, maxSize := 140, interval := 0, threshold := 5, fragmentSize := 100 }
    let s := (start config 0 ({} : CountingSource)).after [.tick 1 0, .restart 2]
    let calls : List Call := [.tick 3 0, .reply ⟨122, 1001⟩ 4, .tick 5 0, .tick 200000006 0,
      .tick 200000007 0, .reply ⟨126, 1003⟩ 200000008]
    s.gap = 40 ∧ (s.resolutions calls).length = 3 ∧ (s.after calls).gap ≤ 40 ⌈/⌉ 2 ^ 3 ∧
      (s.after calls).phase = .converged ∧
      (s.after calls).probes [.tick 200000009 0, .tick 400000010 0] = [] ∧
      (s.probes calls).length ≤ 16 := by
  intro config s calls
  have hgap : s.gap = 40 := by decide +kernel
  have hcount : (s.resolutions calls).length = 3 := by decide +kernel
  obtain ⟨hhalved, hends, hfew⟩ := gap_halves_per_resolution
    (by decide : 0 < config.minSize.toNat) 0 ({} : CountingSource) [.tick 1 0, .restart 2]
    (by decide +kernel) (by decide : ∀ call ∈ calls, ¬call.Restarts) (by decide +kernel)
  rw [hcount, hgap] at hhalved
  obtain ⟨hphase, hsilent⟩ := hends 3 (by rw [hcount]) (by rw [hgap]; decide)
  exact ⟨hgap, hcount, hhalved, hphase, hsilent _ (by decide), hfew (by decide)⟩

end Session

end PathMtu
