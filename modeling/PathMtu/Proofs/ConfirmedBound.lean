import PathMtu.Proofs.ExchangeRecord
import PathMtu.Random.Predictable

namespace PathMtu

namespace Exchange

variable {σ : Type}

/-- Probes of different paths carry different tokens. -/
def TokensApart (e : Exchange σ) : Prop :=
  ∀ t ∈ e.trials, ∀ u ∈ e.trials, t.probe.token = u.probe.token → t.leg = u.leg

instance (e : Exchange σ) : Decidable e.TokensApart := List.decidableBAll _ _

theorem follow_trials_suffix (e : Exchange σ) (after : Session σ) (answer : Answer) :
    e.trials <:+ (e.follow after answer).trials := by
  cases answer with
  | probe probe =>
    cases probe with
    | none => exact List.suffix_rfl
    | some probe => exact List.suffix_cons _ _
  | _ => exact List.suffix_rfl

@[simp] theorem follow_path_mtu (e : Exchange σ) (after : Session σ) (answer : Answer) :
    (e.follow after answer).path.mtu = e.path.mtu := by
  cases answer with
  | probe probe =>
    cases probe with
    | none => rfl
    | some probe => exact Path.advance_mtu _ _
  | _ => rfl

@[simp] theorem follow_session (e : Exchange σ) (after : Session σ) (answer : Answer) :
    (e.follow after answer).session = after := by
  cases answer with
  | probe probe => cases probe <;> rfl
  | _ => rfl

/-- A datagram that the present path has delivered is no larger than its MTU, nor is the size that
its probe advertised. -/
theorem Recorded.size_le_mtu {e : Exchange σ} (h : e.Recorded) {t : Trial} (ht : t ∈ e.trials)
    (hleg : t.leg = e.leg) (hfate : t.fate = .delivered) : t.probe.size ≤ e.path.mtu := by
  have hsize := h.size t ht
  have hfits : ¬e.path.mtu < t.probe.encodedSize e.path.framing := by
    intro hlt
    have hover := (h.oversize t ht hleg).mpr hlt
    rw [hfate] at hover
    cases hover
  omega

/-- An expected reply comes from the present path, however many replies of earlier paths are still
under way. -/
theorem Recorded.expected_size_le_mtu {e : Exchange σ} (h : e.Recorded) (apart : e.TokensApart)
    {reply : Reply} (hexp : e.session.Expects reply) (hans : e.Answered reply) :
    reply.size ≤ e.path.mtu := by
  obtain ⟨t, ht, hfate, rfl⟩ := hans
  obtain ⟨probe, hprobe, htoken⟩ := Option.map_eq_some_iff.mp hexp
  obtain ⟨latest, hhead, hleg, hlatest, _⟩ := h.latest probe hprobe
  have hmem : latest ∈ e.trials := List.mem_of_head? hhead
  have hsame : t.leg = latest.leg := apart t ht latest hmem (by
    rw [hlatest, htoken]
    rfl)
  exact h.size_le_mtu ht (hsame.trans hleg) hfate

variable [RandomSource σ]

theorem play_low_le_mtu {e : Exchange σ} {lowest : Nat} {move : Move} (h : e.Recorded)
    (hlowest : e.session.config.lowest = lowest) (apart : e.TokensApart) (hm : e.Possible move)
    (hlow : e.session.low ≤ max lowest e.path.mtu) :
    (e.play move).session.low ≤ max lowest (e.play move).path.mtu := by
  cases move with
  | reroute path now =>
    show e.session.config.lowest ≤ max lowest path.mtu
    omega
  | call call =>
    have hc := Session.call_case e.session call
    show (e.follow _ _).session.low ≤ max lowest (e.follow _ _).path.mtu
    rw [follow_session, follow_path_mtu]
    generalize (e.session.perform call).session = after at hc ⊢
    generalize (e.session.perform call).answer = answer at hc
    cases hc with
    | tick ht => cases ht <;> exact hlow
    | @accepted reply now hexp =>
      have hsize := h.expected_size_le_mtu apart hexp hm
      show max e.session.low reply.size ≤ _
      omega
    | rejected => exact hlow
    | restarted =>
      show e.session.config.lowest ≤ _
      omega
    | resized => exact hlow

theorem play_config (e : Exchange σ) (move : Move) :
    (e.play move).session.config = e.session.config := by
  cases move with
  | call call =>
    show (e.follow _ _).session.config = e.session.config
    rw [follow_session]
    exact (Session.call_case e.session call).config
  | reroute path now => rfl

theorem Reach.config {rule : Exchange σ → Move → Prop} {first e : Exchange σ}
    (run : Reach rule first e) : e.session.config = first.session.config := by
  induction run with
  | start => rfl
  | next _ _ ih => exact (play_config _ _).trans ih

theorem play_trials_suffix (e : Exchange σ) (move : Move) : e.trials <:+ (e.play move).trials := by
  cases move with
  | call call => exact follow_trials_suffix e _ _
  | reroute path now => exact List.suffix_rfl

theorem mem_play_trials {e : Exchange σ} {move : Move} {t : Trial} (ht : t ∈ e.trials) :
    t ∈ (e.play move).trials :=
  (play_trials_suffix e move).subset ht

/-- The lower bound never exceeds the MTU of the present path, unless the search started above it:
whatever is lost, late, doubled or out of order, also across paths. -/
theorem reach_low_le_mtu {config : Config} {path : Path} (framing : path.framing = config.framing)
    {now : Int} {source : σ} {e : Exchange σ}
    (run : Reach Possible (start config path now source) e) (apart : e.TokensApart) :
    e.session.low ≤ max config.lowest e.path.mtu := by
  induction run with
  | start => exact Nat.le_max_left _ _
  | next run hm ih =>
    have before := ih fun t ht u hu => apart t (mem_play_trials ht) u (mem_play_trials hu)
    have record := run.recorded (start_recorded config now source framing)
    exact play_low_le_mtu record (congrArg Config.lowest run.config)
      (fun t ht u hu => apart t (mem_play_trials ht) u (mem_play_trials hu)) hm before

/-- The first path delivers 120 bytes, the second one only 110. The reply for the first path arrives
while a probe of the same size is on the second one. -/
theorem reach_low_le_mtu_110 :
    let config : Config :=
      { minSize := 100, maxSize := 140, interval := 0, threshold := 4, fragmentSize := 100 }
    let wide : Path := { framing := {}, mtu := 200, lossRate := 0, generator := ⟨#[], 0⟩ }
    let narrow : Path := { framing := {}, mtu := 110, lossRate := 0, generator := ⟨#[], 0⟩ }
    let e := [Move.call (.tick 1 0), .reroute narrow 2, .call (.tick 3 0),
      .call (.reply ⟨120, 1000⟩ 4), .call (.tick 200000004 0), .call (.tick 200000005 0),
      .call (.reply ⟨109, 1002⟩ 200000006), .call (.reply ⟨120, 1000⟩ 200000007)].foldl play
        (start config wide 0 ({} : CountingSource))
    e.TokensApart ∧ e.session.low = 109 ∧ e.session.low ≤ max config.lowest e.path.mtu := by
  intro config wide narrow e
  have run : Reach Possible (start config wide 0 ({} : CountingSource)) e :=
    Reach.start.foldl (by decide +kernel)
  have apart : e.TokensApart := by decide +kernel
  exact ⟨apart, by decide +kernel, reach_low_le_mtu rfl run apart⟩

end Exchange

end PathMtu
