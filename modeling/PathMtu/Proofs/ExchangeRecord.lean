import Mathlib.Data.List.Nodup
import PathMtu.Proofs.Delivery
import PathMtu.Proofs.Exchange

namespace PathMtu

namespace Exchange

variable {σ : Type}

theorem send_unlost {e : Exchange σ} {after : Session σ} {probe : Probe}
    (unlost : ∀ t ∈ e.trials, t.fate ≠ .lost)
    (lossless : (({ e with session := after } : Exchange σ).send probe).path.lost ≤ e.path.lost) :
    ∀ t ∈ (({ e with session := after } : Exchange σ).send probe).trials, t.fate ≠ .lost := by
  intro t ht hlost
  rcases List.mem_cons.mp ht with rfl | ht
  · -- A loss would show in the path's tally.
    have hfate : e.path.fate probe = .lost := hlost
    have hadvance : (e.path.advance (e.path.fate probe)).lost ≤ e.path.lost := lossless
    rw [hfate] at hadvance
    exact absurd hadvance (Nat.not_succ_le_self _)
  · exact unlost t ht hlost

/-- What the trials of a run tell: how large each datagram was, which of the present path's were
oversize, and that a probe that waits for its reply is the latest trial. -/
structure Recorded (e : Exchange σ) : Prop where
  coherent : e.session.Coherent
  framing : e.path.framing = e.session.config.framing
  legs : ∀ t ∈ e.trials, t.leg ≤ e.leg
  size : ∀ t ∈ e.trials,
    t.probe.encodedSize e.path.framing = max t.probe.size (e.path.framing.overhead + 1)
  oversize : ∀ t ∈ e.trials, t.leg = e.leg →
    (t.fate = .oversize ↔ e.path.mtu < t.probe.encodedSize e.path.framing)
  latest : ∀ probe, e.session.outstanding = some probe → ∃ t, e.trials.head? = some t ∧
    t.leg = e.leg ∧ t.probe.token = probe.token ∧ t.probe.size = probe.candidate

theorem start_recorded (config : Config) {path : Path} (now : Int) (source : σ)
    (framing : path.framing = config.framing) : (start config path now source).Recorded := by
  refine ⟨Session.start_coherent config now source, framing, ?_, ?_, ?_, ?_⟩
  · intro t ht; cases ht
  · intro t ht; cases ht
  · intro t ht; cases ht
  · intro probe hp; cases hp

/-- A probe that waits without an answer was oversize, since it was not lost at random. -/
theorem Recorded.latest_oversize {e : Exchange σ} (h : e.Recorded)
    (unlost : ∀ t ∈ e.trials, t.fate ≠ .lost) (unanswered : ¬e.LatestAnswered)
    {probe : Outstanding} (hp : e.session.outstanding = some probe) :
    ∃ t ∈ e.trials, t.fate = .oversize ∧ t.leg = e.leg ∧ t.probe.size = probe.candidate := by
  obtain ⟨t, hhead, hleg, _, hsize⟩ := h.latest probe hp
  have hmem : t ∈ e.trials := List.mem_of_head? hhead
  refine ⟨t, hmem, ?_, hleg, hsize⟩
  cases hf : t.fate with
  | delivered =>
    have hanswered : e.LatestAnswered := by
      unfold LatestAnswered
      rw [hhead, Option.map_some, hf]
    exact absurd hanswered unanswered
  | oversize => rfl
  | lost => exact absurd hf (unlost t hmem)

/-- Where no token is used twice, an expected reply answers the latest probe. -/
theorem Recorded.expected_latest {e : Exchange σ} (h : e.Recorded)
    (distinct : (e.trials.map fun t => t.probe.token).Nodup) {reply : Reply}
    (hexp : e.session.Expects reply) (hans : e.Answered reply) :
    ∃ t ∈ e.trials.head?, t.fate = .delivered ∧ t.leg = e.leg ∧ t.probe.reply = reply := by
  obtain ⟨t, ht, hfate, hreply⟩ := hans
  obtain ⟨o, ho, htoken⟩ := Option.map_eq_some_iff.mp hexp
  obtain ⟨latest, hhead, hleg, hlatest, _⟩ := h.latest o ho
  have hsame : t = latest := by
    apply List.inj_on_of_nodup_map distinct ht (List.mem_of_head? hhead)
    rw [hlatest, htoken, ← hreply]
    rfl
  subst hsame
  exact ⟨t, hhead, hfate, hleg, hreply⟩

/-- A session that issues nothing leaves the record as it is. -/
theorem Recorded.keep {e : Exchange σ} (h : e.Recorded) {after : Session σ}
    (coherent : after.Coherent) (config : after.config = e.session.config)
    (waiting : after.outstanding = none ∨ after.outstanding = e.session.outstanding) :
    ({ e with session := after } : Exchange σ).Recorded := by
  refine ⟨coherent, ?_, h.legs, h.size, h.oversize, ?_⟩
  · show e.path.framing = after.config.framing
    rw [config]
    exact h.framing
  · intro probe hp
    rcases waiting with hn | hs
    · rw [show after.outstanding = some probe from hp] at hn
      cases hn
    · exact h.latest probe (hs.symm.trans hp)

theorem Recorded.send {e : Exchange σ} (h : e.Recorded) {after : Session σ} {probe : Probe}
    (coherent : after.Coherent) (config : after.config = e.session.config)
    (size : probe.encodedSize e.path.framing = max probe.size (e.path.framing.overhead + 1))
    (waiting : ∀ o, after.outstanding = some o → probe.token = o.token ∧ probe.size = o.candidate) :
    (({ e with session := after } : Exchange σ).send probe).Recorded := by
  have hframing : (e.path.deliver probe).2.framing = e.path.framing := Path.advance_framing _ _
  have hmtu : (e.path.deliver probe).2.mtu = e.path.mtu := Path.advance_mtu _ _
  refine ⟨coherent, ?_, ?_, ?_, ?_, ?_⟩
  · show (e.path.deliver probe).2.framing = after.config.framing
    rw [hframing, config]
    exact h.framing
  · intro t ht
    rcases List.mem_cons.mp ht with rfl | ht
    · exact Nat.le_refl _
    · exact h.legs t ht
  · show ∀ t ∈ _ :: e.trials, t.probe.encodedSize (e.path.deliver probe).2.framing =
      max t.probe.size ((e.path.deliver probe).2.framing.overhead + 1)
    rw [hframing]
    intro t ht
    rcases List.mem_cons.mp ht with rfl | ht
    · exact size
    · exact h.size t ht
  · show ∀ t ∈ _ :: e.trials, t.leg = e.leg → (t.fate = .oversize ↔
      (e.path.deliver probe).2.mtu < t.probe.encodedSize (e.path.deliver probe).2.framing)
    rw [hframing, hmtu]
    intro t ht hleg
    rcases List.mem_cons.mp ht with rfl | ht
    · exact Path.fate_eq_oversize
    · exact h.oversize t ht hleg
  · intro o ho
    exact ⟨_, rfl, rfl, waiting o ho⟩

variable [RandomSource σ]

theorem Recorded.call {e : Exchange σ} (h : e.Recorded) {call : Call} {after : Session σ}
    {answer : Answer} (hc : e.session.CallCase call after answer) :
    (e.follow after answer).Recorded := by
  have coherent := hc.coherent h.coherent
  have config := hc.config
  cases hc with
  | @tick now _ _ _ ht =>
    cases ht with
    | disabled => exact h.keep coherent config (Or.inr rfl)
    | waiting => exact h.keep coherent config (Or.inr rfl)
    | expired => exact h.keep coherent config (Or.inl rfl)
    | settled => exact h.keep coherent config (Or.inr rfl)
    | early => exact h.keep coherent config (Or.inr rfl)
    | issued _ _ opened _ =>
      have size := Session.issue_encodedSize e.session.clamp now
      rw [show e.session.clamp.config.framing = e.path.framing from h.framing.symm] at size
      apply h.send coherent config size
      intro o ho
      cases Option.some.inj ho
      exact ⟨rfl, Session.issue_size opened (Session.clamp_high_le_cap opened) now⟩
  | accepted => exact h.keep coherent config (Or.inl rfl)
  | rejected => exact h.keep coherent config (Or.inr rfl)
  | restarted => exact h.keep coherent config (Or.inl rfl)
  | resized => exact h.keep coherent config (Or.inr rfl)

theorem Recorded.play {e : Exchange σ} (h : e.Recorded) {move : Move} (hm : e.Possible move) :
    (e.play move).Recorded := by
  cases move with
  | call call => exact h.call (Session.call_case e.session call)
  | reroute path now =>
    have hframing : path.framing = e.path.framing := Eq.trans hm h.framing.symm
    refine ⟨Session.coherent_of_none (Nat.le_max_right _ _) rfl, hm, ?_, ?_, ?_, ?_⟩
    · intro t ht
      exact Nat.le_succ_of_le (h.legs t ht)
    · show ∀ t ∈ e.trials, t.probe.encodedSize path.framing =
        max t.probe.size (path.framing.overhead + 1)
      rw [hframing]
      exact h.size
    · intro t ht hleg
      have hle := h.legs t ht
      rw [show t.leg = e.leg + 1 from hleg] at hle
      omega
    · intro probe hp
      cases hp

theorem Reach.recorded {first e : Exchange σ} (run : Reach Possible first e)
    (h : first.Recorded) : e.Recorded := by
  induction run with
  | start => exact h
  | next _ hm ih => exact ih.play hm

end Exchange

end PathMtu
