import PathMtu.Proofs.Gap
import PathMtu.Proofs.History
import PathMtu.Random.Predictable

namespace PathMtu

namespace Call

def isReply : Call → Bool
  | .reply _ _ => true
  | _ => false

/-- What a search that is over answers: it issues no probe and accepts no reply. -/
def refusal : Call → Answer
  | .tick _ _ => .probe none
  | .reply _ _ => .verdict false
  | .restart _ => .done
  | .setFragment _ => .done

end Call

namespace Session

variable {σ : Type} [RandomSource σ]

/-- What calls other than restarts do to a search that is over. The replies among them are counted,
and only the receiver's limit may still lower the upper bound. -/
structure Rests (s : Session σ) (calls : List Call) (after : Session σ) (answers : List Answer) :
    Prop where
  phase : after.phase = .converged
  low : after.low = s.low
  ordered : after.low ≤ after.high
  high : after.high ≤ s.high
  tally : after.tally = { s.tally with rejected := s.tally.rejected + calls.countP Call.isReply }
  answers : answers = calls.map Call.refusal

omit [RandomSource σ] in
theorem not_expects_of_none {s : Session σ} (ho : s.outstanding = none) (reply : Reply) :
    ¬s.Expects reply := by
  unfold Expects
  rw [ho]
  exact nofun

theorem TickCase.of_converged {s after : Session σ} {now rto : Int} {answer : Option Probe}
    (h : TickCase s now rto after answer) (converged : s.phase = .converged) : answer = none ∧
      (s.config.enabled = false ∧ after = s ∨
        s.config.enabled = true ∧ s.clamp.phase = .converged ∧ after = s.clamp.settle) := by
  obtain ⟨hnone, hclosed⟩ := phase_eq_converged.mp converged
  have hclamp : s.clamp.Converged := Nat.le_trans (clamp_gap_le s) hclosed
  cases h with
  | disabled he => exact ⟨rfl, Or.inl ⟨he, rfl⟩⟩
  | waiting _ ho _ => rw [hnone] at ho; cases ho
  | expired _ ho _ => rw [hnone] at ho; cases ho
  | settled he _ _ => exact ⟨rfl, Or.inr ⟨he, phase_eq_converged.mpr ⟨hnone, hclamp⟩, rfl⟩⟩
  | early _ _ hopen _ => exact absurd hclamp hopen
  | issued _ _ hopen _ => exact absurd hclamp hopen

theorem TickCase.rests {s after : Session σ} {now rto : Int} {answer : Option Probe}
    (h : TickCase s now rto after answer) (ordered : s.low ≤ s.high)
    (converged : s.phase = .converged) : s.Rests [.tick now rto] after [.probe answer] := by
  obtain ⟨rfl, ⟨_, rfl⟩ | ⟨_, hphase, rfl⟩⟩ := h.of_converged converged
  · exact ⟨converged, rfl, ordered, Nat.le_refl _, rfl, rfl⟩
  · exact ⟨hphase, rfl, clamp_ordered ordered, clamp_high_le ordered, rfl, rfl⟩

theorem CallCase.rests {s after : Session σ} {call : Call} {answer : Answer}
    (h : CallCase s call after answer) (ordered : s.low ≤ s.high)
    (converged : s.phase = .converged) (hcall : ¬call.Restarts) :
    s.Rests [call] after [answer] := by
  obtain ⟨hnone, _⟩ := phase_eq_converged.mp converged
  cases h with
  | tick h => exact h.rests ordered converged
  | accepted hexp => exact absurd hexp (not_expects_of_none hnone _)
  | rejected => exact ⟨converged, rfl, ordered, Nat.le_refl _, rfl, rfl⟩
  | restarted => exact absurd trivial hcall
  | resized => exact ⟨converged, rfl, ordered, Nat.le_refl _, rfl, rfl⟩

omit [RandomSource σ] in
theorem Rests.trans {s t after : Session σ} {calls more : List Call} {answers others : List Answer}
    (h : s.Rests calls t answers) (h' : t.Rests more after others) :
    s.Rests (calls ++ more) after (answers ++ others) := by
  refine ⟨h'.phase, h'.low.trans h.low, h'.ordered, Nat.le_trans h'.high h.high, ?_, ?_⟩
  · rw [h'.tally, h.tally, List.countP_append, ← Nat.add_assoc]
  · rw [h'.answers, h.answers, List.map_append]

theorem after_rests {s : Session σ} {calls : List Call} (ordered : s.low ≤ s.high)
    (converged : s.phase = .converged) (steady : ∀ call ∈ calls, ¬call.Restarts) :
    s.Rests calls (s.after calls) (s.answers calls) := by
  induction calls generalizing s with
  | nil => exact ⟨converged, rfl, ordered, Nat.le_refl _, rfl, rfl⟩
  | cons call calls ih =>
    obtain ⟨hcall, hcalls⟩ := List.forall_mem_cons.mp steady
    have hstep := (call_case s call).rests ordered converged hcall
    exact hstep.trans (ih hstep.ordered hstep.phase hcalls)

theorem tick_fragment_of_converged {s : Session σ} (enabled : s.config.enabled = true)
    (converged : s.phase = .converged) (now rto : Int) :
    (s.tick now rto).session.fragment = s.low := by
  obtain ⟨_, ⟨hd, _⟩ | ⟨_, _, hsettled⟩⟩ := (tick_case s now rto).of_converged converged
  · rw [enabled] at hd
    cases hd
  · rw [hsettled]
    rfl

/-- Only a restart opens a search that has converged. Until then no call issues a probe and every
reply is rejected. The lower bound stays, the upper bound can only fall towards it, and each tick
publishes the lower bound again. -/
theorem converged_until_restart (config : Config) (now : Int) (source : σ) (past : List Call)
    (converged : ((start config now source).after past).phase = .converged) {calls : List Call}
    (steady : ∀ call ∈ calls, ¬call.Restarts) :
    let s := (start config now source).after past
    (s.after calls).phase = .converged ∧
      s.answers calls = calls.map Call.refusal ∧
      (s.after calls).low = s.low ∧
      s.low ≤ (s.after calls).high ∧
      (s.after calls).high ≤ s.high ∧
      (∀ more : List Call, (∀ call ∈ more, ¬call.Restarts) →
        ((s.after calls).after more).high ≤ (s.after calls).high) ∧
      (s.after calls).tally =
        { s.tally with rejected := s.tally.rejected + calls.countP Call.isReply } ∧
      ∀ later rto : Int, config.enabled = true →
        ((s.after calls).tick later rto).session.fragment = s.low := by
  intro s
  have hs : s.Coherent := after_coherent (start_coherent config now source) past
  have h := after_rests hs.ordered converged steady
  refine ⟨h.phase, h.answers, h.low, h.low ▸ h.ordered, h.high, ?_, h.tally, ?_⟩
  · intro more hmore
    exact (after_rests h.ordered h.phase hmore).high
  · intro later rto enabled
    have hconfig : (s.after calls).config = config :=
      (after_config s calls).trans (start_after_config config now source past)
    rw [← h.low]
    exact tick_fragment_of_converged (by rw [hconfig]; exact enabled) h.phase later rto

/-- From 100 to 140 with threshold 40, so that the search is over before a tick has seen the
receiver's limit of 120. A reply for 500 bytes comes with a token that is never issued. -/
theorem converged_until_restart_100 :
    let config : Config :=
      { minSize := 100, maxSize := 140, interval := 0, threshold := 40, receiveBuffer := 120 }
    let s := (start config 0 ({} : CountingSource)).after [.reply ⟨130, 7⟩ 1]
    let calls : List Call := [.setFragment 9000, .reply ⟨500, 1000⟩ 2, .tick 3 0, .setFragment 7]
    s.phase = .converged ∧ s.high = 140 ∧ (s.after calls).phase = .converged ∧
      s.answers calls = [.done, .verdict false, .probe none, .done] ∧
      (s.after calls).low = 100 ∧ (s.after calls).high ≤ 140 ∧
      ((s.after calls).after [.reply ⟨500, 1000⟩ 4]).high ≤ (s.after calls).high ∧
      (s.after calls).tally.rejected = 2 ∧
      ((s.after calls).tick 5 0).session.fragment = 100 := by
  intro config s calls
  have converged : s.phase = .converged := by decide +kernel
  have hlow : s.low = 100 := by decide +kernel
  have hhigh : s.high = 140 := by decide +kernel
  obtain ⟨hphase, hanswers, hlow', _, hhigh', hfalls, htally, hfragment⟩ :=
    converged_until_restart config 0 ({} : CountingSource) [.reply ⟨130, 7⟩ 1] converged
      (by decide : ∀ call ∈ calls, ¬call.Restarts)
  have hpublished := hfragment 5 0 rfl
  rw [hlow] at hpublished hlow'
  rw [hhigh] at hhigh'
  refine ⟨converged, hhigh, hphase, hanswers, hlow', hhigh', hfalls _ (by decide), ?_, ?_⟩
  · rw [htally]
    decide +kernel
  · unfold s
    exact hpublished

end Session

end PathMtu
