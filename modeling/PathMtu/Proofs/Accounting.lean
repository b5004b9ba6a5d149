import PathMtu.Proofs.Convergence
import PathMtu.Proofs.Pace

namespace PathMtu

def Answer.issues : Answer → Bool
  | .probe issued => issued.isSome
  | _ => false

namespace Session

variable {σ : Type}

/-- Each probe that was sent is over, was dropped by a restart, or waits for its reply. -/
def Balanced (dropped : Nat) (s : Session σ) : Prop :=
  s.tally.sent = s.finished + dropped + s.waiting.length

theorem start_balanced (config : Config) (now : Int) (source : σ) :
    (start config now source).Balanced 0 := rfl

theorem waiting_length_of_some {s : Session σ} {probe : Outstanding}
    (ho : s.outstanding = some probe) : s.waiting.length = 1 := by
  unfold waiting
  rw [ho]
  rfl

theorem waiting_length_of_none {s : Session σ} (ho : s.outstanding = none) :
    s.waiting.length = 0 := by
  unfold waiting
  rw [ho]
  rfl

theorem waiting_length_eq_phase (s : Session σ) :
    s.waiting.length = if s.phase = .probing then 1 else 0 := by
  unfold phase
  cases ho : s.outstanding with
  | some probe => simp [waiting_length_of_some ho]
  | none =>
    rw [waiting_length_of_none ho]
    by_cases hc : s.Converged <;> simp [hc]

/-- A probe that waits is over once it is given up or answered, and counted once. -/
theorem Balanced.resolve {dropped : Nat} {s after : Session σ} {probe : Outstanding}
    (h : s.Balanced dropped) (ho : s.outstanding = some probe)
    (resolved : after.outstanding = none) (sent : after.tally.sent = s.tally.sent)
    (finished : after.finished = s.finished + 1) : after.Balanced dropped := by
  unfold Balanced at h ⊢
  rw [waiting_length_of_some ho] at h
  rw [waiting_length_of_none resolved]
  omega

theorem Balanced.confirm {dropped : Nat} {s : Session σ} {probe : Outstanding}
    (h : s.Balanced dropped) (ho : s.outstanding = some probe) (size : Nat) (now : Int) :
    (s.confirm size now).Balanced dropped :=
  h.resolve ho rfl rfl rfl

variable [RandomSource σ]

theorem TickCase.balanced {dropped : Nat} {s after : Session σ} {now rto : Int}
    {answer : Option Probe} (hc : TickCase s now rto after answer) (h : s.Balanced dropped) :
    after.Balanced dropped := by
  cases hc with
  | disabled => exact h
  | waiting => exact h
  | @expired probe _ ho _ =>
    refine h.resolve ho rfl rfl ?_
    show s.tally.timedOut + 1 + s.tally.accepted = s.tally.timedOut + s.tally.accepted + 1
    omega
  | settled => exact h
  | early => exact h
  | issued _ ho _ _ =>
    unfold Balanced at h
    rw [waiting_length_of_none ho] at h
    show s.tally.sent + 1 = s.finished + dropped + 1
    omega

/-- A tick counts the probe that it issues, and no reply. -/
theorem TickCase.tally {s after : Session σ} {now rto : Int} {answer : Option Probe}
    (hc : TickCase s now rto after answer) :
    after.tally.sent = s.tally.sent + answer.toList.length ∧
      after.tally.accepted = s.tally.accepted ∧ after.tally.rejected = s.tally.rejected := by
  cases hc <;> exact ⟨rfl, rfl, rfl⟩

/-- The probe that a call drops: a restart drops the one that it finds waiting. -/
def droppedBy (s : Session σ) (call : Call) : List Outstanding :=
  if call.Restarts then s.outstanding.toList else []

/-- The probes that the restarts of a run drop, the earliest first. -/
def dropped (s : Session σ) : List Call → List Outstanding
  | [] => []
  | call :: calls => s.droppedBy call ++ (s.perform call).session.dropped calls

theorem CallCase.balanced {dropped : Nat} {s after : Session σ} {call : Call} {answer : Answer}
    (hc : CallCase s call after answer) (h : s.Balanced dropped) :
    after.Balanced (dropped + (s.droppedBy call).length) := by
  cases hc with
  | tick hc => exact hc.balanced h
  | accepted hexp =>
    obtain ⟨probe, ho, _⟩ := Option.map_eq_some_iff.mp hexp
    exact h.confirm ho _ _
  | rejected => exact h
  | restarted =>
    unfold Balanced waiting at h
    rw [List.length_map] at h
    show s.tally.sent = s.finished + (dropped + s.outstanding.toList.length) + 0
    omega
  | resized => exact h

theorem after_balanced {dropped : Nat} {s : Session σ} (h : s.Balanced dropped)
    (calls : List Call) : (s.after calls).Balanced (dropped + (s.dropped calls).length) := by
  induction calls generalizing s dropped with
  | nil => exact h
  | cons call calls ih =>
    have hrest := ih ((call_case s call).balanced h)
    rw [Nat.add_assoc, ← List.length_append] at hrest
    exact hrest

/-- What the calls from one session to another have answered is what the second one has counted on
top of the first. -/
structure Counted (s : Session σ) (calls : List Call) (after : Session σ)
    (answers : List Answer) : Prop where
  sent : after.tally.sent = s.tally.sent + answers.countP Answer.issues
  accepted : after.tally.accepted = s.tally.accepted + answers.count (.verdict true)
  rejected : after.tally.rejected = s.tally.rejected + answers.count (.verdict false)
  verdicts : calls.countP Call.isReply =
    answers.count (.verdict true) + answers.count (.verdict false)

theorem CallCase.counted {s after : Session σ} {call : Call} {answer : Answer}
    (hc : CallCase s call after answer) : s.Counted [call] after [answer] := by
  cases hc with
  | @tick _ _ _ probe hc =>
    obtain ⟨hsent, haccepted, hrejected⟩ := hc.tally
    refine ⟨?_, haccepted, hrejected, rfl⟩
    cases probe <;> exact hsent
  | _ => exact ⟨rfl, rfl, rfl, rfl⟩

omit [RandomSource σ] in
theorem Counted.trans {s t after : Session σ} {calls more : List Call}
    {answers others : List Answer} (h : s.Counted calls t answers)
    (h' : t.Counted more after others) : s.Counted (calls ++ more) after (answers ++ others) := by
  refine ⟨?_, ?_, ?_, ?_⟩
  · rw [h'.sent, h.sent, List.countP_append, Nat.add_assoc]
  · rw [h'.accepted, h.accepted, List.count_append, Nat.add_assoc]
  · rw [h'.rejected, h.rejected, List.count_append, Nat.add_assoc]
  · rw [List.countP_append, List.count_append, List.count_append, h.verdicts, h'.verdicts]
    omega

theorem after_counted (s : Session σ) (calls : List Call) :
    s.Counted calls (s.after calls) (s.answers calls) := by
  induction calls generalizing s with
  | nil => exact ⟨rfl, rfl, rfl, rfl⟩
  | cons call calls ih => exact (call_case s call).counted.trans (ih _)

/-- Each probe that was sent has been given up, has been answered, was dropped by a restart, or
still waits for its reply. A session counts as sent the probes that its ticks have answered, and as
accepted and rejected the replies that it was given, by its verdict on them. -/
theorem run_accounts_for_probes (config : Config) (now : Int) (source : σ) (calls : List Call) :
    let first := start config now source
    let s := first.after calls
    s.tally.sent = s.tally.timedOut + s.tally.accepted + (first.dropped calls).length +
        (if s.outstanding.isSome then 1 else 0) ∧
      s.tally.accepted + s.tally.rejected = calls.countP Call.isReply ∧
      s.tally.sent = (first.answers calls).countP Answer.issues ∧
      s.tally.accepted = (first.answers calls).count (.verdict true) ∧
      s.tally.rejected = (first.answers calls).count (.verdict false) := by
  intro first s
  have hcounted : first.Counted calls s (first.answers calls) := after_counted first calls
  have hsent : s.tally.sent = 0 + _ := hcounted.sent
  have haccepted : s.tally.accepted = 0 + _ := hcounted.accepted
  have hrejected : s.tally.rejected = 0 + _ := hcounted.rejected
  rw [Nat.zero_add] at hsent haccepted hrejected
  refine ⟨?_, ?_, hsent, haccepted, hrejected⟩
  · have hbalanced : s.Balanced (0 + (first.dropped calls).length) :=
      after_balanced (start_balanced config now source) calls
    unfold Balanced waiting at hbalanced
    rw [Nat.zero_add, List.length_map, Option.length_toList] at hbalanced
    exact hbalanced
  · rw [haccepted, hrejected, hcounted.verdicts]

end Session

end PathMtu
