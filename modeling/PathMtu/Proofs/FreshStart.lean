import PathMtu.Proofs.History
import PathMtu.Random.Predictable

namespace PathMtu

instance : Add Tally where
  add a b :=
    { sent := a.sent + b.sent
      timedOut := a.timedOut + b.timedOut
      accepted := a.accepted + b.accepted
      rejected := a.rejected + b.rejected }

namespace Session

variable {σ : Type}

/-- The same session with the counts of an earlier time added to its own. -/
def withPast (s : Session σ) (past : Tally) : Session σ := { s with tally := past + s.tally }

/-- The fragment size after the call does not depend on the one before: a reply is accepted, a tick
finds the search converged, or a size is set. -/
def SetsFragment (s : Session σ) : Call → Prop
  | .tick _ _ => s.config.enabled = true ∧ s.outstanding = none ∧ s.clamp.Converged
  | .reply reply _ => s.Expects reply
  | .restart _ => False
  | .setFragment _ => True

instance (s : Session σ) : DecidablePred s.SetsFragment
  | .tick _ _ => inferInstanceAs (Decidable (_ ∧ _ ∧ _))
  | .reply reply _ => inferInstanceAs (Decidable (s.Expects reply))
  | .restart _ => inferInstanceAs (Decidable False)
  | .setFragment _ => inferInstanceAs (Decidable True)

variable [RandomSource σ]

theorem TickCase.withPast {s after : Session σ} {now rto : Int} {answer : Option Probe}
    (h : TickCase s now rto after answer) (past : Tally) :
    TickCase (s.withPast past) now rto (after.withPast past) answer := by
  cases h with
  | disabled he => exact .disabled he
  | waiting he ho ht => exact .waiting he ho ht
  | expired he ho ht => exact .expired he ho ht
  | settled he ho hc => exact .settled he ho hc
  | early he ho hopen hi => exact .early he ho hopen hi
  | issued he ho hopen hi => exact .issued he ho hopen hi

theorem CallCase.withPast {s after : Session σ} {call : Call} {answer : Answer}
    (h : CallCase s call after answer) (past : Tally) :
    CallCase (s.withPast past) call (after.withPast past) answer := by
  cases h with
  | tick h => exact .tick (h.withPast past)
  | accepted hexp => exact .accepted hexp
  | rejected hexp => exact .rejected hexp
  | restarted => exact .restarted
  | resized => exact .resized

/-- Nothing that a session does depends on what it has counted. -/
theorem run_withPast (s : Session σ) (past : Tally) (calls : List Call) :
    (s.withPast past).after calls = (s.after calls).withPast past ∧
      (s.withPast past).answers calls = s.answers calls := by
  induction calls generalizing s with
  | nil => exact ⟨rfl, rfl⟩
  | cons call calls ih =>
    obtain ⟨hsession, hanswer⟩ := ((call_case s call).withPast past).eq
    obtain ⟨hafter, hanswers⟩ := ih (s.perform call).session
    rw [after_cons, after_cons, answers_cons, answers_cons, hsession, hanswer]
    exact ⟨hafter, congrArg _ hanswers⟩

theorem TickCase.setFragment {s after : Session σ} {now rto : Int} {answer : Option Probe}
    (h : TickCase s now rto after answer) (size : Nat) : ∃ size',
      TickCase (s.setFragment size) now rto (after.setFragment size') answer ∧
        (s.SetsFragment (.tick now rto) → size' = after.fragment) := by
  cases h with
  | disabled he =>
    refine ⟨size, .disabled he, ?_⟩
    rintro ⟨enabled, _⟩
    rw [he] at enabled
    cases enabled
  | waiting he ho ht =>
    refine ⟨size, .waiting he ho ht, ?_⟩
    rintro ⟨_, idle, _⟩
    rw [ho] at idle
    cases idle
  | expired he ho ht =>
    refine ⟨size, .expired he ho ht, ?_⟩
    rintro ⟨_, idle, _⟩
    rw [ho] at idle
    cases idle
  | settled he ho hc => exact ⟨s.low, .settled he ho hc, fun _ => rfl⟩
  | early he ho hopen hi => exact ⟨size, .early he ho hopen hi, fun h => absurd h.2.2 hopen⟩
  | issued he ho hopen hi => exact ⟨size, .issued he ho hopen hi, fun h => absurd h.2.2 hopen⟩

theorem CallCase.setFragment {s after : Session σ} {call : Call} {answer : Answer}
    (h : CallCase s call after answer) (size : Nat) : ∃ size',
      CallCase (s.setFragment size) call (after.setFragment size') answer ∧
        (s.SetsFragment call → size' = after.fragment) := by
  cases h with
  | tick h =>
    obtain ⟨size', h', hsame⟩ := h.setFragment size
    exact ⟨size', .tick h', hsame⟩
  | @accepted reply now hexp => exact ⟨max s.low reply.size, .accepted hexp, fun _ => rfl⟩
  | rejected hexp => exact ⟨size, .rejected hexp, fun h => absurd h hexp⟩
  | restarted => exact ⟨size, .restarted, nofun⟩
  | @resized fragment => exact ⟨fragment, .resized, fun _ => rfl⟩

/-- Nothing that a session does depends on its fragment size. -/
theorem run_setFragment (s : Session σ) (size : Nat) (calls : List Call) :
    (∃ size', (s.setFragment size).after calls = (s.after calls).setFragment size') ∧
      (s.setFragment size).answers calls = s.answers calls := by
  induction calls generalizing s size with
  | nil => exact ⟨⟨size, rfl⟩, rfl⟩
  | cons call calls ih =>
    obtain ⟨next, hc, _⟩ := (call_case s call).setFragment size
    obtain ⟨hsession, hanswer⟩ := hc.eq
    obtain ⟨⟨size', hafter⟩, hanswers⟩ := ih (s.perform call).session next
    rw [after_cons, after_cons, answers_cons, answers_cons, hsession, hanswer]
    exact ⟨⟨size', hafter⟩, congrArg _ hanswers⟩

theorem after_setFragment_of_sets {s : Session σ} {call : Call} (h : s.SetsFragment call)
    (size : Nat) (calls : List Call) :
    (s.setFragment size).after (call :: calls) = s.after (call :: calls) := by
  obtain ⟨next, hc, hsame⟩ := (call_case s call).setFragment size
  rw [after_cons, after_cons, hc.eq.1, hsame h]
  rfl

omit [RandomSource σ] in
/-- A restart is a new session with the counts and the fragment size of the old one. -/
theorem restart_eq_start (s : Session σ) (now : Int) : (s.restart now).session =
    ((start s.config now s.source).withPast s.tally).setFragment s.fragment := rfl

theorem run_restart (s : Session σ) (now : Int) (calls : List Call) :
    (∃ size, (s.restart now).session.after calls =
        (((start s.config now s.source).after calls).withPast s.tally).setFragment size) ∧
      (s.restart now).session.answers calls = (start s.config now s.source).answers calls := by
  obtain ⟨hpast, hanswers⟩ := run_withPast (start s.config now s.source) s.tally calls
  obtain ⟨hafter, hsame⟩ :=
    run_setFragment ((start s.config now s.source).withPast s.tally) s.fragment calls
  rw [hpast] at hafter
  rw [restart_eq_start]
  exact ⟨hafter, hsame.trans hanswers⟩

theorem restart_fragment_of_sets (s : Session σ) (now : Int) {earlier : List Call} {call : Call}
    (hsets : ((start s.config now s.source).after earlier).SetsFragment call) (rest : List Call) :
    ((s.restart now).session.after (earlier ++ call :: rest)).fragment =
      ((start s.config now s.source).after (earlier ++ call :: rest)).fragment := by
  obtain ⟨⟨size, hearlier⟩, _⟩ := run_restart s now earlier
  have hsets' :
      (((start s.config now s.source).after earlier).withPast s.tally).SetsFragment call := hsets
  rw [after_append, after_append, hearlier, after_setFragment_of_sets hsets',
    (run_withPast _ _ _).1]
  rfl

/-- A restarted session behaves as a new one does: its calls have the same answers and leave the
same search. Its counts go on from those at the restart. Only its fragment size may differ, until a
call sets it. -/
theorem restart_runs_as_start (config : Config) (now : Int) (source : σ) (past : List Call)
    (later : Int) (calls : List Call) :
    let s := (start config now source).after past
    let restarted := (s.restart later).session
    let fresh := start config later s.source
    restarted.answers calls = fresh.answers calls ∧
      (restarted.after calls).low = (fresh.after calls).low ∧
      (restarted.after calls).high = (fresh.after calls).high ∧
      (restarted.after calls).outstanding = (fresh.after calls).outstanding ∧
      (restarted.after calls).phase = (fresh.after calls).phase ∧
      (restarted.after calls).tally = s.tally + (fresh.after calls).tally ∧
      ∀ earlier call rest, calls = earlier ++ call :: rest →
        (fresh.after earlier).SetsFragment call →
          (restarted.after calls).fragment = (fresh.after calls).fragment := by
  intro s restarted fresh
  have hfresh : fresh = start s.config later s.source := by
    rw [show s.config = config from start_after_config config now source past]
  obtain ⟨⟨size, hafter⟩, hanswers⟩ := run_restart s later calls
  rw [← hfresh] at hafter hanswers
  change restarted.after calls = _ at hafter
  refine ⟨hanswers, ?_, ?_, ?_, ?_, ?_, ?_⟩
  · rw [hafter]; rfl
  · rw [hafter]; rfl
  · rw [hafter]; rfl
  · rw [hafter]; rfl
  · rw [hafter]; rfl
  · rintro earlier call rest rfl hsets
    rw [hfresh] at hsets ⊢
    exact restart_fragment_of_sets s later hsets rest

/-- A restart drops the second probe, whose reply then comes too late. The fragment size is 120 from
before the restart, and the configured 1024 in a new session, until the third probe is answered. -/
theorem restart_runs_as_start_120 :
    let config : Config := { minSize := 100, maxSize := 140, interval := 0, threshold := 4 }
    let s := (start config 0 ({} : CountingSource)).after
      [.tick 1 0, .reply ⟨120, 1000⟩ 2, .tick 3 0]
    let restarted := (s.restart 10).session
    let fresh := start config 10 s.source
    let calls : List Call := [.tick 11 0, .reply ⟨130, 1001⟩ 12, .reply ⟨120, 1002⟩ 13, .tick 14 0]
    restarted.fragment = 120 ∧ fresh.fragment = 1024 ∧
      restarted.answers calls = fresh.answers calls ∧
      (restarted.after calls).outstanding = some ⟨130, 1003, 14⟩ ∧
      (fresh.after calls).tally = ⟨2, 0, 1, 1⟩ ∧ (restarted.after calls).tally = ⟨4, 0, 2, 1⟩ ∧
      (restarted.after calls).fragment = (fresh.after calls).fragment := by
  intro config s restarted fresh calls
  obtain ⟨hanswers, _, _, houtstanding, _, hcounts, hfragment⟩ :=
    restart_runs_as_start config 0 ({} : CountingSource)
      [.tick 1 0, .reply ⟨120, 1000⟩ 2, .tick 3 0] 10 calls
  have hwaits : (fresh.after calls).outstanding = some ⟨130, 1003, 14⟩ := by decide +kernel
  have htally : (fresh.after calls).tally = ⟨2, 0, 1, 1⟩ := by decide +kernel
  have hpast : s.tally = ⟨2, 0, 1, 0⟩ := by decide +kernel
  refine ⟨by decide +kernel, by decide +kernel, hanswers, houtstanding.trans hwaits, htally, ?_, ?_⟩
  · unfold restarted s
    unfold fresh s at htally
    unfold s at hpast
    rw [hcounts, hpast, htally]
    rfl
  · exact hfragment [.tick 11 0, .reply ⟨130, 1001⟩ 12] (.reply ⟨120, 1002⟩ 13) [.tick 14 0] rfl
      (by decide +kernel)

end Session

end PathMtu
