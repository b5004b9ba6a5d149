import Mathlib.Data.List.Basic
import Mathlib.Data.List.Induction
import PathMtu.Proofs.FreshStart
import PathMtu.Proofs.Splits

namespace PathMtu

/-- A probe with the token has been issued, and nothing since then was its end. -/
def Pending (token : UInt32) (events : List Event) : Prop :=
  ∃ before probe since, events = before ++ .searched (some probe) :: since ∧ probe.token = token ∧
    ∀ e ∈ since, e.ends = false

theorem pending_iff {token : UInt32} {events : List Event} : Pending token events ↔
    ∃ before e since, events = before ++ e :: since ∧
      (∃ probe, e = .searched (some probe) ∧ probe.token = token) ∧
      ∀ later ∈ since, later.ends = false := by
  constructor
  · rintro ⟨before, probe, since, heq, htoken, hsince⟩
    exact ⟨before, _, since, heq, ⟨probe, rfl, htoken⟩, hsince⟩
  · rintro ⟨before, _, since, heq, ⟨probe, rfl, htoken⟩, hsince⟩
    exact ⟨before, probe, since, heq, htoken, hsince⟩

theorem pending_concat {token : UInt32} {events : List Event} {e : Event} :
    Pending token (events ++ [e]) ↔ (∃ probe, e = .searched (some probe) ∧ probe.token = token) ∨
      e.ends = false ∧ Pending token events := by
  rw [pending_iff, pending_iff]
  exact exists_split_concat

namespace Session

variable {σ : Type}

theorem receive_answer {s : Session σ} {reply : Reply} {now : Int} :
    (s.receive reply now).answer = true ↔ s.Expects reply := by
  unfold receive
  split
  case isTrue hexp => exact iff_of_true rfl hexp
  case isFalse hexp => exact iff_of_false Bool.false_ne_true hexp

/-- The token that a reply must carry, if any is expected. -/
def awaited (s : Session σ) : List UInt32 := (s.outstanding.map Outstanding.token).toList

/-- The same session with more replies counted as rejected. -/
def withRejected (s : Session σ) (n : Nat) : Session σ :=
  { s with tally := { s.tally with rejected := s.tally.rejected + n } }

theorem withRejected_eq_withPast (s : Session σ) (n : Nat) :
    s.withRejected n = s.withPast { rejected := n } := by
  have htally : ({ rejected := n } : Tally) + s.tally =
      { s.tally with rejected := s.tally.rejected + n } := by
    show Tally.mk (0 + _) (0 + _) (0 + _) (n + _) = _
    rw [Nat.zero_add, Nat.zero_add, Nat.zero_add, Nat.add_comm]
  unfold withPast withRejected
  rw [htally]

variable [RandomSource σ]

/-- The replies that a run accepts, the earliest first. -/
def accepted (s : Session σ) (calls : List Call) : List Reply :=
  (s.events calls).filterMap Event.confirmed?

/-- The calls of a run without the replies that it rejects. -/
def heeded (s : Session σ) : List Call → List Call
  | [] => []
  | call :: calls =>
    let kept := (s.perform call).session.heeded calls
    if (s.perform call).answer = .verdict false then kept else call :: kept

theorem accepted_cons (s : Session σ) (call : Call) (calls : List Call) :
    s.accepted (call :: calls) =
      (s.event call).confirmed?.toList ++ (s.perform call).session.accepted calls := by
  unfold accepted
  rw [events_cons, List.filterMap_eq_flatMap_toList, List.flatMap_cons,
    ← List.filterMap_eq_flatMap_toList]

/-- The tokens that a step spends on an accepted reply or goes on to wait for are those that it
waited for or has just issued. -/
theorem EventCase.tokens {s after : Session σ} {e : Event} (hc : EventCase s e after) :
    (e.confirmed?.toList.map Reply.token ++ after.awaited).Sublist
      (s.awaited ++ e.issued?.toList.map Probe.token) := by
  cases hc with
  | quiet _ _ _ hsame =>
    unfold awaited
    rw [hsame]
    exact List.sublist_append_left _ _
  | looked _ _ _ _ _ hnone =>
    unfold awaited
    rw [hnone]
    exact List.nil_sublist _
  | issued => exact List.sublist_append_right _ _
  | expired => exact List.nil_sublist _
  | confirmed hexp =>
    unfold awaited
    rw [show s.outstanding.map Outstanding.token = some _ from hexp]
    exact List.Sublist.refl _
  | restarted => exact List.nil_sublist _

/-- A run spends the tokens that it issues in their order, and none of them twice. -/
theorem accepted_tokens_sublist (s : Session σ) (calls : List Call) :
    ((s.accepted calls).map Reply.token).Sublist
      (s.awaited ++ (s.probes calls).map Probe.token) := by
  induction calls generalizing s with
  | nil => exact List.nil_sublist _
  | cons call calls ih =>
    -- The token that waits between the first call and the others links the two parts.
    have hstep := (event_case s call).tokens
    rw [accepted_cons, probes_cons, List.map_append, List.map_append, ← List.append_assoc]
    refine ((ih _).append_left _).trans ?_
    rw [← List.append_assoc]
    exact hstep.append_right _

theorem EventCase.awaits {s after : Session σ} {e : Event} (hc : EventCase s e after)
    (token : UInt32) : after.outstanding.map Outstanding.token = some token ↔
      (∃ probe, e = .searched (some probe) ∧ probe.token = token) ∨
        e.ends = false ∧ s.outstanding.map Outstanding.token = some token := by
  cases hc with
  | quiet _ _ _ hsame => simp [hsame, Event.ends, Event.resolves]
  | looked _ hnone _ _ _ hnone' => simp [hnone, hnone']
  | issued _ hnone => simp [hnone, issue]
  | expired => simp [expire, Event.ends, Event.resolves]
  | confirmed => simp [confirm, Event.ends, Event.resolves]
  | restarted => simp [restart, Event.ends]

/-- A session waits for a token as long as the probe that carried it is neither answered nor lost
nor dropped. -/
theorem after_awaits_iff (config : Config) (now : Int) (source : σ) (calls : List Call)
    (token : UInt32) :
    ((start config now source).after calls).outstanding.map Outstanding.token = some token ↔
      Pending token ((start config now source).events calls) := by
  -- What is pending depends on the last event, so the run grows at its end.
  induction calls using List.reverseRecOn with
  | nil =>
    refine iff_of_false nofun ?_
    rintro ⟨before, probe, since, hevents, _⟩
    exact List.append_ne_nil_of_right_ne_nil before (List.cons_ne_nil _ _) hevents.symm
  | append_singleton calls call ih =>
    have hstep := (event_case ((start config now source).after calls) call).awaits token
    rw [after_append, events_append]
    exact (hstep.trans (or_congr_right (and_congr_right' ih))).trans pending_concat.symm

theorem perform_rejected {s : Session σ} {call : Call}
    (h : (s.perform call).answer = .verdict false) :
    (s.perform call).session = s.withRejected 1 := by
  have hc := call_case s call
  rw [h] at hc
  generalize (s.perform call).session = after at hc
  cases hc with
  | rejected => rfl

theorem withRejected_after (s : Session σ) (n : Nat) (calls : List Call) :
    (s.withRejected n).after calls = (s.after calls).withRejected n := by
  rw [withRejected_eq_withPast, withRejected_eq_withPast]
  exact (run_withPast s _ calls).1

theorem withRejected_answers (s : Session σ) (n : Nat) (calls : List Call) :
    (s.withRejected n).answers calls = s.answers calls := by
  rw [withRejected_eq_withPast]
  exact (run_withPast s _ calls).2

theorem heeded_cons_rejected {s : Session σ} {call : Call}
    (h : (s.perform call).answer = .verdict false) (calls : List Call) :
    s.heeded (call :: calls) = (s.withRejected 1).heeded calls := by
  rw [heeded, if_pos h, perform_rejected h]

theorem heeded_cons_kept {s : Session σ} {call : Call}
    (h : (s.perform call).answer ≠ .verdict false) (calls : List Call) :
    s.heeded (call :: calls) = call :: (s.perform call).session.heeded calls := by
  rw [heeded, if_neg h]

theorem heeded_append (s : Session σ) (calls more : List Call) :
    s.heeded (calls ++ more) = s.heeded calls ++ (s.after calls).heeded more := by
  induction calls generalizing s with
  | nil => rfl
  | cons call calls ih =>
    by_cases h : (s.perform call).answer = .verdict false
    · rw [List.cons_append, heeded_cons_rejected h, heeded_cons_rejected h, ih, after_cons,
        perform_rejected h]
    · rw [List.cons_append, heeded_cons_kept h, heeded_cons_kept h, ih, after_cons,
        List.cons_append]

/-- A run without its rejected replies ends as the run does, but for their number. -/
theorem after_heeded (s : Session σ) (calls : List Call) :
    ∃ deleted, (s.heeded calls).length + deleted = calls.length ∧
      s.after calls = (s.after (s.heeded calls)).withRejected deleted := by
  induction calls generalizing s with
  | nil => exact ⟨0, rfl, rfl⟩
  | cons call calls ih =>
    by_cases h : (s.perform call).answer = .verdict false
    · obtain ⟨deleted, hlength, hafter⟩ := ih (s.withRejected 1)
      refine ⟨1 + deleted, ?_, ?_⟩
      · rw [heeded_cons_rejected h, List.length_cons]
        omega
      · rw [after_cons, perform_rejected h, hafter, heeded_cons_rejected h, withRejected_after]
        unfold withRejected
        simp only [Nat.add_assoc]
    · obtain ⟨deleted, hlength, hafter⟩ := ih (s.perform call).session
      refine ⟨deleted, ?_, ?_⟩
      · rw [heeded_cons_kept h, List.length_cons, List.length_cons]
        omega
      · rw [heeded_cons_kept h, after_cons, after_cons, hafter]

theorem answers_heeded (s : Session σ) (calls : List Call) :
    s.answers (s.heeded calls) = (s.answers calls).filter (· ≠ .verdict false) := by
  induction calls generalizing s with
  | nil => rfl
  | cons call calls ih =>
    by_cases h : (s.perform call).answer = .verdict false
    · have hdrop := ih (s.withRejected 1)
      rw [withRejected_answers, withRejected_answers] at hdrop
      rw [heeded_cons_rejected h, answers_cons, List.filter_cons_of_neg (by simpa using h),
        perform_rejected h, withRejected_answers]
      exact hdrop
    · rw [heeded_cons_kept h, answers_cons, answers_cons,
        List.filter_cons_of_pos (by simpa using h), ih]

theorem heeded_sublist (s : Session σ) (calls : List Call) : (s.heeded calls).Sublist calls := by
  induction calls generalizing s with
  | nil => exact List.Sublist.refl _
  | cons call calls ih =>
    rw [heeded]
    split
    · exact (ih _).cons _
    · exact (ih _).cons_cons _

/-- Where no two probes have the same token, no token is accepted twice. A reply is accepted
exactly while a probe with its token is pending. The rejected replies do nothing but count: without
them, all other calls are answered in the same way and leave the same session. -/
theorem token_accepted_once (config : Config) (now : Int) (source : σ) {calls : List Call}
    (distinct : (((start config now source).probes calls).map Probe.token).Nodup) :
    let s := start config now source
    ((s.accepted calls).map Reply.token).Nodup ∧
      (∀ earlier reply time, ((s.after earlier).receive reply time).answer = true ↔
        Pending reply.token (s.events earlier)) ∧
      (s.heeded calls).Sublist calls ∧
      s.answers (s.heeded calls) = (s.answers calls).filter (· ≠ .verdict false) ∧
      ∀ earlier, earlier <+: calls → s.heeded earlier <+: s.heeded calls ∧
        ∃ deleted, (s.heeded earlier).length + deleted = earlier.length ∧
          s.after earlier = (s.after (s.heeded earlier)).withRejected deleted := by
  intro s
  have hspent : ((s.accepted calls).map Reply.token).Sublist ((s.probes calls).map Probe.token) :=
    accepted_tokens_sublist s calls
  refine ⟨distinct.sublist hspent, ?_, heeded_sublist s calls, answers_heeded s calls, ?_⟩
  · intro earlier reply time
    exact receive_answer.trans (after_awaits_iff config now source earlier reply.token)
  · rintro earlier ⟨rest, rfl⟩
    rw [heeded_append]
    exact ⟨List.prefix_append _ _, after_heeded s earlier⟩

/-- Five replies are rejected: a forged one, one that comes twice, one that is late, one whose probe
a restart dropped, and one with a token not issued yet. -/
theorem token_accepted_once_1000 :
    let config : Config := { minSize := 100, maxSize := 140, interval := 0, threshold := 4 }
    let s := start config 0 ({} : CountingSource)
    let calls : List Call :=
      [.tick 1 0, .reply ⟨120, 7⟩ 2, .reply ⟨120, 1000⟩ 3, .reply ⟨120, 1000⟩ 4, .tick 5 0,
        .tick 300000000 0, .reply ⟨130, 1001⟩ 300000001, .tick 300000002 0, .restart 300000003,
        .reply ⟨124, 1002⟩ 300000004, .reply ⟨120, 1003⟩ 300000005, .tick 300000006 0,
        .reply ⟨200, 1003⟩ 300000007]
    (s.probes calls).map Probe.token = [1000, 1001, 1002, 1003] ∧
      s.accepted calls = [⟨120, 1000⟩, ⟨200, 1003⟩] ∧
      ((s.accepted calls).map Reply.token).Nodup ∧
      ¬Pending 1001 (s.events (calls.take 6)) ∧
      s.after calls = (s.after (s.heeded calls)).withRejected 5 := by
  intro config s calls
  have hprobes : (s.probes calls).map Probe.token = [1000, 1001, 1002, 1003] := by decide +kernel
  have hdistinct : ((s.probes calls).map Probe.token).Nodup := by
    rw [hprobes]
    decide
  obtain ⟨honce, hpending, _, _, hdeleted⟩ :=
    token_accepted_once config 0 ({} : CountingSource) hdistinct
  have hlate : ¬((s.after (calls.take 6)).receive ⟨130, 1001⟩ 300000001).answer = true := by
    decide +kernel
  obtain ⟨_, deleted, hlength, hafter⟩ := hdeleted calls (List.prefix_refl _)
  have hkept : (s.heeded calls).length = 8 := by decide +kernel
  have hall : calls.length = 8 + 5 := rfl
  unfold s at hkept
  rw [hkept, hall] at hlength
  rw [Nat.add_left_cancel hlength] at hafter
  refine ⟨hprobes, by decide +kernel, honce, ?_, hafter⟩
  exact fun h => hlate ((hpending (calls.take 6) ⟨130, 1001⟩ 300000001).mpr h)

end Session

end PathMtu
