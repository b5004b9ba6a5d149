import PathMtu.Proofs.ProbeShape
import PathMtu.Proofs.TokenUse
import PathMtu.Proofs.Validation

namespace PathMtu

/-- The time of a call. To set the fragment size takes none. -/
def Call.time? : Call → Option Int
  | .tick now _ => some now
  | .reply _ now => some now
  | .restart now => some now
  | .setFragment _ => none

/-- The interval to the next probe is counted from the event. -/
def Event.active : Event → Bool
  | quiet => false
  | searched issued => issued.isSome
  | expired _ => true
  | confirmed _ => true
  | restarted => true

/-- The times of the calls do not decrease, and none is before the given one. -/
def Chronological (now : Int) (calls : List Call) : Prop :=
  (now :: calls.filterMap Call.time?).Pairwise (· ≤ ·)

instance (now : Int) (calls : List Call) : Decidable (Chronological now calls) :=
  inferInstanceAs (Decidable (List.Pairwise _ _))

theorem Chronological.append_left {now : Int} {calls more : List Call}
    (h : Chronological now (calls ++ more)) : Chronological now calls := by
  unfold Chronological at h ⊢
  rw [List.filterMap_append, ← List.cons_append] at h
  exact (List.pairwise_append.mp h).1

namespace Session

variable {σ : Type} [RandomSource σ]

/-- The calls of a run, each with what it did. -/
def deeds (s : Session σ) : List Call → List (Call × Event)
  | [] => []
  | call :: calls => (call, s.event call) :: (s.perform call).session.deeds calls

theorem deeds_append (s : Session σ) (calls more : List Call) :
    s.deeds (calls ++ more) = s.deeds calls ++ (s.after calls).deeds more := by
  induction calls generalizing s with
  | nil => rfl
  | cons call calls ih => exact congrArg _ (ih _)

/-- An active event sets the time from which the interval is counted, and no other event does. -/
theorem perform_lastActivity (s : Session σ) (call : Call) :
    (s.event call).active = true ∧ call.time? = some (s.perform call).session.lastActivity ∨
      (s.event call).active = false ∧
        (s.perform call).session.lastActivity = s.lastActivity := by
  cases call with
  | tick now rto =>
    show _ ∧ some now = some (s.tick now rto).session.lastActivity ∨
      _ ∧ (s.tick now rto).session.lastActivity = s.lastActivity
    have hc := tick_case s now rto
    simp only [event]
    generalize (s.tick now rto).session = after at hc ⊢
    generalize (s.tick now rto).answer = answer at hc ⊢
    cases hc with
    | disabled he => simp [he, Event.active]
    | waiting he ho _ => simp [he, ho, Event.active]
    | expired he ho _ => simp [he, ho, expire, Event.active]
    | settled he ho _ => simp [he, ho, settle, clamp, Event.active]
    | early he ho _ _ => simp [he, ho, clamp, Event.active]
    | issued he ho _ _ => simp [he, ho, issue, Event.active]
  | reply reply now =>
    by_cases h : s.Expects reply
    · simp [event, perform, receive, h, confirm, Call.time?, Event.active]
    · simp [event, perform, receive, h, reject, Event.active]
  | restart now => exact Or.inl ⟨rfl, rfl⟩
  | setFragment size => exact Or.inr ⟨rfl, rfl⟩

theorem after_lastActivity_mem (s : Session σ) (calls : List Call) :
    (s.after calls).lastActivity ∈ s.lastActivity :: calls.filterMap Call.time? := by
  induction calls generalizing s with
  | nil => exact List.mem_singleton_self _
  | cons call calls ih =>
    rw [after_cons]
    have hstep := ih (s.perform call).session
    rcases perform_lastActivity s call with ⟨_, htime⟩ | ⟨_, hsame⟩
    · rw [List.filterMap_cons_some htime]
      exact List.mem_cons_of_mem _ hstep
    · rw [hsame] at hstep
      rcases List.mem_cons.mp hstep with heq | hmem
      · rw [heq]
        exact List.mem_cons_self
      · have hsub := (List.sublist_cons_self call calls).filterMap Call.time?
        exact List.mem_cons_of_mem _ (hsub.subset hmem)

theorem TickCase.issue_gate {s after : Session σ} {now rto : Int} {probe : Probe}
    (h : TickCase s now rto after (some probe)) : s.outstanding = none ∧
      s.lastActivity + s.config.intervalNanos ≤ now ∧ after.lastActivity = now := by
  cases h with
  | issued _ ho _ hdue => exact ⟨ho, by omega, rfl⟩

section

variable {config : Config} {now : Int} {source : σ}

theorem lastActivity_le_time {calls : List Call} {call : Call}
    (ordered : Chronological now (calls ++ [call])) {time : Int} (htime : call.time? = some time) :
    ((start config now source).after calls).lastActivity ≤ time := by
  have hmem := after_lastActivity_mem (start config now source) calls
  unfold Chronological at ordered
  rw [List.filterMap_append, ← List.cons_append, List.filterMap_cons_some htime] at ordered
  exact (List.pairwise_append.mp ordered).2.2 _ hmem time (List.mem_singleton_self _)

theorem lastActivity_le_perform {calls : List Call} {call : Call}
    (ordered : Chronological now (calls ++ [call])) :
    ((start config now source).after calls).lastActivity ≤
      (((start config now source).after calls).perform call).session.lastActivity := by
  rcases perform_lastActivity ((start config now source).after calls) call with
    ⟨_, htime⟩ | ⟨_, hsame⟩
  · exact lastActivity_le_time ordered htime
  · exact Int.le_of_eq hsame.symm

/-- The time from which the interval is counted is that of the latest active event. -/
theorem active_time_le {calls : List Call} (ordered : Chronological now calls) :
    ∀ deed ∈ (start config now source).deeds calls, deed.2.active = true →
      ∀ time ∈ deed.1.time?, time ≤ ((start config now source).after calls).lastActivity := by
  induction calls using List.reverseRecOn with
  | nil => exact nofun
  | append_singleton calls call ih =>
    rw [deeds_append, after_append]
    intro deed hdeed hactive time htime
    rcases List.mem_append.mp hdeed with hpast | hlast
    · exact Int.le_trans (ih ordered.append_left deed hpast hactive time htime)
        (lastActivity_le_perform ordered)
    · obtain rfl := List.mem_singleton.mp hlast
      rcases perform_lastActivity ((start config now source).after calls) call with
        ⟨_, hnow⟩ | ⟨hquiet, _⟩
      · exact Int.le_of_eq (Option.some.inj (Eq.trans htime.symm hnow))
      · rw [hquiet] at hactive
        cases hactive

/-- Each probe of a run has taken an interval. -/
theorem probes_length_mul_le {calls : List Call} (ordered : Chronological now calls) :
    now + ((start config now source).probes calls).length * config.intervalNanos ≤
      ((start config now source).after calls).lastActivity := by
  induction calls using List.reverseRecOn with
  | nil =>
    show now + (0 : Int) * config.intervalNanos ≤ now
    omega
  | append_singleton calls call ih =>
    have hpast := ih ordered.append_left
    have hle : ((start config now source).after calls).lastActivity ≤
        (((start config now source).after calls).perform call).session.lastActivity :=
      lastActivity_le_perform ordered
    have hconfig := start_after_config config now source calls
    rw [probes_append, after_append, List.length_append, probes_cons]
    generalize (start config now source).after calls = s at hpast hle hconfig ⊢
    show now + _ * config.intervalNanos ≤ (s.perform call).session.lastActivity
    cases hissued : (s.event call).issued? with
    | none => exact Int.le_trans hpast hle
    | some probe =>
      obtain ⟨later, rto, rfl, hanswer⟩ := event_searched (Event.issued?_eq_some.mp hissued)
      have hc := tick_case s later rto
      rw [hanswer] at hc
      obtain ⟨_, hgate, hlater⟩ := hc.issue_gate
      rw [hconfig] at hgate
      show now + ((_ + 1 : Nat) : Int) * config.intervalNanos ≤
        (s.tick later rto).session.lastActivity
      rw [hlater, Int.natCast_add, Int.add_mul]
      omega

/-- A search that waits does so for a probe that one of its ticks issued, and nothing since then was
the end of it. -/
theorem outstanding_issued {calls : List Call} {o : Outstanding}
    (ho : ((start config now source).after calls).outstanding = some o) :
    ∃ before rto probe since, (start config now source).deeds calls =
        before ++ (.tick o.sentAt rto, .searched (some probe)) :: since ∧
      probe.token = o.token ∧ probe.size = o.candidate ∧ ∀ deed ∈ since, deed.2.ends = false := by
  induction calls using List.reverseRecOn with
  | nil => cases ho
  | append_singleton calls call ih =>
    rw [after_append] at ho
    rw [deeds_append]
    generalize (start config now source).after calls = s at ih ho ⊢
    have hlast : s.deeds [call] = [(call, s.event call)] := rfl
    cases hissued : (s.event call).issued? with
    | some probe =>
      have hevent := Event.issued?_eq_some.mp hissued
      obtain ⟨later, rto, rfl, hanswer⟩ := event_searched hevent
      have hc := tick_case s later rto
      rw [hanswer] at hc
      obtain rfl := Option.some.inj (hc.issued_probe.1.symm.trans ho)
      exact ⟨_, rto, probe, [], by rw [hlast, hevent], rfl, rfl, nofun⟩
    | none =>
      obtain ⟨hwaits, hends⟩ := (event_case s call).waits_still hissued ho
      obtain ⟨before, rto, probe, since, heq, htoken, hsize, hsince⟩ := ih hwaits
      refine ⟨before, rto, probe, since ++ [(call, s.event call)], ?_, htoken, hsize, ?_⟩
      · rw [heq, hlast, List.append_assoc, List.cons_append]
      · exact List.forall_mem_append.mpr ⟨hsince, List.forall_mem_singleton.mpr hends⟩

end

/-- On a clock that does not run backwards a probe is issued no sooner than an interval after the
start and after each earlier probe, loss, accepted reply and restart. So each probe takes an
interval of its own. Before the next one it is answered, lost or dropped, and it is lost only on a
tick that comes later than the timeout. -/
theorem probes_keep_interval {config : Config} (valid : config.validate = .ok ())
    (fits : config.interval.toInt * 1000000 < 2 ^ 63) {now : Int} (source : σ) {calls : List Call}
    {call : Call} (ordered : Chronological now (calls ++ [call])) :
    let first := start config now source
    let s := first.after calls
    let interval := config.interval.toInt * 1000000
    (∀ probe, (s.perform call).answer = .probe (some probe) → ∃ later rto, call = .tick later rto ∧
      now + interval ≤ later ∧
      (∀ deed ∈ first.deeds calls, deed.2.active = true →
        ∀ time ∈ deed.1.time?, time + interval ≤ later) ∧
      now + ((first.probes calls).length + 1) * interval ≤ later ∧
      ∀ before earlier between, first.events calls = before ++ .searched (some earlier) :: between →
        ∃ e ∈ between, e.ends = true) ∧
    ∀ o, s.event call = .expired o → ∃ later rto, call = .tick later rto ∧
      max rto 200000000 < later - o.sentAt ∧
      ∃ before rto' probe since,
        first.deeds calls = before ++ (.tick o.sentAt rto', .searched (some probe)) :: since ∧
        probe.token = o.token ∧ probe.size = o.candidate ∧
        ∀ deed ∈ since, deed.2.ends = false := by
  intro first s interval
  have hnonneg := (Config.validate_eq_ok.mp valid).interval
  have hnanos : config.intervalNanos = interval := Config.intervalNanos_eq_of_fits hnonneg fits
  refine ⟨?_, ?_⟩
  · intro probe hanswer
    have hconfig : s.config = config := start_after_config config now source calls
    have hcount : now + (first.probes calls).length * interval ≤ s.lastActivity := by
      rw [← hnanos]
      exact probes_length_mul_le ordered.append_left
    have hpast : 0 ≤ (first.probes calls).length * interval :=
      Int.mul_nonneg (Int.natCast_nonneg _) (by omega)
    have hc := call_case s call
    rw [hanswer] at hc
    generalize (s.perform call).session = after at hc
    cases hc with
    | @tick later rto _ _ hc =>
      obtain ⟨hidle, hgate, _⟩ := hc.issue_gate
      rw [hconfig, hnanos] at hgate
      refine ⟨later, rto, rfl, by omega, ?_, ?_, ?_⟩
      · intro deed hdeed hactive time htime
        have hle : time ≤ s.lastActivity :=
          active_time_le ordered.append_left deed hdeed hactive time htime
        omega
      · rw [Int.add_mul]
        omega
      · intro before earlier between hevents
        by_contra hnone
        have hpending : Pending earlier.token (first.events calls) := by
          refine ⟨before, earlier, between, hevents, rfl, ?_⟩
          intro e he
          exact Bool.eq_false_iff.mpr fun hends => hnone ⟨e, he, hends⟩
        have hwaits := (after_awaits_iff config now source calls earlier.token).mpr hpending
        rw [show ((start config now source).after calls).outstanding = none from hidle] at hwaits
        cases hwaits
  · intro o hexpired
    obtain ⟨later, rto, rfl, ho, htimeout⟩ := event_expired hexpired
    exact ⟨later, rto, rfl, htimeout, outstanding_issued ho⟩

/-- With an interval of a millisecond: the first probe is answered half a millisecond after it was
sent, and the second one is lost. The third comes a millisecond after the loss. -/
theorem probes_keep_interval_203500001 :
    let config : Config := { interval := 1 }
    let first := start config 0 ({} : CountingSource)
    let calls : List Call := [.tick 1000000 0, .reply ⟨988, 1000⟩ 1500000, .tick 2500000 0]
    let lost : Call × Event := (.tick 202500001 0, .expired ⟨1194, 1001, 2500000⟩)
    lost ∈ first.deeds (calls ++ [lost.1]) ∧ (200000000 : Int) < 202500001 - 2500000 ∧
      (∃ before rto probe since, first.deeds calls =
          before ++ (.tick 2500000 rto, .searched (some probe)) :: since ∧
        probe.token = 1001 ∧ probe.size = 1194 ∧ ∀ deed ∈ since, deed.2.ends = false) ∧
      ((first.after (calls ++ [lost.1])).tick 203500001 0).answer.isSome = true ∧
      (first.probes (calls ++ [lost.1])).length = 2 ∧
      (202500001 : Int) + 1000000 ≤ 203500001 ∧ 0 + (2 + 1) * (1000000 : Int) ≤ 203500001 := by
  intro config first calls lost
  have valid : config.validate = .ok () := by decide
  have fits : config.interval.toInt * 1000000 < 2 ^ 63 := by decide
  have hlost : lost ∈ first.deeds (calls ++ [lost.1]) := by decide +kernel
  have hprobes : (first.probes (calls ++ [lost.1])).length = 2 := by decide +kernel
  have hissued : ((first.after (calls ++ [lost.1])).tick 203500001 0).answer.isSome = true := by
    decide +kernel
  obtain ⟨probe, hprobe⟩ := Option.isSome_iff_exists.mp hissued
  obtain ⟨_, hlosses⟩ := probes_keep_interval valid fits ({} : CountingSource)
    (by decide : Chronological 0 (calls ++ [lost.1]))
  obtain ⟨later, _, hcall, htimeout, hsent⟩ := hlosses ⟨1194, 1001, 2500000⟩ (by decide +kernel)
  obtain ⟨rfl, rfl⟩ := Call.tick.inj hcall
  obtain ⟨hissues, _⟩ := probes_keep_interval valid fits ({} : CountingSource)
    (by decide : Chronological 0 (calls ++ [lost.1] ++ [.tick 203500001 0]))
  obtain ⟨later, _, hcall, _, hgap, hcount, _⟩ := hissues probe (congrArg Answer.probe hprobe)
  obtain ⟨rfl, rfl⟩ := Call.tick.inj hcall
  have hafter := hgap lost hlost rfl 202500001 rfl
  have hinterval : config.interval.toInt * 1000000 = 1000000 := by decide
  unfold first at hprobes
  rw [hprobes, hinterval] at hcount
  rw [hinterval] at hafter
  exact ⟨hlost, htimeout, hsent, hissued, hprobes, hafter, hcount⟩

end Session

end PathMtu
