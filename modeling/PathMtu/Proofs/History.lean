import PathMtu.Proofs.SearchRange

namespace PathMtu

def Call.Restarts : Call → Prop
  | .restart _ => True
  | _ => False

instance : DecidablePred Call.Restarts
  | .restart _ => inferInstanceAs (Decidable True)
  | .tick _ _ => inferInstanceAs (Decidable False)
  | .reply _ _ => inferInstanceAs (Decidable False)
  | .setFragment _ => inferInstanceAs (Decidable False)

/-- What a call does to a search. A tick has `searched` if it found no probe that waits for its
reply; whatever leaves the search as it is, such as a reply that is not expected, is `quiet`. -/
inductive Event where
  | quiet
  | searched (issued : Option Probe)
  | expired (probe : Outstanding)
  | confirmed (reply : Reply)
  | restarted
  deriving DecidableEq, Repr

namespace Event

def issued? : Event → Option Probe
  | searched issued => issued
  | _ => none

def confirmed? : Event → Option Reply
  | confirmed reply => some reply
  | _ => none

/-- The probe that was waiting has been answered or given up. -/
def resolves : Event → Bool
  | expired _ => true
  | confirmed _ => true
  | _ => false

/-- No probe waits for its reply any more: it was answered or given up, or a restart dropped it. -/
def ends : Event → Bool
  | restarted => true
  | e => e.resolves

theorem issued?_of_resolves {e : Event} (h : e.resolves = true) : e.issued? = none := by
  cases e with
  | searched => cases h
  | _ => rfl

theorem issued?_eq_some {e : Event} {probe : Probe} :
    e.issued? = some probe ↔ e = searched (some probe) := by
  cases e <;> simp [issued?]

theorem confirmed?_eq_some {e : Event} {reply : Reply} :
    e.confirmed? = some reply ↔ e = confirmed reply := by
  cases e <;> simp [confirmed?]

end Event

structure Entry (σ : Type) where
  event : Event
  session : Session σ

namespace Session

variable {σ : Type} [RandomSource σ]

def event (s : Session σ) : Call → Event
  | .tick now rto =>
    if s.config.enabled then
      match s.outstanding with
      | some probe =>
        if (s.tick now rto).session.outstanding = none then .expired probe else .quiet
      | none => .searched (s.tick now rto).answer
    else .quiet
  | .reply reply now => if (s.receive reply now).answer then .confirmed reply else .quiet
  | .restart _ => .restarted
  | .setFragment _ => .quiet

/-- The events of a run, the earliest first, each with the session after it. -/
def history (s : Session σ) : List Call → List (Entry σ)
  | [] => []
  | call :: calls =>
    let after := (s.perform call).session
    ⟨s.event call, after⟩ :: after.history calls

def events (s : Session σ) (calls : List Call) : List Event := (s.history calls).map Entry.event

def probes (s : Session σ) (calls : List Call) : List Probe :=
  (s.events calls).filterMap Event.issued?

def resolutions (s : Session σ) (calls : List Call) : List (Entry σ) :=
  (s.history calls).filter fun entry => entry.event.resolves

/-- The size that a search waits for, if it waits. -/
def waiting (s : Session σ) : List Nat := s.outstanding.toList.map Outstanding.candidate

/-- The ways in which a search can go on, with the session that each leaves. -/
inductive EventCase (s : Session σ) : Event → Session σ → Prop
  | quiet {after : Session σ} : after.config = s.config → after.low = s.low →
      after.high = s.high → after.outstanding = s.outstanding → EventCase s .quiet after
  | looked {after : Session σ} : s.config.enabled = true → s.outstanding = none →
      after.config = s.config → after.low = s.low → after.high = s.clamp.high →
      after.outstanding = none → EventCase s (.searched none) after
  | issued {now : Int} : s.config.enabled = true → s.outstanding = none → ¬s.clamp.Converged →
      EventCase s (.searched (some (s.clamp.issue now).answer)) (s.clamp.issue now).session
  | expired {probe : Outstanding} {now : Int} : s.config.enabled = true →
      s.outstanding = some probe → EventCase s (.expired probe) (s.expire probe now)
  | confirmed {reply : Reply} {now : Int} : s.Expects reply →
      EventCase s (.confirmed reply) (s.confirm reply.size now)
  | restarted {now : Int} : EventCase s .restarted (s.restart now).session

theorem TickCase.event {s after : Session σ} {now rto : Int} {answer : Option Probe}
    (h : TickCase s now rto after answer) (hsession : (s.tick now rto).session = after)
    (hanswer : (s.tick now rto).answer = answer) :
    EventCase s (s.event (.tick now rto)) after := by
  unfold Session.event
  simp only [hsession, hanswer]
  cases h with
  | disabled he =>
    rw [if_neg (by simp [he])]
    exact .quiet rfl rfl rfl rfl
  | waiting he ho _ =>
    rw [if_pos he, ho]
    exact .quiet rfl rfl rfl rfl
  | expired he ho _ =>
    rw [if_pos he, ho]
    exact .expired he ho
  | settled he ho _ =>
    rw [if_pos he, ho]
    exact .looked he ho rfl rfl rfl ho
  | early he ho _ _ =>
    rw [if_pos he, ho]
    exact .looked he ho rfl rfl rfl ho
  | issued he ho hopen _ =>
    rw [if_pos he, ho]
    exact .issued he ho hopen

theorem event_case (s : Session σ) (call : Call) :
    EventCase s (s.event call) (s.perform call).session := by
  cases call with
  | tick now rto => exact (tick_case s now rto).event rfl rfl
  | reply reply now =>
    by_cases h : s.Expects reply
    · have case : EventCase s (.confirmed reply) (s.confirm reply.size now) := .confirmed h
      simpa [event, perform, receive, h] using case
    · have case : EventCase s .quiet s.reject := .quiet rfl rfl rfl rfl
      simpa [event, perform, receive, h] using case
  | restart now => exact .restarted
  | setFragment size => exact .quiet rfl rfl rfl rfl

theorem event_ne_restarted {s : Session σ} {call : Call} (h : ¬call.Restarts) :
    s.event call ≠ .restarted := by
  cases call with
  | tick now rto =>
    simp only [event]
    split
    · split
      · split <;> exact nofun
      · exact nofun
    · exact nofun
  | reply reply now =>
    simp only [event]
    split <;> exact nofun
  | restart now => exact absurd trivial h
  | setFragment size => exact nofun

theorem event_issued (s : Session σ) (now rto : Int) :
    (s.event (.tick now rto)).issued? = (s.tick now rto).answer := by
  have hc := tick_case s now rto
  simp only [event]
  generalize (s.tick now rto).session = after at hc ⊢
  generalize (s.tick now rto).answer = answer at hc ⊢
  cases hc with
  | disabled he => simp [he, Event.issued?]
  | waiting he ho _ => simp [he, ho, Event.issued?]
  | expired he ho _ => simp [he, ho, expire, Event.issued?]
  | settled he ho _ => simp [he, ho, Event.issued?]
  | early he ho _ _ => simp [he, ho, Event.issued?]
  | issued he ho _ _ => simp [he, ho, Event.issued?]

theorem event_searched {s : Session σ} {call : Call} {issued : Option Probe}
    (h : s.event call = .searched issued) :
    ∃ now rto, call = .tick now rto ∧ (s.tick now rto).answer = issued := by
  cases call with
  | tick now rto =>
    have hissued := event_issued s now rto
    rw [h] at hissued
    exact ⟨now, rto, rfl, hissued.symm⟩
  | reply reply now =>
    simp only [event] at h
    split at h <;> cases h
  | restart now => cases h
  | setFragment size => cases h

theorem event_expired {s : Session σ} {call : Call} {probe : Outstanding}
    (h : s.event call = .expired probe) : ∃ now rto, call = .tick now rto ∧
      s.outstanding = some probe ∧ probeTimeout rto < now - probe.sentAt := by
  cases call with
  | tick now rto =>
    refine ⟨now, rto, rfl, ?_⟩
    have hc := tick_case s now rto
    simp only [event] at h
    generalize (s.tick now rto).session = after at hc h
    generalize (s.tick now rto).answer = answer at hc h
    cases hc with
    | disabled he => simp [he] at h
    | waiting he ho _ => simp [he, ho] at h
    | expired he ho ht =>
      simp only [he, ho, if_true] at h
      cases Event.expired.inj h
      exact ⟨ho, ht⟩
    | settled he ho _ => simp [he, ho] at h
    | early he ho _ _ => simp [he, ho] at h
    | issued he ho _ _ => simp [he, ho] at h
  | reply reply now =>
    simp only [event] at h
    split at h <;> cases h
  | restart now => cases h
  | setFragment size => cases h

theorem event_confirmed {s : Session σ} {call : Call} {reply : Reply}
    (h : s.event call = .confirmed reply) : ∃ now, call = .reply reply now ∧ s.Expects reply := by
  cases call with
  | tick now rto =>
    simp only [event] at h
    split at h
    · split at h
      · split at h <;> cases h
      · cases h
    · cases h
  | reply r now =>
    by_cases hexp : s.Expects r
    · simp only [event, receive, if_pos hexp, if_true] at h
      cases Event.confirmed.inj h
      exact ⟨now, rfl, hexp⟩
    · simp [event, receive, hexp] at h
  | restart now => cases h
  | setFragment size => cases h

theorem EventCase.low_le {s after : Session σ} {e : Event} (hc : EventCase s e after)
    (hne : e ≠ .restarted) : s.low ≤ after.low := by
  cases hc with
  | quiet _ low _ _ => exact Nat.le_of_eq low.symm
  | looked _ _ _ low _ _ => exact Nat.le_of_eq low.symm
  | issued => exact Nat.le_refl _
  | expired => exact Nat.le_refl _
  | confirmed => exact Nat.le_max_left _ _
  | restarted => exact absurd rfl hne

/-- Until the probe that waits is over, a search waits for what it has issued. The size that a probe
advertises is the one that the search has chosen. -/
theorem EventCase.waiting_eq {s after : Session σ} {e : Event} (hc : EventCase s e after)
    (hne : e ≠ .restarted) (hr : e.resolves = false) :
    after.waiting = s.waiting ++ e.issued?.toList.map Probe.size := by
  cases hc with
  | quiet _ _ _ ho =>
    unfold waiting
    rw [ho]
    exact (List.append_nil _).symm
  | looked _ ho _ _ _ ho' =>
    unfold waiting
    rw [ho, ho']
    rfl
  | @issued now _ ho hopen =>
    have hsize := issue_size hopen (clamp_high_le_cap hopen) now
    unfold waiting
    rw [ho]
    exact congrArg (fun size => [size]) hsize.symm
  | expired => cases hr
  | confirmed => cases hr
  | restarted => exact absurd rfl hne

theorem EventCase.outstanding_none {s after : Session σ} {e : Event} (hc : EventCase s e after)
    (he : e.ends = true) : after.outstanding = none := by
  cases hc with
  | expired => rfl
  | confirmed => rfl
  | restarted => rfl
  | _ => cases he

/-- While a probe waits for its reply, nothing moves the bounds. -/
theorem EventCase.outstanding_some {s after : Session σ} {e : Event} (hc : EventCase s e after)
    {o : Outstanding} (ho : s.outstanding = some o) (he : e.ends = false) :
    after.outstanding = some o ∧ after.low = s.low ∧ after.high = s.high := by
  cases hc with
  | quiet _ low high hsame => exact ⟨hsame.trans ho, low, high⟩
  | looked _ hnone _ _ _ _ => rw [hnone] at ho; cases ho
  | issued _ hnone _ => rw [hnone] at ho; cases ho
  | _ => cases he

theorem EventCase.waits_still {s after : Session σ} {e : Event} {o : Outstanding}
    (hc : EventCase s e after) (he : e.issued? = none) (ho : after.outstanding = some o) :
    s.outstanding = some o ∧ e.ends = false := by
  cases hc with
  | quiet _ _ _ hsame => exact ⟨hsame.symm.trans ho, rfl⟩
  | looked _ _ _ _ _ hnone =>
    rw [hnone] at ho
    cases ho
  | issued => cases he
  | expired => cases ho
  | confirmed => cases ho
  | restarted => cases ho

theorem after_coherent {s : Session σ} (h : s.Coherent) (calls : List Call) :
    (s.after calls).Coherent := by
  induction calls generalizing s with
  | nil => exact h
  | cons call calls ih => exact ih ((call_case s call).coherent h)

theorem after_config (s : Session σ) (calls : List Call) :
    (s.after calls).config = s.config := by
  induction calls generalizing s with
  | nil => rfl
  | cons call calls ih => exact (ih _).trans (call_case s call).config

theorem start_after_config (config : Config) (now : Int) (source : σ) (calls : List Call) :
    ((start config now source).after calls).config = config := after_config _ calls

theorem after_cons (s : Session σ) (call : Call) (calls : List Call) :
    s.after (call :: calls) = (s.perform call).session.after calls := rfl

theorem answers_cons (s : Session σ) (call : Call) (calls : List Call) :
    s.answers (call :: calls) = (s.perform call).answer :: (s.perform call).session.answers calls :=
  rfl

theorem events_cons (s : Session σ) (call : Call) (calls : List Call) :
    s.events (call :: calls) = s.event call :: (s.perform call).session.events calls := rfl

theorem probes_cons (s : Session σ) (call : Call) (calls : List Call) :
    s.probes (call :: calls) =
      (s.event call).issued?.toList ++ (s.perform call).session.probes calls := by
  unfold probes
  rw [events_cons]
  cases h : (s.event call).issued? with
  | none => rw [List.filterMap_cons_none h]; rfl
  | some probe => rw [List.filterMap_cons_some h]; rfl

theorem resolutions_cons (s : Session σ) (call : Call) (calls : List Call) :
    s.resolutions (call :: calls) =
      if (s.event call).resolves then
        ⟨s.event call, (s.perform call).session⟩ :: (s.perform call).session.resolutions calls
      else (s.perform call).session.resolutions calls := by
  show List.filter _ (_ :: _) = _
  rw [List.filter_cons]
  rfl

theorem after_append (s : Session σ) (calls more : List Call) :
    s.after (calls ++ more) = (s.after calls).after more := List.foldl_append

theorem history_append (s : Session σ) (calls more : List Call) :
    s.history (calls ++ more) = s.history calls ++ (s.after calls).history more := by
  induction calls generalizing s with
  | nil => rfl
  | cons call calls ih => exact congrArg _ (ih _)

theorem events_append (s : Session σ) (calls more : List Call) :
    s.events (calls ++ more) = s.events calls ++ (s.after calls).events more := by
  unfold events
  rw [history_append, List.map_append]

theorem probes_append (s : Session σ) (calls more : List Call) :
    s.probes (calls ++ more) = s.probes calls ++ (s.after calls).probes more := by
  unfold probes
  rw [events_append, List.filterMap_append]

end Session

end PathMtu
