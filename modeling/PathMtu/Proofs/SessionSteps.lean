import PathMtu.Session.Run

namespace PathMtu

namespace Session

variable {σ : Type} [RandomSource σ]

/-- The ways in which a tick can go, with the session and the answer that it leaves. -/
inductive TickCase (s : Session σ) (now rto : Int) : Session σ → Option Probe → Prop
  | disabled : s.config.enabled = false → TickCase s now rto s none
  | waiting {probe : Outstanding} : s.config.enabled = true → s.outstanding = some probe →
      now - probe.sentAt ≤ probeTimeout rto → TickCase s now rto s none
  | expired {probe : Outstanding} : s.config.enabled = true → s.outstanding = some probe →
      probeTimeout rto < now - probe.sentAt → TickCase s now rto (s.expire probe now) none
  | settled : s.config.enabled = true → s.outstanding = none → s.clamp.Converged →
      TickCase s now rto s.clamp.settle none
  | early : s.config.enabled = true → s.outstanding = none → ¬s.clamp.Converged →
      now - s.lastActivity < s.config.intervalNanos → TickCase s now rto s.clamp none
  | issued : s.config.enabled = true → s.outstanding = none → ¬s.clamp.Converged →
      s.config.intervalNanos ≤ now - s.lastActivity →
      TickCase s now rto (s.clamp.issue now).session (some (s.clamp.issue now).answer)

theorem tick_case (s : Session σ) (now rto : Int) :
    TickCase s now rto (s.tick now rto).session (s.tick now rto).answer := by
  cases he : s.config.enabled with
  | false =>
    have case : TickCase s now rto s none := .disabled he
    simpa [tick, he] using case
  | true =>
    cases ho : s.outstanding with
    | some probe =>
      by_cases ht : probeTimeout rto < now - probe.sentAt
      · have case : TickCase s now rto (s.expire probe now) none := .expired he ho ht
        simpa [tick, he, ho, await, ht] using case
      · have case : TickCase s now rto s none := .waiting he ho (by omega)
        simpa [tick, he, ho, await, ht] using case
    | none =>
      by_cases hc : s.clamp.Converged
      · have case : TickCase s now rto s.clamp.settle none := .settled he ho hc
        simpa [tick, he, ho, proceed, hc] using case
      · by_cases hi : now - s.clamp.lastActivity < s.clamp.config.intervalNanos
        · have case : TickCase s now rto s.clamp none := .early he ho hc hi
          simpa [tick, he, ho, proceed, hc, hi] using case
        · have case : TickCase s now rto (s.clamp.issue now).session
              (some (s.clamp.issue now).answer) := .issued he ho hc (Int.not_lt.mp hi)
          simpa [tick, he, ho, proceed, hc, hi] using case

/-- No two of the ways are open at once, so a way that is open is the one that the tick goes. -/
theorem TickCase.eq {s after : Session σ} {now rto : Int} {answer : Option Probe}
    (h : TickCase s now rto after answer) :
    (s.tick now rto).session = after ∧ (s.tick now rto).answer = answer := by
  cases h with
  | disabled he => simp [tick, he]
  | waiting he ho ht => simp [tick, he, ho, await, Int.not_lt.mpr ht]
  | expired he ho ht => simp [tick, he, ho, await, ht]
  | settled he ho hc => simp [tick, he, ho, proceed, hc]
  | early he ho hc hi =>
    have hearly : now - s.clamp.lastActivity < s.clamp.config.intervalNanos := hi
    simp [tick, he, ho, proceed, hc, hearly]
  | issued he ho hc hi =>
    have hdue : ¬now - s.clamp.lastActivity < s.clamp.config.intervalNanos := Int.not_lt.mpr hi
    simp [tick, he, ho, proceed, hc, hdue]

inductive CallCase (s : Session σ) : Call → Session σ → Answer → Prop
  | tick {now rto : Int} {after : Session σ} {probe : Option Probe} :
      TickCase s now rto after probe → CallCase s (.tick now rto) after (.probe probe)
  | accepted {reply : Reply} {now : Int} : s.Expects reply →
      CallCase s (.reply reply now) (s.confirm reply.size now) (.verdict true)
  | rejected {reply : Reply} {now : Int} : ¬s.Expects reply →
      CallCase s (.reply reply now) s.reject (.verdict false)
  | restarted {now : Int} : CallCase s (.restart now) (s.restart now).session .done
  | resized {size : Nat} : CallCase s (.setFragment size) (s.setFragment size) .done

theorem call_case (s : Session σ) (call : Call) :
    CallCase s call (s.perform call).session (s.perform call).answer := by
  cases call with
  | tick now rto => exact .tick (tick_case s now rto)
  | reply reply now =>
    by_cases h : s.Expects reply
    · have case : CallCase s (.reply reply now) (s.confirm reply.size now) (.verdict true) :=
        .accepted h
      simpa [perform, receive, h] using case
    · have case : CallCase s (.reply reply now) s.reject (.verdict false) := .rejected h
      simpa [perform, receive, h] using case
  | restart now => exact .restarted
  | setFragment size => exact .resized

theorem CallCase.eq {s after : Session σ} {call : Call} {answer : Answer}
    (h : CallCase s call after answer) :
    (s.perform call).session = after ∧ (s.perform call).answer = answer := by
  cases h with
  | tick h =>
    obtain ⟨hafter, hanswer⟩ := h.eq
    exact ⟨hafter, congrArg Answer.probe hanswer⟩
  | accepted hexp => simp [perform, receive, hexp]
  | rejected hexp => simp [perform, receive, hexp]
  | restarted => exact ⟨rfl, rfl⟩
  | resized => exact ⟨rfl, rfl⟩

omit [RandomSource σ] in
theorem receive_of_expects {s : Session σ} {reply : Reply} (h : s.Expects reply) (now : Int) :
    (s.receive reply now).session = s.confirm reply.size now := by
  unfold receive
  rw [if_pos h]

end Session

end PathMtu
