import Mathlib.Data.List.Induction
import Mathlib.Data.List.TakeDrop
import PathMtu.Proofs.ConfirmedBound
import PathMtu.Simulator.Journey

namespace PathMtu

namespace Exchange

variable {σ : Type} [RandomSource σ]

theorem Answered.play {e : Exchange σ} {reply : Reply} (h : e.Answered reply) (move : Move) :
    (e.play move).Answered reply := by
  obtain ⟨t, ht, hfate, hreply⟩ := h
  exact ⟨t, mem_play_trials ht, hfate, hreply⟩

end Exchange

namespace Journey

open Exchange (Possible)

variable {σ : Type}

/-- An exchange with the same session and path. What is in flight was answered in it, on the present
path or on an earlier one. -/
structure Mirrors (e : Exchange σ) (j : Journey σ) : Prop where
  session : e.session = j.session
  path : e.path = j.path
  answered : ∀ flight ∈ j.inFlight, e.Answered flight.reply

theorem start_mirrors (config : Config) (timing : Timing) (source : σ) :
    Mirrors (Exchange.start config (Path.closed config.framing) 0 source)
      (start config timing source) :=
  ⟨rfl, rfl, nofun⟩

variable [RandomSource σ]

theorem Mirrors.arrive {e : Exchange σ} {j : Journey σ} (h : Mirrors e j) (flight : Flight) :
    Mirrors (e.play (.call (.reply flight.reply j.now))) (j.arrive flight) := by
  refine ⟨?_, h.path, fun other hother => (h.answered other hother).play _⟩
  show (e.session.receive flight.reply j.now).session = _
  rw [h.session]
  rfl

/-- Replies that are due arrive one after the other. -/
theorem Mirrors.foldl_arrive {first e : Exchange σ} {j : Journey σ} {due : List Flight}
    (h : Mirrors e j) (run : Exchange.Reach Possible first e)
    (answered : ∀ flight ∈ due, e.Answered flight.reply) :
    ∃ e', Exchange.Reach Possible first e' ∧ Mirrors e' (due.foldl Journey.arrive j) := by
  induction due generalizing e j with
  | nil => exact ⟨e, run, h⟩
  | cons flight due ih =>
    obtain ⟨hflight, hdue⟩ := List.forall_mem_cons.mp answered
    exact ih (h.arrive flight) (run.next hflight) fun other hother => (hdue other hother).play _

theorem Mirrors.receiveDue {first e : Exchange σ} {j : Journey σ} (h : Mirrors e j)
    (run : Exchange.Reach Possible first e) :
    ∃ e', Exchange.Reach Possible first e' ∧ Mirrors e' j.receiveDue := by
  have hsplit : (Flight.split j.now j.inFlight).1 ++ (Flight.split j.now j.inFlight).2 =
      j.inFlight := by
    unfold Flight.split
    rw [List.span_eq_takeWhile_dropWhile]
    exact List.takeWhile_append_dropWhile
  have answered := h.answered
  rw [← hsplit] at answered
  obtain ⟨hdue, hlater⟩ := List.forall_mem_append.mp answered
  have kept : Mirrors e { j with inFlight := (Flight.split j.now j.inFlight).2 } :=
    ⟨h.session, h.path, hlater⟩
  exact kept.foldl_arrive run hdue

theorem search_of_none {j : Journey σ}
    (h : (j.session.tick j.now (nanos j.timing.rto)).answer = none) :
    j.search.session = (j.session.tick j.now (nanos j.timing.rto)).session ∧
      j.search.path = j.path ∧ j.search.inFlight = j.inFlight := by
  simp only [search, h]
  split <;> exact ⟨rfl, rfl, rfl⟩

theorem search_of_some {j : Journey σ} {probe : Probe}
    (h : (j.session.tick j.now (nanos j.timing.rto)).answer = some probe) :
    j.search = j.send (j.session.tick j.now (nanos j.timing.rto)) probe := by
  simp only [search, h]

/-- A tick plays the session's tick; its probe goes to the path, and the reply, if one comes back,
is answered from then on. -/
theorem Mirrors.search {e : Exchange σ} {j : Journey σ} (h : Mirrors e j) :
    Mirrors (e.play (.call (.tick j.now (nanos j.timing.rto)))) j.search := by
  have hkept : ∀ flight ∈ j.inFlight,
      (e.play (.call (.tick j.now (nanos j.timing.rto)))).Answered flight.reply :=
    fun flight hflight => (h.answered flight hflight).play _
  have hplay : e.play (.call (.tick j.now (nanos j.timing.rto))) =
      e.follow (j.session.tick j.now (nanos j.timing.rto)).session
        (.probe (j.session.tick j.now (nanos j.timing.rto)).answer) := by
    rw [← h.session]
    rfl
  rw [hplay] at hkept ⊢
  cases ha : (j.session.tick j.now (nanos j.timing.rto)).answer with
  | none =>
    rw [ha] at hkept
    obtain ⟨hsession, hpath, hflight⟩ := search_of_none ha
    refine ⟨hsession.symm, h.path.trans hpath.symm, ?_⟩
    rw [hflight]
    exact hkept
  | some probe =>
    rw [ha] at hkept
    rw [search_of_some ha]
    refine ⟨rfl, ?_, ?_⟩
    · show (e.path.deliver probe).2 = (j.path.deliver probe).2
      rw [h.path]
    · show ∀ flight ∈ j.inFlight ++ ((j.path.deliver probe).1.map _).toList, _
      refine List.forall_mem_append.mpr ⟨hkept, ?_⟩
      rw [← h.path]
      intro flight hflight
      by_cases hfate : e.path.fate probe = .delivered
      · simp only [Path.deliver, if_pos hfate] at hflight
        obtain rfl := List.mem_singleton.mp hflight
        exact ⟨_, List.mem_cons_self, hfate, rfl⟩
      · simp only [Path.deliver, if_neg hfate] at hflight
        cases hflight

theorem Mirrors.tick {first e : Exchange σ} {j : Journey σ} (h : Mirrors e j)
    (run : Exchange.Reach Possible first e) :
    ∃ e', Exchange.Reach Possible first e' ∧ Mirrors e' j.tick := by
  have moved : Mirrors e { j with time := j.time + j.timing.tick } :=
    ⟨h.session, h.path, h.answered⟩
  obtain ⟨e', run', h'⟩ := moved.receiveDue run
  refine ⟨_, run'.next ?_, h'.search⟩
  exact trivial

theorem Mirrors.ticks {first e : Exchange σ} {j : Journey σ} (stopOnConverged : Bool) (n : Nat)
    (h : Mirrors e j) (run : Exchange.Reach Possible first e) :
    ∃ e', Exchange.Reach Possible first e' ∧ Mirrors e' (ticks stopOnConverged n j) := by
  induction n generalizing e j with
  | zero => exact ⟨e, run, h⟩
  | succ n ih =>
    obtain ⟨e', run', h'⟩ := h.tick run
    unfold Journey.ticks
    dsimp only
    split
    · exact ⟨e', run', h'⟩
    · exact ih h' run'

/-- A leg that opens the search again is a change of the path. -/
theorem Mirrors.travel {first e : Exchange σ} {j : Journey σ} (h : Mirrors e j)
    (run : Exchange.Reach Possible first e) (device : UInt32) {leg : Leg} (restarts : leg.restart) :
    ∃ e', Exchange.Reach Possible first e' ∧ Mirrors e' (j.travel device leg) := by
  let path := Path.ofSeed j.session.config.framing leg.mtu.toNat leg.lossRate leg.seed device
  have framing : e.Possible (.reroute path j.now) := by
    show j.session.config.framing = e.session.config.framing
    rw [h.session]
  have rerouted : Mirrors (e.play (.reroute path j.now)) ({ j with path } : Journey σ).reopen := by
    refine ⟨?_, rfl, fun flight hflight => (h.answered flight hflight).play _⟩
    show (e.session.restart j.now).session = _
    rw [h.session]
    rfl
  obtain ⟨e', run', h'⟩ := rerouted.ticks leg.stopOnConverged leg.ticks (run.next framing)
  refine ⟨e', run', ?_⟩
  simp only [Journey.travel, restarts, if_true]
  exact ⟨h'.session, h'.path, h'.answered⟩

/-- A journey that opens the search again on each leg is a run of an exchange that changes its path
from leg to leg, however late the replies of earlier legs come. -/
theorem run_exchanged (config : Config) (timing : Timing) (source : σ) (device : UInt32)
    {legs : List Leg} (restarts : ∀ leg ∈ legs, leg.restart) :
    ∃ e, Exchange.Reach Possible (Exchange.start config (Path.closed config.framing) 0 source) e ∧
      Mirrors e (run config timing source device legs) := by
  induction legs using List.reverseRecOn with
  | nil => exact ⟨_, .start, start_mirrors config timing source⟩
  | append_singleton legs leg ih =>
    obtain ⟨hlegs, hleg⟩ := List.forall_mem_append.mp restarts
    obtain ⟨e, reach, mirrors⟩ := ih hlegs
    unfold run at mirrors ⊢
    rw [List.foldl_concat]
    exact mirrors.travel reach device (hleg leg (List.mem_singleton_self leg))

end Journey

end PathMtu
