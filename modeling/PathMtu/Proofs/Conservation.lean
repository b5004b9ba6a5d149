import PathMtu.Proofs.Accounting
import PathMtu.Proofs.SimulatorRun
import PathMtu.Random.Predictable

namespace PathMtu

namespace Simulation

variable {σ : Type}

/-- What session and path have counted, and what is still under way, adds up. -/
structure Conserved (sim : Simulation σ) : Prop where
  rejected : sim.session.tally.rejected = 0
  balanced : sim.session.Balanced 0
  handed : sim.session.tally.sent = sim.path.handed
  delivered : sim.path.delivered = sim.session.tally.accepted + sim.inFlight.length

/-- A reply is under way only while a probe waits for it. -/
theorem UnderWay.length_le {e : Exchange σ} {sim : Simulation σ} (h : UnderWay e sim) :
    sim.inFlight.length ≤ e.session.waiting.length := by
  cases h with
  | nothing hflight _ =>
    rw [hflight]
    exact Nat.zero_le _
  | answer ho _ _ hflight _ =>
    rw [hflight, Session.waiting_length_of_some ho]
    exact Nat.le_refl 1

theorem Conserved.send {sim : Simulation σ} (h : sim.Conserved) {after : Session σ} {probe : Probe}
    (rejected : after.tally.rejected = sim.session.tally.rejected)
    (accepted : after.tally.accepted = sim.session.tally.accepted)
    (sent : after.tally.sent = sim.session.tally.sent + 1) (balanced : after.Balanced 0)
    {lines : Array Line} (now : Int) :
    (({ sim with session := after, lines } : Simulation σ).send probe now).Conserved := by
  refine ⟨rejected.trans h.rejected, balanced, ?_, ?_⟩
  · show after.tally.sent = (sim.path.advance (sim.path.fate probe)).handed
    rw [sent, Path.advance_handed, h.handed]
  · show (sim.path.deliver probe).2.delivered = after.tally.accepted +
      (sim.inFlight ++ (((sim.path.deliver probe).1).map _).toList).length
    rw [Path.deliver_delivered, h.delivered, accepted, List.length_append, Option.length_toList,
      Option.length_toList, Option.isSome_map]
    omega

variable [RandomSource σ]

theorem Conserved.serve {sim : Simulation σ} (h : sim.Conserved) : sim.serve.Conserved := by
  have hc := Session.tick_case sim.session sim.now (2 * sim.roundTrip)
  obtain ⟨hsent, haccepted, hrejected⟩ := hc.tally
  have hbalanced := hc.balanced h.balanced
  cases ha : (sim.session.tick sim.now (2 * sim.roundTrip)).answer with
  | none =>
    rw [ha] at hsent
    rw [serve_of_none ha]
    exact ⟨hrejected.trans h.rejected, hbalanced, hsent.trans h.handed,
      h.delivered.trans (congrArg (· + _) haccepted.symm)⟩
  | some probe =>
    rw [ha] at hsent
    rw [serve_of_some ha]
    exact h.send hrejected haccepted hsent hbalanced _

end Simulation

namespace Loop

variable {σ : Type} [RandomSource σ]

omit [RandomSource σ] in
theorem conserved_onReply {loop : Loop σ} (h : loop.sim.Conserved) {probe : Outstanding}
    {flight : Flight} (ho : loop.sim.session.outstanding = some probe)
    (hexp : loop.sim.session.Expects flight.reply) (hflight : loop.sim.inFlight = [flight]) :
    (loop.onReply flight).sim.Conserved := by
  have hdelivered := h.delivered
  rw [hflight, List.length_singleton] at hdelivered
  have hsession := onReply_session hexp
  rw [onReply_sim hflight] at hsession ⊢
  refine ⟨?_, ?_, ?_, ?_⟩
  · rw [hsession]
    exact h.rejected
  · rw [hsession]
    exact h.balanced.confirm ho _ _
  · rw [hsession]
    exact h.handed
  · rw [hsession]
    exact hdelivered

section

variable {options : Options} {generator : Twister} {source : σ} {n : Nat} {loop : Loop σ}

theorem Reach.conserved
    (reach : Reach (Loop.start options (options.path generator) source) n loop) :
    loop.sim.Conserved := by
  induction reach with
  | start => exact ⟨rfl, Session.start_balanced options.config 0 source, rfl, rfl⟩
  | next hbefore hf ih =>
    cases hbefore.handlerCase hf with
    | reply ho hexp _ _ _ hflight => exact conserved_onReply ih ho hexp hflight
    | tick =>
      apply Simulation.Conserved.serve
      exact ⟨ih.rejected, ih.balanced, ih.handed, ih.delivered⟩

/-- The sums that the counts of session and path obey after each handler. -/
theorem Reach.sums (reach : Reach (Loop.start options (options.path generator) source) n loop) :
    loop.sim.session.tally.sent =
        loop.sim.path.delivered + loop.sim.path.oversize + loop.sim.path.lost ∧
      loop.sim.session.tally.sent = loop.sim.session.tally.accepted +
        loop.sim.session.tally.timedOut + loop.sim.session.waiting.length ∧
      loop.sim.session.tally.accepted ≤ loop.sim.path.delivered ∧
      loop.sim.path.delivered ≤
        loop.sim.session.tally.accepted + loop.sim.session.waiting.length := by
  obtain ⟨e, _, mirrors⟩ := reach.mirrored
  have hflight := mirrors.underWay.length_le
  have hbalanced := reach.conserved.balanced
  have hdelivered := reach.conserved.delivered
  rw [mirrors.session] at hflight
  unfold Session.Balanced Session.finished at hbalanced
  refine ⟨reach.conserved.handed, ?_, ?_, ?_⟩ <;> omega

end

/-- The counts of session and path add up after each handler, in whatever order those run that are
due at the same time, and whatever is lost on the path. No reply is rejected, and no probe is given
up that was delivered: while no probe waits, the accepted replies are as many as the delivered
probes, and the probes given up as many as the dropped ones. The simulation is one such loop. -/
theorem counts_conserved (options : Options) (source : σ) :
    (∀ generator n loop, Reach (start options (options.path generator) source) n loop →
        let tally := loop.sim.session.tally
        let path := loop.sim.path
        let waits := if loop.sim.session.phase = .probing then 1 else 0
        tally.rejected = 0 ∧
          tally.sent = path.delivered + path.oversize + path.lost ∧
          tally.sent = tally.accepted + tally.timedOut + waits ∧
          tally.accepted ≤ path.delivered ∧
          path.delivered ≤ tally.accepted + waits ∧
          tally.timedOut ≤ path.oversize + path.lost ∧
          (loop.sim.session.outstanding = none →
            tally.accepted = path.delivered ∧ tally.timedOut = path.oversize + path.lost)) ∧
      ∀ device, ∃ n loop, Reach (start options (Simulation.pathOf options device) source) n loop ∧
        loop.sim = Simulation.run options source device ∧
        (0 < options.tickInterval.toNat → loop.tickAt = none) := by
  constructor
  · intro generator n loop reach tally path waits
    have hwaits : loop.sim.session.waiting.length = waits :=
      loop.sim.session.waiting_length_eq_phase
    obtain ⟨hhanded, hsent, haccepted, hdelivered⟩ := reach.sums
    rw [hwaits] at hsent hdelivered
    refine ⟨reach.conserved.rejected, hhanded, hsent, haccepted, hdelivered, ?_, ?_⟩
    · show loop.sim.session.tally.timedOut ≤ loop.sim.path.oversize + loop.sim.path.lost
      omega
    · intro hidle
      rw [← hwaits, Session.waiting_length_of_none hidle] at hsent hdelivered
      have hsame : loop.sim.session.tally.accepted = loop.sim.path.delivered :=
        Nat.le_antisymm haccepted hdelivered
      refine ⟨hsame, ?_⟩
      show loop.sim.session.tally.timedOut = loop.sim.path.oversize + loop.sim.path.lost
      omega
  · intro device
    obtain ⟨n, reach⟩ := run_reached options source device
    refine ⟨n, _, reach, rfl, ?_⟩
    intro htick
    exact resume_stopped.mpr (Simulation.run_stopped htick source device)

/-- Each round trip takes as long as the ticks are apart, and the tick comes before the reply. The
first probe is answered, the second is too large, and the third is lost. With time for two ticks
only, the loop stops before the reply arrives. -/
theorem counts_conserved_after_tie :
    let options : Options :=
      { config := { minSize := 100, maxSize := 116, threshold := 1, interval := 0 }
        pathMtu := 110, rtt := 100, lossRate := 0.5, tickInterval := 100, duration := 1000 }
    let hasty := { options with duration := 200 }
    let generator : Twister := ⟨#[0, 0x80000000], 0⟩
    let first := start options (options.path generator) ({} : CountingSource)
    let tick (n : Int) : Handler := .tick (n * 100 * millisecond)
    let reply : Handler := .reply ⟨200 * millisecond, ⟨108, 1000⟩⟩
    let handlers := [tick 1, tick 2, reply, tick 3, tick 4, tick 5, tick 6, tick 7, tick 8, tick 9,
      tick 10]
    let loop := handlers.foldl handle first
    let cut := [tick 1, tick 2].foldl handle
      (start hasty (hasty.path generator) ({} : CountingSource))
    loop.tickAt = none ∧ loop.sim.session.outstanding = none ∧ loop.sim.path.delivered = 1 ∧
      loop.sim.path.oversize = 1 ∧ loop.sim.path.lost = 1 ∧ loop.sim.session.tally.sent = 3 ∧
      loop.sim.session.tally.accepted = 1 ∧ loop.sim.session.tally.timedOut = 2 ∧
      cut.tickAt = none ∧ cut.sim.session.phase = .probing ∧ cut.sim.path.delivered = 1 ∧
      cut.sim.session.tally.accepted = 0 ∧ cut.sim.session.tally.timedOut = 0 := by
  intro options hasty generator first tick reply handlers loop cut
  have turns : first.InTurn handlers := by decide +kernel
  have turns' : (start hasty (hasty.path generator) ({} : CountingSource)).InTurn
      [tick 1, tick 2] := by decide +kernel
  have hidle : loop.sim.session.outstanding = none := by decide +kernel
  have hdelivered : loop.sim.path.delivered = 1 := by decide +kernel
  have hoversize : loop.sim.path.oversize = 1 := by decide +kernel
  have hlost : loop.sim.path.lost = 1 := by decide +kernel
  have hphase : cut.sim.session.phase = .probing := by decide +kernel
  have hdelivered' : cut.sim.path.delivered = 1 := by decide +kernel
  have hdropped : cut.sim.path.oversize = 0 ∧ cut.sim.path.lost = 0 := by decide +kernel
  obtain ⟨_, hsent, _, _, _, _, hsettled⟩ :=
    (counts_conserved options ({} : CountingSource)).1 generator _ loop (Reach.start.foldl turns)
  obtain ⟨_, hsent', hsum', _⟩ :=
    (counts_conserved hasty ({} : CountingSource)).1 generator _ cut (Reach.start.foldl turns')
  obtain ⟨haccepted, htimedOut⟩ := hsettled hidle
  rw [hdelivered, hoversize, hlost] at hsent
  rw [hdelivered] at haccepted
  rw [hoversize, hlost] at htimedOut
  rw [hdelivered', hdropped.1, hdropped.2] at hsent'
  rw [if_pos hphase, hsent'] at hsum'
  refine ⟨by decide +kernel, hidle, hdelivered, hoversize, hlost, hsent, haccepted, htimedOut,
    by decide +kernel, hphase, hdelivered', ?_, ?_⟩ <;> omega

end Loop

end PathMtu
