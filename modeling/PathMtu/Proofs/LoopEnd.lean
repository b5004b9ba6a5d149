import PathMtu.Proofs.SimulatorRun
import PathMtu.Proofs.Validation
import PathMtu.Random.Predictable
import PathMtu.Simulator.Report

namespace PathMtu

namespace Loop

variable {σ : Type}

theorem elapsed_mem_summaryLines (sim : Simulation σ) :
    Line.output s!"Simulation beendet nach {sim.ticks * sim.options.tickInterval.toNat} ms" ∈
      Report.summaryLines sim := by
  have helapsed : sim.now / millisecond =
      ((sim.ticks * sim.options.tickInterval.toNat : Nat) : Int) := by
    unfold Simulation.now
    rw [Int.mul_ediv_cancel _ (by decide)]
    exact (Int.natCast_mul _ _).symm
  unfold Report.summaryLines
  rw [helapsed]
  exact List.mem_cons_of_mem _ List.mem_cons_self

theorem exitStatus_eq (sim : Simulation σ) : sim.exitStatus =
    if sim.options.config.enabled = true ∧ sim.session.phase ≠ .converged then 2 else 0 := by
  unfold Simulation.exitStatus
  by_cases hphase : sim.session.phase = .converged
  · rw [if_pos (Or.inl hphase), if_neg fun h => h.2 hphase]
  · cases henabled : sim.options.config.enabled with
    | true => rw [if_neg (not_or.mpr ⟨hphase, nofun⟩), if_pos ⟨rfl, hphase⟩]
    | false => rw [if_pos (Or.inr rfl), if_neg fun h => Bool.false_ne_true h.1]

variable [RandomSource σ]

/-- The loop comes to an end, in whatever order it runs handlers that are due at the same time. It
goes on until a tick stops it, within the duration rounded up to whole ticks, and no handler runs
after that. If the search has not converged by then, the loop has used up that time, and the exit
status is 2 unless no search was asked for. The simulation is one such loop, run to its end. -/
theorem loop_ends {options : Options} (valid : options.validate = .ok ()) (source : σ) :
    let tick := options.tickInterval.toNat
    let limit := max 1 (options.duration.toNat ⌈/⌉ tick)
    (∀ path n loop, Reach (start options path source) n loop → n ≤ 2 * limit ∧
        (loop.tickAt ≠ none → ∃ later, loop.Fires later) ∧
        (loop.tickAt = none → (∀ later, ¬loop.Fires later) ∧
          1 ≤ loop.sim.ticks ∧ loop.sim.ticks ≤ limit ∧
          loop.clock = loop.sim.ticks * tick * millisecond ∧
          Line.output s!"Simulation beendet nach {loop.sim.ticks * tick} ms" ∈
            Report.summaryLines loop.sim ∧
          loop.sim.exitStatus =
            (if options.config.enabled = true ∧ loop.sim.session.phase ≠ .converged then 2 else 0) ∧
          (loop.sim.session.phase ≠ .converged → loop.sim.ticks = limit))) ∧
      ∀ device, ∃ n loop, Reach (start options (Simulation.pathOf options device) source) n loop ∧
        loop.tickAt = none ∧ loop.sim = Simulation.run options source device ∧
        (Report.ofOptions options source device).status = loop.sim.exitStatus ∧
        ∀ line ∈ Report.summaryLines loop.sim,
          line ∈ (Report.ofOptions options source device).lines := by
  intro tick limit
  have htick := (Options.accepted_of_validate valid).1
  refine ⟨?_, ?_⟩
  · intro path n loop reach
    obtain ⟨hcount, hgoes⟩ := reach.ends htick
    refine ⟨hcount, hgoes, ?_⟩
    intro hstopped
    obtain ⟨hclock, _, hpos⟩ := reach.punctual.stopped hstopped
    have helapsed := elapsed_mem_summaryLines loop.sim
    have hstatus := exitStatus_eq loop.sim
    unfold Simulation.now at hclock
    rw [reach.punctual.same] at hclock helapsed hstatus
    exact ⟨fun later hf => hf.running hstopped, hpos, (reach.ticks_le htick).2, hclock, helapsed,
      hstatus, reach.ticks_eq htick hstopped⟩
  · intro device
    obtain ⟨n, reach⟩ := run_reached options source device
    have hstopped := Simulation.run_stopped htick source device
    refine ⟨n, _, reach, resume_stopped.mpr hstopped, rfl, rfl, ?_⟩
    intro line hline
    exact List.mem_append_right _ hline

/-- The reply to the first probe and the second tick are due together, and the tick goes first. The
duration ends between two ticks, and the loop at the second, while the second probe waits. -/
theorem loop_ends_300 :
    let options : Options :=
      { config := { minSize := 100, maxSize := 108, threshold := 1, interval := 0 }
        pathMtu := 105, rtt := 100, tickInterval := 100, duration := 290 }
    let path := options.path ⟨#[], 0⟩
    let first := start options path ({} : CountingSource)
    let handlers : List Handler := [.tick (100 * millisecond), .tick (200 * millisecond),
      .reply ⟨200 * millisecond, ⟨104, 1000⟩⟩, .tick (300 * millisecond)]
    let loop := handlers.foldl handle first
    options.validate = .ok () ∧ Reach first 4 loop ∧
      loop.sim.session.tally.accepted = 1 ∧ loop.tickAt = none ∧
      (∀ later, ¬loop.Fires later) ∧ loop.sim.session.phase = .probing ∧
      loop.sim.exitStatus = 2 ∧ loop.sim.ticks = 3 ∧ loop.clock = 3 * 100 * millisecond ∧
      Line.output "Simulation beendet nach 300 ms" ∈ Report.summaryLines loop.sim := by
  intro options path first handlers loop
  have valid : options.validate = .ok () := by
    unfold Options.validate
    rw [if_neg (by decide +kernel), if_neg (by decide)]
    rfl
  have hmost : max 1 (options.duration.toNat ⌈/⌉ options.tickInterval.toNat) = 3 := by decide
  have htext : s!"Simulation beendet nach {3 * options.tickInterval.toNat} ms" =
      "Simulation beendet nach 300 ms" := by decide
  have turns : first.InTurn handlers := by decide +kernel
  have reach : Reach first 4 loop := Reach.start.foldl turns
  have hstopped : loop.tickAt = none := by decide +kernel
  have hphase : loop.sim.session.phase = .probing := by decide +kernel
  have hunfinished : loop.sim.session.phase ≠ .converged := by
    rw [hphase]
    decide
  obtain ⟨_, _, hend⟩ := (loop_ends valid ({} : CountingSource)).1 path 4 loop reach
  obtain ⟨hsilent, _, _, hclock, helapsed, hexit, hlimit⟩ := hend hstopped
  have hticks : loop.sim.ticks = 3 := (hlimit hunfinished).trans hmost
  rw [if_pos ⟨rfl, hunfinished⟩] at hexit
  rw [hticks] at hclock helapsed
  rw [htext] at helapsed
  exact ⟨valid, reach, by decide +kernel, hstopped, hsilent, hphase, hexit, hticks, hclock,
    helapsed⟩

end Loop

end PathMtu
