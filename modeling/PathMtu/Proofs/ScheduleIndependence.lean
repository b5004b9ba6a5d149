import PathMtu.Proofs.BinarySearch
import PathMtu.Proofs.Bracketing

namespace PathMtu

def Framing.Fits (framing : Framing) (mtu size : Nat) : Prop :=
  framing.encodedSize (framing.payloadLength size) ≤ mtu

instance (framing : Framing) (mtu : Nat) : DecidablePred (framing.Fits mtu) :=
  fun _ => inferInstanceAs (Decidable (_ ≤ _))

theorem Framing.fits_iff {framing : Framing} {mtu size : Nat} :
    framing.Fits mtu size ↔ max size (framing.overhead + 1) ≤ mtu := by
  unfold Fits
  rw [encodedSize_payloadLength]

/-- The range from which a search with these parameters starts. -/
def Config.range (config : Config) : Range :=
  ⟨config.lowest, max config.lowest (min config.highest config.cap)⟩

namespace Session

variable {σ : Type}

theorem start_range (config : Config) (now : Int) (source : σ) :
    (start config now source).range = config.range := by
  have hordered : config.lowest ≤ config.highest := Nat.le_max_right _ _
  apply congrArg (Range.mk config.lowest)
  show (if config.cap < config.highest then max config.cap config.lowest else config.highest) =
    max config.lowest (min config.highest config.cap)
  split <;> omega

variable [RandomSource σ]

/-- Only a search that was never ticked may have its upper bound above the cap. -/
theorem start_after_range (config : Config) (now : Int) (source : σ) {calls : List Call}
    (steady : ∀ call ∈ calls, ¬call.Restarts)
    (issued : (start config now source).probes calls ≠ []) :
    ((start config now source).after calls).range =
      ((start config now source).after calls).bounds :=
  congrArg bounds ((start_after_clamped config now source steady issued).clamp_eq
    (after_coherent (start_coherent config now source) calls).ordered)

end Session

namespace Exchange

variable {σ : Type} [RandomSource σ]

/-- A run of calls on one path that nothing disturbs: only oversize probes are dropped, none that
was answered is given up, no token is used twice, and the search is not opened again. -/
structure Undisturbed (e : Exchange σ) (calls : List Call) : Prop where
  patient : Keeps Patient e (calls.map Move.call)
  steady : ∀ call ∈ calls, ¬call.Restarts
  lossless : ((calls.map Move.call).foldl play e).path.lost = e.path.lost
  distinct : (((calls.map Move.call).foldl play e).trials.map fun t => t.probe.token).Nodup

theorem foldl_trials_suffix (e : Exchange σ) (moves : List Move) :
    e.trials <:+ (moves.foldl play e).trials := by
  induction moves generalizing e with
  | nil => exact List.suffix_rfl
  | cons move moves ih => exact (play_trials_suffix e move).trans (ih _)

theorem Undisturbed.distinct_start {e : Exchange σ} {calls : List Call} (h : e.Undisturbed calls) :
    (e.trials.map fun t => t.probe.token).Nodup :=
  h.distinct.sublist ((foldl_trials_suffix e _).sublist.map _)

theorem Undisturbed.play_lost {e : Exchange σ} {call : Call} {calls : List Call}
    (h : e.Undisturbed (call :: calls)) : (e.play (.call call)).path.lost = e.path.lost := by
  obtain ⟨hnow, hlater⟩ := h.patient
  have hfirst := lost_le_play hnow
  have hrest := (Reach.start.foldl hlater).lost_le
  have hend : ((calls.map Move.call).foldl play (e.play (.call call))).path.lost = e.path.lost :=
    h.lossless
  omega

theorem Undisturbed.next {e : Exchange σ} {call : Call} {calls : List Call}
    (h : e.Undisturbed (call :: calls)) : (e.play (.call call)).Undisturbed calls :=
  ⟨h.patient.2, (List.forall_mem_cons.mp h.steady).2, h.lossless.trans h.play_lost.symm, h.distinct⟩

theorem play_unlost {e : Exchange σ} {call : Call} (unlost : ∀ t ∈ e.trials, t.fate ≠ .lost)
    (lossless : (e.play (.call call)).path.lost ≤ e.path.lost) :
    ∀ t ∈ (e.play (.call call)).trials, t.fate ≠ .lost := by
  change (e.follow _ _).path.lost ≤ e.path.lost at lossless
  show ∀ t ∈ (e.follow _ _).trials, t.fate ≠ .lost
  generalize (e.session.perform call).session = after at lossless ⊢
  generalize (e.session.perform call).answer = answer at lossless ⊢
  cases answer with
  | probe probe =>
    cases probe with
    | none => exact unlost
    | some probe => exact send_unlost unlost lossless
  | _ => exact unlost

theorem play_latest (e : Exchange σ) (call : Call) :
    (e.play (.call call)).trials.head?.map Trial.probe =
      (e.session.event call).issued?.or (e.trials.head?.map Trial.probe) := by
  cases call with
  | tick now rto =>
    rw [Session.event_issued]
    show (e.follow _ (.probe (e.session.tick now rto).answer)).trials.head?.map Trial.probe = _
    cases (e.session.tick now rto).answer with
    | none => rfl
    | some probe => rfl
  | reply reply now =>
    simp only [Session.event]
    split <;> rfl
  | restart now => rfl
  | setFragment size => rfl

omit [RandomSource σ] in
theorem Recorded.oversize_iff {e : Exchange σ} (h : e.Recorded) {t : Trial} (ht : t ∈ e.trials)
    (hleg : t.leg = e.leg) :
    t.fate = .oversize ↔ ¬e.path.framing.Fits e.path.mtu t.probe.size := by
  rw [h.oversize t ht hleg, h.size t ht, Framing.fits_iff, Nat.not_le]

/-- No probe is given up that the path carries. -/
theorem Recorded.expired_unfit {e : Exchange σ} (h : e.Recorded)
    (unlost : ∀ t ∈ e.trials, t.fate ≠ .lost) {call : Call} (patient : e.Patient (.call call))
    {probe : Outstanding} (hev : e.session.event call = .expired probe) :
    ¬e.path.framing.Fits e.path.mtu probe.candidate := by
  obtain ⟨now, rto, rfl, ho, ht⟩ := Session.event_expired hev
  have unanswered : ¬e.LatestAnswered := by
    intro ha
    have := patient probe ho ha
    omega
  obtain ⟨t, hmem, hfate, hleg, hsize⟩ := h.latest_oversize unlost unanswered ho
  rw [← hsize]
  exact (h.oversize_iff hmem hleg).mp hfate

theorem Recorded.confirmed_fits {e : Exchange σ} (h : e.Recorded)
    (distinct : (e.trials.map fun t => t.probe.token).Nodup) {call : Call}
    (patient : e.Patient (.call call)) {reply : Reply}
    (hev : e.session.event call = .confirmed reply) :
    e.path.framing.Fits e.path.mtu reply.size ∧
      ∃ probe, e.trials.head?.map Trial.probe = some probe ∧ probe.size = reply.size := by
  obtain ⟨now, rfl, hexp⟩ := Session.event_confirmed hev
  obtain ⟨t, hhead, hfate, hleg, rfl⟩ := h.expected_latest distinct hexp patient
  refine ⟨?_, t.probe, ?_, rfl⟩
  · by_contra hunfit
    have hover := (h.oversize_iff (List.mem_of_head? hhead) hleg).mpr hunfit
    rw [hfate] at hover
    cases hover
  · exact congrArg (Option.map Trial.probe) hhead

theorem Recorded.truthful {e : Exchange σ} (h : e.Recorded)
    (unlost : ∀ t ∈ e.trials, t.fate ≠ .lost)
    (distinct : (e.trials.map fun t => t.probe.token).Nodup) {call : Call}
    (patient : e.Patient (.call call)) :
    (∀ reply ∈ (e.session.event call).confirmed?,
      ∀ probe ∈ e.trials.head?.map Trial.probe, probe.size = reply.size) ∧
      (e.session.event call).Truthful (e.path.framing.Fits e.path.mtu) := by
  cases hev : e.session.event call with
  | expired probe => exact ⟨nofun, h.expired_unfit unlost patient hev⟩
  | confirmed reply =>
    obtain ⟨hfits, latest, hlatest, hsize⟩ := h.confirmed_fits distinct patient hev
    refine ⟨?_, hfits⟩
    intro r hr probe hprobe
    cases Option.some.inj hr
    cases Option.some.inj (hlatest.symm.trans hprobe)
    exact hsize
  | quiet => exact ⟨nofun, trivial⟩
  | searched issued => exact ⟨nofun, trivial⟩
  | restarted => exact ⟨nofun, trivial⟩

/-- So the session hears nothing but the truth about the path. -/
theorem Undisturbed.truthful {framing : Framing} {mtu : Nat} {e : Exchange σ} {calls : List Call}
    (h : e.Undisturbed calls) (record : e.Recorded) (unlost : ∀ t ∈ e.trials, t.fate ≠ .lost)
    (hframing : e.path.framing = framing) (hmtu : e.path.mtu = mtu) :
    Confirms (· = ·) (e.trials.head?.map Trial.probe) (e.session.events calls) ∧
      ∀ ev ∈ e.session.events calls, ev.Truthful (framing.Fits mtu) := by
  -- The head of the trials stands for the latest probe, so the induction runs over the exchange.
  induction calls generalizing e with
  | nil => exact ⟨trivial, nofun⟩
  | cons call calls ih =>
    have patient := h.patient.1
    have record' := record.play patient.possible
    have hframing' : (e.play (.call call)).path.framing = framing := by
      rw [record'.framing, play_config, ← record.framing, hframing]
    have hmtu' : (e.play (.call call)).path.mtu = mtu := (follow_path_mtu _ _ _).trans hmtu
    obtain ⟨honest, truthful⟩ :=
      ih h.next record' (play_unlost unlost (Nat.le_of_eq h.play_lost)) hframing' hmtu'
    have hsession : (e.play (.call call)).session = (e.session.perform call).session :=
      follow_session _ _ _
    rw [hsession] at honest truthful
    rw [play_latest] at honest
    obtain ⟨hsize, htrue⟩ := record.truthful unlost h.distinct_start patient
    rw [hframing, hmtu] at htrue
    exact ⟨⟨hsize, honest⟩, List.forall_mem_cons.mpr ⟨htrue, truthful⟩⟩

theorem Undisturbed.follows {config : Config} {path : Path} {now : Int} {source : σ}
    {calls : List Call} (h : (start config path now source).Undisturbed calls)
    (framing : path.framing = config.framing) :
    (Session.start config now source).Follows (config.framing.Fits path.mtu) calls := by
  obtain ⟨honest, truthful⟩ :=
    h.truthful (start_recorded config now source framing) nofun framing rfl
  exact (Session.start_coherent config now source).follows nofun h.steady honest truthful

/-- On a path that loses nothing but oversize datagrams, a session is the plain binary search: the
probes that it issues and the bounds that they leave are the first rounds of that search. The times
of its calls, delays and repetitions of replies, the interval and the source of tokens do not show
in them; a second run goes the same way, and to the same end. -/
theorem undisturbed_run_searches {config : Config} {path : Path}
    (framing : path.framing = config.framing) {now : Int} {source : σ} {calls : List Call}
    (run : (start config path now source).Undisturbed calls) :
    let s := Session.start config now source
    let rounds (n : Nat) :=
      Range.search (config.framing.Fits path.mtu) config.threshold.toNat n config.range
    (s.probes calls).map Probe.size =
        (rounds ((s.narrowings calls).length + (s.after calls).waiting.length)).map Round.size ∧
      s.narrowings calls = (rounds (s.narrowings calls).length).map Round.range ∧
      ∀ {τ : Type} [RandomSource τ] (interval : Int64) (path' : Path) (now' : Int) (source' : τ)
        (calls' : List Call), path'.framing = config.framing → path'.mtu = path.mtu →
          (start { config with interval } path' now' source').Undisturbed calls' →
            let s' := Session.start { config with interval } now' source'
            ((s.probes calls).map Probe.size <+: (s'.probes calls').map Probe.size ∨
              (s'.probes calls').map Probe.size <+: (s.probes calls).map Probe.size) ∧
            ((s.after calls).phase = .converged → (s'.after calls').phase = .converged →
              (s.probes calls).map Probe.size = (s'.probes calls').map Probe.size ∧
                s.narrowings calls = s'.narrowings calls' ∧
                (s.after calls).low = (s'.after calls').low ∧
                (s.probes calls ≠ [] → (s.after calls).high = (s'.after calls').high)) := by
  intro s rounds
  have h := run.follows framing
  have hs : s.Coherent := Session.start_coherent config now source
  have hrange : s.range = config.range := Session.start_range config now source
  have hsizes := h.sizes
  have hbounds := h.bounds
  rw [hrange] at hsizes hbounds
  refine ⟨hsizes, hbounds, ?_⟩
  intro τ _ interval path' now' source' calls' hframing hmtu run' s'
  -- Neither the interval nor the path's loss process enters the search that a run follows.
  have h' := run'.follows hframing
  rw [hmtu] at h'
  have hs' : s'.Coherent := Session.start_coherent _ now' source'
  have hsame : s.range = s'.range := hrange.trans (Session.start_range _ now' source').symm
  refine ⟨h.sizes_comparable h' hsame rfl, ?_⟩
  intro hphase hphase'
  obtain ⟨hprobes, hnarrowings, hlast⟩ := h.same_end h' hsame rfl hs hs' hphase hphase'
  refine ⟨hprobes, hnarrowings, congrArg Range.low hlast, ?_⟩
  intro hissued
  have hissued' : s'.probes calls' ≠ [] := by
    intro hnil
    apply hissued
    apply List.map_eq_nil_iff.mp
    calc (s.probes calls).map Probe.size
      _ = (s'.probes calls').map Probe.size := hprobes
      _ = [] := by rw [hnil]; rfl
  rw [Session.start_after_range config now source run.steady hissued,
    Session.start_after_range _ now' source' run'.steady hissued'] at hlast
  exact congrArg Range.high hlast

/-- From 100 to 140 on a path of 130 bytes. The second run has another interval, other tokens and
slower replies, and the reply for 120 bytes comes three times. -/
theorem undisturbed_run_searches_130 :
    let config : Config := { minSize := 100, maxSize := 140, interval := 0, threshold := 4 }
    let path : Path := { framing := {}, mtu := 130, lossRate := 0, generator := ⟨#[], 0⟩ }
    let s := Session.start config 0 ({} : CountingSource)
    let calls : List Call := [.tick 1 0, .reply ⟨120, 1000⟩ 2, .tick 3 0, .reply ⟨130, 1001⟩ 4,
      .tick 5 0, .tick 200000006 0]
    let s' := Session.start { config with interval := 1 } 1000 (⟨[7, 3, 9], 0, 0⟩ : ScriptedSource)
    let calls' : List Call := [.tick 1000500 0, .tick 1001000 0, .tick 300000000 500000000,
      .reply ⟨120, 7⟩ 300000001, .reply ⟨120, 7⟩ 300000002, .tick 302000000 0,
      .reply ⟨130, 3⟩ 302000001, .tick 304000000 0, .reply ⟨120, 7⟩ 304000001, .tick 504000001 0]
    config.range.search (config.framing.Fits path.mtu) config.threshold.toNat 3 =
        [⟨120, 120, 140⟩, ⟨130, 130, 140⟩, ⟨135, 130, 134⟩] ∧
      (s.probes calls).map Probe.size = [120, 130, 135] ∧
      (s'.probes calls').map Probe.size = [120, 130, 135] ∧
      s'.narrowings calls' = [⟨120, 140⟩, ⟨130, 140⟩, ⟨130, 134⟩] ∧
      (s'.after calls').low = 130 ∧ (s'.after calls').high = 134 := by
  intro config path s calls s' calls'
  have run : (start config path 0 ({} : CountingSource)).Undisturbed calls :=
    ⟨by decide +kernel, by decide, by decide +kernel, by decide +kernel⟩
  have run' : (start { config with interval := 1 } path 1000
      (⟨[7, 3, 9], 0, 0⟩ : ScriptedSource)).Undisturbed calls' :=
    ⟨by decide +kernel, by decide, by decide +kernel, by decide +kernel⟩
  obtain ⟨hsizes, hbounds, hagree⟩ := undisturbed_run_searches rfl run
  obtain ⟨_, hend⟩ := hagree 1 path 1000 (⟨[7, 3, 9], 0, 0⟩ : ScriptedSource) calls' rfl rfl run'
  obtain ⟨hsame, hnarrowings, hlow, hhigh⟩ := hend (by decide +kernel) (by decide +kernel)
  have hrounds : config.range.search (config.framing.Fits path.mtu) config.threshold.toNat 3 =
      [⟨120, 120, 140⟩, ⟨130, 130, 140⟩, ⟨135, 130, 134⟩] := by decide
  have hcount : (s.narrowings calls).length = 3 := by decide +kernel
  have hidle : (s.after calls).waiting = [] := by decide +kernel
  have hissued : s.probes calls ≠ [] := by decide +kernel
  rw [hcount, hidle] at hsizes
  rw [hcount] at hbounds
  have hprobes : (s.probes calls).map Probe.size = [120, 130, 135] :=
    hsizes.trans (congrArg (List.map Round.size) hrounds)
  have hleft : s.narrowings calls = [⟨120, 140⟩, ⟨130, 140⟩, ⟨130, 134⟩] :=
    hbounds.trans (congrArg (List.map Round.range) hrounds)
  refine ⟨hrounds, hprobes, hsame.symm.trans hprobes, hnarrowings.symm.trans hleft,
    hlow.symm.trans ?_, (hhigh hissued).symm.trans ?_⟩
  · decide +kernel
  · decide +kernel

end Exchange

end PathMtu
