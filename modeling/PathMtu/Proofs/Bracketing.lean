import PathMtu.Proofs.ConfirmedBound
import PathMtu.Random.Predictable

namespace PathMtu

/-- The largest size that a search with these parameters can confirm on a path with this MTU. -/
def Config.limit (config : Config) (mtu : Nat) : Nat :=
  max config.lowest (min mtu (min config.maxSize.toNat config.cap))

namespace Exchange

variable {σ : Type}

/-- The limit of the path lies between the bounds, and no probe was lost but for its size. -/
structure Bracketed (config : Config) (mtu : Nat) (e : Exchange σ) : Prop where
  sameConfig : e.session.config = config
  sameMtu : e.path.mtu = mtu
  sameLeg : ∀ t ∈ e.trials, t.leg = e.leg
  unlost : ∀ t ∈ e.trials, t.fate ≠ .lost
  delivered : ∀ t ∈ e.trials, t.fate = .delivered → t.probe.size ≤ config.limit mtu
  lowest : config.lowest ≤ e.session.low
  low : e.session.low ≤ config.limit mtu
  high : config.limit mtu ≤ e.session.high
  highest : e.session.high ≤ config.highest

theorem limit_le_highest (config : Config) (mtu : Nat) : config.limit mtu ≤ config.highest := by
  have hlowest : config.lowest ≤ config.highest := Nat.le_max_right _ _
  have hmax : config.maxSize.toNat ≤ config.highest := Nat.le_max_left _ _
  unfold Config.limit
  omega

theorem start_bracketed (config : Config) (path : Path) (now : Int) (source : σ) :
    (start config path now source).Bracketed config path.mtu := by
  refine ⟨rfl, rfl, ?_, ?_, ?_, Nat.le_refl _, Nat.le_max_left _ _, limit_le_highest _ _,
    Nat.le_refl _⟩
  · intro t ht; cases ht
  · intro t ht; cases ht
  · intro t ht; cases ht

theorem Bracketed.keep {config : Config} {mtu : Nat} {e : Exchange σ} (h : e.Bracketed config mtu)
    {after : Session σ} (same : after.config = e.session.config)
    (lowest : config.lowest ≤ after.low) (low : after.low ≤ config.limit mtu)
    (high : config.limit mtu ≤ after.high) (highest : after.high ≤ config.highest) :
    ({ e with session := after } : Exchange σ).Bracketed config mtu :=
  ⟨same.trans h.sameConfig, h.sameMtu, h.sameLeg, h.unlost, h.delivered, lowest, low, high, highest⟩

theorem Bracketed.clamp {config : Config} {mtu : Nat} {e : Exchange σ}
    (h : e.Bracketed config mtu) :
    config.limit mtu ≤ e.session.clamp.high ∧ e.session.clamp.high ≤ config.highest := by
  have hlow := h.low
  have hhigh := h.high
  have hlowest := h.lowest
  have hle := Session.clamp_high_le (Nat.le_trans hlow hhigh)
  have hcap : config.limit mtu ≤ max config.lowest config.cap := by
    unfold Config.limit
    omega
  have heq : e.session.config.cap = config.cap := congrArg Config.cap h.sameConfig
  refine ⟨?_, Nat.le_trans hle h.highest⟩
  rcases Session.clamp_high e.session with ⟨_, hclamp⟩ | ⟨_, hclamp⟩ <;> omega

/-- A probe of a size that fits the path and the configuration is within the limit. -/
theorem size_le_limit {config : Config} {mtu size : Nat} (hmtu : size ≤ mtu)
    (hcap : size ≤ config.cap) (hhighest : size < config.highest) : size ≤ config.limit mtu := by
  have hmax : config.highest = max config.maxSize.toNat config.lowest := rfl
  unfold Config.limit
  omega

/-- A probe that is given up was larger than the path's MTU: it was not answered, nor lost at
random, and the MTU holds the framing of every probe. -/
theorem Recorded.mtu_lt_candidate {e : Exchange σ} (h : e.Recorded)
    (fits : e.path.framing.overhead + 1 ≤ e.path.mtu) (unlost : ∀ t ∈ e.trials, t.fate ≠ .lost)
    (unanswered : ¬e.LatestAnswered) {probe : Outstanding}
    (hp : e.session.outstanding = some probe) : e.path.mtu < probe.candidate := by
  obtain ⟨t, hmem, hfate, hleg, hsize⟩ := h.latest_oversize unlost unanswered hp
  have hlt := (h.oversize t hmem hleg).mp hfate
  have henc := h.size t hmem
  omega

theorem Bracketed.expire {config : Config} {mtu : Nat} {e : Exchange σ}
    (h : e.Bracketed config mtu) (record : e.Recorded)
    (fits : e.path.framing.overhead + 1 ≤ e.path.mtu) (unanswered : ¬e.LatestAnswered)
    {probe : Outstanding} (hp : e.session.outstanding = some probe) (now : Int) :
    ({ e with session := e.session.expire probe now } : Exchange σ).Bracketed config mtu := by
  have hlow := h.low
  have hhigh := h.high
  have hlowest := h.lowest
  have hmtu := h.sameMtu
  have hlt := record.mtu_lt_candidate fits h.unlost unanswered hp
  have hle := Session.expire_high_le record.coherent.ordered probe now
  have hbound : config.limit mtu ≤ max config.lowest mtu := by
    unfold Config.limit
    omega
  refine h.keep rfl hlowest hlow ?_ (Nat.le_trans hle h.highest)
  show config.limit mtu ≤ max
    (if probe.candidate = 0 then e.session.high else min e.session.high (probe.candidate - 1))
    e.session.low
  split <;> omega

theorem Bracketed.send {config : Config} {mtu : Nat} {e : Exchange σ} (h : e.Bracketed config mtu)
    {after : Session σ} {probe : Probe} (same : after.config = e.session.config)
    (lowest : config.lowest ≤ after.low) (low : after.low ≤ config.limit mtu)
    (high : config.limit mtu ≤ after.high) (highest : after.high ≤ config.highest)
    (delivered : probe.encodedSize e.path.framing ≤ mtu → probe.size ≤ config.limit mtu)
    (lossless : (({ e with session := after } : Exchange σ).send probe).path.lost ≤ e.path.lost) :
    (({ e with session := after } : Exchange σ).send probe).Bracketed config mtu := by
  refine ⟨same.trans h.sameConfig, ?_, ?_, ?_, ?_, lowest, low, high, highest⟩
  · exact (Path.advance_mtu _ _).trans h.sameMtu
  · intro t ht
    rcases List.mem_cons.mp ht with rfl | ht
    · rfl
    · exact h.sameLeg t ht
  · exact send_unlost h.unlost lossless
  · intro t ht hfate
    rcases List.mem_cons.mp ht with rfl | ht
    · apply delivered
      by_cases hlt : e.path.mtu < probe.encodedSize e.path.framing
      · have hover := Path.fate_eq_oversize.mpr hlt
        rw [show e.path.fate probe = .delivered from hfate] at hover
        cases hover
      · have hmtu := h.sameMtu
        omega
    · exact h.delivered t ht hfate

variable [RandomSource σ]

theorem Bracketed.tick {config : Config} {mtu : Nat} {e : Exchange σ} (h : e.Bracketed config mtu)
    (record : e.Recorded) (fits : e.path.framing.overhead + 1 ≤ e.path.mtu) {now rto : Int}
    {after : Session σ} {answer : Option Probe}
    (patient : e.Patient (.call (.tick now rto)))
    (hc : e.session.TickCase now rto after answer)
    (lossless : (e.follow after (.probe answer)).path.lost ≤ e.path.lost) :
    (e.follow after (.probe answer)).Bracketed config mtu := by
  have hlow := h.low
  have hlowest := h.lowest
  obtain ⟨hclamp, hclamped⟩ := h.clamp
  cases hc with
  | disabled => exact h
  | waiting => exact h
  | expired _ ho ht =>
    have unanswered : ¬e.LatestAnswered := by
      intro ha
      have := patient _ ho ha
      omega
    exact h.expire record fits unanswered ho now
  | settled => exact h.keep rfl hlowest hlow hclamp hclamped
  | early => exact h.keep rfl hlowest hlow hclamp hclamped
  | issued _ _ opened _ =>
    have hcap := Session.clamp_high_le_cap opened
    have hsize := Session.issue_size opened hcap now
    have hmid := Session.midpoint_lt_high opened
    have henc := Session.issue_encodedSize e.session.clamp now
    have hframing : e.session.clamp.config.framing = e.path.framing := record.framing.symm
    have heq : e.session.config.cap = config.cap := congrArg Config.cap h.sameConfig
    rw [hframing] at henc
    refine h.send rfl hlowest hlow hclamp hclamped ?_ lossless
    intro hle
    exact size_le_limit (by omega) (by omega) (by omega)

theorem Bracketed.call {config : Config} {mtu : Nat} {e : Exchange σ} (h : e.Bracketed config mtu)
    (record : e.Recorded) (fits : e.path.framing.overhead + 1 ≤ e.path.mtu) {call : Call}
    {after : Session σ} {answer : Answer} (patient : e.Patient (.call call))
    (hc : e.session.CallCase call after answer)
    (lossless : (e.follow after answer).path.lost ≤ e.path.lost) :
    (e.follow after answer).Bracketed config mtu := by
  have hlow := h.low
  have hlowest := h.lowest
  have hhigh := h.high
  have hhighest := h.highest
  have hlimit := limit_le_highest config mtu
  cases hc with
  | tick ht => exact h.tick record fits patient ht lossless
  | @accepted reply now =>
    obtain ⟨t, ht, hfate, hreply⟩ := patient
    have hsize : reply.size ≤ config.limit mtu := by
      rw [← hreply]
      exact h.delivered t ht hfate
    refine h.keep rfl ?_ ?_ ?_ ?_
    · show config.lowest ≤ max e.session.low reply.size
      omega
    · show max e.session.low reply.size ≤ config.limit mtu
      omega
    · show config.limit mtu ≤ max e.session.high (max e.session.low reply.size)
      omega
    · show max e.session.high (max e.session.low reply.size) ≤ config.highest
      omega
  | rejected => exact h.keep rfl hlowest hlow hhigh hhighest
  | restarted =>
    have hlow' : e.session.config.lowest = config.lowest := congrArg Config.lowest h.sameConfig
    have hhigh' : e.session.config.highest = config.highest := congrArg Config.highest h.sameConfig
    exact h.keep rfl (Nat.le_of_eq hlow'.symm) (Nat.le_trans (Nat.le_of_eq hlow') (by omega))
      (Nat.le_trans hlimit (Nat.le_of_eq hhigh'.symm)) (Nat.le_of_eq hhigh')
  | resized => exact h.keep rfl hlowest hlow hhigh hhighest

theorem lost_le_play {e : Exchange σ} {move : Move} (patient : e.Patient move) :
    e.path.lost ≤ (e.play move).path.lost := by
  cases move with
  | reroute path now => exact patient.elim
  | call call =>
    show e.path.lost ≤ (e.follow _ _).path.lost
    generalize (e.session.perform call).session = after
    generalize (e.session.perform call).answer = answer
    cases answer with
    | probe probe =>
      cases probe with
      | none => exact Nat.le_refl _
      | some probe => exact Path.lost_le_advance _ _
    | _ => exact Nat.le_refl _

theorem Bracketed.play {config : Config} {mtu : Nat} {e : Exchange σ} (h : e.Bracketed config mtu)
    (record : e.Recorded) (fits : e.path.framing.overhead + 1 ≤ e.path.mtu) {move : Move}
    (patient : e.Patient move) (lossless : (e.play move).path.lost ≤ e.path.lost) :
    (e.play move).Bracketed config mtu := by
  cases move with
  | reroute path now => exact patient.elim
  | call call => exact h.call record fits patient (Session.call_case e.session call) lossless

theorem Reach.lost_le {first e : Exchange σ} (run : Reach Patient first e) :
    first.path.lost ≤ e.path.lost := by
  induction run with
  | start => exact Nat.le_refl _
  | next _ patient ih => exact Nat.le_trans ih (lost_le_play patient)

/-- Along a run on one path that loses nothing at random, the path's limit stays between the
bounds. -/
theorem Reach.bracketed {config : Config} {path : Path} (framing : path.framing = config.framing)
    (fits : config.framing.overhead + 1 ≤ path.mtu) {now : Int} {source : σ} {e : Exchange σ}
    (run : Reach Patient (Exchange.start config path now source) e)
    (lossless : e.path.lost ≤ path.lost) :
    e.Bracketed config path.mtu := by
  induction run with
  | start => exact start_bracketed config path now source
  | @next e move run patient ih =>
    have hstart : path.lost ≤ e.path.lost := run.lost_le
    have hplay := lost_le_play patient
    have record := (run.mono fun _ _ => Patient.possible).recorded
      (start_recorded config now source framing)
    have before := ih (by omega)
    refine before.play record ?_ patient (by omega)
    rw [record.framing, before.sameConfig, before.sameMtu]
    exact fits

/-- On a path that loses nothing but oversize datagrams, the bounds enclose the path's limit at all
times, and a search that has converged is within the threshold below it. -/
theorem reach_limit_between_bounds {config : Config} {path : Path}
    (framing : path.framing = config.framing) (fits : config.framing.overhead + 1 ≤ path.mtu)
    {now : Int} {source : σ} {e : Exchange σ}
    (run : Reach Patient (start config path now source) e) (lossless : e.path.lost = path.lost) :
    e.session.low ≤ config.limit path.mtu ∧ config.limit path.mtu ≤ e.session.high ∧
      (e.session.phase = .converged →
        config.limit path.mtu ≤ e.session.low + config.threshold.toNat) := by
  have h := run.bracketed framing fits (Nat.le_of_eq lossless)
  refine ⟨h.low, h.high, ?_⟩
  intro hphase
  have hconverged := (Session.phase_eq_converged.mp hphase).2
  have hhigh := h.high
  have hconfig := h.sameConfig
  unfold Session.Converged at hconverged
  rw [hconfig] at hconverged
  omega

/-- A search from 100 to 140 on a path of 130 bytes: two sizes are confirmed, one of them twice
over, and a third one is given up. -/
theorem reach_limit_between_bounds_130 :
    let config : Config :=
      { minSize := 100, maxSize := 140, interval := 0, threshold := 4, fragmentSize := 100 }
    let path : Path := { framing := {}, mtu := 130, lossRate := 0, generator := ⟨#[], 0⟩ }
    let e := [Move.call (.tick 1 0), .call (.reply ⟨120, 1000⟩ 2), .call (.tick 3 0),
      .call (.reply ⟨120, 1000⟩ 4), .call (.reply ⟨130, 1001⟩ 5), .call (.tick 6 0),
      .call (.reply ⟨120, 1000⟩ 7), .call (.tick 200000007 0)].foldl play
        (start config path 0 ({} : CountingSource))
    e.path.lost = path.lost ∧ e.session.phase = .converged ∧ e.session.low = 130 ∧
      e.session.low ≤ config.limit path.mtu ∧ config.limit path.mtu ≤ e.session.high ∧
      config.limit path.mtu ≤ e.session.low + config.threshold.toNat := by
  intro config path e
  have run : Reach Patient (start config path 0 ({} : CountingSource)) e :=
    Reach.start.foldl (by decide +kernel)
  have hphase : e.session.phase = .converged := by decide +kernel
  obtain ⟨hlow, hhigh, hconverged⟩ :=
    reach_limit_between_bounds rfl (by decide) run (by decide +kernel : e.path.lost = path.lost)
  exact ⟨by decide +kernel, hphase, by decide +kernel, hlow, hhigh, hconverged hphase⟩

end Exchange

end PathMtu
