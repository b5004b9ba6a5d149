import PathMtu.Proofs.Halving
import PathMtu.Proofs.Validation

namespace PathMtu

theorem Confirms.mono {rel weaker : Nat → Nat → Prop} (imp : ∀ m n, rel m n → weaker m n)
    {latest : Option Probe} {events : List Event} (h : Confirms rel latest events) :
    Confirms weaker latest events := by
  induction events generalizing latest with
  | nil => trivial
  | cons e events ih =>
    exact ⟨fun reply hreply probe hprobe => imp _ _ (h.1 reply hreply probe hprobe), ih h.2⟩

namespace Session

variable {σ : Type} [RandomSource σ]

/-- The probes that a run issues, each with the gap that the search had at that time. -/
def issues (s : Session σ) (calls : List Call) : List (Probe × Nat) :=
  (s.history calls).filterMap fun entry =>
    entry.event.issued?.map fun probe => (probe, entry.session.gap)

theorem issues_concat (s : Session σ) (calls : List Call) (call : Call) :
    s.issues (calls ++ [call]) = s.issues calls ++
      (((s.after calls).event call).issued?.map fun probe =>
        (probe, ((s.after calls).perform call).session.gap)).toList := by
  unfold issues
  rw [history_append, List.filterMap_append]
  rfl

theorem start_latest_issue (config : Config) (now : Int) (source : σ) {calls : List Call}
    {o : Outstanding} (ho : ((start config now source).after calls).outstanding = some o) :
    ∃ probe, ((start config now source).issues calls).getLast? =
        some (probe, ((start config now source).after calls).gap) ∧
      probe.token = o.token ∧ probe.size = o.candidate := by
  induction calls using List.reverseRecOn with
  | nil => cases ho
  | append_singleton calls call ih =>
    rw [issues_concat, after_append] at *
    generalize (start config now source).issues calls = issued at ih ⊢
    generalize (start config now source).after calls = s at ih ho ⊢
    have hc := event_case s call
    change (s.perform call).session.outstanding = some o at ho
    show ∃ probe, (issued ++ _).getLast? = some (probe, (s.perform call).session.gap) ∧ _
    generalize s.event call = e at hc ⊢
    generalize (s.perform call).session = after at ho hc ⊢
    cases hc with
    | quiet _ low high hsame =>
      -- The bounds do not move while the probe waits.
      obtain ⟨probe, hlast, htoken, hsize⟩ := ih (hsame ▸ ho)
      refine ⟨probe, ?_, htoken, hsize⟩
      unfold gap at hlast ⊢
      rw [low, high, ← hlast]
      exact congrArg List.getLast? (List.append_nil _)
    | looked _ _ _ _ _ hnone =>
      rw [hnone] at ho
      cases ho
    | @issued now _ _ hopen =>
      cases Option.some.inj ho
      exact ⟨_, List.getLast?_concat, rfl, issue_size hopen (clamp_high_le_cap hopen) now⟩
    | expired => cases ho
    | confirmed => cases ho
    | restarted => cases ho

omit [RandomSource σ] in
theorem expects_of_token {s : Session σ} {o : Outstanding} (ho : s.outstanding = some o)
    {probe : Probe} (htoken : probe.token = o.token) : s.Expects probe.reply := by
  show s.outstanding.map Outstanding.token = some probe.token
  rw [ho, htoken]
  rfl

theorem tick_gap_lt {s : Session σ} (hs : s.Coherent) (positive : 0 < s.low) {o : Outstanding}
    (ho : s.outstanding = some o) {now rto : Int}
    (resolved : (s.tick now rto).session.outstanding = none) :
    (s.tick now rto).session.gap < s.gap := by
  have hc := tick_case s now rto
  generalize (s.tick now rto).session = after at hc resolved ⊢
  generalize (s.tick now rto).answer = answer at hc
  cases hc with
  | disabled => rw [ho] at resolved; cases resolved
  | waiting => rw [ho] at resolved; cases resolved
  | expired _ hsome _ =>
    cases Option.some.inj (hsome.symm.trans ho)
    have hhalf := hs.expire_gap_le_half ho (hs.candidate_pos positive ho) now
    have hopened := (hs.opened_gap ho).2
    omega
  | settled _ hnone _ => rw [ho] at hnone; cases hnone
  | early _ hnone _ _ => rw [ho] at hnone; cases hnone
  | issued _ hnone _ _ => rw [ho] at hnone; cases hnone

/-- A probe that is given up always narrows the range. One that is answered does so exactly if the
range held more than one size above the lower bound when the probe was issued, as it does with every
threshold but zero. -/
theorem resolution_narrows_iff {config : Config} (accepted : config.validate = .ok ()) (now : Int)
    (source : σ) (calls : List Call) :
    let s := (start config now source).after calls
    (s.outstanding ≠ none → ∃ probe gap,
      ((start config now source).issues calls).getLast? = some (probe, gap) ∧
        config.threshold.toNat < gap ∧
        (∀ later, (s.receive probe.reply later).answer = true ∧
          ((s.receive probe.reply later).session.gap < gap ↔ 1 < gap)) ∧
        ∀ later rto, (s.tick later rto).session.outstanding = none →
          (s.tick later rto).session.gap < gap) ∧
      (s.outstanding = none → 1 ≤ config.threshold.toNat →
        ∀ more : List Call, (∀ call ∈ more, ¬call.Restarts) →
          Confirms (· = ·) none (s.events more) → (s.probes more).length ≤ s.gap) := by
  intro s
  have hconfig : s.config = config := start_after_config config now source calls
  have hs : s.Coherent := after_coherent (start_coherent config now source) calls
  have hmin := (Config.validate_eq_ok.mp accepted).minSize_pos
  constructor
  · intro hwaits
    obtain ⟨o, ho⟩ := Option.ne_none_iff_exists'.mp hwaits
    obtain ⟨probe, hlast, htoken, hsize⟩ := start_latest_issue config now source ho
    have hlowest : config.lowest ≤ s.low := by
      have := (start_after_bounded config now source calls).lowest_le
      rwa [start_after_config] at this
    have hopened := (hs.opened_gap ho).2
    rw [hconfig] at hopened
    refine ⟨probe, s.gap, hlast, hopened, ?_, ?_⟩
    · intro later
      have hexp := expects_of_token ho htoken
      have hgap : (s.receive probe.reply later).session.gap = (s.gap + 1) / 2 := by
        rw [receive_of_expects hexp]
        show (s.confirm probe.size later).gap = (s.gap + 1) / 2
        rw [hsize]
        exact hs.confirm_gap ho later
      refine ⟨?_, by omega⟩
      unfold receive
      rw [if_pos hexp]
    · intro later rto resolved
      exact tick_gap_lt hs (Nat.lt_of_lt_of_le hmin hlowest) ho resolved
  · intro idle threshold more steady honest
    have h : s.Continues none := start_after_continues hmin now source idle
    have hpow : s.gap ≤ s.config.threshold.toNat * 2 ^ s.gap := by
      rw [hconfig]
      calc s.gap ≤ 2 ^ s.gap := Nat.le_of_lt Nat.lt_two_pow_self
        _ ≤ config.threshold.toNat * 2 ^ s.gap := Nat.le_mul_of_pos_left _ threshold
    have hcount := h.probes_length_le steady (honest.mono fun _ _ => Nat.le_of_eq) hpow
    omega

theorem resolution_narrows_102 :
    let config : Config := { minSize := 100, maxSize := 104, interval := 0, threshold := 1 }
    let first := start config 0 ({} : CountingSource)
    let s := first.after [.tick 1 0]
    config.validate = .ok () ∧ (first.issues [.tick 1 0]).map Prod.snd = [4] ∧
      (s.receive ⟨102, 1000⟩ 2).session.gap < 4 ∧ (s.tick 200000002 0).session.gap < 4 ∧
      (first.probes [.tick 1 0, .reply ⟨102, 1000⟩ 2, .tick 3 0]).length ≤ 4 := by
  intro config first s
  have accepted : config.validate = .ok () := by decide
  obtain ⟨hwaits, _⟩ := resolution_narrows_iff accepted 0 ({} : CountingSource) [.tick 1 0]
  obtain ⟨probe, gap, hlast, _, hreply, htick⟩ := hwaits (by decide +kernel)
  have hissue : (first.issues [.tick 1 0]).getLast?.map (fun issue => (issue.1.reply, issue.2)) =
      some (⟨102, 1000⟩, 4) := by decide +kernel
  rw [show (first.issues [.tick 1 0]).getLast? = some (probe, gap) from hlast] at hissue
  obtain ⟨hprobe, hgap⟩ := Prod.mk.inj (Option.some.inj hissue)
  subst hgap
  have hnarrow := (hreply 2).2.mpr (by decide)
  rw [show probe.reply = ⟨102, 1000⟩ from hprobe] at hnarrow
  obtain ⟨_, hends⟩ := resolution_narrows_iff accepted 0 ({} : CountingSource) []
  have hfew := hends rfl (by decide) [.tick 1 0, .reply ⟨102, 1000⟩ 2, .tick 3 0] (by decide)
    (by decide +kernel)
  exact ⟨accepted, by decide +kernel, hnarrow, htick _ _ (by decide +kernel), hfew⟩

/-- With threshold zero two sizes are left, and the smaller one is next. -/
structure Stalled (s : Session σ) : Prop where
  enabled : s.config.enabled = true
  threshold : s.config.threshold.toNat = 0
  idle : s.outstanding = none
  high : s.high = s.low + 1
  capped : s.high ≤ s.config.cap

/-- Once the probe for the smaller size is answered, the search stands where it was. -/
theorem Stalled.again {s : Session σ} (h : s.Stalled) :
    ∃ calls probe reply, (∀ call ∈ calls, ¬call.Restarts) ∧ (s.after calls).Stalled ∧
      s.events calls = [.searched (some probe), .confirmed reply] ∧ probe.size = reply.size := by
  have hhigh := h.high
  have hcapped := h.capped
  have hclamp : s.clamp = s :=
    Clamped.clamp_eq (Nat.le_trans hcapped (Nat.le_max_left _ _)) (by omega)
  have hopen : ¬s.clamp.Converged := by
    have := h.threshold
    rw [hclamp]
    unfold Converged
    omega
  let now := s.lastActivity + s.config.intervalNanos
  have hdue : s.config.intervalNanos ≤ now - s.lastActivity := by omega
  have hissued : TickCase s now 0 _ _ := .issued h.enabled h.idle hopen hdue
  obtain ⟨hsession, hanswer⟩ := hissued.eq
  rw [hclamp] at hsession hanswer hopen
  have hsize := issue_size hopen hcapped now
  have hmid : s.midpoint = s.low := by
    unfold midpoint
    omega
  have hexp : (s.issue now).session.Expects (s.issue now).answer.reply := rfl
  refine ⟨[.tick now 0, .reply (s.issue now).answer.reply now], (s.issue now).answer,
    (s.issue now).answer.reply, ?_, ?_, ?_, rfl⟩
  · exact List.forall_mem_cons.mpr ⟨id, List.forall_mem_singleton.mpr id⟩
  · show ((s.tick now 0).session.receive (s.issue now).answer.reply now).session.Stalled
    rw [hsession, receive_of_expects hexp]
    show (Session.confirm _ (s.issue now).answer.size now).Stalled
    rw [hsize, hmid]
    refine ⟨h.enabled, h.threshold, rfl, ?_, ?_⟩
    · show max s.high (max s.low s.low) = max s.low s.low + 1
      omega
    · show max s.high (max s.low s.low) ≤ s.config.cap
      omega
  · have hsearched : s.event (.tick now 0) = .searched (some (s.issue now).answer) := by
      simp only [event, h.enabled, h.idle, hanswer, if_true]
    have hconfirmed : (s.tick now 0).session.event (.reply (s.issue now).answer.reply now) =
        .confirmed (s.issue now).answer.reply := by
      rw [hsession]
      simp only [event, receive, if_pos hexp, if_true]
    rw [events_cons, hsearched]
    exact congrArg (fun e => [Event.searched (some (s.issue now).answer), e]) hconfirmed

/-- So it never ends, although its peer answers each probe with the size that was asked for. -/
theorem Stalled.endless {s : Session σ} (h : s.Stalled) (latest : Option Probe) (n : Nat) :
    ∃ calls, (∀ call ∈ calls, ¬call.Restarts) ∧ Confirms (· = ·) latest (s.events calls) ∧
      (s.probes calls).length = n := by
  induction n generalizing s latest with
  | zero => exact ⟨[], nofun, trivial, rfl⟩
  | succ n ih =>
    obtain ⟨calls, probe, reply, steady, hstalled, hevents, hsize⟩ := h.again
    obtain ⟨more, steady', honest, hcount⟩ := ih hstalled (some probe)
    refine ⟨calls ++ more, List.forall_mem_append.mpr ⟨steady, steady'⟩, ?_, ?_⟩
    · rw [events_append, hevents]
      refine ⟨nofun, ?_, honest⟩
      intro r hr p hp
      cases Option.some.inj hr
      cases Option.some.inj hp
      exact hsize
    · have hone : s.probes calls = [probe] := by
        unfold probes
        rw [hevents]
        rfl
      rw [probes_append, hone, List.length_append, hcount, List.length_singleton, Nat.add_comm]

/-- From 1000 to 1001 with threshold zero. The probe for 1000 bytes is answered and the gap is still
one; there are runs of that kind with any number of probes. -/
theorem confirmation_keeps_gap :
    let config : Config := { minSize := 1000, maxSize := 1001, interval := 0, threshold := 0 }
    let first := start config 0 ({} : CountingSource)
    let s := first.after [.tick 1 0]
    config.validate = .ok () ∧ (first.issues [.tick 1 0]).map Prod.snd = [1] ∧
      s.outstanding = some ⟨1000, 1000, 1⟩ ∧ (s.receive ⟨1000, 1000⟩ 2).answer = true ∧
      (s.receive ⟨1000, 1000⟩ 2).session.gap = 1 ∧
      ∀ n, ∃ calls, (∀ call ∈ calls, ¬call.Restarts) ∧
        Confirms (· = ·) none (first.events calls) ∧ (first.probes calls).length = n := by
  intro config first s
  have stalled : first.Stalled := ⟨rfl, rfl, rfl, rfl, by decide⟩
  exact ⟨by decide, by decide +kernel, by decide +kernel, by decide +kernel, by decide +kernel,
    stalled.endless none⟩

end Session

end PathMtu
