import PathMtu.Proofs.Halving

namespace PathMtu

/-- The sizes that a search has not decided: `low` is carried, and all above `high` is ruled out. -/
structure Range where
  low : Nat
  high : Nat
  deriving DecidableEq, Repr

structure Round where
  size : Nat
  range : Range
  deriving DecidableEq, Repr

namespace Range

def middle (r : Range) : Nat := (r.low + r.high) / 2

def Closed (threshold : Nat) (r : Range) : Prop := r.high - r.low ≤ threshold

instance (threshold : Nat) : DecidablePred (Closed threshold) :=
  fun _ => inferInstanceAs (Decidable (_ ≤ _))

section

variable (carried : Nat → Prop) [DecidablePred carried] (threshold : Nat)

/-- What is left once the middle was tried. The loss of size zero rules nothing out. -/
def narrow (r : Range) : Range :=
  if carried r.middle then ⟨r.middle, r.high⟩
  else if r.middle = 0 then r
  else ⟨r.low, max r.low (r.middle - 1)⟩

/-- The first rounds of the plain binary search. There are fewer if it ends before. -/
def search : Nat → Range → List Round
  | 0, _ => []
  | n + 1, r =>
    if r.Closed threshold then []
    else ⟨r.middle, r.narrow carried⟩ :: search n (r.narrow carried)

/-- The range that these rounds leave. -/
def remainder (n : Nat) (r : Range) : Range :=
  ((search carried threshold n r).getLast?.map Round.range).getD r

end

variable {carried : Nat → Prop} [DecidablePred carried] {threshold : Nat}

theorem search_succ {r : Range} (h : ¬r.Closed threshold) (n : Nat) :
    search carried threshold (n + 1) r =
      ⟨r.middle, r.narrow carried⟩ :: search carried threshold n (r.narrow carried) :=
  if_neg h

theorem search_of_closed {r : Range} (h : r.Closed threshold) (n : Nat) :
    search carried threshold n r = [] := by
  cases n with
  | zero => rfl
  | succ n => exact if_pos h

theorem remainder_succ {r : Range} (h : ¬r.Closed threshold) (n : Nat) :
    remainder carried threshold (n + 1) r = remainder carried threshold n (r.narrow carried) := by
  unfold remainder
  rw [search_succ h, List.getLast?_cons]
  cases (search carried threshold n (r.narrow carried)).getLast? <;> rfl

theorem search_prefix_of_le {m n : Nat} (hle : m ≤ n) (r : Range) :
    search carried threshold m r <+: search carried threshold n r := by
  induction m generalizing n r with
  | zero => exact List.nil_prefix
  | succ m ih =>
    obtain ⟨n, rfl⟩ := Nat.exists_eq_succ_of_ne_zero (by omega : n ≠ 0)
    by_cases h : r.Closed threshold
    · rw [search_of_closed h]
      exact List.nil_prefix
    · rw [search_succ h, search_succ h, List.prefix_cons_inj]
      exact ih (by omega) _

/-- A search whose range is closed has come to its end. -/
theorem search_end {m n : Nat} (hle : m ≤ n) {r : Range}
    (h : (remainder carried threshold m r).Closed threshold) :
    search carried threshold n r = search carried threshold m r := by
  induction m generalizing n r with
  | zero => exact search_of_closed h n
  | succ m ih =>
    obtain ⟨n, rfl⟩ := Nat.exists_eq_succ_of_ne_zero (by omega : n ≠ 0)
    by_cases hr : r.Closed threshold
    · rw [search_of_closed hr, search_of_closed hr]
    · rw [remainder_succ hr] at h
      rw [search_succ hr, search_succ hr, ih (by omega : m ≤ n) h]

theorem search_end_unique {m n : Nat} {r : Range}
    (hm : (remainder carried threshold m r).Closed threshold)
    (hn : (remainder carried threshold n r).Closed threshold) :
    search carried threshold m r = search carried threshold n r := by
  rcases Nat.le_total m n with hle | hle
  · exact (search_end hle hm).symm
  · exact search_end hle hn

end Range

/-- What the event says of the sizes that the path carries is right. -/
def Event.Truthful (carried : Nat → Prop) : Event → Prop
  | .expired probe => ¬carried probe.candidate
  | .confirmed reply => carried reply.size
  | _ => True

namespace Session

variable {σ : Type}

def bounds (s : Session σ) : Range := ⟨s.low, s.high⟩

/-- The bounds as the next tick finds them. This is all of a search that its schedule does not
touch. -/
def range (s : Session σ) : Range := s.clamp.bounds

theorem range_eq_bounds {s : Session σ} (h : s.high ≤ s.config.cap) : s.range = s.bounds := by
  have hhigh : s.clamp.high = s.high := if_neg (Nat.not_lt.mpr h)
  exact congrArg (Range.mk s.low) hhigh

theorem range_congr {s after : Session σ} (config : after.config = s.config)
    (low : after.low = s.low) (high : after.high = s.high) : after.range = s.range := by
  have hclamp : after.clamp.high = s.clamp.high := by
    unfold clamp
    rw [config, low, high]
  exact congrArg₂ Range.mk low hclamp

theorem range_of_clamp {s after : Session σ} (config : after.config = s.config)
    (low : after.low = s.low) (high : after.high = s.clamp.high) : after.range = s.range := by
  have hcap : after.config.cap = s.config.cap := congrArg Config.cap config
  -- A bound that has been lowered to the cap stays there.
  have hclamp : after.clamp.high = s.clamp.high := by
    rcases clamp_high s with ⟨_, hs⟩ | ⟨_, hs⟩ <;>
      rcases clamp_high after with ⟨_, ha⟩ | ⟨_, ha⟩ <;> omega
  exact congrArg₂ Range.mk low hclamp

theorem range_closed {s : Session σ} (ordered : s.low ≤ s.high) (h : s.Converged) :
    s.range.Closed s.config.threshold.toNat := by
  have hle := clamp_high_le ordered
  unfold Converged at h
  show s.clamp.high - s.low ≤ s.config.threshold.toNat
  omega

/-- A search that waits has an open range and waits for its middle. -/
theorem Coherent.waits {s : Session σ} (hs : s.Coherent) {probe : Outstanding}
    (ho : s.outstanding = some probe) :
    s.range = s.bounds ∧ ¬s.range.Closed s.config.threshold.toNat ∧
      s.waiting = [s.range.middle] ∧ probe.candidate = s.range.middle := by
  obtain ⟨hopened, hcap⟩ := hs.open_of_waits ho
  have hrange := range_eq_bounds hcap
  have hcandidate := hs.candidate probe ho
  rw [hrange]
  refine ⟨rfl, hopened, ?_, hcandidate⟩
  unfold waiting
  rw [ho]
  exact congrArg (fun size => [size]) hcandidate

variable {carried : Nat → Prop} [DecidablePred carried]

theorem Coherent.expire_range {s : Session σ} (hs : s.Coherent) {probe : Outstanding}
    (ho : s.outstanding = some probe) (lost : ¬carried probe.candidate) (now : Int) :
    (s.expire probe now).bounds = s.range.narrow carried := by
  obtain ⟨hrange, _, _, hmiddle⟩ := hs.waits ho
  have hordered := hs.ordered
  have hhalf : s.bounds.middle ≤ s.high := by
    show (s.low + s.high) / 2 ≤ s.high
    omega
  rw [hmiddle] at lost
  rw [hrange] at lost hmiddle ⊢
  unfold Range.narrow
  rw [if_neg lost]
  by_cases hzero : s.bounds.middle = 0
  · rw [if_pos hzero]
    apply congrArg (Range.mk s.low)
    show max (if probe.candidate = 0 then s.high else _) s.low = s.high
    rw [if_pos (hmiddle.trans hzero)]
    omega
  · rw [if_neg hzero]
    apply congrArg (Range.mk s.low)
    show max (if probe.candidate = 0 then _ else min s.high (probe.candidate - 1)) s.low =
      max s.low (s.bounds.middle - 1)
    rw [if_neg (by omega)]
    omega

theorem Coherent.confirm_range {s : Session σ} (hs : s.Coherent) {probe : Outstanding}
    (ho : s.outstanding = some probe) (arrived : carried probe.candidate) (now : Int) :
    (s.confirm probe.candidate now).bounds = s.range.narrow carried := by
  obtain ⟨hrange, _, _, hmiddle⟩ := hs.waits ho
  have hordered := hs.ordered
  have hhalf : s.low ≤ s.bounds.middle ∧ s.bounds.middle ≤ s.high := by
    show s.low ≤ (s.low + s.high) / 2 ∧ (s.low + s.high) / 2 ≤ s.high
    omega
  rw [hmiddle] at arrived ⊢
  rw [hrange] at arrived ⊢
  unfold Range.narrow
  rw [if_pos arrived]
  refine congrArg₂ Range.mk ?_ ?_
  · exact Nat.max_eq_right hhalf.1
  · show max s.high (max s.low s.bounds.middle) = s.high
    omega

variable [RandomSource σ]

theorem EventCase.range_eq {s after : Session σ} {e : Event} (hc : EventCase s e after)
    (hne : e ≠ .restarted) (hr : e.resolves = false) : after.range = s.range := by
  cases hc with
  | quiet config low high _ => exact range_congr config low high
  | looked _ _ config low high _ => exact range_of_clamp config low high
  | issued => exact range_of_clamp rfl rfl rfl
  | expired => cases hr
  | confirmed => cases hr
  | restarted => exact absurd rfl hne

structure PlaysRound (carried : Nat → Prop) [DecidablePred carried] (s after : Session σ) :
    Prop where
  opened : ¬s.range.Closed s.config.threshold.toNat
  waiting : s.waiting = [s.range.middle]
  idle : after.waiting = []
  range : after.range = s.range.narrow carried
  bounds : after.bounds = after.range

omit [RandomSource σ] in
theorem Coherent.plays_round {s after : Session σ} (hs : s.Coherent) {o : Outstanding}
    (ho : s.outstanding = some o) (idle : after.outstanding = none)
    (config : after.config = s.config) (high : after.high ≤ s.high)
    (bounds : after.bounds = s.range.narrow carried) : s.PlaysRound carried after := by
  obtain ⟨_, hopen, hwaiting, _⟩ := hs.waits ho
  have hcap := (hs.open_of_waits ho).2
  have hrange : after.range = after.bounds := by
    apply range_eq_bounds
    rw [config]
    exact Nat.le_trans high hcap
  refine ⟨hopen, hwaiting, ?_, hrange.trans bounds, hrange.symm⟩
  unfold Session.waiting
  rw [idle]
  rfl

/-- A probe that is over makes one round, if its fate shows whether the path carries its size. -/
theorem EventCase.plays_round {latest : Option Probe} {s after : Session σ} {e : Event}
    (hc : EventCase s e after) (hs : s.Coherent) (announced : s.Announced latest)
    (honest : ∀ reply ∈ e.confirmed?, ∀ probe ∈ latest, probe.size = reply.size)
    (truthful : e.Truthful carried) (hr : e.resolves = true) : s.PlaysRound carried after := by
  cases hc with
  | @expired probe now _ ho =>
    exact hs.plays_round ho rfl rfl (expire_high_le hs.ordered probe now)
      (hs.expire_range ho truthful now)
  | @confirmed reply now hexp =>
    obtain ⟨o, ho, hsize⟩ := announced.candidate_of_expects hexp (honest reply rfl)
    change carried reply.size at truthful
    rw [hsize] at truthful ⊢
    exact hs.plays_round ho rfl rfl (hs.confirm_high_le ho now) (hs.confirm_range ho truthful now)
  | quiet => cases hr
  | looked => cases hr
  | issued => cases hr
  | restarted => cases hr

def narrowings (s : Session σ) (calls : List Call) : List Range :=
  (s.resolutions calls).map fun entry => entry.session.bounds

/-- What a run has done so far is the beginning of the binary search from its first range: one round
for each probe that was over, and the size of one more if a probe waits for its reply. -/
structure Follows (carried : Nat → Prop) [DecidablePred carried] (s : Session σ)
    (calls : List Call) : Prop where
  sizes : s.waiting ++ (s.probes calls).map Probe.size =
    (s.range.search carried s.config.threshold.toNat
      ((s.narrowings calls).length + (s.after calls).waiting.length)).map Round.size
  bounds : s.narrowings calls =
    (s.range.search carried s.config.threshold.toNat (s.narrowings calls).length).map Round.range
  range : (s.after calls).range =
    s.range.remainder carried s.config.threshold.toNat (s.narrowings calls).length

theorem narrowings_cons (s : Session σ) (call : Call) (calls : List Call) :
    s.narrowings (call :: calls) =
      if (s.event call).resolves then
        (s.perform call).session.bounds :: (s.perform call).session.narrowings calls
      else (s.perform call).session.narrowings calls := by
  unfold narrowings
  rw [resolutions_cons]
  split <;> rfl

theorem Coherent.follows_nil {s : Session σ} (hs : s.Coherent) : s.Follows carried [] := by
  refine ⟨?_, rfl, rfl⟩
  show s.waiting ++ [] = (s.range.search carried s.config.threshold.toNat
    (0 + s.waiting.length)).map Round.size
  cases ho : s.outstanding with
  | none =>
    have hwaiting : s.waiting = [] := by
      unfold waiting
      rw [ho]
      rfl
    rw [hwaiting]
    rfl
  | some probe =>
    -- The probe that waits belongs to a round that is not over.
    obtain ⟨_, hopen, hwaiting, _⟩ := hs.waits ho
    rw [hwaiting]
    show _ = (s.range.search carried s.config.threshold.toNat 1).map Round.size
    rw [Range.search_succ hopen]
    rfl

theorem Follows.stay {s : Session σ} {call : Call} {calls : List Call}
    (h : (s.perform call).session.Follows carried calls) (hcall : ¬call.Restarts)
    (hr : (s.event call).resolves = false) : s.Follows carried (call :: calls) := by
  have hc := event_case s call
  have hne := event_ne_restarted (s := s) hcall
  have hconfig := (call_case s call).config
  have hrange := hc.range_eq hne hr
  have hwaiting := hc.waiting_eq hne hr
  obtain ⟨hsizes, hbounds, hlast⟩ := h
  have hsame : s.narrowings (call :: calls) = (s.perform call).session.narrowings calls := by
    rw [narrowings_cons, hr]
    rfl
  rw [hconfig, hrange] at hsizes hbounds hlast
  rw [hwaiting, List.append_assoc, ← List.map_append, ← probes_cons] at hsizes
  refine ⟨?_, ?_, ?_⟩
  · rw [hsame]
    exact hsizes
  · rw [hsame]
    exact hbounds
  · rw [hsame]
    exact hlast

theorem Follows.round {s : Session σ} {call : Call} {calls : List Call}
    (h : (s.perform call).session.Follows carried calls) (hr : (s.event call).resolves = true)
    (hround : s.PlaysRound carried (s.perform call).session) :
    s.Follows carried (call :: calls) := by
  have hconfig := (call_case s call).config
  obtain ⟨hsizes, hnarrowings, hlast⟩ := h
  have hsame : s.narrowings (call :: calls) =
      s.range.narrow carried :: (s.perform call).session.narrowings calls := by
    rw [narrowings_cons, hr, hround.bounds, hround.range]
    rfl
  have hissued : s.probes (call :: calls) = (s.perform call).session.probes calls := by
    rw [probes_cons, Event.issued?_of_resolves hr]
    rfl
  rw [hconfig, hround.range] at hsizes hnarrowings hlast
  rw [hround.idle, List.nil_append] at hsizes
  refine ⟨?_, ?_, ?_⟩
  · rw [hsame, hissued, hround.waiting, List.length_cons, Nat.add_right_comm,
      Range.search_succ hround.opened, hsizes]
    rfl
  · rw [hsame, List.length_cons, Range.search_succ hround.opened, List.map_cons, ← hnarrowings]
  · rw [hsame, List.length_cons, Range.remainder_succ hround.opened]
    exact hlast

/-- A session whose peer is honest and whose events tell the truth is the binary search, whatever
the times at which it is called. -/
theorem Coherent.follows {latest : Option Probe} {s : Session σ} {calls : List Call}
    (hs : s.Coherent) (announced : s.Announced latest)
    (steady : ∀ call ∈ calls, ¬call.Restarts) (honest : Confirms (· = ·) latest (s.events calls))
    (truthful : ∀ e ∈ s.events calls, e.Truthful carried) : s.Follows carried calls := by
  -- Each event leaves the range or plays one round of it, so the run unfolds as `search` does.
  induction calls generalizing latest s with
  | nil => exact hs.follows_nil
  | cons call calls ih =>
    obtain ⟨hcall, hcalls⟩ := List.forall_mem_cons.mp steady
    obtain ⟨hsize, hrest⟩ := honest
    obtain ⟨htrue, htruths⟩ := List.forall_mem_cons.mp truthful
    have hc := event_case s call
    have hlater := ih ((call_case s call).coherent hs) (announced.next hc) hcalls hrest htruths
    cases hr : (s.event call).resolves with
    | true => exact hlater.round hr (hc.plays_round hs announced hsize htrue hr)
    | false => exact hlater.stay hcall hr

section

variable {τ : Type} [RandomSource τ] {s : Session σ} {t : Session τ} {calls others : List Call}

/-- Two runs from one range try the same sizes, as far as both go. -/
theorem Follows.sizes_comparable (h : s.Follows carried calls) (h' : t.Follows carried others)
    (range : s.range = t.range) (threshold : s.config.threshold = t.config.threshold) :
    s.waiting ++ (s.probes calls).map Probe.size <+: t.waiting ++ (t.probes others).map Probe.size ∨
      t.waiting ++ (t.probes others).map Probe.size <+:
        s.waiting ++ (s.probes calls).map Probe.size := by
  rw [h.sizes, h'.sizes, range, threshold]
  rcases Nat.le_total
    ((s.narrowings calls).length + (s.after calls).waiting.length)
    ((t.narrowings others).length + (t.after others).waiting.length) with hle | hle
  · exact Or.inl ((Range.search_prefix_of_le hle _).map _)
  · exact Or.inr ((Range.search_prefix_of_le hle _).map _)

theorem Follows.ends (h : s.Follows carried calls) (hs : s.Coherent)
    (hphase : (s.after calls).phase = .converged) :
    (s.after calls).waiting = [] ∧
      (Range.remainder carried s.config.threshold.toNat (s.narrowings calls).length s.range).Closed
        s.config.threshold.toNat := by
  obtain ⟨hnone, hconverged⟩ := phase_eq_converged.mp hphase
  have hclosed := range_closed (after_coherent hs calls).ordered hconverged
  rw [h.range, after_config] at hclosed
  refine ⟨?_, hclosed⟩
  unfold waiting
  rw [hnone]
  rfl

theorem Follows.same_end (h : s.Follows carried calls) (h' : t.Follows carried others)
    (range : s.range = t.range) (threshold : s.config.threshold = t.config.threshold)
    (hs : s.Coherent) (ht : t.Coherent) (hphase : (s.after calls).phase = .converged)
    (hphase' : (t.after others).phase = .converged) :
    s.waiting ++ (s.probes calls).map Probe.size = t.waiting ++ (t.probes others).map Probe.size ∧
      s.narrowings calls = t.narrowings others ∧
      (s.after calls).range = (t.after others).range := by
  obtain ⟨hwaiting, hclosed⟩ := h.ends hs hphase
  obtain ⟨hwaiting', hclosed'⟩ := h'.ends ht hphase'
  rw [range, threshold] at hclosed
  have hsearch := Range.search_end_unique hclosed hclosed'
  rw [h.sizes, h'.sizes, h.bounds, h'.bounds, h.range, h'.range, hwaiting, hwaiting', range,
    threshold, List.length_nil, Nat.add_zero, Nat.add_zero, Range.remainder, Range.remainder,
    hsearch]
  exact ⟨rfl, rfl, rfl⟩

end

end Session

end PathMtu
