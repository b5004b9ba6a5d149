import PathMtu.Proofs.Halving
import PathMtu.Proofs.ProbeShape
import PathMtu.Proofs.TokenUse
import PathMtu.Proofs.Validation

namespace PathMtu

def Call.Resizes : Call → Prop
  | .setFragment _ => True
  | _ => False

instance : DecidablePred Call.Resizes
  | .setFragment _ => inferInstanceAs (Decidable True)
  | .tick _ _ => inferInstanceAs (Decidable False)
  | .reply _ _ => inferInstanceAs (Decidable False)
  | .restart _ => inferInstanceAs (Decidable False)

/-- The latest probe after the events, given the latest one before them. -/
def latestIssue (latest : Option Probe) (events : List Event) : Option Probe :=
  events.foldl (fun latest e => e.issued?.or latest) latest

theorem confirms_append {rel : Nat → Nat → Prop} {latest : Option Probe}
    {events more : List Event} : Confirms rel latest (events ++ more) ↔
      Confirms rel latest events ∧ Confirms rel (latestIssue latest events) more := by
  induction events generalizing latest with
  | nil => exact (and_iff_right trivial).symm
  | cons e events ih => exact (and_congr_right' ih).trans and_assoc.symm

namespace Session

variable {σ : Type} [RandomSource σ]

theorem CallCase.fragment_of_sets {s after : Session σ} {call : Call} {answer : Answer}
    (hc : CallCase s call after answer) (sets : s.SetsFragment call) (unsized : ¬call.Resizes) :
    after.fragment = after.low := by
  cases hc with
  | tick hc =>
    obtain ⟨enabled, idle, closed⟩ := sets
    cases hc with
    | disabled he => rw [enabled] at he; cases he
    | waiting _ ho _ => rw [idle] at ho; cases ho
    | expired _ ho _ => rw [idle] at ho; cases ho
    | settled => rfl
    | early _ _ hopen _ => exact absurd closed hopen
    | issued _ _ hopen _ => exact absurd closed hopen
  | accepted => rfl
  | rejected hexp => exact absurd sets hexp
  | restarted => exact absurd sets id
  | resized => exact absurd trivial unsized

/-- A call that does not set the fragment size keeps it, and with it the lower bound unless the
search is opened again. -/
theorem CallCase.fragment_of_not_sets {s after : Session σ} {call : Call} {answer : Answer}
    (hc : CallCase s call after answer) (keeps : ¬s.SetsFragment call) :
    after.fragment = s.fragment ∧
      (call.Restarts ∧ after.low = after.config.lowest ∨ ¬call.Restarts ∧ after.low = s.low) := by
  cases hc with
  | tick hc =>
    cases hc with
    | settled he ho closed => exact absurd ⟨he, ho, closed⟩ keeps
    | _ => exact ⟨rfl, Or.inr ⟨id, rfl⟩⟩
  | accepted hexp => exact absurd hexp keeps
  | rejected => exact ⟨rfl, Or.inr ⟨id, rfl⟩⟩
  | restarted => exact ⟨rfl, Or.inl ⟨trivial, rfl⟩⟩
  | resized => exact absurd trivial keeps

/-- Since the search was opened, by the start or by the latest restart, a call has set the fragment
size. -/
def SetSinceOpened (s : Session σ) (calls : List Call) : Prop :=
  ∃ earlier call rest, calls = earlier ++ call :: rest ∧ (s.after earlier).SetsFragment call ∧
    ∀ later ∈ rest, ¬later.Restarts

theorem setSinceOpened_concat {s : Session σ} {calls : List Call} {call : Call} :
    s.SetSinceOpened (calls ++ [call]) ↔ (s.after calls).SetsFragment call ∨
      ¬call.Restarts ∧ s.SetSinceOpened calls := exists_split_concat

theorem fragment_eq_low_of_set {s : Session σ} {calls : List Call}
    (unsized : ∀ call ∈ calls, ¬call.Resizes) (set : s.SetSinceOpened calls) :
    (s.after calls).fragment = (s.after calls).low := by
  induction calls using List.reverseRecOn with
  | nil =>
    obtain ⟨earlier, call, rest, heq, _⟩ := set
    exact absurd heq.symm (List.append_ne_nil_of_right_ne_nil earlier (List.cons_ne_nil _ _))
  | append_singleton calls call ih =>
    obtain ⟨hcalls, hcall⟩ := List.forall_mem_append.mp unsized
    have hc := call_case (s.after calls) call
    rw [after_append]
    show ((s.after calls).perform call).session.fragment =
      ((s.after calls).perform call).session.low
    by_cases hsets : (s.after calls).SetsFragment call
    · exact hc.fragment_of_sets hsets (hcall call (List.mem_singleton_self _))
    · obtain ⟨hsteady, hset⟩ := (setSinceOpened_concat.mp set).resolve_left hsets
      obtain ⟨hfragment, ⟨hrestarts, _⟩ | ⟨_, hlow⟩⟩ := hc.fragment_of_not_sets hsets
      · exact absurd hrestarts hsteady
      · exact hfragment.trans ((ih hcalls hset).trans hlow.symm)

/-- Until a call sets the fragment size, no reply has been accepted. -/
theorem low_eq_lowest_of_not_set {config : Config} {now : Int} {source : σ} {calls : List Call}
    (unset : ¬(start config now source).SetSinceOpened calls) :
    ((start config now source).after calls).low = config.lowest := by
  induction calls using List.reverseRecOn with
  | nil => rfl
  | append_singleton calls call ih =>
    rw [setSinceOpened_concat, not_or] at unset
    obtain ⟨hkeeps, hunset⟩ := unset
    have hconfig := start_after_config config now source (calls ++ [call])
    rw [after_append] at hconfig ⊢
    obtain ⟨_, ⟨_, hlowest⟩ | ⟨hsteady, hlow⟩⟩ :=
      (call_case ((start config now source).after calls) call).fragment_of_not_sets hkeeps
    · exact hlowest.trans (congrArg Config.lowest hconfig)
    · exact hlow.trans (ih fun hset => hunset ⟨hsteady, hset⟩)

theorem after_fragment_of_keeps {s : Session σ} {calls : List Call}
    (keeps : ∀ earlier call rest, calls = earlier ++ call :: rest →
      ¬(s.after earlier).SetsFragment call) : (s.after calls).fragment = s.fragment := by
  induction calls generalizing s with
  | nil => rfl
  | cons call calls ih =>
    obtain ⟨hfirst, _⟩ := (call_case s call).fragment_of_not_sets (keeps [] call calls rfl)
    refine (ih ?_).trans hfirst
    intro earlier later rest heq
    exact keeps (call :: earlier) later rest (congrArg _ heq)

theorem fragment_kept_of_not_set {s : Session σ} {earlier rest : List Call}
    (unset : ¬s.SetSinceOpened (earlier ++ rest)) (steady : ∀ call ∈ rest.tail, ¬call.Restarts) :
    (s.after (earlier ++ rest)).fragment = (s.after earlier).fragment := by
  rw [after_append]
  apply after_fragment_of_keeps
  rintro before call more rfl hsets
  refine unset ⟨earlier ++ before, call, more, by simp, ?_, ?_⟩
  · rw [after_append]
    exact hsets
  · intro later hlater
    apply steady later
    cases before with
    | nil => exact hlater
    | cons => exact List.mem_append_right _ (List.mem_cons_of_mem _ hlater)

/-- What the losses and the replies leave of the sizes, if each reply has the size of its probe. -/
structure Confined (events : List Event) (s : Session σ) : Prop where
  low_le : s.low ≤ min s.config.maxSize.toNat s.config.cap
  lost : ∀ o, .expired o ∈ events → 0 < o.candidate ∧ s.high ≤ o.candidate ∧
    (1 ≤ s.config.threshold.toNat → s.high < o.candidate)

omit [RandomSource σ] in
theorem Confined.keep {events : List Event} {s after : Session σ} {e : Event}
    (h : s.Confined events) (config : after.config = s.config) (high : after.high ≤ s.high)
    (low : after.low ≤ min s.config.maxSize.toNat s.config.cap)
    (unlost : ∀ o, e ≠ .expired o) : after.Confined (events ++ [e]) := by
  refine ⟨config ▸ low, ?_⟩
  intro o ho
  rcases List.mem_append.mp ho with hpast | hlast
  · obtain ⟨hpos, hle, hlt⟩ := h.lost o hpast
    refine ⟨hpos, by omega, ?_⟩
    intro threshold
    rw [config] at threshold
    exact Nat.lt_of_le_of_lt high (hlt threshold)
  · exact absurd (List.mem_singleton.mp hlast).symm (unlost o)

omit [RandomSource σ] in
theorem Confined.expire {events : List Event} {s : Session σ} {o : Outstanding}
    (h : s.Confined events) (hs : s.Coherent) (positive : 0 < s.low)
    (ho : s.outstanding = some o) (now : Int) :
    (s.expire o now).Confined (events ++ [.expired o]) := by
  obtain ⟨hmid, hge, hlt, _, hopen⟩ := hs.candidate_range ho
  have hhigh : (s.expire o now).high = max (min s.high (o.candidate - 1)) s.low := by
    show max (if o.candidate = 0 then s.high else min s.high (o.candidate - 1)) s.low = _
    rw [if_neg (by omega)]
  refine ⟨h.low_le, ?_⟩
  intro lost hlost
  rcases List.mem_append.mp hlost with hpast | hlast
  · obtain ⟨hpos, hle, hless⟩ := h.lost lost hpast
    refine ⟨hpos, by omega, ?_⟩
    intro threshold
    have := hless threshold
    omega
  · cases List.mem_singleton.mp hlast
    refine ⟨by omega, by omega, ?_⟩
    intro threshold
    have hwide : 1 ≤ s.config.threshold.toNat := threshold
    omega

theorem EventCase.confined {events : List Event} {s after : Session σ} {e : Event}
    (hc : EventCase s e after) (h : s.Confined events) (hs : s.Coherent) (positive : 0 < s.low)
    (bounded : s.high ≤ max s.low s.config.maxSize.toNat)
    (honest : ∀ reply ∈ e.confirmed?, ∃ o, s.outstanding = some o ∧ reply.size = o.candidate)
    (hne : e ≠ .restarted) : after.Confined (events ++ [e]) := by
  have hclamp := clamp_high_le hs.ordered
  have hlow := h.low_le
  cases hc with
  | quiet same low high _ =>
    exact h.keep same (Nat.le_of_eq high) (low ▸ hlow) (fun _ => nofun)
  | looked _ _ same low high _ =>
    exact h.keep same (high ▸ hclamp) (low ▸ hlow) (fun _ => nofun)
  | issued => exact h.keep rfl hclamp hlow (fun _ => nofun)
  | expired _ ho => exact h.expire hs positive ho _
  | @confirmed reply now _ =>
    obtain ⟨o, ho, hsize⟩ := honest reply rfl
    obtain ⟨_, _, hlt, hcap, _⟩ := hs.candidate_range ho
    refine h.keep rfl ?_ ?_ (fun _ => nofun)
    · rw [hsize]
      exact hs.confirm_high_le ho now
    · show max s.low reply.size ≤ _
      omega
  | restarted => exact absurd rfl hne

section

variable {config : Config} {now : Int} {source : σ}

theorem start_after_announced (calls : List Call) :
    ((start config now source).after calls).Announced
      (latestIssue none ((start config now source).events calls)) := by
  induction calls using List.reverseRecOn with
  | nil => exact nofun
  | append_singleton calls call ih =>
    rw [after_append, events_append, latestIssue, List.foldl_append]
    exact ih.next (event_case _ call)

theorem confirmed_candidate {calls : List Call} {call : Call}
    (honest : Confirms (· = ·) none ((start config now source).events (calls ++ [call]))) :
    ∀ reply ∈ (((start config now source).after calls).event call).confirmed?,
      ∃ o, ((start config now source).after calls).outstanding = some o ∧
        reply.size = o.candidate := by
  intro reply hreply
  rw [events_append, confirms_append] at honest
  have hevent := Event.confirmed?_eq_some.mp hreply
  obtain ⟨_, _, hexp⟩ := event_confirmed hevent
  exact (start_after_announced calls).candidate_of_expects hexp (honest.2.1 reply hreply)

theorem start_after_confined (accepted : config.Accepted) {calls : List Call}
    (honest : Confirms (· = ·) none ((start config now source).events calls)) :
    ((start config now source).after calls).Confined
      (sinceRestart ((start config now source).events calls)) := by
  have hmin := accepted.minSize_pos
  have hordered := accepted.ordered
  -- From the end, as for the bounds: a restart forgets what was lost before it.
  induction calls using List.reverseRecOn with
  | nil => exact ⟨accepted.lowest_le, nofun⟩
  | append_singleton calls call ih =>
    have hcandidate := confirmed_candidate honest
    rw [events_append, confirms_append] at honest
    have hconfined := ih honest.1
    have hs : ((start config now source).after calls).Coherent :=
      after_coherent (start_coherent config now source) calls
    have hbounded := start_after_bounded config now source calls
    have hconfig := start_after_config config now source calls
    have hc := event_case ((start config now source).after calls) call
    rw [after_append, events_append]
    show (((start config now source).after calls).perform call).session.Confined
      (sinceRestart ((start config now source).events calls ++
        [((start config now source).after calls).event call]))
    have hlow := hbounded.lowest_le
    have hhigh := hbounded.high_le
    generalize (start config now source).after calls = s at *
    by_cases h : s.event call = .restarted
    · rw [h, sinceRestart_concat_restarted]
      rw [h] at hc
      generalize (s.perform call).session = after at hc ⊢
      cases hc with
      | restarted =>
        refine ⟨?_, nofun⟩
        show s.config.lowest ≤ min s.config.maxSize.toNat s.config.cap
        rw [hconfig]
        exact accepted.lowest_le
    · rw [sinceRestart_concat h]
      refine hc.confined hconfined hs ?_ ?_ hcandidate h
      · rw [hconfig] at hlow
        exact Nat.lt_of_lt_of_le hmin hlow
      · rw [hconfig] at hhigh ⊢
        unfold Config.highest at hhigh
        omega

theorem start_after_fragment_le (accepted : config.Accepted)
    (fits : config.fragmentSize.toNat ≤ min config.maxSize.toNat config.cap) {calls : List Call}
    (unsized : ∀ call ∈ calls, ¬call.Resizes)
    (honest : Confirms (· = ·) none ((start config now source).events calls)) :
    ((start config now source).after calls).fragment ≤ min config.maxSize.toNat config.cap := by
  induction calls using List.reverseRecOn with
  | nil => exact fits
  | append_singleton calls call ih =>
    obtain ⟨hcalls, hcall⟩ := List.forall_mem_append.mp unsized
    have hconfined := (start_after_confined accepted honest).low_le
    rw [start_after_config] at hconfined
    rw [events_append, confirms_append] at honest
    rw [after_append] at hconfined ⊢
    have hc := call_case ((start config now source).after calls) call
    by_cases hsets : ((start config now source).after calls).SetsFragment call
    · have hlow := hc.fragment_of_sets hsets (hcall call (List.mem_singleton_self _))
      exact Nat.le_trans (Nat.le_of_eq hlow) hconfined
    · have hkept := (hc.fragment_of_not_sets hsets).1
      exact Nat.le_trans (Nat.le_of_eq hkept) (ih hcalls honest.1)

end

omit [RandomSource σ] in
/-- A size that fits is ruled out by nothing but the loss of a probe that was no larger. -/
theorem Bounded.le_high_iff {events : List Event} {s : Session σ} (h : s.Bounded events)
    (positive : ∀ o, .expired o ∈ events → 0 < o.candidate) {size : Nat}
    (fits : size ≤ min s.config.highest s.config.cap) :
    size ≤ s.high ↔ size ≤ s.low ∨ ∀ o, .expired o ∈ events → size < o.candidate := by
  obtain ⟨hhighest, hcap⟩ := le_min_iff.mp fits
  rw [h.high, le_max_iff, le_foldl_min_iff, and_iff_right hhighest]
  refine or_congr_right ⟨?_, ?_⟩
  · intro hle o ho
    have hpos := positive o ho
    have hmem : o.candidate - 1 ∈ ceilings s.config.cap events :=
      List.mem_filterMap.mpr ⟨.expired o, ho, if_neg (by omega)⟩
    have := hle _ hmem
    omega
  · intro hlt ceiling hceiling
    obtain ⟨e, he, hsome⟩ := List.mem_filterMap.mp hceiling
    cases e with
    | searched =>
      cases Option.some.inj hsome
      exact hcap
    | expired o =>
      have hless := hlt o he
      have hnew : some (o.candidate - 1) = some ceiling := by
        rw [← hsome]
        exact (if_neg (by omega)).symm
      cases Option.some.inj hnew
      omega
    | quiet => cases hsome
    | confirmed => cases hsome
    | restarted => cases hsome

/-- Once a reply was accepted or a tick has found the search converged, the fragment size is the
lower bound, and no size that was lost is in use. Until then the configured size stays, or the one
from before the restart. It fits the receiver, but a lost probe may rule it out. Nothing is said of
a search that a loss has ended and whose next tick is still to come. -/
theorem fragment_le_high_iff {config : Config} (valid : config.validate = .ok ())
    (fits : config.fragmentSize.toNat ≤ min config.maxSize.toNat config.cap) (now : Int)
    (source : σ) {calls : List Call} (unsized : ∀ call ∈ calls, ¬call.Resizes)
    (honest : Confirms (· = ·) none ((start config now source).events calls)) :
    let first := start config now source
    let s := first.after calls
    let events := sinceRestart (first.events calls)
    s.fragment ≤ min config.maxSize.toNat config.cap ∧
      (first.SetSinceOpened calls → s.fragment = s.low ∧ s.fragment ≤ s.high ∧
        ∀ o, .expired o ∈ events → s.fragment ≤ o.candidate ∧
          (1 ≤ config.threshold.toNat → s.fragment < o.candidate)) ∧
      (¬first.SetSinceOpened calls → (s.phase = .converged → ∀ o, .expired o ∉ events) →
        (∀ earlier rest, calls = earlier ++ rest → (∀ call ∈ rest.tail, ¬call.Restarts) →
          s.fragment = (first.after earlier).fragment) ∧
        (s.fragment ≤ s.high ↔ s.fragment ≤ config.minSize.toNat ∨
          ∀ o, .expired o ∈ events → s.fragment < o.candidate)) := by
  intro first s events
  have accepted := Config.validate_eq_ok.mp valid
  have hconfig : s.config = config := start_after_config config now source calls
  have hs : s.Coherent := after_coherent (start_coherent config now source) calls
  have hconfined : s.Confined events := start_after_confined accepted honest
  have hfits : s.fragment ≤ min config.maxSize.toNat config.cap :=
    start_after_fragment_le accepted fits unsized honest
  refine ⟨hfits, ?_, ?_⟩
  · intro hset
    have hlow : s.fragment = s.low := fragment_eq_low_of_set unsized hset
    have hhigh : s.fragment ≤ s.high := Nat.le_trans (Nat.le_of_eq hlow) hs.ordered
    refine ⟨hlow, hhigh, ?_⟩
    intro o ho
    obtain ⟨_, hle, hlt⟩ := hconfined.lost o ho
    rw [hconfig] at hlt
    exact ⟨Nat.le_trans hhigh hle, fun threshold => Nat.lt_of_le_of_lt hhigh (hlt threshold)⟩
  · intro hunset _
    refine ⟨?_, ?_⟩
    · rintro earlier rest rfl hsteady
      exact fragment_kept_of_not_set hunset hsteady
    · have hlow : s.low = config.minSize.toNat := low_eq_lowest_of_not_set hunset
      have hroom : s.fragment ≤ min s.config.highest s.config.cap := by
        rw [hconfig]
        have hhighest : config.highest = max config.maxSize.toNat config.minSize.toNat := rfl
        omega
      have hbounded : s.Bounded events := start_after_bounded config now source calls
      rw [hbounded.le_high_iff (fun o ho => (hconfined.lost o ho).1) hroom, hlow]

/-- After a reply for 781 bytes and a restart, 988 and then 781 bytes are lost. The fragment size
stays 781 until a reply confirms 678 bytes. -/
theorem fragment_le_high_iff_678 :
    let config : Config := { interval := 0 }
    let first := start config 0 ({} : CountingSource)
    let earlier : List Call := [.tick 1 0, .tick 200000002 0, .tick 200000003 0,
      .reply ⟨781, 1001⟩ 200000004]
    let calls := earlier ++ [.restart 200000005, .tick 200000006 0, .tick 400000007 0,
      .tick 400000008 0, .tick 600000009 0]
    let more : List Call := [.tick 600000010 0, .reply ⟨678, 1004⟩ 600000011]
    (first.after calls).fragment = 781 ∧ (first.after earlier).fragment = 781 ∧
      ¬(first.after calls).fragment ≤ (first.after calls).high ∧
      .expired ⟨781, 1003, 400000008⟩ ∈ sinceRestart (first.events (calls ++ more)) ∧
      (first.after (calls ++ more)).fragment = 678 ∧ (first.after (calls ++ more)).fragment < 781 ∧
      (first.after (calls ++ more)).fragment ≤ (first.after (calls ++ more)).high := by
  intro config first earlier calls more
  have valid : config.validate = .ok () := by decide
  have fits : config.fragmentSize.toNat ≤ min config.maxSize.toNat config.cap := by decide
  have hlost : .expired ⟨781, 1003, 400000008⟩ ∈ sinceRestart (first.events calls) := by
    decide +kernel
  have hkept : (first.after calls).fragment = 781 := by decide +kernel
  have hunset : ¬first.SetSinceOpened calls := by
    intro hset
    have hlow := fragment_eq_low_of_set (by decide) hset
    have h576 : (first.after calls).low = 576 := by decide +kernel
    omega
  obtain ⟨_, _, hopened⟩ := fragment_le_high_iff valid fits 0 ({} : CountingSource)
    (by decide : ∀ call ∈ calls, ¬call.Resizes) (by decide +kernel)
  have hopen : (first.after calls).phase ≠ .converged := by decide +kernel
  obtain ⟨hsame, hiff⟩ := hopened hunset fun hconverged => absurd hconverged hopen
  have hexceeds : ¬(first.after calls).fragment ≤ (first.after calls).high := by
    intro hle
    rcases hiff.mp hle with hmin | hunlost
    · have hmin' : (first.after calls).fragment ≤ 576 := hmin
      omega
    · have hless : (first.after calls).fragment < 781 := hunlost _ hlost
      omega
  have hlost' : .expired ⟨781, 1003, 400000008⟩ ∈ sinceRestart (first.events (calls ++ more)) := by
    decide +kernel
  obtain ⟨_, hset, _⟩ := fragment_le_high_iff valid fits 0 ({} : CountingSource)
    (by decide : ∀ call ∈ calls ++ more, ¬call.Resizes) (by decide +kernel)
  obtain ⟨_, hhigh, hunlost⟩ := hset ⟨calls ++ [.tick 600000010 0],
    .reply ⟨678, 1004⟩ 600000011, [], rfl, by decide +kernel, nofun⟩
  exact ⟨hkept, (hsame earlier _ rfl (by decide)).symm.trans hkept, hexceeds, hlost',
    by decide +kernel, (hunlost _ hlost').2 (by decide), hhigh⟩

/-- The configured fragment size stays in use when a smaller size is lost, and the one from before a
restart when that very size is lost after it. -/
theorem kept_fragment_exceeds_high :
    let config : Config := { interval := 0 }
    let first := start config 0 ({} : CountingSource)
    let lost : List Call := [.tick 1 0, .tick 200000002 0]
    let calls := lost ++ [.tick 200000003 0, .reply ⟨781, 1001⟩ 200000004, .restart 200000005,
      .tick 200000006 0, .tick 400000007 0, .tick 400000008 0, .tick 600000009 0]
    config.validate = .ok () ∧ config.fragmentSize.toNat ≤ min config.maxSize.toNat config.cap ∧
      (∀ call ∈ calls, ¬call.Resizes) ∧ Confirms (· = ·) none (first.events calls) ∧
      (first.after lost).phase = .idle ∧ (first.after lost).fragment = 1024 ∧
      (first.after lost).high = 987 ∧ (first.after calls).phase = .idle ∧
      (first.after calls).fragment = 781 ∧ (first.after calls).high = 780 := by
  decide +kernel

end Session

end PathMtu
