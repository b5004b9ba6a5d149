import PathMtu.Proofs.History

namespace PathMtu

/-- A source of zeros. -/
structure ZeroSource where

instance : RandomSource ZeroSource where
  token source := ⟨0, [], source⟩
  fill source n := ⟨List.replicate n 0, [], source⟩
  length_fill _ _ := List.length_replicate

/-- A call that knows no token. A reply goes to the latest probe: it carries that probe's token
under a mask, and the size that the probe advertised or a given one. -/
inductive Cue where
  | tick (now rto : Int)
  | reply (size : Option Nat) (mask : UInt32) (now : Int)
  | restart (now : Int)
  | setFragment (size : Nat)
  deriving DecidableEq, Repr

namespace Cue

/-- As long as no probe was issued, zeros stand for its size and its token. -/
def replyTo (latest : Option Probe) (size : Option Nat) (mask : UInt32) : Reply :=
  ⟨size.getD (latest.elim 0 Probe.size), latest.elim 0 Probe.token ^^^ mask⟩

def call (latest : Option Probe) : Cue → Call
  | tick now rto => .tick now rto
  | reply size mask now => .reply (replyTo latest size mask) now
  | restart now => .restart now
  | setFragment size => .setFragment size

end Cue

/-- A probe of the same size, with a payload of the same length and zeros for all that is random. -/
def Probe.erased (probe : Probe) : Probe :=
  ⟨probe.size, 0, (List.replicate probe.payload.size 0).toArray⟩

def Outstanding.erased (o : Outstanding) : Outstanding := { o with token := 0 }

namespace Answer

def issued? : Answer → Option Probe
  | probe issued => issued
  | _ => none

def erased : Answer → Answer
  | probe issued => probe (issued.map Probe.erased)
  | verdict accepted => verdict accepted
  | done => done

theorem issued?_erased (answer : Answer) :
    answer.erased.issued? = answer.issued?.map Probe.erased := by
  cases answer <;> rfl

end Answer

theorem Cue.replyTo_erased_size (latest : Option Probe) (size : Option Nat) (mask : UInt32) :
    (replyTo (latest.map Probe.erased) size mask).size = (replyTo latest size mask).size := by
  cases latest <;> rfl

namespace Session

variable {σ : Type}

/-- The session without what is random about it. -/
def erased (s : Session σ) : Session ZeroSource :=
  { config := s.config
    source := {}
    fragment := s.fragment
    low := s.low
    high := s.high
    lastActivity := s.lastActivity
    outstanding := s.outstanding.map Outstanding.erased
    tally := s.tally }

/-- A probe that waits for its reply is the latest one. -/
def Current (latest : Option Probe) (s : Session σ) : Prop :=
  ∀ o ∈ s.outstanding, ∃ probe ∈ latest, probe.token = o.token

theorem start_current (config : Config) (now : Int) (source : σ) :
    (start config now source).Current none := nofun

theorem erased_phase (s : Session σ) : s.erased.phase = s.phase := by
  have hwaits : s.erased.outstanding.isSome = s.outstanding.isSome := Option.isSome_map
  unfold phase
  rw [hwaits]
  rfl

/-- What is expected of a reply to the latest probe is that the mask leaves the token as it is. -/
theorem Current.expects_iff {latest : Option Probe} {s : Session σ} (h : s.Current latest)
    (size : Option Nat) (mask : UInt32) :
    s.Expects (Cue.replyTo latest size mask) ↔ s.outstanding.isSome = true ∧ mask = 0 := by
  unfold Expects Cue.replyTo
  cases ho : s.outstanding with
  | none => simp
  | some o =>
    obtain ⟨probe, hlatest, htoken⟩ := h o ho
    rw [Option.mem_def.mp hlatest]
    have hmask : o.token = o.token ^^^ mask ↔ mask = 0 := by
      have hinj : o.token ^^^ 0 = o.token ^^^ mask ↔ 0 = mask := UInt32.xor_right_inj o.token
      rw [UInt32.xor_zero] at hinj
      exact hinj.trans eq_comm
    simpa [htoken] using hmask

theorem Current.erased {latest : Option Probe} {s : Session σ} (h : s.Current latest) :
    s.erased.Current (latest.map Probe.erased) := by
  intro o ho
  obtain ⟨waiting, hwaiting, rfl⟩ := Option.map_eq_some_iff.mp ho
  obtain ⟨probe, hlatest, _⟩ := h waiting hwaiting
  exact ⟨probe.erased, Option.map_eq_some_iff.mpr ⟨probe, hlatest, rfl⟩, rfl⟩

variable [RandomSource σ]

/-- The calls to which the cues come down in a run. -/
def addressed (s : Session σ) (latest : Option Probe) : List Cue → List Call
  | [] => []
  | cue :: cues =>
    let step := s.perform (cue.call latest)
    cue.call latest :: step.session.addressed (step.answer.issued?.or latest) cues

theorem issue_erased (s : Session σ) (now : Int) :
    (s.erased.issue now).answer = (s.issue now).answer.erased := by
  have hpayload := issue_payload_size s now
  unfold Probe.erased
  rw [hpayload]
  rfl

theorem TickCase.erased {s after : Session σ} {now rto : Int} {answer : Option Probe}
    (h : TickCase s now rto after answer) :
    TickCase s.erased now rto after.erased (answer.map Probe.erased) := by
  have hnone (ho : s.outstanding = none) : s.erased.outstanding = none :=
    congrArg (Option.map Outstanding.erased) ho
  have hsome {probe : Outstanding} (ho : s.outstanding = some probe) :
      s.erased.outstanding = some probe.erased := congrArg (Option.map Outstanding.erased) ho
  cases h with
  | disabled he => exact .disabled he
  | waiting he ho ht => exact .waiting he (hsome ho) ht
  | @expired probe he ho ht =>
    have case : TickCase s.erased now rto (s.erased.expire probe.erased now) none :=
      .expired he (hsome ho) ht
    exact case
  | settled he ho hc => exact .settled he (hnone ho) hc
  | early he ho hopen hi => exact .early he (hnone ho) hopen hi
  | issued he ho hopen hi =>
    have case : TickCase s.erased now rto (s.erased.clamp.issue now).session
      (some (s.erased.clamp.issue now).answer) := .issued he (hnone ho) hopen hi
    rw [show s.erased.clamp = s.clamp.erased from rfl, issue_erased] at case
    exact case

theorem CallCase.current {latest : Option Probe} {s after : Session σ} {call : Call}
    {answer : Answer} (hc : CallCase s call after answer) (h : s.Current latest) :
    after.Current (answer.issued?.or latest) := by
  intro o ho
  cases hc with
  | tick hc =>
    cases hc with
    | disabled => exact h o ho
    | waiting => exact h o ho
    | expired => cases ho
    | settled => exact h o ho
    | early => exact h o ho
    | issued =>
      cases Option.some.inj ho
      exact ⟨_, rfl, rfl⟩
  | accepted => cases ho
  | rejected => exact h o ho
  | restarted => cases ho
  | resized => exact h o ho

/-- Each step of a run is a step of the erased run. -/
theorem CallCase.erased {latest : Option Probe} {s after : Session σ} {cue : Cue} {answer : Answer}
    (hc : CallCase s (cue.call latest) after answer) (h : s.Current latest) :
    CallCase s.erased (cue.call (latest.map Probe.erased)) after.erased answer.erased := by
  cases cue with
  | tick now rto =>
    cases hc with
    | tick hc => exact .tick hc.erased
  | reply size mask now =>
    have hwaits : s.erased.outstanding.isSome = s.outstanding.isSome := Option.isSome_map
    have hsame : s.erased.Expects (Cue.replyTo (latest.map Probe.erased) size mask) ↔
        s.Expects (Cue.replyTo latest size mask) := by
      rw [h.erased.expects_iff, h.expects_iff, hwaits]
    cases hc with
    | accepted hexp =>
      have case : CallCase s.erased (Call.reply _ now) _ _ := .accepted (hsame.mpr hexp)
      rw [Cue.replyTo_erased_size] at case
      exact case
    | rejected hexp => exact .rejected (mt hsame.mp hexp)
  | restart now =>
    cases hc with
    | restarted => exact .restarted
  | setFragment size =>
    cases hc with
    | resized => exact .resized

theorem run_erased {latest : Option Probe} {s : Session σ} (h : s.Current latest)
    (cues : List Cue) :
    (s.after (s.addressed latest cues)).erased =
        s.erased.after (s.erased.addressed (latest.map Probe.erased) cues) ∧
      (s.answers (s.addressed latest cues)).map Answer.erased =
        s.erased.answers (s.erased.addressed (latest.map Probe.erased) cues) := by
  induction cues generalizing s latest with
  | nil => exact ⟨rfl, rfl⟩
  | cons cue cues ih =>
    have hc := call_case s (cue.call latest)
    obtain ⟨hsession, hanswer⟩ := (hc.erased h).eq
    obtain ⟨hafter, hanswers⟩ := ih (hc.current h)
    simp only [addressed, after_cons, answers_cons, List.map_cons, hsession, hanswer,
      Answer.issued?_erased]
    rw [← Option.map_or]
    exact ⟨hafter, congrArg _ hanswers⟩

/-- Two runs on the same cues do the same, whatever their sources of randomness yield and however
often one of them fails: they issue probes of the same sizes at the same times, accept and reject
the same replies, and search the same range. -/
theorem run_same_for_sources {τ : Type} [RandomSource τ] (config : Config) (now : Int) (a : σ)
    (b : τ) (cues : List Cue) :
    let first := start config now a
    let second := start config now b
    let s := first.after (first.addressed none cues)
    let t := second.after (second.addressed none cues)
    (first.answers (first.addressed none cues)).map Answer.erased =
        (second.answers (second.addressed none cues)).map Answer.erased ∧
      s.low = t.low ∧ s.high = t.high ∧ s.fragment = t.fragment ∧ s.phase = t.phase ∧
      s.outstanding.map Outstanding.candidate = t.outstanding.map Outstanding.candidate ∧
      s.outstanding.map Outstanding.sentAt = t.outstanding.map Outstanding.sentAt ∧
      s.tally = t.tally := by
  intro first second s t
  obtain ⟨hfirst, hfirst'⟩ := run_erased (start_current config now a) cues
  obtain ⟨hsecond, hsecond'⟩ := run_erased (start_current config now b) cues
  have hsame : s.erased = t.erased := hfirst.trans hsecond.symm
  have houtstanding : s.outstanding.map Outstanding.erased = t.outstanding.map Outstanding.erased :=
    congrArg Session.outstanding hsame
  refine ⟨hfirst'.trans hsecond'.symm, congrArg Session.low hsame, congrArg Session.high hsame,
    congrArg Session.fragment hsame, ?_, ?_, ?_, congrArg Session.tally hsame⟩
  · rw [← erased_phase, hsame, erased_phase]
  · have hcandidate := congrArg (Option.map Outstanding.candidate) houtstanding
    rw [Option.map_map, Option.map_map] at hcandidate
    exact hcandidate
  · have hsentAt := congrArg (Option.map Outstanding.sentAt) houtstanding
    rw [Option.map_map, Option.map_map] at hsentAt
    exact hsentAt

end Session

end PathMtu
