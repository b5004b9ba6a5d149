import Mathlib.Algebra.Group.Nat.Defs
import PathMtu.Proofs.BoundsOfEvents

namespace PathMtu

/-- The bytes of a probe on the wire, its length prefix included. -/
def Probe.commandSize (probe : Probe) : Nat := Framing.probeHeaderSize + probe.payload.size

theorem Framing.probeHeaderSize_lt_overhead (framing : Framing) :
    probeHeaderSize < framing.overhead := by
  unfold overhead headerSize countWidth
  omega

/-- A payload that makes a datagram of at most the largest size can be announced in its fields. -/
theorem Framing.payloadLength_fits (framing : Framing) {target : Nat}
    (h : target ≤ Config.largestSize) :
    framing.payloadLength target < 256 ^ payloadLengthWidth ∧
      probeHeaderSize + framing.payloadLength target < 256 ^ lengthWidth := by
  have hheader := framing.probeHeaderSize_lt_overhead
  have heleven : probeHeaderSize = 11 := rfl
  rw [payloadLength_eq_max]
  unfold Config.largestSize at h
  unfold payloadLengthWidth lengthWidth
  omega

/-- The midpoint as words hold it: the sum in 32 bits, its half in 16. -/
def wordMidpoint (low high : UInt16) : UInt16 := ((low.toUInt32 + high.toUInt32) / 2).toUInt16

theorem toNat_wordMidpoint {low high : Nat} (hlow : low ≤ Config.largestSize)
    (hhigh : high ≤ Config.largestSize) :
    (wordMidpoint (.ofNat low) (.ofNat high)).toNat = (low + high) / 2 := by
  have htwo : (2 : UInt32).toNat = 2 := rfl
  unfold Config.largestSize at hlow hhigh
  unfold wordMidpoint
  rw [UInt32.toNat_toUInt16, UInt32.toNat_div, UInt32.toNat_add, UInt16.toNat_toUInt32,
    UInt16.toNat_toUInt32, UInt16.toNat_ofNat', UInt16.toNat_ofNat', htwo]
  omega

namespace Session

variable {σ : Type}

theorem Coherent.candidate_range {s : Session σ} (hs : s.Coherent) {size : Nat} {token : UInt32}
    {sentAt : Int} (ho : s.outstanding = some ⟨size, token, sentAt⟩) :
    size = (s.low + s.high) / 2 ∧ s.low ≤ size ∧ size < s.high ∧ s.high ≤ s.config.cap ∧
      s.config.threshold.toNat < s.high - s.low := by
  obtain ⟨hopen, hcap⟩ := hs.open_of_waits ho
  have hlt := low_lt_high_of_not_converged hopen
  have hmid : size = (s.low + s.high) / 2 := hs.candidate _ ho
  unfold Converged at hopen
  refine ⟨hmid, ?_, ?_, hcap, ?_⟩ <;> omega

variable [RandomSource σ]

theorem TickCase.issued_probe {s after : Session σ} {now rto : Int} {probe : Probe}
    (h : TickCase s now rto after (some probe)) :
    after.outstanding = some ⟨probe.size, probe.token, now⟩ ∧ after.low = s.low ∧
      probe.payload.size = s.config.framing.payloadLength probe.size ∧
      probe.encodedSize s.config.framing = max probe.size (s.config.framing.overhead + 1) := by
  cases h with
  | issued _ _ hopen _ =>
    have hsize := issue_size hopen (clamp_high_le_cap hopen) now
    refine ⟨?_, rfl, issue_payload_size s.clamp now, issue_encodedSize s.clamp now⟩
    rw [hsize]
    rfl

theorem after_outstanding_some {s : Session σ} {o : Outstanding} (ho : s.outstanding = some o)
    {calls : List Call} (waits : ∀ entry ∈ s.history calls, entry.session.outstanding ≠ none) :
    (s.after calls).outstanding = some o ∧ (s.after calls).low = s.low ∧
      (s.after calls).high = s.high := by
  induction calls generalizing s with
  | nil => exact ⟨ho, rfl, rfl⟩
  | cons call calls ih =>
    obtain ⟨hfirst, hlater⟩ := List.forall_mem_cons.mp waits
    have hc := event_case s call
    have hends : (s.event call).ends = false := by
      cases he : (s.event call).ends with
      | false => rfl
      | true => exact absurd (hc.outstanding_none he) hfirst
    obtain ⟨hsame, hlow, hhigh⟩ := hc.outstanding_some ho hends
    obtain ⟨houtstanding, hlow', hhigh'⟩ := ih hsame hlater
    exact ⟨houtstanding, hlow'.trans hlow, hhigh'.trans hhigh⟩

/-- A probe asks for the exact middle of bounds that are open and within the cap, so the cap changes
nothing about it, and the session waits for the very size that the probe advertises. That stays so
until the probe is over. Its datagram has that size, unless the framing alone exceeds it. -/
theorem issued_probe_splits_range (config : Config) (now : Int) (source : σ) (past : List Call)
    {later rto : Int} {probe : Probe}
    (issued : (((start config now source).after past).tick later rto).answer = some probe)
    {calls : List Call}
    (waits : ∀ entry ∈
        (((start config now source).after past).tick later rto).session.history calls,
      entry.session.outstanding ≠ none) :
    let s := (((start config now source).after past).tick later rto).session.after calls
    s.outstanding = some ⟨probe.size, probe.token, later⟩ ∧
      probe.size = (s.low + s.high) / 2 ∧
      probe.size = (wordMidpoint (.ofNat s.low) (.ofNat s.high)).toNat ∧
      s.low ≤ probe.size ∧ probe.size < s.high ∧ s.high ≤ config.cap ∧
      config.threshold.toNat < s.high - s.low ∧
      probe.payload.size = max 1 (probe.size - config.framing.overhead) ∧
      probe.encodedSize config.framing = max probe.size (config.framing.overhead + 1) ∧
      probe.payload.size < 256 ^ Framing.payloadLengthWidth ∧
      probe.commandSize < 256 ^ Framing.lengthWidth ∧
      (config.framing.overhead < config.minSize.toNat →
        probe.encodedSize config.framing ≤ config.receiveBuffer.toNat) := by
  have hfirst : ((start config now source).after past).Coherent :=
    after_coherent (start_coherent config now source) past
  have hconfig := start_after_config config now source past
  have hlowest := (start_after_bounded config now source past).lowest_le
  generalize (start config now source).after past = first at issued waits hfirst hconfig hlowest ⊢
  intro s
  have hc := tick_case first later rto
  have hissued := hc.coherent hfirst
  have hsconfig : s.config = config :=
    (after_config _ calls).trans ((CallCase.tick hc).config.trans hconfig)
  rw [issued] at hc
  obtain ⟨ho, hstart, hpayload, hencoded⟩ := hc.issued_probe
  obtain ⟨hsame, hlow, _⟩ := after_outstanding_some ho waits
  have hkept : s.low = first.low := hlow.trans hstart
  have hs : s.Coherent := after_coherent hissued calls
  obtain ⟨hmid, hge, hlt, hcap, hopen⟩ := hs.candidate_range hsame
  rw [hconfig] at hpayload hencoded hlowest
  rw [hsconfig] at hcap hopen
  have hlargest : config.cap ≤ Config.largestSize := Nat.min_le_right _ _
  have hbuffer : config.cap ≤ config.receiveBuffer.toNat := Nat.min_le_left _ _
  have hsize : probe.size ≤ Config.largestSize := by omega
  obtain ⟨hfield, hcommand⟩ := config.framing.payloadLength_fits hsize
  rw [← hpayload] at hfield hcommand
  refine ⟨hsame, hmid, ?_, hge, hlt, hcap, hopen, ?_, hencoded, hfield, hcommand, ?_⟩
  · rw [toNat_wordMidpoint (by omega) (by omega)]
    exact hmid
  · rw [hpayload, Framing.payloadLength_eq_max]
  · intro hroom
    have hmin : config.lowest = config.minSize.toNat := rfl
    rw [hencoded]
    omega

/-- From 100 to 1400 with a receiver of 130 bytes, framed with a checksum for lz4: the probe for 115
bytes waits through a reply with another token, a tick that comes too soon, and a fragment size. -/
theorem issued_probe_splits_range_115 :
    let config : Config :=
      { minSize := 100, maxSize := 1400, interval := 0, threshold := 4, receiveBuffer := 130,
        framing := ⟨.lz4, true⟩ }
    let first := (start config 0 ({} : CountingSource)).after [.tick 1 0, .restart 2]
    let calls : List Call := [.reply ⟨120, 1000⟩ 4, .tick 200000003 0, .setFragment 9000]
    ∃ probe, (first.tick 3 0).answer = some probe ∧ probe.size = 115 ∧
      ((first.tick 3 0).session.after calls).outstanding = some ⟨115, 1001, 3⟩ ∧
      probe.payload.size = 94 ∧ probe.encodedSize config.framing = 115 ∧
      probe.commandSize < 256 ^ Framing.lengthWidth ∧ probe.encodedSize config.framing ≤ 130 := by
  intro config first calls
  obtain ⟨probe, issued⟩ := Option.isSome_iff_exists.mp
    (by decide +kernel : (first.tick 3 0).answer.isSome = true)
  have hprobe : (first.tick 3 0).answer.map (fun probe => (probe.size, probe.token)) =
      some (115, 1001) := by decide +kernel
  rw [issued] at hprobe
  obtain ⟨hsize, htoken⟩ := Prod.mk.inj (Option.some.inj hprobe)
  obtain ⟨houtstanding, _, _, _, _, _, _, hpayload, hencoded, _, hcommand, hbuffer⟩ :=
    issued_probe_splits_range config 0 ({} : CountingSource) [.tick 1 0, .restart 2] issued
      (by decide +kernel : ∀ entry ∈ (first.tick 3 0).session.history calls,
        entry.session.outstanding ≠ none)
  have hroom := hbuffer (by decide)
  rw [hsize] at houtstanding hpayload hencoded
  rw [htoken] at houtstanding
  exact ⟨probe, issued, hsize, houtstanding, hpayload, hencoded, hcommand, hroom⟩

end Session

end PathMtu
