import Mathlib.Data.List.Induction
import Mathlib.Data.Nat.Digits.Defs
import PathMtu.Random.Secure

namespace PathMtu

theorem toNat_shift_or (high : UInt32) (low : UInt8) (h : high.toNat < 256 ^ 3) :
    (high <<< 8 ||| low.toUInt32).toNat = low.toNat + 256 * high.toNat := by
  have hshift : (high <<< 8).toNat = high.toNat <<< 8 := by
    rw [UInt32.toNat_shiftLeft, Nat.shiftLeft_eq, Nat.shiftLeft_eq]
    refine Nat.mod_eq_of_lt (?_ : high.toNat * 2 ^ 8 < 2 ^ 32)
    omega
  rw [UInt32.toNat_or, hshift, UInt8.toNat_toUInt32, ← Nat.shiftLeft_add_eq_or_of_lt low.toNat_lt,
    Nat.shiftLeft_eq]
  omega

theorem toNat_ofBigEndian {bytes : List UInt8} (h : bytes.length ≤ 4) :
    (ofBigEndian bytes).toNat = Nat.ofDigits 256 (bytes.map UInt8.toNat).reverse := by
  induction bytes using List.reverseRecOn with
  | nil => rfl
  | append_singleton bytes byte ih =>
    rw [List.length_append, List.length_singleton] at h
    have hvalue := ih (by omega)
    have hlt : (ofBigEndian bytes).toNat < 256 ^ 3 := by
      rw [hvalue]
      refine (Nat.ofDigits_lt_base_pow_length (by decide) ?_).trans_le
        (Nat.pow_le_pow_right (by decide) ?_)
      · simp only [List.mem_reverse, List.mem_map]
        rintro _ ⟨byte, _, rfl⟩
        exact byte.toNat_lt
      · rw [List.length_reverse, List.length_map]
        omega
    have hconcat : ofBigEndian (bytes ++ [byte]) = ofBigEndian bytes <<< 8 ||| byte.toUInt32 :=
      List.foldl_append
    rw [hconcat, toNat_shift_or _ _ hlt, hvalue, List.map_append, List.reverse_append]
    exact Nat.ofDigits_cons.symm

namespace SystemEntropy

theorem callSizes_of_le {n : Nat} (hpos : 0 < n) (hle : n ≤ callLimit) : callSizes n = [n] := by
  rcases Nat.eq_or_lt_of_le hle with rfl | hlt
  · rfl
  · unfold callSizes
    rw [Nat.div_eq_of_lt hlt, Nat.mod_eq_of_lt hlt, if_neg (Nat.ne_of_gt hpos)]
    rfl

end SystemEntropy

namespace SecureSource

theorem fill_zero (source : SecureSource) : source.fill 0 = ⟨[], [], source⟩ := rfl

theorem fill_ne_nil (source : SecureSource) {n : Nat} (hpos : 0 < n) :
    (source.fill n).value ≠ [] := by
  rw [← List.length_pos_iff, source.length_fill]
  exact hpos

theorem fill_of_reads {source : SecureSource} {n : Nat} (hpos : 0 < n)
    (hle : n ≤ SystemEntropy.callLimit)
    (hreads : source.entropy.fails source.entropy.calls = false) :
    source.fill n =
      ⟨(List.range' source.entropy.position n).map source.entropy.stream, [],
        { source with
          entropy := { source.entropy with
            calls := source.entropy.calls + 1, position := source.entropy.position + n } }⟩ := by
  unfold fill
  rw [SystemEntropy.callSizes_of_le hpos hle]
  simp [SystemEntropy.readEach, SystemEntropy.read, hreads]

theorem fill_of_fails {source : SecureSource} {n : Nat} (hpos : 0 < n)
    (hle : n ≤ SystemEntropy.callLimit)
    (hfails : source.entropy.fails source.entropy.calls = true) :
    source.fill n =
      ⟨(List.range n).map source.fallback.byteAt,
        [failure (source.entropy.reason.ofCall source.entropy.calls)],
        ⟨{ source.entropy with calls := source.entropy.calls + 1 }, source.fallback.skip n⟩⟩ := by
  unfold fill
  rw [SystemEntropy.callSizes_of_le hpos hle]
  simp [SystemEntropy.readEach, SystemEntropy.read, SystemEntropy.latestReason, hfails, hpos,
    Twister.bytes_eq]

/-- What a source is asked for. -/
inductive Demand where
  | token
  | fill (count : Nat)
  deriving DecidableEq, Repr

inductive Supply where
  | token (value : UInt32)
  | bytes (values : List UInt8)
  deriving DecidableEq, Repr

namespace Demand

/-- How many bytes are needed for it. -/
def size : Demand → Nat
  | token => 4
  | fill count => count

/-- What is made of the bytes: a token, or nothing else than themselves. -/
def handOut : Demand → List UInt8 → Supply
  | token, bytes => .token (ofBigEndian bytes)
  | fill _, bytes => .bytes bytes

end Demand

def meet (source : SecureSource) : Demand → Draw SecureSource Supply
  | .token =>
    let drawn := source.token
    ⟨.token drawn.value, drawn.faults, drawn.rest⟩
  | .fill count =>
    let drawn := source.fill count
    ⟨.bytes drawn.value, drawn.faults, drawn.rest⟩

/-- Meets demands one after the other. -/
def meetAll (source : SecureSource) : List Demand → Draw SecureSource (List Supply)
  | [] => ⟨[], [], source⟩
  | demand :: demands =>
    let first := source.meet demand
    let others := first.rest.meetAll demands
    ⟨first.value :: others.value, first.faults ++ others.faults, others.rest⟩

theorem meet_eq (source : SecureSource) (demand : Demand) :
    source.meet demand =
      ⟨demand.handOut (source.fill demand.size).value, (source.fill demand.size).faults,
        (source.fill demand.size).rest⟩ := by
  cases demand <;> rfl

theorem meetAll_cons (source : SecureSource) (demand : Demand) (demands : List Demand) :
    source.meetAll (demand :: demands) =
      ⟨demand.handOut (source.fill demand.size).value ::
          ((source.fill demand.size).rest.meetAll demands).value,
        (source.fill demand.size).faults ++ ((source.fill demand.size).rest.meetAll demands).faults,
        ((source.fill demand.size).rest.meetAll demands).rest⟩ := by
  rw [meetAll, meet_eq]

/-- The bytes that each demand gets. -/
def pieces (source : SecureSource) : List Demand → List (List UInt8)
  | [] => []
  | demand :: demands =>
    (source.fill demand.size).value :: (source.fill demand.size).rest.pieces demands

theorem length_pieces (source : SecureSource) (demands : List Demand) :
    (source.pieces demands).map List.length = demands.map Demand.size := by
  induction demands generalizing source with
  | nil => rfl
  | cons demand demands ih =>
    exact List.cons_eq_cons.mpr ⟨source.length_fill demand.size, ih _⟩

theorem meetAll_value (source : SecureSource) (demands : List Demand) :
    (source.meetAll demands).value =
      List.zipWith Demand.handOut demands (source.pieces demands) := by
  induction demands generalizing source with
  | nil => rfl
  | cons demand demands ih =>
    rw [meetAll_cons, ih]
    rfl

/-- The bytes of the calls with a chosen number, one call after the other. Calls are numbered from
the first; nothing is called for an empty piece. -/
def bytesOf (chosen : Nat → Bool) (first : Nat) (pieces : List (List UInt8)) : List UInt8 :=
  (((pieces.filter (· ≠ [])).zipIdx first).filter fun call => chosen call.2).flatMap Prod.fst

theorem bytesOf_cons {chosen : Nat → Bool} {first : Nat} {piece : List UInt8}
    {pieces : List (List UInt8)} (h : piece ≠ []) :
    bytesOf chosen first (piece :: pieces) =
      (if chosen first then piece else []) ++ bytesOf chosen (first + 1) pieces := by
  unfold bytesOf
  rw [List.filter_cons_of_pos (by simpa using h), List.zipIdx_cons]
  cases hchosen : chosen first <;> simp [hchosen]

/-- An empty demand takes no call, any other takes one. -/
def callsFor (demands : List Demand) : Nat :=
  demands.countP fun demand => 0 < demand.size

theorem callsFor_cons_of_pos {demand : Demand} (hpos : 0 < demand.size) (demands : List Demand) :
    callsFor (demand :: demands) = callsFor demands + 1 :=
  List.countP_cons_of_pos (decide_eq_true hpos)

theorem callsFor_cons_of_empty {demand : Demand} (hempty : demand.size = 0)
    (demands : List Demand) : callsFor (demand :: demands) = callsFor demands :=
  List.countP_cons_of_neg (by simp [hempty])

/-- The demands take so many bytes from each of the two streams, in the order of their calls, and
leave both streams where they stopped reading. -/
structure Merged (source : SecureSource) (demands : List Demand) (ofSystem ofTwister : Nat) :
    Prop where
  read : bytesOf (fun call => !source.entropy.fails call) source.entropy.calls
      (source.pieces demands) =
    (List.range' source.entropy.position ofSystem).map source.entropy.stream
  madeUp : bytesOf source.entropy.fails source.entropy.calls (source.pieces demands) =
    (List.range ofTwister).map source.fallback.byteAt
  rest : (source.meetAll demands).rest =
    ⟨{ source.entropy with
        calls := source.entropy.calls + callsFor demands
        position := source.entropy.position + ofSystem },
      source.fallback.skip ofTwister⟩
  faults : (source.meetAll demands).faults =
    ((List.range' source.entropy.calls (callsFor demands)).filter source.entropy.fails).map
      fun call => failure (source.entropy.reason.ofCall call)

section

variable {source : SecureSource} {demand : Demand} {demands : List Demand}
  {ofSystem ofTwister : Nat}

theorem Merged.of_empty (hempty : demand.size = 0)
    (h : Merged source demands ofSystem ofTwister) :
    Merged source (demand :: demands) ofSystem ofTwister := by
  have hfill : source.fill demand.size = ⟨[], [], source⟩ := by rw [hempty, fill_zero]
  have hpieces : source.pieces (demand :: demands) = [] :: source.pieces demands := by
    rw [pieces, hfill]
  constructor
  · rw [hpieces]
    exact h.read
  · rw [hpieces]
    exact h.madeUp
  · rw [meetAll_cons, hfill, callsFor_cons_of_empty hempty]
    exact h.rest
  · rw [meetAll_cons, hfill, callsFor_cons_of_empty hempty]
    exact h.faults

theorem Merged.of_reads (hpos : 0 < demand.size) (hle : demand.size ≤ SystemEntropy.callLimit)
    (hreads : source.entropy.fails source.entropy.calls = false)
    (h : Merged (source.fill demand.size).rest demands ofSystem ofTwister) :
    Merged source (demand :: demands) (demand.size + ofSystem) ofTwister := by
  have hne := source.fill_ne_nil hpos
  have hfill := fill_of_reads hpos hle hreads
  obtain ⟨hread, hmadeUp, hrest, hfaults⟩ := h
  constructor
  · rw [pieces, bytesOf_cons hne, hreads, ← List.range'_append_1, List.map_append]
    rw [hfill] at hread ⊢
    exact congrArg _ hread
  · rw [pieces, bytesOf_cons hne, hreads]
    rw [hfill] at hmadeUp ⊢
    exact hmadeUp
  · rw [meetAll_cons, hrest, hfill, callsFor_cons_of_pos hpos]
    simp only [Nat.add_assoc, Nat.add_comm 1]
  · rw [meetAll_cons, hfaults, hfill, callsFor_cons_of_pos hpos, List.range'_succ,
      List.filter_cons_of_neg (Bool.not_eq_true _ ▸ hreads)]
    rfl

theorem Merged.of_fails (hpos : 0 < demand.size) (hle : demand.size ≤ SystemEntropy.callLimit)
    (hfails : source.entropy.fails source.entropy.calls = true)
    (h : Merged (source.fill demand.size).rest demands ofSystem ofTwister) :
    Merged source (demand :: demands) ofSystem (demand.size + ofTwister) := by
  have hne := source.fill_ne_nil hpos
  have hfill := fill_of_fails hpos hle hfails
  obtain ⟨hread, hmadeUp, hrest, hfaults⟩ := h
  constructor
  · rw [pieces, bytesOf_cons hne, hfails]
    rw [hfill] at hread ⊢
    exact hread
  · rw [pieces, bytesOf_cons hne, hfails, List.range_add, List.map_append, List.map_map]
    rw [hfill] at hmadeUp ⊢
    refine congrArg _ (hmadeUp.trans (List.map_congr_left fun place _ => ?_))
    exact Twister.byteAt_skip _ _ _
  · rw [meetAll_cons, hrest, hfill, callsFor_cons_of_pos hpos]
    simp only [Nat.add_assoc, Nat.add_comm 1, Twister.skip_add]
  · rw [meetAll_cons, hfaults, hfill, callsFor_cons_of_pos hpos, List.range'_succ,
      List.filter_cons_of_pos hfails]
    rfl

end

theorem exists_merged (source : SecureSource) (demands : List Demand)
    (bounded : ∀ demand ∈ demands, demand.size ≤ SystemEntropy.callLimit) :
    ∃ ofSystem ofTwister, Merged source demands ofSystem ofTwister := by
  induction demands generalizing source with
  | nil => exact ⟨0, 0, rfl, rfl, rfl, rfl⟩
  | cons demand demands ih =>
    obtain ⟨hle, hbounded⟩ := List.forall_mem_cons.mp bounded
    obtain ⟨ofSystem, ofTwister, h⟩ := ih (source.fill demand.size).rest hbounded
    -- Within the limit a demand takes at most one call, so it draws on one stream alone.
    rcases Nat.eq_zero_or_pos demand.size with hempty | hpos
    · have hrest : (source.fill demand.size).rest = source := by rw [hempty, fill_zero]
      exact ⟨ofSystem, ofTwister, Merged.of_empty hempty (hrest ▸ h)⟩
    · cases hfails : source.entropy.fails source.entropy.calls with
      | false => exact ⟨demand.size + ofSystem, ofTwister, h.of_reads hpos hle hfails⟩
      | true => exact ⟨ofSystem, demand.size + ofTwister, h.of_fails hpos hle hfails⟩

/-- A source merges two streams without loss or repetition, whichever calls fail. Each demand gets
as many bytes as it asks for, and a token is their value in base 256, the first digit the highest.
The bytes of the calls that succeed are, in their order, all that is read from the system's stream;
those of the calls that fail are the next bytes of the one twister, an output for each. An empty
demand takes no call and moves neither stream, any other takes one call, and each failed call is
reported once, with its own reason. -/
theorem demands_merge_streams (source : SecureSource) (demands : List Demand)
    (bounded : ∀ demand ∈ demands, demand.size ≤ SystemEntropy.callLimit) :
    let entropy := source.entropy
    let drawn := source.meetAll demands
    let pieces := source.pieces demands
    let calls := demands.countP fun demand => 0 < demand.size
    let failed := (List.range' entropy.calls calls).filter entropy.fails
    pieces.map List.length = demands.map Demand.size ∧
      drawn.value = List.zipWith Demand.handOut demands pieces ∧
      (∀ piece : List UInt8, piece.length = Demand.token.size →
        (ofBigEndian piece).toNat = Nat.ofDigits 256 (piece.map UInt8.toNat).reverse) ∧
      (∃ ofSystem ofTwister,
        bytesOf (fun call => !entropy.fails call) entropy.calls pieces =
          (List.range' entropy.position ofSystem).map entropy.stream ∧
        bytesOf entropy.fails entropy.calls pieces =
          (List.range ofTwister).map source.fallback.byteAt ∧
        drawn.rest =
          ⟨{ entropy with
              calls := entropy.calls + calls, position := entropy.position + ofSystem },
            source.fallback.skip ofTwister⟩) ∧
      drawn.faults = failed.map (fun call => failure (entropy.reason.ofCall call)) ∧
      (drawn.faults.countP fun fault => fault.code = .externalLibrary) = failed.length ∧
      ∀ other : SecureSource, other.meet (.fill 0) = ⟨.bytes [], [], other⟩ := by
  intro entropy drawn pieces calls failed
  obtain ⟨ofSystem, ofTwister, hread, hmadeUp, hrest, hfaults⟩ :=
    exists_merged source demands bounded
  refine ⟨source.length_pieces demands, source.meetAll_value demands,
    fun piece hpiece => toNat_ofBigEndian (Nat.le_of_eq hpiece),
    ⟨ofSystem, ofTwister, hread, hmadeUp, hrest⟩, hfaults, ?_, fun _ => rfl⟩
  have hreported : drawn.faults = failed.map fun call => failure (entropy.reason.ofCall call) :=
    hfaults
  rw [hreported, List.countP_map]
  exact List.countP_eq_length.mpr fun _ _ => rfl

/-- The second of four calls fails, between two tokens: the token behind it and the last two bytes
go on where the first token stopped. -/
theorem demands_merge_streams_ten :
    let source : SecureSource :=
      { entropy :=
          { stream := UInt8.ofNat
            fails := fun call => call == 1
            reason := ⟨fun call => if call = 1 then "the second" else "another"⟩ }
        fallback := Twister.seeded 1 }
    let demands := [Demand.token, .fill 3, .fill 0, .token, .fill 2]
    let drawn := source.meetAll demands
    (∀ demand ∈ demands, demand.size ≤ SystemEntropy.callLimit) ∧
      bytesOf (fun call => !(call == 1)) 0 (source.pieces demands) =
        [0, 1, 2, 3, 4, 5, 6, 7, 8, 9] ∧
      bytesOf (fun call => call == 1) 0 (source.pieces demands) =
        (List.range 3).map (Twister.seeded 1).byteAt ∧
      drawn.value[3]? = some (.token 0x04050607) ∧
      drawn.rest.entropy.calls = 4 ∧ drawn.faults = [failure "the second"] := by
  intro source demands drawn
  have hbounded : ∀ demand ∈ demands, demand.size ≤ SystemEntropy.callLimit := by decide
  obtain ⟨_, hvalue, _, ⟨ofSystem, ofTwister, hread, hmadeUp, hrest⟩, hfaults, _⟩ :=
    demands_merge_streams source demands hbounded
  have hten : drawn.rest.entropy.position = 10 := by decide +kernel
  have hthree : (bytesOf (fun call => call == 1) 0 (source.pieces demands)).length = 3 := by
    decide +kernel
  have hposition : drawn.rest.entropy.position = 0 + ofSystem :=
    congrArg (fun rest => rest.entropy.position) hrest
  obtain rfl : ofSystem = 10 := by omega
  have hlength := congrArg List.length hmadeUp
  rw [List.length_map, List.length_range] at hlength
  obtain rfl : ofTwister = 3 := hlength.symm.trans hthree
  refine ⟨hbounded, hread.trans (by decide), hmadeUp, ?_, ?_, hfaults⟩
  · rw [hvalue]
    decide +kernel
  · exact congrArg (fun rest => rest.entropy.calls) hrest

end SecureSource

end PathMtu
