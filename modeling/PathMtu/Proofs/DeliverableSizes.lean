import Mathlib.Order.UpperLower.Basic
import PathMtu.Proofs.Delivery

namespace PathMtu

namespace Framing

/-- The overhead as words hold it: both of its parts in 16 bits, the sum in 64. -/
def wordOverhead (framing : Framing) : UInt64 :=
  (UInt16.ofNat framing.headerSize).toUInt64 + (UInt16.ofNat probeHeaderSize).toUInt64

/-- The payload for a target of 16 bits. -/
def wordPayloadLength (framing : Framing) (target : UInt16) : UInt64 :=
  if target.toUInt64 ≤ framing.wordOverhead then UInt64.ofNat leastPayload
  else target.toUInt64 - framing.wordOverhead

def wordEncodedSize (framing : Framing) (payload : UInt64) : UInt64 :=
  framing.wordOverhead + payload

theorem headerSize_le (framing : Framing) : framing.headerSize ≤ 10 := by
  unfold headerSize Compression.markSize checksumSize countWidth markWidth plainSizeWidth
    checksumWidth
  split <;> split <;> omega

theorem toNat_wordOverhead (framing : Framing) :
    framing.wordOverhead.toNat = framing.overhead := by
  have hheader := framing.headerSize_le
  have heleven : probeHeaderSize = 11 := rfl
  unfold wordOverhead overhead
  rw [UInt64.toNat_add, UInt16.toNat_toUInt64, UInt16.toNat_toUInt64, UInt16.toNat_ofNat',
    UInt16.toNat_ofNat']
  omega

theorem toNat_wordPayloadLength (framing : Framing) (target : UInt16) :
    (framing.wordPayloadLength target).toNat = framing.payloadLength target.toNat := by
  have hoverhead := framing.toNat_wordOverhead
  have hle : target.toUInt64 ≤ framing.wordOverhead ↔ target.toNat ≤ framing.overhead := by
    rw [UInt64.le_iff_toNat_le, UInt16.toNat_toUInt64, hoverhead]
  unfold wordPayloadLength payloadLength
  by_cases h : target.toNat ≤ framing.overhead
  · rw [if_pos (hle.mpr h), if_pos h]
    rfl
  · rw [if_neg (mt hle.mp h), if_neg h, UInt64.toNat_sub_of_le, UInt16.toNat_toUInt64, hoverhead]
    rw [UInt64.le_iff_toNat_le, UInt16.toNat_toUInt64, hoverhead]
    omega

/-- No sum of words overflows when a probe for a target of 16 bits is measured. -/
theorem toNat_wordEncodedSize (sender framing : Framing) (target : UInt16) :
    (framing.wordEncodedSize (sender.wordPayloadLength target)).toNat =
      framing.encodedSize (sender.payloadLength target.toNat) := by
  have hheader := framing.headerSize_le
  have heleven : probeHeaderSize = 11 := rfl
  have htarget := target.toNat_lt
  have hpayload := sender.payloadLength_eq_max target.toNat
  unfold wordEncodedSize encodedSize
  rw [UInt64.toNat_add, toNat_wordOverhead, toNat_wordPayloadLength]
  unfold overhead at *
  omega

end Framing

namespace Path

theorem after_fits (path : Path) (earlier : List Probe) (probe : Probe) :
    (path.after earlier).Fits probe ↔ path.Fits probe := by
  induction earlier generalizing path with
  | nil => rfl
  | cons first earlier ih => rw [after_cons, ih, deliver_fits]

/-- Unless the loss process takes it, a probe is answered exactly when it fits. -/
theorem deliver_reply_iff {path : Path} {probe : Probe}
    (kept : (path.deliver probe).2.lost = path.lost) :
    (path.deliver probe).1 = some probe.reply ↔ path.Fits probe := by
  have hsize : path.fate probe = .oversize ↔ ¬path.Fits probe := fate_eq_oversize_iff
  unfold deliver at kept ⊢
  generalize path.fate probe = fate at hsize kept ⊢
  cases fate with
  | delivered => exact iff_of_true rfl (Decidable.not_not.mp (mt hsize.mpr nofun))
  | oversize => exact iff_of_false nofun (hsize.mp rfl)
  | lost => exact absurd kept (Nat.succ_ne_self _)

/-- The target sizes for which the sender, with a framing of its own, makes probes that fit. -/
def carried (path : Path) (sender : Framing) : Set Nat :=
  {size | path.framing.encodedSize (sender.payloadLength size) ≤ path.mtu}

theorem fits_iff_mem_carried {path : Path} {sender : Framing} {probe : Probe} {size : Nat}
    (shape : probe.payload.size = sender.payloadLength size) :
    path.Fits probe ↔ size ∈ path.carried sender := by
  show path.framing.encodedSize probe.payload.size ≤ path.mtu ↔ _
  rw [shape]
  rfl

/-- The least payload has to fit, and what the sender takes for overhead is made up for. -/
theorem mem_carried_iff {path : Path} {sender : Framing} {size : Nat} :
    size ∈ path.carried sender ↔
      path.framing.overhead + 1 ≤ path.mtu ∧
        size + path.framing.overhead ≤ path.mtu + sender.overhead := by
  show path.framing.encodedSize (sender.payloadLength size) ≤ path.mtu ↔ _
  rw [Framing.payloadLength_eq_max]
  unfold Framing.encodedSize
  omega

theorem isLowerSet_carried (path : Path) (sender : Framing) : IsLowerSet (path.carried sender) := by
  intro size smaller hle hmem
  obtain ⟨hleast, hcutoff⟩ := mem_carried_iff.mp hmem
  exact mem_carried_iff.mpr ⟨hleast, by omega⟩

theorem carried_self {path : Path} (room : path.framing.overhead < path.mtu) :
    path.carried path.framing = Set.Iic path.mtu := by
  ext size
  rw [mem_carried_iff, Set.mem_Iic]
  omega

/-- The sizes that a path answers are cut off at one point, also when the sender is wrong about the
framing. A probe that random loss spares is answered exactly when the least payload fits and the
target, less the sender's overhead and with the path's own, is within the MTU. So whatever is
smaller than an answered size is answered as well. If both agree on the framing and it leaves room
for a payload, then the cutoff is the MTU. Words of 16 and 64 bits come to the same result. -/
theorem answered_sizes_cutoff (sender : Framing) (path : Path) :
    let a := sender.headerSize + Framing.probeHeaderSize
    let b := path.framing.headerSize + Framing.probeHeaderSize
    (∀ (probe : Probe) (size : Nat), probe.payload.size = sender.payloadLength size →
        probe.encodedSize path.framing = b + max 1 (size - a)) ∧
      (∀ (earlier : List Probe) (probe : Probe) (size : Nat),
        probe.payload.size = sender.payloadLength size →
        ((path.after earlier).deliver probe).2.lost = (path.after earlier).lost →
        (((path.after earlier).deliver probe).1 = some probe.reply ↔
          size ∈ path.carried sender)) ∧
      (∀ size, size ∈ path.carried sender ↔ b + 1 ≤ path.mtu ∧ size + b ≤ path.mtu + a) ∧
      IsLowerSet (path.carried sender) ∧
      (sender = path.framing → b < path.mtu → path.carried sender = Set.Iic path.mtu) ∧
      ∀ size mtu : UInt16, path.mtu = mtu.toNat →
        (path.framing.wordEncodedSize (sender.wordPayloadLength size) ≤ mtu.toUInt64 ↔
          size.toNat ∈ path.carried sender) := by
  intro a b
  refine ⟨?_, ?_, fun _ => mem_carried_iff, path.isLowerSet_carried sender, ?_, ?_⟩
  · intro probe size shape
    show path.framing.overhead + probe.payload.size = b + max 1 (size - a)
    rw [shape, Framing.payloadLength_eq_max]
    rfl
  · intro earlier probe size shape kept
    rw [deliver_reply_iff kept, after_fits, fits_iff_mem_carried shape]
  · rintro rfl room
    exact carried_self room
  · intro size mtu hmtu
    rw [UInt64.le_iff_toNat_le, Framing.toNat_wordEncodedSize, UInt16.toNat_toUInt64, ← hmtu]
    rfl

/-- A sender that knows nothing of the checksum and of lz4, on a path of 110 bytes that frames with
both: after an oversize probe, a target of 102 bytes is answered, and so is any smaller one. -/
theorem answered_sizes_cutoff_102 :
    let path : Path := { framing := ⟨.lz4, true⟩, mtu := 110, lossRate := 0, generator := ⟨#[], 0⟩ }
    let now := path.after [⟨103, 1, Array.replicate 90 0⟩]
    let probe : Probe := ⟨102, 2, Array.replicate 89 0⟩
    (now.deliver probe).2.lost = now.lost ∧ (now.deliver probe).1 = some probe.reply ∧
      probe.encodedSize path.framing = 110 ∧ path.carried {} = Set.Iic 102 ∧
      path.carried ⟨.lz4, true⟩ = Set.Iic 110 ∧
      (path.framing.wordEncodedSize (({} : Framing).wordPayloadLength 102) ≤
          (110 : UInt16).toUInt64 ↔
        102 ∈ path.carried {}) := by
  intro path now probe
  obtain ⟨hencoded, hanswer, hcutoff, _, _, hwords⟩ := answered_sizes_cutoff {} path
  obtain ⟨_, _, _, _, hagreed, _⟩ := answered_sizes_cutoff ⟨.lz4, true⟩ path
  have shape : probe.payload.size = ({} : Framing).payloadLength 102 := by decide +kernel
  have kept : (now.deliver probe).2.lost = now.lost := by decide +kernel
  have hmem : 102 ∈ path.carried {} := (hcutoff 102).mpr (by decide)
  refine ⟨kept, (hanswer _ probe 102 shape kept).mpr hmem, hencoded probe 102 shape, ?_,
    hagreed rfl (by decide), hwords 102 110 rfl⟩
  ext size
  have hsum : size + 21 ≤ 110 + 13 ↔ size ≤ 102 := by omega
  exact (hcutoff size).trans ((and_iff_right (by decide)).trans hsum)

end Path

end PathMtu
