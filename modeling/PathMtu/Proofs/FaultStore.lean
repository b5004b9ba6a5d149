import Mathlib.Data.List.DropRight
import Mathlib.Data.List.Induction
import PathMtu.Fault.Log

namespace PathMtu

theorem FaultCode.number_inj {a b : FaultCode} : a.number = b.number ↔ a = b := by
  refine ⟨fun h => ?_, congrArg FaultCode.number⟩
  cases a
  cases b
  exact congrArg FaultCode.mk h

namespace FaultLog

theorem remember_drop (faults : List Fault) (fault : Fault) :
    remember (faults.drop (faults.length - capacity)) fault =
      (faults ++ [fault]).drop ((faults ++ [fault]).length - capacity) := by
  have hall : faults.drop (faults.length - capacity) ++ [fault] =
      (faults ++ [fault]).drop (faults.length - capacity) :=
    (List.drop_append_of_le_length (Nat.sub_le _ _)).symm
  unfold remember
  simp only [hall, List.drop_drop, List.length_drop]
  refine congrArg (fun n => (faults ++ [fault]).drop n) ?_
  rw [List.length_append, List.length_singleton]
  omega

/-- Each code has at most one entry, and the entries are in the order of their codes. -/
def Ascending (counts : List (FaultCode × Nat)) : Prop :=
  counts.Pairwise fun a b => a.1.number < b.1.number

theorem mem_count_of_ne {code other : FaultCode} (h : other ≠ code) {n : Nat}
    (counts : List (FaultCode × Nat)) :
    (other, n) ∈ count code counts ↔ (other, n) ∈ counts := by
  induction counts with
  | nil => simp [count, h]
  | cons entry rest ih =>
    obtain ⟨c, m⟩ := entry
    unfold count
    split
    next hc =>
      subst hc
      simp [h]
    next =>
      split
      next => simp [h]
      next => simp [ih]

theorem Ascending.count {counts : List (FaultCode × Nat)} (sorted : Ascending counts)
    (code : FaultCode) : Ascending (count code counts) := by
  induction counts with
  | nil => exact List.pairwise_singleton _ _
  | cons entry rest ih =>
    obtain ⟨c, m⟩ := entry
    obtain ⟨habove, hrest⟩ := List.pairwise_cons.mp sorted
    unfold FaultLog.count
    split
    next => exact List.pairwise_cons.mpr ⟨habove, hrest⟩
    next hne =>
      split
      next hlt =>
        refine List.pairwise_cons.mpr ⟨fun other hmem => ?_, sorted⟩
        rcases List.mem_cons.mp hmem with rfl | hmem
        · exact hlt
        · exact Int.lt_trans hlt (habove other hmem)
      next hle =>
        refine List.pairwise_cons.mpr ⟨fun other hmem => ?_, ih hrest⟩
        by_cases hcode : other.1 = code
        · have := mt FaultCode.number_inj.mp hne
          rw [hcode]
          show c.number < code.number
          omega
        · exact habove other ((mem_count_of_ne hcode rest).mp hmem)

theorem not_mem_of_above {counts : List (FaultCode × Nat)} {code : FaultCode}
    (above : ∀ entry ∈ counts, code.number < entry.1.number) (n : Nat) : (code, n) ∉ counts :=
  fun hmem => Int.lt_irrefl _ (above _ hmem)

/-- A code without an entry has been counted zero times. -/
theorem mem_count_self {counts : List (FaultCode × Nat)} (sorted : Ascending counts)
    {code : FaultCode} {k : Nat} (holds : ∀ n, (code, n) ∈ counts ↔ 0 < n ∧ n = k) {n : Nat} :
    (code, n) ∈ count code counts ↔ n = k + 1 := by
  have hzero (h : ∀ n, (code, n) ∉ counts) : k = 0 :=
    Nat.eq_zero_of_not_pos fun hk => h k ((holds k).mpr ⟨hk, rfl⟩)
  induction counts with
  | nil =>
    rw [hzero fun _ => List.not_mem_nil]
    simp [count]
  | cons entry rest ih =>
    obtain ⟨c, m⟩ := entry
    obtain ⟨habove, hrest⟩ := List.pairwise_cons.mp sorted
    unfold count
    split
    next hc =>
      subst hc
      have hm : m = k := ((holds m).mp List.mem_cons_self).2
      simp [hm, not_mem_of_above habove]
    next hne =>
      split
      next hlt =>
        have hnot : ∀ n, (code, n) ∉ (c, m) :: rest := not_mem_of_above fun entry hmem => by
          rcases List.mem_cons.mp hmem with rfl | hmem
          · exact hlt
          · exact Int.lt_trans hlt (habove entry hmem)
        rw [List.mem_cons, or_iff_left (hnot n), hzero hnot]
        simp
      next =>
        have hother (n : Nat) : (code, n) ∈ (c, m) :: rest ↔ (code, n) ∈ rest := by
          simp [Ne.symm hne]
        simp only [hother] at holds hzero
        have hmem : (code, n) ∈ FaultLog.count code rest ↔ n = k + 1 := ih hrest holds hzero
        rw [List.mem_cons, hmem]
        simp [Ne.symm hne]

theorem storeAll_concat (log : FaultLog) (faults : List Fault) (fault : Fault) :
    log.storeAll (faults ++ [fault]) = (log.storeAll faults).store fault :=
  List.foldl_concat _ _ _ _

theorem storeAll_recent (faults : List Fault) :
    (storeAll {} faults).recent = faults.drop (faults.length - capacity) := by
  induction faults using List.reverseRecOn with
  | nil => rfl
  | append_singleton faults fault ih =>
    rw [storeAll_concat, ← remember_drop, ← ih]
    rfl

theorem storeAll_ascending (faults : List Fault) :
    Ascending (storeAll {} faults).counts := by
  induction faults using List.reverseRecOn with
  | nil => exact List.Pairwise.nil
  | append_singleton faults fault ih =>
    rw [storeAll_concat]
    exact ih.count fault.code

theorem mem_storeAll_counts (faults : List Fault) {code : FaultCode} {n : Nat} :
    (code, n) ∈ (storeAll {} faults).counts ↔
      0 < n ∧ n = faults.countP fun fault => fault.code = code := by
  induction faults using List.reverseRecOn generalizing n with
  | nil =>
    have hempty : (storeAll {} []).counts = [] := rfl
    rw [hempty, List.countP_nil]
    exact iff_of_false List.not_mem_nil fun h => by omega
  | append_singleton faults fault ih =>
    rw [storeAll_concat, List.countP_append, List.countP_singleton]
    show (code, n) ∈ count fault.code (storeAll {} faults).counts ↔ _
    by_cases h : fault.code = code
    · subst h
      rw [mem_count_self (storeAll_ascending faults) fun _ => ih]
      simp
      omega
    · rw [mem_count_of_ne (Ne.symm h), ih]
      simp [h]

namespace Operation

def fault? : Operation → Option Fault
  | .report fault => some fault
  | _ => none

def clears : Operation → Bool
  | .clear => true
  | _ => false

end Operation

/-- The faults reported since the latest clear, or since the start. -/
def reported (ops : List Operation) : List Fault :=
  (ops.rtakeWhile fun op => !op.clears).filterMap Operation.fault?

theorem reported_concat (ops : List Operation) (op : Operation) :
    reported (ops ++ [op]) =
      match op with
      | .report fault => reported ops ++ [fault]
      | .clear => []
      | _ => reported ops := by
  unfold reported
  rw [List.rtakeWhile_concat]
  cases op with
  | report fault => exact List.filterMap_append
  | clear => rfl
  | subscribe code callback => exact List.filterMap_append.trans (List.append_nil _)
  | switchLogging enabled => exact List.filterMap_append.trans (List.append_nil _)

/-- The logs that operations can lead to. Callbacks may keep a state of their own, so that what they
refuse changes between one operation and the next. -/
inductive Reach : List Operation → FaultLog → Prop
  | start : Reach [] {}
  | next {ops : List Operation} {log : FaultLog} (op : Operation) :
      Reach ops log → Reach (ops ++ [op]) (log.perform op).1
  | changed {ops : List Operation} {log : FaultLog} (callbacks : List (FaultCode × Callback)) :
      Reach ops log → Reach ops { log with callbacks }

theorem Reach.run {ops : List Operation} {log : FaultLog} (h : Reach ops log)
    (more : List Operation) : Reach (ops ++ more) (log.run more).1 := by
  induction more generalizing ops log with
  | nil => rwa [List.append_nil]
  | cons op more ih =>
    rw [List.append_cons]
    exact ih (h.next op)

/-- What a log holds is what an empty one gets from the reported faults alone. -/
theorem Reach.stored {ops : List Operation} {log : FaultLog} (h : Reach ops log) :
    log.recent = (storeAll {} (reported ops)).recent ∧
      log.counts = (storeAll {} (reported ops)).counts := by
  induction h with
  | start => exact ⟨rfl, rfl⟩
  | @next ops log op _ ih =>
    obtain ⟨hrecent, hcounts⟩ := ih
    rw [reported_concat]
    cases op with
    | report fault =>
      show remember log.recent fault = (storeAll {} (reported ops ++ [fault])).recent ∧
        count fault.code log.counts = (storeAll {} (reported ops ++ [fault])).counts
      rw [storeAll_concat, hrecent, hcounts]
      exact ⟨rfl, rfl⟩
    | subscribe code callback => exact ⟨hrecent, hcounts⟩
    | switchLogging enabled => exact ⟨hrecent, hcounts⟩
    | clear => exact ⟨rfl, rfl⟩
  | changed callbacks _ ih => exact ih

/-- A log is exact about what was reported since the latest clear, whatever the callbacks refuse: it
keeps the latest hundred faults in their order, and for each code that occurred it has one entry
with the number of its faults. Operations by which the same faults are reported leave the same,
however they switch logging and whoever they subscribe. -/
theorem log_holds_reported (ops : List Operation) :
    Reach ops (({} : FaultLog).run ops).1 ∧
      ∀ log, Reach ops log →
        log.recent <:+ reported ops ∧ log.recent.length = min (reported ops).length 100 ∧
        (∀ code n, (code, n) ∈ log.counts ↔
          0 < n ∧ n = (reported ops).countP fun fault => fault.code = code) ∧
        Ascending log.counts ∧
        ∀ others other, Reach others other → reported others = reported ops →
          other.recent = log.recent ∧ other.counts = log.counts := by
  refine ⟨Reach.start.run ops, fun log h => ?_⟩
  obtain ⟨hrecent, hcounts⟩ := h.stored
  have hdrop : log.recent = (reported ops).drop ((reported ops).length - 100) :=
    hrecent.trans (storeAll_recent _)
  refine ⟨?_, ?_, ?_, ?_, ?_⟩
  · rw [hdrop]
    exact List.drop_suffix _ _
  · rw [hdrop, List.length_drop]
    omega
  · intro code n
    rw [hcounts]
    exact mem_storeAll_counts _
  · rw [hcounts]
    exact storeAll_ascending _
  · intro others other hother hsame
    obtain ⟨hrecent', hcounts'⟩ := hother.stored
    rw [hrecent', hcounts', hrecent, hcounts, hsame]
    exact ⟨rfl, rfl⟩

/-- After a clear, a callback refuses each of 120 faults: the latest hundred are kept and all are
counted, as they are without the callback. -/
theorem log_holds_reported_120 :
    let refusing : Callback := ⟨"refusing", fun _ => true⟩
    let faults := ⟨.runtime, .unknown, "", "", 0⟩ ::
      List.replicate 120 (⟨.runtime, .operationFailed, "", "", 0⟩ : Fault)
    let ops := [.report {}, .clear, .subscribe .operationFailed refusing, .switchLogging false] ++
      faults.map Operation.report
    let ran := ({} : FaultLog).run ops
    let plain := ({} : FaultLog).run (faults.map Operation.report)
    (ran.2.countP fun dispatched => (dispatched.bind Dispatch.raisedBy).isSome) = 120 ∧
      ran.1.recent <:+ faults ∧ ran.1.recent.length = 100 ∧
      (FaultCode.operationFailed, 120) ∈ ran.1.counts ∧
      (∀ n, (FaultCode.success, n) ∉ ran.1.counts) ∧
      plain.1.recent = ran.1.recent ∧ plain.1.counts = ran.1.counts := by
  intro refusing faults ops ran plain
  obtain ⟨hreach, hholds⟩ := log_holds_reported ops
  obtain ⟨hplain, _⟩ := log_holds_reported (faults.map Operation.report)
  obtain ⟨hlatest, hlength, hcounts, _, hsame⟩ := hholds ran.1 hreach
  have hreported : reported ops = faults := by decide +kernel
  have halike : reported (faults.map Operation.report) = reported ops := by decide +kernel
  rw [hreported] at hlatest hlength
  refine ⟨by decide +kernel, hlatest, hlength.trans (by decide +kernel),
    (hcounts _ _).mpr (by decide +kernel), ?_, hsame _ _ hplain halike⟩
  intro n hmem
  obtain ⟨hpos, hnone⟩ := (hcounts _ _).mp hmem
  have hzero : faults.countP (fun fault => fault.code = .success) = 0 := by decide +kernel
  rw [hreported, hzero] at hnone
  omega

end FaultLog

end PathMtu
