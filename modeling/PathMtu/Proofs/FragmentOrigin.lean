import PathMtu.Proofs.FragmentSize

namespace PathMtu

namespace Session

variable {σ : Type} [RandomSource σ]

/-- What a call that opens the search again or sets the fragment size leaves as that size. -/
theorem after_concat_fragment (s : Session σ) (before : List Call) {call : Call}
    (hcall : call.Restarts ∨ call.Resizes) :
    (∃ time, call = .restart time ∧
        (s.after (before ++ [call])).fragment = (s.after before).fragment) ∨
      ∃ size, call = .setFragment size ∧ (s.after (before ++ [call])).fragment = size := by
  rw [after_append]
  cases call with
  | tick => exact absurd hcall (not_or.mpr ⟨id, id⟩)
  | reply => exact absurd hcall (not_or.mpr ⟨id, id⟩)
  | restart time => exact Or.inl ⟨time, rfl, rfl⟩
  | setFragment size => exact Or.inr ⟨size, rfl, rfl⟩

/-- The fragment size is the one that the start, the latest restart or the latest size that was set
has left: the configured one, the one from before the restart, or that size. Once a reply has been
accepted since then, or a tick has found the search converged, it is the lower bound. -/
theorem fragment_eq_base_or_low (config : Config) (now : Int) (source : σ) (calls : List Call) :
    let first := start config now source
    let s := first.after calls
    ∃ earlier rest, calls = earlier ++ rest ∧ (∀ call ∈ rest, ¬call.Restarts ∧ ¬call.Resizes) ∧
      (earlier = [] ∧ (first.after earlier).fragment = config.fragmentSize.toNat ∨
        (∃ before time, earlier = before ++ [.restart time] ∧
          (first.after earlier).fragment = (first.after before).fragment) ∨
        ∃ before size, earlier = before ++ [.setFragment size] ∧
          (first.after earlier).fragment = size) ∧
      ((∀ before call later, rest = before ++ call :: later →
          ¬(first.after (earlier ++ before)).SetsFragment call) →
        s.fragment = (first.after earlier).fragment) ∧
      ∀ before call later, rest = before ++ call :: later →
        (first.after (earlier ++ before)).SetsFragment call → s.fragment = s.low := by
  intro first s
  obtain ⟨earlier, rest, rfl, hrest, hlatest⟩ :=
    exists_split_latest (fun call => call.Restarts ∨ call.Resizes) calls
  have hs : s = (first.after earlier).after rest := after_append first earlier rest
  refine ⟨earlier, rest, rfl, fun call hcall => not_or.mp (hrest call hcall), ?_, ?_, ?_⟩
  · rcases hlatest with rfl | ⟨before, call, rfl, hcall⟩
    · exact Or.inl ⟨rfl, rfl⟩
    · rcases after_concat_fragment first before hcall with
        ⟨time, rfl, hkept⟩ | ⟨size, rfl, hset⟩
      · exact Or.inr (Or.inl ⟨before, time, rfl, hkept⟩)
      · exact Or.inr (Or.inr ⟨before, size, rfl, hset⟩)
  · intro hkeeps
    rw [hs]
    apply after_fragment_of_keeps
    intro before call later heq
    rw [← after_append]
    exact hkeeps before call later heq
  · rintro before call later rfl hsets
    rw [hs]
    apply fragment_eq_low_of_set
    · exact fun call hcall => (not_or.mp (hrest call hcall)).2
    · rw [after_append] at hsets
      refine ⟨before, call, later, rfl, hsets, ?_⟩
      intro next hnext
      have hmem := List.mem_append_right before (List.mem_cons_of_mem call hnext)
      exact (not_or.mp (hrest next hmem)).1

end Session

end PathMtu
