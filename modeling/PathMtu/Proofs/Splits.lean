import Mathlib.Data.List.Basic
import Mathlib.Data.List.Induction

namespace PathMtu

variable {α : Type}

/-- A list that has grown by one member is split at that member, or at one that it had before. -/
theorem split_concat {l before since : List α} {last x : α}
    (h : l ++ [last] = before ++ x :: since) :
    (l = before ∧ last = x ∧ since = []) ∨
      ∃ earlier, since = earlier ++ [last] ∧ l = before ++ x :: earlier := by
  rcases List.eq_nil_or_concat' since with rfl | ⟨earlier, y, rfl⟩
  · obtain ⟨hl, hlast⟩ := List.append_inj' h rfl
    exact Or.inl ⟨hl, List.singleton_inj.mp hlast, rfl⟩
  · rw [← List.cons_append, ← List.append_assoc] at h
    obtain ⟨hl, hlast⟩ := List.append_inj' h rfl
    rw [List.singleton_inj.mp hlast]
    exact Or.inr ⟨earlier, rfl, hl⟩

theorem exists_split_concat {P : List α → α → Prop} {Q : α → Prop} {l : List α} {last : α} :
    (∃ before x since, l ++ [last] = before ++ x :: since ∧ P before x ∧ ∀ y ∈ since, Q y) ↔
      P l last ∨
        Q last ∧ ∃ before x since, l = before ++ x :: since ∧ P before x ∧ ∀ y ∈ since, Q y := by
  constructor
  · rintro ⟨before, x, since, heq, hx, hsince⟩
    rcases split_concat heq with ⟨rfl, rfl, rfl⟩ | ⟨earlier, rfl, rfl⟩
    · exact Or.inl hx
    · obtain ⟨hearlier, hlast⟩ := List.forall_mem_append.mp hsince
      exact Or.inr ⟨hlast _ (List.mem_singleton_self _), before, x, earlier, rfl, hx, hearlier⟩
  · rintro (hlast | ⟨hlast, before, x, since, rfl, hx, hsince⟩)
    · exact ⟨l, last, [], rfl, hlast, nofun⟩
    · refine ⟨before, x, since ++ [last], by simp, hx, ?_⟩
      exact List.forall_mem_append.mpr ⟨hsince, List.forall_mem_singleton.mpr hlast⟩

/-- A list ends with the members that follow the latest one of a kind. -/
theorem exists_split_latest (P : α → Prop) (l : List α) : ∃ upTo rest, l = upTo ++ rest ∧
    (∀ x ∈ rest, ¬P x) ∧ (upTo = [] ∨ ∃ before x, upTo = before ++ [x] ∧ P x) := by
  induction l using List.reverseRecOn with
  | nil => exact ⟨[], [], rfl, nofun, Or.inl rfl⟩
  | append_singleton l x ih =>
    by_cases hx : P x
    · exact ⟨l ++ [x], [], (List.append_nil _).symm, nofun, Or.inr ⟨l, x, rfl, hx⟩⟩
    · obtain ⟨upTo, rest, rfl, hrest, hlatest⟩ := ih
      refine ⟨upTo, rest ++ [x], List.append_assoc _ _ _, ?_, hlatest⟩
      exact List.forall_mem_append.mpr ⟨hrest, List.forall_mem_singleton.mpr hx⟩

end PathMtu
