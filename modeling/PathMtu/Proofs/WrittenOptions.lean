import PathMtu.CommandLine
import Mathlib.Data.List.Forall2

namespace PathMtu.CommandLine

/-- The words that an option can be written with, its name in full: a flag alone, the others with
their text behind an equal sign or in a word of its own. -/
inductive Given.Written (given : Given) : List String → Prop where
  | flag (h : given.entry.action.takesValue = false) (ht : given.text = "") :
    given.Written [String.ofList ('-' :: '-' :: given.entry.name.toList)]
  | assigned (h : given.entry.action.takesValue) (ht : given.text ≠ "") :
    given.Written
      [String.ofList ('-' :: '-' :: (given.entry.name.toList ++ '=' :: given.text.toList))]
  | apart (h : given.entry.action.takesValue) (ht : checkValue given.entry given.text = .ok ()) :
    given.Written [String.ofList ('-' :: '-' :: given.entry.name.toList), given.text]

/-- No name is empty or holds an equal sign. -/
theorem name_plain : ∀ entry ∈ table, entry.name ≠ "" ∧ '=' ∉ entry.name.toList := by
  decide

/-- An option is found by its own name, whichever other names begin with it. -/
theorem lookUp_name (word : String) : ∀ entry ∈ table, lookUp word entry.name = .ok entry := by
  simp only [table, List.forall_mem_cons]
  refine ⟨rfl, rfl, rfl, rfl, rfl, rfl, rfl, rfl, rfl, rfl, rfl, rfl, rfl, rfl, rfl, rfl, rfl, ?_⟩
  simp

/-- A name goes up to the first equal sign. -/
theorem takeWhile_name {name : List Char} (h : '=' ∉ name) (rest : List Char) :
    (name ++ rest).takeWhile (· ≠ '=') = name ++ rest.takeWhile (· ≠ '=') ∧
      (name ++ rest).dropWhile (· ≠ '=') = rest.dropWhile (· ≠ '=') := by
  have hname : ∀ c ∈ name, decide (c ≠ '=') = true := fun c hc =>
    decide_eq_true fun hequal => h (hequal ▸ hc)
  exact ⟨List.takeWhile_append_of_pos hname, List.dropWhile_append_of_pos hname⟩

theorem ofString_name {name : String} (hne : name ≠ "") (h : '=' ∉ name.toList) :
    Word.ofString (String.ofList ('-' :: '-' :: name.toList)) = .long name none := by
  obtain ⟨c, rest, hcons⟩ :=
    List.exists_cons_of_ne_nil fun hnil => hne (String.toList_eq_nil_iff.mp hnil)
  obtain ⟨htake, hdrop⟩ := takeWhile_name h []
  simp only [List.append_nil, List.takeWhile_nil, List.dropWhile_nil] at htake hdrop
  rw [hcons] at htake hdrop
  simp only [Word.ofString, String.toList_ofList, hcons, htake, hdrop]
  rw [← hcons, String.ofList_toList]

theorem ofString_assigned {name : String} (hne : name ≠ "") (h : '=' ∉ name.toList)
    (text : String) :
    Word.ofString (String.ofList ('-' :: '-' :: (name.toList ++ '=' :: text.toList))) =
      .long name (some text) := by
  obtain ⟨c, rest, hcons⟩ :=
    List.exists_cons_of_ne_nil fun hnil => hne (String.toList_eq_nil_iff.mp hnil)
  obtain ⟨htake, hdrop⟩ := takeWhile_name h ('=' :: text.toList)
  rw [List.takeWhile_cons_of_neg (by decide), List.append_nil, hcons] at htake
  rw [List.dropWhile_cons_of_neg (by decide), hcons] at hdrop
  simp only [List.cons_append] at htake hdrop
  simp only [Word.ofString, String.toList_ofList, hcons, List.cons_append, htake, hdrop]
  rw [← hcons, String.ofList_toList, String.ofList_toList]

/-- A name in full says that its option is given, or that its value comes next. -/
theorem readWord_name {entry : Entry} (h : entry ∈ table) :
    readWord (String.ofList ('-' :: '-' :: entry.name.toList)) =
      .ok (if entry.action.takesValue then .awaits entry else .complete [{ entry }]) := by
  obtain ⟨hname, hplain⟩ := name_plain entry h
  simp only [readWord, ofString_name hname hplain, lookUp_name _ entry h]
  rfl

theorem readWord_assigned {entry : Entry} (h : entry ∈ table) (hv : entry.action.takesValue)
    {text : String} (ht : text ≠ "") :
    readWord (String.ofList ('-' :: '-' :: (entry.name.toList ++ '=' :: text.toList))) =
      .ok (.complete [{ entry, text }]) := by
  obtain ⟨hname, hplain⟩ := name_plain entry h
  simp only [readWord, ofString_assigned hname hplain, lookUp_name _ entry h, if_neg ht,
    if_neg hname]
  exact if_pos hv

/-- What is written in front is read first, and the rest is read as if it stood alone. -/
theorem split_written {given : Given} {words : List String} (hw : given.Written words)
    (h : given.entry ∈ table) (rest : List String) :
    split none (words ++ rest) = (split none rest).map (given :: ·) := by
  obtain ⟨entry, text⟩ := given
  cases hw with
  | flag hflag htext =>
    obtain rfl : text = "" := htext
    simp only [List.singleton_append, split, readWord_name h, hflag]
    rfl
  | assigned hvalue htext =>
    simp only [List.singleton_append, split, readWord_assigned h hvalue htext]
    rfl
  | apart hvalue hcheck =>
    have hname := readWord_name h
    rw [if_pos hvalue] at hname
    simp only [List.cons_append, List.nil_append, split, hname]
    change (do
      checkValue entry text
      return (⟨entry, text⟩ : Given) :: (← split none rest)) = _
    rw [hcheck]
    rfl

/-- Options that are written in full are read back as they were given. -/
theorem split_flatten {givens : List Given} {words : List (List String)}
    (hw : List.Forall₂ Given.Written givens words) (h : ∀ given ∈ givens, given.entry ∈ table) :
    split none words.flatten = .ok givens := by
  induction hw with
  | nil => rfl
  | @cons given _ givens _ hfirst _ ih =>
    have hrest := ih fun other hother => h other (List.mem_cons_of_mem given hother)
    rw [List.flatten_cons, split_written hfirst (h given List.mem_cons_self), hrest]
    rfl

/-- The texts are read, each by its own option. -/
abbrev ReadAs (givens : List Given) (changes : List (Demand → Demand)) : Prop :=
  List.Forall₂ (fun given change => given.entry.read given.text = some change) givens changes

/-- Options are stored when none comes twice and every text is read. -/
theorem store_eq_ok_iff {givens : List Given} {demand result : Demand} {seen : List String} :
    store demand seen givens = .ok result ↔
      (∀ given ∈ givens, given.entry.name ∉ seen) ∧ (givens.map (·.entry.name)).Nodup ∧
        ∃ changes, ReadAs givens changes ∧
          changes.foldl (fun demand change => change demand) demand = result := by
  induction givens generalizing demand seen with
  | nil => simp [store, ReadAs, List.forall₂_nil_left_iff]
  | cons given givens ih =>
    by_cases hseen : given.entry.name ∈ seen
    · simp [store, hseen]
    cases hread : given.entry.read given.text with
    | none => simp [store, hseen, hread, ReadAs, List.forall₂_cons_left_iff]
    | some change =>
      simp only [store, if_neg hseen, hread, ih, List.forall_mem_cons, List.map_cons,
        List.nodup_cons]
      constructor
      · rintro ⟨hnew, hnodup, changes, hchanges, rfl⟩
        refine ⟨⟨hseen, fun other hother => ?_⟩, ⟨?_, hnodup⟩, change :: changes,
          .cons hread hchanges, rfl⟩
        · exact fun hmem => hnew other hother (List.mem_cons_of_mem _ hmem)
        · intro hmem
          obtain ⟨other, hother, hequal⟩ := List.mem_map.mp hmem
          exact hnew other hother (hequal ▸ List.mem_cons_self)
      · rintro ⟨⟨-, hnew⟩, ⟨hfirst, hnodup⟩, _, hchanges, rfl⟩
        obtain ⟨change', changes, hhead, htail, rfl⟩ := List.forall₂_cons_left_iff.mp hchanges
        obtain rfl : change = change' := Option.some.inj (hread.symm.trans hhead)
        refine ⟨fun other hother hmem => ?_, hnodup, changes, htail, rfl⟩
        rcases List.mem_cons.mp hmem with hequal | hmem
        · exact hfirst (hequal ▸ List.mem_map_of_mem hother)
        · exact hnew other hother hmem

/-- Options that are written in full are carried out in their order when none comes twice and every
text is read, and refused otherwise. -/
theorem parse_flatten {givens : List Given} {words : List (List String)}
    (hw : List.Forall₂ Given.Written givens words) (h : ∀ given ∈ givens, given.entry ∈ table)
    {command : Command} :
    parse words.flatten = .ok command ↔
      (givens.map (·.entry.name)).Nodup ∧
        ∃ changes, ReadAs givens changes ∧
          (changes.foldl (fun demand change => change demand) ({} : Demand)).command = command := by
  have hstore : parse words.flatten = (store {} [] givens).map Demand.command := by
    rw [parse, split_flatten hw h]
    rfl
  rw [hstore]
  constructor
  · intro hok
    cases hdemand : store {} [] givens with
    | error error =>
      rw [hdemand] at hok
      cases hok
    | ok demand =>
      rw [hdemand] at hok
      obtain rfl := Except.ok.inj hok
      obtain ⟨-, hnodup, changes, hchanges, hresult⟩ := store_eq_ok_iff.mp hdemand
      exact ⟨hnodup, changes, hchanges, congrArg Demand.command hresult⟩
  · rintro ⟨hnodup, changes, hchanges, rfl⟩
    rw [store_eq_ok_iff.mpr ⟨fun _ _ => List.not_mem_nil, hnodup, changes, hchanges, rfl⟩]
    rfl

end PathMtu.CommandLine
