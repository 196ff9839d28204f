import Scenario.Proofs.Cleaning

namespace Scenario

/-- The characters that lay a text out. -/
def layoutChars : List Char := [' ', '\t', '\r', '\n']

/-- A text without its layout. -/
def content (cs : List Char) : List Char := cs.filter (· ∉ layoutChars)

theorem content_append (cs ds : List Char) : content (cs ++ ds) = content cs ++ content ds :=
  List.filter_append ..

theorem content_cons_of_mem {c : Char} (h : c ∈ layoutChars) (cs : List Char) :
    content (c :: cs) = content cs :=
  List.filter_cons_of_neg (by simpa using h)

theorem content_cons_of_notMem {c : Char} (h : c ∉ layoutChars) (cs : List Char) :
    content (c :: cs) = c :: content cs :=
  List.filter_cons_of_pos (by simpa using h)

theorem content_dropSpaces (line : List Char) : content (dropSpaces line) = content line := by
  induction line with
  | nil => rfl
  | cons c line ih =>
    by_cases hc : c = ' '
    · subst hc
      rw [content_cons_of_mem (by decide), ← ih]
      rfl
    · rw [dropSpaces, List.dropWhile_cons_of_neg (by simpa using hc)]

theorem content_reverse (cs : List Char) : content cs.reverse = (content cs).reverse :=
  List.filter_reverse

theorem content_dropSpacesRight (line : List Char) : content (dropSpacesRight line) = content line := by
  rw [dropSpacesRight, content_reverse, content_dropSpaces, content_reverse, List.reverse_reverse]

theorem content_tabs (line : List Char) :
    content (line.map fun c => if c = '\t' then ' ' else c) = content line := by
  induction line with
  | nil => rfl
  | cons c line ih =>
    rw [List.map_cons]
    by_cases hc : c = '\t'
    · rw [if_pos hc, content_cons_of_mem (by decide), ih, hc, content_cons_of_mem (by decide)]
    · rw [if_neg hc]
      exact (content_append [c] _).trans ((congrArg _ ih).trans (content_append [c] line).symm)

theorem content_trimLine (isFirst isLast : Bool) (line : List Char) :
    content (trimLine isFirst isLast line) = content line := by
  cases isFirst <;> cases isLast <;>
    simp only [trimLine, Bool.false_eq_true, if_true, if_false, content_dropSpaces,
      content_dropSpacesRight, content_tabs]

theorem flatMap_content_trimFrom (isFirst : Bool) (lines : List (List Char)) :
    (trimFrom isFirst lines).flatMap content = lines.flatMap content := by
  induction lines generalizing isFirst with
  | nil => rfl
  | cons line more ih =>
    rw [trimFrom, List.flatMap_cons, List.flatMap_cons, content_trimLine, ih]

theorem flatMap_content_filter (lines : List (List Char)) :
    (lines.filter (· ≠ [])).flatMap content = lines.flatMap content := by
  induction lines with
  | nil => rfl
  | cons line more ih =>
    by_cases hline : line = []
    · subst hline
      simpa [content] using ih
    · rw [List.filter_cons_of_pos (by simpa using hline), List.flatMap_cons, List.flatMap_cons, ih]

theorem content_spaced (lines : List (List Char)) : content (spaced lines) = lines.flatMap content := by
  induction lines with
  | nil => rfl
  | cons line more ih =>
    have hspace : content (line ++ [' ']) = content line := by
      rw [content_append, content_cons_of_mem (by decide)]
      exact List.append_nil _
    rw [spaced, content_append, ih, List.flatMap_cons]
    split
    · rfl
    · rw [hspace]

/-- Only line breaks are between the lines of a text. -/
theorem flatMap_content_textLines (cs : List Char) : (textLines cs).flatMap content = content cs := by
  have hsplits := splits_textLines cs
  generalize textLines cs = lines at hsplits
  induction hsplits with
  | last hline => exact List.append_nil _
  | @next line lineBreak rest lines _ hbreak _ ih =>
    have hempty : content lineBreak = [] := by cases hbreak <;> decide
    rw [List.flatMap_cons, ih, content_append, content_append, hempty, List.append_nil]

theorem toList_cleanText (raw : String) :
    (cleanText raw).toList = spaced (shownLines (textLines raw.toList)) := by
  rw [cleanText, String.toList_ofList, joinLines_eq_spaced, trimFrom_true]
  rfl

theorem content_cleanText (raw : String) : content (cleanText raw).toList = content raw.toList := by
  rw [toList_cleanText, content_spaced, shownLines, flatMap_content_filter, ← trimFrom_true,
    flatMap_content_trimFrom, flatMap_content_textLines]

/-- The layout of a text is blank, so that its content tells whether all of it is. -/
theorem all_isBlank_content (cs : List Char) :
    (content cs).all Text.isBlank = cs.all Text.isBlank := by
  have hlayout : ∀ c ∈ layoutChars, Text.isBlank c = true := List.all_eq_true.1 (by decide)
  induction cs with
  | nil => rfl
  | cons c cs ih =>
    by_cases hc : c ∈ layoutChars
    · rw [content_cons_of_mem hc, ih, List.all_cons, hlayout c hc, Bool.true_and]
    · rw [content_cons_of_notMem hc, List.all_cons, List.all_cons, ih]

theorem all_isBlank_cleanText (raw : String) :
    (cleanText raw).toList.all Text.isBlank = raw.toList.all Text.isBlank := by
  rw [← all_isBlank_content, content_cleanText, all_isBlank_content]

/-- A line without tabs. -/
def IsClean (cs : List Char) : Prop := ∀ c ∈ cs, c ≠ '\t' ∧ c ≠ '\r' ∧ c ≠ '\n'

theorem Splits.isLine {cs : List Char} {lines : List (List Char)} (h : Splits cs lines) :
    ∀ line ∈ lines, IsLine line := by
  induction h with
  | last hline => exact List.forall_mem_singleton.2 hline
  | next hline _ _ ih => exact List.forall_mem_cons.2 ⟨hline, ih⟩

theorem isClean_dropSpaces {line : List Char} (h : IsClean line) : IsClean (dropSpaces line) := by
  intro c hc
  exact h c ((List.dropWhile_suffix _).mem hc)

theorem isClean_dropSpacesRight {line : List Char} (h : IsClean line) :
    IsClean (dropSpacesRight line) := by
  intro c hc
  exact h c ((List.rdropWhile_prefix _ line).mem hc)

theorem isClean_trimLine {line : List Char} (isFirst isLast : Bool) (h : IsLine line) :
    IsClean (trimLine isFirst isLast line) := by
  have htabs : IsClean (line.map fun c => if c = '\t' then ' ' else c) := by
    intro d hd
    obtain ⟨c, hc, rfl⟩ := List.mem_map.1 hd
    split
    · decide
    · rename_i htab
      exact ⟨htab, (h c hc).2, (h c hc).1⟩
  have hleft := isClean_dropSpaces htabs
  cases isFirst <;> cases isLast
  · exact isClean_dropSpacesRight hleft
  · exact hleft
  · exact isClean_dropSpacesRight htabs
  · exact htabs

theorem isClean_of_mem_trimFrom {isFirst : Bool} {lines : List (List Char)}
    (h : ∀ line ∈ lines, IsLine line) : ∀ line ∈ trimFrom isFirst lines, IsClean line := by
  induction lines generalizing isFirst with
  | nil => exact List.forall_mem_nil _
  | cons line more ih =>
    obtain ⟨hline, hmore⟩ := List.forall_mem_cons.1 h
    exact List.forall_mem_cons.2 ⟨isClean_trimLine isFirst more.isEmpty hline, ih hmore⟩

theorem isClean_spaced {lines : List (List Char)} (h : ∀ line ∈ lines, IsClean line) :
    IsClean (spaced lines) := by
  induction lines with
  | nil => exact List.forall_mem_nil _
  | cons line more ih =>
    obtain ⟨hline, hmore⟩ := List.forall_mem_cons.1 h
    have hspace : IsClean [' '] := List.forall_mem_singleton.2 (by decide)
    rw [spaced]
    refine List.forall_mem_append.2 ⟨?_, ih hmore⟩
    split
    · exact hline
    · exact List.forall_mem_append.2 ⟨hline, hspace⟩

theorem isClean_cleanText (raw : String) : IsClean (cleanText raw).toList := by
  rw [toList_cleanText]
  apply isClean_spaced
  intro line hline
  have htrimmed := (List.mem_filter.1 hline).1
  rw [← trimFrom_true] at htrimmed
  exact isClean_of_mem_trimFrom (splits_textLines raw.toList).isLine line htrimmed

/-- A line without tabs is left as it is, but for a space behind a blank one. -/
theorem cleanText_of_isClean {line : List Char} (h : IsClean line) :
    cleanText (String.ofList line) =
      String.ofList (if line ≠ [] ∧ line.all Text.isBlank then line ++ [' '] else line) := by
  have hline : IsLine line := fun c hc => ⟨(h c hc).2.2, (h c hc).2.1⟩
  have htabs : trimLine true true line = line := by
    refine (List.map_congr_left fun c hc => ?_).trans line.map_id
    exact if_neg (h c hc).1
  rw [cleanText, String.toList_ofList, joinLines_eq_spaced, textLines_of_isLine hline]
  congr 1
  by_cases hempty : line = []
  · subst hempty
    rfl
  · cases hblank : line.all Text.isBlank <;>
      simp [trimFrom, htabs, hempty, spaced, isBlankLine, hblank]

/-- Cleaning changes spaces, tabs and line breaks only, and leaves no tab and no line break. Cleaning again
changes nothing exactly if nothing is left or some character of the text is not blank. -/
theorem keeps_content_and_settles (raw : String) :
    content (cleanText raw).toList = content raw.toList ∧
      (∀ c ∈ (cleanText raw).toList, c ≠ '\t' ∧ c ≠ '\r' ∧ c ≠ '\n') ∧
      (cleanText (cleanText raw) = cleanText raw ↔
        cleanText raw = "" ∨ ∃ c ∈ raw.toList, Text.isBlank c = false) := by
  refine ⟨content_cleanText raw, isClean_cleanText raw, ?_⟩
  have hagain := cleanText_of_isClean (isClean_cleanText raw)
  rw [String.ofList_toList, all_isBlank_cleanText] at hagain
  rw [hagain]
  by_cases hgrows : (cleanText raw).toList ≠ [] ∧ raw.toList.all Text.isBlank = true
  · rw [if_pos hgrows]
    constructor
    · intro heq
      have hlength := congrArg (·.toList.length) heq
      simp at hlength
    · rintro (hempty | ⟨c, hc, hblank⟩)
      · exact absurd (String.toList_eq_nil_iff.2 hempty) hgrows.1
      · rw [List.all_eq_true.1 hgrows.2 c hc] at hblank
        cases hblank
  · rw [if_neg hgrows, String.ofList_toList]
    refine iff_of_true rfl ?_
    by_cases hempty : cleanText raw = ""
    · exact .inl hempty
    · have hshown : (cleanText raw).toList ≠ [] := mt String.toList_eq_nil_iff.1 hempty
      have hblank : ¬raw.toList.all Text.isBlank = true := fun h => hgrows ⟨hshown, h⟩
      right
      simpa using hblank

example : cleanText (cleanText " ") = "   " := by decide

end Scenario
