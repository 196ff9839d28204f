import Mathlib.Data.List.DropRight
import Scenario.Component.Text

namespace Scenario

/-- Whether no line break is among characters. -/
def IsLine (cs : List Char) : Prop := ∀ c ∈ cs, c ≠ '\n' ∧ c ≠ '\r'

/-- The line breaks in front of a text. A CR is one unless it is the first half of another. -/
inductive LineBreak (rest : List Char) : List Char → Prop where
  | lf : LineBreak rest ['\n']
  | crlf : LineBreak rest ['\r', '\n']
  | cr : rest.head? ≠ some '\n' → LineBreak rest ['\r']

/-- The lines that a text is split into at all its line breaks. -/
inductive Splits : List Char → List (List Char) → Prop where
  | last {line : List Char} : IsLine line → Splits line [line]
  | next {line lineBreak rest : List Char} {lines : List (List Char)} : IsLine line →
    LineBreak rest lineBreak → Splits rest lines → Splits (line ++ lineBreak ++ rest) (line :: lines)

theorem isLine_nil : IsLine [] := by simp [IsLine]

theorem isLine_cons {c : Char} {cs : List Char} :
    IsLine (c :: cs) ↔ (c ≠ '\n' ∧ c ≠ '\r') ∧ IsLine cs := by
  simp [IsLine]

/-- One more character in front of the first line. -/
theorem Splits.cons {c : Char} {cs line : List Char} {more : List (List Char)}
    (hc : c ≠ '\n' ∧ c ≠ '\r') (h : Splits cs (line :: more)) :
    Splits (c :: cs) ((c :: line) :: more) := by
  cases h with
  | last hline => exact .last (isLine_cons.2 ⟨hc, hline⟩)
  | next hline hbreak hrest => exact .next (isLine_cons.2 ⟨hc, hline⟩) hbreak hrest

theorem splits_textLines (cs : List Char) : Splits cs (textLines cs) := by
  fun_induction textLines cs with
  | case1 => exact .last isLine_nil
  | case2 rest ih => exact .next isLine_nil .crlf ih
  | case3 rest ih => exact .next isLine_nil .lf ih
  | case4 rest hrest ih =>
    refine .next isLine_nil (.cr ?_) ih
    intro hhead
    obtain ⟨more, hmore⟩ := List.head?_eq_some_iff.1 hhead
    exact hrest more hmore
  | case5 c rest _ hn hr line more hlines ih =>
    rw [hlines] at ih
    exact ih.cons ⟨hn, hr⟩
  | case6 c rest _ hn hr hlines ih =>
    rw [hlines] at ih
    cases ih

theorem textLines_cons {c : Char} {cs line : List Char} {more : List (List Char)}
    (hc : c ≠ '\n' ∧ c ≠ '\r') (h : textLines cs = line :: more) :
    textLines (c :: cs) = (c :: line) :: more := by
  rw [textLines]
  · rw [h]
  all_goals simp_all

theorem textLines_append {line lineBreak rest : List Char} (hline : IsLine line)
    (hbreak : LineBreak rest lineBreak) :
    textLines (line ++ lineBreak ++ rest) = line :: textLines rest := by
  induction line with
  | nil =>
    cases hbreak with
    | lf => rfl
    | crlf => rfl
    | cr hrest =>
      cases rest with
      | nil => rfl
      | cons c rest =>
        have hc : c ≠ '\n' := by simpa using hrest
        rw [List.nil_append, List.singleton_append, textLines]
        simpa using hc
  | cons c line ih =>
    obtain ⟨hc, hline⟩ := isLine_cons.1 hline
    exact textLines_cons hc (ih hline)

theorem textLines_of_isLine {line : List Char} (hline : IsLine line) : textLines line = [line] := by
  induction line with
  | nil => rfl
  | cons c line ih =>
    obtain ⟨hc, hline⟩ := isLine_cons.1 hline
    exact textLines_cons hc (ih hline)

/-- A text has lines in one way only. -/
theorem splits_iff {cs : List Char} {lines : List (List Char)} :
    Splits cs lines ↔ lines = textLines cs := by
  constructor
  · intro h
    induction h with
    | last hline => rw [textLines_of_isLine hline]
    | next hline hbreak _ ih => rw [textLines_append hline hbreak, ih]
  · rintro rfl
    exact splits_textLines cs

/-- The lines of a text with tabs read as spaces, without the leading spaces of all lines but the first
and the trailing spaces of all lines but the last. -/
def trimmedLines (lines : List (List Char)) : List (List Char) :=
  lines.mapIdx fun i line =>
    let line := line.map fun c => if c = '\t' then ' ' else c
    let line := if i = 0 then line else line.dropWhile (· = ' ')
    if i + 1 = lines.length then line else line.rdropWhile (· = ' ')

/-- The lines of which something is left. -/
def shownLines (lines : List (List Char)) : List (List Char) := (trimmedLines lines).filter (· ≠ [])

/-- Lines trimmed one after the other. -/
def trimFrom (isFirst : Bool) : List (List Char) → List (List Char)
  | [] => []
  | line :: more => trimLine isFirst more.isEmpty line :: trimFrom false more

theorem trimFrom_eq_mapIdx (isFirst : Bool) (lines : List (List Char)) :
    trimFrom isFirst lines =
      lines.mapIdx fun i line => trimLine (isFirst && i == 0) (i + 1 == lines.length) line := by
  induction lines generalizing isFirst with
  | nil => rfl
  | cons line more ih =>
    have hlast : (0 + 1 == (line :: more).length) = more.isEmpty := by
      cases more <;> rfl
    rw [trimFrom, ih, List.mapIdx_cons, hlast]
    simp

theorem trimFrom_true (lines : List (List Char)) : trimFrom true lines = trimmedLines lines := by
  rw [trimFrom_eq_mapIdx, trimmedLines]
  congr 1
  funext i line
  simp only [trimLine, dropSpaces, dropSpacesRight, List.rdropWhile, Bool.true_and, beq_iff_eq]

/-- Whether a line has blank characters only. -/
def isBlankLine (line : List Char) : Bool := line.all Text.isBlank

theorem isBlankLine_dropSpaces (line : List Char) :
    isBlankLine (dropSpaces line) = isBlankLine line := by
  induction line with
  | nil => rfl
  | cons c line ih =>
    by_cases hc : c = ' '
    · subst hc
      have hspace : Text.isBlank ' ' = true := by decide
      simpa [dropSpaces, isBlankLine, hspace] using ih
    · simp [dropSpaces, hc]

theorem isBlankLine_dropSpacesRight (line : List Char) :
    isBlankLine (dropSpacesRight line) = isBlankLine line := by
  have hreverse (cs : List Char) : isBlankLine cs.reverse = isBlankLine cs := List.all_reverse
  rw [dropSpacesRight, hreverse, isBlankLine_dropSpaces, hreverse]

/-- Only blank characters are trimmed. -/
theorem isBlankLine_trimLine (isFirst isLast : Bool) (line : List Char) :
    isBlankLine (trimLine isFirst isLast line) = isBlankLine line := by
  have htabs : isBlankLine (line.map fun c => if c = '\t' then ' ' else c) = isBlankLine line := by
    have hblank (c : Char) : Text.isBlank (if c = '\t' then ' ' else c) = Text.isBlank c := by
      split
      · rename_i hc
        subst hc
        decide
      · rfl
    simp only [isBlankLine, List.all_map, Function.comp_def, hblank]
  cases isFirst <;> cases isLast <;>
    simp [trimLine, isBlankLine_dropSpaces, isBlankLine_dropSpacesRight, htabs]

theorem all_isBlankLine_trimFrom (isFirst : Bool) (lines : List (List Char)) :
    (trimFrom isFirst lines).all isBlankLine = lines.all isBlankLine := by
  induction lines generalizing isFirst with
  | nil => rfl
  | cons line more ih => simp only [trimFrom, List.all_cons, isBlankLine_trimLine, ih]

theorem all_isBlankLine_filter (lines : List (List Char)) :
    (lines.filter (· ≠ [])).all isBlankLine = lines.all isBlankLine := by
  induction lines with
  | nil => rfl
  | cons line more ih =>
    by_cases hline : line = []
    · subst hline
      simpa [isBlankLine] using ih
    · simpa [hline] using congrArg (isBlankLine line && ·) ih

/-- A line behind the first does not start with a space. -/
theorem head?_of_mem_trimFrom {lines : List (List Char)} {line : List Char}
    (h : line ∈ trimFrom false lines) : line.head? ≠ some ' ' := by
  have hleft (cs : List Char) : (dropSpaces cs).head? ≠ some ' ' := by
    intro hhead
    have hnot := List.head?_dropWhile_not (fun c => decide (c = ' ')) cs
    rw [dropSpaces] at hhead
    simp [hhead] at hnot
  have hright (cs : List Char) (hcs : cs.head? ≠ some ' ') :
      (dropSpacesRight cs).head? ≠ some ' ' := by
    intro hhead
    obtain ⟨rest, hrest⟩ := List.rdropWhile_prefix (fun c => decide (c = ' ')) cs
    apply hcs
    rw [← hrest, List.head?_append]
    exact congrArg (Option.or · _) hhead
  induction lines with
  | nil => cases h
  | cons first more ih =>
    rcases List.mem_cons.1 h with rfl | h
    · rw [trimLine]
      simp only [Bool.false_eq_true, if_false]
      split
      · exact hleft _
      · exact hright _ (hleft _)
    · exact ih h

/-- Lines, each with a space behind it but the last one that is not blank. -/
def spaced : List (List Char) → List Char
  | [] => []
  | line :: more =>
    (if !isBlankLine line && more.all isBlankLine then line else line ++ [' ']) ++ spaced more

theorem joinLines_eq_spaced (isFirst : Bool) (lines : List (List Char)) :
    joinLines isFirst lines = spaced ((trimFrom isFirst lines).filter (· ≠ [])) := by
  induction lines generalizing isFirst with
  | nil => rfl
  | cons line more ih =>
    rw [joinLines, trimFrom, ih]
    by_cases htrimmed : trimLine isFirst more.isEmpty line = []
    · simp [htrimmed]
    · have hblank : line.all Text.isBlank = isBlankLine (trimLine isFirst more.isEmpty line) :=
        (isBlankLine_trimLine isFirst more.isEmpty line).symm
      have hmore : more.all (·.all Text.isBlank) =
          ((trimFrom false more).filter (· ≠ [])).all isBlankLine := by
        rw [all_isBlankLine_filter, all_isBlankLine_trimFrom]
        rfl
      rw [List.filter_cons_of_pos (by simpa using htrimmed), spaced, hblank, hmore, if_neg htrimmed]

theorem spaced_append_blank {line : List Char} (h : isBlankLine line = true)
    (lines : List (List Char)) : spaced (lines ++ [line]) = spaced lines ++ (line ++ [' ']) := by
  induction lines with
  | nil => simp [spaced, h]
  | cons first more ih =>
    simp only [List.cons_append, spaced, ih, List.all_append, List.all_cons, h, List.all_nil,
      Bool.and_true, List.append_assoc]

theorem spaced_append_shown {line : List Char} (h : isBlankLine line = false)
    (lines : List (List Char)) :
    spaced (lines ++ [line]) = lines.flatMap (· ++ [' ']) ++ line := by
  induction lines with
  | nil => simp [spaced, h]
  | cons first more ih => simp [spaced, ih, h]

theorem intercalate_append_singleton (lines : List (List Char)) (line : List Char) :
    [' '].intercalate (lines ++ [line]) = lines.flatMap (· ++ [' ']) ++ line := by
  induction lines with
  | nil => simp
  | cons first more ih =>
    rw [List.cons_append, List.intercalate_cons_of_ne_nil (by simp), ih]
    simp

/-- The lines up to the last one that is not blank are joined, and each line behind it has a space behind
itself. -/
theorem spaced_eq (lines : List (List Char)) :
    spaced lines = [' '].intercalate (lines.rdropWhile isBlankLine) ++
      (lines.rtakeWhile isBlankLine).flatMap (· ++ [' ']) := by
  induction lines using List.reverseRecOn with
  | nil => rfl
  | append_singleton lines line ih =>
    by_cases hline : isBlankLine line = true
    · rw [spaced_append_blank hline, ih, List.rdropWhile_concat_pos _ _ _ hline,
        List.rtakeWhile_concat_pos _ _ _ hline]
      simp
    · rw [spaced_append_shown (by simpa using hline), List.rdropWhile_concat_neg _ _ _ hline,
        List.rtakeWhile_concat_neg _ _ _ hline, intercalate_append_singleton]
      simp

theorem intercalate_append {lines more : List (List Char)} (hlines : lines ≠ []) (hmore : more ≠ []) :
    [' '].intercalate (lines ++ more) = [' '].intercalate lines ++ ' ' :: [' '].intercalate more := by
  induction lines with
  | nil => exact absurd rfl hlines
  | cons first others ih =>
    rw [List.cons_append]
    cases others with
    | nil => simp [List.intercalate_cons_of_ne_nil hmore]
    | cons second rest =>
      rw [List.intercalate_cons_of_ne_nil (by simp), ih (by simp), List.intercalate_cons_cons]
      simp

/-- Lines with a space behind each of them are not the lines joined, not even behind other lines that
are: there is one space too many, or the first space is missing. -/
theorem append_flatMap_ne_intercalate {kept rest : List (List Char)} (hrest : rest ≠ [])
    (hshown : ∀ line ∈ rest, line ≠ [])
    (hstart : kept ≠ [] → ∀ line ∈ rest, line.head? ≠ some ' ') :
    [' '].intercalate kept ++ rest.flatMap (· ++ [' ']) ≠ [' '].intercalate (kept ++ rest) := by
  intro heq
  -- By themselves they are longer by the last space. Behind other lines they are not, but then a space
  -- would have to be where the first of them starts.
  by_cases hkept : kept = []
  · have hspace : rest.flatMap (· ++ [' ']) = [' '].intercalate rest ++ [' '] := by
      obtain ⟨lines, line, rfl⟩ := (List.eq_nil_or_concat' rest).resolve_left hrest
      rw [intercalate_append_singleton]
      simp
    subst hkept
    simp [hspace] at heq
  · rw [intercalate_append hkept hrest, List.append_cancel_left_eq] at heq
    obtain ⟨line, more, rfl⟩ := List.exists_cons_of_ne_nil hrest
    have hline : line ≠ [] := hshown line List.mem_cons_self
    obtain ⟨c, cs, rfl⟩ := List.exists_cons_of_ne_nil hline
    have hc : c ≠ ' ' := by simpa using hstart hkept (c :: cs) List.mem_cons_self
    exact hc (List.cons.inj heq).1

/-- The lines behind the first one that is shown do not start with a space. -/
theorem head?_of_mem_tail_shownLines {lines : List (List Char)} {line : List Char}
    (h : line ∈ (shownLines lines).tail) : line.head? ≠ some ' ' := by
  rw [shownLines, ← trimFrom_true] at h
  cases lines with
  | nil => cases h
  | cons first more =>
    rw [trimFrom] at h
    have hmem : line ∈ trimFrom false more := by
      by_cases hfirst : trimLine true more.isEmpty first = []
      · rw [List.filter_cons_of_neg (by simpa using hfirst)] at h
        exact (List.mem_filter.1 (List.mem_of_mem_tail h)).1
      · rw [List.filter_cons_of_pos (by simpa using hfirst), List.tail_cons] at h
        exact (List.mem_filter.1 h).1
    exact head?_of_mem_trimFrom hmem

/-- The space behind a blank line at the end is what tells the two ways of joining apart. -/
theorem spaced_shownLines_iff (lines : List (List Char)) :
    spaced (shownLines lines) = [' '].intercalate (shownLines lines) ↔
      (shownLines lines).rtakeWhile isBlankLine = [] := by
  have hparts : (shownLines lines).rdropWhile isBlankLine ++ (shownLines lines).rtakeWhile isBlankLine =
      shownLines lines := List.rdropWhile_append_rtakeWhile
  rw [spaced_eq]
  constructor
  · intro heq
    by_contra hrest
    refine append_flatMap_ne_intercalate hrest ?_ ?_ (heq.trans (by rw [hparts]))
    · intro line hline
      have hmem : line ∈ shownLines lines := (List.rtakeWhile_suffix _ _).mem hline
      simpa using (List.mem_filter.1 hmem).2
    · intro hkept line hline
      have hmem : line ∈ (shownLines lines).tail := by
        rw [← hparts, List.tail_append_of_ne_nil hkept]
        exact List.mem_append_right _ hline
      exact head?_of_mem_tail_shownLines hmem
  · intro hrest
    rw [hrest, List.append_nil] at hparts
    rw [hrest, hparts, List.flatMap_nil, List.append_nil]

theorem rtakeWhile_eq_nil_iff_getLast? {α : Type} {p : α → Bool} {as : List α} :
    as.rtakeWhile p = [] ↔ ∀ a, as.getLast? = some a → p a = false := by
  rw [List.rtakeWhile_eq_nil_iff]
  cases as with
  | nil => simp
  | cons a more => simp [List.getLast?_eq_some_getLast (List.cons_ne_nil a more)]

/-- A text has its lines in one way, and cleaning joins those that are shown by single spaces exactly if the
last of them is not blank. In any case the lines up to the last one that is not blank are joined so, and
each line behind that one has a space behind itself. -/
theorem cleanText_eq_intercalate_iff (raw : String) :
    ∃ lines, (∀ other, Splits raw.toList other ↔ other = lines) ∧
      (cleanText raw).toList =
        [' '].intercalate ((shownLines lines).rdropWhile isBlankLine) ++
          ((shownLines lines).rtakeWhile isBlankLine).flatMap (· ++ [' ']) ∧
      ((cleanText raw).toList = [' '].intercalate (shownLines lines) ↔
        ∀ line, (shownLines lines).getLast? = some line → isBlankLine line = false) := by
  have hclean : (cleanText raw).toList = spaced (shownLines (textLines raw.toList)) := by
    rw [cleanText, String.toList_ofList, joinLines_eq_spaced, trimFrom_true]
    rfl
  refine ⟨textLines raw.toList, fun _ => splits_iff, ?_, ?_⟩
  · rw [hclean, spaced_eq]
  · rw [hclean, spaced_shownLines_iff, rtakeWhile_eq_nil_iff_getLast?]

example : cleanText " " = "  " := by decide

end Scenario
