import Scenario.Proofs.CleanedContent
import Scenario.Proofs.MarkupText
import Scenario.Proofs.Trees

namespace Scenario

open Syntax

theorem ne_of_not_isBlank {c d : Char} (hc : Text.isBlank c = false) (hd : Text.isBlank d = true) :
    c ≠ d := by
  rintro rfl
  rw [hd] at hc
  cases hc

theorem not_break_of_not_isBlank {c : Char} (hc : Text.isBlank c = false) : c ≠ '\n' ∧ c ≠ '\r' :=
  ⟨ne_of_not_isBlank hc (by decide), ne_of_not_isBlank hc (by decide)⟩

theorem Splits.append {line cs first : List Char} {later : List (List Char)} (hline : IsLine line)
    (h : Splits cs (first :: later)) : Splits (line ++ cs) ((line ++ first) :: later) := by
  induction line with
  | nil => exact h
  | cons c line ih =>
    obtain ⟨hc, hline⟩ := isLine_cons.1 hline
    exact (ih hline).cons hc

/-- A character that breaks no line joins the last line before it and the first one behind it. -/
theorem splits_append_cons {c : Char} (hc : c ≠ '\n' ∧ c ≠ '\r') {before after last first : List Char}
    {earlier later : List (List Char)} (hbefore : Splits before (earlier ++ [last]))
    (hafter : Splits after (first :: later)) :
    Splits (before ++ c :: after) (earlier ++ (last ++ c :: first) :: later) := by
  induction earlier generalizing before with
  | nil =>
    cases hbefore with
    | last hline => exact (hafter.cons hc).append hline
    | next _ _ hrest => cases hrest
  | cons line more ih =>
    rw [List.cons_append] at hbefore
    generalize hlines : more ++ [last] = lines at hbefore
    cases hbefore with
    | last => simp at hlines
    | @next _ lineBreak rest _ hline hbreak hrest =>
      subst hlines
      have hbreak' : LineBreak (rest ++ c :: after) lineBreak := by
        cases hbreak with
        | lf => exact .lf
        | crlf => exact .crlf
        | cr hhead =>
          refine .cr ?_
          cases rest with
          | nil => simpa using hc.1
          | cons d rest => simpa using hhead
      have hjoined := Splits.next hline hbreak' (ih hrest)
      simpa using hjoined

/-- Lines in front of others, trimmed. -/
def trimInit (isFirst : Bool) : List (List Char) → List (List Char)
  | [] => []
  | line :: more => trimLine isFirst false line :: trimInit false more

theorem trimFrom_append (isFirst : Bool) (earlier : List (List Char)) (line : List Char)
    (later : List (List Char)) :
    trimFrom isFirst (earlier ++ line :: later) =
      trimInit isFirst earlier ++
        trimLine (isFirst && earlier.isEmpty) later.isEmpty line :: trimFrom false later := by
  induction earlier generalizing isFirst with
  | nil => simp [trimInit, trimFrom]
  | cons first more ih =>
    have hmore : (more ++ line :: later).isEmpty = false := by
      cases more <;> rfl
    rw [List.cons_append, trimFrom, trimInit, ih, hmore]
    simp

theorem dropWhile_append_cons {p : Char → Bool} {c : Char} (hc : p c = false) (left right : List Char) :
    (left ++ c :: right).dropWhile p = left.dropWhile p ++ c :: right := by
  induction left with
  | nil => simp [hc]
  | cons d left ih => by_cases hd : p d = true <;> simp [hd, ih]

theorem rdropWhile_append_cons {p : Char → Bool} {c : Char} (hc : p c = false) (left right : List Char) :
    (left ++ c :: right).rdropWhile p = left ++ c :: right.rdropWhile p := by
  have hreverse : (left ++ c :: right).reverse = right.reverse ++ c :: left.reverse := by simp
  rw [List.rdropWhile, hreverse, dropWhile_append_cons hc, List.rdropWhile]
  simp

/-- A line is trimmed on either side of a character that is no space by itself. -/
theorem trimLine_append_cons {c : Char} (hspace : c ≠ ' ') (htab : c ≠ '\t') (isFirst isLast : Bool)
    (left right : List Char) :
    trimLine isFirst isLast (left ++ c :: right) =
      trimLine isFirst true left ++ c :: trimLine true isLast right := by
  have hleft (l r : List Char) : dropSpaces (l ++ c :: r) = dropSpaces l ++ c :: r :=
    dropWhile_append_cons (by simpa using hspace) l r
  have hright (l r : List Char) : dropSpacesRight (l ++ c :: r) = l ++ c :: dropSpacesRight r :=
    rdropWhile_append_cons (by simpa using hspace) l r
  cases isFirst <;> cases isLast <;> simp [trimLine, htab, hleft, hright]

/-- Lines with a space behind each. -/
def spacedAll (lines : List (List Char)) : List Char := lines.flatMap (· ++ [' '])

theorem spaced_append {lines : List (List Char)} (h : lines.all isBlankLine = false)
    (earlier : List (List Char)) :
    spaced (earlier ++ lines) = spacedAll earlier ++ spaced lines := by
  induction earlier with
  | nil => rfl
  | cons first more ih =>
    have hmore : (more ++ lines).all isBlankLine = false := by
      rw [List.all_append, h, Bool.and_false]
    rw [List.cons_append, spaced, hmore, ih]
    simp [spacedAll]

theorem spaced_of_all_blank {lines : List (List Char)} (h : lines.all isBlankLine = true) :
    spaced lines = spacedAll lines := by
  induction lines with
  | nil => rfl
  | cons first more ih =>
    rw [List.all_cons, Bool.and_eq_true] at h
    rw [spaced, h.1, ih h.2]
    simp [spacedAll]

theorem all_isBlank_spaced (lines : List (List Char)) :
    (spaced lines).all Text.isBlank = lines.all isBlankLine := by
  have hspace : Text.isBlank ' ' = true := by decide
  induction lines with
  | nil => rfl
  | cons line more ih =>
    rw [spaced, List.all_append, ih, List.all_cons]
    split <;> simp [isBlankLine, hspace]

theorem trimLeft_of_all_blank {cs : List Char} (h : cs.all Text.isBlank = true) :
    Text.trimLeft cs = [] := by
  rw [Text.trimLeft, List.dropWhile_eq_nil_iff]
  exact List.all_eq_true.1 h

/-- Behind a character that is not blank nothing is trimmed from the left. -/
theorem trimLeft_append {cs : List Char} (h : cs.all Text.isBlank = false) (more : List Char) :
    Text.trimLeft (cs ++ more) = Text.trimLeft cs ++ more := by
  induction cs with
  | nil => cases h
  | cons c cs ih =>
    by_cases hc : Text.isBlank c = true
    · have hcs : cs.all Text.isBlank = false := by simpa [hc] using h
      simpa [Text.trimLeft, hc] using ih hcs
    · simp [Text.trimLeft, hc]

theorem trimRight_eq_reverse (cs : List Char) :
    Text.trimRight cs = (Text.trimLeft cs.reverse).reverse := rfl

theorem trimRight_of_all_blank {cs : List Char} (h : cs.all Text.isBlank = true) :
    Text.trimRight cs = [] := by
  rw [trimRight_eq_reverse, trimLeft_of_all_blank (by rwa [List.all_reverse]), List.reverse_nil]

/-- In front of a character that is not blank nothing is trimmed from the right. -/
theorem trimRight_append {cs : List Char} (h : cs.all Text.isBlank = false) (more : List Char) :
    Text.trimRight (more ++ cs) = more ++ Text.trimRight cs := by
  rw [trimRight_eq_reverse, List.reverse_append, trimLeft_append (by rwa [List.all_reverse]),
    List.reverse_append, List.reverse_reverse, trimRight_eq_reverse]

/-- A text is trimmed on either side of a character that is not blank by itself. -/
theorem trim_append_cons {c : Char} (hc : Text.isBlank c = false) (left right : List Char) :
    Text.trimRight (Text.trimLeft (left ++ c :: right)) =
      Text.trimLeft left ++ c :: Text.trimRight right := by
  have hleft : Text.trimLeft (left ++ c :: right) = Text.trimLeft left ++ c :: right :=
    dropWhile_append_cons hc left right
  have hright (l : List Char) : Text.trimRight (l ++ c :: right) = l ++ c :: Text.trimRight right :=
    rdropWhile_append_cons hc l right
  rw [hleft, hright]

theorem head?_spacedAll_append {lines : List (List Char)} {last : List Char}
    (hlines : ∀ line ∈ lines, line ≠ [] ∧ line.head? ≠ some ' ') (hlast : last.head? ≠ some ' ') :
    (spacedAll lines ++ last).head? ≠ some ' ' := by
  cases lines with
  | nil => exact hlast
  | cons line more =>
    obtain ⟨hne, hhead⟩ := hlines line List.mem_cons_self
    obtain ⟨c, cs, rfl⟩ := List.exists_cons_of_ne_nil hne
    simpa [spacedAll] using hhead

/-- Lines up to the last one that is not blank. -/
theorem exists_last_shown {lines : List (List Char)} (h : lines.all isBlankLine = false) :
    ∃ earlier line later, lines = earlier ++ line :: later ∧ isBlankLine line = false ∧
      later.all isBlankLine = true := by
  induction lines with
  | nil => cases h
  | cons first more ih =>
    by_cases hmore : more.all isBlankLine = true
    · have hfirst : isBlankLine first = false := by simpa [hmore] using h
      exact ⟨[], first, more, rfl, hfirst, hmore⟩
    · obtain ⟨earlier, line, later, rfl, hline, hlater⟩ := ih (by simpa using hmore)
      exact ⟨first :: earlier, line, later, rfl, hline, hlater⟩

theorem spaced_of_last_shown {earlier later : List (List Char)} {line : List Char}
    (hline : isBlankLine line = false) (hlater : later.all isBlankLine = true) :
    spaced (earlier ++ line :: later) = spacedAll earlier ++ line ++ spacedAll later := by
  rw [spaced_append (by simp [hline]), spaced, spaced_of_all_blank hlater, hline, hlater]
  simp [spacedAll]

/-- Blank lines at the end have the space on the wrong side. -/
theorem spacedAll_ne_cons {lines : List (List Char)} {last : List Char}
    (hstart : (spacedAll lines ++ last).head? ≠ some ' ') :
    spacedAll (lines ++ [last].filter (· ≠ [])) ≠ ' ' :: (spacedAll lines ++ last) ∧
      (spacedAll (lines ++ [last].filter (· ≠ []))).length ≤ (spacedAll lines ++ last).length + 1 := by
  by_cases hlast : last = []
  · subst hlast
    have hempty : [([] : List Char)].filter (· ≠ []) = [] := rfl
    rw [hempty, List.append_nil, List.append_nil]
    refine ⟨?_, by simp⟩
    intro heq
    have hlength := congrArg List.length heq
    simp at hlength
  · have hone : [last].filter (· ≠ []) = [last] := by simp [hlast]
    have hspaced : spacedAll (lines ++ [last]) = (spacedAll lines ++ last) ++ [' '] := by
      simp [spacedAll]
    rw [hone, hspaced]
    refine ⟨?_, by rw [List.length_append, List.length_singleton]⟩
    intro heq
    obtain ⟨c, cs, hcs⟩ := List.exists_cons_of_ne_nil (List.append_ne_nil_of_right_ne_nil
      (spacedAll lines) hlast)
    rw [hcs] at heq hstart
    have hc : c = ' ' := (List.cons.inj heq).1
    exact hstart (by rw [hc]; rfl)

/-- The text before a character, cleaned by itself, is what the character has before it in one text,
unless there is something in earlier lines only. Then a space is missing. -/
theorem trimLeft_spaced_iff {lines : List (List Char)} {last : List Char}
    (hshown : ∀ line ∈ lines, line ≠ [])
    (hmore : ∀ line ∈ (lines ++ [last].filter (· ≠ [])).tail, line.head? ≠ some ' ') :
    (Text.trimLeft (spaced (lines ++ [last].filter (· ≠ []))) = Text.trimLeft (spacedAll lines ++ last) ↔
      isBlankLine last = false ∨ lines.all isBlankLine = true) ∧
    (Text.trimLeft (spaced (lines ++ [last].filter (· ≠ [])))).length ≤
      (Text.trimLeft (spacedAll lines ++ last)).length := by
  by_cases hblank : isBlankLine last = true
  · have hends : ([last].filter (· ≠ [])).all isBlankLine = true := by
      rw [all_isBlankLine_filter]
      simpa using hblank
    by_cases hlines : lines.all isBlankLine = true
    · have hall : (lines ++ [last].filter (· ≠ [])).all isBlankLine = true := by
        rw [List.all_append, hlines, hends, Bool.and_true]
      have hleft : (spaced (lines ++ [last].filter (· ≠ []))).all Text.isBlank = true := by
        rw [all_isBlank_spaced, hall]
      have hright : (spacedAll lines ++ last).all Text.isBlank = true := by
        rw [← spaced_of_all_blank hlines, List.all_append, all_isBlank_spaced, hlines, Bool.true_and]
        exact hblank
      rw [trimLeft_of_all_blank hleft, trimLeft_of_all_blank hright]
      simp [hlines]
    · -- Both texts are alike up to the last line that is not blank. Only one has a space behind it.
      obtain ⟨earlier, line, later, rfl, hline, hlater⟩ := exists_last_shown (by simpa using hlines)
      have hbehind : ∀ l ∈ later ++ [last].filter (· ≠ []), l.head? ≠ some ' ' := by
        intro l hl
        refine hmore l ?_
        cases earlier <;> simp_all
      have hlast : last.head? ≠ some ' ' := by
        by_cases hempty : last = []
        · simp [hempty]
        · exact hbehind last (by simp [hempty])
      have hstart : (spacedAll later ++ last).head? ≠ some ' ' := by
        refine head?_spacedAll_append ?_ hlast
        intro l hl
        exact ⟨hshown l (by simp [hl]), hbehind l (List.mem_append_left _ hl)⟩
      have halike : (spacedAll earlier ++ line).all Text.isBlank = false := by
        have hline : line.all Text.isBlank = false := hline
        rw [List.all_append, hline, Bool.and_false]
      have hall : (later ++ [last].filter (· ≠ [])).all isBlankLine = true := by
        rw [List.all_append, hlater, hends, Bool.and_true]
      have hleft : spaced (earlier ++ line :: later ++ [last].filter (· ≠ [])) =
          (spacedAll earlier ++ line) ++ spacedAll (later ++ [last].filter (· ≠ [])) := by
        rw [List.append_assoc, List.cons_append, spaced_of_last_shown hline hall]
      have hright : spacedAll (earlier ++ line :: later) ++ last =
          (spacedAll earlier ++ line) ++ ' ' :: (spacedAll later ++ last) := by
        simp [spacedAll]
      obtain ⟨hne, hle⟩ := spacedAll_ne_cons hstart
      rw [hleft, hright, trimLeft_append halike, trimLeft_append halike]
      refine ⟨?_, by simpa using hle⟩
      rw [List.append_cancel_left_eq]
      simp only [hne, hblank, hlines, Bool.true_eq_false, Bool.false_eq_true, or_self]
  · have hne : last ≠ [] := by
      rintro rfl
      exact hblank rfl
    have hone : [last].filter (· ≠ []) = [last] := by simp [hne]
    rw [hone, spaced_append_shown (by simpa using hblank)]
    simp [spacedAll, hblank]

/-- What follows a character in its text: the rest of its line, and the lines behind that with a space in
front if one of them is not blank. -/
def followed (first : List Char) (lines : List (List Char)) : List Char :=
  first ++ (if lines.all isBlankLine then [] else [' ']) ++ spaced lines

/-- A line with a character that is not blank in it has a space behind each line before it. -/
theorem spaced_append_cons {c : Char} (hc : Text.isBlank c = false) (earlier : List (List Char))
    (last first : List Char) (later : List (List Char)) :
    spaced (earlier ++ (last ++ c :: first) :: later) =
      (spacedAll earlier ++ last) ++ c :: followed first later := by
  have hline : isBlankLine (last ++ c :: first) = false := by simp [isBlankLine, hc]
  rw [spaced_append (by simp [hline]), spaced, hline, followed]
  by_cases hlater : later.all isBlankLine = true <;> simp [hlater]

/-- The text behind a character, cleaned by itself, is what follows the character in one text, unless
nothing is left of its first line and there is something in later lines. Then a space is missing. -/
theorem trimRight_spaced_iff (first : List Char) (later : List (List Char)) :
    (Text.trimRight (spaced ([first].filter (· ≠ []) ++ later)) = Text.trimRight (followed first later) ↔
      first ≠ [] ∨ later.all isBlankLine = true) ∧
    (Text.trimRight (spaced ([first].filter (· ≠ []) ++ later))).length ≤
      (Text.trimRight (followed first later)).length := by
  by_cases hfirst : first = []
  · subst hfirst
    have hempty : [([] : List Char)].filter (· ≠ []) = [] := rfl
    rw [hempty, List.nil_append]
    by_cases hlater : later.all isBlankLine = true
    · simp [followed, hlater]
    · have hshown : (spaced later).all Text.isBlank = false := by
        rw [all_isBlank_spaced]
        simpa using hlater
      have hfollowed : followed [] later = [' '] ++ spaced later := by simp [followed, hlater]
      rw [hfollowed, trimRight_append hshown]
      refine ⟨?_, by simp⟩
      simp [hlater]
  · have hone : [first].filter (· ≠ []) = [first] := by simp [hfirst]
    rw [hone, List.singleton_append, spaced]
    by_cases hlater : later.all isBlankLine = true
    · by_cases hblank : isBlankLine first = true
      · have hspace : Text.isBlank ' ' = true := by decide
        have hall : first.all Text.isBlank = true := hblank
        have hlines : (spaced later).all Text.isBlank = true := by rw [all_isBlank_spaced, hlater]
        have hleft : ((first ++ [' ']) ++ spaced later).all Text.isBlank = true := by
          simp only [List.all_append, hall, hlines, List.all_cons, hspace, List.all_nil, Bool.and_true]
        have hright : (followed first later).all Text.isBlank = true := by
          simp [followed, hlater, hall, hlines]
        rw [hblank, trimRight_of_all_blank hright, Bool.not_true, Bool.false_and,
          if_neg Bool.false_ne_true, trimRight_of_all_blank hleft]
        simp [hlater]
      · simp [followed, hlater, hblank]
    · simp [followed, hlater, hfirst]

theorem all_isBlankLine_trimInit (isFirst : Bool) (lines : List (List Char)) :
    (trimInit isFirst lines).all isBlankLine = lines.all isBlankLine := by
  induction lines generalizing isFirst with
  | nil => rfl
  | cons line more ih => simp only [trimInit, List.all_cons, isBlankLine_trimLine, ih]

/-- Something is left of a line in front of a line break if it has more than spaces and tabs. -/
theorem trimLine_ne_nil_iff (line : List Char) :
    trimLine true false line ≠ [] ↔ ∃ c ∈ line, c ≠ ' ' ∧ c ≠ '\t' := by
  have hempty : trimLine true false line = [] ↔ ∀ c ∈ line, c = ' ' ∨ c = '\t' := by
    change (line.map fun c => if c = '\t' then ' ' else c).rdropWhile _ = [] ↔ _
    rw [List.rdropWhile_eq_nil_iff, List.forall_mem_map]
    refine forall₂_congr fun c _ => ?_
    by_cases hc : c = '\t' <;> simp [hc]
  rw [ne_eq, hempty]
  simp only [not_forall, not_or, exists_prop]

theorem append_cons_eq_iff {a a' b b' : List Char} {c : Char} (ha : a.length ≤ a'.length)
    (hb : b.length ≤ b'.length) : a ++ c :: b = a' ++ c :: b' ↔ a = a' ∧ b = b' := by
  constructor
  · intro heq
    have hlength := congrArg List.length heq
    simp only [List.length_append, List.length_cons] at hlength
    obtain ⟨hleft, hright⟩ := List.append_inj heq (by omega)
    exact ⟨hleft, (List.cons.inj hright).2⟩
  · rintro ⟨rfl, rfl⟩
    rfl

/-- A text in three pieces, cleaned one by one, is the text cleaned as a whole, unless the piece before
or the piece behind the character has something only in lines that the character is not in. -/
theorem trim_pieces_iff {c : Char} (hc : Text.isBlank c = false) {before after last first : List Char}
    {earlier later : List (List Char)} (hbefore : Splits before (earlier ++ [last]))
    (hafter : Splits after (first :: later)) :
    Text.trimLeft (spaced (shownLines (textLines before))) ++
        c :: Text.trimRight (spaced (shownLines (textLines after))) =
      Text.trimRight (Text.trimLeft (spaced (shownLines (textLines (before ++ c :: after))))) ↔
    (isBlankLine last = false ∨ earlier.all isBlankLine = true) ∧
      ((∃ x ∈ first, x ≠ ' ' ∧ x ≠ '\t') ∨ later.all isBlankLine = true) := by
  have hspace : c ≠ ' ' := ne_of_not_isBlank hc (by decide)
  have htab : c ≠ '\t' := ne_of_not_isBlank hc (by decide)
  have hjoined := splits_append_cons (not_break_of_not_isBlank hc) hbefore hafter
  have hbeforeLines : shownLines (textLines before) =
      (trimInit true earlier).filter (· ≠ []) ++
        [trimLine earlier.isEmpty true last].filter (· ≠ []) := by
    rw [← splits_iff.1 hbefore, shownLines, ← trimFrom_true, trimFrom_append, ← List.filter_append]
    simp [trimFrom]
  have hafterLines : shownLines (textLines after) =
      [trimLine true later.isEmpty first].filter (· ≠ []) ++ (trimFrom false later).filter (· ≠ []) := by
    rw [← splits_iff.1 hafter, shownLines, ← trimFrom_true, trimFrom, ← List.filter_append]
    rfl
  have hjoinedLines : shownLines (textLines (before ++ c :: after)) =
      (trimInit true earlier).filter (· ≠ []) ++
        (trimLine earlier.isEmpty true last ++ c :: trimLine true later.isEmpty first) ::
          (trimFrom false later).filter (· ≠ []) := by
    rw [← splits_iff.1 hjoined, shownLines, ← trimFrom_true, trimFrom_append,
      trimLine_append_cons hspace htab, List.filter_append, List.filter_cons_of_pos (by simp)]
    simp
  have hshown : ∀ line ∈ (trimInit true earlier).filter (· ≠ []), line ≠ [] := by
    intro line hline
    simpa using (List.mem_filter.1 hline).2
  obtain ⟨hleft, hleftLength⟩ := trimLeft_spaced_iff hshown (fun line hline =>
    head?_of_mem_tail_shownLines (hbeforeLines ▸ hline))
  obtain ⟨hright, hrightLength⟩ := trimRight_spaced_iff (trimLine true later.isEmpty first)
    ((trimFrom false later).filter (· ≠ []))
  rw [hbeforeLines, hafterLines, hjoinedLines, spaced_append_cons hc, trim_append_cons hc,
    append_cons_eq_iff hleftLength hrightLength, hleft, hright, isBlankLine_trimLine,
    all_isBlankLine_filter, all_isBlankLine_filter, all_isBlankLine_trimInit, all_isBlankLine_trimFrom]
  cases later with
  | nil => simp
  | cons line more => rw [List.isEmpty_cons, trimLine_ne_nil_iff]

theorem isBlank_of_mem_blankRanges {c : Char} {low high : Nat} (h : (low, high) ∈ Text.blankRanges)
    (hlow : low ≤ c.toNat) (hhigh : c.toNat ≤ high) : Text.isBlank c = true := by
  rw [Text.isBlank, Text.inRanges, List.any_eq_true]
  exact ⟨(low, high), h, by simp [hlow, hhigh]⟩

theorem isBlank_of_isBreakSpace {c : Char} (h : isBreakSpace c = true) : Text.isBlank c = true := by
  simp only [isBreakSpace, isAsciiSpace, Bool.or_eq_true, Bool.and_eq_true, decide_eq_true_eq,
    List.contains_iff_mem, List.mem_cons, List.not_mem_nil, or_false] at h
  obtain ((hspace | ⟨hlow, hhigh⟩) | hnamed) | ⟨⟨hlow, hhigh⟩, -⟩ := h
  · rw [hspace]
    decide
  · exact isBlank_of_mem_blankRanges (by decide) hlow hhigh
  · obtain h | h | h | h | h := hnamed <;> (rw [h]; decide)
  · exact isBlank_of_mem_blankRanges (by decide) hlow hhigh

/-- Runs that do not count are blank. -/
theorem all_isBlank_of_not_textCounts {afterBreak : Bool} {cs : List Char}
    (h : textCounts afterBreak cs = false) : cs.all Text.isBlank = true := by
  fun_induction textCounts afterBreak cs with
  | case1 => rfl
  | case2 _ more ih =>
    rw [List.all_cons, ih h]
    decide
  | case3 afterBreak c more _ ih =>
    rw [Bool.or_eq_false_iff, Bool.not_eq_false', Bool.and_eq_true] at h
    rw [List.all_cons, isBlank_of_isBreakSpace h.1.2, ih h.2, Bool.and_true]

/-- The `text` property of an element, given what stands inside it. -/
def TreeContext.elementText (t : TreeContext) (name : String) (attributes : List Node) (line : Nat)
    (children : List Node) : Option Value :=
  (t.build (.element name attributes children line)).1.properties.get? "text"

theorem texts_content (t : TreeContext) (raws : List String) :
    (t.content (raws.map Node.text)).texts =
      ((raws.map cleanText).filter (· ≠ "")).map TextPiece.text := by
  induction raws with
  | nil => rfl
  | cons raw more ih =>
    rw [List.map_cons, TreeContext.content, Content.texts_append, ih, TreeContext.childContent]
    by_cases hempty : cleanText raw = "" <;> simp [hempty]

theorem fixedText_map_text (ss : List String) :
    TextPiece.fixedText (ss.map TextPiece.text) = Text.trim (String.join ss) := by
  have htexts : (ss.map TextPiece.text).filterMap TextPiece.text? = ss := by
    rw [List.filterMap_map]
    exact List.filterMap_some
  rw [TextPiece.fixedText, htexts]

theorem joinedText_map_text (name : String) (line : Nat) {ss : List String} (hss : ss ≠ []) :
    (TreeContext.joinedText name line (ss.map TextPiece.text)).1 =
      some (.string (Text.trim (String.join ss))) := by
  have hall : (ss.map TextPiece.text).all (·.text?.isSome) = true := by
    rw [List.all_map, List.all_eq_true]
    intro s _
    rfl
  obtain ⟨s, more, rfl⟩ := List.exists_cons_of_ne_nil hss
  rw [← fixedText_map_text]
  unfold TreeContext.joinedText
  split
  · rename_i heq
    cases heq
  · rename_i heq
    cases heq
  · rw [if_pos hall]

theorem join_filter_ne_empty (ss : List String) :
    String.join (ss.filter (· ≠ "")) = String.join ss := by
  apply String.toList_injective
  rw [String.toList_join, String.toList_join]
  induction ss with
  | nil => rfl
  | cons s more ih =>
    by_cases hempty : s = ""
    · rw [List.filter_cons_of_neg (by simpa using hempty), ih, hempty]
      rfl
    · rw [List.filter_cons_of_pos (by simpa using hempty), List.flatMap_cons, ih, List.flatMap_cons]

theorem elementText_texts {t : TreeContext} {name : String} {d : Definition}
    (hname : t.options.registry.find? name = some d) (htext : d.textAllowed = true)
    (attributes : List Node) (line : Nat) {raws : List String}
    (hshown : ∃ raw ∈ raws, cleanText raw ≠ "") :
    t.elementText name attributes line (raws.map Node.text) =
      some (.string (Text.trim (String.join (raws.map cleanText)))) := by
  have hfilter : (raws.map cleanText).filter (· ≠ "") ≠ [] := by
    obtain ⟨raw, hraw, hne⟩ := hshown
    exact List.ne_nil_of_mem (List.mem_filter.2 ⟨List.mem_map_of_mem hraw, by simpa using hne⟩)
  have hjoined := joinedText_map_text name line hfilter
  rw [join_filter_ne_empty] at hjoined
  rw [TreeContext.elementText, TreeContext.build, TreeContext.component]
  simp only [hname, Option.map_some, htext, Option.getD_some, if_true, texts_content]
  rw [hjoined]
  simp [Fields.get?_put]

/-- Runs that do not count add nothing at either end of a text. -/
theorem flatMap_textRuns (cs : List Char) :
    (textRuns cs).flatMap (String.toList ∘ cleanText) = spaced (shownLines (textLines cs)) ∨
      (textRuns cs).flatMap (String.toList ∘ cleanText) = [] ∧
        (spaced (shownLines (textLines cs))).all Text.isBlank = true := by
  by_cases hcounts : textCounts false cs = true
  · left
    simp [textRuns, hcounts, toList_cleanText]
  · right
    have hblank := all_isBlank_of_not_textCounts (by simpa using hcounts)
    have hcleaned := all_isBlank_cleanText (String.ofList cs)
    rw [toList_cleanText, String.toList_ofList, hblank] at hcleaned
    exact ⟨by simp [textRuns, hcounts], hcleaned⟩

theorem trimLeft_textRuns (cs : List Char) :
    Text.trimLeft ((textRuns cs).flatMap (String.toList ∘ cleanText)) =
      Text.trimLeft (spaced (shownLines (textLines cs))) := by
  obtain hruns | ⟨hruns, hblank⟩ := flatMap_textRuns cs
  · rw [hruns]
  · rw [hruns, trimLeft_of_all_blank hblank]
    rfl

theorem trimRight_textRuns (cs : List Char) :
    Text.trimRight ((textRuns cs).flatMap (String.toList ∘ cleanText)) =
      Text.trimRight (spaced (shownLines (textLines cs))) := by
  obtain hruns | ⟨hruns, hblank⟩ := flatMap_textRuns cs
  · rw [hruns]
  · rw [hruns, trimRight_of_all_blank hblank]
    rfl

theorem cleanText_singleton {c : Char} (hc : Text.isBlank c = false) :
    cleanText (String.ofList [c]) = String.ofList [c] := by
  have hline : IsLine [c] := isLine_cons.2 ⟨not_break_of_not_isBlank hc, isLine_nil⟩
  have htab : c ≠ '\t' := ne_of_not_isBlank hc (by decide)
  rw [cleanText, String.toList_ofList, textLines_of_isLine hline]
  simp [joinLines, trimLine, htab, hc]

theorem toList_trim_join (raws : List String) :
    (Text.trim (String.join (raws.map cleanText))).toList =
      Text.trimRight (Text.trimLeft (raws.flatMap (String.toList ∘ cleanText))) := by
  rw [Text.trim, String.toList_ofList, String.toList_join, List.flatMap_map]
  rfl

/-- The pieces around a character, cleaned one by one. -/
theorem trim_textRuns_append_cons {c : Char} (hc : Text.isBlank c = false)
    (before after : List Char) :
    (Text.trim (String.join
        ((textRuns before ++ String.ofList [c] :: textRuns after).map cleanText))).toList =
      Text.trimLeft (spaced (shownLines (textLines before))) ++
        c :: Text.trimRight (spaced (shownLines (textLines after))) := by
  have hpiece : (String.toList ∘ cleanText) (String.ofList [c]) = [c] := by
    rw [Function.comp_apply, cleanText_singleton hc, String.toList_ofList]
  rw [toList_trim_join, List.flatMap_append, List.flatMap_cons, hpiece, List.singleton_append,
    trim_append_cons hc, trimLeft_textRuns, trimRight_textRuns]

theorem cleanText_ne_empty {c : Char} (hc : Text.isBlank c = false) {raw : String}
    (h : c ∈ raw.toList) : cleanText raw ≠ "" := by
  intro hempty
  have hall := all_isBlank_cleanText raw
  rw [hempty, eq_comm] at hall
  rw [List.all_eq_true.1 hall c h] at hc
  cases hc

/-- What is read of a text that has a character in it that is written as a reference. -/
def piecesAround (before : List Char) (c : Char) (after : List Char) : List Node :=
  (textRuns before ++ String.ofList [c] :: textRuns after).map .text

/-- Line breaks beside a reference. The text before a reference, the character it stands for and the
text behind it are read as pieces of their own. They make the text that they make in one piece just if
no space is lost beside the reference: something stands before it in its line, or nothing in the lines
before that, and likewise behind it. -/
theorem elementText_piecesAround_iff {t : TreeContext} {name : String} {d : Definition}
    (hname : t.options.registry.find? name = some d) (htext : d.textAllowed = true)
    (attributes : List Node) (line : Nat) {before r after last first : List Char} {c : Char}
    {earlier later : List (List Char)} (hr : IsReference r) (hdecoded : Text.unescape r = [c])
    (hc : Text.isBlank c = false) (hbefore : ∀ x ∈ before, endsText x = false)
    (hafter : ∀ x ∈ after, endsText x = false) (hearlier : Splits before (earlier ++ [last]))
    (hlater : Splits after (first :: later)) :
    (∀ (depth : Nat) (place : Cursor) (behind : List Char),
      place.rest = before ++ r ++ after ++ '<' :: '/' :: behind →
      behind.head? ≠ some '/' ∧ behind.head? ≠ some '*' →
      ∃ closing : Cursor, closing.rest = '<' :: '/' :: behind ∧
        (Grammar.upTo depth).content place =
          (closingTag closing).map fun s => (piecesAround before c after, s.2)) ∧
    (t.elementText name attributes line (piecesAround before c after) =
        t.elementText name attributes line [.text (String.ofList (before ++ c :: after))] ↔
      (isBlankLine last = false ∨ earlier.all isBlankLine = true) ∧
        ((∃ x ∈ first, x ≠ ' ' ∧ x ≠ '\t') ∨ later.all isBlankLine = true)) := by
  constructor
  · intro depth place behind hplace hbehind
    rw [piecesAround, ← hdecoded]
    exact content_of_text hplace hbefore hr hafter hbehind
  · have hpieces : ∃ raw ∈ textRuns before ++ String.ofList [c] :: textRuns after,
        cleanText raw ≠ "" :=
      ⟨String.ofList [c], by simp, cleanText_ne_empty hc (by simp)⟩
    have hwhole : ∃ raw ∈ [String.ofList (before ++ c :: after)], cleanText raw ≠ "" :=
      ⟨_, List.mem_singleton_self _, cleanText_ne_empty hc (by simp)⟩
    have hone := elementText_texts hname htext attributes line hwhole
    rw [List.map_singleton] at hone
    have hwholeList : (Text.trim (String.join
        ([String.ofList (before ++ c :: after)].map cleanText))).toList =
        Text.trimRight (Text.trimLeft (spaced (shownLines (textLines (before ++ c :: after))))) := by
      rw [toList_trim_join, List.flatMap_singleton, Function.comp_apply, toList_cleanText,
        String.toList_ofList]
    rw [piecesAround, elementText_texts hname htext attributes line hpieces, hone, Option.some_inj,
      Value.string.injEq, ← String.toList_inj, trim_textRuns_append_cons hc, hwholeList,
      trim_pieces_iff hc hearlier hlater]

/-- Behind a line that ends in a reference the space before the next line is lost: `Hello &world`. -/
theorem elementText_piecesAround_ampersand :
    IsReference "&#38;".toList ∧ Text.unescape "&#38;".toList = ['&'] ∧
      let t : TreeContext := ⟨{}, [], []⟩
      let before := "Hello ".toList
      let after := "\n  world".toList
      t.elementText "Text" [] 1 (piecesAround before '&' after) ≠
        t.elementText "Text" [] 1 [.text (String.ofList (before ++ '&' :: after))] := by
  have hreference : IsReference "&#38;".toList := ⟨"#38;".toList, rfl, rfl⟩
  have hdecoded : Text.unescape "&#38;".toList = ['&'] := by
    have hbody : Text.reference? "#38;".toList = some (['&'], 4) := by decide
    change Text.unescape ('&' :: "#38;".toList) = ['&']
    have hrest : "#38;".toList.drop 4 = [] := rfl
    simp only [Text.unescape, if_true, hbody, hrest, List.append_nil]
  have hearlier : Splits "Hello ".toList ([] ++ ["Hello ".toList]) := splits_iff.2 (by decide)
  have hlater : Splits "\n  world".toList [[], "  world".toList] := splits_iff.2 (by decide)
  have hbefore : ∀ x ∈ "Hello ".toList, endsText x = false := by simp [endsText]
  have hafter : ∀ x ∈ "\n  world".toList, endsText x = false := by simp [endsText]
  refine ⟨hreference, hdecoded, ?_⟩
  intro t before after heq
  obtain ⟨-, hfirst | hempty⟩ := (elementText_piecesAround_iff rfl rfl [] 1 hreference hdecoded
    (by decide) hbefore hafter hearlier hlater).2.1 heq
  · obtain ⟨x, hx, -⟩ := hfirst
    cases hx
  · cases hempty

end Scenario
