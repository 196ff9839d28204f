import Scenario.Syntax.Program

namespace Scenario.Syntax

theorem Cursor.rest_drop (n : Nat) (c : Cursor) : (c.drop n).rest = c.rest.drop n := by
  induction n generalizing c with
  | zero => rfl
  | succ n ih =>
    rw [Cursor.drop]
    split
    · rename_i h
      rw [h, List.drop_nil]
    · rename_i x rest h
      rw [ih, h, List.drop_succ_cons]

theorem triviaLength_of_mark {x : Char} {rest : List Char} (hspace : isSpace x = false)
    (hcomment : commentLength (x :: rest) = 0) : triviaLength (x :: rest) = 0 := by
  rw [triviaLength, hspace, hcomment]
  rfl

/-- Where no blank and no comment starts, nothing is skipped. -/
theorem Cursor.skip_of_mark {c : Cursor} {x : Char} {rest : List Char} (h : c.rest = x :: rest)
    (hspace : isSpace x = false) (hcomment : commentLength (x :: rest) = 0) : c.skip = c := by
  rw [Cursor.skip, h, triviaLength_of_mark hspace hcomment, Cursor.drop]

namespace Parser

variable {α β : Type}

theorem bind_apply (p : Parser α) (f : α → Parser β) (c : Cursor) :
    (p >>= f) c = (p c).bind fun r => f r.1 r.2 := rfl

theorem ahead_of_rest {c : Cursor} {cs : List Char} (h : c.rest = cs) : ahead c = some (cs, c) := by
  rw [← h]
  rfl

theorem skip_of_mark {c : Cursor} {x : Char} {rest : List Char} (h : c.rest = x :: rest)
    (hspace : isSpace x = false) (hcomment : commentLength (x :: rest) = 0) :
    skip c = some ((), c) := by
  have hskip : skip c = some ((), c.skip) := rfl
  rw [hskip, Cursor.skip_of_mark h hspace hcomment]

theorem orElse_of_none {p q : Parser α} {c : Cursor} (h : p c = none) : (p <|> q) c = q c := by
  change (p c <|> q c) = q c
  rw [h]
  rfl

theorem guard_apply {p : Prop} [Decidable p] (h : p) (c : Cursor) :
    (guard p : Parser Unit) c = some ((), c) := by
  change (if p then (pure () : Parser Unit) else failure) c = _
  rw [if_pos h]
  rfl

theorem many_of_none {p : Parser α} {c : Cursor} (h : p c = none) : many p c = some ([], c) := by
  rw [many, h]

theorem many_of_some {p : Parser α} {c d : Cursor} {a : α} (h : p c = some (a, d))
    (hmove : d.rest.length < c.rest.length) :
    many p c = (many p d).map fun r => (a :: r.1, r.2) := by
  rw [many, h]
  simp only [if_pos hmove]
  cases many p d <;> rfl

end Parser

open Scenario.Syntax.Parser

theorem exactly_apply (cs : List Char) (c : Cursor) :
    exactly cs c = if cs.isPrefixOf c.rest then some ((), c.drop cs.length) else none := by
  rw [exactly, bind_apply, ahead_of_rest rfl, Option.bind_some]
  cases hprefix : cs.isPrefixOf c.rest <;> rfl

theorem punct_of_mark {c : Cursor} {x : Char} {rest : List Char} (h : c.rest = x :: rest)
    (hspace : isSpace x = false) (hcomment : commentLength (x :: rest) = 0) (s : String) :
    punct s c = if s.toList.isPrefixOf (x :: rest) then some ((), c.drop s.toList.length) else none := by
  rw [punct, bind_apply, skip_of_mark h hspace hcomment, Option.bind_some, exactly_apply, h]

theorem commentLength_of_closing {behind : List Char}
    (h : behind.head? ≠ some '/' ∧ behind.head? ≠ some '*') : commentLength ('/' :: behind) = 0 := by
  cases behind with
  | nil => rfl
  | cons x behind =>
    have hx : x ≠ '/' ∧ x ≠ '*' := by simpa using h
    unfold commentLength
    split <;> simp_all

theorem elementName_of_closing {c : Cursor} {behind : List Char} (h : c.rest = '/' :: behind)
    (hbehind : behind.head? ≠ some '/' ∧ behind.head? ≠ some '*') : elementName c = none := by
  have hskip := skip_of_mark h (by decide) (commentLength_of_closing hbehind)
  have hahead := ahead_of_rest h
  have hhere : here c = some (c, c) := rfl
  have hword : word c = none := by
    have hlength : wordLength ('/' :: behind) = 0 := by
      rw [wordLength, if_neg (by decide), if_neg (by decide)]
    rw [word, bind_apply, hskip, Option.bind_some, bind_apply, hahead, Option.bind_some, hlength]
    rfl
  have hdashed : dashedWord c = none := by
    rw [dashedWord, bind_apply, hskip, Option.bind_some, bind_apply, hahead, Option.bind_some]
    exact hword
  rw [elementName, bind_apply, hskip, Option.bind_some, bind_apply, hhere, Option.bind_some,
    bind_apply, hdashed, Option.bind_none]

/-- No element starts with the mark of a closing tag. -/
theorem elementRule_of_closing (g : Grammar) {c : Cursor} {behind : List Char}
    (h : c.rest = '<' :: '/' :: behind) (hbehind : behind.head? ≠ some '/' ∧ behind.head? ≠ some '*') :
    g.elementRule c = none := by
  have hskip : c.skip = c := Cursor.skip_of_mark h (by decide) rfl
  have hline : line c = some (c.line, c) := by
    change some (c.skip.line, c.skip) = _
    rw [hskip]
  have hpunct : punct "<" c = some ((), c.drop 1) := by
    rw [punct_of_mark h (by decide) rfl]
    rfl
  have hrest : (c.drop 1).rest = '/' :: behind := by rw [Cursor.rest_drop, h]; rfl
  have hclose : punct ">" (c.drop 1) = none := by
    rw [punct_of_mark hrest (by decide) (commentLength_of_closing hbehind)]
    rfl
  rw [Grammar.elementRule, bind_apply, hline, Option.bind_some, bind_apply, hpunct, Option.bind_some,
    orElse_of_none]
  · rw [bind_apply, elementName_of_closing hrest hbehind, Option.bind_none]
  · rw [bind_apply, hclose, Option.bind_none]

/-- Closing tags are no elements, however deep the grammar is. -/
theorem element_of_closing (depth : Nat) {c : Cursor} {behind : List Char}
    (h : c.rest = '<' :: '/' :: behind) (hbehind : behind.head? ≠ some '/' ∧ behind.head? ≠ some '*') :
    (Grammar.upTo depth).element c = none := by
  cases depth with
  | zero => rfl
  | succ depth =>
    have hunfold : Grammar.upTo (depth + 1) = (Grammar.upTo depth).unfold := rfl
    rw [hunfold]
    exact elementRule_of_closing (Grammar.upTo depth) h hbehind

/-- The texts that a run of characters gives: one, or none if the run does not count. -/
def textRuns (cs : List Char) : List String := if textCounts false cs then [String.ofList cs] else []

/-- The children from a place on, without the runs that do not count. -/
def Grammar.childrenFrom (g : Grammar) (c : Cursor) : Option (List Node × Cursor) :=
  (many g.child c).map fun r => (r.1.filterMap id, r.2)

/-- The closing tag of an element or a fragment. -/
def closingTag : Parser Unit := do
  punct "</"
  let _ ← optional elementName
  punct ">"

variable {g : Grammar}

theorem content_eq (c : Cursor) :
    g.content c = (g.childrenFrom c).bind fun r => (closingTag r.2).map fun s => (r.1, s.2) := by
  rw [Grammar.content, bind_apply, Grammar.childrenFrom, Option.bind_map]
  refine Option.bind_congr fun r _ => ?_
  rw [closingTag, bind_apply, Function.comp_apply, bind_apply, Option.map_bind]
  refine Option.bind_congr fun s _ => ?_
  rw [bind_apply, Function.comp_apply, bind_apply, Option.map_bind]
  refine Option.bind_congr fun t _ => ?_
  rw [bind_apply, Function.comp_apply]
  cases punct ">" t.2 <;> rfl

theorem childrenFrom_of_child {c d : Cursor} {child : Option Node} (h : g.child c = some (child, d))
    (hmove : d.rest.length < c.rest.length) :
    g.childrenFrom c = (g.childrenFrom d).map fun r => (child.toList ++ r.1, r.2) := by
  rw [Grammar.childrenFrom, many_of_some h hmove, Grammar.childrenFrom]
  cases many g.child d with
  | none => rfl
  | some r => cases child <;> rfl

theorem takeWhile_run {cs behind : List Char} (hcs : ∀ x ∈ cs, endsText x = false)
    (hbehind : behind.head?.all endsText = true) :
    (cs ++ behind).takeWhile (!endsText ·) = cs := by
  have hall : ∀ x ∈ cs, (!endsText x) = true := by
    intro x hx
    rw [hcs x hx, Bool.not_false]
  rw [List.takeWhile_append_of_pos hall]
  cases behind with
  | nil => simp
  | cons y behind =>
    have hy : endsText y = true := by simpa using hbehind
    simp [hy]

theorem textRun_of_run {c : Cursor} {cs behind : List Char} (h : c.rest = cs ++ behind)
    (hcs : ∀ x ∈ cs, endsText x = false) (hbehind : behind.head?.all endsText = true)
    (hne : cs ≠ []) :
    textRun c = some (if textCounts false cs then some (.text (String.ofList cs)) else none,
      c.drop cs.length) := by
  have hrun : run (!endsText ·) c = some (cs, c.drop cs.length) := by
    change some (c.rest.takeWhile _, c.drop (c.rest.takeWhile _).length) = _
    rw [h, takeWhile_run hcs hbehind]
  rw [textRun, bind_apply, hrun, Option.bind_some, bind_apply, guard_apply hne, Option.bind_some]
  cases textCounts false cs <;> rfl

theorem child_of_run {c : Cursor} {x : Char} {rest : List Char} (h : c.rest = x :: rest)
    (hx : endsText x = false) : g.child c = textRun c := by
  have hmarks : x ≠ '<' ∧ x ≠ '\x7b' ∧ x ≠ '&' := by
    refine ⟨?_, ?_, ?_⟩ <;> (rintro rfl; exact absurd hx (by decide))
  obtain ⟨hopen, hbrace, hreference⟩ := hmarks
  rw [Grammar.child, bind_apply, ahead_of_rest h, Option.bind_some]
  simp [hopen, hbrace, hreference]

/-- A run of text is read up to the next mark. -/
theorem childrenFrom_of_run {c : Cursor} {cs behind : List Char} (h : c.rest = cs ++ behind)
    (hcs : ∀ x ∈ cs, endsText x = false) (hbehind : behind.head?.all endsText = true) :
    g.childrenFrom c = (g.childrenFrom (c.drop cs.length)).map fun r =>
      ((textRuns cs).map .text ++ r.1, r.2) := by
  cases cs with
  | nil =>
    have hruns : textRuns [] = [] := rfl
    simp [hruns, Cursor.drop]
  | cons x cs =>
    have hchild := child_of_run h (hcs x List.mem_cons_self) (g := g)
    rw [textRun_of_run h hcs hbehind (List.cons_ne_nil x cs)] at hchild
    have hmove : (c.drop (x :: cs).length).rest.length < c.rest.length := by
      rw [Cursor.rest_drop, h, List.drop_left, List.length_append, List.length_cons]
      omega
    rw [childrenFrom_of_child hchild hmove, textRuns]
    cases textCounts false (x :: cs) <;> rfl

/-- Character references, with their `&` and their semicolon. -/
def IsReference (r : List Char) : Prop :=
  ∃ body, r = '&' :: body ∧ referenceLength? body = some body.length

/-- The length of the characters of a class from a place on, with the semicolon behind them. -/
def closedLength? (cs : List Char) (start most : Nat) (p : Char → Bool) : Option Nat :=
  let body := (cs.drop start).takeWhile p
  if body ≠ [] ∧ body.length ≤ most ∧ (cs.drop (start + body.length)).head? = some ';' then
    some (start + body.length + 1)
  else none

/-- It is found where the characters of the class end in a semicolon. -/
theorem closedLength?_eq_some_iff {cs : List Char} {start most n : Nat} {p : Char → Bool}
    (hp : p ';' = false) : closedLength? cs start most p = some n ↔
      ∃ body more, cs.drop start = body ++ ';' :: more ∧ (∀ x ∈ body, p x = true) ∧ body ≠ [] ∧
        body.length ≤ most ∧ n = start + body.length + 1 := by
  unfold closedLength?
  dsimp only
  rw [← List.drop_drop]
  generalize cs.drop start = text
  constructor
  · intro h
    split at h
    · rename_i hclosed
      obtain ⟨hne, hmost, hhead⟩ := hclosed
      obtain ⟨more, hmore⟩ := List.head?_eq_some_iff.1 hhead
      refine ⟨text.takeWhile p, more, ?_, ?_, hne, hmost, (Option.some.inj h).symm⟩
      · rw [← hmore]
        exact (List.prefix_iff_eq_append.1 (List.takeWhile_prefix p)).symm
      · exact List.all_eq_true.1 List.all_takeWhile
    · cases h
  · rintro ⟨body, more, rfl, hbody, hne, hmost, rfl⟩
    have htaken : (body ++ ';' :: more).takeWhile p = body := by
      rw [List.takeWhile_append_of_pos hbody, List.takeWhile_cons_of_neg (by simp [hp]),
        List.append_nil]
    rw [htaken, List.drop_left, if_pos ⟨hne, hmost, rfl⟩]

theorem closedLength?_append {cs : List Char} {start most n : Nat} {p : Char → Bool}
    (hp : p ';' = false) (h : closedLength? cs start most p = some n) (behind : List Char) :
    closedLength? (cs ++ behind) start most p = some n := by
  rw [closedLength?_eq_some_iff hp] at h ⊢
  obtain ⟨body, more, hparts, hbody, hne, hmost, hn⟩ := h
  have hstart : start ≤ cs.length := by
    have hpos : 0 < (cs.drop start).length := by
      rw [hparts, List.length_append, List.length_cons]
      omega
    rw [List.length_drop] at hpos
    omega
  refine ⟨body, more ++ behind, ?_, hbody, hne, hmost, hn⟩
  rw [List.drop_append_of_le_length hstart, hparts]
  simp

/-- A reference is read no further than its semicolon. -/
theorem referenceLength?_append {body : List Char} (h : referenceLength? body = some body.length)
    (behind : List Char) : referenceLength? (body ++ behind) = some body.length := by
  cases body with
  | nil => cases h
  | cons y rest =>
    by_cases hy : y = '#'
    · subst hy
      cases rest with
      | nil => cases h
      | cons x rest =>
        change (if x = 'x' ∨ x = 'X' then closedLength? ('#' :: x :: rest) 2 6 Text.isHex
          else closedLength? ('#' :: x :: rest) 1 5 Char.isDigit) = _ at h
        change (if x = 'x' ∨ x = 'X' then closedLength? ('#' :: x :: rest ++ behind) 2 6 Text.isHex
          else closedLength? ('#' :: x :: rest ++ behind) 1 5 Char.isDigit) = _
        split at h
        · rename_i hx
          rw [if_pos hx]
          exact closedLength?_append (by decide) h behind
        · rename_i hx
          rw [if_neg hx]
          exact closedLength?_append (by decide) h behind
    · have hnamed (cs : List Char) :
          referenceLength? (y :: cs) = closedLength? (y :: cs) 0 30 Char.isAlpha := by
        simp [referenceLength?, closedLength?, hy]
      rw [hnamed] at h
      rw [List.cons_append, hnamed, ← List.cons_append]
      exact closedLength?_append (by decide) h behind

theorem child_of_reference {c : Cursor} {r behind : List Char} (h : c.rest = r ++ behind)
    (hr : IsReference r) :
    g.child c = some (some (.text (String.ofList (Text.unescape r))), c.drop r.length) := by
  obtain ⟨body, rfl, hbody⟩ := hr
  have hahead : ahead c = some ('&' :: (body ++ behind), c) := ahead_of_rest h
  have htaken : taken (body.length + 1) c = some ('&' :: body, c.drop (body.length + 1)) := by
    change some (c.rest.take (body.length + 1), c.drop (body.length + 1)) = _
    rw [h]
    simp
  have hreference : referenceText c =
      some (.text (String.ofList (Text.unescape ('&' :: body))), c.drop (body.length + 1)) := by
    rw [referenceText, bind_apply, hahead, Option.bind_some]
    simp only [referenceLength?_append hbody]
    rw [bind_apply, htaken]
    rfl
  rw [Grammar.child, bind_apply, hahead, Option.bind_some]
  change (referenceText >>= fun n => pure (some n)) c = _
  rw [bind_apply, hreference]
  rfl

theorem childrenFrom_of_reference {c : Cursor} {r behind : List Char} (h : c.rest = r ++ behind)
    (hr : IsReference r) :
    g.childrenFrom c = (g.childrenFrom (c.drop r.length)).map fun s =>
      (.text (String.ofList (Text.unescape r)) :: s.1, s.2) := by
  have hmove : (c.drop r.length).rest.length < c.rest.length := by
    obtain ⟨body, rfl, -⟩ := hr
    rw [Cursor.rest_drop, h, List.drop_left, List.length_append, List.length_cons]
    omega
  rw [childrenFrom_of_child (child_of_reference h hr) hmove]
  rfl

theorem childrenFrom_of_closing {depth : Nat} {c : Cursor} {behind : List Char}
    (h : c.rest = '<' :: '/' :: behind) (hbehind : behind.head? ≠ some '/' ∧ behind.head? ≠ some '*') :
    (Grammar.upTo depth).childrenFrom c = some ([], c) := by
  have hchild : (Grammar.upTo depth).child c = none := by
    rw [Grammar.child, bind_apply, ahead_of_rest h, Option.bind_some]
    change ((Grammar.upTo depth).element >>= fun n => pure (some n)) c = none
    rw [bind_apply, element_of_closing depth h hbehind]
    rfl
  rw [Grammar.childrenFrom, many_of_none hchild]
  rfl

/-- Text with a reference in it is read as a run, the reference and another run. -/
theorem content_of_text {depth : Nat} {c : Cursor} {before r after behind : List Char}
    (h : c.rest = before ++ r ++ after ++ '<' :: '/' :: behind)
    (hbefore : ∀ x ∈ before, endsText x = false) (hr : IsReference r)
    (hafter : ∀ x ∈ after, endsText x = false)
    (hbehind : behind.head? ≠ some '/' ∧ behind.head? ≠ some '*') :
    ∃ closing : Cursor, closing.rest = '<' :: '/' :: behind ∧
      (Grammar.upTo depth).content c = (closingTag closing).map fun s =>
        ((textRuns before ++ String.ofList (Text.unescape r) :: textRuns after).map .text, s.2) := by
  obtain ⟨body, hbody⟩ : ∃ body, r = '&' :: body := by
    obtain ⟨body, hbody, -⟩ := hr
    exact ⟨body, hbody⟩
  have hfirst : (c.drop before.length).rest = r ++ (after ++ '<' :: '/' :: behind) := by
    rw [Cursor.rest_drop, h]
    simp
  have hsecond : ((c.drop before.length).drop r.length).rest = after ++ '<' :: '/' :: behind := by
    rw [Cursor.rest_drop, hfirst, List.drop_left]
  have hthird : (((c.drop before.length).drop r.length).drop after.length).rest =
      '<' :: '/' :: behind := by
    rw [Cursor.rest_drop, hsecond, List.drop_left]
  refine ⟨_, hthird, ?_⟩
  have hmark : (r ++ (after ++ '<' :: '/' :: behind)).head?.all endsText = true := by
    rw [hbody]
    rfl
  rw [content_eq, childrenFrom_of_run (by rw [h]; simp) hbefore hmark,
    childrenFrom_of_reference hfirst hr, childrenFrom_of_run hsecond hafter rfl,
    childrenFrom_of_closing hthird hbehind]
  simp

end Scenario.Syntax
