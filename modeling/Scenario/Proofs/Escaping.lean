import Scenario.Syntax.Escape

namespace Scenario.Syntax

def lowerDigits : List Char :=
  ['0', '1', '2', '3', '4', '5', '6', '7', '8', '9', 'a', 'b', 'c', 'd', 'e', 'f']

def upperDigits : List Char :=
  ['0', '1', '2', '3', '4', '5', '6', '7', '8', '9', 'A', 'B', 'C', 'D', 'E', 'F']

/-- A hexadecimal digit in either case. -/
def IsHexDigit (n : Nat) (c : Char) : Prop := lowerDigits[n]? = some c ∨ upperDigits[n]? = some c

/-- The digits that spell a number in base 16, with any number of zeros in front. -/
inductive HexDigits : Nat → List Char → Prop where
  | nil : HexDigits 0 []
  | snoc {n d : Nat} {digits : List Char} {c : Char} : HexDigits n digits → IsHexDigit d c →
    HexDigits (16 * n + d) (digits ++ [c])

/-- A line break behind a backslash, which stands for nothing. -/
inductive Continuation : List Char → Prop where
  | lf : Continuation ['\\', '\n']
  | cr : Continuation ['\\', '\r']
  | crlf : Continuation ['\\', '\r', '\n']
  | lineSeparator : Continuation ['\\', '\u2028']
  | paragraphSeparator : Continuation ['\\', '\u2029']

/-- Any number of continued lines. -/
inductive Continuations : List Char → Prop where
  | nil : Continuations []
  | cons {piece more : List Char} : Continuation piece → Continuations more →
    Continuations (piece ++ more)

/-- The letters that spell a control character behind a backslash. -/
def controlLetters : List (Char × Char) :=
  [('n', '\n'), ('t', '\t'), ('r', '\r'), ('b', '\x08'), ('f', '\x0c'), ('v', '\x0b'), ('0', '\x00')]

/-- The characters that do not stand for themselves behind a backslash. -/
def escapeLetters : List Char :=
  ['n', 't', 'r', 'b', 'f', 'v', '0', 'x', 'u', '\n', '\r', '\u2028', '\u2029']

/-- The first unit of a character above U+FFFF. -/
def highUnit (c : Char) : Nat := 0xD800 + (c.toNat - 0x10000) / 0x400

/-- The second unit of a character above U+FFFF. -/
def lowUnit (c : Char) : Nat := 0xDC00 + (c.toNat - 0x10000) % 0x400

/-- The ways to spell a character. -/
inductive Spelling (c : Char) : List Char → Prop where
  | raw : c ≠ '\\' → Spelling c [c]
  | escaped : c ∉ escapeLetters → Spelling c ['\\', c]
  | control {letter : Char} : (letter, c) ∈ controlLetters → Spelling c ['\\', letter]
  | twoDigits {digits : List Char} : HexDigits c.toNat digits → digits.length = 2 →
    Spelling c ('\\' :: 'x' :: digits)
  | fourDigits {digits : List Char} : HexDigits c.toNat digits → digits.length = 4 →
    Spelling c ('\\' :: 'u' :: digits)
  | pair {high low lines : List Char} : 0x10000 ≤ c.toNat → HexDigits (highUnit c) high →
    high.length = 4 → Continuations lines → HexDigits (lowUnit c) low → low.length = 4 →
    Spelling c ('\\' :: 'u' :: high ++ lines ++ '\\' :: 'u' :: low)
  | braced {digits : List Char} : HexDigits c.toNat digits → digits ≠ [] →
    Spelling c ('\\' :: 'u' :: '\x7b' :: digits ++ ['\x7d'])

/-- Two pieces that would be read as another one together: NUL in front of a digit, and a line that
ends with a CR in front of a LF. -/
def Merge (piece rest : List Char) : Prop :=
  piece = ['\\', '0'] ∧ rest.head?.any Text.isDigit ∨ piece = ['\\', '\r'] ∧ rest.head? = some '\n'

/-- The bodies in which a text is spelled character by character, with continued lines anywhere. -/
inductive Spelled : List Char → List Char → Prop where
  | nil : Spelled [] []
  | char {c : Char} {s piece rest : List Char} : Spelling c piece → ¬Merge piece rest →
    Spelled s rest → Spelled (c :: s) (piece ++ rest)
  | continued {s piece rest : List Char} : Continuation piece → ¬Merge piece rest →
    Spelled s rest → Spelled s (piece ++ rest)

/-- What holds of each of the digits holds of a hexadecimal digit. -/
theorem of_isHexDigit {P : Nat → Char → Prop} (hlower : ∀ n < 16, P n (lowerDigits.getD n ' '))
    (hupper : ∀ n < 16, P n (upperDigits.getD n ' ')) {n : Nat} {c : Char} (h : IsHexDigit n c) :
    P n c := by
  rcases h with h | h
  · have hn : n < 16 := (List.getElem?_eq_some_iff.1 h).1
    have hdigit := hlower n hn
    rwa [List.getD_eq_getElem?_getD, h] at hdigit
  · have hn : n < 16 := (List.getElem?_eq_some_iff.1 h).1
    have hdigit := hupper n hn
    rwa [List.getD_eq_getElem?_getD, h] at hdigit

theorem hexValue?_of_isHexDigit {n : Nat} {c : Char} (h : IsHexDigit n c) :
    Text.hexValue? c = some n :=
  of_isHexDigit (P := fun n c => Text.hexValue? c = some n) (by decide) (by decide) h

theorem HexDigits.all_isHex {n : Nat} {digits : List Char} (h : HexDigits n digits) :
    digits.all Text.isHex = true := by
  induction h with
  | nil => rfl
  | snoc _ hd ih => simp [ih, Text.isHex, hexValue?_of_isHexDigit hd]

theorem HexDigits.hexNumber_eq {n : Nat} {digits : List Char} (h : HexDigits n digits) :
    Text.hexNumber digits = n := by
  induction h with
  | nil => rfl
  | snoc _ hd ih =>
    simp only [Text.hexNumber, Text.ofDigits] at ih ⊢
    simp [hexValue?_of_isHexDigit hd, ih]

theorem fixedCode?_append {n width : Nat} {digits : List Char} (h : HexDigits n digits)
    (hlength : digits.length = width) (rest : List Char) :
    fixedCode? width (digits ++ rest) = some n := by
  have htake : (digits ++ rest).take width = digits := by
    rw [← hlength, List.take_left]
  simp only [fixedCode?, htake, hlength, h.all_isHex, h.hexNumber_eq, and_self, if_true]

theorem takeWhile_of_all_isHex {digits : List Char} (h : digits.all Text.isHex = true)
    (rest : List Char) :
    (digits ++ '\x7d' :: rest).takeWhile (· != '\x7d') = digits := by
  have hbrace : ∀ c ∈ digits, (c != '\x7d') = true := by
    intro c hc
    have hhex : Text.isHex c = true := List.all_eq_true.1 h c hc
    rw [bne_iff_ne]
    rintro rfl
    exact absurd hhex (by decide)
  rw [List.takeWhile_append_of_pos hbrace]
  simp

theorem bracedCode?_append {n : Nat} {digits : List Char} (h : HexDigits n digits)
    (hdigits : digits ≠ []) (hn : n ≤ 0x10FFFF) (rest : List Char) :
    bracedCode? (digits ++ '\x7d' :: rest) = some (n, digits.length) := by
  have hlength : digits.length < (digits ++ '\x7d' :: rest).length := by simp
  simp only [bracedCode?, takeWhile_of_all_isHex h.all_isHex, h.all_isHex, h.hexNumber_eq]
  rw [if_pos ⟨hlength, hdigits, trivial, hn⟩]

theorem units_backslash (e : Char) (rest : List Char) :
    units ('\\' :: e :: rest) = (escape e rest).1 ++ units (rest.drop (escape e rest).2) := by
  rw [units, if_pos rfl]

theorem units_raw {c : Char} (hc : c ≠ '\\') (rest : List Char) :
    units (c :: rest) = c.toNat :: units rest := by
  cases rest with
  | nil => simp [units]
  | cons e rest => rw [units, if_neg hc]

theorem escape_of_not_mem {e : Char} (he : e ∉ escapeLetters) (rest : List Char) :
    escape e rest = ([e.toNat], 0) := by
  simp only [escapeLetters, List.mem_cons, List.not_mem_nil, or_false, not_or] at he
  obtain ⟨hn, ht, hr, hb, hf, hv, h0, hx, hu, hlf, hcr, hls, hps⟩ := he
  have hsimple : simpleEscape? e = none := by
    unfold simpleEscape?
    split <;> first | contradiction | rfl
  simp [escape, hsimple, h0, hx, hu, hcr, isLineEnd, hlf, hls, hps]

theorem units_control {letter c : Char} (h : (letter, c) ∈ controlLetters) {rest : List Char}
    (hrest : ¬Merge ['\\', letter] rest) :
    units ('\\' :: letter :: rest) = c.toNat :: units rest := by
  have hdigit : letter = '0' → rest.head?.any Text.isDigit = false := by
    rintro rfl
    rw [← Bool.not_eq_true]
    exact fun hany => hrest (.inl ⟨rfl, hany⟩)
  have hescape : escape letter rest = ([c.toNat], 0) := by
    simp only [controlLetters, List.mem_cons, Prod.mk.injEq, List.not_mem_nil, or_false] at h
    rcases h with ⟨rfl, rfl⟩ | ⟨rfl, rfl⟩ | ⟨rfl, rfl⟩ | ⟨rfl, rfl⟩ | ⟨rfl, rfl⟩ | ⟨rfl, rfl⟩ |
      ⟨rfl, rfl⟩
    all_goals simp [escape, simpleEscape?, hdigit]
  rw [units_backslash, hescape]
  rfl

theorem units_twoDigits {n : Nat} {digits : List Char} (h : HexDigits n digits)
    (hlength : digits.length = 2) (rest : List Char) :
    units ('\\' :: 'x' :: (digits ++ rest)) = n :: units rest := by
  have hescape : escape 'x' (digits ++ rest) = ([n], 2) := by
    simp [escape, simpleEscape?, fixedCode?_append h hlength]
  rw [units_backslash, hescape, ← hlength, List.drop_left]
  rfl

theorem units_fourDigits {n : Nat} {digits : List Char} (h : HexDigits n digits)
    (hlength : digits.length = 4) (rest : List Char) :
    units ('\\' :: 'u' :: (digits ++ rest)) = n :: units rest := by
  have hescape : escape 'u' (digits ++ rest) = ([n], 4) := by
    have hcode := fixedCode?_append h hlength rest
    have hbrace (body : List Char) : digits ++ rest ≠ '\x7b' :: body := by
      intro heq
      obtain ⟨d, more, rfl⟩ := List.exists_cons_of_length_eq_add_one hlength
      have hhex : Text.isHex d = true := List.all_eq_true.1 h.all_isHex d List.mem_cons_self
      cases (List.cons.inj heq).1
      exact absurd hhex (by decide)
    have hsimple : simpleEscape? 'u' = none := rfl
    simp only [escape, hsimple, hcode, Char.reduceEq, false_and, if_false, if_true]
  rw [units_backslash, hescape, ← hlength, List.drop_left]
  rfl

theorem units_braced {n : Nat} {digits : List Char} (h : HexDigits n digits) (hdigits : digits ≠ [])
    (hn : n ≤ 0x10FFFF) (rest : List Char) :
    units ('\\' :: 'u' :: '\x7b' :: (digits ++ '\x7d' :: rest)) = n :: units rest := by
  have hescape : escape 'u' ('\x7b' :: (digits ++ '\x7d' :: rest)) = ([n], digits.length + 2) := by
    simp [escape, simpleEscape?, bracedCode?_append h hdigits hn]
  have hdrop : ('\x7b' :: (digits ++ '\x7d' :: rest)).drop (digits.length + 2) = rest := by
    rw [List.drop_succ_cons, List.drop_append]
    simp
  rw [units_backslash, hescape, hdrop]
  rfl

theorem units_continuation {piece rest : List Char} (h : Continuation piece)
    (hrest : ¬Merge piece rest) : units (piece ++ rest) = units rest := by
  cases h with
  | lf => exact units_backslash '\n' rest
  | cr =>
    have hlf : rest.head? ≠ some '\n' := fun hhead => hrest (.inr ⟨rfl, hhead⟩)
    have hescape : escape '\r' rest = ([], 0) := by
      simp [escape, simpleEscape?, hlf]
    change units ('\\' :: '\r' :: rest) = units rest
    rw [units_backslash, hescape]
    rfl
  | crlf => exact units_backslash '\r' ('\n' :: rest)
  | lineSeparator => exact units_backslash '\u2028' rest
  | paragraphSeparator => exact units_backslash '\u2029' rest

theorem units_continuations {lines : List Char} (h : Continuations lines) (rest : List Char) :
    units (lines ++ '\\' :: rest) = units ('\\' :: rest) := by
  induction h with
  | nil => rfl
  | @cons piece more hpiece hmore ih =>
    -- What comes behind is another backslash, which no line break can take in.
    have hhead : (more ++ '\\' :: rest).head? = some '\\' := by
      cases hmore with
      | nil => rfl
      | cons hfirst _ => cases hfirst <;> rfl
    have hapart : ¬Merge piece (more ++ '\\' :: rest) := by
      rintro (⟨rfl, _⟩ | ⟨_, hlf⟩)
      · cases hpiece
      · rw [hhead] at hlf
        exact absurd hlf (by decide)
    rw [List.append_assoc, units_continuation hpiece hapart, ih]

/-- The units that stand for a character: itself, or its two surrogates. -/
def Denotes (codes : List Nat) (c : Char) : Prop :=
  codes = [c.toNat] ∨ 0x10000 ≤ c.toNat ∧ codes = [highUnit c, lowUnit c]

theorem toNat_le (c : Char) : c.toNat ≤ 0x10FFFF := by
  have h : c.toNat < 0xD800 ∨ 0xDFFF < c.toNat ∧ c.toNat < 0x110000 := c.valid
  omega

theorem exists_units_spelling {c : Char} {piece rest : List Char} (h : Spelling c piece)
    (hrest : ¬Merge piece rest) :
    ∃ codes, Denotes codes c ∧ units (piece ++ rest) = codes ++ units rest := by
  cases h with
  | raw hc => exact ⟨_, .inl rfl, units_raw hc rest⟩
  | escaped hc =>
    refine ⟨_, .inl rfl, ?_⟩
    change units ('\\' :: c :: rest) = _
    rw [units_backslash, escape_of_not_mem hc]
    rfl
  | control hletter => exact ⟨_, .inl rfl, units_control hletter hrest⟩
  | twoDigits hdigits hlength => exact ⟨_, .inl rfl, units_twoDigits hdigits hlength rest⟩
  | fourDigits hdigits hlength => exact ⟨_, .inl rfl, units_fourDigits hdigits hlength rest⟩
  | @pair high low lines hc hhigh hhighLength hlines hlow hlowLength =>
    refine ⟨_, .inr ⟨hc, rfl⟩, ?_⟩
    calc units ('\\' :: 'u' :: high ++ lines ++ '\\' :: 'u' :: low ++ rest)
        = units ('\\' :: 'u' :: (high ++ (lines ++ '\\' :: 'u' :: (low ++ rest)))) := by simp
      _ = highUnit c :: units (lines ++ '\\' :: 'u' :: (low ++ rest)) :=
          units_fourDigits hhigh hhighLength _
      _ = highUnit c :: units ('\\' :: 'u' :: (low ++ rest)) := by rw [units_continuations hlines]
      _ = highUnit c :: lowUnit c :: units rest := by rw [units_fourDigits hlow hlowLength]
  | @braced digits hdigits hne =>
    refine ⟨_, .inl rfl, ?_⟩
    have hunits := units_braced hdigits hne (toNat_le c) rest
    simpa using hunits

theorem unitChar_toNat (c : Char) : joinUnits.unitChar c.toNat = c := by
  have hvalid : c.toNat.isValidChar := c.valid
  simp only [joinUnits.unitChar]
  rw [if_pos hvalid, Char.ofNat_toNat]

/-- A character is no surrogate. -/
theorem isHighSurrogate_toNat (c : Char) : Json.isHighSurrogate c.toNat = false := by
  have h : c.toNat < 0xD800 ∨ 0xDFFF < c.toNat ∧ c.toNat < 0x110000 := c.valid
  simp only [Json.isHighSurrogate, Bool.and_eq_false_iff, decide_eq_false_iff_not]
  omega

theorem joinUnits_toNat (c : Char) (us : List Nat) : joinUnits (c.toNat :: us) = c :: joinUnits us := by
  cases us with
  | nil => simp [joinUnits, unitChar_toNat]
  | cons low us => simp [joinUnits, isHighSurrogate_toNat, unitChar_toNat]

theorem joinUnits_pair {c : Char} (hc : 0x10000 ≤ c.toNat) (us : List Nat) :
    joinUnits (highUnit c :: lowUnit c :: us) = c :: joinUnits us := by
  have hle := toNat_le c
  have hhigh : Json.isHighSurrogate (highUnit c) = true := by
    rw [Json.isHighSurrogate, highUnit, Bool.and_eq_true, decide_eq_true_eq, decide_eq_true_eq]
    omega
  have hlow : Json.isLowSurrogate (lowUnit c) = true := by
    rw [Json.isLowSurrogate, lowUnit, Bool.and_eq_true, decide_eq_true_eq, decide_eq_true_eq]
    omega
  have hcode : 0x10000 + (highUnit c - 0xD800) * 0x400 + (lowUnit c - 0xDC00) = c.toNat := by
    simp only [highUnit, lowUnit]
    omega
  have hjoin : Json.joinSurrogates (highUnit c) (lowUnit c) = c := by
    rw [Json.joinSurrogates, hcode, Char.ofNat_toNat]
  rw [joinUnits, hhigh, hlow, hjoin]
  rfl

theorem joinUnits_append {codes : List Nat} {c : Char} (h : Denotes codes c) (us : List Nat) :
    joinUnits (codes ++ us) = c :: joinUnits us := by
  rcases h with rfl | ⟨hc, rfl⟩
  · exact joinUnits_toNat c us
  · exact joinUnits_pair hc us

theorem decodeBody_of_spelled {s body : List Char} (h : Spelled s body) : decodeBody body = s := by
  induction h with
  | nil => simp [decodeBody, units, joinUnits]
  | char hspelling hrest _ ih =>
    obtain ⟨codes, hcodes, hunits⟩ := exists_units_spelling hspelling hrest
    rw [decodeBody, hunits, joinUnits_append hcodes]
    exact congrArg _ ih
  | continued hpiece hrest _ ih =>
    rw [decodeBody, units_continuation hpiece hrest]
    exact ih

/-- A body gives back the text that is spelled by it, and so does the body between two equal quotes. -/
theorem decode_of_spelled {s body : List Char} (h : Spelled s body) :
    decodeBody body = s ∧ ∀ quote ∈ ['\'', '"', '`'],
      decodeString (String.ofList (quote :: body ++ [quote])) = String.ofList s := by
  have hbody := decodeBody_of_spelled h
  refine ⟨hbody, ?_⟩
  intro quote hquote
  have hends : quote = '\'' ∨ quote = '"' ∨ quote = '`' := by simpa using hquote
  simp only [decodeString, String.toList_ofList, List.cons_append]
  rw [if_pos ⟨hends, by simp⟩, List.dropLast_concat, hbody]

-- A letter by its code, NUL in front of a continued line, and a pair with a continued line inside it.
theorem decode_of_spelled_pair :
    ∃ body, body = "\\x61\\0\\\r\\uD83d\\\n\\udE00".toList ∧ Spelled ['a', '\x00', '😀'] body ∧
      decodeBody body = ['a', '\x00', '😀'] := by
  have h0 : IsHexDigit 0 '0' := .inl rfl
  have h1 : IsHexDigit 1 '1' := .inl rfl
  have h3 : IsHexDigit 3 '3' := .inl rfl
  have h6 : IsHexDigit 6 '6' := .inl rfl
  have h8 : IsHexDigit 8 '8' := .inl rfl
  have hd : IsHexDigit 13 'd' := .inl rfl
  have hD : IsHexDigit 13 'D' := .inr rfl
  have hE : IsHexDigit 14 'E' := .inr rfl
  have hletter : HexDigits 0x61 ['6', '1'] := (HexDigits.nil.snoc h6).snoc h1
  have hhigh : HexDigits 0xD83D ['D', '8', '3', 'd'] :=
    (((HexDigits.nil.snoc hD).snoc h8).snoc h3).snoc hd
  have hlow : HexDigits 0xDE00 ['d', 'E', '0', '0'] :=
    (((HexDigits.nil.snoc hd).snoc hE).snoc h0).snoc h0
  have hpair : Spelling '😀' ('\\' :: 'u' :: ['D', '8', '3', 'd'] ++ ['\\', '\n'] ++
      '\\' :: 'u' :: ['d', 'E', '0', '0']) :=
    .pair (by decide) hhigh rfl (.cons .lf .nil) hlow rfl
  have hletterSpelling : Spelling 'a' ['\\', 'x', '6', '1'] := .twoDigits hletter rfl
  have hnul : Spelling '\x00' ['\\', '0'] := .control (by decide)
  have hbackslash : Text.isDigit '\\' = false := by decide
  have hspelled := Spelled.char hletterSpelling (by simp [Merge]) <|
    .char hnul (by simp [Merge, hbackslash]) <|
    .continued .cr (by simp [Merge]) <|
    .char hpair (by simp [Merge]) .nil
  exact ⟨_, by decide, hspelled, (decode_of_spelled hspelled).1⟩

end Scenario.Syntax
