/-
# FilterQuery.Code.Token.Lexer -- cutting program text into tokens

Blanks and comments stand between tokens and are none, except for comments that document what
follows or what encloses them: such a comment stands for an attribute that holds it as a string.
-/

import FilterQuery.Code.Token
import FilterQuery.Text.Blank
import FilterQuery.Text.Printable

namespace FilterQuery.Code

open Text

namespace Token

/-! ## Characters -/

/-- Whether the character stands between tokens: a blank, or a mark of the direction of writing. -/
def isSpace (c : Char) : Bool := isBlank c || c == '\u200e' || c == '\u200f'

/-- Whether a name may hold the character. -/
def isWordChar (c : Char) : Bool := c.isAlphanum || c == '_' || (128 ≤ c.toNat && !isSpace c)

/-- Whether a name may start with the character. -/
def isWordStart (c : Char) : Bool := isWordChar c && !c.isDigit

/-- Whether a decimal number may hold the character. -/
def isPlace (c : Char) : Bool := c.isDigit || c == '_'

/-- Whether the character is a punctuation mark. -/
def isMarkChar (c : Char) : Bool := "~!@#$%^&*-=+|;:,<.>/?'".toList.contains c

theorem dropWhile_length (p : Char → Bool) (cs : List Char) :
    (cs.dropWhile p).length ≤ cs.length :=
  (List.dropWhile_sublist p).length_le

/-! ## Strings and characters -/

/-- The characters up to the next `quote` and what follows that. A backslash hides the character
behind it. -/
def untilQuote (quote : Char) : List Char → List Char × List Char
  | [] => ([], [])
  | [c] => ([c], [])
  | c :: d :: r =>
    if c = quote then ([c], d :: r)
    else if c = '\\' then
      let (taken, rest) := untilQuote quote r
      (c :: d :: taken, rest)
    else
      let (taken, rest) := untilQuote quote (d :: r)
      (c :: taken, rest)

theorem untilQuote_length (quote : Char) (cs : List Char) :
    (untilQuote quote cs).2.length ≤ cs.length := by
  fun_induction untilQuote quote cs <;> simp_all <;> omega

/-- The characters up to the next quotation mark that `hashes` number signs follow, and what
follows them. -/
def untilHashes (hashes : Nat) : List Char → List Char × List Char
  | [] => ([], [])
  | c :: r =>
    if c = '"' ∧ r.take hashes = List.replicate hashes '#' then
      (c :: r.take hashes, r.drop hashes)
    else
      let (taken, rest) := untilHashes hashes r
      (c :: taken, rest)

theorem untilHashes_length (hashes : Nat) (cs : List Char) :
    (untilHashes hashes cs).2.length ≤ cs.length := by
  fun_induction untilHashes hashes cs <;> simp_all <;> omega

/-- A raw string behind the letters that announce it, and what follows it. -/
def rawString? (cs : List Char) : Option (List Char × List Char) :=
  let hashes := cs.takeWhile (· == '#')
  match cs.dropWhile (· == '#') with
  | '"' :: r =>
    some (hashes ++ '"' :: (untilHashes hashes.length r).1, (untilHashes hashes.length r).2)
  | _ => none

theorem rawString?_length {cs : List Char} {x : List Char × List Char}
    (h : rawString? cs = some x) : x.2.length ≤ cs.length := by
  unfold rawString? at h
  dsimp only at h
  split at h
  · rename_i r heq
    have hd := dropWhile_length (· == '#') cs
    have hr := untilHashes_length (cs.takeWhile (· == '#')).length r
    rw [heq] at hd
    obtain rfl := Option.some.inj h
    simp only [List.length_cons] at hd
    exact Nat.le_trans hr (Nat.le_of_succ_le hd)
  · simp at h

/-- What stands behind the opening quote of a character up to the closing one, and what follows
it. -/
def character? : List Char → Option (List Char × List Char)
  | '\\' :: c :: r => some ('\\' :: c :: (untilQuote '\'' r).1, (untilQuote '\'' r).2)
  | c :: '\'' :: r => some ([c, '\''], r)
  | _ => none

theorem character?_length {cs : List Char} {x : List Char × List Char}
    (h : character? cs = some x) : x.2.length ≤ cs.length := by
  unfold character? at h
  split at h
  · rename_i c r
    have := untilQuote_length '\'' r
    obtain rfl := Option.some.inj h
    simp only [List.length_cons]
    omega
  · obtain rfl := Option.some.inj h
    simp only [List.length_cons]
    omega
  · simp at h

/-- What stands behind the first character of a string or a character literal, and what follows
it. -/
def quoted? : Char → List Char → Option (List Char × List Char)
  | '"', r => some (untilQuote '"' r)
  | '\'', r => character? r
  | 'b', '\'' :: r => (character? r).map fun x => ('\'' :: x.1, x.2)
  | 'b', '"' :: r | 'c', '"' :: r => some ('"' :: (untilQuote '"' r).1, (untilQuote '"' r).2)
  | 'b', 'r' :: r | 'c', 'r' :: r => (rawString? r).map fun x => ('r' :: x.1, x.2)
  | 'r', r => rawString? r
  | _, _ => none

theorem quoted?_length {c : Char} {cs : List Char} {x : List Char × List Char}
    (h : quoted? c cs = some x) : x.2.length ≤ cs.length := by
  have hq := untilQuote_length '"'
  unfold quoted? at h
  split at h
  · obtain rfl := Option.some.inj h
    exact hq _
  · exact character?_length h
  · obtain ⟨y, hy, rfl⟩ := Option.map_eq_some_iff.1 h
    exact Nat.le_succ_of_le (character?_length hy :)
  · obtain rfl := Option.some.inj h
    exact Nat.le_succ_of_le (hq _)
  · obtain rfl := Option.some.inj h
    exact Nat.le_succ_of_le (hq _)
  · obtain ⟨y, hy, rfl⟩ := Option.map_eq_some_iff.1 h
    exact Nat.le_succ_of_le (rawString?_length hy :)
  · obtain ⟨y, hy, rfl⟩ := Option.map_eq_some_iff.1 h
    exact Nat.le_succ_of_le (rawString?_length hy :)
  · exact rawString?_length h
  · simp at h

/-- The letters right behind a literal, which belong to it. -/
def suffix (cs : List Char) : List Char × List Char :=
  if cs.head?.any isWordStart then (cs.takeWhile isWordChar, cs.dropWhile isWordChar) else ([], cs)

theorem suffix_length (cs : List Char) : (suffix cs).2.length ≤ cs.length := by
  unfold suffix
  split
  · exact dropWhile_length _ cs
  · exact Nat.le_refl _

/-! ## Numbers -/

/-- The places of a number behind its point, if the point is its own, and what follows them. -/
def fraction : List Char → List Char × List Char
  | '.' :: r =>
    if r.head?.any fun c => c == '.' || isWordStart c then ([], '.' :: r)
    else ('.' :: r.takeWhile isPlace, r.dropWhile isPlace)
  | r => ([], r)

theorem fraction_length (cs : List Char) : (fraction cs).2.length ≤ cs.length := by
  unfold fraction
  split
  · rename_i r
    split
    · exact Nat.le_refl _
    · exact Nat.le_succ_of_le (dropWhile_length _ r)
  · exact Nat.le_refl _

/-- The exponent of a number, if it has a sign, and what follows it. One without a sign is read
with the letters behind the number. -/
def signedExponent : List Char → List Char × List Char
  | e :: s :: r =>
    if (e = 'e' ∨ e = 'E') ∧ (s = '+' ∨ s = '-') ∧ (r.takeWhile isPlace).any Char.isDigit then
      (e :: s :: r.takeWhile isPlace, r.dropWhile isPlace)
    else ([], e :: s :: r)
  | r => ([], r)

theorem signedExponent_length (cs : List Char) : (signedExponent cs).2.length ≤ cs.length := by
  unfold signedExponent
  split
  · rename_i r
    split
    · exact Nat.le_succ_of_le (Nat.le_succ_of_le (dropWhile_length _ r))
    · exact Nat.le_refl _
  · exact Nat.le_refl _

/-- What a number has behind its first digit, and what follows it. -/
def number (cs : List Char) : List Char × List Char :=
  let f := fraction (cs.dropWhile isPlace)
  let e := signedExponent f.2
  let s := suffix e.2
  (cs.takeWhile isPlace ++ f.1 ++ e.1 ++ s.1, s.2)

theorem number_length (cs : List Char) : (number cs).2.length ≤ cs.length :=
  Nat.le_trans (suffix_length _) (Nat.le_trans (signedExponent_length _)
    (Nat.le_trans (fraction_length _) (dropWhile_length _ cs)))

/-! ## Comments -/

/-- How a string spells a character in front of another. A zero is spelled out before a digit that
could belong to it. -/
def escaped (c : Char) (next : Option Char) : List Char :=
  match c with
  | '"' => ['\\', '"']
  | '\\' => ['\\', '\\']
  | '\t' => ['\\', 't']
  | '\n' => ['\\', 'n']
  | '\r' => ['\\', 'r']
  | '\u0000' =>
    if next.any fun d => '0' ≤ d && d ≤ '7' then ['\\', 'x', '0', '0'] else ['\\', '0']
  | c =>
    if isPrintable c then [c]
    else ['\\', 'u', '\x7b'] ++ Nat.toDigits 16 c.toNat ++ ['\x7d']

/-- How a string spells some characters. -/
def spelled : List Char → List Char
  | [] => []
  | c :: r => escaped c r.head? ++ spelled r

/-- The attribute that a comment stands for: one of what encloses it if `inner`, else one of what
follows. -/
def documentation (inner : Bool) (comment : List Char) : List Token :=
  [mark '#' false] ++ (if inner then [mark '!' false] else []) ++
    [opening .square, word "doc", mark '=' false,
      literal (String.ofList ('"' :: spelled comment ++ ['"'])), closing .square]

/-- What a comment to the end of its line stands for. -/
def lineComment : List Char → List Token
  | '!' :: r => documentation true r
  | '/' :: r => if r.head? = some '/' then [] else documentation false r
  | _ => []

/-- What a comment between marks of its own stands for. -/
def blockComment : List Char → List Token
  | '!' :: r => documentation true r
  | '*' :: c :: r => if c = '*' then [] else documentation false (c :: r)
  | _ => []

/-- The characters up to the end of the line. -/
def line : List Char → List Char
  | [] => []
  | '\n' :: _ => []
  | '\r' :: '\n' :: _ => []
  | c :: r => c :: line r

/-- The inside of a comment between marks of its own, and what follows it. Within it, `depth` more
such comments are open. -/
def untilCommentEnd (depth : Nat) : List Char → List Char × List Char
  | [] => ([], [])
  | [c] => ([c], [])
  | c :: d :: r =>
    if c = '*' ∧ d = '/' then
      match depth with
      | 0 => ([], r)
      | outer + 1 =>
        let (taken, rest) := untilCommentEnd outer r
        (c :: d :: taken, rest)
    else if c = '/' ∧ d = '*' then
      let (taken, rest) := untilCommentEnd (depth + 1) r
      (c :: d :: taken, rest)
    else
      let (taken, rest) := untilCommentEnd depth (d :: r)
      (c :: taken, rest)

theorem untilCommentEnd_length (depth : Nat) (cs : List Char) :
    (untilCommentEnd depth cs).2.length ≤ cs.length := by
  fun_induction untilCommentEnd depth cs <;> simp_all <;> omega

/-! ## Cutting -/

/-- The name that a text starts with, also one that a number sign keeps from being a keyword, and
what follows it. -/
def name : List Char → List Char × List Char
  | 'r' :: '#' :: r => ('r' :: '#' :: r.takeWhile isWordChar, r.dropWhile isWordChar)
  | r => (r.takeWhile isWordChar, r.dropWhile isWordChar)

theorem name_length (cs : List Char) : (name cs).2.length ≤ cs.length := by
  unfold name
  split
  · rename_i r
    exact Nat.le_succ_of_le (Nat.le_succ_of_le (dropWhile_length _ r))
  · exact dropWhile_length _ _

theorem name_cons_length {c : Char} (h : isWordChar c) (cs : List Char) :
    (name (c :: cs)).2.length ≤ cs.length := by
  unfold name
  split
  · rename_i r heq
    obtain ⟨rfl, rfl⟩ := List.cons.inj heq
    exact Nat.le_succ_of_le (dropWhile_length _ r)
  · rw [List.dropWhile_cons_of_pos h]
    exact dropWhile_length _ _

/-- Whether a mark with the given characters behind it has another mark behind it. The start of a
comment is none. -/
def isJoint : List Char → Bool
  | '/' :: c :: _ => c != '/' && c != '*'
  | c :: _ => isMarkChar c
  | [] => false

/-- The token that is the character. -/
def single (c : Char) (cs : List Char) : Token :=
  match c with
  | '(' => opening .round
  | ')' => closing .round
  | '[' => opening .square
  | ']' => closing .square
  | '\x7b' => opening .curly
  | '\x7d' => closing .curly
  | c => mark c (isJoint cs)

/-- The tokens that start with `c`, the characters behind it being given, and what follows them. -/
def first (c : Char) (cs : List Char) : List Token × List Char :=
  if isSpace c then ([], cs)
  else if c = '/' ∧ cs.head? = some '/' then
    (lineComment (line cs.tail), cs.tail.dropWhile (· != '\n'))
  else if c = '/' ∧ cs.head? = some '*' then
    (blockComment (untilCommentEnd 0 cs.tail).1, (untilCommentEnd 0 cs.tail).2)
  -- Before names: the letters that announce a literal could start one.
  else match quoted? c cs with
    | some (behind, r) => ([literal (String.ofList (c :: behind ++ (suffix r).1))], (suffix r).2)
    | none =>
      if c.isDigit then ([literal (String.ofList (c :: (number cs).1))], (number cs).2)
      else if isWordChar c then
        ([word (String.ofList (name (c :: cs)).1)], (name (c :: cs)).2)
      else if c = '\'' then ([lifetime (String.ofList (c :: (name cs).1))], (name cs).2)
      else ([single c cs], cs)

/-- Cutting takes nothing from behind but characters that it passes. -/
theorem first_length (c : Char) (cs : List Char) : (first c cs).2.length ≤ cs.length := by
  have ht : cs.tail.length ≤ cs.length := by simp
  unfold first
  split
  · exact Nat.le_refl _
  split
  · exact Nat.le_trans (dropWhile_length _ _) ht
  split
  · exact Nat.le_trans (untilCommentEnd_length _ _) ht
  split
  · rename_i behind r heq
    exact Nat.le_trans (suffix_length r) (quoted?_length heq)
  split
  · exact number_length cs
  split
  · rename_i hw
    exact name_cons_length hw cs
  split
  · exact name_length cs
  · exact Nat.le_refl _

/-- The tokens of some characters. -/
def all : List Char → List Token
  | [] => []
  | c :: cs =>
    have := first_length c cs
    (first c cs).1 ++ all (first c cs).2
termination_by cs => cs.length

/-- The mark that may stand before a whole text to tell of its encoding. -/
def byteOrderMark : Char := '\ufeff'

/-- The tokens of a text. -/
def read (s : String) : List Token :=
  match s.toList with
  | [] => []
  | c :: cs => if c = byteOrderMark then all cs else all (c :: cs)

end Token

end FilterQuery.Code
