/-
# FilterQuery.Token.Lexer -- from characters to tokens

`scan` looks at the characters behind the blanks and says which lexeme they start with, how it is
spelled, and what follows. A `Cursor` adds the place in the text: `Cursor.next` skips blanks and
scans once, also after a fault, and then goes on behind what the fault has consumed.

`tokenize` runs a cursor over a whole text, up to its end or up to the first fault. The main law
here is that scanning loses nothing (`Scan.spelled_append_rest`), which gives the progress of
each step that finds a token.
-/

import FilterQuery.Token
import FilterQuery.Operator
import FilterQuery.Text.Quoted
import FilterQuery.Text.Unreserved

namespace FilterQuery

open Text

/-- What the next characters of a text are: they spell a lexeme, or start none, where `spelled` was
read before that was clear. -/
inductive Scan where
  | found (lexeme : Lexeme) (spelled rest : List Char)
  | illegal (character : Char) (spelled rest : List Char)

namespace Scan

/-- The characters that were read. -/
def spelled : Scan → List Char
  | found _ s _ => s
  | illegal _ s _ => s

/-- The characters that follow. -/
def rest : Scan → List Char
  | found _ _ r => r
  | illegal _ _ r => r

/-- A comparison symbol that starts with `=`, the characters behind it being given. -/
def equalsSign (r : List Char) : Scan :=
  let letters := r.takeWhile isLetter
  match r.dropWhile isLetter with
  | '=' :: r' =>
    let symbol := '=' :: letters ++ ['=']
    found (.operator (String.ofList symbol)) symbol r'
  | r' => illegal '=' ('=' :: letters) r'

/-- A comparison symbol that starts with `<` or `>`, the characters behind it being given. -/
def angle (c : Char) : List Char → Scan
  | '=' :: r => found (.operator (String.ofList [c, '='])) [c, '='] r
  | r => found (.operator (String.ofList [c])) [c] r

/-- The comparison symbol that starts with `!`, the characters behind it being given. -/
def exclamation : List Char → Scan
  | '=' :: r => found (.operator "!=") ['!', '='] r
  | r => illegal '!' ['!'] r

/-- A text that starts with the quote `mark`, the characters behind it being given. -/
def quotation (mark : Char) (r : List Char) : Scan :=
  match Quoted.read mark r with
  | some d => found (.quoted (String.ofList d.text)) (mark :: d.spelled) d.rest
  | none => illegal mark (mark :: r) []

/-- The longest run of unreserved characters. -/
def run (cs : List Char) : Scan :=
  let word := cs.takeWhile isUnreserved
  found (.bare (String.ofList word)) word (cs.dropWhile isUnreserved)

end Scan

/-- Looks at the first lexeme of a text without leading blanks. -/
def scan : List Char → Scan
  | [] => .found .eof [] []
  | c :: r =>
    if c = ';' then .found .and [c] r
    else if c = ',' then .found .or [c] r
    else if c = '(' then .found .opening [c] r
    else if c = ')' then .found .closing [c] r
    else if c = '"' ∨ c = '\'' then .quotation c r
    else if c = '=' then .equalsSign r
    else if c = '<' ∨ c = '>' then .angle c r
    else if c = '!' then .exclamation r
    else if isUnreserved c then .run (c :: r)
    else .illegal c [] (c :: r)

/-- Scanning loses nothing. -/
theorem Scan.spelled_append_rest (cs : List Char) : (scan cs).spelled ++ (scan cs).rest = cs := by
  have hq : ∀ m r, (Scan.quotation m r).spelled ++ (Scan.quotation m r).rest = m :: r := by
    intro m r
    simp only [Scan.quotation]
    split
    · rename_i d hd
      simpa [Scan.spelled, Scan.rest] using Quoted.spelled_append_rest hd
    · simp [Scan.spelled, Scan.rest]
  have he : ∀ r, (Scan.equalsSign r).spelled ++ (Scan.equalsSign r).rest = '=' :: r := by
    intro r
    have hr : r.takeWhile isLetter ++ r.dropWhile isLetter = r := List.takeWhile_append_dropWhile
    simp only [Scan.equalsSign]
    split
    · rename_i r' h
      simp only [Scan.spelled, Scan.rest]
      rw [h] at hr
      simpa using hr
    · simp [Scan.spelled, Scan.rest, hr]
  have ha : ∀ c r, (Scan.angle c r).spelled ++ (Scan.angle c r).rest = c :: r := by
    intro c r
    simp only [Scan.angle]
    split <;> simp [Scan.spelled, Scan.rest]
  have hx : ∀ r, (Scan.exclamation r).spelled ++ (Scan.exclamation r).rest = '!' :: r := by
    intro r
    simp only [Scan.exclamation]
    split <;> simp [Scan.spelled, Scan.rest]
  have hr : ∀ cs, (Scan.run cs).spelled ++ (Scan.run cs).rest = cs := by
    intro cs
    simp [Scan.run, Scan.spelled, Scan.rest]
  cases cs with
  | nil => rfl
  | cons c r =>
    simp only [scan]
    repeat' split
    all_goals first | simp [Scan.spelled, Scan.rest]; done | skip
    · exact hq c r
    · rename_i h; subst h; exact he r
    · exact ha c r
    · rename_i h; subst h; exact hx r
    · exact hr (c :: r)

/-- A lexeme other than the end is spelled with at least one character. -/
theorem Scan.spelled_ne_nil {cs s r : List Char} {l : Lexeme} (h : scan cs = .found l s r)
    (hl : l ≠ .eof) : s ≠ [] := by
  cases cs with
  | nil =>
    simp only [scan, Scan.found.injEq] at h
    exact absurd h.1.symm hl
  | cons c t =>
    simp only [scan] at h
    repeat' split at h
    all_goals first | (cases h; done) | (cases h; simp; done) | skip
    · simp only [Scan.quotation] at h
      split at h <;> cases h
      simp
    · simp only [Scan.equalsSign] at h
      split at h <;> cases h
      simp
    · simp only [Scan.angle] at h
      split at h <;> cases h <;> simp
    · simp only [Scan.exclamation] at h
      split at h <;> cases h
      simp
    · rename_i hu
      simp only [Scan.run, Scan.found.injEq] at h
      obtain ⟨_, rfl, _⟩ := h
      simp [hu]

/-! ## Reading a text token by token -/

/-- A place in a text and the characters from there on. -/
structure Cursor where
  position : Position
  rest : List Char

namespace Cursor

/-- The start of a text. -/
def start (text : String) : Cursor := ⟨{}, text.toList⟩

/-- Skips blanks and reads one token. At the end of the text every step gives the end again;
after a fault the cursor stands behind what the fault has consumed. -/
def next (c : Cursor) : Except LexicalFault Token × Cursor :=
  let place := c.position.after (leadingBlanks c.rest)
  match scan (skipBlanks c.rest) with
  | .found lexeme spelled rest => (.ok ⟨lexeme, place⟩, ⟨place.after spelled, rest⟩)
  | .illegal character spelled rest =>
    (.error ⟨character, place.offset⟩, ⟨place.after spelled, rest⟩)

/-- Reading a token other than the end consumes something. -/
theorem length_next_lt {c d : Cursor} {t : Token} (h : c.next = (.ok t, d))
    (ht : t.lexeme ≠ .eof) : d.rest.length < c.rest.length := by
  simp only [next] at h
  split at h
  · rename_i l s r hs
    simp only [Prod.mk.injEq, Except.ok.injEq] at h
    obtain ⟨rfl, rfl⟩ := h
    have hne := Scan.spelled_ne_nil hs ht
    have hsr := Scan.spelled_append_rest (skipBlanks c.rest)
    rw [hs] at hsr
    have hb := leadingBlanks_append_skipBlanks c.rest
    have hl : 0 < s.length := List.length_pos_iff.2 hne
    have := congrArg List.length hsr
    have := congrArg List.length hb
    simp only [Scan.spelled, Scan.rest, List.length_append] at *
    omega
  · simp at h

end Cursor

/-- How the tokens of a text end: with the token that marks the end of the text, or where no token
can be read. -/
inductive Ending where
  | eof (token : Token)
  | fault (f : LexicalFault)
  deriving Repr, DecidableEq

/-- The tokens of a text before its end or its first fault. -/
structure Tokens where
  tokens : List Token
  ending : Ending
  deriving Repr, DecidableEq

/-- The tokens from a cursor on. -/
def Cursor.tokens (c : Cursor) : Tokens :=
  match h : c.next with
  | (.error f, _) => ⟨[], .fault f⟩
  | (.ok t, d) =>
    if ht : t.lexeme = .eof then ⟨[], .eof t⟩
    else
      have := Cursor.length_next_lt h ht
      let more := d.tokens
      ⟨t :: more.tokens, more.ending⟩
termination_by c.rest.length

/-- The tokens of a text. -/
def tokenize (text : String) : Tokens := (Cursor.start text).tokens

/-- The tokens as a list of items: the last one is the end or a fault. -/
def Tokens.items (ts : Tokens) : List (Except LexicalFault Token) :=
  ts.tokens.map .ok ++ [match ts.ending with | .eof t => .ok t | .fault f => .error f]

/-- The outcomes of `n` steps of a cursor, which goes on after faults. -/
def Cursor.steps : Nat → Cursor → List (Except LexicalFault Token)
  | 0, _ => []
  | n + 1, c => c.next.1 :: steps n c.next.2

end FilterQuery
