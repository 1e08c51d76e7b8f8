/-
# FilterQuery.Text.Blank -- blank characters

A character is *blank* when it carries the Unicode property `White_Space`. Core's
`Char.isWhitespace` knows six ASCII characters only, so the property is kept here as a table of
closed ranges of code points. Zero width characters (U+200B, U+FEFF), the Mongolian vowel
separator and the separators U+001C to U+001F do not carry it.
-/

namespace FilterQuery.Text

/-- The code points with the property `White_Space`, as closed ranges in ascending order. -/
def blankRanges : List (Nat × Nat) :=
  [(0x0009, 0x000D), (0x0020, 0x0020), (0x0085, 0x0085), (0x00A0, 0x00A0), (0x1680, 0x1680),
   (0x2000, 0x200A), (0x2028, 0x2029), (0x202F, 0x202F), (0x205F, 0x205F), (0x3000, 0x3000)]

/-- Whether `c` is white space in the sense of Unicode. -/
def isBlank (c : Char) : Bool :=
  blankRanges.any fun (low, high) => low ≤ c.toNat && c.toNat ≤ high

/-- The text without its leading blanks. -/
def skipBlanks (cs : List Char) : List Char := cs.dropWhile isBlank

/-- The leading blanks of the text. -/
def leadingBlanks (cs : List Char) : List Char := cs.takeWhile isBlank

theorem leadingBlanks_append_skipBlanks (cs : List Char) :
    leadingBlanks cs ++ skipBlanks cs = cs :=
  List.takeWhile_append_dropWhile

theorem skipBlanks_cons {c : Char} (h : isBlank c = false) (r : List Char) :
    skipBlanks (c :: r) = c :: r := by
  rw [skipBlanks, List.dropWhile_cons_of_neg (by simp [h])]

/-- Whether a text holds nothing but blanks. -/
def isBlankText (s : String) : Bool := s.toList.all isBlank

end FilterQuery.Text
