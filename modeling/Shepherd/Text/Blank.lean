/-!
# Blank characters

The characters that Unicode calls white space, and trimming by them. Trimming removes blanks at
the ends of a text and never one between two visible characters.
-/

namespace Shepherd.Text

/-- Unicode white space. -/
def isBlank (c : Char) : Bool :=
  let n := c.toNat
  (0x9 ≤ n && n ≤ 0xD) || n == 0x20 || n == 0x85 || n == 0xA0 || n == 0x1680 ||
    (0x2000 ≤ n && n ≤ 0x200A) || n == 0x2028 || n == 0x2029 || n == 0x202F || n == 0x205F ||
    n == 0x3000

/-- The text without its leading blanks. -/
def trimStart (cs : List Char) : List Char := cs.dropWhile isBlank

/-- The text without its trailing blanks. -/
def trimEnd (cs : List Char) : List Char := (cs.reverse.dropWhile isBlank).reverse

/-- The text without the blanks at either end. -/
def trim (cs : List Char) : List Char := trimEnd (trimStart cs)

theorem trimEnd_nil : trimEnd [] = [] := rfl

/-- A blank at the end is trimmed away. -/
theorem trimEnd_concat_blank {c : Char} (cs : List Char) (h : isBlank c = true) :
    trimEnd (cs ++ [c]) = trimEnd cs := by
  simp [trimEnd, h]

end Shepherd.Text
