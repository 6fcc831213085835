/-!
# Splitting at a separator

The first place where a separator occurs in a text cuts it in two.
-/

namespace Shepherd.Text

/-- The text before the first occurrence of `sep` and the text after it. -/
def splitOnce? (sep : List Char) : List Char → Option (List Char × List Char)
  | [] => if sep = [] then some ([], []) else none
  | c :: cs =>
    match sep.isPrefixOf? (c :: cs) with
    | some rest => some ([], rest)
    | none => (splitOnce? sep cs).map fun (before, rest) => (c :: before, rest)

end Shepherd.Text
