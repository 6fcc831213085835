import Shepherd.Text.Decimal
import Shepherd.Text.Scan

/-!
# The words of TOML

White space, line endings, comments, the four kinds of strings, and keys. A line ends in a line feed
or in carriage return and line feed; a carriage return alone is nowhere allowed. Control characters
other than tab are allowed neither in strings nor in comments.
-/

namespace Shepherd.Data.Toml
open Text

/-- Skips spaces and tabs. -/
def skipBlank : Scan Unit := discard (Scan.span fun c => c == ' ' || c == '\t')

/-- The end of a line. -/
def newline : Scan Unit
  | '\n' :: rest => some ((), rest)
  | '\r' :: '\n' :: rest => some ((), rest)
  | _ => none

/-- Whether a character may stand in a comment, and for itself in a string, quotes and backslash
apart. -/
def isPlain (c : Char) : Bool := c == '\t' || (0x20 ≤ c.toNat && c.toNat != 0x7F)

/-- A comment up to the end of its line. -/
def comment : Scan Unit := do
  Scan.char '#'
  discard (Scan.span isPlain)

/-- Skips a comment, if there is one. -/
def skipComment : Scan Unit := do
  if (← Scan.peek) = some '#' then comment

/-- What may stand behind a value or a header on its line: blanks, a comment and the line's end. -/
def lineEnd : Scan Unit := do
  skipBlank
  skipComment
  if (← Scan.peek).isSome then newline

/-- Skips blanks, comments and line endings; `fuel` bounds the number of lines. -/
def skipLines : Nat → Scan Unit
  | 0 => failure
  | fuel + 1 => do
    skipBlank
    match ← Scan.peek with
    | some '#' => comment *> newline *> skipLines fuel
    | some '\n' | some '\r' => newline *> skipLines fuel
    | _ => return

/-- The character that one letter after a backslash stands for. -/
def shortEscape? : Char → Option Char
  | 'b' => some '\x08'
  | 't' => some '\t'
  | 'n' => some '\n'
  | 'f' => some '\x0c'
  | 'r' => some '\r'
  | '"' => some '"'
  | '\\' => some '\\'
  | _ => none

/-- The character with the code point that hexadecimal digits write, if there is one. -/
def codePoint? (digits : List Char) : Option Char :=
  let n := hexValue digits
  if digits.all isHexDigit ∧ n.isValidChar then some (Char.ofNat n) else none

/-- One character after a backslash, and the text behind it. -/
def escaped? : List Char → Option (Char × List Char)
  | 'u' :: rest =>
    if rest.length < 4 then none else (codePoint? (rest.take 4)).map (·, rest.drop 4)
  | 'U' :: rest =>
    if rest.length < 8 then none else (codePoint? (rest.take 8)).map (·, rest.drop 8)
  | e :: rest => (shortEscape? e).map (·, rest)
  | [] => none

/-- The rest of a basic string behind the characters already read (last first). -/
def basicBody : Nat → List Char → Scan String
  | 0, _, _ => none
  | fuel + 1, done, cs =>
    match cs with
    | '"' :: rest => some (String.ofList done.reverse, rest)
    | '\\' :: rest =>
      match escaped? rest with
      | some (c, rest) => basicBody fuel (c :: done) rest
      | none => none
    | c :: rest => if isPlain c then basicBody fuel (c :: done) rest else none
    | [] => none

/-- The rest of a literal string: everything up to the next apostrophe. -/
def literalBody : Scan String := do
  let body ← Scan.span fun c => c != '\'' && isPlain c
  Scan.char '\''
  return String.ofList body

/-- The text behind a backslash at the end of a line, where it is one: blanks and line endings are
skipped up to the next visible character. -/
def continued? (cs : List Char) : Option (List Char) :=
  match newline (cs.dropWhile fun c => c == ' ' || c == '\t') with
  | some ((), rest) => (skipFolds (rest.length + 1) rest)
  | none => none
where
  /-- Skips blanks and line endings. -/
  skipFolds : Nat → List Char → Option (List Char)
  | 0, _ => none
  | fuel + 1, cs =>
    let cs := cs.dropWhile fun c => c == ' ' || c == '\t'
    match newline cs with
    | some ((), rest) => skipFolds fuel rest
    | none => some cs

/-- The rest of a string over several lines that is closed by three `quote`s; up to two more of them
right before the closing ones belong to the text. -/
def multilineBody (quote : Char) (escapes : Bool) : Nat → List Char → Scan String
  | 0, _, _ => none
  | fuel + 1, done, cs =>
    match cs with
    | '\r' :: '\n' :: rest => multilineBody quote escapes fuel ('\n' :: done) rest
    | '\n' :: rest => multilineBody quote escapes fuel ('\n' :: done) rest
    | c :: rest =>
      if c = quote then
        let run := cs.takeWhile (· == quote)
        if run.length ≤ 2 then
          multilineBody quote escapes fuel (run ++ done) (cs.drop run.length)
        else if run.length ≤ 5 then
          some (String.ofList ((run.drop 3 ++ done).reverse), cs.drop run.length)
        else none
      else if escapes ∧ c = '\\' then
        match continued? rest with
        | some rest => multilineBody quote escapes fuel done rest
        | none =>
          match escaped? rest with
          | some (e, rest) => multilineBody quote escapes fuel (e :: done) rest
          | none => none
      else if isPlain c then multilineBody quote escapes fuel (c :: done) rest
      else none
    | [] => none

/-- A string of any kind. A line ending right behind three opening quotes is dropped. -/
def string : Scan String := fun cs =>
  let fuel := cs.length
  match cs with
  | '"' :: '"' :: '"' :: rest =>
    (discard (Scan.attempt newline) *> multilineBody '"' true fuel []) rest
  | '"' :: rest => basicBody fuel [] rest
  | '\'' :: '\'' :: '\'' :: rest =>
    (discard (Scan.attempt newline) *> multilineBody '\'' false fuel []) rest
  | '\'' :: rest => literalBody rest
  | _ => none

/-- Whether a character may stand in a key without quotes. -/
def isBare (c : Char) : Bool := c.isAlphanum || c == '_' || c == '-'

/-- One part of a key: bare, or a string on one line. -/
def keyPart : Scan String := fun cs =>
  match cs with
  | '"' :: rest => basicBody cs.length [] rest
  | '\'' :: rest => literalBody rest
  | _ => (String.ofList <$> Scan.span1 isBare) cs

/-- The parts of a key behind those already read (last first). -/
def keyParts : Nat → List String → Scan (List String)
  | 0, _ => failure
  | fuel + 1, done => do
    skipBlank
    let part ← keyPart
    skipBlank
    if (← Scan.attempt (Scan.char '.')).isSome then keyParts fuel (part :: done)
    else return (part :: done).reverse

/-- The deepest nesting of values, and the most parts of a key. -/
def depthLimit : Nat := 79

/-- A key with its parts, parted by dots; blanks around it are skipped. -/
def key : Scan (List String) := keyParts depthLimit []

end Shepherd.Data.Toml
