import Shepherd.Text.Decimal

/-!
# Commands

The words of the command line as a command. Options may stand before, between and behind other
words, with their value in the next word or, behind an equals sign or a one-letter name, in the same
one. No option may come twice, and a word that begins with a hyphen is never the value of the option
before it. Behind two hyphens all words are plain.
-/

namespace Shepherd.CommandLine
open Text

/-- Where a script, its guest and the configuration of the guest's host are found. -/
structure Sources where
  script : String
  guest : String
  config : Option String
  deriving DecidableEq

inductive Command where
  | version
  | docs
  | run (sources : Sources) (level : String) (delay : Nat)
  | tokenize (sources : Sources)
  | parse (sources : Sources)
  deriving DecidableEq

/-- The commands that have a name. -/
inductive Verb where | run | tokenize | parse | docs
  deriving DecidableEq

/-- The verb with a given name. -/
def Verb.ofName? : String → Option Verb
  | "run" => some .run
  | "tokenize" => some .tokenize
  | "parse" => some .parse
  | "docs" => some .docs
  | _ => none

inductive Flag where | verbose | guest | config | level | delay
  deriving DecidableEq

namespace Flag

/-- The flags that a verb knows. -/
def known : Verb → List Flag
  | .run => [verbose, guest, config, level, delay]
  | .tokenize | .parse => [verbose, guest, config]
  | .docs => [verbose]

/-- The long name of a flag. -/
def longName : Flag → String
  | .verbose => "verbose"
  | .guest => "guest"
  | .config => "config"
  | .level => "level"
  | .delay => "delay-ms"

/-- The one-letter name of a flag, if it has one. -/
def letter? : Flag → Option Char
  | .verbose => some 'v'
  | .guest => some 'g'
  | .config => some 'c'
  | .level => some 'l'
  | .delay => none

end Flag

/-- What the words behind a verb have said so far. -/
structure Words where
  script : Option String
  /-- The flags that were given, with their values. -/
  given : List (Flag × String)
  /-- The flag whose value comes next. -/
  pending : Option Flag
  /-- Whether all further words are plain. -/
  plain : Bool

namespace Words

/-- Before the first word. -/
def none : Words := ⟨.none, [], .none, false⟩

/-- Gives a flag its value; files have names, and a delay is a number. -/
def give (w : Words) (flag : Flag) (value : String) : Option Words :=
  if (w.given.lookup flag).isSome then .none
  else if flag ≠ .verbose ∧ value.isEmpty then .none
  else if flag = .delay ∧ (readUInt64? value.toList).isNone then .none
  else some { w with given := w.given ++ [(flag, value)], pending := .none }

/-- Takes the letters behind one hyphen. -/
def letters (verb : Verb) (w : Words) : List Char → Option Words
  | [] => some w
  | c :: rest =>
    match (Flag.known verb).find? (·.letter? == some c) with
    | .none => .none
    | some .verbose =>
      match w.give .verbose "" with
      | some w => letters verb w rest
      | .none => .none
    | some flag =>
      match rest with
      | [] => some { w with pending := some flag }
      | '=' :: value => w.give flag (String.ofList value)
      | value => w.give flag (String.ofList value)

/-- Takes what stands behind two hyphens: a long name, and perhaps a value behind an equals sign. -/
def long (verb : Verb) (w : Words) (cs : List Char) : Option Words :=
  let name := String.ofList (cs.takeWhile (· ≠ '='))
  match (Flag.known verb).find? (·.longName == name), cs.dropWhile (· ≠ '=') with
  | some .verbose, [] => w.give .verbose ""
  | some .verbose, _ => .none
  | some flag, [] => some { w with pending := some flag }
  | some flag, _ :: value => w.give flag (String.ofList value)
  | .none, _ => .none

/-- Takes a plain word, which is the script; only one is allowed. -/
def word (verb : Verb) (w : Words) (text : String) : Option Words :=
  if verb = .docs ∨ w.script.isSome ∨ text.isEmpty then .none else some { w with script := text }

/-- Takes one more word. -/
def take (verb : Verb) (w : Words) (text : String) : Option Words :=
  if w.plain then w.word verb text
  else
    match w.pending, text.toList with
    | some _, '-' :: _ :: _ => .none
    | some flag, _ => w.give flag text
    | .none, ['-', '-'] => some { w with plain := true }
    | .none, '-' :: '-' :: name => w.long verb name
    | .none, '-' :: c :: rest => w.letters verb (c :: rest)
    | .none, _ => w.word verb text

/-- The files that a script needs. -/
def sources? (w : Words) : Option Sources :=
  match w.script, w.given.lookup .guest with
  | some script, some guest => some ⟨script, guest, w.given.lookup .config⟩
  | _, _ => .none

/-- The delay between two actions in milliseconds; 400 unless told otherwise. -/
def delay (w : Words) : Nat :=
  ((w.given.lookup .delay).bind fun text => readUInt64? text.toList).getD 400

/-- The command that all words make up. -/
def command? (verb : Verb) (w : Words) : Option Command :=
  if w.pending.isSome then .none
  else match verb with
    | .docs => some .docs
    | .tokenize => w.sources?.map .tokenize
    | .parse => w.sources?.map .parse
    | .run =>
      match w.sources?, w.given.lookup .level with
      | some sources, some level => some (.run sources level w.delay)
      | _, _ => .none

end Words

namespace Command

/-- What letters behind one hyphen say before the verb: true asks for the version, false is done. -/
def openingLetters (verbose : Bool) : List Char → Option Bool
  | [] => some false
  | 'V' :: _ => some true
  | 'v' :: rest => if verbose then none else openingLetters true rest
  | _ => none

/-- The command of the words, where `verbose` tells whether that flag was given already. -/
def ofWords? (verbose : Bool) : List String → Option Command
  | [] => none
  | text :: rest =>
    if text = "--version" then some version
    else if text = "--verbose" then if verbose then none else ofWords? true rest
    else
      match text.toList with
      | '-' :: '-' :: _ => none
      | '-' :: c :: letters =>
        match openingLetters verbose (c :: letters) with
        | none => none
        | some true => some version
        | some false => ofWords? true rest
      | _ => do
        let verb ← Verb.ofName? text
        (← rest.foldlM (Words.take verb) Words.none).command? verb

/-- Reads the words of the command line; none where they make up no command. -/
def parse? (words : List String) : Option Command := ofWords? false words

/-- The files that a command reads. -/
def files : Command → List String
  | .version | .docs => []
  | .run sources level _ => [sources.script, sources.guest, level] ++ sources.config.toList
  | .tokenize sources | .parse sources => [sources.script, sources.guest] ++ sources.config.toList

end Command

end Shepherd.CommandLine
