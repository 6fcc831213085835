import Shepherd.Script.Marker

/-!
# Instrumented programs

A script is run inside a program that first prints the script's size, then defines every action
function, and after the script prints the call counts. An action function counts its call and prints
its marker once per repetition. `Program.text` is the program as the guest gets it, and
`Program.output` is what it prints when the script calls action functions and prints lines of its
own.
-/

namespace Shepherd.Script
open Grid

/-- An action function: the variable that counts its calls, and the marker it prints. -/
structure Wrapper where
  action : Action
  counter : List Char
  marker : List Char

/-- A line that prints a literal. -/
def printLine (literal : List Char) : List Char :=
  "print(\"".toList ++ literal ++ "\")\n".toList

namespace Wrapper

/-- The definition of an action function. -/
def text (w : Wrapper) : List Char :=
  "let ".toList ++ w.counter ++ " = 0\nfn ".toList ++ w.action.name.toList ++ "(n = 1)\n".toList ++
    w.counter ++ "++\nrepeat n times print(\"".toList ++ w.marker ++ "\") end\nend\n".toList

/-- The literal that reports a call count: the counter's name, and its value put in by the guest. -/
def report (w : Wrapper) : List Char :=
  w.counter ++ ['$', '{'] ++ w.counter ++ ['}'] ++ markerEnd

end Wrapper

structure Program where
  /-- The literal that is printed first. -/
  opening : List Char
  wrappers : List Wrapper
  source : List Char

namespace Program

/-- The variable that counts the calls of an action; it is named like the start of the line that
reports them. -/
def counter (s : Session) (a : Action) : List Char := s.actionStart ++ a.name.toList ++ callsMark

/-- The function of an action. -/
def wrapper (s : Session) (a : Action) : Wrapper where
  action := a
  counter := counter s a
  marker := (Marker.action a).line s

/-- The program for a script. -/
def ofSource (s : Session) (source : List Char) : Program where
  opening := s.codeSizeStart ++ (Nat.repr source.length).toList ++ markerEnd
  wrappers := Action.all.map (wrapper s)
  source := source

/-! ### The text of a program -/

/-- What stands before the script. -/
def header (p : Program) : List Char := printLine p.opening ++ p.wrappers.flatMap Wrapper.text

/-- What stands behind the script. -/
def footer (p : Program) : List Char := p.wrappers.flatMap fun w => printLine w.report

/-- Ends a script with a line feed, unless it does so itself. -/
def closeLine (source : List Char) : List Char :=
  if source.getLast? = some '\n' then source else source ++ ['\n']

/-- The program as text. -/
def text (p : Program) : List Char :=
  p.header ++ ['\n'] ++ closeLine p.source ++ ['\n'] ++ p.footer

/-! ### The output of a program -/

/-- A literal as it is printed: `${name}` gives way to what `value` puts in for the name. -/
def interpolate (value : List Char → List Char) : List Char → List Char
  | [] => []
  | '$' :: '{' :: rest =>
    value (rest.takeWhile (· ≠ '}')) ++ interpolate value (rest.dropWhile (· ≠ '}')).tail
  | c :: rest => c :: interpolate value rest
termination_by cs => cs.length
decreasing_by
  · have := (rest.dropWhile_sublist (· ≠ '}')).length_le
    simp only [List.length_tail, List.length_cons]
    omega
  · simp

/-- What a running script does that shows. -/
inductive Event where
  | call (verb : Action) (times : Nat)
  | say (line : List Char)

/-- Whether an event is a call of an action function. -/
def Event.calls (a : Action) : Event → Bool
  | .call verb _ => verb == a
  | .say _ => false

/-- How often an action function is called. -/
def callsIn (events : List Event) (a : Action) : Nat := events.countP (·.calls a)

/-- What a variable of the program holds after the events, in digits. -/
def valueAfter (p : Program) (events : List Event) (variableName : List Char) : List Char :=
  match p.wrappers.find? (·.counter == variableName) with
  | some w => (Nat.repr (callsIn events w.action)).toList
  | none => []

/-- What one event prints. -/
def eventLines (p : Program) : Event → List (List Char)
  | .call verb times =>
    match p.wrappers.find? (·.action == verb) with
    | some w => List.replicate times w.marker
    | none => []
  | .say line => [line]

/-- The lines that the program prints in a run with the given events. -/
def outputLines (p : Program) (events : List Event) : List (List Char) :=
  p.opening :: events.flatMap p.eventLines ++
    p.wrappers.map fun w => interpolate (p.valueAfter events) w.report

/-- What the program prints, each line with its end. -/
def output (p : Program) (events : List Event) : List Char :=
  (p.outputLines events).flatMap (· ++ ['\n'])

end Program

/-- The program text for a script. -/
def Session.instrument (s : Session) (source : String) : String :=
  String.ofList (Program.ofSource s source.toList).text

end Shepherd.Script
