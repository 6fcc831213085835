import Shepherd.Proofs.Script.Marker
import Shepherd.Proofs.Text.Lines
import Shepherd.Script.Program

/-!
# The text of a program

A program line by line: the first one prints the length of the script, five define the function of
each action, and one for each action behind the script prints its call count. Whoever collects the
literals that the text prints finds those that the program has, and between them those of the
script, which stands in there as it is.
-/

namespace Shepherd.Script.Program
open Grid Text

/-! ### The lines of a program -/

/-- A line that prints a literal, without its end. -/
def printing (literal : List Char) : List Char := "print(\"".toList ++ literal ++ "\")".toList

/-- The line that prints the length of the script. -/
def sizeLine (s : Session) (chars : Nat) : List Char :=
  printing (s.codeSizeStart ++ (Nat.repr chars).toList ++ markerEnd)

/-- The lines that define the function of an action. -/
def functionLines (s : Session) (a : Action) : List (List Char) :=
  ["let ".toList ++ counter s a ++ " = 0".toList,
    "fn ".toList ++ a.name.toList ++ "(n = 1)".toList,
    counter s a ++ "++".toList,
    "repeat n times ".toList ++ printing ((Marker.action a).line s) ++ " end".toList,
    "end".toList]

/-- The lines in front of a script with the given number of characters. -/
def headerLines (s : Session) (chars : Nat) : List (List Char) :=
  sizeLine s chars :: Action.all.flatMap (functionLines s)

/-- The line that prints how often the function of an action was called. -/
def trailerLine (s : Session) (a : Action) : List Char :=
  printing (counter s a ++ ['$', '{'] ++ counter s a ++ ['}'] ++ markerEnd)

/-- The lines behind a script. -/
def trailerLines (s : Session) : List (List Char) := Action.all.map (trailerLine s)

variable {s : Session}

theorem all_isTagChar_counter (s : Session) (a : Action) :
    (counter s a).all isTagChar = true := by
  have hmark : callsMark.all isTagChar = true := by decide +kernel
  rw [counter, List.all_append, List.all_append, s.all_isTagChar_actionStart, all_isTagChar_verb,
    hmark]
  rfl

theorem not_mem_counter {c : Char} (h : isTagChar c = false) (s : Session) (a : Action) :
    c ∉ counter s a :=
  not_mem_of_all_isTagChar (all_isTagChar_counter s a) h

theorem printing_eq (literal : List Char) :
    printing literal = "print(\"".toList ++ literal ++ "\")".toList := rfl

theorem printLine_eq (literal : List Char) : printLine literal = printing literal ++ ['\n'] := by
  have hend : "\")\n".toList = "\")".toList ++ ['\n'] := by decide +kernel
  have hline : printLine literal = "print(\"".toList ++ literal ++ "\")\n".toList := rfl
  rw [hline, hend, printing_eq, List.append_assoc ("print(\"".toList ++ literal)]

theorem text_wrapper (s : Session) (a : Action) :
    (wrapper s a).text = (functionLines s a).flatMap (· ++ ['\n']) := by
  have hzero : " = 0\nfn ".toList = " = 0".toList ++ '\n' :: "fn ".toList := by decide +kernel
  have hparameter : "(n = 1)\n".toList = "(n = 1)".toList ++ ['\n'] := by decide +kernel
  have hrepeat : "++\nrepeat n times print(\"".toList =
      "++".toList ++ '\n' :: ("repeat n times ".toList ++ "print(\"".toList) := by decide +kernel
  have hend : "\") end\nend\n".toList =
      "\")".toList ++ (" end".toList ++ '\n' :: ("end".toList ++ ['\n'])) := by decide +kernel
  have htext : (wrapper s a).text = "let ".toList ++ counter s a ++ " = 0\nfn ".toList ++
      a.name.toList ++ "(n = 1)\n".toList ++ counter s a ++
      "++\nrepeat n times print(\"".toList ++ (Marker.action a).line s ++
      "\") end\nend\n".toList := rfl
  rw [htext, hzero, hparameter, hrepeat, hend]
  simp only [functionLines, printing_eq, List.flatMap_cons, List.flatMap_nil, List.append_assoc,
    List.cons_append, List.nil_append, List.append_nil]

theorem header_ofSource (s : Session) (source : List Char) :
    (ofSource s source).header = (headerLines s source.length).flatMap (· ++ ['\n']) := by
  have hfunctions : (ofSource s source).wrappers.flatMap Wrapper.text =
      (Action.all.flatMap (functionLines s)).flatMap (· ++ ['\n']) := by
    rw [ofSource, List.flatMap_map, List.flatMap_assoc]
    exact congrArg (Action.all.flatMap ·) (funext fun a => text_wrapper s a)
  rw [header, printLine_eq, hfunctions, headerLines, List.flatMap_cons]
  rfl

theorem footer_ofSource (s : Session) (source : List Char) :
    (ofSource s source).footer = (trailerLines s).flatMap (· ++ ['\n']) := by
  rw [footer, ofSource, trailerLines, List.flatMap_map, List.flatMap_map]
  exact congrArg (Action.all.flatMap ·) (funext fun a => printLine_eq _)

theorem closeLine_eq (source : List Char) :
    closeLine source = source ++ if source.getLast? = some '\n' then [] else ['\n'] := by
  rw [closeLine]
  split
  · rw [List.append_nil]
  · rfl

theorem text_ofSource (s : Session) (source : List Char) : (ofSource s source).text =
    (headerLines s source.length).flatMap (· ++ ['\n']) ++ ['\n'] ++ closeLine source ++ ['\n'] ++
      (trailerLines s).flatMap (· ++ ['\n']) := by
  rw [text, header_ofSource, footer_ofSource]
  rfl

theorem length_headerLines (s : Session) (chars : Nat) : (headerLines s chars).length = 31 := rfl

theorem newline_not_mem_printing {literal : List Char} (h : '\n' ∉ literal) :
    '\n' ∉ printing literal := by
  have hopen : '\n' ∉ "print(\"".toList := by decide +kernel
  have hclose : '\n' ∉ "\")".toList := by decide +kernel
  simp only [printing_eq, List.mem_append, hopen, h, hclose, or_self, not_false_eq_true]

theorem not_mem_opening {c : Char} (h : isTagChar c = false) (s : Session) (chars : Nat) :
    c ∉ s.codeSizeStart ++ (Nat.repr chars).toList ++ markerEnd := by
  refine not_mem_of_all_isTagChar ?_ h
  rw [List.all_append, List.all_append, s.all_isTagChar_codeSizeStart, all_isTagChar_repr]
  rfl

theorem newline_not_mem_sizeLine (s : Session) (chars : Nat) : '\n' ∉ sizeLine s chars :=
  newline_not_mem_printing (not_mem_opening (by decide) s chars)

theorem newline_not_mem_functionLines {a : Action} {line : List Char}
    (h : line ∈ functionLines s a) : '\n' ∉ line := by
  have hname : '\n' ∉ a.name.toList :=
    not_mem_of_all_isTagChar (all_isTagChar_verb a) (by decide)
  have hcounter : '\n' ∉ counter s a := not_mem_counter (by decide) s a
  have hprint := newline_not_mem_printing (newline_not_mem_line s (.action a))
  have hwords : '\n' ∉ "let ".toList ∧ '\n' ∉ " = 0".toList ∧ '\n' ∉ "fn ".toList ∧
      '\n' ∉ "(n = 1)".toList ∧ '\n' ∉ "++".toList ∧ '\n' ∉ "repeat n times ".toList ∧
      '\n' ∉ " end".toList ∧ '\n' ∉ "end".toList := by decide +kernel
  simp only [functionLines, List.mem_cons, List.not_mem_nil, or_false] at h
  rcases h with rfl | rfl | rfl | rfl | rfl <;>
    simp only [List.mem_append, hname, hcounter, hprint, hwords, or_self, not_false_eq_true]

theorem newline_not_mem_headerLines {chars : Nat} {line : List Char}
    (h : line ∈ headerLines s chars) : '\n' ∉ line := by
  rw [headerLines, List.mem_cons, List.mem_flatMap] at h
  rcases h with rfl | ⟨a, -, h⟩
  · exact newline_not_mem_sizeLine s chars
  · exact newline_not_mem_functionLines h

theorem newline_not_mem_trailerLine (s : Session) (a : Action) : '\n' ∉ trailerLine s a := by
  have hcounter : '\n' ∉ counter s a := not_mem_counter (by decide) s a
  refine newline_not_mem_printing ?_
  simp [hcounter, markerEnd]

/-! ### The literals of a text -/

/-- The literal that a line prints: what stands in the first quotes, behind `print(`. -/
def printed? (line : List Char) : Option (List Char) :=
  match splitOnce? ['"'] line with
  | some (before, rest) =>
    if "print(".toList <:+ before then some (rest.takeWhile (· ≠ '"')) else none
  | none => none

/-- The literals that a text prints, line by line. -/
def printedIn (text : List Char) : List (List Char) := (cutLines text).filterMap printed?

theorem printed?_eq_none {line : List Char} (h : '"' ∉ line) : printed? line = none := by
  rw [printed?, splitOnce?_eq_none h]

theorem printed?_printing {before literal : List Char} (hbefore : '"' ∉ before)
    (hliteral : '"' ∉ literal) (rest : List Char) :
    printed? (before ++ printing literal ++ rest) = some literal := by
  have hprint : '"' ∉ "print(".toList := by decide +kernel
  have hopen : "print(\"".toList = "print(".toList ++ ['"'] := by decide +kernel
  have hclose : "\")".toList = ['"', ')'] := by decide +kernel
  have hsplit : splitOnce? ['"'] (before ++ printing literal ++ rest) =
      some (before ++ "print(".toList, literal ++ '"' :: ')' :: rest) := by
    refine splitOnce?_eq_some_iff.2 ⟨?_, by simp only [List.mem_append, hbefore, hprint, or_self,
      not_false_eq_true]⟩
    simp only [printing_eq, hopen, hclose, List.append_assoc, List.cons_append, List.nil_append]
  have hinside : ∀ c ∈ literal, decide (c ≠ '"') = true := fun c hc => by
    rw [decide_eq_true_iff]
    rintro rfl
    exact hliteral hc
  rw [printed?, hsplit]
  dsimp only
  rw [if_pos (List.suffix_append before _), List.takeWhile_append_of_pos hinside]
  simp

theorem printed?_line {literal : List Char} (h : '"' ∉ literal) :
    printed? (printing literal) = some literal := by
  have hprinted := printed?_printing List.not_mem_nil h []
  rwa [List.nil_append, List.append_nil] at hprinted

theorem printedIn_append_newline (cs ds : List Char) :
    printedIn (cs ++ '\n' :: ds) = printedIn cs ++ printedIn ds := by
  rw [printedIn, cutLines_append_newline_append, List.filterMap_append]
  rfl

/-- Lines print their literals, whatever stands behind them. -/
theorem printedIn_terminated {ls : List (List Char)} (h : ∀ line ∈ ls, '\n' ∉ line)
    (rest : List Char) :
    printedIn (ls.flatMap (· ++ ['\n']) ++ rest) = ls.filterMap printed? ++ printedIn rest := by
  induction ls with
  | nil => rfl
  | cons line ls ih =>
    rw [List.forall_mem_cons] at h
    have hline : printedIn line = [line].filterMap printed? := by
      rw [printedIn, cutLines_of_single h.1]
    rw [List.flatMap_cons, List.append_assoc, List.append_assoc, List.singleton_append,
      printedIn_append_newline, ih h.2, hline, ← List.append_assoc, ← List.filterMap_append,
      List.singleton_append]

/-- The line feed that may be put behind a script prints nothing. -/
theorem printedIn_closeLine (source : List Char) :
    printedIn (closeLine source) = printedIn source := by
  rw [closeLine_eq]
  split
  · rw [List.append_nil]
  · have hempty : printedIn [] = [] := rfl
    rw [printedIn_append_newline, hempty, List.append_nil]

/-! ### The literals of a program -/

theorem printed?_sizeLine (s : Session) (source : List Char) :
    printed? (sizeLine s source.length) = some (ofSource s source).opening :=
  printed?_line (not_mem_opening (by decide) s source.length)

/-- The only literal in the function of an action is the marker. -/
theorem printed?_functionLines (s : Session) (a : Action) :
    (functionLines s a).filterMap printed? = [(wrapper s a).marker] := by
  have hcounter : '"' ∉ counter s a := not_mem_counter (by decide) s a
  have hname : '"' ∉ a.name.toList := not_mem_of_all_isTagChar (all_isTagChar_verb a) (by decide)
  have hmarker : '"' ∉ (Marker.action a).line s :=
    not_mem_of_all_isTagChar (all_isTagChar_line s _) (by decide)
  have hwords : '"' ∉ "let ".toList ∧ '"' ∉ " = 0".toList ∧ '"' ∉ "fn ".toList ∧
      '"' ∉ "(n = 1)".toList ∧ '"' ∉ "++".toList ∧ '"' ∉ "repeat n times ".toList ∧
      '"' ∉ "end".toList := by decide +kernel
  obtain ⟨hlet, hzero, hfn, hparameter, hincrement, hrepeat, hend⟩ := hwords
  have hnone {line : List Char} (h : '"' ∉ line) (rest : List (List Char)) :
      (line :: rest).filterMap printed? = rest.filterMap printed? :=
    List.filterMap_cons_none (printed?_eq_none h)
  rw [functionLines, hnone, hnone, hnone,
    List.filterMap_cons_some (printed?_printing hrepeat hmarker _), hnone hend]
  · rfl
  · simp only [List.mem_append, hcounter, hincrement, or_self, not_false_eq_true]
  · simp only [List.mem_append, hname, hfn, hparameter, or_self, not_false_eq_true]
  · simp only [List.mem_append, hcounter, hlet, hzero, or_self, not_false_eq_true]

theorem printed?_trailerLine (s : Session) (a : Action) :
    printed? (trailerLine s a) = some (wrapper s a).report := by
  have hquote : '"' ∉ (wrapper s a).report := by
    have hcounter : '"' ∉ counter s a := not_mem_counter (by decide) s a
    have hbraces : '"' ∉ ['$', '{'] ∧ '"' ∉ ['}'] ∧ '"' ∉ markerEnd := by decide +kernel
    simp only [Wrapper.report, wrapper, List.mem_append, hcounter, hbraces, or_self,
      not_false_eq_true]
  exact printed?_line hquote

/-- The text of a program prints the literals that the program has, and those of the script. -/
theorem printedIn_text (s : Session) (source : List Char) :
    printedIn (ofSource s source).text =
      (ofSource s source).opening :: (ofSource s source).wrappers.map Wrapper.marker ++
        printedIn source ++ (ofSource s source).wrappers.map Wrapper.report := by
  have hheader : (headerLines s source.length).filterMap printed? =
      (ofSource s source).opening :: (ofSource s source).wrappers.map Wrapper.marker := by
    rw [headerLines, List.filterMap_cons_some (printed?_sizeLine s source), List.filterMap_flatMap,
      funext (printed?_functionLines s), ofSource, List.map_map]
    rfl
  have htrailer : (trailerLines s).filterMap printed? =
      (ofSource s source).wrappers.map Wrapper.report := by
    rw [trailerLines, List.filterMap_map, ofSource, List.map_map, ← List.filterMap_eq_map]
    exact congrArg (List.filterMap · Action.all) (funext (printed?_trailerLine s))
  have hempty : printedIn [] = [] := rfl
  have hsingle : ∀ line ∈ trailerLines s, '\n' ∉ line := by
    intro line hline
    obtain ⟨a, -, rfl⟩ := List.mem_map.1 hline
    exact newline_not_mem_trailerLine s a
  have hparts : (ofSource s source).text = (headerLines s source.length).flatMap (· ++ ['\n']) ++
      ([] ++ '\n' :: (closeLine source ++
        '\n' :: ((trailerLines s).flatMap (· ++ ['\n']) ++ []))) := by
    rw [text_ofSource]
    simp only [List.append_assoc, List.cons_append, List.nil_append, List.append_nil]
  rw [hparts, printedIn_terminated fun line => newline_not_mem_headerLines,
    printedIn_append_newline, printedIn_append_newline, printedIn_terminated hsingle,
    printedIn_closeLine, hheader, htrailer, hempty, List.nil_append, List.append_nil,
    ← List.append_assoc]

end Shepherd.Script.Program
