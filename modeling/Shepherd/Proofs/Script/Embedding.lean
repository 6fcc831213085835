import Mathlib.Logic.Function.Basic
import Shepherd.Proofs.Script.ProgramText

/-!
# A script inside its program

The program for a script has the script in it as it is, between lines that know nothing of it but
its length. A line feed is put behind a script that does not end with one, so that two scripts can
look alike in there; still the program tells them apart, because the first line prints how long the
script is.
-/

namespace Shepherd.Text

/-- The number that digits write is told by them. -/
theorem repr_toList_inj {m n : Nat} : (Nat.repr m).toList = (Nat.repr n).toList ↔ m = n := by
  refine ⟨fun h => ?_, fun h => by rw [h]⟩
  have hread := readNat?_repr m
  rw [h, readNat?_repr] at hread
  exact (Option.some.inj hread).symm

/-- Texts that begin with a line have the line in common if they are equal. -/
theorem line_eq_of_append_newline {line line' rest rest' : List Char} (h : '\n' ∉ line)
    (h' : '\n' ∉ line') (heq : line ++ '\n' :: rest = line' ++ '\n' :: rest') : line = line' := by
  have hlines := congrArg cutLines heq
  rw [cutLines_append_newline h, cutLines_append_newline h'] at hlines
  exact (List.cons.inj hlines).1

end Shepherd.Text

namespace Shepherd.Script
open Grid Text

namespace Program

variable {s : Session} {source source' : List Char}

/-! ### Programs of different scripts -/

/-- Equal programs are programs of scripts of the same length: their first lines print it. -/
theorem length_eq_of_text (h : (ofSource s source).text = (ofSource s source').text) :
    source.length = source'.length := by
  have hfirst (source : List Char) : ∃ rest, (ofSource s source).text =
      sizeLine s source.length ++ '\n' :: rest :=
    ⟨_, by simp only [text_ofSource, headerLines, List.flatMap_cons, List.append_assoc,
      List.singleton_append]; rfl⟩
  obtain ⟨rest, hrest⟩ := hfirst source
  obtain ⟨rest', hrest'⟩ := hfirst source'
  rw [hrest, hrest'] at h
  have hline : printing (s.codeSizeStart ++ (Nat.repr source.length).toList ++ markerEnd) =
      printing (s.codeSizeStart ++ (Nat.repr source'.length).toList ++ markerEnd) :=
    line_eq_of_append_newline (newline_not_mem_sizeLine s _) (newline_not_mem_sizeLine s _) h
  simp only [printing_eq, List.append_cancel_right_eq, List.append_cancel_left_eq] at hline
  exact repr_toList_inj.1 hline

theorem eq_of_text (h : (ofSource s source).text = (ofSource s source').text) :
    source = source' := by
  have hlength := length_eq_of_text h
  rw [text_ofSource, text_ofSource, hlength, List.append_cancel_right_eq,
    List.append_cancel_right_eq, List.append_cancel_left_eq, closeLine_eq, closeLine_eq] at h
  -- the two may end in different ways, but they part at the same place
  exact (List.append_inj h hlength).1

end Program

open Program

/-- **Instrumenting keeps the script.** A program is a header, an empty line, the script, with a
line feed behind it unless it ends with one, an empty line, and the trailers. The header has 31
lines, which are settled by the session and the number of characters of the script. Different
scripts have different programs. -/
theorem Session.instrument_exact (s : Session) :
    (∀ source : String, (s.instrument source).toList =
      (headerLines s source.length).flatMap (· ++ ['\n']) ++ ['\n'] ++
        (source.toList ++ if source.toList.getLast? = some '\n' then [] else ['\n']) ++ ['\n'] ++
        (trailerLines s).flatMap (· ++ ['\n'])) ∧
    (∀ chars, (headerLines s chars).length = 31 ∧ ∀ line ∈ headerLines s chars, '\n' ∉ line) ∧
    Function.Injective s.instrument := by
  refine ⟨fun source => ?_, fun chars => ⟨length_headerLines s chars, fun line =>
    newline_not_mem_headerLines⟩, fun source source' h => ?_⟩
  · rw [instrument, String.toList_ofList, text_ofSource, closeLine_eq, String.length_toList]
  · rw [instrument, instrument, String.ofList_inj] at h
    exact String.toList_inj.1 (eq_of_text h)

/-- Two scripts that look alike inside their programs. -/
theorem instrument_exact_final_newline :
    closeLine "left()".toList = closeLine "left()\n".toList ∧
      (Session.mk ['s', '1'] rfl).instrument "left()" ≠
        (Session.mk ['s', '1'] rfl).instrument "left()\n" := by
  refine ⟨by decide +kernel, fun h => ?_⟩
  have hsame := (Session.instrument_exact ⟨['s', '1'], rfl⟩).2.2 h
  exact absurd hsame (by decide)

end Shepherd.Script
