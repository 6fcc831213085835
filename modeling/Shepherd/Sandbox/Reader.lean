import Shepherd.Data.Json.Reader
import Shepherd.Sandbox.Scenario

/-!
# Reading scenarios

A scenario is written as a JSON table; every field may be missing. Numbers are words, taken modulo
`2 ^ 32`. A table that is marked invalid, or cannot be understood, is no guest at all.
-/

namespace Shepherd.Sandbox
open Data Text

/-- A number as a word. -/
def word? : Tree → Option UInt32
  | .integer n => some (UInt32.ofNat (n % UInt32.size).toNat)
  | _ => none

/-- A number as a signed word. -/
def code? : Tree → Option Int
  | .integer n => some (n.bmod UInt32.size)
  | _ => none

/-- A number of pages or an address. -/
def natural? : Tree → Option Nat
  | .integer n => some n.toNat
  | _ => none

/-- Octets written as pairs of hexadecimal digits. -/
def hexBytes? : List Char → Option (List UInt8)
  | [] => some []
  | a :: b :: rest =>
    if isHexDigit a && isHexDigit b then
      (hexBytes? rest).map (UInt8.ofNat (hexValue [a, b]) :: ·)
    else none
  | _ => none

/-- Octets: those of a text, or written out in a table. -/
def bytes? (t : Tree) : Option (List UInt8) :=
  match t with
  | .text s => some (encodeUtf8 s.toList)
  | _ =>
    match t.get? "hex" with
    | some (.text s) => hexBytes? s.toList
    | _ => none

/-- The trap with a given name. -/
def Trap.ofName? : String → Option Trap
  | "unreachable" => some .unreachable
  | "oob" => some .outOfBounds
  | "div0" => some (.because "integer divide by zero")
  | "overflow" => some (.because "integer overflow")
  | "stack" => some (.because "call stack exhausted")
  | "table" => some (.because "undefined element: out of bounds table access")
  | "conversion" => some (.because "invalid conversion to integer")
  | _ => none

/-- A step from its name and what it is given. -/
def Step.ofParts? (name : String) (given : Tree) : Option Step :=
  match name, given with
  | "store", .list [address, value] => return .store (← word? address) (← word? value)
  | "bump", address => return .bump (← word? address)
  | "pages", address => return .pages (← word? address)
  | "log", .list [ptr, len] => return .log (.fixed ⟨← word? ptr, ← word? len⟩)
  | "log_src", .list [off, len] => return .log (.inSource ⟨← word? off, ← word? len⟩)
  | "out", .list [file, ptr, len] =>
    return .out (← word? file) (.fixed ⟨← word? ptr, ← word? len⟩)
  | "out_src", .list [file, off, len] =>
    return .out (← word? file) (.inSource ⟨← word? off, ← word? len⟩)
  | "copy_src", .list [target, off, len] =>
    return .copy (← word? target) (.inSource ⟨← word? off, ← word? len⟩)
  | "exit", code => return .exit (← code? code)
  | "trap", .text kind => return .trap (← Trap.ofName? kind)
  | "return", value => return .give (← word? value)
  | "echo", .text "source" => some .echoSource
  | "echo", .text "name" => some .echoName
  | _, _ => none

/-- A step is a table with one entry. -/
def Step.ofTree? : Tree → Option Step
  | .table [(name, given)] => ofParts? name given
  | _ => none

/-- A list of steps. -/
def steps? : Tree → Option (List Step)
  | .list items => items.mapM Step.ofTree?
  | _ => none

/-- The steps of a start-up function; none inside where it is missing or has another signature. -/
def startSteps? : Option Tree → Option (Option (List Step))
  | none | some (.text _) => some none
  | some t => (steps? t).map some

/-- The steps for scripts in which a given character comes first. -/
def case? : String × Tree → Option (UInt8 × List Step)
  | (name, steps) =>
    match name.toList with
    | [c] => (steps? steps).map (UInt8.ofNat c.toNat, ·)
    | _ => none

/-- A function that takes a script; none inside where it is missing or has another signature. -/
def behaviour? : Option Tree → Option (Option Behaviour)
  | none => some (some ⟨[], []⟩)
  | some (.text _) => some none
  | some t => do
    let cases ← match t.get? "cases" with
      | none => some []
      | some (.table entries) => entries.mapM case?
      | some _ => none
    let otherwise ← match t.get? "do" with
      | none => some []
      | some steps => steps? steps
    return some ⟨cases, otherwise⟩

/-- The allocator; none inside where it is missing. -/
def allocator? : Option Tree → Option (Option Allocator)
  | none => some (some (.bump 4096))
  | some (.text "missing") => some none
  | some (.text "trap") => some (some .trapping)
  | some t =>
    match t.get? "base", t.get? "fixed" with
    | some base, _ => (word? base).map (some ∘ .bump)
    | none, some address => (word? address).map (some ∘ .fixed)
    | none, none => none

/-- One part of the initial memory. -/
def segment? : Tree → Option (Nat × List UInt8)
  | .list [address, bytes] => return (← natural? address, ← bytes? bytes)
  | _ => none

/-- Whether a mark is set. -/
def marked (t : Tree) (name : String) : Bool :=
  match t.get? name with
  | some (.bool b) => b
  | _ => false

namespace Scenario

/-- A scenario from its table. -/
def ofTree? (t : Tree) : Option Scenario := do
  guard (t matches .table _)
  guard !marked t "invalid"
  let pages ← ((t.get? "pages").map natural?).getD (some 1)
  let maxPages ← ((t.get? "max_pages").map natural?).getD (some pageLimit)
  guard (pages ≤ maxPages ∧ maxPages ≤ pageLimit)
  let data ← match t.get? "data" with
    | none => some []
    | some (.list segments) => segments.mapM segment?
    | some _ => none
  return {
    linkable := !marked t "bad_import"
    pages, maxPages, data
    showsMemory := (t.get? "memory").isNone
    allocator := ← allocator? (t.get? "malloc")
    onLoad := ← startSteps? (t.get? "initialize")
    onStart := ← startSteps? (t.get? "start")
    tokenize := ← behaviour? (t.get? "tokenize")
    parse := ← behaviour? (t.get? "parse")
    execute := ← behaviour? (t.get? "execute") }

/-- Reads a scenario from JSON text. -/
def ofJson? (text : String) : Option Scenario := (Json.read? text).bind ofTree?

end Scenario

end Shepherd.Sandbox
