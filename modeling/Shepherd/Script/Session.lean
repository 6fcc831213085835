/-!
# Sessions

A session's name tags the marker lines of one run. Names are non-empty and made of ASCII letters and
digits: an underscore would blur where the name ends.
-/

namespace Shepherd.Script

/-- Whether a text can name a session. -/
def isSessionName (cs : List Char) : Bool := !cs.isEmpty && cs.all Char.isAlphanum

structure Session where
  name : List Char
  isName : isSessionName name = true

/-- A text that cannot name a session. -/
structure InvalidSession where
  text : String
  deriving DecidableEq

namespace Session

/-- The session with a given name. -/
def parse (text : String) : Except InvalidSession Session :=
  if h : isSessionName text.toList = true then .ok ⟨text.toList, h⟩ else .error ⟨text⟩

/-- The name as text. -/
def toText (s : Session) : String := String.ofList s.name

/-- What every action marker and every call count begins with. -/
def actionStart (s : Session) : List Char := ['_', '_'] ++ s.name ++ ['_', '_']

/-- What the code size begins with. -/
def codeSizeStart (s : Session) : List Char :=
  ['_', '_'] ++ s.name ++ "_codesize__".toList

/-! ### Fresh sessions -/

/-- The character for a number: ten digits and the small letters. -/
def nameChar (n : Fin 36) : Char :=
  if n.val < 10 then Char.ofNat ('0'.toNat + n.val) else Char.ofNat ('a'.toNat + (n.val - 10))

theorem isAlphanum_nameChar : ∀ n, (nameChar n).isAlphanum = true := by decide

/-- The length of the names of fresh sessions. -/
def freshLength : Nat := 10

/-- `count` random characters behind those already drawn. -/
def drawName [RandomGen γ] : Nat → List Char → γ → List Char × γ
  | 0, name, gen => (name, gen)
  | count + 1, name, gen =>
    let (n, gen) := randNat gen 0 35
    drawName count (nameChar (Fin.ofNat 36 n) :: name) gen

theorem isSessionName_drawName [RandomGen γ] (count : Nat) (name : List Char) (gen : γ)
    (all : name.all Char.isAlphanum = true) (some : 0 < count + name.length) :
    isSessionName (drawName count name gen).1 = true := by
  induction count generalizing name gen with
  | zero =>
    cases name with
    | nil => simp at some
    | cons c cs => simpa [drawName, isSessionName] using all
  | succ count ih =>
    simp only [drawName]
    exact ih _ _ (by simp [isAlphanum_nameChar, all]) (by rw [List.length_cons]; omega)

/-- A session with a random name. -/
def fresh [RandomGen γ] (gen : γ) : Session × γ :=
  let drawn := drawName freshLength [] gen
  (⟨drawn.1, isSessionName_drawName freshLength [] gen rfl (by decide)⟩, drawn.2)

end Session

end Shepherd.Script
