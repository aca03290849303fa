import Reckoner.Text.LowerCase
import Reckoner.Text.Quoted

/-!
# Angle modes

Angles are measured in radians or in degrees. A mode is named in any mixture of cases.
-/

namespace Reckoner

inductive AngleMode where
  | radians
  | degrees
  deriving DecidableEq, Inhabited

structure UnknownMode where
  name : String
  deriving DecidableEq

def UnknownMode.message (mode : UnknownMode) : String :=
  Text.quoted mode.name ++ " is not a valid AngleMode"

namespace AngleMode

def all : List AngleMode := [radians, degrees]

def label : AngleMode → String
  | radians => "rad"
  | degrees => "deg"

def title : AngleMode → String
  | radians => "RADIANS"
  | degrees => "DEGREES"

/-- The three capitals that a status line shows. -/
def badge (mode : AngleMode) : String := String.ofList (mode.title.toList.take 3)

def other : AngleMode → AngleMode
  | radians => degrees
  | degrees => radians

def ofTitle? (title : String) : Option AngleMode := all.find? (·.title == title)

def ofLabel (label : String) : Except UnknownMode AngleMode :=
  match all.find? (·.label == label) with
  | some mode => .ok mode
  | none => .error ⟨label⟩

/-- The mode with the given label in any case. -/
def read (text : String) : Except UnknownMode AngleMode := ofLabel (Text.lower text)

/-- The mode that a text names, or the given one where there is no text. -/
def readOr (mode : AngleMode) : Option String → Except UnknownMode AngleMode
  | none => .ok mode
  | some text => read text

@[simp] theorem ofLabel_label (mode : AngleMode) : ofLabel mode.label = .ok mode := by
  cases mode <;> rfl

@[simp] theorem other_other (mode : AngleMode) : mode.other.other = mode := by
  cases mode <;> rfl

end AngleMode

end Reckoner
