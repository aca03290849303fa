import Reckoner.Rounding
import Reckoner.Text.Find

/-!
# History

The last results, each as one line: the expression, a separator and the result. A history holds at
most as many entries as its capacity and drops the oldest ones. What was entered is found again by
cutting an entry at its first separator.
-/

namespace Reckoner

structure History where
  capacity : Nat
  separator : String
  entries : List String := []
  deriving DecidableEq, Inhabited

namespace History

def defaultCapacity : Nat := 100

def defaultSeparator : String := " = "

inductive CapacityFault where
  | negative
  | tooLarge
  deriving DecidableEq

def CapacityFault.message : CapacityFault → String
  | negative => "maxlen must be non-negative"
  | tooLarge => "Python int too large to convert to C ssize_t"

def sizeBound : Nat := 2 ^ (63 : Nat)

/-- Sizes and indices are less than the bound away from zero, or just as far below it. -/
def isSize (n : Int) : Bool := -(sizeBound : Int) ≤ n && n < sizeBound

/-- An empty history. An empty separator counts as none. -/
def new (capacity : Option Int) (separator : Option String) : Except CapacityFault History :=
  let capacity := capacity.getD defaultCapacity
  let separator := match separator with
    | none | some "" => defaultSeparator
    | some text => text
  if !isSize capacity then .error .tooLarge
  else if capacity < 0 then .error .negative
  else .ok { capacity := capacity.toNat, separator }

def keepLast (n : Nat) (entries : List String) : List String :=
  entries.drop (entries.length - n)

def entry (history : History) (expression result : String) : String :=
  expression ++ history.separator ++ result

def add (history : History) (expression result : String) : History :=
  { history with
    entries := keepLast history.capacity (history.entries ++ [history.entry expression result]) }

def clear (history : History) : History := { history with entries := [] }

inductive IndexFault where
  | outOfRange
  | tooWide
  deriving DecidableEq

def IndexFault.message : IndexFault → String
  | outOfRange => "deque index out of range"
  | tooWide => "cannot fit 'int' into an index-sized integer"

/-- The entry with the given index; a negative index counts from the end. -/
def entryAt (history : History) (index : Int) : Except IndexFault String :=
  let place := if index < 0 then index + history.entries.length else index
  if !isSize index then .error .tooWide
  else if place < 0 then .error .outOfRange
  else
    match history.entries[place.toNat]? with
    | some entry => .ok entry
    | none => .error .outOfRange

/-- What comes before the first separator of a line, unless that is nothing. -/
def expressionOf? (separator line : String) : Option String :=
  match Text.find? separator.toList line.toList with
  | none | some 0 => none
  | some place => some (String.ofList (line.toList.take place))

def expressionAt (history : History) (index : Int) : Except IndexFault (Option String) :=
  (history.entryAt index).map (expressionOf? history.separator)

def fields (separator line : String) : String × String :=
  match Text.splitFirst? separator.toList line.toList with
  | some (expression, result) => (String.ofList expression, String.ofList result)
  | none => (line, "")

def columns : List String := ["expression", "result"]

def rows (history : History) : List (String × String) :=
  history.entries.map (fields history.separator)

@[simp] theorem capacity_add (history : History) (expression result : String) :
    (history.add expression result).capacity = history.capacity := rfl

@[simp] theorem separator_add (history : History) (expression result : String) :
    (history.add expression result).separator = history.separator := rfl

theorem length_keepLast (n : Nat) (entries : List String) :
    (keepLast n entries).length = min n entries.length := by
  rw [keepLast, List.length_drop]
  omega

inductive Step where
  | add (expression result : String)
  | expressionAt (index : Int)
  | clear
  | rows
  | info

inductive Answer where
  | nothing
  | line (text : String)
  | recalled (expression : Option String)
  | rows (rows : List (String × String))
  | info (capacity : Nat) (separator : String)

def perform (history : History) : Step → Except IndexFault Answer × History
  | .add expression result =>
    (.ok (.line (history.entry expression result)), history.add expression result)
  | .expressionAt index => ((history.expressionAt index).map .recalled, history)
  | .clear => (.ok .nothing, history.clear)
  | .rows => (.ok (.rows history.rows), history)
  | .info => (.ok (.info history.capacity history.separator), history)

end History

end Reckoner
