import Reckoner.Decimal.Display
import Reckoner.Session
import Reckoner.Text.Blank

/-!
# Settings

The figures the program starts with, and the limits they have to keep. The first limit that is not
kept is reported.
-/

namespace Reckoner

structure Settings where
  mode : String := Session.defaultMode.label
  places : Int := Double.defaultPlaces
  capacity : Int := History.defaultCapacity
  separator : String := History.defaultSeparator

namespace Settings

inductive Fault where
  | mode
  | places
  | capacity
  | separator
  deriving DecidableEq

def Fault.message : Fault → String
  | mode => "角度模式只能是rad或deg"
  | places => "float64最多17位有效数字"
  | capacity => "历史记录容量必须为正"
  | separator => "历史记录分隔符必须包含'='"

def fault? (settings : Settings) : Option Fault :=
  if !(AngleMode.all.map AngleMode.label).contains settings.mode then some .mode
  else if settings.places < 0 || 17 < settings.places then some .places
  else if settings.capacity ≤ 0 then some .capacity
  else if Text.strip settings.separator != "=" then some .separator
  else none

end Settings

end Reckoner
