/-
Kinds of ad opportunity: placement type, banner size class, device class and operating system family,
each with its wire names.
-/
import Mediation.Json.Record

namespace Mediation

/-! ## Placement type -/

/-- Placement kind that the SDK asks for. -/
inductive AdType where
  | banner
  | interstitial
  | rewarded
  deriving DecidableEq, Repr, Inhabited

namespace AdType

def all : List AdType := [.banner, .interstitial, .rewarded]

def wire : AdType → String
  | .banner => "banner"
  | .interstitial => "interstitial"
  | .rewarded => "rewarded"

/-- The type with a wire name, as in the path of a request. -/
def ofWire? (s : String) : Option AdType := all.find? (·.wire == s)

def toJson (t : AdType) : Json := .str t.wire

def ofJson? (v : Json) : Option AdType := v.constant?.bind ofWire?

theorem ofWire?_wire (t : AdType) : ofWire? t.wire = some t := by cases t <;> decide

end AdType

/-! ## Banner format -/

/-- Banner size class. -/
inductive AdFormat where
  | banner
  | leaderboard
  | mrec
  | adaptive
  deriving DecidableEq, Repr

namespace AdFormat

def all : List AdFormat := [.banner, .leaderboard, .mrec, .adaptive]

def wire : AdFormat → String
  | .banner => "BANNER"
  | .leaderboard => "LEADERBOARD"
  | .mrec => "MREC"
  | .adaptive => "ADAPTIVE"

def ofWire? (s : String) : Option AdFormat := all.find? (·.wire == s)

def toJson (f : AdFormat) : Json := .str f.wire

def ofJson? (v : Json) : Option AdFormat := v.constant?.bind ofWire?

theorem ofWire?_wire (f : AdFormat) : ofWire? f.wire = some f := by cases f <;> decide

end AdFormat

/-! ## Device class -/

/-- Device class that the SDK reports. -/
inductive DeviceType where
  | phone
  | tablet
  | unknown
  deriving DecidableEq, Repr

namespace DeviceType

instance : Inhabited DeviceType := ⟨unknown⟩

def wire : DeviceType → String
  | .phone => "PHONE"
  | .tablet => "TABLET"
  | .unknown => "UNKNOWN"

/-- Any name but those of a known class is an unknown device. -/
def ofWire (s : String) : DeviceType :=
  if s = "PHONE" then .phone else if s = "TABLET" then .tablet else .unknown

/-- The class as it is shown in analytics; nothing for an unknown device. -/
def label : DeviceType → String
  | .unknown => ""
  | t => t.wire

def toJson (t : DeviceType) : Json := .str t.wire

def ofJson? (v : Json) : Option DeviceType := v.constant?.map ofWire

theorem ofWire_wire (t : DeviceType) : ofWire t.wire = t := by cases t <;> decide

end DeviceType

/-! ## Operating system -/

/-- Operating system family. -/
inductive Os where
  | android
  | ios
  | other
  deriving DecidableEq, Repr

/-- The family that a free-form system name belongs to, whatever the case of its ASCII letters. -/
def Os.ofName (s : String) : Os :=
  let name := s.toList.map Char.toLower
  if name = "android".toList then .android
  else if name = "ios".toList then .ios
  else .other

end Mediation
