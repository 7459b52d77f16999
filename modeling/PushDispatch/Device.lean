import PushDispatch.Text.Blank

/-!
Devices: the platform that a device runs, and the token under which the push service knows it.
-/

namespace PushDispatch

inductive Platform where
  | android
  | ios
  | web
deriving DecidableEq, Repr

namespace Platform

def name : Platform → String
  | .android => "android"
  | .ios => "ios"
  | .web => "web"

def all : List Platform := [.android, .ios, .web]

/-- The platform with exactly this name. -/
def ofName? (name : String) : Option Platform :=
  all.find? (·.name = name)

/-- Reads a platform as a person writes it: blanks around it and case do not count, and `apns` is iOS. -/
def read (text : String) : Except String Platform :=
  match Text.lowerAscii (Text.trim text) with
  | "android" => .ok .android
  | "ios" => .ok .ios
  | "apns" => .ok .ios
  | "web" => .ok .web
  | other => .error ("unknown platform: " ++ other)

end Platform

/-- A device that can receive a push. -/
structure Device where
  token : String
  platform : Platform
deriving DecidableEq

end PushDispatch
