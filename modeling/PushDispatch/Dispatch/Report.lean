import PushDispatch.Device

/-!
What became of a push: a report for each device, and the counts that a summary draws from the reports.
-/

namespace PushDispatch

inductive Outcome where
  | delivered (messageId : String)
  /-- The push service no longer knows the device. -/
  | unregistered
  | failed (reason : String) (retryable : Bool)
deriving DecidableEq

/-- How the push to one device ended, after how many sends. -/
structure Report where
  device : Device
  outcome : Outcome
  attempts : Nat
deriving DecidableEq

def Report.isDelivered (r : Report) : Bool :=
  match r.outcome with
  | .delivered _ => true
  | _ => false

def Report.isStale (r : Report) : Bool := r.outcome == .unregistered

/-- The reports of one dispatch, in the order of the devices. -/
structure Summary where
  reports : List Report
deriving DecidableEq

namespace Summary

def empty : Summary := ⟨[]⟩

def push (s : Summary) (r : Report) : Summary := ⟨s.reports ++ [r]⟩

def delivered (s : Summary) : Nat := s.reports.countP Report.isDelivered

def failed (s : Summary) : Nat := s.reports.length - s.delivered

/-- The tokens that should be deleted, in the order of the reports. -/
def staleTokens (s : Summary) : List String := (s.reports.filter Report.isStale).map (·.device.token)

/-- How many pushes failed although their device is registered. -/
def hardFailures (s : Summary) : Nat := s.failed - s.staleTokens.length

end Summary

end PushDispatch
