import ClassFormat.RoundTrip
import ClassFormat.Source.Find

namespace ClassFormat

structure Stats where
  checked : Nat := 0
  mismatches : Nat := 0
  failures : Nat := 0
  deriving DecidableEq

namespace Stats

def isClean (stats : Stats) : Bool := stats.mismatches == 0 && stats.failures == 0

def add (a b : Stats) : Stats :=
  ⟨a.checked + b.checked, a.mismatches + b.mismatches, a.failures + b.failures⟩

end Stats

/-- The stats of a worker, the shared flag, and the log, the latest line first. -/
structure Progress where
  stats : Stats := {}
  stopped : Bool := false
  log : List LogLine := []

namespace Progress

def target : String := "jclass::roundtrip"

def count (name : String) (outcome : Except Failure RoundTrip.Outcome) (stats : Stats) :
    Stats × LogLine :=
  match outcome with
  | .ok .identical => (stats, ⟨.debug, target, name ++ ": ok"⟩)
  | .ok (.mismatch firstDifference) =>
    ({ stats with mismatches := stats.mismatches + 1 },
      ⟨.warn, target, name ++ s!": re-encoded bytes differ from byte {firstDifference} on"⟩)
  | .error failure =>
    ({ stats with failures := stats.failures + 1 },
      ⟨.error, target, name ++ ": " ++ failure.message⟩)

def checkClass (failFast : Bool) (p : Progress) (delivered : String × Bytes) : Progress :=
  if p.stopped then p
  else
    let (outcome, events) := RoundTrip.checkLogged delivered.2
    let checked := { p.stats with checked := p.stats.checked + 1 }
    let (stats, line) := count delivered.1 outcome checked
    { stats
      stopped := failFast && !stats.isClean
      log := line :: (events.map (·.line)).reverse ++ p.log }

def endSource (failFast : Bool) (p : Progress) : Option (List String) → Progress
  | none => p
  | some chain =>
    { stats := { p.stats with failures := p.stats.failures + 1 }
      stopped := p.stopped || failFast
      log := ⟨.error, target, ": ".intercalate chain⟩ :: p.log }

/-- Checks the classes of a source, unless the worker is to stop. -/
def checkSource (failFast : Bool) (p : Progress) (delivery : Delivery) : Progress :=
  if p.stopped then p
  else (delivery.classes.foldl (checkClass failFast) p).endSource failFast delivery.failure

/-- What one worker does with its sources. -/
def checkSources (failFast : Bool) (p : Progress) (deliveries : List Delivery) : Progress :=
  deliveries.foldl (checkSource failFast) p

end Progress

namespace Report

/-- Consecutive pieces of the given size, the last one maybe shorter; `bound` is at least their
number. -/
def pieces {α : Type} (size : Nat) : (bound : Nat) → List α → List (List α)
  | 0, _ => []
  | _, [] => []
  | bound + 1, a :: as => (a :: as).take size :: pieces size bound ((a :: as).drop size)

def shares {α : Type} (jobs : Nat) (sources : List α) : List (List α) :=
  if jobs ≤ 1 || sources.length ≤ 1 then [sources]
  else pieces ((sources.length + jobs - 1) / jobs) sources.length sources

/-- Lets one worker after the other check its share, and adds up what they counted. -/
def run (failFast : Bool) (jobs : Nat) (deliveries : List Delivery) : Progress :=
  (shares jobs deliveries).foldl (fun total share =>
    let p := Progress.checkSources failFast { stopped := total.stopped, log := total.log } share
    { p with stats := total.stats.add p.stats }) {}

end Report

end ClassFormat
