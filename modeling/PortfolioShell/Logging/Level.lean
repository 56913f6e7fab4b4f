/-! # Log levels

How grave an event is. A threshold lets pass what is at least as grave, or nothing at all. -/

namespace PortfolioShell.Logging

inductive Level where
  | error
  | warn
  | info
  | debug
  | trace
  deriving DecidableEq, Repr

namespace Level

def name : Level → String
  | error => "ERROR"
  | warn => "WARN"
  | info => "INFO"
  | debug => "DEBUG"
  | trace => "TRACE"

def rank : Level → Nat
  | error => 1
  | warn => 2
  | info => 3
  | debug => 4
  | trace => 5

end Level

/-- The least grave level that passes; without one, nothing passes. -/
abbrev Threshold := Option Level

def Threshold.allows (t : Threshold) (level : Level) : Bool := t.any (level.rank ≤ ·.rank)

def thresholds : List (String × Threshold) :=
  [("off", none), ("error", some .error), ("warn", some .warn), ("info", some .info),
   ("debug", some .debug), ("trace", some .trace)]

end PortfolioShell.Logging
