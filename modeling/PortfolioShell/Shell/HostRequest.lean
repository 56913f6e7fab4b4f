/-! # Host requests

What the shell asks of the world around it. It never carries such a request out by itself. -/

namespace PortfolioShell

inductive HostRequest where
  | openExternal (uri : String)
  | switchPanel (name : String) (delay : Nat)
  | clearPanel
  deriving DecidableEq, Repr

end PortfolioShell
