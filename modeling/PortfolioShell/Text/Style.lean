/-! # Text style

Terminal escapes around a text. A styled text starts with the escape of its style and ends with the
escape that puts the terminal back to normal. -/

namespace PortfolioShell.Text

inductive Style where
  | red
  | blue
  | cyan
  | dim
  | bold
  deriving DecidableEq, Repr

def Style.code : Style → Nat
  | .red => 31
  | .blue => 34
  | .cyan => 36
  | .dim => 2
  | .bold => 1

def styled (style : Style) (s : String) : String :=
  "\x1b[" ++ toString style.code ++ "m" ++ s ++ "\x1b[0m"

end PortfolioShell.Text
