import PortfolioShell.Json.Reader

/-! # Command errors

What a visitor can get wrong at the prompt. An error shows as a diagnostic of its kind. -/

namespace PortfolioShell

inductive DiagnosticKind where
  | navigation
  | lookup
  | argument
  | unknownCommand
  deriving DecidableEq, Repr

namespace DiagnosticKind

def name : DiagnosticKind → String
  | navigation => "navigation"
  | lookup => "lookup"
  | argument => "argument"
  | unknownCommand => "unknown_command"

def all : List DiagnosticKind := [navigation, lookup, argument, unknownCommand]

/-- The kind that a value names: by its name, or by an object with nothing but `null` under it. -/
def ofJson : Json.Value → Except Json.Fault DiagnosticKind
  | .string s => named s
  | .object [(s, .null)] => named s
  | _ => .error .unfit
where
  named (s : String) : Except Json.Fault DiagnosticKind :=
    match all.find? (·.name = s) with
    | some kind => .ok kind
    | none => .error .unfit

end DiagnosticKind

inductive ShellError where
  | noSuchDirectory (verb path : String)
  | noSuchFile (verb path : String)
  | missingFileArgument (verb : String)
  | commandNotFound (line : String)
  deriving DecidableEq, Repr

namespace ShellError

def kind : ShellError → DiagnosticKind
  | noSuchDirectory .. => .navigation
  | noSuchFile .. => .lookup
  | missingFileArgument .. => .argument
  | commandNotFound .. => .unknownCommand

def message : ShellError → String
  | noSuchDirectory verb path => verb ++ ": no such directory: " ++ path
  | noSuchFile verb path => verb ++ ": no such file: " ++ path
  | missingFileArgument verb => verb ++ ": missing file argument"
  | commandNotFound line => "command not found: " ++ line

end ShellError

end PortfolioShell
