import PortfolioShell.Text.Layout
import PortfolioShell.Text.Lowercase

/-! # Verbs

The commands of the shell, their spellings and their help. A verb is recognised in any letter case. -/

namespace PortfolioShell

inductive Verb where
  | help
  | clear
  | pwd
  | ls
  | cd
  | cat
  | openLink
  | history
  deriving DecidableEq, Repr

namespace Verb

def all : List Verb := [help, clear, pwd, ls, cd, cat, openLink, history]

def name : Verb → String
  | help => "help"
  | clear => "clear"
  | pwd => "pwd"
  | ls => "ls"
  | cd => "cd"
  | cat => "cat"
  | openLink => "open"
  | history => "history"

def spellings : List (String × Verb) :=
  [("help", help), ("clear", clear), ("pwd", pwd), ("ls", ls), ("dir", ls), ("cd", cd), ("cat", cat),
   ("open", openLink), ("history", history)]

def ofWord? (word : String) : Option Verb := spellings.lookup (Text.lowercase word)

/-! ### Help -/

def usage : Verb → String
  | help => "help"
  | clear => "clear"
  | pwd => "pwd"
  | ls => "ls | dir [path]"
  | cd => "cd [path]"
  | cat => "cat <file>"
  | openLink => "open <file>"
  | history => "history [pattern]"

def description : Verb → String
  | help => "Show available commands"
  | clear => "Clear the terminal"
  | pwd => "Print the current directory"
  | ls => "List the contents of a directory"
  | cd => "Change directory (.. goes up, ~ goes home)"
  | cat => "Show the contents of a file"
  | openLink => "Open a file's link in a new tab"
  | history => "Show previous commands, or those matching a pattern"

def usageWidth : Nat := (all.map fun v => v.usage.length).foldl max 0

def menu (sections : List String) : List String :=
  "Available commands:" ::
    all.map (fun v => "  " ++ Text.pad usageWidth v.usage ++ "  " ++ v.description) ++
    if sections = [] then [] else ["", "Shortcuts: " ++ String.intercalate ", " sections]

end Verb

end PortfolioShell
