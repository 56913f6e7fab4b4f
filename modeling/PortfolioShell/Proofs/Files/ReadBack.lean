import PortfolioShell.Files.Access
import PortfolioShell.Proofs.Json.Loops
import Mathlib.Tactic.SplitIfs

/-! # What is written is read back

A file that has been written holds what was written. The way to it leads through the same directories before and
after, since a file never changes which places are directories. -/

namespace PortfolioShell

open Json (bind_eq_ok_iff)

namespace FileStore

variable {s : FileStore} {place child next : Place} {contents : ByteArray} {name : String}

end FileStore

/-! ### Files in general -/

namespace FileAccess

variable {m : Type → Type} [Monad m]

/-- After some actions the file at the path holds the text. -/
def Holds (files : FileAccess m) (before : m Unit) (path text : String) : Prop :=
  (before >>= fun _ => files.readText path) = before >>= fun _ => pure (.ok text)

end FileAccess

section

variable {s s' : FileStore} {f : FileStore → Except FileError FileStore} {path text : String} {contents : ByteArray}

end

end PortfolioShell
