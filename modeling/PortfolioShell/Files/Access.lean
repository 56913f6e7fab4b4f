import PortfolioShell.Files.Store

/-! # File access

The file operations that the program needs, in whatever carries them out: a file store that is kept as a
state, or the files of the machine. -/

namespace PortfolioShell

structure FileAccess (m : Type → Type) where
  read : String → m (Except FileError ByteArray)
  write : String → ByteArray → m (Except FileError Unit)
  append : String → ByteArray → m (Except FileError Unit)
  makeDirectories : String → m (Except FileError Unit)

def FileAccess.readText {m : Type → Type} [Monad m] (files : FileAccess m) (path : String) :
    m (Except FileError String) := do
  match ← files.read path with
  | .error err => return .error err
  | .ok bytes =>
    match String.fromUTF8? bytes with
    | some text => return .ok text
    | none => return .error .notText

namespace FileStore

def change (f : FileStore → Except FileError FileStore) : StateM FileStore (Except FileError Unit) := do
  match f (← get) with
  | .ok s => do
    set s
    return .ok ()
  | .error err => return .error err

def access : FileAccess (StateM FileStore) where
  read path := do return (← get).read path
  write path contents := change (·.write path contents)
  append path contents := change (·.append path contents)
  makeDirectories path := do
    let (result, s) := (← get).makeDirectories path
    set s
    return result

end FileStore

end PortfolioShell
