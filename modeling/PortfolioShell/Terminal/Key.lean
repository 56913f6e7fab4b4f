/-! # Keys

What a visitor presses, and what is held down with it. A terminal sends some keys as control characters. -/

namespace PortfolioShell.Terminal

inductive KeyCode where
  | char (c : Char)
  | enter
  | tab
  | backspace
  | left
  | right
  | up
  | down
  | escape
  | other
  deriving DecidableEq, Repr

/-- What is held down with a key. A terminal in its plain mode tells of nothing else. -/
structure Modifiers where
  shift : Bool
  control : Bool
  alt : Bool
  deriving DecidableEq, Repr

namespace Modifiers

def plain : Modifiers := ⟨false, false, false⟩

def shifted : Modifiers := ⟨true, false, false⟩

def controlled : Modifiers := ⟨false, true, false⟩

end Modifiers

structure Key where
  code : KeyCode
  modifiers : Modifiers
  deriving DecidableEq, Repr

namespace Key

def plain (code : KeyCode) : Key := ⟨code, .plain⟩

def char (c : Char) : Key := plain (.char c)

def enter : Key := plain .enter

def tab : Key := plain .tab

def backspace : Key := plain .backspace

def left : Key := plain .left

def right : Key := plain .right

def up : Key := plain .up

def down : Key := plain .down

def escape : Key := plain .escape

def other : Key := plain .other

/-- Control and a letter: some of these are keys of their own. -/
def control (c : Char) : Key :=
  if c = 'm' then enter else if c = 'i' then tab else ⟨.char c, .controlled⟩

def interrupt : Key := control 'c'

/-- Control with C or with D, and nothing else held down. -/
def isInterrupt (key : Key) : Bool :=
  key.modifiers = .controlled && (key.code = .char 'c' || key.code = .char 'd')

theorem isInterrupt_iff (key : Key) : key.isInterrupt = true ↔ key = control 'c' ∨ key = control 'd' := by
  obtain ⟨code, modifiers⟩ := key
  simp [isInterrupt, control, and_or_left, and_comm]

/-- The key for which a terminal sends a character. -/
def ofChar (c : Char) : Key :=
  let code := c.toNat
  if c = '\x7f' then backspace
  else if c = '\x1b' then escape
  else if code = 0 then control ' '
  else if code ≤ 26 then control (Char.ofNat (code + 96))
  else if code < 32 then control (Char.ofNat (code + 24))
  else char c

def ofText (text : String) : List Key := text.toList.map ofChar

end Key

end PortfolioShell.Terminal
