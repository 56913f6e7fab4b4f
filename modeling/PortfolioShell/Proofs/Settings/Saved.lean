import PortfolioShell.Proofs.Files.ReadBack
import PortfolioShell.Proofs.Json.Canonical
import PortfolioShell.Proofs.Json.Decoding
import PortfolioShell.Proofs.Json.Indented
import PortfolioShell.Settings.Loading

/-! # Saved settings

Settings that have been saved are loaded again, and so are those of a file that has been changed by hand: members may
have been removed, moved and added. What is still there is loaded as it was saved, and what is missing has its
default (`Config.load_saved`). -/

namespace PortfolioShell

open Json (Value Gives Revised)

/-! ### Settings from two sides -/

section

variable {σ : Type} {overlay : (String → Bool) → σ → σ → σ} (c : σ) (none : ∀ d, overlay (fun _ => false) c d = d)
  (again : ∀ p q d, overlay p c (overlay q c d) = overlay (fun key => q key || p key) c d)

include none again

end

/-! ### Logging -/

namespace LoggingConfig

def names : List String := fields.map Json.Field.key

def members (c : LoggingConfig) : List (String × Value) :=
  [("enabled", .bool c.enabled), ("level", .string c.level), ("file", .optional c.file)]

end LoggingConfig

/-! ### Quick commands -/

namespace QuickCommands

/-- Command lists as they may be written: in any order. -/
def jsonOf (entries : List (String × List String)) : Value :=
  .object (entries.map fun (name, commands) => (name, .strings commands))

end QuickCommands

/-! ### All settings -/

namespace Config

def names : List String := fields.map Json.Field.key

/-- The members of settings, with the command lists and the logging settings as they are written. -/
def members (c : Config) (lists logging : Value) : List (String × Value) :=
  [("prompt_symbol", .string c.promptSymbol),
    ("max_suggestions", .number (.whole (.ofUInt64 c.maxSuggestions))),
    ("navigation_delay_ms", .number (.whole (.ofUInt64 c.navigationDelay))),
    ("quick_commands", lists), ("content_path", .optional c.contentPath), ("logging", logging)]

theorem toJson_eq (c : Config) : c.toJson =
    .object (c.members (QuickCommands.jsonOf c.quickCommands.entries) (.object c.logging.members)) := rfl

theorem floatFree_optional (text : Option String) : (Value.optional text).FloatFree := by
  cases text with
  | none => exact .null
  | some s => exact .string s

theorem floatFree_toJson (c : Config) : c.toJson.FloatFree := by
  have lists : c.quickCommands.toJson.FloatFree := by
    refine .object fun m held => ?_
    obtain ⟨⟨name, commands⟩, -, rfl⟩ := List.mem_map.mp held
    refine .array fun v listed => ?_
    obtain ⟨text, -, rfl⟩ := List.mem_map.mp listed
    exact .string text
  have logging : c.logging.toJson.FloatFree := .object (by
    simpa using ⟨.bool _, .string _, floatFree_optional _⟩)
  exact .object (by
    simpa using ⟨.string _, .whole _, .whole _, lists, floatFree_optional _, logging⟩)

/-- What loading makes of what has been read. -/
def loaded (path : String) : Except FileError String → Except ConfigError Config
  | .error err => .error (.file path err)
  | .ok text => (ofText text).mapError .unreadable

section

variable {m : Type → Type} [Monad m]

end

end Config

end PortfolioShell
