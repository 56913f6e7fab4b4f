import PortfolioShell.Json.Printer
import PortfolioShell.Json.Record
import PortfolioShell.Settings.Config

/-! # Settings as JSON

Settings are written with all their fields, and read with any of them: a field that is missing has its
default. -/

namespace PortfolioShell

/-! ### Logging -/

def LoggingConfig.toJson (c : LoggingConfig) : Json.Value :=
  .object [("enabled", .bool c.enabled), ("level", .string c.level), ("file", .optional c.file)]

def LoggingConfig.fields : List (Json.Field LoggingConfig) :=
  [.of "enabled" Json.readBool fun c enabled => { c with enabled },
   .of "level" Json.readText fun c level => { c with level },
   .of "file" (Json.readOptional Json.readText) fun c file => { c with file }]

def LoggingConfig.readJson : Json.Reader LoggingConfig := Json.readRecord fields {}

def LoggingConfig.ofText (text : String) : Except Json.Fault LoggingConfig :=
  Json.readDocument readJson text

/-! ### Quick commands -/

def QuickCommands.toJson (q : QuickCommands) : Json.Value :=
  .object (q.entries.map fun (name, commands) => (name, .strings commands))

/-- Reads an object of command lists; of several lists for one name the last counts. -/
def QuickCommands.readJson : Json.Reader QuickCommands :=
  Json.readObjectOf
    (fun q name => Json.afterColon fun s =>
      (Json.readArrayOf Json.readText s).map fun (commands, s) => (q.set name commands, s))
    QuickCommands.empty

/-! ### All settings -/

namespace Config

def toJson (c : Config) : Json.Value :=
  .object [("prompt_symbol", .string c.promptSymbol),
    ("max_suggestions", .number (.whole (.ofUInt64 c.maxSuggestions))),
    ("navigation_delay_ms", .number (.whole (.ofUInt64 c.navigationDelay))),
    ("quick_commands", c.quickCommands.toJson), ("content_path", .optional c.contentPath),
    ("logging", c.logging.toJson)]

def fields : List (Json.Field Config) :=
  [.of "prompt_symbol" Json.readText fun c promptSymbol => { c with promptSymbol },
   .of "max_suggestions" Json.readUInt64 fun c maxSuggestions => { c with maxSuggestions },
   .of "navigation_delay_ms" Json.readUInt64 fun c navigationDelay => { c with navigationDelay },
   .of "quick_commands" QuickCommands.readJson fun c quickCommands => { c with quickCommands },
   .of "content_path" (Json.readOptional Json.readText) fun c contentPath => { c with contentPath },
   .of "logging" LoggingConfig.readJson fun c logging => { c with logging }]

def readJson : Json.Reader Config := Json.readRecord fields default

def ofText (text : String) : Except Json.Fault Config := Json.readDocument readJson text

def toText (c : Config) : String := c.toJson.pretty

end Config

end PortfolioShell
