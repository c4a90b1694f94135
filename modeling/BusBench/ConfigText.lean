import BusBench.ConfigCheck
import BusBench.ConfigReader
import BusBench.Toml

namespace BusBench

namespace Config

/-- Reads a configuration and checks what it asks for. -/
def ofDocument (format : Format) (d : Document) : Except ConfigError Config :=
  match reader format d with
  | .error mistake => .error (.layout mistake)
  | .ok c => c.check.map fun _ => c

/-- Reads and checks the text of a configuration file. -/
def ofToml (text : String) : Except ConfigError Config :=
  match Toml.parse text with
  | none => .error .notToml
  | some d => ofDocument .toml d

end Config

end BusBench
