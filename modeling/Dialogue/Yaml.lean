import Dialogue.Yaml.Node
import Dialogue.Yaml.Token.Lexer

/-! # YAML

The reading of a text that holds one YAML document: the text is cut into tokens, and the tokens are
put together to a node. -/

namespace Dialogue.Yaml

/-- The node of the single document of a text, if the text is well formed. -/
def read (text : String) : Option Node := do
  Node.ofTokens? (← tokens? text).toList

end Dialogue.Yaml
