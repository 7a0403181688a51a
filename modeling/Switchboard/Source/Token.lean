import Switchboard.Decimal.Plain
import Switchboard.Source.Position
import Switchboard.Text.Quoted

namespace Switchboard.Source

inductive TokenKind where
  | text (content : String)
  | colon
  | eof
  | name (word : String)
  | braceOpen
  | bracketOpen
  | parenOpen
  | number (value : Float)
  | braceClose
  | bracketClose
  | parenClose
  | string (content : String)

structure Token where
  position : Position
  kind : TokenKind

namespace TokenKind

def render : TokenKind → String
  | .text _ => "<text>"
  | .colon => ":"
  | .eof => "EOF"
  | .name word => word
  | .braceOpen => "\x7b"
  | .bracketOpen => "["
  | .parenOpen => "("
  | .number x => Decimal.plain x
  | .braceClose => "\x7d"
  | .bracketClose => "]"
  | .parenClose => ")"
  | .string content => Text.shown content

def isEof : TokenKind → Bool
  | .eof => true
  | _ => false

end TokenKind

-- what is reported where tokens run out
def Token.missing : Token := ⟨⟨1, 1⟩, .eof⟩

end Switchboard.Source
