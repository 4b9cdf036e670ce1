/-
Tokens of SQL texts. Literals are kept with their escapes resolved, and
`Token.render` writes a token back.
-/
import ReleaseSchema.Text.Trim

namespace ReleaseSchema.Sql

inductive Token where
  | blank
  | lineComment (body : List Char)
  | blockComment (body : List Char)
  | word (text : List Char)
  /-- A name in double quotes. -/
  | quotedName (name : List Char)
  | number (literal : List Char)
  | string (text : List Char)
  /-- A string marked with `N`. -/
  | national (text : List Char)
  /-- A string marked with `E`, with backslash escapes. -/
  | escape (text : List Char)
  /-- A string marked with `U&`. -/
  | unicode (text : List Char)
  /-- A string marked with `X`, or a number that begins with `0x`. -/
  | hex (text : List Char)
  /-- A string marked with `B`, in quotes of either kind. -/
  | bytes (quote : Char) (text : List Char)
  /-- A text between two dollar tags. -/
  | dollar (tag body : List Char)
  | placeholder (name : List Char)
  /-- An operator or any other single character. -/
  | symbol (text : List Char)
  deriving DecidableEq, Repr

namespace Token

/-- Comments and blanks separate other tokens and mean nothing themselves. -/
def isSeparator : Token → Bool
  | .blank | .lineComment _ | .blockComment _ => true
  | _ => false

/-- A token as text. A quote is doubled in plain and national strings only. -/
def render : Token → List Char
  | .blank => [' ']
  | .lineComment body => '-' :: '-' :: body
  | .blockComment body => '/' :: '*' :: (body ++ ['*', '/'])
  | .word text => text
  | .quotedName name => '"' :: (name ++ ['"'])
  | .number literal => literal
  | .string text => '\'' :: (Text.doubled '\'' text ++ ['\''])
  | .national text => 'N' :: '\'' :: (Text.doubled '\'' text ++ ['\''])
  | .escape text => 'E' :: '\'' :: (text ++ ['\''])
  | .unicode text => 'U' :: '&' :: '\'' :: (text ++ ['\''])
  | .hex text => 'X' :: '\'' :: (text ++ ['\''])
  | .bytes quote text => 'B' :: quote :: (text ++ [quote])
  | .dollar tag body => '$' :: (tag ++ '$' :: (body ++ '$' :: (tag ++ ['$'])))
  | .placeholder name => '$' :: name
  | .symbol text => text

end Token

end ReleaseSchema.Sql
