import ShaderReflection.Text.Numeral
/-!
JSON values that are written, and their text in a layout. In strings only the quote, the backslash
and control characters are escaped.
-/
namespace ShaderReflection.Json

inductive Value where
  | boolean (value : Bool)
  | integer (value : Int)
  | string (value : Text)
  | array (items : List Value)
  | object (members : List (Text × Value))

def escapeChar (c : Char) : Text :=
  if c = '"' then ['\\', '"']
  else if c = '\\' then ['\\', '\\']
  else if c.toNat = 8 then ['\\', 'b']
  else if c.toNat = 12 then ['\\', 'f']
  else if c = '\n' then ['\\', 'n']
  else if c = '\r' then ['\\', 'r']
  else if c = '\t' then ['\\', 't']
  else if c.toNat < 32 then
    "\\u00".toList ++ [Nat.digitChar (c.toNat / 16), Nat.digitChar (c.toNat % 16)]
  else [c]

def quote (t : Text) : Text := '"' :: t.flatMap escapeChar ++ ['"']

structure Layout where
  newline : Nat → Text
  colon : Text

def Layout.compact : Layout := ⟨fun _ => [], [':']⟩

def Layout.pretty : Layout := ⟨fun depth => '\n' :: List.replicate (2 * depth) ' ', [':', ' ']⟩

mutual

def Value.write (l : Layout) (depth : Nat) : Value → Text
  | .boolean true => "true".toList
  | .boolean false => "false".toList
  | .integer value => Text.signedDecimal value
  | .string value => quote value
  | .array [] => ['[', ']']
  | .array (item :: rest) =>
    '[' :: (l.newline (depth + 1) ++ item.write l (depth + 1) ++ writeItems l (depth + 1) rest) ++
      l.newline depth ++ [']']
  | .object [] => ['{', '}']
  | .object ((key, value) :: rest) =>
    '{' :: (l.newline (depth + 1) ++ quote key ++ l.colon ++ value.write l (depth + 1) ++
      writeMembers l (depth + 1) rest) ++ l.newline depth ++ ['}']

def writeItems (l : Layout) (depth : Nat) : List Value → Text
  | [] => []
  | item :: rest => ',' :: (l.newline depth ++ item.write l depth) ++ writeItems l depth rest

def writeMembers (l : Layout) (depth : Nat) : List (Text × Value) → Text
  | [] => []
  | (key, value) :: rest =>
    ',' :: (l.newline depth ++ quote key ++ l.colon ++ value.write l depth) ++
      writeMembers l depth rest

end

def Value.render (l : Layout) (v : Value) : Text := v.write l 0

end ShaderReflection.Json
