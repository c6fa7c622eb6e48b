import ShaderReflection.Text.CaseTable
import ShaderReflection.Text.Numeral
import ShaderReflection.Text.PrintTable
/-!
Text in quotes for messages: every character that would not show by itself is written as an escape.
-/
namespace ShaderReflection.Text
open CaseTable (inRanges)

def isShown (c : Char) : Bool :=
  if c.toNat < 128 then 32 ≤ c.toNat && c.toNat != 127
  else !(inRanges PrintTable.hiddenRanges c.toNat || inRanges PrintTable.extenderRanges c.toNat)

def quotedChar (c : Char) : Text :=
  if c = '\x00' then ['\\', '0']
  else if c = '\t' then ['\\', 't']
  else if c = '\r' then ['\\', 'r']
  else if c = '\n' then ['\\', 'n']
  else if c = '\\' then ['\\', '\\']
  else if c = '"' then ['\\', '"']
  else if isShown c then [c]
  else '\\' :: 'u' :: '{' :: hexadecimal c.toNat ++ ['}']

def quoted (t : Text) : Text := '"' :: t.flatMap quotedChar ++ ['"']

end ShaderReflection.Text
