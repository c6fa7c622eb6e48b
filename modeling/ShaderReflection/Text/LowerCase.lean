import ShaderReflection.Text.Basic
import ShaderReflection.Text.CaseTable
/-!
Lower casing of a text by the default Unicode mapping. One letter looks at its surroundings: a
capital sigma at the end of a word becomes the final form.
-/
namespace ShaderReflection.Text
open CaseTable

def lowerChar (c : Char) : Text :=
  if c.toNat = 0x130 then ['i', Char.ofNat 0x307]
  else match lowerRules.find? (·.covers c.toNat) with
    | some rule => [Char.ofNat (c.toNat + rule.delta).toNat]
    | none => [c]

def meetsCased : Text → Bool
  | [] => false
  | c :: r => if inRanges ignorableRanges c.toNat then meetsCased r else inRanges casedRanges c.toNat

/-- Lower cases a text that follows the characters `before`, which are listed backwards. -/
def lowerAfter (before : Text) : Text → Text
  | [] => []
  | c :: r =>
    (if c.toNat = 0x3A3 then
      [if meetsCased before && !meetsCased r then Char.ofNat 0x3C2 else Char.ofNat 0x3C3]
    else lowerChar c) ++ lowerAfter (c :: before) r

def toLower (t : Text) : Text := lowerAfter [] t

end ShaderReflection.Text
