import ShaderReflection.Text.Utf8
/-!
Names in messages of the system's programs: put between quotes so that a shell would read them back,
bytes that cannot be printed as octal escapes.
-/
namespace ShaderReflection.Shell.Quoting

def isPrintable (b : UInt8) : Bool := 32 ≤ b && b < 127

def specialBytes : List UInt8 := Text.toUtf8 " !\"$&()*;<=>[^\x60|'\\?".toList

def specialFirstBytes : List UInt8 := Text.toUtf8 "#~".toList

def isPlain (name : List UInt8) : Bool :=
  !name.isEmpty && name.all (fun b => isPrintable b && !specialBytes.contains b) &&
    !(name.head?.any specialFirstBytes.contains) && !([[123], [125]].contains name)

def escapeOf (b : UInt8) : Text :=
  match b.toNat with
  | 7 => ['\\', 'a']
  | 8 => ['\\', 'b']
  | 9 => ['\\', 't']
  | 10 => ['\\', 'n']
  | 11 => ['\\', 'v']
  | 12 => ['\\', 'f']
  | 13 => ['\\', 'r']
  | n => '\\' :: [n / 64, n / 8 % 8, n % 8].map fun d => Char.ofNat (48 + d)

def body : Bool → List UInt8 → Text
  | _, [] => ['\'']
  | escaping, b :: rest =>
    if !isPrintable b then
      (if escaping then [] else "'$'".toList) ++ escapeOf b ++ body true rest
    else
      let c := Char.ofNat b.toNat
      (if escaping then "''".toList else []) ++
        (if c = '\'' then "'\\''".toList else [c]) ++ body false rest

def suitsDoubleQuotes (name : List UInt8) : Bool :=
  name.contains 39 && name.all fun b =>
    let c := Char.ofNat b.toNat
    c.isAlphanum || "'%+,-./:@]_ #~".toList.contains c

def quoted (name : Text) : Text :=
  let bytes := Text.toUtf8 name
  if suitsDoubleQuotes bytes then '"' :: name ++ ['"'] else '\'' :: body false bytes

def quotedIfNeeded (name : Text) : Text :=
  if isPlain (Text.toUtf8 name) then name else quoted name

example : quotedIfNeeded "a b".toList = "'a b'".toList := by decide +kernel
example : quotedIfNeeded "aéb".toList = "'a'$'\\303\\251''b'".toList := by decide +kernel

end ShaderReflection.Shell.Quoting
