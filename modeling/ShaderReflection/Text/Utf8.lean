import ShaderReflection.Text.Basic
/-!
UTF-8: the bytes of a text, and the text of any bytes, in which every maximal broken sequence is
replaced by one replacement character.
-/
namespace ShaderReflection.Text

def toUtf8 (t : Text) : List UInt8 := t.flatMap String.utf8EncodeChar

def replacement : Char := Char.ofNat 0xFFFD

def inByteRange (least greatest : Nat) (b : UInt8) : Bool :=
  least ≤ b.toNat && b.toNat ≤ greatest

def isContinuation (b : UInt8) : Bool := inByteRange 0x80 0xBF b

def allowsSecond (first second : UInt8) : Bool :=
  match first.toNat with
  | 0xE0 => inByteRange 0xA0 0xBF second
  | 0xED => inByteRange 0x80 0x9F second
  | 0xF0 => inByteRange 0x90 0xBF second
  | 0xF4 => inByteRange 0x80 0x8F second
  | _ => isContinuation second

def assemble (lead : Nat) (continuations : List UInt8) : Char :=
  Char.ofNat (continuations.foldl (fun n b => n * 64 + b.toNat % 64) lead)

def ofUtf8Lossy : List UInt8 → Text
  | [] => []
  | a :: rest =>
    if a.toNat < 0x80 then Char.ofNat a.toNat :: ofUtf8Lossy rest
    else if inByteRange 0xC2 0xDF a then
      match rest with
      | b :: tail =>
        if isContinuation b then assemble (a.toNat % 32) [b] :: ofUtf8Lossy tail
        else replacement :: ofUtf8Lossy (b :: tail)
      | [] => [replacement]
    else if inByteRange 0xE0 0xEF a then
      match rest with
      | b :: tail =>
        if allowsSecond a b then
          match tail with
          | c :: tail =>
            if isContinuation c then assemble (a.toNat % 16) [b, c] :: ofUtf8Lossy tail
            else replacement :: ofUtf8Lossy (c :: tail)
          | [] => [replacement]
        else replacement :: ofUtf8Lossy (b :: tail)
      | [] => [replacement]
    else if inByteRange 0xF0 0xF4 a then
      match rest with
      | b :: tail =>
        if allowsSecond a b then
          match tail with
          | c :: tail =>
            if isContinuation c then
              match tail with
              | d :: tail =>
                if isContinuation d then assemble (a.toNat % 8) [b, c, d] :: ofUtf8Lossy tail
                else replacement :: ofUtf8Lossy (d :: tail)
              | [] => [replacement]
            else replacement :: ofUtf8Lossy (c :: tail)
          | [] => [replacement]
        else replacement :: ofUtf8Lossy (b :: tail)
      | [] => [replacement]
    else replacement :: ofUtf8Lossy rest

end ShaderReflection.Text
