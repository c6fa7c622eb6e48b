import ShaderReflection.Text.Numeral
import ShaderReflection.Shell.Applet.Quoting
/-!
Formatted printing: escapes, and conversions of arguments with flags, width and precision. A format
is used again until all arguments are printed. The command of the shell and the program of the
system differ in escapes and in their complaints.
-/
namespace ShaderReflection.Shell

inductive Dialect where
  | shell
  | system
  deriving DecidableEq, Repr

def escapeByte? : Char → Option UInt8
  | 'a' => some 7
  | 'b' => some 8
  | 'e' => some 27
  | 'f' => some 12
  | 'n' => some 10
  | 'r' => some 13
  | 't' => some 9
  | 'v' => some 11
  | '\\' => some 92
  | _ => none

def isOctal (c : Char) : Bool := '0' ≤ c && c ≤ '7'

def octalEscape (t : Text) : List UInt8 × Text :=
  let digits := (t.take 3).takeWhile isOctal
  ([UInt8.ofNat ((Text.natural? 8 digits).getD 0)], t.drop digits.length)

def hexEscape? (most : Nat) (t : Text) : Option (Nat × Text) :=
  let digits := (t.take most).takeWhile fun c => (Text.digit? 16 c).isSome
  (Text.natural? 16 digits).map fun n => (n, t.drop digits.length)

def upperHexadecimal (length n : Nat) : Text :=
  let digits := (Text.hexadecimal n).map fun d =>
    if 'a' ≤ d then Char.ofNat (d.toNat - 32) else d
  List.replicate (length - digits.length) '0' ++ digits

def escape (dialect : Dialect) (t : Text) : List UInt8 × Text :=
  let asItIs := ([92], t)
  match t with
  | [] => asItIs
  | c :: r =>
    if isOctal c then octalEscape t
    else match escapeByte? c with
      | some byte => ([byte], r)
      | none =>
        if dialect = .shell then asItIs
        else match c with
          | '"' => ([34], r)
          | 'x' => match hexEscape? 2 r with
            | some (n, rest) => ([UInt8.ofNat n], rest)
            | none => asItIs
          | 'u' => match hexEscape? 4 r with
            | some (n, rest) => (Text.toUtf8 (['\\', 'u'] ++ upperHexadecimal 4 n), rest)
            | none => asItIs
          | _ => asItIs

def unescape (dialect : Dialect) : Nat → Text → List UInt8 × Bool
  | 0, _ => ([], false)
  | _, [] => ([], false)
  | _, '\\' :: 'c' :: _ => ([], true)
  | fuel + 1, '\\' :: r =>
    let (bytes, rest) := match r with
      | '0' :: digits => octalEscape digits
      | '"' :: _ => ([92], r)
      | r => escape dialect r
    let (more, stopped) := unescape dialect fuel rest
    (bytes ++ more, stopped)
  | fuel + 1, c :: r =>
    let (more, stopped) := unescape dialect fuel r
    (String.utf8EncodeChar c ++ more, stopped)

def unescaped (dialect : Dialect) (t : Text) : List UInt8 × Bool :=
  unescape dialect (t.length + 1) t

def leadingInteger (t : Text) : Option Int × Text :=
  let isGap := fun c : Char => c == ' ' || ('\t' ≤ c && c ≤ '\r')
  let (negative, t) := match t.dropWhile isGap with
    | '-' :: r => (true, r)
    | '+' :: r => (false, r)
    | t => (false, t)
  let (base, t) := match t with
    | '0' :: 'x' :: r | '0' :: 'X' :: r => (16, r)
    | '0' :: _ => (8, t)
    | t => (10, t)
  let digits := t.takeWhile fun c => (Text.digit? base c).isSome
  let value := (Text.natural? base digits).map fun n => if negative then -(n : Int) else n
  (value, t.drop digits.length)

structure Conversion where
  left : Bool := false
  zeros : Bool := false
  plus : Bool := false
  blank : Bool := false
  alternate : Bool := false
  width : Nat := 0
  precision : Option Nat := none
  letter : Char := 's'

def Conversion.flags (c : Conversion) : Text → Conversion × Text
  | '-' :: r => { c with left := true }.flags r
  | '0' :: r => { c with zeros := true }.flags r
  | '+' :: r => { c with plus := true }.flags r
  | ' ' :: r => { c with blank := true }.flags r
  | '#' :: r => { c with alternate := true }.flags r
  | t => (c, t)

structure Printing where
  dialect : Dialect
  output : List UInt8 := []
  arguments : List Text
  consumed : Bool := false
  stopped : Bool := false
  complaints : List Text := []
  invalid? : Option (Text × Bool) := none

namespace Printing

def print (p : Printing) (bytes : List UInt8) : Printing := { p with output := p.output ++ bytes }

def complain (p : Printing) (complaint : Text) : Printing :=
  { p with complaints := p.complaints ++ [complaint] }

def next (p : Printing) : Text × Printing :=
  (p.arguments.head?.getD [], { p with arguments := p.arguments.tail, consumed := true })

inductive NumberProblem where
  | missing
  | incomplete
  | outOfRange
  deriving DecidableEq, Repr

def reject (p : Printing) (argument : Text) (problem : NumberProblem) : Printing :=
  let told := match p.dialect with
    | .shell => argument
    | .system => '\'' :: argument ++ ['\'']
  let reason := match problem, p.dialect with
    | .missing, .shell => "expected numeric value"
    | .missing, .system => "expected a numeric value"
    | .incomplete, .shell => "not completely converted"
    | .incomplete, .system => "value not completely converted"
    | .outOfRange, _ => "Numerical result out of range"
  p.complain (told ++ ": ".toList ++ reason.toList)

def nextInteger (p : Printing) (signed : Bool) : Int × Printing :=
  let (argument, p) := p.next
  match argument with
  | '\'' :: c :: _ | '"' :: c :: _ =>
    (((String.utf8EncodeChar c).head?.map (·.toNat)).getD 0, p)
  | _ =>
    let greatest : Int := if signed then 9223372036854775807 else 18446744073709551615
    let least : Int := if signed then -9223372036854775808 else -18446744073709551615
    match leadingInteger argument with
    | (some n, rest) =>
      let value := max least (min greatest n)
      (value, if !rest.isEmpty then p.reject argument .incomplete
        else if value = n then p else p.reject argument .outOfRange)
    | (none, _) => (0, if argument.isEmpty then p else p.reject argument .missing)

def number (p : Printing) (t : Text) : Option Int × Text × Printing :=
  match t with
  | '*' :: r => let (n, p) := p.nextInteger true; (some n, r, p)
  | t =>
    let digits := t.takeWhile fun c => (Text.digit? 10 c).isSome
    ((Text.natural? 10 digits).map fun n => (n : Int), t.drop digits.length, p)

end Printing

namespace Conversion

def pad (c : Conversion) (bytes : List UInt8) : List UInt8 :=
  let missing := List.replicate (c.width - bytes.length) 32
  if c.left then bytes ++ missing else missing ++ bytes

def ofDigits (c : Conversion) (sign digits : Text) : List UInt8 :=
  let least := match c.precision with
    | some n => n
    | none => if c.zeros && !c.left then c.width - sign.length else 0
  c.pad (Text.toUtf8 (sign ++ List.replicate (least - digits.length) '0' ++ digits))

def ofInteger (c : Conversion) (n : Int) : List UInt8 :=
  let unsigned := if n < 0 then (n + 18446744073709551616).toNat else n.toNat
  match c.letter with
  | 'd' | 'i' =>
    let sign := if n < 0 then ['-'] else if c.plus then ['+'] else if c.blank then [' '] else []
    c.ofDigits sign (Text.decimal n.natAbs)
  | 'o' => c.ofDigits (if c.alternate then ['0'] else []) (Nat.toDigits 8 unsigned)
  | 'x' => c.ofDigits (if c.alternate then "0x".toList else []) (Text.hexadecimal unsigned)
  | 'X' => c.ofDigits (if c.alternate then "0X".toList else []) (upperHexadecimal 0 unsigned)
  | _ => c.ofDigits [] (Text.decimal unsigned)

def cut (c : Conversion) (bytes : List UInt8) : List UInt8 :=
  match c.precision with
  | some n => bytes.take n
  | none => bytes

def print? (c : Conversion) (p : Printing) : Option Printing :=
  match c.letter with
  | 's' => let (t, p) := p.next; some (p.print (c.pad (c.cut (Text.toUtf8 t))))
  | 'c' =>
    let (t, p) := p.next
    some (p.print (c.pad (if t.isEmpty then [0] else (Text.toUtf8 t).take 1)))
  | 'b' =>
    let (t, p) := p.next
    let (bytes, stopped) := unescaped p.dialect t
    some { p.print (c.pad (c.cut bytes)) with stopped := stopped }
  | 'd' | 'i' | 'u' | 'o' | 'x' | 'X' =>
    let (n, p) := p.nextInteger (c.letter == 'd' || c.letter == 'i')
    some (p.print (c.ofInteger n))
  | 'q' =>
    if p.dialect = .shell then none
    else
      let (t, p) := p.next
      some (p.print (Text.toUtf8 (if t.isEmpty then [] else Quoting.quotedIfNeeded t)))
  | _ => none

end Conversion

def convert (t : Text) (p : Printing) : Text × Printing :=
  let (c, u) := Conversion.flags {} t
  let (width, u, p) := p.number u
  let width := width.getD 0
  let (precision, u, p) := match u with
    | '.' :: r =>
      let (n, u, p) := p.number r
      (if n.any (· < 0) then none else some (n.getD 0).toNat, u, p)
    | u => (none, u, p)
  let c := { c with left := c.left || width < 0, width := width.natAbs, precision := precision }
  let invalid := '%' :: t.take (t.length - u.length + 1)
  match u with
  | [] => ([], { p with stopped := true, invalid? := some (invalid, false) })
  | letter :: r =>
    match ({ c with letter := letter } : Conversion).print? p with
    | some p => (r, p)
    | none => ([], { p with stopped := true, invalid? := some (invalid, true) })

def formatPass : Nat → Text → Printing → Printing
  | 0, _, p => p
  | _, [], p => p
  | fuel + 1, '\\' :: r, p =>
    if r.head? == some 'c' && p.dialect = .system then { p with stopped := true }
    else
      let (bytes, rest) := escape p.dialect r
      formatPass fuel rest (p.print bytes)
  | fuel + 1, '%' :: '%' :: r, p => formatPass fuel r (p.print [37])
  | fuel + 1, '%' :: r, p =>
    let (rest, p) := convert r p
    if p.stopped then p else formatPass fuel rest p
  | fuel + 1, c :: r, p => formatPass fuel r (p.print (String.utf8EncodeChar c))

def formatAll : Nat → Text → Printing → Printing
  | 0, _, p => p
  | passes + 1, format, p =>
    let p := formatPass (format.length + 1) format { p with consumed := false }
    if p.consumed && !p.arguments.isEmpty && !p.stopped then formatAll passes format p else p

def format (dialect : Dialect) (format : Text) (arguments : List Text) : Printing :=
  formatAll (arguments.length + 1) format { dialect := dialect, arguments := arguments }

example : (format .shell "%s-%3d|".toList (["x", "5", "y"].map String.toList)).output =
    Text.toUtf8 "x-  5|y-  0|".toList := by decide +kernel
example : (format .shell "\\x41\\c".toList []).output = Text.toUtf8 "\\x41\\c".toList := by
  decide +kernel
example : (format .system "\\x41\\c.".toList []).output = Text.toUtf8 "A".toList := by
  decide +kernel

end ShaderReflection.Shell
