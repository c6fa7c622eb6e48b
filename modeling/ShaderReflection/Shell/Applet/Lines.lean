import ShaderReflection.Shell.Applet.Regex
import ShaderReflection.Shell.Applet.Streams
/-!
Programs that choose lines, put them in order, or change characters.
-/
namespace ShaderReflection.Shell.Applet
open Job

def textLines (bytes : List UInt8) : List Text :=
  (byteLines bytes).map fun line => Text.ofUtf8Lossy (line.filter (· != 10))

def grepOptions : String := "cEFGhHilnqsvx"

def isWanted (a : Arguments) (patterns : List Text) (line : Text) : Bool :=
  let found := patterns.any fun pattern =>
    let regex := if a.has 'F' then Regex.exactly pattern else Regex.ofText pattern
    let regex := if a.has 'x' then { regex with fromStart := true, toEnd := true } else regex
    regex.matchesIn (a.has 'i') line
  found != a.has 'v'

def explainGrep (name : Text) : Job := do
  complain ("Usage: ".toList ++ name ++ " [OPTION]... PATTERNS [FILE]...".toList)
  adviseOn name
  return 2

def refuseGrep (name message : Text) : Job := do
  complainAs name message
  explainGrep name

def grep : Applet := withArgumentsOr refuseGrep grepOptions "em" fun name a => do
  match a.value? 'e', a.operands with
  | none, [] => explainGrep name
  | pattern?, operands =>
    let (pattern, files) := match pattern? with
      | some pattern => (pattern, operands)
      | none => (operands.head?.getD [], operands.tail)
    let patterns := Text.splitOn '\n' pattern
    let named := (1 < files.length || a.has 'H') && !a.has 'h'
    let mut found := false
    let mut failed := false
    for file in if files.isEmpty then [['-']] else files do
      match ← readOperand file with
      | .error e =>
        failed := true
        if !a.has 's' then complainAs name (file ++ ": ".toList ++ refusal e)
      | .ok bytes =>
        let lines := textLines bytes
        let hits := ((List.range lines.length).zip lines).filter fun l => isWanted a patterns l.2
        let label := if file = ['-'] then "(standard input)".toList else file
        let front := if named then label ++ [':'] else []
        found := found || !hits.isEmpty
        if a.has 'q' then pure ()
        else if a.has 'l' then
          if !hits.isEmpty then print (label ++ ['\n'])
        else if a.has 'c' then print (front ++ Text.decimal hits.length ++ ['\n'])
        else
          for (index, line) in hits do
            let number := if a.has 'n' then Text.decimal (index + 1) ++ [':'] else []
            print (front ++ number ++ line ++ ['\n'])
    return if failed && !(found && a.has 'q') then 2 else if found then 0 else 1

def bytesLe (a b : List UInt8) : Bool := !decide (b < a)

def leadingNumber (line : List UInt8) : Int := ((leadingInteger (Text.ofUtf8Lossy line)).1).getD 0

def withoutRepeats {α : Type} (same : α → α → Bool) : List α → List α
  | a :: b :: rest =>
    if same a b then withoutRepeats same (a :: rest) else a :: withoutRepeats same (b :: rest)
  | l => l
termination_by l => l.length

def sort : Applet := withArgumentsOr refuseUseHard "rnufbs" "" fun name a => do
  let mut lines := []
  for operand in if a.operands.isEmpty then [['-']] else a.operands do
    match ← readOperand operand with
    | .ok bytes => lines := lines ++ (byteLines bytes).map fun line => line.filter (· != 10)
    | .error e =>
      complainAs name ("cannot read: ".toList ++ operand ++ ": ".toList ++ refusal e)
      return 2
  let le (x y : List UInt8) : Bool :=
    if a.has 'n' && leadingNumber x != leadingNumber y then leadingNumber x < leadingNumber y
    else bytesLe x y
  let sorted := lines.mergeSort (if a.has 'r' then fun x y => le y x else le)
  let same (x y : List UInt8) : Bool :=
    if a.has 'n' then leadingNumber x == leadingNumber y else x == y
  for line in if a.has 'u' then withoutRepeats same sorted else sorted do
    printBytes (line ++ [10])
  return 0

def byteSet : Nat → List UInt8 → List UInt8
  | fuel + 1, a :: 45 :: b :: rest =>
    (List.range (b.toNat + 1 - a.toNat)).map (fun i => UInt8.ofNat (a.toNat + i)) ++
      byteSet fuel rest
  | fuel + 1, a :: rest => a :: byteSet fuel rest
  | _, [] => []
  | 0, _ => []

def setOf (t : Text) : List UInt8 :=
  match String.ofList t with
  | "[:lower:]" => byteSet 2 (Text.toUtf8 "a-z".toList)
  | "[:upper:]" => byteSet 2 (Text.toUtf8 "A-Z".toList)
  | "[:digit:]" => byteSet 2 (Text.toUtf8 "0-9".toList)
  | "[:space:]" => [9, 10, 11, 12, 13, 32]
  | _ =>
    let (bytes, _) := unescape .shell (t.length + 1) t
    byteSet (bytes.length + 1) bytes

def tr : Applet := withArguments "cCds" "" fun name a => do
  match a.operands with
  | [] => refuseUse name "missing operand".toList
  | first :: others =>
    let chosen := setOf first
    let isChosen := fun b : UInt8 => chosen.contains b != (a.has 'c' || a.has 'C')
    let bytes ← takeInput
    let target := (others.head?.map setOf).getD []
    let replaced := if a.has 'd' then bytes.filter (!isChosen ·)
      else match target.getLast? with
        | none => bytes
        | some last => bytes.map fun b =>
          if !isChosen b then b else (target[chosen.idxOf b]?).getD last
    let squeezed := if others.isEmpty then isChosen else target.contains
    printBytes (if a.has 's' then withoutRepeats (fun x y => x == y && squeezed x) replaced
      else replaced)
    return 0

end ShaderReflection.Shell.Applet
