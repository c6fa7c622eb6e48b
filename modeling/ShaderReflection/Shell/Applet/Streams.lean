import ShaderReflection.Shell.Format
import ShaderReflection.Shell.Applet.Arguments
/-!
Programs that print, and programs that pass on what they read.
-/
namespace ShaderReflection.Shell.Applet
open Job

def isEchoOption : Text → Bool
  | '-' :: letters => !letters.isEmpty && letters.all fun c => c == 'n' || c == 'e' || c == 'E'
  | _ => false

def echo : Applet := fun _ arguments => do
  let options := arguments.takeWhile isEchoOption
  let line := Text.joinWith [' '] (arguments.drop options.length)
  let letters := options.flatten
  let last := (letters.filter fun c => c == 'e' || c == 'E').getLast?
  let ending := if letters.contains 'n' then [] else [10]
  if last = some 'e' then
    let (bytes, stopped) := unescaped .system line
    printBytes (if stopped then bytes else bytes ++ ending)
  else printBytes (Text.toUtf8 line ++ ending)
  return 0

def printf : Applet := fun name arguments => do
  let arguments := if arguments.head? = some ['-', '-'] then arguments.tail else arguments
  match arguments with
  | [] => refuseUse name "missing operand".toList
  | text :: rest =>
    let printing := format .system text rest
    printBytes printing.output
    for complaint in printing.complaints do complainAs name complaint
    match printing.invalid? with
    | some (conversion, _) =>
      complainAs name (conversion ++ ": invalid conversion specification".toList)
      return 1
    | none =>
      if !printing.consumed && !printing.stopped then
        if let some extra := printing.arguments.head? then
          complainAs name ("warning: ignoring excess arguments, starting with ".toList ++
            Quoting.quoted extra)
      return if printing.complaints.isEmpty then 0 else 1

def byteLines : List UInt8 → List (List UInt8)
  | [] => []
  | b :: rest =>
    if b == 10 then [b] :: byteLines rest
    else match byteLines rest with
      | [] => [[b]]
      | line :: more => (b :: line) :: more

def inColumns (width n : Nat) : Text :=
  List.replicate (width - (Text.decimal n).length) ' ' ++ Text.decimal n

def onFiles (name : Text) (told : Text → Text) (operands : List Text)
    (run : Text → List UInt8 → JobStep) : Job :=
  forEach (if operands.isEmpty then [['-']] else operands) fun operand => do
    match ← readOperand operand with
    | .ok bytes => run operand bytes; return true
    | .error e =>
      complainAs name (told operand ++ ": ".toList ++ refusal e)
      return false

def numberLines (count : Nat) (fresh : Bool) : List UInt8 → List UInt8 × Nat × Bool
  | [] => ([], count, fresh)
  | b :: rest =>
    let count := if fresh then count + 1 else count
    let (bytes, last) := numberLines count (b == 10) rest
    ((if fresh then Text.toUtf8 (inColumns 6 count ++ ['\t']) else []) ++ b :: bytes, last)

def cat : Applet := withArguments "nu" "" fun name a => do
  let mut code := 0
  let mut count := 0
  let mut fresh := true
  for operand in if a.operands.isEmpty then [['-']] else a.operands do
    match ← readOperand operand with
    | .ok bytes =>
      if a.has 'n' then
        let (numbered, last) := numberLines count fresh bytes
        (count, fresh) := last
        printBytes numbered
      else printBytes bytes
    | .error e =>
      complainAs name (Quoting.quotedIfNeeded operand ++ ": ".toList ++ refusal e)
      code := 1
  return code

structure Count where
  opposite : Bool
  number : Nat

def countOf (a : Arguments) (letter opposite : Char) : Option Count :=
  (a.value? letter).map fun value =>
    match value.dropWhile (· == ' ') with
    | sign :: digits =>
      if sign = opposite then ⟨true, (Text.natural? 10 digits).getD 0⟩
      else if sign = '-' || sign = '+' then ⟨false, (Text.natural? 10 digits).getD 0⟩
      else ⟨false, (Text.natural? 10 (sign :: digits)).getD 0⟩
    | [] => ⟨false, 0⟩

def withLineCount : List Text → List Text
  | ('-' :: digits) :: rest =>
    if (Text.natural? 10 digits).isSome then ['-', 'n'] :: digits :: rest
    else ('-' :: digits) :: rest
  | arguments => arguments

def part (opposite : Char) (choose : {α : Type} → Count → List α → List α) : Applet :=
    fun name arguments =>
  withArguments "q" "nc" (fun name a => do
    let several := 1 < a.operands.length && !a.has 'q'
    let told := fun operand =>
      "cannot open ".toList ++ Quoting.quoted operand ++ " for reading".toList
    let mut first := true
    let mut code := 0
    for operand in if a.operands.isEmpty then [['-']] else a.operands do
      match ← readOperand operand with
      | .ok bytes =>
        if several then
          let heading := if operand = ['-'] then "standard input".toList else operand
          print ((if first then [] else ['\n']) ++ "==> ".toList ++ heading ++ " <==\n".toList)
        first := false
        match countOf a 'c' opposite with
        | some n => printBytes (choose n bytes)
        | none =>
          let n := (countOf a 'n' opposite).getD ⟨false, 10⟩
          printBytes (choose n (byteLines bytes)).flatten
      | .error e =>
        complainAs name (told operand ++ ": ".toList ++ refusal e)
        code := 1
    return code) name (withLineCount arguments)

def head : Applet := part '-' fun n l =>
  if n.opposite then l.take (l.length - n.number) else l.take n.number

def tail : Applet := part '+' fun n l =>
  if n.opposite then l.drop (n.number - 1) else l.drop (l.length - n.number)

def wordCount (bytes : List UInt8) : Nat :=
  let isGap := fun b : UInt8 => b == 32 || (9 ≤ b && b ≤ 13)
  (bytes.foldl (fun (count, inside) b =>
    if isGap b then (count, false) else (if inside then count else count + 1, true))
    (0, false)).1

def wc : Applet := withArguments "lwc" "" fun name a => do
  let wanted := fun c => a.options.isEmpty || a.has c
  let counts (bytes : List UInt8) : List Nat :=
    (if wanted 'l' then [(bytes.filter (· == 10)).length] else []) ++
      (if wanted 'w' then [wordCount bytes] else []) ++
      (if wanted 'c' then [bytes.length] else [])
  let world ← get
  let sizes := a.operands.map fun operand =>
    ((world.tree.readBytes operand).map (·.size)).toOption.getD 0
  let total := sizes.foldl (· + ·) 0
  let columns := (counts []).length
  let width := if a.operands.isEmpty then (if columns = 1 then 1 else 7)
    else if columns = 1 && a.operands.length = 1 then 1
    else (Text.decimal total).length
  let row (numbers : List Nat) (name : Text) : JobStep :=
    print (Text.joinWith [' '] (numbers.map (inColumns width)) ++
      (if name.isEmpty then [] else ' ' :: name) ++ ['\n'])
  let code ← onFiles name Quoting.quotedIfNeeded a.operands fun operand bytes =>
    row (counts bytes) (if a.operands.isEmpty then [] else operand)
  if 1 < a.operands.length then
    let all := a.operands.map fun operand =>
      counts (((world.tree.readBytes operand).map (·.toList)).toOption.getD [])
    row (all.foldl (fun sums numbers => sums.zipWith (· + ·) numbers)
      (List.replicate columns 0)) "total".toList
  return code

def tee : Applet := withArguments "ai" "" fun name a => do
  let bytes ← takeInput
  printBytes bytes
  forEach a.operands fun operand => do
    let tree := (← get).tree
    let old := if a.has 'a' then (tree.readBytes operand).toOption.getD .empty else .empty
    match tree.writeBytes operand (old ++ ⟨bytes.toArray⟩) with
    | .ok tree =>
      modify fun w => { w with tree := tree }
      return true
    | .error e =>
      complainAs name (Quoting.quotedIfNeeded operand ++ ": ".toList ++ refusal e)
      return false

def seq : Applet := fun name arguments => do
  match arguments.map leadingInteger with
  | [(some last, [])] => numbers 1 1 last
  | [(some first, []), (some last, [])] => numbers first 1 last
  | [(some first, []), (some step, []), (some last, [])] => numbers first step last
  | [] => refuseUse name "missing operand".toList
  | read =>
    let wrong := (arguments.zip read).find? fun p => p.2.1.isNone || !p.2.2.isEmpty
    match wrong with
    | some (argument, _) =>
      refuseUse name ("invalid floating point argument: ".toList ++ Quoting.quoted argument)
    | none => refuseUse name ("extra operand ".toList ++ Quoting.quoted (arguments[3]?.getD []))
where
  numbers (first step last : Int) : Job := do
    let count := if step = 0 then 0 else ((last - first) / step + 1).toNat
    for i in List.range count do
      print (Text.signedDecimal (first + step * i) ++ ['\n'])
    return 0

end ShaderReflection.Shell.Applet
