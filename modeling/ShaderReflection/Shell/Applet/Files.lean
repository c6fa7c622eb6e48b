import ShaderReflection.Shell.Applet.Arguments
import ShaderReflection.Text.Numeral
/-!
Programs that make, copy, move, list and take away files, and those that take paths apart.
-/
namespace ShaderReflection.Shell.Applet
open Job

def mkdir : Applet := withOperands "pv" "m" fun name a => do
  forEach a.operands fun operand => do
    let tree := (← get).tree
    settle name "cannot create directory".toList operand <|
      if a.has 'p' then
        match tree.makeDirectories operand with
        | (tree, .ok ()) => .ok tree
        | (_, .error e) => .error e
      else tree.makeDirectory operand

def without (tree : FileTree) (location : Location) : FileTree :=
  { tree with nodes := tree.nodes.filter fun n => !location.isPrefixOf n.1 }

def rm : Applet := withArguments "frRv" "" fun name a => do
  if a.operands.isEmpty then
    if a.has 'f' then return 0 else refuseUse name "missing operand".toList
  else
    forEach a.operands fun operand => do
      let tree := (← get).tree
      let settled := settle name "cannot remove".toList operand
      match tree.resolve operand with
      | .error .notFound =>
        if a.has 'f' then return true else settled (.error .notFound)
      | result => settled do
        let location ← result
        if tree.isDirectoryAt location && !(a.has 'r' || a.has 'R') then .error .isDirectory
        else .ok (without tree location)

def rmdir : Applet := withOperands "pv" "" fun name a => do
  forEach a.operands fun operand => do
    let tree := (← get).tree
    match tree.resolve operand with
    | .ok location =>
      let result := if !tree.isDirectoryAt location then .error .notDirectory
        else if (tree.namesAt location).isEmpty then .ok (tree.erase location)
        else .error (.other "Directory not empty")
      settle name "failed to remove".toList operand result
    | .error e => settle name "failed to remove".toList operand (.error e)

def transfer (tree : FileTree) (source : Location) (target : Path) : Except OsError FileTree := do
  match ← tree.resolveNew target with
  | (_, none) => .error .isDirectory
  | (directory, some name) =>
    if target.getLast? == some '/' then throw .notDirectory
    let moved := tree.nodes.filter fun n => source.isPrefixOf n.1
    return moved.foldl (fun t n =>
      t.put (directory ++ name :: n.1.drop source.length) n.2) tree

def relocate (keeps : Bool) (name : Text) (a : Arguments) : Job := do
  match a.operands.reverse with
  | [] => refuseUse name "missing file operand".toList
  | [only] =>
    refuseUse name ("missing destination file operand after ".toList ++ Quoting.quoted only)
  | target :: sources =>
    let inside := (← get).tree.isDirectory target
    if 1 < sources.length && !inside then
      complainAs name ("target ".toList ++ Quoting.quoted target ++ ": Not a directory".toList)
      return 1
    else forEach sources.reverse fun source => do
      let tree := (← get).tree
      match tree.resolve source with
      | .error e => settle name "cannot stat".toList source (.error e)
      | .ok location =>
        let wanted := if inside then Path.join target ((Path.fileName? source).getD source)
          else target
        if keeps && tree.isDirectoryAt location && !(a.has 'r' || a.has 'R' || a.has 'a') then
          complainAs name ("-r not specified; omitting directory ".toList ++
            Quoting.quoted source)
          return false
        else if (tree.resolve wanted).toOption == some location then
          complainAs name (Quoting.quoted source ++ " and ".toList ++ Quoting.quoted wanted ++
            " are the same file".toList)
          return false
        else
          match transfer tree location wanted with
          | .error e =>
            let action := if keeps then "cannot create regular file".toList
              else "cannot move ".toList ++ Quoting.quoted source ++ " to".toList
            settle name action wanted (.error e)
          | .ok changed =>
            settle name [] source (.ok (if keeps then changed else without changed location))

def cp : Applet := withArguments "frRapv" "" (relocate true)

def mv : Applet := withArguments "fnv" "" (relocate false)

def touch : Applet := withArguments "acm" "" fun name a => do
  if a.operands.isEmpty then refuseUse name "missing file operand".toList
  else
    forEach a.operands fun operand => do
      let tree := (← get).tree
      if a.has 'c' || tree.isFile operand || tree.isDirectory operand then return true
      else settle name "cannot touch".toList operand (tree.writeBytes operand .empty)

def chmod : Applet := fun name arguments => do
  match arguments with
  | mode :: operands =>
    let executable := match mode.getLast? with
      | some 'x' => mode.contains '+'
      | some d => (Text.digit? 8 d).any (· % 2 == 1)
      | none => false
    forEach operands fun operand => do
      let tree := (← get).tree
      match tree.resolve operand with
      | .error e => settle name "cannot access".toList operand (.error e)
      | .ok location =>
        match tree.get? location with
        | some (.file content _) =>
          modify fun w => { w with tree := tree.put location (.file content executable) }
          return true
        | _ => return true
  | [] => refuseUse name "missing operand".toList

def nameLe (a b : Text) : Bool := !decide (b < a)

def ls : Applet := withArgumentsOr refuseUseHard "1aAd" "" fun name a => do
  let names (tree : FileTree) (location : Location) : List Text :=
    let inside := (tree.namesAt location).mergeSort nameLe
    if a.has 'a' then ['.'] :: ['.', '.'] :: inside
    else if a.has 'A' then inside
    else inside.filter fun name => name.head? != some '.'
  let lines (names : List Text) : Text := names.flatMap (· ++ ['\n'])
  let tree := (← get).tree
  let operands := if a.operands.isEmpty then [['.']] else a.operands.mergeSort nameLe
  let mut code := 0
  for operand in operands do
    if let .error e := tree.resolve operand then
      complainAs name ("cannot access ".toList ++ Quoting.quoted operand ++ ": ".toList ++
        refusal e)
      code := 2
  let isListed := fun operand => tree.isDirectory operand && !a.has 'd'
  let files := operands.filter fun operand =>
    (tree.resolve operand).toOption.isSome && !isListed operand
  let directories := operands.filter isListed
  print (lines files)
  let mut first := files.isEmpty
  for directory in directories do
    if let .ok location := tree.resolve directory then
      if 1 < operands.length then
        print ((if first then [] else ['\n']) ++ directory ++ ":\n".toList)
      print (lines (names tree location))
      first := false
  return code

def lastName (path : Text) : Text :=
  let kept := Text.trimEnd (· == '/') path
  if kept.isEmpty then path.take 1 else Text.afterLast '/' kept

def basename : Applet := withOperands "" "" fun program a => do
  match a.operands with
  | _ :: _ :: extra :: _ =>
    refuseUse program ("extra operand ".toList ++ Quoting.quoted extra)
  | operands =>
    let name := lastName (operands.head?.getD [])
    let ending := operands[1]?.getD []
    let cut := ending.isSuffixOf name && ending != name
    print ((if cut then name.take (name.length - ending.length) else name) ++ ['\n'])
    return 0

def withoutLastName (path : Text) : Text :=
  let kept := Text.trimEnd (· == '/') path
  let front := Text.trimEnd (· == '/') (kept.take (kept.length - (Text.afterLast '/' kept).length))
  if !front.isEmpty then front else if path.head? = some '/' then ['/'] else ['.']

def dirname : Applet := withOperands "" "" fun _ a => do
  for operand in a.operands do print (withoutLastName operand ++ ['\n'])
  return 0

example : withoutLastName "a/b//".toList = "a".toList := by decide
example : lastName "a/b//".toList = "b".toList := by decide

end ShaderReflection.Shell.Applet
