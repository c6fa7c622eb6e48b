import ShaderReflection.Json.Node
/-!
Decoders: what shape a value has to have and what is read from it. `fault?` gives the first problem
in the order of the text, `read` the value, which counts if there is no problem. Records are
accepted as objects with their fields in any order, and as lists with their fields in fixed order.
-/
namespace ShaderReflection.Json

def Close.listFault? : Close → Option Fault
  | .closed _ => none
  | .cut gap place => some ⟨match gap with
    | .unclosed => .endInList
    | .afterComma => .endInValue
    | .commaEnd => .trailingComma
    | _ => .expectedListEnd, place, true⟩

def Close.recordFault? : Close → Option Fault
  | .closed _ => none
  | .cut gap place => some ⟨match gap with
    | .unclosed => .endInList
    | .commaEnd => .trailingComma
    | _ => .trailingCharacters, place, true⟩

def Close.skippedListFault? : Close → Option Fault
  | .closed _ => none
  | .cut gap place => some ⟨match gap with
    | .unclosed => .endInList
    | .afterComma => .endInValue
    | .commaEnd => .expectedValue
    | _ => .expectedListEnd, place, true⟩

def Close.objectFault? : Close → Option Fault
  | .closed _ => none
  | .cut (.badKey read _) _ => some read
  | .cut gap place => some ⟨match gap with
    | .unclosed => .endInObject
    | .afterComma => .endInValue
    | .commaEnd => .trailingComma
    | .noKey => .keyNotString
    | _ => .expectedObjectEnd, place, true⟩

def Close.skippedObjectFault? : Close → Option Fault
  | .closed _ => none
  | .cut (.badKey _ skip) _ => some skip
  | .cut gap place => some ⟨match gap with
    | .unclosed => .endInObject
    | .afterComma => .endInObject
    | .commaEnd => .keyNotString
    | .noKey => .keyNotString
    | _ => .expectedObjectEnd, place, true⟩

def Close.stop : Close → Nat
  | .closed stop => stop
  | .cut _ place => place

def faultOf? {α : Type} : Except Fault α → Option Fault
  | .ok _ => none
  | .error fault => some fault

mutual

def Node.skipFault? : Node → Option Fault
  | .array items close _ => (skipItems items).or close.skippedListFault?
  | .object members close _ => (skipMembers members).or close.skippedObjectFault?
  | .broken _ skip _ => some skip
  | _ => none

def skipItems : List Node → Option Fault
  | [] => none
  | item :: rest => item.skipFault?.or (skipItems rest)

def skipMembers : List (Key × Node) → Option Fault
  | [] => none
  | (_, node) :: rest => node.skipFault?.or (skipMembers rest)

end

mutual

/-- The first fault of taking a value in as a whole, with everything inside it. `depth` is one more
than the number of brackets that may still be opened. -/
def Node.bufferFault? (depth : Nat) : Node → Option Fault
  | .null _ _ | .boolean _ _ _ => none
  | .number value _ _ => faultOf? value
  | .string value _ _ => faultOf? value
  | .array items close start =>
    if depth ≤ 1 then some ⟨.tooDeep, start, true⟩
    else (bufferItems (depth - 1) items).or close.listFault?
  | .object members close start =>
    if depth ≤ 1 then some ⟨.tooDeep, start, true⟩
    else (bufferMembers (depth - 1) members).or close.objectFault?
  | .broken read _ _ => some read

def bufferItems (depth : Nat) : List Node → Option Fault
  | [] => none
  | item :: rest => (item.bufferFault? depth).or (bufferItems depth rest)

def bufferMembers (depth : Nat) : List (Key × Node) → Option Fault
  | [] => none
  | (key, node) :: rest =>
    ((faultOf? key.name).or (node.bufferFault? depth)).or (bufferMembers depth rest)

end

def Node.wrongType (expected : String) : Node → Fault
  | .null _ stop => ⟨.mismatch (.wrongType .null expected), stop, false⟩
  | .boolean value _ stop => ⟨.mismatch (.wrongType (.boolean value) expected), stop, false⟩
  | .number (.ok value) _ stop => ⟨.mismatch (.wrongType (.number value) expected), stop, false⟩
  | .number (.error fault) _ _ => fault
  | .string (.ok value) _ stop => ⟨.mismatch (.wrongType (.string value) expected), stop, false⟩
  | .string (.error fault) _ _ => fault
  | .array _ _ start => ⟨.mismatch (.wrongType .sequence expected), start, false⟩
  | .object _ _ start => ⟨.mismatch (.wrongType .map expected), start, false⟩
  | .broken read _ _ => read

structure Decoder (α : Type) where
  fault? : Node → Option Fault
  read : Node → α

namespace Decoder

def text : Decoder Text where
  fault? := fun
    | .string (.ok _) _ _ => none
    | node => some (node.wrongType "a string")
  read := fun
    | .string (.ok value) _ _ => value
    | _ => []

def boolean : Decoder Bool where
  fault? := fun
    | .boolean _ _ _ => none
    | node => some (node.wrongType "a boolean")
  read := fun
    | .boolean value _ _ => value
    | _ => false

def word {α : Type} (name : String) (least greatest : Int) (convert : Int → α) : Decoder α where
  fault? := fun
    | .number (.ok (.integer value)) _ stop =>
      if least ≤ value ∧ value ≤ greatest then none
      else some ⟨.mismatch (.wrongValue (.number (.integer value)) name), stop, false⟩
    | node => some (node.wrongType name)
  read := fun
    | .number (.ok (.integer value)) _ _ => convert value
    | _ => convert 0

def unsigned32 : Decoder UInt32 := word "u32" 0 4294967295 fun i => UInt32.ofNat i.toNat

def signed32 : Decoder Int32 := word "i32" (-2147483648) 2147483647 Int32.ofInt

def nullable {α : Type} (d : Decoder α) : Decoder (Option α) where
  fault? := fun
    | .null _ _ => none
    | node => d.fault? node
  read := fun
    | .null _ _ => none
    | node => some (d.read node)

def list {α : Type} (d : Decoder α) : Decoder (List α) where
  fault? := fun
    | .array items close _ => (items.findSome? d.fault?).or close.listFault?
    | node => some (node.wrongType "a sequence")
  read := fun
    | .array items _ _ => items.map d.read
    | _ => []

def map {α β : Type} (f : α → β) (d : Decoder α) : Decoder β where
  fault? := d.fault?
  read := fun node => f (d.read node)

end Decoder

structure Field where
  name : String
  required : Bool
  fault? : Node → Option Fault

def memberFault? (fields : List Field) (seen : List String) : List (Key × Node) → Option Fault
  | [] => none
  | (key, node) :: rest =>
    match key.name with
    | .error fault => some fault
    | .ok name =>
      match fields.find? (·.name.toList == name) with
      | none => node.skipFault?.or (memberFault? fields seen rest)
      | some field =>
        if field.name ∈ seen then
          some ⟨.mismatch (.duplicateField field.name), key.stop, false⟩
        else (field.fault? node).or (memberFault? fields (field.name :: seen) rest)

def Key.isNamed (key : Key) (name : String) : Bool :=
  match key.name with
  | .ok text => text == name.toList
  | .error _ => false

def missingFault? (members : List (Key × Node)) (stop : Nat) (fields : List Field) :
    Option Fault :=
  (fields.find? fun field => field.required && !(members.any (·.1.isNamed field.name))).map
    fun field => ⟨.mismatch (.missingField field.name), stop, false⟩

def orderedFault? (expected : String) (close : Close) : Nat → List Field → List Node →
    Option Fault
  | _, [], [] => close.recordFault?
  | _, [], extra :: _ => some ⟨.trailingCharacters, extra.start, true⟩
  | count, field :: fields, [] =>
    close.listFault?.or (if field.required
      then some ⟨.mismatch (.wrongLength count expected), close.stop, false⟩
      else orderedFault? expected close count fields [])
  | count, field :: fields, item :: items =>
    (field.fault? item).or (orderedFault? expected close (count + 1) fields items)

def recordFault? (name : String) (fields : List Field) : Node → Option Fault
  | .object members close _ =>
    ((memberFault? fields [] members).or close.objectFault?).or
      (missingFault? members close.stop fields)
  | .array items close _ =>
    orderedFault? s!"struct {name} with {fields.length} elements" close 0 fields items
  | node => some (node.wrongType s!"struct {name}")

def Node.field? (node : Node) (index : Nat) (name : String) : Option Node :=
  match node with
  | .object members _ _ => (members.find? (·.1.isNamed name)).map (·.2)
  | .array items _ _ => items[index]?
  | _ => none

def Node.read {α : Type} (node : Node) (index : Nat) (name : String) (d : Decoder α)
    (default : α) : α :=
  match node.field? index name with
  | some value => d.read value
  | none => default

def decode {α : Type} (d : Decoder α) (text : Text) : Except Fault α :=
  let (node, after) := Node.parse text
  match d.fault? node with
  | some fault => .error fault
  | none =>
    let last := after.skipSpace
    if last.rest.isEmpty then .ok (d.read node)
    else .error ⟨.trailingCharacters, last.place, true⟩

end ShaderReflection.Json
