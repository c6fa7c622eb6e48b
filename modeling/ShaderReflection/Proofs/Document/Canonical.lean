import ShaderReflection.Metadata
/-!
The metadata that is read back. A document keeps the spelling of a type only, so a type of the
shader's own comes back as the type that its name stands for. Nothing changes where no such name is
the spelling of a basic type.
-/
namespace ShaderReflection

namespace TypeName

def canonical : TypeName → TypeName
  | custom name => ofText name
  | t => t

theorem ofToText (t : TypeName) : ofText t.toText = t.canonical := by
  cases t <;> rfl

def isReserved (name : Text) : Bool := (basic.lookup name).isSome

def Unreserved (t : TypeName) : Prop := ∀ name, t = custom name → isReserved name = false

theorem basicUnreserved {t : TypeName} (known : t.isCustom = false) : t.Unreserved := by
  rintro name rfl
  simp [isCustom] at known

theorem ofTextUnreserved (token : Text) : (ofText token).Unreserved := by
  have known : ∀ t ∈ basic.map (·.2), t.isCustom = false := by decide
  cases found : basic.lookup token with
  | some t =>
    obtain ⟨front, back, table, -⟩ := List.lookup_eq_some_iff.mp found
    rw [ofText, found, Option.getD_some]
    exact basicUnreserved (known t (by simp [table]))
  | none =>
    rw [ofText, found, Option.getD_none]
    intro name same
    cases same
    simp [isReserved, found]

theorem canonicalSelf {t : TypeName} (own : t.Unreserved) : t.canonical = t := by
  cases t with
  | custom name =>
    have free := own name rfl
    rw [isReserved, Option.isSome_eq_false_iff, Option.isNone_iff_eq_none] at free
    simp [canonical, ofText, free]
  | _ => rfl

end TypeName

theorem mapSame {α : Type} {f : α → α} {xs : List α} (same : ∀ x ∈ xs, f x = x) :
    xs.map f = xs := by
  rw [List.map_congr_left same, List.map_id']

def Attribute.canonical (a : Attribute) : Attribute :=
  { a with typeName := a.typeName.canonical }

def Uniform.canonical (u : Uniform) : Uniform := { u with typeName := u.typeName.canonical }

def StructMember.canonical (m : StructMember) : StructMember :=
  { m with typeName := m.typeName.canonical }

namespace StructDef

def canonical (d : StructDef) : StructDef :=
  { d with members := d.members.map StructMember.canonical }

def Unreserved (d : StructDef) : Prop := ∀ m ∈ d.members, m.typeName.Unreserved

theorem canonicalSelf {d : StructDef} (own : d.Unreserved) : d.canonical = d := by
  have members : d.members.map StructMember.canonical = d.members :=
    mapSame fun m member => by rw [StructMember.canonical, TypeName.canonicalSelf (own m member)]
  rw [canonical, members]

end StructDef

namespace Interface

def canonical (i : Interface) : Interface where
  uniforms := i.uniforms.map Uniform.canonical
  inputs := i.inputs.map Attribute.canonical
  outputs := i.outputs.map Attribute.canonical
  structs := i.structs.map StructDef.canonical

structure Unreserved (i : Interface) : Prop where
  uniforms : ∀ u ∈ i.uniforms, u.typeName.Unreserved
  inputs : ∀ a ∈ i.inputs, a.typeName.Unreserved
  outputs : ∀ a ∈ i.outputs, a.typeName.Unreserved
  structs : ∀ d ∈ i.structs, d.Unreserved

theorem canonicalSelf {i : Interface} (own : i.Unreserved) : i.canonical = i := by
  have attributes {as : List Attribute} (types : ∀ a ∈ as, a.typeName.Unreserved) :
      as.map Attribute.canonical = as :=
    mapSame fun a member => by rw [Attribute.canonical, TypeName.canonicalSelf (types a member)]
  have uniforms : i.uniforms.map Uniform.canonical = i.uniforms := mapSame fun u member => by
    rw [Uniform.canonical, TypeName.canonicalSelf (own.uniforms u member)]
  have structs : i.structs.map StructDef.canonical = i.structs :=
    mapSame fun d member => StructDef.canonicalSelf (own.structs d member)
  rw [canonical, uniforms, attributes own.inputs, attributes own.outputs, structs]

end Interface

namespace Metadata

def canonical (m : Metadata) : Metadata :=
  { m with interface? := m.interface?.map Interface.canonical }

def Unreserved (m : Metadata) : Prop := ∀ i, m.interface? = some i → i.Unreserved

theorem canonicalSelf {m : Metadata} (own : m.Unreserved) : m.canonical = m := by
  obtain ⟨d, i⟩ := m
  cases i with
  | none => rfl
  | some i => rw [canonical, Option.map_some, Interface.canonicalSelf (own i rfl)]

end Metadata
end ShaderReflection
