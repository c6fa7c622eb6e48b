import Mathlib.Data.List.Basic
import ShaderReflection.Proofs.Dump.Comment
import ShaderReflection.Proofs.Text.Splitting
/-!
The two backends taken apart. One loop over the lines feeds the struct scan and looks for uniforms
and variables; it finds what separate loops find, so that a struct that never ends hides no
declaration. The linker backend shares the struct table and takes its uniforms from the dump.
-/
namespace ShaderReflection
open Text

namespace Glsl

def lineUniforms (line : Text) : List Uniform :=
  ((Line.ofText line).declared uniformKeyword).uniform?.toList

def lineAttributes (keyword line : Text) : List Attribute :=
  ((Line.ofText line).declared keyword).attribute?.toList

def apart (attributes : Bool) (scanner : Scanner) (rows : List Text) : Interface where
  uniforms := rows.flatMap lineUniforms
  inputs := if attributes then rows.flatMap (lineAttributes inKeyword) else []
  outputs := if attributes then rows.flatMap (lineAttributes outKeyword) else []
  structs := (closedSpans scanner rows).filterMap structOfSpan?

theorem spanStructs (span : Option Text) :
    span.toList.flatMap (fun s => (structOfSpan? s).toList) = (span.bind structOfSpan?).toList := by
  cases span with
  | none => rfl
  | some s => exact List.flatMap_singleton _ s

theorem findingsApart (attributes : Bool) (scanner : Scanner) (rows : List Text) :
    interfaceOf (findings attributes scanner (rows.map Line.ofText)) =
      apart attributes scanner rows := by
  induction rows generalizing scanner with
  | nil => cases attributes <;> rfl
  | cons line rest ih =>
    obtain ⟨uniforms, inputs, outputs, structs⟩ := Interface.mk.inj (ih (scanner.feed line).1)
    have text : (Line.ofText line).text = line := rfl
    simp only [List.filterMap_eq_flatMap_toList] at uniforms inputs outputs structs
    simp only [interfaceOf, apart, List.map_cons, findings, closedSpans, List.flatMap_append,
      List.filterMap_eq_flatMap_toList, List.flatMap_cons, spanStructs, text,
      uniforms, inputs, outputs, structs]
    cases attributes <;> rfl

theorem emptyApart (attributes : Bool) :
    apart attributes .idle [[]] = apart attributes .idle [] := by
  cases attributes <;> decide

theorem sourceApart (source : Text) (stage : Stage) :
    interfaceOf (sourceFindings source stage) = apart stage.hasAttributes .idle (lines source) :=
  findingsApart stage.hasAttributes .idle (lines source)

theorem lineApart {line : Text} (whole : '\n' ∉ line) (stage : Stage) :
    interfaceOf (sourceFindings line stage) = apart stage.hasAttributes .idle [line] := by
  rw [sourceApart]
  by_cases empty : line = []
  · rw [empty, emptyApart]
    rfl
  · rw [lineLast whole empty]

end Glsl

namespace Dump
open Glsl (scanStructs lineUniforms lineAttributes inKeyword outKeyword)

structure DeclaredApart (source : Text) (stage : Stage) (i : Interface) : Prop where
  structs : i.structs = scanStructs source
  uniforms : i.uniforms = (lines source).flatMap lineUniforms
  attributes : stage.hasAttributes = true →
    i.inputs = (lines source).flatMap (lineAttributes inKeyword) ∧
      i.outputs = (lines source).flatMap (lineAttributes outKeyword)
  compute : stage = .compute → i.inputs = [] ∧ i.outputs = []
  anyState : ∀ scanner,
    let found := Glsl.interfaceOf
      (Glsl.findings stage.hasAttributes scanner (Glsl.sourceLines source))
    found.uniforms = i.uniforms ∧ found.inputs = i.inputs ∧ found.outputs = i.outputs
  alone : ∀ line ∈ lines source, ∃ own, Glsl.declarations line stage = .ok own ∧
    own.uniforms = lineUniforms line ∧ (stage.hasAttributes = true →
      own.inputs = lineAttributes inKeyword line ∧ own.outputs = lineAttributes outKeyword line)

structure ReflectedApart (dump source : Text) (stage : Stage) (i : Interface) : Prop where
  structs : i.structs = scanStructs source
  uniforms : i.uniforms = (interfaceOf dump).uniforms
  attributes : stage.hasAttributes = true →
    i.inputs = ((interfaceOf dump).backfill source stage).inputs ∧
      i.outputs = ((interfaceOf dump).backfill source stage).outputs
  compute : stage = .compute → i.inputs = [] ∧ i.outputs = []

theorem declaredApart (source : Text) {stage : Stage} (raster : stage.isRaytracing = false) :
    ∃ i, Glsl.declarations source stage = .ok i ∧ DeclaredApart source stage i := by
  have accepted (text : Text) : Glsl.declarations text stage =
      .ok (Glsl.interfaceOf (Glsl.sourceFindings text stage)) := by
    rw [Glsl.declarations, raster]
    rfl
  refine ⟨_, (accepted source).trans (by rw [Glsl.sourceApart]), ?_⟩
  exact {
    structs := rfl
    uniforms := rfl
    attributes := fun attributes => ⟨if_pos attributes, if_pos attributes⟩
    compute := by
      rintro rfl
      exact ⟨rfl, rfl⟩
    anyState := fun scanner => by
      intro found
      have same : found = Glsl.apart stage.hasAttributes scanner (lines source) :=
        Glsl.findingsApart stage.hasAttributes scanner (lines source)
      rw [same]
      exact ⟨rfl, rfl, rfl⟩
    alone := fun line member => by
      have own := Glsl.lineApart (linesWhole source line member) stage
      refine ⟨_, (accepted line).trans (by rw [own]), List.flatMap_singleton _ line, ?_⟩
      intro attributes
      exact ⟨(if_pos attributes).trans (List.flatMap_singleton _ line),
        (if_pos attributes).trans (List.flatMap_singleton _ line)⟩ }

theorem reflectedApart (dump source : Text) {stage : Stage} (raster : stage.isRaytracing = false) :
    ∃ i, reflection dump source stage = .ok i ∧ ReflectedApart dump source stage i := by
  refine ⟨_, by rw [reflection, raster]; rfl, ?_⟩
  exact {
    structs := rfl
    uniforms := by
      change ((restrict stage (interfaceOf dump)).backfill source stage).uniforms = _
      rw [backfillUniforms, restrict]
      split <;> rfl
    attributes := fun attributes => by
      have kept : restrict stage (interfaceOf dump) = interfaceOf dump := if_pos attributes
      rw [kept]
      exact ⟨rfl, rfl⟩
    compute := by
      rintro rfl
      exact ⟨rfl, rfl⟩ }

theorem failsRefused {ε α : Type} {refused : Bool} {e : ε} {a : α} :
    (∃ f, (if refused then Except.error e else .ok a) = .error f) ↔ refused = true := by
  cases refused <;> simp

theorem backendsSeparate (dump source : Text) (s s' : Stage) :
    ((∃ e, Glsl.declarations source s = .error e) ↔ s.isRaytracing = true) ∧
      ((∃ e, reflection dump source s' = .error e) ↔ s'.isRaytracing = true) ∧
      (s.isRaytracing = false → s'.isRaytracing = false → ∃ declared reflected,
        Glsl.declarations source s = .ok declared ∧ reflection dump source s' = .ok reflected ∧
          DeclaredApart source s declared ∧ ReflectedApart dump source s' reflected) := by
  refine ⟨failsRefused, failsRefused, fun raster raster' => ?_⟩
  obtain ⟨declared, accepted, whole⟩ := declaredApart source raster
  obtain ⟨reflected, accepted', whole'⟩ := reflectedApart dump source raster'
  exact ⟨declared, reflected, accepted, accepted', whole, whole'⟩

theorem backendsSeparateOpen :
    let source := "#version 450\nstruct S \x7b\nin vec3 a;\nuniform float t;".toList
    let dump := "Uniform reflection:\nu: type 8b50, size 1\nPipeline input reflection:\nuv:".toList
    Stage.isRaytracing .vertex = false ∧ Stage.isRaytracing .compute = false ∧
      ∃ declared reflected, Glsl.declarations source .vertex = .ok declared ∧
        reflection dump source .compute = .ok reflected ∧
        declared.structs = [] ∧ declared.uniforms = [⟨.float, "t".toList, 1, none, false⟩] ∧
        declared.inputs = [⟨.vec3, "a".toList, none⟩] ∧ reflected.structs = declared.structs ∧
        reflected.uniforms = [⟨.vec2, "u".toList, 1, none, false⟩] ∧ reflected.inputs = [] := by
  intro source dump
  have none : scanStructs source = [] := by decide
  obtain ⟨-, -, apart⟩ := backendsSeparate dump source .vertex .compute
  obtain ⟨declared, reflected, accepted, accepted', whole, whole'⟩ := apart rfl rfl
  refine ⟨rfl, rfl, declared, reflected, accepted, accepted', whole.structs.trans none, ?_, ?_,
    whole'.structs.trans whole.structs.symm, ?_, (whole'.compute rfl).1⟩
  · exact whole.uniforms.trans (by decide)
  · exact (whole.attributes rfl).1.trans (by decide)
  · exact whole'.uniforms.trans (by decide)

theorem clauseAcrossLines :
    let source := "#version 450\nin vec3\na;".toList
    let dump := "Pipeline input reflection:\nuv: offset 0, type 8b50, size 1".toList
    (reflection dump source .vertex).map (·.inputs) =
        .ok [⟨.vec2, "uv".toList, none⟩, ⟨.vec3, "a".toList, none⟩] ∧
      (lines source).flatMap (lineAttributes inKeyword) = [] ∧
      ∀ line ∈ lines source, (reflection [] line .vertex).map (·.inputs) = .ok [] := by
  decide

end Dump
end ShaderReflection
