import CopySynth.Emission.CopyMethod
import CopySynth.Emission.ZeroMethod
import CopySynth.Generation.Closure

/-!
# Generated source

Each method of a synthesis is written as one block of text. The source starts with a header and
with the clone operations that interfaces must declare; the blocks follow in order.
-/

namespace CopySynth

/-- A method written out. -/
structure MethodCode where
  /-- The type it is attached to. -/
  type : String
  /-- Its family. -/
  family : Family
  /-- Whether the type was reached from another instead of being requested. -/
  discovered : Bool
  /-- Its text. -/
  code : String
  deriving DecidableEq, Repr

/-- A clone operation that an interface must declare. -/
structure CloneRequirement where
  /-- The interface. -/
  capability : String
  /-- The operation's name. -/
  method : String
  deriving DecidableEq, Repr

/-- The signature that every concrete type implements. -/
def CloneRequirement.signature (requirement : CloneRequirement) : String :=
  s!"fn {requirement.method}(&self) -> Box<dyn {requirement.capability}>"

/-- Generated code. -/
structure Source where
  /-- The methods, in order. -/
  methods : List MethodCode
  /-- The clone operations they call. -/
  requirements : List CloneRequirement
  deriving DecidableEq, Repr

namespace Source

/-- The first line of generated code. -/
def header : String := "// @generated by clonegen. Do not edit.\n"

/-- The comment that asks for a clone operation. -/
def requirementLine (requirement : CloneRequirement) : String :=
  s!"// requires `{requirement.signature}` on `{requirement.capability}`\n"

/-- The whole text. -/
def text (source : Source) : String :=
  header ++ String.join (source.requirements.map requirementLine) ++
    String.join (source.methods.map fun method => "\n" ++ method.code ++ "\n")

/-- The types that have a method of a family, in order. -/
def names (source : Source) (family : Family) : List String :=
  (source.methods.filter fun method => method.family = family).map MethodCode.type

end Source

namespace Emission

open Code (Language)

/-- The blocks of a method; its body must belong to its family. -/
def methodBlocks (language : Language) (config : Config) (method : Method) :
    Except GenerationError (List Code.ImplBlock) :=
  match method.family, method.body with
  | .publicCopy, .copy body => publicCopy language config method.type body
  | .privateCopy, .copy body => privateCopy language config method.type body
  | .zeroPredicate, .zero body => zeroPredicate language config method.type body
  | family, _ => throw (.unsupportedShape method.type (.foreignBody family))

/-- Writes a method out. -/
def methodCode (language : Language) (config : Config) (method : Method) :
    Except GenerationError MethodCode := do
  let blocks ← methodBlocks language config method
  return ⟨method.type, method.family, method.discovered, Code.renderBlocks blocks⟩

/-- Writes a synthesis out. -/
def source (language : Language) (config : Config) (synthesis : Synthesis) :
    Except GenerationError Source := do
  let methods ← synthesis.methods.mapM (methodCode language config)
  let requirements := synthesis.capabilities.map fun capability =>
    ⟨capability, config.capabilityMethod capability⟩
  return { methods, requirements }

end Emission

/-- Makes and writes out the methods for the requested types. -/
def Table.generate (table : Table) (language : Code.Language) (config : Config)
    (roots : List String) : Except GenerationError Source := do
  Emission.source language config (← table.synthesize language config roots)

end CopySynth
