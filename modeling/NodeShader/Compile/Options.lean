import NodeShader.Json.Record

/-!
Options of a compilation. By default nothing is rejected.
-/

namespace NodeShader

structure Options where
  /-- Reject node ids that give the same identifier, instead of numbering the later ones. -/
  strictIdentifiers : Bool := false
  /-- Reject formulas that have no code, instead of reading them as zero. -/
  strictExpressions : Bool := false
  deriving DecidableEq, Repr

namespace Options

def lenient : Options := ⟨false, false⟩

def strict : Options := ⟨true, true⟩

def decoder : Decoder Options :=
  .record [["strictIdentifiers"], ["strictExpressions"]] fun levels fields =>
    match fields with
    | [identifiers, expressions] => do
      return ⟨← Decoder.withDefault false .flag levels identifiers,
        ← Decoder.withDefault false .flag levels expressions⟩
    | _ => none

def read? (text : String) : Option Options := do
  decoder Document.maxLevels (← Document.read? text)

def json (options : Options) : Json := .object [
  ("strictIdentifiers", .bool options.strictIdentifiers),
  ("strictExpressions", .bool options.strictExpressions)]

end Options

end NodeShader
