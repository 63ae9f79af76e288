import WorkloadDrift.Json.Writer

/-!
# Digests

Values are known by the digest of their canonical text, and changes by the
digest of their place, kind and content.
-/
namespace WorkloadDrift

abbrev Digest := String → String

def Digest.value (digest : Digest) (v : Json) : String := digest v.canonical

def changeText (scope kind content : String) : String := scope ++ ":" ++ kind ++ ":" ++ content

def Digest.change (digest : Digest) (scope kind content : String) : String :=
  digest (changeText scope kind content)

/-- A value with a number that is not finite has no canonical text. -/
structure HashingError where
  valueKind : String

def HashingError.message (e : HashingError) : String :=
  s!"cannot serialize {e.valueKind} for hashing: Out of range float values are not JSON compliant"

def Json.canonical? (v : Json) : Except HashingError String :=
  if v.isFinite then .ok v.canonical else .error ⟨v.kindName⟩

end WorkloadDrift
