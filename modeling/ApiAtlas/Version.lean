import ApiAtlas.Json.Decoder

/-!
# Versions

A version has three parts. They are compared one after the other, and the last
two may be left out of a document.
-/

set_option autoImplicit false

namespace ApiAtlas

/-- A version of three parts. -/
structure Version where
  major : UInt32 := 0
  minor : UInt32 := 0
  patch : UInt32 := 0
deriving DecidableEq, Repr

namespace Version

/-- The parts of a version in the order in which they are compared. -/
def parts (version : Version) : Nat × Nat × Nat :=
  (version.major.toNat, version.minor.toNat, version.patch.toNat)

/-- Versions are ordered by their first different part. -/
instance : Key Version :=
  Key.along parts fun first second same => by
    simp only [parts, Prod.mk.injEq, UInt32.toNat_inj] at same
    cases first
    cases second
    simp_all

/-- The parts of a version with points between them. -/
def text (version : Version) : String :=
  s!"{version.major}.{version.minor}.{version.patch}"

/-- The record of a version. -/
def shape : RecordShape :=
  { name := "SemanticVersion", fields := ["major", "minor", "patch"] }

/-- Reads a version. -/
def decode : Decoder Version :=
  Decoder.record shape <|
    Version.mk <$> Fields.required "major" Decoder.word32
      <*> Fields.withDefault "minor" 0 Decoder.word32
      <*> Fields.withDefault "patch" 0 Decoder.word32

/-- Writes a version. -/
def encode (version : Version) : Json :=
  .object
    [("major", .ofWord version.major.toUInt64), ("minor", .ofWord version.minor.toUInt64),
      ("patch", .ofWord version.patch.toUInt64)]

end Version

end ApiAtlas
