import ApiAtlas.Version

/-!
# Modules and their platforms

A symbol graph belongs to a module that was built for a platform. Of the
platform only its name matters here: the usual spelling of the operating
system's name, refined by the environment that the module was built for
(`Platform.name?`).
-/

set_option autoImplicit false

namespace ApiAtlas

/-- An operating system and the oldest version of it that is supported. -/
structure OperatingSystem where
  name : String
  minimumVersion : Option Version := none
deriving DecidableEq, Repr

/-- What a module was built for. -/
structure Platform where
  architecture : Option String := none
  vendor : Option String := none
  operatingSystem : Option OperatingSystem := none
  environment : Option String := none
deriving DecidableEq, Repr

/-- A module as it was built for one platform. -/
structure Module where
  name : String
  platform : Platform := {}
  /-- Other modules that have to be present for the symbols to exist. -/
  bystanders : Option (List String) := none
  isVirtual : Bool := false
deriving DecidableEq, Repr

/-- The tool that wrote a symbol graph. -/
structure Metadata where
  formatVersion : Version := {}
  generator : String := ""
deriving DecidableEq, Repr

namespace OperatingSystem

/-- The usual spelling of an operating system's name. -/
def usualName (name : String) : String :=
  match name with
  | "macosx" | "macos" => "macOS"
  | "ios" => "iOS"
  | "watchos" => "watchOS"
  | "tvos" => "tvOS"
  | "xros" | "visionos" => "visionOS"
  | "linux" => "Linux"
  | other => other

/-- The record of an operating system. -/
def shape : RecordShape :=
  { name := "OperatingSystem", fields := ["name", "minimumVersion"] }

/-- Reads an operating system. -/
def decode : Decoder OperatingSystem :=
  Decoder.record shape <|
    OperatingSystem.mk <$> Fields.required "name" Decoder.text
      <*> Fields.optional "minimumVersion" Version.decode

/-- Writes an operating system. -/
def encode (system : OperatingSystem) : Json :=
  .ofFields
    [Json.field "name" (.text system.name),
      Json.field? "minimumVersion" (system.minimumVersion.map Version.encode)]

end OperatingSystem

namespace Platform

/-- The platform of an operating system about which nothing else is known. -/
def forSystem (name : String) : Platform :=
  { operatingSystem := some { name } }

/-- The name of a platform, if it has an operating system. A build for the environment `macabi` of
iOS is Mac Catalyst, and a build for application extensions is named after its system. -/
def name? (platform : Platform) : Option String :=
  platform.operatingSystem.map fun system =>
    if system.name = "ios" ∧ platform.environment = some "macabi" then
      "macCatalyst"
    else if platform.environment = some "appextension" then
      OperatingSystem.usualName system.name ++ "AppExtension"
    else
      OperatingSystem.usualName system.name

/-- The record of a platform. -/
def shape : RecordShape :=
  { name := "Platform", fields := ["architecture", "vendor", "operatingSystem", "environment"] }

/-- Reads a platform. -/
def decode : Decoder Platform :=
  Decoder.record shape <|
    Platform.mk <$> Fields.optional "architecture" Decoder.text
      <*> Fields.optional "vendor" Decoder.text
      <*> Fields.optional "operatingSystem" OperatingSystem.decode
      <*> Fields.optional "environment" Decoder.text

/-- Writes a platform. -/
def encode (platform : Platform) : Json :=
  .ofFields
    [Json.field? "architecture" (platform.architecture.map .text),
      Json.field? "vendor" (platform.vendor.map .text),
      Json.field? "operatingSystem" (platform.operatingSystem.map OperatingSystem.encode),
      Json.field? "environment" (platform.environment.map .text)]

end Platform

namespace Module

/-- Whether other modules have to be present. -/
def hasBystanders (module : Module) : Bool :=
  match module.bystanders with
  | some (_ :: _) => true
  | _ => false

/-- The record of a module. -/
def shape : RecordShape :=
  { name := "Module", fields := ["name", "platform", "bystanders", "isVirtual"] }

/-- Reads a module. -/
def decode : Decoder Module :=
  Decoder.record shape <|
    Module.mk <$> Fields.required "name" Decoder.text
      <*> Fields.withDefault "platform" {} Platform.decode
      <*> Fields.optional "bystanders" (Decoder.list Decoder.text)
      <*> Fields.withDefault "isVirtual" false Decoder.boolean

/-- Writes a module. -/
def encode (module : Module) : Json :=
  .ofFields
    [Json.field "name" (.text module.name), Json.field "platform" module.platform.encode,
      Json.field? "bystanders" (module.bystanders.map Json.ofTexts),
      Json.flag "isVirtual" module.isVirtual]

end Module

namespace Metadata

/-- The record of a tool. -/
def shape : RecordShape :=
  { name := "Metadata", fields := ["formatVersion", "generator"] }

/-- Reads the tool that wrote a graph. -/
def decode : Decoder Metadata :=
  Decoder.record shape <|
    Metadata.mk <$> Fields.required "formatVersion" Version.decode
      <*> Fields.required "generator" Decoder.text

/-- Writes the tool that wrote a graph. -/
def encode (metadata : Metadata) : Json :=
  .object
    [("formatVersion", metadata.formatVersion.encode), ("generator", .text metadata.generator)]

end Metadata

end ApiAtlas
