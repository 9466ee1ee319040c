import ApiAtlas.Module
import ApiAtlas.Proofs.Json.Outcomes
import ApiAtlas.Symbol.Documentation
import ApiAtlas.Symbol.Kind

/-!
# Parts of symbols and modules read back

Each record says what its slots are; writing fills them (`encode_eq`) and reading
gives back what was written (`decode_encode`), in whatever order the members
stand.

Two parts are written by a name alone, which has to mean them when it is read: a
kind of fragment (`FragmentKind.IsResolved`) and a kind of symbol
(`Kind.IsResolved`). All others read back as they are.
-/

set_option autoImplicit false

namespace ApiAtlas

open Json

variable {form : Json → Json}

/-! ## Versions -/

namespace Version

/-- The slots of a version. -/
def slots (version : Version) : Slots :=
  [("major", some (.ofWord version.major.toUInt64)),
    ("minor", some (.ofWord version.minor.toUInt64)),
    ("patch", some (.ofWord version.patch.toUInt64))]

theorem encode_eq (version : Version) : version.encode = .object (filled version.slots) :=
  rfl

@[simp]
theorem isPlain_encode (version : Version) : version.encode.IsPlain 1 := by
  rw [encode_eq]
  exact isPlain_filled (by simp [slots])

theorem decode_encode (isForm : IsForm form) (version : Version) :
    decode (form version.encode).draft = .ok version := by
  rw [encode_eq]
  refine isForm.decode_record rfl (by decide) fun members holds => ?_
  have major := holds.required shape 0 rfl (isForm.decode_word32 version.major)
  have minor := holds.withDefault shape 1 rfl 0 (isForm.decode_word32 version.minor)
  have patch := holds.withDefault shape 2 rfl 0 (isForm.decode_word32 version.patch)
  exact ((major.map Version.mk).seq minor).seq patch

end Version

/-! ## Fragments -/

/-- The name of the kind that a name means is that name, if a kind without a meaning keeps it. -/
theorem name_getD_find? {κ : Type} (known : List κ) (nameOf : κ → String) {name : String}
    {other : κ} (kept : nameOf other = name) :
    nameOf ((known.find? fun kind => nameOf kind = name).getD other) = name := by
  cases found : known.find? fun kind => nameOf kind = name with
  | some kind => simpa using List.find?_some found
  | none => exact kept

/-- The name of a kind of fragment means that kind. -/
def FragmentKind.IsResolved (kind : FragmentKind) : Prop :=
  ofName kind.name = kind

/-- What a name means is a kind whose name means it. -/
theorem FragmentKind.isResolved_ofName (name : String) : (ofName name).IsResolved :=
  congrArg ofName (name_getD_find? known FragmentKind.name rfl)

namespace Fragment

@[simp]
theorem isResolved_keyword (spelling : String) : (keyword spelling).kind.IsResolved :=
  rfl

@[simp]
theorem isResolved_text (spelling : String) : (text spelling).kind.IsResolved :=
  rfl

@[simp]
theorem isResolved_identifier (spelling : String) : (identifier spelling).kind.IsResolved :=
  rfl

@[simp]
theorem isResolved_label (spelling : String) : (label spelling).kind.IsResolved :=
  rfl

/-- The slots of a fragment. -/
def slots (fragment : Fragment) : Slots :=
  [("kind", some (.text fragment.kind.name)), ("spelling", some (.text fragment.spelling)),
    ("preciseIdentifier", fragment.reference.map .text)]

theorem encode_eq (fragment : Fragment) : fragment.encode = .object (filled fragment.slots) :=
  ofFields_slots fragment.slots

@[simp]
theorem isPlain_encode (fragment : Fragment) : fragment.encode.IsPlain 1 := by
  rw [encode_eq]
  exact isPlain_filled (by simp [slots])

@[simp]
theorem isPlain_encodeAll (fragments : List Fragment) : (encodeAll fragments).IsPlain 2 :=
  isPlain_array (by simp)

theorem decode_encode (isForm : IsForm form) {fragment : Fragment}
    (resolved : fragment.kind.IsResolved) :
    decode (form fragment.encode).draft = .ok fragment := by
  rw [encode_eq]
  refine isForm.decode_record rfl (by decide) fun members holds => ?_
  have kind : (Fields.required "kind" fun draft =>
      (Decoder.text draft).map FragmentKind.ofName).Gives shape _ fragment.kind :=
    holds.required shape 0 rfl (isForm.decode_meaning resolved)
  have spelling := holds.required shape 1 rfl (isForm.decode_text fragment.spelling)
  have reference := holds.optional shape 2 rfl (fun text _ => isForm.decode_text text)
    Decoder.text_null
  exact ((kind.map Fragment.mk).seq spelling).seq reference

theorem decode_encodeAll (isForm : IsForm form) {fragments : List Fragment}
    (resolved : ∀ fragment ∈ fragments, fragment.kind.IsResolved) :
    Decoder.list decode (form (encodeAll fragments)).draft = .ok fragments :=
  isForm.decode_list fun fragment member => decode_encode isForm (resolved fragment member)

/-- Every fragment that is read has a kind whose name means it. -/
theorem ensures_resolved : decode.Ensures fun fragment => fragment.kind.IsResolved :=
  Decoder.ensures_record <|
    (((Fields.ensure_required
      (Decoder.ensures_meaning FragmentKind.isResolved_ofName)).map
        fun _ resolved _ _ _ _ => resolved).seq (Fields.ensure_anything _)).seq
      (Fields.ensure_anything _)

end Fragment

/-! ## Documentation -/

namespace Position

/-- The slots of a position. -/
def slots (position : Position) : Slots :=
  [("line", some (.ofWord position.line.toUInt64)),
    ("character", some (.ofWord position.character.toUInt64))]

theorem encode_eq (position : Position) : position.encode = .object (filled position.slots) :=
  rfl

@[simp]
theorem isPlain_encode (position : Position) : position.encode.IsPlain 1 := by
  rw [encode_eq]
  exact isPlain_filled (by simp [slots])

theorem decode_encode (isForm : IsForm form) (position : Position) :
    decode (form position.encode).draft = .ok position := by
  rw [encode_eq]
  refine isForm.decode_record rfl (by decide) fun members holds => ?_
  have line := holds.required shape 0 rfl (isForm.decode_word32 position.line)
  have character := holds.required shape 1 rfl (isForm.decode_word32 position.character)
  exact (line.map Position.mk).seq character

end Position

namespace SourceRange

/-- The slots of a range. -/
def slots (range : SourceRange) : Slots :=
  [("start", some range.start.encode), ("end", some range.stop.encode)]

theorem encode_eq (range : SourceRange) : range.encode = .object (filled range.slots) :=
  rfl

@[simp]
theorem isPlain_encode (range : SourceRange) : range.encode.IsPlain 2 := by
  rw [encode_eq]
  exact isPlain_filled (by simp [slots])

theorem decode_encode (isForm : IsForm form) (range : SourceRange) :
    decode (form range.encode).draft = .ok range := by
  rw [encode_eq]
  refine isForm.decode_record rfl (by decide) fun members holds => ?_
  have start := holds.required shape 0 rfl (range.start.decode_encode isForm)
  have stop := holds.required shape 1 rfl (range.stop.decode_encode isForm)
  exact (start.map SourceRange.mk).seq stop

end SourceRange

namespace DocLine

/-- The slots of a line. -/
def slots (line : DocLine) : Slots :=
  [("text", some (.text line.text)), ("range", line.range.map SourceRange.encode)]

theorem encode_eq (line : DocLine) : line.encode = .object (filled line.slots) :=
  ofFields_slots line.slots

@[simp]
theorem isPlain_encode (line : DocLine) : line.encode.IsPlain 3 := by
  rw [encode_eq]
  exact isPlain_filled (by simp [slots])

theorem decode_encode (isForm : IsForm form) (line : DocLine) :
    decode (form line.encode).draft = .ok line := by
  rw [encode_eq]
  refine isForm.decode_record rfl (by decide) fun members holds => ?_
  have text := holds.required shape 0 rfl (isForm.decode_text line.text)
  have range := holds.optional shape 1 rfl (fun range _ => range.decode_encode isForm)
    Decoder.record_null
  exact (text.map DocLine.mk).seq range

end DocLine

namespace DocComment

/-- The slots of a comment. -/
def slots (comment : DocComment) : Slots :=
  [("url", comment.url.map .text), ("module", comment.module.map .text),
    ("lines", some (.array (comment.lines.map DocLine.encode)))]

theorem encode_eq (comment : DocComment) : comment.encode = .object (filled comment.slots) :=
  ofFields_slots comment.slots

@[simp]
theorem isPlain_encode (comment : DocComment) : comment.encode.IsPlain 5 := by
  have lines : (array (comment.lines.map DocLine.encode)).IsPlain 4 := isPlain_array (by simp)
  rw [encode_eq]
  exact isPlain_filled (by simp [slots, lines])

theorem decode_encode (isForm : IsForm form) (comment : DocComment) :
    decode (form comment.encode).draft = .ok comment := by
  rw [encode_eq]
  refine isForm.decode_record rfl (by decide) fun members holds => ?_
  have url := holds.optional shape 0 rfl (fun text _ => isForm.decode_text text)
    Decoder.text_null
  have module := holds.optional shape 1 rfl (fun text _ => isForm.decode_text text)
    Decoder.text_null
  have lines := holds.required shape 2 rfl
    (isForm.decode_list fun line _ => line.decode_encode isForm)
  exact ((url.map DocComment.mk).seq module).seq lines

end DocComment

/-! ## Names and kinds -/

namespace Names

/-- The slots of the names of a symbol. -/
def slots (names : Names) : Slots :=
  [("title", some (.text names.title)), ("navigator", names.navigator.map Fragment.encodeAll),
    ("subHeading", names.subHeading.map Fragment.encodeAll), ("prose", names.prose.map .text)]

theorem encode_eq (names : Names) : names.encode = .object (filled names.slots) :=
  ofFields_slots names.slots

@[simp]
theorem isPlain_encode (names : Names) : names.encode.IsPlain 3 := by
  rw [encode_eq]
  exact isPlain_filled (by simp [slots])

/-- The names of the kinds in both forms of a declaration mean these kinds. -/
structure AreResolved (names : Names) : Prop where
  navigator : ∀ fragments, names.navigator = some fragments →
    ∀ fragment ∈ fragments, fragment.kind.IsResolved
  subHeading : ∀ fragments, names.subHeading = some fragments →
    ∀ fragment ∈ fragments, fragment.kind.IsResolved

theorem decode_encode (isForm : IsForm form) {names : Names} (resolved : names.AreResolved) :
    decode (form names.encode).draft = .ok names := by
  rw [encode_eq]
  refine isForm.decode_record rfl (by decide) fun members holds => ?_
  have title := holds.required shape 0 rfl (isForm.decode_text names.title)
  have navigator := holds.optional shape 1 rfl
    (fun fragments held => Fragment.decode_encodeAll isForm (resolved.navigator fragments held))
    Decoder.list_null
  have subHeading := holds.optional shape 2 rfl
    (fun fragments held => Fragment.decode_encodeAll isForm (resolved.subHeading fragments held))
    Decoder.list_null
  have prose := holds.optional shape 3 rfl (fun text _ => isForm.decode_text text)
    Decoder.text_null
  exact (((title.map Names.mk).seq navigator).seq subHeading).seq prose

/-- All names that are read have kinds whose names mean them. -/
theorem ensures_resolved : decode.Ensures AreResolved :=
  Decoder.ensures_record <|
    ((((Fields.ensure_anything _).map fun _ _ _ navigator _ subHeading _ _ =>
      ⟨navigator, subHeading⟩).seq
        (Fields.ensure_optional Fragment.ensures_resolved.list)).seq
        (Fields.ensure_optional Fragment.ensures_resolved.list)).seq (Fields.ensure_anything _)

end Names

namespace Kind

/-- The slots of a kind. -/
def slots (kind : Kind) : Slots :=
  [("identifier", some (.text kind.source)), ("displayName", some (.text kind.displayName))]

theorem encode_eq (kind : Kind) : kind.encode = .object (filled kind.slots) :=
  rfl

@[simp]
theorem isPlain_encode (kind : Kind) : kind.encode.IsPlain 1 := by
  rw [encode_eq]
  exact isPlain_filled (by simp [slots])

/-- A kind is what its name in the document means. -/
def IsResolved (registry : KindRegistry) (kind : Kind) : Prop :=
  kind.identifier = registry.resolve kind.source

theorem decode_encode {registry : KindRegistry} (isForm : IsForm form) {kind : Kind}
    (resolved : kind.IsResolved registry) :
    decode registry (form kind.encode).draft = .ok kind := by
  have made : ofSource registry kind.source kind.displayName = kind := by
    rw [ofSource, ← resolved]
  rw [encode_eq, ← made]
  refine isForm.decode_record rfl (by decide) fun members holds => ?_
  have source := holds.required shape 0 rfl (isForm.decode_text kind.source)
  have displayName := holds.required shape 1 rfl (isForm.decode_text kind.displayName)
  exact (source.map (ofSource registry)).seq displayName

/-- Every kind that is read is what its name means. -/
theorem ensures_resolved (registry : KindRegistry) :
    (decode registry).Ensures (IsResolved registry) :=
  Decoder.ensures_record <|
    ((Fields.ensure_anything _).map fun _ _ _ _ => rfl).seq (Fields.ensure_anything _)

end Kind

/-! ## Modules -/

namespace OperatingSystem

/-- The slots of an operating system. -/
def slots (system : OperatingSystem) : Slots :=
  [("name", some (.text system.name)), ("minimumVersion", system.minimumVersion.map Version.encode)]

theorem encode_eq (system : OperatingSystem) : system.encode = .object (filled system.slots) :=
  ofFields_slots system.slots

@[simp]
theorem isPlain_encode (system : OperatingSystem) : system.encode.IsPlain 2 := by
  rw [encode_eq]
  exact isPlain_filled (by simp [slots])

theorem decode_encode (isForm : IsForm form) (system : OperatingSystem) :
    decode (form system.encode).draft = .ok system := by
  rw [encode_eq]
  refine isForm.decode_record rfl (by decide) fun members holds => ?_
  have name := holds.required shape 0 rfl (isForm.decode_text system.name)
  have minimumVersion := holds.optional shape 1 rfl
    (fun version _ => version.decode_encode isForm) Decoder.record_null
  exact (name.map OperatingSystem.mk).seq minimumVersion

end OperatingSystem

namespace Platform

/-- The slots of a platform. -/
def slots (platform : Platform) : Slots :=
  [("architecture", platform.architecture.map .text), ("vendor", platform.vendor.map .text),
    ("operatingSystem", platform.operatingSystem.map OperatingSystem.encode),
    ("environment", platform.environment.map .text)]

theorem encode_eq (platform : Platform) : platform.encode = .object (filled platform.slots) :=
  ofFields_slots platform.slots

@[simp]
theorem isPlain_encode (platform : Platform) : platform.encode.IsPlain 3 := by
  rw [encode_eq]
  exact isPlain_filled (by simp [slots])

theorem decode_encode (isForm : IsForm form) (platform : Platform) :
    decode (form platform.encode).draft = .ok platform := by
  rw [encode_eq]
  refine isForm.decode_record rfl (by decide) fun members holds => ?_
  have architecture := holds.optional shape 0 rfl (fun text _ => isForm.decode_text text)
    Decoder.text_null
  have vendor := holds.optional shape 1 rfl (fun text _ => isForm.decode_text text)
    Decoder.text_null
  have operatingSystem := holds.optional shape 2 rfl
    (fun system _ => system.decode_encode isForm) Decoder.record_null
  have environment := holds.optional shape 3 rfl (fun text _ => isForm.decode_text text)
    Decoder.text_null
  exact (((architecture.map Platform.mk).seq vendor).seq operatingSystem).seq environment

end Platform

namespace Module

/-- The slots of a module. -/
def slots (module : Module) : Slots :=
  [("name", some (.text module.name)), ("platform", some module.platform.encode),
    ("bystanders", module.bystanders.map Json.ofTexts), ("isVirtual", flagValue module.isVirtual)]

theorem encode_eq (module : Module) : module.encode = .object (filled module.slots) := by
  rw [encode, flag_eq]
  exact ofFields_slots module.slots

theorem isPlain_encode (module : Module) : module.encode.IsPlain 4 := by
  rw [encode_eq]
  exact isPlain_filled (by simp [slots])

theorem decode_encode (isForm : IsForm form) (module : Module) :
    decode (form module.encode).draft = .ok module := by
  rw [encode_eq]
  refine isForm.decode_record rfl (by decide) fun members holds => ?_
  have name := holds.required shape 0 rfl (isForm.decode_text module.name)
  have platform := holds.withDefault shape 1 rfl {} (module.platform.decode_encode isForm)
  have bystanders := holds.optional shape 2 rfl
    (fun names _ => isForm.decode_list fun text _ => isForm.decode_text text) Decoder.list_null
  have isVirtual := holds.flag shape isForm 3 rfl
  exact (((name.map Module.mk).seq platform).seq bystanders).seq isVirtual

end Module

namespace Metadata

/-- The slots of a tool. -/
def slots (metadata : Metadata) : Slots :=
  [("formatVersion", some metadata.formatVersion.encode),
    ("generator", some (.text metadata.generator))]

theorem encode_eq (metadata : Metadata) : metadata.encode = .object (filled metadata.slots) :=
  rfl

theorem isPlain_encode (metadata : Metadata) : metadata.encode.IsPlain 2 := by
  rw [encode_eq]
  exact isPlain_filled (by simp [slots])

theorem decode_encode (isForm : IsForm form) (metadata : Metadata) :
    decode (form metadata.encode).draft = .ok metadata := by
  rw [encode_eq]
  refine isForm.decode_record rfl (by decide) fun members holds => ?_
  have formatVersion := holds.required shape 0 rfl (metadata.formatVersion.decode_encode isForm)
  have generator := holds.required shape 1 rfl (isForm.decode_text metadata.generator)
  exact (formatVersion.map Metadata.mk).seq generator

end Metadata

end ApiAtlas
