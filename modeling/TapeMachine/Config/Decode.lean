import TapeMachine.Config
import TapeMachine.Config.Error

/-!
From the entries of a document to a config. Entries are taken in order and the first that is wrong
decides: its key must be a name, a known one, and not one that was there before, and only then is
its value looked at. A missing timeout shows at the end, and ranges are checked after that.
-/

namespace TapeMachine

structure PartialConfig where
  timeout : Option UInt64
  maxLoopDepth : Option UInt64
  maxOutput : Option (Option UInt64)
  deriving DecidableEq

namespace PartialConfig

def empty : PartialConfig := ⟨none, none, none⟩

def has (settings : PartialConfig) : ConfigField → Bool
  | .timeout => settings.timeout.isSome
  | .maxLoopDepth => settings.maxLoopDepth.isSome
  | .maxOutput => settings.maxOutput.isSome

end PartialConfig

namespace Config

open Yaml

def mismatch (expected : String) : NodeKind → Mismatch
  | .sequence => .unexpected .sequence expected
  | .mapping => .unexpected .mapping expected
  | .scalar tag style text =>
      match ScalarValue.ofScalar tag style text with
      | .ok value => .unexpected (.value value) expected
      | .error e => .untrueTag e text

/-- The setting that a key names. The text of any scalar is a name. -/
def fieldOf (key : Node) : Except DecodeError ConfigField :=
  match key.kind with
  | .scalar _ _ text =>
      match ConfigField.ofName? text with
      | some field => .ok field
      | none => .error (.unknownField text key.position)
  | kind => .error (.notName (mismatch "field identifier" kind) key.position)

/-- The count that is the value of a setting. -/
def countOf (key value : Node) (field : ConfigField) : Except DecodeError UInt64 :=
  let wrong :=
    .error (.wrongValue (if key.isAlias then none else some field)
      (mismatch field.expected value.kind) value.position)
  match value.kind with
  | .scalar tag style text =>
      match ScalarValue.count? tag style text with
      | some n => .ok n
      | none => wrong
  | _ => wrong

/-- Whether a value says that there is none. Nothing at all says so, and so do the words for it,
without a tag or with the tag of nothing, which allows no other text. `position` is that of the
mapping. -/
def isNothing (position : Position) (value : Node) : Except DecodeError Bool :=
  match value.kind with
  | .scalar tag .plain text =>
      match tag with
      | none => .ok (text.isEmpty || ScalarValue.isNull text)
      | some tag =>
          if tag ≠ ScalarValue.coreTag "null" then .ok false
          else if ScalarValue.isNull text then .ok true
          else .error (.notNull (.untrueTag .notNull text) position)
  | _ => .ok false

def addEntry (position : Position) (settings : PartialConfig) (entry : Node × Node) :
    Except DecodeError PartialConfig := do
  let (key, value) := entry
  let field ← fieldOf key
  if settings.has field then throw (.duplicateField field position)
  match field with
  | .timeout => return { settings with timeout := some (← countOf key value field) }
  | .maxLoopDepth => return { settings with maxLoopDepth := some (← countOf key value field) }
  | .maxOutput =>
      if ← isNothing position value then return { settings with maxOutput := some none }
      else return { settings with maxOutput := some (some (← countOf key value field)) }

/-- The config of all settings given; a timeout must be among them. -/
def ofSettings (position : Position) (settings : PartialConfig) : Except DecodeError Config :=
  match settings.timeout with
  | none => .error (.missingTimeout position)
  | some timeout => .ok {
      timeout := timeout
      maxLoopDepth := settings.maxLoopDepth.getD Limits.defaultLoopDepth.toUInt64
      maxOutput := settings.maxOutput.join }

def ofEntries (position : Position) (entries : List (Node × Node)) : Except DecodeError Config := do
  ofSettings position (← entries.foldlM (addEntry position) .empty)

/-- The config of a document. A document that is left out counts as a mapping without entries. -/
def ofDocument : Document → Except DecodeError Config
  | .mapping position entries => ofEntries position entries
  | .other ⟨.scalar _ .plain [], position, _⟩ => ofEntries position []
  | .other root => .error (.notMapping (mismatch "struct VmConfig" root.kind) root.position)

/-- The config of a text, before its values are checked. -/
def decode (read : Reader) (text : String) : Except DecodeError Config :=
  match read text with
  | some document => ofDocument document
  | none => .error .malformed

def checked (config : Config) : Except ConfigError Config :=
  match config.limitError? with
  | some e => .error (.outOfRange e)
  | none => .ok config

variable {config config' : Config}

theorem checked_eq_ok_iff :
    config'.checked = .ok config ↔ config' = config ∧ config.limitError? = none := by
  unfold checked
  constructor
  · intro h
    split at h <;> cases h
    exact ⟨rfl, ‹_›⟩
  · rintro ⟨rfl, hlimit⟩
    rw [hlimit]

theorem checked_eq_error_iff {error : ConfigError} :
    config.checked = .error error ↔
      ∃ e, error = .outOfRange e ∧ config.limitError? = some e := by
  unfold checked
  cases config.limitError? <;> simp [eq_comm]

/-- The usable config of a text. How a text becomes a document is up to the reader. -/
def ofText (read : Reader) (text : String) : Except ConfigError Config :=
  match decode read text with
  | .ok config => config.checked
  | .error e => .error (.undecodable e)

theorem ofText_eq_ok_iff {read : Reader} {text : String} :
    ofText read text = .ok config ↔
      decode read text = .ok config ∧ config.limitError? = none := by
  unfold ofText
  cases decode read text with
  | error e => simp
  | ok config' => rw [checked_eq_ok_iff, Except.ok.injEq]

theorem ofText_eq_error_iff {read : Reader} {text : String} {error : ConfigError} :
    ofText read text = .error error ↔
      (∃ e, error = .undecodable e ∧ decode read text = .error e) ∨
        ∃ config e, error = .outOfRange e ∧ decode read text = .ok config ∧
          config.limitError? = some e := by
  unfold ofText
  cases decode read text with
  | error e => simp [eq_comm]
  | ok config =>
      simp only [checked_eq_error_iff, Except.ok.injEq, reduceCtorEq, and_false, exists_false,
        false_or]
      constructor
      · rintro ⟨e, herror, hlimit⟩
        exact ⟨config, e, herror, rfl, hlimit⟩
      · rintro ⟨config', e, herror, rfl, hlimit⟩
        exact ⟨e, herror, hlimit⟩

def ofYaml (text : String) : Except ConfigError Config :=
  ofText Document.ofText? text

/-- The usable config of a file, given what reading it gave. -/
def ofFile (path : String) (content : Except ReadError String) : Except ConfigError Config :=
  match content with
  | .ok text => ofYaml text
  | .error e => .error (.unreadable path e)

end Config

end TapeMachine
