import TapeMachine.Limits
import TapeMachine.Text.Quoted
import TapeMachine.Yaml.Scalar

/-!
Why a config cannot be had: its file cannot be read, its text is not the document of a config, or
its values are out of range.
-/

namespace TapeMachine

inductive ConfigField where
  | timeout
  | maxLoopDepth
  | maxOutput
  deriving DecidableEq

namespace ConfigField

def name : ConfigField → String
  | timeout => "timeout"
  | maxLoopDepth => "max_loop_depth"
  | maxOutput => "max_output"

def all : List ConfigField :=
  [timeout, maxLoopDepth, maxOutput]

def ofName? (name : List Char) : Option ConfigField :=
  all.find? (·.name.toList = name)

def expected : ConfigField → String
  | timeout => "u64"
  | maxLoopDepth => "usize"
  | maxOutput => "usize"

@[simp] theorem ofName?_name (field : ConfigField) : ofName? field.name.toList = some field := by
  cases field <;> decide

end ConfigField

inductive Found where
  | value (value : Yaml.ScalarValue)
  | sequence
  | mapping
  deriving DecidableEq

namespace Found

/-- A whole number, with its width if 64 bits do not hold it. One with a minus may use one bit
less. -/
def integerText (minus : Bool) (n : Int) : String :=
  let number := "integer `" ++ n.repr ++ "`"
  if minus then
    if UInt64.size < 2 * n.natAbs then number ++ " as i128" else number
  else
    if UInt64.size ≤ n.natAbs then number ++ " as u128" else number

def text : Found → String
  | value .null => "unit value"
  | value (.bool true) => "boolean `true`"
  | value (.bool false) => "boolean `false`"
  | value (.integer minus n) => integerText minus n
  | value (.float x) => "floating point `" ++ x.render ++ "`"
  | value (.text chars) => "string " ++ Text.quoted (String.ofList chars)
  | sequence => "sequence"
  | mapping => "map"

end Found

/-- What is wrong with a single key or value. -/
inductive Mismatch where
  | unexpected (found : Found) (expected : String)
  /-- A tag that promises one kind of value on the text of another. -/
  | untrueTag (error : Yaml.ScalarError) (text : List Char)
  deriving DecidableEq

namespace Mismatch

def scalarErrorText : Yaml.ScalarError → String
  | .notBoolean => "a boolean"
  | .notInteger => "an integer"
  | .notFloat => "a float"
  | .notNull => "null"

def message : Mismatch → String
  | unexpected found expected => "invalid type: " ++ found.text ++ ", expected " ++ expected
  | untrueTag e text =>
      "invalid value: string " ++ Text.quoted (String.ofList text)
        ++ ", expected " ++ scalarErrorText e

end Mismatch

/-- Why a text is not the document of a config. -/
inductive DecodeError where
  | malformed
  | notMapping (mismatch : Mismatch) (position : Yaml.Position)
  | notName (mismatch : Mismatch) (position : Yaml.Position)
  | unknownField (name : List Char) (position : Yaml.Position)
  | duplicateField (field : ConfigField) (position : Yaml.Position)
  | missingTimeout (position : Yaml.Position)
  /-- The value of a setting is of the wrong kind. The setting is not named if its name was
  mentioned by an alias. -/
  | wrongValue (field : Option ConfigField) (mismatch : Mismatch) (position : Yaml.Position)
  /-- A value is tagged as nothing and is something; the mapping is to blame. -/
  | notNull (mismatch : Mismatch) (position : Yaml.Position)
  deriving DecidableEq

namespace DecodeError

def fieldNames : String :=
  ", ".intercalate (ConfigField.all.map fun field => "`" ++ field.name ++ "`")

def message : DecodeError → String
  | malformed => "not a single well-formed document"
  | notMapping mismatch position => mismatch.message ++ position.clause
  | notName mismatch position => mismatch.message ++ position.clause
  | unknownField name position =>
      "unknown field `" ++ String.ofList name ++ "`, expected one of " ++ fieldNames
        ++ position.clause
  | duplicateField field position => "duplicate field `" ++ field.name ++ "`" ++ position.clause
  | missingTimeout position =>
      "missing field `" ++ ConfigField.timeout.name ++ "`" ++ position.clause
  | wrongValue field mismatch position =>
      field.elim "?" ConfigField.name ++ ": " ++ mismatch.message ++ position.clause
  | notNull mismatch position => mismatch.message ++ position.clause

end DecodeError

inductive ReadError where
  | notFound
  | isDirectory
  /-- Something on the way to the file is a file itself. -/
  | notDirectory
  | notUtf8
  | other (reason : String)
  deriving DecidableEq

def ReadError.message : ReadError → String
  | notFound => "No such file or directory (os error 2)"
  | isDirectory => "Is a directory (os error 21)"
  | notDirectory => "Not a directory (os error 20)"
  | notUtf8 => "stream did not contain valid UTF-8"
  | other reason => reason

inductive ConfigError where
  | unreadable (path : String) (cause : ReadError)
  | undecodable (cause : DecodeError)
  | outOfRange (cause : LimitError)
  deriving DecidableEq

namespace ConfigError

def message : ConfigError → String
  | unreadable path cause => "Failed to read configuration " ++ path ++ ": " ++ cause.message
  | undecodable cause => "Failed to parse configuration: " ++ cause.message
  | outOfRange cause => cause.message

/-- The error that this one only passes on, if any. -/
def innerMessage? : ConfigError → Option String
  | unreadable _ cause => some cause.message
  | undecodable cause => some cause.message
  | outOfRange _ => none

end ConfigError

end TapeMachine
