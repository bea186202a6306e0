import TapeMachine.Text.Numeral
import TapeMachine.Yaml.Marked

/-!
Tags as they are written: a handle that abbreviates a namespace, and a suffix. In a suffix a percent
sign and two digits stand for an octet; such octets must form whole characters.
-/

namespace TapeMachine.Yaml

/-- A tag as written. With an empty handle the suffix is the whole tag. -/
structure Tag where
  handle : List Char
  suffix : List Char
  deriving DecidableEq

namespace Tag

/-- Characters of a suffix. Within angle brackets some indicators are allowed too. -/
def isSuffixChar (verbatim : Bool) (c : Char) : Bool :=
  isNameChar c
    || [';', '/', '?', ':', '@', '&', '=', '+', '$', '.', '!', '~', '*', '\'', '(', ')'].contains c
    || (verbatim && [',', '[', ']'].contains c)

/-- How many octets a character has whose first octet is given. -/
def octets? (first : Nat) : Option Nat :=
  if first < 0x80 then some 1
  else if first < 0xC0 then none
  else if first < 0xE0 then some 2
  else if first < 0xF0 then some 3
  else if first < 0xF8 then some 4
  else none

/-- Reads suffix characters, with those so far, the latest first. `owed` counts the octets still
missing from the last character. An octet is kept as the character with its number. -/
def suffixFrom (verbatim : Bool) : Nat → List Char → Marked → Option (List Char × Marked)
  | owed, read, .char '%' _ (.char a _ (.char b _ rest)) =>
      match hexPair? a b, owed with
      | none, _ => none
      | some octet, 0 =>
          match octets? octet with
          | none => none
          | some n => suffixFrom verbatim (n - 1) (Char.ofNat octet :: read) rest
      | some octet, owed + 1 =>
          if 0x80 ≤ octet ∧ octet < 0xC0 then
            suffixFrom verbatim owed (Char.ofNat octet :: read) rest
          else none
  | owed, read, .char c p rest =>
      if owed ≠ 0 || c = '%' then none
      else if isSuffixChar verbatim c then suffixFrom verbatim 0 (c :: read) rest
      else some (read.reverse, .char c p rest)
  | owed, read, .done p => if owed = 0 then some (read.reverse, .done p) else none
where
  hexPair? (a b : Char) : Option Nat := do
    return 16 * (← Text.hexValue? a) + (← Text.hexValue? b)

/-- Reads a suffix of at least one character, of which some may be known already. -/
def suffix? (verbatim : Bool) (known : List Char) (t : Marked) : Option (List Char × Marked) := do
  let (read, t) ← suffixFrom verbatim 0 known.reverse t
  if read.isEmpty then none else some (read, t)

/-- Reads a handle: an exclamation mark, and a name closed by another if there is one. -/
def handle? : Marked → Option (List Char × Marked)
  | .char '!' _ rest =>
      let (name, rest) := rest.span isNameChar
      match rest with
      | .char '!' _ rest => some ('!' :: (name ++ ['!']), rest)
      | rest => some ('!' :: name, rest)
  | _ => none

/-- Reads a tag in angle brackets, from the opening one. -/
def verbatim? (t : Marked) : Option (Tag × Marked) := do
  let (suffix, t) ← suffix? true [] t
  match t with
  | .char '>' _ rest => some (⟨[], suffix⟩, rest)
  | _ => none

/-- Reads a tag that starts with a handle. A name that no second mark closes belongs to the suffix,
and the handle is then a single mark; a lone mark is a whole tag. -/
def shorthand? (t : Marked) : Option (Tag × Marked) := do
  let (handle, t) ← handle? t
  if 1 < handle.length && handle.getLast? = some '!' then
    let (suffix, t) ← suffix? false [] t
    some (⟨handle, suffix⟩, t)
  else
    let (suffix, t) ← suffixFrom false 0 handle.tail.reverse t
    if suffix.isEmpty then some (⟨[], ['!']⟩, t) else some (⟨['!'], suffix⟩, t)

/-- Reads a tag. Space must follow, or a comma inside brackets. -/
def read (inFlow : Bool) (t : Marked) : Option (Tag × Marked) := do
  let (tag, t) ←
    match t with
    | .char '!' _ (.char '<' _ rest) => verbatim? rest
    | t => shorthand? t
  if t.atSpace || (inFlow && t.startsWith (· = ',')) then some (tag, t) else none

end Tag

end TapeMachine.Yaml
