import TapeMachine.Text.CodePoint
import TapeMachine.Text.Numeral
import TapeMachine.Yaml.Gap

/-!
Scalars between quotes. Between single quotes a quote is written twice and nothing else is special;
between double quotes a backslash starts an escape, which may also take away a line break.
-/

namespace TapeMachine.Yaml.Quote

/-- The character that a one-letter escape stands for. -/
def escaped? : Char → Option Char
  | '0' => some '\x00'
  | 'a' => some '\x07'
  | 'b' => some '\x08'
  | 't' => some '\t'
  | '\t' => some '\t'
  | 'n' => some '\n'
  | 'v' => some '\x0b'
  | 'f' => some '\x0c'
  | 'r' => some '\r'
  | 'e' => some '\x1b'
  | ' ' => some ' '
  | '"' => some '"'
  | '/' => some '/'
  | '\\' => some '\\'
  | 'N' => some '\u0085'
  | '_' => some '\u00a0'
  | 'L' => some '\u2028'
  | 'P' => some '\u2029'
  | _ => none

/-- How many hexadecimal digits follow the letter of an escape that names a code point. -/
def codeDigits? : Char → Option Nat
  | 'x' => some 2
  | 'u' => some 4
  | 'U' => some 8
  | _ => none

/-- Where a reader stands between double quotes. -/
inductive Mode where
  | text
  | escape
  /-- In the digits of a code point: how many are left, and the value so far. -/
  | code (left value : Nat)

/-- Reads to the closing double quote, with the characters so far (the latest first) and the gap
since them. -/
def double : List Char → Gap → Mode → Marked → Option (List Char × Marked)
  | _, _, _, .done _ => none
  | text, gap, .text, .char c p rest =>
      if isBlank c || isBreak c then double text (gap.extend c) .text rest
      else if (Marked.char c p rest).atDocumentMarker then none
      else
        let text := gap.fold.reverse ++ text
        if c = '"' then some (text.reverse, rest)
        else if c = '\\' then double text .absent .escape rest
        else double (c :: text) .absent .text rest
  | text, gap, .escape, .char c _ rest =>
      if isBreak c then double text (.breaks none []) .text rest
      else
        match escaped? c, codeDigits? c with
        | some e, _ => double (e :: text) gap .text rest
        | none, some left => double text gap (.code left 0) rest
        | none, none => none
  | text, gap, .code left value, .char c _ rest =>
      match Text.hexValue? c with
      | none => none
      | some digit =>
          let value := 16 * value + digit
          if 1 < left then double text gap (.code (left - 1) value) rest
          else
            match Text.charOfCode? value with
            | none => none
            | some e => double (e :: text) gap .text rest

/-- Reads to the closing single quote, with the characters so far (the latest first) and the gap
since them. -/
def single : List Char → Gap → Marked → Option (List Char × Marked)
  | _, _, .done _ => none
  | text, gap, .char '\'' _ (.char '\'' _ rest) =>
      single ('\'' :: (gap.fold.reverse ++ text)) .absent rest
  | text, gap, .char c p rest =>
      if isBlank c || isBreak c then single text (gap.extend c) rest
      else if (Marked.char c p rest).atDocumentMarker then none
      else if c = '\'' then some ((gap.fold.reverse ++ text).reverse, rest)
      else single (c :: (gap.fold.reverse ++ text)) .absent rest

end TapeMachine.Yaml.Quote
