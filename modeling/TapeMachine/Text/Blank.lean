/-!
White space between the words of a chat message, and the words themselves.
-/

namespace TapeMachine.Text

/-- The characters with the property White_Space, which is more than the blanks of ASCII. -/
def isBlank (c : Char) : Bool :=
  let n := c.toNat
  (9 ≤ n && n ≤ 13) || n == 0x20 || n == 0x85 || n == 0xA0 || n == 0x1680
    || (0x2000 ≤ n && n ≤ 0x200A) || n == 0x2028 || n == 0x2029 || n == 0x202F || n == 0x205F
    || n == 0x3000

/-- The first run of characters that are not blank, if there is one. -/
def firstWord? (text : String) : Option String :=
  match (text.toList.dropWhile isBlank).takeWhile (fun c => !isBlank c) with
  | [] => none
  | word => some (String.ofList word)

end TapeMachine.Text
