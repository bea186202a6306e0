/-!
Lists of numbers in a message: `[1, 2, 3]`, and `[]` for none.
-/

namespace TapeMachine.Text

/-- The items between brackets, a comma and a blank after each but the last. -/
def listing (items : List String) : String :=
  String.ofList ('[' :: (List.intercalate [',', ' '] (items.map String.toList) ++ [']']))

def natListing (numbers : List Nat) : String :=
  listing (numbers.map Nat.repr)

def intListing (numbers : List Int) : String :=
  listing (numbers.map Int.repr)

end TapeMachine.Text
