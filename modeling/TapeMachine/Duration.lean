/-!
Spans of time in whole nanoseconds. There is a greatest span, and sums that would pass it stop
there.
-/

namespace TapeMachine

/-- The greatest span: all the seconds that 64 bits count, and just less than one more. -/
def Duration.greatest : Nat := 18446744073709551615999999999

structure Duration where
  nanoseconds : Nat
  le_greatest : nanoseconds ≤ Duration.greatest

namespace Duration

instance : DecidableEq Duration := fun a b =>
  if h : a.nanoseconds = b.nanoseconds then
    .isTrue (by cases a; cases b; cases h; rfl)
  else
    .isFalse (fun e => h (e ▸ rfl))

@[ext] theorem ext {a b : Duration} (h : a.nanoseconds = b.nanoseconds) : a = b := by
  cases a; cases b; cases h; rfl

/-- The span of so many nanoseconds, or the greatest one if they are more. -/
def ofNanoseconds (n : Nat) : Duration where
  nanoseconds := min n greatest
  le_greatest := Nat.min_le_right ..

def zero : Duration :=
  ofNanoseconds 0

def ofMilliseconds (n : Nat) : Duration :=
  ofNanoseconds (n * 1000000)

def ofParts (seconds nanoseconds : Nat) : Duration :=
  ofNanoseconds (seconds * 1000000000 + nanoseconds)

/-- The sum, or the greatest span if the sum is more. -/
def add (a b : Duration) : Duration :=
  ofNanoseconds (a.nanoseconds + b.nanoseconds)

/-- The difference, or zero if the second span is the longer one. -/
def sub (a b : Duration) : Duration where
  nanoseconds := a.nanoseconds - b.nanoseconds
  le_greatest := Nat.le_trans (Nat.sub_le ..) a.le_greatest

instance : Add Duration := ⟨add⟩
instance : Sub Duration := ⟨sub⟩
instance : LE Duration := ⟨fun a b => a.nanoseconds ≤ b.nanoseconds⟩

instance (a b : Duration) : Decidable (a ≤ b) :=
  inferInstanceAs (Decidable (a.nanoseconds ≤ b.nanoseconds))

@[simp] theorem nanoseconds_ofNanoseconds (n : Nat) :
    (ofNanoseconds n).nanoseconds = min n greatest := rfl

@[simp] theorem nanoseconds_add (a b : Duration) :
    (a + b).nanoseconds = min (a.nanoseconds + b.nanoseconds) greatest := rfl

@[simp] theorem nanoseconds_sub (a b : Duration) :
    (a - b).nanoseconds = a.nanoseconds - b.nanoseconds := rfl

theorem le_iff {a b : Duration} : a ≤ b ↔ a.nanoseconds ≤ b.nanoseconds := Iff.rfl

/-- The digits after the point, without trailing zeros and with the point if any are left. -/
def fractionText (digits value : Nat) : String :=
  let padded := value.repr.toList.leftpad digits '0'
  match (padded.reverse.dropWhile (· == '0')).reverse with
  | [] => ""
  | kept => String.ofList ('.' :: kept)

/-- A span in the largest of seconds, milliseconds, microseconds and nanoseconds that it fills,
with as many places as it needs. -/
def render (d : Duration) : String :=
  let n := d.nanoseconds
  if 1000000000 ≤ n then
    (n / 1000000000).repr ++ fractionText 9 (n % 1000000000) ++ "s"
  else if 1000000 ≤ n then
    (n / 1000000).repr ++ fractionText 6 (n % 1000000) ++ "ms"
  else if 1000 ≤ n then
    (n / 1000).repr ++ fractionText 3 (n % 1000) ++ "µs"
  else
    n.repr ++ "ns"

end Duration

end TapeMachine
