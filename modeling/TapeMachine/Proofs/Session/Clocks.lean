import TapeMachine.Proofs.Budget

/-!
Clocks that show the same. A stepping clock may count nanoseconds, or keep whole seconds and the
nanoseconds beside them: then a sum carries a second over when its nanoseconds fill one, and stops
at the greatest span when its seconds can no longer be counted. Both show the same on every reading,
for the sums with their carries come to one product that is held at the greatest span. A clock may
also be watched, so that it is known how often it was read and what it showed; that changes nothing
in what it shows.
-/

namespace TapeMachine

/-! ### Spans in two parts -/

namespace Duration

/-- No count of milliseconds in 64 bits passes the greatest span. -/
theorem nanoseconds_ofMilliseconds (milliseconds : UInt64) :
    (ofMilliseconds milliseconds.toNat).nanoseconds = milliseconds.toNat * 1000000 := by
  have hlt : milliseconds.toNat < 18446744073709551616 := milliseconds.toNat_lt
  simp only [ofMilliseconds, nanoseconds_ofNanoseconds, greatest]
  omega

/-- A span as whole seconds, which 64 bits hold, and the nanoseconds beyond them. -/
structure Parts where
  seconds : UInt64
  nanoseconds : Nat
  /-- The nanoseconds do not fill another second. -/
  lt_second : nanoseconds < 1000000000

namespace Parts

def zero : Parts where
  seconds := 0
  nanoseconds := 0
  lt_second := by decide

def greatest : Parts where
  seconds := 18446744073709551615
  nanoseconds := 999999999
  lt_second := by decide

/-- The sum of both parts, with a second carried over if the nanoseconds fill one, or the greatest
span if that is more seconds than can be counted. -/
def add (a b : Parts) : Parts :=
  let nanoseconds := a.nanoseconds + b.nanoseconds
  let seconds := a.seconds.toNat + b.seconds.toNat + nanoseconds / 1000000000
  if seconds < UInt64.size then
    { seconds := .ofNat seconds
      nanoseconds := nanoseconds % 1000000000
      lt_second := Nat.mod_lt _ (by decide) }
  else greatest

instance : Add Parts := ⟨add⟩

def span (p : Parts) : Duration :=
  .ofParts p.seconds.toNat p.nanoseconds

/-- No span in two parts is too great. -/
@[simp] theorem nanoseconds_span (p : Parts) :
    p.span.nanoseconds = p.seconds.toNat * 1000000000 + p.nanoseconds := by
  have hseconds : p.seconds.toNat < 18446744073709551616 := p.seconds.toNat_lt
  have hrest := p.lt_second
  simp only [span, ofParts, nanoseconds_ofNanoseconds, Duration.greatest]
  omega

theorem nanoseconds_span_greatest : greatest.span.nanoseconds = Duration.greatest := by
  decide

theorem nanoseconds_span_add {a b : Parts}
    (h : a.seconds.toNat + b.seconds.toNat + (a.nanoseconds + b.nanoseconds) / 1000000000 <
      UInt64.size) :
    (a + b).span.nanoseconds = a.span.nanoseconds + b.span.nanoseconds := by
  have hadd : a + b = {
      seconds := .ofNat (a.seconds.toNat + b.seconds.toNat +
        (a.nanoseconds + b.nanoseconds) / 1000000000)
      nanoseconds := (a.nanoseconds + b.nanoseconds) % 1000000000
      lt_second := Nat.mod_lt _ (by decide) } := if_pos h
  rw [hadd]
  simp only [nanoseconds_span, UInt64.toNat_ofNat_of_lt' h]
  omega

/-- Adding with carries is adding. -/
theorem span_add (a b : Parts) : (a + b).span = a.span + b.span := by
  apply Duration.ext
  rw [nanoseconds_add]
  by_cases h : a.seconds.toNat + b.seconds.toNat +
      (a.nanoseconds + b.nanoseconds) / 1000000000 < UInt64.size
  · rw [nanoseconds_span_add h, Nat.min_eq_left]
    rw [← nanoseconds_span_add h]
    exact (a + b).span.le_greatest
  · -- Too many seconds are too many nanoseconds.
    have hadd : a + b = greatest := if_neg h
    rw [hadd, nanoseconds_span_greatest, nanoseconds_span, nanoseconds_span, Nat.min_eq_right]
    simp only [UInt64.size, Duration.greatest] at h ⊢
    omega

end Parts

end Duration

/-! ### What a clock shows -/

namespace Clock

variable {σ τ : Type} [Clock σ] [Clock τ] {clock : σ} {clock' : τ}

/-- What a clock shows on a reading, when it is read as often before as the number says. -/
def reading (clock : σ) (n : Nat) : Duration :=
  (read (after clock n)).1

/-- A clock that never goes back. -/
def Advances (clock : σ) : Prop :=
  ∀ i j, i ≤ j → reading clock i ≤ reading clock j

theorem read_congr (h : ∀ n, readings clock' n = readings clock n) :
    (read clock').1 = (read clock).1 ∧
      ∀ n, readings (read clock').2 n = readings (read clock).2 n := by
  refine ⟨read_after_congr h 0, fun n => ?_⟩
  have hboth := h (n + 1)
  simp only [readings, List.cons.injEq] at hboth
  exact hboth.2

end Clock

namespace SteppingClock

theorem reading_new (step : Duration) (n : Nat) :
    Clock.reading (new step) n = .ofNanoseconds (n * step.nanoseconds) := by
  rw [Clock.reading, after_new]
  rfl

theorem advances_new (step : Duration) : Clock.Advances (new step) := by
  intro i j hij
  have hproduct : i * step.nanoseconds ≤ j * step.nanoseconds := Nat.mul_le_mul_right _ hij
  rw [reading_new, reading_new, Duration.le_iff, Duration.nanoseconds_ofNanoseconds,
    Duration.nanoseconds_ofNanoseconds]
  omega

end SteppingClock

/-- A stepping clock that keeps its time in two parts. -/
structure PartedClock where
  step : Duration.Parts
  now : Duration.Parts

namespace PartedClock

def new (step : Duration.Parts) : PartedClock where
  step := step
  now := .zero

instance : Clock PartedClock where
  read clock := (clock.now.span, { clock with now := clock.now + clock.step })

theorem readings_eq (step now : Duration.Parts) (n : Nat) :
    Clock.readings (⟨step, now⟩ : PartedClock) n =
      Clock.readings (⟨step.span, now.span⟩ : SteppingClock) n := by
  induction n generalizing now with
  | zero => rfl
  | succ n ih =>
      have hrest := ih (now + step)
      rw [Duration.Parts.span_add] at hrest
      exact congrArg (now.span :: ·) hrest

theorem readings_new (step : Duration.Parts) (n : Nat) :
    Clock.readings (new step) n = Clock.readings (SteppingClock.new step.span) n :=
  readings_eq step .zero n

end PartedClock

/-- A clock that is watched: what it has shown is kept, the latest reading last. -/
structure WatchedClock (σ : Type) where
  clock : σ
  shown : List Duration

namespace WatchedClock

variable {σ : Type} [Clock σ]

def new (clock : σ) : WatchedClock σ where
  clock := clock
  shown := []

instance : Clock (WatchedClock σ) where
  read watched :=
    let (now, clock) := Clock.read watched.clock
    (now, { clock := clock, shown := watched.shown ++ [now] })

theorem readings_eq (watched : WatchedClock σ) (n : Nat) :
    Clock.readings watched n = Clock.readings watched.clock n := by
  induction n generalizing watched with
  | zero => rfl
  | succ n ih => exact congrArg ((Clock.read watched.clock).1 :: ·) (ih (Clock.read watched).2)

theorem shown_after (watched : WatchedClock σ) (n : Nat) :
    (Clock.after watched n).shown = watched.shown ++ Clock.readings watched.clock n := by
  induction n generalizing watched with
  | zero => simp [Clock.after, Clock.readings]
  | succ n ih =>
      rw [Clock.after, ih]
      exact List.append_assoc ..

end WatchedClock

end TapeMachine
