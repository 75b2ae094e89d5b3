/-!
# Durations

Time is counted in whole milliseconds.

* `Duration` — a number of milliseconds;
* `Duration.render` — the number in the largest of the units `s`, `ms` and `ns` that it reaches,
  without trailing zeros behind the point: `1.05s`, `999ms`, `0ns`.
-/

namespace CommandBridge

/-- A length of time in milliseconds. -/
structure Duration where
  millis : Nat
  deriving DecidableEq, Repr

namespace Duration

/-- The thousandths `n < 1000` behind a decimal point, without trailing zeros; nothing for `0`. -/
def renderThousandths (n : Nat) : String :=
  if n = 0 then ""
  else if n % 100 = 0 then s!".{n / 100}"
  else if n % 10 = 0 then
    if n < 100 then s!".0{n / 10}" else s!".{n / 10}"
  else if n < 10 then s!".00{n}"
  else if n < 100 then s!".0{n}"
  else s!".{n}"

/-- The duration in the largest unit that it reaches. -/
def render (d : Duration) : String :=
  if 1000 ≤ d.millis then s!"{d.millis / 1000}{renderThousandths (d.millis % 1000)}s"
  else if 0 < d.millis then s!"{d.millis}ms"
  else "0ns"

/-- A duration that may be absent, as reports show it. -/
def listingOption : Option Duration → String
  | some d => s!"Some({d.render})"
  | none => "None"

example : render ⟨1050⟩ = "1.05s" := by decide
example : render ⟨86400001⟩ = "86400.001s" := by decide
example : render ⟨20000⟩ = "20s" := by decide
example : render ⟨999⟩ = "999ms" := by decide
example : render ⟨0⟩ = "0ns" := by decide

end Duration

end CommandBridge
