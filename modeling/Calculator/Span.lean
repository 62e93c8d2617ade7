/-!
# Spans

Stretches of a source text, by character offsets.
-/

namespace Calculator

/-- A stretch of a text: the offset of its first character and the offset past its last. -/
structure Span where
  start : Nat
  stop : Nat
  deriving DecidableEq

namespace Span

/-- The span of the one character at an offset. -/
def single (offset : Nat) : Span :=
  ⟨offset, offset + 1⟩

/-- Whether an offset lies in a span. -/
def holds (span : Span) (offset : Nat) : Bool :=
  span.start ≤ offset && offset < span.stop

/-- The part of a span that lies in a text of `length` characters. -/
def clamp (span : Span) (length : Nat) : Span :=
  let stop := min span.stop length
  ⟨min span.start stop, stop⟩

end Span

end Calculator
