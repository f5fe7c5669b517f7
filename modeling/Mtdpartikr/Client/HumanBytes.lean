import Mtdpartikr.Client.ConfigFile

/-!
# Sizes for the reader

`humanBytes` of `user/mtdpartctl/main.go`, which `main` prints the sizes of a device with.  The
text is kept as the values that are formatted into it; `%.1f` of a quotient of floats is left to
the reader.
-/

namespace Mtdpartikr.Client

/-- A run-time panic of the Go program. -/
inductive GoPanic where
  | indexOutOfRange (index length : ℕ)
  deriving DecidableEq

/-- What `humanBytes` formats. -/
inductive HumanBytes where
  /-- `"%d B"`. -/
  | bytes (n : UInt64)
  /-- `"%.1f %ciB"` of `float64(n)/float64(div)` and the suffix. -/
  | scaled (n div : UInt64) (suffix : UInt8)
  deriving DecidableEq

namespace HumanBytes

/-- `const unit = 1024`. -/
def unit : UInt64 := 1024

/-- The suffixes the loop indexes. -/
def suffixes : GoString := ascii "KMGT"

/-- The loop: the final `div` and `exp`. -/
def loop (n div : UInt64) (exp : ℕ) : UInt64 × ℕ :=
  if div * unit ≤ n ∧ exp < 4 then loop n (div * unit) (exp + 1) else (div, exp)
termination_by 4 - exp

end HumanBytes

def humanBytes (n : UInt64) : Except GoPanic HumanBytes :=
  if n < HumanBytes.unit then pure (.bytes n)
  else
    let (div, exp) := HumanBytes.loop n HumanBytes.unit 0
    match HumanBytes.suffixes[exp]? with
    | some suffix => pure (.scaled n div suffix)
    | none => throw (.indexOutOfRange exp HumanBytes.suffixes.length)

end Mtdpartikr.Client
