import WorldAudit.Number.Read
/-!
# Count — the count nearest to a number

A binary number is brought to the nearest integer, a half going away from zero, and then into the range of counts: what
lies below it becomes zero, what lies above it the greatest count, and no number zero.
-/
namespace WorldAudit
namespace Number

variable {f : Format}

def Binary.nearestCount : Binary f → Nat
  | .finite false units => min ((2 * units + twoTo f.scale) / (2 * twoTo f.scale)) maxCount
  | .infinite false => maxCount
  | .finite true _ | .infinite true | .nan => 0

example : (Binary.ofRatio .single false 5 2).nearestCount = 3 := by decide +kernel
example : (Binary.ofRatio .single true 5 2).nearestCount = 0 := by decide +kernel

end Number
end WorldAudit
