/-
  Names for the instances behind numerals.

  A numeral of a type such as ℝ carries the instance that it is at least 2, one of `Fin n` the
  instance that `n` is not 0. Where Mathlib finds such an instance, it is a proof that Lean moves
  into a lemma of the definition with the numeral, a lemma of its own for each module. With a name
  of their own the instances stay in place, and the same numeral is the same term in all modules.
-/
import Mathlib.Algebra.Order.Ring.Nat

namespace Numerals

instance atLeastTwo_two : Nat.AtLeastTwo 2 := inferInstance
instance atLeastTwo_three : Nat.AtLeastTwo 3 := inferInstance
instance atLeastTwo_four : Nat.AtLeastTwo 4 := inferInstance
instance atLeastTwo_five : Nat.AtLeastTwo 5 := inferInstance
instance atLeastTwo_six : Nat.AtLeastTwo 6 := inferInstance
instance atLeastTwo_eight : Nat.AtLeastTwo 8 := inferInstance
instance atLeastTwo_sixty : Nat.AtLeastTwo 60 := inferInstance
instance atLeastTwo_oneEighty : Nat.AtLeastTwo 180 := inferInstance
instance atLeastTwo_thousand : Nat.AtLeastTwo 1000 := inferInstance
instance neZero_three : NeZero 3 := inferInstance
instance neZero_four : NeZero 4 := inferInstance
instance neZero_six : NeZero 6 := inferInstance

end Numerals
