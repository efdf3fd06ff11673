/-!
# Powers and word sizes

Powers of two and of ten, and the whole numbers that fit into a word of so many bits.
-/
namespace PreviewControl

abbrev pow2 (n : Nat) : Nat := Nat.pow 2 n

abbrev pow10 (n : Nat) : Nat := Nat.pow 10 n

abbrev FitsUnsigned (bits : Nat) (n : Int) : Prop := 0 ≤ n ∧ n < pow2 bits

abbrev FitsSigned (bits : Nat) (n : Int) : Prop :=
  -(pow2 (bits - 1) : Int) ≤ n ∧ n < pow2 (bits - 1)

end PreviewControl
