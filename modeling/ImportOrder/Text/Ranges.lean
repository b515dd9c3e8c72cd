/-!
Sets of characters written as ranges of code points, ends included.
-/

namespace ImportOrder.Text

def covers (ranges : List (Nat × Nat)) (c : Char) : Bool :=
  ranges.any fun (lo, hi) => lo ≤ c.toNat && c.toNat ≤ hi

end ImportOrder.Text
