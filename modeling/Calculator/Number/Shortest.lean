import Calculator.Number.Decimal

/-!
# The shortest decimal of a value

Among the decimals that read back as a given magnitude, `Magnitude.shortest` takes one with the fewest digits, and of
those the nearest; of two equally near ones it takes the larger.  It cuts digits off the exact decimal expansion, as
many as possible first, and tries the two neighbours of the value on the grid that remains.  Whatever it finds reads
back as the magnitude (`Magnitude.nearest?_shortest`).

`plainText` and `detailedText` write any value, also one that is no number.
-/

namespace Calculator

namespace Decimal

/-- The two decimals around `d` that lack its last `count` digits, the nearer one first. -/
def neighbours (d : Decimal) (count : Nat) : List Decimal :=
  let step := Nat.pow 10 count
  let below : Decimal := ⟨d.coefficient / step, d.exponent + count⟩
  let above : Decimal := ⟨d.coefficient / step + 1, d.exponent + count⟩
  if 2 * (d.coefficient % step) < step then [below, above] else [above, below]

end Decimal

namespace Magnitude

/-- The exact decimal expansion: a unit is `2 ^ (-1074) = 5 ^ 1074 * 10 ^ (-1074)`. -/
def exact (m : Magnitude) : Decimal :=
  ⟨units m.ordinal * Nat.pow 5 unitPlaces, -unitPlaces⟩

/-- The first of the decimals around `d` with `count` digits fewer that reads back as `m`. -/
def shortened? (m : Magnitude) (d : Decimal) (count : Nat) : Option Decimal :=
  (d.neighbours count).find? fun e => e.nearest? == some m

/-- The shortest decimal that reads back as `m`. -/
def shortest (m : Magnitude) : Decimal :=
  if m.ordinal = 0 then ⟨0, 0⟩
  else ((List.range (m.exact.digits.length + 1)).reverse.findSome? (m.shortened? m.exact)).getD m.exact

private theorem nearestOrdinal_scaled (n k : Nat) :
    nearestOrdinal ((units n * Nat.pow 5 k * Nat.pow 10 0) <<< k) (Nat.pow 10 k) = n := by
  have h : (units n * Nat.pow 5 k * Nat.pow 10 0) <<< k = units n * Nat.pow 10 k := by
    simp only [Nat.pow_eq, Nat.shiftLeft_eq, Nat.pow_zero, Nat.mul_one, Nat.mul_assoc, ← Nat.mul_pow]
  rw [h]
  exact nearestOrdinal_units n (Nat.pow_pos (by decide))

/-- The exact decimal reads back. -/
theorem nearest?_exact (m : Magnitude) : m.exact.nearest? = some m := by
  have hpos : (-(unitPlaces : Int)).toNat = 0 := by omega
  have hneg : (-(-(unitPlaces : Int))).toNat = unitPlaces := by omega
  simp only [exact, Decimal.nearest?, nearest?, hpos, hneg, nearestOrdinal_scaled, m.ordinal_lt, ↓reduceDIte]

/-- The shortest decimal reads back. -/
theorem nearest?_shortest (m : Magnitude) : m.shortest.nearest? = some m := by
  unfold shortest
  split
  · rename_i h
    obtain ⟨n, hn⟩ := m
    obtain rfl : n = 0 := h
    rfl
  · cases h : (List.range (m.exact.digits.length + 1)).reverse.findSome? (m.shortened? m.exact) with
    | none => exact nearest?_exact m
    | some d =>
      obtain ⟨count, -, hd⟩ := List.exists_of_findSome?_eq_some h
      simpa using List.find?_some hd

end Magnitude

/-- The text of a value, whose shortest decimal is written by `write`; a minus sign stands for the sign bit. -/
def valueText (write : Decimal → List Char) (x : Float) : String :=
  match Magnitude.ofFloat? x with
  | some m => String.ofList (if isNegative x then '-' :: write m.shortest else write m.shortest)
  | none => if x.isNaN then "NaN" else if isNegative x then "-inf" else "inf"

/-- The text of a value without an exponent. -/
def plainText : Float → String :=
  valueText Decimal.plain

/-- The text of a value with a point or an exponent. -/
def detailedText : Float → String :=
  valueText Decimal.detailed

end Calculator
