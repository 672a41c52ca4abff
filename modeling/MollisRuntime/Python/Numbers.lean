import Mathlib.Algebra.Order.Ring.Unbundled.Rat
import Mathlib.Data.Prod.Lex
import Mathlib.Tactic.Ring.RingNF
import MollisRuntime.Python.Values

/-!
Numbers as Python compares them: integers and finite floats by their exact
values, between the two infinities. Truth values count as integers.
-/
namespace MollisRuntime.Python

inductive Number
  | negInf
  | finite (q : ℚ)
  | posInf
  deriving DecidableEq, Repr

namespace Number

def position : Number → ℤ ×ₗ ℚ
  | .negInf => toLex (-1, 0)
  | .finite q => toLex (0, q)
  | .posInf => toLex (1, 0)

theorem position_injective : Function.Injective position := by
  intro a b h
  cases a <;> cases b <;> simp_all [position]

instance : LinearOrder Number := LinearOrder.lift' position position_injective

theorem le_posInf (a : Number) : a ≤ posInf := by
  change position a ≤ position posInf
  cases a <;> simp [position, Prod.Lex.toLex_le_toLex]

/-- Unary minus. -/
def neg : Number → Number
  | .negInf => .posInf
  | .finite q => .finite (-q)
  | .posInf => .negInf

theorem neg_le_neg_iff (a b : Number) : a.neg ≤ b.neg ↔ b ≤ a := by
  change position a.neg ≤ position b.neg ↔ position b ≤ position a
  cases a <;> cases b <;> simp [neg, position, Prod.Lex.toLex_le_toLex]

end Number

/-- The float nearest to a natural number, the even one of two, of 53 binary
digits; the range of the exponent is not looked at. -/
def nearestFloat (n : ℕ) : ℕ :=
  let unit := 2 ^ (n.log2 - 52)
  let below := n / unit
  let rest := n % unit
  (if unit < 2 * rest ∨ (unit = 2 * rest ∧ below % 2 = 1) then below + 1 else below) * unit

/-- `float(n)` -/
def floatOfInt (n : ℤ) : Except PyError Number :=
  let size := nearestFloat n.natAbs
  if size < 2 ^ 1024 then .ok (.finite (n.sign * size))
  else .error (.overflowError "int too large to convert to float")

/-- Integers of at most 53 binary digits are floats. -/
theorem nearestFloat_of_lt {n : ℕ} (h : n < 2 ^ 53) : nearestFloat n = n := by
  have hlog : n.log2 - 52 = 0 := by
    rcases Nat.eq_zero_or_pos n with rfl | hn
    · rfl
    · have := (Nat.log2_lt hn.ne').mpr h
      omega
  simp [nearestFloat, hlog, Nat.mod_one]

namespace Value

/-- `type(v).__name__` -/
def typeName : Value → String
  | .none => "NoneType"
  | .bool _ => "bool"
  | .int _ => "int"
  | .float _ => "float"
  | .infinity _ => "float"
  | .str _ => "str"
  | .list _ => "list"
  | .dict _ => "dict"
  | .enum cls _ => cls
  | .object cls => cls

def number : Value → Option Number
  | .bool b => some (.finite (if b then 1 else 0))
  | .int n => some (.finite n)
  | .float q => some (.finite q)
  | .infinity negative => some (if negative then .negInf else .posInf)
  | _ => Option.none

/-- `-v` -/
def negate (v : Value) : Except PyError Number :=
  match v.number with
  | some a => .ok a.neg
  | Option.none => .error (.typeError s!"bad operand type for unary -: '{v.typeName}'")

end Value

end MollisRuntime.Python
