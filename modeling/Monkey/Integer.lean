/-!
The integers of the language are 64 bits wide and signed. Results outside that range wrap around.
-/

namespace Monkey.Integer

/-- The one integer of the signed 64-bit range that differs from `value` by a multiple of 2^64. -/
def wrap (value : Int) : Int := value.bmod 0x10000000000000000

theorem wrap_bounds (value : Int) :
    -0x8000000000000000 ≤ wrap value ∧ wrap value < 0x8000000000000000 := by
  unfold wrap
  have low := Int.le_bmod (x := value) (m := 0x10000000000000000) (by decide)
  have high := Int.bmod_lt (x := value) (m := 0x10000000000000000) (by decide)
  omega

theorem wrap_of_bounds {value : Int} (low : -0x8000000000000000 ≤ value)
    (high : value < 0x8000000000000000) : wrap value = value := by
  unfold wrap
  rw [Int.bmod_def]
  omega

def negate (value : Int) : Int := wrap (-value)

def add (left right : Int) : Int := wrap (left + right)

def subtract (left right : Int) : Int := wrap (left - right)

def multiply (left right : Int) : Int := wrap (left * right)

/-- The quotient rounded toward zero. There is none by zero. -/
def divide? (left right : Int) : Option Int :=
  if right = 0 then none else some (wrap (left.tdiv right))

end Monkey.Integer
