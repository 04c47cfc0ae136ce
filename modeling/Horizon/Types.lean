import Mathlib.Algebra.Group.Int.Defs
import Mathlib.Algebra.Group.Nat.Defs

/-!
# Numbers

The conversions between 32-bit numbers with and without a sign, and the error
numbers of `errno.h` that the modelled functions return.
-/

namespace Horizon

/-- An unsigned 32-bit number that is taken for an `int`. -/
def asInt (n : Nat) : Int := if n < 2 ^ 31 then n else n - 2 ^ 32

/-- An `int` that is taken for an unsigned 32-bit number. -/
def asUnsigned (i : Int) : Nat := (i % 2 ^ 32).toNat

theorem asInt_of_lt {n : Nat} (h : n < 2 ^ 31) : asInt n = n := by
  unfold asInt
  rw [if_pos h]

theorem asInt_inj {m n : Nat} (hm : m < 2 ^ 32) (hn : n < 2 ^ 32) :
    asInt m = asInt n <-> m = n := by
  unfold asInt
  split <;> split <;> omega

theorem asUnsigned_asInt {n : Nat} (h : n < 2 ^ 32) :
    asUnsigned (asInt n) = n := by
  unfold asUnsigned asInt
  split <;> omega

namespace Errno

def eperm : Int := 1

def enoent : Int := 2

def e2big : Int := 7

def eagain : Int := 11

def enomem : Int := 12

def eacces : Int := 13

def ebusy : Int := 16

def enodev : Int := 19

def eexist : Int := 17

def einval : Int := 22

def enospc : Int := 28

def erange : Int := 34

def edeadlk : Int := 35

def enomsg : Int := 42

end Errno
end Horizon
