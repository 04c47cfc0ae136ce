import Horizon.Lib.Bytes

/-!
# Strings

`memmove` and `strncpy` of `string.c`, as what they do to the memory.  Both are
compared with copies that read everything before they write.
-/

namespace Horizon
namespace Strings

open Function Bytes

def copyUp : Nat -> Nat -> Nat -> Buffer -> Buffer
  | 0, _, _, mem => mem
  | n + 1, d, s, mem => copyUp n (d + 1) (s + 1) (update mem d (mem s))

def copyDown : Nat -> Nat -> Nat -> Buffer -> Buffer
  | 0, _, _, mem => mem
  | n + 1, d, s, mem => copyDown n d s (update mem (d + n) (mem (s + n)))

/-- The bytes are copied in the direction in which none is overwritten that is
yet to be read. -/
def memmove (mem : Buffer) (d s n : Nat) : Buffer :=
  if d < s then copyUp n d s mem
  else if d > s then copyDown n d s mem
  else mem

/-- The first loop of `strncpy`, with what is left of the count: it stops after
it has copied a NUL, which it does not count. -/
def strncpyCopy : Nat -> Nat -> Nat -> Buffer -> Nat × Nat × Buffer
  | 0, d, _, mem => (0, d, mem)
  | n + 1, d, s, mem =>
      let c := mem s
      let mem := update mem d c
      if c ≠ 0 then strncpyCopy n (d + 1) (s + 1) mem else (n + 1, d + 1, mem)

def strncpyPad : Nat -> Nat -> Buffer -> Buffer
  | 0, _, mem => mem
  | n + 1, d, mem => strncpyPad n (d + 1) (update mem d 0)

def strncpy (mem : Buffer) (dest src n : Nat) : Buffer :=
  let (n, d, mem) := strncpyCopy n dest src mem
  strncpyPad n d mem

variable {mem : Buffer} {d s n len : Nat}

theorem copyUp_eq (h : d <= s) : copyUp n d s mem = memcpy mem d mem s n := by
  induction n generalizing d s mem with
  | zero => exact (memcpy_zero mem mem d s).symm
  | succ n ih =>
    unfold copyUp
    rw [ih (by omega)]
    funext i
    unfold memcpy
    grind

theorem copyDown_eq (h : s <= d) :
    copyDown n d s mem = memcpy mem d mem s n := by
  induction n generalizing mem with
  | zero => exact (memcpy_zero mem mem d s).symm
  | succ n ih =>
    unfold copyDown
    rw [ih]
    funext i
    unfold memcpy
    grind

theorem memmove_self (mem : Buffer) (d n : Nat) : memmove mem d d n = mem := by
  unfold memmove
  rw [if_neg (Nat.lt_irrefl d), if_neg (Nat.lt_irrefl d)]

/-- Overlapping or not, the bytes arrive as they were. -/
theorem memmove_eq (mem : Buffer) (d s n : Nat) :
    memmove mem d s n = memcpy mem d mem s n := by
  rcases Nat.lt_trichotomy d s with hlt | rfl | hgt
  · exact (if_pos hlt).trans (copyUp_eq (Nat.le_of_lt hlt))
  · rw [memmove_self]
    funext i
    unfold memcpy
    grind
  · unfold memmove
    rw [if_neg (Nat.lt_asymm hgt), if_pos hgt]
    exact copyDown_eq (Nat.le_of_lt hgt)

theorem memmove_moves_bytes (mem : Buffer) (d s n : Nat) :
    (forall i, i < n -> memmove mem d s n (d + i) = mem (s + i)) ∧
      forall a, a < d ∨ d + n <= a -> memmove mem d s n a = mem a := by
  rw [memmove_eq]
  exact ⟨fun _ => memcpy_apply, fun _ => memcpy_of_outside⟩

/-! ## Copies of strings -/

structure IsString (mem : Buffer) (s len : Nat) : Prop where
  chars : forall i, i < len -> mem (s + i) ≠ 0
  nul : mem (s + len) = 0

theorem strncpyCopy_eq (h : IsString mem s len)
    (hapart : d + n <= s ∨ s + len < d) :
    strncpyCopy n d s mem = (n - len, d + min n (len + 1),
      memcpy mem d mem s (min n (len + 1))) := by
  induction n generalizing d s len mem with
  | zero => rw [Nat.zero_sub, Nat.zero_min, memcpy_zero]; rfl
  | succ n ih =>
    unfold strncpyCopy
    cases len with
    | zero =>
      have hnul : mem s = 0 := h.nul
      rw [if_neg (not_not_intro hnul), Nat.min_eq_right (by omega)]
      refine congrArg (fun mem => (n + 1, d + 1, mem)) (funext fun i => ?_)
      unfold memcpy
      grind
    | succ len =>
      have hrest : IsString (update mem d (mem s)) (s + 1) len := by
        refine ⟨fun i hi => ?_, ?_⟩
        · rw [update_of_ne (by omega), Nat.add_assoc, Nat.add_comm 1]
          exact h.chars (i + 1) (by omega)
        · rw [update_of_ne (by omega), Nat.add_assoc, Nat.add_comm 1]
          exact h.nul
      have hfirst : mem s ≠ 0 := h.chars 0 (Nat.succ_pos len)
      have hmin : d + 1 + min n (len + 1) = d + min (n + 1) (len + 1 + 1) := by
        omega
      rw [if_pos hfirst, ih hrest (by omega), hmin, Nat.add_sub_add_right]
      refine Prod.ext rfl (Prod.ext rfl (funext fun i => ?_))
      unfold memcpy
      grind

theorem strncpyPad_eq : strncpyPad n d mem = memcpy mem d zeros 0 n := by
  induction n generalizing d mem with
  | zero => exact (memcpy_zero mem zeros d 0).symm
  | succ n ih =>
    unfold strncpyPad
    rw [ih]
    funext i
    unfold memcpy zeros
    grind

theorem strncpy_apply (h : IsString mem s len)
    (hapart : d + n <= s ∨ s + len < d) (a : Nat) :
    strncpy mem d s n a =
      if d <= a ∧ a < d + min n len then mem (s + (a - d))
      else if d + len <= a ∧ len < n ∧ a <= d + n then 0 else mem a := by
  unfold strncpy
  rw [strncpyCopy_eq h hapart]
  dsimp only
  rw [strncpyPad_eq]
  have hnul := h.nul
  unfold memcpy zeros
  grind

/-- The string and the padding are stored, but one NUL more is stored than there
is room for if the string is shorter. -/
theorem strncpy_stores_iff (mem : Buffer) (dest src n len : Nat)
    (h : IsString mem src len) (hapart : dest + n <= src ∨ src + len < dest) :
    ((forall i, i < n -> strncpy mem dest src n (dest + i) =
        if i < len then mem (src + i) else 0) ∧
      forall a, dest + n <= a -> strncpy mem dest src n a = mem a) <->
    n <= len ∨ mem (dest + n) = 0 := by
  simp only [strncpy_apply h hapart, Nat.add_sub_cancel_left]
  constructor
  · rintro ⟨-, hframe⟩
    have hlast := hframe (dest + n) (Nat.le_refl _)
    grind
  · intro hok
    refine ⟨fun i hi => ?_, fun a ha => ?_⟩ <;> grind

theorem strncpy_stores_iff_two_chars :
    let mem : Buffer := fun a => if a = 10 then 0 else 7
    IsString mem 8 2 ∧ forall a, 3 + 2 <= a -> strncpy mem 3 8 2 a = mem a := by
  intro mem
  have h : IsString mem 8 2 := ⟨by decide, rfl⟩
  exact ⟨h, ((strncpy_stores_iff mem 3 8 2 2 h (by decide)).mpr
    (Or.inl (by decide))).right⟩

/-- An empty string that is copied into a buffer of one byte. -/
theorem strncpy_stores_past_end :
    let mem : Buffer := fun a => if a = 8 then 0 else 7
    IsString mem 8 0 ∧ mem (3 + 1) = 7 ∧ strncpy mem 3 8 1 (3 + 1) = 0 := by
  exact ⟨⟨fun i hi => absurd hi (Nat.not_lt_zero i), rfl⟩, rfl, rfl⟩

end Strings
end Horizon
