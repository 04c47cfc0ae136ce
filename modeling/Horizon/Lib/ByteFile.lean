import Horizon.Lib.Bytes

/-!
# Files as byte arrays

A file is an array of bytes that grows when something is written past its end.
A list of bytes is stored at a position when the file holds its bytes there.
-/

namespace Horizon
namespace ByteFile

open List Bytes

/-- Only the bytes below `length` belong to the file. -/
structure Data where
  bytes : Buffer
  length : Nat

def Data.write (d : Data) (pos : Nat) (l : List UInt8) : Data where
  bytes i :=
    if pos <= i ∧ i < pos + l.length then l.getD (i - pos) 0
    else if i < d.length then d.bytes i
    else 0
  length := max d.length (pos + l.length)

/-- As much of `n` bytes as the file has from `pos` on. -/
def Data.read (d : Data) (pos n : Nat) : List UInt8 :=
  (List.range (min n (d.length - pos))).map fun i => d.bytes (pos + i)

structure Data.Holds (d : Data) (pos : Nat) (l : List UInt8) : Prop where
  inside : pos + l.length <= d.length
  byte : forall i, i < l.length -> d.bytes (pos + i) = l.getD i 0

namespace Data

theorem Holds.read {d : Data} {pos : Nat} {l : List UInt8} (h : d.Holds pos l) :
    d.read pos l.length = l := by
  have hinside := h.inside
  have hlength : min l.length (d.length - pos) = l.length := by omega
  unfold Data.read
  rw [hlength]
  apply ext_getElem
  · rw [length_map, length_range]
  · intro i hi hi'
    rw [getElem_map, getElem_range, h.byte i hi', getD_eq_getElem l 0 hi']

theorem holds_append {d : Data} {pos : Nat} {l l' : List UInt8} :
    d.Holds pos (l ++ l') <-> d.Holds pos l ∧ d.Holds (pos + l.length) l' := by
  constructor
  · intro h
    have hinside := h.inside
    rw [length_append] at hinside
    refine ⟨⟨by omega, ?_⟩, ⟨by omega, ?_⟩⟩
    · intro i hi
      rw [h.byte i (by rw [length_append]; omega), getD_append _ _ _ _ hi]
    · intro i hi
      rw [Nat.add_assoc, h.byte _ (by rw [length_append]; omega),
        getD_append_right _ _ _ _ (Nat.le_add_right _ _),
        Nat.add_sub_cancel_left]
  · rintro ⟨h, h'⟩
    have hinside := h'.inside
    refine ⟨by rw [length_append]; omega, ?_⟩
    intro i hi
    rw [length_append] at hi
    rcases Nat.lt_or_ge i l.length with hlt | hge
    · rw [h.byte i hlt, getD_append _ _ _ _ hlt]
    · have hbyte := h'.byte (i - l.length) (by omega)
      rw [show pos + l.length + (i - l.length) = pos + i by omega] at hbyte
      rw [hbyte, getD_append_right _ _ _ _ hge]

theorem holds_write (d : Data) (pos : Nat) (l : List UInt8) :
    (d.write pos l).Holds pos l where
  inside := Nat.le_max_right _ _
  byte := by
    intro i hi
    show (if pos <= pos + i ∧ pos + i < pos + l.length then
      l.getD (pos + i - pos) 0 else _) = _
    rw [if_pos (by omega), Nat.add_sub_cancel_left]

theorem Holds.write {d : Data} {pos pos' : Nat} {l l' : List UInt8}
    (h : d.Holds pos l)
    (hapart : pos + l.length <= pos' ∨ pos' + l'.length <= pos) :
    (d.write pos' l').Holds pos l where
  inside := Nat.le_trans h.inside (Nat.le_max_left _ _)
  byte := by
    intro i hi
    have hinside := h.inside
    show (if pos' <= pos + i ∧ pos + i < pos' + l'.length then _
      else if pos + i < d.length then d.bytes (pos + i) else 0) = _
    rw [if_neg (by omega), if_pos (by omega), h.byte i hi]

end Data

/-!
## Numbers as bytes
-/

/-- The `n` low bytes of a number, least significant byte first. -/
def toBytes : Nat -> Nat -> List UInt8
  | 0, _ => []
  | n + 1, v => UInt8.ofNat v :: toBytes n (v / 256)

def ofBytes : List UInt8 -> Nat
  | [] => 0
  | b :: l => b.toNat + 256 * ofBytes l

theorem length_toBytes (n v : Nat) : (toBytes n v).length = n := by
  induction n generalizing v with
  | zero => rfl
  | succ n ih =>
    unfold toBytes
    rw [length_cons, ih]

end ByteFile
end Horizon
