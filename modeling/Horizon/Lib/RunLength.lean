import Mathlib.Data.List.Basic

/-!
# Run-length coding

A list as a sequence of runs, each at most `cap` long.  The encoder takes
the longest run that starts at its position; decoding the runs gives the list
back.
-/

namespace Horizon
namespace RunLength

open List

variable {α : Type} [DecidableEq α]

/-- How many of the first `n` elements are `v` before another one. -/
def runOf (v : α) : Nat -> List α -> Nat
  | 0, _ => 0
  | _ + 1, [] => 0
  | n + 1, x :: l => if x = v then runOf v n l + 1 else 0

/-- The runs of a list of at most `n` elements. -/
def encode (cap : Nat) : Nat -> List α -> List (Nat × α)
  | 0, _ => []
  | _ + 1, [] => []
  | n + 1, v :: l =>
      (runOf v (cap - 1) l + 1, v) ::
        encode cap n (l.drop (runOf v (cap - 1) l))

def decode : List (Nat × α) -> List α
  | [] => []
  | run :: runs => List.replicate run.1 run.2 ++ decode runs

/-- A run put before others; it joins a first one of the same value. -/
def push (n : Nat) (v : α) : List (Nat × α) -> List (Nat × α)
  | [] => [(n, v)]
  | (k, w) :: runs =>
      if v = w then (n + k, w) :: runs else (n, v) :: (k, w) :: runs

theorem runOf_le (v : α) (n : Nat) (l : List α) : runOf v n l <= n := by
  induction n generalizing l with
  | zero => exact Nat.le_refl 0
  | succ n ih =>
    cases l with
    | nil => exact Nat.zero_le _
    | cons x l =>
      unfold runOf
      split
      case isTrue hx => exact Nat.succ_le_succ (ih l)
      case isFalse hx => exact Nat.zero_le _

theorem replicate_runOf (v : α) (n : Nat) (l : List α) :
    List.replicate (runOf v n l) v ++ l.drop (runOf v n l) = l := by
  induction n generalizing l with
  | zero => rfl
  | succ n ih =>
    cases l with
    | nil => rfl
    | cons x l =>
      unfold runOf
      split
      case isTrue hx =>
        rw [replicate_succ, drop_succ_cons, cons_append, ih l, hx]
      case isFalse hx => rfl

theorem decode_encode (cap : Nat) {n : Nat} {l : List α} (h : l.length <= n) :
    decode (encode cap n l) = l := by
  induction n generalizing l with
  | zero =>
    rw [length_eq_zero_iff.mp (Nat.le_zero.mp h)]
    rfl
  | succ n ih =>
    cases l with
    | nil => rfl
    | cons v l =>
      have hrest : (l.drop (runOf v (cap - 1) l)).length <= n := by
        rw [length_drop]
        rw [length_cons] at h
        omega
      unfold encode decode
      rw [ih hrest, replicate_succ, cons_append, replicate_runOf]

theorem encode_length_le (cap n : Nat) (l : List α) :
    (encode cap n l).length <= l.length := by
  induction n generalizing l with
  | zero => exact Nat.zero_le _
  | succ n ih =>
    cases l with
    | nil => exact Nat.zero_le _
    | cons v l =>
      have hrest := ih (l.drop (runOf v (cap - 1) l))
      rw [length_drop] at hrest
      unfold encode
      rw [length_cons, length_cons]
      omega

theorem encode_bounds {cap n : Nat} {l : List α} {run : Nat × α}
    (hcap : 0 < cap) (h : run ∈ encode cap n l) :
    1 <= run.1 ∧ run.1 <= cap := by
  induction n generalizing l with
  | zero => cases h
  | succ n ih =>
    cases l with
    | nil => cases h
    | cons v l =>
      rcases mem_cons.mp h with heq | hmem
      · rw [heq]
        have hle := runOf_le v (cap - 1) l
        exact ⟨Nat.le_add_left 1 _, by omega⟩
      · exact ih hmem

/-!
## Maximal runs
-/

end RunLength
end Horizon
