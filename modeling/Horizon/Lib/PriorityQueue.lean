import Mathlib.Data.List.Nodup

/-!
# Stable priority queues

A queue that hands out its values by priority and, among equal priorities, in
the order in which they came.  Every value has a stamp, the number of values
accepted before it, so that equal values can be told apart.
-/

namespace Horizon
namespace PriorityQueue

open List

section Insert

variable {value : Type} (prio : value -> Nat)

/-- A value goes before the first one of lower priority. -/
def insert (x : value) : List value -> List value
  | [] => [x]
  | y :: ys => if prio x > prio y then x :: y :: ys else y :: insert x ys

theorem perm_insert (x : value) (l : List value) :
    (insert prio x l).Perm (x :: l) := by
  induction l with
  | nil => exact List.Perm.refl _
  | cons y ys ih =>
    unfold insert
    split
    · exact List.Perm.refl _
    · exact (ih.cons y).trans (List.Perm.swap x y ys)

theorem insert_eq (x : value) (l : List value) :
    insert prio x l = l.takeWhile (fun y => prio x <= prio y) ++
      x :: l.dropWhile (fun y => prio x <= prio y) := by
  induction l with
  | nil => rfl
  | cons y ys ih =>
    unfold insert
    by_cases hlt : prio x > prio y
    · rw [if_pos hlt, takeWhile_cons_of_neg (by simpa using hlt),
        dropWhile_cons_of_neg (by simpa using hlt)]
      rfl
    · rw [if_neg hlt, takeWhile_cons_of_pos (by simpa using hlt),
        dropWhile_cons_of_pos (by simpa using hlt), ih]
      rfl

end Insert

section Queue

variable {value : Type} (prio : value -> Nat)

def Before (p q : value × Nat) : Prop :=
  prio q.1 < prio p.1 ∨ prio q.1 = prio p.1 ∧ p.2 < q.2

structure State (value : Type) where
  queue : List (value × Nat)
  accepted : List value
  delivered : List (value × Nat)

def empty : State value where
  queue := []
  accepted := []
  delivered := []

def State.accept (s : State value) (v : value) : State value where
  queue := insert (fun p => prio p.1) (v, s.accepted.length) s.queue
  accepted := s.accepted ++ [v]
  delivered := s.delivered

def State.deliver (s : State value) : State value where
  queue := s.queue.tail
  accepted := s.accepted
  delivered := s.delivered ++ s.queue.take 1

/--
The queue is in order, and a value that was accepted was delivered once or is in
the queue.
-/
structure Ordered (s : State value) : Prop where
  sorted : s.queue.Pairwise (Before prio)
  once : (s.delivered ++ s.queue).Perm s.accepted.zipIdx

variable {prio}

theorem pairwise_insert {x : value × Nat} {l : List (value × Nat)}
    (h : l.Pairwise (Before prio)) (hx : forall p, p ∈ l -> p.2 < x.2) :
    (insert (fun p => prio p.1) x l).Pairwise (Before prio) := by
  induction l with
  | nil => exact pairwise_singleton _ _
  | cons y ys ih =>
    rcases pairwise_cons.mp h with ⟨hy, hys⟩
    unfold insert
    split
    case isTrue hlt =>
      refine pairwise_cons.mpr ⟨?_, h⟩
      intro z hz
      rcases mem_cons.mp hz with rfl | hz
      · exact Or.inl hlt
      · rcases hy z hz with hless | ⟨hequal, _⟩
        · exact Or.inl (Nat.lt_trans hless hlt)
        · exact Or.inl (hequal ▸ hlt)
    case isFalse hlt =>
      refine pairwise_cons.mpr ⟨?_, ih hys ?_⟩
      · intro z hz
        rcases mem_cons.mp ((perm_insert _ x ys).subset hz) with rfl | hz
        · rcases Nat.lt_or_eq_of_le (Nat.le_of_not_lt hlt) with hless | hequal
          · exact Or.inl hless
          · exact Or.inr ⟨hequal, hx y mem_cons_self⟩
        · exact hy z hz
      · exact fun p hp => hx p (mem_cons_of_mem y hp)

theorem Ordered.stamp_lt {s : State value} (h : Ordered prio s)
    {p : value × Nat} (hp : p ∈ s.queue) : p.2 < s.accepted.length := by
  have hmem := h.once.subset (mem_append_right _ hp)
  have hlt := snd_lt_add_of_mem_zipIdx hmem
  rwa [Nat.zero_add] at hlt

theorem Ordered.accept {s : State value} (h : Ordered prio s) (v : value) :
    Ordered prio (s.accept prio v) := by
  constructor
  · exact pairwise_insert h.sorted fun p hp => h.stamp_lt hp
  · have hinsert := perm_insert (fun p : value × Nat => prio p.1)
      (v, s.accepted.length) s.queue
    have hzip : (s.accepted ++ [v]).zipIdx =
        s.accepted.zipIdx ++ [(v, s.accepted.length)] := by
      rw [zipIdx_append, Nat.zero_add]
      rfl
    show (s.delivered ++ insert _ _ s.queue).Perm (s.accepted ++ [v]).zipIdx
    rw [hzip]
    refine (hinsert.append_left _).trans ?_
    refine perm_middle.trans ?_
    refine (h.once.cons _).trans ?_
    exact (perm_append_singleton _ _).symm

theorem Ordered.deliver {s : State value} (h : Ordered prio s) :
    Ordered prio s.deliver := by
  constructor
  · exact h.sorted.sublist (tail_sublist _)
  · show (s.delivered ++ s.queue.take 1 ++ s.queue.tail).Perm _
    have hqueue : s.queue.take 1 ++ s.queue.tail = s.queue := by
      rw [← drop_one, take_append_drop]
    rw [append_assoc, hqueue]
    exact h.once

theorem Ordered.nodup {s : State value} (h : Ordered prio s) :
    (s.delivered ++ s.queue).Nodup := by
  apply h.once.nodup_iff.mpr
  apply List.Nodup.of_map Prod.snd
  rw [zipIdx_map_snd]
  exact nodup_range'

end Queue

end PriorityQueue
end Horizon
