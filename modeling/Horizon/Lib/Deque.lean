import Horizon.Lib.LinkedList

/-!
# Doubly linked lists with two ends

A list of nodes that ends with null pointers on both sides, with pointers to its
first and to its last node.  Nodes that are not on the list have null pointers.
-/

namespace Horizon

open List LinkedList

structure Deque (node : Type) where
  links : Links node
  head : Option node
  tail : Option node

namespace Deque

section Operations

variable {node : Type} [DecidableEq node]

def pushBack (d : Deque node) (n : node) : Deque node :=
  match d.tail with
  | none => {
      links := (d.links.setNext n none).setPrev n none
      head := some n
      tail := some n }
  | some last => {
      links := ((d.links.setPrev n (some last)).setNext n none).setNext last
        (some n)
      head := d.head
      tail := some n }

def clear (L : Links node) (n : node) : Links node :=
  (L.setNext n none).setPrev n none

def popFront (d : Deque node) : Option node × Deque node :=
  match d.head with
  | none => (none, d)
  | some n =>
      match (d.links n).next with
      | some m => (some n, {
          links := clear (d.links.setPrev m none) n
          head := some m
          tail := d.tail })
      | none => (some n, {
          links := clear d.links n
          head := none
          tail := none })

/-- What follows a node is joined to what precedes it, or to the first end. -/
def joinPrev (d : Deque node) (n : node) : Deque node :=
  match (d.links n).prev with
  | some p => { d with links := d.links.setNext p (d.links n).next }
  | none => { d with head := (d.links n).next }

def joinNext (d : Deque node) (n : node) : Deque node :=
  match (d.links n).next with
  | some m => { d with links := d.links.setPrev m (d.links n).prev }
  | none => { d with tail := (d.links n).prev }

def unlink (d : Deque node) (n : node) : Deque node :=
  let d := joinNext (joinPrev d n) n
  { d with links := clear d.links n }

end Operations

section Holds

variable {node : Type}

def before (xs : List node) (i : Nat) : Option node :=
  if i = 0 then none else xs[i - 1]?

/-- The nodes of a list are linked in their order, and no other node is. -/
structure Holds (d : Deque node) (xs : List node) : Prop where
  head : d.head = xs.head?
  tail : d.tail = xs.getLast?
  nodup : xs.Nodup
  linked : forall i n, xs[i]? = some n ->
    (d.links n).next = xs[i + 1]? ∧ (d.links n).prev = before xs i
  loose : forall n, n ∉ xs -> (d.links n).next = none ∧ (d.links n).prev = none

variable {xs : List node} {i : Nat} {n : node} {d : Deque node}

/-- What is before and after a node of the list gives its pointers. -/
theorem Holds.split {l r : List node} (h : Holds d (l ++ n :: r)) :
    (d.links n).next = r.head? ∧ (d.links n).prev = l.getLast? := by
  rcases h.linked l.length n (by simp) with ⟨hnext, hprev⟩
  rw [hnext, hprev, before, List.head?_eq_getElem?, List.getLast?_eq_getElem?]
  grind

theorem holds_of_split (hhead : d.head = xs.head?) (htail : d.tail = xs.getLast?)
    (hnodup : xs.Nodup)
    (hlinked : forall l n r, xs = l ++ n :: r ->
      (d.links n).next = r.head? ∧ (d.links n).prev = l.getLast?)
    (hloose : forall n, n ∉ xs ->
      (d.links n).next = none ∧ (d.links n).prev = none) : Holds d xs := by
  refine ⟨hhead, htail, hnodup, fun i n hn => ?_, hloose⟩
  rcases List.getElem?_eq_some_iff.mp hn with ⟨hlt, rfl⟩
  have hsplit := hlinked (xs.take i) xs[i] (xs.drop (i + 1)) (by simp)
  rw [List.head?_drop, List.getLast?_take] at hsplit
  grind [before]

theorem head_split {l r : List node} (h : (l ++ n :: r).Nodup) :
    (l ++ n :: r).head? = some n <-> l = [] := by
  cases l with
  | nil => simp
  | cons x l =>
    have hne : x ≠ n := by grind
    simp [hne]

theorem last_split {l r : List node} (h : (l ++ n :: r).Nodup) :
    (l ++ n :: r).getLast? = some n <-> r = [] := by
  rcases eq_nil_or_concat r with rfl | ⟨r, x, rfl⟩
  · simp
  · have hne : x ≠ n := by grind
    have hlast : l ++ n :: r.concat x = (l ++ n :: r) ++ [x] := by simp
    rw [hlast, List.getLast?_concat]
    simp [hne]

/-- The nodes that are met on the way from the head. -/
inductive FromHead (d : Deque node) : node -> Prop where
  | head {n : node} : d.head = some n -> FromHead d n
  | next {n m : node} : FromHead d n -> (d.links n).next = some m -> FromHead d m

theorem Holds.fromHead_iff (h : Holds d xs) : FromHead d n <-> n ∈ xs := by
  constructor
  · intro hn
    induction hn with
    | head hhead =>
      rw [h.head] at hhead
      exact mem_of_mem_head? hhead
    | next _ hnext ih =>
      rcases mem_iff_getElem?.mp ih with ⟨i, hi⟩
      rw [(h.linked i _ hi).left] at hnext
      exact mem_of_getElem? hnext
  · intro hn
    rcases mem_iff_getElem?.mp hn with ⟨i, hi⟩
    clear hn
    induction i generalizing n with
    | zero =>
      rw [← List.head?_eq_getElem?, ← h.head] at hi
      exact .head hi
    | succ i ih =>
      have hlt : i < xs.length := by
        have hsucc := (List.getElem?_eq_some_iff.mp hi).choose
        omega
      have hprev : xs[i]? = some xs[i] := List.getElem?_eq_getElem hlt
      apply FromHead.next (ih hprev)
      rw [(h.linked i _ hprev).left, hi]

variable [DecidableEq node]

theorem clear_next (L : Links node) (n m : node) :
    (clear L n m).next = if m = n then none else (L m).next := by
  rw [clear, setPrev_next, setNext_next]

theorem clear_prev (L : Links node) (n m : node) :
    (clear L n m).prev = if m = n then none else (L m).prev := by
  rw [clear, setPrev_prev, setNext_prev]

theorem pushBack_eq (hn : d.tail ≠ some n) :
    (pushBack d n).head = (if d.tail = none then some n else d.head) ∧
      (pushBack d n).tail = some n ∧
      forall m, ((pushBack d n).links m).next =
          (if m = n then none else if d.tail = some m then some n
            else (d.links m).next) ∧
        ((pushBack d n).links m).prev =
          (if m = n then d.tail else (d.links m).prev) := by
  unfold pushBack
  cases htail : d.tail with
  | none =>
    refine ⟨rfl, rfl, fun m => ?_⟩
    rw [setPrev_next, setNext_next, setPrev_prev, setNext_prev]
    exact ⟨rfl, rfl⟩
  | some last =>
    refine ⟨rfl, rfl, fun m => ?_⟩
    rw [setNext_next, setNext_prev, setNext_next, setNext_prev, setPrev_prev,
      setPrev_next]
    grind

theorem Holds.pushBack (h : Holds d xs) (hn : n ∉ xs) :
    Holds (pushBack d n) (xs ++ [n]) := by
  have htail := h.tail
  have hfresh : d.tail ≠ some n := fun heq =>
    hn (mem_of_mem_getLast? (htail ▸ heq))
  rcases pushBack_eq hfresh with ⟨hhead, hlast, hlinks⟩
  apply holds_of_split
  · rw [hhead, htail, h.head]
    cases xs <;> simp
  · rw [hlast, List.getLast?_concat]
  · grind [h.nodup]
  · intro l m r hsplit
    rw [(hlinks m).left, (hlinks m).right, htail]
    rcases eq_nil_or_concat r with rfl | ⟨r, y, rfl⟩
    · rcases append_inj' hsplit rfl with ⟨rfl, heq⟩
      cases heq
      simp
    · rw [concat_eq_append, ← cons_append, ← append_assoc] at hsplit
      rcases append_inj' hsplit rfl with ⟨rfl, heq⟩
      cases heq
      simp only [last_split h.nodup, h.split]
      cases r <;> grind
  · intro m hm
    have hloose := h.loose m
    grind

theorem Holds.popFront_nil (h : Holds d []) : Deque.popFront d = (none, d) := by
  unfold Deque.popFront
  rw [h.head]
  rfl

theorem joinPrev_eq (d : Deque node) (n : node) :
    (joinPrev d n).head =
        (if (d.links n).prev = none then (d.links n).next else d.head) ∧
      (joinPrev d n).tail = d.tail ∧
      forall m, ((joinPrev d n).links m).next =
          (if (d.links n).prev = some m then (d.links n).next
            else (d.links m).next) ∧
        ((joinPrev d n).links m).prev = (d.links m).prev := by
  unfold joinPrev
  cases hprev : (d.links n).prev with
  | none => exact ⟨rfl, rfl, fun m => ⟨rfl, rfl⟩⟩
  | some p =>
    refine ⟨rfl, rfl, fun m => ⟨?_, setNext_prev ..⟩⟩
    simp only [setNext_next, Option.some_inj, eq_comm]

theorem joinNext_eq (d : Deque node) (n : node) :
    (joinNext d n).tail =
        (if (d.links n).next = none then (d.links n).prev else d.tail) ∧
      (joinNext d n).head = d.head ∧
      forall m, ((joinNext d n).links m).prev =
          (if (d.links n).next = some m then (d.links n).prev
            else (d.links m).prev) ∧
        ((joinNext d n).links m).next = (d.links m).next := by
  unfold joinNext
  cases hnext : (d.links n).next with
  | none => exact ⟨rfl, rfl, fun m => ⟨rfl, rfl⟩⟩
  | some q =>
    refine ⟨rfl, rfl, fun m => ⟨?_, setPrev_next ..⟩⟩
    simp only [setPrev_prev, Option.some_inj, eq_comm]

theorem unlink_eq {p q : Option node} (hprev : (d.links n).prev = p)
    (hnext : (d.links n).next = q) (hp : p ≠ some n) :
    (Deque.unlink d n).head = (if p = none then q else d.head) ∧
      (Deque.unlink d n).tail = (if q = none then p else d.tail) ∧
      forall m, ((Deque.unlink d n).links m).next =
          (if m = n then none else if p = some m then q
            else (d.links m).next) ∧
        ((Deque.unlink d n).links m).prev =
          (if m = n then none else if q = some m then p
            else (d.links m).prev) := by
  rcases joinPrev_eq d n with ⟨hhead, htail, hlinks⟩
  rcases joinNext_eq (joinPrev d n) n with ⟨htail', hhead', hlinks'⟩
  rw [hprev, hnext] at hhead
  have hn : ((joinPrev d n).links n).next = q ∧
      ((joinPrev d n).links n).prev = p := by
    rcases hlinks n with ⟨hnextn, hprevn⟩
    rw [hprev, if_neg hp, hnext] at hnextn
    exact ⟨hnextn, hprevn.trans hprev⟩
  rw [hn.left, hn.right, htail] at htail'
  refine ⟨hhead'.trans hhead, htail', fun m => ?_⟩
  unfold Deque.unlink
  rw [clear_next, clear_prev, (hlinks' m).left, (hlinks' m).right, hn.left,
    hn.right, (hlinks m).left, (hlinks m).right, hprev, hnext]
  exact ⟨rfl, rfl⟩

theorem Holds.unlink (h : Holds d xs) (hn : n ∈ xs) :
    Holds (Deque.unlink d n) (xs.erase n) := by
  rcases append_of_mem hn with ⟨a, b, rfl⟩
  have hnodup := h.nodup
  have hna : n ∉ a := by grind
  have herase : (a ++ n :: b).erase n = a ++ b := by
    rw [erase_append_right _ hna, erase_cons_head]
  rcases h.split with ⟨hnext, hprev⟩
  rcases unlink_eq hprev hnext
    (fun heq => hna (mem_of_mem_getLast? heq)) with ⟨hhead, htail, hlinks⟩
  rw [herase]
  apply holds_of_split
  · rw [hhead, h.head]
    cases a <;> simp
  · rw [htail, h.tail]
    cases b with
    | nil => simp
    | cons y b => simp
  · grind
  · intro l m r hsplit
    rw [(hlinks m).left, (hlinks m).right]
    rcases append_eq_append_iff.mp hsplit with ⟨c, rfl, rfl⟩ | ⟨c, rfl, hr⟩
    · have hlinked := Holds.split (l := a ++ n :: c) (by simpa using h)
      have hfirst : (c ++ m :: r).head? = some m <-> c = [] :=
        head_split (by grind)
      have hma : a.getLast? ≠ some m := fun heq =>
        absurd (mem_of_mem_getLast? heq) (by grind)
      simp only [hfirst, hlinked, if_neg hma]
      cases c <;> grind
    · cases c with
      | nil =>
        cases hr
        have hlinked := Holds.split (l := l ++ [n]) (n := m) (by simpa using h)
        grind
      | cons x c =>
        rw [cons_append] at hr
        cases hr
        have hlinked := Holds.split (l := l) (r := c ++ n :: b) (by simpa using h)
        have hlast : (l ++ m :: c).getLast? = some m <-> c = [] :=
          last_split (by grind)
        have hmb : b.head? ≠ some m := fun heq =>
          absurd (mem_of_mem_head? heq) (by grind)
        simp only [hlast, hlinked, if_neg hmb]
        cases c <;> grind
  · intro m hm
    have hloose := h.loose m
    grind [mem_of_mem_head?, mem_of_mem_getLast?]

theorem popFront_eq (h : d.head = some n) (hprev : (d.links n).prev = none) :
    Deque.popFront d = (some n, Deque.unlink d n) := by
  unfold Deque.popFront Deque.unlink joinPrev
  simp only [h, hprev]
  unfold joinNext
  cases hnext : (d.links n).next with
  | none => simp [hprev]
  | some m => simp [hprev]

theorem Holds.popFront {x : node} (h : Holds d (x :: xs)) :
    exists d', Deque.popFront d = (some x, d') ∧ Holds d' xs := by
  refine ⟨_, popFront_eq h.head (h.linked 0 x rfl).right, ?_⟩
  have hunlink := h.unlink mem_cons_self
  rwa [erase_cons_head] at hunlink

/-- Unlinking a node that is not on the list is harmless only if it is empty. -/
theorem Holds.unlink_nil (h : Holds d []) (n : node) :
    Holds (Deque.unlink d n) [] := by
  rcases h.loose n not_mem_nil with ⟨hnext, hprev⟩
  rcases unlink_eq hprev hnext (by simp) with ⟨hhead, htail, hlinks⟩
  refine ⟨hhead, htail, nodup_nil, fun i m hm => absurd hm (by simp), ?_⟩
  intro m hm
  rcases hlinks m with ⟨hmnext, hmprev⟩
  rw [hmnext, hmprev]
  by_cases heq : m = n
  · rw [if_pos heq, if_pos heq]
    exact ⟨rfl, rfl⟩
  · rw [if_neg heq, if_neg heq, if_neg (by simp), if_neg (by simp)]
    exact h.loose m hm

end Holds

end Deque
end Horizon
