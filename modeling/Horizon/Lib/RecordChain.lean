/-!
# Chains of records

Records of varying length that fill a region without gaps: the length of a
record is found at its start and leads to the next one.  The relation
`Chain` lists the starts of the records; a scan along the lengths finds the
first record with a property, together with the record before it.
-/

namespace Horizon
namespace RecordChain

open List

/-- The records from one address to another, by their starts. -/
inductive Chain (len : Nat -> Nat) : Nat -> List Nat -> Nat -> Prop where
  | nil (a : Nat) : Chain len a [] a
  | cons {a stop : Nat} {offs : List Nat} :
      0 < len a -> Chain len (a + len a) offs stop ->
        Chain len a (a :: offs) stop

namespace Chain

variable {len len' : Nat -> Nat} {a b stop : Nat} {xs ys offs : List Nat}

theorem le (h : Chain len a offs stop) : a <= stop := by
  induction h with
  | nil => exact Nat.le_refl _
  | cons _ _ ih => exact Nat.le_trans (Nat.le_add_right _ _) ih

theorem length_le (h : Chain len a offs stop) : a + offs.length <= stop := by
  induction h with
  | nil => exact Nat.le_refl _
  | cons hpos _ ih =>
    rw [length_cons]
    omega

theorem mem (h : Chain len a offs stop) {x : Nat} (hx : x ∈ offs) :
    a <= x ∧ 0 < len x ∧ x + len x <= stop := by
  induction h with
  | nil => cases hx
  | cons hpos hrest ih =>
    rcases mem_cons.mp hx with rfl | hx
    · exact ⟨Nat.le_refl _, hpos, hrest.le⟩
    · rcases ih hx with ⟨hle, hrecord⟩
      exact ⟨by omega, hrecord⟩

theorem append (h : Chain len a xs b) (h' : Chain len b ys stop) :
    Chain len a (xs ++ ys) stop := by
  induction h with
  | nil => exact h'
  | cons hpos _ ih => exact .cons hpos (ih h')

theorem split {x : Nat} (h : Chain len a (xs ++ x :: ys) stop) :
    Chain len a xs x ∧ 0 < len x ∧ Chain len (x + len x) ys stop := by
  induction xs generalizing a with
  | nil =>
    cases h with
    | cons hpos hrest => exact ⟨.nil _, hpos, hrest⟩
  | cons y xs ih =>
    cases h with
    | cons hpos hrest =>
      rcases ih hrest with ⟨hbefore, hafter⟩
      exact ⟨.cons hpos hbefore, hafter⟩

theorem congr (h : Chain len a offs stop)
    (hlen : forall x, x ∈ offs -> len' x = len x) : Chain len' a offs stop := by
  induction h with
  | nil => exact .nil _
  | @cons c d offs hpos hrest ih =>
    have hc : len' c = len c := hlen c mem_cons_self
    have hrest' := ih fun x hx => hlen x (mem_cons_of_mem _ hx)
    rw [← hc] at hpos hrest'
    exact .cons hpos hrest'

theorem apart (h : Chain len a offs stop) {x y : Nat} (hx : x ∈ offs)
    (hy : y ∈ offs) (hne : x ≠ y) : x + len x <= y ∨ y + len y <= x := by
  induction h with
  | nil => cases hx
  | cons _ hrest ih =>
    rcases mem_cons.mp hx with rfl | hx'
    · rcases mem_cons.mp hy with rfl | hy'
      · exact absurd rfl hne
      · exact Or.inl (hrest.mem hy').left
    · rcases mem_cons.mp hy with rfl | hy'
      · exact Or.inr (hrest.mem hx').left
      · exact ih hx' hy'

theorem meets {x : Nat} (h : Chain len a (xs ++ x :: ys) stop)
    (h' : Chain len' a offs stop) (hlen : forall y, y ∈ xs -> len' y = len y) :
    x ∈ offs := by
  induction xs generalizing a offs with
  | nil =>
    have hlt := h.length_le
    cases h with
    | cons _ _ =>
      cases h' with
      | nil =>
        rw [nil_append, length_cons] at hlt
        omega
      | cons _ _ => exact mem_cons_self
  | cons y xs ih =>
    have hlt := h.length_le
    cases h with
    | cons _ hrest =>
      cases h' with
      | nil =>
        rw [cons_append, length_cons] at hlt
        omega
      | cons _ hrest' =>
        rw [hlen y mem_cons_self] at hrest'
        exact mem_cons_of_mem _ (ih hrest hrest'
          fun z hz => hlen z (mem_cons_of_mem _ hz))

theorem cut {x k : Nat} (h : Chain len a (xs ++ x :: ys) stop) (hk : 0 < k)
    (hlt : k < len x) (hfirst : len' x = k) (hsecond : len' (x + k) = len x - k)
    (hother : forall y, y ∈ xs ∨ y ∈ ys -> len' y = len y) :
    Chain len' a (xs ++ x :: (x + k) :: ys) stop := by
  rcases h.split with ⟨hbefore, _, hafter⟩
  apply (hbefore.congr fun y hy => hother y (Or.inl hy)).append
  apply Chain.cons
  · rw [hfirst]
    exact hk
  · rw [hfirst]
    apply Chain.cons
    · omega
    · rw [hsecond, show x + k + (len x - k) = x + len x by omega]
      exact hafter.congr fun y hy => hother y (Or.inr hy)

theorem join {x y : Nat} (h : Chain len a (xs ++ x :: y :: ys) stop)
    (hboth : len' x = len x + len y)
    (hother : forall z, z ∈ xs ∨ z ∈ ys -> len' z = len z) :
    Chain len' a (xs ++ x :: ys) stop := by
  rcases h.split with ⟨hbefore, hpos, hafter⟩
  apply (hbefore.congr fun z hz => hother z (Or.inl hz)).append
  cases hafter with
  | cons _ hrest =>
    apply Chain.cons
    · omega
    · rw [hboth, ← Nat.add_assoc]
      exact hrest.congr fun z hz => hother z (Or.inr hz)

end Chain

/-!
## Walking along the lengths
-/

/-- The starts of the records, as far as the fuel reaches. -/
def walk (len : Nat -> Nat) (stop : Nat) : Nat -> Nat -> List Nat
  | 0, _ => []
  | n + 1, a => if a < stop then a :: walk len stop n (a + len a) else []

/--
The first record with a property and the record before it: `none` if the fuel
runs out, `some none` if the walk arrives at the end.
-/
def scan (len : Nat -> Nat) (stop : Nat) (p : Nat -> Bool) :
    Nat -> Option Nat -> Nat -> Option (Option (Option Nat × Nat))
  | 0, _, _ => none
  | n + 1, prev, a =>
      if a < stop then
        if p a then some (some (prev, a))
        else scan len stop p n (some a) (a + len a)
      else some none

section Walk

variable {len : Nat -> Nat} {p : Nat -> Bool} {a stop n : Nat}
  {prev : Option Nat}

theorem Chain.start_lt {offs : List Nat} {x : Nat}
    (h : Chain len a (x :: offs) stop) : a < stop := by
  have hlength := h.length_le
  rw [length_cons] at hlength
  omega

theorem walk_eq {offs : List Nat} (h : Chain len a offs stop)
    (hn : offs.length < n) : walk len stop n a = offs := by
  induction offs generalizing a n with
  | nil =>
    cases h with
    | nil =>
      cases n with
      | zero => rfl
      | succ n => exact if_neg (Nat.lt_irrefl stop)
  | cons x offs ih =>
    have hlt := h.start_lt
    cases h with
    | cons _ hrest =>
      cases n with
      | zero => cases hn
      | succ n =>
        unfold walk
        rw [if_pos hlt, ih hrest (Nat.lt_of_succ_lt_succ hn)]

theorem scan_none {offs : List Nat} (h : Chain len a offs stop)
    (hn : offs.length < n) (hp : forall x, x ∈ offs -> p x = false) :
    scan len stop p n prev a = some none := by
  induction offs generalizing a n prev with
  | nil =>
    cases h with
    | nil =>
      cases n with
      | zero => cases hn
      | succ n => exact if_neg (Nat.lt_irrefl stop)
  | cons x offs ih =>
    have hlt := h.start_lt
    cases h with
    | cons _ hrest =>
      cases n with
      | zero => cases hn
      | succ n =>
        unfold scan
        rw [if_pos hlt, hp x mem_cons_self]
        exact ih hrest (Nat.lt_of_succ_lt_succ hn)
          fun y hy => hp y (mem_cons_of_mem _ hy)

theorem scan_some {xs ys : List Nat} {x : Nat}
    (h : Chain len a (xs ++ x :: ys) stop) (hn : (xs ++ x :: ys).length < n)
    (hxs : forall y, y ∈ xs -> p y = false) (hx : p x = true) :
    scan len stop p n prev a = some (some (xs.getLast?.or prev, x)) := by
  induction xs generalizing a n prev with
  | nil =>
    have hlt := h.start_lt
    cases h with
    | cons _ _ =>
      cases n with
      | zero => cases hn
      | succ n =>
        unfold scan
        rw [if_pos hlt, if_pos hx]
        rfl
  | cons y xs ih =>
    have hlt := h.start_lt
    cases h with
    | cons _ hrest =>
      cases n with
      | zero => cases hn
      | succ n =>
        unfold scan
        rw [if_pos hlt, hxs y mem_cons_self]
        have hlast : (y :: xs).getLast?.or prev =
            xs.getLast?.or (some y) := by
          rw [List.getLast?_cons]
          cases xs.getLast? with
          | none => rfl
          | some z => rfl
        rw [hlast]
        exact ih hrest (Nat.lt_of_succ_lt_succ hn)
          fun z hz => hxs z (mem_cons_of_mem _ hz)

/-- Lengths that are not zero lead the walk to the end. -/
theorem scan_ne_none (h : forall x, x ∈ walk len stop n a -> len x ≠ 0)
    (hn : stop - a < n) : scan len stop p n prev a ≠ none := by
  induction n generalizing a prev with
  | zero => omega
  | succ n ih =>
    unfold walk at h
    unfold scan
    split
    case isTrue hlt =>
      rw [if_pos hlt] at h
      have hlen := h a mem_cons_self
      split
      case isTrue hp => exact Option.some_ne_none _
      case isFalse hp =>
        exact ih (fun x hx => h x (mem_cons_of_mem _ hx)) (by omega)
    case isFalse hlt => exact Option.some_ne_none _

end Walk

end RecordChain
end Horizon
