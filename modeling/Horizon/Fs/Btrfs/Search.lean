import Horizon.Lib.BinarySearch
import Mathlib.Algebra.Group.Nat.Defs
import Mathlib.Data.Prod.Lex

/-!
# Search in a B-tree node

`btrfs_find_key` and `btrfs_search_slot` of `btrfs/btree.c`.
-/

namespace Horizon
namespace Btrfs

open BinarySearch

structure Key where
  objectid : Nat
  type : Nat
  offset : Nat
  deriving DecidableEq

/-- An item takes at least 25 bytes of memory, so that no `int` overflows. -/
structure Node where
  level : Nat
  keys : List Key
  fits : 25 * keys.length < 2 ^ 32

def Key.side (a key : Key) : Ordering :=
  if a.objectid < key.objectid then .lt
  else if a.objectid > key.objectid then .gt
  else if a.type < key.type then .lt
  else if a.type > key.type then .gt
  else if a.offset < key.offset then .lt
  else if a.offset > key.offset then .gt
  else .eq

/-- Leaves and inner nodes are searched by the same loop. -/
def findKey (node : Node) (key : Key) : Option Int :=
  let nritems := node.keys.length
  let side i := ((node.keys[i]?).map (·.side key)).getD .eq
  match search side (nritems + 1) 0 (nritems - 1) with
  | none => none
  | some (true, mid) => some mid
  | some (false, low) =>
      if node.level = 0 then some low
      else if low >= nritems then some (nritems - 1)
      else some low

/-- The result and `slots[0]`.  The children of a node are not read: below an
inner node a null pointer is followed. -/
def searchSlot (node : Node) (key : Key) : Option (Int × Int) :=
  if node.level ≠ 0 then none
  else match findKey node key with
    | none => none
    | some slot =>
        if slot < node.keys.length ∧ node.keys[slot.toNat]? = some key then
          some (0, slot)
        else some (1, slot)

/-!
## The order of keys
-/

def Key.lex (a : Key) : Nat ×ₗ Nat ×ₗ Nat :=
  toLex (a.objectid, toLex (a.type, a.offset))

theorem lex_injective : Function.Injective Key.lex := by
  intro a b h
  cases a
  cases b
  simpa [Key.lex] using h

instance : LinearOrder Key := LinearOrder.lift' Key.lex lex_injective

theorem lt_iff (a b : Key) : a < b <-> a.objectid < b.objectid ∨
    a.objectid = b.objectid ∧ (a.type < b.type ∨
      a.type = b.type ∧ a.offset < b.offset) := by
  show a.lex < b.lex <-> _
  unfold Key.lex
  rw [Prod.Lex.toLex_lt_toLex, Prod.Lex.toLex_lt_toLex]

theorem side_eq (a key : Key) : a.side key = cmp a key := by
  cases hcmp : cmp a key with
  | lt =>
    rw [cmp_eq_lt_iff, lt_iff] at hcmp
    unfold Key.side
    split_ifs <;> first | rfl | omega
  | gt =>
    rw [cmp_eq_gt_iff, lt_iff] at hcmp
    unfold Key.side
    split_ifs <;> first | rfl | omega
  | eq =>
    rw [(cmp_eq_eq_iff _ _).mp hcmp]
    simp [Key.side]

theorem findKey_eq {node : Node} (key : Key)
    (h : node.keys.Pairwise (· < ·)) : findKey node key = some (
      if node.level ≠ 0 ∧ node.keys.length <= rank node.keys key then
        (node.keys.length : Int) - 1
      else rank node.keys key) := by
  have hside : forall i (hi : i < node.keys.length),
      ((node.keys[i]?).map (·.side key)).getD .eq = cmp node.keys[i] key := by
    intro i hi
    rw [List.getElem?_eq_getElem hi]
    exact side_eq _ _
  unfold findKey
  simp only [search_eq h hside]
  by_cases hkey : key ∈ node.keys
  · have hlt := rank_lt h hkey
    simp only [hkey, decide_true]
    rw [if_neg (by omega)]
  · simp only [hkey, decide_false]
    split_ifs <;> first | rfl | omega

/-- The search of a leaf counts the smaller keys, and reports whether the key is
there. -/
theorem leaf_search (node : Node) (key : Key) (hleaf : node.level = 0)
    (h : node.keys.Pairwise (· < ·)) :
    findKey node key = some (rank node.keys key : Int) ∧
      (node.keys[rank node.keys key]? = some key <-> key ∈ node.keys) ∧
      searchSlot node key = some
        (if key ∈ node.keys then 0 else 1, (rank node.keys key : Int)) := by
  have hfind : findKey node key = some (rank node.keys key : Int) := by
    rw [findKey_eq key h, if_neg (by simp [hleaf])]
  have hat : node.keys[rank node.keys key]? = some key <-> key ∈ node.keys :=
    ⟨List.mem_of_getElem?, getElem_rank h⟩
  refine ⟨hfind, hat, ?_⟩
  unfold searchSlot
  rw [if_neg (by simp [hleaf]), hfind]
  simp only [Int.toNat_natCast, hat]
  by_cases hkey : key ∈ node.keys
  · rw [if_pos ⟨Int.ofNat_lt.mpr (rank_lt h hkey), hkey⟩, if_pos hkey]
  · rw [if_neg (fun hboth => hkey hboth.right), if_neg hkey]

/-- The last pointer whose key is not greater, or the first one if there is none. -/
def IsChild (node : Node) (key : Key) (i : Nat) : Prop :=
  (exists a, node.keys[i]? = some a ∧ (key < a -> i = 0)) ∧
    forall j a, i < j -> node.keys[j]? = some a -> key < a

theorem isChild_rank {node : Node} {key : Key} (h : node.keys.Pairwise (· < ·))
    (hlt : rank node.keys key < node.keys.length) :
    IsChild node key (rank node.keys key) <->
      (key < node.keys[rank node.keys key] -> rank node.keys key = 0) := by
  unfold IsChild
  rw [and_iff_left, List.getElem?_eq_getElem hlt]
  · simp only [Option.some.injEq, exists_eq_left']
  · intro j a hj ha
    obtain ⟨hjlt, rfl⟩ := List.getElem?_eq_some_iff.mp ha
    exact lt_getElem h hjlt hj

/-- The child is found if the key is one of the node, or not between two. -/
theorem inner_search_iff (node : Node) (key : Key) (hinner : node.level ≠ 0)
    (hkeys : node.keys ≠ []) (h : node.keys.Pairwise (· < ·)) :
    (exists i : Nat, findKey node key = some (i : Int) ∧ IsChild node key i) <->
      key ∈ node.keys ∨ (forall a, a ∈ node.keys -> key < a) ∨
        forall a, a ∈ node.keys -> a < key := by
  have hpos := List.length_pos_iff.mpr hkeys
  rw [findKey_eq key h]
  by_cases hend : node.keys.length <= rank node.keys key
  · have hall : forall a, a ∈ node.keys -> a < key := by
      intro a ha
      obtain ⟨i, hi, rfl⟩ := List.getElem_of_mem ha
      exact (getElem_lt_iff h hi).mpr (by omega)
    refine iff_of_true ⟨node.keys.length - 1, ?_, ?_, ?_⟩ (.inr (.inr hall))
    · rw [if_pos ⟨hinner, hend⟩, Int.ofNat_sub hpos]
      rfl
    · refine ⟨_, List.getElem?_eq_getElem (by omega), fun hless => ?_⟩
      exact absurd hless (hall _ (List.getElem_mem _)).not_gt
    · intro j a hj ha
      rw [List.getElem?_eq_none (by omega)] at ha
      cases ha
  have hlt := Nat.not_le.mp hend
  have hnot := mt (getElem_lt_iff h hlt).mp (Nat.lt_irrefl _)
  rw [if_neg (fun hboth => hend hboth.right)]
  simp only [Option.some.injEq, Int.ofNat_inj, exists_eq_left',
    isChild_rank h hlt]
  constructor
  · intro hfirst
    rcases lt_trichotomy key node.keys[rank node.keys key] with
      hless | heq | hgreater
    · have hzero := hfirst hless
      refine .inr (.inl fun a ha => ?_)
      obtain ⟨j, hj, rfl⟩ := List.getElem_of_mem ha
      rcases Nat.eq_zero_or_pos j with rfl | hj'
      · simpa only [hzero] using hless
      · exact lt_getElem h hj (by omega)
    · exact .inl (heq ▸ List.getElem_mem hlt)
    · exact absurd hgreater hnot
  · rintro (hkey | hall | hall) hless
    · have hat := getElem_rank h hkey
      rw [List.getElem?_eq_getElem hlt, Option.some.injEq] at hat
      exact absurd hat hless.ne'
    · refine List.countP_eq_zero.mpr fun a ha hlow => ?_
      exact (hall a ha).not_gt (of_decide_eq_true hlow)
    · exact absurd (hall _ (List.getElem_mem hlt)) hnot

def threeKeys (level : Nat) : Node where
  level := level
  keys := [⟨1, 1, 0⟩, ⟨5, 1, 0⟩, ⟨9, 1, 0⟩]
  fits := by decide

theorem leaf_search_between : searchSlot (threeKeys 0) ⟨5, 0, 7⟩ = some (1, 1) :=
  (leaf_search (threeKeys 0) ⟨5, 0, 7⟩ rfl (by decide)).right.right

theorem inner_search_last : exists i : Nat,
    findKey (threeKeys 1) ⟨9, 2, 0⟩ = some (i : Int) ∧
      IsChild (threeKeys 1) ⟨9, 2, 0⟩ i :=
  (inner_search_iff (threeKeys 1) ⟨9, 2, 0⟩ (by decide) (by decide)
    (by decide)).mpr (.inr (.inr (by decide)))

/-- A key in the second child is looked for in the third one. -/
theorem inner_search_goes_right : findKey (threeKeys 1) ⟨6, 0, 0⟩ = some 2 ∧
    IsChild (threeKeys 1) ⟨6, 0, 0⟩ 1 ∧ ¬ IsChild (threeKeys 1) ⟨6, 0, 0⟩ 2 := by
  refine ⟨by decide, ⟨⟨⟨5, 1, 0⟩, rfl, by decide⟩, ?_⟩, ?_⟩
  · intro j a hj ha
    obtain ⟨hlt, rfl⟩ := List.getElem?_eq_some_iff.mp ha
    obtain rfl : j = 2 := Nat.le_antisymm (Nat.le_of_lt_succ hlt) hj
    show (⟨6, 0, 0⟩ : Key) < ⟨9, 1, 0⟩
    decide
  · rintro ⟨⟨a, ha, hfirst⟩, _⟩
    cases ha
    exact absurd (hfirst (by decide)) (by decide)

end Btrfs
end Horizon
