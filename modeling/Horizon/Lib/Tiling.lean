import Mathlib.Data.Nat.Bitwise
import Mathlib.Tactic.Ring
import Mathlib.Algebra.BigOperators.Intervals
import Mathlib.Algebra.Order.BigOperators.Group.Finset

/-!
# Tilings by aligned power-of-two blocks

A block of order `k` covers `2 ^ k` consecutive points.  A tiling is
a list of aligned blocks that covers every point of a given region exactly
once.  The points strictly inside a block carry a label; in the tilings used
here that label is the exact power of two dividing the point, which is the
order at which the point can become the start of a block again.
-/

namespace Horizon
namespace Tilings

open Function List

structure Block where
  start : Nat
  order : Nat
deriving DecidableEq, Repr

namespace Block

def size (b : Block) : Nat := 2 ^ b.order

def Covers (b : Block) (x : Nat) : Prop :=
  b.start <= x ∧ x < b.start + b.size

instance (b : Block) (x : Nat) : Decidable (b.Covers x) :=
  inferInstanceAs (Decidable (_ ∧ _))

def Inner (b : Block) (x : Nat) : Prop :=
  b.start < x ∧ x < b.start + b.size

def Disjoint (b c : Block) : Prop :=
  forall x, b.Covers x -> ¬ c.Covers x

def Aligned (b : Block) : Prop := 2 ^ b.order ∣ b.start

theorem size_pos (b : Block) : 0 < b.size :=
  Nat.two_pow_pos b.order

theorem covers_start (b : Block) : b.Covers b.start := by
  have hpos := b.size_pos
  exact ⟨Nat.le_refl _, by omega⟩

variable {b : Block} {x : Nat}

theorem Inner.covers (h : b.Inner x) : b.Covers x :=
  ⟨Nat.le_of_lt h.left, h.right⟩

theorem Covers.start_or_inner (h : b.Covers x) : b.start = x ∨ b.Inner x :=
  (Nat.eq_or_lt_of_le h.left).imp_right fun hlt => ⟨hlt, h.right⟩

end Block

/-!
## Buddies

Flipping bit `k` of a multiple of `2 ^ k` moves to the other half of
the enclosing block of order `k + 1`.
-/

variable {k o s t x : Nat} {b : Block} {bs cs : List Block}

theorem xor_two_pow_of_even (h : 2 ^ (k + 1) ∣ s) :
    s ^^^ 2 ^ k = s + 2 ^ k := by
  rcases h with ⟨m, rfl⟩
  have hshift : 2 ^ (k + 1) * m = (2 * m) <<< k := by
    rw [Nat.shiftLeft_eq]
    ring
  have hone : 2 ^ k = 1 <<< k := by rw [Nat.shiftLeft_eq, Nat.one_mul]
  have hbit : 2 * m ^^^ 1 = 2 * m + 1 := by
    apply Nat.eq_of_testBit_eq
    intro i
    cases i with
    | zero => simp [Nat.testBit_zero]
    | succ i =>
      have hhalf : (2 * m + 1) / 2 = m := by omega
      simp [Nat.testBit_succ, hhalf]
  rw [hshift, hone, ← Nat.shiftLeft_xor_distrib, hbit]
  simp only [Nat.shiftLeft_eq]
  ring

theorem xor_two_pow_of_odd (h : 2 ^ (k + 1) ∣ s) :
    (s + 2 ^ k) ^^^ 2 ^ k = s := by
  rw [← xor_two_pow_of_even h, Nat.xor_assoc, Nat.xor_self, Nat.xor_zero]

theorem aligned_cases (h : 2 ^ k ∣ s) :
    2 ^ (k + 1) ∣ s ∨ exists t, 2 ^ (k + 1) ∣ t ∧ s = t + 2 ^ k := by
  rcases h with ⟨m, rfl⟩
  rcases Nat.even_or_odd' m with ⟨n, hn | hn⟩
  · left
    exact ⟨n, by rw [hn, Nat.pow_succ]; ring⟩
  · right
    refine ⟨2 ^ (k + 1) * n, ⟨n, rfl⟩, ?_⟩
    rw [hn, Nat.pow_succ]
    ring

theorem mod_of_upper_half (h : 2 ^ (k + 1) ∣ t) :
    (t + 2 ^ k) % 2 ^ (k + 1) = 2 ^ k := by
  rcases h with ⟨m, rfl⟩
  have hlt : 2 ^ k < 2 ^ (k + 1) := by
    have hpos := Nat.two_pow_pos k
    omega
  rw [Nat.mul_add_mod, Nat.mod_eq_of_lt hlt]

/-- A multiple of `2 ^ o` in an aligned block of order at most `o`
is its start. -/
theorem Block.Covers.eq_start (hcov : b.Covers x) (halign : b.Aligned)
    (hx : 2 ^ o ∣ x) (hle : b.order <= o) : x = b.start := by
  have hx' : 2 ^ b.order ∣ x := Nat.dvd_trans (Nat.pow_dvd_pow 2 hle) hx
  rcases halign with ⟨m, hm⟩
  rcases hx' with ⟨n, hn⟩
  have hpos := Nat.two_pow_pos b.order
  have hlow := hcov.left
  have hhigh := hcov.right
  rw [hm, hn] at hlow hhigh
  have hmn : m <= n := Nat.le_of_mul_le_mul_left hlow hpos
  have hnm : n < m + 1 := by
    apply Nat.lt_of_mul_lt_mul_left (a := 2 ^ b.order)
    exact hhigh
  rw [hm, hn, show n = m by omega]

/-- An aligned block of order above `o` contains both halves of every
aligned block of order `o + 1` that it meets. -/
theorem Block.Covers.pair (hcov : b.Covers x) (halign : b.Aligned)
    (ht : 2 ^ (o + 1) ∣ t) (hlt : o < b.order) (hlow : t <= x)
    (hhigh : x < t + 2 ^ (o + 1)) : b.Covers t ∧ b.Covers (t + 2 ^ o) := by
  have hpow : 2 ^ (o + 1) ∣ 2 ^ b.order := Nat.pow_dvd_pow 2 hlt
  rcases Nat.dvd_trans hpow halign with ⟨m, hm⟩
  rcases hpow with ⟨w, hw⟩
  rcases ht with ⟨n, hn⟩
  have hsize : b.size = 2 ^ (o + 1) * w := hw
  have hlow' := hcov.left
  have hhigh' := hcov.right
  have hmn : m < n + 1 := by
    apply Nat.lt_of_mul_lt_mul_left (a := 2 ^ (o + 1))
    rw [Nat.mul_add, Nat.mul_one]
    omega
  have hnw : n < m + w := by
    apply Nat.lt_of_mul_lt_mul_left (a := 2 ^ (o + 1))
    rw [Nat.mul_add]
    omega
  have h1 : 2 ^ (o + 1) * m <= 2 ^ (o + 1) * n :=
    Nat.mul_le_mul_left _ (by omega)
  have h2 : 2 ^ (o + 1) * (n + 1) <= 2 ^ (o + 1) * (m + w) :=
    Nat.mul_le_mul_left _ (by omega)
  rw [Nat.mul_add, Nat.mul_add, Nat.mul_one] at h2
  refine ⟨⟨?_, ?_⟩, ⟨?_, ?_⟩⟩ <;> rw [hm] <;> try rw [hsize] <;> omega
  all_goals omega

/-!
## Cover counts

Counting how often a point is covered turns disjointness and exact coverage of
a list of blocks into one additive quantity.
-/

def coverCount (bs : List Block) (x : Nat) : Nat :=
  bs.countP (fun b => decide (b.Covers x))

def totalSize (bs : List Block) : Nat :=
  (bs.map Block.size).sum

@[simp]
theorem totalSize_nil : totalSize [] = 0 := rfl

@[simp]
theorem totalSize_cons (b : Block) (bs : List Block) :
    totalSize (b :: bs) = 2 ^ b.order + totalSize bs := by
  simp [totalSize, Block.size]

@[simp]
theorem totalSize_append (bs cs : List Block) :
    totalSize (bs ++ cs) = totalSize bs + totalSize cs := by
  simp [totalSize]

theorem coverCount_cons (b : Block) (bs : List Block) (x : Nat) :
    coverCount (b :: bs) x = coverCount bs x + if b.Covers x then 1 else 0 := by
  simp [coverCount, countP_cons]

theorem coverCount_pos :
    0 < coverCount bs x <-> exists b, b ∈ bs ∧ b.Covers x := by
  simp [coverCount, countP_pos_iff]

theorem coverCount_perm (h : bs.Perm cs) (x : Nat) :
    coverCount bs x = coverCount cs x :=
  h.countP_eq _

theorem totalSize_perm (h : bs.Perm cs) : totalSize bs = totalSize cs :=
  (h.map Block.size).sum_eq

theorem pairwise_disjoint_of_coverCount (h : forall x, coverCount bs x <= 1) :
    bs.Pairwise Block.Disjoint := by
  induction bs with
  | nil => exact List.Pairwise.nil
  | cons b bs ih =>
    refine List.Pairwise.cons ?_ (ih ?_)
    · intro c hc x hbx hcx
      have hcount := h x
      have hpos : 0 < coverCount bs x := coverCount_pos.mpr ⟨c, hc, hcx⟩
      rw [coverCount_cons, if_pos hbx] at hcount
      omega
    · intro x
      have hcount := h x
      rw [coverCount_cons] at hcount
      omega

theorem covers_halves (s k x : Nat) :
    (if (Block.mk s (k + 1)).Covers x then 1 else 0) =
      (if (Block.mk s k).Covers x then 1 else 0) +
        (if (Block.mk (s + 2 ^ k) k).Covers x then 1 else 0) := by
  have hhalf : 2 ^ (k + 1) = 2 ^ k + 2 ^ k := by omega
  simp only [Block.Covers, Block.size, hhalf, ← Nat.add_assoc]
  by_cases hlow : s <= x <;> by_cases hmid : x < s + 2 ^ k <;>
    by_cases hhigh : x < s + 2 ^ k + 2 ^ k <;>
    simp [hlow, hmid, hhigh] <;> omega

theorem totalSize_eq_sum {bound : Nat}
    (h : forall b, b ∈ bs -> b.start + b.size <= bound) :
    totalSize bs = ∑ x ∈ Finset.range bound, coverCount bs x := by
  induction bs with
  | nil => simp [totalSize, coverCount]
  | cons b bs ih =>
    have hb := h b mem_cons_self
    have hfilter : (Finset.range bound).filter (fun x => b.Covers x) =
        Finset.Ico b.start (b.start + b.size) := by
      ext x
      rw [Finset.mem_filter, Finset.mem_range, Finset.mem_Ico]
      constructor
      · intro hx
        exact hx.right
      · intro hx
        exact ⟨by omega, hx⟩
    have hsum : (∑ x ∈ Finset.range bound, if b.Covers x then 1 else 0) =
        b.size := by
      rw [← Finset.card_filter, hfilter, Nat.card_Ico]
      omega
    simp only [coverCount_cons, Finset.sum_add_distrib, hsum]
    rw [← ih (fun c hc => h c (mem_cons_of_mem b hc))]
    simp only [totalSize, map_cons, sum_cons]
    omega

/-!
## Tilings
-/

/--
The blocks of `bs` are aligned, lie below `bound`, cover each point
`region` times, and the label of a point strictly inside a block is the
exact power of two that divides it.
-/
structure Tiling (bound : Nat) (region : Nat -> Nat) (label : Nat -> Nat)
    (bs : List Block) : Prop where
  aligned : forall b, b ∈ bs -> b.Aligned
  bounded : forall b, b ∈ bs -> b.start + b.size <= bound
  cover : forall x, coverCount bs x = region x
  region_le : forall x, region x <= 1
  inner : forall b, b ∈ bs -> forall x c, b.Inner x ->
    x % 2 ^ (c + 1) = 2 ^ c -> label x = c

namespace Tiling

variable {bound : Nat} {region label : Nat -> Nat} {bs cs : List Block}

section

variable (h : Tiling bound region label bs)
include h

theorem perm (hp : bs.Perm cs) :
    Tiling bound region label cs where
  aligned b hb := h.aligned b (hp.mem_iff.mpr hb)
  bounded b hb := h.bounded b (hp.mem_iff.mpr hb)
  cover x := by
    rw [← coverCount_perm hp x]
    exact h.cover x
  region_le := h.region_le
  inner b hb := h.inner b (hp.mem_iff.mpr hb)

theorem addPoint {p : Nat} (hp : p < bound) (hregion : region p = 0) :
    Tiling bound (update region p 1) label (⟨p, 0⟩ :: bs) := by
  have hcovers (x : Nat) : (Block.mk p 0).Covers x <-> x = p := by
    unfold Block.Covers Block.size
    simp only [Nat.pow_zero]
    omega
  constructor
  · intro b hb
    rcases mem_cons.mp hb with rfl | hb
    · exact ⟨p, by simp⟩
    · exact h.aligned b hb
  · intro b hb
    rcases mem_cons.mp hb with rfl | hb
    · exact hp
    · exact h.bounded b hb
  · intro x
    rw [coverCount_cons, h.cover x]
    by_cases hx : x = p
    · subst hx
      rw [if_pos ((hcovers x).mpr rfl), update_self, hregion]
    · rw [if_neg (fun hc => hx ((hcovers x).mp hc)), update_of_ne hx]
      rfl
  · intro x
    by_cases hx : x = p
    · subst hx
      rw [update_self]
    · rw [update_of_ne hx]
      exact h.region_le x
  · intro b hb x c hx hc
    rcases mem_cons.mp hb with rfl | hb
    · have hlt : p < x := hx.left
      exact absurd ((hcovers x).mp hx.covers) (Nat.ne_of_gt hlt)
    · exact h.inner b hb x c hx hc

theorem pairwise_disjoint :
    bs.Pairwise Block.Disjoint := by
  apply pairwise_disjoint_of_coverCount
  intro x
  rw [h.cover x]
  exact h.region_le x

theorem totalSize_le :
    totalSize bs <= bound := by
  rw [totalSize_eq_sum h.bounded]
  calc
    ∑ x ∈ Finset.range bound, coverCount bs x
        <= ∑ x ∈ Finset.range bound, 1 := by
      apply Finset.sum_le_sum
      intro x _
      rw [h.cover x]
      exact h.region_le x
    _ = bound := by
      simp

end

variable {b c : Block} {k s : Nat}

section

variable (h : Tiling bound region label (b :: cs))
include h

theorem not_covers {x : Nat} (hc : c ∈ cs) (hb : b.Covers x) :
    ¬ c.Covers x := by
  have hpair := h.pairwise_disjoint
  exact (pairwise_cons.mp hpair).left c hc x hb

theorem start_not_inner (hc : c ∈ b :: cs) : ¬ c.Inner b.start := by
  intro hinner
  rcases mem_cons.mp hc with rfl | hmem
  · exact absurd hinner.left (Nat.lt_irrefl _)
  · exact h.not_covers hmem b.covers_start hinner.covers

theorem relabel {label' : Nat -> Nat}
    (hsame : forall x, x ≠ b.start -> label' x = label x) :
    Tiling bound region label' (b :: cs) where
  aligned := h.aligned
  bounded := h.bounded
  cover := h.cover
  region_le := h.region_le
  inner := by
    intro c hc x k hx hk
    have hne : x ≠ b.start := by
      intro heq
      exact h.start_not_inner hc (heq ▸ hx)
    rw [hsame x hne]
    exact h.inner c hc x k hx hk

end

theorem split (h : Tiling bound region label (⟨s, k + 1⟩ :: cs)) :
    Tiling bound region label (⟨s, k⟩ :: ⟨s + 2 ^ k, k⟩ :: cs) ∧
      label (s + 2 ^ k) = k := by
  have halign := h.aligned ⟨s, k + 1⟩ mem_cons_self
  have hbound := h.bounded ⟨s, k + 1⟩ mem_cons_self
  simp only [Block.Aligned, Block.size] at halign hbound
  have hlow : 2 ^ k ∣ s := Nat.dvd_trans (Nat.pow_dvd_pow 2 (Nat.le_succ k)) halign
  have hlabel := h.inner ⟨s, k + 1⟩ mem_cons_self
  refine ⟨⟨?_, ?_, ?_, h.region_le, ?_⟩, ?_⟩
  · intro b hb
    simp only [mem_cons] at hb
    rcases hb with rfl | rfl | hmem
    · exact hlow
    · exact Nat.dvd_add hlow (Nat.dvd_refl _)
    · exact h.aligned b (mem_cons_of_mem _ hmem)
  · intro b hb
    simp only [mem_cons] at hb
    rcases hb with rfl | rfl | hmem
    · simp only [Block.size]
      omega
    · simp only [Block.size]
      omega
    · exact h.bounded b (mem_cons_of_mem _ hmem)
  · intro x
    have hcover := h.cover x
    rw [coverCount_cons, covers_halves] at hcover
    rw [coverCount_cons, coverCount_cons]
    omega
  · intro b hb x c hx hc
    simp only [mem_cons] at hb
    rcases hb with rfl | rfl | hmem
    · apply hlabel x c ?_ hc
      have h1 := hx.left
      have h2 := hx.right
      simp only [Block.size] at h1 h2
      exact ⟨h1, by simp only [Block.size]; omega⟩
    · apply hlabel x c ?_ hc
      have h1 := hx.left
      have h2 := hx.right
      simp only [Block.size] at h1 h2
      exact ⟨by simp only; omega, by simp only [Block.size]; omega⟩
    · exact h.inner b (mem_cons_of_mem _ hmem) x c hx hc
  · apply hlabel
    · exact ⟨by simp only; omega, by simp only [Block.size]; omega⟩
    · exact mod_of_upper_half halign

/--
Merging the halves of an aligned block.  The start of the upper half becomes
an inner point, so it must carry its order as label.
-/
theorem merge (h : Tiling bound region label (⟨s, k⟩ :: ⟨s + 2 ^ k, k⟩ :: cs))
    (halign : 2 ^ (k + 1) ∣ s) (hlabel : label (s + 2 ^ k) = k) :
    Tiling bound region label (⟨s, k + 1⟩ :: cs) := by
  have hupper : (⟨s + 2 ^ k, k⟩ : Block) ∈
      (⟨s, k⟩ :: ⟨s + 2 ^ k, k⟩ :: cs : List Block) := by
    simp
  refine ⟨?_, ?_, ?_, h.region_le, ?_⟩
  · intro b hb
    rcases mem_cons.mp hb with rfl | hmem
    · exact halign
    · exact h.aligned b (by simp [hmem])
  · intro b hb
    rcases mem_cons.mp hb with rfl | hmem
    · have hbound := h.bounded _ hupper
      simp only [Block.size] at hbound ⊢
      omega
    · exact h.bounded b (by simp [hmem])
  · intro x
    have hcover := h.cover x
    rw [coverCount_cons, coverCount_cons] at hcover
    rw [coverCount_cons, covers_halves]
    omega
  · intro b hb x c hx hc
    rcases mem_cons.mp hb with rfl | hmem
    · have h1 := hx.left
      have h2 := hx.right
      simp only [Block.size] at h1 h2
      -- An inner point of the union lies in one half or starts the upper one.
      by_cases hlt : x < s + 2 ^ k
      · exact h.inner ⟨s, k⟩ (by simp) x c ⟨h1, hlt⟩ hc
      · by_cases heq : x = s + 2 ^ k
        · subst heq
          rw [hlabel]
          by_contra hne
          rcases Nat.lt_or_gt_of_ne hne with hkc | hck
          · have hdvd : 2 ^ (k + 1) ∣ 2 ^ c := Nat.pow_dvd_pow 2 hkc
            have hmod := mod_of_upper_half halign
            have hdvdx : 2 ^ (k + 1) ∣ s + 2 ^ k := by
              rw [← Nat.div_add_mod (s + 2 ^ k) (2 ^ (c + 1)), hc]
              apply Nat.dvd_add _ hdvd
              exact Dvd.dvd.mul_right
                (Nat.pow_dvd_pow 2 (by omega)) _
            omega
          · have hdvd : 2 ^ (c + 1) ∣ s + 2 ^ k := by
              apply Nat.dvd_add
              · exact Nat.dvd_trans (Nat.pow_dvd_pow 2 (by omega)) halign
              · exact Nat.pow_dvd_pow 2 hck
            omega
        · apply h.inner ⟨s + 2 ^ k, k⟩ (by simp) x c ?_ hc
          exact ⟨by simp only; omega, by simp only [Block.size]; omega⟩
    · exact h.inner b (by simp [hmem]) x c hx hc

end Tiling

end Tilings
end Horizon
