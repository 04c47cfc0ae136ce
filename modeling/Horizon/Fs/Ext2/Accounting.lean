import Horizon.Fs.Ext2.Layout
import Mathlib.Algebra.BigOperators.Fin

/-!
# Accounting of free blocks and inodes

The bitmaps, the counters in the group descriptors and the counters in the
superblock record the same fact.  This module shows that the three agree after
every sequence of allocations and frees, with device calls failing anywhere,
and says when a failed allocation has taken nothing.
-/

namespace Horizon
namespace Ext2

open Bytes
open Bitmaps

/-- The bitmaps and the two levels of counters agree. -/
structure Accounting (r : Resource) (m : Mount) : Prop where
  group : forall g, g < m.geo.groupsCount ->
    (m.groups g).free r =
      clearCount (m.block ((m.groups g).bitmap r)) (m.geo.perGroup r)
  total : m.free r = ∑ g ∈ Finset.range m.geo.groupsCount, (m.groups g).free r
  width16 : forall g, g < m.geo.groupsCount -> (m.groups g).free r < 2 ^ 16
  width32 : m.free r < 2 ^ 32

variable {g i j n : Nat} {r : Resource} {m' : Mount} {v : Bool}
    {f16 f32 : Nat -> Nat}

theorem sum_range_replace (f f' : Nat -> Nat) (hg : g < n)
    (hother : forall x, x ≠ g -> f' x = f x) :
    ∑ x ∈ Finset.range n, f' x + f g = ∑ x ∈ Finset.range n, f x + f' g := by
  have hmem : g ∈ Finset.range n := Finset.mem_range.mpr hg
  rw [← Finset.add_sum_erase _ f hmem, ← Finset.add_sum_erase _ f' hmem]
  have hrest : ∑ x ∈ (Finset.range n).erase g, f' x =
      ∑ x ∈ (Finset.range n).erase g, f x := by
    apply Finset.sum_congr rfl
    intro x hx
    exact hother x (Finset.ne_of_mem_erase hx)
  omega

theorem dec16_of_pos (hpos : 0 < n) (hlt : n < 2 ^ 16) : dec16 n = n - 1 := by
  unfold dec16
  omega

theorem dec32_of_pos (hpos : 0 < n) (hlt : n < 2 ^ 32) : dec32 n = n - 1 := by
  unfold dec32
  omega

theorem inc16_of_lt (hlt : n + 1 < 2 ^ 16) : inc16 n = n + 1 :=
  Nat.mod_eq_of_lt hlt

theorem inc32_of_lt (hlt : n + 1 < 2 ^ 32) : inc32 n = n + 1 :=
  Nat.mod_eq_of_lt hlt

namespace BitChange

variable {r : Resource} {g j : Nat} {m m' : Mount}

variable {v : Bool} {f16 f32 : Nat -> Nat} {g' : Nat} {r' : Resource}

section

variable (h : BitChange r g j v f16 f32 m m') (hlayout : Layout m)
  (hg : g < m.geo.groupsCount) (hg' : g' < m.geo.groupsCount)
include h hlayout hg hg'

theorem otherBitmap (hne : ¬ (g' = g ∧ r' = r)) :
    SameBlock m m' ((m.groups g').bitmap r') := by
  apply h.other
  · intro heq
    exact hne (hlayout.bitmapInj g' g r' r hg' hg heq)
  · exact hlayout.bitmapMeta g' r' hg'

theorem clearCount_other (hne : ¬ (g' = g ∧ r' = r)) :
    clearCount (m'.block ((m'.groups g').bitmap r')) (m'.geo.perGroup r') =
      clearCount (m.block ((m.groups g').bitmap r')) (m.geo.perGroup r') := by
  rw [h.bitmap, h.geo]
  apply clearCount_congr
  intro k hk
  have hfits := hlayout.fits r'
  apply bitTest_congr
  exact h.otherBitmap hlayout hg hg' hne _ (by omega)

end

section

variable (h : BitChange r g j v f16 f32 m m') (hlayout : Layout m)
  (hg : g < m.geo.groupsCount) (hacct : Accounting r m)
include h

theorem count_other {x : Nat} (hx : x ≠ g) :
    (m'.groups x).free r = (m.groups x).free r := by
  rw [h.count, if_neg (fun hboth => hx hboth.left)]

include hg hacct

theorem sum_free : ∑ x ∈ Finset.range m.geo.groupsCount, (m'.groups x).free r +
    (m.groups g).free r = m.free r + (m'.groups g).free r := by
  rw [hacct.total]
  exact sum_range_replace (fun x => (m.groups x).free r)
    (fun x => (m'.groups x).free r) hg (fun _ => h.count_other)

include hlayout

theorem accounting (hself : (m'.groups g).free r =
      clearCount (m'.block ((m.groups g).bitmap r)) (m.geo.perGroup r))
    (htotal : m'.free r + (m.groups g).free r =
      m.free r + (m'.groups g).free r)
    (h16 : (m'.groups g).free r < 2 ^ 16) (h32 : m'.free r < 2 ^ 32) :
    Accounting r m' := by
  have hsum := h.sum_free hg hacct
  refine ⟨?_, ?_, ?_, h32⟩
  · intro g' hg'
    rw [h.geo] at hg'
    by_cases hgg : g' = g
    · rw [hgg, h.bitmap, h.geo]
      exact hself
    · have hne : ¬ (g' = g ∧ r = r) := fun hboth => hgg hboth.left
      rw [h.count_other hgg, h.clearCount_other hlayout hg hg' hne]
      exact hacct.group g' hg'
  · rw [h.geo]
    omega
  · intro g' hg'
    rw [h.geo] at hg'
    by_cases hgg : g' = g
    · rw [hgg]
      exact h16
    · rw [h.count_other hgg]
      exact hacct.width16 g' hg'

end

theorem accounting_take (h : BitChange r g j true dec16 dec32 m m')
    (hlayout : Layout m) (hg : g < m.geo.groupsCount)
    (hj : j < m.geo.perGroup r)
    (hclear : bitTest (m.block ((m.groups g).bitmap r)) j = false)
    (hacct : Accounting r m) : Accounting r m' := by
  have hfits := hlayout.fits r
  have hpos : 0 < (m.groups g).free r := by
    rw [hacct.group g hg]
    exact clearCount_pos hj hclear
  have hbits : clearCount (m'.block ((m.groups g).bitmap r))
      (m.geo.perGroup r) + 1 = (m.groups g).free r := by
    rw [hacct.group g hg, ← clearCount_bitSet hj hclear]
    congr 1
    apply clearCount_congr
    intro k hk
    rw [h.bit k (by omega), bitTest_bitSet_ite]
  have h16 := hacct.width16 g hg
  have h32 := hacct.width32
  have hself : (m'.groups g).free r = (m.groups g).free r - 1 := by
    rw [h.count, if_pos ⟨rfl, rfl⟩, dec16_of_pos hpos h16]
  have hsum := h.sum_free hg hacct
  have htotal : m'.free r = m.free r - 1 := by
    rw [h.total, if_pos rfl, dec32_of_pos (by omega) h32]
  exact h.accounting hlayout hg hacct (by omega) (by omega) (by omega)
    (by omega)

theorem accounting_release (h : BitChange r g j false inc16 inc32 m m')
    (hlayout : Layout m) (hg : g < m.geo.groupsCount)
    (hj : j < m.geo.perGroup r)
    (hused : bitTest (m.block ((m.groups g).bitmap r)) j = true)
    (hroom : (m.groups g).free r + 1 < 2 ^ 16)
    (htotal : m.geo.groupsCount * m.geo.perGroup r < 2 ^ 32)
    (hacct : Accounting r m) : Accounting r m' := by
  have hfits := hlayout.fits r
  have hbits : clearCount (m'.block ((m.groups g).bitmap r))
      (m.geo.perGroup r) = (m.groups g).free r + 1 := by
    rw [hacct.group g hg, ← clearCount_bitClear hj hused]
    apply clearCount_congr
    intro k hk
    rw [h.bit k (by omega), bitTest_bitClear_ite]
  have hself : (m'.groups g).free r = (m.groups g).free r + 1 := by
    rw [h.count, if_pos ⟨rfl, rfl⟩, inc16_of_lt hroom]
  -- The new total counts clear bits, so it is bounded by the number of bits.
  have hbound : ∑ x ∈ Finset.range m.geo.groupsCount, (m'.groups x).free r <=
      m.geo.groupsCount * m.geo.perGroup r := by
    have hle := Finset.sum_le_card_nsmul (Finset.range m.geo.groupsCount)
      (fun x => (m'.groups x).free r) (m.geo.perGroup r) (by
        intro x hx
        by_cases hxg : x = g
        · rw [hxg, hself, ← hbits]
          exact clearCount_le _ _
        · rw [h.count_other hxg, hacct.group x (Finset.mem_range.mp hx)]
          exact clearCount_le _ _)
    rwa [Finset.card_range, smul_eq_mul] at hle
  have hsum := h.sum_free hg hacct
  have hnew : m'.free r = m.free r + 1 := by
    rw [h.total, if_pos rfl, inc32_of_lt (by omega)]
  exact h.accounting hlayout hg hacct (by omega) (by omega) (by omega)
    (by omega)

end BitChange

variable {m : Mount}

theorem Accounting.quiet (h : Accounting r m) (hquiet : Quiet m m') :
    Accounting r m' := by
  constructor
  · intro g hg
    rw [hquiet.geo] at hg
    rw [hquiet.groups, hquiet.block, hquiet.geo]
    exact h.group g hg
  · rw [hquiet.free, hquiet.geo, hquiet.groups]
    exact h.total
  · intro g hg
    rw [hquiet.geo] at hg
    rw [hquiet.groups]
    exact h.width16 g hg
  · rw [hquiet.free]
    exact h.width32

/-!
## Allocating a block
-/

theorem ext2WriteGroups_ok {gdescBlock : Nat}
    (h : forall k, k < n -> m.io.getD k false = false) :
    (ext2WriteGroups gdescBlock n i m).1 = true := by
  induction n generalizing i m with
  | zero => rfl
  | succ n ih =>
    have hhead : m.io.headD false = false := by
      rw [← getD_first]
      exact h 0 (Nat.succ_pos n)
    unfold ext2WriteGroups
    simp only [ext2WriteBlock_eq, hhead, Bool.false_eq_true, if_false]
    apply ih
    intro k hk
    show m.io.tail.getD k false = false
    rw [getD_tail]
    exact h (k + 1) (by omega)

theorem ext2WriteSuper_ok
    (h : forall k, k < 1 + m.geo.gdescBlocks -> m.io.getD k false = false) :
    (ext2WriteSuper m).1 = true := by
  have hhead : m.io.headD false = false := by
    rw [← getD_first]
    exact h 0 (by omega)
  unfold ext2WriteSuper deviceWrite
  rw [deviceFault_eq]
  simp only [hhead]
  apply ext2WriteGroups_ok
  intro k hk
  show m.io.tail.getD k false = false
  rw [getD_tail]
  exact h (k + 1) (by
    have hk' : k < m.geo.gdescBlocks := hk
    omega)

/--
The device calls after reading and writing a bitmap succeed, unless one of those
two failed.
-/
theorem ext2WriteSuper_after {m m1 : Mount} (hgeo : m1.geo = m.geo)
    (hread : m.io.getD 0 false = false) (hwrite : m.io.getD 1 false = false)
    (hio : m1.io = m.io.tail.tail)
    (h : m.io.getD 0 false = true ∨ m.io.getD 1 false = true ∨
      forall k, k < 1 + m.geo.gdescBlocks -> m.io.getD (2 + k) false = false) :
    (ext2WriteSuper m1).1 = true := by
  rcases h with hbad | hbad | hgood
  · rw [hread] at hbad
    cases hbad
  · rw [hwrite] at hbad
    cases hbad
  · apply ext2WriteSuper_ok
    intro k hk
    rw [hgeo] at hk
    rw [hio, getD_tail, getD_tail, show k + 1 + 1 = 2 + k by omega]
    exact hgood k hk

theorem not_accounting_of_full (hi : i < m.geo.groupsCount)
    (hpos : 0 < (m.groups i).freeBlocksCount)
    (hfind : firstClear (m.block (m.groups i).blockBitmap)
      m.geo.blocksPerGroup 0 = none) : ¬ Accounting .block m := by
  intro hacct
  have hcount : (m.groups i).freeBlocksCount = _ := hacct.group i hi
  rw [hcount] at hpos
  rcases List.countP_pos_iff.mp hpos with ⟨k, hk, hbit⟩
  have hlt : k < 0 + m.geo.blocksPerGroup := by
    rw [Nat.zero_add]
    exact List.mem_range.mp hk
  have hset := firstClear_none hfind (Nat.zero_le k) hlt
  have hclear : (!bitTest (m.block (m.groups i).blockBitmap) k) = true := hbit
  rw [hset] at hclear
  cases hclear

/--
How `ext2_new_block` ends: without a change, or after taking a clear bit.  When
the counters agree with the bitmaps, only one bitmap is read before that.
-/
theorem ext2NewBlockLoop_effect (h : Layout m) (hlow : LowTables m)
    (hn : i + n <= m.geo.groupsCount) :
    (Quiet m (ext2NewBlockLoop n i m).2 ∧ (ext2NewBlockLoop n i m).1 = 0) ∨
    exists g j m1,
      g < m.geo.groupsCount ∧ j < m.geo.blocksPerGroup ∧
      bitTest (m.block (m.groups g).blockBitmap) j = false ∧
      BitChange .block g j true dec16 dec32 m
        (ext2NewBlockLoop n i m).2 ∧
      (ext2NewBlockLoop n i m).1 =
        (if (ext2WriteSuper m1).1 then
          (g * m.geo.blocksPerGroup + j + m.geo.firstDataBlock) % 2 ^ 32
        else 0) ∧
      m1.geo = m.geo ∧ m1.io <:+ m.io ∧
      (Accounting .block m -> m.io.getD 0 false = false ∧
        m.io.getD 1 false = false ∧ m1.io = m.io.tail.tail) := by
  induction n generalizing i m with
  | zero => exact Or.inl ⟨Quiet.refl m, rfl⟩
  | succ n ih =>
    unfold ext2NewBlockLoop
    by_cases hzero : (m.groups i).freeBlocksCount = 0
    · rw [if_pos hzero]
      exact ih h hlow (by omega)
    rw [if_neg hzero]
    have hi : i < m.geo.groupsCount := by omega
    rcases fetchBitmap_cases .block h hlow hi with
      ⟨m1, hmem, hquiet⟩ | ⟨m1, m2, hmem, hread, hquiet⟩ |
      ⟨m1, m2, hmem, hread, hquiet, hfirst, hio2⟩
    · simp only [hmem]
      exact Or.inl ⟨hquiet, trivial⟩
    · simp only [GroupDesc.bitmap] at hread
      simp only [hmem, hread]
      exact Or.inl ⟨hquiet, trivial⟩
    simp only [GroupDesc.bitmap] at hread
    simp only [hmem, hread]
    have hbits : m2.block (m2.groups i).blockBitmap =
        m.block (m.groups i).blockBitmap := by
      rw [hquiet.block, hquiet.groups]
    cases hfind : firstClear (m2.block (m2.groups i).blockBitmap)
        m2.geo.blocksPerGroup 0 with
    | none =>
      have hoff : ¬ Accounting .block m := by
        rw [hbits, hquiet.geo] at hfind
        exact not_accounting_of_full hi (Nat.pos_of_ne_zero hzero) hfind
      rcases ih (i := i + 1) (h.frame hquiet.toFrame)
          (hlow.frame hquiet.toFrame) (by rw [hquiet.geo]; omega) with
        ⟨hdone, hres⟩ | ⟨g, j, m3, hg, hj, hclear, hchange, hres, hgeo, hio3, _⟩
      · exact Or.inl ⟨hquiet.trans hdone, hres⟩
      · rw [hquiet.geo] at hg hj hres hgeo
        rw [hquiet.block, hquiet.groups] at hclear
        exact Or.inr ⟨g, j, m3, hg, hj, hclear,
          hchange.of_quiet hquiet, hres, hgeo,
          hio3.trans hquiet.io,
          fun hacct => absurd hacct hoff⟩
    | some j =>
      rcases firstClear_some hfind with ⟨hj, hclear⟩
      rw [hquiet.geo, Nat.zero_add] at hj
      rw [hbits] at hclear
      rcases takeBit_cases .block j h hlow hi hquiet with ⟨m3, htake, hquiet3⟩ |
        ⟨m3, ok, m4, htake, hsuper, hnext, hio3, hgeo3, hchange⟩
      · simp only [GroupDesc.bitmap] at htake
        simp only [htake]
        exact Or.inl ⟨hquiet3, trivial⟩
      · simp only [GroupDesc.bitmap] at htake
        simp only [htake]
        right
        rw [hio2] at hnext hio3
        have hsuffix : m3.io <:+ m.io := by
          rw [hio3]
          exact (List.tail_suffix _).trans (List.tail_suffix _)
        refine ⟨i, j, m3, hi, hj, hclear, ?_, ?_, hgeo3, hsuffix, ?_⟩
        · cases ok <;> exact hchange
        · rw [hsuper]
          cases ok with
          | true => simp only [hchange.geo, if_true]
          | false => rfl
        · intro _
          refine ⟨hfirst, ?_, hio3⟩
          rw [← getD_tail, getD_first]
          exact hnext

/-!
## Runs
-/

def blockGroup (m : Mount) (b : Nat) : Nat :=
  (b - m.geo.firstDataBlock) / m.geo.blocksPerGroup

def blockIndex (m : Mount) (b : Nat) : Nat :=
  (b - m.geo.firstDataBlock) % m.geo.blocksPerGroup

def Allocated (m : Mount) (b : Nat) : Prop :=
  m.geo.firstDataBlock <= b ∧ blockGroup m b < m.geo.groupsCount ∧
    bitTest (m.block (m.groups (blockGroup m b)).blockBitmap)
      (blockIndex m b) = true

instance (m : Mount) (b : Nat) : Decidable (Allocated m b) :=
  inferInstanceAs (Decidable (_ ∧ _ ∧ _))

/--
A well-formed mount: its tables do not overlap, its block numbers fit 32 bits,
and its bitmaps and counters agree.
-/
structure WellFormed (m : Mount) : Prop where
  layout : Layout m
  perGroup : 0 < m.geo.blocksPerGroup
  numbers : m.geo.groupsCount * m.geo.blocksPerGroup +
    m.geo.firstDataBlock < 2 ^ 32
  accounting : Accounting Resource.block m

theorem Allocated.quiet (h : Quiet m m') (b : Nat) :
    Allocated m' b <-> Allocated m b := by
  unfold Allocated blockGroup blockIndex
  rw [h.geo, h.block, h.groups]

theorem BitChange.bitTest_eq (h : BitChange r g j v f16 f32 m m')
    (hlayout : Layout m) (hg : g < m.geo.groupsCount) {g' k : Nat}
    {r' : Resource} (hg' : g' < m.geo.groupsCount) (hk : k < m.geo.perGroup r') :
    bitTest (m'.block ((m'.groups g').bitmap r')) k =
      if (g' = g ∧ r' = r) ∧ k = j then v
      else bitTest (m.block ((m.groups g').bitmap r')) k := by
  have hfits := hlayout.fits r'
  rw [h.bitmap]
  by_cases hsame : g' = g ∧ r' = r
  · rcases hsame with ⟨rfl, rfl⟩
    rw [h.bit k (by omega)]
    simp
  · rw [if_neg (fun hall => hsame hall.left)]
    apply bitTest_congr
    exact h.otherBitmap hlayout hg hg' hsame _ (by omega)

theorem Frame.blockGroup (h : Frame m m') (b : Nat) :
    Ext2.blockGroup m' b = Ext2.blockGroup m b := by
  unfold Ext2.blockGroup
  rw [h.geo]

theorem Frame.blockIndex (h : Frame m m') (b : Nat) :
    Ext2.blockIndex m' b = Ext2.blockIndex m b := by
  unfold Ext2.blockIndex
  rw [h.geo]

theorem Allocated.bitChange (hlayout : Layout m)
    (hpos : 0 < m.geo.blocksPerGroup) (h : BitChange .block g j v f16 f32 m m')
    (hg : g < m.geo.groupsCount) (b : Nat) :
    Allocated m' b <-> m.geo.firstDataBlock <= b ∧
      blockGroup m b < m.geo.groupsCount ∧
      (if blockGroup m b = g ∧ blockIndex m b = j then v
        else bitTest (m.block (m.groups (blockGroup m b)).blockBitmap)
          (blockIndex m b)) = true := by
  have hlt : blockIndex m b < m.geo.perGroup .block :=
    Nat.mod_lt _ hpos
  unfold Allocated
  rw [h.blockGroup, h.blockIndex, h.geo]
  apply and_congr_right
  intro _
  apply and_congr_right
  intro hb
  have hbit := h.bitTest_eq hlayout hg hb hlt
  simp only [and_true] at hbit
  exact iff_of_eq (congrArg (fun x => x = true) hbit)

inductive BlockCall where
  | newBlock
  | freeBlock (block : Nat)

def runBlockCall (m : Mount) : BlockCall -> Mount
  | BlockCall.newBlock => (ext2NewBlock m).2
  | BlockCall.freeBlock block => (ext2FreeBlock m block).2

def runBlockCalls (m : Mount) (calls : List BlockCall) : Mount :=
  calls.foldl runBlockCall m

/--
Block number zero, which the return value cannot name, is not free.  Once the
bitmap is read and written, the device calls of `ext2_write_super` succeed.
-/
def NewBlockOk (m : Mount) : Prop :=
  (m.geo.firstDataBlock = 0 -> Allocated m 0) ∧
    (m.io.getD 0 false = true ∨ m.io.getD 1 false = true ∨
      forall k, k < 1 + m.geo.gdescBlocks -> m.io.getD (2 + k) false = false)

instance (m : Mount) : Decidable (NewBlockOk m) :=
  inferInstanceAs (Decidable (_ ∧ _))

def FreeBlockOk (m : Mount) (block : Nat) : Prop :=
  Allocated m block ∧
    (m.groups (blockGroup m block)).freeBlocksCount + 1 < 2 ^ 16

instance (m : Mount) (block : Nat) : Decidable (FreeBlockOk m block) :=
  inferInstanceAs (Decidable (_ ∧ _))

def BlockCallOk (m : Mount) : BlockCall -> Prop
  | BlockCall.newBlock => NewBlockOk m
  | BlockCall.freeBlock block => FreeBlockOk m block

instance (m : Mount) (call : BlockCall) : Decidable (BlockCallOk m call) :=
  match call with
  | BlockCall.newBlock => inferInstanceAs (Decidable (NewBlockOk m))
  | BlockCall.freeBlock block =>
      inferInstanceAs (Decidable (FreeBlockOk m block))

def BlockRunOk : Mount -> List BlockCall -> Prop
  | _, [] => True
  | m, call :: calls => BlockCallOk m call ∧
      BlockRunOk (runBlockCall m call) calls

instance decidableBlockRunOk :
    (m : Mount) -> (calls : List BlockCall) -> Decidable (BlockRunOk m calls)
  | _, [] => isTrue trivial
  | m, call :: calls =>
      have : Decidable (BlockRunOk (runBlockCall m call) calls) :=
        decidableBlockRunOk (runBlockCall m call) calls
      inferInstanceAs (Decidable (BlockCallOk m call ∧
        BlockRunOk (runBlockCall m call) calls))

theorem WellFormed.frame (h : WellFormed m) (hframe : Frame m m')
    (hacct : Accounting .block m') : WellFormed m' := by
  constructor
  · exact h.layout.frame hframe
  · rw [hframe.geo]
    exact h.perGroup
  · rw [hframe.geo]
    exact h.numbers
  · exact hacct

theorem ext2NewBlock_effect (h : WellFormed m) (hlow : LowTables m) :
    Frame m (ext2NewBlock m).2 ∧ WellFormed (ext2NewBlock m).2 ∧
      (NewBlockOk m -> (ext2NewBlock m).1 = 0 ->
        forall b, Allocated (ext2NewBlock m).2 b <-> Allocated m b) := by
  unfold ext2NewBlock
  split
  case isTrue hzero => exact ⟨Frame.refl m, h, fun _ _ _ => Iff.rfl⟩
  case isFalse hzero =>
    rcases ext2NewBlockLoop_effect h.layout hlow (by rw [Nat.zero_add]) with
      ⟨hquiet, _⟩ | ⟨g, j, m1, hg, hj, hclear, hchange, hres, hgeo, _, hacct⟩
    · refine ⟨hquiet.toFrame, ?_, ?_⟩
      · exact h.frame hquiet.toFrame (h.accounting.quiet hquiet)
      · intro _ _ b
        exact Allocated.quiet hquiet b
    · refine ⟨hchange.toFrame, ?_, ?_⟩
      · exact h.frame hchange.toFrame
          (hchange.accounting_take h.layout hg hj hclear h.accounting)
      · intro hok hret
        exfalso
        rcases hacct h.accounting with ⟨hread, hwrite, hio⟩
        have hsuper := ext2WriteSuper_after hgeo hread hwrite hio hok.right
        rw [hres, hsuper, if_pos rfl] at hret
        -- The number is below 2 ^ 32, so it can only be zero for block zero.
        have hblock : g * m.geo.blocksPerGroup + j <
            m.geo.groupsCount * m.geo.blocksPerGroup := by
          have hle := mul_add_le hg m.geo.blocksPerGroup
          omega
        have hnumbers := h.numbers
        have hg0 : g = 0 := by
          have hmul : g * m.geo.blocksPerGroup = 0 := by omega
          rcases Nat.mul_eq_zero.mp hmul with hz | hz
          · exact hz
          · exact absurd hz (Nat.ne_of_gt h.perGroup)
        have hj0 : j = 0 := by omega
        have hfirst : m.geo.firstDataBlock = 0 := by omega
        have halloc := (hok.left hfirst).right.right
        subst hg0
        subst hj0
        simp only [blockGroup, blockIndex, Nat.zero_sub, Nat.zero_div,
          Nat.zero_mod] at halloc
        rw [hclear] at halloc
        cases halloc

theorem ext2FreeBlock_eq {block : Nat} (hpos : 0 < m.geo.blocksPerGroup)
    (hnumbers : m.geo.groupsCount * m.geo.blocksPerGroup +
      m.geo.firstDataBlock < 2 ^ 32) (hb : Allocated m block) :
    ext2FreeBlock m block =
      releaseBit .block m (blockGroup m block) (blockIndex m block) := by
  have hlt := (Nat.div_lt_iff_lt_mul hpos).mp hb.right.left
  have hfirst := hb.left
  have hrel : sub32 block m.geo.firstDataBlock =
      block - m.geo.firstDataBlock := by
    unfold sub32
    omega
  unfold ext2FreeBlock
  simp only [hrel]
  rfl

theorem ext2FreeBlock_effect (h : WellFormed m) (hlow : LowTables m)
    {block : Nat} (hok : FreeBlockOk m block) :
    Frame m (ext2FreeBlock m block).2 ∧
      WellFormed (ext2FreeBlock m block).2 := by
  rw [ext2FreeBlock_eq h.perGroup h.numbers hok.left]
  rcases hok with ⟨⟨_, hgroup, hused⟩, hroom⟩
  rcases releaseBit_effect (r := .block) (j := blockIndex m block)
      h.layout hlow hgroup with hquiet | hchange
  · exact ⟨hquiet.toFrame, h.frame hquiet.toFrame (h.accounting.quiet hquiet)⟩
  · refine ⟨hchange.toFrame, h.frame hchange.toFrame ?_⟩
    exact hchange.accounting_release h.layout hgroup (Nat.mod_lt _ h.perGroup)
      hused hroom (Nat.lt_of_add_right_lt h.numbers) h.accounting

theorem runBlockCall_effect (h : WellFormed m) (hlow : LowTables m)
    {call : BlockCall} (hok : BlockCallOk m call) :
    Frame m (runBlockCall m call) ∧ WellFormed (runBlockCall m call) := by
  cases call with
  | newBlock =>
    rcases ext2NewBlock_effect h hlow with ⟨hframe, hwf, _⟩
    exact ⟨hframe, hwf⟩
  | freeBlock block => exact ext2FreeBlock_effect h hlow hok

/--
In every run whose calls meet their conditions the accounts agree, and a
further `ext2_new_block` that reports failure has allocated nothing.
-/
theorem block_accounting_run (m : Mount) (hwf : WellFormed m)
    (hlow : LowTables m) (calls : List BlockCall) (hok : BlockRunOk m calls) :
    WellFormed (runBlockCalls m calls) ∧
      (NewBlockOk (runBlockCalls m calls) ->
        (ext2NewBlock (runBlockCalls m calls)).1 = 0 ->
        forall b, Allocated (ext2NewBlock (runBlockCalls m calls)).2 b <->
          Allocated (runBlockCalls m calls) b) := by
  induction calls generalizing m with
  | nil => exact ⟨hwf, (ext2NewBlock_effect hwf hlow).right.right⟩
  | cons call calls ih =>
    rcases runBlockCall_effect hwf hlow hok.left with ⟨hframe, hnext⟩
    exact ih (runBlockCall m call) hnext (hlow.frame hframe) hok.right

/-!
## A small file system
-/

def smallGeometry : Geometry where
  blockSize := 1024
  blocksPerGroup := 16
  inodesPerGroup := 16
  descPerBlock := 32
  groupsCount := 1
  firstDataBlock := 1
  inodeSize := 128

def smallMount (io : List Bool) : Mount where
  geo := smallGeometry
  readOnly := false
  dev a := if a = 3072 then 255 else 0
  groups _ := {
    blockBitmap := 3
    inodeBitmap := 4
    inodeTable := 5
    freeBlocksCount := 8
    freeInodesCount := 16
    rest := zeros }
  freeBlocks := 8
  freeInodes := 16
  es := zeros
  io := io
  mem := []

theorem smallMount_wellFormed (io : List Bool) :
    WellFormed (smallMount io) ∧ LowTables (smallMount io) := by
  have hgroup : forall g, g < (smallMount io).geo.groupsCount -> g = 0 := by
    intro g hg
    exact Nat.lt_one_iff.mp hg
  have hbits : forall r, 3 <= ((smallMount io).groups 0).bitmap r ∧
      ((smallMount io).groups 0).bitmap r <= 4 := by
    intro r
    cases r with
    | block => exact ⟨Nat.le_refl 3, Nat.le_succ 3⟩
    | inode => exact ⟨Nat.le_succ 3, Nat.le_refl 4⟩
  refine ⟨⟨⟨⟨0, rfl⟩, ?_, ?_, ?_⟩, ?_, ?_, ⟨?_, ?_, ?_, ?_⟩⟩, ⟨?_, ?_⟩⟩
  · intro r
    cases r <;> exact Nat.le_of_ble_eq_true rfl
  · intro g g' r r' hg hg' heq
    refine ⟨(hgroup g hg).trans (hgroup g' hg').symm, ?_⟩
    cases r <;> cases r' <;> first | rfl | cases heq
  · intro g r hg hmeta
    rw [hgroup g hg] at hmeta
    have hrange := hbits r
    rcases hmeta with hsuper | ⟨_, hgdesc⟩
    · have hone : ((smallMount io).groups 0).bitmap r = 1024 / 1024 := hsuper
      omega
    · have hend : ((smallMount io).groups 0).bitmap r <
        1 + 1 + (1 + 32 - 1) / 32 := hgdesc
      omega
  · exact Nat.succ_pos 15
  · show 1 * 16 + 1 < 2 ^ 32
    decide
  · intro g hg
    rw [hgroup g hg]
    show 8 = clearCount (fun i => if 3 * 1024 + i = 3072 then 255 else 0) 16
    decide +kernel
  · rfl
  · intro g _
    show 8 < 2 ^ 16
    decide
  · show 8 < 2 ^ 32
    decide
  · intro i hi
    have hone : i < (1 + 32 - 1) / 32 := hi
    show (1 + 1 + i + 1) * 1024 <= 2 ^ 32
    omega
  · intro g r hg
    rw [hgroup g hg]
    have hrange := hbits r
    show (((smallMount io).groups 0).bitmap r + 1) * 1024 <= 2 ^ 32
    omega

theorem block_accounting_run_small :
    WellFormed (runBlockCalls (smallMount [false, true])
      [BlockCall.newBlock, BlockCall.newBlock, BlockCall.freeBlock 9]) := by
  rcases smallMount_wellFormed [false, true] with ⟨hwf, hlow⟩
  have hok : BlockRunOk (smallMount [false, true])
      [BlockCall.newBlock, BlockCall.newBlock, BlockCall.freeBlock 9] := by
    decide +kernel
  exact (block_accounting_run _ hwf hlow _ hok).left

/--
The bitmap is written and the counters are decremented before
`ext2_write_super`; when its first write fails, the call returns zero with the
block taken.
-/
theorem failed_super_write_takes_block :
    WellFormed (smallMount [false, false, true]) ∧
      (ext2NewBlock (smallMount [false, false, true])).1 = 0 ∧
      ¬ Allocated (smallMount [false, false, true]) 9 ∧
      Allocated (ext2NewBlock (smallMount [false, false, true])).2 9 := by
  refine ⟨(smallMount_wellFormed _).left, ?_, ?_, ?_⟩
  · decide +kernel
  · decide +kernel
  · decide +kernel

end Ext2
end Horizon
