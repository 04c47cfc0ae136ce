import Horizon.Fs.Ext2.Volume

/-!
# Blocks of a file

A file owns the blocks at its places: its data blocks and the pointer blocks on
the way to them.  This module shows that looking a block up and extending the
map keep every other place as it was.
-/

namespace Horizon
namespace Ext2

open Function List Bytes

/-!
## Places of logical blocks
-/

def firstLogical (n : Nat) (r : Fin 15) : Nat :=
  if r.val < 12 then r.val
  else if r.val = 12 then 12
  else if r.val = 13 then 12 + n
  else 12 + n + n * n

def logical (n : Nat) (p : Place) : Nat :=
  firstLogical n p.1 + p.2.foldl (fun q i => q * n + i) 0

theorem div_mod_three (n q : Nat) :
    (q / (n * n) * n + q % (n * n) / n) * n + q % n = q := by
  have houter := Nat.div_add_mod q (n * n)
  have hinner := Nat.div_add_mod (q % (n * n)) n
  rw [Nat.mod_mul_right_mod] at hinner
  calc (q / (n * n) * n + q % (n * n) / n) * n + q % n
      = n * n * (q / (n * n)) + (n * (q % (n * n) / n) + q % n) := by ring
    _ = q := by rw [hinner, houter]

variable {b c i k n : Nat} {p q : Place} {m m' : Mount}
    {used blocks inodes usedInodes : Set Nat} {inode inode' : Inode}

theorem logical_place (h : place n k = some p) : logical n p = k := by
  unfold place at h
  by_cases hdirect : k < 12
  · rw [dif_pos hdirect] at h
    cases h
    unfold logical firstLogical
    rw [if_pos hdirect]
    rfl
  · rw [dif_neg hdirect] at h
    split at h
    case isTrue hone =>
      cases h
      show 12 + (0 * n + (k - 12)) = k
      omega
    case isFalse hone =>
      split at h
      case isTrue htwo =>
        cases h
        show 12 + n + ((0 * n + (k - 12 - n) / n) * n + (k - 12 - n) % n) = k
        have hdiv := Nat.div_add_mod' (k - 12 - n) n
        rw [Nat.zero_mul, Nat.zero_add, hdiv]
        omega
      case isFalse htwo =>
        split at h
        case isTrue hthree =>
          cases h
          show 12 + n + n * n + (((0 * n + (k - 12 - n - n * n) / (n * n)) * n +
            (k - 12 - n - n * n) % (n * n) / n) * n +
            (k - 12 - n - n * n) % n) = k
          rw [Nat.zero_mul, Nat.zero_add, div_mod_three]
          omega
        case isFalse hthree =>
          cases h

theorem place_inj {k' : Nat} (h : place n k = some p) (h' : place n k' = some p) :
    k = k' := by
  rw [← logical_place h, logical_place h']

theorem place_leaf (h : place n k = some p) :
    PointerTree.Legal levels n p ∧ p.2.length = levels p.1 := by
  unfold place at h
  by_cases hdirect : k < 12
  · rw [dif_pos hdirect] at h
    cases h
    refine ⟨PointerTree.Legal.nil _, ?_⟩
    show 0 = k - 11
    omega
  · rw [dif_neg hdirect] at h
    split at h
    case isTrue hone =>
      cases h
      refine ⟨⟨Nat.le_refl 1, ?_⟩, rfl⟩
      intro i hi
      rw [mem_singleton.mp hi]
      omega
    case isFalse hone =>
      by_cases htwo : k < 12 + n + n * n
      · have hpos : 0 < n := Nat.pos_of_ne_zero (by rintro rfl; omega)
        rw [if_pos htwo] at h
        cases h
        refine ⟨⟨Nat.le_refl 2, ?_⟩, rfl⟩
        intro i hi
        rcases mem_pair.mp hi with heq | heq
        · rw [heq]
          exact (Nat.div_lt_iff_lt_mul hpos).mpr (by omega)
        · rw [heq]
          exact Nat.mod_lt _ hpos
      · rw [if_neg htwo] at h
        by_cases hthree : k < 12 + n + n * n + n * (n * n)
        · have hpos : 0 < n := Nat.pos_of_ne_zero (by rintro rfl; omega)
          have hsq : 0 < n * n := Nat.mul_pos hpos hpos
          rw [if_pos hthree] at h
          cases h
          refine ⟨⟨Nat.le_refl 3, ?_⟩, rfl⟩
          intro i hi
          rcases mem_cons.mp hi with heq | hi
          · rw [heq]
            exact (Nat.div_lt_iff_lt_mul hsq).mpr (by omega)
          · rcases mem_pair.mp hi with heq | heq
            · rw [heq]
              exact (Nat.div_lt_iff_lt_mul hpos).mpr (Nat.mod_lt _ hsq)
            · rw [heq]
              exact Nat.mod_lt _ hpos
        · rw [if_neg hthree] at h
          cases h

/-!
## Files
-/

def DataBlock (m : Mount) (b : Nat) : Prop :=
  Allocated m b ∧ ¬ SystemBlock m b

/-- No block stands at two places of the file, and all are data blocks. -/
structure FileOk (m : Mount) (inode : Inode) : Prop where
  proper : PointerTree.Proper 0 levels m.geo.pointers
    (fun r : Fin 15 => inode.data r) (entryAt m)
  data : forall p, LegalPlace m p -> blockAt m inode p ≠ 0 ->
    DataBlock m (blockAt m inode p)

theorem entryAt_zero (m : Mount) (i : Nat) : entryAt m 0 i = 0 := rfl

theorem entryAt_congr (hsame : SameBlock m m' b) (hi : i < m.geo.pointers) :
    entryAt m' b i = entryAt m b i := by
  unfold entryAt
  congr 1
  apply getLE_congr
  intro j hj
  apply hsame
  unfold Geometry.pointers at hi
  omega

section Lookup

variable {m : Mount} {inode : Inode} (h : Volume m) (hsmall : Small m)
  (hfile : FileOk m inode)

include h

theorem low_zero : Low m 0 := by
  rcases h.table.size with ⟨j, hj, hsize⟩
  unfold Low
  rw [Nat.zero_add, Nat.one_mul, hsize]
  exact Nat.pow_le_pow_right (by decide) (by omega)

include hsmall hfile

theorem FileOk.low {p : Place} (hp : LegalPlace m p) :
    Low m (blockAt m inode p) := by
  by_cases hzero : blockAt m inode p = 0
  · rw [hzero]
    exact low_zero h
  · exact h.low hsmall (hfile.data p hp hzero).left

theorem FileOk.lowPath (k : Nat) : LowPath m inode k := by
  intro p hp path hpath
  have hlegal := (place_leaf hp).left
  apply hfile.low h hsmall
  constructor
  · exact Nat.le_trans hpath.length_le hlegal.length
  · intro i hi
    exact hlegal.index i (hpath.subset hi)

theorem FileOk.getBlock {k : Nat} (hcalm : Calm m)
    (hexact : ExactMap m.geo.pointers k) :
    ext2GetBlock m inode k = (fileBlock m inode k, m) :=
  ext2GetBlock_eq hcalm h.size_pos hexact (hfile.lowPath h hsmall k)

end Lookup

theorem blockAt_change (hchange : Change blocks inodes used usedInodes m m')
    (hfile : FileOk m inode)
    (hspare : forall p, LegalPlace m p -> p.2.length < levels p.1 ->
      blockAt m inode p ≠ 0 -> blockAt m inode p ∉ blocks) (hp : LegalPlace m p) :
    blockAt m' inode p = blockAt m inode p := by
  apply PointerTree.value_congr 0 rfl _ _ p.2 hp
  · intro i
    rfl
  · intro path i hpath hlen hi hval
    apply entryAt_congr _ hi
    apply hchange.block
    · exact (hfile.data (p.1, path) hpath hval).right
    · exact hspare (p.1, path) hpath hlen hval

theorem legalPlace_congr (hgeo : m'.geo = m.geo) (p : Place) :
    LegalPlace m' p <-> LegalPlace m p := by
  unfold LegalPlace
  rw [hgeo]

theorem DataBlock.change (hchange : Change blocks inodes used usedInodes m m')
    (hb : DataBlock m b) (hspare : b ∉ used) : DataBlock m' b := by
  constructor
  · rw [hchange.alloc b hspare]
    exact hb.left
  · rw [hchange.systemBlock]
    exact hb.right

theorem FileOk.inj (hfile : FileOk m inode) (hp : LegalPlace m p)
    (hq : LegalPlace m q) (hval : blockAt m inode p ≠ 0)
    (heq : blockAt m inode p = blockAt m inode q) : p = q :=
  hfile.proper.inj p q hp hq hval heq

theorem FileOk.congr (hfile : FileOk m inode) (hgeo : m'.geo = m.geo)
    (hat : forall p, LegalPlace m p -> blockAt m' inode' p = blockAt m inode p)
    (hdata : forall p, LegalPlace m p -> blockAt m inode p ≠ 0 ->
      DataBlock m' (blockAt m inode p)) : FileOk m' inode' := by
  constructor
  · constructor
    · intro i
      rfl
    · intro p q hp hq hval heq
      rw [hgeo] at hp hq
      have hval' : blockAt m' inode' p ≠ 0 := hval
      have heq' : blockAt m' inode' p = blockAt m' inode' q := heq
      rw [hat p hp] at hval' heq'
      rw [hat q hq] at heq'
      exact hfile.inj hp hq hval' heq'
  · intro p hp hval
    rw [legalPlace_congr hgeo] at hp
    rw [hat p hp] at hval ⊢
    exact hdata p hp hval

/--
Every place of `inode'` holds what it held for `inode`, but for one
place `q`, which now holds `c`.
-/
structure Filled (m : Mount) (inode : Inode) (q : Place) (c : Nat)
    (m' : Mount) (inode' : Inode) : Prop where
  geo : m'.geo = m.geo
  self : blockAt m' inode' q = c
  other : forall p, LegalPlace m p -> p ≠ q ->
    blockAt m' inode' p = blockAt m inode p

theorem FileOk.filled (hfile : FileOk m inode)
    (hfill : Filled m inode q c m' inode') (hc : c = 0 ∨ (DataBlock m' c ∧
      forall p, LegalPlace m p -> blockAt m inode p ≠ c))
    (hkeep : forall p, LegalPlace m p -> p ≠ q -> blockAt m inode p ≠ 0 ->
      DataBlock m' (blockAt m inode p)) : FileOk m' inode' := by
  constructor
  · constructor
    · intro i
      rfl
    · intro p p' hp hp' hval heq
      rw [hfill.geo] at hp hp'
      have heq' : blockAt m' inode' p = blockAt m' inode' p' := heq
      have hval' : blockAt m' inode' p ≠ 0 := hval
      by_cases hpq : p = q
      · by_cases hpq' : p' = q
        · rw [hpq, hpq']
        · rw [hpq, hfill.self] at hval' heq'
          rw [hfill.other p' hp' hpq'] at heq'
          rcases hc with hzero | ⟨_, hfresh⟩
          · exact absurd hzero hval'
          · exact absurd heq'.symm (hfresh p' hp')
      · rw [hfill.other p hp hpq] at hval' heq'
        by_cases hpq' : p' = q
        · rw [hpq', hfill.self] at heq'
          rcases hc with hzero | ⟨_, hfresh⟩
          · rw [heq'] at hval'
            exact absurd hzero hval'
          · exact absurd heq' (hfresh p hp)
        · rw [hfill.other p' hp' hpq'] at heq'
          exact hfile.inj hp hp' hval' heq'
  · intro p hp hval
    rw [legalPlace_congr hfill.geo] at hp
    by_cases hpq : p = q
    · rw [hpq, hfill.self] at hval ⊢
      rcases hc with hzero | ⟨hdata, _⟩
      · exact absurd hzero hval
      · exact hdata
    · rw [hfill.other p hp hpq] at hval ⊢
      exact hkeep p hp hpq hval

/-!
## Filling a place
-/

theorem filled_pointer {r : Fin 15}
    (hchange : Change blocks inodes used usedInodes m m')
    (hfile : FileOk m inode)
    (hspare : forall p, LegalPlace m p -> p.2.length < levels p.1 ->
      blockAt m inode p ≠ 0 -> blockAt m inode p ∉ blocks)
    (hlevels : levels r <= 1)
    (hempty : forall i, i < m.geo.pointers -> 0 < levels r ->
      entryAt m' c i = entryAt m (inode.data r) i) :
    Filled m inode (r, []) c m' (inode.setData r c) := by
  constructor
  · exact hchange.geo
  · exact update_self _ _ _
  · intro p hp hne
    by_cases hr : p.1 = r
    · rcases p with ⟨r', path⟩
      have hr' : r' = r := hr
      subst hr'
      have hlen : path.length <= levels r' := hp.length
      match path, hp, hne, hlen with
      | [], _, hne, _ => exact absurd rfl hne
      | [i], hp, _, hlen =>
        show entryAt m' (update inode.data r' c r') i =
          entryAt m (inode.data r') i
        rw [update_self]
        exact hempty i (hp.index i (mem_singleton_self i)) hlen
      | _ :: _ :: _, _, _, hlen =>
        rw [length_cons, length_cons] at hlen
        omega
    · rw [← blockAt_change hchange hfile hspare hp]
      unfold blockAt
      apply PointerTree.value_congr 0 _ _ _ p.2 hp
      · exact update_of_ne (fun heq => hr (Fin.ext heq)) _ _
      · intro i
        rfl
      · intro _ _ _ _ _ _
        rfl

theorem filled_entry (h : Volume m) (hsmall : Small m) (hfile : FileOk m inode)
    (hb : inode.data 12 ≠ 0) (hi : i < m.geo.pointers) (hc : c < 2 ^ 32) :
    Filled m inode (12, [i]) c (writeTo m (inode.data 12)
      (putU32 (m.block (inode.data 12)) (4 * i) c)) inode := by
  have hlegal : LegalPlace m (12, []) := PointerTree.Legal.nil 12
  have hlow : Low m (inode.data 12) := hfile.low h hsmall hlegal
  generalize hbdef : inode.data 12 = b at hb hlow ⊢
  -- the entries of the block after the write
  have hself : forall j, j < m.geo.pointers ->
      entryAt (writeTo m b (putU32 (m.block b) (4 * i) c)) b j =
        if j = i then c else entryAt m b j := by
    intro j hj
    have hcopy : getU32 ((writeTo m b (putU32 (m.block b) (4 * i) c)).block b)
        (4 * j) = getU32 (putU32 (m.block b) (4 * i) c) (4 * j) := by
      apply getLE_congr
      intro a ha
      apply writeTo_self hlow
      unfold Geometry.pointers at hj
      omega
    unfold entryAt
    rw [if_neg hb, if_neg hb, hcopy]
    split
    case isTrue hji =>
      rw [hji]
      exact getLE_putLE_of_lt hc
    case isFalse hji => exact getLE_putLE_of_disjoint (by omega)
  constructor
  · exact (frame_writeTo m b _).geo
  · show entryAt _ (inode.data 12) i = c
    rw [hbdef, hself i hi, if_pos rfl]
  · intro p hp hne
    by_cases hr : p.1 = 12
    · rcases p with ⟨r, path⟩
      have hr' : r = 12 := hr
      subst hr'
      have hlen : path.length <= 1 := hp.length
      match path, hp, hne, hlen with
      | [], _, _, _ => rfl
      | [j], hp, hne, _ =>
        have hj := hp.index j (mem_singleton_self j)
        show entryAt _ (inode.data 12) j = entryAt m (inode.data 12) j
        rw [hbdef, hself j hj, if_neg]
        rintro rfl
        exact hne rfl
      | _ :: _ :: _, _, _, hlen =>
        rw [length_cons, length_cons] at hlen
        omega
    · apply PointerTree.value_congr 0 rfl _ _ p.2 hp
      · intro j
        rfl
      · intro path j hpath hlen hj hval
        apply entryAt_congr _ hj
        apply writeTo_other hlow
        intro heq
        have hsame := hfile.inj hpath hlegal hval (heq.trans hbdef.symm)
        exact hr (congrArg Prod.fst hsame)

/-!
## Growth of a file
-/

def Own (m : Mount) (inode : Inode) : Set Nat :=
  {b | b ≠ 0 ∧ exists p, LegalPlace m p ∧ blockAt m inode p = b}

def Free (m : Mount) : Set Nat :=
  {b | ¬ Allocated m b}

theorem Change.volume_of_free
    (hchange : Change blocks inodes (Free m) usedInodes m m') (h : Volume m) :
    Volume m' := by
  apply hchange.volume h
  intro b hfree hb
  rcases hb with hsystem | ⟨hzero, heq⟩
  · exact absurd (h.system b hsystem) hfree
  · rw [heq] at hfree
    exact absurd (h.zero hzero) hfree

/--
The file grew into free blocks: what it had stays in its place, and every block
that came into use belongs to it.
-/
structure Grown (m : Mount) (inode : Inode) (m' : Mount) (inode' : Inode) :
    Prop where
  change : Change (Own m inode ∪ Free m) ∅ (Free m) ∅ m m'
  file : FileOk m' inode'
  tree : forall p, LegalPlace m p ->
    blockAt m' inode' p = blockAt m inode p ∨
    (blockAt m inode p = 0 ∧ ¬ Allocated m (blockAt m' inode' p))
  owned : forall b, Allocated m' b -> Allocated m b ∨ b ∈ Own m' inode'
  fields : exists data, inode' = { inode with data := data }

namespace Grown

variable {m m' m'' : Mount} {inode inode' inode'' : Inode}

theorem refl (hfile : FileOk m inode) : Grown m inode m inode where
  change := (Change.refl m).mono (Set.empty_subset _) (Set.empty_subset _)
  file := hfile
  tree _ _ := Or.inl rfl
  owned _ hb := Or.inl hb
  fields := ⟨inode.data, rfl⟩

section

variable (h : Grown m inode m' inode')
include h

theorem keeps {b : Nat} (hb : Allocated m b) :
    Allocated m' b :=
  (h.change.alloc b (fun hfree => hfree hb)).mpr hb

theorem own_subset :
    Own m' inode' ⊆ Own m inode ∪ Free m := by
  rintro b ⟨hb, p, hp, heq⟩
  rw [legalPlace_congr h.change.geo] at hp
  rcases h.tree p hp with hsame | ⟨_, hfree⟩
  · left
    exact ⟨hb, p, hp, by rw [← hsame, heq]⟩
  · right
    rw [heq] at hfree
    exact hfree

theorem own_mono : Own m inode ⊆ Own m' inode' := by
  rintro b ⟨hb, p, hp, heq⟩
  refine ⟨hb, p, (legalPlace_congr h.change.geo p).mpr hp, ?_⟩
  rcases h.tree p hp with hsame | ⟨hzero, _⟩
  · rw [hsame, heq]
  · rw [heq] at hzero
    exact absurd hzero hb

theorem free_subset : Free m' ⊆ Free m := by
  intro b hb hused
  exact hb (h.keeps hused)

theorem trans (h' : Grown m' inode' m'' inode'') :
    Grown m inode m'' inode'' where
  change := h.change.trans (h'.change.mono (Set.union_subset h.own_subset
    fun _ hb => Or.inr (h.free_subset hb)) h.free_subset)
  file := h'.file
  tree p hp := by
    have hp' := (legalPlace_congr h.change.geo p).mpr hp
    rcases h.tree p hp with hsame | ⟨hzero, hfree⟩
    · rcases h'.tree p hp' with hsame' | ⟨hzero', hfree'⟩
      · exact Or.inl (hsame'.trans hsame)
      · exact Or.inr ⟨by rw [← hsame, hzero'], fun hb => hfree' (h.keeps hb)⟩
    · rcases h'.tree p hp' with hsame' | ⟨_, hfree'⟩
      · exact Or.inr ⟨hzero, by rw [hsame']; exact hfree⟩
      · exact Or.inr ⟨hzero, fun hb => hfree' (h.keeps hb)⟩
  owned b hb := by
    rcases h'.owned b hb with hused | hown
    · rcases h.owned b hused with hused | hown
      · exact Or.inl hused
      · exact Or.inr (h'.own_mono hown)
    · exact Or.inr hown
  fields := by
    rcases h.fields with ⟨data, heq⟩
    rcases h'.fields with ⟨data', heq'⟩
    exact ⟨data', by rw [heq', heq]⟩

end

end Grown

/-!
## Allocating a block of a file
-/

theorem fileBlock_congr (hgeo : m'.geo = m.geo)
    (hat : forall p, LegalPlace m p ->
      blockAt m' inode' p = blockAt m inode p) (k : Nat) :
    fileBlock m' inode' k = fileBlock m inode k := by
  unfold fileBlock
  rw [hgeo]
  cases hp : place m.geo.pointers k with
  | none => rfl
  | some p => exact hat p (place_leaf hp).left

section NewBlock

variable {m m' : Mount} {inode : Inode} {b : Nat} (hnew : NewBlock m b m')

include hnew

theorem NewBlock.dataBlock (h : Volume m) : DataBlock m' b := by
  refine ⟨hnew.used, ?_⟩
  rw [hnew.change.systemBlock]
  intro hsystem
  exact hnew.fresh (h.system b hsystem)

theorem NewBlock.change_free : Change blocks ∅ (Free m) ∅ m m' :=
  hnew.change.mono (Set.empty_subset _)
    (Set.singleton_subset_iff.mpr hnew.fresh)

theorem NewBlock.volume (h : Volume m) : Volume m' := by
  have hchange : Change ∅ ∅ (Free m) ∅ m m' := hnew.change_free
  exact hchange.volume_of_free h

variable (hfile : FileOk m inode)

include hfile

variable {p : Place}

theorem NewBlock.not_own (hp : LegalPlace m p) : blockAt m inode p ≠ b := by
  intro heq
  have hdata := hfile.data p hp (by rw [heq]; exact hnew.nonzero)
  rw [heq] at hdata
  exact hnew.fresh hdata.left

theorem NewBlock.blockAt (hp : LegalPlace m p) :
    Ext2.blockAt m' inode p = Ext2.blockAt m inode p :=
  blockAt_change hnew.change hfile (fun _ _ _ _ => Set.notMem_empty _) hp

theorem NewBlock.keepData (hp : LegalPlace m p)
    (hval : Ext2.blockAt m inode p ≠ 0) :
    DataBlock m' (Ext2.blockAt m inode p) :=
  (hfile.data p hp hval).change hnew.change (hnew.not_own hfile hp)

theorem NewBlock.fileOk : FileOk m' inode :=
  hfile.congr hnew.change.geo (fun _ hp => hnew.blockAt hfile hp)
    (fun _ hp hval => hnew.keepData hfile hp hval)

end NewBlock

/-- The hole at a logical block was filled with a free block. -/
structure Extended (m : Mount) (inode : Inode) (k phys : Nat) (m' : Mount)
    (inode' : Inode) : Prop extends Grown m inode m' inode' where
  precise : Change ({inode.data 12} ∪ Free m) ∅ (Free m) ∅ m m'
  nonzero : phys ≠ 0
  fresh : ¬ Allocated m phys
  reach : k < 12 + m.geo.pointers
  self : fileBlock m' inode' k = phys
  other : forall k', k' ≠ k -> fileBlock m' inode' k' = fileBlock m inode k'

theorem place_indirect (hk : ¬ k < 12) (hlt : k - 12 < n) :
    place n k = some (12, [k - 12]) := by
  unfold place
  rw [dif_neg hk, if_pos (by omega)]

theorem entry_step {phys : Nat} (h : Volume m) (hsmall : Small m)
    (hfile : FileOk m inode) (hb : inode.data 12 ≠ 0) (hi : i < m.geo.pointers)
    (hphys : DataBlock m phys)
    (hpending : forall p, LegalPlace m p -> blockAt m inode p ≠ phys) :
    Filled m inode (12, [i]) phys (writeTo m (inode.data 12)
      (putU32 (m.block (inode.data 12)) (4 * i) phys)) inode ∧
    FileOk (writeTo m (inode.data 12)
      (putU32 (m.block (inode.data 12)) (4 * i) phys)) inode ∧
    Change {inode.data 12} ∅ ∅ ∅ m (writeTo m (inode.data 12)
      (putU32 (m.block (inode.data 12)) (4 * i) phys)) := by
  have hdata : DataBlock m (inode.data 12) :=
    hfile.data (12, []) (PointerTree.Legal.nil 12) hb
  have hlt : phys < 2 ^ 32 :=
    Nat.lt_trans (h.allocated_lt hphys.left) h.numbers
  have hfill := filled_entry h hsmall hfile hb hi hlt
  have hwrite := change_writeTo h hsmall (h.low hsmall hdata.left) hdata.right
    (putU32 (m.block (inode.data 12)) (4 * i) phys)
  refine ⟨hfill, ?_, hwrite⟩
  apply hfile.filled hfill
  · exact Or.inr ⟨hphys.change hwrite (Set.notMem_empty _), hpending⟩
  · intro p hp _ hval
    exact (hfile.data p hp hval).change hwrite (Set.notMem_empty _)

theorem pointer_step (h : Volume m) (hsmall : Small m) (hfile : FileOk m inode)
    (hnone : inode.data 12 = 0) (hnew : NewBlock m b m') :
    Filled m inode (12, []) b (writeTo m' b zeros) (inode.setData 12 b) ∧
    FileOk (writeTo m' b zeros) (inode.setData 12 b) ∧
    Change {b} ∅ {b} ∅ m (writeTo m' b zeros) := by
  have hvolume := hnew.volume h
  have hsmall' := hnew.change.small.mpr hsmall
  have hlow := hvolume.low hsmall' hnew.used
  have hwrite := change_writeTo hvolume hsmall' hlow (hnew.dataBlock h).right
    zeros
  have hchange : Change {b} ∅ {b} ∅ m (writeTo m' b zeros) :=
    (hnew.change.mono (Set.empty_subset _) (Set.Subset.refl _)).trans
      (hwrite.mono (Set.Subset.refl _) (Set.empty_subset _))
  have hfill : Filled m inode (12, []) b (writeTo m' b zeros)
      (inode.setData 12 b) := by
    apply filled_pointer hchange hfile
    · intro p hp _ _
      exact hnew.not_own hfile hp
    · exact Nat.le_refl 1
    · intro i hi _
      show entryAt _ b i = entryAt m (inode.data 12) i
      rw [hnone, entryAt_zero]
      unfold entryAt
      rw [if_neg hnew.nonzero, ← getLE_zeros 4 (4 * i)]
      apply getLE_congr
      intro j hj
      apply writeTo_self hlow
      rw [hnew.change.geo]
      unfold Geometry.pointers at hi
      omega
  refine ⟨hfill, ?_, hchange⟩
  apply hfile.filled hfill
  · exact Or.inr ⟨(hnew.dataBlock h).change hwrite (Set.notMem_empty _),
      fun p hp => hnew.not_own hfile hp⟩
  · intro p hp _ hval
    exact (hnew.keepData hfile hp hval).change hwrite (Set.notMem_empty _)

section Extend

variable {m m1 : Mount} {inode : Inode} {k phys : Nat} (h : Volume m)
  (hsmall : Small m) (hfile : FileOk m inode) (hnew : NewBlock m phys m1)

/--
A block entered at its place extends the file, where no other place changed
but for the pointer block it may have needed.
-/
theorem Extended.of_placed {q : Place}
    (hplace : place m.geo.pointers k = some q) (hnonzero : phys ≠ 0)
    (hfresh : ¬ Allocated m phys) (hreach : k < 12 + m.geo.pointers)
    (hchange : Change ({inode'.data 12} \ {0}) ∅ (Free m) ∅ m m')
    (hroot : inode'.data 12 = inode.data 12 ∨
      (inode.data 12 = 0 ∧ ¬ Allocated m (inode'.data 12)))
    (hfile' : FileOk m' inode') (hself : blockAt m' inode' q = phys)
    (hhole : blockAt m inode q = 0)
    (hother : forall p, LegalPlace m p -> p ≠ q -> p ≠ (12, []) ->
      blockAt m' inode' p = blockAt m inode p)
    (hused : forall b, Allocated m' b -> ¬ Allocated m b ->
      b = phys ∨ b ∈ ({inode'.data 12} : Set Nat) \ {0})
    (hfields : exists data, inode' = { inode with data := data }) :
    Extended m inode k phys m' inode' := by
  have hlegal : LegalPlace m (12, []) := PointerTree.Legal.nil 12
  have hgrow : forall {blocks}, {inode'.data 12} \ {0} ⊆ blocks ->
      Change blocks ∅ (Free m) ∅ m m' := fun hblocks =>
    hchange.mono hblocks (Set.Subset.refl _)
  refine ⟨⟨hgrow ?_, hfile', ?_, ?_, hfields⟩, hgrow ?_, hnonzero, hfresh,
    hreach, ?_, ?_⟩
  · rintro b ⟨rfl, hb⟩
    rcases hroot with hsame | ⟨_, hfree⟩
    · exact Or.inl ⟨hb, (12, []), hlegal, hsame.symm⟩
    · exact Or.inr hfree
  · intro p hp
    by_cases hpq : p = q
    · rw [hpq, hself]
      exact Or.inr ⟨hhole, hfresh⟩
    · by_cases hpr : p = (12, [])
      · rw [hpr]
        exact hroot
      · exact Or.inl (hother p hp hpq hpr)
  · intro b hb
    by_cases hold : Allocated m b
    · exact Or.inl hold
    · right
      rcases hused b hb hold with heq | ⟨heq, hne⟩
      · rw [heq]
        refine ⟨hnonzero, q, ?_, hself⟩
        rw [legalPlace_congr hchange.geo]
        exact (place_leaf hplace).left
      · exact ⟨hne, (12, []), PointerTree.Legal.nil 12, heq.symm⟩
  · rintro b ⟨rfl, _⟩
    rcases hroot with hsame | ⟨_, hfree⟩
    · exact Or.inl hsame
    · exact Or.inr hfree
  · unfold fileBlock
    rw [hchange.geo, hplace]
    exact hself
  · intro k' hne
    unfold fileBlock
    rw [hchange.geo]
    cases hp : place m.geo.pointers k' with
    | none => rfl
    | some p =>
      rcases place_leaf hp with ⟨hleaf, hlen⟩
      apply hother p hleaf
      · intro heq
        rw [heq] at hp
        exact hne (place_inj hp hplace)
      · intro heq
        rw [heq] at hlen
        cases hlen

include h hfile hnew

theorem extended_direct (hk : k < 12) (hhole : inode.data k = 0) :
    Extended m inode k phys m1 (inode.setData k phys) ∧
      Change ({(inode.setData k phys).data 12} \ {0}) ∅ (Free m) ∅ m m1 := by
  have hplace : place m.geo.pointers k = some (⟨k, by omega⟩, []) := by
    unfold place
    rw [dif_pos hk]
  have hlevels : levels ⟨k, by omega⟩ = 0 := by
    show k - 11 = 0
    omega
  have hfill : Filled m inode (⟨k, by omega⟩, []) phys m1
      (inode.setData k phys) := by
    apply filled_pointer hnew.change hfile
      (fun _ _ _ _ => Set.notMem_empty _)
    · rw [hlevels]
      exact Nat.zero_le 1
    · intro i _ hpos
      rw [hlevels] at hpos
      exact absurd hpos (Nat.lt_irrefl 0)
  have hfile' : FileOk m1 (inode.setData k phys) := by
    apply hfile.filled hfill
    · exact Or.inr ⟨hnew.dataBlock h, fun p hp => hnew.not_own hfile hp⟩
    · intro p hp _ hval
      exact hnew.keepData hfile hp hval
  refine ⟨Extended.of_placed hplace hnew.nonzero hnew.fresh (by omega)
    hnew.change_free (Or.inl ?_) hfile' hfill.self hhole
    (fun p hp hne _ => hfill.other p hp hne) (fun b hb hold => ?_) ⟨_, rfl⟩,
    hnew.change_free⟩
  · exact update_of_ne (by omega) _ _
  · by_contra hne
    exact hold ((hnew.change.alloc b (fun heq => hne (Or.inl heq))).mp hb)

include hsmall

theorem extended_entry (hk : ¬ k < 12) (hlt : k - 12 < m.geo.pointers)
    (hb : inode.data 12 ≠ 0) (hhole : fileBlock m inode k = 0) :
    Extended m inode k phys (writeTo m1 (inode.data 12)
      (putU32 (m1.block (inode.data 12)) (4 * (k - 12)) phys)) inode ∧
    Change ({inode.data 12} \ {0}) ∅ (Free m) ∅ m (writeTo m1 (inode.data 12)
      (putU32 (m1.block (inode.data 12)) (4 * (k - 12)) phys)) := by
  have hplace := place_indirect hk hlt
  have hgeo := hnew.change.geo
  rcases entry_step (i := k - 12) (hnew.volume h)
    (hnew.change.small.mpr hsmall) (hnew.fileOk hfile) hb
    (by rw [hgeo]; exact hlt) (hnew.dataBlock h)
    (fun p hp => by
      rw [legalPlace_congr hgeo] at hp
      rw [hnew.blockAt hfile hp]
      exact hnew.not_own hfile hp) with ⟨hfill, hfile2, hwrite⟩
  generalize writeTo m1 (inode.data 12) _ = m2 at hfill hfile2 hwrite ⊢
  have hchange : Change ({inode.data 12} \ {0}) ∅ (Free m) ∅ m m2 :=
    hnew.change_free.trans (hwrite.mono
      (Set.singleton_subset_iff.mpr ⟨rfl, hb⟩) (Set.empty_subset _))
  refine ⟨Extended.of_placed hplace hnew.nonzero hnew.fresh (by omega) hchange
    (Or.inl rfl) hfile2 hfill.self ?_ ?_ ?_ ⟨_, rfl⟩, hchange⟩
  · unfold fileBlock at hhole
    rw [hplace] at hhole
    exact hhole
  · intro p hp hne _
    rw [hfill.other p ((legalPlace_congr hgeo p).mpr hp) hne,
      hnew.blockAt hfile hp]
  · intro b hused hold
    left
    by_contra heq
    rw [hwrite.alloc b (Set.notMem_empty b), hnew.change.alloc b heq] at hused
    exact hold hused

theorem extended_indirect {m2 : Mount} {b : Nat} (hk : ¬ k < 12)
    (hlt : k - 12 < m.geo.pointers) (hnone : inode.data 12 = 0)
    (hnewb : NewBlock m1 b m2) :
    Extended m inode k phys (writeTo (writeTo m2 b zeros) b
      (putU32 ((writeTo m2 b zeros).block b) (4 * (k - 12)) phys))
      (inode.setData 12 b) ∧
    Change ({(inode.setData 12 b).data 12} \ {0}) ∅ (Free m) ∅ m
      (writeTo (writeTo m2 b zeros) b
        (putU32 ((writeTo m2 b zeros).block b) (4 * (k - 12)) phys)) := by
  have hplace := place_indirect hk hlt
  have hgeo := hnew.change.geo
  rcases pointer_step (hnew.volume h) (hnew.change.small.mpr hsmall)
    (hnew.fileOk hfile) hnone hnewb with ⟨hfill1, hfile3, hchange1⟩
  have hphysb : phys ≠ b := by
    intro heq
    rw [← heq] at hnewb
    exact hnewb.fresh hnew.used
  have hfreshb : ¬ Allocated m b := by
    rw [← hnew.change.alloc b (Ne.symm hphysb)]
    exact hnewb.fresh
  generalize writeTo m2 b zeros = m3 at hfill1 hfile3 hchange1 ⊢
  have hb12 : (inode.setData 12 b).data 12 = b := by
    show update inode.data 12 b 12 = b
    exact update_self _ _ _
  rw [hb12]
  have hblock : ({b} : Set Nat) ⊆ {b} \ {0} :=
    Set.singleton_subset_iff.mpr ⟨rfl, hnewb.nonzero⟩
  have hchange13 : Change ({b} \ {0}) ∅ (Free m) ∅ m m3 :=
    hnew.change_free.trans
      (hchange1.mono hblock (Set.singleton_subset_iff.mpr hfreshb))
  have hat3 : forall p, LegalPlace m p -> p ≠ (12, []) ->
      blockAt m3 (inode.setData 12 b) p = blockAt m inode p := by
    intro p hp hne
    rw [hfill1.other p ((legalPlace_congr hgeo p).mpr hp) hne,
      hnew.blockAt hfile hp]
  have hpending : forall p, LegalPlace m3 p ->
      blockAt m3 (inode.setData 12 b) p ≠ phys := by
    intro p hp
    rw [legalPlace_congr hchange13.geo] at hp
    by_cases hroot : p = (12, [])
    · rw [hroot, hfill1.self]
      exact Ne.symm hphysb
    · rw [hat3 p hp hroot]
      exact hnew.not_own hfile hp
  rcases entry_step (i := k - 12) (hchange13.volume_of_free h)
    (hchange13.small.mpr hsmall) hfile3
    (by rw [hb12]; exact hnewb.nonzero)
    (by rw [hchange13.geo]; exact hlt)
    ((hnew.dataBlock h).change hchange1 hphysb) hpending with
    ⟨hfill2, hfile4, hwrite⟩
  rw [hb12] at hfill2 hfile4 hwrite
  generalize writeTo m3 b _ = m4 at hfill2 hfile4 hwrite ⊢
  have hchange : Change ({b} \ {0}) ∅ (Free m) ∅ m m4 :=
    hchange13.trans (hwrite.mono hblock (Set.empty_subset _))
  refine ⟨Extended.of_placed hplace hnew.nonzero hnew.fresh (by omega)
    (by rw [hb12]; exact hchange) ?_ hfile4 hfill2.self ?_ ?_ ?_ ⟨_, rfl⟩,
    hchange⟩
  · rw [hb12]
    exact Or.inr ⟨hnone, hfreshb⟩
  · show entryAt m (inode.data 12) (k - 12) = 0
    rw [hnone]
    rfl
  · intro p hp hne hroot
    rw [hfill2.other p ((legalPlace_congr hchange13.geo p).mpr hp) hne,
      hat3 p hp hroot]
  · intro c hused hold
    rw [hwrite.alloc c (Set.notMem_empty c)] at hused
    rw [hb12]
    by_contra hne
    rw [not_or] at hne
    rw [hchange1.alloc c (fun heq => hne.right ⟨heq, heq ▸ hnewb.nonzero⟩),
      hnew.change.alloc c hne.left] at hused
    exact hold hused

end Extend

def SameTables (m m' : Mount) : Prop :=
  forall b, InTable m b -> SameBlock m m' b

namespace SameTables

variable {m m' m'' : Mount} (hsame : SameTables m m') (hframe : Frame m m')

include hsame hframe

theorem newBlock (h : Volume m') (hsmall : Small m')
    (hcall : ext2NewBlock m' = (b, m'')) : SameTables m m'' := by
  intro c hc
  apply (hsame c hc).trans hframe.geo
  rw [← hframe.inTable] at hc
  have hsnd : m'' = (ext2NewBlock m').2 := by rw [hcall]
  rw [hsnd]
  unfold ext2NewBlock
  split
  case isTrue hzero => exact fun _ _ => rfl
  case isFalse hzero =>
    rcases ext2NewBlockLoop_effect h.layout (h.lowTables hsmall)
      (by rw [Nat.zero_add]) with ⟨hquiet, _⟩ |
      ⟨g, j, m1, hg, _, _, hchange, _, _, _, _⟩
    · intro i _
      rw [hquiet.block]
    · exact hchange.other c (h.tableBitmap c g _ hc hg) (h.tableMeta c hc)

theorem writeTo (hlow : Low m' b) (hb : DataBlock m' b) (buffer : Buffer) :
    SameTables m (Ext2.writeTo m' b buffer) := by
  intro c hc
  apply (hsame c hc).trans hframe.geo (writeTo_other hlow _)
  intro heq
  rw [← hframe.inTable, heq] at hc
  exact hb.right (Or.inr (Or.inr hc))

end SameTables

theorem change_freeQuietly {m'' : Mount} (h : Volume m) (hsmall : Small m)
    (hcalm : Calm m) (hnew : NewBlock m b m') (hsame : Change ∅ ∅ ∅ ∅ m' m'') :
    Change ∅ ∅ ∅ ∅ m (freeQuietly m'' b) := by
  have hchange : Change ∅ ∅ {b} ∅ m m'' :=
    hnew.change.trans (hsame.mono (Set.Subset.refl _) (Set.empty_subset _))
  have hvolume := hsame.volume (hnew.volume h)
    (fun c hc _ => absurd hc (Set.notMem_empty c))
  have hused : Allocated m'' b :=
    (hsame.alloc b (Set.notMem_empty b)).mpr hnew.used
  rcases ext2FreeBlock_calm hvolume (hchange.small.mpr hsmall)
    (hcalm.frame hchange.toFrame) hused with ⟨hfree, hrelease⟩
  have hall := hchange.trans hrelease
  refine { hall with alloc := ?_ }
  intro c _
  by_cases heq : c = b
  · rw [heq]
    constructor
    · intro hstill
      exact absurd hstill hfree
    · intro hstill
      exact absurd hstill hnew.fresh
  · exact hall.alloc c heq

theorem setIndirectEntry_calm (hcalm : Calm m) (hpos : 0 < m.geo.blockSize)
    (hlow : Low m b) (i phys : Nat) :
    setIndirectEntry m b i phys =
      (phys, writeTo m b (putU32 (m.block b) (4 * i) phys)) := by
  unfold setIndirectEntry
  rw [hcalm.kmalloc]
  simp only [hcalm.read hpos hlow, hcalm.write]

theorem ext2IndirectBlock_none (hnone : inode.data 12 = 0)
    (hcall : ext2NewBlock m = (b, m')) (hcalm' : Calm m') (phys : Nat) :
    ext2IndirectBlock m inode phys =
      if b = 0 then (none, inode, freeQuietly m' phys)
      else (some b, inode.setData 12 b, writeTo m' b zeros) := by
  unfold ext2IndirectBlock
  rw [if_neg (fun hne => hne hnone), hcall]
  simp only [hcalm'.kmalloc, hcalm'.write]

/--
`ext2_alloc_block` of a hole either leaves everything as it was, or fills the
hole with a free block.
-/
theorem ext2AllocBlock_calm (h : Volume m) (hsmall : Small m) (hcalm : Calm m)
    (hfile : FileOk m inode) (hhole : fileBlock m inode k = 0) :
    exists phys inode' m', ext2AllocBlock m inode k = (phys, inode', m') ∧
      ((phys = 0 ∧ inode' = inode ∧ Change ∅ ∅ ∅ ∅ m m') ∨
        (Extended m inode k phys m' inode' ∧
          Change ({inode'.data 12} \ {0}) ∅ (Free m) ∅ m m' ∧
          SameTables m m')) := by
  rcases ext2NewBlock_calm h hsmall hcalm with ⟨phys, m1, hcall, hres⟩
  unfold ext2AllocBlock
  rw [hcall]
  rcases hres with ⟨hzero, hchange⟩ | hnew
  · simp only [if_pos hzero]
    exact ⟨0, inode, m1, rfl, Or.inl ⟨rfl, rfl, hchange⟩⟩
  · have hcalm1 := hcalm.frame hnew.change.toFrame
    have hvolume1 := hnew.volume h
    have hsmall1 := hnew.change.small.mpr hsmall
    have htables : SameTables m m1 := SameTables.newBlock (fun _ _ _ _ => rfl)
      (Frame.refl m) h hsmall hcall
    simp only [if_neg hnew.nonzero]
    split
    case isTrue hdirect =>
      unfold fileBlock place at hhole
      rw [dif_pos hdirect] at hhole
      rcases extended_direct h hfile hnew hdirect hhole with ⟨hext, hchange⟩
      exact ⟨_, _, _, rfl, Or.inr ⟨hext, hchange, htables⟩⟩
    case isFalse hdirect =>
      split
      case isTrue hone =>
        rw [hnew.change.geo] at hone
        by_cases hb : inode.data 12 = 0
        · rcases ext2NewBlock_calm hvolume1 hsmall1 hcalm1 with
            ⟨b, m2, hcall2, hres2⟩
          rcases hres2 with ⟨hzero, hchange⟩ | hnewb
          · rw [ext2IndirectBlock_none hb hcall2
              (hcalm1.frame hchange.toFrame), if_pos hzero]
            exact ⟨0, inode, _, rfl, Or.inl ⟨rfl, rfl,
              change_freeQuietly h hsmall hcalm hnew hchange⟩⟩
          · have hcalm2 := hcalm1.frame hnewb.change.toFrame
            rw [ext2IndirectBlock_none hb hcall2 hcalm2, if_neg hnewb.nonzero]
            rcases extended_indirect h hsmall hfile hnew hdirect hone hb
              hnewb with ⟨hext, hchange⟩
            have hframe := frame_writeTo m2 b zeros
            have hvolume2 := hnewb.volume hvolume1
            have hsmall2 := hnewb.change.small.mpr hsmall1
            have hlow := hvolume2.low hsmall2 hnewb.used
            have hdata := hnewb.dataBlock hvolume1
            have hframe2 := hnew.change.toFrame.trans hnewb.change.toFrame
            have htables2 := (htables.newBlock hnew.change.toFrame hvolume1
              hsmall1 hcall2).writeTo hframe2 hlow hdata zeros
            have hdata' := hdata.change (change_writeTo hvolume2 hsmall2 hlow
              hdata.right zeros) (Set.notMem_empty b)
            simp only [setIndirectEntry_calm (hcalm2.frame hframe)
              hvolume2.size_pos hlow]
            exact ⟨_, _, _, rfl, Or.inr ⟨hext, hchange,
              htables2.writeTo (hframe2.trans hframe) hlow hdata' _⟩⟩
        · have hlegal : LegalPlace m (12, []) := PointerTree.Legal.nil 12
          have hdata := hnew.keepData hfile hlegal hb
          have hlow : Low m1 (inode.data 12) :=
            hvolume1.low hsmall1 hdata.left
          have hblock : ext2IndirectBlock m1 inode phys =
              (some (inode.data 12), inode, m1) := by
            unfold ext2IndirectBlock
            rw [if_pos hb]
          rw [hblock]
          simp only [setIndirectEntry_calm hcalm1 hvolume1.size_pos hlow]
          rcases extended_entry h hsmall hfile hnew hdirect hone hb hhole with
            ⟨hext, hchange⟩
          exact ⟨_, _, _, rfl, Or.inr ⟨hext, hchange,
            htables.writeTo hnew.change.toFrame hlow hdata _⟩⟩
      case isFalse hone =>
        exact ⟨0, inode, _, rfl, Or.inl ⟨rfl, rfl,
          change_freeQuietly h hsmall hcalm hnew (Change.refl m1)⟩⟩

end Ext2
end Horizon
