import Horizon.Fs.Ext2.DirEntry
import Mathlib.Data.List.Find

/-!
# Blocks of directory entries

The records of a well-formed block form a chain from its start to its end.
Adding to a record that is long enough and removing keep a block well formed,
and change the list of its entries by the one that is added or removed.
-/

namespace Horizon
namespace Ext2

open List Bytes RecordChain

def offsets (blockSize : Nat) (b : Buffer) : List Nat :=
  walk (recLen b) blockSize (blockSize + 1) 0

def binding (b : Buffer) (off : Nat) : Option (Name × Nat) :=
  if entryInode b off = 0 then none
  else some (entryName b off, entryInode b off)

def blockEntries (blockSize : Nat) (b : Buffer) : List (Name × Nat) :=
  (offsets blockSize b).filterMap (binding b)

structure RecordOk (blockSize : Nat) (b : Buffer) (off : Nat) : Prop where
  header : off + 8 <= blockSize
  aligned : recLen b off % 4 = 0
  fits : entryInode b off ≠ 0 -> 8 + nameLen b off <= recLen b off

structure Records (blockSize : Nat) (b : Buffer) (offs : List Nat) :
    Prop where
  chain : Chain (recLen b) 0 offs blockSize
  record : forall off, off ∈ offs -> RecordOk blockSize b off

/--
Following `rec_len` from the start of the block leads to its end, each length is
a multiple of four and not zero, and the names of the entries fit.
-/
def BlockFormed (blockSize : Nat) (b : Buffer) : Prop :=
  exists offs, Records blockSize b offs

/-!
## Fields
-/

section Fields

variable {b b' : Buffer} {off : Nat}

theorem entryInode_congr (h : forall i, i < 4 -> b' (off + i) = b (off + i)) :
    entryInode b' off = entryInode b off :=
  getLE_congr h

theorem recLen_congr (h4 : b' (off + 4) = b (off + 4))
    (h5 : b' (off + 5) = b (off + 5)) : recLen b' off = recLen b off := by
  apply getLE_congr
  intro i hi
  have hcases : i = 0 ∨ i = 1 := by omega
  rcases hcases with rfl | rfl
  · exact h4
  · exact h5

theorem nameLen_congr (h : b' (off + 6) = b (off + 6)) :
    nameLen b' off = nameLen b off :=
  congrArg UInt8.toNat h

theorem entryName_congr (hlen : nameLen b' off = nameLen b off)
    (h : forall i, i < nameLen b off -> b' (off + 8 + i) = b (off + 8 + i)) :
    entryName b' off = entryName b off := by
  unfold entryName
  rw [hlen]
  apply map_congr_left
  intro i hi
  exact h i (mem_range.mp hi)

theorem binding_congr (hino : forall i, i < 4 -> b' (off + i) = b (off + i))
    (hlen : b' (off + 6) = b (off + 6))
    (hname : entryInode b off ≠ 0 -> forall i, i < nameLen b off ->
      b' (off + 8 + i) = b (off + 8 + i)) :
    binding b' off = binding b off := by
  unfold binding
  rw [entryInode_congr hino]
  by_cases hzero : entryInode b off = 0
  · rw [if_pos hzero, if_pos hzero]
  · rw [if_neg hzero, if_neg hzero,
      entryName_congr (nameLen_congr hlen) (hname hzero)]

theorem binding_eq_none : binding b off = none <-> entryInode b off = 0 := by
  unfold binding
  split
  case isTrue hzero => exact ⟨fun _ => hzero, fun _ => rfl⟩
  case isFalse hused =>
    exact ⟨fun hnone => (by cases hnone), fun hz => absurd hz hused⟩

theorem binding_of_used (h : entryInode b off ≠ 0) :
    binding b off = some (entryName b off, entryInode b off) :=
  if_neg h

theorem recLen_lt (b : Buffer) (off : Nat) : recLen b off < 2 ^ 16 :=
  getLE_lt 2 b (off + 4)

theorem length_entryName (b : Buffer) (off : Nat) :
    (entryName b off).length = nameLen b off := by
  unfold entryName
  rw [length_map, length_range]

theorem entrySize_spec (n : Nat) :
    entrySize n % 4 = 0 ∧ 9 + n <= entrySize n ∧ entrySize n <= n + 12 := by
  unfold entrySize
  omega

/-- The inode number starts with the bytes that a record of length 4 ends with. -/
theorem entryInode_of_short (h : recLen b off = 4) :
    entryInode b (off + 4) ≠ 0 := by
  intro hzero
  have hlow : getLE 2 b (off + 4) = 4 := h
  have hfull : getLE 4 b (off + 4) = 0 := hzero
  simp only [getLE] at hlow hfull
  omega

theorem hasName_iff {name : Name} :
    hasName name b off = true <->
      entryInode b off ≠ 0 ∧ entryName b off = name := by
  unfold hasName
  rw [Bool.and_eq_true, bne_iff_ne, beq_iff_eq]

end Fields

section Fill

variable (b : Buffer) (off ino : Nat) (name : Name) (type : FileType)

theorem fillEntry_outside {i : Nat}
    (h : i < off ∨ (off + 4 <= i ∧ i < off + 6) ∨ off + 8 + name.length <= i) :
    fillEntry b off ino name type i = b i := by
  unfold fillEntry putU8 putU32
  rw [memcpy_of_outside (by omega), putLE_of_outside (by omega),
    putLE_of_outside (by omega), putLE_of_outside (by omega)]

theorem entryInode_fillEntry :
    entryInode (fillEntry b off ino name type) off = ino % 2 ^ 32 := by
  have hsame : entryInode (fillEntry b off ino name type) off =
      getLE 4 (putU32 b off ino) off := by
    apply getLE_congr
    intro i hi
    unfold fillEntry putU8 putU32
    rw [memcpy_of_outside (by omega), putLE_of_outside (by omega),
      putLE_of_outside (by omega)]
  rw [hsame, getLE_putLE]
  rfl

theorem recLen_fillEntry :
    recLen (fillEntry b off ino name type) off = recLen b off :=
  recLen_congr (fillEntry_outside _ _ _ _ _ (by omega))
    (fillEntry_outside _ _ _ _ _ (by omega))

theorem nameLen_fillEntry (hlen : name.length < 256) :
    nameLen (fillEntry b off ino name type) off = name.length := by
  unfold nameLen fillEntry putU8 putU32
  rw [memcpy_of_outside (by omega), putLE_of_outside (by omega)]
  have hbyte := @putLE_apply 1 (putLE 4 b off ino) (off + 6) name.length 0
    Nat.one_pos
  rw [Nat.add_zero, Nat.pow_zero, Nat.div_one] at hbyte
  rw [hbyte, UInt8.toNat_ofNat']
  exact Nat.mod_eq_of_lt hlen

theorem entryName_fillEntry (hlen : name.length < 256) :
    entryName (fillEntry b off ino name type) off = name := by
  unfold entryName
  rw [nameLen_fillEntry b off ino name type hlen]
  apply ext_getElem
  · rw [length_map, length_range]
  · intro i hi hi'
    rw [getElem_map, getElem_range]
    unfold fillEntry
    rw [memcpy_apply hi', Nat.zero_add]
    exact getD_eq_getElem _ _ hi'

theorem binding_fillEntry (hlen : name.length < 256) (hino : ino ≠ 0)
    (hlt : ino < 2 ^ 32) :
    binding (fillEntry b off ino name type) off = some (name, ino) := by
  unfold binding
  rw [entryInode_fillEntry, Nat.mod_eq_of_lt hlt, if_neg hino,
    entryName_fillEntry b off ino name type hlen]

variable {b off}

theorem addAt_free (hfree : entryInode b off = 0) :
    addAt b off ino name type = fillEntry b off ino name type :=
  if_neg fun hused => hused hfree

end Fill

/-!
## Records
-/

namespace Records

variable {blockSize : Nat} {b b' : Buffer} {offs xs ys : List Nat}

theorem offsets_eq (h : Records blockSize b offs) :
    offsets blockSize b = offs := by
  apply walk_eq h.chain
  have hlength := h.chain.length_le
  omega

variable {x y : Nat}

section

variable (h : Records blockSize b offs) (hx : x ∈ offs)
include h hx

theorem four_le :
    4 <= recLen b x := by
  have hpos := (h.chain.mem hx).right.left
  have haligned := (h.record x hx).aligned
  omega

/-- The header of a record ends before a later one, or the record has length 4. -/
theorem header_apart (hy : y ∈ offs) (hlt : x < y) :
    x + 8 <= y ∨ (x + 4 = y ∧ recLen b x = 4) := by
  have hfour := h.four_le hx
  have haligned := (h.record x hx).aligned
  have hend : x + recLen b x <= y := by
    rcases h.chain.apart hx hy (Nat.ne_of_lt hlt) with hle | hle
    · exact hle
    · omega
  by_cases hshort : recLen b x = 4
  · -- the record after a short one is at most as far away as the later record
    rcases append_of_mem hx with ⟨before, after, rfl⟩
    rcases h.chain.split with ⟨hbefore, _, hafter⟩
    have hy' : y ∈ after := by
      rcases mem_append.mp hy with hin | hin
      · have hrecord := hbefore.mem hin
        omega
      · rcases mem_cons.mp hin with heq | hin
        · omega
        · exact hin
    cases hafter with
    | nil => cases hy'
    | cons _ hrest =>
      rcases mem_cons.mp hy' with heq | hin
      · exact Or.inr ⟨by omega, hshort⟩
      · have hnext := h.four_le (x := x + recLen b x) (by simp)
        have hrecord := hrest.mem hin
        left
        omega
  · left
    omega

theorem before_free (hy : y ∈ offs) (hlt : x < y) (hfree : entryInode b y = 0) :
    x + 8 <= y := by
  rcases h.header_apart hx hy hlt with hle | ⟨heq, hshort⟩
  · exact hle
  · rw [← heq] at hfree
    exact absurd hfree (entryInode_of_short hshort)

end

end Records

structure RecordKept (blockSize : Nat) (b b' : Buffer) (x : Nat) : Prop where
  ok : RecordOk blockSize b' x
  recLen : recLen b' x = recLen b x
  binding : binding b' x = binding b x

theorem mem_around_iff {mid xs ys : List Nat} {x : Nat} :
    x ∈ xs ++ mid ++ ys <-> x ∈ mid ∨ x ∈ xs ∨ x ∈ ys := by
  rw [mem_append, mem_append, @or_comm (x ∈ xs), or_assoc]

theorem mem_around {mid xs ys : List Nat} {x : Nat} (h : x ∈ xs ∨ x ∈ ys) :
    x ∈ xs ++ mid ++ ys :=
  mem_around_iff.mpr (Or.inr h)

/-- The records in the middle of a block are replaced. -/
structure Spliced (blockSize : Nat) (b b' : Buffer)
    (xs mid mid' ys : List Nat) : Prop where
  kept : forall x, x ∈ xs ∨ x ∈ ys -> RecordKept blockSize b b' x
  records : Records blockSize b' (xs ++ mid' ++ ys)
  old : blockEntries blockSize b = xs.filterMap (binding b) ++
    mid.filterMap (binding b) ++ ys.filterMap (binding b)
  new : blockEntries blockSize b' = xs.filterMap (binding b) ++
    mid'.filterMap (binding b') ++ ys.filterMap (binding b)

namespace Records

variable {blockSize : Nat} {b b' : Buffer} {offs xs ys : List Nat}

variable {x : Nat}

theorem kept_of_bytes (h : Records blockSize b offs) (hx : x ∈ offs)
    (hsame : forall i, i < 8 ∨ i < recLen b x -> b' (x + i) = b (x + i)) :
    RecordKept blockSize b b' x := by
  have hok := h.record x hx
  have hheader : forall i, i < 8 -> b' (x + i) = b (x + i) :=
    fun i hi => hsame i (Or.inl hi)
  have hino : entryInode b' x = entryInode b x :=
    entryInode_congr fun i hi => hheader i (by omega)
  have hlen : Ext2.recLen b' x = Ext2.recLen b x :=
    recLen_congr (hheader 4 (by omega)) (hheader 5 (by omega))
  have hname : nameLen b' x = nameLen b x := nameLen_congr (hheader 6 (by omega))
  refine ⟨⟨hok.header, ?_, ?_⟩, hlen, ?_⟩
  · rw [hlen]
    exact hok.aligned
  · rw [hino, hlen, hname]
    exact hok.fits
  · apply binding_congr (fun i hi => hheader i (by omega)) (hheader 6 (by omega))
    intro hused i hi
    have hfits := hok.fits hused
    rw [Nat.add_assoc]
    exact hsame (8 + i) (by omega)

theorem kept (h : Records blockSize b offs) (lo hi : Nat)
    (hout : forall i, i < lo ∨ hi <= i -> b' i = b i) (hx : x ∈ offs)
    (hapart : (x + 8 <= lo ∧ x + recLen b x <= lo) ∨ hi <= x) :
    RecordKept blockSize b b' x := by
  apply h.kept_of_bytes hx
  intro i hi
  apply hout
  omega

theorem congr (h : Records blockSize b offs)
    (hsame : forall i, i < blockSize -> b' i = b i) :
    Records blockSize b' offs ∧
      blockEntries blockSize b' = blockEntries blockSize b := by
  have hkept : forall x, x ∈ offs -> RecordKept blockSize b b' x := by
    intro x hx
    have hheader := (h.record x hx).header
    have hend := (h.chain.mem hx).right.right
    apply h.kept_of_bytes hx
    intro i hi
    apply hsame
    omega
  have hrecords : Records blockSize b' offs :=
    ⟨h.chain.congr fun x hx => (hkept x hx).recLen, fun x hx => (hkept x hx).ok⟩
  refine ⟨hrecords, ?_⟩
  unfold blockEntries
  rw [h.offsets_eq, hrecords.offsets_eq]
  exact filterMap_congr fun x hx => (hkept x hx).binding

theorem splice {mid mid' : List Nat} (h : Records blockSize b (xs ++ mid ++ ys))
    (hkept : forall x, x ∈ xs ∨ x ∈ ys -> RecordKept blockSize b b' x)
    (hchain : Chain (recLen b') 0 (xs ++ mid' ++ ys) blockSize)
    (hmid : forall x, x ∈ mid' -> RecordOk blockSize b' x) :
    Spliced blockSize b b' xs mid mid' ys := by
  have hrecords : Records blockSize b' (xs ++ mid' ++ ys) := by
    refine ⟨hchain, ?_⟩
    intro x hx
    rcases mem_around_iff.mp hx with hx | hx
    · exact hmid x hx
    · exact (hkept x hx).ok
  refine ⟨hkept, hrecords, ?_, ?_⟩
  · unfold blockEntries
    rw [h.offsets_eq, filterMap_append, filterMap_append]
  · unfold blockEntries
    rw [hrecords.offsets_eq, filterMap_append, filterMap_append,
      filterMap_congr fun x hx => (hkept x (Or.inl hx)).binding,
      filterMap_congr fun x hx => (hkept x (Or.inr hx)).binding]

/-- A record is changed and keeps its length. -/
theorem inPlace {off : Nat} (h : Records blockSize b (xs ++ [off] ++ ys))
    (hkept : forall x, x ∈ xs ∨ x ∈ ys -> RecordKept blockSize b b' x)
    (hself : recLen b' off = recLen b off)
    (hfits : entryInode b' off ≠ 0 -> 8 + nameLen b' off <= recLen b off) :
    Spliced blockSize b b' xs [off] [off] ys := by
  have hok := h.record off (by simp)
  apply h.splice hkept
  · apply h.chain.congr
    intro x hx
    rcases mem_around_iff.mp hx with hx | hx
    · rw [mem_singleton.mp hx]
      exact hself
    · exact (hkept x hx).recLen
  · intro x hx
    rw [mem_singleton.mp hx]
    refine ⟨hok.header, ?_, ?_⟩
    · rw [hself]
      exact hok.aligned
    · rw [hself]
      exact hfits

end Records

/-!
## Scans
-/

variable {x blockSize : Nat} {b b' : Buffer} {xs ys : List Nat}

theorem scanBlock_cases {offs : List Nat} (h : Records blockSize b offs)
    (p : Buffer -> Nat -> Bool) :
    (scanBlock blockSize p b = some none ∧ offs.find? (p b) = none) ∨
    exists xs off ys, offs = xs ++ [off] ++ ys ∧
      scanBlock blockSize p b = some (some (xs.getLast?, off)) ∧
      offs.find? (p b) = some off := by
  have hfuel : offs.length < blockSize + 1 := by
    have hlength := h.chain.length_le
    omega
  cases hfind : offs.find? (p b) with
  | none =>
    refine Or.inl ⟨scan_none h.chain hfuel fun x hx => ?_, rfl⟩
    exact Bool.eq_false_iff.mpr (List.find?_eq_none.mp hfind x hx)
  | some off =>
    rcases List.find?_eq_some_iff_append.mp hfind with ⟨hoff, xs, ys, rfl, hxs⟩
    have hfalse : forall x, x ∈ xs -> p b x = false := by
      intro x hx
      simpa using hxs x hx
    refine Or.inr ⟨xs, off, ys, by simp, ?_, rfl⟩
    unfold scanBlock
    rw [scan_some h.chain hfuel hfalse hoff, Option.or_none]

theorem scanBlock_find (h : BlockFormed blockSize b) (p : Buffer -> Nat -> Bool) :
    exists found, scanBlock blockSize p b = some found ∧
      (offsets blockSize b).find? (p b) = found.map Prod.snd := by
  rcases h with ⟨offs, hrecords⟩
  rw [hrecords.offsets_eq]
  rcases scanBlock_cases hrecords p with
    ⟨hscan, hfind⟩ | ⟨xs, off, ys, _, hscan, hfind⟩
  · exact ⟨none, hscan, hfind⟩
  · exact ⟨some (xs.getLast?, off), hscan, hfind⟩

theorem lookup_entries (b : Buffer) (name : Name) (offs : List Nat) :
    (offs.filterMap (binding b)).lookup name =
      (offs.find? (hasName name b)).map (entryInode b) := by
  induction offs with
  | nil => rfl
  | cons x offs ih =>
    by_cases hzero : entryInode b x = 0
    · have hnot : ¬ hasName name b x = true :=
        fun hname => (hasName_iff.mp hname).left hzero
      rw [filterMap_cons_none (binding_eq_none.mpr hzero),
        List.find?_cons_of_neg hnot]
      exact ih
    · rw [filterMap_cons_some (binding_of_used hzero)]
      by_cases hname : entryName b x = name
      · rw [List.find?_cons_of_pos (hasName_iff.mpr ⟨hzero, hname⟩), hname,
          lookup_cons_self]
        rfl
      · have hne : (name == entryName b x) = false :=
          beq_eq_false_iff_ne.mpr fun heq => hname heq.symm
        have hnot : ¬ hasName name b x = true :=
          fun hin => hname (hasName_iff.mp hin).right
        rw [List.find?_cons_of_neg hnot, lookup_cons, hne]
        exact ih

theorem Records.lookup {offs : List Nat} (h : Records blockSize b offs)
    (name : Name) : (blockEntries blockSize b).lookup name =
      (offs.find? (hasName name b)).map (entryInode b) := by
  unfold blockEntries
  rw [h.offsets_eq, lookup_entries]

def Adds (blockSize : Nat) (b : Buffer) (name : Name) (ino : Nat) (b' : Buffer) :
    Prop :=
  BlockFormed blockSize b' ∧ (ino ≠ 0 -> ino < 2 ^ 32 ->
    (blockEntries blockSize b').Perm ((name, ino) :: blockEntries blockSize b))

def Removes (blockSize : Nat) (b : Buffer) (name : Name) (ino : Nat)
    (b' : Buffer) : Prop :=
  BlockFormed blockSize b' ∧
    (blockEntries blockSize b).Perm ((name, ino) :: blockEntries blockSize b')

namespace Records

variable {blockSize : Nat} {b : Buffer} {xs ys : List Nat} {off : Nat}

theorem around (h : Records blockSize b (xs ++ [off] ++ ys)) :
    (forall x, x ∈ xs -> x + recLen b x <= off ∧ x + 8 <= off + 4 ∧
      (entryInode b off = 0 -> x + 8 <= off)) ∧
    forall y, y ∈ ys -> off + recLen b off <= y := by
  have hoff : off ∈ xs ++ [off] ++ ys := by simp
  have hchain := h.chain
  rw [append_assoc] at hchain
  rcases hchain.split with ⟨hbefore, _, hafter⟩
  constructor
  · intro x hx
    have hin : x ∈ xs ++ [off] ++ ys := mem_around (Or.inl hx)
    have hrecord := hbefore.mem hx
    have hlt : x < off := by omega
    refine ⟨hrecord.right.right, ?_, h.before_free hin hoff hlt⟩
    have hapart := h.header_apart hin hoff hlt
    omega
  · intro y hy
    exact (hafter.mem hy).left

section Add

variable {name : Name} (ino : Nat) (type : FileType)

theorem fill (h : Records blockSize b (xs ++ [off] ++ ys))
    (hfree : entryInode b off = 0) (hfit : 8 + name.length <= recLen b off)
    (hlen : name.length < 256) :
    Adds blockSize b name ino (fillEntry b off ino name type) := by
  rcases h.around with ⟨hbefore, hafter⟩
  have hkept : forall x, x ∈ xs ∨ x ∈ ys ->
      RecordKept blockSize b (fillEntry b off ino name type) x := by
    intro x hx
    apply h.kept off (off + recLen b off) _ (mem_around hx)
    · rcases hx with hx | hx
      · exact Or.inl ⟨(hbefore x hx).right.right hfree, (hbefore x hx).left⟩
      · exact Or.inr (hafter x hx)
    · intro i hi
      exact fillEntry_outside _ _ _ _ _ (by omega)
  have hspliced := h.inPlace hkept (recLen_fillEntry b off ino name type)
    (by rw [nameLen_fillEntry b off ino name type hlen]; exact fun _ => hfit)
  refine ⟨⟨_, hspliced.records⟩, ?_⟩
  intro hino hlt
  rw [hspliced.old, hspliced.new,
    filterMap_cons_none (binding_eq_none.mpr hfree),
    filterMap_cons_some (binding_fillEntry b off ino name type hlen hino
      hlt), filterMap_nil, filterMap_nil, append_nil,
    append_assoc]
  exact perm_middle

theorem cut (h : Records blockSize b (xs ++ [off] ++ ys))
    (hused : entryInode b off ≠ 0)
    (hroom : entrySize name.length + entrySize (nameLen b off) <= recLen b off)
    (hlen : name.length < 256) :
    Adds blockSize b name ino (addAt b off ino name type) := by
  have hoff : off ∈ xs ++ [off] ++ ys := by simp
  have hok := h.record off hoff
  have hend : off + recLen b off <= blockSize :=
    (h.chain.mem hoff).right.right
  have hlt := recLen_lt b off
  rcases h.around with ⟨hbefore, hafter⟩
  have hkspec := entrySize_spec (nameLen b off)
  have hnspec := entrySize_spec name.length
  have hadd : addAt b off ino name type = fillEntry _ _ ino name type :=
    if_pos hused
  rw [hadd]
  generalize entrySize (nameLen b off) = k at *
  generalize hb1 : putU16 (putU16 b (off + 4) k) (off + k + 4)
    (recLen b off - k) = b1
  generalize hc : fillEntry b1 (off + k) ino name type = c
  have hout : forall i, i < off + 4 ∨ off + recLen b off <= i ∨
      (off + 6 <= i ∧ i < off + k) -> c i = b i := by
    intro i hi
    rw [← hc, fillEntry_outside _ _ _ _ _ (by omega), ← hb1]
    unfold putU16
    rw [putLE_of_outside (by omega), putLE_of_outside (by omega)]
  have hkept : forall x, x ∈ xs ∨ x ∈ ys -> RecordKept blockSize b c x := by
    intro x hx
    apply h.kept (off + 4) (off + recLen b off) _ (mem_around hx)
    · rcases hx with hx | hx
      · have hrecord := hbefore x hx
        exact Or.inl ⟨hrecord.right.left, by omega⟩
      · exact Or.inr (hafter x hx)
    · intro i hi
      exact hout i (by omega)
  have hfirst : recLen c off = k := by
    have hfield : recLen c off =
        getLE 2 (putLE 2 b (off + 4) k) (off + 4) := by
      apply getLE_congr
      intro i hi
      rw [← hc, fillEntry_outside _ _ _ _ _ (by omega), ← hb1]
      exact putLE_of_outside (by omega)
    rw [hfield]
    exact getLE_putLE_of_lt (by omega)
  have hsecond : recLen c (off + k) = recLen b off - k := by
    rw [← hc, recLen_fillEntry, ← hb1]
    exact getLE_putLE_of_lt (by omega)
  have hname : nameLen c off = nameLen b off :=
    nameLen_congr (hout _ (by omega))
  have hbinding : binding c off = binding b off :=
    binding_congr (fun i hi => hout _ (by omega)) (hout _ (by omega))
      (fun _ i hi => hout _ (by omega))
  have hchain : Chain (recLen c) 0 (xs ++ [off, off + k] ++ ys) blockSize := by
    have hold := h.chain
    rw [append_assoc] at hold ⊢
    apply hold.cut (by omega) (by omega) hfirst hsecond
    intro x hx
    exact (hkept x hx).recLen
  have hmid : forall x, x ∈ [off, off + k] -> RecordOk blockSize c x := by
    intro x hx
    rcases mem_cons.mp hx with rfl | hx
    · refine ⟨hok.header, ?_, ?_⟩
      · rw [hfirst]
        exact hkspec.left
      · intro _
        rw [hfirst, hname]
        omega
    · rw [mem_singleton.mp hx]
      have haligned := hok.aligned
      refine ⟨by omega, ?_, ?_⟩
      · omega
      · intro _
        rw [hsecond, ← hc, nameLen_fillEntry _ _ _ _ _ hlen]
        omega
  have hspliced := h.splice hkept hchain hmid
  refine ⟨⟨_, hspliced.records⟩, ?_⟩
  intro hinoz hinolt
  have hentry : binding c (off + k) = some (name, ino) := by
    rw [← hc]
    exact binding_fillEntry _ _ _ _ _ hlen hinoz hinolt
  have hsome := binding_of_used hused
  rw [hspliced.old, hspliced.new, filterMap_cons_some hsome,
    filterMap_cons_some (hbinding.trans hsome),
    filterMap_cons_some hentry, filterMap_nil, append_assoc,
    append_assoc]
  apply List.Perm.trans (List.Perm.append_left _ (List.Perm.swap _ _ _))
  exact perm_middle

end Add

variable {x : Nat} {name : Name}

section

variable (h : Records blockSize b (xs ++ [x, off] ++ ys))
  (hsmall : blockSize < 2 ^ 16)
include h hsmall

theorem merge_records :
    Spliced blockSize b (removeAt b (some x) off) xs [x, off] [x] ys ∧
    recLen (removeAt b (some x) off) x = recLen b x + recLen b off ∧
    forall i, i < x + 4 ∨ x + 6 <= i -> removeAt b (some x) off i = b i := by
  have hx : x ∈ xs ++ [x, off] ++ ys := by simp
  have hoff : off ∈ xs ++ [x, off] ++ ys := by simp
  have hfour := h.four_le hx
  have hfour' := h.four_le hoff
  have hend : off + recLen b off <= blockSize :=
    (h.chain.mem hoff).right.right
  have hnext : off = x + recLen b x := by
    have hchain := h.chain
    rw [append_assoc] at hchain
    cases hchain.split.right.right with
    | cons _ _ => rfl
  have hfront : Records blockSize b (xs ++ [x] ++ off :: ys) := by simpa using h
  have hback : Records blockSize b (xs ++ [x] ++ [off] ++ ys) := by
    simpa using h
  have hout : forall i, i < x + 4 ∨ x + 6 <= i ->
      removeAt b (some x) off i = b i := fun i hi => putLE_of_outside (by omega)
  have hboth : recLen (removeAt b (some x) off) x = recLen b x + recLen b off :=
    getLE_putLE_of_lt (by omega)
  generalize removeAt b (some x) off = c at hout hboth ⊢
  have hkept : forall z, z ∈ xs ∨ z ∈ ys -> RecordKept blockSize b c z := by
    intro z hz
    apply h.kept (x + 4) (x + 6) hout (mem_around hz)
    rcases hz with hz | hz
    · have hrecord := hfront.around.left z hz
      exact Or.inl ⟨hrecord.right.left, by omega⟩
    · have hlater := hback.around.right z hz
      exact Or.inr (by omega)
  have hchain : Chain (recLen c) 0 (xs ++ [x] ++ ys) blockSize := by
    have hold := h.chain
    rw [append_assoc] at hold ⊢
    apply hold.join hboth
    intro z hz
    exact (hkept z hz).recLen
  have hmid : forall z, z ∈ [x] -> RecordOk blockSize c z := by
    intro z hz
    rw [mem_singleton.mp hz]
    have hokx := h.record x hx
    have haligned := hokx.aligned
    have haligned' := (h.record off hoff).aligned
    refine ⟨hokx.header, ?_, ?_⟩
    · omega
    · rw [hboth, entryInode_congr (fun i hi => hout _ (by omega)),
        nameLen_congr (hout _ (by omega))]
      intro hin
      have hfits := hokx.fits hin
      omega
  exact ⟨h.splice hkept hchain hmid, hboth, hout⟩

theorem merge (hused : entryInode b off ≠ 0) :
    Removes blockSize b (entryName b off) (entryInode b off)
      (removeAt b (some x) off) := by
  rcases h.merge_records hsmall with ⟨hspliced, _, hout⟩
  have hbinding : binding (removeAt b (some x) off) x = binding b x :=
    binding_congr (fun i hi => hout _ (by omega)) (hout _ (by omega))
      (fun _ i _ => hout _ (by omega))
  refine ⟨⟨_, hspliced.records⟩, ?_⟩
  have hone : [x].filterMap (binding (removeAt b (some x) off)) =
      [x].filterMap (binding b) :=
    filterMap_congr fun z hz => by
      rw [mem_singleton.mp hz, hbinding]
  have htwo : [x, off].filterMap (binding b) = [x].filterMap (binding b) ++
      [(entryName b off, entryInode b off)] := by
    rw [show [x, off] = [x] ++ [off] from rfl, filterMap_append,
      filterMap_cons_some (binding_of_used hused), filterMap_nil]
  rw [hspliced.old, hspliced.new, hone, htwo, ← append_assoc, append_assoc]
  exact perm_middle

end

theorem release_records (h : Records blockSize b (off :: ys))
    (hused : entryInode b off ≠ 0) :
    Spliced blockSize b (removeAt b none off) [] [off] [off] ys ∧
    recLen (removeAt b none off) off = recLen b off ∧
    entryInode (removeAt b none off) off = 0 := by
  have h' : Records blockSize b ([] ++ [off] ++ ys) := h
  have hoff : off ∈ off :: ys := mem_cons_self
  have hok := h.record off hoff
  have hfits := hok.fits hused
  have hout : forall i, i < off ∨ off + 4 <= i -> removeAt b none off i = b i :=
    fun i hi => putLE_of_outside (by omega)
  have hkept : forall z, z ∈ ([] : List Nat) ∨ z ∈ ys ->
      RecordKept blockSize b (removeAt b none off) z := by
    rintro z (hz | hz)
    · cases hz
    · have hafter := h'.around.right z hz
      apply h.kept off (off + 4) hout (mem_cons_of_mem _ hz)
      exact Or.inr (by omega)
  have hself : recLen (removeAt b none off) off = recLen b off :=
    recLen_congr (hout _ (by omega)) (hout _ (by omega))
  have hfree : entryInode (removeAt b none off) off = 0 :=
    getLE_putLE_of_lt (by decide)
  exact ⟨h'.inPlace hkept hself fun hin => absurd hfree hin, hself, hfree⟩

theorem release (h : Records blockSize b (off :: ys))
    (hused : entryInode b off ≠ 0) :
    Removes blockSize b (entryName b off) (entryInode b off)
      (removeAt b none off) := by
  rcases h.release_records hused with ⟨hspliced, _, hfree⟩
  refine ⟨⟨_, hspliced.records⟩, ?_⟩
  rw [hspliced.old, hspliced.new, filterMap_cons_some (binding_of_used hused),
    filterMap_cons_none (binding_eq_none.mpr hfree)]
  exact List.Perm.refl _

section

variable (h : Records blockSize b (xs ++ [off] ++ ys))
include h

theorem adds (hroom : hasRoom (entrySize name.length) b off = true)
    (hlen : name.length < 256)
    (hfit : entryInode b off = 0 -> 8 + name.length <= recLen b off) (ino : Nat)
    (type : FileType) :
    Adds blockSize b name ino (addAt b off ino name type) := by
  by_cases hfree : entryInode b off = 0
  · rw [addAt_free ino name type hfree]
    exact h.fill ino type hfree (hfit hfree) hlen
  · apply h.cut ino type hfree _ hlen
    unfold hasRoom at hroom
    rcases (Bool.or_eq_true _ _).mp hroom with hzero | hle
    · exact absurd (beq_iff_eq.mp hzero) hfree
    · exact of_decide_eq_true hle

theorem not_formed_of_short (hfree : entryInode b off = 0)
    (hshort : recLen b off < 8 + name.length)
    (hlen : name.length < 256) {ino : Nat} (hino : ino ≠ 0) (hlt : ino < 2 ^ 32)
    (type : FileType) :
    ¬ BlockFormed blockSize (addAt b off ino name type) := by
  rw [addAt_free ino name type hfree]
  rintro ⟨offs, hrecords⟩
  have hbefore := h.around.left
  -- the records before the entry are as they were, so the chain still meets it
  have hmem : off ∈ offs := by
    have hchain := h.chain
    rw [append_assoc] at hchain
    apply hchain.meets hrecords.chain
    intro x hx
    have hrecord := (hbefore x hx).right.right hfree
    exact recLen_congr (fillEntry_outside _ _ _ _ _ (by omega))
      (fillEntry_outside _ _ _ _ _ (by omega))
  have hfits := (hrecords.record off hmem).fits
  rw [entryInode_fillEntry, Nat.mod_eq_of_lt hlt,
    nameLen_fillEntry _ _ _ _ _ hlen, recLen_fillEntry] at hfits
  omega

theorem removes (hsmall : blockSize < 2 ^ 16)
    (hname : hasName name b off = true) :
    Removes blockSize b name (entryInode b off)
      (removeAt b xs.getLast? off) := by
  rcases hasName_iff.mp hname with ⟨hused, rfl⟩
  rcases eq_nil_or_concat xs with rfl | ⟨before, x, rfl⟩
  · exact Records.release h hused
  · rw [concat_eq_append, List.getLast?_append, List.getLast?_singleton,
      Option.some_or]
    rw [concat_eq_append, append_assoc before] at h
    exact Records.merge h hsmall hused

end

end Records

/-!
## Free records
-/

/-- Every free record is long enough for a name of the given length. -/
def HasSpace (blockSize : Nat) (b : Buffer) (n : Nat) : Prop :=
  forall off, off ∈ offsets blockSize b -> entryInode b off = 0 ->
    8 + n <= recLen b off

instance (blockSize : Nat) (b : Buffer) (n : Nat) :
    Decidable (HasSpace blockSize b n) :=
  inferInstanceAs (Decidable (forall off, off ∈ _ -> _))

theorem RecordKept.free_iff (h : RecordKept blockSize b b' x) :
    entryInode b' x = 0 <-> entryInode b x = 0 := by
  rw [<- binding_eq_none, h.binding, binding_eq_none]

theorem Records.hasSpace_removed {off : Nat}
    (h : Records blockSize b (xs ++ [off] ++ ys)) {name : Name}
    (hsmall : blockSize < 2 ^ 16) (hname : hasName name b off = true)
    (hspace : HasSpace blockSize b name.length) :
    HasSpace blockSize (removeAt b xs.getLast? off) name.length := by
  rcases hasName_iff.mp hname with ⟨hused, rfl⟩
  have hold := h.offsets_eq
  rcases eq_nil_or_concat xs with rfl | ⟨before, x, rfl⟩
  · have hfits := (h.record off (by simp)).fits hused
    rcases Records.release_records h hused with ⟨hspliced, hself, _⟩
    intro z hz hfree
    rw [List.getLast?_nil] at hz hfree ⊢
    rw [hspliced.records.offsets_eq] at hz
    rcases mem_cons.mp hz with rfl | hin
    · rw [hself, length_entryName]
      exact hfits
    · have hrecord := hspliced.kept z (Or.inr hin)
      rw [hrecord.recLen]
      apply hspace z _ (hrecord.free_iff.mp hfree)
      rw [hold]
      exact mem_cons_of_mem _ hin
  · rw [concat_eq_append, append_assoc before] at h hold
    rcases Records.merge_records h hsmall with ⟨hspliced, hboth, hout⟩
    intro z hz hfree
    rw [concat_eq_append, List.getLast?_append, List.getLast?_singleton,
      Option.some_or] at hz hfree ⊢
    rw [hspliced.records.offsets_eq] at hz
    rcases mem_around_iff.mp hz with hz | hin
    · obtain rfl := mem_singleton.mp hz
      rw [entryInode_congr (fun i hi => hout _ (by omega))] at hfree
      have hlong := hspace z (by rw [hold]; simp) hfree
      omega
    · have hrecord := hspliced.kept z hin
      rw [hrecord.recLen]
      apply hspace z _ (hrecord.free_iff.mp hfree)
      rw [hold]
      exact mem_around hin

theorem scanBlock_hasName (h : BlockFormed blockSize b)
    (hsmall : blockSize < 2 ^ 16) (name : Name) :
    (scanBlock blockSize (hasName name) b = some none ∧
      (blockEntries blockSize b).lookup name = none) ∨
    exists prev off, scanBlock blockSize (hasName name) b =
        some (some (prev, off)) ∧
      (blockEntries blockSize b).lookup name = some (entryInode b off) ∧
      Removes blockSize b name (entryInode b off) (removeAt b prev off) ∧
      (HasSpace blockSize b name.length ->
        HasSpace blockSize (removeAt b prev off) name.length) := by
  rcases h with ⟨offs, hrecords⟩
  rcases scanBlock_cases hrecords (hasName name) with
    ⟨hscan, hfind⟩ | ⟨xs, off, ys, rfl, hscan, hfind⟩
  · refine Or.inl ⟨hscan, ?_⟩
    rw [hrecords.lookup, hfind]
    rfl
  · have hoff := List.find?_some hfind
    refine Or.inr ⟨xs.getLast?, off, hscan, ?_, hrecords.removes hsmall hoff,
      hrecords.hasSpace_removed hsmall hoff⟩
    rw [hrecords.lookup, hfind]
    rfl

theorem BlockFormed.congr (h : BlockFormed blockSize b)
    (hsame : forall i, i < blockSize -> b' i = b i) :
    BlockFormed blockSize b' ∧
      blockEntries blockSize b' = blockEntries blockSize b := by
  rcases h with ⟨offs, hrecords⟩
  rcases hrecords.congr hsame with ⟨hrecords', hentries⟩
  exact ⟨⟨offs, hrecords'⟩, hentries⟩

def freeBlock (blockSize : Nat) : Buffer := putU16 zeros 4 blockSize

section

variable (hlow : 8 <= blockSize) (hsmall : blockSize < 2 ^ 16)
  (haligned : blockSize % 4 = 0)
include hlow hsmall haligned

theorem freeBlock_records :
    Records blockSize (freeBlock blockSize) [0] ∧
      entryInode (freeBlock blockSize) 0 = 0 ∧
      recLen (freeBlock blockSize) 0 = blockSize := by
  have hino : entryInode (freeBlock blockSize) 0 = 0 := by
    have hsame : entryInode (freeBlock blockSize) 0 = getLE 4 zeros 0 :=
      getLE_putLE_of_disjoint (by omega)
    rw [hsame, getLE_zeros]
  have hlen : recLen (freeBlock blockSize) 0 = blockSize :=
    getLE_putLE_of_lt (by omega)
  refine ⟨⟨?_, ?_⟩, hino, hlen⟩
  · apply RecordChain.Chain.cons
    · omega
    · rw [hlen, Nat.zero_add]
      exact .nil _
  · intro off hoff
    rw [mem_singleton.mp hoff]
    refine ⟨by omega, ?_, fun hused => absurd hino hused⟩
    rw [hlen]
    exact haligned

end

end Ext2
end Horizon
