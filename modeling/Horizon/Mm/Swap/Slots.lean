import Horizon.Mm.Swap.Model

/-!
# Slots

A page is stored in its slot as a record: the length of the packed page,
followed by the packed page.  A record can be longer than the slot, and a packed
page that is as long as a page is taken for a page that is not packed.
-/

namespace Horizon
namespace Swap

open Function List Bytes
open Bitmaps
open ByteFile

def record (l : List UInt8) : List UInt8 := toBytes 4 l.length ++ l

theorem length_record (l : List UInt8) : (record l).length = 4 + l.length := by
  unfold record
  rw [length_append, length_toBytes]

def State.nodeOf (s : State) (area : Area) : Nat := (s.files area.file).node

/-!
## What reading and writing change
-/

/-- Nothing but positions and the outcomes of allocations differs. -/
structure Same (s s' : State) : Prop where
  areas : s'.areas = s.areas
  algo : s'.algo = s.algo
  nextFile : s'.nextFile = s.nextFile
  lookup : s'.lookup = s.lookup
  fileNode : forall f, (s'.files f).node = (s.files f).node

namespace Same

variable {s s' s'' : State}

theorem refl (s : State) : Same s s := ⟨rfl, rfl, rfl, rfl, fun _ => rfl⟩

theorem trans (h : Same s s') (h' : Same s' s'') : Same s s'' where
  areas := h'.areas.trans h.areas
  algo := h'.algo.trans h.algo
  nextFile := h'.nextFile.trans h.nextFile
  lookup := h'.lookup.trans h.lookup
  fileNode f := (h'.fileNode f).trans (h.fileNode f)

theorem designated (h : Same s s') (entry : Nat) :
    designated s' entry = Swap.designated s entry := by
  unfold Swap.designated
  rw [h.areas]

theorem nodeOf (h : Same s s') (area : Area) :
    s'.nodeOf area = s.nodeOf area :=
  h.fileNode area.file

end Same

theorem same_kmalloc (s : State) : Same s (kmallocFails s).2 :=
  ⟨rfl, rfl, rfl, rfl, fun _ => rfl⟩

variable {off file node page entry : Nat} {s s' : State} {l data : List UInt8}
    {area : Area}

theorem update_node {files : Nat -> File} {position : Nat} (f : Nat) :
    (update files file
      { files file with position := position } f).node = (files f).node := by
  by_cases hf : f = file
  · rw [hf, update_self]
  · rw [update_of_ne hf]

theorem same_fsSeek (s : State) (file offset : Nat) :
    Same s (fsSeek s file offset) :=
  ⟨rfl, rfl, rfl, rfl, update_node⟩

theorem same_fsWrite (s : State) (file : Nat) (l : List UInt8) :
    Same s (fsWrite s file l) :=
  ⟨rfl, rfl, rfl, rfl, update_node⟩

theorem position_fsSeek (s : State) (file offset : Nat) :
    ((fsSeek s file offset).files file).position = offset := by
  unfold fsSeek
  simp only
  rw [update_self]

theorem position_fsWrite (s : State) (file : Nat) (l : List UInt8) :
    ((fsWrite s file l).files file).position =
      (s.files file).position + l.length := by
  unfold fsWrite
  simp only
  rw [update_self]

theorem nodes_fsWrite (s : State) (file : Nat) (l : List UInt8) :
    (fsWrite s file l).nodes = update s.nodes (s.files file).node
      ((s.nodes (s.files file).node).write (s.files file).position l) :=
  rfl

/-- `l` was written as a record at an offset of a file. -/
structure Wrote (s : State) (node off : Nat) (l : List UInt8) (s' : State) :
    Prop extends Same s s' where
  mem : s'.mem = s.mem.tail
  nodes : s'.nodes = update s.nodes node
    (((s.nodes node).write off (toBytes 4 l.length)).write (off + 4) l)

theorem Wrote.holds (h : Wrote s node off l s') :
    (s'.nodes node).Holds off (record l) := by
  unfold record
  rw [h.nodes, update_self, Data.holds_append, length_toBytes]
  refine ⟨?_, Data.holds_write _ _ _⟩
  apply (Data.holds_write _ _ _).write
  exact Or.inl (Nat.le_refl _)

theorem Wrote.holds_other {node' off' : Nat} {l' : List UInt8}
    (h : Wrote s node off l s') (hheld : (s.nodes node').Holds off' l')
    (hapart : node' ≠ node ∨ off' + l'.length <= off ∨
      off + (record l).length <= off') : (s'.nodes node').Holds off' l' := by
  rw [h.nodes]
  by_cases hnode : node' = node
  · rw [length_record] at hapart
    rw [hnode, update_self]
    rw [hnode] at hheld
    apply Data.Holds.write
    · apply hheld.write
      rw [length_toBytes]
      omega
    · omega
  · rw [update_of_ne hnode]
    exact hheld

theorem swapWrite_wrote (hentry : designated s entry = some (area, page))
    (hdata : data.length = pageSize) (hmem : s.mem.headD false = false) :
    exists s', swapWrite s entry data = (.ok (), s') ∧
      Wrote s (s.nodeOf area) (pageOffset page) (packed s.algo data) s' := by
  have hkmalloc : kmallocFails s = (false, { s with mem := s.mem.tail }) := by
    unfold kmallocFails
    rw [hmem]
  unfold swapWrite
  simp only [hentry, hkmalloc, swapCompressPage_eq hdata]
  have hsame1 : Same s { s with mem := s.mem.tail } := same_kmalloc s
  have hsame2 := hsame1.trans (same_fsSeek _ area.file (pageOffset page))
  have hsame3 := hsame2.trans
    (same_fsWrite _ area.file (toBytes 4 (packed s.algo data).length))
  refine ⟨_, rfl, hsame3.trans (same_fsWrite _ _ _), rfl, ?_⟩
  rw [nodes_fsWrite, position_fsWrite, position_fsSeek, length_toBytes,
    hsame3.fileNode, nodes_fsWrite, position_fsSeek, hsame2.fileNode,
    update_self, update_idem]
  rfl

def restore (algo : Algo) (l : List UInt8) : Except Errno (List UInt8) :=
  if l.length = pageSize then Except.ok l else unpack algo l

/-- A packed page is told from one that is not packed. -/
def Unambiguous (algo : Algo) (data : List UInt8) : Prop :=
  algo = Algo.none ∨ (packed algo data).length ≠ pageSize

theorem restore_packed {algo : Algo} (hdata : data.length = pageSize)
    (hok : Unambiguous algo data) :
    restore algo (packed algo data) = .ok data := by
  unfold restore
  by_cases halgo : algo = .none
  · have hpacked : packed algo data = data := by
      unfold packed
      rw [if_pos halgo]
    rw [hpacked, if_pos hdata]
  · rcases hok with hnone | hlength
    · exact absurd hnone halgo
    · rw [if_neg hlength]
      unfold unpack
      rw [swapDecompressPage_packed hdata halgo]
      exact if_pos hdata

/-!
## Two pages
-/

theorem packed_none (data : List UInt8) : packed .none data = data :=
  if_pos rfl

end Swap
end Horizon
