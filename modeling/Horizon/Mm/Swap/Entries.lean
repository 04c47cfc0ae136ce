import Horizon.Mm.Swap.Slots

/-!
# Entries

An entry of `swap_alloc` is an index into the array of swap areas and a page of
the area.  It keeps its meaning as long as no area before its own is removed,
and the page written through it can be read back as long as no other record
overlaps its own and the algorithm is not changed to one that cannot read it.
-/

namespace Horizon
namespace Swap

open List Bytes
open Bitmaps
open ByteFile

/-!
## The numbers of entries
-/

variable {i j page entry : Nat} {s s' : State} {f : Area -> Area} {algo : Algo}
    {data : List UInt8} {areas : List Area}

theorem areaIndex_eq (h : entry < 2 ^ 32) :
    areaIndex entry = entry / 2 ^ 24 := by
  unfold areaIndex
  rw [Nat.shiftRight_eq_div_pow, show 0xFF = 2 ^ 8 - 1 from rfl,
    Nat.and_two_pow_sub_one_eq_mod]
  exact Nat.mod_eq_of_lt (by omega)

theorem pageIndex_eq (entry : Nat) : pageIndex entry = entry % 2 ^ 24 := by
  unfold pageIndex
  rw [show 0xFFFFFF = 2 ^ 24 - 1 from rfl, Nat.and_two_pow_sub_one_eq_mod]

section

variable (hi : i < 2 ^ 8) (hj : j < 2 ^ 24)
include hi hj

theorem entryOf_eq :
    entryOf i j = i * 2 ^ 24 + j := by
  unfold entryOf
  rw [Nat.shiftLeft_eq, Nat.mod_eq_of_lt (by omega), Nat.mul_comm,
    Nat.two_pow_add_eq_or_of_lt hj]

theorem areaIndex_entryOf :
    areaIndex (entryOf i j) = i := by
  rw [entryOf_eq hi hj, areaIndex_eq (by omega)]
  omega

theorem pageIndex_entryOf :
    pageIndex (entryOf i j) = j := by
  rw [entryOf_eq hi hj, pageIndex_eq]
  omega

end

theorem entry_ext {e e' : Nat} (he : e < 2 ^ 32) (he' : e' < 2 ^ 32)
    (harea : areaIndex e = areaIndex e') (hpage : pageIndex e = pageIndex e') :
    e = e' := by
  rw [areaIndex_eq he, areaIndex_eq he'] at harea
  rw [pageIndex_eq, pageIndex_eq] at hpage
  omega

variable {area : Area}

theorem designated_iff :
    designated s entry = some (area, page) <->
      entry ≠ 0 ∧ s.areas[areaIndex entry]? = some area ∧
        page = pageIndex entry ∧ page < area.size ∧
        bitTest area.bitmap page = true := by
  unfold designated
  split
  case isTrue hzero => simp [hzero]
  case isFalse hzero =>
    cases hget : s.areas[areaIndex entry]? with
    | none => simp
    | some a =>
      simp only [Option.some.injEq]
      constructor
      · intro h
        split at h
        · cases h
        · split at h <;> cases h
          exact ⟨hzero, rfl, rfl, by omega, by assumption⟩
      · rintro ⟨_, rfl, rfl, hlt, hset⟩
        rw [if_neg (by omega), if_pos hset]

theorem designated_modify (hentry : designated s entry = some (area, page))
    (hareas : s'.areas = s.areas.modify i f)
    (hsize : forall a, (f a).size = a.size)
    (hfile : forall a, (f a).file = a.file)
    (hbit : areaIndex entry = i -> bitTest (f area).bitmap page = true) :
    exists area', designated s' entry = some (area', page) ∧
      area'.file = area.file := by
  rcases designated_iff.mp hentry with ⟨hzero, hget, hpage, hlt, hset⟩
  by_cases hi : areaIndex entry = i
  · refine ⟨f area, designated_iff.mpr ⟨hzero, ?_, hpage, ?_, hbit hi⟩,
      hfile area⟩
    · rw [hareas, List.getElem?_modify, hget, hi]
      simp
    · rw [hsize]
      exact hlt
  · refine ⟨area, designated_iff.mpr ⟨hzero, ?_, hpage, hlt, hset⟩, rfl⟩
    rw [hareas, List.getElem?_modify, hget]
    simp [Ne.symm hi]

/-!
## Runs
-/

/--
An entry that was handed out: the open file of its area, its page, and the page
last written through it with the algorithm then in force.
-/
structure Live where
  entry : Nat
  file : Nat
  page : Nat
  written : Option (List UInt8 × Algo)

structure History where
  state : State
  live : List Live

/-- What `swap_alloc` hands out; the number zero is no entry. -/
def handedOut (s : State) : List Live :=
  match swapAllocLoop s.areas 0 with
  | none => []
  | some (i, j) =>
      match s.areas[i]? with
      | none => []
      | some area =>
          if entryOf i j = 0 then []
          else [{
            entry := entryOf i j
            file := area.file
            page := j
            written := none }]

def Live.write (l : Live) (entry : Nat) (data : List UInt8) (algo : Algo) :
    Live :=
  if l.entry = entry then { l with written := some (data, algo) } else l

abbrev Page := { data : List UInt8 // data.length = pageSize }

inductive Call where
  | add (path : Path) (size : UInt32)
  | remove (path : Path)
  | alloc
  | free (entry : UInt32)
  | write (entry : UInt32) (data : Page)
  | setAlgo (algo : Algo)

def step (h : History) : Call -> History
  | Call.add path size =>
      { h with state := (swapAdd h.state path size.toNat).2 }
  | Call.remove path => { h with state := (swapRemove h.state path).2 }
  | Call.alloc =>
      { state := (swapAlloc h.state).2
        live := handedOut h.state ++ h.live }
  | Call.free entry =>
      { state := (swapFree h.state entry.toNat).2
        live := h.live.filter fun l => l.entry ≠ entry.toNat }
  | Call.write entry data =>
      match swapWrite h.state entry.toNat data.1 with
      | (Except.error _, s) => { h with state := s }
      | (Except.ok _, s) =>
          { state := s
            live := h.live.map fun l =>
              l.write entry.toNat data.1 h.state.algo }
  | Call.setAlgo algo =>
      { h with state := swapCompressSetAlgo h.state algo }

def run (h : History) : List Call -> History
  | [] => h
  | call :: calls => run (step h call) calls

/-- No area after the one that is removed is in use. -/
def RemoveOk (s : State) (path : Path) : Prop :=
  forall i area, s.areas.findIdx? (fun a => a.path = path) = some i ->
    s.areas[i]? = some area -> area.used = 0 ->
    forall k later, i < k -> s.areas[k]? = some later -> later.used = 0

/--
The packed page is told from one that is not packed, and its record overlaps
none that was written through another entry.
-/
structure WriteOk (h : History) (entry : Nat) (data : List UInt8) : Prop where
  unambiguous : Unambiguous h.state.algo data
  apart : forall area page, designated h.state entry = some (area, page) ->
    forall l, l ∈ h.live -> l.entry ≠ entry ->
    forall old algo, l.written = some (old, algo) ->
      (h.state.files l.file).node ≠ h.state.nodeOf area ∨
        pageOffset l.page + 4 + (packed algo old).length <= pageOffset page ∨
        pageOffset page + 4 + (packed h.state.algo data).length <=
          pageOffset l.page

/-- Compression is switched off only when no page is stored compressed. -/
def SetAlgoOk (h : History) (algo : Algo) : Prop :=
  algo ≠ Algo.none ∨ forall l, l ∈ h.live ->
    forall old algo', l.written = some (old, algo') -> algo' = Algo.none

def StepOk (h : History) : Call -> Prop
  | Call.remove path => RemoveOk h.state path
  | Call.write entry data => WriteOk h entry.toNat data.1
  | Call.setAlgo algo => SetAlgoOk h algo
  | _ => True

def RunOk (h : History) : List Call -> Prop
  | [] => True
  | call :: calls => StepOk h call ∧ RunOk (step h call) calls

/-- The counter of an area matches its bitmap, and a page number fits. -/
structure AreaOk (s : State) (area : Area) : Prop where
  size : area.size < 2 ^ 20
  used : area.used + clearCount area.bitmap area.size = area.size
  file : area.file < s.nextFile

structure Stored (s : State) (l : Live) (data : List UInt8) (algo : Algo) :
    Prop where
  length : data.length = pageSize
  unambiguous : Unambiguous algo data
  readable : algo = Algo.none ∨ s.algo ≠ Algo.none
  held : (s.nodes (s.files l.file).node).Holds (pageOffset l.page)
    (record (packed algo data))

structure LiveOk (s : State) (l : Live) : Prop where
  bound : l.entry < 2 ^ 32
  designated : exists area, designated s l.entry = some (area, l.page) ∧
    area.file = l.file
  stored : forall data algo, l.written = some (data, algo) ->
    Stored s l data algo

structure Kept (h : History) : Prop where
  count : h.state.areas.length <= maxSwapAreas
  area : forall a, a ∈ h.state.areas -> AreaOk h.state a
  live : forall l, l ∈ h.live -> LiveOk h.state l

theorem packed_congr {algo' : Algo} (halgo : algo ≠ .none)
    (halgo' : algo' ≠ .none) (data : List UInt8) :
    packed algo data = packed algo' data := by
  unfold packed
  rw [if_neg halgo, if_neg halgo']

variable {l : Live} {h : History}

theorem Stored.restore (h : Stored s l data algo) :
    restore s.algo (packed algo data) = .ok data := by
  rcases h.readable with hnone | halgo'
  · rw [hnone, packed_none]
    exact if_pos h.length
  · by_cases halgo : algo = .none
    · rw [halgo, packed_none]
      exact if_pos h.length
    · rw [packed_congr halgo halgo']
      apply restore_packed h.length
      rcases h.unambiguous with hnone | hlength
      · exact absurd hnone halgo
      · rw [packed_congr halgo halgo'] at hlength
        exact Or.inr hlength

theorem AreaOk.used_pos (h : AreaOk s area) (hlt : page < area.size)
    (hbit : bitTest area.bitmap page = true) :
    0 < area.used := by
  have hused := h.used
  have hclear := clearCount_bitClear hlt hbit
  have hle := clearCount_le (bitClear area.bitmap page) area.size
  omega

theorem AreaOk.mono (h : AreaOk s area)
    (hnext : s.nextFile <= s'.nextFile) : AreaOk s' area :=
  ⟨h.size, h.used, Nat.lt_of_lt_of_le h.file hnext⟩

theorem AreaOk.take (h : AreaOk s area) (hj : j < area.size)
    (hbit : bitTest area.bitmap j = false) :
    AreaOk s (area.take j) where
  size := h.size
  used := by
    have hused := h.used
    have hclear := clearCount_bitSet hj hbit
    show area.used + 1 + clearCount (bitSet area.bitmap j) area.size = area.size
    omega
  file := h.file

theorem AreaOk.release (h : AreaOk s area) (hj : j < area.size)
    (hbit : bitTest area.bitmap j = true) :
    AreaOk s (area.release j) where
  size := h.size
  used := by
    have hused := h.used
    have hpos := h.used_pos hj hbit
    have hclear := clearCount_bitClear hj hbit
    show area.used - 1 + clearCount (bitClear area.bitmap j) area.size =
      area.size
    omega
  file := h.file

theorem LiveOk.of_designated (h : LiveOk s l) (hdesignated : exists area,
      Swap.designated s' l.entry = some (area, l.page) ∧ area.file = l.file)
    (hnode : (s'.files l.file).node = (s.files l.file).node)
    (hnodes : s'.nodes = s.nodes) (halgo : s'.algo = s.algo) :
    LiveOk s' l where
  bound := h.bound
  designated := hdesignated
  stored := by
    intro data algo hwritten
    have hstored := h.stored data algo hwritten
    refine ⟨hstored.length, hstored.unambiguous, ?_, ?_⟩
    · rw [halgo]
      exact hstored.readable
    · rw [hnodes, hnode]
      exact hstored.held

/-!
## What each call preserves
-/

structure Added (s : State) (size : Nat) (s' : State) : Prop where
  algo : s'.algo = s.algo
  nodes : s'.nodes = s.nodes
  nextFile : s.nextFile <= s'.nextFile
  files : forall f, f < s.nextFile -> s'.files f = s.files f
  areas : s'.areas = s.areas ∨
    s.areas.length < maxSwapAreas ∧ exists area : Area,
      s'.areas = s.areas ++ [area] ∧ area.size = size / pageSize ∧
        area.used = 0 ∧ area.bitmap = zeros ∧ area.file < s'.nextFile

theorem swapAdd_added (s : State) (path : Path) (size : Nat) :
    Added s size (swapAdd s path size).2 := by
  have hrefl : Added s size s :=
    ⟨rfl, rfl, Nat.le_refl _, fun _ _ => rfl, Or.inl rfl⟩
  have hfiles : forall node f, f < s.nextFile ->
      Function.update s.files s.nextFile { node := node, position := 0 } f =
        s.files f := by
    intro node f hf
    exact Function.update_of_ne (Nat.ne_of_lt hf) ..
  unfold swapAdd
  split
  case isTrue hsize => exact hrefl
  case isFalse hsize =>
    split
    case isTrue hcount => exact hrefl
    case isFalse hcount =>
      cases hlookup : s.lookup path with
      | none => exact hrefl
      | some node =>
        unfold kmallocFails
        cases hmem : s.mem.headD false with
        | true =>
          simp only [hmem]
          exact ⟨rfl, rfl, Nat.le_succ _, hfiles node, Or.inl rfl⟩
        | false =>
          simp only [hmem]
          refine ⟨rfl, rfl, Nat.le_succ _, hfiles node, Or.inr ⟨?_, ?_⟩⟩
          · omega
          · exact ⟨_, rfl, rfl, rfl, rfl, Nat.lt_succ_self _⟩

theorem clearCount_zeros (n : Nat) : clearCount zeros n = n := by
  induction n with
  | zero => rfl
  | succ n ih =>
    have hbit : bitTest zeros n = false := by
      rw [bitTest_eq]
      exact Nat.zero_testBit _
    rw [clearCount_succ, ih, if_pos hbit]

theorem Kept.add (hkept : Kept h) (path : Path) (size : UInt32) :
    Kept (step h (.add path size)) := by
  have hadded := swapAdd_added h.state path size.toNat
  obtain ⟨s, hs⟩ : exists t, t = (swapAdd h.state path size.toNat).2 :=
    ⟨_, rfl⟩
  rw [← hs] at hadded
  show Kept { h with state := (swapAdd h.state path size.toNat).2 }
  rw [← hs]
  obtain ⟨fresh, hareas, hcount, hfresh⟩ : exists fresh,
      s.areas = h.state.areas ++ fresh ∧ s.areas.length <= maxSwapAreas ∧
        forall a, a ∈ fresh -> AreaOk s a := by
    rcases hadded.areas with hareas | ⟨hcount, area, hareas, hnew⟩
    · rw [hareas]
      exact ⟨[], (append_nil _).symm, hkept.count,
        fun _ ha => absurd ha not_mem_nil⟩
    · rcases hnew with ⟨hsize, hused, hbitmap, hfile⟩
      refine ⟨[area], hareas, ?_, fun a ha => ?_⟩
      · rw [hareas, length_append, length_singleton]
        exact hcount
      rw [mem_singleton.mp ha]
      refine ⟨?_, ?_, hfile⟩
      · have hlt := size.toNat_lt
        rw [hsize]
        show size.toNat / 4096 < 2 ^ 20
        omega
      · rw [hused, hbitmap, clearCount_zeros, Nat.zero_add]
  refine ⟨hcount, fun a ha => ?_, fun l hl => ?_⟩
  · have ha : a ∈ s.areas := ha
    rw [hareas] at ha
    rcases mem_append.mp ha with hold | hnew
    · exact (hkept.area a hold).mono hadded.nextFile
    · exact hfresh a hnew
  · have hok := hkept.live l hl
    rcases hok.designated with ⟨area, hentry, hfile⟩
    rcases designated_iff.mp hentry with ⟨hzero, harea, hrest⟩
    have hopen : area.file < h.state.nextFile :=
      (hkept.area area (mem_of_getElem? harea)).file
    apply hok.of_designated _ _ hadded.nodes hadded.algo
    · refine ⟨area, designated_iff.mpr ⟨hzero, ?_, hrest⟩, hfile⟩
      rw [hareas,
        List.getElem?_append_left (List.getElem?_eq_some_iff.mp harea).1]
      exact harea
    · rw [← hfile, hadded.files _ hopen]

theorem Kept.remove (hkept : Kept h) {path : Path} (hok : RemoveOk h.state path) :
    Kept (step h (.remove path)) := by
  show Kept { h with state := (swapRemove h.state path).2 }
  unfold swapRemove
  cases hfind : h.state.areas.findIdx? (fun a => a.path = path) with
  | none => exact hkept
  | some i =>
    cases hget : h.state.areas[i]? with
    | none =>
      simp only [hget]
      exact hkept
    | some area =>
      simp only [hget]
      split
      case isTrue hused => exact hkept
      case isFalse hused =>
        have hafter := hok i area hfind hget (by omega)
        refine ⟨?_, ?_, ?_⟩
        · have hle := (eraseIdx_sublist h.state.areas i).length_le
          exact Nat.le_trans hle hkept.count
        · intro a ha
          have ha' : a ∈ h.state.areas := mem_of_mem_eraseIdx ha
          exact (hkept.area a ha').mono (Nat.le_refl _)
        · intro l hl
          have hlive := hkept.live l hl
          rcases hlive.designated with ⟨a, hentry, hfile⟩
          rcases designated_iff.mp hentry with ⟨hzero, ha, hpage, hlt, hset⟩
          have hpos := (hkept.area a (mem_of_getElem? ha)).used_pos
            hlt hset
          -- the area of the entry is in use, so it comes before
          have hbefore : areaIndex l.entry < i := by
            rcases Nat.lt_trichotomy (areaIndex l.entry) i with
              hless | heq | hgreater
            · exact hless
            · rw [heq, hget] at ha
              cases ha
              omega
            · have hunused := hafter _ a hgreater ha
              omega
          refine hlive.of_designated ?_ rfl rfl rfl
          refine ⟨a, designated_iff.mpr ⟨hzero, ?_, hpage, hlt, hset⟩, hfile⟩
          rw [← ha]
          exact List.getElem?_eraseIdx_of_lt hbefore

theorem swapAllocLoop_some {first : Nat}
    (h : swapAllocLoop areas first = some (i, j)) :
    exists k area, i = first + k ∧ areas[k]? = some area ∧ j < area.size ∧
      bitTest area.bitmap j = false := by
  induction areas generalizing first with
  | nil => cases h
  | cons area rest ih =>
    have hrest : swapAllocLoop rest (first + 1) = some (i, j) ->
        exists k a, i = first + k ∧ (area :: rest)[k]? = some a ∧
          j < a.size ∧ bitTest a.bitmap j = false := by
      intro h
      rcases ih h with ⟨k, a, hi, ha, hj⟩
      refine ⟨k + 1, a, by omega, ?_, hj⟩
      exact ha
    unfold swapAllocLoop at h
    split at h
    case isTrue hfull => exact hrest h
    case isFalse hfull =>
      cases hclear : firstClear area.bitmap area.size 0 with
      | none =>
        simp only [hclear] at h
        exact hrest h
      | some j' =>
        simp only [hclear] at h
        cases h
        rcases firstClear_some hclear with ⟨hlt, hbit⟩
        exact ⟨0, area, rfl, rfl, by omega, hbit⟩

theorem mem_modify {a : Area} (h : a ∈ areas.modify i f) :
    a ∈ areas ∨ exists b, areas[i]? = some b ∧ a = f b := by
  rcases mem_iff_getElem?.mp h with ⟨k, hk⟩
  rw [List.getElem?_modify] at hk
  cases hget : areas[k]? with
  | none =>
    rw [hget] at hk
    cases hk
  | some b =>
    rw [hget] at hk
    split at hk
    case isTrue hi =>
      cases hk
      exact Or.inr ⟨b, hi ▸ hget, rfl⟩
    case isFalse hi =>
      cases hk
      exact Or.inl (mem_of_getElem? hget)

def State.modify (s : State) (i : Nat) (f : Area -> Area) : State :=
  { s with areas := s.areas.modify i f }

theorem LiveOk.modify (hok : LiveOk s l) (hsize : forall a, (f a).size = a.size)
    (hfile : forall a, (f a).file = a.file)
    (hbit : forall area, Swap.designated s l.entry = some (area, l.page) ->
      areaIndex l.entry = i -> bitTest (f area).bitmap l.page = true) :
    LiveOk (s.modify i f) l := by
  rcases hok.designated with ⟨area, hentry, hsame⟩
  have hareas : (s.modify i f).areas = s.areas.modify i f := rfl
  have hkeep := designated_modify hentry hareas hsize hfile (hbit area hentry)
  rw [hsame] at hkeep
  exact hok.of_designated hkeep rfl rfl rfl

theorem Kept.modify (hkept : Kept h) {live : List Live}
    (hget : h.state.areas[i]? = some area)
    (hchange : AreaOk h.state area -> AreaOk h.state (f area))
    (hlive : forall l, l ∈ live -> LiveOk (h.state.modify i f) l) :
    Kept { state := h.state.modify i f, live := live } := by
  refine ⟨?_, ?_, hlive⟩
  · show (h.state.areas.modify i f).length <= maxSwapAreas
    rw [length_modify]
    exact hkept.count
  · intro a ha
    rcases mem_modify ha with hold | ⟨b, hb, rfl⟩
    · exact (hkept.area a hold).mono (Nat.le_refl _)
    · cases hget.symm.trans hb
      have harea := hkept.area area (mem_of_getElem? hget)
      exact (hchange harea).mono (Nat.le_refl _)

/-- The slot that is found is free, and its number can be told from others. -/
theorem Kept.found (hkept : Kept h)
    (hloop : swapAllocLoop h.state.areas 0 = some (i, j)) :
    exists area, h.state.areas[i]? = some area ∧ j < area.size ∧
      bitTest area.bitmap j = false ∧ i < 2 ^ 8 ∧ j < 2 ^ 24 := by
  rcases swapAllocLoop_some hloop with ⟨k, area, hi, hget, hj, hclear⟩
  rw [Nat.zero_add] at hi
  subst hi
  have hsize := (hkept.area area (mem_of_getElem? hget)).size
  have hcount : i < maxSwapAreas :=
    Nat.lt_of_lt_of_le (List.getElem?_eq_some_iff.mp hget).1 hkept.count
  exact ⟨area, hget, hj, hclear, Nat.lt_of_lt_of_le hcount (by decide), by omega⟩

theorem Kept.alloc (hkept : Kept h) : Kept (step h .alloc) := by
  show Kept {
    state := (swapAlloc h.state).2
    live := handedOut h.state ++ h.live }
  unfold swapAlloc handedOut
  cases hloop : swapAllocLoop h.state.areas 0 with
  | none => exact hkept
  | some place =>
    obtain ⟨i, j⟩ := place
    rcases hkept.found hloop with ⟨area, hget, hj, hclear, hi, hj'⟩
    simp only [hget]
    apply hkept.modify hget (fun hok => hok.take hj hclear)
    intro l hl
    rcases mem_append.mp hl with hnew | hold
    · split at hnew
      case isTrue hzero => cases hnew
      case isFalse hzero =>
        rw [mem_singleton.mp hnew]
        refine ⟨?_, ⟨area.take j, ?_, rfl⟩, fun _ _ hwritten => nomatch hwritten⟩
        · show entryOf i j < 2 ^ 32
          rw [entryOf_eq hi hj']
          omega
        · apply designated_iff.mpr
          show entryOf i j ≠ 0 ∧
            (h.state.areas.modify i _)[areaIndex (entryOf i j)]? = _ ∧
            j = pageIndex (entryOf i j) ∧ j < area.size ∧
            bitTest (bitSet area.bitmap j) j = true
          rw [areaIndex_entryOf hi hj', pageIndex_entryOf hi hj',
            List.getElem?_modify, hget, bitTest_bitSet]
          simp [hzero, hj]
    · refine (hkept.live l hold).modify (fun _ => rfl) (fun _ => rfl) ?_
      intro a hentry _
      show bitTest (bitSet a.bitmap j) l.page = true
      rw [bitTest_bitSet, (designated_iff.mp hentry).2.2.2.2, Bool.or_true]

theorem Kept.free (hkept : Kept h) (entry : UInt32) :
    Kept (step h (.free entry)) := by
  have hlive : forall l, l ∈ h.live.filter (fun l => l.entry ≠ entry.toNat) ->
      l ∈ h.live ∧ l.entry ≠ entry.toNat := by
    intro l hl
    rw [mem_filter, decide_eq_true_eq] at hl
    exact hl
  show Kept {
    state := (swapFree h.state entry.toNat).2
    live := h.live.filter fun l => l.entry ≠ entry.toNat }
  unfold swapFree
  cases hentry : designated h.state entry.toNat with
  | none =>
    exact ⟨hkept.count, hkept.area, fun l hl => hkept.live l (hlive l hl).1⟩
  | some place =>
    obtain ⟨area, page⟩ := place
    rcases designated_iff.mp hentry with ⟨_, hget, hpage, hlt, hset⟩
    apply hkept.modify hget (fun hok => hok.release hlt hset)
    intro l hl
    rcases hlive l hl with ⟨hmem, hne⟩
    have hok := hkept.live l hmem
    refine hok.modify (fun _ => rfl) (fun _ => rfl) ?_
    intro a hentry' hindex
    rcases designated_iff.mp hentry' with ⟨_, _, hpage', _, hset'⟩
    have hother : l.page ≠ page := by
      intro heq
      apply hne
      apply entry_ext hok.bound entry.toNat_lt hindex
      rw [← hpage', ← hpage, heq]
    show bitTest (bitClear a.bitmap page) l.page = true
    rw [bitTest_bitClear, hset']
    simp [hother]

theorem swapWrite_cases (s : State) (entry : Nat)
    (hdata : data.length = pageSize) :
    (exists e s', swapWrite s entry data = (.error e, s') ∧
      Same s s' ∧ s'.nodes = s.nodes) ∨
    exists area page s', designated s entry = some (area, page) ∧
      swapWrite s entry data = (.ok (), s') ∧
      Wrote s (s.nodeOf area) (pageOffset page) (packed s.algo data) s' := by
  cases hentry : designated s entry with
  | none =>
    refine Or.inl ⟨.einval, s, ?_, Same.refl s, rfl⟩
    unfold swapWrite
    rw [hentry]
  | some place =>
    obtain ⟨area, page⟩ := place
    cases hmem : s.mem.headD false with
    | true =>
      refine Or.inl ⟨.enomem, (kmallocFails s).2, ?_, same_kmalloc s, rfl⟩
      unfold swapWrite kmallocFails
      simp only [hentry, hmem]
    | false =>
      rcases swapWrite_wrote hentry hdata hmem with ⟨s', hwrite, hwrote⟩
      exact Or.inr ⟨area, page, s', rfl, hwrite, hwrote⟩

theorem Kept.same (hkept : Kept h) (hsame : Same h.state s) {live : List Live}
    (hlive : forall l, l ∈ live -> LiveOk s l) : Kept ⟨s, live⟩ := by
  refine ⟨?_, fun a ha => ?_, hlive⟩
  · show s.areas.length <= maxSwapAreas
    rw [hsame.areas]
    exact hkept.count
  · have ha : a ∈ s.areas := ha
    rw [hsame.areas] at ha
    exact (hkept.area a ha).mono (Nat.le_of_eq hsame.nextFile.symm)

theorem Live.write_entry (l : Live) (entry : Nat) (data : List UInt8)
    (algo : Algo) : (l.write entry data algo).entry = l.entry ∧
      (l.write entry data algo).file = l.file ∧
      (l.write entry data algo).page = l.page := by
  unfold Live.write
  split
  case isTrue h => exact ⟨rfl, rfl, rfl⟩
  case isFalse h => exact ⟨rfl, rfl, rfl⟩

theorem Kept.write (hkept : Kept h) {entry : UInt32} {data : Page}
    (hok : WriteOk h entry.toNat data.1) :
    Kept (step h (.write entry data)) := by
  unfold step
  rcases swapWrite_cases h.state entry.toNat data.2 with
    ⟨e, s, hres, hsame, hnodes⟩ | ⟨area, page, s, hentry, hres, hwrote⟩
  · simp only [hres]
    refine hkept.same hsame fun l hl => ?_
    have hlive := hkept.live l hl
    refine hlive.of_designated ?_ (hsame.fileNode _) hnodes hsame.algo
    rw [hsame.designated]
    exact hlive.designated
  · simp only [hres]
    have hsame := hwrote.toSame
    refine hkept.same hsame fun l' hl' => ?_
    rcases mem_map.mp hl' with ⟨l, hl, rfl⟩
    have hlive := hkept.live l hl
    rcases l.write_entry entry.toNat data.1 h.state.algo with
      ⟨hnumber, hfile, hpage⟩
    refine ⟨?_, ?_, ?_⟩
    · rw [hnumber]
      exact hlive.bound
    · rw [hnumber, hfile, hpage, hsame.designated]
      exact hlive.designated
    · intro old algo hwritten
      unfold Live.write at hwritten
      split at hwritten
      case isTrue hself =>
        cases hwritten
        rcases hlive.designated with ⟨a, hentry', hfile'⟩
        rw [hself, hentry] at hentry'
        cases hentry'
        refine ⟨data.2, hok.unambiguous, ?_, ?_⟩
        · rw [hsame.algo]
          exact Classical.em _
        · rw [hfile, hpage, hsame.fileNode, ← hfile']
          exact hwrote.holds
      case isFalse hself =>
        have hstored := hlive.stored old algo hwritten
        refine ⟨hstored.length, hstored.unambiguous, ?_, ?_⟩
        · rw [hsame.algo]
          exact hstored.readable
        · rw [hfile, hpage, hsame.fileNode]
          apply hwrote.holds_other hstored.held
          have hapart := hok.apart area page hentry l hl hself old algo
            hwritten
          rw [length_record, length_record]
          omega

theorem Kept.setAlgo (hkept : Kept h) (hok : SetAlgoOk h algo) :
    Kept (step h (.setAlgo algo)) := by
  refine ⟨hkept.count, fun a ha => (hkept.area a ha).mono (Nat.le_refl _), ?_⟩
  intro l hl
  have hlive := hkept.live l hl
  refine ⟨hlive.bound, hlive.designated, ?_⟩
  intro old algo' hwritten
  have hstored := hlive.stored old algo' hwritten
  refine ⟨hstored.length, hstored.unambiguous, ?_, hstored.held⟩
  rcases hok with halgo | hall
  · exact Or.inr halgo
  · exact Or.inl (hall l hl old algo' hwritten)

theorem Kept.step (hkept : Kept h) {call : Call} (hok : StepOk h call) :
    Kept (step h call) := by
  cases call with
  | add path size => exact hkept.add path size
  | remove path => exact hkept.remove hok
  | alloc => exact hkept.alloc
  | free entry => exact hkept.free entry
  | write entry data => exact hkept.write hok
  | setAlgo algo => exact hkept.setAlgo hok

theorem Kept.run (hkept : Kept h) {calls : List Call} (hok : RunOk h calls) :
    Kept (run h calls) := by
  induction calls generalizing h with
  | nil => exact hkept
  | cons call calls ih => exact ih (hkept.step hok.1) hok.2

def State.slot (s : State) (i j : Nat) : Bool :=
  match s.areas[i]? with
  | none => false
  | some area => bitTest area.bitmap j

/-- What `swap_alloc` and `swap_free` do next, with the entries that are held. -/
structure SlotsOk (s : State) (held : List Nat) : Prop where
  full : (swapAlloc s).1 = 0 <-> forall a, a ∈ s.areas ->
    forall j, j < a.size -> bitTest a.bitmap j = true
  fresh : (swapAlloc s).1 ≠ 0 -> (swapAlloc s).1 ∉ held
  free : forall e, e ∈ held -> (swapFree s e).1 = Except.ok () ∧
    forall i j, (swapFree s e).2.slot i j =
      (s.slot i j && !(i = areaIndex e && j = pageIndex e))
  used : forall a, a ∈ s.areas ->
    a.used = (List.range a.size).countP (bitTest a.bitmap)

theorem swapAllocLoop_none {first : Nat}
    (harea : forall a, a ∈ areas -> AreaOk s a)
    (h : swapAllocLoop areas first = none) :
    forall a, a ∈ areas -> forall j, j < a.size -> bitTest a.bitmap j = true := by
  induction areas generalizing first with
  | nil => exact fun _ ha => nomatch ha
  | cons area rest ih =>
    rw [forall_mem_cons] at harea ⊢
    unfold swapAllocLoop at h
    split at h
    case isTrue hfull =>
      refine ⟨fun j hj => ?_, ih harea.2 h⟩
      by_contra hbit
      have hpos := clearCount_pos hj (Bool.eq_false_iff.mpr hbit)
      have hused := harea.1.used
      omega
    case isFalse =>
      split at h
      case h_1 => cases h
      case h_2 hnone =>
        exact ⟨fun j hj => firstClear_none hnone (Nat.zero_le j) (by omega),
          ih harea.2 h⟩

/-- Without the slot whose number is zero, every slot can be handed out. -/
theorem Kept.slots (hkept : Kept h)
    (hfirst : forall a, h.state.areas[0]? = some a -> a.size = 0) :
    SlotsOk h.state (h.live.map Live.entry) := by
  have hheld : forall e, e ∈ h.live.map Live.entry ->
      exists area, designated h.state e = some (area, pageIndex e) := by
    intro e he
    rcases mem_map.mp he with ⟨l, hl, rfl⟩
    rcases (hkept.live l hl).designated with ⟨area, hentry, _⟩
    rw [← (designated_iff.mp hentry).2.2.1]
    exact ⟨area, hentry⟩
  have hused : forall a, a ∈ h.state.areas ->
      a.used = (List.range a.size).countP (bitTest a.bitmap) := by
    intro a ha
    have hclear := (hkept.area a ha).used
    have hlength := length_eq_countP_add_countP (bitTest a.bitmap)
      (l := List.range a.size)
    simp only [Bool.not_eq_true, Bool.decide_eq_false, length_range] at hlength
    unfold clearCount at hclear
    omega
  have hfree : forall e, e ∈ h.live.map Live.entry ->
      (swapFree h.state e).1 = .ok () ∧ forall i j,
        (swapFree h.state e).2.slot i j =
          (h.state.slot i j && !(i = areaIndex e && j = pageIndex e)) := by
    intro e he
    rcases hheld e he with ⟨area, hentry⟩
    unfold swapFree
    simp only [hentry]
    refine ⟨trivial, fun i j => ?_⟩
    unfold State.slot
    simp only [List.getElem?_modify]
    cases h.state.areas[i]? with
    | none => rfl
    | some a =>
      by_cases hi : areaIndex e = i
      · simp [hi, Area.release, bitTest_bitClear, Bool.and_comm]
      · simp [hi, Ne.symm hi]
  cases hloop : swapAllocLoop h.state.areas 0 with
  | none =>
    have halloc : (swapAlloc h.state).1 = 0 := by
      unfold swapAlloc
      rw [hloop]
    exact ⟨iff_of_true halloc (swapAllocLoop_none hkept.area hloop),
      fun hne => absurd halloc hne, hfree, hused⟩
  | some place =>
    obtain ⟨i, j⟩ := place
    rcases hkept.found hloop with ⟨area, hget, hj, hclear, hi, hj'⟩
    have halloc : (swapAlloc h.state).1 = entryOf i j := by
      unfold swapAlloc
      rw [hloop]
    refine ⟨?_, fun _ he => ?_, hfree, hused⟩
    · rw [halloc, entryOf_eq hi hj']
      refine iff_of_false (fun hzero => ?_) fun hall => ?_
      · have hi0 : i = 0 := by omega
        rw [hi0] at hget
        have hsize := hfirst area hget
        omega
      · rw [hall area (mem_of_getElem? hget) j hj] at hclear
        cases hclear
    · rw [halloc] at he
      rcases hheld _ he with ⟨a, hentry⟩
      rcases designated_iff.mp hentry with ⟨_, ha, _, _, hset⟩
      rw [areaIndex_entryOf hi hj', hget] at ha
      cases ha
      rw [pageIndex_entryOf hi hj', hclear] at hset
      cases hset

def Call.OnSlots : Call -> Prop
  | Call.alloc => True
  | Call.free _ => True
  | _ => False

theorem sizes_modify (hsize : forall a, (f a).size = a.size) :
    (areas.modify i f).map Area.size = areas.map Area.size := by
  apply ext_getElem?
  intro k
  simp only [getElem?_map, getElem?_modify, Option.map_eq_map, Option.map_map]
  congr 1
  funext a
  by_cases hi : i = k
  · simp [hi, hsize]
  · simp [hi]

theorem Call.OnSlots.run {calls : List Call}
    (hcalls : forall c, c ∈ calls -> c.OnSlots) (h : History) :
    RunOk h calls ∧
      (run h calls).state.areas.map Area.size =
        h.state.areas.map Area.size := by
  induction calls generalizing h with
  | nil => exact ⟨trivial, rfl⟩
  | cons call calls ih =>
    rw [forall_mem_cons] at hcalls
    rcases ih hcalls.2 (step h call) with ⟨hok, hsizes⟩
    have hstep : (step h call).state.areas.map Area.size =
        h.state.areas.map Area.size := by
      cases call with
      | alloc =>
        show (swapAlloc h.state).2.areas.map Area.size = _
        unfold swapAlloc
        split
        · rfl
        · exact sizes_modify fun _ => rfl
      | free entry =>
        show (swapFree h.state entry.toNat).2.areas.map Area.size = _
        unfold swapFree
        split
        · rfl
        · exact sizes_modify fun _ => rfl
      | _ => exact absurd hcalls.1 id
    refine ⟨⟨?_, hok⟩, hsizes.trans hstep⟩
    cases call with
    | alloc => trivial
    | free entry => trivial
    | _ => exact absurd hcalls.1 id

end Swap
end Horizon
