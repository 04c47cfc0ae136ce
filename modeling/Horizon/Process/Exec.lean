import Horizon.Lib.Bytes
import Horizon.Lib.Ledger
import Horizon.Types

/-!
# Executing a program

`process_execve` and `process_load_elf` of `exec.c` with the file functions
they call.  The signals and registers that are set after a program was loaded
are left out, and so are the closing of the file and the copies of the
arguments.
-/

namespace Horizon
namespace Exec

open Bytes

/-!
## The calls
-/

structure Task where
  mm : Option Nat
  entry : Nat
  argv : List (List UInt8)
  envp : List (List UInt8)

structure Area where
  addr : Nat
  len : Nat
  prot : Nat

/-- The current task, the address spaces with their areas, and user memory. -/
structure State where
  task : Task
  spaces : Ledger (List Area)
  mem : Buffer

/-- The reads of a call. -/
inductive Place where
  | magic
  | header
  | phdr (i : Nat)
  | segment (i : Nat)

/-- What a read operation returns, stores, and leaves as the position. -/
structure ReadResult where
  count : Int
  data : List UInt8
  pos : Nat

/--
What a call meets: whether there is a current task, the file system's
operations on the file, and the outcomes of allocations and mappings.  The
position after `file_seek` depends on the file system, too.
-/
structure Env where
  current : Bool
  fileMem : Bool
  kernPath : List UInt8 -> Int
  openOp : Nat -> Int × Nat
  iMode : Nat
  read : Place -> Nat -> Nat -> ReadResult
  seek : Place -> Nat -> Nat
  createMm : Option Nat
  mmap : Nat -> Area -> Option Nat
  argsMem : Bool

structure File where
  fMode : Nat
  fPos : Nat

def fileOpen (e : Env) (path : List UInt8) (mode : Nat) : Except Int File :=
  if ¬ e.fileMem then .error (-1)
  else if e.kernPath path ≠ 0 then .error (e.kernPath path)
  else if (e.openOp mode).1 ≠ 0 then .error (e.openOp mode).1
  else .ok { fMode := (e.openOp mode).2, fPos := 0 }

def fmodeRead : Nat := 1

def fileRead (e : Env) (place : Place) (file : File) (count : Nat) :
    ReadResult :=
  if file.fMode &&& fmodeRead = 0 then ⟨-1, [], file.fPos⟩
  else e.read place file.fPos count

def fileSeek (e : Env) (place : Place) (file : File) (offset : Nat) : File :=
  { file with fPos := e.seek place offset }

/-- `vmm_free_mm`, which is not in the tree, on the task's address space. -/
def vmmFreeMm (s : State) : State :=
  match s.task.mm with
  | none => s
  | some mm => { s with spaces := s.spaces.free mm }

def field (data : List UInt8) : Buffer := fun i => data.getD i 0

def IsMagic (b : Buffer) : Prop :=
  b 0 = 0x7F ∧ b 1 = 0x45 ∧ b 2 = 0x4C ∧ b 3 = 0x46

def IsHeader (b : Buffer) : Prop :=
  IsMagic b ∧ b 4 = 1 ∧ b 5 = 1 ∧ b 6 = 1 ∧ getU16 b 16 = 2 ∧
    getU16 b 18 = 3 ∧ getU32 b 20 = 1

instance (b : Buffer) : Decidable (IsMagic b) :=
  inferInstanceAs (Decidable (_ ∧ _))

instance (b : Buffer) : Decidable (IsHeader b) :=
  inferInstanceAs (Decidable (_ ∧ _))

def protOf (flags : Nat) : Nat :=
  (if flags &&& 4 ≠ 0 then 1 else 0) ||| (if flags &&& 2 ≠ 0 then 2 else 0) |||
    (if flags &&& 1 ≠ 0 then 4 else 0)

def segmentArea (p : Buffer) : Area where
  addr := getU32 p 8
  len := getU32 p 20
  prot := protOf (getU32 p 24)

def addArea (s : State) (area : Area) : State :=
  match s.task.mm with
  | none => s
  | some mm =>
      { s with
        spaces.held := Function.update s.spaces.held mm
          ((s.spaces.held mm).map (area :: ·)) }

def store (mem : Buffer) (addr : Nat) (data : List UInt8) : Buffer := fun a =>
  if addr <= a ∧ a < addr + data.length then field data (a - addr) else mem a

def phdrOffset (b : Buffer) (i : Nat) : Nat :=
  (getU32 b 28 + i * getU16 b 42) % 2 ^ 32

def loadSegment (e : Env) (file : File) (b : Buffer) (i : Nat) (s : State) :
    Int × State :=
  let r := fileRead e (.phdr i) (fileSeek e (.phdr i) file (phdrOffset b i)) 32
  if asUnsigned r.count ≠ 32 then (-1, s)
  else
    let p := field r.data
    if getU32 p 0 ≠ 1 then (0, s)
    else
      match e.mmap i (segmentArea p) with
      | none => (-1, s)
      | some addr =>
          let s := addArea s (segmentArea p)
          let r := fileRead e (.segment i)
            (fileSeek e (.segment i) file (getU32 p 4)) (getU32 p 16)
          let s := { s with mem := store s.mem addr r.data }
          if asUnsigned r.count ≠ getU32 p 16 then (-1, s)
          else
            (0, { s with
              mem := store s.mem (addr + getU32 p 16)
                (List.replicate (getU32 p 20 - getU32 p 16) 0) })

def loadSegments (e : Env) (file : File) (b : Buffer) :
    Nat -> Nat -> State -> Int × State
  | 0, _, s => (0, s)
  | n + 1, i, s =>
      if (loadSegment e file b i s).1 ≠ 0 then loadSegment e file b i s
      else loadSegments e file b n (i + 1) (loadSegment e file b i s).2

def processLoadElf (e : Env) (file : File) (s : State) : Int × State :=
  let r := fileRead e .header file 52
  if asUnsigned r.count ≠ 52 then (-1, s)
  else
    let b := field r.data
    if ¬ IsHeader b then (-1, s)
    else
      loadSegments e file b (getU16 b 44) 0 { s with task.entry := getU32 b 24 }

def processSetArgs (e : Env) (s : State) (argv envp : List (List UInt8)) :
    State :=
  if e.argsMem then { s with task.argv := argv, task.envp := envp } else s

/-- From the release of the old address space on. -/
def replaceMm (e : Env) (s : State) (file : File)
    (argv envp : List (List UInt8)) : Int × State :=
  let s := vmmFreeMm s
  match e.createMm with
  | none => (-1, { s with task.mm := none })
  | some mm =>
      let s := { s with task.mm := some mm, spaces := s.spaces.alloc mm [] }
      let r := processLoadElf e file s
      if r.1 ≠ 0 then (r.1, vmmFreeMm r.2)
      else (0, processSetArgs e r.2 argv envp)

def sIfmt : Nat := 0xF000

def sIfreg : Nat := 0x8000

def sIxusr : Nat := 0x40

def processExecve (e : Env) (s : State) (filename : Option (List UInt8))
    (argv envp : List (List UInt8)) : Int × State :=
  match filename with
  | none => (-1, s)
  | some path =>
      if ¬ e.current then (-1, s)
      else
        match fileOpen e path 0 with
        | .error error => (error, s)
        | .ok file =>
            if e.iMode &&& sIfmt ≠ sIfreg ∨ e.iMode &&& sIxusr = 0 then (-1, s)
            else
              let r := fileRead e .magic file 4
              if asUnsigned r.count ≠ 4 then (-1, s)
              else if ¬ IsMagic (field r.data) then (-1, s)
              else replaceMm e s { file with fPos := r.pos } argv envp

/-!
## Failed calls

The old address space is released once the first bytes of the file are seen to
be those of an ELF file.  From there on nothing that fails is undone.
-/

/-- The task is as it was, in an address space that is as it was, and every
address space was released at most once. -/
structure Preserved (s s' : State) : Prop where
  task : s'.task = s.task
  space : exists mm areas, s'.task.mm = some mm ∧
    s'.spaces.held mm = some areas ∧ s.spaces.held mm = some areas
  balanced : s'.spaces.Balanced

structure Opens (e : Env) (path : List UInt8) : Prop where
  current : e.current = true
  fileMem : e.fileMem = true
  path : e.kernPath path = 0
  opened : (e.openOp 0).1 = 0
  regular : e.iMode &&& sIfmt = sIfreg
  executable : e.iMode &&& sIxusr ≠ 0

structure Committed (e : Env) (path : List UInt8) : Prop
    extends Opens e path where
  readable : (e.openOp 0).2 &&& fmodeRead ≠ 0
  read : asUnsigned (e.read .magic 0 4).count = 4
  magic : IsMagic (field (e.read .magic 0 4).data)

theorem processExecve_eq (e : Env) (s : State) (path : List UInt8)
    (argv envp : List (List UInt8)) :
    (Committed e path ∧ processExecve e s (some path) argv envp =
      replaceMm e s ⟨(e.openOp 0).2, (e.read .magic 0 4).pos⟩ argv envp) ∨
    (¬ Committed e path ∧
      (processExecve e s (some path) argv envp).2 = s ∧
      (processExecve e s (some path) argv envp).1 ≠ 0) := by
  by_cases h : Committed e path
  · have hread : fileRead e .magic ⟨(e.openOp 0).2, 0⟩ 4 =
        e.read .magic 0 4 := if_neg h.readable
    refine Or.inl ⟨h, ?_⟩
    simp [processExecve, fileOpen, hread, h.current, h.fileMem, h.path,
      h.opened, h.regular, h.executable, h.read, h.magic]
  · refine Or.inr ⟨h, ?_⟩
    -- One of the checks fails: all of them together are what commits a call.
    have hmk := fun ho => @Committed.mk e path ho
    have hopens := @Opens.mk e path
    have herror : asUnsigned (-1) ≠ 4 := by decide
    grind [processExecve, fileOpen, fileRead]

theorem vmmFreeMm_dead {s : State} {mm : Nat}
    (h : (vmmFreeMm s).task.mm = some mm) :
    (vmmFreeMm s).spaces.held mm = none := by
  unfold vmmFreeMm at h ⊢
  split at h <;> simp_all [Ledger.free]

/-- A call that has committed itself and fails leaves the task without a live
address space. -/
theorem replaceMm_not_preserved {e : Env} {s : State} {file : File}
    {argv envp : List (List UInt8)}
    (h : (replaceMm e s file argv envp).1 ≠ 0) :
    ¬ Preserved s (replaceMm e s file argv envp).2 := by
  rintro ⟨_, ⟨mm, areas, hmm, hheld, _⟩, _⟩
  unfold replaceMm at h hmm hheld
  cases hmem : e.createMm with
  | none =>
    simp only [hmem] at hmm
    cases hmm
  | some new =>
    simp only [hmem] at h hmm hheld
    split at h
    case isFalse => exact h rfl
    case isTrue hload =>
      rw [if_pos hload] at hmm hheld
      rw [vmmFreeMm_dead hmm] at hheld
      cases hheld

/-- A failed call leaves the task as it was exactly when it has not committed
itself. -/
theorem execve_preserves_iff (e : Env) (s : State)
    (filename : Option (List UInt8)) (argv envp : List (List UInt8))
    (hlive : exists mm areas, s.task.mm = some mm ∧
      s.spaces.held mm = some areas) (hbalanced : s.spaces.Balanced)
    (hfail : (processExecve e s filename argv envp).1 ≠ 0) :
    Preserved s (processExecve e s filename argv envp).2 <->
      forall path, filename = some path -> ¬ Committed e path := by
  rcases hlive with ⟨mm, areas, hmm, hheld⟩
  have hsame : Preserved s s :=
    ⟨rfl, ⟨mm, areas, hmm, hheld, hheld⟩, hbalanced⟩
  cases filename with
  | none => exact iff_of_true hsame (by simp)
  | some path =>
    rcases processExecve_eq e s path argv envp with ⟨hc, heq⟩ | ⟨hc, hs, _⟩
    · rw [heq] at hfail ⊢
      exact iff_of_false (replaceMm_not_preserved hfail)
        fun hnot => hnot path rfl hc
    · rw [hs]
      refine iff_of_true hsame ?_
      intro path' heq
      cases heq
      exact hc

/-!
## Valid images
-/

def phdr (data : List UInt8) (i : Nat) : Buffer :=
  field (data.drop (getU32 (field data) 28 + i * 32))

def Loads (data : List UInt8) (i : Nat) : Prop :=
  i < getU16 (field data) 44 ∧ getU32 (phdr data i) 0 = 1

instance (data : List UInt8) (i : Nat) : Decidable (Loads data i) :=
  inferInstanceAs (Decidable (_ ∧ _))

def userEnd : Nat := 0xC0000000

structure SegmentFits (data : List UInt8) (p : Buffer) : Prop where
  aligned : getU32 p 8 % 4096 = 0
  user : getU32 p 8 + getU32 p 20 <= userEnd
  sizes : getU32 p 16 <= getU32 p 20
  inside : getU32 p 4 + getU32 p 16 <= data.length

structure ValidImage (data : List UInt8) : Prop where
  size : 52 <= data.length
  header : IsHeader (field data)
  entrySize : getU16 (field data) 42 = 32
  table : getU32 (field data) 28 + getU16 (field data) 44 * 32 <= data.length
  segment : forall i, Loads data i -> SegmentFits data (phdr data i)
  disjoint : forall i j, i < j -> Loads data i -> Loads data j ->
    getU32 (phdr data i) 8 + getU32 (phdr data i) 20 <= getU32 (phdr data j) 8 ∨
    getU32 (phdr data j) 8 + getU32 (phdr data j) 20 <= getU32 (phdr data i) 8

def readData (data : List UInt8) (pos count : Nat) : ReadResult where
  count := ((data.drop pos).take count).length
  data := (data.drop pos).take count
  pos := pos + ((data.drop pos).take count).length

/-- Nothing fails.  The open operation may set the mode of the file. -/
structure Faultless (e : Env) (path data : List UInt8) : Prop
    extends Opens e path where
  read : forall place, e.read place = readData data
  seek : forall place off, e.seek place off = off
  createMm : e.createMm ≠ none
  mmap : forall i area, e.mmap i area = some area.addr
  argsMem : e.argsMem = true

structure Executed (data : List UInt8) (r : Int × State) : Prop where
  result : r.1 = 0
  entry : r.2.task.entry = getU32 (field data) 24
  loaded : forall i, Loads data i ->
    let p := phdr data i
    forall k, k < getU32 p 20 -> r.2.mem (getU32 p 8 + k) =
      if k < getU32 p 16 then field data (getU32 p 4 + k) else 0

theorem processLoadElf_valid {e : Env} {path data : List UInt8}
    (h : ValidImage data) (he : Faultless e path data) (s : State) :
    (processLoadElf e ⟨(e.openOp 0).2, (e.read .magic 0 4).pos⟩ s).1 ≠ 0 := by
  have hsize := h.size
  have hclass : field data 4 = 1 := h.header.right.left
  have hpos : (readData data 0 4).pos = 4 := by
    simp only [readData, List.drop_zero, List.length_take]
    omega
  have hbyte : field (readData data 4 52).data 0 = 1 := by
    simpa [readData, field, List.getElem?_take, List.getElem?_drop] using hclass
  have hmagic : ¬ IsHeader (field (readData data 4 52).data) := by
    rintro ⟨⟨hfirst, _⟩, _⟩
    rw [hbyte] at hfirst
    exact absurd hfirst (by decide)
  have herror : asUnsigned (-1) ≠ 52 := by decide
  unfold processLoadElf
  by_cases hmode : (e.openOp 0).2 &&& fmodeRead = 0
  · simp [fileRead, hmode, herror]
  · simp [fileRead, hmode, he.read, hpos, hmagic]

/-- No valid image is executed. -/
theorem execve_valid_image_fails {e : Env} {path data : List UInt8}
    (h : ValidImage data) (he : Faultless e path data) (s : State)
    (argv envp : List (List UInt8)) :
    ¬ Executed data (processExecve e s (some path) argv envp) := by
  intro hx
  have hzero := hx.result
  rcases processExecve_eq e s path argv envp with ⟨hc, heq⟩ | ⟨_, _, hne⟩
  · rw [heq] at hzero
    unfold replaceMm at hzero
    cases hmem : e.createMm with
    | none => exact he.createMm hmem
    | some mm =>
      simp only [hmem, processLoadElf_valid h he, ne_eq, not_false_eq_true,
        if_true] at hzero
  · exact hne hzero

def sampleImage : List UInt8 :=
  [0x7F, 0x45, 0x4C, 0x46, 1, 1, 1, 0, 0, 0, 0, 0, 0, 0, 0, 0,
   2, 0, 3, 0, 1, 0, 0, 0, 0x54, 0x80, 4, 8, 52, 0, 0, 0,
   0, 0, 0, 0, 0, 0, 0, 0, 52, 0, 32, 0, 1, 0, 0, 0, 0, 0, 0, 0,
   1, 0, 0, 0, 0, 0, 0, 0, 0, 0x80, 4, 8, 0, 0x80, 4, 8,
   84, 0, 0, 0, 0, 0x10, 0, 0, 5, 0, 0, 0, 0, 0x10, 0, 0]

theorem sampleImage_valid : ValidImage sampleImage := by
  have hnum : getU16 (field sampleImage) 44 = 1 := by decide
  have hone : forall i, Loads sampleImage i -> i = 0 := by
    intro i hi
    have := hi.left
    omega
  refine ⟨by decide, by decide, by decide, by decide, ?_, ?_⟩
  · intro i hi
    rw [hone i hi]
    exact ⟨by decide, by decide, by decide, by decide⟩
  · intro i j hij hi hj
    have hi := hone i hi
    have hj := hone j hj
    omega

def sampleEnv (fMode : Nat) : Env where
  current := true
  fileMem := true
  kernPath := fun _ => 0
  openOp := fun _ => (0, fMode)
  iMode := 0x81C0
  read := fun _ => readData sampleImage
  seek := fun _ off => off
  createMm := some 2
  mmap := fun _ area => some area.addr
  argsMem := true

theorem sampleEnv_faultless (fMode : Nat) :
    Faultless (sampleEnv fMode) [] sampleImage where
  current := rfl
  fileMem := rfl
  path := rfl
  opened := rfl
  regular := (by decide : 0x81C0 &&& sIfmt = sIfreg)
  executable := (by decide : 0x81C0 &&& sIxusr ≠ 0)
  read := fun _ => rfl
  seek := fun _ _ => rfl
  createMm := by simp [sampleEnv]
  mmap := fun _ _ => rfl
  argsMem := rfl

def sampleState : State where
  task := ⟨some 1, 0, [], []⟩
  spaces := Ledger.empty.alloc 1 []
  mem := fun _ => 0

theorem execve_valid_image_fails_sample :
    ¬ Executed sampleImage
      (processExecve (sampleEnv 0) sampleState (some []) [] []) :=
  execve_valid_image_fails sampleImage_valid (sampleEnv_faultless 0)
    sampleState [] []

/-- The call fails whether or not the file may be read. -/
theorem sampleImage_refused :
    ValidImage sampleImage ∧ Faultless (sampleEnv 0) [] sampleImage ∧
    (processExecve (sampleEnv 0) sampleState (some []) [] []).1 = -1 ∧
    Faultless (sampleEnv 1) [] sampleImage ∧
    (processExecve (sampleEnv 1) sampleState (some []) [] []).1 = -1 :=
  ⟨sampleImage_valid, sampleEnv_faultless 0, by decide +kernel,
    sampleEnv_faultless 1, by decide +kernel⟩

theorem execve_preserves_sample :
    Preserved sampleState
      (processExecve (sampleEnv 0) sampleState (some []) [] []).2 := by
  apply (execve_preserves_iff (sampleEnv 0) sampleState (some []) [] []
    ⟨1, [], rfl, rfl⟩ (Ledger.balanced_empty.alloc rfl [])
    (by decide +kernel)).mpr
  intro path _ hc
  exact hc.readable rfl

/-- The task is left with an address space that was released. -/
theorem execve_leaves_dead_space :
    (processExecve (sampleEnv 1) sampleState (some []) [] []).1 = -1 ∧
    (processExecve (sampleEnv 1) sampleState (some []) [] []).2.task.mm =
      some 2 ∧
    (processExecve (sampleEnv 1) sampleState (some []) [] []).2.spaces.freed =
      [1, 2] ∧
    ¬ Preserved sampleState
      (processExecve (sampleEnv 1) sampleState (some []) [] []).2 := by
  have hmm : (processExecve (sampleEnv 1) sampleState (some []) [] []).2.task.mm
      = some 2 := by decide +kernel
  refine ⟨by decide +kernel, hmm, by decide +kernel, fun h => ?_⟩
  rw [h.task] at hmm
  exact absurd hmm (by decide)

end Exec
end Horizon
