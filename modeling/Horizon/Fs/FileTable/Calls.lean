import Horizon.Fs.FileTable.Table

/-!
# Calls on a file table

The calls that keep the invariant of a file table: those whose descriptors have
a bit in its bitmaps or make it grow, up to 1024 descriptors.
-/

namespace Horizon
namespace FileTable

open WordBits Transition

variable {t : Files} {fd oldfd : Int}

theorem exists_scan (rounds start : Nat)
    (h : rounds = 0 ∨ start + rounds <= t.slots) :
    exists fd, scan t rounds start = some fd ∧ start <= fd ∧
      fd <= start + rounds ∧ (fd < start + rounds -> t.fd fd = none) ∧
      forall i, start <= i -> i < fd -> t.fd i ≠ none := by
  induction rounds generalizing start with
  | zero =>
    refine ⟨start, rfl, Nat.le_refl _, Nat.le_refl _, ?_, ?_⟩
    · intro hlt
      omega
    · intro i hi hlt
      omega
  | succ rounds ih =>
    unfold scan
    rw [if_pos (by omega)]
    cases hslot : t.fd start with
    | none =>
      refine ⟨start, rfl, Nat.le_refl _, by omega, fun _ => hslot, ?_⟩
      intro i hi hlt
      omega
    | some file =>
      rcases ih (start + 1) (by omega) with ⟨fd, hfd, hle, hend, hfree, hused⟩
      refine ⟨fd, hfd, by omega, by omega, fun hlt => hfree (by omega), ?_⟩
      intro i hi hlt
      by_cases heq : i = start
      · rw [heq, hslot]
        simp
      · exact hused i (by omega) hlt

theorem FilesOk.place (h : FilesOk t) (fd : Nat) (hfd : fd < t.maxFds)
    (hsize : fd < t.bits.size) (cloexec : Bool) (file : File) :
    exists marked placed, markOpen t fd cloexec = some marked ∧
      install marked fd file = some placed ∧ FilesOk placed := by
  rcases exists_markOpen hsize cloexec with ⟨b, nextFd, hmark, hshape, hopen⟩
  refine ⟨_, _, hmark, if_pos (by rw [← h.slots] at hfd; exact hfd), ?_⟩
  exact h.change (some file) (fun _ => ⟨hfd, hsize⟩) hshape hopen nextFd

/--
A file may be opened from a descriptor on if a free slot there has a bit, or if
all slots there are used and the table can still grow.
-/
def MayOpen (t : Files) (start : Int) : Prop :=
  0 <= start ∧
    ((exists fd : Nat, start <= fd ∧ fd < t.maxFds ∧ fd < t.bits.size ∧
      t.fd fd = none) ∨
    (forall fd : Nat, start <= fd -> fd < t.maxFds -> t.fd fd ≠ none) ∧
      start < nrOpenMax ∧ t.maxFds < nrOpenMax)

theorem FilesOk.openFile (h : FilesOk t) {start : Int} (hmay : MayOpen t start)
    (cloexec memory : Bool) (file : File) :
    exists out, openFile t start cloexec memory file = some out ∧
      FilesOk out.files := by
  rcases hmay with ⟨hstart, hmay⟩
  have hslots := h.slots
  rcases exists_scan (t := t) (t.maxFds - start.toNat) start.toNat (by omega)
    with ⟨fd, hscan, hle, hend, hfree, hused⟩
  unfold FileTable.openFile allocFd
  rw [if_neg (by omega), hscan]
  by_cases hfd : fd < t.maxFds
  · have hsize : fd < t.bits.size := by
      have hslot := hfree (by omega)
      rcases hmay with ⟨f, hf, _, hfsize, hfnone⟩ | ⟨hall, _⟩
      · by_contra hge
        exact hused f (by omega) (by omega) hfnone
      · exact absurd hslot (hall fd (by omega) hfd)
    rcases h.place fd hfd hsize cloexec file with
      ⟨marked, placed, hmark, hinstall, hok⟩
    have hret : ¬ (fd : Int) < 0 := by omega
    simp only [hfd, if_true, hmark, Option.map_some, hret, if_false,
      Int.toNat_natCast, hinstall]
    exact ⟨_, rfl, hok⟩
  · have hgrows : (fd : Int) + 1 <= nrOpenMax := by
      rcases hmay with ⟨f, hf, hfmax, _, hfnone⟩ | ⟨_, hsmall, hmax⟩
      · exact absurd hfnone (hused f (by omega) (by omega))
      · omega
    have hlimit : (nrOpenMax : Int) = 1024 := rfl
    rcases h.expandFiles ((fd : Int) + 1) (by omega) (by omega) memory with
      ⟨ret, t', hexpand, hexpanded⟩
    simp only [hfd, if_false, hexpand]
    by_cases hret : ret < 0
    · simp only [hret, if_true]
      exact ⟨_, rfl, hexpanded.ok⟩
    · have henough := hexpanded.enough hret hgrows
      have hgrown := hexpanded.grown hret
      rcases hexpanded.ok.place fd (by omega) (by omega) cloexec file with
        ⟨marked, placed, hmark, hinstall, hok⟩
      have hpos : ¬ (fd : Int) < 0 := by omega
      simp only [hret, if_false, hmark, Option.map_some, hpos,
        Int.toNat_natCast, hinstall]
      exact ⟨_, rfl, hok⟩

/-- The end of `sys_dup2` at a descriptor that has a bit. -/
theorem FilesOk.replace (h : FilesOk t) {fd : Nat} (hfd : fd < t.maxFds)
    (hsize : fd < t.bits.size) (file : File) :
    exists out, replace t fd file = some out ∧ FilesOk out.files := by
  obtain ⟨t', closed, hfree, hok, hmax, hshape⟩ : exists t' closed,
      (if t.fd fd = none then some (t, []) else FileTable.freeFd t fd) =
        some (t', closed) ∧ FilesOk t' ∧ t'.maxFds = t.maxFds ∧
        t'.bits.shape = t.bits.shape := by
    split
    case isTrue hnone => exact ⟨t, [], rfl, h, rfl, rfl⟩
    case isFalse hnone => exact h.freeFd (fun _ _ => by omega)
  have hfd' : fd < t'.maxFds := by rwa [hmax]
  have hsize' : fd < t'.bits.size := by rwa [Bitmaps.size_eq hshape]
  have hinstall : install t' fd file =
      some { t' with fd := Function.update t'.fd fd (some file) } :=
    if_pos (by rw [← hok.slots] at hfd'; exact hfd')
  rcases exists_markOpen
    (t := { t' with fd := Function.update t'.fd fd (some file) }) hsize' false
    with ⟨b, nextFd, hmark, hbshape, hopen⟩
  unfold FileTable.replace
  rw [if_pos (by rw [← h.slots] at hfd; exact hfd)]
  simp only [hfree, hinstall, hmark, Option.map_some]
  exact ⟨_, rfl, hok.change (some file) (fun _ => ⟨hfd', hsize'⟩) hbshape hopen
    nextFd⟩

/-- A descriptor that has a bit, or up to which the table grows. -/
def MayUse (t : Files) (newfd : Int) : Prop :=
  newfd < t.maxFds ∧ newfd < t.bits.size ∨
    (t.maxFds : Int) <= newfd ∧ newfd < nrOpenMax

def slotOf (t : Files) (fd : Int) : Option File :=
  if fd < 0 ∨ fd >= t.maxFds then none else t.fd fd.toNat

theorem lookup_eq (h : t.slots = t.maxFds) (fd : Int) :
    lookup t fd = some (slotOf t fd) := by
  unfold lookup slotOf
  by_cases hout : fd < 0 ∨ fd >= t.maxFds
  · rw [if_pos hout, if_pos hout]
  · rw [if_neg hout, if_neg hout, if_pos (by omega)]

theorem FilesOk.sysClose (h : FilesOk t)
    (hmay : 0 <= fd -> fd < t.maxFds -> fd < t.bits.size) :
    exists out, sysClose t fd = some out ∧ FilesOk out.files := by
  unfold FileTable.sysClose
  by_cases hout : fd < 0 ∨ fd >= t.maxFds
  · rw [if_pos hout]
    exact ⟨_, rfl, h⟩
  · rcases h.freeFd hmay with ⟨t', closed, hfree, hok, _⟩
    rw [if_neg hout, hfree]
    exact ⟨_, rfl, hok⟩

theorem FilesOk.sysDup (h : FilesOk t)
    (hmay : slotOf t oldfd ≠ none -> MayOpen t 0) (memory : Bool) :
    exists out, sysDup t oldfd memory = some out ∧ FilesOk out.files := by
  unfold FileTable.sysDup
  rw [lookup_eq h.slots]
  cases hslot : slotOf t oldfd with
  | none => exact ⟨_, rfl, h⟩
  | some file => exact h.openFile (hmay (by rw [hslot]; simp)) false memory file

theorem FilesOk.sysDup2 (h : FilesOk t) {newfd : Int}
    (hmay : slotOf t oldfd ≠ none -> 0 <= newfd -> oldfd ≠ newfd ->
      MayUse t newfd) (memory : Bool) :
    exists out, sysDup2 t oldfd newfd memory = some out ∧
      FilesOk out.files := by
  unfold FileTable.sysDup2
  by_cases hneg : newfd < 0
  · rw [if_pos hneg]
    exact ⟨_, rfl, h⟩
  rw [if_neg hneg, lookup_eq h.slots]
  cases hslot : slotOf t oldfd with
  | none => exact ⟨_, rfl, h⟩
  | some file =>
    by_cases hsame : oldfd = newfd
    · simp only [hsame, if_true]
      exact ⟨_, rfl, h⟩
    have huse := hmay (by rw [hslot]; simp) (by omega) hsame
    unfold MayUse at huse
    have hlimit : (nrOpenMax : Int) = 1024 := rfl
    by_cases hbig : newfd >= t.maxFds
    · rcases h.expandFiles (newfd + 1) (by omega) (by omega) memory with
        ⟨ret, t', hexpand, hexpanded⟩
      simp only [hsame, if_false, hbig, if_true, hexpand]
      by_cases hret : ret < 0
      · simp only [hret, if_true]
        exact ⟨_, rfl, hexpanded.ok⟩
      · have henough := hexpanded.enough hret (by omega)
        have hgrown := hexpanded.grown hret
        simp only [hret, if_false]
        exact hexpanded.ok.replace (by omega) (by omega) file
    · simp only [hsame, if_false, hbig]
      exact h.replace (by omega) (by omega) file

theorem FilesOk.sysFcntlDupfd (h : FilesOk t) {arg : Nat}
    (hmay : slotOf t fd ≠ none -> 0 <= asInt arg -> fd ≠ asInt arg ->
      MayUse t (asInt arg)) (memory : Bool) :
    exists out, sysFcntlDupfd t fd arg memory = some out ∧
      FilesOk out.files := by
  unfold FileTable.sysFcntlDupfd
  rw [lookup_eq h.slots]
  cases slotOf t fd with
  | none => exact ⟨_, rfl, h⟩
  | some file => exact h.sysDup2 hmay memory

/-!
## Runs
-/

inductive Label where
  | openFile (start : Int) (cloexec memory : Bool) (file : File)
  | free (fd : Int)
  | close (fd : Int)
  | dup (oldfd : Int) (memory : Bool)
  | dup2 (oldfd newfd : Int) (memory : Bool)
  | fcntlDupfd (fd : Int) (arg : Nat) (memory : Bool)
  | expand (nr : Int) (memory : Bool)

def step (t : Files) : Label -> Option Files
  | Label.openFile start cloexec memory file =>
      (openFile t start cloexec memory file).map Outcome.files
  | Label.free fd => (freeFd t fd).map Prod.fst
  | Label.close fd => (sysClose t fd).map Outcome.files
  | Label.dup oldfd memory => (sysDup t oldfd memory).map Outcome.files
  | Label.dup2 oldfd newfd memory =>
      (sysDup2 t oldfd newfd memory).map Outcome.files
  | Label.fcntlDupfd fd arg memory =>
      (sysFcntlDupfd t fd arg memory).map Outcome.files
  | Label.expand nr memory => (expandFiles t nr memory).map Prod.snd

def Init (t : Files) : Prop :=
  t = filesAlloc

def LabelOk (t : Files) : Label -> Prop
  | Label.openFile start _ _ _ => MayOpen t start
  | Label.free fd => 0 <= fd -> fd < t.maxFds -> fd < t.bits.size
  | Label.close fd => 0 <= fd -> fd < t.maxFds -> fd < t.bits.size
  | Label.dup oldfd _ => slotOf t oldfd ≠ none -> MayOpen t 0
  | Label.dup2 oldfd newfd _ => slotOf t oldfd ≠ none -> 0 <= newfd ->
      oldfd ≠ newfd -> MayUse t newfd
  | Label.fcntlDupfd fd arg _ => slotOf t fd ≠ none -> 0 <= asInt arg ->
      fd ≠ asInt arg -> MayUse t (asInt arg)
  | Label.expand nr _ => 0 <= nr ∧ nr <= 2 ^ 30

theorem exists_files {out : Option Outcome}
    (h : exists o, out = some o ∧ FilesOk o.files) :
    exists t', out.map Outcome.files = some t' ∧ FilesOk t' := by
  rcases h with ⟨o, rfl, hok⟩
  exact ⟨o.files, rfl, hok⟩

theorem FilesOk.step (h : FilesOk t) {label : Label} (hok : LabelOk t label) :
    exists t', step t label = some t' ∧ FilesOk t' := by
  cases label with
  | openFile start cloexec memory file =>
    exact exists_files (h.openFile hok cloexec memory file)
  | free fd =>
    rcases h.freeFd hok with ⟨t', closed, hfree, hok', _⟩
    refine ⟨t', ?_, hok'⟩
    unfold FileTable.step
    simp only [hfree, Option.map_some]
  | close fd => exact exists_files (h.sysClose hok)
  | dup oldfd memory => exact exists_files (h.sysDup hok memory)
  | dup2 oldfd newfd memory => exact exists_files (h.sysDup2 hok memory)
  | fcntlDupfd fd arg memory => exact exists_files (h.sysFcntlDupfd hok memory)
  | expand nr memory =>
    rcases h.expandFiles nr hok.left hok.right memory with
      ⟨ret, t', hexpand, hexpanded⟩
    refine ⟨t', ?_, hexpanded.ok⟩
    unfold FileTable.step
    simp only [hexpand, Option.map_some]

def Step (t : Files) (label : Label) (t' : Files) : Prop :=
  step t label = some t'

end FileTable
end Horizon
