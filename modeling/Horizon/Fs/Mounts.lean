import Horizon.Lib.Ledger
import Horizon.Lib.Transition
import Horizon.Types

/-!
# The mount table

The mount calls of `fs/fs.c`.  The operations of a file system are given by their
results, a file system name by the type that is registered under it.
-/

namespace Horizon
namespace Mounts

open Function List Errno Transition

abbrev Path := List UInt8

structure Mount where
  dev : Path
  dir : Path
  fs : Option Nat
  flags : BitVec 32
  super : Option Nat
  root : Option Nat

/-- What is mounted on a directory: the superblock and the root, if it has them. -/
abbrev Entry := Option (Option Nat × Option Nat)

/-- The slots below `mount_count` and those behind them, which keep what was in
them before.  `current` records what is mounted on each directory. -/
structure State where
  mounts : List Mount
  spare : List Mount
  roots : Ledger Unit
  current : Path -> Entry

def maxMounts : Nat := 32

def initial : State where
  mounts := []
  spare := List.replicate maxMounts ⟨[], [], none, 0, none, none⟩
  roots := .empty
  current := fun _ => none

def mountFindByDir (s : State) (dir : Path) : Option Mount :=
  s.mounts.find? (·.dir = dir)

def fsMount (s : State) (dev dir : Option Path) (fsName : Option (Option Nat))
    (flags : BitVec 32) (ret : Int) : Int × State :=
  match dev, dir, fsName with
  | some dev, some dir, some fs =>
      if fs = none then (-enodev, s)
      else if mountFindByDir s dir ≠ none then (-ebusy, s)
      else match s.spare with
        | [] => (-enomem, s)
        | slot :: spare =>
            if ret < 0 then (ret, s)
            else
              let mount := { slot with
                dev := dev.take 63
                dir := dir.take 255
                fs := fs
                flags := flags }
              (0, { s with mounts := s.mounts ++ [mount], spare := spare })
  | _, _, _ => (-einval, s)

def fsMountSuper (s : State) (dir : Option Path) (super mem : Option Nat) :
    Int × State :=
  match dir, super with
  | some dir, some super =>
      if mountFindByDir s dir ≠ none then (-ebusy, s)
      else match s.spare, mem with
        | slot :: spare, some root =>
            let mount := { slot with
              dir := dir.take 255
              super := some super
              root := some root }
            (0, { s with
              mounts := s.mounts ++ [mount]
              spare := spare
              roots := s.roots.alloc root () })
        | _, _ => (-enomem, s)
  | _, _ => (-einval, s)

/-- The mounts behind the one that is removed move down by a slot, and the last
one stays in its own as well. -/
def removeMount (s : State) (dir : Path) : State :=
  { s with
    mounts := s.mounts.eraseP (·.dir = dir)
    spare := s.mounts.getLast?.toList ++ s.spare }

def fsUnmountSuper (s : State) (dir : Option Path) : Int × State :=
  match dir.bind (mountFindByDir s) with
  | none => (-einval, s)
  | some mount =>
      let s := { s with roots := mount.root.elim s.roots s.roots.free }
      (0, removeMount s mount.dir)

/-- There is no result if the mount has no file system. -/
def fsUnmount (s : State) (dir : Option Path) (ret : Int) :
    Option (Int × State) :=
  match dir.bind (mountFindByDir s) with
  | none => some (-einval, s)
  | some mount =>
      if mount.fs = none then none
      else if ret < 0 then some (ret, s)
      else some (0, removeMount s mount.dir)

def fsGetSuper (s : State) (dir : Option Path) : Option Nat :=
  (dir.bind (mountFindByDir s)).bind (·.super)

inductive Step where
  | mount (dev dir : Option Path) (fsName : Option (Option Nat))
      (flags : BitVec 32) (ret : Int)
  | mountSuper (dir : Option Path) (super mem : Option Nat)
  | unmount (dir : Option Path) (ret : Int)
  | unmountSuper (dir : Option Path)

/-- A call that succeeds changes what is mounted on its directory. -/
def record (dir : Option Path) (entry : Entry) (result : Int × State) : State :=
  match dir with
  | some dir =>
      if result.1 = 0 then { result.2 with
        current := update result.2.current dir entry }
      else result.2
  | none => result.2

/-- `kmalloc` returns no block that is in use. -/
def next (s : State) : Step -> Option State
  | .mount dev dir fsName flags ret =>
      some (record dir (some (none, none)) (fsMount s dev dir fsName flags ret))
  | .mountSuper dir super mem =>
      if mem.any fun p => (s.roots.held p).isSome then none
      else some (record dir (some (super, mem)) (fsMountSuper s dir super mem))
  | .unmount dir ret => (fsUnmount s dir ret).map (record dir none)
  | .unmountSuper dir => some (record dir none (fsUnmountSuper s dir))

/--
The table is a map from directories: a directory that is mounted is refused, the
superblock is that of the current mount, and the roots that were allocated and
not freed are those of the current mounts.
-/
structure Kept (s : State) : Prop where
  distinct : (s.mounts.map Mount.dir).Nodup
  refused : forall dir, s.current dir ≠ none ->
    (forall dev fsName flags ret,
      (fsMount s dev (some dir) fsName flags ret).1 ≠ 0) ∧
    forall super mem, (fsMountSuper s (some dir) super mem).1 ≠ 0
  super : forall dir, fsGetSuper s (some dir) = (s.current dir).bind (·.1)
  balanced : s.roots.Balanced
  roots : forall p, s.roots.held p ≠ none <->
    exists dir super, s.current dir = some (super, some p)

/-- The directory fits into a slot; a slot that `fs_mount` takes has no superblock
and no root left in it, and `fs_unmount` is given no mount with a root. -/
def Proper (s : State) : Step -> Prop
  | .mount _ dir _ _ _ => (forall d, dir = some d -> d.length < 256) ∧
      forall slot, s.spare.head? = some slot ->
        slot.super = none ∧ slot.root = none
  | .mountSuper dir _ _ => forall d, dir = some d -> d.length < 256
  | .unmount dir _ => forall mount, dir.bind (mountFindByDir s) = some mount ->
      mount.root = none
  | .unmountSuper _ => True

/-!
## The mounts as a map
-/

variable {s s' : State} {ms ms' : List Mount} {m : Mount} {dir : Path}
  {roots : Ledger Unit} {current : Path -> Entry}

/-- The list of mounts stands for the map, and its roots are those in use. -/
structure Holds (ms : List Mount) (roots : Ledger Unit)
    (current : Path -> Entry) : Prop where
  distinct : (ms.map Mount.dir).Nodup
  mounted : forall dir e, current dir = some e <->
    exists m, m ∈ ms ∧ m.dir = dir ∧ (m.super, m.root) = e
  balanced : roots.Balanced
  held : forall p, roots.held p ≠ none <-> exists m, m ∈ ms ∧ m.root = some p
  apart : (ms.filterMap Mount.root).Nodup

theorem Holds.perm (h : Holds ms roots current) (hperm : ms.Perm ms') :
    Holds ms' roots current where
  distinct := (hperm.map _).nodup_iff.mp h.distinct
  mounted := by simpa only [hperm.mem_iff] using h.mounted
  balanced := h.balanced
  held := by simpa only [hperm.mem_iff] using h.held
  apart := (hperm.filterMap _).nodup_iff.mp h.apart


theorem Holds.add (h : Holds ms roots current)
    (hnew : forall m', m' ∈ ms -> m'.dir ≠ m.dir)
    (hfree : forall p, m.root = some p -> roots.held p = none) :
    Holds (m :: ms) (m.root.elim roots (roots.alloc · ()))
      (update current m.dir (some (m.super, m.root))) := by
  have hmounted := h.mounted
  have hheld := h.held
  constructor
  · refine nodup_cons.mpr ⟨?_, h.distinct⟩
    intro hmem
    rcases mem_map.mp hmem with ⟨m', hm', heq⟩
    exact hnew m' hm' heq
  · intro dir e
    simp only [update_apply, mem_cons]
    grind
  · cases hroot : m.root with
    | none => exact h.balanced
    | some p => exact h.balanced.alloc (hfree p hroot) ()
  · intro q
    simp only [mem_cons]
    cases hroot : m.root with
    | none => grind
    | some p =>
      simp only [Option.elim_some, Ledger.alloc, update_apply]
      grind
  · cases hroot : m.root with
    | none => simpa [filterMap_cons, hroot] using h.apart
    | some p =>
      rw [filterMap_cons_some hroot]
      refine nodup_cons.mpr ⟨?_, h.apart⟩
      intro hmem
      rcases mem_filterMap.mp hmem with ⟨m', hm', heq⟩
      exact (hheld p).mpr ⟨m', hm', heq⟩ (hfree p hroot)

theorem Holds.remove (h : Holds (m :: ms) roots current) :
    Holds ms (m.root.elim roots roots.free)
      (update current m.dir none) := by
  have hmounted := h.mounted
  have hheld := h.held
  have hdir : forall m', m' ∈ ms -> m'.dir ≠ m.dir := by
    intro m' hm' heq
    exact (nodup_cons.mp h.distinct).left (heq ▸ mem_map_of_mem hm')
  have hroot : forall m', m' ∈ ms -> m'.root = m.root -> m.root = none := by
    intro m' hm' heq
    cases hroot : m.root with
    | none => rfl
    | some p =>
      have hnodup := h.apart
      rw [filterMap_cons_some hroot] at hnodup
      have hmem := mem_filterMap.mpr ⟨m', hm', heq.trans hroot⟩
      exact absurd hmem (nodup_cons.mp hnodup).left
  constructor
  · exact (nodup_cons.mp h.distinct).right
  · intro dir e
    simp only [update_apply, mem_cons] at hmounted ⊢
    grind
  · cases hm : m.root with
    | none => exact h.balanced
    | some p =>
      rcases Option.ne_none_iff_exists'.mp
        ((hheld p).mpr ⟨m, mem_cons_self, hm⟩) with ⟨_, hp⟩
      exact h.balanced.free hp
  · intro q
    simp only [mem_cons] at hheld
    cases hm : m.root with
    | none => grind
    | some p =>
      simp only [Option.elim_some, Ledger.free, update_apply]
      grind
  · exact h.apart.sublist ((sublist_cons_self m ms).filterMap _)

/-!
## Runs
-/

def Ok (s : State) : Prop := Holds s.mounts s.roots s.current

theorem mountFindByDir_none :
    mountFindByDir s dir = none <-> forall m, m ∈ s.mounts -> m.dir ≠ dir := by
  simp [mountFindByDir]

theorem mountFindByDir_some (h : mountFindByDir s dir = some m) :
    m ∈ s.mounts ∧ m.dir = dir := by
  have hdir := List.find?_some h
  exact ⟨mem_of_find?_eq_some h, by simpa using hdir⟩

theorem Ok.added (h : Ok s) (hfind : mountFindByDir s dir = none)
    (hshort : dir.length < 256) (hdir : m.dir = dir.take 255)
    (hfree : forall p, m.root = some p -> s.roots.held p = none) :
    Holds (s.mounts ++ [m]) (m.root.elim s.roots (s.roots.alloc · ()))
      (update s.current dir (some (m.super, m.root))) := by
  have heq : m.dir = dir := by rw [hdir, take_of_length_le (by omega)]
  subst heq
  have hadd := Holds.add h (mountFindByDir_none.mp hfind) hfree
  exact hadd.perm (perm_append_singleton _ _).symm

theorem Ok.removed (h : Ok s) (hfind : mountFindByDir s dir = some m) :
    Holds (removeMount s m.dir).mounts (m.root.elim s.roots s.roots.free)
      (update s.current dir none) := by
  rcases mountFindByDir_some hfind with ⟨_, rfl⟩
  rcases List.find?_eq_some_iff_append.mp hfind with ⟨hm, before, after, hms, hb⟩
  have herase : s.mounts.eraseP (·.dir = m.dir) = before ++ after := by
    rw [hms, eraseP_append_right _ (by simpa using hb),
      eraseP_cons, hm, cond_true]
  unfold removeMount
  rw [herase]
  apply Holds.remove
  unfold Ok at h
  rw [hms] at h
  exact h.perm perm_middle

theorem record_failed {e : Int} (h : e ≠ 0) (s : State) (dir : Option Path)
    (entry : Entry) : record dir entry (e, s) = s := by
  cases dir with
  | none => rfl
  | some dir => exact if_neg h

theorem fsMount_cases (s : State) (dev dir : Option Path)
    (fsName : Option (Option Nat)) (flags : BitVec 32) (ret : Int) :
    (exists e, e ≠ 0 ∧ fsMount s dev dir fsName flags ret = (e, s)) ∨
    exists d m slot spare, s.spare = slot :: spare ∧ dir = some d ∧
      fsMount s dev dir fsName flags ret =
        (0, { s with mounts := s.mounts ++ [m], spare := spare }) ∧
      mountFindByDir s d = none ∧ m.dir = d.take 255 ∧
      m.super = slot.super ∧ m.root = slot.root := by
  unfold fsMount
  split
  · split
    · exact Or.inl ⟨-enodev, by decide, rfl⟩
    · split
      · exact Or.inl ⟨-ebusy, by decide, rfl⟩
      · rename_i hfind
        cases hspare : s.spare with
        | nil => exact Or.inl ⟨-enomem, by decide, rfl⟩
        | cons slot spare =>
          by_cases hret : ret < 0
          · exact Or.inl ⟨ret, by omega, if_pos hret⟩
          · exact Or.inr ⟨_, _, slot, spare, rfl, rfl, if_neg hret,
              not_not.mp hfind, rfl, rfl, rfl⟩
  · exact Or.inl ⟨-einval, by decide, rfl⟩

theorem fsMountSuper_cases (s : State) (dir : Option Path)
    (super mem : Option Nat) :
    (exists e, e ≠ 0 ∧ fsMountSuper s dir super mem = (e, s)) ∨
    exists d m spare, dir = some d ∧
      fsMountSuper s dir super mem = (0, { s with
        mounts := s.mounts ++ [m]
        spare := spare
        roots := mem.elim s.roots (s.roots.alloc · ()) }) ∧
      mountFindByDir s d = none ∧ m.dir = d.take 255 ∧ m.super = super ∧
      m.root = mem := by
  unfold fsMountSuper
  split
  · split_ifs with hfind
    · exact Or.inl ⟨-ebusy, by decide, rfl⟩
    · split
      · exact Or.inr ⟨_, _, _, rfl, rfl, not_not.mp hfind, rfl, rfl, rfl⟩
      · exact Or.inl ⟨-enomem, by decide, rfl⟩
  · exact Or.inl ⟨-einval, by decide, rfl⟩

theorem Ok.next {step : Step} (h : Ok s) (hok : Proper s step)
    (hnext : next s step = some s') : Ok s' := by
  cases step with
  | mount dev dir fsName flags ret =>
    rcases hok with ⟨hshort, hclear⟩
    cases hnext
    rcases fsMount_cases s dev dir fsName flags ret with ⟨e, hne, heq⟩ |
      ⟨d, m, slot, spare, hspare, rfl, heq, hfind, hdir, hsuper, hroot⟩
    · rwa [heq, record_failed hne]
    · rcases hclear slot (by rw [hspare, List.head?_cons]) with ⟨hs, hr⟩
      rw [hs] at hsuper
      rw [hr] at hroot
      have hadd := h.added hfind (hshort d rfl) hdir (by simp [hroot])
      rw [hsuper, hroot] at hadd
      rw [heq]
      exact hadd
  | mountSuper dir super mem =>
    simp only [Mounts.next] at hnext
    split at hnext
    · cases hnext
    · rename_i hfree
      cases hnext
      rcases fsMountSuper_cases s dir super mem with ⟨e, hne, heq⟩ |
        ⟨d, m, spare, rfl, heq, hfind, hdir, rfl, rfl⟩
      · rwa [heq, record_failed hne]
      · rw [heq]
        apply h.added hfind (hok d rfl) hdir
        intro p hp
        simpa [hp] using hfree
  | unmount dir ret =>
    simp only [Mounts.next, fsUnmount] at hnext
    split at hnext
    · cases hnext
      rwa [record_failed (by decide)]
    · rename_i mount hfind
      have hroot := hok mount hfind
      rcases Option.bind_eq_some_iff.mp hfind with ⟨d, rfl, hmount⟩
      split_ifs at hnext with hfs hret
      · cases hnext
      · cases hnext
        rwa [record_failed (by omega)]
      · cases hnext
        have hremoved := h.removed hmount
        rw [hroot] at hremoved
        exact hremoved
  | unmountSuper dir =>
    cases hnext
    unfold fsUnmountSuper
    split
    · rwa [record_failed (by decide)]
    · rename_i mount hfind
      rcases Option.bind_eq_some_iff.mp hfind with ⟨d, rfl, hmount⟩
      exact h.removed hmount

theorem Ok.current_eq (h : Ok s) (dir : Path) :
    s.current dir = (mountFindByDir s dir).map fun m => (m.super, m.root) := by
  cases hfind : mountFindByDir s dir with
  | none =>
    by_contra hne
    rcases Option.ne_none_iff_exists'.mp hne with ⟨e, he⟩
    rcases (h.mounted dir e).mp he with ⟨m, hm, heq, _⟩
    exact mountFindByDir_none.mp hfind m hm heq
  | some m =>
    rcases mountFindByDir_some hfind with ⟨hm, hdir⟩
    exact (h.mounted dir _).mpr ⟨m, hm, hdir, rfl⟩

theorem Ok.kept (h : Ok s) : Kept s where
  distinct := h.distinct
  refused := by
    intro dir hdir
    have hfound : mountFindByDir s dir ≠ none := by
      intro hnone
      rw [h.current_eq, hnone] at hdir
      exact hdir rfl
    constructor
    · intro dev fsName flags ret
      rcases fsMount_cases s dev (some dir) fsName flags ret with
        ⟨e, hne, heq⟩ | ⟨d, m, slot, spare, _, hd, _, hfind, _⟩
      · rwa [heq]
      · cases hd
        exact absurd hfind hfound
    · intro super mem
      rcases fsMountSuper_cases s (some dir) super mem with
        ⟨e, hne, heq⟩ | ⟨d, m, spare, hd, _, hfind, _⟩
      · rwa [heq]
      · cases hd
        exact absurd hfind hfound
  super := by
    intro dir
    rw [h.current_eq, Option.bind_map]
    rfl
  balanced := h.balanced
  roots := by
    intro p
    rw [h.held]
    constructor
    · rintro ⟨m, hm, hp⟩
      exact ⟨m.dir, m.super, (h.mounted _ _).mpr ⟨m, hm, rfl, by rw [hp]⟩⟩
    · rintro ⟨dir, super, hp⟩
      rcases (h.mounted _ _).mp hp with ⟨m, hm, _, heq⟩
      exact ⟨m, hm, (Prod.mk.inj heq).right⟩

/-- In every run whose calls are proper the mount table is a map. -/
theorem mount_table_map {s : State}
    (h : Reachable (fun s => s = initial)
      (Guarded Proper next) s) : Kept s := by
  have hs : Ok s := by
    refine h.guarded ?_ Ok.next
    rintro _ rfl
    exact ⟨nodup_nil, by simp [initial], Ledger.balanced_empty,
      by simp [initial, Ledger.empty], nodup_nil⟩
  exact hs.kept

/-- A superblock is mounted, and a file system next to it. -/
theorem mount_table_map_two :
    exists s, Transition.run next initial
        [.mountSuper (some [97]) (some 7) (some 100),
          .mount (some []) (some [98]) (some (some 1)) 0 0] = some s ∧
      fsGetSuper s (some [97]) = some 7 ∧ fsGetSuper s (some [98]) = none := by
  have hinit : Reachable (fun s => s = initial)
    (Guarded Proper next) initial := .init rfl
  have hfirst := hinit.step
    (l := .mountSuper (some [97]) (some 7) (some 100))
    ⟨(by rintro d ⟨⟩; decide), rfl⟩
  have hsecond := hfirst.step
    (l := Step.mount (some []) (some [98]) (some (some 1)) 0 0)
    ⟨⟨(by rintro d ⟨⟩; decide), (by rintro slot ⟨⟩; exact ⟨rfl, rfl⟩)⟩, rfl⟩
  have hkept := mount_table_map hsecond
  exact ⟨_, rfl, hkept.super [97], hkept.super [98]⟩

/-- A slot keeps the superblock and the root of a mount that was removed: the next
mount has them, and the root is freed again. -/
theorem mount_reuses_root :
    exists s, Transition.run next initial
        [.mountSuper (some [97]) (some 7) (some 100), .unmountSuper (some [97]),
          .mount (some []) (some [98]) (some (some 1)) 0 0] = some s ∧
      s.current [98] = some (none, none) ∧
      fsGetSuper s (some [98]) = some 7 ∧
      exists s', next s (.unmountSuper (some [98])) = some s' ∧
        s'.roots.freed = [100, 100] :=
  ⟨_, rfl, rfl, rfl, _, rfl, rfl⟩

end Mounts
end Horizon
