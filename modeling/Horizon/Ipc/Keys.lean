import Horizon.Lib.Transition
import Horizon.Types
import Mathlib.Data.List.Perm.Basic

/-!
# Keys of semaphores and shared memory

This module follows `semget`, `semctl`, `shmget` and `shmctl` of `ipc/sem.c` and
`ipc/shm.c`.  An object has no key: a call looks for an object whose identifier
is the key, and `IPC_EXCL` is not looked at.  Attaching segments, `semop` and
what it reads are left out.
-/

namespace Horizon
namespace Ipc

open List Transition

def ipcPrivate : Nat := 0

def ipcCreat : Nat := 0x0001

def ipcExcl : Nat := 0x0002

/-- `semaphore_t` without its link. -/
structure Semaphore where
  id : Nat
  owner : Nat
  permissions : Nat
  value : Int
  waiters : Nat

/-- `shm_segment_t` without its link. -/
structure Segment where
  id : Nat
  owner : Nat
  permissions : Nat
  addr : Nat
  size : Nat
  attachments : Nat

structure Registry (object : Type) where
  objects : List object
  nextId : Nat

section Registry

variable {object : Type} (idOf : object -> Nat)

/--
`semget` and `shmget`; `create` makes the object for an identifier if there
is memory for it.
-/
def ipcGet (r : Registry object) (key flags : Nat)
    (create : Nat -> Option object) : Int × Registry object :=
  match r.objects.find? fun o => idOf o = key with
  | some o => (asInt (idOf o), r)
  | none =>
      if flags &&& ipcCreat = 0 then (-1, r)
      else
        match create r.nextId with
        | none => (-1, r)
        | some o => (asInt (idOf o), {
            objects := o :: r.objects
            nextId := (r.nextId + 1) % 2 ^ 32 })

/-- `IPC_RMID`. -/
def ipcRemove (r : Registry object) (id : Int) : Int × Registry object :=
  if r.objects.any fun o => idOf o = asUnsigned id then
    (0, { r with objects := r.objects.eraseP fun o => idOf o = asUnsigned id })
  else (-1, r)

end Registry

/-- `mem` tells whether `kmalloc` succeeds. -/
def semget (r : Registry Semaphore) (key flags pid : Nat) (mem : Bool) :
    Int × Registry Semaphore :=
  ipcGet Semaphore.id r key flags fun id =>
    if mem then some {
      id := id
      owner := pid
      permissions := flags &&& 0o777
      value := 0
      waiters := 0 }
    else none

/-- `addr` is the memory of the segment, zero standing for `NULL`. -/
def shmget (r : Registry Segment) (key size flags pid : Nat) (mem : Bool)
    (addr : Nat) : Int × Registry Segment :=
  ipcGet Segment.id r key flags fun id =>
    if mem = true ∧ addr ≠ 0 then some {
      id := id
      owner := pid
      permissions := flags &&& 0o777
      addr := addr
      size := size
      attachments := 0 }
    else none

inductive SemCommand where
  | rmid
  | set
  | stat
  | getval
  | setval (v : Int)
  | getpid
  | getncnt
  | getzcnt
  | unknown

def setValue (id : Nat) (v : Int) : List Semaphore -> List Semaphore
  | [] => []
  | sem :: rest =>
      if sem.id = id then { sem with value := v } :: rest
      else sem :: setValue id v rest

def semctl (r : Registry Semaphore) (semid semnum : Int) (cmd : SemCommand) :
    Int × Registry Semaphore :=
  match r.objects.find? fun sem => sem.id = asUnsigned semid with
  | none => (-1, r)
  | some sem =>
      if semnum ≠ 0 then (-1, r)
      else
        match cmd with
        | SemCommand.rmid => ipcRemove Semaphore.id r semid
        | SemCommand.set => (0, r)
        | SemCommand.stat => (0, r)
        | SemCommand.getval => (sem.value, r)
        | SemCommand.setval v =>
            (0, { r with objects := setValue sem.id v r.objects })
        | SemCommand.getpid => (asInt sem.owner, r)
        | SemCommand.getncnt => (asInt sem.waiters, r)
        | SemCommand.getzcnt => (0, r)
        | SemCommand.unknown => (-1, r)

inductive ShmCommand where
  | rmid
  | set
  | stat
  | unknown

def shmctl (r : Registry Segment) (shmid : Int) (cmd : ShmCommand) :
    Int × Registry Segment :=
  match r.objects.find? fun segment => segment.id = asUnsigned shmid with
  | none => (-1, r)
  | some _ =>
      match cmd with
      | ShmCommand.rmid => ipcRemove Segment.id r shmid
      | ShmCommand.set => (0, r)
      | ShmCommand.stat => (0, r)
      | ShmCommand.unknown => (-1, r)

/-!
## What keys are for

The objects that exist, each with the key that it was created for and its
identifier, and what a call may do to them.
-/

/-- A call as far as keys and identifiers go. -/
inductive KeyCall where
  | get (key flags : Nat)
  | remove (id : Int)
  | other

def Exclusive (flags : Nat) : Prop :=
  flags &&& ipcCreat ≠ 0 ∧ flags &&& ipcExcl ≠ 0

instance (flags : Nat) : Decidable (Exclusive flags) :=
  inferInstanceAs (Decidable (_ ∧ _))

def Free (live : List (Nat × Nat)) (key : Nat) : Prop :=
  key ≠ ipcPrivate -> forall id, (key, id) ∉ live

/-- What a call may return, and the objects after it. -/
inductive KeyStep : List (Nat × Nat) -> KeyCall -> Int -> List (Nat × Nat) ->
    Prop where
  | found {live key flags} {id : Nat} : key ≠ ipcPrivate -> (key, id) ∈ live ->
      ¬ Exclusive flags -> KeyStep live (KeyCall.get key flags) id live
  | taken {live key flags id} : key ≠ ipcPrivate -> (key, id) ∈ live ->
      Exclusive flags -> KeyStep live (KeyCall.get key flags) (-1) live
  | absent {live key flags} : Free live key -> flags &&& ipcCreat = 0 ->
      KeyStep live (KeyCall.get key flags) (-1) live
  | noMemory {live key flags} : Free live key -> flags &&& ipcCreat ≠ 0 ->
      KeyStep live (KeyCall.get key flags) (-1) live
  | created {live key flags} {id : Nat} : Free live key ->
      flags &&& ipcCreat ≠ 0 -> (forall key, (key, id) ∉ live) ->
      KeyStep live (KeyCall.get key flags) id ((key, id) :: live)
  | removed {live key id} : (key, asUnsigned id) ∈ live ->
      KeyStep live (KeyCall.remove id) 0
        (live.eraseP fun p => p.2 = asUnsigned id)
  | missing {live id} : (forall key, (key, asUnsigned id) ∉ live) ->
      KeyStep live (KeyCall.remove id) (-1) live
  | other {live r} : KeyStep live KeyCall.other r live

/--
The objects after a call, by what it returned: an identifier that no object has
is the one of a new object.
-/
def record (live : List (Nat × Nat)) : KeyCall -> Int -> List (Nat × Nat)
  | KeyCall.get key _, r =>
      if r < 0 ∨ r.toNat ∈ live.map Prod.snd then live
      else (key, r.toNat) :: live
  | KeyCall.remove id, r =>
      if r = 0 then live.eraseP fun p => p.2 = asUnsigned id else live
  | KeyCall.other, _ => live

theorem record_get (live : List (Nat × Nat)) (key flags : Nat) (r : Int) :
    record live (KeyCall.get key flags) r =
      if r < 0 ∨ r.toNat ∈ live.map Prod.snd then live
      else (key, r.toNat) :: live :=
  rfl

structure Separate (live : List (Nat × Nat)) : Prop where
  keys : ((live.map Prod.fst).filter fun key => key ≠ ipcPrivate).Nodup
  ids : (live.map Prod.snd).Nodup

variable {live : List (Nat × Nat)}

theorem Separate.cons (h : Separate live) {key id : Nat} (hkey : Free live key)
    (hid : forall key, (key, id) ∉ live) :
    Separate ((key, id) :: live) := by
  constructor
  · rw [map_cons]
    by_cases hzero : key ≠ ipcPrivate
    · rw [filter_cons_of_pos (by simpa using hzero)]
      refine nodup_cons.mpr ⟨?_, h.keys⟩
      intro hmem
      rcases mem_map.mp (mem_of_mem_filter hmem) with ⟨p, hp, rfl⟩
      exact hkey hzero p.2 hp
    · rw [filter_cons_of_neg (by simpa using hzero)]
      exact h.keys
  · refine nodup_cons.mpr ⟨?_, h.ids⟩
    intro hmem
    rcases mem_map.mp hmem with ⟨p, hp, rfl⟩
    exact hid p.1 hp

theorem Separate.sublist {live live' : List (Nat × Nat)} (h : Separate live)
    (hsub : live'.Sublist live) : Separate live' :=
  ⟨h.keys.sublist ((hsub.map _).filter _), h.ids.sublist (hsub.map _)⟩

/-!
## Registries
-/

section Registry

variable {object : Type} (idOf : object -> Nat)

structure Keyed (r : Registry object) (live : List (Nat × Nat)) : Prop where
  ids : r.objects.map idOf = live.map Prod.snd
  separate : Separate live
  below : forall p, p ∈ live -> 0 < p.2 ∧ p.2 < r.nextId
  next : 0 < r.nextId ∧ r.nextId <= 2 ^ 31

variable {idOf}

/--
The condition on `semget` and `shmget`: the object of a key is the one whose
identifier is the key, it is not asked for exclusively, and a new identifier is
not negative as an `int`.
-/
structure GetOk (r : Registry object) (live : List (Nat × Nat))
    (key flags : Nat) : Prop where
  named : key ≠ ipcPrivate -> forall p, p ∈ live -> (p.1 = key <-> p.2 = key)
  shared : key ≠ ipcPrivate -> key ∈ live.map Prod.fst -> ¬ Exclusive flags
  room : Free live key -> flags &&& ipcCreat ≠ 0 -> r.nextId < 2 ^ 31

variable (idOf) in
/-- A call did what it may do, and the objects are still the recorded ones. -/
def Follows (live : List (Nat × Nat)) (call : KeyCall)
    (res : Int × Registry object) : Prop :=
  KeyStep live call res.1 (record live call res.1) ∧
    Keyed idOf res.2 (record live call res.1)

variable {r : Registry object}

theorem Keyed.exists_iff (h : Keyed idOf r live) (id : Nat) :
    (exists o, o ∈ r.objects ∧ idOf o = id) <-> exists key, (key, id) ∈ live := by
  have hmap : (exists o, o ∈ r.objects ∧ idOf o = id) <->
      id ∈ r.objects.map idOf := mem_map.symm
  rw [hmap, h.ids, mem_map]
  constructor
  · rintro ⟨⟨key, id'⟩, hp, rfl⟩
    exact ⟨key, hp⟩
  · rintro ⟨key, hp⟩
    exact ⟨_, hp, rfl⟩

theorem Keyed.get (h : Keyed idOf r live) {key flags : Nat}
    {create : Nat -> Option object}
    (hcreate : forall id o, create id = some o -> idOf o = id)
    (hok : GetOk r live key flags) :
    Follows idOf live (.get key flags) (ipcGet idOf r key flags create) := by
  unfold Follows ipcGet
  cases hfind : r.objects.find? fun o => idOf o = key with
  | some o =>
    have hkey : idOf o = key := by
      have hpred := List.find?_some hfind
      exact of_decide_eq_true hpred
    rcases (h.exists_iff key).mp
      ⟨o, mem_of_find?_eq_some hfind, hkey⟩ with ⟨key', hlive⟩
    rcases h.below _ hlive with ⟨hpos, hlt⟩
    have hpublic : key ≠ ipcPrivate := Nat.ne_of_gt hpos
    have heq : key' = key := (hok.named hpublic _ hlive).mpr rfl
    rw [heq] at hlive
    have hsmall : key < 2 ^ 31 := Nat.lt_of_lt_of_le hlt h.next.right
    have hrecord : record live (.get key flags) (key : Int) = live := by
      rw [record_get, if_pos]
      exact Or.inr (mem_map.mpr ⟨_, hlive, rfl⟩)
    simp only [hkey, asInt_of_lt hsmall, hrecord]
    refine ⟨.found hpublic hlive ?_, h⟩
    exact hok.shared hpublic (mem_map.mpr ⟨_, hlive, rfl⟩)
  | none =>
    have hfree : Free live key := by
      intro hpublic id hp
      have hid : id = key := (hok.named hpublic _ hp).mp rfl
      rcases (h.exists_iff id).mpr ⟨key, hp⟩ with ⟨o, ho, hkey⟩
      exact List.find?_eq_none.mp hfind o ho
        (decide_eq_true (hkey.trans hid))
    have hfailed : record live (.get key flags) (-1) = live := by
      rw [record_get, if_pos]
      exact Or.inl (by decide)
    by_cases hcreat : flags &&& ipcCreat = 0
    · simp only [hcreat, if_true, hfailed]
      exact ⟨.absent hfree hcreat, h⟩
    simp only [hcreat, if_false]
    cases hnew : create r.nextId with
    | none => exact ⟨.noMemory hfree hcreat, h⟩
    | some o =>
      have hroom : r.nextId < 2 ^ 31 := hok.room hfree hcreat
      have hfresh : forall key', (key', r.nextId) ∉ live := by
        intro key' hp
        exact Nat.lt_irrefl _ (h.below _ hp).right
      have hrecord : record live (.get key flags) (r.nextId : Int) =
          (key, r.nextId) :: live := by
        rw [record_get, if_neg]
        · rfl
        rintro (hneg | hmem)
        · omega
        · rcases mem_map.mp hmem with ⟨p, hp, hid⟩
          exact Nat.ne_of_lt (h.below p hp).right hid
      have hnext : (r.nextId + 1) % 2 ^ 32 = r.nextId + 1 :=
        Nat.mod_eq_of_lt (by omega)
      simp only [hcreate _ _ hnew, asInt_of_lt hroom, hrecord, hnext]
      refine ⟨.created hfree hcreat hfresh, ?_,
        h.separate.cons hfree hfresh, ?_, Nat.succ_pos _, hroom⟩
      · rw [map_cons, map_cons, hcreate _ _ hnew, h.ids]
      · intro p hp
        rcases mem_cons.mp hp with rfl | hp
        · exact ⟨h.next.left, Nat.lt_succ_self _⟩
        · rcases h.below p hp with ⟨hpos, hlt⟩
          exact ⟨hpos, Nat.lt_succ_of_lt hlt⟩

theorem Keyed.remove (h : Keyed idOf r live) (id : Int) :
    Follows idOf live (.remove id) (ipcRemove idOf r id) := by
  unfold ipcRemove
  have hiff : (r.objects.any fun o => idOf o = asUnsigned id) = true <->
      exists key, (key, asUnsigned id) ∈ live := by
    rw [any_eq_true, ← h.exists_iff]
    simp only [decide_eq_true_eq]
  split
  case isTrue hany =>
    rcases hiff.mp hany with ⟨key, hlive⟩
    refine ⟨.removed hlive, ?_, h.separate.sublist eraseP_sublist,
      fun p hp => h.below p (mem_of_mem_eraseP hp), h.next⟩
    have hobjects := eraseP_map (f := idOf)
      (p := fun n => decide (n = asUnsigned id)) (l := r.objects)
    have hrest := eraseP_map (f := Prod.snd)
      (p := fun n => decide (n = asUnsigned id)) (l := live)
    rw [h.ids, hrest] at hobjects
    exact hobjects.symm
  case isFalse hany =>
    exact ⟨.missing fun key hp => hany (hiff.mpr ⟨key, hp⟩), h⟩

theorem Keyed.congr {r r' : Registry object} (h : Keyed idOf r live)
    (hids : r'.objects.map idOf = r.objects.map idOf)
    (hnext : r'.nextId = r.nextId) : Keyed idOf r' live := by
  refine ⟨hids.trans h.ids, h.separate, ?_, ?_⟩
  · rw [hnext]
    exact h.below
  · rw [hnext]
    exact h.next

end Registry

/-!
## Runs
-/

inductive Call where
  | semget (key flags pid : Nat) (mem : Bool)
  | semctl (semid semnum : Int) (cmd : SemCommand)
  | shmget (key size flags pid : Nat) (mem : Bool) (addr : Nat)
  | shmctl (shmid : Int) (cmd : ShmCommand)

/--
The two registries, each with the keys and identifiers of the objects that were
created and not removed since.
-/
structure History where
  sem : Registry Semaphore
  semKeys : List (Nat × Nat)
  shm : Registry Segment
  shmKeys : List (Nat × Nat)

def initial : History where
  sem := { objects := [], nextId := 1 }
  semKeys := []
  shm := { objects := [], nextId := 1 }
  shmKeys := []

def Call.key : Call -> KeyCall
  | Call.semget key flags _ _ => KeyCall.get key flags
  | Call.semctl semid semnum SemCommand.rmid =>
      if semnum = 0 then KeyCall.remove semid else KeyCall.other
  | Call.semctl _ _ _ => KeyCall.other
  | Call.shmget key _ flags _ _ _ => KeyCall.get key flags
  | Call.shmctl shmid ShmCommand.rmid => KeyCall.remove shmid
  | Call.shmctl _ _ => KeyCall.other

def result (h : History) : Call -> Int
  | Call.semget key flags pid mem => (semget h.sem key flags pid mem).1
  | Call.semctl semid semnum cmd => (semctl h.sem semid semnum cmd).1
  | Call.shmget key size flags pid mem addr =>
      (shmget h.shm key size flags pid mem addr).1
  | Call.shmctl shmid cmd => (shmctl h.shm shmid cmd).1

def after (h : History) (call : Call) : History :=
  match call with
  | Call.semget key flags pid mem => { h with
      sem := (semget h.sem key flags pid mem).2
      semKeys := record h.semKeys call.key (result h call) }
  | Call.semctl semid semnum cmd => { h with
      sem := (semctl h.sem semid semnum cmd).2
      semKeys := record h.semKeys call.key (result h call) }
  | Call.shmget key size flags pid mem addr => { h with
      shm := (shmget h.shm key size flags pid mem addr).2
      shmKeys := record h.shmKeys call.key (result h call) }
  | Call.shmctl shmid cmd => { h with
      shm := (shmctl h.shm shmid cmd).2
      shmKeys := record h.shmKeys call.key (result h call) }

def History.keys (h : History) : Call -> List (Nat × Nat)
  | Call.semget .. => h.semKeys
  | Call.semctl .. => h.semKeys
  | Call.shmget .. => h.shmKeys
  | Call.shmctl .. => h.shmKeys

def CallOk (h : History) : Call -> Prop
  | Call.semget key flags _ _ => GetOk h.sem h.semKeys key flags
  | Call.shmget key _ flags _ _ _ => GetOk h.shm h.shmKeys key flags
  | _ => True

def Step (h : History) (call : Call) (h' : History) : Prop :=
  CallOk h call ∧ h' = after h call

structure Sound (h : History) : Prop where
  sem : Keyed Semaphore.id h.sem h.semKeys
  shm : Keyed Segment.id h.shm h.shmKeys

theorem map_id_setValue (id : Nat) (v : Int) (sems : List Semaphore) :
    (setValue id v sems).map Semaphore.id = sems.map Semaphore.id := by
  induction sems with
  | nil => rfl
  | cons sem rest ih =>
    unfold setValue
    split
    case isTrue heq => rfl
    case isFalse heq => rw [map_cons, map_cons, ih]

theorem ipcRemove_of_find_none {object : Type} {idOf : object -> Nat}
    {r : Registry object} {id : Int}
    (hnone : (r.objects.find? fun o => idOf o = asUnsigned id) = none) :
    ipcRemove idOf r id = (-1, r) := by
  unfold ipcRemove
  rw [if_neg]
  intro hany
  rcases any_eq_true.mp hany with ⟨o, ho, hid⟩
  exact List.find?_eq_none.mp hnone o ho hid

theorem semctl_rmid (r : Registry Semaphore) (semid : Int) :
    semctl r semid 0 SemCommand.rmid = ipcRemove Semaphore.id r semid := by
  unfold semctl
  cases hfind : r.objects.find? fun sem => sem.id = asUnsigned semid with
  | none => exact (ipcRemove_of_find_none hfind).symm
  | some sem => rfl

theorem shmctl_rmid (r : Registry Segment) (shmid : Int) :
    shmctl r shmid ShmCommand.rmid = ipcRemove Segment.id r shmid := by
  unfold shmctl
  cases hfind : r.objects.find? fun seg => seg.id = asUnsigned shmid with
  | none => exact (ipcRemove_of_find_none hfind).symm
  | some seg => rfl

theorem map_id_semctl (r : Registry Semaphore) {semid semnum : Int}
    {cmd : SemCommand} (h : (Call.semctl semid semnum cmd).key = .other) :
    (semctl r semid semnum cmd).2.objects.map Semaphore.id =
        r.objects.map Semaphore.id ∧
      (semctl r semid semnum cmd).2.nextId = r.nextId := by
  unfold semctl
  cases r.objects.find? fun sem => sem.id = asUnsigned semid with
  | none => exact ⟨rfl, rfl⟩
  | some sem =>
    by_cases hnum : semnum = 0
    · subst hnum
      cases cmd with
      | rmid => cases h
      | setval v => exact ⟨map_id_setValue sem.id v r.objects, rfl⟩
      | _ => exact ⟨rfl, rfl⟩
    · simp only [ne_eq, hnum, not_false_eq_true, if_true, and_self]

theorem shmctl_other (r : Registry Segment) {shmid : Int} {cmd : ShmCommand}
    (h : (Call.shmctl shmid cmd).key = .other) :
    (shmctl r shmid cmd).2 = r := by
  unfold shmctl
  cases r.objects.find? fun seg => seg.id = asUnsigned shmid with
  | none => rfl
  | some seg =>
    cases cmd with
    | rmid => cases h
    | _ => rfl

variable {h : History}

theorem Sound.semctl (hsound : Sound h) (semid semnum : Int)
    (cmd : SemCommand) :
    Follows Semaphore.id h.semKeys (Call.semctl semid semnum cmd).key
      (semctl h.sem semid semnum cmd) := by
  by_cases hremove : cmd = .rmid ∧ semnum = 0
  · rcases hremove with ⟨rfl, rfl⟩
    rw [semctl_rmid]
    exact hsound.sem.remove semid
  · have hkey : (Call.semctl semid semnum cmd).key = .other := by
      cases cmd with
      | rmid => exact if_neg fun hzero => hremove ⟨rfl, hzero⟩
      | _ => rfl
    rw [hkey]
    rcases map_id_semctl h.sem hkey with ⟨hids, hnext⟩
    exact ⟨.other, hsound.sem.congr hids hnext⟩

theorem Sound.shmctl (hsound : Sound h) (shmid : Int) (cmd : ShmCommand) :
    Follows Segment.id h.shmKeys (Call.shmctl shmid cmd).key
      (shmctl h.shm shmid cmd) := by
  by_cases hremove : cmd = .rmid
  · rw [hremove, shmctl_rmid]
    exact hsound.shm.remove shmid
  · have hkey : (Call.shmctl shmid cmd).key = .other := by
      cases cmd with
      | rmid => exact absurd rfl hremove
      | _ => rfl
    rw [hkey]
    refine ⟨.other, ?_⟩
    rw [shmctl_other h.shm hkey]
    exact hsound.shm

theorem Sound.semget (hsound : Sound h) {key flags : Nat}
    (hok : GetOk h.sem h.semKeys key flags) (pid : Nat) (mem : Bool) :
    Follows Semaphore.id h.semKeys (.get key flags)
      (semget h.sem key flags pid mem) := by
  apply hsound.sem.get _ hok
  intro id o ho
  split at ho
  case isTrue hmem =>
    cases ho
    rfl
  case isFalse hmem =>
    cases ho

theorem Sound.shmget (hsound : Sound h) {key flags : Nat}
    (hok : GetOk h.shm h.shmKeys key flags) (size pid : Nat) (mem : Bool)
    (addr : Nat) :
    Follows Segment.id h.shmKeys (.get key flags)
      (shmget h.shm key size flags pid mem addr) := by
  apply hsound.shm.get _ hok
  intro id o ho
  split at ho
  case isTrue hmem =>
    cases ho
    rfl
  case isFalse hmem =>
    cases ho

theorem Sound.call (hsound : Sound h) {call : Call} (hok : CallOk h call) :
    KeyStep (h.keys call) call.key (result h call) ((after h call).keys call) ∧
      Sound (after h call) := by
  cases call with
  | semget key flags pid mem =>
    rcases hsound.semget hok pid mem with ⟨hstep, hkeyed⟩
    exact ⟨hstep, hkeyed, hsound.shm⟩
  | semctl semid semnum cmd =>
    rcases hsound.semctl semid semnum cmd with ⟨hstep, hkeyed⟩
    exact ⟨hstep, hkeyed, hsound.shm⟩
  | shmget key size flags pid mem addr =>
    rcases hsound.shmget hok size pid mem addr with ⟨hstep, hkeyed⟩
    exact ⟨hstep, hsound.sem, hkeyed⟩
  | shmctl shmid cmd =>
    rcases hsound.shmctl shmid cmd with ⟨hstep, hkeyed⟩
    exact ⟨hstep, hsound.sem, hkeyed⟩

end Ipc
end Horizon
