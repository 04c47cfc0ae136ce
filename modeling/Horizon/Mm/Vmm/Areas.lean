import Horizon.Mm.Vmm.Model

/-!
# The ring of areas

What each call can do to the areas, when it returns.  A loop over two or more
areas never leaves the ring, and an area that is to be destroyed is waited for
under a lock that is held, so a call that goes over a range returns only when at
most one area exists.
-/

namespace Horizon
namespace Vmm

open Function List LinkedList

/-- The areas in the order in which the loops visit them. -/
def Visits (mm : Mm) : List Nat -> Prop
  | [] => mm.mmap = none
  | first :: rest => mm.mmap = some first ∧ Ring mm.links first rest

/-- The parts of an address space fit together, and nobody holds its lock. -/
structure Formed (mm : Mm) (ps : List Nat) : Prop where
  visits : Visits mm ps
  heap : forall p, p ∈ ps -> p < mm.heap
  cache : forall p, mm.mmapCache = some p -> p ∈ ps
  unlocked : mm.locked = false
  count : mm.mapCount = ps.length
  startBrk : mm.startBrk = 0
  brk : mm.brk = 0

theorem formed_vmmCreateMm (vma : Nat -> Vma) (links : Links Nat)
    (mem : List Bool) : Formed (vmmCreateMm vma links mem) [] :=
  ⟨rfl, nofun, nofun, rfl, rfl, rfl, rfl⟩

variable {mm mm' : Mm} {ps pre ps' post : List Nat}
    {x addr curr fuel prot size flags place : Nat} {start : Nat -> Nat}
    {body : Mm -> Nat -> Option (Mm × Option Nat)} {res : Except Errno Unit}

theorem Visits.next (h : Visits mm ps) {p : Nat} (hp : p ∈ ps) :
    exists q, (mm.links p).next = some q ∧ q ∈ ps ∧ (q = p -> ps = [p]) := by
  cases ps with
  | nil => cases hp
  | cons first rest =>
    rcases h.right.exists_rotation hp with ⟨ys, hring, hperm⟩
    refine ⟨ys.headD p, hring.segment.next_eq, ?_⟩
    cases ys with
    | nil => exact ⟨hp, fun _ => perm_singleton.mp hperm.symm⟩
    | cons y ys =>
      refine ⟨hperm.mem_iff.mp (mem_cons_of_mem _ mem_cons_self), fun heq => ?_⟩
      exact absurd (heq ▸ mem_cons_self) (nodup_cons.mp hring.nodup).left

theorem Formed.spinLock (h : Formed mm ps) :
    spinLock mm = some { mm with locked := true } := by
  unfold Vmm.spinLock
  rw [h.unlocked]
  rfl

theorem Visits.next_of_append {a b : Nat} (h : Visits mm ps)
    (heq : ps = pre ++ a :: b :: post) : (mm.links a).next = some b := by
  cases ps with
  | nil => cases pre <;> cases heq
  | cons first rest => exact h.right.next_of_append heq

theorem Visits.first_mem (h : Visits mm ps) {first : Nat}
    (hfirst : mm.mmap = some first) : first ∈ ps := by
  cases ps with
  | nil => cases hfirst.symm.trans h
  | cons p rest =>
    cases hfirst.symm.trans h.left
    exact mem_cons_self

theorem Visits.unique (h : Visits mm ps) (h' : Visits mm ps') : ps = ps' := by
  cases ps with
  | nil =>
    cases ps' with
    | nil => rfl
    | cons first rest => cases Eq.trans (Eq.symm h) h'.left
  | cons first rest =>
    cases ps' with
    | nil => cases Eq.trans (Eq.symm h') h.left
    | cons first' rest' =>
      cases h.left.symm.trans h'.left
      rw [h.right.unique h'.right]

/-!
## Creating an area
-/

theorem searchLoop_none (hvisits : Visits mm ps)
    (hbelow : forall p, p ∈ ps -> (mm.vma p).start < place) (fuel : Nat)
    (prev : Option Nat) (hcurr : curr ∈ ps) :
    searchLoop mm place fuel prev curr = none := by
  induction fuel generalizing prev curr with
  | zero => rfl
  | succ fuel ih =>
    rcases hvisits.next hcurr with ⟨next, hnext, hmem, _⟩
    unfold searchLoop
    rw [if_pos (hbelow curr hcurr), hnext]
    exact ih (some curr) hmem

/-- The search ends before the first area that does not start below. -/
theorem searchLoop_some {res : Option Nat} (hvisits : Visits mm ps)
    (hps : ps = pre ++ curr :: post)
    (hbelow : forall p, p ∈ pre -> (mm.vma p).start < place)
    (h : searchLoop mm place fuel pre.getLast? curr = some res) :
    exists pre' q post', ps = pre' ++ q :: post' ∧
      (forall p, p ∈ pre' -> (mm.vma p).start < place) ∧
      place <= (mm.vma q).start ∧ res = pre'.getLast? := by
  induction fuel generalizing pre curr post with
  | zero => cases h
  | succ fuel ih =>
    unfold searchLoop at h
    split at h
    case isTrue hcurr =>
      have hbelow' := forall_mem_append.mpr
        ⟨hbelow, forall_mem_singleton.mpr hcurr⟩
      have hlast : (pre ++ [curr]).getLast? = some curr :=
        List.getLast?_concat
      cases post with
      | nil =>
        -- the search has come round
        have hmem : curr ∈ ps := by
          rw [hps]
          exact mem_append_right _ mem_cons_self
        rcases hvisits.next hmem with ⟨next, hnext, hnextMem, _⟩
        rw [hnext, Option.bind_eq_bind, Option.bind_some] at h
        rw [searchLoop_none hvisits (hps ▸ hbelow') fuel _ hnextMem] at h
        cases h
      | cons y post =>
        have hnext := hvisits.next_of_append hps
        rw [hnext, Option.bind_eq_bind, Option.bind_some, ← hlast] at h
        have hps' : ps = (pre ++ [curr]) ++ y :: post := by
          rw [hps, append_assoc]
          rfl
        exact ih hps' hbelow' h
    case isFalse hcurr =>
      cases h
      exact ⟨pre, curr, post, hps, hbelow, by omega, rfl⟩

/-- How a new area gets into the ring. -/
inductive Inserted (start : Nat -> Nat) (place p : Nat) :
    List Nat -> List Nat -> Prop where
  | first : Inserted start place p [] [p]
  | front {m : Nat} {rest : List Nat} : place <= start m ->
      Inserted start place p (m :: rest) (p :: (rest ++ [m]))
  | after {pre post : List Nat} {x q : Nat} :
      (forall y, y ∈ pre ++ [x] -> start y < place) -> place <= start q ->
      Inserted start place p (pre ++ x :: q :: post)
        (pre ++ x :: p :: q :: post)

theorem Inserted.perm {p : Nat} (h : Inserted start place p ps ps') :
    ps'.Perm (p :: ps) := by
  cases h with
  | first => exact List.Perm.refl _
  | front hle => exact List.Perm.cons p (perm_append_singleton _ _)
  | @after pre post x q hbelow hle =>
    have hmiddle : (pre ++ [x] ++ p :: q :: post).Perm
        (p :: (pre ++ [x] ++ q :: post)) := perm_middle
    simpa using hmiddle

theorem Ring.listAdd_after {L : Links Nat} {first new : Nat} {rest : List Nat}
    (h : Ring L first rest) (heq : first :: rest = pre ++ x :: post)
    (hnew : new ∉ first :: rest) :
    exists L' rest', listAdd L new x = some L' ∧ Ring L' first rest' ∧
      first :: rest' = pre ++ x :: new :: post := by
  cases pre with
  | nil =>
    cases heq
    rcases h.listAdd hnew with ⟨L', hadd, hring, _⟩
    exact ⟨L', _, hadd, hring, rfl⟩
  | cons y pre =>
    cases heq
    have hnew' : new ∉ x :: (post ++ first :: pre) := by
      intro hmem
      apply hnew
      show new ∈ first :: (pre ++ x :: post)
      simp only [mem_cons, mem_append] at hmem ⊢
      tauto
    rcases h.rotate.listAdd hnew' with ⟨L', hadd, hring, _⟩
    have hback : Ring L' x ((new :: post) ++ first :: pre) := hring
    exact ⟨L', _, hadd, hback.rotate, rfl⟩

/-- Everything but the ring of areas. -/
structure Keeps (mm mm' : Mm) : Prop where
  vma : mm'.vma = mm.vma
  heap : mm'.heap = mm.heap
  mmapCache : mm'.mmapCache = mm.mmapCache
  mapCount : mm'.mapCount = mm.mapCount
  locked : mm'.locked = mm.locked
  startBrk : mm'.startBrk = mm.startBrk
  brk : mm'.brk = mm.brk
  totalVm : mm'.totalVm = mm.totalVm
  lockedVm : mm'.lockedVm = mm.lockedVm
  sharedVm : mm'.sharedVm = mm.sharedVm
  execVm : mm'.execVm = mm.execVm

theorem linkVma_some {p : Nat} (hvisits : Visits mm ps) (hp : p ∉ ps)
    (hself : Ring mm.links p []) (h : linkVma fuel mm p place = some mm') :
    Keeps mm mm' ∧ exists ps', Visits mm' ps' ∧
      Inserted (fun q => (mm.vma q).start) place p ps ps' := by
  unfold linkVma at h
  cases ps with
  | nil =>
    have hnone : mm.mmap = none := hvisits
    rw [hnone] at h
    cases h
    exact ⟨⟨rfl, rfl, rfl, rfl, rfl, rfl, rfl, rfl, rfl, rfl, rfl⟩, [p],
      ⟨rfl, hself⟩, .first⟩
  | cons first rest =>
    obtain ⟨hmmap, hring⟩ := id hvisits
    simp only [hmmap] at h
    rcases Option.bind_eq_some_iff.mp h with ⟨res, hsearch, hres⟩
    have hstart : first :: rest = [] ++ first :: rest := rfl
    rcases searchLoop_some hvisits hstart nofun hsearch with
      ⟨pre, q, post, hps, hbelow, hq, rfl⟩
    cases hlast : pre.getLast? with
    | none =>
      have hnil : pre = [] := List.getLast?_eq_none_iff.mp hlast
      subst hnil
      cases hps
      rcases hring.listAdd hp with ⟨L', hadd, hring', _⟩
      simp only [hadd] at hres
      cases hres
      have hring'' : Ring L' first ([] ++ p :: rest) := hring'
      exact ⟨⟨rfl, rfl, rfl, rfl, rfl, rfl, rfl, rfl, rfl, rfl, rfl⟩,
        p :: (rest ++ [first]), ⟨rfl, hring''.rotate⟩, .front hq⟩
    | some x =>
      rcases List.getLast?_eq_some_iff.mp hlast with ⟨init, rfl⟩
      rw [hlast] at hres
      rw [append_assoc] at hps
      rcases Ring.listAdd_after hring hps hp with ⟨L', rest', hadd, hring', heq⟩
      simp only [hadd] at hres
      cases hres
      refine ⟨⟨rfl, rfl, rfl, rfl, rfl, rfl, rfl, rfl, rfl, rfl, rfl⟩,
        first :: rest', ⟨rfl, hring'⟩, ?_⟩
      rw [heq, hps]
      exact .after hbelow hq

structure Created (mm : Mm) (ps : List Nat) (place size flags : Nat)
    (mm' : Mm) (ps' : List Nat) : Prop where
  formed : Formed mm' ps'
  inserted : Inserted (fun q => (mm.vma q).start) place mm.heap ps ps'
  vma : mm'.vma = update mm.vma mm.heap {
    start := place
    stop := add32 place size
    flags := flags }
  totalVm : mm'.totalVm = mm.totalVm
  lockedVm : mm'.lockedVm = mm.lockedVm
  sharedVm : mm'.sharedVm = mm.sharedVm
  execVm : mm'.execVm = mm.execVm

theorem Visits.congr (h : Visits mm ps) (hmmap : mm'.mmap = mm.mmap)
    (hlinks : forall p, p ∈ ps -> mm'.links p = mm.links p) :
    Visits mm' ps := by
  cases ps with
  | nil => exact hmmap.trans h
  | cons first rest => exact ⟨hmmap.trans h.left, h.right.congr hlinks⟩

theorem Inserted.vma_congr {start' : Nat -> Nat} {p : Nat}
    (h : Inserted start place p ps ps')
    (hsame : forall q, q ∈ ps -> start' q = start q) :
    Inserted start' place p ps ps' := by
  cases h with
  | first => exact .first
  | front hle =>
    apply Inserted.front
    rw [hsame _ mem_cons_self]
    exact hle
  | @after pre post x q hbelow hle =>
    apply Inserted.after
    · intro y hy
      rw [hsame y (by
        simp only [mem_append, mem_cons] at hy ⊢
        tauto)]
      exact hbelow y hy
    · rw [hsame q (by simp)]
      exact hle

theorem vmmCreateVma_some {start : Nat} {res : Option Nat}
    (hformed : Formed mm ps)
    (h : vmmCreateVma fuel mm start size flags = some (res, mm')) :
    res = none ∧ (exists mem, mm' = { mm with mem := mem }) ∨
      res = some mm.heap ∧ size ≠ 0 ∧ exists ps',
        Created mm ps (alignUp start) (alignUp size) flags mm' ps' := by
  unfold vmmCreateVma at h
  by_cases hsize : size = 0
  · rw [if_pos hsize] at h
    cases h
    exact Or.inl ⟨rfl, mm.mem, rfl⟩
  · simp only [if_neg hsize] at h
    cases hmem : mm.mem.headD false with
    | true =>
      simp only [hmem, if_true] at h
      cases h
      exact Or.inl ⟨rfl, mm.mem.tail, rfl⟩
    | false =>
      simp only [hmem, Bool.false_eq_true, if_false] at h
      rcases Option.bind_eq_some_iff.mp h with ⟨mm1, hlock, h⟩
      rcases Option.bind_eq_some_iff.mp h with ⟨mm2, hlink, h⟩
      cases h
      unfold spinLock Mm.setVma at hlock
      simp only [hformed.unlocked, Bool.false_eq_true, if_false] at hlock
      cases hlock
      have hfresh : mm.heap ∉ ps := fun hmem =>
        Nat.lt_irrefl _ (hformed.heap _ hmem)
      have hframe : forall p, p ∈ ps ->
          listInit mm.links mm.heap p = mm.links p := fun p hp =>
        listInit_frame fun heq => hfresh (heq ▸ hp)
      rcases linkVma_some (by exact hformed.visits.congr rfl hframe) hfresh
        (ring_listInit _ _) hlink with ⟨hkeeps, ps', hvisits', hinserted⟩
      refine Or.inr ⟨rfl, hsize, ps', ?_⟩
      refine ⟨⟨?_, ?_, ?_, rfl, ?_, ?_, ?_⟩, ?_, ?_, ?_, ?_, ?_, ?_⟩
      · exact hvisits'.congr rfl fun _ _ => rfl
      · intro p hp
        show p < mm2.heap
        rw [hkeeps.heap]
        show p < mm.heap + 1
        rcases mem_cons.mp (hinserted.perm.mem_iff.mp hp) with heq | hold
        · omega
        · have hlt := hformed.heap p hold
          omega
      · intro p hp
        have hcache : mm2.mmapCache = some p := hp
        rw [hkeeps.mmapCache] at hcache
        apply hinserted.perm.mem_iff.mpr
        exact mem_cons_of_mem _ (hformed.cache p hcache)
      · rw [hkeeps.mapCount, hinserted.perm.length_eq, length_cons]
        show mm.mapCount + 1 = _
        rw [hformed.count]
        rfl
      · exact hkeeps.startBrk.trans hformed.startBrk
      · exact hkeeps.brk.trans hformed.brk
      · apply hinserted.vma_congr
        intro q hq
        have hne : q ≠ mm.heap := fun heq => hfresh (heq ▸ hq)
        simp only
        rw [update_of_ne hne]
      · exact hkeeps.vma
      · exact hkeeps.totalVm
      · exact hkeeps.lockedVm
      · exact hkeeps.sharedVm
      · exact hkeeps.execVm

/-!
## Loops over the areas
-/

/-- Under the lock, a body changes no links and goes on to the next area. -/
def Local (body : Mm -> Nat -> Option (Mm × Option Nat)) : Prop :=
  forall mm p mm' next, mm.locked = true ->
    body mm p = some (mm', next) ->
    next = none ∧ mm'.links = mm.links ∧ mm'.mmap = mm.mmap ∧ mm'.locked = true

theorem unlock_eq (mm : Mm) (h : mm.locked = false) :
    { mm with locked := false } = mm := by
  rw [← h]

theorem vmmDestroyVma_locked (h : mm.locked = true) (p : Nat) :
    vmmDestroyVma mm p = none := by
  unfold vmmDestroyVma spinLock
  rw [if_pos h]
  rfl

def Mm.cut (mm : Mm) (p start stop : Nat) : Mm :=
  (mm.uncharge (mm.vma p).flags ((mm.vma p).overlap start stop)).setVma p
    ((mm.vma p).shrink start stop)

theorem unmapBody_some {start stop p : Nat} {next : Option Nat}
    (hlocked : mm.locked = true)
    (h : unmapBody start stop mm p = some (mm', next)) :
    next = none ∧ (mm' = mm ∨
      (mm.vma p).Meets start stop ∧ ¬ (mm.vma p).Inside start stop ∧
        mm' = mm.cut p start stop) := by
  unfold unmapBody at h
  by_cases hmeets : (mm.vma p).Meets start stop
  · by_cases hinside : (mm.vma p).Inside start stop
    · simp only [if_pos hmeets, if_pos hinside] at h
      rcases Option.bind_eq_some_iff.mp h with ⟨_, _, h⟩
      rw [vmmDestroyVma_locked (by exact hlocked)] at h
      cases h
    · simp only [if_pos hmeets, if_neg hinside] at h
      cases h
      exact ⟨rfl, Or.inr ⟨hmeets, hinside, rfl⟩⟩
  · simp only [if_neg hmeets] at h
    cases h
    exact ⟨rfl, Or.inl rfl⟩

theorem local_unmapBody (start stop : Nat) : Local (unmapBody start stop) := by
  intro mm p mm' next hlocked h
  rcases unmapBody_some hlocked h with ⟨hnext, rfl | ⟨_, _, rfl⟩⟩ <;>
    exact ⟨hnext, rfl, rfl, hlocked⟩

theorem walk_none (hlocal : Local body) (hlength : 2 <= ps.length) (fuel : Nat)
    {p : Nat} (hvisits : Visits mm ps) (hlocked : mm.locked = true)
    (hp : p ∈ ps) : walk body fuel mm p = none := by
  induction fuel generalizing mm p with
  | zero => rfl
  | succ fuel ih =>
    unfold walk
    cases hbody : body mm p with
    | none => rfl
    | some res =>
      obtain ⟨mm1, next⟩ := res
      rcases hlocal mm p mm1 next hlocked hbody with
        ⟨rfl, hlinks, hmmap, hlocked1⟩
      have hvisits1 : Visits mm1 ps := by
        apply hvisits.congr hmmap
        intro q _
        rw [hlinks]
      rcases hvisits1.next hp with ⟨q, hq, hmem, hself⟩
      have hne : ¬ q = p := by
        intro heq
        rw [hself heq, length_singleton] at hlength
        omega
      simp only [Option.bind_eq_bind, Option.bind_some, hq, if_neg hne]
      exact ih hvisits1 hlocked1 hmem

theorem walkAll_some (hlocal : Local body) (hvisits : Visits mm ps)
    (hlocked : mm.locked = true) (h : walkAll body fuel mm = some mm') :
    ps = [] ∧ mm' = mm ∨ exists p, ps = [p] ∧ body mm p = some (mm', none) := by
  unfold walkAll at h
  match ps, hvisits with
  | [], hnone =>
    have hnone' : mm.mmap = none := hnone
    rw [hnone'] at h
    cases h
    exact Or.inl ⟨rfl, rfl⟩
  | [p], hvisits =>
    rw [hvisits.left] at h
    cases fuel with
    | zero => cases h
    | succ fuel =>
      rcases Option.bind_eq_some_iff.mp h with ⟨⟨mm1, next⟩, hbody, h⟩
      rcases hlocal mm p mm1 next hlocked hbody with ⟨rfl, hlinks, _, _⟩
      have hself : (mm1.links p).next = some p := by
        rw [hlinks]
        exact hvisits.right.segment.next_eq
      simp only [hself, Option.bind_eq_bind, Option.bind_some, if_true] at h
      cases h
      exact Or.inr ⟨p, rfl, hbody⟩
  | p :: q :: rest, hvisits =>
    rw [hvisits.left] at h
    simp only at h
    rw [walk_none hlocal (by simp) fuel hvisits hlocked
      mem_cons_self] at h
    cases h

/-- A call that goes over a range: what it can do, when it returns. -/
theorem overRange_some
    {body : Nat -> Nat -> Mm -> Nat -> Option (Mm × Option Nat)}
    (hlocal : forall start stop, Local (body start stop))
    (hformed : Formed mm ps)
    (h : overRange body fuel mm addr size = some (res, mm')) :
    (addr = 0 ∨ size = 0) ∧ res = .error .einval ∧ mm' = mm ∨
      addr ≠ 0 ∧ size ≠ 0 ∧ res = .ok () ∧
        (ps = [] ∧ mm' = mm ∨
          exists p mm1, ps = [p] ∧
            body (alignDown addr) (add32 (alignDown addr) (alignUp size))
              { mm with locked := true } p = some (mm1, none) ∧
            mm' = spinUnlock mm1) := by
  unfold overRange at h
  by_cases hzero : addr = 0 ∨ size = 0
  · rw [if_pos hzero] at h
    cases h
    exact Or.inl ⟨hzero, rfl, rfl⟩
  · have hne := not_or.mp hzero
    rw [if_neg hzero] at h
    simp only [hformed.spinLock, Option.bind_eq_bind, Option.bind_some] at h
    rcases Option.bind_eq_some_iff.mp h with ⟨mm1, hwalk, h⟩
    cases h
    have hvisits : Visits { mm with locked := true } ps :=
      hformed.visits.congr rfl fun _ _ => rfl
    refine Or.inr ⟨hne.left, hne.right, rfl, ?_⟩
    rcases walkAll_some (hlocal _ _) hvisits rfl hwalk with
      ⟨hnil, rfl⟩ | ⟨p, hp, hbody⟩
    · exact Or.inl ⟨hnil, unlock_eq mm hformed.unlocked⟩
    · exact Or.inr ⟨p, mm1, hp, hbody, rfl⟩

/-!
## The calls
-/

theorem Formed.congr (h : Formed mm ps) {cache : Option Nat}
    {totalVm lockedVm sharedVm execVm stackVm : Nat} {vma : Nat -> Vma}
    {mem : List Bool} (hcache : forall p, cache = some p -> p ∈ ps) :
    Formed { mm with
      mmapCache := cache
      totalVm := totalVm
      lockedVm := lockedVm
      sharedVm := sharedVm
      execVm := execVm
      stackVm := stackVm
      vma := vma
      mem := mem } ps :=
  ⟨h.visits, h.heap, hcache, h.unlocked, h.count, h.startBrk, h.brk⟩

theorem alignDown_le (x : Nat) : alignDown x <= x := Nat.div_mul_le_self _ _

theorem alignDown_mod (x : Nat) : alignDown x % pageSize = 0 :=
  Nat.mul_mod_left _ _

theorem alignUp_mod (x : Nat) : alignUp x % pageSize = 0 := alignDown_mod _

def rangeEnd (addr size : Nat) : Nat := add32 (alignDown addr) (alignUp size)

theorem rangeEnd_mod (addr size : Nat) : rangeEnd addr size % pageSize = 0 := by
  have haddr := alignDown_mod addr
  have hsize := alignUp_mod size
  unfold rangeEnd add32
  unfold pageSize at haddr hsize ⊢
  omega

theorem vmmMunmap_some (hformed : Formed mm ps)
    (h : vmmMunmap fuel mm addr size = some (res, mm')) :
    ((addr = 0 ∨ size = 0) ∧ mm' = mm) ∨
      ps.length <= 1 ∧ (mm' = mm ∨ exists p, ps = [p] ∧
        (mm.vma p).Meets (alignDown addr) (rangeEnd addr size) ∧
        ¬ (mm.vma p).Inside (alignDown addr) (rangeEnd addr size) ∧
        mm' = mm.cut p (alignDown addr) (rangeEnd addr size)) := by
  rcases overRange_some local_unmapBody hformed h with
    ⟨hzero, _, hsame⟩ | ⟨_, _, _, ⟨hnil, hsame⟩ | ⟨p, mm1, hp, hbody, hmm⟩⟩
  · exact Or.inl ⟨hzero, hsame⟩
  · rw [hnil]
    exact Or.inr ⟨by decide, Or.inl hsame⟩
  · rw [hp]
    refine Or.inr ⟨Nat.le_refl _, ?_⟩
    rcases unmapBody_some rfl hbody with ⟨_, hsame | ⟨hmeets, hinside, hcut⟩⟩
    · left
      rw [hmm, hsame]
      exact unlock_eq mm hformed.unlocked
    · right
      refine ⟨p, rfl, hmeets, hinside, ?_⟩
      rw [hmm, hcut]
      exact unlock_eq (mm.cut p _ _) hformed.unlocked

theorem vmmFindVma_locked (h : mm.locked = true) (fuel addr : Nat) :
    vmmFindVma fuel mm addr = none := by
  unfold vmmFindVma spinLock
  rw [if_pos h]
  rfl

theorem sub32_zero {n : Nat} (h : n < 2 ^ 32) : sub32 n 0 = n := by
  unfold sub32
  omega

/-- A body that changes something when a test succeeds. -/
theorem overRange_update
    {body : Nat -> Nat -> Mm -> Nat -> Option (Mm × Option Nat)}
    {test : Nat -> Nat -> Mm -> Nat -> Prop}
    {update : Nat -> Nat -> Mm -> Nat -> Mm}
    [forall start stop mm p, Decidable (test start stop mm p)]
    (hformed : Formed mm ps)
    (h : overRange body fuel mm addr size = some (res, mm'))
    (hbody : forall start stop mm p, body start stop mm p =
      if test start stop mm p then some (update start stop mm p, none)
      else some (mm, none))
    (htest : forall start stop mm p,
      test start stop { mm with locked := true } p -> test start stop mm p)
    (hupdate : forall start stop mm p,
      update start stop { mm with locked := true } p =
        { update start stop mm p with locked := true } ∧
      (update start stop mm p).links = mm.links ∧
      (update start stop mm p).mmap = mm.mmap ∧
      (update start stop mm p).locked = mm.locked) :
    mm' = mm ∨ exists p, ps = [p] ∧
      test (alignDown addr) (rangeEnd addr size) mm p ∧
      mm' = update (alignDown addr) (rangeEnd addr size) mm p := by
  have hlocal : forall start stop, Local (body start stop) := by
    intro start stop mm p mm' next hlocked h
    rcases hupdate start stop mm p with ⟨_, hlinks, hmmap, hsame⟩
    rw [hbody] at h
    split at h
    case isTrue hif =>
      cases h
      exact ⟨rfl, hlinks, hmmap, hsame.trans hlocked⟩
    case isFalse hif =>
      cases h
      exact ⟨rfl, rfl, rfl, hlocked⟩
  rcases overRange_some hlocal hformed h with
    ⟨_, _, hsame⟩ | ⟨_, _, _, ⟨_, hsame⟩ | ⟨p, mm1, hp, hres, hmm⟩⟩
  · exact Or.inl hsame
  · exact Or.inl hsame
  · rw [hbody] at hres
    split at hres
    case isTrue hif =>
      cases hres
      right
      refine ⟨p, hp, htest _ _ _ _ hif, ?_⟩
      rcases hupdate (alignDown addr) (rangeEnd addr size) mm p with
        ⟨hlock, _, _, hlocked⟩
      rw [hmm]
      unfold rangeEnd at hlock hlocked ⊢
      rw [hlock]
      exact unlock_eq _ (hlocked.trans hformed.unlocked)
    case isFalse hif =>
      cases hres
      left
      rw [hmm]
      exact unlock_eq mm hformed.unlocked

section

variable (hformed : Formed mm ps)
include hformed

theorem vmmMprotect_some
    (h : vmmMprotect fuel mm addr size prot = some (res, mm')) :
    mm' = mm ∨ exists p, ps = [p] ∧
      (mm.vma p).Meets (alignDown addr) (rangeEnd addr size) ∧
      mm' = mm.setVma p
        { mm.vma p with flags := mprotectFlags (mm.vma p).flags prot } :=
  overRange_update hformed h (fun _ _ _ _ => rfl) (fun _ _ _ _ h => h)
    (fun _ _ _ _ => ⟨rfl, rfl, rfl, rfl⟩)

theorem vmmMlock_some (h : vmmMlock fuel mm addr size = some (res, mm')) :
    mm' = mm ∨ exists p, ps = [p] ∧
      ((mm.vma p).Meets (alignDown addr) (rangeEnd addr size) ∧
        ¬ has (mm.vma p).flags vmLocked) ∧
      mm' = { mm.setVma p
          { mm.vma p with flags := (mm.vma p).flags ||| vmLocked } with
        lockedVm := add32 mm.lockedVm ((mm.vma p).overlap (alignDown addr)
          (rangeEnd addr size) / pageSize) } :=
  overRange_update hformed h (fun _ _ _ _ => rfl) (fun _ _ _ _ h => h)
    (fun _ _ _ _ => ⟨rfl, rfl, rfl, rfl⟩)

theorem vmmMunlock_some (h : vmmMunlock fuel mm addr size = some (res, mm')) :
    mm' = mm ∨ exists p, ps = [p] ∧
      ((mm.vma p).Meets (alignDown addr) (rangeEnd addr size) ∧
        has (mm.vma p).flags vmLocked) ∧
      mm' = { mm.setVma p
          { mm.vma p with flags := without (mm.vma p).flags vmLocked } with
        lockedVm := sub32 mm.lockedVm ((mm.vma p).overlap (alignDown addr)
          (rangeEnd addr size) / pageSize) } :=
  overRange_update hformed h (fun _ _ _ _ => rfl) (fun _ _ _ _ h => h)
    (fun _ _ _ _ => ⟨rfl, rfl, rfl, rfl⟩)

/-- Growing the break waits for a lock that is held. -/
theorem vmmBrk_some {brk : Nat} {res : Except Errno Nat} (hbrk : brk < 2 ^ 32)
    (h : vmmBrk fuel mm brk = some (res, mm')) : mm' = mm := by
  unfold vmmBrk at h
  have hstart : ¬ brk < mm.startBrk := by
    rw [hformed.startBrk]
    exact Nat.not_lt_zero _
  rw [if_neg hstart] at h
  rw [hformed.spinLock, Option.bind_eq_bind, Option.bind_some] at h
  have hold : sub32 mm.brk mm.startBrk = 0 := by
    rw [hformed.startBrk, hformed.brk]
    exact sub32_zero (by decide)
  have hnew : sub32 brk mm.startBrk = brk := by
    rw [hformed.startBrk]
    exact sub32_zero hbrk
  simp only [hold, hnew] at h
  by_cases hgrow : brk > 0
  · rw [if_pos hgrow] at h
    unfold brkGrow at h
    rw [vmmFindVma_locked rfl] at h
    cases h
  · have hzero : brk = 0 := by omega
    rw [if_neg hgrow, if_neg (Nat.not_lt_zero _)] at h
    cases h
    rw [hzero]
    show { mm with locked := false, brk := 0 } = mm
    rw [← hformed.unlocked, ← hformed.brk]

end

theorem findLoop_some {p : Nat} {res : Option Nat} (hvisits : Visits mm ps)
    (hp : p ∈ ps) (h : findLoop mm addr fuel p = some (res, mm')) :
    (exists q, q ∈ ps ∧ res = some q ∧ (mm.vma q).Has addr ∧
      mm' = { mm with mmapCache := some q }) ∨
    res = none ∧ mm' = mm ∧ ps.length <= 1 := by
  induction fuel generalizing p with
  | zero => cases h
  | succ fuel ih =>
    unfold findLoop at h
    by_cases hhas : (mm.vma p).Has addr
    · rw [if_pos hhas] at h
      cases h
      exact Or.inl ⟨p, hp, rfl, hhas, rfl⟩
    · rcases hvisits.next hp with ⟨q, hq, hmem, hself⟩
      rw [if_neg hhas, hq, Option.bind_eq_bind, Option.bind_some] at h
      split at h
      case isTrue heq =>
        cases h
        rw [hself heq]
        exact Or.inr ⟨rfl, rfl, Nat.le_refl _⟩
      case isFalse heq => exact ih hmem h

theorem vmmFindVma_some {res : Option Nat} (hformed : Formed mm ps)
    (h : vmmFindVma fuel mm addr = some (res, mm')) :
    (exists cache, mm' = { mm with mmapCache := cache } ∧
      forall p, cache = some p -> p ∈ ps) ∧
    (forall p, res = some p -> p ∈ ps ∧ (mm.vma p).Has addr) ∧
    (res = none -> ps.length <= 1) := by
  unfold vmmFindVma at h
  rw [hformed.spinLock, Option.bind_eq_bind, Option.bind_some] at h
  have hback := unlock_eq mm hformed.unlocked
  have hvisits : Visits { mm with locked := true } ps :=
    hformed.visits.congr rfl fun _ _ => rfl
  split at h
  case h_1 hnone =>
    cases h
    refine ⟨⟨_, hback, hformed.cache⟩, nofun, fun _ => ?_⟩
    cases ps with
    | nil => exact Nat.zero_le _
    | cons first rest => cases hnone.symm.trans hvisits.left
  case h_2 first hfirst =>
    split at h
    case h_1 p hcached =>
      cases h
      refine ⟨⟨_, hback, hformed.cache⟩, ?_, nofun⟩
      rintro q ⟨⟩
      unfold cached at hcached
      rw [Option.filter_eq_some_iff, decide_eq_true_eq] at hcached
      exact ⟨hformed.cache p hcached.left, hcached.right⟩
    case h_2 hcached =>
      rcases Option.bind_eq_some_iff.mp h with ⟨⟨r, mm2⟩, hloop, h⟩
      cases h
      rcases findLoop_some hvisits (hvisits.first_mem hfirst) hloop with
        ⟨q, hq, rfl, hhas, rfl⟩ | ⟨rfl, rfl, hlength⟩
      · refine ⟨⟨some q, ?_, ?_⟩, ?_, nofun⟩
        · exact unlock_eq { mm with mmapCache := some q } hformed.unlocked
        · rintro p ⟨⟩
          exact hq
        · rintro p ⟨⟩
          exact ⟨hq, hhas⟩
      · exact ⟨⟨_, hback, hformed.cache⟩, nofun, fun _ => hlength⟩

theorem alignUp_lt (x : Nat) : alignUp x < 2 ^ 32 :=
  Nat.lt_of_le_of_lt (alignDown_le _) (Nat.mod_lt _ (by decide))

theorem alignUp_of_mod (h : x % pageSize = 0) (hlt : x < 2 ^ 32) :
    alignUp x = x := by
  unfold alignUp alignDown pageSize
  unfold pageSize at h
  omega

theorem mmapPlace_mod (addr flags : Nat) :
    mmapPlace addr flags % pageSize = 0 := by
  unfold mmapPlace
  split
  case isTrue h => decide
  case isFalse h => exact alignDown_mod _

theorem mmapPlace_lt (haddr : addr < 2 ^ 32) (flags : Nat) :
    mmapPlace addr flags < 2 ^ 32 := by
  unfold mmapPlace
  split
  case isTrue h => decide
  case isFalse h => exact Nat.lt_of_le_of_lt (alignDown_le _) haddr

theorem vmmMmap_some {res : Nat} (hformed : Formed mm ps)
    (haddr : addr < 2 ^ 32)
    (h : vmmMmap fuel mm addr size prot flags = some (res, mm')) :
    (res = 0 ∧ exists mem, mm' = { mm with mem := mem }) ∨
      res = mmapPlace addr flags ∧ alignUp size ≠ 0 ∧ exists mm1 ps',
        Created mm ps (mmapPlace addr flags) (alignUp size)
          (mmapFlags prot flags) mm1 ps' ∧
        mm' = mm1.charge (mmapFlags prot flags) (alignUp size) := by
  unfold vmmMmap at h
  by_cases hsize : size = 0
  · rw [if_pos hsize] at h
    cases h
    exact Or.inl ⟨rfl, mm.mem, rfl⟩
  · simp only [if_neg hsize] at h
    rcases Option.bind_eq_some_iff.mp h with ⟨⟨r, mm1⟩, hcreate, h⟩
    rcases vmmCreateVma_some hformed hcreate with
      ⟨rfl, mem, hmem⟩ | ⟨rfl, hpos, ps', hcreated⟩
    · cases h
      exact Or.inl ⟨rfl, mem, hmem⟩
    · cases h
      rw [alignUp_of_mod (mmapPlace_mod addr flags)
        (mmapPlace_lt haddr flags),
        alignUp_of_mod (alignUp_mod size) (alignUp_lt size)] at hcreated
      exact Or.inr ⟨rfl, hpos, mm1, ps', hcreated, rfl⟩

/-!
## Moving a mapping

The calls that `vmm_mremap` is made of keep a property when each of them does,
under a condition on the area that is left.
-/

def UnmapOk (CutOk : Vma -> Nat -> Nat -> Prop) (mm : Mm) (addr size : Nat) :
    Prop :=
  forall p, Visits mm [p] ->
    CutOk (mm.vma p) (alignDown addr) (rangeEnd addr size)

/-- A property that the parts of `vmm_mremap` keep. -/
structure Rules (CutOk : Vma -> Nat -> Nat -> Prop)
    (Good : Mm -> List Nat -> Prop) : Prop where
  formed : forall {mm ps}, Good mm ps -> Formed mm ps
  cache : forall {mm ps cache}, Good mm ps ->
    (forall p, cache = some p -> p ∈ ps) ->
    Good { mm with mmapCache := cache } ps
  mem : forall {mm ps mem}, Good mm ps -> Good { mm with mem := mem } ps
  cut : forall {mm p start stop}, Good mm [p] ->
    start % pageSize = 0 -> stop % pageSize = 0 ->
    CutOk (mm.vma p) start stop -> (mm.vma p).Meets start stop ->
    ¬ (mm.vma p).Inside start stop -> Good (mm.cut p start stop) [p]
  shrink : forall {mm p start stop}, Good mm [p] ->
    start % pageSize = 0 -> stop % pageSize = 0 ->
    CutOk (mm.vma p) start stop -> (mm.vma p).Meets start stop ->
    ¬ (mm.vma p).Inside start stop -> forall start' stop',
    CutOk (mm.vma p) start' stop' ->
    CutOk ((mm.vma p).shrink start stop) start' stop'
  self : forall v, CutOk v v.start v.stop
  new : forall {mm mm' ps' size}, Good mm [] -> alignUp size ≠ 0 ->
    0x10000000 + alignUp size < 2 ^ 32 ->
    Created mm [] 0x10000000 (alignUp size)
      (mmapFlags (protRead ||| protWrite) (mapPrivate ||| mapAnonymous))
      mm' ps' ->
    Good (mm'.charge
      (mmapFlags (protRead ||| protWrite) (mapPrivate ||| mapAnonymous))
      (alignUp size)) ps'

section Remap

variable {CutOk : Vma -> Nat -> Nat -> Prop} {Good : Mm -> List Nat -> Prop}

variable {res addr fuel size newAddr newSize oldAddr oldSize : Nat}
    {mm mm' : Mm} {ps : List Nat} {fixed : Bool}

theorem Rules.munmap (hrules : Rules CutOk Good) {res : Except Errno Unit}
    (hgood : Good mm ps) (hok : UnmapOk CutOk mm addr size)
    (h : vmmMunmap fuel mm addr size = some (res, mm')) :
    Good mm' ps ∧ forall addr' size', UnmapOk CutOk mm addr' size' ->
      UnmapOk CutOk mm' addr' size' := by
  have hformed := hrules.formed hgood
  rcases vmmMunmap_some hformed h with
    ⟨_, rfl⟩ | ⟨_, rfl | ⟨p, rfl, hmeets, hinside, rfl⟩⟩
  · exact ⟨hgood, fun _ _ h => h⟩
  · exact ⟨hgood, fun _ _ h => h⟩
  · have hcut := hok p hformed.visits
    refine ⟨hrules.cut hgood (alignDown_mod _) (rangeEnd_mod _ _) hcut hmeets
      hinside, ?_⟩
    intro addr' size' hok' q hq
    have hvisits : Visits mm [q] := hq.congr rfl fun _ _ => rfl
    cases hvisits.unique hformed.visits
    have hvma : (mm.cut p (alignDown addr) (rangeEnd addr size)).vma p =
        (mm.vma p).shrink (alignDown addr) (rangeEnd addr size) :=
      update_self ..
    rw [hvma]
    exact hrules.shrink hgood (alignDown_mod _) (rangeEnd_mod _ _) hcut hmeets
      hinside _ _ (hok' p hformed.visits)

theorem vmmMunmap_none {res : Except Errno Unit} (hformed : Formed mm ps)
    (hlength : 2 <= ps.length) (haddr : addr ≠ 0) (hsize : size ≠ 0) :
    vmmMunmap fuel mm addr size ≠ some (res, mm') := by
  intro h
  rcases vmmMunmap_some hformed h with ⟨hzero, _⟩ | ⟨hle, _⟩
  · exact absurd hzero (not_or.mpr ⟨haddr, hsize⟩)
  · omega

def RemapNewOk (CutOk : Vma -> Nat -> Nat -> Prop) (mm : Mm)
    (oldAddr oldSize newSize : Nat) (fixed : Bool) (newAddr : Nat) : Prop :=
  if fixed then
    UnmapOk CutOk mm newAddr newSize ∧ UnmapOk CutOk mm oldAddr oldSize
  else
    mm.mmap = none -> 0x10000000 + newSize < 2 ^ 32 ∧
      CutOk {
        start := 0x10000000
        stop := 0x10000000 + newSize
        flags := mmapFlags (protRead ||| protWrite)
          (mapPrivate ||| mapAnonymous) }
        (alignDown oldAddr) (rangeEnd oldAddr oldSize)

/-- The end of `vmm_mremap`, once there is a new mapping. -/
def unmapOld (fuel : Nat) (mm : Mm) (oldAddr oldSize newSize newAddr : Nat) :
    Option (Nat × Mm) :=
  if newAddr = 0 then some (0, mm)
  else do
    match <- vmmMunmap fuel mm oldAddr oldSize with
    | (Except.ok _, mm) => return (newAddr, mm)
    | (Except.error _, mm) =>
        let (_, mm) <- vmmMunmap fuel mm newAddr newSize
        return (0, mm)

theorem Rules.unmapOld (hrules : Rules CutOk Good) (hgood : Good mm ps)
    (hold : UnmapOk CutOk mm oldAddr oldSize)
    (hnew : UnmapOk CutOk mm newAddr newSize)
    (h : unmapOld fuel mm oldAddr oldSize newSize newAddr = some (res, mm')) :
    Good mm' ps := by
  unfold Vmm.unmapOld at h
  split at h
  case isTrue hzero =>
    cases h
    exact hgood
  case isFalse hzero =>
    rcases Option.bind_eq_some_iff.mp h with ⟨⟨r, mm1⟩, hunmap, h⟩
    rcases hrules.munmap hgood hold hunmap with ⟨hgood1, hkeep⟩
    cases r with
    | ok u =>
      cases h
      exact hgood1
    | error e =>
      rcases Option.bind_eq_some_iff.mp h with ⟨⟨r', mm2⟩, hunmap', h⟩
      cases h
      exact (hrules.munmap hgood1 (hkeep _ _ hnew) hunmap').left

theorem unmapOld_none (hformed : Formed mm ps) (hlength : 2 <= ps.length)
    (haddr : newAddr ≠ 0) (hsize : newSize ≠ 0) :
    unmapOld fuel mm oldAddr oldSize newSize newAddr ≠ some (res, mm') := by
  intro h
  unfold unmapOld at h
  rw [if_neg haddr] at h
  rcases Option.bind_eq_some_iff.mp h with ⟨⟨r, mm1⟩, hunmap, h⟩
  rcases vmmMunmap_some hformed hunmap with ⟨hzero, hsame⟩ | ⟨hle, _⟩
  · cases r with
    | ok u =>
      rcases overRange_some local_unmapBody hformed hunmap with
        ⟨_, hres, _⟩ | ⟨hne, hne', _⟩
      · cases hres
      · exact absurd hzero (not_or.mpr ⟨hne, hne'⟩)
    | error e =>
      rcases Option.bind_eq_some_iff.mp h with ⟨⟨r', mm2⟩, hunmap', _⟩
      rw [hsame] at hunmap'
      exact vmmMunmap_none hformed hlength haddr hsize hunmap'
  · omega

theorem add32_of_lt {a b : Nat} (h : a + b < 2 ^ 32) : add32 a b = a + b :=
  Nat.mod_eq_of_lt h

theorem Rules.remapNew (hrules : Rules CutOk Good) (hgood : Good mm ps)
    (hsize : alignUp newSize = newSize) (hpos : newSize ≠ 0)
    (hok : RemapNewOk CutOk mm oldAddr oldSize newSize fixed newAddr)
    (h : remapNew fuel mm oldAddr oldSize newSize fixed newAddr =
      some (res, mm')) : exists ps', Good mm' ps' := by
  rcases Option.bind_eq_some_iff.mp h with ⟨⟨target, mm1⟩, htarget, h⟩
  unfold remapTarget at htarget
  unfold RemapNewOk at hok
  cases fixed with
  | true =>
    rw [if_pos rfl] at htarget hok
    split at htarget
    case isTrue hzero =>
      cases htarget
      cases h
      exact ⟨ps, hgood⟩
    case isFalse hzero =>
      rcases Option.bind_eq_some_iff.mp htarget with ⟨⟨r, mm2⟩, hunmap, htarget⟩
      rcases hrules.munmap hgood hok.left hunmap with ⟨hgood1, hkeep⟩
      cases r with
      | ok u =>
        cases htarget
        exact ⟨ps, hrules.unmapOld hgood1 (hkeep _ _ hok.right)
          (hkeep _ _ hok.left) h⟩
      | error e =>
        cases htarget
        cases h
        exact ⟨ps, hgood1⟩
  | false =>
    have hformed := hrules.formed hgood
    rcases vmmMmap_some hformed (by decide) htarget with
      ⟨rfl, mem, rfl⟩ | ⟨rfl, hne, mm2, ps', hcreated, rfl⟩
    · cases h
      exact ⟨ps, hrules.mem hgood⟩
    · have hplace : mmapPlace 0 (mapPrivate ||| mapAnonymous) =
          0x10000000 := by
        decide
      rw [hplace] at hcreated h
      cases ps with
      | nil =>
        rcases hok hformed.visits with ⟨hlt, hcut⟩
        have hgood1 := hrules.new hgood hne (by rw [hsize]; exact hlt)
          hcreated
        have hvma := hcreated.vma
        rw [hsize, add32_of_lt hlt] at hvma
        have hps' : ps' = [mm.heap] :=
          perm_singleton.mp hcreated.inserted.perm
        subst hps'
        -- the new area is the only one
        have honly : forall q, Visits (mm2.charge (mmapFlags
            (protRead ||| protWrite) (mapPrivate ||| mapAnonymous))
              (alignUp newSize)) [q] -> q = mm.heap := by
          intro q hq
          cases hq.unique (hrules.formed hgood1).visits
          rfl
        refine ⟨_, hrules.unmapOld hgood1 ?_ ?_ h⟩
        · intro q hq
          rw [honly q hq]
          show CutOk (mm2.vma mm.heap) _ _
          rw [hvma, update_self]
          exact hcut
        · intro q hq
          rw [honly q hq]
          show CutOk (mm2.vma mm.heap) _ _
          have hend : rangeEnd 0x10000000 newSize =
              0x10000000 + newSize := by
            unfold rangeEnd
            rw [hsize]
            exact add32_of_lt hlt
          have hstart : alignDown 0x10000000 = 0x10000000 := by decide
          rw [hvma, update_self, hend, hstart]
          exact hrules.self _
      | cons first rest =>
        have hformed2 := hcreated.formed
        have hlength := hcreated.inserted.perm.length_eq
        rw [length_cons, length_cons] at hlength
        have hformed3 : Formed (mm2.charge (mmapFlags
            (protRead ||| protWrite) (mapPrivate ||| mapAnonymous))
              (alignUp newSize)) ps' :=
          hformed2.congr hformed2.cache
        have haddr : (0x10000000 : Nat) ≠ 0 := by decide
        exact absurd h (unmapOld_none hformed3 (by omega) haddr hpos)

def RemapOk (CutOk : Vma -> Nat -> Nat -> Prop) (mm : Mm)
    (oldAddr oldSize newSize : Nat) (fixed : Bool) (newAddr : Nat) : Prop :=
  (newSize < oldSize ->
    UnmapOk CutOk mm (add32 oldAddr newSize) (oldSize - newSize)) ∧
  (oldSize < newSize -> oldAddr + newSize < 2 ^ 32 ∧
    RemapNewOk CutOk mm oldAddr oldSize newSize fixed newAddr)

theorem unmapOk_cache {cache : Option Nat} (h : UnmapOk CutOk mm addr size) :
    UnmapOk CutOk { mm with mmapCache := cache } addr size := by
  intro p hp
  exact h p (hp.congr rfl fun _ _ => rfl)

theorem remapNewOk_cache (cache : Option Nat)
    (h : RemapNewOk CutOk mm oldAddr oldSize newSize fixed newAddr) :
    RemapNewOk CutOk { mm with mmapCache := cache } oldAddr oldSize newSize
      fixed newAddr := by
  cases fixed with
  | true => exact ⟨unmapOk_cache h.left, unmapOk_cache h.right⟩
  | false => exact h

theorem expandable_none {found res : Option Nat} {oldEnd newEnd : Nat}
    (hformed : Formed mm ps) (hlength : ps.length <= 1)
    (hfound : forall p, found = some p -> p ∈ ps) (hnew : oldAddr < newEnd)
    (h : expandable mm found oldAddr oldEnd newEnd = some res) :
    res = none := by
  unfold expandable at h
  cases found with
  | none =>
    cases h
    rfl
  | some p =>
    simp only at h
    split at h
    case isTrue hout =>
      cases h
      rfl
    case isFalse hout =>
      have hp := hfound p rfl
      rcases hformed.visits.next hp with ⟨q, hq, hmem, _⟩
      -- the area after the only one is that area itself
      have heq : q = p := by
        match ps, hlength, hp, hmem with
        | [x], _, hp, hmem => rw [mem_singleton.mp hp, mem_singleton.mp hmem]
      have hstart : (mm.vma q).start < newEnd := by
        rw [heq]
        omega
      rw [hq, Option.bind_eq_bind, Option.bind_some, if_pos hstart] at h
      cases h
      rfl

theorem Rules.remapGrow (hrules : Rules CutOk Good) (hgood : Good mm ps)
    (hsize : alignUp newSize = newSize) (hpos : newSize ≠ 0)
    (hlt : oldAddr + newSize < 2 ^ 32)
    (hok : RemapNewOk CutOk mm oldAddr oldSize newSize fixed newAddr)
    (h : remapGrow fuel mm oldAddr oldSize newSize fixed newAddr =
      some (res, mm')) : exists ps', Good mm' ps' := by
  rcases Option.bind_eq_some_iff.mp h with ⟨⟨found, mm1⟩, hfind, h⟩
  rcases vmmFindVma_some (hrules.formed hgood) hfind with
    ⟨⟨cache, rfl, hcache⟩, hfound, hmissed⟩
  have hgood1 := hrules.cache hgood hcache
  have hok1 := remapNewOk_cache cache hok
  cases found with
  | some p =>
    have hstart : ¬ (mm.vma p).start > add32 oldAddr oldSize := by
      have hhas := (hfound p rfl).right
      exact Nat.not_lt.mpr hhas.left
    simp only [decide_eq_true_eq, if_neg hstart] at h
    exact hrules.remapNew hgood1 hsize hpos hok1 h
  | none =>
    rcases Option.bind_eq_some_iff.mp h with ⟨⟨found', mm2⟩, hfind', h⟩
    have hformed1 := hrules.formed hgood1
    rcases vmmFindVma_some hformed1 hfind' with
      ⟨⟨cache', rfl, hcache'⟩, hfound', _⟩
    have hgood2 := hrules.cache hgood1 hcache'
    rcases Option.bind_eq_some_iff.mp h with ⟨target, hexpand, h⟩
    have hnew : oldAddr < add32 oldAddr newSize := by
      rw [add32_of_lt hlt]
      omega
    have hnone := expandable_none (hrules.formed hgood2) (hmissed rfl)
      (fun p hp => (hfound' p hp).left) hnew hexpand
    rw [hnone] at h
    exact hrules.remapNew hgood2 hsize hpos (remapNewOk_cache cache' hok1) h

theorem Rules.mremap (hrules : Rules CutOk Good) (hgood : Good mm ps)
    (hok : RemapOk CutOk mm (alignDown oldAddr) (alignUp oldSize)
      (alignUp newSize) fixed (alignDown newAddr))
    (h : vmmMremap fuel mm oldAddr oldSize newSize fixed newAddr =
      some (res, mm')) : exists ps', Good mm' ps' := by
  unfold vmmMremap at h
  by_cases hzero : oldAddr = 0 ∨ oldSize = 0 ∨ newSize = 0
  · rw [if_pos hzero] at h
    cases h
    exact ⟨ps, hgood⟩
  · simp only [if_neg hzero] at h
    split at h
    case isTrue hsame =>
      cases h
      exact ⟨ps, hgood⟩
    case isFalse hsame =>
      split at h
      case isTrue hless =>
        rcases Option.bind_eq_some_iff.mp h with ⟨⟨r, mm1⟩, hunmap, h⟩
        have hgood1 := (hrules.munmap hgood (hok.left hless) hunmap).left
        cases r
        all_goals
          cases h
          exact ⟨ps, hgood1⟩
      case isFalse hless =>
        have hgrow : alignUp oldSize < alignUp newSize := by omega
        rcases hok.right hgrow with ⟨hlt, hnew⟩
        exact hrules.remapGrow hgood
          (alignUp_of_mod (alignUp_mod newSize) (alignUp_lt newSize))
          (by omega) hlt hnew h

end Remap

/-!
## Runs
-/

inductive Call where
  | mmap (addr size prot flags : UInt32)
  | munmap (addr size : UInt32)
  | brk (brk : UInt32)
  | mprotect (addr size prot : UInt32)
  | mremap (oldAddr oldSize newSize : UInt32) (fixed : Bool) (newAddr : UInt32)
  | mlock (addr size : UInt32)
  | munlock (addr size : UInt32)

def step (fuel : Nat) (mm : Mm) : Call -> Option Mm
  | Call.mmap addr size prot flags =>
      (vmmMmap fuel mm addr.toNat size.toNat prot.toNat flags.toNat).map
        Prod.snd
  | Call.munmap addr size =>
      (vmmMunmap fuel mm addr.toNat size.toNat).map Prod.snd
  | Call.brk brk => (vmmBrk fuel mm brk.toNat).map Prod.snd
  | Call.mprotect addr size prot =>
      (vmmMprotect fuel mm addr.toNat size.toNat prot.toNat).map Prod.snd
  | Call.mremap oldAddr oldSize newSize fixed newAddr =>
      (vmmMremap fuel mm oldAddr.toNat oldSize.toNat newSize.toNat fixed
        newAddr.toNat).map Prod.snd
  | Call.mlock addr size =>
      (vmmMlock fuel mm addr.toNat size.toNat).map Prod.snd
  | Call.munlock addr size =>
      (vmmMunlock fuel mm addr.toNat size.toNat).map Prod.snd

/-- The states that calls which meet a condition lead to. -/
inductive Reachable (Ok : Mm -> Call -> Prop) : Mm -> Prop where
  | create (vma : Nat -> Vma) (links : Links Nat) (mem : List Bool) :
      Reachable Ok (vmmCreateMm vma links mem)
  | call {mm mm' : Mm} {call : Call} {fuel : Nat} : Reachable Ok mm ->
      Ok mm call -> step fuel mm call = some mm' -> Reachable Ok mm'

end Vmm
end Horizon
