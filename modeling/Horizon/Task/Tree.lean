import Mathlib.Data.List.Nodup
import Horizon.Lib.LinkedList
import Horizon.Lib.Transition
import Horizon.Types

/-!
# The tree of tasks

`task_init`, `task_create` and `task_destroy` of `task.c`.  A task is an address;
its links in the task list and in the list of its parent's children, and the
head of the list of its own children, are nodes of one heap of links.  The
fields that no list depends on and the resources that are freed with a task are
left out.
-/

namespace Horizon
namespace Tasks

open Function List LinkedList Transition

/-!
## The calls
-/

inductive Node where
  | taskList
  | children (task : Nat)
  | sibling (task : Nat)
  | tasks (task : Nat)
deriving DecidableEq

structure Task where
  pid : Nat
  ppid : Nat
  parent : Nat
  realParent : Nat
  groupLeader : Nat

/--
The variables of `task.c`, with `none` for an idle task that could not be
allocated; `live` records the tasks that were made and not freed, the last
one first.
-/
structure State where
  links : Links Node
  task : Nat -> Task
  current : Nat
  nextPid : Nat
  idle : List (Option Nat)
  live : List Nat

def initTask : Nat := 0

def listInits (L : Links Node) (t : Nat) : Links Node :=
  listInit (listInit (listInit L (.children t)) (.sibling t)) (.tasks t)

/-- One round of the loop over the idle tasks. -/
def idleInit (s : State) : Option Nat -> State
  | none => s
  | some t =>
      { s with
        links := listInits s.links t
        task := update s.task t ⟨0, 0, initTask, initTask, t⟩ }

/-- What the memory holds before, and what `kmalloc` returns for each CPU. -/
def taskInit (L : Links Node) (task : Nat -> Task)
    (idle : List (Option Nat)) : Option State := do
  let L := listInits (listInit L .taskList) initTask
  let L <- listAdd L (.tasks initTask) .taskList
  return idle.foldl idleInit {
    links := L
    task := update task initTask ⟨0, 0, initTask, initTask, initTask⟩
    current := initTask
    nextPid := 1
    idle := idle
    live := [initTask] }

/-- `mem` is what `kmalloc` returns. -/
def taskCreate (s : State) (mem : Option Nat) :
    Option (Option Nat × State) :=
  match mem with
  | none => some (none, s)
  | some t => do
      let L := listInits s.links t
      let L <- listAdd L (.sibling t) (.children s.current)
      let L <- listAdd L (.tasks t) .taskList
      return (some t, {
        s with
        links := L
        task := update s.task t {
          pid := s.nextPid
          ppid := (s.task s.current).pid
          parent := s.current
          realParent := s.current
          groupLeader := t }
        nextPid := (s.nextPid + 1) % 2 ^ 32
        live := t :: s.live })

def taskDestroy (s : State) (task : Option Nat) : Option (Int × State) :=
  match task with
  | none => some (-Errno.einval, s)
  | some t =>
      if t = s.current then some (-Errno.ebusy, s)
      else if t = initTask then some (-Errno.eperm, s)
      else if some t ∈ s.idle then some (-Errno.eperm, s)
      else do
        let L <- listDel s.links (.tasks t)
        let L <- listDel L (.sibling t)
        return (0, { s with links := L, live := s.live.erase t })

/-!
## Runs
-/

inductive Step where
  | create (mem : Option Nat)
  | destroy (task : Option Nat)
  | switch (task : Nat)

def next (s : State) : Step -> Option State
  | .create mem => (taskCreate s mem).map Prod.snd
  | .destroy task => (taskDestroy s task).map Prod.snd
  | .switch task => some { s with current := task }

/-- After `task_init`; the memory of idle tasks is not that of `init_task`. -/
def Start (s : State) : Prop :=
  exists L task idle, taskInit L task idle = some s ∧ some initTask ∉ idle

/--
`kmalloc` returns memory that is not in use, and what is destroyed or made
current is a task.
-/
def Allowed (s : State) : Step -> Prop
  | .create mem => forall t, t ∈ mem -> t ∉ s.live ∧ some t ∉ s.idle
  | .destroy task => forall t, t ∈ task -> t ∈ s.live ∨ some t ∈ s.idle
  | .switch task => task ∈ s.live

def Childless (s : State) : Step -> Prop
  | .destroy task => forall t, t ∈ task ->
      t ≠ s.current -> t ≠ initTask -> some t ∉ s.idle ->
        listEmpty s.links (.children t) = true
  | _ => True

instance (s : State) (step : Step) : Decidable (Allowed s step) :=
  match step with
  | .create mem =>
      inferInstanceAs
        (Decidable (forall t, t ∈ mem -> t ∉ s.live ∧ some t ∉ s.idle))
  | .destroy task =>
      inferInstanceAs
        (Decidable (forall t, t ∈ task -> t ∈ s.live ∨ some t ∈ s.idle))
  | .switch task => inferInstanceAs (Decidable (task ∈ s.live))

instance (s : State) (step : Step) : Decidable (Childless s step) :=
  match step with
  | .create _ => inferInstanceAs (Decidable True)
  | .destroy task =>
      inferInstanceAs (Decidable (forall t, t ∈ task ->
        t ≠ s.current -> t ≠ initTask -> some t ∉ s.idle ->
          listEmpty s.links (.children t) = true))
  | .switch _ => inferInstanceAs (Decidable True)

/--
The lists are what they should be.  `init_task` is the root: it is its own
parent, and on no list of children.
-/
structure Intact (s : State) : Prop where
  listed : Ring s.links .taskList (s.live.map .tasks)
  parent : forall t, t ∈ s.live -> (s.task t).parent ∈ s.live
  realParent : forall t, t ∈ s.live -> (s.task t).realParent ∈ s.live
  children : forall t, t ∈ s.live -> exists kids : List Nat,
    Ring s.links (.children t) (kids.map .sibling) ∧
      forall c, c ∈ kids <-> c ∈ s.live ∧ c ≠ initTask ∧ (s.task c).parent = t

/-!
## The lists
-/

def heads (live : List Nat) : Option { t // t ∈ live } -> Node
  | none => .taskList
  | some t => .children t

def members (live listed : List Nat) (kids : Nat -> List Nat) :
    Option { t // t ∈ live } -> List Node
  | none => listed.map .tasks
  | some t => (kids t).map .sibling

abbrev Lists (L : Links Node) (live listed : List Nat)
    (kids : Nat -> List Nat) : Prop :=
  Rings L (heads live) (members live listed kids)

variable {t : Nat} {live : List Nat} {kids : Nat -> List Nat} {s : State}

theorem listInits_frame {L : Links Node} {n : Node}
    (hchildren : n ≠ .children t) (hsibling : n ≠ .sibling t)
    (htasks : n ≠ .tasks t) : listInits L t n = L n := by
  unfold listInits
  rw [listInit_frame htasks, listInit_frame hsibling, listInit_frame hchildren]

theorem ring_listInits (L : Links Node) (t : Nat) :
    Ring (listInits L t) (.children t) [] := by
  apply (ring_listInit L (.children t)).congr
  intro n hn
  rw [mem_singleton.mp hn]
  unfold listInits
  rw [listInit_frame (by simp), listInit_frame (by simp)]

theorem sibling_ne_heads (t : Nat) :
    forall i, .sibling t ≠ heads live i := by
  rintro (_ | p) <;> simp [heads]

theorem tasks_ne_heads (t : Nat) : forall i, .tasks t ≠ heads live i := by
  rintro (_ | p) <;> simp [heads]

theorem tasks_mem_members {listed : List Nat} {i : Option { t // t ∈ live }} :
    .tasks t ∈ members live listed kids i <-> i = none ∧ t ∈ listed := by
  cases i <;> simp [members]

theorem sibling_mem_members {listed : List Nat} {c : Nat}
    {i : Option { t // t ∈ live }} :
    .sibling c ∈ members live listed kids i <->
      exists t, i = some t ∧ c ∈ kids t := by
  cases i <;> simp [members]

namespace Lists

variable {L : Links Node} {live listed : List Nat} {kids : Nat -> List Nat}

variable {t parent : Nat}

theorem inits (h : Lists L live listed kids) (hlive : t ∉ live)
    (hlisted : t ∉ listed) (hkids : forall p, p ∈ live -> t ∉ kids p) :
    Lists (listInits L t) live listed kids := by
  refine ⟨?_, h.headInj, h.headFresh, h.disjoint⟩
  intro i
  apply (h.ring i).congr
  intro n hn
  have hhead : n ≠ .children t := by
    rintro rfl
    cases i with
    | none => simp [heads, members] at hn
    | some p =>
      simp only [heads, members, mem_cons, Node.children.injEq,
        mem_map, reduceCtorEq, and_false, exists_false, or_false] at hn
      exact hlive (hn ▸ p.2)
  apply listInits_frame hhead
  · rintro rfl
    cases i with
    | none => simp [heads, members] at hn
    | some p =>
      simp only [heads, members, mem_cons, mem_map, reduceCtorEq,
        Node.sibling.injEq, exists_eq_right, false_or] at hn
      exact hkids p p.2 hn
  · rintro rfl
    cases i with
    | none =>
      simp only [heads, members, mem_cons, mem_map, reduceCtorEq,
        Node.tasks.injEq, exists_eq_right, false_or] at hn
      exact hlisted hn
    | some p => simp [heads, members] at hn

theorem join (h : Lists L live listed kids) (hlive : t ∉ live)
    (hring : Ring L (.children t) []) :
    Lists L (t :: live) listed (update kids t []) := by
  have hold : forall p, p ∈ live -> update kids t [] p = kids p := by
    intro p hp
    have hne : p ≠ t := by
      rintro rfl
      exact hlive hp
    exact update_of_ne hne _ _
  have hmem : forall (p : { p // p ∈ t :: live }) c,
      c ∈ update kids t [] p -> exists hp : p.1 ∈ live, c ∈ kids p := by
    rintro ⟨p, hp⟩ c hc
    rcases mem_cons.mp hp with rfl | hp
    · rw [update_self] at hc
      cases hc
    · rw [hold p hp] at hc
      exact ⟨hp, hc⟩
  constructor
  · rintro (_ | ⟨p, hp⟩)
    · exact h.ring none
    · rcases mem_cons.mp hp with rfl | hp
      · simp only [heads, members, update_self]
        exact hring
      · simp only [heads, members, hold p hp]
        exact h.ring (some ⟨p, hp⟩)
  · rintro (_ | ⟨p, hp⟩) (_ | ⟨q, hq⟩) heq
    · rfl
    · cases heq
    · cases heq
    · cases heq
      rfl
  · rintro (_ | p) (_ | q) <;> simp [heads, members]
  · rintro (_ | p) (_ | q) n hp hq
    · rfl
    all_goals
      simp only [members, mem_map] at hp hq
      rcases hp with ⟨c, hcp, rfl⟩
    · simp at hq
    · simp at hq
    · rcases hq with ⟨c', hcq, heq⟩
      cases heq
      rcases hmem p c hcp with ⟨hp, hcp⟩
      rcases hmem q c hcq with ⟨hq, hcq⟩
      have hone := h.disjoint (some ⟨p, hp⟩) (some ⟨q, hq⟩) (.sibling c)
        (mem_map_of_mem hcp) (mem_map_of_mem hcq)
      simp only [Option.some.injEq, Subtype.mk.injEq] at hone
      rw [Subtype.ext hone]

theorem update_kids {p : Nat} (hp : p ∈ live) (l : List Nat) :
    update (members live listed kids) (some ⟨p, hp⟩)
      (l.map .sibling) = members live listed (update kids p l) := by
  funext i
  match i with
  | none => rfl
  | some ⟨q, hq⟩ =>
    by_cases hqp : q = p
    · subst hqp
      simp [members]
    · simp [members, hqp]

theorem update_listed (l : List Nat) :
    update (members live listed kids) none (l.map .tasks) =
      members live l kids := by
  funext i
  cases i <;> rfl

theorem create (h : Lists L live listed kids) (hlive : t ∉ live)
    (hlisted : t ∉ listed) (hkids : forall p, p ∈ live -> t ∉ kids p)
    (hparent : parent ∈ live) :
    exists L1 L2,
      listAdd (listInits L t) (.sibling t) (.children parent) = some L1 ∧
      listAdd L1 (.tasks t) .taskList = some L2 ∧
      Lists L2 (t :: live) (t :: listed) (update
        (update kids t []) parent (t :: kids parent)) := by
  have hne : parent ≠ t := by
    rintro rfl
    exact hlive hparent
  have hparent' : parent ∈ t :: live := mem_cons_of_mem t hparent
  have hjoin := (h.inits hlive hlisted hkids).join hlive (ring_listInits L t)
  have hnew : forall i, .sibling t ∉
      members (t :: live) listed (update kids t []) i := by
    intro i hmem
    rcases sibling_mem_members.mp hmem with ⟨⟨p, hp⟩, _, hc⟩
    rcases mem_cons.mp hp with rfl | hp
    · simp at hc
    · by_cases hpt : p = t
      · exact hlive (hpt ▸ hp)
      · rw [update_of_ne hpt] at hc
        exact hkids p hp hc
  rcases hjoin.listAdd (i := some ⟨parent, hparent'⟩) (sibling_ne_heads t)
    hnew with ⟨L1, hadd, h1⟩
  have hcons : .sibling t :: members (t :: live) listed
      (update kids t []) (some ⟨parent, hparent'⟩) =
      (t :: kids parent).map .sibling := by
    simp [members, hne]
  rw [hcons, update_kids] at h1
  rcases h1.listAdd (i := none) (tasks_ne_heads t)
    (fun i hmem => hlisted (tasks_mem_members.mp hmem).2) with
    ⟨L2, hadd', h2⟩
  have hcons' : forall kids, .tasks t :: members (t :: live) listed kids
      none = (t :: listed).map .tasks := fun _ => rfl
  rw [hcons', update_listed] at h2
  exact ⟨L1, L2, hadd, hadd', h2⟩

theorem restrict (h : Lists L live listed kids) {live' : List Nat}
    (hsub : forall t, t ∈ live' -> t ∈ live) :
    Lists L live' listed kids := by
  let wide : Option { t // t ∈ live' } -> Option { t // t ∈ live } :=
    Option.map fun t => ⟨t, hsub t t.2⟩
  have hinj : forall i j, wide i = wide j -> i = j := by
    rintro (_ | i) (_ | j) heq
    · rfl
    · cases heq
    · cases heq
    · simp only [wide, Option.map_some, Option.some.injEq,
        Subtype.mk.injEq] at heq
      rw [Subtype.ext heq]
  have hheads : (fun i => heads live (wide i)) = heads live' := by
    funext i
    cases i <;> rfl
  have hmembers : (fun i => members live listed kids (wide i)) =
      members live' listed kids := by
    funext i
    cases i <;> rfl
  have hcomp := h.comp wide hinj
  rw [hheads, hmembers] at hcomp
  exact hcomp

theorem destroy (h : Lists L live listed kids) (hlisted : t ∈ listed)
    (hparent : parent ∈ live) (hkid : t ∈ kids parent) :
    exists L1 L2, listDel L (.tasks t) = some L1 ∧
      listDel L1 (.sibling t) = some L2 ∧
      Lists L2 (live.erase t) (listed.erase t)
        (update kids parent ((kids parent).erase t)) := by
  rcases h.listDel (i := none) (tasks_mem_members.mpr ⟨rfl, hlisted⟩) with
    ⟨L1, hdel, h1⟩
  have herase : (members live listed kids none).erase (.tasks t) =
      (listed.erase t).map .tasks :=
    (map_erase (fun _ _ => Node.tasks.inj) listed).symm
  rw [herase, update_listed] at h1
  rcases h1.listDel (i := some ⟨parent, hparent⟩)
    (sibling_mem_members.mpr ⟨_, rfl, hkid⟩) with ⟨L2, hdel', h2⟩
  have herase' : (members live (listed.erase t) kids
      (some ⟨parent, hparent⟩)).erase (.sibling t) =
      ((kids parent).erase t).map .sibling :=
    (map_erase (fun _ _ => Node.sibling.inj) (kids parent)).symm
  rw [herase', update_kids] at h2
  refine ⟨L1, L2, hdel, hdel', ?_⟩
  exact Lists.restrict h2 (fun _ => mem_of_mem_erase)

end Lists

/-!
## The invariant
-/

/-- Who is whose child; `init_task` is the root. -/
structure Family (task : Nat -> Task) (current : Nat) (live : List Nat)
    (kids : Nat -> List Nat) : Prop where
  root : initTask ∈ live
  rootParent : (task initTask).parent = initTask
  real : forall t, t ∈ live -> (task t).realParent = (task t).parent
  parent : forall t, t ∈ live -> (task t).parent ∈ live
  current : current ∈ live
  mem : forall t, t ∈ live -> forall c, c ∈ kids t <->
    c ∈ live ∧ c ≠ initTask ∧ (task c).parent = t

namespace Family

variable {task : Nat -> Task} {current t : Nat} {live : List Nat}
  {kids : Nat -> List Nat}

section

variable (h : Family task current live kids)
include h

theorem idle (ht : t ∉ live) (new : Task) :
    Family (update task t new) current live kids := by
  constructor <;> grind [Family, update_apply]

theorem create (ht : t ∉ live) {new : Task} (hparent : new.parent = current)
    (hreal : new.realParent = current) :
    Family (update task t new) current (t :: live)
      (update (update kids t []) current
        (t :: kids current)) := by
  have hroot := h.root
  have hrootParent := h.rootParent
  have hcurrent := h.current
  constructor <;> grind [Family, update_apply]

theorem destroy (hnodup : live.Nodup)
    (hkids : forall p, p ∈ live -> (kids p).Nodup) (ht : t ∈ live)
    (hcurrent : t ≠ current) (hroot : t ≠ initTask) (hempty : kids t = []) :
    Family task current (live.erase t) (update kids (task t).parent
      ((kids (task t).parent).erase t)) := by
  have hinit := h.root
  have hrootParent := h.rootParent
  have hmem : forall c, c ∈ live.erase t <-> c ≠ t ∧ c ∈ live :=
    fun c => hnodup.mem_erase_iff
  have hmem' : forall p, p ∈ live -> forall c,
      c ∈ (kids p).erase t <-> c ≠ t ∧ c ∈ kids p :=
    fun p hp c => (hkids p hp).mem_erase_iff
  -- no live task has the destroyed one for a parent
  have hno : forall c, c ∈ live -> (task c).parent ≠ t := by
    intro c hc heq
    by_cases hc' : c = initTask
    · rw [hc', hrootParent] at heq
      exact hroot heq.symm
    · have hkid := (h.mem t ht c).mpr ⟨hc, hc', heq⟩
      rw [hempty] at hkid
      cases hkid
  constructor <;> grind [Family, update_apply]

end

end Family

/-- The lists of a state are those of a family. -/
structure Tree (s : State) (kids : Nat -> List Nat) : Prop where
  lists : Lists s.links s.live s.live kids
  family : Family s.task s.current s.live kids

namespace Tree

variable {s s' : State} {kids : Nat -> List Nat} {t : Nat}

section

variable (h : Tree s kids)
include h

theorem listed :
    Ring s.links .taskList (s.live.map .tasks) :=
  h.lists.ring none

theorem ring (ht : t ∈ s.live) :
    Ring s.links (.children t) ((kids t).map .sibling) :=
  h.lists.ring (some ⟨t, ht⟩)

theorem intact : Intact s where
  listed := h.listed
  parent := h.family.parent
  realParent t ht := by
    rw [h.family.real t ht]
    exact h.family.parent t ht
  children t ht := ⟨kids t, h.ring ht, h.family.mem t ht⟩

theorem not_kid (ht : t ∉ s.live) (p : Nat) (hp : p ∈ s.live) : t ∉ kids p :=
  fun hkid => ht ((h.family.mem p hp t).mp hkid).1

theorem idleInit (ht : t ∉ s.live) :
    Tree (Tasks.idleInit s (some t)) kids where
  lists := h.lists.inits ht ht (h.not_kid ht)
  family := h.family.idle ht _

theorem create {mem : Option Nat} (hmem : forall t, t ∈ mem -> t ∉ s.live)
    (hcreate : (taskCreate s mem).map Prod.snd = some s') :
    exists kids', Tree s' kids' := by
  cases mem with
  | none =>
    cases hcreate
    exact ⟨kids, h⟩
  | some t =>
    have ht := hmem t rfl
    rcases h.lists.create ht ht (h.not_kid ht) h.family.current with
      ⟨L1, L2, hadd, hadd', hlists⟩
    simp only [taskCreate, hadd, hadd', Option.bind_eq_bind,
      Option.bind_some, Option.pure_def, Option.map_some,
      Option.some.injEq] at hcreate
    rw [← hcreate]
    exact ⟨_, hlists, h.family.create ht rfl rfl⟩

theorem destroy {task : Option Nat}
    (htask : forall t, t ∈ task -> t ∈ s.live ∨ some t ∈ s.idle)
    (hchildless : Childless s (.destroy task))
    (hdestroy : (taskDestroy s task).map Prod.snd = some s') :
    exists kids', Tree s' kids' := by
  have hsame : some s = some s' -> exists kids', Tree s' kids' := by
    intro heq
    cases heq
    exact ⟨kids, h⟩
  cases task with
  | none => exact hsame hdestroy
  | some t =>
    unfold taskDestroy at hdestroy
    simp only at hdestroy
    split at hdestroy
    · exact hsame hdestroy
    rename_i hcurrent
    split at hdestroy
    · exact hsame hdestroy
    rename_i hroot
    split at hdestroy
    · exact hsame hdestroy
    rename_i hidle
    have ht : t ∈ s.live := (htask t rfl).resolve_right hidle
    have hempty := (h.ring ht).listEmpty_iff.mp
      (hchildless t rfl hcurrent hroot hidle)
    rw [map_eq_nil_iff] at hempty
    have hparent := h.family.parent t ht
    have hkid := (h.family.mem _ hparent t).mpr ⟨ht, hroot, rfl⟩
    rcases h.lists.destroy ht hparent hkid with ⟨L1, L2, hdel, hdel', hlists⟩
    simp only [hdel, hdel', Option.bind_eq_bind, Option.bind_some,
      Option.pure_def, Option.map_some, Option.some.injEq] at hdestroy
    rw [← hdestroy]
    refine ⟨_, hlists, h.family.destroy ?_ ?_ ht hcurrent hroot hempty⟩
    · exact (nodup_cons.mp h.listed.nodup).2.of_map _
    · intro p hp
      exact (nodup_cons.mp (h.ring hp).nodup).2.of_map _

end

end Tree

theorem lists_init (L : Links Node) :
    Lists (listInit L .taskList) [] [] (fun _ => []) := by
  have hnone : forall i : Option { t // t ∈ ([] : List Nat) }, i = none := by
    rintro (_ | ⟨_, ht⟩)
    · rfl
    · cases ht
  constructor
  · intro i
    rw [hnone i]
    exact ring_listInit L .taskList
  · intro i j _
    rw [hnone i, hnone j]
  · intro i j
    rw [hnone j]
    exact not_mem_nil
  · intro i j _ _ _
    rw [hnone i, hnone j]

theorem Tree.idle (h : Tree s kids) {idle : List (Option Nat)}
    (hidle : forall t, t ∈ s.live -> some t ∉ idle) :
    Tree (idle.foldl Tasks.idleInit s) kids := by
  induction idle generalizing s with
  | nil => exact h
  | cons mem idle ih =>
    have hrest : forall t, t ∈ s.live -> some t ∉ idle :=
      fun t ht hmem => hidle t ht (mem_cons_of_mem _ hmem)
    cases mem with
    | none => exact ih h hrest
    | some t =>
      have ht : t ∉ s.live := fun ht => hidle t ht mem_cons_self
      exact ih (h.idleInit ht) hrest

theorem tree_init (h : Start s) : exists kids, Tree s kids := by
  rcases h with ⟨L, task, idle, hinit, hidle⟩
  have hroot := ((lists_init L).inits (t := initTask) not_mem_nil
    not_mem_nil (fun _ h => absurd h not_mem_nil)).join
    not_mem_nil (ring_listInits _ _)
  rcases hroot.listAdd (i := none) (tasks_ne_heads initTask)
    (fun i hmem => not_mem_nil (tasks_mem_members.mp hmem).2) with
    ⟨L', hadd, hlists⟩
  change listAdd _ _ .taskList = some L' at hadd
  simp only [taskInit, hadd, Option.bind_eq_bind, Option.bind_some,
    Option.pure_def, Option.some.injEq] at hinit
  rw [← hinit]
  have hkids : update (fun _ : Nat => ([] : List Nat)) initTask [] =
      fun _ => [] :=
    update_eq_self initTask _
  have hcons : forall kids, .tasks initTask ::
      members [initTask] [] kids none = [initTask].map .tasks := fun _ => rfl
  rw [hcons, Lists.update_listed, hkids] at hlists
  refine ⟨_, Tree.idle ⟨hlists, ?_⟩ ?_⟩
  · constructor <;> simp
  · intro t ht
    rw [mem_singleton.mp ht]
    exact hidle

/-!
## The result
-/

/--
As long as no task is destroyed that has children, the lists are what they
should be in every state.
-/
theorem task_tree_intact {s : State}
    (h : Reachable Start (Guarded
      (fun s step => Allowed s step ∧ Childless s step) next) s) :
    Intact s := by
  have htree : exists kids, Tree s kids := by
    apply h.invariant
    · intro s hs
      exact tree_init hs
    · rintro s step s' ⟨kids, htree⟩ ⟨⟨hallowed, hchildless⟩, hnext⟩
      cases step with
      | create mem => exact htree.create (fun t ht => (hallowed t ht).1) hnext
      | destroy task => exact htree.destroy hallowed hchildless hnext
      | switch task =>
        cases hnext
        exact ⟨kids, htree.lists, { htree.family with current := hallowed }⟩
  rcases htree with ⟨kids, htree⟩
  exact htree.intact

def blank : State where
  links _ := ⟨none, none⟩
  task _ := ⟨0, 0, 0, 0, 0⟩
  current := 0
  nextPid := 0
  idle := []
  live := []

def sample : State := (taskInit blank.links blank.task []).getD blank

theorem start_sample : Start sample :=
  ⟨blank.links, blank.task, [], rfl, not_mem_nil⟩

/-- A child and a grandchild are made, and the grandchild is destroyed. -/
theorem task_tree_intact_run :
    exists s, Transition.run (Transition.guard
        (fun s step => Allowed s step ∧ Childless s step) next) sample
      [.create (some 1), .switch 1, .create (some 2), .switch 0,
        .destroy (some 2)] = some s ∧ Intact s := by
  have hinit : Reachable Start (Guarded
      (fun s step => Allowed s step ∧ Childless s step) next) sample :=
    .init start_sample
  refine ⟨_, rfl, ?_⟩
  exact task_tree_intact (hinit.run_guard [.create (some 1), .switch 1,
    .create (some 2), .switch 0, .destroy (some 2)] rfl)

/-- The child is destroyed before the grandchild. -/
theorem task_tree_orphan :
    exists s, Start sample ∧
      Transition.run (Transition.guard Allowed next) sample
        [.create (some 1), .switch 1, .create (some 2), .switch 0,
          .destroy (some 1)] = some s ∧
      2 ∈ s.live ∧ (s.task 2).parent = 1 ∧ 1 ∉ s.live ∧ ¬ Intact s := by
  refine ⟨_, start_sample, rfl, by decide, rfl, by decide, ?_⟩
  intro h
  have hparent := h.parent 2 (by decide)
  exact absurd hparent (by decide)

end Tasks
end Horizon
