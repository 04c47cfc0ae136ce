import Horizon.Fs.FileTable.Calls
import Mathlib.Data.List.Nodup

/-!
# Files shared by tables

Files have no reference count: a close releases the file at once.  Over any
number of tables that is right as long as a file is closed at the last slot that
refers to it.
-/

namespace Horizon
namespace FileTable

open Function List Transition

/-!
## Slots

What a call does to the slots of a table, whatever its bitmaps are.
-/

structure SlotsOk (t : Files) : Prop where
  slots : t.slots = t.maxFds
  beyond : forall fd, t.maxFds <= fd -> t.fd fd = none

theorem slotsOk_filesAlloc : SlotsOk filesAlloc :=
  ⟨rfl, fun _ _ => rfl⟩

structure SameSlots (t t' : Files) : Prop where
  ok : SlotsOk t'
  fd : t'.fd = t.fd

variable {t t' : Files} {ret newfd oldfd start : Int} {memory cloexec : Bool}
    {i j p fd : Nat} {out : Outcome} {file : File} {slot : Option File}
    {opened : List File}

theorem SlotsOk.grow (h : SlotsOk t) {nfds : Nat}
    (hgrow : grow t nfds = some t') : SameSlots t t' := by
  unfold FileTable.grow at hgrow
  simp only at hgrow
  split at hgrow
  case isTrue hfits =>
    cases hgrow
    have hfd : (fun i => if i < t.maxFds then t.fd i else none) = t.fd := by
      funext i
      by_cases hi : i < t.maxFds
      · exact if_pos hi
      · rw [if_neg hi, h.beyond i (by omega)]
    refine ⟨⟨rfl, ?_⟩, hfd⟩
    intro fd hle
    have hle : nfds <= fd := hle
    show (if fd < t.maxFds then t.fd fd else none) = none
    rw [if_neg (by omega)]
  case isFalse => cases hgrow

theorem SlotsOk.expandFiles (h : SlotsOk t) {nr : Int}
    (hexpand : expandFiles t nr memory = some (ret, t')) : SameSlots t t' := by
  unfold FileTable.expandFiles at hexpand
  split at hexpand
  · cases hexpand
    exact ⟨h, rfl⟩
  · split at hexpand
    · cases hexpand
    · cases memory with
      | false =>
        cases hexpand
        exact ⟨h, rfl⟩
      | true =>
        rcases Option.map_eq_some_iff.mp hexpand with ⟨t'', hgrow, heq⟩
        cases heq
        exact h.grow hgrow

theorem scan_free {rounds start : Nat} (h : scan t rounds start = some fd) :
    t.fd fd = none ∨ start + rounds <= fd := by
  induction rounds generalizing start with
  | zero =>
    cases h
    exact Or.inr (Nat.le_refl _)
  | succ rounds ih =>
    unfold scan at h
    split at h
    · cases hslot : t.fd start with
      | none =>
        simp only [hslot] at h
        cases h
        exact Or.inl hslot
      | some file =>
        simp only [hslot] at h
        rcases ih h with hfree | hend
        · exact Or.inl hfree
        · exact Or.inr (by omega)
    · cases h

theorem SlotsOk.markOpen (h : SlotsOk t)
    (hmark : markOpen t fd cloexec = some t') : SameSlots t t' := by
  unfold FileTable.markOpen at hmark
  split at hmark
  · cases hmark
  · rcases Option.map_eq_some_iff.mp hmark with ⟨b, _, heq⟩
    cases heq
    exact ⟨⟨h.slots, h.beyond⟩, rfl⟩

theorem SameSlots.trans {t'' : Files} (h : SameSlots t t')
    (h' : SameSlots t' t'') : SameSlots t t'' :=
  ⟨h'.ok, h'.fd.trans h.fd⟩

theorem SlotsOk.allocFd (h : SlotsOk t)
    (halloc : allocFd t start cloexec memory = some (ret, t')) :
    SameSlots t t' ∧ (¬ ret < 0 -> t.fd ret.toNat = none) := by
  unfold FileTable.allocFd at halloc
  split at halloc
  · split at halloc
    · cases halloc
    case h_2 hexpand =>
      split at halloc <;> cases halloc
      exact ⟨h.expandFiles hexpand, fun hret => absurd (by decide) hret⟩
  · split at halloc
    · cases halloc
    case h_2 fd hscan =>
      have hfree : t.fd fd = none := by
        rcases scan_free hscan with hfree | hend
        · exact hfree
        · exact h.beyond fd (by omega)
      split at halloc
      · rcases Option.map_eq_some_iff.mp halloc with ⟨t'', hmark, heq⟩
        cases heq
        exact ⟨h.markOpen hmark, fun _ => hfree⟩
      · split at halloc
        · cases halloc
        case h_2 hexpand =>
          have hsame := h.expandFiles hexpand
          split at halloc
          · cases halloc
            exact ⟨hsame, fun hret => absurd (by decide) hret⟩
          · rcases Option.map_eq_some_iff.mp halloc with ⟨t'', hmark, heq⟩
            cases heq
            exact ⟨hsame.trans (hsame.ok.markOpen hmark), fun _ => hfree⟩

structure Writes (t : Files) (p : Nat) (slot : Option File) (out : Outcome) :
    Prop where
  ok : SlotsOk out.files
  fd : out.files.fd = update t.fd p slot
  closed : out.closed = (t.fd p).toList

section

variable (h : SlotsOk t)
include h

theorem SameSlots.writes (hsame : SameSlots t out.files)
    (hclosed : out.closed = []) : Writes t t.maxFds none out := by
  have hend := h.beyond t.maxFds (Nat.le_refl _)
  refine ⟨hsame.ok, ?_, ?_⟩
  · rw [hsame.fd, ← hend, update_eq_self]
  · rw [hclosed, hend]
    rfl

theorem SlotsOk.install (hinstall : install t fd file = some t') :
    SlotsOk t' ∧ t'.fd = update t.fd fd (some file) := by
  unfold FileTable.install at hinstall
  split at hinstall
  case isTrue hlt =>
    cases hinstall
    refine ⟨⟨h.slots, ?_⟩, rfl⟩
    intro i hi
    have hslots := h.slots
    have hle : t.maxFds <= i := hi
    show update t.fd fd (some file) i = none
    rw [update_of_ne (by omega), h.beyond i hle]
  case isFalse => cases hinstall

theorem SlotsOk.openFile
    (hopen : openFile t start cloexec memory file = some out) :
    exists p slot, Writes t p slot out ∧ t.fd p = none ∧
      slot = if out.ret < 0 then none else some file := by
  have hend := h.beyond t.maxFds (Nat.le_refl _)
  unfold FileTable.openFile at hopen
  split at hopen
  · cases hopen
  case h_2 ret t' halloc =>
    rcases h.allocFd halloc with ⟨hsame, hfree⟩
    split at hopen
    · cases hopen
      exact ⟨t.maxFds, none, hsame.writes h rfl, hend, rfl⟩
    case isFalse hret =>
      rcases Option.map_eq_some_iff.mp hopen with ⟨t'', hinstall, heq⟩
      rcases hsame.ok.install hinstall with ⟨hok, hfd⟩
      cases heq
      refine ⟨ret.toNat, some file, ⟨hok, ?_, ?_⟩, hfree hret, ?_⟩
      · rw [hfd, hsame.fd]
      · rw [hfree hret]
        rfl
      · exact (if_neg hret).symm

theorem SlotsOk.freeFd {fd : Int} {closed : List File}
    (hfd : ¬ (fd < 0 ∨ fd >= t.maxFds))
    (hfree : freeFd t fd = some (t', closed)) :
    SlotsOk t' ∧ t'.fd = update t.fd fd.toNat none ∧
      closed = (t.fd fd.toNat).toList := by
  unfold FileTable.freeFd at hfree
  rw [if_neg hfd] at hfree
  split at hfree
  · split at hfree
    · cases hfree
    · rcases Option.map_eq_some_iff.mp hfree with ⟨b, _, heq⟩
      cases heq
      refine ⟨⟨h.slots, ?_⟩, rfl, rfl⟩
      intro i hi
      have hle : t.maxFds <= i := hi
      show update t.fd fd.toNat none i = none
      rw [update_of_ne (by omega), h.beyond i hle]
  · cases hfree

theorem SlotsOk.sysClose {fd : Int} (hclose : sysClose t fd = some out) :
    exists p, Writes t p none out ∧
      (t.fd p ≠ none -> p = fd.toNat ∧ 0 <= fd) := by
  unfold FileTable.sysClose at hclose
  split at hclose
  · cases hclose
    have hsame : SameSlots t (failed t).files := ⟨h, rfl⟩
    exact ⟨t.maxFds, hsame.writes h rfl,
      fun hne => absurd (h.beyond t.maxFds (Nat.le_refl _)) hne⟩
  case isFalse hout =>
    rcases Option.map_eq_some_iff.mp hclose with ⟨res, hfree, heq⟩
    rcases h.freeFd hout hfree with ⟨hok, hfd, hclosed⟩
    cases heq
    exact ⟨fd.toNat, ⟨hok, hfd, hclosed⟩, fun _ => ⟨rfl, by omega⟩⟩

theorem SlotsOk.replace {newfd : Nat}
    (hreplace : replace t newfd file = some out) :
    Writes t newfd (some file) out := by
  have hslots := h.slots
  unfold FileTable.replace at hreplace
  split at hreplace
  case isTrue hlt =>
    split at hreplace
    · cases hreplace
    case h_2 t' closed hfree =>
      have hfreed : SlotsOk t' ∧ t'.fd = update t.fd newfd none ∧
          closed = (t.fd newfd).toList := by
        split at hfree
        case isTrue hnone =>
          cases hfree
          refine ⟨h, ?_, ?_⟩
          · rw [← hnone, update_eq_self]
          · rw [hnone]
            rfl
        case isFalse hnone => exact h.freeFd (by omega) hfree
      rcases hfreed with ⟨hok, hfd, hclosed⟩
      split at hreplace
      · cases hreplace
      case h_2 t'' hinstall =>
        rcases hok.install hinstall with ⟨hok', hfd'⟩
        rcases Option.map_eq_some_iff.mp hreplace with ⟨u, hmark, heq⟩
        have hsame := hok'.markOpen hmark
        cases heq
        refine ⟨hsame.ok, ?_, hclosed⟩
        rw [hsame.fd, hfd', hfd, update_idem]
  case isFalse => cases hreplace

/-- A duplicate is written to a descriptor, or nothing is. -/
theorem SlotsOk.sysDup2 (hdup : sysDup2 t oldfd newfd memory = some out) :
    exists p slot, Writes t p slot out ∧
      (slot = none ∧ t.fd p = none ∨
        slot = slotOf t oldfd ∧ slot ≠ none ∧ p = newfd.toNat ∧ 0 <= newfd ∧
          oldfd ≠ newfd) := by
  have hend := h.beyond t.maxFds (Nat.le_refl _)
  have hnothing (ret : Int) : Writes t t.maxFds none ⟨ret, t, []⟩ :=
    SameSlots.writes h ⟨h, rfl⟩ rfl
  unfold FileTable.sysDup2 at hdup
  split at hdup
  · cases hdup
    exact ⟨t.maxFds, none, hnothing _, Or.inl ⟨rfl, hend⟩⟩
  case isFalse hneg =>
    rw [lookup_eq h.slots] at hdup
    split at hdup
    case h_1 hslot => cases hslot
    case h_2 =>
      cases hdup
      exact ⟨t.maxFds, none, hnothing _, Or.inl ⟨rfl, hend⟩⟩
    case h_3 file hslot =>
      injection hslot with hslot
      by_cases hsame : oldfd = newfd
      · rw [if_pos hsame] at hdup
        cases hdup
        exact ⟨t.maxFds, none, hnothing _, Or.inl ⟨rfl, hend⟩⟩
      rw [if_neg hsame] at hdup
      split at hdup
      · split at hdup
        · cases hdup
        case h_2 ret t' hexpand =>
          have hslots := h.expandFiles hexpand
          split at hdup
          · cases hdup
            exact ⟨t.maxFds, none, hslots.writes h rfl, Or.inl ⟨rfl, hend⟩⟩
          · have hw := hslots.ok.replace hdup
            refine ⟨newfd.toNat, some file, ⟨hw.ok, ?_, ?_⟩,
              Or.inr ⟨hslot.symm, by simp, rfl, by omega, hsame⟩⟩
            · rw [hw.fd, hslots.fd]
            · rw [hw.closed, hslots.fd]
      · exact ⟨newfd.toNat, some file, h.replace hdup,
          Or.inr ⟨hslot.symm, by simp, rfl, by omega, hsame⟩⟩

end

/-!
## Tables
-/

structure System where
  tables : Nat -> Option Files
  opened : List File
  closed : List File

def InUse (s : System) (f : File) : Prop :=
  exists i t p, s.tables i = some t ∧ t.fd p = some f

def Elsewhere (s : System) (i p : Nat) (f : File) : Prop :=
  exists j t q, s.tables j = some t ∧ t.fd q = some f ∧ ¬ (j = i ∧ q = p)

/-- A file is closed once, and exactly when no slot refers to it any more. -/
structure SystemOk (s : System) : Prop where
  slots : forall i t, s.tables i = some t -> SlotsOk t
  once : s.closed.Nodup
  gone : forall f, f ∈ s.closed -> ¬ InUse s f
  known : forall f, InUse s f ∨ f ∈ s.closed -> f ∈ s.opened
  kept : forall f, f ∈ s.opened -> InUse s f ∨ f ∈ s.closed

variable {s s' : System}

theorem inUse_iff (ht : s.tables i = some t) (p : Nat) (f : File) :
    InUse s f <-> Elsewhere s i p f ∨ t.fd p = some f := by
  constructor
  · rintro ⟨j, u, q, hu, hq⟩
    by_cases heq : j = i ∧ q = p
    · rcases heq with ⟨rfl, rfl⟩
      cases ht.symm.trans hu
      exact Or.inr hq
    · exact Or.inl ⟨j, u, q, hu, hq, heq⟩
  · rintro (⟨j, u, q, hu, hq, _⟩ | hp)
    · exact ⟨j, u, q, hu, hq⟩
    · exact ⟨i, t, p, ht, hp⟩

theorem table_of_update {tables : Nat -> Option Files} {k : Nat} {u : Files}
    (hu : update tables j (some t) k = some u) :
    (k = j ∧ u = t) ∨ (k ≠ j ∧ tables k = some u) := by
  by_cases hk : k = j
  · rw [hk, update_self] at hu
    exact Or.inl ⟨hk, (Option.some.inj hu).symm⟩
  · rw [update_of_ne hk] at hu
    exact Or.inr ⟨hk, hu⟩

def System.written (s : System) (i : Nat) (out : Outcome)
    (opened : List File) : System where
  tables := update s.tables i (some out.files)
  opened := opened
  closed := out.closed ++ s.closed

theorem inUse_written (ht : s.tables i = some t) (hw : Writes t p slot out)
    (opened : List File) (f : File) :
    InUse (s.written i out opened) f <-> Elsewhere s i p f ∨ slot = some f := by
  have hself : (s.written i out opened).tables i = some out.files :=
    update_self ..
  have hother : forall j, j ≠ i ->
      (s.written i out opened).tables j = s.tables j :=
    fun j hj => update_of_ne hj _ _
  have hslot : out.files.fd p = slot := by rw [hw.fd, update_self]
  have hfd : forall q, q ≠ p -> out.files.fd q = t.fd q := by
    intro q hq
    rw [hw.fd, update_of_ne hq]
  constructor
  · rintro ⟨j, u, q, hu, hq⟩
    rcases table_of_update hu with ⟨_, rfl⟩ | ⟨hj, hold⟩
    · by_cases hqp : q = p
      · rw [hqp, hslot] at hq
        exact Or.inr hq
      · rw [hfd q hqp] at hq
        exact Or.inl ⟨i, t, q, ht, hq, fun heq => hqp heq.right⟩
    · exact Or.inl ⟨j, u, q, hold, hq, fun heq => hj heq.left⟩
  · rintro (⟨j, u, q, hu, hq, hne⟩ | hp)
    · by_cases hj : j = i
      · rw [hj, ht] at hu
        cases hu
        have hqp : q ≠ p := fun heq => hne ⟨hj, heq⟩
        exact ⟨i, out.files, q, hself, (hfd q hqp).trans hq⟩
      · exact ⟨j, u, q, (hother j hj).trans hu, hq⟩
    · exact ⟨i, out.files, p, hself, hslot.trans hp⟩

/--
A slot is written whose file no other slot refers to, with a file that another
slot refers to or that is new.
-/
theorem SystemOk.written (h : SystemOk s) (ht : s.tables i = some t)
    (hw : Writes t p slot out)
    (hlast : forall f, t.fd p = some f -> ¬ Elsewhere s i p f)
    (hslot : forall f, slot = some f -> Elsewhere s i p f ∨ f ∉ s.opened)
    (hopened : forall f, f ∈ opened <-> f ∈ s.opened ∨ slot = some f) :
    SystemOk (s.written i out opened) := by
  have huse := inUse_written ht hw opened
  have hold := inUse_iff ht p
  have hclosed : forall f, f ∈ (s.written i out opened).closed <->
      t.fd p = some f ∨ f ∈ s.closed := by
    intro f
    show f ∈ out.closed ++ s.closed <-> _
    rw [hw.closed, mem_append, Option.mem_toList]
  have hused : forall f, t.fd p = some f -> InUse s f :=
    fun f hf => (hold f).mpr (Or.inr hf)
  refine ⟨?_, ?_, ?_, ?_, ?_⟩
  · intro j u hu
    rcases table_of_update hu with ⟨_, rfl⟩ | ⟨_, hkept⟩
    · exact hw.ok
    · exact h.slots j u hkept
  · show (out.closed ++ s.closed).Nodup
    rw [hw.closed, nodup_append]
    refine ⟨?_, h.once, ?_⟩
    · cases t.fd p with
      | none => exact nodup_nil
      | some f => exact nodup_singleton f
    · rintro f hf _ hg rfl
      exact h.gone f hg (hused f (Option.mem_toList.mp hf))
  · intro f hf hin
    rcases (hclosed f).mp hf with hp | hc
    · rcases (huse f).mp hin with helse | heq
      · exact hlast f hp helse
      · rcases hslot f heq with helse | hnew
        · exact hlast f hp helse
        · exact hnew (h.known f (Or.inl (hused f hp)))
    · have hgone := h.gone f hc
      rw [hold f] at hgone
      rcases (huse f).mp hin with helse | heq
      · exact hgone (Or.inl helse)
      · rcases hslot f heq with helse | hnew
        · exact hgone (Or.inl helse)
        · exact hnew (h.known f (Or.inr hc))
  · intro f hf
    apply (hopened f).mpr
    rcases hf with hin | hc
    · rcases (huse f).mp hin with helse | heq
      · exact Or.inl (h.known f (Or.inl ((hold f).mpr (Or.inl helse))))
      · exact Or.inr heq
    · rcases (hclosed f).mp hc with hp | hc
      · exact Or.inl (h.known f (Or.inl (hused f hp)))
      · exact Or.inl (h.known f (Or.inr hc))
  · intro f hf
    rw [huse f, hclosed f]
    rcases (hopened f).mp hf with hf | heq
    · rcases h.kept f hf with hin | hc
      · rcases (hold f).mp hin with helse | hp
        · exact Or.inl (Or.inl helse)
        · exact Or.inr (Or.inl hp)
      · exact Or.inr (Or.inr hc)
    · exact Or.inl (Or.inr heq)

theorem SystemOk.addTable (h : SystemOk s) (hj : s.tables j = none)
    (hok : SlotsOk t) (huse : forall p f, t.fd p = some f -> InUse s f) :
    SystemOk { s with tables := update s.tables j (some t) } := by
  have hiff : forall f,
      InUse { s with tables := update s.tables j (some t) } f <->
        InUse s f := by
    intro f
    constructor
    · rintro ⟨k, u, p, hu, hp⟩
      rcases table_of_update hu with ⟨_, rfl⟩ | ⟨_, hold⟩
      · exact huse p f hp
      · exact ⟨k, u, p, hold, hp⟩
    · rintro ⟨k, u, p, hu, hp⟩
      have hk : k ≠ j := by
        rintro rfl
        cases hj.symm.trans hu
      have hother : update s.tables j (some t) k = s.tables k :=
        update_of_ne hk _ _
      exact ⟨k, u, p, hother.trans hu, hp⟩
  refine ⟨?_, h.once, ?_, ?_, ?_⟩
  · intro k u hu
    rcases table_of_update hu with ⟨_, rfl⟩ | ⟨_, hold⟩
    · exact hok
    · exact h.slots k u hold
  · intro f hf hin
    exact h.gone f hf ((hiff f).mp hin)
  · intro f hf
    rw [hiff f] at hf
    exact h.known f hf
  · intro f hf
    rw [hiff f]
    exact h.kept f hf

/-!
## Runs
-/

inductive Event where
  | newTable (i : Nat)
  | clone (i j : Nat)
  | openFile (i : Nat) (start : Int) (cloexec memory : Bool) (file : File)
  | close (i : Nat) (fd : Int)
  | dup (i : Nat) (oldfd : Int) (memory : Bool)
  | dup2 (i : Nat) (oldfd newfd : Int) (memory : Bool)
  | fcntlDupfd (i : Nat) (fd : Int) (arg : Nat) (memory : Bool)

def onTable (s : System) (i : Nat) (call : Files -> Option Outcome) :
    Option System :=
  match s.tables i with
  | none => none
  | some t => (call t).map fun out => s.written i out s.opened

/-- A file that is opened is a new one. -/
def next (s : System) : Event -> Option System
  | Event.newTable i =>
      match s.tables i with
      | none => some { s with tables := update s.tables i (some filesAlloc) }
      | some _ => none
  | Event.clone i j =>
      match s.tables i, s.tables j with
      | some t, none => (filesClone t).map fun t' =>
          { s with tables := update s.tables j (some t') }
      | _, _ => none
  | Event.openFile i start cloexec memory file =>
      if file ∈ s.opened then none
      else
        match s.tables i with
        | none => none
        | some t => (openFile t start cloexec memory file).map fun out =>
            s.written i out (if out.ret < 0 then s.opened else file :: s.opened)
  | Event.close i fd => onTable s i fun t => sysClose t fd
  | Event.dup i oldfd memory => onTable s i fun t => sysDup t oldfd memory
  | Event.dup2 i oldfd newfd memory =>
      onTable s i fun t => sysDup2 t oldfd newfd memory
  | Event.fcntlDupfd i fd arg memory =>
      onTable s i fun t => sysFcntlDupfd t fd arg memory

def LastSlot (s : System) (i : Nat) (fd : Int) : Prop :=
  forall t f, s.tables i = some t -> 0 <= fd -> t.fd fd.toNat = some f ->
    ¬ Elsewhere s i fd.toNat f

def Duplicates (s : System) (i : Nat) (oldfd newfd : Int) : Prop :=
  oldfd ≠ newfd ∧ exists t, s.tables i = some t ∧ slotOf t oldfd ≠ none

def EventOk (s : System) : Event -> Prop
  | Event.close i fd => LastSlot s i fd
  | Event.dup2 i oldfd newfd _ =>
      Duplicates s i oldfd newfd -> LastSlot s i newfd
  | Event.fcntlDupfd i fd arg _ =>
      Duplicates s i fd (asInt arg) -> LastSlot s i (asInt arg)
  | _ => True

theorem slotOf_some {fd : Int} {f : File} (h : slotOf t fd = some f) :
    t.fd fd.toNat = some f ∧ 0 <= fd := by
  unfold slotOf at h
  split at h
  · cases h
  case isFalse hout => exact ⟨h, by omega⟩

section

variable (h : SystemOk s) (ht : s.tables i = some t)
include h ht

theorem SystemOk.nothing (hw : Writes t p none out) (hfree : t.fd p = none) :
    SystemOk (s.written i out s.opened) := by
  apply h.written ht hw
  · intro f hf
    cases hfree.symm.trans hf
  · intro f hf
    cases hf
  · simp

theorem SystemOk.unwritten :
    SystemOk (s.written i (failed t) s.opened) := by
  have hslots := h.slots i t ht
  have hsame : SameSlots t (failed t).files := ⟨hslots, rfl⟩
  exact h.nothing ht (hsame.writes hslots rfl) (hslots.beyond _ (Nat.le_refl _))

theorem SystemOk.dup2 (hdup : sysDup2 t oldfd newfd memory = some out)
    (hok : Duplicates s i oldfd newfd -> LastSlot s i newfd) :
    SystemOk (s.written i out s.opened) := by
  rcases (h.slots i t ht).sysDup2 hdup with ⟨p, slot, hw, hcase⟩
  rcases hcase with ⟨rfl, hfree⟩ | ⟨hslot, hsome, hp, hpos, hne⟩
  · exact h.nothing ht hw hfree
  · have hdups : Duplicates s i oldfd newfd := ⟨hne, t, ht, hslot ▸ hsome⟩
    have helse : forall f, slot = some f -> Elsewhere s i p f := by
      intro f hf
      rcases slotOf_some (hslot.symm.trans hf) with ⟨hold, holdpos⟩
      refine ⟨i, t, oldfd.toNat, ht, hold, ?_⟩
      intro hand
      apply hne
      omega
    apply h.written ht hw
    · intro f hf
      rw [hp] at hf ⊢
      exact hok hdups t f ht hpos hf
    · exact fun f hf => Or.inl (helse f hf)
    · intro f
      constructor
      · exact Or.inl
      · rintro (hf | hf)
        · exact hf
        · rcases helse f hf with ⟨j, u, q, hu, hq, _⟩
          exact h.known f (Or.inl ⟨j, u, q, hu, hq⟩)

theorem SystemOk.openFile
    (hopen : openFile t start cloexec memory file = some out)
    (hfile : (exists p, t.fd p = some file) ∨ file ∉ s.opened)
    (hopened : forall f, f ∈ opened <->
      f ∈ s.opened ∨ ¬ out.ret < 0 ∧ f = file) :
    SystemOk (s.written i out opened) := by
  rcases (h.slots i t ht).openFile hopen with ⟨p, slot, hw, hfree, hslot⟩
  have hiff : forall f, slot = some f <-> ¬ out.ret < 0 ∧ f = file := by
    intro f
    rw [hslot]
    by_cases hret : out.ret < 0
    · simp [hret]
    · simp [hret, eq_comm]
  apply h.written ht hw
  · intro f hf
    cases hfree.symm.trans hf
  · intro f hf
    rw [((hiff f).mp hf).right]
    rcases hfile with ⟨q, hq⟩ | hnew
    · refine Or.inl ⟨i, t, q, ht, hq, ?_⟩
      rintro ⟨_, rfl⟩
      cases hfree.symm.trans hq
    · exact Or.inr hnew
  · intro f
    rw [hopened f, hiff f]

theorem SystemOk.dup (hdup : sysDup t oldfd memory = some out) :
    SystemOk (s.written i out s.opened) := by
  have hslots := h.slots i t ht
  unfold sysDup at hdup
  rw [lookup_eq hslots.slots] at hdup
  cases hslot : slotOf t oldfd with
  | none =>
    simp only [hslot] at hdup
    cases hdup
    exact h.unwritten ht
  | some file =>
    simp only [hslot] at hdup
    have hold := (slotOf_some hslot).left
    apply h.openFile ht hdup (Or.inl ⟨_, hold⟩)
    intro f
    constructor
    · exact Or.inl
    · rintro (hf | ⟨_, rfl⟩)
      · exact hf
      · exact h.known f (Or.inl ⟨i, t, _, ht, hold⟩)

end

theorem filesClone_slots (hclone : filesClone t = some t') :
    SlotsOk t' ∧ forall p f, t'.fd p = some f -> t.fd p = some f := by
  unfold filesClone at hclone
  simp only at hclone
  split at hclone
  case isTrue hfits =>
    cases hclone
    refine ⟨⟨rfl, ?_⟩, ?_⟩
    · intro p hp
      have hle : nrOpenDefault <= p := hp
      show (if p < t.maxFds then t.fd p else none) = none
      by_cases hlt : p < t.maxFds
      · rw [if_pos hlt]
        exact hfits.right.right.right p hlt hle
      · rw [if_neg hlt]
    · intro p f hf
      have hfd : (if p < t.maxFds then t.fd p else none) = some f := hf
      split at hfd
      · exact hfd
      · cases hfd
  case isFalse => cases hclone

theorem onTable_some {call : Files -> Option Outcome}
    (h : onTable s i call = some s') :
    exists t out, s.tables i = some t ∧ call t = some out ∧
      s' = s.written i out s.opened := by
  unfold onTable at h
  split at h
  · cases h
  case h_2 t ht =>
    rcases Option.map_eq_some_iff.mp h with ⟨out, hcall, heq⟩
    exact ⟨t, out, ht, hcall, heq.symm⟩

theorem SystemOk.next {event : Event} (h : SystemOk s) (hok : EventOk s event)
    (hnext : next s event = some s') : SystemOk s' := by
  cases event with
  | newTable i =>
    simp only [FileTable.next] at hnext
    split at hnext <;> cases hnext
    case h_1 hi =>
      exact h.addTable hi slotsOk_filesAlloc (fun p f hf => nomatch hf)
  | clone i j =>
    simp only [FileTable.next] at hnext
    split at hnext
    case h_1 t hi hj =>
      rcases Option.map_eq_some_iff.mp hnext with ⟨t', hclone, heq⟩
      rcases filesClone_slots hclone with ⟨hslots, hsub⟩
      cases heq
      exact h.addTable hj hslots
        (fun p f hf => ⟨i, t, p, hi, hsub p f hf⟩)
    case h_2 => cases hnext
  | openFile i start cloexec memory file =>
    simp only [FileTable.next] at hnext
    split at hnext
    · cases hnext
    case isFalse hnew =>
      split at hnext
      · cases hnext
      case h_2 t hi =>
        rcases Option.map_eq_some_iff.mp hnext with ⟨out, hopen, heq⟩
        cases heq
        apply h.openFile hi hopen (Or.inr hnew)
        intro f
        by_cases hret : out.ret < 0
        · simp [hret]
        · simp [hret, or_comm]
  | close i fd =>
    rcases onTable_some hnext with ⟨t, out, hi, hclose, rfl⟩
    rcases (h.slots i t hi).sysClose hclose with ⟨p, hw, hp⟩
    apply h.written hi hw
    · intro f hf
      rcases hp (by rw [hf]; simp) with ⟨rfl, hpos⟩
      exact hok t f hi hpos hf
    · intro f hf
      cases hf
    · simp
  | dup i oldfd memory =>
    rcases onTable_some hnext with ⟨t, out, hi, hdup, rfl⟩
    exact h.dup hi hdup
  | dup2 i oldfd newfd memory =>
    rcases onTable_some hnext with ⟨t, out, hi, hdup, rfl⟩
    exact h.dup2 hi hdup hok
  | fcntlDupfd i fd arg memory =>
    rcases onTable_some hnext with ⟨t, out, hi, hfcntl, rfl⟩
    unfold sysFcntlDupfd at hfcntl
    rw [lookup_eq (h.slots i t hi).slots] at hfcntl
    cases hslot : slotOf t fd with
    | none =>
      simp only [hslot] at hfcntl
      cases hfcntl
      exact h.unwritten hi
    | some file =>
      simp only [hslot] at hfcntl
      exact h.dup2 hi hfcntl hok

end FileTable
end Horizon
