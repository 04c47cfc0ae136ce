import Horizon.Lib.Transition
import Horizon.Security.Credentials

/-!
# The capabilities of a tree of tasks

Contexts are allocated, made from one another and given other users and groups.
No step adds a capability to a context that exists, and a new task starts with
no more than its creator has at that moment.
-/

namespace Horizon
namespace Security

open List

/-! ## Runs -/

/-- A context, and what its creator was when it was made. -/
structure Member where
  context : Context
  creator : Option Context

inductive TreeStep where
  | alloc
  | create (parent : Nat)
  | setuid (i : Nat) (uid : BitVec 32)
  | setgid (i : Nat) (gid : BitVec 32)

/-- The result of a call is not looked at: one that fails half way leaves the
context as its last hook has made it. -/
def treeNext (modules : List Module) (s : List Member) :
    TreeStep -> Option (List Member)
  | .alloc => some (s ++ [⟨securityAllocContext, none⟩])
  | .create parent => s[parent]?.map fun m =>
      s ++ [⟨(securityTaskCreate m.context modules securityAllocContext).2,
        some m.context⟩]
  | .setuid i uid => some (s.modify i fun m =>
      { m with context := (securityTaskSetuid uid modules m.context).2 })
  | .setgid i gid => some (s.modify i fun m =>
      { m with context := (securityTaskSetgid gid modules m.context).2 })

def After (modules : List Module) (s : List Member) :
    List Member -> Prop :=
  Transition.Reachable (fun t => t = s)
    fun s step s' => treeNext modules s step = some s'

/-! ## The hooks -/

theorem Within.refl (a : BitVec 32) : Within a a := BitVec.and_self

variable {a b : BitVec 32} {c c' parent : Context} {modules : List Module}
    {m : Member} {s s' : List Member} {step : TreeStep}

theorem Within.trans {c : BitVec 32} (h : Within a b) (h' : Within b c) :
    Within a c := by
  unfold Within at *
  rw [<- h, BitVec.and_assoc, h']

theorem Within.and (h : Within a b) (c : BitVec 32) :
    Within (a &&& c) (b &&& c) := by
  calc a &&& c &&& (b &&& c) = a &&& b &&& (c &&& c) := by ac_rfl
    _ = a &&& c := by rw [h, BitVec.and_self]

theorem within_and (a c : BitVec 32) : Within (a &&& c) a := by
  calc a &&& c &&& a = a &&& a &&& c := by ac_rfl
    _ = a &&& c := by rw [BitVec.and_self]

/-- A context that came from another, or was made by it, has no capabilities
but those of the other, and its effective ones are permitted. -/
structure Derived (from' context : Context) : Prop where
  sound : Within context.capEffective context.capPermitted
  permitted : Within context.capPermitted from'.capPermitted
  effective : Within context.capEffective from'.capEffective

theorem Derived.same (h : Within c.capEffective c.capPermitted)
    (hp : c'.capPermitted = c.capPermitted)
    (he : c'.capEffective = c.capEffective) : Derived c c' := by
  refine ⟨?_, ?_, ?_⟩
  · rw [hp, he]
    exact h
  · rw [hp]
    exact Within.refl _
  · rw [he]
    exact Within.refl _

theorem Derived.dropped (h : Within c.capEffective c.capPermitted)
    (hp : c'.capPermitted = c.capPermitted &&& c.capInheritable)
    (he : c'.capEffective = c.capEffective &&& c.capInheritable) :
    Derived c c' := by
  refine ⟨?_, ?_, ?_⟩
  · rw [hp, he]
    exact h.and _
  · rw [hp]
    exact within_and _ _
  · rw [he]
    exact within_and _ _

theorem Derived.trans {a b : Context} (h : Derived a b) (h' : Derived b c) :
    Derived a c :=
  ⟨h'.sound, h'.permitted.trans h.permitted, h'.effective.trans h.effective⟩

theorem derived_taskCreate (m : Module) (child : Context)
    (h : Within parent.capEffective parent.capPermitted) :
    Derived parent (m.taskCreate parent child).2 := by
  cases m with
  | default => exact Derived.same h rfl rfl
  | capability => exact Derived.dropped h rfl rfl

theorem derived_changed (m : Module) (uid : BitVec 32)
    (h : Within c.capEffective c.capPermitted) :
    Derived c (m.changed c uid) := by
  cases m with
  | default => exact Derived.same h rfl rfl
  | capability =>
    simp only [Module.changed]
    split
    · exact Derived.dropped h rfl rfl
    · exact Derived.same h rfl rfl

/-! ## The calls -/

theorem derived_create (hne : modules ≠ []) (child : Context)
    (h : Within parent.capEffective parent.capPermitted) :
    Derived parent (securityTaskCreate parent modules child).2 := by
  induction modules generalizing child with
  | nil => exact absurd rfl hne
  | cons m modules ih =>
    have hm := derived_taskCreate m child h
    unfold securityTaskCreate
    split
    rename_i result child' heq
    rw [heq] at hm
    cases modules with
    | nil => split <;> exact hm
    | cons m' modules =>
      split
      · exact hm
      · exact ih (by simp) child'

theorem derived_setuid (modules : List Module) (uid : BitVec 32)
    (h : Within c.capEffective c.capPermitted) :
    Derived c (securityTaskSetuid uid modules c).2 := by
  induction modules generalizing c with
  | nil => exact Derived.same h rfl rfl
  | cons m modules ih =>
    rw [securityTaskSetuid_cons]
    split
    · have hm := derived_changed m uid h
      exact hm.trans (ih hm.sound)
    · exact Derived.same h rfl rfl

theorem derived_setgid (modules : List Module) (gid : BitVec 32)
    (h : Within c.capEffective c.capPermitted) :
    Derived c (securityTaskSetgid gid modules c).2 := by
  induction modules generalizing c with
  | nil => exact Derived.same h rfl rfl
  | cons m modules ih =>
    have hm : Derived c (m.taskSetgid c gid).2 := by
      cases m <;> simp only [Module.taskSetgid, capabilityTaskSetgid,
        defaultTaskSetgid] <;> split <;> exact Derived.same h rfl rfl
    unfold securityTaskSetgid
    split
    rename_i result c' heq
    rw [heq] at hm
    split
    · exact hm
    · exact hm.trans (ih hm.sound)

/-! ## Trees -/

/-- The effective capabilities are permitted, and a context that was made by
another has no more than that had at the time. -/
def Member.Ok (m : Member) : Prop :=
  Within m.context.capEffective m.context.capPermitted ∧
    forall c, m.creator = some c -> Derived c m.context

theorem Member.Ok.derived {m' : Member} (h : m.Ok)
    (hcreator : m'.creator = m.creator) (hd : Derived m.context m'.context) :
    m'.Ok := by
  refine ⟨hd.sound, ?_⟩
  intro c hc
  rw [hcreator] at hc
  exact (h.right c hc).trans hd

section

variable (hne : modules ≠ []) (hs : forall m, m ∈ s -> m.Ok)
  (h : treeNext modules s step = some s')
include hne hs h

theorem treeNext_cases :
    (exists new, new.Ok ∧ s' = s ++ [new]) ∨
    (exists i f, s' = s.modify i f ∧ forall m : Member, m.Ok ->
      (f m).creator = m.creator ∧ Derived m.context (f m).context) := by
  cases step with
  | alloc =>
    cases h
    exact Or.inl ⟨_, ⟨by decide, by simp⟩, rfl⟩
  | create parent =>
    rcases Option.map_eq_some_iff.mp h with ⟨m, hm, rfl⟩
    have hd := derived_create hne securityAllocContext
      (hs m (mem_of_getElem? hm)).left
    refine Or.inl ⟨_, ⟨hd.sound, ?_⟩, rfl⟩
    intro c hc
    cases hc
    exact hd
  | setuid i uid =>
    cases h
    exact Or.inr ⟨i, _, rfl, fun m hm => ⟨rfl, derived_setuid _ _ hm.left⟩⟩
  | setgid i gid =>
    cases h
    exact Or.inr ⟨i, _, rfl, fun m hm => ⟨rfl, derived_setgid _ _ hm.left⟩⟩

theorem treeNext_ok : forall m, m ∈ s' -> m.Ok := by
  intro m hm
  rcases treeNext_cases hne hs h with ⟨new, hnew, rfl⟩ | ⟨i, f, rfl, hf⟩
  · rcases mem_append.mp hm with hm | hm
    · exact hs m hm
    · rw [mem_singleton.mp hm]
      exact hnew
  · rcases mem_iff_getElem?.mp hm with ⟨j, hj⟩
    rw [List.getElem?_modify] at hj
    rcases Option.map_eq_some_iff.mp hj with ⟨old, hold, rfl⟩
    have hold := hs old (mem_of_getElem? hold)
    split
    · exact hold.derived (hf old hold).left (hf old hold).right
    · exact hold

theorem treeNext_derived {i : Nat} (hm : s[i]? = some m) :
    exists m', s'[i]? = some m' ∧ Derived m.context m'.context := by
  have hok := hs m (mem_of_getElem? hm)
  have hsame : Derived m.context m.context := Derived.same hok.left rfl rfl
  rcases treeNext_cases hne hs h with ⟨new, _, rfl⟩ | ⟨j, f, rfl, hf⟩
  · rw [List.getElem?_append_left (List.getElem?_eq_some_iff.mp hm).1]
    exact ⟨m, hm, hsame⟩
  · rw [List.getElem?_modify, hm]
    refine ⟨_, rfl, ?_⟩
    split
    · exact (hf m hok).right
    · exact hsame

end

/--
In every state the effective capabilities of a context are permitted ones, and
it has no more than its creator had when it was made.  In no later state does
it have more.
-/
theorem capabilities_never_gained (hne : modules ≠ []) (h : After modules [] s) :
    (forall m, m ∈ s -> m.Ok) ∧
    forall (s' : List Member) (i : Nat) (m : Member), After modules s s' ->
      s[i]? = some m ->
        exists m', s'[i]? = some m' ∧ Derived m.context m'.context := by
  have hs : forall m, m ∈ s -> m.Ok := by
    apply h.invariant
    · rintro _ rfl m hm
      cases hm
    · intro s step s' hs hnext
      exact treeNext_ok hne hs hnext
  refine ⟨hs, ?_⟩
  intro s' i m hs' hm
  -- carried along with the members that are there
  have hlater : (forall m, m ∈ s' -> m.Ok) ∧
      exists m', s'[i]? = some m' ∧ Derived m.context m'.context := by
    apply hs'.invariant
    · rintro _ rfl
      exact ⟨hs, m, hm, Derived.same (hs m (mem_of_getElem? hm)).left rfl rfl⟩
    · rintro t step t' ⟨ht, m', hm', hd⟩ hnext
      rcases treeNext_derived hne ht hnext hm' with ⟨m'', hm'', hd'⟩
      exact ⟨treeNext_ok hne ht hnext, m'', hm'', hd.trans hd'⟩
  exact hlater.right

/-- The first context makes a second one, which becomes another user. -/
theorem capabilities_never_gained_setuid :
    exists s, Transition.run (treeNext [Module.default, Module.capability]) []
      [.alloc, .create 0, .setuid 1 1000, .setgid 1 1000] = some s ∧
    forall m, m ∈ s -> m.Ok := by
  refine ⟨_, rfl, ?_⟩
  have hinit : After [Module.default, Module.capability] [] [] := .init rfl
  exact (capabilities_never_gained (by simp) (hinit.run
    [.alloc, .create 0, .setuid 1 1000, .setgid 1 1000] rfl)).left

end Security
end Horizon
