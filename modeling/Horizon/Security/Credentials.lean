import Horizon.Security.Modules

/-!
# Changes of credentials

What a chain of modules does to a context: when a failed change of the user
leaves the context alone, and when a new task holds no more capabilities than
its parent may pass on.
-/

namespace Horizon
namespace Security

open List

/-! ## Changing the user -/

def Module.changed (m : Module) (context : Context) (uid : BitVec 32) :
    Context :=
  match m with
  | Module.default => setUids context uid
  | Module.capability =>
      if uid ≠ 0 then dropCapabilities (setUids context uid)
      else setUids context uid

theorem taskSetuid_eq (m : Module) (context : Context) (uid : BitVec 32) :
    m.taskSetuid context uid =
      if MaySetuid context then (0, m.changed context uid)
      else (-1, context) := by
  cases m <;> rfl

theorem changed_euid (m : Module) (context : Context) (uid : BitVec 32) :
    (m.changed context uid).euid = uid := by
  cases m with
  | default => rfl
  | capability =>
    simp only [Module.changed]
    split <;> rfl

theorem changed_inheritable (m : Module) (context : Context) (uid : BitVec 32) :
    (m.changed context uid).capInheritable = context.capInheritable := by
  cases m with
  | default => rfl
  | capability =>
    simp only [Module.changed]
    split <;> rfl

theorem securityTaskSetuid_cons (uid : BitVec 32) (m : Module)
    (modules : List Module) (context : Context) :
    securityTaskSetuid uid (m :: modules) context =
      if MaySetuid context then
        securityTaskSetuid uid modules (m.changed context uid)
      else (-1, context) := by
  rw [securityTaskSetuid, taskSetuid_eq]
  by_cases h : MaySetuid context
  · simp [h]
  · simp [h]

theorem securityTaskSetuid_result (uid : BitVec 32) (modules : List Module)
    (context : Context) :
    (securityTaskSetuid uid modules context).1 = 0 ∨
      (securityTaskSetuid uid modules context).1 = -1 := by
  induction modules generalizing context with
  | nil => exact Or.inl rfl
  | cons m modules ih =>
    rw [securityTaskSetuid_cons]
    split
    · exact ih _
    · exact Or.inr rfl

variable {uid : BitVec 32} {modules : List Module} {context : Context}

theorem not_maySetuid_of_failed
    (h : (securityTaskSetuid uid modules context).1 < 0) :
    ¬ MaySetuid (securityTaskSetuid uid modules context).2 := by
  induction modules generalizing context with
  | nil => exact absurd h (lt_irrefl 0)
  | cons m modules ih =>
    rw [securityTaskSetuid_cons] at h ⊢
    split at h
    case isTrue hmay =>
      rw [if_pos hmay]
      exact ih h
    case isFalse hmay =>
      rw [if_neg hmay]
      exact hmay

theorem securityTaskSetuid_zero (modules : List Module) (h : MaySetuid context) :
    (securityTaskSetuid 0 modules context).1 = 0 := by
  induction modules generalizing context with
  | nil => rfl
  | cons m modules ih =>
    rw [securityTaskSetuid_cons, if_pos h]
    exact ih (Or.inl (changed_euid m context 0))

/-- The capability to change the user stays with a context that has given up
its user when it is effective and no module of the chain drops it. -/
def KeepsSetuid (modules : List Module) (context : Context) : Prop :=
  securityHasCapability context capSetuid ∧
    (Module.capability ∈ modules.dropLast ->
      context.capInheritable &&& capSetuid ≠ 0)

instance (modules : List Module) (context : Context) :
    Decidable (KeepsSetuid modules context) :=
  inferInstanceAs (Decidable (_ ∧ _))

theorem and_capSetuid_ne_zero (a b : BitVec 32) :
    a &&& b &&& capSetuid ≠ 0 <->
      a &&& capSetuid ≠ 0 ∧ b &&& capSetuid ≠ 0 := by
  have single (x : BitVec 32) : x &&& capSetuid ≠ 0 <-> x.getLsbD 7 = true := by
    have hset : capSetuid = BitVec.twoPow 32 7 := by decide
    rw [hset, BitVec.and_twoPow]
    cases x.getLsbD 7 with
    | false => simp
    | true => simp; decide
  rw [single, single, single, BitVec.getLsbD_and, Bool.and_eq_true]

theorem keepsSetuid_changed (m : Module) (huid : uid ≠ 0) (hne : modules ≠ []) :
    KeepsSetuid modules (m.changed context uid) <->
      KeepsSetuid (m :: modules) context := by
  unfold KeepsSetuid
  rw [dropLast_cons_of_ne_nil hne, mem_cons, changed_inheritable]
  cases m with
  | default =>
    have hsame : securityHasCapability (Module.default.changed context uid)
        capSetuid <-> securityHasCapability context capSetuid := Iff.rfl
    rw [hsame]
    simp only [reduceCtorEq, false_or]
  | capability =>
    have hboth : securityHasCapability
        (Module.capability.changed context uid) capSetuid <->
        securityHasCapability context capSetuid ∧
          context.capInheritable &&& capSetuid ≠ 0 := by
      unfold Module.changed
      rw [if_pos huid]
      exact and_capSetuid_ne_zero context.capEffective context.capInheritable
    rw [hboth]
    constructor
    · intro h
      exact ⟨h.left.left, fun _ => h.left.right⟩
    · intro h
      have hinh := h.right (Or.inl rfl)
      exact ⟨⟨h.left, hinh⟩, fun _ => hinh⟩

theorem securityTaskSetuid_succeeds_iff (huid : uid ≠ 0)
    (heuid : context.euid = uid) :
    (securityTaskSetuid uid modules context).1 = 0 <->
      modules = [] ∨ KeepsSetuid modules context := by
  induction modules generalizing context with
  | nil => exact ⟨fun _ => Or.inl rfl, fun _ => rfl⟩
  | cons m modules ih =>
    have hmay : MaySetuid context <->
        securityHasCapability context capSetuid := by
      unfold MaySetuid
      rw [heuid]
      exact ⟨fun h => h.resolve_left huid, Or.inr⟩
    rw [securityTaskSetuid_cons]
    by_cases h : securityHasCapability context capSetuid
    · rw [if_pos (hmay.mpr h), ih (changed_euid m context uid)]
      cases modules with
      | nil => simp [KeepsSetuid, h]
      | cons m' modules =>
        rw [keepsSetuid_changed m huid (cons_ne_nil m' modules)]
        simp
    · rw [if_neg (fun hc => h (hmay.mp hc))]
      simp [KeepsSetuid, h]

def SetuidOk (modules : List Module) (context : Context) (uid : BitVec 32) :
    Prop :=
  ¬ MaySetuid context ∨ uid = 0 ∨ modules.length <= 1 ∨
    KeepsSetuid modules context

instance (modules : List Module) (context : Context) (uid : BitVec 32) :
    Decidable (SetuidOk modules context uid) :=
  inferInstanceAs (Decidable (_ ∨ _))

theorem securityTaskSetuid_of_ok (hok : SetuidOk modules context uid)
    (hmay : MaySetuid context) :
    (securityTaskSetuid uid modules context).1 = 0 := by
  by_cases huid : uid = 0
  · rw [huid]
    exact securityTaskSetuid_zero modules hmay
  · cases modules with
    | nil => rfl
    | cons m modules =>
      rw [securityTaskSetuid_cons, if_pos hmay,
        securityTaskSetuid_succeeds_iff huid (changed_euid m context uid)]
      cases modules with
      | nil => exact Or.inl rfl
      | cons m' modules =>
        rw [keepsSetuid_changed m huid (cons_ne_nil m' modules)]
        rcases hok with h | h | h | h
        · exact absurd hmay h
        · exact absurd h huid
        · simp at h
        · exact Or.inr h

theorem setuidOk_of_succeeds (hmay : MaySetuid context)
    (h : (securityTaskSetuid uid modules context).1 = 0) :
    SetuidOk modules context uid := by
  by_cases huid : uid = 0
  · exact Or.inr (Or.inl huid)
  · cases modules with
    | nil => exact Or.inr (Or.inr (Or.inl (Nat.zero_le 1)))
    | cons m modules =>
      rw [securityTaskSetuid_cons, if_pos hmay,
        securityTaskSetuid_succeeds_iff huid (changed_euid m context uid)] at h
      cases modules with
      | nil => exact Or.inr (Or.inr (Or.inl (Nat.le_refl 1)))
      | cons m' modules =>
        rw [keepsSetuid_changed m huid (cons_ne_nil m' modules)] at h
        exact Or.inr (Or.inr (Or.inr (h.resolve_left (by simp))))

theorem securityTaskSetuid_refused (uid : BitVec 32) (modules : List Module)
    (h : ¬ MaySetuid context) :
    (securityTaskSetuid uid modules context).2 = context := by
  cases modules with
  | nil => rfl
  | cons m modules => rw [securityTaskSetuid_cons, if_neg h]

/-- A change of the user is all or nothing, and root always succeeds, exactly
when the hooks cannot stop half way. -/
theorem setuid_all_or_nothing_iff (modules : List Module) (context : Context)
    (uid : BitVec 32) :
    (((securityTaskSetuid uid modules context).1 < 0 ->
        (securityTaskSetuid uid modules context).2 = context) ∧
      (context.euid = 0 -> (securityTaskSetuid uid modules context).1 = 0)) <->
      SetuidOk modules context uid := by
  constructor
  · intro h
    by_cases hmay : MaySetuid context
    · apply setuidOk_of_succeeds hmay
      rcases securityTaskSetuid_result uid modules context with hz | hneg
      · exact hz
      · have hfailed : (securityTaskSetuid uid modules context).1 < 0 := by
          rw [hneg]
          decide
        have hrefused := not_maySetuid_of_failed hfailed
        rw [h.left hfailed] at hrefused
        exact absurd hmay hrefused
    · exact Or.inl hmay
  · intro hok
    constructor
    · intro hfailed
      apply securityTaskSetuid_refused
      intro hmay
      rw [securityTaskSetuid_of_ok hok hmay] at hfailed
      exact absurd hfailed (by decide)
    · intro hroot
      exact securityTaskSetuid_of_ok hok (Or.inl hroot)

/-- With the capability module in front, root without inheritable
capabilities fails to become another user and has become it. -/
theorem root_setuid_half_done :
    let result := securityTaskSetuid 1000
      [Module.capability, Module.default] securityAllocContext
    result.1 = -1 ∧ securityAllocContext.euid = 0 ∧ result.2.euid = 1000 ∧
      result.2.capPermitted = 0 ∧ result.2 ≠ securityAllocContext := by
  decide

/-! ## Creating a task -/

def Within (a b : BitVec 32) : Prop := a &&& b = a

instance (a b : BitVec 32) : Decidable (Within a b) :=
  inferInstanceAs (Decidable (_ = _))

def passable (parent : Context) : BitVec 32 :=
  parent.capPermitted &&& parent.capInheritable

def Confined (parent child : Context) : Prop :=
  Within child.capPermitted (passable parent) ∧
    Within child.capEffective (passable parent)

instance (parent child : Context) : Decidable (Confined parent child) :=
  inferInstanceAs (Decidable (_ ∧ _))

theorem installed_cases (h : Installed modules) :
    modules = [.default] ∨ modules = [.capability, .default] := by
  induction h with
  | init => exact Or.inl rfl
  | @register modules m _ hnew ih =>
    rcases ih with h | h
    · subst h
      cases m with
      | default => simp at hnew
      | capability => exact Or.inr rfl
    · subst h
      cases m <;> simp at hnew
  | @unregister modules m _ ih =>
    rcases ih with h | h
    · subst h
      cases m <;> exact Or.inl rfl
    · subst h
      cases m with
      | default => exact Or.inr rfl
      | capability => exact Or.inl rfl

theorem securityTaskCreate_installed (h : Installed modules)
    (parent child : Context) :
    securityTaskCreate parent modules child = (0, parent) := by
  rcases installed_cases h with h | h
  · subst h
    rfl
  · subst h
    rfl

/-- One task created from another, the new context having any contents. -/
inductive Descends (modules : List Module) (ancestor : Context) :
    Context -> Prop where
  | create {child : Context} : Descends modules ancestor
      (securityTaskCreate ancestor modules child).2
  | next {parent child : Context} : Descends modules ancestor parent ->
      Descends modules ancestor (securityTaskCreate parent modules child).2

theorem descends_eq (hmodules : Installed modules) {ancestor task : Context}
    (h : Descends modules ancestor task) : task = ancestor := by
  induction h with
  | create => rw [securityTaskCreate_installed hmodules]
  | next _ ih =>
    rw [securityTaskCreate_installed hmodules]
    exact ih

/-- With or without the capability module, a new task is confined exactly when
its parent already was: the hook of the default module undoes what the one of
the capability module has done.  From such a parent no descendant holds more. -/
theorem creation_confined_iff {modules : List Module}
    (hmodules : Installed modules) :
    (forall parent child, Confined parent
        (securityTaskCreate parent modules child).2 <->
          Confined parent parent) ∧
      forall ancestor task, Confined ancestor ancestor ->
        Descends modules ancestor task -> Confined ancestor task := by
  constructor
  · intro parent child
    rw [securityTaskCreate_installed hmodules]
  · intro ancestor task hancestor htask
    rw [descends_eq hmodules htask]
    exact hancestor

theorem creation_confined_registered :
    Module.capability ∈ securityRegisterModule securityInit Module.capability ∧
    ((forall parent child, Confined parent (securityTaskCreate parent
        (securityRegisterModule securityInit Module.capability) child).2 <->
          Confined parent parent) ∧
      forall ancestor task, Confined ancestor ancestor ->
        Descends (securityRegisterModule securityInit Module.capability)
          ancestor task -> Confined ancestor task) :=
  ⟨by decide, creation_confined_iff
    (Installed.register Installed.init (by decide))⟩

/-- The first context may pass on nothing, and its child holds everything. -/
theorem child_keeps_all_capabilities :
    let modules := securityRegisterModule securityInit Module.capability
    let child := (securityTaskCreate securityAllocContext modules
      securityAllocContext).2
    passable securityAllocContext = 0 ∧ child.capPermitted = capAll ∧
      child.capEffective = capAll ∧ ¬ Confined securityAllocContext child := by
  decide

end Security
end Horizon
