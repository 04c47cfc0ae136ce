/-!
# Transition systems

States that are reached from initial ones by labelled steps, and the rule that
is used about them: what every step keeps holds in every reached state.
-/

namespace Horizon
namespace Transition

variable {state label : Type}

inductive Reachable (init : state -> Prop)
    (step : state -> label -> state -> Prop) : state -> Prop where
  | init {s : state} : init s -> Reachable init step s
  | step {s s' : state} {l : label} : Reachable init step s -> step s l s' ->
      Reachable init step s'

/-- The steps of a partial function that meet a condition. -/
def Guarded (ok : state -> label -> Prop) (next : state -> label -> Option state)
    (s : state) (l : label) (s' : state) : Prop :=
  ok s l ∧ next s l = some s'

theorem Reachable.invariant {init inv : state -> Prop}
    {step : state -> label -> state -> Prop} {s : state}
    (h : Reachable init step s) (hinit : forall s, init s -> inv s)
    (hstep : forall s l s', inv s -> step s l s' -> inv s') : inv s := by
  induction h with
  | init hs => exact hinit _ hs
  | step _ hs ih => exact hstep _ _ _ ih hs

theorem Reachable.guarded {init inv : state -> Prop}
    {ok : state -> label -> Prop} {next : state -> label -> Option state}
    {s : state} (h : Reachable init (Guarded ok next) s)
    (hinit : forall {s}, init s -> inv s)
    (hstep : forall {s l s'}, inv s -> ok s l -> next s l = some s' ->
      inv s') : inv s := by
  apply h.invariant
  · exact fun _ => hinit
  · exact fun _ _ _ hs hnext => hstep hs hnext.left hnext.right

/-- The state after a list of steps, if all of them can be taken. -/
def run (next : state -> label -> Option state) :
    state -> List label -> Option state
  | s, [] => some s
  | s, l :: ls =>
      match next s l with
      | none => none
      | some s => run next s ls

theorem Reachable.run {init : state -> Prop}
    {next : state -> label -> Option state} {s s' : state}
    (h : Reachable init (fun s l s' => next s l = some s') s) (ls : List label)
    (hrun : run next s ls = some s') :
    Reachable init (fun s l s' => next s l = some s') s' := by
  induction ls generalizing s with
  | nil =>
    cases hrun
    exact h
  | cons l ls ih =>
    unfold Transition.run at hrun
    cases hnext : next s l with
    | none =>
      rw [hnext] at hrun
      cases hrun
    | some t =>
      rw [hnext] at hrun
      exact ih (h.step hnext) hrun

/-- A partial function cut down to the steps that meet a condition. -/
def guard (ok : state -> label -> Prop) [forall s l, Decidable (ok s l)]
    (next : state -> label -> Option state) (s : state) (l : label) :
    Option state :=
  if ok s l then next s l else none

theorem Reachable.run_guard {init : state -> Prop} {ok : state -> label -> Prop}
    [forall s l, Decidable (ok s l)]
    {next : state -> label -> Option state} {s s' : state}
    (h : Reachable init (Guarded ok next) s) (ls : List label)
    (hrun : Transition.run (guard ok next) s ls = some s') :
    Reachable init (Guarded ok next) s' := by
  have hguard : (fun s l s' => guard ok next s l = some s') =
      Guarded ok next := by
    funext s l s'
    unfold guard Guarded
    split
    · rename_i hok
      simp [hok]
    · rename_i hok
      simp [hok]
  rw [← hguard] at h ⊢
  exact h.run ls hrun

end Transition
end Horizon
