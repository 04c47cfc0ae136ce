import Horizon.Types
import Mathlib.Data.List.Range
import Mathlib.Logic.Function.Basic

/-!
# Thread-specific data

The keys of `kernel/thread.c` with their destructors, and the values of one
thread.  Destructors and values are addresses, `none` for a null pointer.
-/

namespace Horizon
namespace Tsd

open Function

structure State where
  nextTsdKey : Nat
  destructors : Nat -> Option Nat
  tsd : Option (Nat -> Option Nat)
  tsdCount : Nat

/-- The end of `thread_set_tsd`. -/
def State.store (s : State) (tsd : Nat -> Option Nat) (count key : Nat)
    (value : Option Nat) : State :=
  { s with
    tsd := some (update tsd key value)
    tsdCount := if value ≠ none ∧ count < key then key else count }

/-- `thread_set_tsd`, given whether there is memory for the array. -/
def threadSetTsd (s : State) (key : Nat) (value : Option Nat)
    (memory : Bool) : Except Int State :=
  if key = 0 ∨ 256 <= key then .error (-Errno.einval)
  else
    match s.tsd with
    | some tsd => .ok (s.store tsd s.tsdCount key value)
    | none =>
        if memory then .ok (s.store (fun _ => none) 0 key value)
        else .error (-Errno.enomem)

/-- `thread_key_create`, given whether there is a place for the key. -/
def threadKeyCreate (s : State) (place : Bool) (destructor : Option Nat) :
    Except Int Nat × State :=
  if ¬ place then (.error (-Errno.einval), s)
  else
    let newKey := s.nextTsdKey
    let s := { s with nextTsdKey := (newKey + 1) % 2 ^ 32 }
    if 256 <= newKey then (.error (-Errno.enomem), s)
    else (.ok newKey, { s with
      destructors := update s.destructors newKey destructor })

def threadKeyDelete (s : State) (key : Nat) : Except Int State :=
  if key = 0 ∨ 256 <= key then .error (-Errno.einval)
  else .ok { s with destructors := update s.destructors key none }

/-- The call of a destructor that the loop makes for a key. -/
def due (destructors tsd : Nat -> Option Nat) (key : Nat) :
    Option (Nat × Nat × Nat) :=
  match tsd key, destructors key with
  | some value, some destructor => some (key, destructor, value)
  | _, _ => none

/-- The body of the loop of `thread_run_destructors`. -/
def runKey (destructors : Nat -> Option Nat)
    (r : List (Nat × Nat × Nat) × (Nat -> Option Nat)) (i : Nat) :
    List (Nat × Nat × Nat) × (Nat -> Option Nat) :=
  match due destructors r.2 i with
  | none => r
  | some call => (r.1 ++ [call], update r.2 i none)

def threadRunDestructors (s : State) : List (Nat × Nat × Nat) × State :=
  match s.tsd with
  | none => ([], s)
  | some tsd =>
      let (calls, tsd) :=
        (List.range' 1 s.tsdCount).foldl (runKey s.destructors) ([], tsd)
      (calls, { s with tsd := some tsd })

/-! ## Runs -/

inductive Call where
  | setTsd (key : Nat) (value : Option Nat) (memory : Bool)
  | keyCreate (place : Bool) (destructor : Option Nat)
  | keyDelete (key : Nat)

/-- The state with the last value that was set for each key and the destructor
that is registered. -/
structure History where
  state : State
  values : Nat -> Option Nat
  registered : Nat -> Option Nat

def History.call (h : History) : Call -> History
  | Call.setTsd key value memory =>
      match threadSetTsd h.state key value memory with
      | .error _ => h
      | .ok s => { h with state := s, values := update h.values key value }
  | Call.keyCreate place destructor =>
      match threadKeyCreate h.state place destructor with
      | (.error _, s) => { h with state := s }
      | (.ok key, s) => { h with
          state := s
          registered := update h.registered key destructor }
  | Call.keyDelete key =>
      match threadKeyDelete h.state key with
      | .error _ => h
      | .ok s => { h with state := s, registered := update h.registered key none }

def initial : History where
  state := ⟨1, fun _ => none, none, 0⟩
  values := fun _ => none
  registered := fun _ => none

/-- The values of the thread, all null as long as there is no array. -/
def State.values (s : State) : Nat -> Option Nat := s.tsd.getD fun _ => none

/-- Every key with a value is one that the loop visits. -/
structure Kept (h : History) : Prop where
  destructors : h.state.destructors = h.registered
  values : h.state.values = h.values
  visited : forall k, h.values k ≠ none -> 1 <= k ∧ k <= h.state.tsdCount
  small : h.state.tsdCount < 256

variable {h : History}

theorem Kept.store (hkept : Kept h) {count key : Nat}
    (hvisited : forall k, h.values k ≠ none -> 1 <= k ∧ k <= count)
    (hcount : count < 256) (hkey : ¬ (key = 0 ∨ 256 <= key))
    (value : Option Nat) :
    Kept { h with
      state := h.state.store h.values count key value
      values := update h.values key value } := by
  refine ⟨hkept.destructors, rfl, ?_, ?_⟩
  · intro k hk
    simp only [State.store, update_apply] at hk ⊢
    split at hk
    case isTrue heq => grind
    case isFalse =>
      have hold := hvisited k hk
      split <;> omega
  · simp only [State.store]
    split <;> omega

theorem Kept.call (hkept : Kept h) (call : Call) : Kept (h.call call) := by
  cases call with
  | setTsd key value memory =>
    have hvalues := hkept.values
    simp only [History.call, threadSetTsd]
    by_cases hkey : key = 0 ∨ 256 <= key
    · rw [if_pos hkey]
      exact hkept
    rw [if_neg hkey]
    cases htsd : h.state.tsd with
    | some tsd =>
      simp only [State.values, htsd, Option.getD_some] at hvalues
      rw [hvalues]
      exact hkept.store hkept.visited hkept.small hkey value
    | none =>
      simp only [State.values, htsd, Option.getD_none] at hvalues
      cases memory with
      | false => exact hkept
      | true =>
        rw [hvalues]
        refine hkept.store (fun k hk => ?_) (by decide) hkey value
        rw [<- hvalues] at hk
        exact absurd rfl hk
  | keyCreate place destructor =>
    simp only [History.call, threadKeyCreate]
    cases place with
    | false => exact { hkept with }
    | true =>
      by_cases hkey : 256 <= h.state.nextTsdKey
      · rw [if_neg (by simp), if_pos hkey]
        exact { hkept with }
      · rw [if_neg (by simp), if_neg hkey]
        exact { hkept with destructors := by rw [<- hkept.destructors] }
  | keyDelete key =>
    simp only [History.call, threadKeyDelete]
    by_cases hkey : key = 0 ∨ 256 <= key
    · rw [if_pos hkey]
      exact hkept
    · rw [if_neg hkey]
      exact { hkept with destructors := by rw [<- hkept.destructors] }

theorem due_update (destructors tsd : Nat -> Option Nat) (i k : Nat) :
    due destructors (update tsd i none) k =
      if k = i then none else due destructors tsd k := by
  unfold due
  by_cases hk : k = i <;> simp [hk]

theorem foldl_runKey {destructors tsd : Nat -> Option Nat} {keys : List Nat}
    (hkeys : keys.Nodup) (calls : List (Nat × Nat × Nat)) :
    keys.foldl (runKey destructors) (calls, tsd) =
      (calls ++ keys.filterMap (due destructors tsd), fun k =>
        if k ∈ keys ∧ due destructors tsd k ≠ none then none else tsd k) := by
  induction keys generalizing calls tsd with
  | nil => simp
  | cons i keys ih =>
    obtain ⟨hi, hkeys⟩ := List.nodup_cons.mp hkeys
    rw [List.foldl_cons, List.filterMap_cons]
    cases hdue : due destructors tsd i with
    | none =>
      have hstep : runKey destructors (calls, tsd) i = (calls, tsd) := by
        simp only [runKey, hdue]
      rw [hstep, ih hkeys]
      congr 1
      funext k
      by_cases hk : k = i <;> simp [hk, hdue]
    | some call =>
      have hstep : runKey destructors (calls, tsd) i =
          (calls ++ [call], update tsd i none) := by
        simp only [runKey, hdue]
      have hcalls : keys.filterMap (due destructors (update tsd i none)) =
          keys.filterMap (due destructors tsd) := by
        apply List.filterMap_congr
        intro k hk
        rw [due_update, if_neg (ne_of_mem_of_not_mem hk hi)]
      rw [hstep, ih hkeys, hcalls, List.append_assoc]
      congr 1
      funext k
      by_cases hk : k = i <;> simp [hk, hdue, due_update]

theorem threadRunDestructors_spec (s : State) :
    (threadRunDestructors s).1 =
        (List.range' 1 s.tsdCount).filterMap (due s.destructors s.values) ∧
      (threadRunDestructors s).2.destructors = s.destructors ∧
      (threadRunDestructors s).2.values = fun k =>
        if k ∈ List.range' 1 s.tsdCount ∧ due s.destructors s.values k ≠ none
        then none else s.values k := by
  unfold threadRunDestructors State.values
  cases htsd : s.tsd with
  | none => simp [due, htsd]
  | some tsd => simp [foldl_runKey List.nodup_range']

/-- After any calls the destructors run for the keys that have both a value and
a destructor, once each and in the order of the keys; the values they were given
are cleared, and running the destructors again calls none. -/
theorem tsd_destructors_run_once (calls : List Call) :
    let h := calls.foldl History.call initial
    let r := threadRunDestructors h.state
    r.1 = (List.range' 1 255).filterMap (due h.registered h.values) ∧
      (forall k, r.2.values k =
        if due h.registered h.values k ≠ none then none else h.values k) ∧
      (threadRunDestructors r.2).1 = [] := by
  have hkept : Kept (calls.foldl History.call initial) := by
    apply List.foldlRecOn (motive := Kept)
    · exact ⟨rfl, rfl, fun _ hk => absurd rfl hk, by decide⟩
    · exact fun h hkept call _ => hkept.call call
  generalize calls.foldl History.call initial = h at hkept ⊢
  have hdue (k : Nat) (hk : due h.registered h.values k ≠ none) :
      k ∈ List.range' 1 h.state.tsdCount := by
    rw [List.mem_range'_1]
    have hset := hkept.visited k (fun hnone => hk (by simp [due, hnone]))
    omega
  obtain ⟨hran, hsame, hleft⟩ := threadRunDestructors_spec h.state
  rw [hkept.destructors, hkept.values] at hran hleft
  have hvalues (k : Nat) : (threadRunDestructors h.state).2.values k =
      if due h.registered h.values k ≠ none then none else h.values k := by
    rw [hleft]
    by_cases hk : due h.registered h.values k = none
    · simp [hk]
    · simp [hk, hdue k hk]
  have hsmall := hkept.small
  have hrest : (List.range' (1 + h.state.tsdCount)
      (255 - h.state.tsdCount)).filterMap (due h.registered h.values) = [] := by
    rw [List.filterMap_eq_nil_iff]
    intro k hk
    by_contra hne
    have hlow := List.mem_range'_1.mp (hdue k hne)
    have hhigh := List.mem_range'_1.mp hk
    omega
  refine ⟨?_, hvalues, ?_⟩
  · rw [hran, show 255 = h.state.tsdCount + (255 - h.state.tsdCount) by omega,
      <- List.range'_append_1, List.filterMap_append, hrest, List.append_nil]
  · rw [(threadRunDestructors_spec _).left, hsame, hkept.destructors,
      List.filterMap_eq_nil_iff]
    intro k _
    unfold due at hvalues ⊢
    rw [hvalues k]
    grind

end Tsd
end Horizon
