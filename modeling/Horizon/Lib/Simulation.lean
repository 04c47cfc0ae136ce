/-!
# Simulations

Machines that answer one input after the other, and when one of them cannot be
told from another by its answers.
-/

namespace Horizon
namespace Simulation

variable {state spec input output : Type}

/-- The answers to a list of inputs, and the state after them. -/
def answers (step : state -> input -> output × state) :
    state -> List input -> List output × state
  | s, [] => ([], s)
  | s, i :: is =>
      let (out, next) := step s i
      let (outs, last) := answers step next is
      (out :: outs, last)

/-- On the inputs that meet a condition, related states give the same answer and
go on to related states. -/
structure Simulates (rel : state -> spec -> Prop) (ok : input -> Prop)
    (step : state -> input -> output × state)
    (step' : spec -> input -> output × spec) : Prop where
  answer : forall {s t i}, rel s t -> ok i -> (step s i).1 = (step' t i).1
  next : forall {s t i}, rel s t -> ok i -> rel (step s i).2 (step' t i).2

theorem Simulates.answers {rel : state -> spec -> Prop} {ok : input -> Prop}
    {step : state -> input -> output × state}
    {step' : spec -> input -> output × spec}
    (h : Simulates rel ok step step') {s : state} {t : spec} (hrel : rel s t)
    (is : List input) (hok : forall i, i ∈ is -> ok i) :
    (Simulation.answers step s is).1 =
        (Simulation.answers step' t is).1 ∧
      rel (Simulation.answers step s is).2 (Simulation.answers step' t is).2 := by
  induction is generalizing s t with
  | nil => exact ⟨rfl, hrel⟩
  | cons i is ih =>
    have hi : ok i := hok i List.mem_cons_self
    have hrest := ih (h.next hrel hi) fun j hj =>
      hok j (List.mem_cons_of_mem i hj)
    constructor
    · show (step s i).1 :: _ = (step' t i).1 :: _
      rw [h.answer hrel hi, hrest.1]
    · exact hrest.2

end Simulation
end Horizon
