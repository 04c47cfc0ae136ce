import Horizon.Lib.Ledger
import Horizon.Lib.Transition
import Mathlib.Algebra.Group.Nat.Defs

/-!
# Asynchronous I/O

The contexts of `aio.c` and their events. A context owns the events that
`io_setup` allocates for it; they move from its list of available events to that
of active ones in `io_submit`, and back in `io_getevents` and `io_cancel`. Each
call holds the mutex of the context, or that of the table, so that calls are the
steps of the model. A completion that arrives while `io_getevents` walks the
list counts as one before the call if its event is still ahead, and as one after
it otherwise.

Pointers are numbers and 0 is `NULL`.
-/

namespace Horizon
namespace Aio

open Function

/-!
## State
-/

structure Event where
  iocb : Nat
  res : Int
  res2 : Int
  status : Int
  flags : Int

def Event.zero : Event where
  iocb := 0
  res := 0
  res2 := 0
  status := 0
  flags := 0

structure Context where
  nrEvents : Nat
  nrActive : Nat
  active : List Nat
  available : List Nat

/-- An entry of the array that `io_getevents` fills. -/
structure IoEvent where
  data : Nat
  obj : Nat
  res : Int
  res2 : Int
  deriving DecidableEq

/-- What a block was allocated for. -/
inductive Block where
  | context
  | event (ctx : Nat)
  deriving DecidableEq

/-- A control block that was handed back, with the number of the submission it
answers. -/
structure Returned where
  ticket : Nat
  ctx : Nat
  obj : Nat
  deriving DecidableEq

structure State where
  /-- The table `aio_contexts`. -/
  contexts : Nat -> Option Nat
  context : Nat -> Context
  event : Nat -> Event
  heap : Ledger Block
  -- the history: all submissions in their order, the one that an event carries,
  -- and the control blocks returned so far
  submitted : List (Nat × Nat)
  ticket : Nat -> Nat
  returned : List Returned

def maxAioContexts : Nat := 1024

def State.Live (s : State) (ctx : Nat) : Prop :=
  exists i, s.contexts i = some ctx

/-!
## Set-up and destruction
-/

def firstSlot (test : Nat -> Bool) : Nat -> Nat -> Option Nat
  | 0, _ => none
  | left + 1, i => if test i then some i else firstSlot test left (i + 1)

def State.allocContext (s : State) (ctx nrEvents : Nat) : State :=
  { s with
    heap := s.heap.alloc ctx .context
    context := update s.context ctx
      { nrEvents := nrEvents, nrActive := 0, active := [], available := [] } }

/-- A cleared event at the end of the available ones. -/
def State.allocEvent (s : State) (ctx event : Nat) : State :=
  { s with
    heap := s.heap.alloc event (.event ctx)
    event := update s.event event .zero
    context := update s.context ctx
      { s.context ctx with available := (s.context ctx).available ++ [event] } }

def State.kfree (s : State) (a : Nat) : State :=
  { s with heap := s.heap.free a }

/-- The loop of `io_setup`: `memory` holds the results of `kmalloc`, the
first one for the context. -/
def allocEvents (memory : Nat -> Option Nat) (ctx : Nat) :
    Nat -> Nat -> State -> Bool × State
  | 0, _, s => (true, s)
  | left + 1, i, s =>
      match memory (i + 1) with
      | none => (false, s)
      | some event =>
          allocEvents memory ctx left (i + 1) (s.allocEvent ctx event)

def freeEvents (ctx : Nat) : List Nat -> State -> State
  | [], s => s
  | event :: rest, s =>
      let s := { s with
        context := update s.context ctx
          { s.context ctx with available := rest } }
      freeEvents ctx rest (s.kfree event)

/-- The second component is what is stored through `ctxp`, which is `NULL`
if the flag is not set. -/
def ioSetup (s : State) (nrEvents : Nat) (ctxp : Bool)
    (memory : Nat -> Option Nat) : Int × Option Nat × State :=
  if nrEvents = 0 ∨ ctxp = false then (-1, none, s)
  else
    match firstSlot (fun i => (s.contexts i).isNone) maxAioContexts 0 with
    | none => (-1, none, s)
    | some id =>
        match memory 0 with
        | none => (-1, none, s)
        | some ctx =>
            match allocEvents memory ctx nrEvents 0
                (s.allocContext ctx nrEvents) with
            | (false, s) =>
                (-1, none,
                  (freeEvents ctx (s.context ctx).available s).kfree ctx)
            | (true, s) =>
                (0, some ctx,
                  { s with contexts := update s.contexts id (some ctx) })

def ioDestroy (s : State) (ctx : Nat) : Int × State :=
  if ctx = 0 then (-1, s)
  else
    match firstSlot (fun i => s.contexts i == some ctx) maxAioContexts 0 with
    | none => (-1, s)
    | some id =>
        if 0 < (s.context ctx).nrActive then (-1, s)
        else
          let s := freeEvents ctx (s.context ctx).available s
          let s := { s with contexts := update s.contexts id none }
          (0, s.kfree ctx)

/-!
## Requests
-/

/-- The first available event becomes the last active one. -/
def State.start (s : State) (ctx event : Nat) (rest : List Nat) (iocb : Nat) :
    State :=
  { s with
    event := update s.event event { Event.zero with iocb := iocb }
    context := update s.context ctx
      { s.context ctx with
        available := rest
        active := (s.context ctx).active ++ [event]
        nrActive := ((s.context ctx).nrActive + 1) % 2 ^ 32 }
    submitted := s.submitted ++ [(ctx, iocb)]
    ticket := update s.ticket event s.submitted.length }

def submitLoop (iocbpp : Nat -> Nat) (ctx : Nat) :
    Nat -> Nat -> Int -> State -> Int × State
  | 0, _, count, s => (count, s)
  | left + 1, i, count, s =>
      match (s.context ctx).available with
      | [] => (count, s)
      | event :: rest =>
          if iocbpp i = 0 then submitLoop iocbpp ctx left (i + 1) count s
          else
            submitLoop iocbpp ctx left (i + 1) (count + 1)
              (s.start ctx event rest (iocbpp i))

def ioSubmit (s : State) (ctx : Nat) (nr : Int) (iocbpp : Option (Nat -> Nat)) :
    Int × State :=
  match iocbpp with
  | none => (-1, s)
  | some iocbpp =>
      if ctx = 0 ∨ nr <= 0 then (-1, s)
      else if (s.context ctx).available = [] then (-1, s)
      else submitLoop iocbpp ctx nr.toNat 0 0 s

/-- An active event becomes the last available one, and its control block is
handed back. -/
def State.finish (s : State) (ctx event : Nat) : State :=
  { s with
    context := update s.context ctx
      { s.context ctx with
        active := (s.context ctx).active.erase event
        available := (s.context ctx).available ++ [event]
        nrActive := ((s.context ctx).nrActive + (2 ^ 32 - 1)) % 2 ^ 32 }
    returned := s.returned ++
      [{ ticket := s.ticket event, ctx := ctx, obj := (s.event event).iocb }] }

def geteventsLoop (aioData : Nat -> Nat) (ctx : Nat) (nr : Int) :
    List Nat -> Int -> List IoEvent -> State -> Int × List IoEvent × State
  | [], count, events, s => (count, events, s)
  | event :: rest, count, events, s =>
      let e := s.event event
      if e.status = 0 then geteventsLoop aioData ctx nr rest count events s
      else if nr <= count then (count, events, s)
      else
        let entry : IoEvent :=
          { data := aioData e.iocb, obj := e.iocb, res := e.res, res2 := e.res2 }
        geteventsLoop aioData ctx nr rest (count + 1) (events ++ [entry])
          (s.finish ctx event)

/-- There is no result where the call waits. The flag says whether
`events` points anywhere, and `aioData` is the field of that name of
each control block. -/
def ioGetevents (s : State) (aioData : Nat -> Nat) (ctx : Nat) (minNr nr : Int)
    (events : Bool) : Option (Int × List IoEvent × State) :=
  if ctx = 0 ∨ minNr < 0 ∨ nr < 0 ∨ events = false then some (-1, [], s)
  else if (s.context ctx).nrActive < minNr.toNat then none
  else some (geteventsLoop aioData ctx nr (s.context ctx).active 0 [] s)

def ioCancel (s : State) (aioData : Nat -> Nat) (ctx iocb : Nat)
    (result : Bool) : Int × Option IoEvent × State :=
  if ctx = 0 ∨ iocb = 0 ∨ result = false then (-1, none, s)
  else
    match (s.context ctx).active.find? fun e => (s.event e).iocb == iocb with
    | none => (-1, none, s)
    | some event =>
        let e := s.event event
        (0,
          some { data := aioData e.iocb, obj := e.iocb, res := -1, res2 := 0 },
          s.finish ctx event)

/-!
## Runs
-/

inductive Call where
  | setup (nrEvents : Nat) (ctxp : Bool) (memory : Nat -> Option Nat)
  | destroy (ctx : Nat)
  | submit (ctx : Nat) (nr : Int) (iocbpp : Option (Nat -> Nat))
  | getevents (aioData : Nat -> Nat) (ctx : Nat) (minNr nr : Int)
      (events : Bool)
  | cancel (aioData : Nat -> Nat) (ctx iocb : Nat) (result : Bool)
  -- the device is done with a request
  | complete (event : Nat) (status res res2 : Int)

def next (s : State) : Call -> Option State
  | .setup nrEvents ctxp memory => some (ioSetup s nrEvents ctxp memory).2.2
  | .destroy ctx => some (ioDestroy s ctx).2
  | .submit ctx nr iocbpp => some (ioSubmit s ctx nr iocbpp).2
  | .getevents aioData ctx minNr nr events =>
      (ioGetevents s aioData ctx minNr nr events).map fun r => r.2.2
  | .cancel aioData ctx iocb result =>
      some (ioCancel s aioData ctx iocb result).2.2
  | .complete event status res res2 =>
      some { s with
        event := update s.event event
          { s.event event with status := status, res := res, res2 := res2 } }

/-- What `kmalloc` returns in a call of `io_setup`: any pattern of failures, and
otherwise blocks that are not in use. -/
structure Fresh (s : State) (memory : Nat -> Option Nat) : Prop where
  unheld : forall i a, memory i = some a -> a ≠ 0 ∧ s.heap.held a = none
  distinct : forall i j a, memory i = some a -> memory j = some a -> i = j

/-- A pointer to a context is `NULL` or that of a live one; only
`io_destroy` looks for it in the table. -/
def CallOk (s : State) : Call -> Prop
  | .setup nrEvents _ memory => nrEvents < 2 ^ 32 ∧ Fresh s memory
  | .destroy _ => True
  | .submit ctx _ _ => ctx = 0 ∨ s.Live ctx
  | .getevents _ ctx _ _ _ => ctx = 0 ∨ s.Live ctx
  | .cancel _ ctx _ _ => ctx = 0 ∨ s.Live ctx
  | .complete event status _ _ =>
      status ≠ 0 ∧ exists ctx, s.Live ctx ∧ event ∈ (s.context ctx).active

/-- After `aio_init`, before any call. -/
structure Init (s : State) : Prop where
  contexts : forall i, s.contexts i = none
  heap : s.heap = Ledger.empty
  submitted : s.submitted = []
  returned : s.returned = []

end Aio
end Horizon
