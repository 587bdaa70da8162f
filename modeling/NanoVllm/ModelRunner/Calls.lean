import NanoVllm.Library.Bytes
import Mathlib.Logic.Function.Basic
import Mathlib.Algebra.BigOperators.Group.List.Basic

/-!
# Calls of all ranks

Rank 0 sends each call to the other ranks: it writes the call to shared memory, sets the event of
every rank and then makes the call itself. A rank waits for its event, reads the memory, clears the
event and makes the same call. Nothing answers rank 0. But each of the calls which several ranks
make has a collective, and this returns on rank 0 after every rank has joined it.

Every access to the memory, to an event and to a collective is a step of its own, so a list of
actions is an interleaving of the ranks. The collectives of a call count as one, and what a call
does on its rank besides is left out.
-/

namespace NanoVllm.Ranks

open Bytes

/--
The calls which several ranks make, with the arguments of `run`. The methods for pages are called
with one rank only, as `LLMEngine.__init__` refuses a storage backend with several.
-/
inductive Call (A : Type) where
  | run (args : A)
  | exit
  deriving DecidableEq, Repr

/-- `method_name == "exit"`. -/
def Call.exits {A : Type} : Call A → Bool
  | .run _ => false
  | .exit => true

/-- `pickle`, on the calls of the model runner. -/
structure Pickle (A : Type) where
  dumps : Call A → List UInt8
  loads : List UInt8 → Option (Call A)
  loads_dumps : ∀ call, loads (dumps call) = some call

/-- Where rank 0 is in `call`. -/
inductive RootPhase (A : Type) where
  | idle
  /-- In `write_shm`, after the length. -/
  | sizeWritten (call : Call A)
  /-- In `write_shm`, with the events which are not yet set. -/
  | signalling (call : Call A) (remaining : List ℕ)
  /-- In the method. -/
  | calling (call : Call A)
  /-- In the collective of the method. -/
  | joined (call : Call A)
  | exited
  deriving DecidableEq, Repr

/-- Where another rank is in `loop`. -/
inductive WorkerPhase (A : Type) where
  /-- In `event.wait()`. -/
  | waiting
  /-- In `read_shm`, after the length. -/
  | reading (n : ℕ)
  /-- In `read_shm`, before `event.clear()`. -/
  | clearing (call : Call A)
  /-- In the method. -/
  | calling (call : Call A)
  /-- In the method, after its collective. -/
  | joined (call : Call A)
  /-- `pickle.loads` has raised. -/
  | failed
  | exited
  deriving DecidableEq, Repr

/-- A rank other than rank 0, with its event and the calls which it has read. -/
structure Worker (A : Type) where
  event : Bool := false
  phase : WorkerPhase A := .waiting
  /-- The number of collectives which it has joined. -/
  collectives : ℕ := 0
  received : List (Call A) := []

/-- The shared memory and all ranks, with the calls which rank 0 has written. -/
structure State (A : Type) where
  buf : List UInt8
  root : RootPhase A := .idle
  collectives : ℕ := 0
  sent : List (Call A) := []
  workers : ℕ → Worker A := fun _ => {}

/-- What a rank does next. -/
inductive Action (A : Type) where
  /-- Rank 0 enters `call`. -/
  | call (call : Call A)
  /-- Rank 0 goes on. -/
  | root
  /-- Another rank goes on. -/
  | worker (rank : ℕ)
  deriving DecidableEq, Repr

variable {A : Type}

/-- The bytes `buf[start:start + len(data)] = data`. -/
def overwrite (start : ℕ) (data buf : List UInt8) : List UInt8 :=
  buf.take start ++ data ++ buf.drop (start + data.length)

/-- The other ranks, in the order of their events. -/
def ranks (worldSize : ℕ) : List ℕ := List.range' 1 (worldSize - 1)

namespace State

def setWorker (s : State A) (i : ℕ) (worker : Worker A) : State A :=
  { s with workers := Function.update s.workers i worker }

@[simp] theorem setWorker_self (s : State A) (i : ℕ) (worker : Worker A) :
    (s.setWorker i worker).workers i = worker := Function.update_self ..

theorem setWorker_of_ne (s : State A) {i j : ℕ} (worker : Worker A) (other : j ≠ i) :
    (s.setWorker i worker).workers j = s.workers j := Function.update_of_ne other ..

/-- `write_shm` up to the length, unless this does not fit into four bytes. -/
def enterCall (pickle : Pickle A) (s : State A) (call : Call A) : Option (State A) :=
  let n := (pickle.dumps call).length
  match s.root with
  | .idle =>
      if n < 2 ^ 32 then
        some { s with buf := overwrite 0 (littleEndian 4 n) s.buf, root := .sizeWritten call }
      else none
  | _ => none

/-- The next step of rank 0 in a call. -/
def rootStep (worldSize : ℕ) (pickle : Pickle A) (s : State A) : Option (State A) :=
  match s.root with
  | .idle => none
  | .sizeWritten call =>
      let data := pickle.dumps call
      if data.length + 4 ≤ s.buf.length then
        some { s with
          buf := overwrite 4 data s.buf
          root := .signalling call (ranks worldSize)
          sent := s.sent ++ [call] }
      -- The slice is shorter than the data, so the assignment raises.
      else some { s with root := .idle }
  | .signalling call (i :: remaining) =>
      some { s.setWorker i { s.workers i with event := true } with
        root := .signalling call remaining }
  | .signalling call [] => some { s with root := .calling call }
  | .calling call => some { s with root := .joined call, collectives := s.collectives + 1 }
  | .joined call =>
      if ∀ i ∈ ranks worldSize, s.collectives ≤ (s.workers i).collectives then
        some { s with root := if call.exits then .exited else .idle }
      else none
  | .exited => none

/-- The next step of another rank. -/
def workerStep (pickle : Pickle A) (buf : List UInt8) (worker : Worker A) : Option (Worker A) :=
  match worker.phase with
  | .waiting =>
      if worker.event then
        some { worker with phase := .reading (ofLittleEndian (slice 0 4 buf)) }
      else none
  | .reading n =>
      match pickle.loads (slice 4 (n + 4) buf) with
      | some call =>
          some { worker with phase := .clearing call, received := worker.received ++ [call] }
      | none => some { worker with phase := .failed }
  | .clearing call => some { worker with event := false, phase := .calling call }
  | .calling call =>
      some { worker with phase := .joined call, collectives := worker.collectives + 1 }
  | .joined call =>
      some { worker with phase := if call.exits then .exited else .waiting }
  | .failed => none
  | .exited => none

/-- The state after an action. -/
def next (worldSize : ℕ) (pickle : Pickle A) (s : State A) : Action A → Option (State A)
  | .call call => s.enterCall pickle call
  | .root => s.rootStep worldSize pickle
  | .worker i =>
      if i ∈ ranks worldSize then
        (workerStep pickle s.buf (s.workers i)).map (s.setWorker i)
      else none

end State

/-- The states which the ranks reach with a shared memory of some size. -/
inductive Reachable (worldSize : ℕ) (pickle : Pickle A) (size : ℕ) : State A → Prop
  | initial : Reachable worldSize pickle size { buf := List.replicate size 0 }
  | step {s s' : State A} {action : Action A} (reachable : Reachable worldSize pickle size s)
      (stepped : s.next worldSize pickle action = some s') : Reachable worldSize pickle size s'

end NanoVllm.Ranks
