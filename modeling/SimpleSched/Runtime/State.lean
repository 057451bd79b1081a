/-
# Runtime.State -- coroutines, processors and the global scheduler

`coroutine.rs`, `scheduler.rs` and the data of `processor.rs`.

A processor is the thread-local `PROCESSOR` of one OS thread; `P` names the
threads.  A thread is its processor together with the place its execution has
reached (`Pc`): in code of its own (`user`), in the loop of `Processor::schedule`
and what that calls, or in a coroutine it has resumed (`exec`), which is itself at
some `Point`.  What `Context::swap` saves of a coroutine is where it will go on
(`Context`).

A coroutine is named by its address; an address is given out once, so a handle
that outlives its coroutine is visible as one.  The four counters of a
`Coroutine` are its history: they are written and never read by the code.
-/
import SimpleSched.Mio

namespace SimpleSched.Runtime

set_option autoImplicit false

open Mio

def GLOBAL_QUEUE_SIZE : Nat := 0x1000
def MAX_TOKEN_NUM : Nat := 102400

/-! ## coroutine.rs -/

/-- The enum `coroutine::State`. -/
inductive State
  | suspended
  | blocked
  | panicked
  | finished
  deriving DecidableEq, Repr

inductive Error
  | panicking
  deriving DecidableEq, Repr

abbrev Result := Except Error State

/-- The raw pointer `coro_ptr`. -/
abbrev CoroutineRefMut := Nat

/-- Where a coroutine goes on when it is resumed: at the start of
`coroutine_initialize`, after the yield in `Processor::spawn_opts`, `sched`,
`block` or `wait_event` (on the event loop of `p`, with its slab token), or in the
loop that ends `coroutine_initialize`. -/
inductive Context (P : Type)
  | coroutineInitialize
  | spawnOpts
  | sched
  | block
  | waitEvent (p : P) (token : Token)
  | exited (st : State)
  deriving DecidableEq, Repr

/-- The memory a handle points to. -/
inductive Cell (P : Type)
  | unborn
  | saved (k : Context P)
  | running
  | freed
  deriving DecidableEq, Repr

structure Coroutine (P : Type) where
  cell : Cell P
  resumed : Nat
  ended : Nat
  finished : Nat
  dropped : Nat
  deriving DecidableEq, Repr

def Coroutine.unborn {P : Type} : Coroutine P := ⟨.unborn, 0, 0, 0, 0⟩

/-- A coroutine `Coroutine::spawn_opts` has just boxed. -/
def Coroutine.spawned {P : Type} : Coroutine P := ⟨.saved .coroutineInitialize, 0, 0, 0, 0⟩

/-! ## processor.rs -/

/-- Where the coroutine a thread executes has got to: in its own closure, between
the halves of `Scheduler::spawn_opts`, in `wait_event` after `slabs.insert` or
after `register_opt`, or in the loop that ends `coroutine_initialize`. -/
inductive Point
  | user
  | spawnOpts
  | inserted (token : Token) (fd : Fd) (interest : EventSet)
  | registered (token : Token)
  | exiting (st : State)
  deriving DecidableEq, Repr

def Context.point {P : Type} : Context P → Point
  | .exited st => .exiting st
  | _ => .user

/-- Where a thread has got to. -/
inductive Pc
  /-- outside `schedule`, with no coroutine; `userSpawn` is between the halves of
  `Scheduler::spawn_opts` -/
  | user
  | userSpawn
  /-- the `match self.work_queue.pop()` of `schedule` and its `None` arm -/
  | pop
  | empty
  | workCount
  /-- `run_once`, and `IoHandler::ready` for each of the remaining tokens -/
  | runOnce
  | handle (tokens : List Token)
  | deregister (c : CoroutineRefMut) (fd : Fd) (tokens : List Token)
  | wake (c : CoroutineRefMut) (tokens : List Token)
  /-- the `while let Some(hdl) = self.new_spawned.take()` of `schedule` -/
  | drain
  /-- `run_task(c)`: before `yield_to`, in the coroutine, after `yield_to`, in
  `Scheduler::ready`, and in the two halves of `Scheduler::finished` -/
  | runTask (c : CoroutineRefMut)
  | exec (c : CoroutineRefMut) (pt : Point)
  | back (c : CoroutineRefMut)
  | requeue (c : CoroutineRefMut)
  | finish (c : CoroutineRefMut)
  | free (c : CoroutineRefMut)
  /-- `schedule` has returned `Ok` or `Err` -/
  | done
  | failed
  /-- the thread has left the code: it used freed memory, or `unwrap` panicked
  outside any coroutine -/
  | crashed
  deriving DecidableEq, Repr

structure Processor where
  eventLoop : EventLoop
  slabs : Slab (CoroutineRefMut × Fd) MAX_TOKEN_NUM
  curRunning : Option CoroutineRefMut
  lastResult : Option Result
  newSpawned : Option CoroutineRefMut

def Processor.new : Processor := ⟨.new, .empty, none, none, none⟩

structure Thread extends Processor where
  pc : Pc

/-- The handle the thread itself works on: the coroutine it executes, or the one
`run_task` or `IoHandler::ready` has in a local variable. -/
def Pc.hand : Pc → Option CoroutineRefMut
  | .deregister c _ _ | .wake c _ | .runTask c | .exec c _ | .back c | .requeue c
  | .finish c | .free c => some c
  | _ => none

/-- The tokens `run_once` has taken and not yet handed to `IoHandler::ready`. -/
def Pc.batch : Pc → List Token
  | .handle tokens | .deregister _ _ tokens | .wake _ tokens => tokens
  | _ => []

/-- Between the two halves of `Scheduler::spawn_opts`. -/
def Pc.spawning : Pc → Bool
  | .userSpawn | .exec _ .spawnOpts => true
  | _ => false

/-- The coroutine whose closure a thread executes. -/
def Pc.closure : Pc → Option CoroutineRefMut
  | .exec h .user => some h
  | _ => none

/-- In the retry loop of `Scheduler::ready`. -/
def Pc.pushing : Pc → Option CoroutineRefMut
  | .wake c _ | .requeue c => some c
  | _ => none

theorem Pc.hand_of_pushing {pc : Pc} {c : CoroutineRefMut} (pushing : pc.pushing = some c) :
    pc.hand = some c := by
  cases pc <;> simp_all [Pc.pushing, Pc.hand]

/-! ## The system -/

/-- The global scheduler, every thread, every coroutine, which conditions hold of
which descriptors, and the descriptors closed by dropping an `Io`. -/
structure Sys (P : Type) where
  globalQueue : BoundedQueue CoroutineRefMut GLOBAL_QUEUE_SIZE
  /-- an `AtomicUsize`; below zero it has wrapped, and wraps back at zero -/
  workCounts : Int
  threads : P → Thread
  coros : CoroutineRefMut → Coroutine P
  next : Nat
  holds : Fd → EventSet → Bool
  closed : List Fd

namespace Sys

variable {P : Type}

def init : Sys P where
  globalQueue := .empty
  workCounts := 0
  threads := fun _ => { Processor.new with pc := .user }
  coros := fun _ => .unborn
  next := 0
  holds := fun _ _ => false
  closed := []

def setCoro (s : Sys P) (c : CoroutineRefMut) (x : Coroutine P) : Sys P :=
  { s with coros := Function.update s.coros c x }

variable [DecidableEq P]

def setThread (s : Sys P) (p : P) (t : Thread) : Sys P :=
  { s with threads := Function.update s.threads p t }

def setPc (s : Sys P) (p : P) (pc : Pc) : Sys P :=
  s.setThread p { s.threads p with pc := pc }

section Fields

variable (s : Sys P) (p q : P) (t : Thread) (c d : CoroutineRefMut) (x : Coroutine P) (pc : Pc)

@[simp] theorem setThread_globalQueue : (s.setThread p t).globalQueue = s.globalQueue := rfl
@[simp] theorem setThread_workCounts : (s.setThread p t).workCounts = s.workCounts := rfl
@[simp] theorem setThread_coros : (s.setThread p t).coros = s.coros := rfl
@[simp] theorem setThread_next : (s.setThread p t).next = s.next := rfl
@[simp] theorem setThread_holds : (s.setThread p t).holds = s.holds := rfl
@[simp] theorem setThread_threads :
    (s.setThread p t).threads = Function.update s.threads p t := rfl

@[simp] theorem setPc_globalQueue : (s.setPc p pc).globalQueue = s.globalQueue := rfl
@[simp] theorem setPc_workCounts : (s.setPc p pc).workCounts = s.workCounts := rfl
@[simp] theorem setPc_coros : (s.setPc p pc).coros = s.coros := rfl
@[simp] theorem setPc_next : (s.setPc p pc).next = s.next := rfl
@[simp] theorem setPc_holds : (s.setPc p pc).holds = s.holds := rfl
@[simp] theorem setPc_threads :
    (s.setPc p pc).threads = Function.update s.threads p { s.threads p with pc := pc } := rfl

omit [DecidableEq P]

@[simp] theorem setCoro_globalQueue : (s.setCoro c x).globalQueue = s.globalQueue := rfl
@[simp] theorem setCoro_workCounts : (s.setCoro c x).workCounts = s.workCounts := rfl
@[simp] theorem setCoro_threads : (s.setCoro c x).threads = s.threads := rfl
@[simp] theorem setCoro_next : (s.setCoro c x).next = s.next := rfl
@[simp] theorem setCoro_holds : (s.setCoro c x).holds = s.holds := rfl
@[simp] theorem setCoro_coros : (s.setCoro c x).coros = Function.update s.coros c x := rfl

end Fields

end Sys

end SimpleSched.Runtime
