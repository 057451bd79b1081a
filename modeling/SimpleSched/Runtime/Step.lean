/-
# Runtime.Step -- one step of one thread

`processor.rs` and `scheduler.rs` as a step function.  A step touches at most one
thing threads share (the global queue, the work counter), so the interleavings of
steps are the interleavings of the threads.  The label carries every choice: which
thread moves, what its program does next, what the kernel answers.  Programs are
not restricted here; a claim about some programs is a claim about the runs whose
labels those programs take.

`work_counts` is an `AtomicUsize`.  Each unit in it is a boxed coroutine, so it
does not reach `2 ^ 64` from below, but `fetch_sub` wraps at zero where coroutines
finish that were not counted.  It is an integer here: `- n` stands for `2 ^ 64 - n`,
and `fetch_add` leads back to zero from there.
-/
import SimpleSched.Runtime.State
import SimpleSched.Theory.Lts

namespace SimpleSched.Runtime

set_option autoImplicit false

open Mio Theory

variable {P : Type} [DecidableEq P]

/-! ## scheduler.rs -/

namespace Sys

/-- The `fetch_add` of `Scheduler::spawn_opts`. -/
def fetchAdd (s : Sys P) (p : P) (pc : Pc) : Sys P :=
  { s with workCounts := s.workCounts + 1 }.setPc p pc

/-- One attempt of the loop in `Scheduler::ready`; a full queue is tried again. -/
def ready (s : Sys P) (p : P) (c : CoroutineRefMut) (pc : Pc) : Sys P :=
  match s.globalQueue.push c with
  | some q => { s with globalQueue := q }.setPc p pc
  | none => s

/-- The `fetch_sub` of `Scheduler::finished`. -/
def finished (s : Sys P) (p : P) (c : CoroutineRefMut) : Sys P :=
  ({ s with workCounts := s.workCounts - 1 }.setPc p (.free c)).setCoro c
    { s.coros c with finished := (s.coros c).finished + 1 }

/-- The `Box::from_raw` and drop of `Scheduler::finished`. -/
def dropBox (s : Sys P) (p : P) (c : CoroutineRefMut) : Sys P :=
  match (s.coros c).cell with
  | .saved _ => (s.setPc p .drain).setCoro c
      { s.coros c with cell := .freed, dropped := (s.coros c).dropped + 1 }
  | _ => s.setPc p .crashed

/-! ## processor.rs: context switches -/

/-- Lines up to `yield_to` of `Processor::resume`. -/
def resume (s : Sys P) (p : P) (c : CoroutineRefMut) : Sys P :=
  match (s.coros c).cell with
  | .saved k => (s.setThread p { s.threads p with curRunning := some c, pc := .exec c k.point }).setCoro c
      { s.coros c with cell := .running, resumed := (s.coros c).resumed + 1 }
  | _ => s.setThread p { s.threads p with curRunning := some c, pc := .crashed }

/-- What `run_task` does with the result of `resume`. -/
def runTaskArm (c : CoroutineRefMut) : Result → Pc
  | .ok .suspended => .requeue c
  | .ok .finished | .ok .panicked => .finish c
  | .ok .blocked => .drain
  | .error .panicking => .finish c

theorem runTaskArm_cases (c : CoroutineRefMut) (r : Result) :
    runTaskArm c r = .requeue c ∨ runTaskArm c r = .finish c ∨ runTaskArm c r = .drain := by
  rcases r with _ | _ | _ | _ | _ <;> simp [runTaskArm]

/-- The `last_result.take()` that ends `Processor::resume`, and the arm of
`run_task` it selects. -/
def resumed (s : Sys P) (p : P) (c : CoroutineRefMut) : Sys P :=
  s.setThread p { s.threads p with
    lastResult := none
    pc := runTaskArm c ((s.threads p).lastResult.getD (.ok .suspended)) }

/-- `Processor::yield_with`, called by the coroutine the thread executes for
`run_task(h)`: `sched` and `block` are this with a fixed result.  The context is
saved in the coroutine `cur_running` names; with `None` there the call returns. -/
def yieldWith (s : Sys P) (p : P) (h : CoroutineRefMut) (r : Result) (k : Context P) (stay : Point) :
    Sys P :=
  match (s.threads p).curRunning with
  | none => s.setPc p (.exec h stay)
  | some c => (s.setThread p { s.threads p with
      curRunning := none, lastResult := some r, pc := .back h }).setCoro c
        { s.coros c with cell := .saved k }

/-- The same call from a thread that is outside `schedule` (`none`) or from the
closure of `h`. -/
def yieldFrom (s : Sys P) (p : P) (caller : Option CoroutineRefMut) (r : Result) (k : Context P) :
    Sys P :=
  match caller with
  | some h => s.yieldWith p h r k .user
  | none =>
    match (s.threads p).curRunning with
    | none => s.setPc p .user
    | some _ => s.setPc p .crashed

/-- A coroutine is boxed and put in `new_spawned`. -/
def boxSpawned (s : Sys P) (p : P) : Sys P :=
  ({ s with next := s.next + 1 }.setCoro s.next .spawned).setThread p
    { s.threads p with newSpawned := some s.next }

/-- `Processor::spawn_opts`, which ends with `self.sched()`. -/
def spawnOpts (s : Sys P) (p : P) (caller : Option CoroutineRefMut) : Sys P :=
  (s.boxSpawned p).yieldFrom p caller (.ok .suspended) .spawnOpts

/-! ## The end of a closure -/

def endClosure (s : Sys P) (h : CoroutineRefMut) : Sys P :=
  s.setCoro h { s.coros h with ended := (s.coros h).ended + 1 }

/-- The closure of `h` has returned. -/
def ret (s : Sys P) (p : P) (h : CoroutineRefMut) : Sys P :=
  (s.endClosure h).yieldWith p h (.ok .finished) (.exited .finished) (.exiting .finished)

/-- The closure of `h` has panicked. -/
def panic (s : Sys P) (p : P) (h : CoroutineRefMut) : Sys P :=
  (s.endClosure h).yieldWith p h (.error .panicking) (.exited .panicked) (.exiting .panicked)

/-! ## wait_event and IoHandler::ready -/

/-- The `slabs.insert` of `Processor::wait_event`.  On a full slab it hands the
entry back, `unwrap` panics, and dropping the entry closes the descriptor.  What
another coroutine has registered of that descriptor stays, which epoll forgets. -/
def insertWaiter (s : Sys P) (p : P) (h : CoroutineRefMut) (fd : Fd) (interest : EventSet)
    (token : Token) : Option (Sys P) :=
  match (s.threads p).curRunning with
  | none => some (s.panic p h)
  | some c =>
    if (s.threads p).slabs.count = MAX_TOKEN_NUM then
      some ({ s with closed := fd :: s.closed }.panic p h)
    else
      ((s.threads p).slabs.insert token (c, fd)).map fun slabs =>
        s.setThread p { s.threads p with slabs := slabs, pc := .exec h (.inserted token fd interest) }

/-- The `register_opt` of `Processor::wait_event`.  The kernel refuses a
descriptor this loop has, and may refuse any; `try!` returns the error. -/
def register (s : Sys P) (p : P) (h : CoroutineRefMut) (token : Token) (fd : Fd)
    (interest : EventSet) (ok : Bool) : Option (Sys P) :=
  if ok then
    ((s.threads p).eventLoop.registerOpt fd token interest (s.holds fd interest)).map fun l =>
      s.setThread p { s.threads p with eventLoop := l, pc := .exec h (.registered token) }
  else some (s.setPc p (.exec h .user))

/-- `IoHandler::ready` up to the `match` on `slabs.remove(token)`. -/
def handleEvent (s : Sys P) (p : P) (token : Token) (rest : List Token) : Sys P :=
  match (s.threads p).slabs.remove token with
  | some ((c, fd), slabs) =>
      s.setThread p { s.threads p with slabs := slabs, pc := .deregister c fd rest }
  | none => s.setPc p (.handle rest)

/-- The `event_loop.deregister(&fd).unwrap()` of `IoHandler::ready`. -/
def deregister (s : Sys P) (p : P) (c : CoroutineRefMut) (fd : Fd) (rest : List Token) : Sys P :=
  match (s.threads p).eventLoop.deregister fd with
  | some l => s.setThread p { s.threads p with eventLoop := l, pc := .wake c rest }
  | none => s.setPc p .crashed

/-- The condition `interest` of `fd` becomes true or false. -/
def setHolds (s : Sys P) (fd : Fd) (interest : EventSet) (b : Bool) : Sys P :=
  { s with
    holds := fun f e => if f = fd ∧ e = interest then b else s.holds f e
    threads := fun p => { s.threads p with
      eventLoop := if b then (s.threads p).eventLoop.notify fd interest else (s.threads p).eventLoop } }

/-! ## schedule -/

/-- `self.work_queue.pop()` in `schedule`. -/
def popQueue (s : Sys P) (p : P) : Sys P :=
  match s.globalQueue.pop with
  | some (c, q) => { s with globalQueue := q }.setPc p (.runTask c)
  | none => s.setPc p .empty

/-- `self.new_spawned.take()` in `schedule`. -/
def drain (s : Sys P) (p : P) : Sys P :=
  match (s.threads p).newSpawned with
  | some c => s.setThread p { s.threads p with newSpawned := none, pc := .runTask c }
  | none => s.setPc p .pop

/-- The steps a thread takes with no choice of its program or the kernel. -/
def tau (s : Sys P) (p : P) : Option (Sys P) :=
  match (s.threads p).pc with
  | .pop => some (s.popQueue p)
  | .empty => some (s.setPc p (if (s.threads p).slabs.count ≠ 0 then .runOnce else .workCount))
  | .workCount => some (s.setPc p (if s.workCounts = 0 then .done else .drain))
  | .handle [] => some (s.setPc p .drain)
  | .handle (token :: rest) => some (s.handleEvent p token rest)
  | .deregister c fd rest => some (s.deregister p c fd rest)
  | .wake c rest => some (s.ready p c (.handle rest))
  | .drain => some (s.drain p)
  | .runTask c => some (s.resume p c)
  | .exec h (.registered token) =>
      some (s.yieldWith p h (.ok .blocked) (.waitEvent p token) .user)
  | .exec h (.exiting st) => some (s.yieldWith p h (.ok st) (.exited st) (.exiting st))
  | .back c => some (s.resumed p c)
  | .requeue c => some (s.ready p c .drain)
  | .finish c => some (s.finished p c)
  | .free c => some (s.dropBox p c)
  | _ => none

end Sys

/-! ## Labels -/

inductive Act (P : Type)
  /-- `Scheduler::spawn_opts` (`Scheduler::spawn`, `simplesched::spawn`, `spawn_opts` and
  `Builder::spawn` call it and nothing else), and the `Processor::spawn_opts` it calls -/
  | spawn (p : P)
  | spawnInner (p : P)
  /-- `Processor::current().spawn_opts`, called by the program itself -/
  | processorSpawn (p : P)
  | sched (p : P)
  | block (p : P)
  /-- `Processor::wait_event`, with the token `slabs.insert` picks, and the answer
  of `register_opt` -/
  | waitEvent (p : P) (fd : Fd) (interest : EventSet) (token : Token)
  | register (p : P) (ok : Bool)
  | ret (p : P)
  | panic (p : P)
  /-- calling `schedule`, and going on after it has returned -/
  | enter (p : P)
  | leave (p : P)
  /-- `run_once` takes the events of these descriptors, or returns `Err` -/
  | poll (p : P) (fds : List Fd)
  | pollErr (p : P)
  | setHolds (fd : Fd) (interest : EventSet) (b : Bool)
  | tau (p : P)
  deriving DecidableEq

/-- Who may call into the scheduler here: a thread outside `schedule`, or a
closure. -/
def Pc.caller : Pc → Option (Option CoroutineRefMut)
  | .user => some none
  | .exec h .user => some (some h)
  | _ => none

def step (s : Sys P) : Act P → Option (Sys P)
  | .spawn p =>
    match (s.threads p).pc with
    | .user => some (s.fetchAdd p .userSpawn)
    | .exec h .user => some (s.fetchAdd p (.exec h .spawnOpts))
    | _ => none
  | .spawnInner p =>
    match (s.threads p).pc with
    | .userSpawn => some (s.spawnOpts p none)
    | .exec h .spawnOpts => some (s.spawnOpts p (some h))
    | _ => none
  | .processorSpawn p => (s.threads p).pc.caller.map (s.spawnOpts p)
  | .sched p => (s.threads p).pc.caller.map fun caller =>
      s.yieldFrom p caller (.ok .suspended) .sched
  | .block p => (s.threads p).pc.caller.map fun caller =>
      s.yieldFrom p caller (.ok .blocked) .block
  | .waitEvent p fd interest token =>
    match (s.threads p).pc with
    | .exec h .user => s.insertWaiter p h fd interest token
    | _ => none
  | .register p ok =>
    match (s.threads p).pc with
    | .exec h (.inserted token fd interest) => s.register p h token fd interest ok
    | _ => none
  | .ret p =>
    match (s.threads p).pc with
    | .exec h .user => some (s.ret p h)
    | _ => none
  | .panic p =>
    match (s.threads p).pc with
    | .exec h .user => some (s.panic p h)
    | _ => none
  | .enter p => if (s.threads p).pc = .user then some (s.setPc p .pop) else none
  | .leave p =>
    if (s.threads p).pc = .done ∨ (s.threads p).pc = .failed then some (s.setPc p .user) else none
  | .poll p fds =>
    if (s.threads p).pc = .runOnce then
      ((s.threads p).eventLoop.poll fds).map fun (l, tokens) =>
        s.setThread p { s.threads p with eventLoop := l, pc := .handle tokens }
    else none
  | .pollErr p => if (s.threads p).pc = .runOnce then some (s.setPc p .failed) else none
  | .setHolds fd interest b => some (s.setHolds fd interest b)
  | .tau p => s.tau p

def system (P : Type) [DecidableEq P] : Lts (Sys P) (Act P) := ⟨step⟩

end SimpleSched.Runtime
