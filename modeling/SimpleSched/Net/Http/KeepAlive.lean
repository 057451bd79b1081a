/-
# Net.Http.KeepAlive -- the requests of one connection

`Worker::keep_alive_loop` and `Worker::handle_expect` of `net/http/server.rs`.  What
`Request::new` returns, call after call, is a list of outcomes; hyper's headers and
`should_keep_alive`, the handler and the writer are parameters.  A handler may change
the response headers and whatever the writer is.

`Serves` says without the loop which requests must be served: those before the first
that does not parse or pass its `Expect` check, and none after the first that one side
wants to be the last.  `serves_right`: the loop serves exactly these.
-/
import Mathlib.Order.Bounds.Defs
import Mathlib.Data.List.Basic

namespace SimpleSched.Net.Http

set_option autoImplicit false

/-! ## What hyper provides -/

inductive HttpVersion
  | http09
  | http10
  | http11
  | http20
  deriving DecidableEq, Repr

inductive Expect
  | Continue
  deriving DecidableEq, Repr

structure StatusCode where
  code : Nat
  deriving DecidableEq, Repr

def StatusCode.Continue : StatusCode := ⟨100⟩

structure Request (Method Uri Headers : Type) where
  method : Method
  uri : Uri
  version : HttpVersion
  headers : Headers

structure Response (Headers W : Type) where
  version : HttpVersion
  headers : Headers
  body : W

/-- `hyper::Error`, as far as `keep_alive_loop` tells errors apart. -/
inductive RequestError
  | connectionAborted
  | io
  | other
  deriving DecidableEq, Repr

/-- Headers, the decision about the connection, and how a status is displayed: the
strings its `Display` writes, one after the other. -/
structure Hyper (Headers : Type) where
  new : Headers
  setClose : Headers → Headers
  close : Headers → Bool
  expect : Headers → Option Expect
  shouldKeepAlive : HttpVersion → Headers → Bool
  display : StatusCode → List String
  new_close : close new = false
  setClose_close : ∀ headers, close (setClose headers) = true

/-- `io::Write::write_all` of a writer. -/
abbrev WriteAll (W IoError : Type) := W → List UInt8 → Except IoError Unit × W

structure Handler (Method Uri Headers W : Type) where
  handle : Request Method Uri Headers → Response Headers W → Response Headers W
  checkContinue : Method → Uri → Headers → StatusCode

variable {Method Uri Headers W IoError : Type}

/-- The bytes of an ASCII string. -/
def bytes (s : String) : List UInt8 := s.toList.map fun c => c.toNat.toUInt8

/-- `io::Write::write_fmt`: one `write_all` for each string, up to the first error. -/
def writeFmt (writeAll : WriteAll W IoError) (wrt : W) : List String → Except IoError Unit × W
  | [] => (.ok (), wrt)
  | piece :: rest =>
    match writeAll wrt (bytes piece) with
    | (.ok _, wrt) => writeFmt writeAll wrt rest
    | (.error e, wrt) => (.error e, wrt)

/-! ## server.rs -/

/-- Why the loop has ended; `parsing`: it has not, it is in `Request::new`. -/
inductive Stop
  | parsing
  | request (e : RequestError)
  | expect
  | close
  deriving DecidableEq, Repr

/-- A call of the handler: the request, the response headers it is given, and the
writer when it is called. -/
structure Invocation (Method Uri Headers W : Type) where
  req : Request Method Uri Headers
  headers : Headers
  wrt : W

/-- What a connection comes to; `unparsed` are the outcomes nobody asked for. -/
structure Served (Method Uri Headers W : Type) where
  handled : List (Invocation Method Uri Headers W)
  stop : Stop
  wrt : W
  unparsed : List (Except RequestError (Request Method Uri Headers))

section Worker

variable (hyper : Hyper Headers) (writeAll : WriteAll W IoError)
  (handler : Handler Method Uri Headers W)

/-- An HTTP/1.1 request with `Expect: 100-continue`. -/
def Expects (req : Request Method Uri Headers) : Prop :=
  req.version = .http11 ∧ hyper.expect req.headers = some .Continue

instance (req : Request Method Uri Headers) : Decidable (Expects hyper req) :=
  inferInstanceAs (Decidable (_ ∧ _))

/-- The strings of `write!(wrt, "{} {}\r\n\r\n", HttpVersion::Http11, status)`. -/
def interim (status : StatusCode) : List String :=
  ["HTTP/1.1", " "] ++ hyper.display status ++ ["\r\n\r\n"]

/-- `Worker::handle_expect`. -/
def Worker.handleExpect (req : Request Method Uri Headers) (wrt : W) : Bool × W :=
  if Expects hyper req then
    let status := handler.checkContinue req.method req.uri req.headers
    match writeFmt writeAll wrt (interim hyper status) with
    | (.error _, wrt) => (false, wrt)
    | (.ok _, wrt) => if status ≠ .Continue then (false, wrt) else (true, wrt)
  else (true, wrt)

/-- The response headers a request starts with. -/
def resHeaders (keepAlive : Bool) : Headers :=
  if !keepAlive then hyper.setClose hyper.new else hyper.new

/-- `Worker::keep_alive_loop`, for the outcomes of `Request::new`. -/
def Worker.keepAliveLoop (wrt : W) :
    List (Except RequestError (Request Method Uri Headers)) → Served Method Uri Headers W
  | [] => ⟨[], .parsing, wrt, []⟩
  | .error e :: rest => ⟨[], .request e, wrt, rest⟩
  | .ok req :: rest =>
    match Worker.handleExpect hyper writeAll handler req wrt with
    | (false, wrt) => ⟨[], .expect, wrt, rest⟩
    | (true, wrt) =>
      let keepAlive := hyper.shouldKeepAlive req.version req.headers
      let version := req.version
      let invocation : Invocation Method Uri Headers W := ⟨req, resHeaders hyper keepAlive, wrt⟩
      let res := handler.handle req ⟨version, invocation.headers, wrt⟩
      let keepAlive := if keepAlive then hyper.shouldKeepAlive version res.headers else keepAlive
      if keepAlive then
        let later := Worker.keepAliveLoop res.body rest
        { later with handled := invocation :: later.handled }
      else ⟨[invocation], .close, res.body, rest⟩

/-! ## Which requests must be served -/

/-- The interim response a request asks for can be written, and says to continue. -/
def PassesExpect (req : Request Method Uri Headers) (wrt : W) : Prop :=
  Expects hyper req →
    (∃ wrt', writeFmt writeAll wrt (interim hyper (handler.checkContinue req.method req.uri req.headers)) =
      (.ok (), wrt')) ∧
    handler.checkContinue req.method req.uri req.headers = .Continue

/-- The response to a request, were it served. -/
def response (req : Request Method Uri Headers) (wrt : W) : Response Headers W :=
  handler.handle req ⟨req.version, resHeaders hyper (hyper.shouldKeepAlive req.version req.headers),
    (Worker.handleExpect hyper writeAll handler req wrt).2⟩

/-- The writer in front of request `i`, were all before it served. -/
def writerAt (wrt : W) : List (Except RequestError (Request Method Uri Headers)) → Nat → W
  | .ok req :: rest, i + 1 => writerAt (response hyper writeAll handler req wrt).body rest i
  | .error _ :: rest, i + 1 => writerAt wrt rest i
  | _, _ => wrt

variable (wrt : W) (outcomes : List (Except RequestError (Request Method Uri Headers)))

/-- Request `i` parses, and passes its `Expect` check. -/
def Passes (i : Nat) : Prop :=
  ∃ req, outcomes[i]? = some (.ok req) ∧
    PassesExpect hyper writeAll handler req (writerAt hyper writeAll handler wrt outcomes i)

/-- Neither request `i` nor the response to it asks to close. -/
def Keeps (i : Nat) : Prop :=
  ∃ req, outcomes[i]? = some (.ok req) ∧ hyper.shouldKeepAlive req.version req.headers = true ∧
    hyper.shouldKeepAlive req.version (response hyper writeAll handler req
      (writerAt hyper writeAll handler wrt outcomes i)).headers = true

/-- The first `k` requests must be served. -/
def Serves (k : Nat) : Prop :=
  (∀ i < k, Passes hyper writeAll handler wrt outcomes i) ∧
    ∀ i, i + 1 < k → Keeps hyper writeAll handler wrt outcomes i

structure ServesRight (served : Served Method Uri Headers W) : Prop where
  requests : outcomes.take served.handled.length = served.handled.map fun v => .ok v.req
  greatest : IsGreatest {k | Serves hyper writeAll handler wrt outcomes k} served.handled.length
  close : ∀ v ∈ served.handled,
    (hyper.close v.headers = true ↔ hyper.shouldKeepAlive v.req.version v.req.headers = false)
  /-- after a request that is served, and is to be the last, nothing is parsed -/
  last : ∀ i, Serves hyper writeAll handler wrt outcomes (i + 1) →
    ¬ Keeps hyper writeAll handler wrt outcomes i → served.unparsed = outcomes.drop (i + 1)

end Worker

/-! ## The loop serves these -/

variable {hyper : Hyper Headers} {writeAll : WriteAll W IoError} {handler : Handler Method Uri Headers W}
  {wrt : W} {req : Request Method Uri Headers}
  {rest : List (Except RequestError (Request Method Uri Headers))}

theorem handleExpect_passes :
    (Worker.handleExpect hyper writeAll handler req wrt).1 = true ↔
      PassesExpect hyper writeAll handler req wrt := by
  unfold Worker.handleExpect PassesExpect
  split
  · rename_i expects
    simp only [expects, true_implies]
    split
    · rename_i wrt' failed
      simp [failed]
    · rename_i wrt' written
      by_cases status : handler.checkContinue req.method req.uri req.headers = .Continue
      · rw [status] at written
        simp [written, status]
      · simp [status]
  · rename_i unexpected
    simp [unexpected]

theorem resHeaders_close (keepAlive : Bool) :
    hyper.close (resHeaders hyper keepAlive) = true ↔ keepAlive = false := by
  cases keepAlive with
  | false => simp [resHeaders, hyper.setClose_close]
  | true => simp [resHeaders, hyper.new_close]

theorem passes_succ (i : Nat) :
    Passes hyper writeAll handler wrt (.ok req :: rest) (i + 1) ↔
      Passes hyper writeAll handler (response hyper writeAll handler req wrt).body rest i := by
  simp [Passes, writerAt]

theorem keeps_succ (i : Nat) :
    Keeps hyper writeAll handler wrt (.ok req :: rest) (i + 1) ↔
      Keeps hyper writeAll handler (response hyper writeAll handler req wrt).body rest i := by
  simp [Keeps, writerAt]

/-- One request more must be served if the first passes and keeps the connection. -/
theorem serves_succ (k : Nat) :
    Serves hyper writeAll handler wrt (.ok req :: rest) (k + 1) ↔
      PassesExpect hyper writeAll handler req wrt ∧
        (k = 0 ∨ Keeps hyper writeAll handler wrt (.ok req :: rest) 0 ∧
          Serves hyper writeAll handler (response hyper writeAll handler req wrt).body rest k) := by
  have first : Passes hyper writeAll handler wrt (.ok req :: rest) 0 ↔
      PassesExpect hyper writeAll handler req wrt := by simp [Passes, writerAt]
  constructor
  · rintro ⟨passes, keeps⟩
    refine ⟨first.1 (passes 0 (Nat.succ_pos k)), ?_⟩
    cases k with
    | zero => exact .inl rfl
    | succ k =>
        refine .inr ⟨keeps 0 (by omega), fun i small => ?_, fun i small => ?_⟩
        · exact (passes_succ i).1 (passes (i + 1) (by omega))
        · exact (keeps_succ i).1 (keeps (i + 1) (by omega))
  · rintro ⟨passes, more⟩
    constructor
    · intro i small
      cases i with
      | zero => exact first.2 passes
      | succ i =>
          rcases more with rfl | ⟨-, later⟩
          · omega
          · exact (passes_succ i).2 (later.1 i (by omega))
    · intro i small
      rcases more with rfl | ⟨keeps, later⟩
      · omega
      · cases i with
        | zero => exact keeps
        | succ i => exact (keeps_succ i).2 (later.2 i (by omega))

/-- How the handler is called for a request that passes. -/
def invocation (hyper : Hyper Headers) (writeAll : WriteAll W IoError)
    (handler : Handler Method Uri Headers W) (req : Request Method Uri Headers) (wrt : W) :
    Invocation Method Uri Headers W :=
  ⟨req, resHeaders hyper (hyper.shouldKeepAlive req.version req.headers),
    (Worker.handleExpect hyper writeAll handler req wrt).2⟩

theorem loop_failed (fails : ¬ PassesExpect hyper writeAll handler req wrt) :
    Worker.keepAliveLoop hyper writeAll handler wrt (.ok req :: rest) =
      ⟨[], .expect, (Worker.handleExpect hyper writeAll handler req wrt).2, rest⟩ := by
  have stops : (Worker.handleExpect hyper writeAll handler req wrt).1 = false :=
    Bool.eq_false_iff.2 fun passes => fails (handleExpect_passes.1 passes)
  rw [Worker.keepAliveLoop]
  split
  · rename_i expected
    rw [expected]
  · rename_i expected
    simp [expected] at stops

/-- A request that passes is served; the loop goes on if neither side asks to close. -/
theorem loop_passed (passes : PassesExpect hyper writeAll handler req wrt) :
    Worker.keepAliveLoop hyper writeAll handler wrt (.ok req :: rest) =
      if hyper.shouldKeepAlive req.version req.headers = true ∧
          hyper.shouldKeepAlive req.version (response hyper writeAll handler req wrt).headers = true then
        { Worker.keepAliveLoop hyper writeAll handler (response hyper writeAll handler req wrt).body rest with
          handled := invocation hyper writeAll handler req wrt ::
            (Worker.keepAliveLoop hyper writeAll handler
              (response hyper writeAll handler req wrt).body rest).handled }
      else ⟨[invocation hyper writeAll handler req wrt], .close,
        (response hyper writeAll handler req wrt).body, rest⟩ := by
  have goes_on := handleExpect_passes.2 passes
  rw [Worker.keepAliveLoop]
  split
  · rename_i expected
    simp [expected] at goes_on
  · rename_i wrt' expected
    simp only [invocation, response, expected]
    cases hyper.shouldKeepAlive req.version req.headers <;> simp

theorem keeps_zero : Keeps hyper writeAll handler wrt (.ok req :: rest) 0 ↔
    hyper.shouldKeepAlive req.version req.headers = true ∧
      hyper.shouldKeepAlive req.version (response hyper writeAll handler req wrt).headers = true := by
  simp [Keeps, writerAt]

variable {outcomes : List (Except RequestError (Request Method Uri Headers))}

theorem serves_zero : Serves hyper writeAll handler wrt outcomes 0 :=
  ⟨fun _ small => absurd small (Nat.not_lt_zero _), fun _ small => absurd small (Nat.not_lt_zero _)⟩

/-- Where the first request does not parse or pass, none is served. -/
theorem none_served (fails : ¬ Passes hyper writeAll handler wrt outcomes 0) {stop : Stop} {wrt' : W}
    {unparsed : List (Except RequestError (Request Method Uri Headers))} :
    ServesRight hyper writeAll handler wrt outcomes ⟨[], stop, wrt', unparsed⟩ where
  requests := rfl
  greatest := by
    refine ⟨serves_zero, ?_⟩
    intro k serves
    cases k with
    | zero => exact Nat.le_refl _
    | succ k => exact absurd (serves.1 0 (Nat.succ_pos k)) fails
  close := by simp
  last i serves := absurd (serves.1 0 (Nat.succ_pos i)) fails

theorem invocation_close : ∀ v ∈ [invocation hyper writeAll handler req wrt],
    (hyper.close v.headers = true ↔ hyper.shouldKeepAlive v.req.version v.req.headers = false) := by
  intro v mem
  obtain rfl := List.mem_singleton.1 mem
  exact resHeaders_close _

/-- A request that passes and keeps the connection is served before those that must be
served after it. -/
theorem kept_served (passes : PassesExpect hyper writeAll handler req wrt)
    (keeps : hyper.shouldKeepAlive req.version req.headers = true ∧
      hyper.shouldKeepAlive req.version (response hyper writeAll handler req wrt).headers = true)
    {later : Served Method Uri Headers W}
    (right : ServesRight hyper writeAll handler (response hyper writeAll handler req wrt).body rest later) :
    ServesRight hyper writeAll handler wrt (.ok req :: rest)
      { later with handled := invocation hyper writeAll handler req wrt :: later.handled } where
  requests := by simpa [invocation] using right.requests
  greatest := by
    refine ⟨(serves_succ _).2 ⟨passes, .inr ⟨keeps_zero.2 keeps, right.greatest.1⟩⟩, ?_⟩
    intro k serves
    cases k with
    | zero => exact Nat.zero_le _
    | succ k =>
        rcases ((serves_succ k).1 serves).2 with rfl | ⟨-, more⟩
        · simp
        · exact Nat.succ_le_succ (right.greatest.2 more)
  close v mem := by
    rcases List.mem_cons.1 mem with rfl | mem
    · exact invocation_close _ (List.mem_singleton.2 rfl)
    · exact right.close v mem
  last i serves closes := by
    cases i with
    | zero => exact absurd (keeps_zero.2 keeps) closes
    | succ i =>
        rcases ((serves_succ (i + 1)).1 serves).2 with zero | ⟨-, more⟩
        · cases zero
        · exact right.last i more fun keeps => closes ((keeps_succ i).2 keeps)

/-- One that passes and closes it is the last to be served. -/
theorem closed_served (passes : PassesExpect hyper writeAll handler req wrt)
    (closes : ¬ (hyper.shouldKeepAlive req.version req.headers = true ∧
      hyper.shouldKeepAlive req.version (response hyper writeAll handler req wrt).headers = true))
    {stop : Stop} {wrt' : W} : ServesRight hyper writeAll handler wrt (.ok req :: rest)
      ⟨[invocation hyper writeAll handler req wrt], stop, wrt', rest⟩ where
  requests := by simp [invocation]
  greatest := by
    refine ⟨(serves_succ 0).2 ⟨passes, .inl rfl⟩, ?_⟩
    intro k serves
    cases k with
    | zero => exact Nat.zero_le _
    | succ k =>
        rcases ((serves_succ k).1 serves).2 with rfl | ⟨keeps, -⟩
        · simp
        · exact absurd (keeps_zero.1 keeps) closes
  close := invocation_close
  last i serves _ := by
    rcases ((serves_succ i).1 serves).2 with rfl | ⟨keeps, -⟩
    · rfl
    · exact absurd (keeps_zero.1 keeps) closes

/-- The handler is called, in order and once each, for exactly the requests that must be
served; `Connection: close` is set for those that ask for it; and nothing is parsed
after the first request or response that asks to close. -/
theorem serves_right (hyper : Hyper Headers) (writeAll : WriteAll W IoError)
    (handler : Handler Method Uri Headers W) (wrt : W)
    (outcomes : List (Except RequestError (Request Method Uri Headers))) :
    ServesRight hyper writeAll handler wrt outcomes
      (Worker.keepAliveLoop hyper writeAll handler wrt outcomes) := by
  induction outcomes generalizing wrt with
  | nil => exact none_served (by simp [Passes])
  | cons outcome rest ih =>
      cases outcome with
      | error e => exact none_served (by simp [Passes])
      | ok req =>
          by_cases passes : PassesExpect hyper writeAll handler req wrt
          · rw [loop_passed passes]
            split
            · rename_i keeps
              exact kept_served passes keeps (ih _)
            · rename_i closes
              exact closed_served passes closes
          · rw [loop_failed passes]
            exact none_served (by simpa [Passes, writerAt] using passes)

end SimpleSched.Net.Http
