/-
# Net.Http.Output -- what a connection sends

A handler gets the writer of its connection as an `io::Write`: all it can do with it is
to write and to flush, and go on with what these return.  So a handler is here what it
does to answer a request, a `Responder`, and `Responder.handler` runs that on the
`BufWriter`.

`BufWriter` keeps or hands on what it says it takes, in order, also where the stream
takes less than it is given or fails (`BufWriter.logs`).  Over the keep-alive loop this
makes the answers of a connection follow one another in the order of the requests, each
begun where the one before has ended (`responses_in_order`), and what has not reached
the stream at the end is what the last flush failed to write.
-/
import SimpleSched.Net.Http.Continue
import SimpleSched.Theory.Writer

namespace SimpleSched.Net.Http

set_option autoImplicit false

open Theory

variable {S W IoError Addr Method Uri Headers : Type}

/-! ## Handlers that write -/

/-- What a handler does for a request and the response headers it is given, and what it
leaves of these. -/
structure Responder (Method Uri Headers IoError : Type) where
  respond : Request Method Uri Headers → Headers → Writing UInt8 IoError Headers
  checkContinue : Method → Uri → Headers → StatusCode

def Responder.handler (responder : Responder Method Uri Headers IoError)
    (writer : Writer W UInt8 IoError) : Handler Method Uri Headers W where
  handle req res :=
    let (headers, _, body) := (responder.respond req res.headers).run writer res.body
    { res with headers := headers, body := body }
  checkContinue := responder.checkContinue

/-- A stream, and its `flush`. -/
def Stream.writer (stream : Stream S IoError) (flush : S → Except IoError Unit × S) :
    Writer S UInt8 IoError :=
  ⟨stream.write, flush⟩

namespace BufWriter

/-- `BufWriter::flush`. -/
def flush (stream : Stream S IoError) (flush : S → Except IoError Unit × S) (w : BufWriter S) :
    Except IoError Unit × BufWriter S :=
  match w.flushBuf stream with
  | (.ok _, w) =>
    match flush w.inner with
    | (done, inner) => (done, { w with inner := inner })
  | (.error e, w) => (.error e, w)

def writer (stream : Stream S IoError) (flush : S → Except IoError Unit × S) :
    Writer (BufWriter S) UInt8 IoError :=
  ⟨BufWriter.write stream, BufWriter.flush stream flush⟩

/-- All that was put into it: what the stream was handed, and the buffer. -/
def log (sent : S → List UInt8) (w : BufWriter S) : List UInt8 := sent w.inner ++ w.buf

end BufWriter

/-! ## The buffer -/

section Buffer

variable {stream : Stream S IoError} {flush : S → Except IoError Unit × S} {sent : S → List UInt8}

/-- A flush moves what is in the buffer, and leaves what it could not write. -/
theorem flushBuf_log (logs : Logs (stream.writer flush) sent) (w : BufWriter S) :
    (w.flushBuf stream).2.log sent = w.log sent ∧
      ((w.flushBuf stream).1 = .ok () → (w.flushBuf stream).2.buf = []) := by
  fun_induction BufWriter.flushBuf stream w with
  | case1 w empty => exact ⟨rfl, fun _ => empty⟩
  | case2 w some inner written =>
      have handed := logs.write w.inner w.buf
      simp only [Stream.writer, written, taken, List.take_zero, List.append_nil] at handed
      exact ⟨by rw [BufWriter.log, handed]; rfl, fun done => by cases done⟩
  | case3 w some n inner written ih =>
      have handed := logs.write w.inner w.buf
      simp only [Stream.writer, written, taken] at handed
      refine ⟨ih.1.trans ?_, ih.2⟩
      simp only [BufWriter.log]
      rw [handed, List.append_assoc, List.take_append_drop]
  | case4 w some e inner written again ih =>
      have handed := logs.write w.inner w.buf
      simp only [Stream.writer, written, taken, List.append_nil] at handed
      exact ⟨ih.1.trans (by simp only [BufWriter.log, handed]), ih.2⟩
  | case5 w some e inner written =>
      have handed := logs.write w.inner w.buf
      simp only [Stream.writer, written, taken, List.append_nil] at handed
      exact ⟨by rw [BufWriter.log, handed]; rfl, fun done => by cases done⟩

/-- With nothing in the buffer a long write goes to the stream, a short one is kept. -/
theorem put_log (logs : Logs (stream.writer flush) sent) (w : BufWriter S) (data : List UInt8)
    (room : DEFAULT_BUF_SIZE ≤ data.length → w.buf = []) :
    (w.put stream data).2.log sent = w.log sent ++ taken data (w.put stream data).1 := by
  unfold BufWriter.put
  split
  · rename_i long
    have handed := logs.write w.inner data
    simp only [Stream.writer] at handed
    simp [BufWriter.log, handed, room long]
  · simp [BufWriter.log, taken]

theorem write_log (logs : Logs (stream.writer flush) sent) (w : BufWriter S) (data : List UInt8) :
    (w.write stream data).2.log sent = w.log sent ++ taken data (w.write stream data).1 := by
  unfold BufWriter.write
  split
  · have flushed := flushBuf_log logs w
    split
    · rename_i w' done
      rw [done] at flushed
      rw [put_log logs w' data fun _ => flushed.2 rfl, flushed.1]
    · rename_i e w' failed
      rw [failed] at flushed
      simp [taken, flushed.1]
  · rename_i fits
    refine put_log logs w data fun long => ?_
    exact List.length_eq_zero_iff.1 (by omega)

/-- What a `BufWriter` says it takes is kept, or handed to the stream after all before. -/
theorem BufWriter.logs (logs : Logs (stream.writer flush) sent) :
    Logs (BufWriter.writer stream flush) (BufWriter.log sent) where
  write := write_log logs
  flush w := by
    have flushed := flushBuf_log logs w
    simp only [BufWriter.writer, BufWriter.flush]
    split
    · rename_i w' done
      rw [done] at flushed
      have handed := logs.flush w'.inner
      simp only [Stream.writer] at handed
      rw [← flushed.1]
      simp [BufWriter.log, handed]
    · rename_i e w' failed
      rw [failed] at flushed
      exact flushed.1

theorem writeAll_log (logs : Logs (stream.writer flush) sent) (w : BufWriter S) (data : List UInt8) :
    Puts (BufWriter.log sent) w data ((w.writeAll stream data).1 = .ok ())
      (w.writeAll stream data).2 := by
  fun_induction BufWriter.writeAll stream w data with
  | case1 w => exact .none rfl fun _ => rfl
  | case2 w data some w' written =>
      have once := write_log logs w data
      simp only [written, taken, List.take_zero, List.append_nil] at once
      exact .none once fun done => by cases done
  | case3 w data some n w' written ih =>
      have once := write_log logs w data
      simp only [written, taken] at once
      have both := Puts.append once ih
      rwa [List.take_append_drop] at both
  | case4 w data some e w' written again ih =>
      have once := write_log logs w data
      simp only [written, taken, List.append_nil] at once
      obtain ⟨out, put, part, full⟩ := ih
      exact ⟨out, by rw [put, once], part, full⟩
  | case5 w data some e w' written =>
      have once := write_log logs w data
      simp only [written, taken, List.append_nil] at once
      exact .none once fun done => by cases done

end Buffer

theorem writeFmt_log {writeAll : WriteAll W IoError} {log : W → List UInt8}
    (all : ∀ w data, Puts log w data ((writeAll w data).1 = .ok ()) (writeAll w data).2)
    (pieces : List String) (w : W) :
    Puts log w (pieces.flatMap bytes) ((writeFmt writeAll w pieces).1 = .ok ())
      (writeFmt writeAll w pieces).2 := by
  induction pieces generalizing w with
  | nil => exact .none rfl fun _ => rfl
  | cons piece pieces ih =>
      have once := all w (bytes piece)
      rw [List.flatMap_cons]
      unfold writeFmt
      split
      · rename_i w' written
        rw [written] at once
        exact .append (once.done rfl) (ih w')
      · rename_i e w' written
        rw [written] at once
        exact once.stop fun done => by cases done

/-! ## The loop -/

/-- The interim response in front of the answer to a request. -/
def continueLine (hyper : Hyper Headers) (req : Request Method Uri Headers) : List UInt8 :=
  if Expects hyper req then (interim hyper .Continue).flatMap bytes else []

/-- What is written for a request that is served: the interim response where it asks for
one, and what is taken from the handler. -/
def Responder.answer (responder : Responder Method Uri Headers IoError) (hyper : Hyper Headers)
    (writer : Writer W UInt8 IoError) (v : Invocation Method Uri Headers W) : List UInt8 :=
  continueLine hyper v.req ++ ((responder.respond v.req v.headers).run writer v.wrt).2.1

/-- The answers follow one another: each begins where the one before has ended, and
after the last there is at most the beginning of an interim response, to a request that
is not served. -/
structure Answered (hyper : Hyper Headers) (responder : Responder Method Uri Headers IoError)
    (writer : Writer W UInt8 IoError) (log : W → List UInt8) (start : List UInt8)
    (outcomes : List (Except RequestError (Request Method Uri Headers)))
    (served : Served Method Uri Headers W) : Prop where
  begins : ∀ before v after, served.handled = before ++ v :: after →
    log v.wrt = start ++ before.flatMap (responder.answer hyper writer) ++ continueLine hyper v.req
  ends : ∃ tail, log served.wrt =
      start ++ served.handled.flatMap (responder.answer hyper writer) ++ tail ∧
    (tail ≠ [] → served.stop = .expect ∧
      ∃ req, outcomes[served.handled.length]? = some (.ok req) ∧ Expects hyper req ∧
        tail <+: (interim hyper (responder.checkContinue req.method req.uri req.headers)).flatMap bytes)

section Loop

variable {hyper : Hyper Headers} {responder : Responder Method Uri Headers IoError}
  {writer : Writer W UInt8 IoError} {log : W → List UInt8} {writeAll : WriteAll W IoError}
  {req : Request Method Uri Headers} {w : W}

/-- The `Expect` check writes the interim response before a request that passes. -/
theorem handleExpect_log
    (all : ∀ w data, Puts log w data ((writeAll w data).1 = .ok ()) (writeAll w data).2)
    (passes : PassesExpect hyper writeAll (responder.handler writer) req w) :
    log (Worker.handleExpect hyper writeAll (responder.handler writer) req w).2 =
      log w ++ continueLine hyper req := by
  unfold Worker.handleExpect continueLine
  by_cases expects : Expects hyper req
  · obtain ⟨⟨w', written⟩, status⟩ := passes expects
    have puts := writeFmt_log all
      (interim hyper ((responder.handler writer).checkContinue req.method req.uri req.headers)) w
    rw [written] at puts
    have done := puts.done rfl
    simp only [status] at written done
    simp only [if_pos expects, status, written]
    exact done
  · simp [expects]

/-- One that does not pass leaves at most the beginning of an interim response. -/
theorem handleExpect_refused
    (all : ∀ w data, Puts log w data ((writeAll w data).1 = .ok ()) (writeAll w data).2)
    (fails : ¬ PassesExpect hyper writeAll (responder.handler writer) req w) :
    Expects hyper req ∧ ∃ tail,
      log (Worker.handleExpect hyper writeAll (responder.handler writer) req w).2 = log w ++ tail ∧
        tail <+: (interim hyper (responder.checkContinue req.method req.uri req.headers)).flatMap
          bytes := by
  have expects : Expects hyper req := by
    by_contra unexpected
    exact fails fun expects => absurd expects unexpected
  refine ⟨expects, ?_⟩
  obtain ⟨tail, put, part, -⟩ := writeFmt_log all
    (interim hyper (responder.checkContinue req.method req.uri req.headers)) w
  refine ⟨tail, ?_, part⟩
  rw [← put]
  unfold Worker.handleExpect
  simp only [if_pos expects, Responder.handler]
  split
  · rename_i e w' written
    rw [written]
  · rename_i w' written
    rw [written]
    by_cases status : responder.checkContinue req.method req.uri req.headers = .Continue <;>
      simp [status]

/-- The handler leaves its writer with what was taken from it. -/
theorem response_log (logs : Logs writer log)
    (all : ∀ w data, Puts log w data ((writeAll w data).1 = .ok ()) (writeAll w data).2)
    (passes : PassesExpect hyper writeAll (responder.handler writer) req w) :
    log (response hyper writeAll (responder.handler writer) req w).body =
      log w ++ responder.answer hyper writer
        (invocation hyper writeAll (responder.handler writer) req w) := by
  have expected := handleExpect_log all passes
  rw [Responder.answer, ← List.append_assoc]
  simp only [invocation]
  rw [← expected, ← logs.run]
  rfl

/-- A request that is served is answered before what follows on its connection. -/
theorem Answered.cons {start start' : List UInt8} {v : Invocation Method Uri Headers W}
    {outcome : Except RequestError (Request Method Uri Headers)}
    {rest : List (Except RequestError (Request Method Uri Headers))}
    {later : Served Method Uri Headers W}
    (called : log v.wrt = start ++ continueLine hyper v.req)
    (answered : start' = start ++ responder.answer hyper writer v)
    (others : Answered hyper responder writer log start' rest later) :
    Answered hyper responder writer log start (outcome :: rest)
      { later with handled := v :: later.handled } where
  begins before u after handled := by
    cases before with
    | nil =>
        obtain ⟨rfl, -⟩ := List.cons.inj handled
        simpa using called
    | cons first before =>
        obtain ⟨rfl, those⟩ := List.cons.inj handled
        rw [others.begins before u after those, answered]
        simp [List.append_assoc]
  ends := by
    obtain ⟨tail, put, refused⟩ := others.ends
    refine ⟨tail, ?_, fun some => by simpa using refused some⟩
    rw [show log later.wrt = _ from put, answered]
    simp [List.append_assoc]

/-- What the loop writes is the answers to the requests it serves, in their order. -/
theorem loop_answered (logs : Logs writer log)
    (all : ∀ w data, Puts log w data ((writeAll w data).1 = .ok ()) (writeAll w data).2)
    (outcomes : List (Except RequestError (Request Method Uri Headers))) (w : W) :
    Answered hyper responder writer log (log w) outcomes
      (Worker.keepAliveLoop hyper writeAll (responder.handler writer) w outcomes) := by
  induction outcomes generalizing w with
  | nil =>
      refine ⟨fun before v after handled => ?_, [], by simp [Worker.keepAliveLoop], by simp⟩
      simp [Worker.keepAliveLoop] at handled
  | cons outcome rest ih =>
      cases outcome with
      | error e =>
          refine ⟨fun before v after handled => ?_, [], by simp [Worker.keepAliveLoop], by simp⟩
          simp [Worker.keepAliveLoop] at handled
      | ok req =>
          by_cases passes : PassesExpect hyper writeAll (responder.handler writer) req w
          · have called := handleExpect_log all passes
            have answered := response_log logs all passes
            rw [loop_passed passes]
            split
            · exact .cons called answered (ih _)
            · let body := (response hyper writeAll (responder.handler writer) req w).body
              have none_later : Answered hyper responder writer log (log body) rest
                  ⟨[], .close, body, rest⟩ :=
                ⟨fun before v after handled => by simp at handled, [], by simp, by simp⟩
              exact .cons called answered none_later
          · rw [loop_failed passes]
            obtain ⟨expects, tail, put, part⟩ := handleExpect_refused all passes
            refine ⟨fun before v after handled => ?_, tail, by simpa using put, fun _ => ?_⟩
            · simp at handled
            · exact ⟨rfl, req, rfl, expects, part⟩

end Loop

/-- On a connection the answers come in the order of the requests that are served, each
whole before the next begins, through whatever short writes and errors of the stream;
the stream has been handed all of them but what the flush at the end could not write. -/
theorem responses_in_order (hyper : Hyper Headers) (stream : Stream S IoError)
    (flush : S → Except IoError Unit × S) (sent : S → List UInt8)
    (logs : Logs (stream.writer flush) sent) (responder : Responder Method Uri Headers IoError)
    (addr : Addr) (s : S) (outcomes : List (Except RequestError (Request Method Uri Headers))) :
    let writer := BufWriter.writer stream flush
    let served := Worker.keepAliveLoop hyper (BufWriter.writeAll stream) (responder.handler writer)
      (.new s) outcomes
    let done := Worker.handleConnection hyper stream (responder.handler writer) (.ok addr) s outcomes
    done.1 = served.handled ∧
      Answered hyper responder writer (BufWriter.log sent) (sent s) outcomes served ∧
      ∃ left, sent done.2 ++ left = served.wrt.log sent ∧
        ((served.wrt.flushBuf stream).1 = .ok () → left = []) := by
  intro writer served done
  have answered : Answered hyper responder writer (BufWriter.log sent) ((BufWriter.new s).log sent)
      outcomes served :=
    loop_answered (BufWriter.logs logs) (writeAll_log logs) outcomes (.new s)
  have flushed := flushBuf_log logs served.wrt
  refine ⟨rfl, ?_, (served.wrt.flushBuf stream).2.buf, flushed.1, flushed.2⟩
  have nothing : (BufWriter.new s).log sent = sent s := List.append_nil _
  rwa [nothing] at answered

/-- One write for each request. -/
def greeting : Responder Unit Unit (Bool × Bool) Unit where
  respond _ headers := .write (bytes "HTTP/1.1 200 OK\r\n\r\n") fun _ => .ret headers
  checkContinue _ _ _ := .Continue

/-- Two requests, the second with `Connection: close`. -/
def pipelined : List (Except RequestError (Request Unit Unit (Bool × Bool))) :=
  [.ok ⟨(), (), .http11, (false, false)⟩, .ok ⟨(), (), .http11, (false, true)⟩]

theorem listStream_flush (w : BufWriter (List UInt8)) :
    w.flushBuf listStream = (.ok (), ⟨w.inner ++ w.buf, []⟩) := by
  fun_induction BufWriter.flushBuf listStream w with
  | case1 w empty =>
      cases w
      subst empty
      simp
  | case2 w some inner written =>
      simp [listStream, some] at written
  | case3 w some n inner written ih =>
      obtain ⟨length, rfl⟩ : w.buf.length = n + 1 ∧ w.inner ++ w.buf = inner := by
        simpa [listStream] using written
      rw [ih, ← length, List.drop_length, List.append_nil]
  | case4 w some e inner written | case5 w some e inner written => simp [listStream] at written

theorem pipelined_in_order :
    (Worker.handleConnection pairHyper listStream
      (greeting.handler (BufWriter.writer listStream fun s => (.ok (), s))) (.ok ()) [] pipelined).2 =
        bytes "HTTP/1.1 200 OK\r\n\r\nHTTP/1.1 200 OK\r\n\r\n" := by
  have logs : Logs (listStream.writer fun s => (.ok (), s)) id := by
    refine ⟨fun s data => ?_, fun s => rfl⟩
    simp [Stream.writer, listStream, taken]
  obtain ⟨-, -, left, whole, none_left⟩ := responses_in_order pairHyper listStream
    (fun s => (.ok (), s)) id logs greeting () [] pipelined
  have wrote : (Worker.keepAliveLoop pairHyper (BufWriter.writeAll listStream)
      (greeting.handler (BufWriter.writer listStream fun s => (.ok (), s))) (.new []) pipelined).wrt =
        ⟨[], bytes "HTTP/1.1 200 OK\r\n\r\nHTTP/1.1 200 OK\r\n\r\n"⟩ := by
    rfl
  rw [wrote] at whole none_left
  rw [none_left (by rw [listStream_flush]), List.append_nil] at whole
  exact whole

end SimpleSched.Net.Http
