/-
# Net.Http.Continue -- where the interim response is when the handler is called

`Worker::handle_connection` of `net/http/server.rs` puts a `std::io::BufWriter` around the
stream, and `handle_expect` writes `100 Continue` to that.  A `BufWriter` hands bytes to
the stream when the next ones would not fit, when it is flushed, and when it is
dropped; `handle_expect` does not flush it.  The last string it writes is shorter than
the buffer, so it stays there (`continue_kept_back`), and a client that waits for it
waits with the handler that waits for its body.
-/
import SimpleSched.Net.Http.KeepAlive

namespace SimpleSched.Net.Http

set_option autoImplicit false

/-! ## std::io::BufWriter -/

def DEFAULT_BUF_SIZE : Nat := 64 * 1024

variable {S IoError : Type}

/-- The stream, the bytes it has not been handed yet; a buffer of `DEFAULT_BUF_SIZE`. -/
structure BufWriter (S : Type) where
  inner : S
  buf : List UInt8

/-- `io::Write::write` of the stream, which of its errors are `ErrorKind::Interrupted`, and
the error of a write that makes no progress.  A write that is tried again and again is not
interrupted for ever: there is a count of the interruptions it may still meet. -/
structure Stream (S IoError : Type) where
  write : S → List UInt8 → Except IoError Nat × S
  interrupted : IoError → Bool
  writeZero : IoError
  interrupts : S → List UInt8 → Nat
  interrupts_less : ∀ {s data e s'}, write s data = (.error e, s') → interrupted e = true →
    interrupts s' data < interrupts s data
  writeZero_fails : interrupted writeZero = false

namespace BufWriter

variable (stream : Stream S IoError)

def new (inner : S) : BufWriter S := ⟨inner, []⟩

/-- `BufWriter::flush_buf`: what it could not write is kept. -/
def flushBuf (w : BufWriter S) : Except IoError Unit × BufWriter S :=
  if w.buf = [] then (.ok (), w)
  else
    match written : stream.write w.inner w.buf with
    | (.ok 0, inner) => (.error stream.writeZero, { w with inner := inner })
    | (.ok (n + 1), inner) => flushBuf ⟨inner, w.buf.drop (n + 1)⟩
    | (.error e, inner) =>
      if stream.interrupted e then flushBuf { w with inner := inner }
      else (.error e, { w with inner := inner })
termination_by (w.buf.length, stream.interrupts w.inner w.buf)
decreasing_by
  · have := List.length_pos_iff.2 ‹_›
    refine Prod.Lex.left _ _ ?_
    simp only [List.length_drop]
    omega
  · exact Prod.Lex.right _ (stream.interrupts_less written ‹_›)

/-- `BufWriter::write`, after it has made room. -/
def put (w : BufWriter S) (data : List UInt8) : Except IoError Nat × BufWriter S :=
  if DEFAULT_BUF_SIZE ≤ data.length then
    match stream.write w.inner data with
    | (written, inner) => (written, { w with inner := inner })
  else (.ok data.length, { w with buf := w.buf ++ data })

/-- `BufWriter::write`. -/
def write (w : BufWriter S) (data : List UInt8) : Except IoError Nat × BufWriter S :=
  if DEFAULT_BUF_SIZE < w.buf.length + data.length then
    match w.flushBuf stream with
    | (.ok _, w) => w.put stream data
    | (.error e, w) => (.error e, w)
  else w.put stream data

section Interrupted

variable {stream} {w w' : BufWriter S} {data : List UInt8} {e : IoError}

theorem flushBuf_ok (flushed : w.flushBuf stream = (.ok (), w')) : w'.buf = [] := by
  fun_induction BufWriter.flushBuf stream w with
  | case1 w empty =>
      cases flushed
      exact empty
  | case2 | case5 => cases flushed
  | case3 w some n inner written ih => exact ih flushed
  | case4 w some e inner written again ih => exact ih flushed

/-- A flush goes on after an interruption. -/
theorem flushBuf_error (flushed : w.flushBuf stream = (.error e, w')) :
    stream.interrupted e = false := by
  fun_induction BufWriter.flushBuf stream w with
  | case1 => cases flushed
  | case2 w some inner written =>
      cases flushed
      exact stream.writeZero_fails
  | case3 w some n inner written ih => exact ih flushed
  | case4 w some e' inner written again ih => exact ih flushed
  | case5 w some e' inner written fails =>
      cases flushed
      exact Bool.eq_false_iff.2 fails

theorem put_interrupted (put : w.put stream data = (.error e, w'))
    (again : stream.interrupted e = true) :
    w'.buf = w.buf ∧ stream.interrupts w'.inner data < stream.interrupts w.inner data := by
  unfold BufWriter.put at put
  split at put
  · split at put
    rename_i written inner once
    cases put
    exact ⟨rfl, stream.interrupts_less once again⟩
  · cases put

/-- A write that is interrupted has emptied the buffer, or can be interrupted less often. -/
theorem write_interrupted (written : w.write stream data = (.error e, w'))
    (again : stream.interrupted e = true) : w'.buf.length < w.buf.length ∨
      w'.buf.length = w.buf.length ∧
        stream.interrupts w'.inner data < stream.interrupts w.inner data := by
  unfold BufWriter.write at written
  split at written
  · split at written
    · rename_i w₁ flushed
      obtain ⟨same, less⟩ := put_interrupted written again
      have empty := flushBuf_ok flushed
      by_cases before : w.buf = []
      · rw [flushBuf, if_pos before] at flushed
        cases flushed
        exact .inr ⟨by rw [same], less⟩
      · have some := List.length_pos_iff.2 before
        exact .inl (by rw [same, empty]; exact some)
    · rename_i e' w₁ flushed
      cases written
      rw [flushBuf_error flushed] at again
      cases again
  · obtain ⟨same, less⟩ := put_interrupted written again
    exact .inr ⟨by rw [same], less⟩

end Interrupted

/-- `io::Write::write_all`. -/
def writeAll (w : BufWriter S) (data : List UInt8) : Except IoError Unit × BufWriter S :=
  if data = [] then (.ok (), w)
  else
    match written : w.write stream data with
    | (.ok 0, w) => (.error stream.writeZero, w)
    | (.ok (n + 1), w) => writeAll w (data.drop (n + 1))
    | (.error e, w') => if stream.interrupted e then writeAll w' data else (.error e, w')
termination_by (data.length, w.buf.length, stream.interrupts w.inner data)
decreasing_by
  · have := List.length_pos_iff.2 ‹_›
    refine Prod.Lex.left _ _ ?_
    simp only [List.length_drop]
    omega
  · rcases write_interrupted written ‹_› with empty | ⟨same, less⟩
    · exact Prod.Lex.right _ (Prod.Lex.left _ _ empty)
    · rw [same]
      exact Prod.Lex.right _ (Prod.Lex.right _ less)

end BufWriter

/-! ## server.rs -/

variable {Addr Method Uri Headers : Type}

/-- `Worker::handle_connection`, for what `peer_addr` returns; the address is only
logged.  The writer is dropped at the end, which flushes it. -/
def Worker.handleConnection (hyper : Hyper Headers) (stream : Stream S IoError)
    (handler : Handler Method Uri Headers (BufWriter S)) (peerAddr : Except IoError Addr) (s : S)
    (outcomes : List (Except RequestError (Request Method Uri Headers))) :
    List (Invocation Method Uri Headers (BufWriter S)) × S :=
  match peerAddr with
  | .ok _ =>
    let served := Worker.keepAliveLoop hyper (BufWriter.writeAll stream) handler (.new s) outcomes
    (served.handled, (served.wrt.flushBuf stream).2.inner)
  | .error _ => ([], s)

/-- Every byte written so far has been handed to the stream. -/
def BufWriter.HandedOver (w : BufWriter S) : Prop := w.buf = []

/-! ## The last string stays in the buffer -/

variable {hyper : Hyper Headers} {stream : Stream S IoError}
  {handler : Handler Method Uri Headers (BufWriter S)} {w w' : BufWriter S} {data : List UInt8}

theorem put_kept (short : data.length < DEFAULT_BUF_SIZE) :
    w.put stream data = (.ok data.length, { w with buf := w.buf ++ data }) := by
  rw [BufWriter.put, if_neg (Nat.not_le_of_lt short)]

/-- A short string that is written is at the end of the buffer. -/
theorem write_kept (short : data.length < DEFAULT_BUF_SIZE) {n : Nat}
    (written : w.write stream data = (.ok n, w')) :
    n = data.length ∧ ∃ before, w'.buf = before ++ data := by
  unfold BufWriter.write at written
  split at written
  · split at written
    · rename_i flushed
      rw [put_kept short] at written
      cases written
      exact ⟨rfl, _, rfl⟩
    · cases written
  · rw [put_kept short] at written
    cases written
    exact ⟨rfl, _, rfl⟩

theorem writeAll_kept (some : data ≠ []) (short : data.length < DEFAULT_BUF_SIZE)
    (written : w.writeAll stream data = (.ok (), w')) : ∃ before, w'.buf = before ++ data := by
  fun_induction BufWriter.writeAll stream w data with
  | case1 => exact absurd rfl some
  | case2 | case5 => cases written
  | case3 w data _ n w₁ once =>
      obtain ⟨all, kept⟩ := write_kept short once
      rw [show n + 1 = data.length from all, List.drop_length, BufWriter.writeAll, if_pos rfl] at written
      cases written
      exact kept
  | case4 w data _ e w₁ once again ih => exact ih some short written

theorem writeFmt_kept {pieces : List String} {last : String} (some : bytes last ≠ [])
    (short : (bytes last).length < DEFAULT_BUF_SIZE)
    (written : writeFmt (BufWriter.writeAll stream) w (pieces ++ [last]) = (.ok (), w')) :
    ∃ before, w'.buf = before ++ bytes last := by
  induction pieces generalizing w with
  | nil =>
      simp only [List.nil_append, writeFmt] at written
      split at written
      · rename_i once
        cases written
        exact writeAll_kept some short once
      · cases written
  | cons piece pieces ih =>
      simp only [List.cons_append, writeFmt] at written
      split at written
      · exact ih written
      · cases written

/-- What fits into the buffer goes there, and the stream is left alone. -/
theorem writeAll_room (room : w.buf.length + data.length < DEFAULT_BUF_SIZE) :
    w.writeAll stream data = (.ok (), { w with buf := w.buf ++ data }) := by
  have once : w.write stream data = (.ok data.length, { w with buf := w.buf ++ data }) := by
    rw [BufWriter.write, if_neg (by omega), put_kept (by omega)]
  rw [BufWriter.writeAll]
  split
  · rename_i empty
    simp [empty]
  · rename_i some
    split
    · rename_i w₁ written
      obtain ⟨none, -⟩ := Prod.mk.inj (once.symm.trans written)
      exact absurd (List.length_eq_zero_iff.1 (Except.ok.inj none)) some
    · rename_i n w₁ written
      obtain ⟨all, rfl⟩ := Prod.mk.inj (once.symm.trans written)
      rw [show n + 1 = data.length from (Except.ok.inj all).symm, List.drop_length, BufWriter.writeAll,
        if_pos rfl]
    · rename_i e w₁ written
      cases once.symm.trans written

theorem writeFmt_room {pieces : List String}
    (room : w.buf.length + (pieces.flatMap bytes).length < DEFAULT_BUF_SIZE) :
    writeFmt (BufWriter.writeAll stream) w pieces =
      (.ok (), { w with buf := w.buf ++ pieces.flatMap bytes }) := by
  induction pieces generalizing w with
  | nil => simp [writeFmt]
  | cons piece pieces ih =>
      rw [List.flatMap_cons, List.length_append] at room
      rw [writeFmt, writeAll_room (by omega)]
      simp only
      rw [ih (by simp only [List.length_append]; omega), List.flatMap_cons, List.append_assoc]

/-- Where a request with `Expect: 100-continue` is let through, the end of the interim
response is in the buffer. -/
theorem handleExpect_kept {req : Request Method Uri Headers} (expects : Expects hyper req)
    (passes : Worker.handleExpect hyper (BufWriter.writeAll stream) handler req w = (true, w')) :
    ∃ before, w'.buf = before ++ bytes "\r\n\r\n" := by
  rw [Worker.handleExpect, if_pos expects] at passes
  simp only at passes
  split at passes
  · cases passes
  · rename_i written
    split at passes
    · cases passes
    · cases passes
      exact writeFmt_kept (by decide) (by decide) written

/-- What holds of every call of the handler on a connection. -/
theorem loop_kept {outcomes : List (Except RequestError (Request Method Uri Headers))}
    {v : Invocation Method Uri Headers (BufWriter S)}
    (handled : v ∈ (Worker.keepAliveLoop hyper (BufWriter.writeAll stream) handler w outcomes).handled)
    (expects : Expects hyper v.req) : ∃ before, v.wrt.buf = before ++ bytes "\r\n\r\n" := by
  induction outcomes generalizing w with
  | nil => cases handled
  | cons outcome rest ih =>
      cases outcome with
      | error e => cases handled
      | ok req =>
          by_cases passes : PassesExpect hyper (BufWriter.writeAll stream) handler req w
          · have first (here : v = invocation hyper (BufWriter.writeAll stream) handler req w) :
                ∃ before, v.wrt.buf = before ++ bytes "\r\n\r\n" := by
              subst here
              exact handleExpect_kept expects (Prod.ext (handleExpect_passes.2 passes) rfl)
            rw [loop_passed passes] at handled
            split at handled
            · rcases List.mem_cons.1 handled with here | later
              · exact first here
              · exact ih later
            · exact first (List.mem_singleton.1 handled)
          · rw [loop_failed passes] at handled
            cases handled

/-- On no connection, and for no request with `Expect: 100-continue`, has the whole
interim response been handed to the stream when the handler is called. -/
theorem continue_kept_back (hyper : Hyper Headers) (stream : Stream S IoError)
    (handler : Handler Method Uri Headers (BufWriter S)) (peerAddr : Except IoError Addr) (s : S)
    (outcomes : List (Except RequestError (Request Method Uri Headers)))
    (v : Invocation Method Uri Headers (BufWriter S))
    (handled : v ∈ (Worker.handleConnection hyper stream handler peerAddr s outcomes).1)
    (expects : Expects hyper v.req) : ¬ v.wrt.HandedOver := by
  cases peerAddr with
  | error e => cases handled
  | ok addr =>
      obtain ⟨before, kept⟩ := loop_kept handled expects
      rw [BufWriter.HandedOver, kept]
      intro none_left
      exact absurd (List.append_eq_nil_iff.1 none_left).2 (by decide)

/-! ## One request -/

/-- Headers that say whether they expect `100-continue`, and whether they close. -/
def pairHyper : Hyper (Bool × Bool) where
  new := (false, false)
  setClose headers := (headers.1, true)
  close headers := headers.2
  expect headers := if headers.1 then some .Continue else none
  shouldKeepAlive _ headers := !headers.2
  display _ := ["100", " ", "Continue"]
  new_close := rfl
  setClose_close _ := rfl

/-- A stream that takes everything. -/
def listStream : Stream (List UInt8) Unit where
  write s data := (.ok data.length, s ++ data)
  interrupted _ := false
  writeZero := ()
  interrupts _ _ := 0
  interrupts_less := by simp
  writeZero_fails := rfl

def continuing : Handler Unit Unit (Bool × Bool) (BufWriter (List UInt8)) where
  handle _ res := res
  checkContinue _ _ _ := .Continue

def upload : Request Unit Unit (Bool × Bool) := ⟨(), (), .http11, (true, true)⟩

/-- The handler is called with the interim response in the buffer, and nothing in the
stream. -/
theorem upload_waits : ∃ v, v ∈ (Worker.handleConnection pairHyper listStream continuing
    (.ok ()) [] [.ok upload]).1 ∧ Expects pairHyper v.req ∧
      v.wrt = ⟨[], bytes "HTTP/1.1 100 Continue\r\n\r\n"⟩ := by
  have written : writeFmt (BufWriter.writeAll listStream) (BufWriter.new [])
      (interim pairHyper .Continue) = (.ok (), ⟨[], bytes "HTTP/1.1 100 Continue\r\n\r\n"⟩) :=
    writeFmt_room (w := .new []) (by decide)
  have passes : PassesExpect pairHyper (BufWriter.writeAll listStream) continuing upload (.new []) :=
    fun _ => ⟨⟨_, written⟩, rfl⟩
  refine ⟨invocation pairHyper (BufWriter.writeAll listStream) continuing upload (.new []), ?_, by decide, ?_⟩
  · simp only [Worker.handleConnection, loop_passed passes]
    simp [upload, pairHyper]
  · have expects : Expects pairHyper upload := by decide
    have checked : continuing.checkContinue upload.method upload.uri upload.headers = .Continue := rfl
    simp only [invocation, Worker.handleExpect, if_pos expects, checked]
    rw [written]
    rfl

theorem upload_kept_back : ∃ v, v ∈ (Worker.handleConnection pairHyper listStream continuing
    (.ok ()) [] [.ok upload]).1 ∧ ¬ v.wrt.HandedOver := by
  obtain ⟨v, handled, expects, -⟩ := upload_waits
  exact ⟨v, handled, continue_kept_back _ _ _ _ _ _ v handled expects⟩

theorem interim_not_handed_over : ¬ ∀ v ∈ (Worker.handleConnection pairHyper listStream continuing
    (.ok ()) [] [.ok upload]).1, Expects pairHyper v.req → v.wrt.HandedOver := by
  intro all
  obtain ⟨v, handled, expects, waits⟩ := upload_waits
  have left := all v handled expects
  rw [waits] at left
  exact absurd (show bytes "HTTP/1.1 100 Continue\r\n\r\n" = [] from left) (by decide)

end SimpleSched.Net.Http
