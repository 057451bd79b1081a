/-
# Net.Udp -- sending a datagram to one of several addresses

`UdpSocket::send_to` of `net/udp.rs`.  An error that the first `send_to` on an address
reports leaves the next address to be tried.  Once the socket would block, the call
stays with that address: it waits and retries, and returns an error it then finds.
With no address at all it returns `Ok(0)`, the value `last_err` starts with.

`sent_first_iff` says when the result and the datagram are the ones the outcomes of
the addresses call for, and when would-blocks make no difference.
-/
import SimpleSched.Mio
import SimpleSched.Theory.Fallback

namespace SimpleSched.Net

set_option autoImplicit false

open Mio Theory

variable {A E : Type} {len : Nat}

/-! ## What mio and bytes provide -/

/-- `bytes::SliceBuf`. -/
structure SliceBuf where
  bytes : List UInt8
  pos : Nat
  deriving DecidableEq, Repr

namespace SliceBuf

def wrap (bytes : List UInt8) : SliceBuf := ⟨bytes, 0⟩

def remaining (buf : SliceBuf) : Nat := buf.bytes.length - buf.pos

def rest (buf : SliceBuf) : List UInt8 := buf.bytes.drop buf.pos

def advance (buf : SliceBuf) (cnt : Nat) : SliceBuf :=
  { buf with pos := buf.pos + min cnt buf.remaining }

end SliceBuf

/-- What `mio::udp::UdpSocket::send_to` returns for an address, call after call:
`Ok(None)` until `len` bytes or fewer are sent, or an error comes. -/
inductive Script (E : Type) (len : Nat)
  | wouldBlock (later : Script E len)
  | sent (cnt : Nat) (within : cnt ≤ len)
  | error (e : E)

structure Target (A E : Type) (len : Nat) where
  addr : A
  script : Script E len

/-- The payload, and the datagrams sent so far. -/
structure Sending (A : Type) where
  buf : SliceBuf
  datagrams : List (A × List UInt8)
  deriving DecidableEq, Repr

/-- Nothing has been sent. -/
def Sending.start (payload : List UInt8) : Sending A := ⟨.wrap payload, []⟩

/-- A `send_to` that succeeds sends what is left of the buffer, and advances it. -/
def Sending.send (s : Sending A) (addr : A) (cnt : Nat) : Sending A :=
  ⟨s.buf.advance cnt, s.datagrams ++ [(addr, s.buf.rest)]⟩

/-! ## udp.rs -/

section SendTo

variable (waitEvent : EventSet → Except E Unit) (sliceBuf : List UInt8)

/-- The `loop` of `UdpSocket::send_to`, entered when the socket would block. -/
def UdpSocket.retry (addr : A) : Script E len → Sending A → Except E Nat × Sending A
  | script, s =>
    match waitEvent EventSet.writable with
    | .error e => (.error e, s)
    | .ok _ =>
      match script with
      | .wouldBlock later => retry addr later s
      | .sent cnt _ => (.ok (sliceBuf.length - (s.send addr cnt).buf.remaining), s.send addr cnt)
      | .error err => (.error err, s)

/-- The `for` of `UdpSocket::send_to`. -/
def UdpSocket.sendToFrom (lastErr : Except E Nat) :
    List (Target A E len) → Sending A → Except E Nat × Sending A
  | [], s => (lastErr, s)
  | ⟨addr, script⟩ :: rest, s =>
    match script with
    | .wouldBlock later => UdpSocket.retry waitEvent sliceBuf addr later s
    | .sent cnt _ => (.ok (sliceBuf.length - (s.send addr cnt).buf.remaining), s.send addr cnt)
    | .error err => UdpSocket.sendToFrom (.error err) rest s

/-- `target` is what `to_socket_addrs` returns. -/
def UdpSocket.sendTo (target : Except E (List (Target A E len))) : Except E Nat × Sending A :=
  match target with
  | .ok addrs => UdpSocket.sendToFrom waitEvent sliceBuf (.ok 0) addrs (.start sliceBuf)
  | .error e => (.error e, .start sliceBuf)

end SendTo

/-! ## What becomes of each address -/

/-- The first answer other than a would-block. -/
def Script.final : Script E len → Except E Nat
  | .wouldBlock later => later.final
  | .sent cnt _ => .ok cnt
  | .error e => .error e

def Target.final (t : Target A E len) : Except E Nat := t.script.final

/-- The result is the number of bytes sent in the one datagram, which went to the first
address that takes it; or an error, the last one if there is one, and nothing was
sent. -/
structure SentFirst (payload : List UInt8) (targets : List (Target A E len))
    (sent : Except E Nat × Sending A) : Prop where
  result : FirstOrLast (targets.map Target.final) sent.1
  datagrams : match sent.1 with
    | .ok cnt => ∃ before t after, targets = before ++ t :: after ∧
        (∀ u ∈ before, Failed u.final) ∧ t.final = .ok cnt ∧ sent.2.datagrams = [(t.addr, payload)]
    | .error _ => sent.2.datagrams = []

/-- Would-blocks are all the scripts differ in. -/
def SameOutcomes (targets targets' : List (Target A E len)) : Prop :=
  targets.map (fun t => (t.addr, t.final)) = targets'.map fun t => (t.addr, t.final)

variable (payload : List UInt8)

/-- What an address takes, if it takes the datagram. -/
def Target.delivery (t : Target A E len) : Except E (Nat × Sending A) :=
  t.final.map fun cnt => (cnt, (Sending.start payload).send t.addr cnt)

/-- One address: an error leaves the next to be tried if nothing blocked before it. -/
def Target.attempt (t : Target A E len) : Attempt E (Nat × Sending A) :=
  match t.delivery payload, t.script with
  | .ok sent, _ => .done sent
  | .error e, .wouldBlock _ => .stop e
  | .error e, _ => .next e

/-- What `send_to` returns and leaves behind. -/
def returned : Except E (Nat × Sending A) → Except E Nat × Sending A
  | .ok (cnt, s) => (.ok cnt, s)
  | .error e => (.error e, .start payload)

theorem Target.attempt_outcome (t : Target A E len) :
    (t.attempt payload).outcome = t.delivery payload := by
  unfold Target.attempt
  split <;> simp_all [Attempt.outcome]

variable {payload} {waitEvent : EventSet → Except E Unit} {addr : A}
  {targets targets' : List (Target A E payload.length)}

/-- After the datagram the buffer has advanced by what was sent. -/
theorem send_length {cnt : Nat} (within : cnt ≤ payload.length) :
    payload.length - ((Sending.start payload).send addr cnt).buf.remaining = cnt := by
  simp only [Sending.send, Sending.start, SliceBuf.remaining, SliceBuf.advance, SliceBuf.wrap]
  omega

theorem retry_eq (waits : waitEvent EventSet.writable = .ok ()) (script : Script E payload.length) :
    UdpSocket.retry waitEvent payload addr script (.start payload) =
      returned payload (Target.delivery payload ⟨addr, script⟩) := by
  induction script with
  | wouldBlock later ih =>
      rw [UdpSocket.retry, waits]
      exact ih
  | sent cnt within =>
      rw [UdpSocket.retry, waits]
      simp [Target.delivery, Target.final, Script.final, Except.map, returned, send_length within]
  | error e =>
      rw [UdpSocket.retry, waits]
      rfl

/-- `send_to` is a loop that returns the errors it finds after waiting. -/
theorem sendToFrom_eq (waits : waitEvent EventSet.writable = .ok ()) (lastErr : Except E Nat) :
    UdpSocket.sendToFrom waitEvent payload lastErr targets (.start payload) =
      returned payload (Attempt.run (lastErr.map (·, .start payload))
        (targets.map (Target.attempt payload))) := by
  induction targets generalizing lastErr with
  | nil => cases lastErr <;> rfl
  | cons t rest ih =>
      obtain ⟨addr, script⟩ := t
      rw [List.map_cons]
      cases script with
      | wouldBlock later =>
          simp only [UdpSocket.sendToFrom, retry_eq waits later, Target.attempt, Target.delivery, Target.final, Script.final]
          cases later.final <;> rfl
      | sent cnt within =>
          simp [UdpSocket.sendToFrom, Target.attempt, Target.delivery, Target.final, Script.final, Except.map, Attempt.run,
            returned, send_length within]
      | error e => exact ih (.error e)

theorem sendTo_eq (waits : waitEvent EventSet.writable = .ok ()) :
    UdpSocket.sendTo waitEvent payload (.ok targets) =
      returned payload (Attempt.run (.ok (0, .start payload)) (targets.map (Target.attempt payload))) :=
  sendToFrom_eq waits (.ok 0)

/-! ## When send_to means what the outcomes mean -/

theorem final_delivery (t : Target A E payload.length) (e : E) :
    t.final = .error e ↔ t.delivery payload = .error e := by
  unfold Target.delivery
  cases t.final <;> simp [Except.map]

theorem attempts_outcome :
    (targets.map (Target.attempt payload)).map Attempt.outcome =
      targets.map (Target.delivery payload) := by
  rw [List.map_map]
  exact List.map_congr_left fun t _ => t.attempt_outcome payload

/-- What the first address that takes the datagram takes is what should be sent. -/
theorem sentFirst_of_firstOrLast {r : Except E (Nat × Sending A)}
    (first : FirstOrLast (targets.map (Target.delivery payload)) r) :
    SentFirst payload targets (returned payload r) := by
  cases r with
  | error e =>
      exact ⟨(firstOrLast_error_congr fun t _ => final_delivery t).2 first, rfl⟩
  | ok sent =>
      obtain ⟨cnt, s⟩ := sent
      obtain ⟨before, after, split, failed⟩ := first
      obtain ⟨earlier, rest, rfl, rfl, tail⟩ := List.map_eq_append_iff.1 split
      obtain ⟨t, later, rfl, delivered, rfl⟩ := List.map_eq_cons_iff.1 tail
      have failures (u : Target A E payload.length) (mem : u ∈ earlier) : Failed u.final := by
        obtain ⟨e, eq⟩ := failed _ (List.mem_map_of_mem mem)
        exact ⟨e, (final_delivery u e).2 eq⟩
      have taken : t.final = .ok cnt ∧ s = (Sending.start payload).send t.addr cnt := by
        unfold Target.delivery at delivered
        cases final : t.final with
        | error e => simp [final, Except.map] at delivered
        | ok n =>
            simp only [final, Except.map, Except.ok.injEq, Prod.mk.injEq] at delivered
            obtain ⟨rfl, rfl⟩ := delivered
            exact ⟨rfl, rfl⟩
      refine ⟨⟨earlier.map Target.final, later.map Target.final, ?_, ?_⟩, ?_⟩
      · simp [taken.1]
      · intro x mem
        obtain ⟨u, here, rfl⟩ := List.mem_map.1 mem
        exact failures u here
      · exact ⟨earlier, t, later, rfl, failures, taken.1, by rw [taken.2]; rfl⟩

theorem sentFirst_iff_harmless (waits : waitEvent EventSet.writable = .ok ()) :
    SentFirst payload targets (UdpSocket.sendTo waitEvent payload (.ok targets)) ↔
      targets ≠ [] ∧ Attempt.Harmless (targets.map (Target.attempt payload)) := by
  rw [sendTo_eq waits]
  constructor
  · intro means
    have some : targets ≠ [] := by
      rintro rfl
      obtain ⟨before, after, split, -⟩ := means.result
      cases before <;> cases split
    refine ⟨some, ?_⟩
    cases result : Attempt.run (.ok (0, .start payload)) (targets.map (Target.attempt payload)) with
    | ok sent => exact Attempt.harmless_of_ok result
    | error e =>
        have first := means.result
        rw [result] at first
        rw [← Attempt.run_firstOrLast_iff (.ok (0, .start payload)) (by simpa using some),
          attempts_outcome, result]
        exact (firstOrLast_error_congr fun t _ => final_delivery t).1 first
  · rintro ⟨some, harmless⟩
    apply sentFirst_of_firstOrLast
    rw [← attempts_outcome]
    exact (Attempt.run_firstOrLast_iff _ (by simpa using some)).2 harmless

/-- An address whose first send would block is not left for the next one. -/
theorem sendTo_blocked (waits : waitEvent EventSet.writable = .ok ())
    (before after : List (Target A E payload.length)) {t : Target A E payload.length} {e : E}
    (go_on : ∀ u ∈ before, ∃ e, u.script = .error e) (final : t.final = .error e) :
    UdpSocket.sendTo waitEvent payload (.ok (before ++ ⟨t.addr, .wouldBlock t.script⟩ :: after)) =
      (.error e, .start payload) := by
  have stops : Target.attempt payload ⟨t.addr, .wouldBlock t.script⟩ = .stop e := by
    have same : Target.delivery payload ⟨t.addr, .wouldBlock t.script⟩ = .error e := by
      exact (final_delivery (t := ⟨t.addr, .wouldBlock t.script⟩) e).1 final
    simp [Target.attempt, same]
  rw [sendTo_eq waits, List.map_append, List.map_cons, stops, Attempt.run_stop]
  · rfl
  · intro a mem
    obtain ⟨u, here, rfl⟩ := List.mem_map.1 mem
    obtain ⟨e', failed⟩ := go_on u here
    exact ⟨e', by simp [Target.attempt, Target.delivery, Target.final, failed, Script.final, Except.map]⟩

/-- The script with its would-blocks taken out. -/
def Script.immediate : Script E len → Script E len
  | .wouldBlock later => later.immediate
  | known => known

theorem Script.immediate_final (script : Script E len) : script.immediate.final = script.final := by
  induction script with
  | wouldBlock later ih => exact ih
  | sent | error => rfl

theorem Script.immediate_error {script : Script E len} {e : E} (final : script.final = .error e) :
    script.immediate = .error e := by
  induction script with
  | wouldBlock later ih => exact ih final
  | sent => cases final
  | error => cases final; rfl

/-- With every would-block taken out each address is tried. -/
theorem sendTo_immediate (waits : waitEvent EventSet.writable = .ok ())
    (targets : List (Target A E payload.length)) (some : targets ≠ []) :
    SentFirst payload (targets.map fun t => ⟨t.addr, t.script.immediate⟩)
      (UdpSocket.sendTo waitEvent payload (.ok (targets.map fun t => ⟨t.addr, t.script.immediate⟩))) := by
  refine (sentFirst_iff_harmless waits).2 ⟨by simpa using some, Attempt.harmless_of_next ?_⟩
  intro attempt mem e stops
  rw [List.map_map] at mem
  obtain ⟨t, -, rfl⟩ := List.mem_map.1 mem
  cases final : t.final with
  | ok n =>
      simp [Target.attempt, Target.delivery, Target.final, Script.immediate_final,
        show t.script.final = .ok n from final, Except.map] at stops
  | error e' =>
      simp [Target.attempt, Target.delivery, Target.final, Script.immediate_error final, Script.final,
        Except.map] at stops

theorem sendTo_ok (waits : waitEvent EventSet.writable = .ok ()) {t : Target A E payload.length}
    {rest : List (Target A E payload.length)} {n : Nat} (final : t.final = .ok n) :
    UdpSocket.sendTo waitEvent payload (.ok (t :: rest)) =
      (.ok n, (Sending.start payload).send t.addr n) := by
  rw [sendTo_eq waits, List.map_cons]
  simp [Target.attempt, Target.delivery, final, Except.map, Attempt.run, returned]

theorem sendTo_uniform (waits : waitEvent EventSet.writable = .ok ()) (some : targets ≠ []) {e : E}
    (uniform : ∀ t ∈ targets, t.final = .error e) :
    UdpSocket.sendTo waitEvent payload (.ok targets) = (.error e, .start payload) := by
  rw [sendTo_eq waits, Attempt.run_uniform (e := e) (by simpa using some)]
  · rfl
  · intro attempt mem
    obtain ⟨t, here, rfl⟩ := List.mem_map.1 mem
    rw [t.attempt_outcome]
    exact (final_delivery t e).1 (uniform t here)

/-- Inserting or removing would-blocks leaves the result as it is. -/
def Indifferent (waitEvent : EventSet → Except E Unit) (payload : List UInt8)
    (targets : List (Target A E payload.length)) : Prop :=
  ∀ targets', SameOutcomes targets targets' →
    UdpSocket.sendTo waitEvent payload (.ok targets') = UdpSocket.sendTo waitEvent payload (.ok targets)

/-- After a would-block the first error is the result; if it is the result without one,
no address takes the datagram. -/
theorem Indifferent.failed (waits : waitEvent EventSet.writable = .ok ()) {t : Target A E payload.length}
    {rest : List (Target A E payload.length)} (same : Indifferent waitEvent payload (t :: rest)) {e : E}
    (head : t.final = .error e) :
    UdpSocket.sendTo waitEvent payload (.ok (t :: rest)) = (.error e, .start payload) ∧
      ∀ u ∈ t :: rest, Failed u.final := by
  have result : UdpSocket.sendTo waitEvent payload (.ok (t :: rest)) = (.error e, .start payload) :=
    (same (⟨t.addr, .wouldBlock t.script⟩ :: rest) rfl).symm.trans
      (sendTo_blocked waits [] rest (by simp) head)
  refine ⟨result, ?_⟩
  have immediate := (sendTo_immediate waits (t :: rest) (by simp)).result
  rw [same _ (by simp [SameOutcomes, Target.final, Script.immediate_final]), result] at immediate
  intro u here
  have failed := immediate.1 u.script.immediate.final
    (List.mem_map.2 ⟨⟨u.addr, u.script.immediate⟩, List.mem_map.2 ⟨u, here, rfl⟩, rfl⟩)
  rwa [Script.immediate_final] at failed

theorem Indifferent.uniform (waits : waitEvent EventSet.writable = .ok ())
    (same : Indifferent waitEvent payload targets) : Uniform (targets.map Target.final) := by
  intro e first x mem
  obtain ⟨t, rest, rfl⟩ : ∃ t rest, targets = t :: rest := by
    cases targets with
    | nil => cases first
    | cons t rest => exact ⟨t, rest, rfl⟩
  obtain ⟨result, none_ok⟩ := same.failed waits (by simpa using first)
  obtain ⟨u, here, rfl⟩ := List.mem_map.1 mem
  obtain ⟨e', failed⟩ := none_ok u here
  obtain ⟨before, after, split⟩ := List.append_of_mem here
  have go_on : ∀ w ∈ before.map (fun w => (⟨w.addr, w.script.immediate⟩ : Target A E payload.length)),
      ∃ e, w.script = .error e := by
    intro w mem
    obtain ⟨v, earlier, rfl⟩ := List.mem_map.1 mem
    obtain ⟨e, final⟩ := none_ok v (by simp [split, earlier])
    exact ⟨e, Script.immediate_error final⟩
  -- with a would-block before it the error of `u` is the result
  have blocked := sendTo_blocked waits _ after go_on failed
  rw [same _ (by
    simp [split, SameOutcomes, Target.final, Script.immediate_final, Script.final]), result] at blocked
  cases blocked
  exact failed

theorem indifferent_of_uniform (waits : waitEvent EventSet.writable = .ok ())
    (uniform : Uniform (targets.map Target.final)) : Indifferent waitEvent payload targets := by
  intro targets' same
  cases targets with
  | nil =>
      cases targets' with
      | nil => rfl
      | cons t' rest' => cases same
  | cons t rest =>
      cases targets' with
      | nil => cases same
      | cons t' rest' =>
          obtain ⟨⟨addr, final⟩, -⟩ : (t.addr = t'.addr ∧ t.final = t'.final) ∧ _ := by
            simpa [SameOutcomes] using same
          cases head : t.final with
          | ok n => rw [sendTo_ok waits head, sendTo_ok waits (final ▸ head), addr]
          | error e =>
              have all : ∀ u ∈ t :: rest, u.final = .error e := by
                intro u here
                exact uniform e (by simp [head]) _ (List.mem_map_of_mem here)
              have all' : ∀ u ∈ t' :: rest', u.final = .error e := by
                intro u here
                have there : (u.addr, u.final) ∈ (t :: rest).map fun t => (t.addr, t.final) :=
                  same ▸ List.mem_map.2 ⟨u, here, rfl⟩
                obtain ⟨v, mem, eq⟩ := List.mem_map.1 there
                rw [← (Prod.mk.inj eq).2]
                exact all v mem
              rw [sendTo_uniform waits (by simp) all, sendTo_uniform waits (by simp) all']

/-- `send_to` sends one datagram, to the first address that takes it, and fails with
the last error if there is none, exactly when there is an address and no error found
after waiting hides a success or another last error.  Would-blocks make no
difference exactly when the first address takes the datagram or all errors are the
same. -/
theorem sent_first_iff (waits : waitEvent EventSet.writable = .ok ()) :
    (SentFirst payload targets (UdpSocket.sendTo waitEvent payload (.ok targets)) ↔
      targets ≠ [] ∧ Attempt.Harmless (targets.map (Target.attempt payload))) ∧
    ((∀ targets', SameOutcomes targets targets' →
        UdpSocket.sendTo waitEvent payload (.ok targets') =
          UdpSocket.sendTo waitEvent payload (.ok targets)) ↔
      Uniform (targets.map Target.final)) :=
  ⟨sentFirst_iff_harmless waits, Indifferent.uniform waits, indifferent_of_uniform waits⟩

/-! ## Two addresses -/

/-- Address 1 fails with error 101, after a would-block if `blocks`; address 2 takes the
datagram. -/
def twoAddresses (blocks : Bool) : List (Target Nat Nat 3) :=
  [⟨1, if blocks then .wouldBlock (.error 101) else .error 101⟩, ⟨2, .sent 3 (Nat.le_refl 3)⟩]

theorem second_address_takes :
    SentFirst [1, 2, 3] (twoAddresses false)
      (UdpSocket.sendTo (fun _ => .ok ()) [1, 2, 3] (.ok (twoAddresses false))) :=
  (sent_first_iff rfl).1.2 ⟨by simp [twoAddresses], trivial⟩

/-- After a would-block the error of the first address is returned, and with no address
the result is `Ok(0)`. -/
theorem second_address_unsent :
    ¬ SentFirst [1, 2, 3] (twoAddresses true)
        (UdpSocket.sendTo (fun _ => .ok ()) [1, 2, 3] (.ok (twoAddresses true))) ∧
      ¬ SentFirst [1, 2, 3] ([] : List (Target Nat Nat 3))
        (UdpSocket.sendTo (fun _ => .ok ()) [1, 2, 3] (.ok ([] : List (Target Nat Nat 3)))) := by
  constructor
  · intro means
    have returned : UdpSocket.sendTo (fun _ => .ok ()) [1, 2, 3] (.ok (twoAddresses true)) =
        (.error 101, .start [1, 2, 3]) := rfl
    rw [returned] at means
    obtain ⟨e, failed⟩ := means.result.1 (.ok 3) (by simp [twoAddresses, Target.final, Script.final])
    cases failed
  · intro means
    obtain ⟨before, after, split, -⟩ := means.result
    cases before <;> cases split

end SimpleSched.Net
