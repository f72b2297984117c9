/-
The receiving half of `crofsock`: `recv_message`, one round of its loop at a
time, with `parse_message` as a round's second half.

A round reads from the socket once. How that call falls is chosen from
outside (`Recv`): some octets, at least one and at most as many as asked
for; nothing for now (`EAGAIN` and the `SSL_ERROR_WANT_` results, after which
`recv_message` returns); no octets because none were asked for; or the end
of the connection. The octets are of any type that has a value in `UInt8`,
so that they can carry where they came from.
-/
import RoflCommon.Crofsock.Parse

namespace RoflCommon

/-- `socket_state_t`, in the order of its numbers. -/
inductive SockState
  | idle | listening | tcpConnecting | tlsConnecting | tcpAccepting | tlsAccepting
  | tcpEstablished | tlsEstablished
deriving DecidableEq, Repr

def SockState.established : SockState → Bool
  | .tcpEstablished | .tlsEstablished => true
  | _ => false

/-- The states in which the socket is opened. -/
def SockState.opening : SockState → Bool
  | .tcpConnecting | .tcpAccepting | .listening => true
  | _ => false

/-- The TLS handshake, and the way back from TLS within `close()`. -/
def SockState.tlsMove (closing : Bool) : SockState → SockState → Bool
  | .tcpEstablished, .tlsConnecting | .tcpEstablished, .tlsAccepting => !closing
  | .tlsConnecting, .tlsEstablished | .tlsAccepting, .tlsEstablished => !closing
  | .tlsConnecting, .tcpEstablished | .tlsAccepting, .tcpEstablished | .tlsEstablished, .tcpEstablished => closing
  | _, _ => false

theorem SockState.not_established_of_opening {s : SockState} (h : s.opening = true) : s.established = false := by
  cases s <;> first | rfl | cases h

/-- A type of octets. -/
class Octet (α : Type) extends Inhabited α where
  val : α → UInt8

instance : Octet UInt8 where
  default := 0
  val := id

/-- How a call of `recv` or `SSL_read` falls. `bytes k` is `k + 1` octets, or
as many as were asked for and are there, if these are fewer. -/
inductive Recv
  | bytes (k : Nat)
  | again
  | zero
  | failed
deriving DecidableEq, Repr

/-- Where the RX thread is: outside `recv_message`, at the head of its loop,
about to call `parse_message`, or in the call of `handle_recv` for a message
decoded from `frame`. -/
inductive RxPc (α : Type)
  | idle
  | loop
  | parse
  | handle (frame : List α) (msg : Cofmsg)
deriving DecidableEq, Repr

structure Rx (α : Type) where
  rxbuffer : Cbuffer α
  rxDisabled : Bool
  state : SockState
  nbytes : Nat
  pc : RxPc α

namespace Rx

variable {α : Type} [Octet α]

/-- The buffer with its octets as numbers. -/
def octets (b : Cbuffer α) : Cbuffer UInt8 :=
  ⟨fun i => Octet.val (b.mem i), b.size, b.wbytes, b.rbytes, b.rbytes_le, b.wbytes_le⟩

/-- `msg_len` at the head of the loop. -/
def msgLen (b : Cbuffer α) : Nat :=
  if b.rmemlen < sizeofHeader then sizeofHeader else headerLength (octets b).mem

/-- How many octets the round asks for. -/
def request (b : Cbuffer α) : Nat := msgLen b - b.rmemlen

/-- The message was received completely. -/
def complete (b : Cbuffer α) : Bool :=
  decide (sizeofHeader ≤ b.rmemlen ∧ headerLength (octets b).mem = b.rmemlen)

/-- `recv_message()` is entered. -/
def call (rx : Rx α) : Rx α := { rx with nbytes := 0, pc := .loop }

/-- `close()`, as far as reception goes. -/
def close (rx : Rx α) : Rx α := { rx with state := .idle, rxDisabled := false }

/-- `on_error`, and the return from `recv_message`. -/
def onError (rx : Rx α) : Rx α :=
  if rx.state.established then { rx.close with pc := .idle } else { rx with pc := .idle }

/-- `l` has been read into the buffer; if that completes the message, it is
parsed next. -/
def received (rx : Rx α) (l : List α) : Rx α :=
  let b := (rx.rxbuffer.write l).wseek l.length
  { rx with rxbuffer := b, nbytes := l.length, pc := if complete b then .parse else .loop }

/-- In any other state nothing is read, but the buffer moves on by the
`nbytes` of the round before. -/
def notReceived (rx : Rx α) : Rx α :=
  let b := rx.rxbuffer.wseek rx.nbytes
  { rx with rxbuffer := b, pc := if complete b then .parse else .loop }

/-- One round of the loop, with `incoming` still to be read from the socket. -/
def round (rx : Rx α) (incoming : List α) (r : Recv) : Option (Rx α × List α) :=
  if rx.rxDisabled ∨ rx.state = .idle then some ({ rx with pc := .idle }, incoming)
  else if msgLen rx.rxbuffer < sizeofHeader then some (rx.onError, incoming)
  else if rx.state.established then
    match r with
    | .bytes k =>
      let n := min (k + 1) (request rx.rxbuffer)
      if n = 0 ∨ incoming = [] then none
      else some (rx.received (incoming.take n), incoming.drop n)
    | .again => some ({ rx with pc := .idle }, incoming)
    | .zero => if request rx.rxbuffer = 0 then some (rx.onError, incoming) else none
    | .failed => some (rx.onError, incoming)
  else some (rx.notReceived, incoming)

/-- `parse_message`, up to the call of `handle_recv`: the buffer is reset by
the parsers, after the message has been unpacked. -/
def parse (unpack : Unpack) (rx : Rx α) : Rx α :=
  match parseBuffer unpack (octets rx.rxbuffer) with
  | .ok msg =>
    { rx with
      rxbuffer := rx.rxbuffer.reset
      -- the connection may have been closed meanwhile
      pc := if rx.state = .idle then .loop else .handle rx.rxbuffer.content msg }
  | .error e => { rx with pc := if e.caught then .loop else .idle }

/-- What a round can do, and when. -/
theorem round_cases {rx rx' : Rx α} {incoming incoming' : List α} {r : Recv}
    (h : rx.round incoming r = some (rx', incoming')) :
    (rx' = { rx with pc := .idle } ∧ incoming' = incoming ∧
        (rx.rxDisabled = true ∨ rx.state = .idle ∨ r = .again)) ∨
      (rx' = rx.onError ∧ incoming' = incoming ∧
        (msgLen rx.rxbuffer < sizeofHeader ∨ r = .failed ∨ (r = .zero ∧ request rx.rxbuffer = 0))) ∨
      (∃ n, rx' = rx.received (incoming.take n) ∧ incoming' = incoming.drop n ∧
        0 < n ∧ n ≤ request rx.rxbuffer ∧ incoming ≠ []) ∨
      (rx' = rx.notReceived ∧ incoming' = incoming ∧
        rx.rxDisabled = false ∧ rx.state ≠ .idle ∧ rx.state.established = false) := by
  unfold round at h
  split at h
  next hoff =>
    obtain ⟨rfl, rfl⟩ := Prod.mk.inj (Option.some.inj h)
    exact .inl ⟨rfl, rfl, hoff.imp_right .inl⟩
  next hon =>
    simp only [not_or, Bool.not_eq_true] at hon
    split at h
    next hsync =>
      obtain ⟨rfl, rfl⟩ := Prod.mk.inj (Option.some.inj h)
      exact .inr (.inl ⟨rfl, rfl, .inl hsync⟩)
    split at h
    · cases r with
      | bytes k =>
        dsimp only at h
        split at h
        · cases h
        next hsome =>
          obtain ⟨rfl, rfl⟩ := Prod.mk.inj (Option.some.inj h)
          simp only [not_or] at hsome
          exact .inr (.inr (.inl ⟨_, rfl, rfl, Nat.pos_of_ne_zero hsome.1, Nat.min_le_right _ _, hsome.2⟩))
      | again =>
        obtain ⟨rfl, rfl⟩ := Prod.mk.inj (Option.some.inj h)
        exact .inl ⟨rfl, rfl, .inr (.inr rfl)⟩
      | zero =>
        dsimp only at h
        split at h
        next hzero =>
          obtain ⟨rfl, rfl⟩ := Prod.mk.inj (Option.some.inj h)
          exact .inr (.inl ⟨rfl, rfl, .inr (.inr ⟨rfl, hzero⟩)⟩)
        · cases h
      | failed =>
        obtain ⟨rfl, rfl⟩ := Prod.mk.inj (Option.some.inj h)
        exact .inr (.inl ⟨rfl, rfl, .inr (.inl rfl)⟩)
    next hest =>
      obtain ⟨rfl, rfl⟩ := Prod.mk.inj (Option.some.inj h)
      exact .inr (.inr (.inr ⟨rfl, rfl, hon.1, hon.2, by simpa using hest⟩))

end Rx
end RoflCommon
