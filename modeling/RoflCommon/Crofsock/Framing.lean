/-
Framing on one established connection: whatever way the calls of `recv` cut
up the stream, `parse_message` is called once for each frame, in order, with
just that frame in the buffer (`framing_independent`), as long as parsing
raises no exception.

A frame whose parsing does raise one is not dropped: the parsers reset the
buffer only after unpacking, so the handlers of `parse_message` leave the
frame where it is. The next round then asks for no octets, takes the answer,
none, for the peer's shutdown, and closes the connection
(`closes_after_raise`); no later frame is ever parsed (`parses_no_more`).
`malformed_costs_itself_iff` states both directions at once.
-/
import RoflCommon.Crofsock.Recv
import RoflCommon.Lib.Frames
import RoflCommon.Lib.Runs

namespace RoflCommon

/-- One connection seen from the receiving side: what is still to be read of
the stream, what the buffer held at each call of `parse_message` and what
came of it, the messages handed to `handle_recv`, and the error messages
sent. -/
structure Receiver where
  rx : Rx UInt8
  incoming : List UInt8
  parsed : List (List UInt8 × Except ParseError Cofmsg)
  handed : List Cofmsg
  sent : List BadRequest

namespace Receiver

inductive Act
  /-- A read event or a wakeup: `recv_message` is entered. -/
  | call
  | round (r : Recv)
  | parse
  /-- `handle_recv` returns, or an exception leaves it. -/
  | handled (escapes : Bool)
  /-- The application, `handle_recv` and the handler thread may do these. -/
  | rxDisable
  | rxEnable
  | close
deriving DecidableEq, Repr

def step (unpack : Unpack) (s : Receiver) : Act → Option Receiver
  | .call => if s.rx.pc = .idle then some { s with rx := s.rx.call } else none
  | .round r =>
    if s.rx.pc = .loop then
      (s.rx.round s.incoming r).map fun (rx, incoming) => { s with rx := rx, incoming := incoming }
    else none
  | .parse =>
    if s.rx.pc = .parse then
      let outcome := parseBuffer unpack (Rx.octets s.rx.rxbuffer)
      some { s with
        rx := s.rx.parse unpack
        parsed := s.parsed ++ [(s.rx.rxbuffer.content, outcome)]
        handed := s.handed ++ match outcome with
          | .ok msg => if s.rx.state = .idle then [] else [msg]
          | .error _ => []
        sent := s.sent ++ match outcome with
          | .ok _ => []
          | .error e => badRequests e (Rx.octets s.rx.rxbuffer) }
    else none
  | .handled escapes =>
    match s.rx.pc with
    | .handle _ _ => some { s with rx := { s.rx with pc := if escapes then .idle else .loop } }
    | _ => none
  | .rxDisable => some { s with rx := { s.rx with rxDisabled := true } }
  | .rxEnable => some { s with rx := { s.rx with rxDisabled := false } }
  | .close => some { s with rx := s.rx.close }

/-! ## Frames -/

/-- An OpenFlow frame: the header says how long it is. -/
def framing : Frames.Framing UInt8 where
  header := sizeofHeader
  len f := headerLength fun i => f.getD i 0
  len_take l := by simp [headerLength, sizeofHeader]

@[simp] theorem framing_header : framing.header = sizeofHeader := rfl

/-- A frame with a header length between 8 and 65535. -/
def Frame (f : List UInt8) : Prop := framing.IsFrame f

instance (f : List UInt8) : Decidable (Frame f) := inferInstanceAs (Decidable (_ ∧ _))

theorem Frame.length_lt {f : List UInt8} (h : Frame f) : f.length < 65536 := by
  rw [← h.2]
  exact be16toh_lt _ _

/-- The frame parses, whatever the memory of the buffer holds after it. -/
def Parses (unpack : Unpack) (f : List UInt8) : Prop :=
  ∀ b : Cbuffer UInt8, b.content = f → b.rbytes = 0 → b.size = 65536 → ∃ msg, parseBuffer unpack b = .ok msg

/-- An established connection on which nothing has been read yet, with the
frames `fs` to come. The memory of the buffer may hold anything. -/
structure Start (fs : List (List UInt8)) (s : Receiver) : Prop where
  frames : ∀ f ∈ fs, Frame f
  established : s.rx.state.established = true
  pc : s.rx.pc = .idle
  empty : s.rx.rxbuffer.content = []
  rbytes : s.rx.rxbuffer.rbytes = 0
  size : s.rx.rxbuffer.size = 65536
  incoming : s.incoming = fs.flatten
  fresh : s.parsed = [] ∧ s.handed = [] ∧ s.sent = []

/-- `parse_message` has been called on the first frames of the stream, once
on each, and the buffer holds no more than a part of the frame after them;
once the stream has been read, it has been called on all. -/
structure InStep (fs : List (List UInt8)) (s : Receiver) : Prop where
  done : ∃ rest, fs = s.parsed.map Prod.fst ++ rest ∧
    s.rx.rxbuffer.content ++ s.incoming = rest.flatten ∧
    ∀ f, rest.head? = some f → s.rx.rxbuffer.content <+: f
  all : s.incoming = [] → s.rx.pc ≠ .parse → s.parsed.map Prod.fst = fs

/-! ## The buffer and the frame it collects -/

section Buffer

variable {b : Cbuffer UInt8}

theorem mem_eq_of_content (h : b.rbytes = 0) {i : Nat} (hi : i < b.content.length) :
    b.mem i = b.content.getD i 0 := by
  rw [List.getD_eq_getElem?_getD, List.getElem?_eq_getElem hi]
  simp [Cbuffer.content, h]

theorem headerLength_eq (h : b.rbytes = 0) (hlen : sizeofHeader ≤ b.content.length) :
    headerLength (Rx.octets b).mem = framing.len b.content := by
  unfold sizeofHeader at hlen
  simp only [headerLength, framing, Rx.octets, Octet.val, id]
  rw [mem_eq_of_content h (by omega), mem_eq_of_content h (by omega)]

/-- What a round asks for is what is missing of the header, then of the frame. -/
theorem request_eq (h : b.rbytes = 0) : Rx.request b = framing.want b.content := by
  unfold Rx.request Rx.msgLen Frames.Framing.want
  rw [← b.length_content, framing_header]
  split
  · rfl
  · next hge => rw [headerLength_eq h (by omega)]

theorem complete_eq (h : b.rbytes = 0) :
    Rx.complete b = true ↔ framing.header ≤ b.content.length ∧ framing.len b.content = b.content.length := by
  simp only [Rx.complete, decide_eq_true_eq, ← b.length_content]
  exact and_congr_right fun hlen => by rw [headerLength_eq h hlen]

/-- A part of a frame never looks out of sync. -/
theorem msgLen_ge {f : List UInt8} (h : b.rbytes = 0) (hf : Frame f) (hpart : b.content <+: f) :
    sizeofHeader ≤ Rx.msgLen b := by
  unfold Rx.msgLen
  rw [← b.length_content]
  split
  · exact Nat.le_refl _
  · next hge =>
    rw [headerLength_eq h (by omega), Frames.Framing.len_of_isPrefix hpart (by rw [framing_header]; omega), hf.2]
    exact hf.1

end Buffer

/-! ## The invariant -/

/-- What the buffer holds of the frames `rest` not parsed yet: the whole first
frame just before `parse_message`, else a proper part of it. -/
def Holds (pc : RxPc UInt8) (content : List UInt8) : List (List UInt8) → Prop
  | [] => pc ≠ .parse ∧ content = []
  | f :: _ => (pc = .parse ∧ content = f) ∨
      (pc ≠ .parse ∧ content <+: f ∧ content.length < f.length)

structure Framed (fs : List (List UInt8)) (s : Receiver) : Prop where
  frames : ∀ f ∈ fs, Frame f
  rbytes : s.rx.rxbuffer.rbytes = 0
  size : s.rx.rxbuffer.size = 65536
  state : s.rx.state.established = true ∨ s.rx.state = .idle
  stream : ∃ rest, fs = s.parsed.map Prod.fst ++ rest ∧
    s.rx.rxbuffer.content ++ s.incoming = rest.flatten ∧ Holds s.rx.pc s.rx.rxbuffer.content rest

variable {unpack : Unpack} {fs : List (List UInt8)} {s s' : Receiver}

theorem Start.framed (h : Start fs s) : Framed fs s where
  frames := h.frames
  rbytes := h.rbytes
  size := h.size
  state := .inl h.established
  stream := by
    refine ⟨fs, by simp [h.fresh.1], by simp [h.empty, h.incoming], ?_⟩
    rw [h.empty, h.pc]
    cases fs with
    | nil => exact ⟨nofun, rfl⟩
    | cons f fs =>
      refine .inr ⟨nofun, List.nil_prefix, ?_⟩
      have := (h.frames f (by simp)).1
      rw [framing_header] at this
      simp only [sizeofHeader, List.length_nil] at this ⊢
      omega

/-- Away from `parse_message` only the position of the thread changes. -/
theorem Framed.of_rx (h : Framed fs s) {rx : Rx UInt8} (hpc : s.rx.pc = rx.pc ∨
      (s.rx.pc ≠ .parse ∧ rx.pc ≠ .parse)) (hb : rx.rxbuffer = s.rx.rxbuffer)
    (hs : rx.state.established = true ∨ rx.state = .idle) : Framed fs { s with rx := rx } where
  frames := h.frames
  rbytes := by rw [hb]; exact h.rbytes
  size := by rw [hb]; exact h.size
  state := hs
  stream := by
    obtain ⟨rest, hfs, hstream, hholds⟩ := h.stream
    refine ⟨rest, hfs, by rw [hb]; exact hstream, ?_⟩
    rw [hb]
    rcases hpc with hpc | ⟨h1, h2⟩
    · exact hpc ▸ hholds
    · cases rest with
      | nil => exact ⟨h2, hholds.2⟩
      | cons f rest =>
        rcases hholds with ⟨h', -⟩ | ⟨-, hh⟩
        · exact absurd h' h1
        · exact .inr ⟨h2, hh⟩

/-- The frame being collected, if any is left. -/
theorem Framed.next (h : Framed fs s) (hpc : s.rx.pc ≠ .parse) :
    (s.rx.rxbuffer.content = [] ∧ s.incoming = [] ∧ fs = s.parsed.map Prod.fst) ∨
      ∃ f rest, fs = s.parsed.map Prod.fst ++ f :: rest ∧ Frame f ∧
        s.rx.rxbuffer.content ++ s.incoming = (f :: rest).flatten ∧
        s.rx.rxbuffer.content <+: f ∧ s.rx.rxbuffer.content.length < f.length := by
  obtain ⟨rest, hfs, hstream, hholds⟩ := h.stream
  cases rest with
  | nil =>
    rw [hholds.2] at hstream
    exact .inl ⟨hholds.2, by simpa using hstream, by simpa using hfs⟩
  | cons f rest =>
    rcases hholds with ⟨hp, -⟩ | ⟨-, hpart, hlt⟩
    · exact absurd hp hpc
    · exact .inr ⟨f, rest, hfs, h.frames f (by simp [hfs]), hstream, hpart, hlt⟩

/-- A round always asks for something. -/
theorem Framed.request_pos (h : Framed fs s) (hpc : s.rx.pc ≠ .parse) :
    0 < Rx.request s.rx.rxbuffer := by
  rw [request_eq h.rbytes]
  rcases h.next hpc with ⟨hnil, -, -⟩ | ⟨f, rest, -, hf, -, hpart, hlt⟩
  · rw [hnil]
    decide
  · exact Frames.Framing.want_pos hf hpart hlt

theorem Framed.msgLen_ge (h : Framed fs s) (hpc : s.rx.pc ≠ .parse) :
    sizeofHeader ≤ Rx.msgLen s.rx.rxbuffer := by
  rcases h.next hpc with ⟨hnil, -, -⟩ | ⟨f, rest, -, hf, -, hpart, -⟩
  · have h0 : s.rx.rxbuffer.rmemlen = 0 := by rw [← Cbuffer.length_content, hnil, List.length_nil]
    unfold Rx.msgLen
    rw [h0, if_pos (by decide)]
  · exact Receiver.msgLen_ge h.rbytes hf hpart

/-- The octets of one `recv` extend the frame being collected, and complete
it exactly when it is whole. -/
theorem Framed.received (h : Framed fs s) (hpc : s.rx.pc = .loop) {n : Nat}
    (hn : n ≤ Rx.request s.rx.rxbuffer) (hne : s.incoming ≠ []) :
    Framed fs { s with rx := s.rx.received (s.incoming.take n), incoming := s.incoming.drop n } := by
  rcases h.next (by rw [hpc]; nofun) with ⟨-, hnil, -⟩ | ⟨f, rest, hfs, hf, hstream, hpart, hlt⟩
  · exact absurd hnil hne
  have hwant := Frames.Framing.want_le hf hpart
  rw [request_eq h.rbytes] at hn
  have htake : (s.incoming.take n).length ≤ n := by simp only [List.length_take]; omega
  have hfit : s.rx.rxbuffer.wbytes + (s.incoming.take n).length ≤ s.rx.rxbuffer.size := by
    have hw : s.rx.rxbuffer.content.length = s.rx.rxbuffer.wbytes := by
      rw [Cbuffer.length_content, Cbuffer.rmemlen, h.rbytes, Nat.sub_zero]
    have := hf.length_lt
    rw [h.size]
    omega
  have hcontent := Cbuffer.content_wseek_write hfit
  have hstream' : (s.rx.rxbuffer.content ++ s.incoming.take n) ++ s.incoming.drop n = (f :: rest).flatten := by
    rw [List.append_assoc, List.take_append_drop, hstream]
  have hpart' : s.rx.rxbuffer.content ++ s.incoming.take n <+: f :=
    Frames.Framing.isPrefix_of_stream hstream' (by rw [List.length_append]; omega)
  have hrbytes : ((s.rx.rxbuffer.write (s.incoming.take n)).wseek (s.incoming.take n).length).rbytes = 0 :=
    h.rbytes
  refine ⟨h.frames, hrbytes, ((Cbuffer.wseek_of_le (b := s.rx.rxbuffer.write _) hfit).2).trans h.size, h.state,
    f :: rest, hfs, ?_, ?_⟩
  · simp only [Rx.received, hcontent, hstream']
  · have hcomplete := complete_eq hrbytes
    rw [hcontent, Frames.Framing.complete_iff hf hpart'] at hcomplete
    simp only [Rx.received, hcontent]
    by_cases hwhole : s.rx.rxbuffer.content ++ s.incoming.take n = f
    · exact .inl ⟨by rw [if_pos (hcomplete.mpr hwhole)], hwhole⟩
    · refine .inr ⟨by rw [if_neg (mt hcomplete.mp hwhole)]; nofun, hpart', ?_⟩
      exact Nat.lt_of_le_of_ne hpart'.length_le fun heq => hwhole (hpart'.eq_of_length heq)

/-- Parsing what is in the buffer raises an exception. -/
def Raises (unpack : Unpack) (s : Receiver) (e : ParseError) : Prop :=
  parseBuffer unpack (Rx.octets s.rx.rxbuffer) = .error e

theorem Framed.round (h : Framed fs s) {r : Recv} (hs : step unpack s (.round r) = some s') :
    Framed fs s' := by
  simp only [step] at hs
  split at hs
  next hpc =>
    have hne : s.rx.pc ≠ .parse := by rw [hpc]; nofun
    have hidle : ∀ rx : Rx UInt8, rx.rxbuffer = s.rx.rxbuffer → rx.pc = .idle →
        (rx.state.established = true ∨ rx.state = .idle) → Framed fs { s with rx := rx } :=
      fun rx hb hp hst => h.of_rx (.inr ⟨hne, by rw [hp]; nofun⟩) hb hst
    obtain ⟨⟨rx, incoming⟩, hround, rfl⟩ := Option.map_eq_some_iff.mp hs
    rcases Rx.round_cases hround with ⟨rfl, rfl, -⟩ | ⟨rfl, rfl, -⟩ | ⟨n, rfl, rfl, -, hn, hsome⟩ |
      ⟨-, -, -, hst, hest⟩
    · exact hidle _ rfl rfl h.state
    · unfold Rx.onError
      split
      · exact hidle _ rfl rfl (.inr rfl)
      · exact hidle _ rfl rfl h.state
    · exact h.received hpc hn hsome
    · -- the socket is established or idle
      exact absurd (h.state.resolve_left (by rw [hest]; nofun)) hst
  · cases hs

theorem Framed.parse (h : Framed fs s) (hok : ∀ e, ¬ Raises unpack s e)
    (hs : step unpack s .parse = some s') : Framed fs s' := by
  simp only [step] at hs
  split at hs
  next hpc =>
    obtain rfl := Option.some.inj hs
    cases hparse : parseBuffer unpack (Rx.octets s.rx.rxbuffer) with
    | error e => exact absurd hparse (hok e)
    | ok msg =>
      obtain ⟨rest, hfs, hstream, hholds⟩ := h.stream
      cases rest with
      | nil => exact absurd hpc hholds.1
      | cons f rest =>
        rcases hholds with ⟨-, hwhole⟩ | ⟨hne, -⟩
        · rw [hwhole] at hstream
          refine ⟨h.frames, by simp [Rx.parse, hparse, Cbuffer.reset, Cbuffer.wseekSet, Cbuffer.rseekSet],
            by simpa [Rx.parse, hparse] using h.size, by simpa [Rx.parse, hparse] using h.state,
            rest, ?_, ?_, ?_⟩
          · simp [hfs, hwhole]
          · simpa [Rx.parse, hparse] using hstream
          · have hpc' : (if s.rx.state = .idle then RxPc.loop else .handle s.rx.rxbuffer.content msg) ≠ .parse := by
              split
              · exact fun heq => by cases heq
              · exact fun heq => by cases heq
            simp only [Rx.parse, hparse, Cbuffer.content_reset]
            cases rest with
            | nil => exact ⟨hpc', rfl⟩
            | cons g rest =>
              refine .inr ⟨hpc', List.nil_prefix, ?_⟩
              have := (h.frames g (by simp [hfs])).1
              simp only [framing_header, sizeofHeader] at this
              simp only [List.length_nil]
              omega
        · exact absurd hpc hne
  · cases hs

/-- Every step but a parse that raises an exception keeps the framing. -/
theorem Framed.step {a : Act} (h : Framed fs s) (hok : a = .parse → ∀ e, ¬ Raises unpack s e)
    (hs : step unpack s a = some s') : Framed fs s' := by
  cases a with
  | call =>
    simp only [Receiver.step] at hs
    split at hs
    next hpc =>
      obtain rfl := Option.some.inj hs
      exact h.of_rx (.inr ⟨by rw [hpc]; nofun, nofun⟩) rfl h.state
    · cases hs
  | round r => exact h.round hs
  | parse => exact h.parse (hok rfl) hs
  | handled escapes =>
    simp only [Receiver.step] at hs
    split at hs
    next hpc =>
      obtain rfl := Option.some.inj hs
      refine h.of_rx (.inr ⟨by rw [hpc]; nofun, ?_⟩) rfl h.state
      cases escapes <;> nofun
    · cases hs
  | rxDisable => obtain rfl := Option.some.inj hs; exact h.of_rx (.inl rfl) rfl h.state
  | rxEnable => obtain rfl := Option.some.inj hs; exact h.of_rx (.inl rfl) rfl h.state
  | close => obtain rfl := Option.some.inj hs; exact h.of_rx (.inl rfl) rfl (.inr rfl)

theorem Framed.inStep (h : Framed fs s) : InStep fs s where
  done := by
    obtain ⟨rest, hfs, hstream, hholds⟩ := h.stream
    refine ⟨rest, hfs, hstream, fun f hf => ?_⟩
    cases rest with
    | nil => cases hf
    | cons g rest =>
      obtain rfl : g = f := by simpa using hf
      rcases hholds with ⟨-, hwhole⟩ | ⟨-, hpart, -⟩
      · rw [hwhole]
      · exact hpart
  all hnil hpc := by
    rcases h.next hpc with ⟨-, -, hfs⟩ | ⟨f, rest, -, -, hstream, hpart, hlt⟩
    · exact hfs.symm
    · rw [hnil, List.append_nil] at hstream
      have := congrArg List.length hstream
      simp only [List.flatten_cons, List.length_append] at this
      omega

/-- A whole frame that parses whatever follows it raises nothing. -/
theorem Framed.not_raises (h : Framed fs s) (hparses : ∀ f ∈ fs, Parses unpack f) (hpc : s.rx.pc = .parse)
    (e : ParseError) : ¬ Raises unpack s e := by
  obtain ⟨rest, hfs, -, hholds⟩ := h.stream
  cases rest with
  | nil => exact absurd hpc hholds.1
  | cons f rest =>
    rcases hholds with ⟨-, hwhole⟩ | ⟨hne, -⟩
    · obtain ⟨msg, hmsg⟩ := hparses f (by simp [hfs]) (Rx.octets s.rx.rxbuffer) hwhole h.rbytes h.size
      intro he
      rw [Raises, hmsg] at he
      cases he
    · exact absurd hpc hne

/-- **Framing is independent of chunking.** -/
theorem framing_independent {unpack : Unpack} {fs : List (List UInt8)} {s t : Receiver} {as : List Act}
    (hs : Start fs s) (hparses : ∀ f ∈ fs, Parses unpack f) (h : Runs.run (step unpack) s as = some t) :
    InStep fs t := by
  refine (Runs.invariant (I := Framed fs) (fun s a s' hI hstep => hI.step ?_ hstep) hs.framed h).inStep
  rintro rfl
  have hpc : s.rx.pc = .parse := by
    simp only [Receiver.step] at hstep
    split at hstep
    · assumption
    · cases hstep
  exact hI.not_raises hparses hpc

/-- A TCP connection just established, on a socket never used before. -/
def established (fs : List (List UInt8)) : Receiver :=
  ⟨⟨Cbuffer.new 65536, false, .tcpEstablished, 0, .idle⟩, fs.flatten, [], [], []⟩

theorem start_established (h : ∀ f ∈ fs, Frame f) : Start fs (established fs) :=
  ⟨h, rfl, rfl, rfl, rfl, rfl, rfl, rfl, rfl, rfl⟩

/-- A class that decodes nothing but the header. -/
def headerOnly : Unpack := fun _ mem n => .ok ⟨mem 0, mem 1, 0, octetsFrom mem 8 (n - 8)⟩

/-- A FEATURES reply of version 1.3 with a body of two octets. -/
def featuresReply : List UInt8 := [4, 6, 0, 10, 0, 0, 0, 1, 7, 7]

theorem parses_featuresReply : Parses headerOnly featuresReply := by
  intro b hcontent hr hsize
  have hmem : ∀ i, i < 10 → b.mem i = featuresReply.getD i 0 := fun i hi => by
    rw [mem_eq_of_content hr (by rw [hcontent]; exact hi), hcontent]
  have hclass : messageClass b.mem b.size = .ok .featuresReply := by
    unfold messageClass
    rw [hmem 0 (by decide), hmem 1 (by decide), hsize]
    rfl
  exact ⟨_, by simp only [parseBuffer, hclass, headerOnly]; rfl⟩

/-- Three octets, the rest of the header, one octet of the body and the other;
then the header of the next frame. -/
def cutUp : List Act :=
  [.call, .round (.bytes 2), .round .again, .call, .round (.bytes 9), .round (.bytes 0), .round .again,
    .call, .round (.bytes 5), .parse, .handled false, .round (.bytes 20)]

theorem framing_independent_cut : ∃ t, Runs.run (Receiver.step headerOnly)
    (established [featuresReply, featuresReply]) cutUp = some t ∧ InStep [featuresReply, featuresReply] t :=
  ⟨_, rfl, @framing_independent headerOnly _ _ _ cutUp (start_established (by decide))
    (by simpa using parses_featuresReply) rfl⟩

/-! ## Frames that raise an exception -/

/-- The buffer holds a whole frame that is not about to be parsed. -/
structure Stuck (s : Receiver) : Prop where
  rbytes : s.rx.rxbuffer.rbytes = 0
  frame : Frame s.rx.rxbuffer.content
  pc : s.rx.pc ≠ .parse
  state : s.rx.state.established = true ∨ s.rx.state = .idle

theorem Stuck.request (h : Stuck s) : Rx.request s.rx.rxbuffer = 0 := by
  obtain ⟨h₁, h₂⟩ := h.frame
  rw [request_eq h.rbytes, Frames.Framing.want, if_neg (by omega), h₂, Nat.sub_self]

/-- **An exception leaves the frame in the buffer.** -/
theorem Framed.raises (h : Framed fs s) {e : ParseError} (he : Raises unpack s e)
    (hs : Receiver.step unpack s .parse = some s') :
    Stuck s' ∧ s'.rx.rxbuffer.content = s.rx.rxbuffer.content := by
  simp only [Receiver.step] at hs
  split at hs
  next hpc =>
    obtain rfl := Option.some.inj hs
    obtain ⟨rest, hfs, -, hholds⟩ := h.stream
    cases rest with
    | nil => exact absurd hpc hholds.1
    | cons f rest =>
      rcases hholds with ⟨-, hwhole⟩ | ⟨hne, -⟩
      · unfold Raises at he
        simp only [Rx.parse, he, and_true]
        refine ⟨h.rbytes, hwhole ▸ h.frames f (by simp [hfs]), ?_, h.state⟩
        split <;> nofun
      · exact absurd hpc hne
  · cases hs

/-- What a step can do then: nothing that reads, parses or hands over. -/
theorem Stuck.step {a : Act} (h : Stuck s) (hs : Receiver.step unpack s a = some s') :
    Stuck s' ∧ s'.parsed = s.parsed ∧ s'.handed = s.handed ∧ s'.incoming = s.incoming := by
  have key : ∀ rx : Rx UInt8, rx.rxbuffer = s.rx.rxbuffer → rx.pc ≠ .parse →
      (rx.state.established = true ∨ rx.state = .idle) → Stuck { s with rx := rx } :=
    fun rx hb hp hst => ⟨hb ▸ h.rbytes, hb ▸ h.frame, hp, hst⟩
  cases a with
  | call =>
    simp only [Receiver.step] at hs
    split at hs
    · obtain rfl := Option.some.inj hs
      exact ⟨key _ rfl nofun h.state, rfl, rfl, rfl⟩
    · cases hs
  | round r =>
    simp only [Receiver.step] at hs
    split at hs
    · obtain ⟨⟨rx, incoming⟩, hround, rfl⟩ := Option.map_eq_some_iff.mp hs
      rcases Rx.round_cases hround with ⟨rfl, rfl, -⟩ | ⟨rfl, rfl, -⟩ | ⟨n, -, -, hpos, hn, -⟩ |
        ⟨-, -, -, hst, hest⟩
      · exact ⟨key _ rfl nofun h.state, rfl, rfl, rfl⟩
      · refine ⟨?_, rfl, rfl, rfl⟩
        unfold Rx.onError
        split
        · exact key _ rfl nofun (.inr rfl)
        · exact key _ rfl nofun h.state
      · -- nothing is asked for
        rw [h.request] at hn
        omega
      · exact absurd (h.state.resolve_left (by rw [hest]; nofun)) hst
    · cases hs
  | parse =>
    simp only [Receiver.step, h.pc, if_false] at hs
    cases hs
  | handled escapes =>
    simp only [Receiver.step] at hs
    split at hs
    · obtain rfl := Option.some.inj hs
      exact ⟨key _ rfl (by cases escapes <;> nofun) h.state, rfl, rfl, rfl⟩
    · cases hs
  | rxDisable => obtain rfl := Option.some.inj hs; exact ⟨key _ rfl h.pc h.state, rfl, rfl, rfl⟩
  | rxEnable => obtain rfl := Option.some.inj hs; exact ⟨key _ rfl h.pc h.state, rfl, rfl, rfl⟩
  | close => obtain rfl := Option.some.inj hs; exact ⟨key _ rfl h.pc (.inr rfl), rfl, rfl, rfl⟩

/-- **Every later frame is lost**: nothing is read, parsed or handed over any
more, whatever happens on the connection. -/
theorem parses_no_more {t : Receiver} {as : List Act} (h : Stuck s)
    (hrun : Runs.run (Receiver.step unpack) s as = some t) :
    t.parsed = s.parsed ∧ t.handed = s.handed ∧ t.incoming = s.incoming := by
  refine (Runs.invariant (I := fun u => Stuck u ∧ u.parsed = s.parsed ∧ u.handed = s.handed ∧
    u.incoming = s.incoming) (fun u a u' hI hstep => ?_) ⟨h, rfl, rfl, rfl⟩ hrun).2
  obtain ⟨hstuck, h₁, h₂, h₃⟩ := hI.1.step hstep
  exact ⟨hstuck, h₁.trans hI.2.1, h₂.trans hI.2.2.1, h₃.trans hI.2.2.2⟩

/-- A round that reads at all closes the connection. -/
theorem closes_after_raise {r : Recv} (h : Stuck s) (hopen : s.rx.rxDisabled = false)
    (hs : step unpack s (.round r) = some s') : r = .again ∨ s'.rx.state = .idle := by
  simp only [Receiver.step] at hs
  split at hs
  · obtain ⟨⟨rx, incoming⟩, hround, rfl⟩ := Option.map_eq_some_iff.mp hs
    rcases Rx.round_cases hround with ⟨rfl, -, hoff | hidle | hagain⟩ | ⟨rfl, -, -⟩ | ⟨n, -, -, hpos, hn, -⟩ |
      ⟨-, -, -, hst, hest⟩
    · cases hopen.symm.trans hoff
    · exact .inr hidle
    · exact .inl hagain
    · refine .inr ?_
      unfold Rx.onError
      split
      · rfl
      next hest => exact h.state.resolve_left hest
    · rw [h.request] at hn
      omega
    · exact absurd (h.state.resolve_left (by rw [hest]; nofun)) hst
  · cases hs

/-! ## What a malformed frame costs -/

/-- No call of `close()`, and neither a shutdown by the peer nor an error. -/
def Undisturbed (as : List Act) : Prop := ∀ a ∈ as, a ≠ .close ∧ a ≠ .round .failed

/-- What a run of a connection from `s` to `t` has to be for a malformed
frame to cost only itself. -/
structure CostsOnlyItself (unpack : Unpack) (fs : List (List UInt8)) (s : Receiver) (as : List Act)
    (t : Receiver) : Prop where
  /-- When `parse_message` returns after an exception the buffer is empty. -/
  dropped : Runs.Along (Receiver.step unpack) (fun s a s' => a = .parse → ∀ e, Raises unpack s e →
    e.caught = true → s'.rx.rxbuffer.content = []) s as
  /-- Every frame is parsed, once and in order. -/
  inStep : InStep fs t
  /-- The connection stays open, and every frame that parses is handed over. -/
  delivered : Undisturbed as → t.rx.state.established = true ∧
    t.handed = t.parsed.filterMap fun p => p.2.toOption

/-- The connection is open and has handed over every message parsed. -/
def Delivering (s : Receiver) : Prop :=
  s.rx.state.established = true ∧ s.handed = s.parsed.filterMap fun p => p.2.toOption

theorem Framed.delivering {a : Act} (h : Framed fs s) (hd : Delivering s)
    (ha : a ≠ .close ∧ a ≠ .round .failed) (hs : Receiver.step unpack s a = some s') : Delivering s' := by
  obtain ⟨hest, hhanded⟩ := hd
  have hne : s.rx.state ≠ .idle := fun h0 => by rw [h0] at hest; cases hest
  cases a with
  | call =>
    simp only [Receiver.step] at hs
    split at hs
    · obtain rfl := Option.some.inj hs
      exact ⟨hest, hhanded⟩
    · cases hs
  | round r =>
    simp only [Receiver.step] at hs
    split at hs
    next hpc =>
      obtain ⟨⟨rx, incoming⟩, hround, rfl⟩ := Option.map_eq_some_iff.mp hs
      have hloop : s.rx.pc ≠ .parse := by rw [hpc]; nofun
      rcases Rx.round_cases hround with ⟨rfl, -, -⟩ | ⟨-, -, hsync | hfailed | ⟨-, hzero⟩⟩ | ⟨n, rfl, -, -, -, -⟩ |
        ⟨-, -, -, -, hdown⟩
      · exact ⟨hest, hhanded⟩
      · exact absurd hsync (Nat.not_lt.mpr (h.msgLen_ge hloop))
      · exact absurd (congrArg Act.round hfailed) ha.2
      · -- the round asks for something
        exact absurd hzero (Nat.ne_of_gt (h.request_pos hloop))
      · exact ⟨hest, hhanded⟩
      · cases hest.symm.trans hdown
    · cases hs
  | parse =>
    simp only [Receiver.step] at hs
    split at hs
    · obtain rfl := Option.some.inj hs
      unfold Delivering Rx.parse
      cases hparse : parseBuffer unpack (Rx.octets s.rx.rxbuffer) with
      | ok msg => simp [hest, hhanded, Except.toOption]
      | error e => simp [hest, hhanded, Except.toOption]
    · cases hs
  | handled escapes =>
    simp only [Receiver.step] at hs
    split at hs
    · obtain rfl := Option.some.inj hs
      exact ⟨hest, hhanded⟩
    · cases hs
  | rxDisable => obtain rfl := Option.some.inj hs; exact ⟨hest, hhanded⟩
  | rxEnable => obtain rfl := Option.some.inj hs; exact ⟨hest, hhanded⟩
  | close => exact absurd rfl ha.1

/-- The memory is never too small for the parsers to look at, so what is not
caught comes from a message class. -/
theorem messageClass_caught {mem : Memory} {size : Nat} {e : ParseError}
    (h : messageClass mem size = .error e) : e.caught = true := by
  have hof : ∀ types stats request reply n size type statsType,
      parseOf types stats request reply n size type statsType = .error e → e.caught = true := by
    intro types stats request reply n size type statsType hp
    unfold parseOf at hp
    split at hp
    · split at hp
      · cases hp; rfl
      · split at hp
        · cases hp; rfl
        · cases hp
    · split at hp
      · cases hp; rfl
      · cases hp
  unfold messageClass at h
  dsimp only at h
  split at h
  · cases h; rfl
  split at h
  · exact hof _ _ _ _ _ _ _ _ h
  split at h
  · exact hof _ _ _ _ _ _ _ _ h
  split at h
  · exact hof _ _ _ _ _ _ _ _ h
  · cases h; rfl

theorem Raises.caught (hcaught : ∀ c mem n e, unpack c mem n = .error e → e.caught = true) {e : ParseError}
    (h : Raises unpack s e) : e.caught = true := by
  unfold Raises parseBuffer at h
  split at h
  next e' hclass =>
    obtain rfl : e' = e := by simpa using h
    exact messageClass_caught hclass
  · exact hcaught _ _ _ _ h

/-- **A malformed frame costs only itself** in exactly the runs that parse no
malformed frame. -/
theorem malformed_costs_itself_iff {unpack : Unpack} {fs : List (List UInt8)} {s t : Receiver}
    {as : List Act} (hs : Start fs s)
    (hcaught : ∀ c mem n e, unpack c mem n = .error e → e.caught = true)
    (h : Runs.run (Receiver.step unpack) s as = some t) :
    CostsOnlyItself unpack fs s as t ↔
      Runs.Meets (Receiver.step unpack) (fun s a => a = .parse → ∀ e, ¬ Raises unpack s e) s as := by
  constructor
  · intro hcosts
    refine Runs.meets_of_along (I := Framed fs) (fun s a s' hI hok hstep => hI.step hok hstep) ?_ hs.framed h
      hcosts.dropped
    rintro s a s' hI hstep hdropped rfl e he
    obtain ⟨hstuck, hcontent⟩ := hI.raises he hstep
    have hnil := hdropped rfl e he (he.caught hcaught)
    have := hstuck.frame.1
    rw [hnil, framing_header] at this
    simp [sizeofHeader] at this
  · intro hok
    refine ⟨?_, (Runs.invariant_of_meets (I := Framed fs) (fun s a s' hI hok hstep => hI.step hok hstep)
      hs.framed hok h).inStep, fun hun => ?_⟩
    · refine Runs.along_of_meets (I := Framed fs) (fun s a s' hI hok hstep => hI.step hok hstep) ?_ hs.framed hok
      rintro s a s' - hok - rfl e he
      exact absurd he (hok rfl e)
    · refine (Runs.invariant_of_meets (I := fun s => Framed fs s ∧ Delivering s) ?_ ⟨hs.framed, ?_⟩
        (hok.and (Runs.meets_of_forall hun)) h).2
      · rintro s a s' ⟨hI, hd⟩ ⟨hok, ha⟩ hstep
        exact ⟨hI.step hok hstep, hI.delivering hd ha hstep⟩
      · exact ⟨hs.established, by simp [hs.fresh.1, hs.fresh.2.1]⟩

/-- One frame that parses. -/
theorem malformed_costs_itself_iff_one : ∃ t, Runs.run (Receiver.step headerOnly)
    (established [featuresReply])
    [.call, .round (.bytes 20), .round (.bytes 20), .parse, .handled false] = some t ∧
    (CostsOnlyItself headerOnly [featuresReply] (established [featuresReply])
        [.call, .round (.bytes 20), .round (.bytes 20), .parse, .handled false] t ↔
      Runs.Meets (Receiver.step headerOnly) (fun s a => a = .parse → ∀ e, ¬ Raises headerOnly s e)
        (established [featuresReply]) [.call, .round (.bytes 20), .round (.bytes 20), .parse, .handled false]) :=
  ⟨_, rfl, malformed_costs_itself_iff (start_established (by decide)) (by simp [headerOnly]) rfl⟩

/-- A header of version 9 before a good frame: the header stays in the
buffer, and the next round closes the connection. -/
theorem malformed_costs_connection : ∃ t, Start [[9, 0, 0, 8, 0, 0, 0, 1], featuresReply]
      (established [[9, 0, 0, 8, 0, 0, 0, 1], featuresReply]) ∧
    Runs.run (Receiver.step headerOnly) (established [[9, 0, 0, 8, 0, 0, 0, 1], featuresReply])
      [.call, .round (.bytes 20), .parse, .round .zero] = some t ∧
    t.rx.rxbuffer.content = [9, 0, 0, 8, 0, 0, 0, 1] ∧ t.rx.state = .idle ∧ t.handed = [] ∧
    ¬ CostsOnlyItself headerOnly [[9, 0, 0, 8, 0, 0, 0, 1], featuresReply]
      (established [[9, 0, 0, 8, 0, 0, 0, 1], featuresReply]) [.call, .round (.bytes 20), .parse, .round .zero] t := by
  refine ⟨_, start_established (by decide), rfl, by decide, rfl, rfl, fun h => ?_⟩
  have := (h.delivered (by unfold Undisturbed; decide)).1
  cases this

end Receiver
end RoflCommon
