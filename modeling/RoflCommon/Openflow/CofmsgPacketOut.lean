/-
`cofmsg_packet_out`: actions, and a packet up to the end of the frame.

The offset of the packet has 16 bits. Where the length of the actions takes it beyond,
nothing tells that the actions go on behind the frame, and the packet begins within the
header. What saves the decoder then is an action that is rejected within the frame
(`staysInside_iff`).
-/
import RoflCommon.Openflow.Cofactions

namespace RoflCommon

open Octets Window

structure CofmsgPacketOut where
  version : UInt8
  type : UInt8
  len : UInt16
  xid : UInt32
  bufferId : UInt32
  inPort : UInt32
  actions : List Cofaction
  packet : List UInt8
deriving DecidableEq, Repr

namespace CofmsgPacketOut

/-- `struct ofp_packet_out`, behind the header. -/
def layout (v : UInt8) : Record.Layout :=
  if v = Openflow10.OFP_VERSION then [.pad 8, .field 4, .field 2, .field 2]
  else [.pad 8, .field 4, .field 4, .field 2, .pad 6]

/-- `cofmsg::unpack`. -/
def unpackHeader (m : CofmsgPacketOut) (buf : List UInt8) : Unpacked CofmsgPacketOut :=
  if buf.length < 8 then raise .badRequestBadLen
  else
    let len := field buf 2 2
    if len < 8 then raise .badRequestBadLen
    else if buf.length < len then raise .badRequestBadLen
    else .ok { m with version := .ofNat (field buf 0 1), type := .ofNat (field buf 1 1),
                      len := .ofNat len, xid := .ofNat (field buf 4 4) }

/-- The memory is that of the buffer. -/
def unpack (m : CofmsgPacketOut) (buf : List UInt8) : Unpacked CofmsgPacketOut :=
  if buf = [] then .ok { m with actions := [], packet := Cmemory.clear m.packet }
  else do
    let m ← m.unpackHeader buf
    let size := Record.size (layout m.version)
    if m.len.toNat < size then raise .badRequestBadLen
    else if m.type ≠ Openflow13.OFPT_PACKET_OUT then raise .badRequestBadType
    else
      let hdr ← record (layout m.version) buf
      let actionsLen := hdr.getD 2 0
      let packetOffset := (size + actionsLen) % 65536
      if m.len.toNat < packetOffset then raise .badRequestBadLen
      else
        let actions ← Cofactions.unpack m.version [] (buf.drop size) actionsLen
        let packet ← read buf packetOffset (buf.length - packetOffset)
        return { m with bufferId := .ofNat (hdr.getD 0 0), inPort := .ofNat (hdr.getD 1 0), actions, packet }

/-! ## Staying inside the frame -/

/-- The version and the length of the fixed part, and the length of the actions, as the
octets have them. -/
def versionField (buf : List UInt8) : UInt8 := .ofNat (field buf 0 1)

def fixedSize (buf : List UInt8) : ℕ := Record.size (layout (versionField buf))

def actionsLen (buf : List UInt8) : ℕ := field buf (if versionField buf = Openflow10.OFP_VERSION then 14 else 16) 2

/-- A frame of this type, of one of the versions. -/
structure IsFrame (buf : List UInt8) : Prop where
  header : 8 ≤ buf.length
  version : versionField buf ∈ [Openflow10.OFP_VERSION, Openflow12.OFP_VERSION, Openflow13.OFP_VERSION]
  type : field buf 1 1 = Openflow13.OFPT_PACKET_OUT.toNat
  len : field buf 2 2 = buf.length

/-- No octet outside of the buffer is read, and what is yielded has the actions that are
decoded from as many octets as there are said to be behind the fixed part, and the rest of
the frame as its packet. -/
structure StaysInside (buf : List UInt8) : Prop where
  inside : ∀ m, unpack m buf ≠ .error .overrun
  actions : ∀ m m', unpack m buf = .ok m' → fixedSize buf + actionsLen buf ≤ buf.length ∧
    Cofactions.unpack (versionField buf) [] ((buf.drop (fixedSize buf)).take (actionsLen buf)) (actionsLen buf) =
      .ok m'.actions
  packet : ∀ m m', unpack m buf = .ok m' → m'.packet = buf.drop (fixedSize buf + actionsLen buf)

variable {buf : List UInt8}

/-- The fields of the fixed part. -/
theorem record_layout (h : fixedSize buf ≤ buf.length) :
    (record (layout (versionField buf)) buf : Unpacked (List ℕ)) =
      .ok [field buf 8 4, field buf 12 (if versionField buf = Openflow10.OFP_VERSION then 2 else 4), actionsLen buf] := by
  unfold fixedSize at h
  rw [record_eq h]
  unfold actionsLen layout
  split
  · simp only [Record.read, List.drop_drop]
    rfl
  · simp only [Record.read, List.drop_drop]
    rfl

/-- The actions and the packet, behind the checks. -/
def unpackParts (m : CofmsgPacketOut) (buf : List UInt8) : Unpacked CofmsgPacketOut := do
  let packetOffset := (fixedSize buf + actionsLen buf) % 65536
  let actions ← Cofactions.unpack (versionField buf) [] (buf.drop (fixedSize buf)) (actionsLen buf)
  let packet ← read buf packetOffset (buf.length - packetOffset)
  return { m with actions, packet }

theorem unpack_eq (h : IsFrame buf) (m : CofmsgPacketOut) :
    ∃ m', unpack m buf =
      if buf.length < fixedSize buf then raise .badRequestBadLen
      else if buf.length < (fixedSize buf + actionsLen buf) % 65536 then raise .badRequestBadLen
      else unpackParts m' buf := by
  have hheader := h.header
  have hlen := h.len
  have hlt := field_lt buf 2 2
  have hne : buf ≠ [] := by
    rintro rfl
    simp at hheader
  have htoNat : (UInt16.ofNat (field buf 2 2)).toNat = buf.length := by
    rw [UInt16.toNat_ofNat', Nat.mod_eq_of_lt (by exact hlt), hlen]
  have htype : UInt8.ofNat (field buf 1 1) = Openflow13.OFPT_PACKET_OUT := by rw [h.type, UInt8.ofNat_toNat]
  have hhdr : unpackHeader m buf = .ok { m with
      version := versionField buf, type := Openflow13.OFPT_PACKET_OUT, len := .ofNat (field buf 2 2),
      xid := .ofNat (field buf 4 4) } := by
    rw [unpackHeader, if_neg (by omega)]
    dsimp only
    rw [if_neg (by omega), if_neg (by omega), htype]
    rfl
  refine ⟨{ m with
      version := versionField buf, type := Openflow13.OFPT_PACKET_OUT, len := .ofNat (field buf 2 2),
      xid := .ofNat (field buf 4 4), bufferId := .ofNat (field buf 8 4),
      inPort := .ofNat (field buf 12 (if versionField buf = Openflow10.OFP_VERSION then 2 else 4)) }, ?_⟩
  rw [unpack, if_neg hne, hhdr]
  show (if (UInt16.ofNat (field buf 2 2)).toNat < fixedSize buf then _ else _) = _
  rw [htoNat]
  split
  · rfl
  · next hsize =>
    rw [record_layout (by omega)]
    rw [if_neg (by exact not_not.mpr rfl)]
    show (if buf.length < (fixedSize buf + actionsLen buf) % 65536 then _ else _) = _
    split
    · rfl
    · rfl

theorem fixedSize_le (buf : List UInt8) : 16 ≤ fixedSize buf ∧ fixedSize buf ≤ 24 := by
  unfold fixedSize layout
  split <;> decide

/-- A frame that is thrown away. -/
theorem staysInside_of_throws (h : ∀ m, Throws (unpack m buf)) : StaysInside buf := by
  have hnever : ∀ m m', unpack m buf ≠ .ok m' := by
    intro m m' he
    have hthrows := h m
    rw [he] at hthrows
    exact not_throws_ok _ hthrows
  exact ⟨fun m => (h m).ne_overrun, fun m m' he => absurd he (hnever m m'), fun m m' he => absurd he (hnever m m')⟩

theorem unpackParts_eq (m : CofmsgPacketOut) (hin : fixedSize buf + actionsLen buf ≤ buf.length) (hlt : buf.length < 65536) :
    unpackParts m buf =
      (Cofactions.unpack (versionField buf) [] ((buf.drop (fixedSize buf)).take (actionsLen buf)) (actionsLen buf)) >>=
        fun actions => .ok { m with actions, packet := buf.drop (fixedSize buf + actionsLen buf) } := by
  have hdrop : actionsLen buf ≤ (buf.drop (fixedSize buf)).length := by
    rw [List.length_drop]
    omega
  have hread : (Window.read buf (fixedSize buf + actionsLen buf) (buf.length - (fixedSize buf + actionsLen buf)) :
      Unpacked (List UInt8)) = .ok (buf.drop (fixedSize buf + actionsLen buf)) := by
    rw [read_eq (by omega), List.take_of_length_le (by rw [List.length_drop])]
  unfold unpackParts
  dsimp only
  rw [Nat.mod_eq_of_lt (by omega), hread, (Cofactions.within_unpack [] (actionsLen buf) _ hdrop).take]
  rfl

/-- Where the offset of the packet fits into its 16 bits. -/
theorem staysInside_of_offset (h : IsFrame buf) (hsize : fixedSize buf ≤ buf.length)
    (hoffset : fixedSize buf + actionsLen buf < 65536) : StaysInside buf := by
  have hlt : buf.length < 65536 := by
    rw [← h.len]
    exact field_lt buf 2 2
  by_cases hin : fixedSize buf + actionsLen buf ≤ buf.length
  swap
  · refine staysInside_of_throws fun m => ?_
    obtain ⟨m', hm⟩ := unpack_eq h m
    rw [hm, if_neg (by omega), Nat.mod_eq_of_lt hoffset, if_pos (by omega)]
    exact throws_raise _
  have hparts : ∀ m, ∃ m', unpack m buf = unpackParts m' buf := by
    intro m
    obtain ⟨m', hm⟩ := unpack_eq h m
    rw [if_neg (by omega), Nat.mod_eq_of_lt hoffset, if_neg (by omega)] at hm
    exact ⟨m', hm⟩
  have hdrop : actionsLen buf ≤ (buf.drop (fixedSize buf)).length := by
    rw [List.length_drop]
    omega
  have hkeeps := Cofactions.within_unpack (v := versionField buf) [] (actionsLen buf) _ hdrop
  have hok : ∀ m m', unpack m buf = .ok m' →
      Cofactions.unpack (versionField buf) [] ((buf.drop (fixedSize buf)).take (actionsLen buf)) (actionsLen buf) =
        .ok m'.actions ∧ m'.packet = buf.drop (fixedSize buf + actionsLen buf) := by
    intro m m' he
    obtain ⟨m₀, hm⟩ := hparts m
    rw [hm, unpackParts_eq m₀ hin hlt] at he
    obtain ⟨actions, hactions, he⟩ := Except.bind_eq_ok.mp he
    cases he
    exact ⟨hactions, rfl⟩
  refine ⟨fun m he => ?_, fun m m' he => ⟨hin, (hok m m' he).1⟩, fun m m' he => (hok m m' he).2⟩
  obtain ⟨m₀, hm⟩ := hparts m
  rw [hm, unpackParts_eq m₀ hin hlt, hkeeps.take] at he
  cases hactions : Cofactions.unpack (versionField buf) [] (buf.drop (fixedSize buf)) (actionsLen buf) with
  | ok actions =>
    rw [hactions] at he
    cases he
  | error e =>
    have hne := hkeeps.inside
    rw [hactions] at hne he
    exact hne (congrArg _ (Except.error.inj he))

/-- Where it does not, the check passes, and the actions are read up to the end of the frame
and beyond. -/
theorem staysInside_of_wrap (h : IsFrame buf) (hsize : fixedSize buf ≤ buf.length)
    (hoffset : 65536 ≤ fixedSize buf + actionsLen buf) :
    StaysInside buf ↔ Cofactions.Rejected (versionField buf) (actionsLen buf) (buf.drop (fixedSize buf)) := by
  have hlt : buf.length < 65536 := by
    rw [← h.len]
    exact field_lt buf 2 2
  have hactions : actionsLen buf < 65536 := field_lt buf _ 2
  obtain ⟨hlow, hhigh⟩ := fixedSize_le buf
  have hparts : ∀ m, ∃ m', unpack m buf = unpackParts m' buf := by
    intro m
    obtain ⟨m', hm⟩ := unpack_eq h m
    rw [if_neg (by omega), if_neg (by omega)] at hm
    exact ⟨m', hm⟩
  have hunpack : Cofactions.unpack (versionField buf) [] (buf.drop (fixedSize buf)) (actionsLen buf) =
      loop (Cofactions.turn (versionField buf)) [] (buf.drop (fixedSize buf)) (actionsLen buf) := by
    rw [Cofactions.unpack, if_neg (by omega), if_neg (by omega)]
  rw [← Cofactions.loop_throws_iff [], ← hunpack]
  constructor
  · intro hstays
    let m : CofmsgPacketOut := ⟨0, 0, 0, 0, 0, 0, [], []⟩
    obtain ⟨m', hm⟩ := hparts m
    cases hr : Cofactions.unpack (versionField buf) [] (buf.drop (fixedSize buf)) (actionsLen buf) with
    | ok actions =>
      have hread : (Window.read buf ((fixedSize buf + actionsLen buf) % 65536)
          (buf.length - (fixedSize buf + actionsLen buf) % 65536) : Unpacked (List UInt8)) = .ok _ :=
        read_eq (by omega)
      have hok := hm
      rw [unpackParts, hr] at hok
      rw [hread] at hok
      have hin := (hstays.actions m _ hok).1
      omega
    | error e =>
      cases e with
      | thrown e => exact ⟨e, rfl⟩
      | overrun =>
        have hinside := hstays.inside m
        rw [hm, unpackParts, hr] at hinside
        exact absurd rfl hinside
  · intro hthrows
    refine staysInside_of_throws fun m => ?_
    obtain ⟨m', hm⟩ := hparts m
    rw [hm, unpackParts, throws_bind]
    exact .inl hthrows

/-- A packet-out stays inside its frame if and only if it is shorter than its fixed part, the
offset of the packet is below 2^16, or an action in the frame is rejected. -/
theorem staysInside_iff (h : IsFrame buf) : StaysInside buf ↔
    buf.length < fixedSize buf ∨ fixedSize buf + actionsLen buf < 65536 ∨
      Cofactions.Rejected (versionField buf) (actionsLen buf) (buf.drop (fixedSize buf)) := by
  by_cases hsize : buf.length < fixedSize buf
  · refine iff_of_true (staysInside_of_throws fun m => ?_) (.inl hsize)
    obtain ⟨m', hm⟩ := unpack_eq h m
    rw [hm, if_pos hsize]
    exact throws_raise _
  by_cases hoffset : fixedSize buf + actionsLen buf < 65536
  · exact iff_of_true (staysInside_of_offset h (by omega) hoffset) (.inr (.inl hoffset))
  · rw [staysInside_of_wrap h (by omega) (by omega)]
    exact ⟨fun hr => .inr (.inr hr), fun hr => (hr.resolve_left hsize).resolve_left hoffset⟩

/-- A packet of four octets, to be sent out of port 2. -/
def forwarded : List UInt8 :=
  [1, 13, 0, 28, 0, 0, 0, 0, 0xff, 0xff, 0xff, 0xff, 0xff, 0xff, 0, 8] ++ [0, 0, 0, 8, 0, 2, 0, 0] ++
    [0xde, 0xad, 0xbe, 0xef]

theorem staysInside_iff_forwarded : IsFrame forwarded ∧ StaysInside forwarded := by
  have h : IsFrame forwarded := ⟨by decide, by decide, by decide, by decide⟩
  exact ⟨h, (staysInside_iff h).mpr (.inr (.inl (by decide)))⟩

/-- Said to be followed by 65520 octets of actions. -/
def overlong : List UInt8 := [1, 13, 0, 16, 0, 0, 0, 0, 0xff, 0xff, 0xff, 0xff, 0xff, 0xff, 0xff, 0xf0]

theorem overlong_overrun : IsFrame overlong ∧
    unpack ⟨1, 13, 0, 0, 0, 0, [], []⟩ overlong = .error .overrun ∧ ¬StaysInside overlong := by
  have hoverrun : unpack ⟨1, 13, 0, 0, 0, 0, [], []⟩ overlong = .error .overrun := by decide
  exact ⟨⟨by decide, by decide, by decide, by decide⟩, hoverrun, fun h => h.inside _ hoverrun⟩

end CofmsgPacketOut
end RoflCommon
