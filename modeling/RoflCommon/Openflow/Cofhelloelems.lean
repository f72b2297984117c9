/-
The elements of HELLO messages: `cofhelloelems::unpack`.

An element is as long as its length field says, and stands in the message with padding
up to a multiple of eight octets. The loop compares the length, and steps over the
padding too. It stays in the buffer unless a buffer holds the last element and not all
of its padding (`hello_bounded_iff`).
-/
import RoflCommon.Lib.Cursor
import RoflCommon.Lib.Octets
import RoflCommon.Openflow.Versionbitmap

namespace RoflCommon

open Octets Cursor

def Openflow13.OFPHET_VERSIONBITMAP : ℕ := 1

/-- What is thrown, and a read outside of the buffer. -/
inductive HelloException
  | inval
  | overrun
deriving DecidableEq, Repr

/-- The first words of a bitmap. -/
def Versionbitmap.words : ℕ → List UInt8 → List (BitVec 32)
  | 0, _ => []
  | n + 1, buf => .ofNat 32 (field buf 0 4) :: words n (buf.drop 4)

/-- The element at a pointer; the octets are copied, and looked at in the copy. -/
def Versionbitmap.unpack (b : Versionbitmap) (buf : List UInt8) (off buflen : ℕ) : Except HelloException Versionbitmap :=
  if buflen < 4 then .error .inval
  else
    match octetsAt buf off buflen with
    | none => .error .overrun
    | some mem =>
      let length := field mem 2 2
      if buflen < length then .error .inval
      else if length < 4 then .error .overrun
      else .ok ⟨mem, b.bitmaps ++ words ((length - 4) / 4) (mem.drop 4)⟩

namespace Cofhelloelems

/-- A turn of the loop. The only element that is kept is a versionbitmap. -/
def turn (buf : List UInt8) : Turn (Option Versionbitmap) HelloException := fun elems c =>
  if c.left ≤ 4 then .ok none
  else
    match octetsAt buf c.off 4 with
    | none => .error .overrun
    | some hello =>
      let length := field hello 2 2
      if length > c.left ∨ length = 0 then .ok none
      else if field hello 0 2 = Openflow13.OFPHET_VERSIONBITMAP then do
        return some (some (← Versionbitmap.new.unpack buf c.off length), padded length)
      else .ok (some (elems, padded length))

def unpack (buf : List UInt8) : Option (Except HelloException (Option Versionbitmap)) := loop (turn buf) none buf

/-! ## Elements in a buffer -/

/-- Octets that are an element with its padding, which the loop steps over. -/
structure Element (e : List UInt8) : Prop where
  length : e.length = padded (field e 2 2)
  pos : 0 < field e 2 2
  header : field e 0 2 = Openflow13.OFPHET_VERSIONBITMAP → 4 ≤ field e 2 2

/-- Octets that begin with an element, but not with all of its padding. -/
structure Unpadded (rest : List UInt8) : Prop where
  four : 4 < rest.length
  pos : 0 < field rest 2 2
  header : field rest 0 2 = Openflow13.OFPHET_VERSIONBITMAP → 4 ≤ field rest 2 2
  element : field rest 2 2 ≤ rest.length
  padding : rest.length < padded (field rest 2 2)

/-- Elements with their padding, and then one without. -/
def LacksPadding (buf : List UInt8) : Prop :=
  ∃ es rest, buf = List.flatten es ++ rest ∧ (∀ e ∈ es, Element e) ∧ Unpadded rest

end Cofhelloelems

/-- An element as a message is made of them. -/
structure HelloElem where
  type : UInt16
  body : List UInt8
  padding : List UInt8
deriving DecidableEq, Repr

namespace HelloElem

def length (e : HelloElem) : ℕ := 4 + e.body.length

structure Valid (e : HelloElem) : Prop where
  length : e.length < 65536
  padding : e.length + e.padding.length = padded e.length

/-- The octets up to the length. -/
def mem (e : HelloElem) : List UInt8 := octets 2 e.type.toNat ++ octets 2 e.length ++ e.body

def encode (e : HelloElem) : List UInt8 := e.mem ++ e.padding

def versionbitmap (e : HelloElem) : Versionbitmap := ⟨e.mem, Versionbitmap.words (e.body.length / 4) e.body⟩

end HelloElem

/-! ## Turns inside the buffer -/

namespace Cofhelloelems

/-- The versionbitmap at the beginning of what is left. -/
def decoded (rest : List UInt8) : Versionbitmap :=
  ⟨rest.take (field rest 2 2), Versionbitmap.words ((field rest 2 2 - 4) / 4) ((rest.take (field rest 2 2)).drop 4)⟩

theorem unpack_new {buf : List UInt8} {c : Cursor} (hc : c.Within buf)
    (hle : field (buf.drop c.off) 2 2 ≤ c.left) :
    Versionbitmap.new.unpack buf c.off (field (buf.drop c.off) 2 2) =
      if field (buf.drop c.off) 2 2 < 4 then .error .inval else .ok (decoded (buf.drop c.off)) := by
  unfold Versionbitmap.unpack
  split
  · rfl
  · next hfour =>
    rw [hc.octetsAt hle]
    dsimp only
    rw [field_take (by omega), if_neg (lt_irrefl _), if_neg hfour]
    rfl

/-- What a turn does with what is left of the buffer. -/
theorem turn_of_within {buf : List UInt8} {c : Cursor} (hc : c.Within buf) {rest : List UInt8}
    (hrest : buf.drop c.off = rest) (elems : Option Versionbitmap) :
    turn buf elems c =
      if rest.length ≤ 4 then .ok none
      else if field rest 2 2 > rest.length ∨ field rest 2 2 = 0 then .ok none
      else if field rest 0 2 = Openflow13.OFPHET_VERSIONBITMAP then
        if field rest 2 2 < 4 then .error .inval else .ok (some (some (decoded rest), padded (field rest 2 2)))
      else .ok (some (elems, padded (field rest 2 2))) := by
  subst hrest
  rw [hc.length_drop, turn]
  split
  · rfl
  · next hfour =>
    rw [hc.octetsAt (by omega)]
    dsimp only
    rw [field_take (by decide), field_take (by decide)]
    split
    · rfl
    · next hlength =>
      split
      · rw [unpack_new hc (by omega)]
        split <;> rfl
      · rfl

/-- A turn that goes on has an element before it, and steps over its padding. -/
theorem turn_eq_some {buf : List UInt8} {c : Cursor} (hc : c.Within buf) {elems elems' : Option Versionbitmap} {k : ℕ}
    {rest : List UInt8} (hrest : buf.drop c.off = rest) (h : turn buf elems c = .ok (some (elems', k))) :
    k = padded (field rest 2 2) ∧ 4 < rest.length ∧ 0 < field rest 2 2 ∧ field rest 2 2 ≤ rest.length ∧
      (field rest 0 2 = Openflow13.OFPHET_VERSIONBITMAP → 4 ≤ field rest 2 2) := by
  rw [turn_of_within hc hrest] at h
  split at h
  · cases h
  · next hfour =>
    split at h
    · cases h
    · next hlength =>
      have hpos : 0 < field rest 2 2 := by omega
      have hle : field rest 2 2 ≤ rest.length := by omega
      split at h
      · split at h
        · cases h
        · next hheader =>
          cases h
          exact ⟨rfl, by omega, hpos, hle, fun _ => by omega⟩
      · next htype =>
        cases h
        exact ⟨rfl, by omega, hpos, hle, fun ht => absurd ht htype⟩

theorem turn_ne_overrun {buf : List UInt8} {c : Cursor} (hc : c.Within buf) (elems : Option Versionbitmap) :
    turn buf elems c ≠ .error .overrun := by
  rw [turn_of_within hc rfl]
  intro h
  split at h
  · cases h
  · split at h
    · cases h
    · split at h
      · split at h
        · cases h
        · cases h
      · cases h

end Cofhelloelems

/-! ## Elements, one after the other -/

namespace Cofhelloelems

/-- What is kept after an element. -/
def put (elems : Option Versionbitmap) (e : List UInt8) : Option Versionbitmap :=
  if field e 0 2 = Openflow13.OFPHET_VERSIONBITMAP then some (decoded e) else elems

theorem Element.field_le {e : List UInt8} (he : Element e) : field e 2 2 ≤ e.length := by
  rw [he.length]
  exact le_padded _

theorem Element.eight_le {e : List UInt8} (he : Element e) : 8 ≤ e.length := by
  have hmod := padded_mod (field e 2 2)
  have hle := le_padded (field e 2 2)
  have hpos := he.pos
  rw [he.length]
  omega

theorem turn_element {buf e before after : List UInt8} (he : Element e) (h : buf = before ++ (e ++ after))
    (elems : Option Versionbitmap) :
    turn buf elems ⟨before.length, (e ++ after).length⟩ = .ok (some (put elems e, e.length)) := by
  have hwithin : (⟨before.length, (e ++ after).length⟩ : Cursor).Within buf := by
    rw [h]
    exact List.length_append.symm
  have hdrop : buf.drop before.length = e ++ after := by rw [h, List.drop_left]
  have height := he.eight_le
  have hle := he.field_le
  have hpos := he.pos
  have hheader := he.header
  have htype : field (e ++ after) 0 2 = field e 0 2 := field_append_left (by omega) after
  have hlength : field (e ++ after) 2 2 = field e 2 2 := field_append_left (by omega) after
  have hlong : (e ++ after).length = e.length + after.length := List.length_append
  have hdecoded : decoded (e ++ after) = decoded e := by
    rw [decoded, hlength, List.take_append_of_le_length hle, decoded]
  rw [turn_of_within hwithin hdrop, if_neg (by omega), htype, hlength, if_neg (by omega), hdecoded, ← he.length, put]
  split
  · next ht => rw [if_neg (by have := hheader ht; omega)]
  · rfl

theorem steps_elements {buf rest : List UInt8} (hbuf : buf.length < 2 ^ 64) {es : List (List UInt8)}
    (hes : ∀ e ∈ es, Element e) (h : buf = es.flatten ++ rest) :
    Relation.ReflTransGen (Step (turn buf)) (none, start buf) (es.foldl put none, ⟨es.flatten.length, rest.length⟩) := by
  have hsplit : buf = [] ++ (es.flatMap id ++ rest) := by rw [h, List.flatMap_id, List.nil_append]
  have hturn : ∀ e ∈ es, ∀ s before after, buf = before ++ (id e ++ after) →
      turn buf s ⟨before.length, (id e ++ after).length⟩ = .ok (some (put s e, (id e).length)) :=
    fun e he s before after hb => turn_element (hes e he) hb s
  have hsteps := steps_encode hbuf hturn hsplit none
  rw [List.flatMap_id, List.nil_append, ← h] at hsteps
  exact hsteps

/-- At an element without its padding the counter wraps. -/
theorem not_bounded {buf : List UInt8} (hbuf : buf.length < 2 ^ 64) (h : LacksPadding buf)
    (r : Except HelloException (Option Versionbitmap)) : ¬Bounded .overrun (turn buf) none buf r := by
  intro hbounded
  obtain ⟨es, rest, hsplit, hes, hrest⟩ := h
  have hsteps := steps_elements hbuf hes hsplit
  have hwithin := hbounded.within _ hsteps
  have hdrop : buf.drop es.flatten.length = rest := by rw [hsplit, List.drop_left]
  have hfour := hrest.four
  have hpos := hrest.pos
  have hle := hrest.element
  have hheader := hrest.header
  have hturn : ∃ elems, turn buf (es.foldl put none) ⟨es.flatten.length, rest.length⟩ =
      .ok (some (elems, padded (field rest 2 2))) := by
    rw [turn_of_within hwithin hdrop, if_neg (by omega), if_neg (by omega)]
    split
    · next ht => exact ⟨_, by rw [if_neg (by have := hheader ht; omega)]⟩
    · exact ⟨_, rfl⟩
  obtain ⟨elems, hturn⟩ := hturn
  have hlast := hbounded.within (elems, _) (hsteps.tail ⟨_, hturn, rfl⟩)
  exact not_within_advance hwithin hrest.padding hlast

/-- The part of the buffer that is behind the pointer is made of elements. -/
def Elements (buf : List UInt8) (c : Cursor) : Prop := ∃ es, buf.take c.off = List.flatten es ∧ ∀ e ∈ es, Element e

theorem exists_bounded {buf : List UInt8} (hbuf : buf.length < 2 ^ 64) (h : ¬LacksPadding buf) :
    ∃ r, Bounded .overrun (turn buf) none buf r := by
  have hstart : Elements buf (start buf) := ⟨[], rfl, fun _ he => by cases he⟩
  refine bounded hbuf (I := fun _ => Elements buf) hstart fun elems c hc hI =>
    ⟨turn_ne_overrun hc elems, fun elems' k hk => ?_⟩
  obtain ⟨hpad, hfour, hpos, hle, hheader⟩ := turn_eq_some hc rfl hk
  obtain ⟨es, htake, hes⟩ := hI
  have hleft := hc.length_drop
  have hkle : k ≤ c.left := by
    by_contra hgt
    refine h ⟨es, buf.drop c.off, ?_, hes, hfour, hpos, hheader, hle, by omega⟩
    rw [← htake, List.take_append_drop]
  have hkpos : 0 < k := by
    have := le_padded (field (buf.drop c.off) 2 2)
    omega
  have hk4 : 4 ≤ k := by
    have := le_padded (field (buf.drop c.off) 2 2)
    have := padded_mod (field (buf.drop c.off) 2 2)
    omega
  refine ⟨hkpos, hkle, es ++ [(buf.drop c.off).take k], ?_, fun e he => ?_⟩
  · show buf.take (c.off + k) = _
    rw [List.take_add, htake, List.flatten_append, List.flatten_singleton]
  · rcases List.mem_append.mp he with he | he
    · exact hes e he
    · obtain rfl := List.mem_singleton.mp he
      have htype : field ((buf.drop c.off).take k) 0 2 = field (buf.drop c.off) 0 2 := field_take (by omega)
      have hlength : field ((buf.drop c.off).take k) 2 2 = field (buf.drop c.off) 2 2 := field_take (by omega)
      refine ⟨?_, ?_, fun ht => ?_⟩
      · rw [hlength, List.length_take, ← hpad]
        omega
      · rw [hlength]
        exact hpos
      · rw [hlength]
        exact hheader (htype ▸ ht)

/-! ### Elements of a message -/

theorem length_flatten_mod {es : List (List UInt8)} (hes : ∀ e ∈ es, Element e) : es.flatten.length % 8 = 0 := by
  induction es with
  | nil => rfl
  | cons e es ih =>
    have hmod := padded_mod (field e 2 2)
    have htail := ih fun e' he' => hes e' (List.mem_cons_of_mem e he')
    have hlen := (hes e List.mem_cons_self).length
    rw [List.flatten_cons, List.length_append]
    omega

theorem LacksPadding.length_mod {buf : List UInt8} (h : LacksPadding buf) : buf.length % 8 ≠ 0 := by
  obtain ⟨es, rest, rfl, hes, hrest⟩ := h
  have hflat := length_flatten_mod hes
  have hle := hrest.element
  have hpadding := hrest.padding
  rw [List.length_append]
  unfold padded at hpadding
  split at hpadding <;> omega

end Cofhelloelems

namespace HelloElem

open Cofhelloelems

theorem length_mem (e : HelloElem) : e.mem.length = e.length := by
  simp only [mem, List.length_append, length_octets, length]

theorem field_type (e : HelloElem) (rest : List UInt8) : field (e.mem ++ rest) 0 2 = e.type.toNat := by
  rw [mem, List.append_assoc, List.append_assoc, field_octets_of_lt e.type.toNat_lt]

theorem field_length {e : HelloElem} (h : e.length < 65536) (rest : List UInt8) : field (e.mem ++ rest) 2 2 = e.length := by
  rw [mem, List.append_assoc, List.append_assoc, field_append_right (length_octets 2 _).le, length_octets, Nat.sub_self,
    field_octets_of_lt h]

theorem Valid.element {e : HelloElem} (he : e.Valid) : Element e.encode := by
  have hfour : 4 ≤ e.length := Nat.le_add_right 4 _
  refine ⟨?_, ?_, fun _ => ?_⟩
  · rw [encode, field_length he.length, List.length_append, length_mem, he.padding]
  · rw [encode, field_length he.length]
    omega
  · rw [encode, field_length he.length]
    exact hfour

theorem decoded_encode {e : HelloElem} (he : e.Valid) : decoded e.encode = e.versionbitmap := by
  have hbody : e.mem.drop 4 = e.body := List.drop_left' (by simp)
  rw [decoded, encode, field_length he.length, List.take_left' e.length_mem, hbody, versionbitmap, length,
    Nat.add_sub_cancel_left]

theorem put_encode {e : HelloElem} (he : e.Valid) (elems : Option Versionbitmap) :
    put elems e.encode = if e.type.toNat = Openflow13.OFPHET_VERSIONBITMAP then some e.versionbitmap else elems := by
  rw [put, decoded_encode he, encode, field_type]

theorem foldl_put_of_not {es : List HelloElem} (hes : ∀ e ∈ es, e.Valid)
    (hnot : ∀ e ∈ es, e.type.toNat ≠ Openflow13.OFPHET_VERSIONBITMAP) (elems : Option Versionbitmap) :
    (es.map encode).foldl put elems = elems := by
  induction es with
  | nil => rfl
  | cons e es ih =>
    rw [List.map_cons, List.foldl_cons, put_encode (hes e List.mem_cons_self), if_neg (hnot e List.mem_cons_self)]
    exact ih (fun e' he' => hes e' (List.mem_cons_of_mem e he')) fun e' he' => hnot e' (List.mem_cons_of_mem e he')

/-- The last versionbitmap is what is kept. -/
theorem foldl_put {es : List HelloElem} (hes : ∀ e ∈ es, e.Valid)
    (hone : ∃ e ∈ es, e.type.toNat = Openflow13.OFPHET_VERSIONBITMAP) (elems : Option Versionbitmap) :
    ∃ e ∈ es, e.type.toNat = Openflow13.OFPHET_VERSIONBITMAP ∧
      (es.map encode).foldl put elems = some e.versionbitmap := by
  induction es generalizing elems with
  | nil =>
    obtain ⟨_, he, _⟩ := hone
    cases he
  | cons e es ih =>
    have htail : ∀ e' ∈ es, e'.Valid := fun e' he' => hes e' (List.mem_cons_of_mem e he')
    rw [List.map_cons, List.foldl_cons]
    by_cases hlater : ∃ e ∈ es, e.type.toNat = Openflow13.OFPHET_VERSIONBITMAP
    · obtain ⟨e', he', htype, hfold⟩ := ih htail hlater (put elems e.encode)
      exact ⟨e', List.mem_cons_of_mem e he', htype, hfold⟩
    · have hnot : ∀ e ∈ es, e.type.toNat ≠ Openflow13.OFPHET_VERSIONBITMAP := fun e' he' ht => hlater ⟨e', he', ht⟩
      obtain ⟨e', he', htype⟩ := hone
      obtain rfl : e' = e := (List.mem_cons.mp he').resolve_right fun hmem => hnot e' hmem htype
      refine ⟨e', List.mem_cons_self, htype, ?_⟩
      rw [foldl_put_of_not htail hnot, put_encode (hes e' List.mem_cons_self), if_pos htype]

end HelloElem

open Cofhelloelems

/-- The loop stays in the buffer and its counter does not wrap, except where an element
lacks its padding; and in a list of elements it finds a versionbitmap. -/
theorem hello_bounded_iff {buf : List UInt8} (hbuf : buf.length < 2 ^ 64) {es : List HelloElem}
    (hes : ∀ e ∈ es, e.Valid) (hlen : (es.flatMap HelloElem.encode).length < 2 ^ 64) :
    ((∃ r, Bounded .overrun (turn buf) none buf r) ↔ ¬LacksPadding buf) ∧
    ((∃ e ∈ es, e.type.toNat = Openflow13.OFPHET_VERSIONBITMAP) →
      ∃ e ∈ es, e.type.toNat = Openflow13.OFPHET_VERSIONBITMAP ∧
        unpack (es.flatMap HelloElem.encode) = some (.ok (some e.versionbitmap))) := by
  refine ⟨⟨fun ⟨r, hr⟩ h => not_bounded hbuf h r hr, exists_bounded hbuf⟩, fun hone => ?_⟩
  have helements : ∀ e ∈ es.map HelloElem.encode, Element e := by
    intro octets hoctets
    obtain ⟨e, he, rfl⟩ := List.mem_map.mp hoctets
    exact (hes e he).element
  have hflat : es.flatMap HelloElem.encode = (es.map HelloElem.encode).flatten ++ [] := by
    rw [List.append_nil, List.flatMap_def]
  have hmod : (es.flatMap HelloElem.encode).length % 8 = 0 := by
    rw [List.flatMap_def]
    exact length_flatten_mod helements
  obtain ⟨r, hr⟩ := exists_bounded hlen fun h => h.length_mod hmod
  have hsteps := steps_elements hlen helements hflat
  obtain ⟨e, he, htype, hfold⟩ := HelloElem.foldl_put hes hone none
  refine ⟨e, he, htype, ?_⟩
  have hend := hr.eq_of_steps hsteps rfl
  rw [hfold] at hend
  rw [unpack, hr.ends, hend]

/-- An element of another type, and a versionbitmap of 1.0 and 1.3. -/
def HelloElem.pair : List HelloElem := [⟨2, [7, 7, 7], [0]⟩, ⟨1, [0, 0, 0, 18], []⟩]

theorem HelloElem.valid_pair : ∀ e ∈ HelloElem.pair, e.Valid := by
  intro e he
  simp only [HelloElem.pair, List.mem_cons, List.not_mem_nil, or_false] at he
  rcases he with rfl | rfl
  · exact ⟨by decide, rfl⟩
  · exact ⟨by decide, rfl⟩

/-- A versionbitmap without padding, as none is needed. -/
def Cofhelloelems.single : List UInt8 := [0, 1, 0, 8, 0, 0, 0, 18]

theorem hello_bounded_pair :
    ((∃ r, Bounded .overrun (turn single) none single r) ↔ ¬LacksPadding single) ∧
    ((∃ e ∈ HelloElem.pair, e.type.toNat = Openflow13.OFPHET_VERSIONBITMAP) →
      ∃ e ∈ HelloElem.pair, e.type.toNat = Openflow13.OFPHET_VERSIONBITMAP ∧
        unpack (HelloElem.pair.flatMap HelloElem.encode) = some (.ok (some e.versionbitmap))) :=
  hello_bounded_iff (by decide) HelloElem.valid_pair (by decide)

/-- A versionbitmap of two words at the end of a message, without its padding. -/
def Cofhelloelems.unpadded : List UInt8 := [0, 1, 0, 12, 0, 0, 0, 18, 0, 0, 0, 0]

/-- The counter wraps from 12 by 16, and the loop reads on behind the message. -/
theorem unpadded_overrun : (¬∃ r, Bounded .overrun (turn unpadded) none unpadded r) ∧
    unpack unpadded = some (.error .overrun) := by
  have hlacks : LacksPadding unpadded :=
    ⟨[], unpadded, rfl, fun _ he => absurd he List.not_mem_nil,
      ⟨by decide, by decide, by decide, by decide, by decide⟩⟩
  exact ⟨fun ⟨r, hr⟩ => not_bounded (by decide) hlacks r hr, by decide +kernel⟩

end RoflCommon
