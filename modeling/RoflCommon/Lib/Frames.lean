/-
Length-delimited frames in a stream: the first `header` symbols of a frame
say how many symbols the whole frame has. A receiver that has collected the
part `c` of a frame asks for `want c` more symbols: the rest of the header
first, then the rest of the frame. Whatever part of what it asks for arrives,
it never runs into the next frame.
-/
import Mathlib.Data.List.Infix
import Mathlib.Tactic.Common

namespace Frames

variable {α : Type*}

/-- How the length of a frame is read off its header. -/
structure Framing (α : Type*) where
  header : Nat
  len : List α → Nat
  len_take : ∀ l, len (l.take header) = len l

namespace Framing

variable (F : Framing α)

/-- A list that is exactly one frame. -/
def IsFrame (f : List α) : Prop := F.header ≤ f.length ∧ F.len f = f.length

/-- What the receiver of a frame asks for next, having the part `c`. -/
def want (c : List α) : Nat := (if c.length < F.header then F.header else F.len c) - c.length

variable {F}

theorem len_of_isPrefix {c f : List α} (h : c <+: f) (hc : F.header ≤ c.length) :
    F.len c = F.len f := by
  obtain ⟨r, rfl⟩ := h
  rw [← F.len_take c, ← F.len_take (c ++ r), List.take_append_of_le_length hc]

/-- Asking for `want c` symbols never asks beyond the frame. -/
theorem want_le {c f : List α} (hf : F.IsFrame f) (h : c <+: f) : c.length + F.want c ≤ f.length := by
  have hlen := h.length_le
  unfold want
  split
  · have := hf.1
    omega
  · next hc =>
    rw [len_of_isPrefix h (by omega), hf.2]
    omega

/-- As long as the frame is incomplete the receiver asks for something. -/
theorem want_pos {c f : List α} (hf : F.IsFrame f) (h : c <+: f) (hlt : c.length < f.length) :
    0 < F.want c := by
  unfold want
  split
  · omega
  · next hc =>
    rw [len_of_isPrefix h (by omega), hf.2]
    omega

/-- The length check tells exactly when the frame is complete. -/
theorem complete_iff {c f : List α} (hf : F.IsFrame f) (h : c <+: f) :
    (F.header ≤ c.length ∧ F.len c = c.length) ↔ c = f := by
  constructor
  · rintro ⟨hc, hlen⟩
    refine h.eq_of_length ?_
    rw [← hlen, len_of_isPrefix h hc, hf.2]
  · rintro rfl
    exact hf

/-- What has been collected of a stream, no longer than its first frame, is
a part of that frame. -/
theorem isPrefix_of_stream {c rest f : List α} {fs : List (List α)}
    (h : c ++ rest = (f :: fs).flatten) (hc : c.length ≤ f.length) : c <+: f := by
  have h₁ : c <+: (f :: fs).flatten := ⟨rest, h⟩
  have h₂ : f <+: (f :: fs).flatten := ⟨fs.flatten, by simp⟩
  exact List.prefix_of_prefix_length_le h₁ h₂ hc

end Framing
end Frames
