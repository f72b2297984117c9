/-
`cofbucket` and `cofbuckets`, as `unpack` makes them of any octets.

A bucket keeps to the octets it is handed (`Cofbucket.within_unpack`). The list hands each of
them as many as its `len` says, and takes as many off, without a look at what is left: the
octets behind the buffer are read, and what is left goes below zero, unless the actions of the
bucket are rejected first (`Cofbuckets.bounded_iff`).
-/
import RoflCommon.Lib.Iterate
import RoflCommon.Lib.Omap
import RoflCommon.Openflow.Cofactions
import RoflCommon.Openflow.Cofmeterbands

namespace RoflCommon

open Octets Window Iterate

/-- The exceptions of `cofbucket` and `cofbuckets`, and those of the actions. -/
inductive BucketException
  | badVersion
  | bucketsInval
  | bucketBadLen
  | actions (e : CodecException)
deriving DecidableEq, Repr

abbrev BucketAnswer (α : Type) := Except (Fault BucketException) α

/-- `cofbucket`. -/
structure Cofbucket where
  weight : UInt16
  watchPort : UInt32
  watchGroup : UInt32
  actions : List Cofaction
deriving DecidableEq

namespace Cofbucket

def new : Cofbucket := ⟨0, 0, 0, []⟩

/-- The versions that have buckets. -/
def versions : List UInt8 := [Openflow12.OFP_VERSION, Openflow13.OFP_VERSION]

/-- `struct ofp_bucket`. `unpack` has no use for the length. -/
def header : Record.Layout := [.pad 2, .field 2, .field 4, .field 4, .pad 4]

/-- Fewer octets than an action has are no actions. -/
def unpackActions (v : UInt8) (actions : List Cofaction) (buf : List UInt8) (aclen : ℕ) :
    BucketAnswer (List Cofaction) :=
  if aclen < 8 then .ok actions else rethrow .actions (Cofactions.unpack v actions (buf.drop 16) aclen)

def unpack (v : UInt8) (b : Cofbucket) (buf : List UInt8) (buflen : ℕ) : BucketAnswer Cofbucket :=
  if v ∉ versions then raise .badVersion
  else if buflen < Record.size header then .ok b
  else do
    let vs ← record header buf
    return ⟨.ofNat (vs.getD 0 0), .ofNat (vs.getD 1 0), .ofNat (vs.getD 2 0),
      ← unpackActions v b.actions buf (buflen - Record.size header)⟩

end Cofbucket

namespace Cofbuckets

/-- Where the loop of `unpack` is in the buffer, how much it takes to be left, the id of the
next bucket, and the buckets so far. -/
structure Unpacking where
  off : ℕ
  buflen : ℕ
  bucketId : ℕ
  buckets : Omap ℕ Cofbucket
deriving DecidableEq

/-- Behind a bucket of the length. The size has 64 bits, and an id 32. -/
def next (s : Unpacking) (len : ℕ) (b : Cofbucket) : Unpacking :=
  ⟨s.off + len, if len ≤ s.buflen then s.buflen - len else s.buflen + 2 ^ 64 - len, (s.bucketId + 1) % 2 ^ 32,
    s.buckets.insert s.bucketId b⟩

/-- A turn of the loop of `unpack`. -/
def body (v : UInt8) (buf : List UInt8) : Body Unpacking (Fault BucketException) := fun s =>
  if s.buflen = 0 then .ok none
  else do
    let len ← numberAt (buf.drop s.off) 0 2
    if len < Record.size Cofbucket.header then return none
    else do
      return some (next s len (← Cofbucket.unpack v .new (buf.drop s.off) len))

def start (buf : List UInt8) : Unpacking := ⟨0, buf.length, 0, .empty⟩

/-- `unpack` of the buffer comes to an end with `r`. -/
def Unpacks (v : UInt8) (buf : List UInt8) (r : BucketAnswer (Omap ℕ Cofbucket)) : Prop :=
  if v ∉ Cofbucket.versions then r = raise .badVersion
  else if buf.length < Record.size Cofbucket.header then r = .ok .empty
  else ∃ r', Ends (body v buf) (start buf) r' ∧ r = r'.map Unpacking.buckets

/-- The loop of `unpack` comes to the state. -/
structure Comes (v : UInt8) (buf : List UInt8) (s : Unpacking) : Prop where
  version : v ∈ Cofbucket.versions
  size : Record.size Cofbucket.header ≤ buf.length
  steps : Relation.ReflTransGen (Step (body v buf)) (start buf) s

/-- `unpack` returns or throws, without a read outside of the buffer, and what is left never
goes below zero. -/
structure Bounded (v : UInt8) (buf : List UInt8) : Prop where
  terminates : ∃ r, Unpacks v buf r ∧ r ≠ .error .overrun
  remaining : ∀ s s', Comes v buf s → Step (body v buf) s s' → s'.buflen < s.buflen

/-- Buckets that lie within the buffer, up to its end, to a length below that of a bucket, or
to a bucket of any length whose actions are rejected in the buffer. -/
inductive Confined (v : UInt8) : List UInt8 → Prop
  | nil : Confined v []
  | short {l : List UInt8} (hdr : 2 ≤ l.length) (hlen : field l 0 2 < 16) : Confined v l
  | rejected {l : List UInt8} (h : Cofactions.Rejected v (field l 0 2 - 16) (l.drop 16)) : Confined v l
  | next {l : List UInt8} (hlen : 16 ≤ field l 0 2) (hin : field l 0 2 ≤ l.length)
      (hrest : Confined v (l.drop (field l 0 2))) : Confined v l

end Cofbuckets

/-! ## One bucket -/

namespace Cofbucket

variable {v : UInt8} {b : Cofbucket} {l : List UInt8} {n : ℕ}

/-- `unpack` keeps to the octets it is handed. -/
theorem within_unpack (v : UInt8) (b : Cofbucket) (n : ℕ) : Within n fun buf => unpack v b buf n := by
  intro buf hn
  unfold unpack
  refine .ite (fun _ => .raise _) fun _ => .ite (fun _ => .ok _) fun hlong => ?_
  have hsize : Record.size header = 16 := rfl
  refine (KeepsTo.record hn (by omega)).bind fun vs _ => .bind ?_ fun actions _ => .ok _
  refine .ite (fun _ => .ok _) fun _ => ?_
  exact KeepsTo.rethrow ((Cofactions.within_unpack b.actions (n - 16)).drop (by omega) buf hn) _

/-- Only the actions are rejected. -/
theorem throws_unpack (hv : v ∈ versions) (hlen : 16 ≤ n) :
    Throws (unpack v b l n) ↔ Cofactions.Rejected v (n - 16) (l.drop 16) := by
  have hsize : Record.size header = 16 := rfl
  have hactions : 8 ≤ n - 16 → (Throws (unpackActions v b.actions l (n - 16)) ↔
      Cofactions.Rejected v (n - 16) (l.drop 16)) := fun height => by
    rw [unpackActions, if_neg (by omega), throws_rethrow, Cofactions.unpack, if_neg (by omega), if_neg (by omega),
      Cofactions.loop_throws_iff]
  unfold unpack
  rw [if_neg (not_not.mpr hv), if_neg (by omega), throws_bind, hsize]
  constructor
  · rintro (h | ⟨vs, _, h⟩)
    · exact absurd h (not_throws_record _ _)
    · rcases throws_bind.mp h with h | ⟨actions, _, h⟩
      · by_cases height : 8 ≤ n - 16
        · exact (hactions height).mp h
        · rw [unpackActions, if_pos (by omega)] at h
          exact absurd h (not_throws_ok _)
      · exact absurd h (not_throws_ok _)
  · intro h
    have hfour := h.four_le
    rw [List.length_drop] at hfour
    have hrecord : (record header l : BucketAnswer (List ℕ)) = .ok (Record.read header l) := record_eq (by omega)
    exact .inr ⟨_, hrecord, throws_bind.mpr (.inl ((hactions h.eight_le).mpr h))⟩

end Cofbucket

/-! ## The list -/

namespace Cofbuckets

variable {v : UInt8} {buf l : List UInt8} {s s' : Unpacking}

/-- `l` is what is left behind `off`. -/
structure At (buf : List UInt8) (s : Unpacking) (l : List UInt8) : Prop where
  left : buf.drop s.off = l
  buflen : s.buflen = l.length

theorem at_start (buf : List UInt8) : At buf (start buf) buf := ⟨List.drop_zero, rfl⟩

theorem At.next (hs : At buf s l) {len : ℕ} (hlen : len ≤ l.length) (b : Cofbucket) :
    At buf (next s len b) (l.drop len) := by
  refine ⟨?_, ?_⟩
  · show buf.drop (s.off + len) = _
    rw [← List.drop_drop, hs.left]
  · show (if len ≤ s.buflen then s.buflen - len else _) = _
    rw [hs.buflen, if_pos hlen, List.length_drop]

/-- Where a bucket goes on behind the buffer, the next one is read there. -/
theorem body_outside (hs : At buf s l) {len : ℕ} (hlen : l.length < len) (hlt : len < 65536) (b : Cofbucket) :
    body v buf (next s len b) = .error .overrun := by
  have hpos : (next s len b).buflen ≠ 0 := by
    show (if len ≤ s.buflen then _ else s.buflen + 2 ^ 64 - len) ≠ 0
    rw [hs.buflen, if_neg (by omega)]
    omega
  have hnil : buf.drop (next s len b).off = [] := by
    show buf.drop (s.off + len) = []
    rw [← List.drop_drop, hs.left, List.drop_eq_nil_of_le (by omega)]
  rw [body, if_neg hpos, hnil]
  rfl

/-- A bucket that is not short. -/
theorem body_eq (hs : At buf s l) (hhdr : 2 ≤ l.length) (hlen : 16 ≤ field l 0 2) :
    body v buf s = Cofbucket.unpack v .new l (field l 0 2) >>= fun b => .ok (some (next s (field l 0 2) b)) := by
  have hsize : Record.size Cofbucket.header = 16 := rfl
  rw [body, hs.left, if_neg (by rw [hs.buflen]; omega), numberAt_eq (by omega)]
  show (if field l 0 2 < Record.size Cofbucket.header then _ else _) = _
  rw [if_neg (by omega)]
  rfl

/-- The loop keeps to what is confined. -/
theorem Confined.bounded (hv : v ∈ Cofbucket.versions) (h : Confined v l) (hs : At buf s l) :
    (∃ r, Ends (body v buf) s r ∧ r ≠ .error .overrun) ∧ ∀ s₁ s₂, Relation.ReflTransGen (Step (body v buf)) s s₁ →
      Step (body v buf) s₁ s₂ → s₂.buflen < s₁.buflen := by
  induction h generalizing s with
  | nil =>
    have hbody : body v buf s = .ok none := if_pos hs.buflen
    exact ⟨⟨_, (ends_done hbody).mpr rfl, fun h => by cases h⟩, forall_step_done hbody⟩
  | @short l hdr hlen =>
    have hbody : body v buf s = .ok none := by
      rw [body, hs.left, if_neg (by rw [hs.buflen]; omega), numberAt_eq (by omega)]
      exact if_pos hlen
    exact ⟨⟨_, (ends_done hbody).mpr rfl, fun h => by cases h⟩, forall_step_done hbody⟩
  | @rejected l h =>
    have hfour := h.four_le
    have height := h.eight_le
    rw [List.length_drop] at hfour
    obtain ⟨e, he⟩ := (Cofbucket.throws_unpack (b := .new) hv (by omega)).mpr h
    have hbody := body_eq (v := v) hs (by omega) (by omega)
    rw [he] at hbody
    exact ⟨⟨_, (ends_error hbody).mpr rfl, fun h => by cases h⟩, forall_step_error hbody⟩
  | @next l hlen hin hrest ih =>
    have hbody := body_eq (v := v) hs (by omega) hlen
    have hinside := (Cofbucket.within_unpack v .new (field l 0 2) l hin).inside
    cases hb : Cofbucket.unpack v .new l (field l 0 2) with
    | error e =>
      rw [hb] at hbody hinside
      refine ⟨⟨_, (ends_error hbody).mpr rfl, fun h => ?_⟩, forall_step_error hbody⟩
      exact hinside (congrArg _ (Except.error.inj h))
    | ok b =>
      rw [hb] at hbody
      obtain ⟨⟨r, hr, hne⟩, hsteps⟩ := ih (hs.next hin b)
      refine ⟨⟨r, (ends_next hbody).mpr hr, hne⟩, (forall_step_next hbody).mpr ⟨?_, hsteps⟩⟩
      have hleft := (hs.next hin b).buflen
      rw [List.length_drop] at hleft
      rw [hleft, hs.buflen]
      omega

/-- It keeps to nothing else. -/
theorem confined_of_run (hv : v ∈ Cofbucket.versions) (hs : At buf s l) {k : ℕ}
    {r : Except (Fault BucketException) Unpacking} (hrun : Iterate.run (body v buf) k s = some r)
    (hr : r ≠ .error .overrun) : Confined v l := by
  induction k generalizing s l with
  | zero => cases hrun
  | succ k ih =>
    rw [Iterate.run] at hrun
    by_cases hnil : l = []
    · rw [hnil]
      exact .nil
    have hpos : 0 < l.length := List.length_pos_iff.mpr hnil
    by_cases hhdr : l.length < 2
    · have hbody : body v buf s = .error .overrun := by
        rw [body, hs.left, if_neg (by rw [hs.buflen]; omega), numberAt_short (by omega)]
        rfl
      rw [hbody] at hrun
      exact absurd (Option.some.inj hrun).symm hr
    by_cases hshort : field l 0 2 < 16
    · exact .short (by omega) hshort
    rw [body_eq hs (by omega) (by omega)] at hrun
    cases hb : Cofbucket.unpack v .new l (field l 0 2) with
    | error e =>
      rw [hb] at hrun
      cases e with
      | thrown e => exact .rejected ((Cofbucket.throws_unpack hv (by omega)).mp ⟨e, hb⟩)
      | overrun => exact absurd (Option.some.inj hrun).symm hr
    | ok b =>
      rw [hb] at hrun
      by_cases hin : field l 0 2 ≤ l.length
      · exact .next (by omega) hin (ih (hs.next hin b) hrun)
      · have hnext := body_outside (v := v) hs (by omega) (field_lt l 0 2) b
        exact absurd ((ends_error hnext).mp ⟨k, hrun⟩) hr

/-- The list keeps to its buffer, just if that is confined. -/
theorem bounded_iff (v : UInt8) (buf : List UInt8) :
    Bounded v buf ↔ v ∉ Cofbucket.versions ∨ buf.length < Record.size Cofbucket.header ∨ Confined v buf := by
  by_cases hv : v ∉ Cofbucket.versions
  · have hunpacks : Unpacks v buf (raise .badVersion) := by
      rw [Unpacks, if_pos hv]
    exact ⟨fun _ => .inl hv, fun _ => ⟨⟨_, hunpacks, fun h => by cases h⟩, fun s s' hs => absurd hs.version hv⟩⟩
  by_cases hshort : buf.length < Record.size Cofbucket.header
  · have hunpacks : Unpacks v buf (.ok .empty) := by
      rw [Unpacks, if_neg hv, if_pos hshort]
    exact ⟨fun _ => .inr (.inl hshort), fun _ => ⟨⟨_, hunpacks, fun h => by cases h⟩,
      fun s s' hs => absurd hs.size (Nat.not_le.mpr hshort)⟩⟩
  have hunpacks : ∀ r, Unpacks v buf r ↔
      ∃ r', Ends (body v buf) (start buf) r' ∧ r = r'.map Unpacking.buckets := fun r => by
    rw [Unpacks, if_neg hv, if_neg hshort]
  have hv := not_not.mp hv
  constructor
  · rintro ⟨⟨r, hr, hne⟩, _⟩
    obtain ⟨r', ⟨k, hrun⟩, rfl⟩ := (hunpacks r).mp hr
    refine .inr (.inr (confined_of_run hv (at_start buf) hrun fun hover => hne ?_))
    rw [hover]
    rfl
  · intro h
    have hconfined := (h.resolve_left (not_not.mpr hv)).resolve_left hshort
    obtain ⟨⟨r, hends, hne⟩, hsteps⟩ := hconfined.bounded hv (at_start buf)
    refine ⟨⟨_, (hunpacks _).mpr ⟨r, hends, rfl⟩, ?_⟩, fun s s' hs => hsteps s s' hs.steps⟩
    cases r with
    | ok s => exact fun h => by cases h
    | error e => exact fun h => hne (congrArg _ (Except.error.inj h))

end Cofbuckets

/-- `unpack` of a bucket, of a list of buckets and of a list of meter bands keeps to the buffer
that it is handed. -/
structure ListsBounded (v : UInt8) (buf : List UInt8) : Prop where
  bucket : ∀ b, Cofbucket.unpack v b buf buf.length ≠ .error .overrun
  buckets : Cofbuckets.Bounded v buf
  bands : CofmeterBands.Bounded v buf

theorem listsBounded_iff (v : UInt8) (buf : List UInt8) :
    ListsBounded v buf ↔
      (v ∉ Cofbucket.versions ∨ buf.length < Record.size Cofbucket.header ∨ Cofbuckets.Confined v buf) ∧
        (v ≠ Openflow13.OFP_VERSION ∨ CofmeterBands.Confined buf 0) := by
  rw [← Cofbuckets.bounded_iff, ← CofmeterBands.bounded_iff]
  exact ⟨fun h => ⟨h.buckets, h.bands⟩,
    fun h => ⟨fun b => (Cofbucket.within_unpack v b buf.length buf le_rfl).inside, h.1, h.2⟩⟩

/-- A bucket of 24 octets in 16, and a band of 16 in 12. -/
theorem long_bucket_and_long_band :
    ¬ListsBounded Openflow13.OFP_VERSION [0, 24, 0, 0, 0, 0, 0, 0, 0, 0, 0, 0, 0, 0, 0, 0] ∧
      ¬ListsBounded Openflow13.OFP_VERSION [0, 1, 0, 16, 0, 0, 0, 0, 0, 0, 0, 0] := by
  constructor
  · intro h
    rcases (Cofbuckets.bounded_iff _ _).mp h.buckets with h | h | h
    · exact h (by decide)
    · exact absurd h (by decide)
    · cases h with
      | short _ hlen => exact absurd hlen (by decide)
      | rejected h => exact absurd h.four_le (by decide)
      | next _ hin => exact absurd hin (by decide)
  · intro h
    rcases (CofmeterBands.bounded_iff _ _).mp h.bands with h | h
    · exact h rfl
    · cases h with
      | ends h => exact absurd h (by decide)
      | short _ hlen => exact absurd hlen (by decide)
      | rejected _ _ h => exact absurd h.1 (by decide)
      | next _ _ hin => exact absurd (hin (by decide)) (by decide)

end RoflCommon
