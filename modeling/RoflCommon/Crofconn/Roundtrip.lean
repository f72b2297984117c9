/-
Segmentation on one connection and reassembly on another: the segments of a
long message, received in order by a peer that has room for one transaction
more than it needs, come to one message.

The proof follows the groups of items the message is split into: what the peer
has stored after some of them is the message built from these. All entries are
copies by then, so the message that arrives has the entries of the one that
was sent if copying leaves these as they are (`segments_reassembled_iff`). A
match with a packet register is not one that is left as it is.
-/
import RoflCommon.Crofconn.Reassembly
import RoflCommon.Crofconn.Segmentation
import RoflCommon.Openflow.RegisterFlow

namespace RoflCommon

namespace Multipart

variable {ε : Type} [Entry ε]

/-- Long messages with an array are segmented, in OpenFlow 1.3. -/
theorem handling_of_long {m : Multipart ε} (hversion : m.version = Openflow13.OFP_VERSION)
    (hlong : segmentationThreshold < m.length) (harray : hasArray m.stats.type m.stats.statsType = true) :
    m.SplitOrThrown m.handling := by
  have hv : ¬ m.version = Openflow12.OFP_VERSION := by rw [hversion]; decide
  unfold handling
  rw [if_neg (by omega), if_neg hv, if_pos hversion]
  cases hs : m.stats with
  | array kind a => cases kind <;> exact splitOrThrown_array hs
  | queue a => exact splitOrThrown_queue hs
  | plain type n noArray body =>
    rw [hs] at harray
    exact absurd harray (by simpa [Stats.type, Stats.statsType] using noArray)

omit [Entry ε] in
/-- The MORE flag is set on all segments but the last. -/
theorem more_markMore {ms : List (Multipart ε)} (h : ∀ m ∈ ms, m.more = false) :
    (∀ m ∈ (markMore ms).dropLast, m.more = true) ∧ ∀ m ∈ (markMore ms).getLast?, m.more = false := by
  induction ms with
  | nil => simp [markMore]
  | cons m ms ih =>
    cases ms with
    | nil => simpa [markMore] using h
    | cons n ms =>
      have hrest := ih fun k hk => h k (by simp [hk])
      have hne : markMore (n :: ms) ≠ [] := by cases ms <;> simp [markMore]
      obtain ⟨k, ks, hks⟩ := List.exists_cons_of_ne_nil hne
      simpa [markMore, hks] using hrest

namespace Split

variable {m : Multipart ε}

/-- The message built from some of the items. -/
def message (s : Split m) (g : List s.Item) : Multipart ε := { m with stats := s.build g }

theorem segments_eq (s : Split m) :
    s.segments = markMore ((Chunks.groups s.weight maxLength s.items).map s.message) := rfl

theorem type_message (s : Split m) (g : List s.Item) : (s.message g).type = m.type := by
  have hstats : (s.message g).stats.type = m.stats.type := s.type_build g
  unfold Multipart.type
  rw [hstats]
  rfl

/-- The transaction that has stored some of the items. -/
def transaction (s : Split m) (tspec : Nat) (g : List s.Item) : Csegment ε :=
  ⟨tspec, m.xid, some (s.message g), m.type, m.stats.statsType⟩

/-- A segment with the next items is merged into the transaction. -/
theorem storeAndMergeMsg_transaction (s : Split m) (hkeyed : m.stats.Keyed) (tspec : Nat) {g g' : List s.Item}
    (h : g ++ g' <+: s.items) {n : Multipart ε} (htype : n.type = m.type) (hstats : n.stats = s.build g') :
    (s.transaction tspec g).storeAndMergeMsg n = .ok (s.transaction tspec (g ++ g')) := by
  have hmatch : (s.transaction tspec g).Matches n := ⟨htype.symm, by rw [hstats, s.statsType_build]; rfl⟩
  have hmerge : (s.build g).merge n.stats = s.build (g ++ g') := by rw [hstats, s.merge_build hkeyed g g' h]
  have hok : (s.transaction tspec g).storeAndMergeMsg n =
      .ok { s.transaction tspec g with msg := some { s.message g with stats := (s.build g).merge n.stats } } :=
    Segments.storeAndMergeMsg_ok rfl hmatch
  rw [hok, hmerge]
  rfl

end Split

end Multipart

namespace Segments

variable {ε : Type}

theorem Only.trans {p p' p'' : Segments ε} {xid : UInt32} {o o' : Option (Csegment ε)} (h : Only p p' xid o)
    (h' : Only p' p'' xid o') : Only p p'' xid o' where
  find? x := by
    rw [h'.find?, h.find?]
    split <;> rfl
  max := h'.max.trans h.max
  timeout := h'.timeout.trans h.timeout

/-- Storing into a pending transaction takes no room. -/
theorem Only.size_eq {p p' : Segments ε} {xid : UInt32} {c : Csegment ε} (h : Only p p' xid (some c))
    (hpending : (p.pendingSegments.find? xid).isSome) : p'.pendingSegments.size = p.pendingSegments.size := by
  rw [h.eq_insert, Omap.size_insert, if_pos hpending]

/-- Beginning one takes room for one. -/
theorem Only.size_succ {p p' : Segments ε} {xid : UInt32} {c : Csegment ε} (h : Only p p' xid (some c))
    (hnew : p.pendingSegments.find? xid = none) : p'.pendingSegments.size = p.pendingSegments.size + 1 := by
  rw [h.eq_insert, Omap.size_insert, hnew]
  rfl

variable [Entry ε] {m : Multipart ε}

open Multipart

/-- The segments after those that are stored: all are stored but the last, with
which the message is delivered. -/
theorem receive_rest (s : Split m) (hkeyed : m.stats.Keyed) (hversion : m.version ≠ Openflow10.OFP_VERSION)
    (hmore : m.more = false) {tspec : Nat} {g : List s.Item} {gs : List (List s.Item)} (hgs : gs ≠ [])
    (hpre : g ++ gs.flatten <+: s.items) {p : Segments ε} (hroom : p.pendingSegments.size < p.pendingSegmentsMax)
    (hpending : p.pendingSegments.find? m.xid = some (s.transaction tspec g)) {ms : List (Nat × Multipart ε)}
    (hms : ms.map Prod.snd = markMore (gs.map s.message)) :
    (p.receive ms).2 = List.replicate (gs.length - 1) (m.xid, .stored) ++
        [(m.xid, .delivered (some (s.message (g ++ gs.flatten))))] ∧
      Only p (p.receive ms).1 m.xid none := by
  induction gs generalizing g p ms with
  | nil => exact absurd rfl hgs
  | cons g' gs ih =>
    have hnext : g ++ g' <+: s.items := (List.append_assoc g g' gs.flatten ▸ List.prefix_append _ _).trans hpre
    cases gs with
    | nil =>
      obtain ⟨⟨now, n⟩, rest, rfl, rfl, hrest⟩ := List.map_eq_cons_iff.mp hms
      obtain rfl := List.map_eq_nil_iff.mp hrest
      have hadvance : advance p.timeoutSegments now (some (s.transaction tspec g)) (s.message g') =
          (none, .delivered (some (s.message (g ++ g')))) := by
        have htype := type_of_version (m := s.message g') hversion
        have hlast : (s.message g').more = false := hmore
        simp only [advance, if_neg htype, s.storeAndMergeMsg_transaction hkeyed tspec hnext (s.type_message g') rfl,
          hlast]
        rfl
      obtain ⟨honly, hres⟩ := handleRx_advance hroom now (s.message g')
      have hxid : (s.message g').xid = m.xid := rfl
      rw [hxid, hpending, hadvance] at honly hres
      refine ⟨?_, honly⟩
      simp [receive, hres, hxid]
    | cons g'' gs =>
      obtain ⟨⟨now, n⟩, rest, rfl, rfl, hrest⟩ := List.map_eq_cons_iff.mp hms
      have hadvance : advance p.timeoutSegments now (some (s.transaction tspec g)) (s.message g').setMore =
          (some (s.transaction tspec (g ++ g')), .stored) := by
        have htype := type_of_version (m := (s.message g').setMore) hversion
        simp only [advance, if_neg htype, s.storeAndMergeMsg_transaction hkeyed tspec hnext
          (n := (s.message g').setMore) (s.type_message g') rfl, more_setMore, if_true]
      obtain ⟨honly, hres⟩ := handleRx_advance hroom now (s.message g').setMore
      have hxid : (s.message g').setMore.xid = m.xid := rfl
      rw [hxid, hpending, hadvance] at honly hres
      have hsize := honly.size_eq (by rw [hpending]; rfl)
      obtain ⟨hih, honly'⟩ := ih (g := g ++ g') (by simp) (by simpa using hpre)
        (by rw [hsize, honly.max]; exact hroom) (by rw [honly.find?, if_pos rfl]) hrest
      refine ⟨?_, honly.trans honly'⟩
      simp only [receive, hres, hih, hxid]
      simp [List.replicate_succ]

/-- What the first of several segments begins. -/
theorem advance_first (s : Split m) (hversion : m.version ≠ Openflow10.OFP_VERSION) (hmore : m.more = false)
    {g : List s.Item} (hg : g <:+: s.items) (timeout now : Nat) :
    advance timeout now none (s.message g).setMore = (some (s.transaction (now + timeout) g), .stored) := by
  have htype := type_of_version (m := (s.message g).setMore) hversion
  have hclone : { (s.message g).setMore with stats := (s.message g).setMore.stats.clone } = (s.message g).setMore :=
    congrArg (fun stats => { (s.message g).setMore with stats := stats }) (s.clone_build g hg)
  have hclear : (s.message g).setMore.clearMore = s.message g := by
    rw [clearMore_setMore]
    exact clearMore_eq hmore
  have hsetMore : (s.message g).setMore.type = m.type := s.type_message g
  have hstatsType : (s.message g).setMore.stats.statsType = m.stats.statsType := s.statsType_build g
  unfold advance
  rw [if_neg htype]
  simp only [more_setMore, if_true, hclone, hclear, hsetMore, hstatsType]
  rfl

/-- The segments of a message, received in order. -/
theorem receive_segments (s : Split m) (hkeyed : m.stats.Keyed) (hversion : m.version ≠ Openflow10.OFP_VERSION)
    (hmore : m.more = false) (hitems : s.items ≠ []) {p : Segments ε} (hnew : p.pendingSegments.find? m.xid = none)
    (hroom : s.segments.length = 1 ∨ p.pendingSegments.size + 1 < p.pendingSegmentsMax)
    {ms : List (Nat × Multipart ε)} (hms : ms.map Prod.snd = s.segments) :
    (p.receive ms).2 = List.replicate (s.segments.length - 1) (m.xid, .stored) ++
        [(m.xid, .delivered (some (s.message s.items)))] ∧
      (p.receive ms).1.pendingSegments = p.pendingSegments := by
  have hflatten := Chunks.groups_flatten s.weight maxLength s.items
  obtain ⟨g, gs, hgroups⟩ := List.exists_cons_of_ne_nil (Chunks.groups_ne_nil s.weight maxLength hitems)
  rw [hgroups] at hflatten
  rw [s.segments_eq, length_markMore, hgroups] at hroom ⊢
  rw [s.segments_eq, hgroups] at hms
  cases gs with
  | nil =>
    obtain ⟨⟨now, n⟩, rest, rfl, rfl, hrest⟩ := List.map_eq_cons_iff.mp hms
    obtain rfl := List.map_eq_nil_iff.mp hrest
    obtain rfl : g = s.items := by simpa using hflatten
    have hsingle : p.handleRx now (s.message s.items) = (p, .delivered (some (s.message s.items))) := by
      have htype := type_of_version (m := s.message s.items) hversion
      have hlast : (s.message s.items).more = false := hmore
      have hxid : (s.message s.items).xid = m.xid := rfl
      simp only [handleRx, if_neg htype, hlast, hasPendingSegment, hxid, hnew]
      rfl
    simp only [receive, hsingle]
    exact ⟨rfl, trivial⟩
  | cons g' gs =>
    obtain ⟨⟨now, n⟩, rest, rfl, rfl, hrest⟩ := List.map_eq_cons_iff.mp hms
    have hmax : p.pendingSegments.size + 1 < p.pendingSegmentsMax := by simpa using hroom
    have hinfix : g <:+: s.items := ⟨[], (g' :: gs).flatten, by simpa using hflatten⟩
    obtain ⟨honly, hres⟩ := handleRx_advance (s := p) (by omega) now (s.message g).setMore
    have hxid : (s.message g).setMore.xid = m.xid := rfl
    rw [hxid, hnew, advance_first s hversion hmore hinfix] at honly hres
    have hsize := honly.size_succ hnew
    have hpre : g ++ (g' :: gs).flatten <+: s.items := by rw [← List.flatten_cons, hflatten]
    obtain ⟨hrest, honly'⟩ := receive_rest s hkeyed hversion hmore (List.cons_ne_nil g' gs) hpre
      (by rw [hsize, honly.max]; exact hmax) (by rw [honly.find?, if_pos rfl]) hrest
    have hsame := honly.trans honly'
    rw [← hnew] at hsame
    refine ⟨?_, hsame.eq_self⟩
    rw [← List.flatten_cons, hflatten] at hrest
    simp only [receive, hres, hrest, hxid]
    simp [List.replicate_succ]

/-- Without room for one transaction more, one of the first two segments is refused. -/
theorem receive_refused (s : Split m) (hversion : m.version ≠ Openflow10.OFP_VERSION) (hmore : m.more = false)
    (hitems : s.items ≠ []) {p : Segments ε} (hnew : p.pendingSegments.find? m.xid = none)
    (hseveral : ¬ s.segments.length = 1) (hfull : ¬ p.pendingSegments.size + 1 < p.pendingSegmentsMax)
    {ms : List (Nat × Multipart ε)} (hms : ms.map Prod.snd = s.segments) :
    (m.xid, .thrown .exception) ∈ (p.receive ms).2 := by
  have hflatten := Chunks.groups_flatten s.weight maxLength s.items
  obtain ⟨g, gs, hgroups⟩ := List.exists_cons_of_ne_nil (Chunks.groups_ne_nil s.weight maxLength hitems)
  rw [hgroups] at hflatten
  rw [s.segments_eq, length_markMore, hgroups] at hseveral
  rw [s.segments_eq, hgroups] at hms
  cases gs with
  | nil => exact absurd rfl hseveral
  | cons g' gs =>
    obtain ⟨⟨now, n⟩, rest, rfl, rfl, hrest⟩ := List.map_eq_cons_iff.mp hms
    have hxid : (s.message g).setMore.xid = m.xid := rfl
    by_cases hroom : p.pendingSegments.size < p.pendingSegmentsMax
    · -- the first one takes the last place, and the second one finds none
      have hinfix : g <:+: s.items := ⟨[], (g' :: gs).flatten, by simpa using hflatten⟩
      obtain ⟨honly, -⟩ := handleRx_advance hroom now (s.message g).setMore
      rw [hxid, hnew, advance_first s hversion hmore hinfix] at honly
      have hsize := honly.size_succ hnew
      have hlimit : ¬ (p.handleRx now (s.message g).setMore).1.pendingSegments.size <
          (p.handleRx now (s.message g).setMore).1.pendingSegmentsMax := by
        rw [hsize, honly.max]
        exact hfull
      obtain ⟨k, ks, hks, hkxid, hkversion⟩ : ∃ k ks, markMore ((g' :: gs).map s.message) = k :: ks ∧
          k.xid = m.xid ∧ k.version = m.version := by
        cases gs with
        | nil => exact ⟨_, _, rfl, rfl, rfl⟩
        | cons g'' gs => exact ⟨_, _, rfl, rfl, rfl⟩
      rw [← List.map_cons, hks] at hrest
      obtain ⟨⟨now', n⟩, rest, rfl, rfl, -⟩ := List.map_eq_cons_iff.mp hrest
      have hpending : (p.handleRx now (s.message g).setMore).1.hasPendingSegment n.xid = true := by
        rw [hasPendingSegment, hkxid, honly.find?, if_pos rfl]
        rfl
      have hsecond := handleRx_full hlimit now' (m := n) (by rw [hkversion]; exact hversion)
      rw [if_pos (.inr hpending)] at hsecond
      simp [receive, hsecond, ← hkxid]
    · have hfirst := handleRx_full hroom now (m := (s.message g).setMore) hversion
      rw [if_pos (.inl (more_setMore _))] at hfirst
      simp [receive, hfirst, hxid]

/-- The segments of a long message carry its xid and type, and the MORE flag,
but for the last; received in order by the peer, they come to one message with
the same entries and a clear MORE flag, and the peer's pending segments are as
before. -/
def Reassembled (m : Multipart ε) (p : Segments ε) : Prop :=
  ∃ ms, m.handling = .segments ms ∧
    (∀ n ∈ ms, n.xid = m.xid ∧ n.type = m.type ∧ n.stats.statsType = m.stats.statsType) ∧
    (∀ n ∈ ms.dropLast, n.more = true) ∧ (∀ n ∈ ms.getLast?, n.more = false) ∧
    ∀ timed : List (Nat × Multipart ε), timed.map Prod.snd = ms →
      ∃ r : Multipart ε, r.version = m.version ∧ r.xid = m.xid ∧ r.type = m.type ∧
        r.stats.statsType = m.stats.statsType ∧ r.more = false ∧ r.stats.entries = m.stats.entries ∧
        (p.receive timed).2 = List.replicate (ms.length - 1) (m.xid, .stored) ++ [(m.xid, .delivered (some r))] ∧
        (p.receive timed).1.pendingSegments = p.pendingSegments

/-- A message that is split has the fields of its segments. -/
theorem fields_segments (s : Split m) :
    ∀ n ∈ s.segments, n.xid = m.xid ∧ n.type = m.type ∧ n.stats.statsType = m.stats.statsType := by
  have hfields : s.segments.map (fun n => (n.xid, n.type, n.stats.statsType)) =
      (Chunks.groups s.weight maxLength s.items).map fun _ => (m.xid, m.type, m.stats.statsType) := by
    rw [s.segments_eq, map_markMore (fun _ => rfl), List.map_map]
    refine List.map_congr_left fun g _ => ?_
    have hstatsType : (s.message g).stats.statsType = m.stats.statsType := s.statsType_build g
    simp only [Function.comp_apply, s.type_message g, hstatsType]
    rfl
  intro n hn
  have hmem := List.mem_map_of_mem (f := fun n => (n.xid, n.type, n.stats.statsType)) hn
  rw [hfields] at hmem
  obtain ⟨g, -, hg⟩ := List.mem_map.mp hmem
  simp only [Prod.mk.injEq] at hg
  exact ⟨hg.1.symm, hg.2.1.symm, hg.2.2.symm⟩

/-- The number of segments, from the lengths of the entries. -/
theorem length_segments_iff (s : Split m) (hitems : s.items ≠ []) :
    s.segments.length = 1 ↔ m.stats.OneSegment := by
  rw [s.oneSegment_iff, ← Chunks.groups_eq_singleton hitems (by decide), s.segments_eq, length_markMore,
    List.length_map, List.length_eq_one_iff]
  constructor
  · rintro ⟨g, hg⟩
    have hflatten := Chunks.groups_flatten s.weight maxLength s.items
    rw [hg] at hflatten ⊢
    simpa using hflatten
  · exact fun h => ⟨_, h⟩

/-- Where copying changes none of the entries, it changes nothing. -/
theorem assigned_of_settled (h : m.stats.Settled) : m.assigned = m := by
  have hstats : m.stats.assignEach = m.stats := by
    cases hs : m.stats with
    | array kind a =>
      rw [hs] at h
      refine congrArg (Stats.array kind) (assign_of_settled fun e he => ?_)
      exact h (e.1, 0, e.2) (List.mem_map.mpr ⟨e, he, rfl⟩)
    | queue a =>
      rw [hs] at h
      refine congrArg Stats.queue (assignEach_of_settled fun port hport q hq => ?_)
      exact h (port.1, q.1, q.2) (List.mem_flatMap.mpr ⟨port, hport, List.mem_map.mpr ⟨q, hq, rfl⟩⟩)
    | plain type n noArray body => rfl
  unfold assigned
  rw [hstats]

/-- Entries that copying leaves as they are can be copied as often as need be. -/
theorem settled_iff : m.stats.Settled ↔
    m.stats.copiesTwice = true ∧ m.assigned.stats.entries = m.stats.entries := by
  have hentries : m.assigned.stats.entries = m.stats.entries.map fun e => (e.1, e.2.1, Entry.assign e.2.2) :=
    Stats.entries_assignEach m.stats
  have hsame : m.assigned.stats.entries = m.stats.entries ↔
      ∀ e ∈ m.stats.entries, Entry.assign e.2.2 = e.2.2 := by
    rw [hentries]
    constructor
    · intro h e he
      have hmap := List.map_eq_map_iff.mp (h.trans (List.map_id _).symm) e he
      exact (Prod.mk.inj (Prod.mk.inj hmap).2).2
    · intro h
      refine (List.map_congr_left fun e he => ?_).trans (List.map_id _)
      rw [h e he]
      rfl
  rw [hsame]
  unfold Stats.Settled Stats.copiesTwice
  simp only [Entry.settled_iff, List.all_eq_true, Bool.and_eq_true]
  constructor
  · intro h
    refine ⟨fun e he => ⟨(h e he).1, ?_⟩, fun e he => (h e he).2⟩
    rw [(h e he).2]
    exact (h e he).1
  · rintro ⟨hcopies, hassign⟩ e he
    exact ⟨(hcopies e he).1, hassign e he⟩

section

variable (hversion : m.version = Openflow13.OFP_VERSION) (hlong : segmentationThreshold < m.length)
  (harray : hasArray m.stats.type m.stats.statsType = true) (hkeyed : m.stats.Keyed) (hmore : m.more = false)
  {p : Segments ε} (hnew : p.pendingSegments.find? m.xid = none)

include hversion hlong harray hkeyed hmore hnew

theorem settled_of_reassembled (h : Reassembled m p) :
    m.stats.Settled ∧ (m.stats.OneSegment ∨ p.pendingSegments.size + 1 < p.pendingSegmentsMax) := by
  have hv : m.version ≠ Openflow10.OFP_VERSION := by rw [hversion]; decide
  obtain ⟨ms, hms, -, -, -, hreceive⟩ := h
  have hsplit := handling_of_long hversion hlong harray
  unfold SplitOrThrown at hsplit
  split at hsplit
  next htwice =>
    obtain ⟨s, hs⟩ := hsplit
    have hitems := s.items_ne_nil hlong
    obtain rfl := Handling.segments.inj (hs.symm.trans hms)
    have harrive : (s.segments.map fun n => (0, n)).map Prod.snd = s.segments := by simp
    obtain ⟨r, -, -, -, -, -, hr, hres, -⟩ := hreceive (s.segments.map fun n => (0, n)) harrive
    have hroom : s.segments.length = 1 ∨ p.pendingSegments.size + 1 < p.pendingSegmentsMax := by
      by_contra hno
      obtain ⟨hseveral, hfull⟩ := not_or.mp hno
      have hthrown := receive_refused s hv hmore hitems hnew hseveral hfull harrive
      rw [hres] at hthrown
      simp at hthrown
    obtain ⟨hdelivered, -⟩ := receive_segments s hkeyed.assignEach hv hmore hitems hnew hroom harrive
    obtain rfl : r = s.message s.items := by
      have hlast := congrArg List.getLast? (hres.symm.trans hdelivered)
      simpa [show m.assigned.xid = m.xid from rfl] using hlast
    have hsettled := settled_iff.mpr ⟨htwice, s.entries_build.symm.trans hr⟩
    refine ⟨hsettled, hroom.imp_left fun hone => ?_⟩
    rw [length_segments_iff s hitems, assigned_of_settled hsettled] at hone
    exact hone
  next htwice => cases hsplit.symm.trans hms

theorem reassembled_of_settled (hsettled : m.stats.Settled)
    (hroom : m.stats.OneSegment ∨ p.pendingSegments.size + 1 < p.pendingSegmentsMax) : Reassembled m p := by
  have hv : m.version ≠ Openflow10.OFP_VERSION := by rw [hversion]; decide
  obtain ⟨htwice, hentries⟩ := settled_iff.mp hsettled
  have hsplit := handling_of_long hversion hlong harray
  rw [SplitOrThrown, if_pos htwice] at hsplit
  obtain ⟨s, hs⟩ := hsplit
  have hitems := s.items_ne_nil hlong
  have hclear : ∀ n ∈ (Chunks.groups s.weight maxLength s.items).map s.message, n.more = false := by
    intro n hn
    obtain ⟨g, -, rfl⟩ := List.mem_map.mp hn
    exact hmore
  have hflags := more_markMore hclear
  have htype : m.assigned.type = m.type := by rw [assigned_of_settled hsettled]
  have hstatsType : m.assigned.stats.statsType = m.stats.statsType := Stats.statsType_assignEach m.stats
  have hfields := fields_segments s
  rw [htype, hstatsType] at hfields
  refine ⟨s.segments, hs, hfields, hflags.1, hflags.2, fun timed htimed => ?_⟩
  have hroom' : s.segments.length = 1 ∨ p.pendingSegments.size + 1 < p.pendingSegmentsMax := by
    refine hroom.imp_left fun hone => ?_
    rw [length_segments_iff s hitems, assigned_of_settled hsettled]
    exact hone
  obtain ⟨hres, hpending⟩ := receive_segments s hkeyed.assignEach hv hmore hitems hnew hroom' htimed
  exact ⟨s.message s.items, rfl, rfl, (s.type_message s.items).trans htype,
    (s.statsType_build s.items).trans hstatsType, hmore, s.entries_build.trans hentries, hres, hpending⟩

end

/-- **Segmentation and reassembly are inverse** exactly where copying changes
none of the entries, and the message makes a single segment or the peer, which
has no transaction under the xid, has room for it beside one more. -/
theorem segments_reassembled_iff {m : Multipart ε} (hversion : m.version = Openflow13.OFP_VERSION)
    (hlong : segmentationThreshold < m.length) (harray : hasArray m.stats.type m.stats.statsType = true)
    (hkeyed : m.stats.Keyed) (hmore : m.more = false) {p : Segments ε}
    (hnew : p.pendingSegments.find? m.xid = none) :
    Reassembled m p ↔
      m.stats.Settled ∧ (m.stats.OneSegment ∨ p.pendingSegments.size + 1 < p.pendingSegmentsMax) := by
  constructor
  · exact settled_of_reassembled hversion hlong harray hkeyed hmore hnew
  · rintro ⟨hsettled, hroom⟩
    exact reassembled_of_settled hversion hlong harray hkeyed hmore hnew hsettled hroom

/-- 60 flows of 1520 octets each, and a peer with room for two transactions. -/
theorem segments_reassembled_iff_flows :
    Reassembled (flowReply 60 1520) (new 2 60) ↔
      (flowReply 60 1520).stats.Settled ∧ ((flowReply 60 1520).stats.OneSegment ∨ 0 + 1 < 2) :=
  segments_reassembled_iff (m := flowReply 60 1520) (p := new 2 60) rfl (by decide +kernel) rfl
    ⟨by decide +kernel, by decide +kernel⟩ rfl rfl

/-- Statistics of flows that match on a packet register. -/
def registerReply (n : Nat) : Multipart RegisterFlow where
  version := Openflow13.OFP_VERSION
  xid := 7
  statsFlags := 0
  stats := .array .flow (Omap.ofList (List.replicate n ⟨[(3, 5)]⟩))

theorem length_registerReply (n : Nat) : (registerReply n).length = 16 + n * 64 := by
  have hvalues : (Omap.ofList (List.replicate n (⟨[(3, 5)]⟩ : RegisterFlow))).entries.map Prod.snd =
      List.replicate n ⟨[(3, 5)]⟩ := Omap.values_ofList _
  have htotal : ∀ es : List (Nat × RegisterFlow), es.map Prod.snd = List.replicate es.length ⟨[(3, 5)]⟩ →
      Chunks.total (fun e => Entry.length e.2) es = es.length * 64 := by
    intro es
    induction es with
    | nil => exact fun _ => rfl
    | cons e es ih =>
      intro h
      obtain ⟨he, hes⟩ := List.cons_eq_cons.mp h
      have hentry : Entry.length e.2 = 64 := by
        rw [show e.2 = _ from he]
        decide +kernel
      rw [Chunks.total, ih hes, hentry, List.length_cons]
      omega
  have hsize : (Omap.ofList (List.replicate n (⟨[(3, 5)]⟩ : RegisterFlow))).entries.length = n := by
    simpa using congrArg List.length hvalues
  show 16 + Chunks.total _ _ = _
  rw [htotal _ (by rw [hvalues, hsize]), hsize]

theorem keyed_registerReply {n : Nat} (h : n ≤ 4294967296) : (registerReply n).stats.Keyed := by
  refine ⟨?_, ?_⟩
  · rw [Omap.keys_ofList, Omap.size_ofList]
  · rw [Omap.size_ofList, List.length_replicate]
    exact h

theorem not_settled_registerReply (n : Nat) : ¬ (registerReply (n + 1)).stats.Settled := by
  intro h
  have hfirst : (0, ⟨[(3, 5)]⟩) ∈ (Omap.ofList (List.replicate (n + 1) (⟨[(3, 5)]⟩ : RegisterFlow))).entries := by
    simp [Omap.ofList, List.range_succ_eq_map, List.replicate_succ]
  have hentry : some RegisterFlow.bare = some ⟨[(3, 5)]⟩ := h (0, 0, _) (List.mem_map.mpr ⟨_, hfirst, rfl⟩)
  exact absurd hentry (by decide)

/-- The packet registers of 1200 flows do not arrive. -/
theorem registers_lost : (registerReply 1200).version = Openflow13.OFP_VERSION ∧
    segmentationThreshold < (registerReply 1200).length ∧ (registerReply 1200).stats.Keyed ∧
    (registerReply 1200).more = false ∧ ¬ Reassembled (registerReply 1200) (new 64 60) := by
  have hlong : segmentationThreshold < (registerReply 1200).length := by
    rw [length_registerReply]
    decide
  have hkeyed : (registerReply 1200).stats.Keyed := keyed_registerReply (by decide)
  refine ⟨rfl, hlong, hkeyed, rfl, fun h => ?_⟩
  have hsettled := (settled_of_reassembled rfl hlong rfl hkeyed rfl rfl h).1
  exact not_settled_registerReply 1199 hsettled

end Segments

end RoflCommon
