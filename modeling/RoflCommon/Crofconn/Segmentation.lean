/-
The segmentation of long multipart messages: `segment_and_send_message` and
the eleven `segment_*` functions it chooses from.

The functions fill a new array from the keys of the message's array while it
is shorter than `maxLength`, make a message of it, and begin the next one
while keys are left; all messages but the last get the MORE flag. Every entry
is copied into the new array and copied again into the message, and a copy may
be less than the entry. The length is looked at before an entry is added, so
the last entry of a segment may take it as far past `maxLength` as its copy is
long (`segments_fit_iff`).
-/
import RoflCommon.Openflow.Multipart

namespace RoflCommon

/-- `DEFAULT_SEGMENTATION_THRESHOLD`, which nothing changes. -/
def segmentationThreshold : Nat := 65535

/-- `MAX_LENGTH`. -/
def maxLength : Nat := 64000

/-- What is done with a message: it is sent as it is, or as its segments, which
are queued whatever the queue's size, or nothing is done and `MSG_IGNORED`
returned, or an entry cannot be copied, before anything is queued. -/
inductive Handling (ε : Type)
  | send
  | segments (ms : List (Multipart ε))
  | ignored
  | thrown
deriving DecidableEq

/-- What a `segment_*` function comes to. -/
def Handling.ofSegments {ε : Type} : Option (List (Multipart ε)) → Handling ε
  | some ms => .segments ms
  | none => .thrown

namespace Multipart

variable {ε : Type}

/-- The MORE flag is set on all segments but the last. -/
def markMore : List (Multipart ε) → List (Multipart ε)
  | [] => []
  | [m] => [m]
  | m :: n :: ms => m.setMore :: markMore (n :: ms)

section

variable [Entry ε]

/-! ## The segments -/

/-- The `segment_*` functions of classes with an array of entries under one key.
The entries are copied into the arrays, and the arrays into the messages. -/
def segmentArray (m : Multipart ε) (kind : ArrayKind) (array : Entries ε) : Option (List (Multipart ε)) :=
  let arrays := Chunks.pieces (fun (b : Entries ε) e => b.insert e.1 (Entry.assign e.2)) Entries.length maxLength
    .empty array.size array.entries
  if array.copies && arrays.all Entries.copies then
    some (markMore (arrays.map fun b => { m with stats := .array kind b.assign }))
  else none

def segmentTableFeaturesStatsRequest (m : Multipart ε) := m.segmentArray .tableFeaturesRequest
def segmentFlowStatsReply (m : Multipart ε) := m.segmentArray .flow
def segmentTableStatsReply (m : Multipart ε) := m.segmentArray .table
def segmentPortStatsReply (m : Multipart ε) := m.segmentArray .portStats
def segmentGroupStatsReply (m : Multipart ε) := m.segmentArray .group
def segmentGroupDescStatsReply (m : Multipart ε) := m.segmentArray .groupDesc
def segmentTableFeaturesStatsReply (m : Multipart ε) := m.segmentArray .tableFeatures
def segmentPortDescStatsReply (m : Multipart ε) := m.segmentArray .portDesc
def segmentMeterStatsReply (m : Multipart ε) := m.segmentArray .meter
def segmentMeterConfigStatsReply (m : Multipart ε) := m.segmentArray .meterConfig

/-- The keys are the ports: all queues of a port go into one segment. -/
def segmentQueueStatsReply (m : Multipart ε) (array : Queues ε) : Option (List (Multipart ε)) :=
  let arrays := Chunks.pieces (fun (b : Queues ε) port => b.addPort port.1 (Entries.assign port.2)) Queues.length
    maxLength .empty array.size array.entries
  if array.copies && arrays.all Queues.copies then
    some (markMore (arrays.map fun b => { m with stats := .queue b.assign }))
  else none

/-- The choice `segment_and_send_message` makes. -/
def handling (m : Multipart ε) : Handling ε :=
  if m.length ≤ segmentationThreshold then .send
  else if m.version = Openflow12.OFP_VERSION then
    match m.stats with
    | .array .flow a => .ofSegments (m.segmentFlowStatsReply a)
    | .array .table a => .ofSegments (m.segmentTableStatsReply a)
    | .queue a => .ofSegments (m.segmentQueueStatsReply a)
    | .array .group a => .ofSegments (m.segmentGroupStatsReply a)
    | .array .groupDesc a => .ofSegments (m.segmentGroupDescStatsReply a)
    | _ => .ignored
  else if m.version = Openflow13.OFP_VERSION then
    match m.stats with
    | .array .tableFeaturesRequest a => .ofSegments (m.segmentTableFeaturesStatsRequest a)
    | .array .flow a => .ofSegments (m.segmentFlowStatsReply a)
    | .array .table a => .ofSegments (m.segmentTableStatsReply a)
    | .array .portStats a => .ofSegments (m.segmentPortStatsReply a)
    | .queue a => .ofSegments (m.segmentQueueStatsReply a)
    | .array .group a => .ofSegments (m.segmentGroupStatsReply a)
    | .array .groupDesc a => .ofSegments (m.segmentGroupDescStatsReply a)
    | .array .tableFeatures a => .ofSegments (m.segmentTableFeaturesStatsReply a)
    | .array .portDesc a => .ofSegments (m.segmentPortDescStatsReply a)
    | .array .meter a => .ofSegments (m.segmentMeterStatsReply a)
    | .array .meterConfig a => .ofSegments (m.segmentMeterConfigStatsReply a)
    | .plain .reply n _ _ => if n = Openflow13.OFPMP_METER_FEATURES then .send else .ignored
    | .plain .request _ _ _ => .ignored
  else .ignored

/-! ## What the segments are -/

omit [Entry ε] in
/-- What does not depend on the flags is the same of the marked segments. -/
theorem map_markMore {α : Type} {f : Multipart ε → α} (hf : ∀ m, f m.setMore = f m) (ms : List (Multipart ε)) :
    (markMore ms).map f = ms.map f := by
  induction ms with
  | nil => rfl
  | cons m ms ih =>
    cases ms with
    | nil => rfl
    | cons n ms => simpa [markMore, hf] using ih

omit [Entry ε] in
theorem length_markMore (ms : List (Multipart ε)) : (markMore ms).length = ms.length := by
  simpa using congrArg List.length (map_markMore (f := fun _ => ()) (fun _ => rfl) ms)

end

end Multipart

namespace Stats

variable {ε : Type} [Entry ε]

/-- All entries but the last, or all ports, stay below `maxLength` together. -/
def OneSegment : Stats ε → Prop
  | array _ a => Chunks.total (fun e => Entry.length e.2) a.entries.dropLast < maxLength
  | queue a => Chunks.total (fun port => Entries.length port.2) a.entries.dropLast < maxLength
  | plain _ _ _ _ => True

/-- No entry, or for queue statistics no port, that is added to a segment takes
it past `max`. -/
def Fits (max : Nat) : Stats ε → Prop
  | array _ a => Chunks.Fits (fun e => Entry.length e.2) maxLength max 0 a.entries
  | queue a => Chunks.Fits (fun port => Entries.length port.2) maxLength max 0 a.entries
  | plain _ _ _ _ => True

/-- The number of keys, or of the octets of the body. -/
def size : Stats ε → Nat
  | array _ a => a.size
  | queue a => a.size
  | plain _ _ _ body => body.length

theorem length_eq_zero {s : Stats ε} (h : s.size = 0) : s.length = 0 := by
  cases s with
  | array kind a =>
    have hempty : a.entries = [] := List.length_eq_zero_iff.mp h
    simp [length, Entries.length, hempty, Chunks.total]
  | queue a =>
    have hempty : a.entries = [] := List.length_eq_zero_iff.mp h
    simp [length, Queues.length, hempty, Chunks.total]
  | plain type n noArray body => exact h

theorem size_assignEach (s : Stats ε) : s.assignEach.size = s.size := by
  cases s <;> simp [size, assignEach, Entries.assign, Queues.assignEach, Omap.size, Omap.map]

/-- Every entry can be copied, and its copy as well. -/
def copiesTwice (s : Stats ε) : Bool :=
  s.entries.all fun e => Entry.copies e.2.2 && Entry.copies (Entry.assign e.2.2)

end Stats

namespace Multipart

variable {ε : Type}

section

variable [Entry ε]

/-- A message taken apart: its items, in the order of their keys, and what a
message built from some of them is. Copying changes nothing any more. -/
structure Split (m : Multipart ε) where
  Item : Type
  items : List Item
  weight : Item → Nat
  build : List Item → Stats ε
  type_build : ∀ g, (build g).type = m.stats.type
  statsType_build : ∀ g, (build g).statsType = m.stats.statsType
  size_items : items.length = m.stats.size
  length_items : m.stats.length = Chunks.total weight items
  length_build : ∀ g, g <:+: items → (build g).length = Chunks.total weight g
  entries_build : (build items).entries = m.stats.entries
  oneSegment_iff : m.stats.OneSegment ↔ Chunks.total weight items.dropLast < maxLength
  fits_iff : ∀ max, m.stats.Fits max ↔ Chunks.Fits weight maxLength max 0 items
  clone_build : ∀ g, g <:+: items → (build g).clone = build g
  merge_build : m.stats.Keyed → ∀ g g', g ++ g' <+: items → (build g).merge (build g') = build (g ++ g')

/-- The message with its entries copied. -/
def assigned (m : Multipart ε) : Multipart ε := { m with stats := m.stats.assignEach }

/-- A long message has entries, and so has its copy. -/
theorem Split.items_ne_nil {m : Multipart ε} (s : Split m.assigned) (hlong : segmentationThreshold < m.length) :
    s.items ≠ [] := by
  intro h
  have hsize : m.stats.size = 0 := by
    have hitems : s.items.length = m.stats.assignEach.size := s.size_items
    rw [h, Stats.size_assignEach] at hitems
    exact hitems.symm
  have hheader : m.headerSize ≤ 16 := by
    unfold headerSize
    split <;> decide
  have hzero := Stats.length_eq_zero hsize
  unfold Multipart.length segmentationThreshold at hlong
  omega

/-- The segments of a message. -/
def Split.segments {m : Multipart ε} (s : Split m) : List (Multipart ε) :=
  markMore ((Chunks.groups s.weight maxLength s.items).map fun g => { m with stats := s.build g })

omit [Entry ε] in
/-- The array filled with entries that follow each other in one. -/
theorem entries_fill {a : Entries ε} {g : List (Nat × ε)} (h : g <:+: a.entries) :
    (Omap.empty.insertAll g : Entries ε).entries = g := by
  have hasc := a.ascending.sublist h.sublist
  have hinsert : (Omap.empty.insertAll g : Entries ε).entries = [] ++ g :=
    Omap.entries_insertAll (by simpa [Omap.empty] using hasc)
  simpa using hinsert

theorem length_fill {a : Entries ε} {g : List (Nat × ε)} (h : g <:+: a.entries) :
    Entries.length (Omap.empty.insertAll g) = Chunks.total (fun e : Nat × ε => Entry.length e.2) g := by
  rw [Entries.length, entries_fill h]

/-- An array of settled entries is the copy of itself. -/
theorem assign_of_settled {a : Entries ε} (h : ∀ e ∈ a.entries, Entry.Settled e.2) : Entries.assign a = a := by
  refine Omap.ext ?_
  have hsame : a.entries.map (fun e => (e.1, Entry.assign e.2)) = a.entries.map id :=
    List.map_congr_left fun e he => by rw [(h e he).assign_eq]; rfl
  simpa [Entries.assign, Omap.map] using hsame

theorem assign_fill {a : Entries ε} (h : ∀ e ∈ a.entries, Entry.Settled e.2) {g : List (Nat × ε)}
    (hg : g <:+: a.entries) : Entries.assign (Omap.empty.insertAll g) = Omap.empty.insertAll g := by
  refine assign_of_settled fun e he => h e ?_
  rw [entries_fill hg] at he
  exact hg.subset he

/-- The array filled with the queues of ports. -/
def fillPorts (g : List (Nat × Omap Nat ε)) : Queues ε :=
  g.foldl (fun (b : Queues ε) port => b.addPort port.1 port.2) .empty

omit [Entry ε] in
theorem entries_fillPorts {a : Queues ε} {g : List (Nat × Omap Nat ε)} (h : g <:+: a.entries) :
    (fillPorts g).entries = g.filter Queues.used := by
  have hasc := a.ascending.sublist h.sublist
  have hadd : (fillPorts g).entries = [] ++ g.filter Queues.used :=
    Queues.addPorts_entries (by simpa [Omap.empty] using hasc)
  simpa using hadd

/-- The queues of all ports are settled. -/
def SettledPorts (a : Queues ε) : Prop := ∀ port ∈ a.entries, ∀ q ∈ port.2.entries, Entry.Settled q.2

theorem assignEach_of_settled {a : Queues ε} (h : SettledPorts a) : a.assignEach = a := by
  refine Omap.ext ?_
  have hsame : a.entries.map (fun port => (port.1, Entries.assign port.2)) = a.entries.map id :=
    List.map_congr_left fun port hport => by rw [assign_of_settled (h port hport)]; rfl
  simpa [Queues.assignEach, Omap.map] using hsame

theorem SettledPorts.fillPorts {a : Queues ε} (h : SettledPorts a) {g : List (Nat × Omap Nat ε)}
    (hg : g <:+: a.entries) : SettledPorts (fillPorts g) := by
  intro port hport
  rw [entries_fillPorts hg] at hport
  exact h port (hg.subset (List.mem_of_mem_filter hport))

theorem assign_fillPorts {a : Queues ε} (h : SettledPorts a) {g : List (Nat × Omap Nat ε)} (hg : g <:+: a.entries) :
    (fillPorts g).assign = fillPorts g := by
  refine Omap.ext ?_
  rw [Queues.entries_assign, assignEach_of_settled (h.fillPorts hg), entries_fillPorts hg, List.filter_filter]
  simp

/-- Ports without queues weigh nothing. -/
theorem total_used (g : List (Nat × Omap Nat ε)) :
    Chunks.total (fun port => Entries.length port.2) (g.filter Queues.used) =
      Chunks.total (fun port => Entries.length port.2) g := by
  induction g with
  | nil => rfl
  | cons port g ih =>
    by_cases h : Queues.used port
    · simp [h, Chunks.total, ih]
    · have hempty : port.2.entries = [] := by simpa [Queues.used] using h
      have hzero : Entries.length port.2 = 0 := by simp [Entries.length, hempty, Chunks.total]
      simp [h, Chunks.total, ih, hzero]

theorem length_fillPorts {a : Queues ε} {g : List (Nat × Omap Nat ε)} (h : g <:+: a.entries) :
    Queues.length (fillPorts g) = Chunks.total (fun port => Entries.length port.2) g := by
  rw [Queues.length, entries_fillPorts h, total_used]

def splitArray {m : Multipart ε} {kind : ArrayKind} {a : Entries ε} (h : m.stats = .array kind a)
    (hset : ∀ e ∈ a.entries, Entry.Settled e.2) : Split m where
  Item := Nat × ε
  items := a.entries
  weight e := Entry.length e.2
  build g := .array kind (Omap.empty.insertAll g)
  type_build _ := by simp [h, Stats.type]
  statsType_build _ := by simp [h, Stats.statsType]
  size_items := by rw [h]; rfl
  length_items := by rw [h]; rfl
  length_build _ hg := length_fill hg
  entries_build := by simp [Stats.entries, entries_fill (List.infix_refl a.entries), h]
  oneSegment_iff := by rw [h]; rfl
  fits_iff _ := by rw [h]; rfl
  clone_build _ hg := congrArg (Stats.array kind) (assign_fill hset hg)
  merge_build hkeyed g g' hg := by
    have hinfix := (List.infix_append g g' []).trans (by simpa using hg.isInfix)
    have hleft := entries_fill (a := a) (g := g) ((List.prefix_append g g').trans hg).isInfix
    have hright := entries_fill (a := a) (g := g') hinfix
    have hall := entries_fill (a := a) (g := g ++ g') hg.isInfix
    have hkeyed : kind.Keyed a := by simpa [h, Stats.Keyed] using hkeyed
    have hadd := ArrayKind.entries_add hkeyed (a := Omap.empty.insertAll g) (b := Omap.empty.insertAll g')
      (by rw [hleft, hright]; exact hg)
    refine congrArg (Stats.array kind) (Omap.ext ?_)
    rw [assign_fill hset hinfix, hadd, hleft, hright, hall]

omit [Entry ε] in
/-- Ports without queues have no entries. -/
theorem flatMap_used (ports : List (Nat × Omap Nat ε)) :
    (ports.filter Queues.used).flatMap (fun port => port.2.entries.map fun q => (port.1, q.1, q.2)) =
      ports.flatMap fun port => port.2.entries.map fun q => (port.1, q.1, q.2) := by
  induction ports with
  | nil => rfl
  | cons port ports ih =>
    by_cases h : Queues.used port
    · simp [h, ih]
    · have hempty : port.2.entries = [] := by simpa [Queues.used] using h
      simp [h, ih, hempty]

def splitQueue {m : Multipart ε} {a : Queues ε} (h : m.stats = .queue a) (hset : SettledPorts a) : Split m where
  Item := Nat × Omap Nat ε
  items := a.entries
  weight port := Entries.length port.2
  build g := .queue (fillPorts g).assign
  type_build _ := by simp [h, Stats.type]
  statsType_build _ := by simp [h, Stats.statsType]
  size_items := by rw [h]; rfl
  length_items := by rw [h]; rfl
  length_build g hg := by rw [assign_fillPorts hset hg]; exact length_fillPorts hg
  entries_build := by
    have hall := List.infix_refl a.entries
    rw [assign_fillPorts hset hall, h]
    simp only [Stats.entries, entries_fillPorts hall]
    exact flatMap_used a.entries
  oneSegment_iff := by rw [h]; rfl
  fits_iff _ := by rw [h]; rfl
  clone_build g hg := by simp [Stats.clone, assign_fillPorts hset hg]
  merge_build _ g g' hg := by
    have hl := ((List.prefix_append g g').trans hg).isInfix
    have hr := (List.infix_append g g' []).trans (by simpa using hg.isInfix)
    have hadd := Queues.entries_add (a := fillPorts g) (b := fillPorts g') (by
      rw [entries_fillPorts hl, entries_fillPorts hr, ← List.filter_append]
      exact (a.ascending.sublist hg.sublist).filter _)
    rw [assign_fillPorts hset hl, assign_fillPorts hset hr, assign_fillPorts hset hg.isInfix]
    refine congrArg Stats.queue (Omap.ext ?_)
    rw [assignEach_of_settled (hset.fillPorts hr), hadd, entries_fillPorts hl, entries_fillPorts hr,
      entries_fillPorts hg.isInfix, List.filter_append, List.filter_filter]
    simp

theorem pieces_array (a : Entries ε) :
    Chunks.pieces (fun (b : Entries ε) e => b.insert e.1 (Entry.assign e.2)) Entries.length maxLength .empty a.size
      a.entries = (Chunks.groups (fun e => Entry.length e.2) maxLength a.assign.entries).map Omap.empty.insertAll := by
  have hmap := Chunks.pieces_map (fun (b : Entries ε) e => b.insert e.1 e.2) Entries.length maxLength .empty
    (fun e : Nat × ε => (e.1, Entry.assign e.2)) a.size a.entries
  have hsize : a.assign.entries.length ≤ a.size := by simp [Entries.assign, Omap.map, Omap.size]
  exact hmap.trans (Chunks.pieces_eq (by decide) hsize fun g (hg : g <:+: a.assign.entries) => length_fill hg)

theorem pieces_queue (a : Queues ε) :
    Chunks.pieces (fun (b : Queues ε) port => b.addPort port.1 (Entries.assign port.2)) Queues.length maxLength .empty
      a.size a.entries =
        (Chunks.groups (fun port => Entries.length port.2) maxLength a.assignEach.entries).map fillPorts := by
  have hmap := Chunks.pieces_map (fun (b : Queues ε) port => b.addPort port.1 port.2) Queues.length maxLength .empty
    (fun port : Nat × Omap Nat ε => (port.1, Entries.assign port.2)) a.size a.entries
  have hsize : a.assignEach.entries.length ≤ a.size := by simp [Queues.assignEach, Omap.map, Omap.size]
  exact hmap.trans (Chunks.pieces_eq (by decide) hsize fun g (hg : g <:+: a.assignEach.entries) => length_fillPorts hg)

/-- What holds of the items of all groups holds of all items. -/
theorem forall_groups {α : Type} {w : α → Nat} {xs : List α} {p : α → Prop} :
    (∀ g ∈ Chunks.groups w maxLength xs, ∀ x ∈ g, p x) ↔ ∀ x ∈ xs, p x := by
  conv_rhs => rw [← Chunks.groups_flatten w maxLength xs]
  simp only [List.mem_flatten]
  exact ⟨fun h x ⟨g, hg, hx⟩ => h g hg x hx, fun h g hg x hx => h x ⟨g, hg, hx⟩⟩

/-- The second copy is made where all entries can be copied again. -/
theorem copies_pieces_array (a : Entries ε) :
    ((Chunks.groups (fun e => Entry.length e.2) maxLength a.assign.entries).map Omap.empty.insertAll).all
      Entries.copies = true ↔ ∀ e ∈ a.entries, Entry.copies (Entry.assign e.2) = true := by
  have hgroups := Chunks.groups_flatten (fun e : Nat × ε => Entry.length e.2) maxLength a.assign.entries
  have heach : ∀ g ∈ Chunks.groups (fun e : Nat × ε => Entry.length e.2) maxLength a.assign.entries,
      (Entries.copies (Omap.empty.insertAll g) = true ↔ ∀ e ∈ g, Entry.copies e.2 = true) := by
    intro g hg
    have hinfix : g <:+: a.assign.entries := hgroups ▸ List.infix_of_mem_flatten hg
    simp only [Entries.copies, List.all_eq_true, entries_fill hinfix]
  simp only [List.all_eq_true, List.forall_mem_map]
  rw [forall₂_congr heach, forall_groups]
  exact List.forall_mem_map

theorem copies_pieces_queue (a : Queues ε) :
    ((Chunks.groups (fun port => Entries.length port.2) maxLength a.assignEach.entries).map fillPorts).all
      Queues.copies = true ↔
        ∀ port ∈ a.entries, ∀ q ∈ port.2.entries, Entry.copies (Entry.assign q.2) = true := by
  have hgroups := Chunks.groups_flatten (fun port : Nat × Omap Nat ε => Entries.length port.2) maxLength
    a.assignEach.entries
  have heach : ∀ g ∈ Chunks.groups (fun port : Nat × Omap Nat ε => Entries.length port.2) maxLength
      a.assignEach.entries, (Queues.copies (fillPorts g) = true ↔
        ∀ port ∈ g, ∀ q ∈ port.2.entries, Entry.copies q.2 = true) := by
    intro g hg
    have hinfix : g <:+: a.assignEach.entries := hgroups ▸ List.infix_of_mem_flatten hg
    simp only [Queues.copies, Entries.copies, List.all_eq_true, entries_fillPorts hinfix, List.mem_filter]
    refine ⟨fun h port hport q hq => h port ⟨hport, ?_⟩ q hq, fun h port hport => h port hport.1⟩
    simpa [Queues.used] using List.ne_nil_of_mem hq
  simp only [List.all_eq_true, List.forall_mem_map]
  rw [forall₂_congr heach, forall_groups]
  exact List.forall_mem_map.trans (forall₂_congr fun port _ => List.forall_mem_map)

theorem copiesTwice_array {kind : ArrayKind} {a : Entries ε} :
    (Stats.array kind a).copiesTwice = true ↔
      ∀ e ∈ a.entries, Entry.copies e.2 = true ∧ Entry.copies (Entry.assign e.2) = true := by
  simp [Stats.copiesTwice, Stats.entries]

theorem copiesTwice_queue {a : Queues ε} :
    (Stats.queue a).copiesTwice = true ↔ ∀ port ∈ a.entries, ∀ q ∈ port.2.entries,
      Entry.copies q.2 = true ∧ Entry.copies (Entry.assign q.2) = true := by
  simp [Stats.copiesTwice, Stats.entries]

/-- The message is copied and split, if its entries can be copied twice. -/
def SplitOrThrown (m : Multipart ε) (h : Handling ε) : Prop :=
  if m.stats.copiesTwice then ∃ s : Split m.assigned, h = .segments s.segments else h = .thrown

theorem splitOrThrown_array {m : Multipart ε} {kind : ArrayKind} {a : Entries ε} (h : m.stats = .array kind a) :
    m.SplitOrThrown (.ofSegments (m.segmentArray kind a)) := by
  have hcopies : (a.copies && ((Chunks.groups (fun e => Entry.length e.2) maxLength a.assign.entries).map
      Omap.empty.insertAll).all Entries.copies) = m.stats.copiesTwice := by
    rw [Bool.eq_iff_iff, Bool.and_eq_true, copies_pieces_array, h, copiesTwice_array]
    simp only [Entries.copies, List.all_eq_true, forall_and]
  unfold SplitOrThrown segmentArray
  simp only [pieces_array, hcopies]
  split
  next htwice =>
    rw [h, copiesTwice_array] at htwice
    have hset : ∀ e ∈ a.assign.entries, Entry.Settled e.2 := by
      intro e he
      obtain ⟨d, hd, rfl⟩ := List.mem_map.mp he
      exact Entry.settled_assign (htwice d hd).1 (htwice d hd).2
    have hstats : m.assigned.stats = .array kind a.assign := by rw [assigned, h]; rfl
    refine ⟨splitArray hstats hset, congrArg Handling.segments (congrArg markMore ?_)⟩
    rw [List.map_map]
    refine List.map_congr_left fun g hg => ?_
    have hinfix : g <:+: a.assign.entries :=
      Chunks.groups_flatten (fun e : Nat × ε => Entry.length e.2) maxLength a.assign.entries ▸
        List.infix_of_mem_flatten hg
    simp only [Function.comp_apply, assign_fill hset hinfix]
    rfl
  next => rfl

theorem splitOrThrown_queue {m : Multipart ε} {a : Queues ε} (h : m.stats = .queue a) :
    m.SplitOrThrown (.ofSegments (m.segmentQueueStatsReply a)) := by
  have hcopies : (a.copies && ((Chunks.groups (fun port => Entries.length port.2) maxLength
      a.assignEach.entries).map fillPorts).all Queues.copies) = m.stats.copiesTwice := by
    rw [Bool.eq_iff_iff, Bool.and_eq_true, copies_pieces_queue, h, copiesTwice_queue]
    simp only [Queues.copies, Entries.copies, List.all_eq_true, forall_and]
  unfold SplitOrThrown segmentQueueStatsReply
  simp only [pieces_queue, hcopies]
  split
  next htwice =>
    rw [h, copiesTwice_queue] at htwice
    have hset : SettledPorts a.assignEach := by
      intro port hport q hq
      obtain ⟨p, hp, rfl⟩ := List.mem_map.mp hport
      obtain ⟨r, hr, rfl⟩ := List.mem_map.mp hq
      exact Entry.settled_assign (htwice p hp r hr).1 (htwice p hp r hr).2
    have hstats : m.assigned.stats = .queue a.assignEach := by rw [assigned, h]; rfl
    refine ⟨splitQueue hstats hset, congrArg Handling.segments (congrArg markMore ?_)⟩
    rw [List.map_map]
    rfl
  next => rfl

/-- Whichever of the functions is chosen, it is that of the message's class. -/
theorem handling_eq_ofSegments {m : Multipart ε} {h : Handling ε} (hm : m.handling = h) (hsend : h ≠ .send)
    (hignored : h ≠ .ignored) :
    (∃ kind a, m.stats = .array kind a ∧ h = .ofSegments (m.segmentArray kind a)) ∨
      ∃ a, m.stats = .queue a ∧ h = .ofSegments (m.segmentQueueStatsReply a) := by
  unfold handling at hm
  cases hs : m.stats with
  | array kind a =>
    left
    refine ⟨kind, a, rfl, ?_⟩
    cases kind <;> simp only [hs] at hm <;> split_ifs at hm <;>
      first | exact hm.symm | exact absurd hm.symm hsend | exact absurd hm.symm hignored
  | queue a =>
    right
    refine ⟨a, rfl, ?_⟩
    simp only [hs] at hm
    split_ifs at hm <;> first | exact hm.symm | exact absurd hm.symm hsend | exact absurd hm.symm hignored
  | plain type n noArray body =>
    simp only [hs] at hm
    cases type <;> simp only at hm <;> split_ifs at hm <;>
      first | exact absurd hm.symm hsend | exact absurd hm.symm hignored

theorem exists_split_of_segments {m : Multipart ε} {ms : List (Multipart ε)}
    (h : m.SplitOrThrown (.segments ms)) :
    m.stats.copiesTwice = true ∧ ∃ s : Split m.assigned, ms = s.segments := by
  unfold SplitOrThrown at h
  split at h
  next htwice =>
    obtain ⟨s, hs⟩ := h
    exact ⟨htwice, s, Handling.segments.inj hs⟩
  next => cases h

/-- **What is segmented is copied and split.** -/
theorem exists_split {m : Multipart ε} {ms : List (Multipart ε)} (h : m.handling = .segments ms) :
    m.stats.copiesTwice = true ∧ ∃ s : Split m.assigned, ms = s.segments := by
  refine exists_split_of_segments ?_
  obtain ⟨kind, a, hs, ho⟩ | ⟨a, hs, ho⟩ := handling_eq_ofSegments h (by simp) (by simp)
  · rw [ho]
    exact splitOrThrown_array hs
  · rw [ho]
    exact splitOrThrown_queue hs

/-! ## The length of the segments -/

/-- No entry, or for queue statistics no port, that is copied into a segment
takes it past the 65535 octets of the length field. -/
def SegmentsFit (m : Multipart ε) : Prop := m.stats.assignEach.Fits (65535 - m.headerSize)

theorem Split.length_le_iff {m : Multipart ε} (s : Split m) :
    (∀ g ∈ s.segments, g.length ≤ 65535) ↔ Chunks.Fits s.weight maxLength (65535 - m.headerSize) 0 s.items := by
  have hheader : m.headerSize ≤ 65535 := by
    unfold headerSize
    split <;> decide
  have hlength : s.segments.map length =
      (Chunks.groups s.weight maxLength s.items).map fun g => m.headerSize + Chunks.total s.weight g := by
    rw [segments, map_markMore (fun _ => rfl), List.map_map]
    refine List.map_congr_left fun g hg => ?_
    have hinfix : g <:+: s.items := Chunks.groups_flatten s.weight maxLength s.items ▸
      List.infix_of_mem_flatten hg
    exact congrArg (m.headerSize + ·) (s.length_build g hinfix)
  rw [← Chunks.fits_iff (by decide)]
  constructor
  · intro h g hg
    have hmem : m.headerSize + Chunks.total s.weight g ∈ s.segments.map length := by
      rw [hlength]
      exact List.mem_map_of_mem hg
    obtain ⟨n, hn, heq⟩ := List.mem_map.mp hmem
    have := h n hn
    omega
  · intro h n hn
    have hmem : n.length ∈ s.segments.map length := List.mem_map_of_mem hn
    rw [hlength] at hmem
    obtain ⟨g, hg, heq⟩ := List.mem_map.mp hmem
    have := h g hg
    omega

end

end Multipart

/-! ## The length field -/

/-- The length field of a packed message. -/
def Cofmsg.lengthField (m : Cofmsg) : Nat := be16toh (m.pack.getD 2 0) (m.pack.getD 3 0)

/-- The length field has 16 bits. -/
theorem Cofmsg.lengthField_eq (m : Cofmsg) : m.lengthField = m.length % 65536 := by
  have hhi : (m.pack.getD 2 0).toNat = m.length % 65536 / 256 % 256 := by simp [pack, packHeader, htobe16]
  have hlo : (m.pack.getD 3 0).toNat = m.length % 65536 % 256 := by simp [pack, packHeader, htobe16]
  unfold lengthField be16toh
  rw [hhi, hlo]
  omega

theorem Cofmsg.lengthField_eq_length {m : Cofmsg} : m.lengthField = m.length ↔ m.length ≤ 65535 := by
  rw [lengthField_eq]
  omega

namespace Multipart

variable {ε : Type} [Entry ε]

/-- **The segments of a message all fit the length field exactly when no entry
takes a segment past it**; what fits is sent with its length in the field. -/
theorem segments_fit_iff {m : Multipart ε} {ms : List (Multipart ε)} (h : m.handling = .segments ms) :
    ((∀ g ∈ ms, g.length ≤ 65535) ∧ ∀ c : Cofmsg, c.length ≤ 65535 → c.lengthField = c.length) ↔
      m.SegmentsFit := by
  have hfield : ∀ c : Cofmsg, c.length ≤ 65535 → c.lengthField = c.length := fun c => Cofmsg.lengthField_eq_length.mpr
  rw [and_iff_left hfield]
  obtain ⟨-, s, rfl⟩ := exists_split h
  exact s.length_le_iff.trans (s.fits_iff _).symm

/-- Entries of which no copy has more than 1520 octets never take a segment too far. -/
theorem segmentsFit_of_le {m : Multipart ε} {kind : ArrayKind} {a : Entries ε} (hs : m.stats = .array kind a)
    (h : ∀ e ∈ a.entries, Entry.length (Entry.assign e.2) ≤ 1520) : m.SegmentsFit := by
  have hheader : m.headerSize ≤ 16 := by
    unfold headerSize
    split <;> decide
  rw [SegmentsFit, hs]
  refine Chunks.fits_of_le (by decide) 0 fun e he => ?_
  obtain ⟨d, hd, rfl⟩ := List.mem_map.mp he
  have hle := h d hd
  simp only [maxLength]
  omega

end Multipart

namespace Multipart

/-- A reply with the statistics of `n` flows of `length` octets each. -/
def flowReply (n length : Nat) : Multipart Nat where
  version := Openflow13.OFP_VERSION
  xid := 7
  statsFlags := 0
  stats := .array .flow (Omap.empty.insertAll ((List.range n).map fun k => (k, length)))

/-- Of 60 flows of 1520 octets each, 43 fill the first segment. -/
theorem segments_fit_iff_flows : ∃ ms, (flowReply 60 1520).handling = .segments ms ∧
    (((∀ g ∈ ms, g.length ≤ 65535) ∧ ∀ c : Cofmsg, c.length ≤ 65535 → c.lengthField = c.length) ↔
      (flowReply 60 1520).SegmentsFit) :=
  ⟨_, rfl, segments_fit_iff rfl⟩

/-- 33 flows of 1992 octets each come to one segment of 65752 octets, which is
sent with 216 in its length field. -/
theorem segment_too_long : ∃ g, (flowReply 33 1992).handling = .segments [g] ∧ g.length = 65752 ∧
    ¬ g.length ≤ 65535 ∧ g.toCofmsg.lengthField = 216 := by
  have hlength : (flowReply 33 1992).length = 65752 := by decide +kernel
  refine ⟨flowReply 33 1992, by decide +kernel, hlength, by omega, ?_⟩
  rw [Cofmsg.lengthField_eq, length_toCofmsg, hlength]

end Multipart

end RoflCommon
