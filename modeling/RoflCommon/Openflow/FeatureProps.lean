/-
The ids in the properties of table features, as they come from the wire.

The loop over the ids of OXMs goes on by the ids it knows. One of another class it looks at
again, and for good (`Tfp.FindsOther`).

Ids of next tables, actions and OXMs are read from the octets that the length tells. The loop
over instructions counts what the caller has, and takes what is in the padding for ids unless
a length there ends it (`Tfp.InstructionsEnd`).
-/
import RoflCommon.Lib.Iterate
import RoflCommon.Openflow.Coftables

namespace RoflCommon

open Octets Iterate

namespace Tfp

/-! ## The loop over OXMs -/

/-- What the length leaves, and the ids so far. -/
structure OxmList where
  left : List UInt8
  oxmIds : List UInt32
  oxmIdsExp : List UInt64
deriving DecidableEq

/-- The loop of `coftable_feature_prop_oxm::unpack`. -/
def oxmBody : Body OxmList TfpException := fun s =>
  if s.left.length < 4 then .ok none
  else
    let oxmClass := field s.left 0 2
    if oxmClass = 0 then .ok none
    else if oxmClass = Openflow.OFPXMC_EXPERIMENTER.toNat then
      if s.left.length < 8 then .ok none
      else .ok (some { s with left := s.left.drop 8, oxmIdsExp := s.oxmIdsExp ++ [.ofNat (field s.left 0 8)] })
    else if oxmClass = Openflow.OFPXMC_OPENFLOW_BASIC.toNat then
      .ok (some { s with left := s.left.drop 4, oxmIds := s.oxmIds ++ [.ofNat (field s.left 0 4)] })
    -- do nothing ?
    else .ok (some s)

/-- The checks before the loop. -/
def oxmList (buf : List UInt8) : Except TfpException OxmList :=
  if buf.length < 4 then .error .propInval
  else
    let length := field buf 2 2
    if length < 4 then .error .propInval
    else if buf.length < padded length then .error .propInval
    else .ok ⟨(buf.drop 4).take (length - 4), [], []⟩

/-- `unpack` comes to an end with `r`. -/
def OxmUnpacks (buf : List UInt8) (r : Except TfpException Tfp) : Prop :=
  match oxmList buf with
  | .error e => r = .error e
  | .ok s => ∃ t, Ends oxmBody s (.ok t) ∧ r = .ok (oxm t.oxmIds t.oxmIdsExp)

/-- An id in a list. -/
inductive OxmListId
  | basic (id : UInt32)
  | exp (id : UInt64)
deriving DecidableEq

namespace OxmListId

def octets : OxmListId → List UInt8
  | basic id => Octets.octets 4 id.toNat
  | exp id => Octets.octets 8 id.toNat

/-- It is of the class that the loop reads as such. -/
def WellFormed : OxmListId → Prop
  | basic id => id.toNat / 256 ^ 2 = Openflow.OFPXMC_OPENFLOW_BASIC.toNat
  | exp id => id.toNat / 256 ^ 6 = Openflow.OFPXMC_EXPERIMENTER.toNat

def oxmIds (ids : List OxmListId) : List UInt32 :=
  ids.filterMap fun i => match i with
    | basic id => some id
    | exp _ => none

def oxmIdsExp (ids : List OxmListId) : List UInt64 :=
  ids.filterMap fun i => match i with
    | basic _ => none
    | exp id => some id

end OxmListId

/-- It comes to an end, each turn takes a header at least, and of a list of ids it
returns these. -/
structure OxmMeets (buf : List UInt8) : Prop where
  terminates : ∃ r, OxmUnpacks buf r
  consumes : ∀ s₀ s s', oxmList buf = .ok s₀ → Relation.ReflTransGen (Step oxmBody) s₀ s → Step oxmBody s s' →
    s'.left.length + 4 ≤ s.left.length
  exact : ∀ s₀ ids, oxmList buf = .ok s₀ → s₀.left = ids.flatMap OxmListId.octets → (∀ i ∈ ids, i.WellFormed) →
    OxmUnpacks buf (.ok (oxm (OxmListId.oxmIds ids) (OxmListId.oxmIdsExp ids)))

/-- Behind ids that are read there is one of another class. -/
inductive FindsOther : List UInt8 → Prop
  | here {l : List UInt8} (hlen : 4 ≤ l.length)
      (hclass : field l 0 2 ∉ [0, Openflow.OFPXMC_EXPERIMENTER.toNat, Openflow.OFPXMC_OPENFLOW_BASIC.toNat]) : FindsOther l
  | basic {l : List UInt8} (hlen : 4 ≤ l.length) (hclass : field l 0 2 = Openflow.OFPXMC_OPENFLOW_BASIC.toNat)
      (hrest : FindsOther (l.drop 4)) : FindsOther l
  | exp {l : List UInt8} (hlen : 8 ≤ l.length) (hclass : field l 0 2 = Openflow.OFPXMC_EXPERIMENTER.toNat)
      (hrest : FindsOther (l.drop 8)) : FindsOther l

variable {s s' : OxmList}

theorem oxmBody_basic (hlen : 4 ≤ s.left.length) (hclass : field s.left 0 2 = Openflow.OFPXMC_OPENFLOW_BASIC.toNat) :
    oxmBody s = .ok (some ⟨s.left.drop 4, s.oxmIds ++ [.ofNat (field s.left 0 4)], s.oxmIdsExp⟩) := by
  simp only [oxmBody, hclass, if_neg (Nat.not_lt.mpr hlen)]
  rfl

theorem oxmBody_exp (hlen : 8 ≤ s.left.length) (hclass : field s.left 0 2 = Openflow.OFPXMC_EXPERIMENTER.toNat) :
    oxmBody s = .ok (some ⟨s.left.drop 8, s.oxmIds, s.oxmIdsExp ++ [.ofNat (field s.left 0 8)]⟩) := by
  have hfour : ¬s.left.length < 4 := by omega
  simp only [oxmBody, hclass, if_neg hfour, if_neg (Nat.not_lt.mpr hlen)]
  rfl

/-- What a turn does. -/
theorem oxmBody_cases (s : OxmList) :
    oxmBody s = .ok none ∧ ¬FindsOther s.left ∨
    4 ≤ s.left.length ∧ field s.left 0 2 = Openflow.OFPXMC_OPENFLOW_BASIC.toNat ∧
      oxmBody s = .ok (some ⟨s.left.drop 4, s.oxmIds ++ [.ofNat (field s.left 0 4)], s.oxmIdsExp⟩) ∨
    8 ≤ s.left.length ∧ field s.left 0 2 = Openflow.OFPXMC_EXPERIMENTER.toNat ∧
      oxmBody s = .ok (some ⟨s.left.drop 8, s.oxmIds, s.oxmIdsExp ++ [.ofNat (field s.left 0 8)]⟩) ∨
    oxmBody s = .ok (some s) ∧ FindsOther s.left := by
  by_cases hlen : s.left.length < 4
  · refine .inl ⟨if_pos hlen, fun h => ?_⟩
    cases h <;> omega
  by_cases hzero : field s.left 0 2 = 0
  · refine .inl ⟨by simp [oxmBody, hlen, hzero], fun h => ?_⟩
    cases h with
    | here _ hclass => exact hclass (by simp [hzero])
    | basic _ hclass =>
      rw [hzero] at hclass
      exact absurd hclass (by decide)
    | exp _ hclass =>
      rw [hzero] at hclass
      exact absurd hclass (by decide)
  by_cases hexp : field s.left 0 2 = Openflow.OFPXMC_EXPERIMENTER.toNat
  · have hbasic : field s.left 0 2 ≠ Openflow.OFPXMC_OPENFLOW_BASIC.toNat := by
      rw [hexp]
      decide
    by_cases height : s.left.length < 8
    · refine .inl ⟨by simp only [oxmBody, if_neg hlen, if_neg hzero, if_pos hexp, if_pos height], fun h => ?_⟩
      cases h with
      | here _ hclass => exact hclass (by simp [hexp])
      | basic _ hclass => exact hbasic hclass
      | exp hlen _ => omega
    · exact .inr (.inr (.inl ⟨by omega, hexp, oxmBody_exp (by omega) hexp⟩))
  by_cases hbasic : field s.left 0 2 = Openflow.OFPXMC_OPENFLOW_BASIC.toNat
  · exact .inr (.inl ⟨by omega, hbasic, oxmBody_basic (by omega) hbasic⟩)
  · exact .inr (.inr (.inr ⟨by simp only [oxmBody, if_neg hlen, if_neg hzero, if_neg hexp, if_neg hbasic],
      .here (by omega) (by simp [hzero, hexp, hbasic])⟩))

/-- A loop that finds no other class takes a header in each turn, and goes on so. -/
theorem consumes_of_step (hs : ¬FindsOther s.left) (h : oxmBody s = .ok (some s')) :
    ¬FindsOther s'.left ∧ s'.left.length + 4 ≤ s.left.length := by
  rcases oxmBody_cases s with ⟨hend, _⟩ | ⟨hlen, hclass, hnext⟩ | ⟨hlen, hclass, hnext⟩ | ⟨_, hother⟩
  · rw [hend] at h
    cases h
  · rw [hnext] at h
    cases h
    refine ⟨fun hrest => hs (.basic hlen hclass hrest), ?_⟩
    dsimp only
    rw [List.length_drop]
    omega
  · rw [hnext] at h
    cases h
    refine ⟨fun hrest => hs (.exp hlen hclass hrest), ?_⟩
    dsimp only
    rw [List.length_drop]
    omega
  · exact absurd hother hs

theorem oxmBody_ok (s : OxmList) : ∃ o, oxmBody s = .ok o := by
  rcases oxmBody_cases s with ⟨h, _⟩ | ⟨_, _, h⟩ | ⟨_, _, h⟩ | ⟨h, _⟩ <;> exact ⟨_, h⟩

/-- Nothing is thrown in the loop. -/
theorem ends_ok {r : Except TfpException OxmList} (h : Ends oxmBody s r) : ∃ t, r = .ok t := by
  obtain ⟨n, hn⟩ := h
  induction n generalizing s with
  | zero => cases hn
  | succ n ih =>
    obtain ⟨o, ho⟩ := oxmBody_ok s
    rw [run, ho] at hn
    cases o with
    | none => exact ⟨s, (Option.some.inj hn).symm⟩
    | some t => exact ih hn

theorem ends_of_not_findsOther (hs : ¬FindsOther s.left) : ∃ t, Ends oxmBody s (.ok t) := by
  obtain ⟨r, hr⟩ := ends_of_measure (fun s : OxmList => s.left.length) (I := fun s => ¬FindsOther s.left)
    (fun s s' hs h => by
      obtain ⟨hs', hlen⟩ := consumes_of_step hs h
      exact ⟨hs', by omega⟩) hs
  obtain ⟨t, rfl⟩ := ends_ok hr
  exact ⟨t, hr⟩

theorem not_ends_of_findsOther {l : List UInt8} (hl : FindsOther l) (hs : s.left = l) {r : Except TfpException OxmList} :
    ¬Ends oxmBody s r := by
  induction hl generalizing s with
  | here hlen hclass =>
    subst hs
    have hbody : oxmBody s = .ok (some s) := by
      simp only [List.mem_cons, List.not_mem_nil, or_false, not_or] at hclass
      simp only [oxmBody, if_neg (Nat.not_lt.mpr hlen), if_neg hclass.1, if_neg hclass.2.1, if_neg hclass.2.2]
    exact not_ends_of_fixed hbody
  | basic hlen hclass hrest ih =>
    subst hs
    rw [ends_next (oxmBody_basic hlen hclass)]
    exact ih rfl
  | exp hlen hclass hrest ih =>
    subst hs
    rw [ends_next (oxmBody_exp hlen hclass)]
    exact ih rfl

/-- Ids that are well-formed are taken one by one. -/
theorem ends_octets {ids : List OxmListId} (h : ∀ i ∈ ids, i.WellFormed) (a : List UInt32) (b : List UInt64) :
    Ends oxmBody ⟨ids.flatMap OxmListId.octets, a, b⟩
      (.ok ⟨[], a ++ OxmListId.oxmIds ids, b ++ OxmListId.oxmIdsExp ids⟩) := by
  induction ids generalizing a b with
  | nil =>
    have hend : oxmBody ⟨[], a, b⟩ = .ok none := rfl
    exact (ends_done hend).mpr (by simp [OxmListId.oxmIds, OxmListId.oxmIdsExp])
  | cons i ids ih =>
    have hi := h i List.mem_cons_self
    have htail := fun a b => ih (fun j hj => h j (List.mem_cons_of_mem i hj)) a b
    rw [List.flatMap_cons]
    cases i with
    | basic id =>
      have hclass : field (octets 4 id.toNat ++ ids.flatMap OxmListId.octets) 0 2 =
          Openflow.OFPXMC_OPENFLOW_BASIC.toNat := (field_class (n := 2) id.toNat_lt _).trans hi
      have hid : field (octets 4 id.toNat ++ ids.flatMap OxmListId.octets) 0 4 = id.toNat :=
        field_octets_of_lt id.toNat_lt _
      have hlen : 4 ≤ (octets 4 id.toNat ++ ids.flatMap OxmListId.octets).length := by
        rw [List.length_append, length_octets]
        omega
      have hbody := @oxmBody_basic ⟨octets 4 id.toNat ++ ids.flatMap OxmListId.octets, a, b⟩ hlen hclass
      have hrest := htail (a ++ [id]) b
      dsimp only at hbody
      rw [hid, UInt32.ofNat_toNat, List.drop_left' (length_octets 4 _)] at hbody
      rw [List.append_assoc] at hrest
      exact (ends_next hbody).mpr hrest
    | exp id =>
      have hclass : field (octets 8 id.toNat ++ ids.flatMap OxmListId.octets) 0 2 =
          Openflow.OFPXMC_EXPERIMENTER.toNat := (field_class (n := 6) id.toNat_lt _).trans hi
      have hid : field (octets 8 id.toNat ++ ids.flatMap OxmListId.octets) 0 8 = id.toNat :=
        field_octets_of_lt id.toNat_lt _
      have hlen : 8 ≤ (octets 8 id.toNat ++ ids.flatMap OxmListId.octets).length := by
        rw [List.length_append, length_octets]
        omega
      have hbody := @oxmBody_exp ⟨octets 8 id.toNat ++ ids.flatMap OxmListId.octets, a, b⟩ hlen hclass
      have hrest := htail a (b ++ [id])
      dsimp only at hbody
      rw [hid, UInt64.ofNat_toNat, List.drop_left' (length_octets 8 _)] at hbody
      rw [List.append_assoc] at hrest
      exact (ends_next hbody).mpr hrest

/-- The list comes to an end as it should if and only if it finds no other class. -/
theorem oxmMeets_iff (buf : List UInt8) : OxmMeets buf ↔ ∀ s, oxmList buf = .ok s → ¬FindsOther s.left := by
  constructor
  · rintro ⟨⟨r, hr⟩, _, _⟩ s hs hother
    rw [OxmUnpacks, hs] at hr
    obtain ⟨t, ht, _⟩ := hr
    exact not_ends_of_findsOther hother rfl ht
  · intro h
    refine ⟨?_, ?_, ?_⟩
    · cases hs : oxmList buf with
      | error e => exact ⟨.error e, by rw [OxmUnpacks, hs]⟩
      | ok s =>
        obtain ⟨t, ht⟩ := ends_of_not_findsOther (h s hs)
        exact ⟨.ok (oxm t.oxmIds t.oxmIdsExp), by rw [OxmUnpacks, hs]; exact ⟨t, ht, rfl⟩⟩
    · intro s₀ s s' hs hsteps hstep
      have hkept : ¬FindsOther s.left := by
        clear hstep
        induction hsteps with
        | refl => exact h s₀ hs
        | tail _ hstep ih => exact (consumes_of_step ih hstep).1
      exact (consumes_of_step hkept hstep).2
    · intro s₀ ids hs hleft hids
      have hstart : s₀ = ⟨ids.flatMap OxmListId.octets, [], []⟩ := by
        unfold oxmList at hs
        dsimp only at hs
        split_ifs at hs
        cases hs
        rw [← hleft]
      rw [OxmUnpacks, hs, hstart]
      exact ⟨_, ends_octets hids [] [], by simp⟩

/-- A property with the id of a class of NXM. -/
def nxmProperty : List UInt8 := [0, 8, 0, 8, 0, 1, 0, 4]

/-- The loop does not end. -/
theorem nxmProperty_diverges : ¬OxmMeets nxmProperty ∧ ∀ r, ¬OxmUnpacks nxmProperty r := by
  have hlist : oxmList nxmProperty = .ok ⟨[0, 1, 0, 4], [], []⟩ := by decide
  have hstays : oxmBody ⟨[0, 1, 0, 4], [], []⟩ = .ok (some ⟨[0, 1, 0, 4], [], []⟩) := by decide
  have hdiverges : ∀ r, ¬OxmUnpacks nxmProperty r := fun r hr => by
    rw [OxmUnpacks, hlist] at hr
    obtain ⟨t, ht, _⟩ := hr
    exact not_ends_of_fixed hstays ht
  exact ⟨fun h => h.terminates.elim hdiverges, hdiverges⟩

/-! ## Where the ids come from -/

/-- Offset and size of each id that the loop over instructions reads, from an offset on. -/
def instructionPlaces (buf : List UInt8) : ℕ → ℕ → Except TfpException (List (ℕ × ℕ))
  | 0, _ => .ok []
  | n + 1, off =>
    if buf.drop off = [] then .ok []
    else if (buf.drop off).length < 4 then .error .overrun
    else
      let len := (TypeLen.ofBuf (buf.drop off)).len.toNat
      if len < 4 then .ok []
      else if (buf.drop off).length + 4 < len then .error .overrun
      else do return (off, 4) :: (← instructionPlaces buf n (off + len))

/-- The same of the loop over OXMs, in what the length leaves. -/
def oxmPlaces : ℕ → ℕ → List UInt8 → Except TfpException (List (ℕ × ℕ))
  | 0, _, _ => .ok []
  | n + 1, off, left =>
    if left.length < 4 then .ok []
    else
      let oxmClass := field left 0 2
      if oxmClass = 0 then .ok []
      else if oxmClass = Openflow.OFPXMC_EXPERIMENTER.toNat then
        if left.length < 8 then .ok [] else do return (off, 8) :: (← oxmPlaces n (off + 8) (left.drop 8))
      else if oxmClass = Openflow.OFPXMC_OPENFLOW_BASIC.toNat then do
        return (off, 4) :: (← oxmPlaces n (off + 4) (left.drop 4))
      else .error .diverges

def places (kind : TfpKind) (buf : List UInt8) : Except TfpException (List (ℕ × ℕ)) :=
  let length := field buf 2 2
  match kind with
  | .instructions => instructionPlaces buf buf.length 4
  | .nextTables => .ok ((List.range (length - 4)).map fun i => (4 + i, 1))
  | .actions => .ok ((List.range ((length - 4) / 4)).map fun i => (4 + 4 * i, 4))
  | .oxm => oxmPlaces buf.length 4 ((buf.drop 4).take (length - 4))

/-- The property with the ids at these places. -/
def idsAt (kind : TfpKind) (buf : List UInt8) (ps : List (ℕ × ℕ)) : Tfp :=
  match kind with
  | .instructions => instructions (ps.map fun p => .ofBuf (buf.drop p.1))
  | .nextTables => nextTables (ps.map fun p => buf.getD p.1 0)
  | .actions => actions (ps.map fun p => .ofBuf (buf.drop p.1))
  | .oxm =>
    oxm (ps.filterMap fun p => if p.2 = 4 then some (.ofNat (field buf p.1 4)) else none)
      (ps.filterMap fun p => if p.2 = 8 then some (.ofNat (field buf p.1 8)) else none)

theorem instructionIds_eq (buf : List UInt8) (n off : ℕ) :
    instructionIds n (buf.drop off) =
      (instructionPlaces buf n off).map (List.map fun p => TypeLen.ofBuf (buf.drop p.1)) := by
  induction n generalizing off with
  | zero => rfl
  | succ n ih =>
    rw [instructionIds, instructionPlaces]
    split
    · rfl
    split
    · rfl
    dsimp only
    split
    · rfl
    split
    · rfl
    rw [List.drop_drop, ih]
    cases instructionPlaces buf n (off + (TypeLen.ofBuf (buf.drop off)).len.toNat) <;> rfl

theorem actionIds_eq (buf : List UInt8) (n off : ℕ) :
    actionIds n (buf.drop off) = (List.range n).map fun i => TypeLen.ofBuf (buf.drop (off + 4 * i)) := by
  induction n generalizing off with
  | zero => rfl
  | succ n ih =>
    rw [actionIds, List.drop_drop, ih, List.range_succ_eq_map, List.map_cons, List.map_map]
    simp [Function.comp_def, Nat.mul_add, Nat.add_assoc, Nat.add_comm 4]

theorem oxmIds_eq {buf : List UInt8} {n off m : ℕ} :
    oxmIds n ((buf.drop off).take m) = (oxmPlaces n off ((buf.drop off).take m)).map fun ps =>
      (ps.filterMap fun p => if p.2 = 4 then some (.ofNat (field buf p.1 4)) else none,
        ps.filterMap fun p => if p.2 = 8 then some (.ofNat (field buf p.1 8)) else none) := by
  induction n generalizing off m with
  | zero => rfl
  | succ n ih =>
    have hfield : ∀ k, k ≤ ((buf.drop off).take m).length → field ((buf.drop off).take m) 0 k = field buf off k :=
      fun k hk => by
        rw [List.length_take] at hk
        rw [field_take (by omega), field_drop, Nat.add_zero]
    have hdrop : ∀ k, ((buf.drop off).take m).drop k = (buf.drop (off + k)).take (m - k) := fun k => by
      rw [List.drop_take, List.drop_drop]
    rw [oxmIds, oxmPlaces]
    split
    · rfl
    dsimp only
    split
    · rfl
    split
    · split
      · rfl
      · next height =>
        rw [hfield 8 (by omega), hdrop, ih]
        cases oxmPlaces n (off + 8) ((buf.drop (off + 8)).take (m - 8)) with
        | error e => rfl
        | ok ps => rfl
    · split
      · next hfour _ _ _ =>
        rw [hfield 4 (by omega), hdrop, ih]
        cases oxmPlaces n (off + 4) ((buf.drop (off + 4)).take (m - 4)) with
        | error e => rfl
        | ok ps => rfl
      · rfl

/-- A property has the ids from the places where they are read. -/
theorem unpack_eq_places {kind : TfpKind} {buf : List UInt8} (hfour : 4 ≤ field buf 2 2)
    (hpad : padded (field buf 2 2) ≤ buf.length) : unpack kind buf = (places kind buf).map (idsAt kind buf) := by
  have hle := le_padded (field buf 2 2)
  rw [unpack, if_neg (by omega)]
  dsimp only
  rw [if_neg (by omega), if_neg (by omega)]
  cases kind with
  | instructions =>
    dsimp only
    rw [instructionIds_eq, places]
    cases instructionPlaces buf buf.length 4 <;> rfl
  | nextTables =>
    have hids : (buf.drop 4).take (field buf 2 2 - 4) =
        (List.range (field buf 2 2 - 4)).map fun i => buf.getD (4 + i) 0 := by
      refine List.ext_getElem ?_ fun i hi hi' => ?_
      · rw [List.length_take_of_le (by rw [List.length_drop]; omega), List.length_map, List.length_range]
      · rw [List.length_map, List.length_range] at hi'
        rw [List.getElem_take, List.getElem_drop, List.getElem_map, List.getElem_range,
          List.getD_eq_getElem?_getD, List.getElem?_eq_getElem (by omega), Option.getD_some]
    dsimp only
    rw [hids, places]
    simp only [Except.map, idsAt, List.map_map]
    rfl
  | actions =>
    dsimp only
    rw [actionIds_eq, places]
    simp only [Except.map, idsAt, List.map_map]
    rfl
  | oxm =>
    dsimp only
    rw [oxmIds_eq, places]
    cases oxmPlaces buf.length 4 ((buf.drop 4).take (field buf 2 2 - 4)) <;> rfl

/-! ## Ids from their own octets -/

/-- Both buffers have the same outcome, nothing is read behind them, and every id comes
from the octets behind the header that the length tells. -/
structure Confined (kind : TfpKind) (length : ℕ) (buf buf' : List UInt8) : Prop where
  same : unpack kind buf = unpack kind buf'
  inside : unpack kind buf ≠ .error .overrun ∧ unpack kind buf' ≠ .error .overrun
  within : ∀ b ∈ [buf, buf'], ∀ ps, places kind b = .ok ps → ∀ p ∈ ps, 4 ≤ p.1 ∧ p.1 + p.2 ≤ length

/-- Behind the ids that lie within the length (each goes on by its own) there are four octets
that tell a length below four, or the buffer ends. -/
inductive InstructionsEnd (length : ℕ) (buf : List UInt8) : ℕ → Prop
  | buffer {off : ℕ} (hle : buf.length ≤ off) (hend : off ≤ buf.length + 4) : InstructionsEnd length buf off
  | short {off : ℕ} (hin : off + 4 ≤ buf.length) (hlen : field buf (off + 2) 2 < 4) : InstructionsEnd length buf off
  | next {off : ℕ} (hin : off + 4 ≤ length) (hlen : 4 ≤ field buf (off + 2) 2)
      (hrest : InstructionsEnd length buf (off + field buf (off + 2) 2)) : InstructionsEnd length buf off

variable {length : ℕ} {buf buf' : List UInt8}

theorem len_ofBuf (buf : List UInt8) (off : ℕ) : (TypeLen.ofBuf (buf.drop off)).len.toNat = field buf (off + 2) 2 := by
  have hlt : field buf (off + 2) 2 < 65536 := field_lt buf (off + 2) 2
  show (UInt16.ofNat (field (buf.drop off) 2 2)).toNat = _
  rw [field_drop, UInt16.toNat_ofNat', Nat.mod_eq_of_lt hlt]

/-- What the loop over instructions does at an offset. -/
theorem instructionPlaces_succ (buf : List UInt8) (n off : ℕ) :
    instructionPlaces buf (n + 1) off =
      if buf.length ≤ off then .ok []
      else if buf.length < off + 4 then .error .overrun
      else if field buf (off + 2) 2 < 4 then .ok []
      else if buf.length + 4 < off + field buf (off + 2) 2 then .error .overrun
      else do return (off, 4) :: (← instructionPlaces buf n (off + field buf (off + 2) 2)) := by
  rw [instructionPlaces]
  dsimp only
  rw [len_ofBuf, List.length_drop]
  by_cases hle : buf.length ≤ off
  · rw [if_pos (List.drop_eq_nil_of_le hle), if_pos hle]
  · rw [if_neg (by rw [List.drop_eq_nil_iff]; exact hle), if_neg hle]
    have hfour : buf.length - off < 4 ↔ buf.length < off + 4 := by omega
    have hlong : buf.length - off + 4 < field buf (off + 2) 2 ↔ buf.length + 4 < off + field buf (off + 2) 2 := by omega
    simp only [hfour, hlong]

theorem instructionsEnd_of_within {n off : ℕ} (hoff : off ≤ buf.length + 4) (hn : buf.length ≤ off + 4 * n)
    {ps : List (ℕ × ℕ)} (h : instructionPlaces buf n off = .ok ps) (hps : ∀ p ∈ ps, p.1 + p.2 ≤ length) :
    InstructionsEnd length buf off := by
  induction n generalizing off ps with
  | zero => exact .buffer (by omega) hoff
  | succ n ih =>
    rw [instructionPlaces_succ] at h
    split at h
    · next hend => exact .buffer hend hoff
    split at h
    · cases h
    split at h
    · next hshort => exact .short (by omega) hshort
    split at h
    · cases h
    obtain ⟨qs, hqs, h⟩ := Except.bind_eq_ok.mp h
    cases h
    exact .next (hps (off, 4) List.mem_cons_self) (by omega)
      (ih (by omega) (by omega) hqs fun p hp => hps p (List.mem_cons_of_mem _ hp))

theorem within_of_instructionsEnd (hle : length ≤ buf.length) {n off : ℕ} (hn : buf.length ≤ off + 4 * n)
    (h : InstructionsEnd length buf off) :
    ∃ ps, instructionPlaces buf n off = .ok ps ∧ ∀ p ∈ ps, off ≤ p.1 ∧ p.1 + p.2 ≤ length ∧ p.2 = 4 := by
  induction h generalizing n with
  | @buffer off hend hoff =>
    refine ⟨[], ?_, fun p hp => by cases hp⟩
    cases n with
    | zero => rfl
    | succ n => rw [instructionPlaces_succ, if_pos hend]
  | @short off hin hlen =>
    obtain ⟨n, rfl⟩ : ∃ m, n = m + 1 := ⟨n - 1, by omega⟩
    rw [instructionPlaces_succ, if_neg (by omega), if_neg (by omega), if_pos hlen]
    exact ⟨[], rfl, fun p hp => by cases hp⟩
  | @next off hin hlen hrest ih =>
    obtain ⟨n, rfl⟩ : ∃ m, n = m + 1 := ⟨n - 1, by omega⟩
    have hoff : off + field buf (off + 2) 2 ≤ buf.length + 4 := by
      cases hrest <;> omega
    obtain ⟨qs, hqs, hall⟩ := @ih n (by omega)
    rw [instructionPlaces_succ, if_neg (by omega), if_neg (by omega), if_neg (by omega), if_neg (by omega), hqs]
    refine ⟨_, rfl, fun p hp => ?_⟩
    rcases List.mem_cons.mp hp with rfl | hp
    · exact ⟨Nat.le_refl _, hin, rfl⟩
    · obtain ⟨hq, hq'⟩ := hall p hp
      exact ⟨by omega, hq'⟩

theorem field_eq_of_take (h : buf.take length = buf'.take length) {off n : ℕ} (hin : off + n ≤ length) :
    field buf off n = field buf' off n := by
  rw [← field_take hin, h, field_take hin]

/-- Loops that both stay within the length come to the same ids. -/
theorem instructionPlaces_eq (hlen : buf.length = buf'.length) (hagree : buf.take length = buf'.take length) {n off : ℕ}
    (hle : length ≤ buf.length) (hn : buf.length ≤ off + 4 * n) (h : InstructionsEnd length buf off)
    (h' : InstructionsEnd length buf' off) : instructionPlaces buf n off = instructionPlaces buf' n off := by
  induction h generalizing n with
  | @buffer off hend hoff =>
    cases n with
    | zero => rfl
    | succ n => rw [instructionPlaces_succ, instructionPlaces_succ, if_pos hend, if_pos (by omega)]
  | @short off hin hshort =>
    obtain ⟨n, rfl⟩ : ∃ m, n = m + 1 := ⟨n - 1, by omega⟩
    have hshort' : field buf' (off + 2) 2 < 4 := by
      cases h' with
      | buffer => omega
      | short _ hshort' => exact hshort'
      | next hin _ _ => rwa [← field_eq_of_take hagree (by omega)]
    rw [instructionPlaces_succ, instructionPlaces_succ, if_neg (by omega), if_neg (by omega), if_pos hshort,
      if_neg (by omega), if_neg (by omega), if_pos hshort']
  | @next off hin hfour hrest ih =>
    obtain ⟨n, rfl⟩ : ∃ m, n = m + 1 := ⟨n - 1, by omega⟩
    have hsame := field_eq_of_take hagree (show off + 2 + 2 ≤ length by omega)
    have hrest' : InstructionsEnd length buf' (off + field buf (off + 2) 2) := by
      cases h' with
      | buffer => omega
      | short _ hshort' => omega
      | next _ _ hrest' => rwa [hsame]
    rw [instructionPlaces_succ, instructionPlaces_succ, ← hsame, ← hlen, ih (by omega) hrest']

/-- What an id takes. -/
def sizes : TfpKind → List ℕ
  | .instructions | .actions => [4]
  | .nextTables => [1]
  | .oxm => [4, 8]

theorem within_oxmPlaces {n off : ℕ} {left : List UInt8} {ps : List (ℕ × ℕ)} (h : oxmPlaces n off left = .ok ps) :
    ∀ p ∈ ps, off ≤ p.1 ∧ p.1 + p.2 ≤ off + left.length ∧ p.2 ∈ sizes .oxm := by
  induction n generalizing off left ps with
  | zero =>
    cases h
    exact fun p hp => by cases hp
  | succ n ih =>
    have hnil : (.ok [] : Except TfpException (List (ℕ × ℕ))) = .ok ps →
        ∀ p ∈ ps, off ≤ p.1 ∧ p.1 + p.2 ≤ off + left.length ∧ p.2 ∈ sizes .oxm := fun h p hp => by
      cases h
      cases hp
    have hcons : ∀ k, k ≤ left.length → k ∈ sizes .oxm →
        (do return (off, k) :: (← oxmPlaces n (off + k) (left.drop k))) = Except.ok ps →
        ∀ p ∈ ps, off ≤ p.1 ∧ p.1 + p.2 ≤ off + left.length ∧ p.2 ∈ sizes .oxm := fun k hk hsize h p hp => by
      obtain ⟨qs, hqs, h⟩ := Except.bind_eq_ok.mp h
      cases h
      rcases List.mem_cons.mp hp with rfl | hp
      · exact ⟨Nat.le_refl _, by dsimp only; omega, hsize⟩
      · obtain ⟨hoff, hin, hq⟩ := ih hqs p hp
        rw [List.length_drop] at hin
        exact ⟨by omega, by omega, hq⟩
    rw [oxmPlaces] at h
    split at h
    · exact hnil h
    dsimp only at h
    split at h
    · exact hnil h
    split at h
    · split at h
      · exact hnil h
      · exact hcons 8 (by omega) (by decide) h
    split at h
    · exact hcons 4 (by omega) (by decide) h
    · cases h

theorem oxmPlaces_ne_overrun (n off : ℕ) (left : List UInt8) : oxmPlaces n off left ≠ .error .overrun := by
  induction n generalizing off left with
  | zero => exact fun h => by cases h
  | succ n ih =>
    have hcons : ∀ k, (do return (off, k) :: (← oxmPlaces n (off + k) (left.drop k))) ≠
        (.error .overrun : Except TfpException (List (ℕ × ℕ))) := fun k h => by
      cases hrest : oxmPlaces n (off + k) (left.drop k) with
      | error e =>
        rw [hrest] at h
        cases h
        exact ih _ _ hrest
      | ok ps =>
        rw [hrest] at h
        cases h
    rw [oxmPlaces]
    split
    · exact fun h => by cases h
    dsimp only
    split
    · exact fun h => by cases h
    split
    · split
      · exact fun h => by cases h
      · exact hcons 8
    split
    · exact hcons 4
    · exact fun h => by cases h

theorem ofBuf_eq (hagree : buf.take length = buf'.take length) {off : ℕ} (hin : off + 4 ≤ length) :
    TypeLen.ofBuf (buf.drop off) = TypeLen.ofBuf (buf'.drop off) := by
  unfold TypeLen.ofBuf
  rw [field_drop, field_drop, field_drop, field_drop, field_eq_of_take hagree (by omega),
    field_eq_of_take hagree (by omega)]

/-- Ids at places within the length are the same. -/
theorem idsAt_eq (hagree : buf.take length = buf'.take length) (kind : TfpKind) {ps : List (ℕ × ℕ)}
    (hps : ∀ p ∈ ps, p.1 + p.2 ≤ length ∧ p.2 ∈ sizes kind) : idsAt kind buf ps = idsAt kind buf' ps := by
  cases kind with
  | instructions =>
    refine congrArg instructions (List.map_congr_left fun p hp => ofBuf_eq hagree ?_)
    obtain ⟨hin, hsize⟩ := hps p hp
    rwa [List.mem_singleton.mp hsize] at hin
  | nextTables =>
    refine congrArg nextTables (List.map_congr_left fun p hp => ?_)
    obtain ⟨hin, hsize⟩ := hps p hp
    rw [List.mem_singleton.mp hsize] at hin
    have hget : ∀ b : List UInt8, b.getD p.1 0 = (b.take length).getD p.1 0 := fun b => by
      rw [List.getD_eq_getElem?_getD, List.getD_eq_getElem?_getD, List.getElem?_take_of_lt (by omega)]
    rw [hget buf, hagree, ← hget buf']
  | actions =>
    refine congrArg actions (List.map_congr_left fun p hp => ofBuf_eq hagree ?_)
    obtain ⟨hin, hsize⟩ := hps p hp
    rwa [List.mem_singleton.mp hsize] at hin
  | oxm =>
    have hfield : ∀ p ∈ ps, ∀ k, p.2 = k → field buf p.1 k = field buf' p.1 k := fun p hp k hk =>
      field_eq_of_take hagree (by rw [← hk]; exact (hps p hp).1)
    refine congrArg₂ oxm (List.filterMap_congr fun p hp => ?_) (List.filterMap_congr fun p hp => ?_)
    · split
      · next hk => rw [hfield p hp 4 hk]
      · rfl
    · split
      · next hk => rw [hfield p hp 8 hk]
      · rfl

theorem instructionPlaces_error {n off : ℕ} {e : TfpException} (h : instructionPlaces buf n off = .error e) :
    e = .overrun := by
  induction n generalizing off with
  | zero => cases h
  | succ n ih =>
    rw [instructionPlaces_succ] at h
    split at h
    · cases h
    split at h
    · exact (Except.error.inj h).symm
    split at h
    · cases h
    split at h
    · exact (Except.error.inj h).symm
    cases hrest : instructionPlaces buf n (off + field buf (off + 2) 2) with
    | error e' =>
      rw [hrest] at h
      cases h
      exact ih hrest
    | ok ps =>
      rw [hrest] at h
      cases h

/-- Places of the other properties: what is behind the length does not count. -/
theorem places_eq {kind : TfpKind} (hkind : kind ≠ .instructions) (hlen : buf.length = buf'.length)
    (hlength : field buf 2 2 = length) (hfour : 4 ≤ length) (hle : length ≤ buf.length)
    (hagree : buf.take length = buf'.take length) :
    places kind buf = places kind buf' ∧ places kind buf ≠ .error .overrun ∧
      ∀ ps, places kind buf = .ok ps → ∀ p ∈ ps, 4 ≤ p.1 ∧ p.1 + p.2 ≤ length ∧ p.2 ∈ sizes kind := by
  have hlength' : field buf' 2 2 = length := by rw [← hlength, field_eq_of_take hagree hfour]
  cases kind with
  | instructions => exact absurd rfl hkind
  | nextTables =>
    simp only [places, hlength, hlength']
    refine ⟨trivial, fun h => (by cases h), fun ps h p hp => ?_⟩
    cases h
    obtain ⟨i, hi, rfl⟩ := List.mem_map.mp hp
    rw [List.mem_range] at hi
    exact ⟨Nat.le_add_right 4 i, by dsimp only; omega, List.mem_singleton.mpr rfl⟩
  | actions =>
    simp only [places, hlength, hlength']
    refine ⟨trivial, fun h => (by cases h), fun ps h p hp => ?_⟩
    cases h
    obtain ⟨i, hi, rfl⟩ := List.mem_map.mp hp
    rw [List.mem_range] at hi
    exact ⟨Nat.le_add_right 4 _, by dsimp only; omega, List.mem_singleton.mpr rfl⟩
  | oxm =>
    have hleft : (buf.drop 4).take (length - 4) = (buf'.drop 4).take (length - 4) := by
      rw [← List.drop_take, ← List.drop_take, hagree]
    have hlong : ((buf.drop 4).take (length - 4)).length = length - 4 :=
      List.length_take_of_le (by rw [List.length_drop]; omega)
    simp only [places, hlength, hlength']
    refine ⟨by rw [hleft, hlen], oxmPlaces_ne_overrun _ _ _, fun ps h p hp => ?_⟩
    obtain ⟨hoff, hin, hsize⟩ := within_oxmPlaces h p hp
    rw [hlong] at hin
    exact ⟨hoff, by omega, hsize⟩

theorem map_ne_overrun {α β : Type} {f : α → β} {r : Except TfpException α} (h : r ≠ .error .overrun) :
    r.map f ≠ .error .overrun := by
  cases r with
  | error e => exact fun he => h (congrArg _ (Except.error.inj he))
  | ok a => exact fun he => by cases he

/-- Where the ids of properties come from: those of instructions do not always come from
the property, the others do. -/
theorem keepsWithin_iff {kind : TfpKind} (hlen : buf.length = buf'.length) (hlength : field buf 2 2 = length)
    (hfour : 4 ≤ length) (hpad : padded length ≤ buf.length) (hagree : buf.take length = buf'.take length) :
    Confined kind length buf buf' ↔
      (kind = .instructions → InstructionsEnd length buf 4 ∧ InstructionsEnd length buf' 4) := by
  have hle := (le_padded length).trans hpad
  have hlength' : field buf' 2 2 = length := by rw [← hlength, field_eq_of_take hagree hfour]
  have hunpack : unpack kind buf = (places kind buf).map (idsAt kind buf) :=
    unpack_eq_places (by rwa [hlength]) (by rwa [hlength])
  have hunpack' : unpack kind buf' = (places kind buf').map (idsAt kind buf') :=
    unpack_eq_places (by rwa [hlength']) (by rwa [hlength', ← hlen])
  by_cases hkind : kind = .instructions
  · subst hkind
    constructor
    · intro h _
      have hend : ∀ b ∈ [buf, buf'], b.length = buf.length → unpack .instructions b ≠ .error .overrun →
          unpack .instructions b = (places .instructions b).map (idsAt .instructions b) →
          InstructionsEnd length b 4 := fun b hb hsame hinside hu => by
        cases hps : places .instructions b with
        | error e =>
          rw [hps, instructionPlaces_error hps] at hu
          exact absurd hu hinside
        | ok ps =>
          exact instructionsEnd_of_within (by omega) (by omega) hps fun p hp => (h.within b hb ps hps p hp).2
      exact ⟨hend buf (by simp) rfl h.inside.1 hunpack, hend buf' (by simp) hlen.symm h.inside.2 hunpack'⟩
    · intro h
      obtain ⟨hends, hends'⟩ := h rfl
      have hsame : places .instructions buf = places .instructions buf' := by
        rw [places, places, ← hlen]
        exact instructionPlaces_eq hlen hagree hle (by omega) hends hends'
      obtain ⟨ps, hps, hall⟩ := within_of_instructionsEnd hle (n := buf.length) (by omega) hends
      have hplaces : places .instructions buf = .ok ps := hps
      have hids : idsAt .instructions buf ps = idsAt .instructions buf' ps :=
        idsAt_eq hagree _ fun p hp => ⟨(hall p hp).2.1, List.mem_singleton.mpr (hall p hp).2.2⟩
      refine ⟨?_, ⟨?_, ?_⟩, ?_⟩
      · rw [hunpack, hunpack', ← hsame, hplaces]
        exact congrArg Except.ok hids
      · rw [hunpack, hplaces]
        exact fun h => by cases h
      · rw [hunpack', ← hsame, hplaces]
        exact fun h => by cases h
      · intro b hb qs hqs p hp
        have hb' : places .instructions b = .ok ps := by
          rcases List.mem_pair.mp hb with rfl | rfl
          · exact hplaces
          · rwa [← hsame]
        cases hqs.symm.trans hb'
        exact ⟨(hall p hp).1, (hall p hp).2.1⟩
  · obtain ⟨hsame, hinside, hall⟩ := places_eq hkind hlen hlength hfour hle hagree
    refine ⟨fun _ h => absurd h hkind, fun _ => ⟨?_, ⟨?_, ?_⟩, ?_⟩⟩
    · rw [hunpack, hunpack', ← hsame]
      cases hps : places kind buf with
      | error e => rfl
      | ok ps =>
        exact congrArg Except.ok (idsAt_eq hagree _ fun p hp => (hall ps hps p hp).2)
    · rw [hunpack]
      exact map_ne_overrun hinside
    · rw [hunpack', ← hsame]
      exact map_ne_overrun hinside
    · intro b hb qs hqs p hp
      have hb' : places kind b = places kind buf := by
        rcases List.mem_pair.mp hb with rfl | rfl
        · rfl
        · exact hsame.symm
      obtain ⟨hoff, hin, _⟩ := hall qs (hb'.symm.trans hqs) p hp
      exact ⟨hoff, hin⟩

/-- Next tables with two paddings. -/
theorem keepsWithin_iff_nextTables :
    Confined .nextTables 5 [0, 2, 0, 5, 7, 0, 0, 0] [0, 2, 0, 5, 7, 1, 2, 3] ↔
      (TfpKind.nextTables = .instructions → InstructionsEnd 5 [0, 2, 0, 5, 7, 0, 0, 0] 4 ∧
        InstructionsEnd 5 [0, 2, 0, 5, 7, 1, 2, 3] 4) :=
  keepsWithin_iff rfl (by decide) (by decide) (by decide) (by decide)

/-- A property without instructions, and what stands in its padding. -/
theorem not_confined_padding :
    unpack .instructions [0, 0, 0, 4, 0, 1, 0, 8] = .ok (instructions [⟨1, 8⟩]) ∧
      unpack .instructions [0, 0, 0, 4, 0, 0, 0, 0] = .ok (instructions []) ∧
      ¬Confined .instructions 4 [0, 0, 0, 4, 0, 1, 0, 8] [0, 0, 0, 4, 0, 0, 0, 0] := by
  have hfull : unpack .instructions [0, 0, 0, 4, 0, 1, 0, 8] = .ok (instructions [⟨1, 8⟩]) := by decide
  have hempty : unpack .instructions [0, 0, 0, 4, 0, 0, 0, 0] = .ok (instructions []) := by decide
  refine ⟨hfull, hempty, fun h => ?_⟩
  have hsame := h.same
  rw [hfull, hempty] at hsame
  cases hsame

end Tfp
end RoflCommon
