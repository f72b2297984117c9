/-
Comparing matches: `operator==` of `coxmatches` and `cofmatch`, and `contains` and
`is_part_of`.

All of them compare OXMs by `operator!=` of `coxmatch`, which is not virtual and has the ids
only: value and mask take no part (`Coxmatches.eq_iff`). `contains` and `is_part_of` look an OXM
up under its type shifted into the high half of a key, where the keys have the id of the
experimenter, so that nothing is found (`Keyed.not_found`).
-/
import RoflCommon.Openflow.Cofmatch

namespace RoflCommon

namespace Coxmatch

/-- `operator!=`. -/
def ne (x y : Coxmatch) : Bool := decide (x.oxmId ≠ y.oxmId)

/-- What the OXM says: the mask is part of it where there is one. -/
def content (x : Coxmatch) : Coxmatch :=
  if x.hasmask then x
  else
    match x.body with
    | .fixed w value _ => ⟨x.oxmId, .fixed w value (w.store 0)⟩
    | .exp expId value _ => ⟨x.oxmId, .exp expId value []⟩

theorem oxmId_content (x : Coxmatch) : x.content.oxmId = x.oxmId := by
  unfold content
  split
  · rfl
  · split <;> rfl

/-- What is packed is what the OXM says. -/
theorem image_content (x : Coxmatch) : x.content.image = x.image := by
  obtain ⟨id, body⟩ := x
  unfold content
  split
  · rfl
  · next h =>
    have hmask : id.hasmask = false := by simpa [hasmask] using h
    cases body <;> simp [image, hasmask, hmask]

theorem packed_content (x : Coxmatch) : x.content.packed = x.packed.content := by
  obtain ⟨id, body⟩ := x
  cases hmask : id.hasmask <;>
    cases body <;> simp [content, packed, hasmask, hmask, adjustOxmLength, bodyLength]

end Coxmatch

namespace Coxmatches

/-- `operator==`. -/
def eq (x y : Coxmatches) : Bool :=
  decide (x.size = y.size) && x.entries.all fun e =>
    match y.find? e.1 with
    | none => false
    | some o => !e.2.ne o

/-- The OXMs under the same keys say the same. -/
def Same (x y : Coxmatches) : Prop := ∀ k, (x.find? k).map Coxmatch.content = (y.find? k).map Coxmatch.content

/-- Every OXM of `y` is in `x` with what it says. -/
def Includes (x y : Coxmatches) : Prop := ∀ k o, y.find? k = some o → ∃ o', x.find? k = some o' ∧ o'.content = o.content

/-- The comparison asks for the ids under every key. -/
theorem eq_iff {x y : Coxmatches} :
    x.eq y = true ↔ ∀ k, (x.find? k).map Coxmatch.oxmId = (y.find? k).map Coxmatch.oxmId := by
  have hall : (x.entries.all fun e => match y.find? e.1 with | none => false | some o => !e.2.ne o) = true ↔
      ∀ k o, x.find? k = some o → ∃ o', y.find? k = some o' ∧ o.oxmId = o'.oxmId := by
    rw [List.all_eq_true]
    constructor
    · intro h k o hk
      have hentry := h (k, o) (Omap.find?_eq_some.mp hk)
      cases hy : y.find? k with
      | none => simp [hy] at hentry
      | some o' => exact ⟨o', rfl, by simpa [hy, Coxmatch.ne] using hentry⟩
    · intro h e he
      obtain ⟨o', hy, hid⟩ := h e.1 e.2 (Omap.find?_eq_some.mpr he)
      simp [hy, Coxmatch.ne, hid]
  rw [eq, Bool.and_eq_true, decide_eq_true_eq, hall]
  constructor
  · rintro ⟨hsize, hsub⟩ k
    cases hx : x.find? k with
    | some o =>
      obtain ⟨o', hy, hid⟩ := hsub k o hx
      rw [hy, Option.map_some, Option.map_some, hid]
    | none =>
      have hkeys : x.keys ⊆ y.keys := fun k hk => by
        obtain ⟨o, ho⟩ := Option.isSome_iff_exists.mp (Omap.mem_keys.mp hk)
        obtain ⟨o', hy, _⟩ := hsub k o ho
        rw [Omap.mem_keys, hy]
        rfl
      have hlen : y.keys.length ≤ x.keys.length := by
        simp only [Omap.keys, List.length_map]
        exact hsize.ge
      have hperm := (x.nodup_keys.subperm hkeys).perm_of_length_le hlen
      have hy : y.find? k = none := by
        rw [Omap.find?_eq_none, ← hperm.mem_iff, ← Omap.find?_eq_none]
        exact hx
      rw [hy]
  · intro h
    have hiff : ∀ k, k ∈ x.keys ↔ k ∈ y.keys := fun k => by
      rw [Omap.mem_keys, Omap.mem_keys, ← Option.isSome_map (f := Coxmatch.oxmId), h, Option.isSome_map]
    have hperm := (List.perm_ext_iff_of_nodup x.nodup_keys y.nodup_keys).mpr hiff
    refine ⟨?_, fun k o hk => ?_⟩
    · have hlen := hperm.length_eq
      simp only [Omap.keys, List.length_map] at hlen
      exact hlen
    · have hmap := h k
      rw [hk, Option.map_some] at hmap
      obtain ⟨o', hy, hid⟩ := Option.map_eq_some_iff.mp hmap.symm
      exact ⟨o', hy, hid.symm⟩

theorem Same.oxmId {x y : Coxmatches} (h : x.Same y) (k : ℕ) :
    (x.find? k).map Coxmatch.oxmId = (y.find? k).map Coxmatch.oxmId := by
  have hid : Coxmatch.oxmId ∘ Coxmatch.content = Coxmatch.oxmId := funext Coxmatch.oxmId_content
  have hmap := congrArg (Option.map Coxmatch.oxmId) (h k)
  rwa [Option.map_map, Option.map_map, hid] at hmap

/-- Equality is that of what the OXMs say. -/
def EqualityIsContent (x y : Coxmatches) : Prop := x.eq y = true ↔ x.Same y

/-- OXMs with one id under each key say the same. -/
def TellApart (x y : Coxmatches) : Prop :=
  (∀ k, (x.find? k).map Coxmatch.oxmId = (y.find? k).map Coxmatch.oxmId) → x.Same y

theorem equalityIsContent_iff {x y : Coxmatches} : x.EqualityIsContent y ↔ x.TellApart y := by
  unfold EqualityIsContent TellApart
  rw [eq_iff]
  exact ⟨fun h => h.mp, fun h => ⟨h, Same.oxmId⟩⟩

/-! ### The packed octets -/

theorem length_content {o : Coxmatch} (ho : MaskSet o) : o.content.length = o.length := by
  obtain ⟨id, body⟩ := o
  cases hmask : id.hasmask with
  | true => simp [Coxmatch.content, Coxmatch.hasmask, hmask]
  | false =>
    cases body with
    | fixed w value mask => simp [Coxmatch.content, Coxmatch.length, Coxmatch.hasmask, hmask]
    | exp expId value mask =>
      obtain rfl : mask = [] := ho hmask
      simp [Coxmatch.content, Coxmatch.hasmask, hmask]

theorem lengths_content {es : List (ℕ × Coxmatch)} (hes : ∀ e ∈ es, MaskSet e.2) :
    lengths (es.map fun e => (e.1, e.2.content)) = lengths es := by
  induction es with
  | nil => rfl
  | cons e es ih =>
    rw [List.map_cons, lengths, lengths, length_content (hes e List.mem_cons_self),
      ih fun d hd => hes d (List.mem_cons_of_mem e hd)]

/-- Lists that say the same are packed to the same octets. -/
theorem Same.pack {x y : Coxmatches} (h : x.Same y) (hx : ∀ e ∈ x.entries, MaskSet e.2)
    (hy : ∀ e ∈ y.entries, MaskSet e.2) {n : ℕ} (hn : x.length = .ok n) {buf : List UInt8} (hbuf : n ≤ buf.length) :
    ∃ octets, x.pack buf = .ok (x.map fun _ o => o.packed, octets) ∧
      y.pack buf = .ok (y.map fun _ o => o.packed, octets) := by
  have hmap : (x.map fun _ o => o.content) = y.map fun _ o => o.content := Omap.ext_find? fun k => by
    rw [Omap.find?_map, Omap.find?_map]
    exact h k
  have hentries : (x.entries.map fun e => (e.1, e.2.content)) = y.entries.map fun e => (e.1, e.2.content) :=
    congrArg Omap.entries hmap
  have hn' : y.length = .ok n := by
    rw [← hn, length, length, ← lengths_content hx, ← lengths_content hy, hentries]
  have himage : ∀ es : List (ℕ × Coxmatch), (es.flatMap fun e => e.2.packed.image) =
      (es.map fun e => (e.1, e.2.content)).flatMap fun e => e.2.packed.image := fun es => by
    simp only [List.flatMap_map, Coxmatch.packed_content, Coxmatch.image_content]
  refine ⟨_, pack_eq hx hn hbuf, ?_⟩
  rw [himage x.entries, hentries, ← himage]
  exact pack_eq hy hn' hbuf

/-- The length in an id is set when the OXM is packed: a mask that a setter adds, and one that
the constructor has, are packed to the same octets under ids that differ. -/
example :
    let x := run [.addOfbMask .ipv4Src 0xc0a80000 0xffff0000]
    let y := run [.addOfb .ipv4Src 0xc0a80000, .setOfbMask .ipv4Src 0xffff0000]
    (x.pack (.replicate 12 0)).toOption.map Prod.snd = (y.pack (.replicate 12 0)).toOption.map Prod.snd ∧
      x.eq y = false := by decide +kernel

end Coxmatches

namespace Cofmatch

/-- `operator==`. -/
def eq (m m' : Cofmatch) : Bool := decide (m.ofVersion = m'.ofVersion) && m.oxms.eq m'.oxms && decide (m.type = m'.type)

def EqualityIsContent (m m' : Cofmatch) : Prop :=
  m.eq m' = true ↔ m.ofVersion = m'.ofVersion ∧ m.oxms.Same m'.oxms ∧ m.type = m'.type

end Cofmatch

/-- Two lists of OXMs, and two matches with any: they are equal where they say the same,
exactly if they do not differ in values and masks alone. -/
theorem Coxmatches.equality_iff (x y : Coxmatches) (m m' : Cofmatch) :
    (x.EqualityIsContent y ↔ x.TellApart y) ∧
    (m.EqualityIsContent m' ↔ m.ofVersion = m'.ofVersion → m.type = m'.type → m.oxms.TellApart m'.oxms) := by
  refine ⟨equalityIsContent_iff, ?_⟩
  have heq : m.eq m' = true ↔ m.ofVersion = m'.ofVersion ∧ m.oxms.eq m'.oxms = true ∧ m.type = m'.type := by
    simp only [Cofmatch.eq, Bool.and_eq_true, decide_eq_true_eq, and_assoc]
  rw [Cofmatch.EqualityIsContent, heq, ← equalityIsContent_iff, EqualityIsContent]
  constructor
  · intro h hversion htype
    constructor
    · exact fun hoxms => (h.mp ⟨hversion, hoxms, htype⟩).2.1
    · exact fun hsame => (h.mpr ⟨hversion, hsame, htype⟩).2.1
  · intro h
    constructor
    · rintro ⟨hversion, hoxms, htype⟩
      exact ⟨hversion, (h hversion htype).mp hoxms, htype⟩
    · rintro ⟨hversion, hsame, htype⟩
      exact ⟨hversion, (h hversion htype).mpr hsame, htype⟩

/-- Matches on ports 1 and 2 are equal, though they are packed to different octets. -/
theorem Coxmatches.ports_equal :
    ¬EqualityIsContent (run [.addOfb .inPort 1]) (run [.addOfb .inPort 2]) ∧
    (run [.addOfb .inPort 1]).entries.map (fun e => e.2.image) ≠
      (run [.addOfb .inPort 2]).entries.map fun e => e.2.image := by
  refine ⟨fun h => ?_, by decide +kernel⟩
  have heq : (run [.addOfb .inPort 1]).eq (run [.addOfb .inPort 2]) = true := by decide +kernel
  have hport := h.mp heq OfbField.inPort.key
  revert hport
  decide +kernel

/-! ## Containment -/

/-- The key `contains` and `is_part_of` look an OXM up under. -/
def Coxmatch.lookupKey (x : Coxmatch) : ℕ := x.oxmId.type * 4294967296

namespace Coxmatches

/-- The loop of `contains`. `none` reads through `end()`. -/
def containsLoop (y : Coxmatches) : List (ℕ × Coxmatch) → Option Bool
  | [] => some true
  | e :: es =>
    if y.find? e.2.lookupKey = none then some false
    else
      match y.find? e.1 with
      | none => none
      | some o => if e.2.ne o then some false else containsLoop y es

def contains (x y : Coxmatches) (strict : Bool) : Option Bool :=
  if strict then if x.size ≠ y.size then some false else containsLoop y x.entries
  else if y.size < x.size then some false
  else containsLoop y x.entries

/-- What `is_part_of` counts. -/
structure Hits where
  exactHits : UInt16
  wildcardHits : UInt16
  missed : UInt16
deriving DecidableEq, Repr

/-- The loop of `is_part_of`. `none` reads through the null pointer that `operator[]` makes. -/
def isPartOfLoop (x : Coxmatches) : List (ℕ × Coxmatch) → Bool → Hits → Option (Bool × Hits)
  | [], result, h => some (result, h)
  | e :: es, result, h =>
    if x.find? e.2.lookupKey = none then isPartOfLoop x es result { h with wildcardHits := h.wildcardHits + 1 }
    else
      match x.find? e.1 with
      | none => none
      | some o =>
        if o.ne e.2 then isPartOfLoop x es false { h with missed := h.missed + 1 }
        else isPartOfLoop x es result { h with exactHits := h.exactHits + 1 }

def isPartOf (x y : Coxmatches) (h : Hits) : Option (Bool × Hits) := isPartOfLoop x y.entries true h

/-- Every OXM stands under its type, with or without the id of an experimenter, as the
`add_` functions put it. -/
def Keyed (x : Coxmatches) : Prop :=
  ∀ k o, x.find? k = some o → k % 4294967296 = o.oxmId.type ∧ o.oxmId.oxmClass ≠ 0

/-- The documentation of `contains` and `is_part_of`, and what follows from it. -/
structure Documented (x y : Coxmatches) : Prop where
  strict : x.contains y true = some true ↔ x.Same y
  nonstrict : x.contains y false = some true ↔ x.Includes y
  implies : x.contains y true = some true → x.contains y false = some true ∧ y.contains x false = some true
  refl : x = y → ∀ strict, x.contains y strict = some true
  trans : ∀ (z : Coxmatches) (strict : Bool), z.Keyed → x.contains y strict = some true →
    y.contains z strict = some true → x.contains z strict = some true
  counted : ∀ h, ∃ result h' exact wildcard missed, x.isPartOf y h = some (result, h') ∧
    exact + wildcard + missed = y.size ∧ h'.exactHits = h.exactHits + .ofNat exact ∧
    h'.wildcardHits = h.wildcardHits + .ofNat wildcard ∧ h'.missed = h.missed + .ofNat missed ∧
    (result = true ↔ h'.missed = h.missed)

/-- No key is a type in the high half. -/
theorem Keyed.not_found {x : Coxmatches} (hx : x.Keyed) (o : Coxmatch) : x.find? o.lookupKey = none := by
  cases h : x.find? o.lookupKey with
  | none => rfl
  | some o' =>
    obtain ⟨hkey, hclass⟩ := hx _ _ h
    have hpos : 0 < o'.oxmId.oxmClass.toNat :=
      Nat.pos_of_ne_zero fun hzero => hclass (UInt16.toNat_inj.mp hzero)
    unfold Coxmatch.lookupKey at hkey
    rw [Nat.mul_mod_left, OxmId.type] at hkey
    omega

theorem keyed_of_entries {x : Coxmatches}
    (h : ∀ e ∈ x.entries, e.1 % 4294967296 = e.2.oxmId.type ∧ e.2.oxmId.oxmClass ≠ 0) : x.Keyed :=
  fun k o hk => h (k, o) (Omap.find?_eq_some.mp hk)

theorem expKey_mod (expId : UInt32) (id : OxmId) : expKey expId id % 4294967296 = id.type := by
  have hfield := id.oxmField.isLt
  have hclass := id.oxmClass.toNat_lt
  unfold expKey OxmId.type
  omega

/-- What the API makes of an empty object has its OXMs under their types. -/
theorem Built.keyed {x : Coxmatches} (h : x.Built) : x.Keyed := by
  refine keyed_of_entries fun e he => ?_
  cases h.entry e he with
  | @ofb f id value mask hclass hfield hmask =>
    have htype : id.type = f.key := OxmId.type_inj.mpr ⟨hclass, hfield⟩
    refine ⟨?_, by rw [hclass]; decide⟩
    show f.key % 4294967296 = id.type
    rw [htype, Nat.mod_eq_of_lt (key_lt f)]
  | @ofx f id value mask hclass hfield hmask =>
    have htype : id.type = f.oxmId.type := OxmId.type_inj.mpr ⟨hclass, hfield⟩
    refine ⟨?_, by rw [hclass]; decide⟩
    show expKey ROFL_EXP_ID f.oxmId % 4294967296 = id.type
    rw [htype, expKey_mod]

/-- And so has what was unpacked. -/
theorem keyed_unpack {x : Coxmatches} {buf : List UInt8} (h : unpack buf = .ok x) : x.Keyed := by
  refine keyed_of_entries fun e he => ?_
  cases fromWire_of_unpack_eq h e he with
  | @ofb f id value mask hclass htype h =>
    refine ⟨?_, by rw [hclass]; decide⟩
    show f.key % 4294967296 = id.type
    rw [htype, Nat.mod_eq_of_lt (key_lt f)]
  | @ofx f id expId value mask hclass hkey h =>
    refine ⟨?_, by rw [hclass]; decide⟩
    show f.key % 4294967296 = id.type
    rw [← hkey, expKey_mod]
  | @exp id expId value mask hclass hkey h => exact ⟨expKey_mod _ _, by rw [hclass]; decide⟩

theorem size_eq_zero {x : Coxmatches} : x.size = 0 ↔ x.entries = [] := List.length_eq_zero_iff

theorem Keyed.contains_iff {x y : Coxmatches} (hy : y.Keyed) (strict : Bool) :
    x.contains y strict = some true ↔ x.entries = [] ∧ (strict = true → y.entries = []) := by
  unfold contains
  cases hes : x.entries with
  | nil =>
    have hsize : x.size = 0 := size_eq_zero.mpr hes
    cases strict with
    | false => simp [hsize, containsLoop]
    | true =>
      simp only [if_true, hsize, containsLoop, true_and, true_implies]
      rw [← size_eq_zero]
      by_cases hzero : y.size = 0
      · simp [hzero]
      · simp [hzero, Ne.symm hzero]
  | cons e es =>
    have hloop : containsLoop y (e :: es) = some false := by
      rw [containsLoop, if_pos (hy.not_found e.2)]
    rw [hloop]
    cases strict with
    | false => split_ifs <;> simp
    | true => split_ifs <;> simp

/-- Everything counts as a wildcard hit. -/
theorem Keyed.isPartOf_eq {x : Coxmatches} (hx : x.Keyed) (y : Coxmatches) (h : Hits) :
    x.isPartOf y h = some (true, { h with wildcardHits := h.wildcardHits + .ofNat y.size }) := by
  have hloop : ∀ es h, isPartOfLoop x es true h =
      some (true, { h with wildcardHits := h.wildcardHits + .ofNat es.length }) := by
    intro es
    induction es with
    | nil =>
      intro h
      simp [isPartOfLoop]
    | cons e es ih =>
      intro h
      rw [isPartOfLoop, if_pos (hx.not_found e.2), ih, List.length_cons, Nat.add_comm, UInt16.ofNat_add, UInt16.add_assoc]
      rfl
  exact hloop y.entries h

theorem same_nil {x y : Coxmatches} (hx : x.entries = []) : x.Same y ↔ y.entries = [] := by
  have hnone : ∀ k, x.find? k = none := Omap.entries_eq_nil.mp hx
  rw [Omap.entries_eq_nil]
  constructor
  · intro h k
    have hk := h k
    rw [hnone] at hk
    exact Option.map_eq_none_iff.mp hk.symm
  · intro h k
    rw [hnone, h]

theorem includes_nil {x y : Coxmatches} (hx : x.entries = []) : x.Includes y ↔ y.entries = [] := by
  have hnone : ∀ k, x.find? k = none := Omap.entries_eq_nil.mp hx
  rw [Omap.entries_eq_nil]
  constructor
  · intro h k
    cases hk : y.find? k with
    | none => rfl
    | some o =>
      obtain ⟨o', ho', _⟩ := h k o hk
      rw [hnone] at ho'
      cases ho'
  · intro h k o hk
    rw [h] at hk
    cases hk

theorem Same.includes {x y : Coxmatches} (h : x.Same y) : x.Includes y := by
  intro k o hk
  have hsame := h k
  rw [hk, Option.map_some] at hsame
  exact Option.map_eq_some_iff.mp hsame

/-- The documentation is met by two empty lists, and by a list that is not empty and
another that has an OXM the first has not. -/
theorem documented_iff {x y : Coxmatches} (hx : x.Keyed) (hy : y.Keyed) :
    x.Documented y ↔ x.entries = [] ∧ y.entries = [] ∨ x.entries ≠ [] ∧ ¬x.Includes y := by
  constructor
  · intro h
    have hnonstrict := h.nonstrict
    rw [hy.contains_iff] at hnonstrict
    by_cases hnil : x.entries = []
    · have hincludes := hnonstrict.mp ⟨hnil, fun hf => by cases hf⟩
      exact .inl ⟨hnil, (includes_nil hnil).mp hincludes⟩
    · exact .inr ⟨hnil, fun hincludes => hnil (hnonstrict.mpr hincludes).1⟩
  · intro h
    have hstrict : (x.entries = [] ∧ (true = true → y.entries = [])) ↔ x.Same y := by
      rcases h with ⟨hnil, hnil'⟩ | ⟨hne, hnot⟩
      · exact ⟨fun _ => (same_nil hnil).mpr hnil', fun _ => ⟨hnil, fun _ => hnil'⟩⟩
      · exact ⟨fun h => absurd h.1 hne, fun hsame => absurd hsame.includes hnot⟩
    have hnonstrict : (x.entries = [] ∧ (false = true → y.entries = [])) ↔ x.Includes y := by
      rcases h with ⟨hnil, hnil'⟩ | ⟨hne, hnot⟩
      · exact ⟨fun _ => (includes_nil hnil).mpr hnil', fun _ => ⟨hnil, fun hf => by cases hf⟩⟩
      · exact ⟨fun h => absurd h.1 hne, fun hincludes => absurd hincludes hnot⟩
    refine ⟨(hy.contains_iff true).trans hstrict, (hy.contains_iff false).trans hnonstrict, ?_, ?_, ?_, ?_⟩
    · intro h
      obtain ⟨hnil, hnil'⟩ := (hy.contains_iff true).mp h
      exact ⟨(hy.contains_iff false).mpr ⟨hnil, fun hf => by cases hf⟩,
        (hx.contains_iff false).mpr ⟨hnil' rfl, fun hf => by cases hf⟩⟩
    · rintro rfl strict
      obtain ⟨hnil, -⟩ := hnonstrict.mpr fun k o hk => ⟨o, hk, rfl⟩
      exact (hy.contains_iff strict).mpr ⟨hnil, fun _ => hnil⟩
    · intro z strict hz hxy hyz
      exact (hz.contains_iff strict).mpr ⟨((hy.contains_iff strict).mp hxy).1, ((hz.contains_iff strict).mp hyz).2⟩
    · intro h
      refine ⟨true, _, 0, y.size, 0, hx.isPartOf_eq y h, by omega, ?_, rfl, ?_, ?_⟩
      · simp
      · simp
      · simp

/-- Two lists that were built and have no OXM in common. -/
theorem documented_iff_disjoint :
    (run [.addOfb .inPort 1]).Documented (run [.addOfb .ethType 2048]) ↔
      (run [.addOfb .inPort 1]).entries = [] ∧ (run [.addOfb .ethType 2048]).entries = [] ∨
        (run [.addOfb .inPort 1]).entries ≠ [] ∧ ¬(run [.addOfb .inPort 1]).Includes (run [.addOfb .ethType 2048]) :=
  documented_iff (Built.keyed ⟨_, rfl⟩) (Built.keyed ⟨_, rfl⟩)

/-- No list with an OXM contains itself, strictly or not. -/
theorem not_documented_self :
    (run [.addOfb .inPort 1]).contains (run [.addOfb .inPort 1]) true = some false ∧
    (run [.addOfb .inPort 1]).contains (run [.addOfb .inPort 1]) false = some false ∧
    ¬(run [.addOfb .inPort 1]).Documented (run [.addOfb .inPort 1]) := by
  have hstrict : (run [.addOfb .inPort 1]).contains (run [.addOfb .inPort 1]) true = some false := by decide +kernel
  refine ⟨hstrict, by decide +kernel, fun h => ?_⟩
  have htrue := h.strict.mpr fun k => rfl
  rw [hstrict] at htrue
  cases htrue

end Coxmatches
end RoflCommon
