/-
The description of a datapath: `cofdesc_stats_reply`.

Five texts, each of them handed to `snprintf` for the format. They come back if and only if
there is no percent sign in any of them (`CofdescStatsReply.comesBack_iff`).
-/
import RoflCommon.Openflow.TextArrays

namespace RoflCommon

open Snprintf

/-- `cofdesc_stats_reply`. -/
structure CofdescStatsReply where
  ofVersion : UInt8
  mfrDesc : List UInt8
  hwDesc : List UInt8
  swDesc : List UInt8
  serialNum : List UInt8
  dpDesc : List UInt8
deriving DecidableEq

def Openflow.DESC_STR_LEN : ℕ := 256

def Openflow.SERIAL_NUM_LEN : ℕ := 32

namespace CofdescStatsReply

def new (ofVersion : UInt8) : CofdescStatsReply := ⟨ofVersion, [], [], [], [], []⟩

/-- The fields of `struct ofp_desc_stats`, which is `struct ofp_desc` in 1.3. -/
def slots : List ℕ :=
  [Openflow.DESC_STR_LEN, Openflow.DESC_STR_LEN, Openflow.DESC_STR_LEN, Openflow.SERIAL_NUM_LEN, Openflow.DESC_STR_LEN]

def strings (d : CofdescStatsReply) : List (List UInt8) := [d.mfrDesc, d.hwDesc, d.swDesc, d.serialNum, d.dpDesc]

/-- There is a structure for the version. -/
def Known (v : UInt8) : Prop :=
  v = Openflow10.OFP_VERSION ∨ v = Openflow12.OFP_VERSION ∨ v = Openflow13.OFP_VERSION

instance (v : UInt8) : Decidable (Known v) := inferInstanceAs (Decidable (_ ∨ _ ∨ _))

def length (d : CofdescStatsReply) : Except TextException ℕ :=
  if Known d.ofVersion then .ok slots.sum else .error .badVersion

def pack (d : CofdescStatsReply) (buf : List UInt8) : Except TextException (List UInt8) :=
  if ¬Known d.ofVersion then .error .badVersion
  else if buf.length < slots.sum then .error .inval
  else
    match printAll (slots.zip d.strings) buf with
    | none => .error .undefined
    | some buf => .ok buf

def ofStrings (d : CofdescStatsReply) : List (List UInt8) → CofdescStatsReply
  | [mfrDesc, hwDesc, swDesc, serialNum, dpDesc] => ⟨d.ofVersion, mfrDesc, hwDesc, swDesc, serialNum, dpDesc⟩
  | _ => d

def unpack (d : CofdescStatsReply) (buf : List UInt8) : Except TextException CofdescStatsReply :=
  if ¬Known d.ofVersion then .error .badVersion
  else if buf.length < slots.sum then .error .inval
  else .ok (d.ofStrings (textAll slots buf))

/-- A description of one of the versions, with texts that are shorter than their fields and
without a NUL. -/
structure Valid (d : CofdescStatsReply) : Prop where
  version : Known d.ofVersion
  length : ∀ p ∈ slots.zip d.strings, p.2.length < p.1
  nul : ∀ p ∈ slots.zip d.strings, 0 ∉ p.2

/-- Packed into as many zeros as it is long, the description is unpacked by a new one. -/
def RoundTrips (d : CofdescStatsReply) : Prop :=
  ∃ n buf, d.length = .ok n ∧ d.pack (.replicate n 0) = .ok buf ∧ (new d.ofVersion).unpack buf = .ok d

variable {d : CofdescStatsReply}

theorem ofStrings_eq_iff (e : CofdescStatsReply) {l : List (List UInt8)} (hl : l.length = 5)
    (he : e.ofVersion = d.ofVersion) : e.ofStrings l = d ↔ l = d.strings := by
  match l, hl with
  | [mfrDesc, hwDesc, swDesc, serialNum, dpDesc], _ =>
    cases d
    simp only [ofStrings, strings, he, mk.injEq, true_and, List.cons.injEq, and_true]

/-- **A description comes back exactly if there is no percent sign in its texts.** -/
theorem comesBack_iff (hd : d.Valid) : d.RoundTrips ↔ ∀ s ∈ d.strings, percent ∉ s := by
  have hsizes : (slots.zip d.strings).map (·.1) = slots := List.map_fst_zip (Nat.le_refl 5)
  have hstrings : (slots.zip d.strings).map (·.2) = d.strings := List.map_snd_zip (Nat.le_refl 5)
  have hiff := printAll_iff hd.length hd.nul
  have hall : (∀ p ∈ slots.zip d.strings, percent ∉ p.2) ↔ ∀ s ∈ d.strings, percent ∉ s := by
    rw [← List.forall_mem_map (P := fun s => percent ∉ s), hstrings]
  rw [hsizes, hstrings, hall] at hiff
  rw [← hiff]
  have hlength : d.length = .ok slots.sum := if_pos hd.version
  have hpack : d.pack (.replicate slots.sum 0) =
      match printAll (slots.zip d.strings) (.replicate slots.sum 0) with
      | none => .error .undefined
      | some buf => .ok buf := by
    rw [pack, if_neg (not_not.mpr hd.version), if_neg (by simp)]
  have hunpack : ∀ {buf}, printAll (slots.zip d.strings) (.replicate slots.sum 0) = some buf →
      (new d.ofVersion).unpack buf = .ok ((new d.ofVersion).ofStrings (textAll slots buf)) := by
    intro buf hbuf
    have hpos : ∀ p ∈ slots.zip d.strings, 0 < p.1 := fun p hp => Nat.lt_of_le_of_lt (Nat.zero_le _) (hd.length p hp)
    have hlen := length_printAll hpos (by rw [hsizes, List.length_replicate]) hbuf
    rw [List.length_replicate] at hlen
    exact (if_neg (not_not.mpr hd.version)).trans (if_neg (by omega))
  have hnew : (new d.ofVersion).ofVersion = d.ofVersion := rfl
  constructor
  · rintro ⟨n, buf, hn, hbuf, hcome⟩
    obtain rfl := Except.ok.inj (hlength.symm.trans hn)
    rw [hpack] at hbuf
    cases hprint : printAll (slots.zip d.strings) (.replicate slots.sum 0) with
    | none =>
      rw [hprint] at hbuf
      cases hbuf
    | some _ =>
      rw [hprint] at hbuf
      cases hbuf
      rw [hunpack hprint, Except.ok.injEq] at hcome
      exact ⟨buf, rfl, (ofStrings_eq_iff _ rfl hnew).mp hcome⟩
  · rintro ⟨buf, hprint, htext⟩
    refine ⟨slots.sum, buf, hlength, ?_, ?_⟩
    · rw [hpack, hprint]
    · rw [hunpack hprint, (ofStrings_eq_iff _ rfl hnew).mpr htext]

end CofdescStatsReply

end RoflCommon
