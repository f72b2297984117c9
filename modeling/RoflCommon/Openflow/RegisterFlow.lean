/-
Flow statistics that match on packet registers, as entries of an array.

`cofflow_stats_reply::operator=` assigns the match, and with it the OXMs go
through `copy_matches`. It does not know packet registers, so the copy matches
on nothing and is shorter.
-/
import RoflCommon.Openflow.Arrays
import RoflCommon.Openflow.CopyMatches

namespace RoflCommon

open Octets

/-- A `cofflow_stats_reply` of OpenFlow 1.3 as the constructor makes it, and the packet
registers that were added to its match. -/
structure RegisterFlow where
  registers : List (UInt8 × ℕ)
deriving DecidableEq

namespace RegisterFlow

def oxms (f : RegisterFlow) : OxmMap := OxmMap.run (f.registers.map fun r => .addPacketRegister r.1 r.2)

def cofmatch (f : RegisterFlow) : Cofmatch := { Cofmatch.new Openflow13.OFP_VERSION with oxms := f.oxms.oxms }

/-- The match has a length, see `lengthOf13_cofmatch`. -/
def matchLength (f : RegisterFlow) : ℕ := f.cofmatch.lengthOf13.toOption.getD 0

/-- Without the match, `ofp_flow_stats` has 48 octets. -/
def length (f : RegisterFlow) : ℕ := 48 + f.matchLength

def pack (f : RegisterFlow) : List UInt8 :=
  htobe16 f.length ++ .replicate 46 0 ++
    ((f.cofmatch.packOf13 (.replicate f.matchLength 0)).toOption.map Prod.snd).getD []

/-- The objects of the match are packet registers, under their keys. -/
theorem entries_oxms (f : RegisterFlow) :
    ∀ e ∈ f.oxms.entries, ∃ i v, e = (registerKey i, ⟨.packetRegister, register i v⟩) := by
  have hrun : ∀ (rs : List (UInt8 × ℕ)) (x : OxmMap),
      (∀ e ∈ x.entries, ∃ i v, e = (registerKey i, ⟨.packetRegister, register i v⟩)) →
      ∀ e ∈ ((rs.map fun r => OxmMap.Op.addPacketRegister r.1 r.2).foldl OxmMap.apply x).entries,
        ∃ i v, e = (registerKey i, ⟨.packetRegister, register i v⟩) := by
    intro rs
    induction rs with
    | nil => exact fun x hx => hx
    | cons r rs ih =>
      intro x hx
      refine ih (x.apply (.addPacketRegister r.1 r.2)) fun e he => ?_
      rcases Omap.mem_put he with rfl | he
      · exact ⟨r.1, r.2, rfl⟩
      · exact hx e he
  exact hrun f.registers .empty fun e he => by cases he

theorem lengthOf13_cofmatch (f : RegisterFlow) : f.cofmatch.lengthOf13 = .ok f.matchLength := by
  have hlength : ∀ e ∈ f.oxms.oxms.entries, ∃ n, e.2.length = .ok n := fun e he => by
    obtain ⟨d, hd, rfl⟩ := List.mem_map.mp he
    obtain ⟨i, v, rfl⟩ := f.entries_oxms d hd
    exact ⟨_, rfl⟩
  obtain ⟨n, hn⟩ := Coxmatches.exists_lengths hlength
  have hok : ∃ m, f.cofmatch.lengthOf13 = .ok m := ⟨_, Except.bind_eq_ok.mpr ⟨n, hn, rfl⟩⟩
  obtain ⟨m, hm⟩ := hok
  rw [matchLength, hm]
  rfl

theorem length_pack (f : RegisterFlow) : f.pack.length = f.length := by
  obtain ⟨l, hl, hle⟩ := Cofmatch.length_of_lengthOf13 f.lengthOf13_cofmatch
  have hmasks : ∀ e ∈ f.cofmatch.oxms.entries, Coxmatches.MaskSet e.2 := fun e he => by
    obtain ⟨d, hd, rfl⟩ := List.mem_map.mp he
    obtain ⟨i, v, rfl⟩ := f.entries_oxms d hd
    trivial
  have himage := (@Coxmatches.packs_eq _ hmasks _ hl (.replicate l 0) (by simp)).2
  rw [pack, Cofmatch.packOf13_zeros hmasks f.lengthOf13_cofmatch hl hle]
  simp only [Except.toOption, Option.map_some, Option.getD_some, List.length_append, List.length_replicate, himage,
    htobe16, List.length_cons, List.length_nil, length]
  omega

/-! ## Copies -/

/-- The switch of `copy_matches` does not know the key. -/
theorem copied_registerKey (x : OxmMap) (i : UInt8) : x.copied (registerKey i) = .ok none := by
  have hregister := class_register i
  have hofb : OfbField.ofKey (registerKey i) = none := by
    cases h : OfbField.ofKey (registerKey i) with
    | none => rfl
    | some f =>
      have hclass := class_ofb f
      rw [OfbField.key_of_ofKey h, hregister] at hclass
      exact absurd hclass (by decide)
  have hofx : OfxField.ofKey (registerKey i) = none := by
    cases h : OfxField.ofKey (registerKey i) with
    | none => rfl
    | some f =>
      have hclass := class_ofx f
      rw [OfxField.key_of_ofKey h, hregister] at hclass
      exact absurd hclass (by decide)
  have hclass : ¬ registerKey i / 65536 % 65536 = Openflow.OFPXMC_EXPERIMENTER.toNat := by
    rw [hregister]
    decide
  simp only [OxmMap.copied, hofb, hofx, if_neg hclass]

/-- A copy of the match is empty. -/
theorem copyMatches_oxms (f : RegisterFlow) : f.oxms.copyMatches = .ok .empty := by
  have hstep : ∀ ks : List ℕ, (∀ k ∈ ks, ∃ i, k = registerKey i) →
      ks.foldlM f.oxms.copyStep .empty = .ok .empty := by
    intro ks
    induction ks with
    | nil => exact fun _ => rfl
    | cons k ks ih =>
      intro h
      obtain ⟨i, rfl⟩ := h k (by simp)
      have hnone : f.oxms.copyStep .empty (registerKey i) = .ok .empty := by
        rw [OxmMap.copyStep, copied_registerKey]
        rfl
      rw [List.foldlM_cons, hnone]
      exact ih fun k hk => h k (by simp [hk])
  refine hstep _ fun k hk => ?_
  obtain ⟨e, he, rfl⟩ := List.mem_map.mp hk
  obtain ⟨i, v, rfl⟩ := f.entries_oxms e he
  exact ⟨i, rfl⟩

/-- What the copy of the match belongs to. -/
def bare : RegisterFlow := ⟨[]⟩

theorem copyMatches_eq_bare (f : RegisterFlow) : f.oxms.copyMatches = .ok bare.oxms := f.copyMatches_oxms

instance : Entry RegisterFlow where
  length := length
  pack := pack
  length_pack := length_pack
  copy _ := some bare
  copy_copy _ _ h := .inl h

end RegisterFlow

end RoflCommon
