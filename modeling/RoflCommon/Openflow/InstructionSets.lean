/-
`cofinstructions` as a set of objects: what `operator=` makes of one, and what comes back
from the wire.

A nested list is copied by `operator=` of `cofactions`, which goes by the index of the list.
Where the index has an entry without an action, it throws. An exception of the library leaves
the copy where it is; a `std::out_of_range` is caught, and in place of the instruction stands
an object of the base class.
-/
import RoflCommon.Openflow.InstructionPack
import Mathlib.Data.List.ReduceOption

namespace RoflCommon

open Window

/-- The actions, in the order of their indices. -/
def Cofactions.list (x : Cofactions) : List Cofaction := x.actions.values.reduceOption

/-- `cofinstructions`, with an instruction of each of some kinds. -/
structure Cofinstructions where
  ofpVersion : UInt8
  instmap : Omap ℕ (Cofinstruction Cofactions)
  keyed : Cofinstructions.Keyed instmap

namespace Cofinstructions

def new (v : UInt8) : Cofinstructions := ⟨v, .empty, fun _ _ h => by cases h⟩

/-- `add_inst_*()`, and what is written to the reference. -/
def addInst (x : Cofinstructions) (i : Cofinstruction Cofactions) : Cofinstructions :=
  { x with
    instmap := x.instmap.insert i.instructionClass.type i
    keyed := fun k j hj => by
      rw [Omap.find?_insert] at hj
      split at hj
      · next hk =>
        cases hj
        exact hk.symm
      · exact x.keyed k j hj }

/-- The objects of a copy, under their types. One of `cofinstruction` itself, which has no
more than version and type, is `none`. -/
abbrev Objects := Omap ℕ (Option (Cofinstruction Cofactions))

/-- `add_inst_*() = get_inst_*()`, with what is under the type when it throws. -/
def copyInst (v : UInt8) (type : ℕ) (i : Cofinstruction Cofactions) (m : Objects) : Objects × ActionsAnswer Unit :=
  match i.actions? with
  | none => (m.insert type (some i), .ok ())
  | some actions =>
    match (Cofactions.new v).copy actions with
    | (_, .error (.thrown .outOfRange)) => (m.insert type none, .ok ())
    | (actions, r) => (m.insert type (some (i.map fun _ => actions)), r)

def copyFrom (v : UInt8) : List (ℕ × Cofinstruction Cofactions) → Objects → Objects × ActionsAnswer Unit
  | [], m => (m, .ok ())
  | (type, i) :: es, m =>
    match copyInst v type i m with
    | (m, .error e) => (m, .error e)
    | (m, .ok ()) => copyFrom v es m

/-- `operator=`, of another object, and the copy constructor. -/
def copy (x : Cofinstructions) : Objects × ActionsAnswer Unit := copyFrom x.ofpVersion x.instmap.entries .empty

/-- A copy is equal. -/
def Copies (x : Cofinstructions) : Prop := x.copy = (x.instmap.map fun _ i => some i, .ok ())

/-- The set as lists of actions. -/
def listed (x : Cofinstructions) : Omap ℕ (Cofinstruction (List Cofaction)) :=
  x.instmap.map fun _ i => i.map Cofactions.list

/-- Packed and unpacked, the set is as it was. The lists that `unpack` makes have the version of
the set; a null pointer cannot be packed. -/
structure ComesBack (x : Cofinstructions) : Prop where
  versions : ∀ i ∈ x.instmap.values, ∀ actions, i.actions? = some actions → actions.ofpVersion = x.ofpVersion
  objects : ∀ i ∈ x.instmap.values, ∀ actions, i.actions? = some actions →
    actions.actions.values = actions.list.map some
  roundTrips : RoundTrips x.ofpVersion x.listed

end Cofinstructions

/-- The lists of the instruction have its version and their maps are together, and the
instruction comes back. -/
structure Cofinstruction.Sound (v : UInt8) (i : Cofinstruction Cofactions) : Prop where
  kept : ∀ actions, i.actions? = some actions → actions.Kept
  version : ∀ actions, i.actions? = some actions → actions.ofpVersion = v
  survives : (i.map Cofactions.list).Survives v

namespace Cofactions

theorem reduceOption_map_some {α : Type} (as : List α) : (as.map some).reduceOption = as := by
  induction as with
  | nil => rfl
  | cons a as ih => rw [List.map_cons, List.reduceOption_cons_of_some, ih]

theorem Kept.values_eq {x : Cofactions} (hx : x.Kept) : x.actions.values = x.list.map some := by
  obtain ⟨as, has⟩ := hx.values
  rw [list, has, reduceOption_map_some]

end Cofactions

namespace Cofinstruction

variable {α β : Type}

theorem instructionClass_map (f : α → β) (i : Cofinstruction α) : (i.map f).instructionClass = i.instructionClass := by
  cases i <;> rfl

theorem actions?_map (f : α → β) (i : Cofinstruction α) : (i.map f).actions? = i.actions?.map f := by
  cases i <;> rfl

/-- An instruction with the list that it has. -/
theorem map_actions {i : Cofinstruction α} {actions : α} (h : i.actions? = some actions) :
    (i.map fun _ => actions) = i := by
  cases i <;> cases h <;> rfl

end Cofinstruction

namespace Cofinstructions

variable {v : UInt8} {x : Cofinstructions} {m : Objects}

/-! ## Copies -/

/-- An instruction whose list is whole is copied whole. -/
theorem copyInst_eq {i : Cofinstruction Cofactions} (hi : ∀ actions, i.actions? = some actions → actions.Kept)
    (type : ℕ) : copyInst v type i m = (m.insert type (some i), .ok ()) := by
  unfold copyInst
  cases h : i.actions? with
  | none => rfl
  | some actions =>
    dsimp only
    rw [Cofactions.copy_eq _ (hi actions h)]
    dsimp only
    rw [Cofinstruction.map_actions h]

theorem copies_of_kept (h : ∀ i ∈ x.instmap.values, ∀ actions, i.actions? = some actions → actions.Kept) :
    x.Copies := by
  have hfrom : ∀ (es : List (ℕ × Cofinstruction Cofactions)) (m : Objects), (∀ e ∈ es, e ∈ x.instmap.entries) →
      copyFrom x.ofpVersion es m = (es.foldl (fun m e => m.insert e.1 (some e.2)) m, .ok ()) := by
    intro es
    induction es with
    | nil => exact fun m _ => rfl
    | cons e es ih =>
      intro m hes
      have he := h e.2 (List.mem_map_of_mem (hes e List.mem_cons_self))
      rw [copyFrom, copyInst_eq he]
      exact ih _ fun e' he' => hes e' (List.mem_cons_of_mem e he')
  have hall := Omap.foldl_insert x.instmap fun _ i => some i
  rw [Copies, copy, hfrom _ _ fun e he => he]
  exact congrArg (fun m => (m, Except.ok ())) hall

/-- The lists of a copy have their maps together. -/
def Whole (m : Objects) : Prop :=
  ∀ k i actions, m.find? k = some (some i) → i.actions? = some actions → actions.Kept

theorem whole_copyInst (hm : Whole m) (type : ℕ) (i : Cofinstruction Cofactions) : Whole (copyInst v type i m).1 := by
  unfold copyInst
  cases h : i.actions? with
  | none =>
    intro k j actions hj hactions
    rw [Omap.find?_insert] at hj
    split at hj
    · cases hj
      cases h.symm.trans hactions
    · exact hm k j actions hj hactions
  | some actions =>
    have hcopy := Cofactions.kept_copy (Cofactions.new v) actions
    dsimp only
    split
    · intro k j actions hj hactions
      rw [Omap.find?_insert] at hj
      split at hj
      · cases hj
      · exact hm k j actions hj hactions
    · next actions' r heq =>
      intro k j as hj has
      rw [Omap.find?_insert] at hj
      split at hj
      · cases hj
        rw [Cofinstruction.actions?_map, h] at has
        cases has
        rwa [heq] at hcopy
      · exact hm k j as hj has

theorem whole_copyFrom (hm : Whole m) (es : List (ℕ × Cofinstruction Cofactions)) : Whole (copyFrom v es m).1 := by
  induction es generalizing m with
  | nil => exact hm
  | cons e es ih =>
    have hstep := whole_copyInst (v := v) hm e.1 e.2
    rw [copyFrom]
    split
    · next hcopy =>
      rw [hcopy] at hstep
      exact hstep
    · next hcopy =>
      rw [hcopy] at hstep
      exact ih hstep

theorem kept_of_copies (h : x.Copies) :
    ∀ i ∈ x.instmap.values, ∀ actions, i.actions? = some actions → actions.Kept := by
  have hwhole : Whole x.copy.1 := whole_copyFrom (fun k i actions hi => by cases hi) x.instmap.entries
  rw [h] at hwhole
  intro i hi actions hactions
  obtain ⟨e, he, rfl⟩ := List.mem_map.mp hi
  refine hwhole e.1 e.2 actions ?_ hactions
  rw [Omap.find?_map, Omap.find?_eq_some.mpr he]
  rfl

/-! ## Copies and the wire -/

theorem keyed_listed (x : Cofinstructions) : Keyed x.listed := by
  intro k i hi
  rw [listed, Omap.find?_map] at hi
  obtain ⟨j, hj, rfl⟩ := Option.map_eq_some_iff.mp hi
  rw [Cofinstruction.instructionClass_map]
  exact x.keyed k j hj

theorem values_listed (x : Cofinstructions) : x.listed.values = x.instmap.values.map (·.map Cofactions.list) :=
  Omap.values_map x.instmap _

/-- A set of sound instructions survives copy and wire. Without masks that no flag tells of, no
other set does. -/
theorem copies_and_comesBack_iff (x : Cofinstructions) :
    ((∀ i ∈ x.instmap.values, i.Sound x.ofpVersion) → x.Copies ∧ x.ComesBack) ∧
      ((∀ i ∈ x.listed.values, i.Tidy) → x.Copies ∧ x.ComesBack → ∀ i ∈ x.instmap.values, i.Sound x.ofpVersion) := by
  constructor
  · intro h
    have hkept : ∀ i ∈ x.instmap.values, ∀ actions, i.actions? = some actions → actions.Kept :=
      fun i hi => (h i hi).kept
    refine ⟨copies_of_kept hkept, fun i hi => (h i hi).version, fun i hi as has => (hkept i hi as has).values_eq, ?_⟩
    refine roundTrips_of_survives x.keyed_listed fun j hj => ?_
    rw [values_listed] at hj
    obtain ⟨i, hi, rfl⟩ := List.mem_map.mp hj
    exact (h i hi).survives
  · intro htidy ⟨hcopies, hback⟩ i hi
    have hsurvives := (roundTrips_iff_survives x.keyed_listed htidy).mp hback.roundTrips
    rw [values_listed] at hsurvives
    exact ⟨kept_of_copies hcopies i hi, hback.versions i hi, hsurvives _ (List.mem_map_of_mem hi)⟩

/-- The body of an experimenter action does not come back from the wire, and a list with an index that
a failed drop has left is not copied. -/
theorem padded_action_and_dropped_index :
    ¬ComesBack ((new Openflow13.OFP_VERSION).addInst
      (.applyActions (((Cofactions.new Openflow13.OFP_VERSION).put .experimenter 0).write 0 (.experimenter 5 [1])))) ∧
    ¬Copies ((new Openflow13.OFP_VERSION).addInst
      (.applyActions ((Cofactions.new Openflow13.OFP_VERSION).step (.dropOf .group 4)).1)) := by
  constructor
  · intro h
    have hsurvives := (roundTrips_iff_survives (keyed_listed _) ?_).mp h.roundTrips
    · obtain ⟨_, _, _, _, hactions⟩ := hsurvives _ List.mem_cons_self
      have haction := hactions _ rfl _ List.mem_cons_self
      exact absurd haction.2.2 (by decide)
    · intro i hi as has a ha
      cases List.mem_singleton.mp hi
      cases has
      cases List.mem_singleton.mp ha
      trivial
  · intro h
    exact kept_of_copies h _ List.mem_cons_self _ rfl 4

end Cofinstructions
end RoflCommon
