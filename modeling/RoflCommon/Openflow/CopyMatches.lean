/-
`coxmatches` with all it can hold: packet registers, and OXMs of any
experimenter, beside the fields of `Coxmatches`.

An object is handed out as the class of the function that was called, and if it
was made as another one that is a `std::bad_cast`. `copy_matches` goes through
the keys: it knows the standard fields and the ROFL ones, and takes all else of
the experimenter class for a `coxmatch_exp`. What is neither is not copied, and
`unpack` does not read it (`survives_iff`).
-/
import RoflCommon.Openflow.Cofmatch

namespace RoflCommon

open Octets

/-- The classes objects are made of. -/
inductive OxmClass
  | ofb (f : OfbField)
  | ofx (f : OfxField)
  | packetRegister
  | exp
deriving DecidableEq, Repr

/-- `dynamic_cast`: the classes of the ROFL fields derive from `coxmatch_exp`. -/
def OxmClass.isA : OxmClass → OxmClass → Bool
  | .ofx _, .exp => true
  | c, d => c = d

structure Oxm where
  madeAs : OxmClass
  oxm : Coxmatch
deriving DecidableEq, Repr

/-! ## Packet registers -/

/-- `pkt_reg_index << 9`, or'ed to the class: bit 16 is set there anyway. -/
def registerField (i : UInt8) : OxmField := ⟨i.toNat % 128, Nat.mod_lt _ (by decide)⟩

/-- `OXM_TLV_PKTREG`. -/
def registerId (i : UInt8) : OxmId := ⟨Openflow.OFPXMC_PACKET_REGS, registerField i, false, 8⟩

/-- `OXM_TLV_PKTREG_MASK`. -/
def registerIdMask (i : UInt8) : OxmId := ⟨Openflow.OFPXMC_PACKET_REGS, registerField i, true, 16⟩

def registerKey (i : UInt8) : ℕ := (registerId i).type

theorem class_ofb (f : OfbField) : f.key / 65536 % 65536 = Openflow.OFPXMC_OPENFLOW_BASIC.toNat := by
  cases f <;> decide

theorem class_ofx (f : OfxField) : f.key / 65536 % 65536 = Openflow.OFPXMC_EXPERIMENTER.toNat := by
  cases f <;> decide

theorem class_register (i : UInt8) : registerKey i / 65536 % 65536 = Openflow.OFPXMC_PACKET_REGS.toNat := by
  have hfield := (registerField i).isLt
  simp only [registerKey, registerId, OxmId.type]
  rw [show Openflow.OFPXMC_PACKET_REGS.toNat = 0x8001 from rfl]
  omega

/-- `coxmatch_packet_register`. -/
def register (i : UInt8) (v : ℕ) : Coxmatch := ⟨registerId i, .fixed .u64 (OxmWidth.u64.arg v) OxmWidth.u64.ones⟩

def registerMask (i : UInt8) (v m : ℕ) : Coxmatch :=
  ⟨registerIdMask i, .fixed .u64 (OxmWidth.u64.arg v) (OxmWidth.u64.arg m)⟩

/-! ## The map -/

abbrev OxmMap := Omap ℕ Oxm

namespace OxmMap

/-- The functions of `coxmatches`, and the setters of the objects that `set_` functions
hand out. -/
inductive Op
  | field (op : Coxmatches.Op)
  | addPacketRegister (i : UInt8) (v : ℕ)
  | addPacketRegisterMask (i : UInt8) (v m : ℕ)
  | setPacketRegister (i : UInt8)
  | setPacketRegisterValue (i : UInt8) (v : ℕ)
  | setPacketRegisterMask (i : UInt8) (m : ℕ)
  | dropPacketRegister (i : UInt8)
  | addExpMatch (expId : UInt32) (id : OxmId)
  | setExpMatch (expId : UInt32) (id : OxmId)
  | setExpMatchValue (expId : UInt32) (id : OxmId) (value : List UInt8)
  | setExpMatchMask (expId : UInt32) (id : OxmId) (mask : List UInt8)
  | dropExpMatch (expId : UInt32) (id : OxmId)

/-- A `set_` function, and a setter on what it returns. Where there is an object of
another class it throws, and the map is as before. -/
def set (x : OxmMap) (k : ℕ) (new : Oxm) (setter : Coxmatch → Coxmatch) : OxmMap :=
  match x.find? k with
  | none => x.insert k { new with oxm := setter new.oxm }
  | some o => if o.madeAs.isA new.madeAs then x.insert k { o with oxm := setter o.oxm } else x

def applyField (x : OxmMap) : Coxmatches.Op → OxmMap
  | .addOfb f v => x.insert f.key ⟨.ofb f, f.new v⟩
  | .addOfbMask f v m => x.insert f.key ⟨.ofb f, f.newMask v m⟩
  | .setOfb f => x.set f.key ⟨.ofb f, f.new 0⟩ id
  | .setOfbValue f v => x.set f.key ⟨.ofb f, f.new 0⟩ (·.setValue v)
  | .setOfbMask f m => x.set f.key ⟨.ofb f, f.new 0⟩ (·.setMask m)
  | .dropOfb f => x.erase f.key
  | .addOfx f v m => x.insert f.key ⟨.ofx f, f.new v m⟩
  | .setOfx f => x.set f.key ⟨.ofx f, f.bare⟩ id
  | .setOfxValue f value => x.set f.key ⟨.ofx f, f.bare⟩ (·.setExpValue value)
  | .setOfxMask f mask => x.set f.key ⟨.ofx f, f.bare⟩ (·.setExpMask mask)
  | .dropOfx f => x.erase f.key
  | .clear => .empty

def apply (x : OxmMap) : Op → OxmMap
  | .field op => x.applyField op
  | .addPacketRegister i v => x.insert (registerKey i) ⟨.packetRegister, register i v⟩
  | .addPacketRegisterMask i v m => x.insert (registerKey i) ⟨.packetRegister, registerMask i v m⟩
  | .setPacketRegister i => x.set (registerKey i) ⟨.packetRegister, register i 0⟩ id
  | .setPacketRegisterValue i v => x.set (registerKey i) ⟨.packetRegister, register i 0⟩ (·.setValue v)
  | .setPacketRegisterMask i m => x.set (registerKey i) ⟨.packetRegister, register i 0⟩ (·.setMask m)
  | .dropPacketRegister i => x.erase (registerKey i)
  | .addExpMatch expId oxmId => x.insert (expKey expId oxmId) ⟨.exp, expMatch expId oxmId⟩
  | .setExpMatch expId oxmId => x.set (expKey expId oxmId) ⟨.exp, expMatch expId oxmId⟩ id
  | .setExpMatchValue expId oxmId value =>
    x.set (expKey expId oxmId) ⟨.exp, expMatch expId oxmId⟩ (·.setExpValue value)
  | .setExpMatchMask expId oxmId mask =>
    x.set (expKey expId oxmId) ⟨.exp, expMatch expId oxmId⟩ (·.setExpMask mask)
  | .dropExpMatch expId oxmId => x.erase (expKey expId oxmId)

def run (ops : List Op) : OxmMap := ops.foldl apply .empty

/-- What the API makes of an empty object. -/
def Built (x : OxmMap) : Prop := ∃ ops, run ops = x

/-- The ids, values and masks. -/
def oxms (x : OxmMap) : Coxmatches := x.map fun _ o => o.oxm

/-! ## Copying -/

/-- An object of class `c` that is assigned what the `get_` function for `c` finds. -/
def getAs (x : OxmMap) (k : ℕ) (c : OxmClass) : Except MatchException Oxm :=
  match x.find? k with
  | none => .error .oxmInval
  | some o => if o.madeAs.isA c then .ok ⟨c, o.oxm⟩ else .error .badCast

/-- The switch: what is added for a key, and under which key. -/
def copied (x : OxmMap) (k : ℕ) : Except MatchException (Option (ℕ × Oxm)) :=
  match OfbField.ofKey k with
  | some f => do return some (f.key, ← x.getAs f.key (.ofb f))
  | none =>
    match OfxField.ofKey k with
    | some f => do return some (f.key, ← x.getAs f.key (.ofx f))
    | none =>
      if k / 65536 % 65536 = Openflow.OFPXMC_EXPERIMENTER.toNat then do
        -- the experimenter, and the id without the mask bit and the length
        let expId := k / 4294967296
        let oxmId := k % 4294967296 / 512 * 512
        return some (expId * 4294967296 + oxmId, ← x.getAs (expId * 4294967296 + oxmId) .exp)
      else .ok none

def copyStep (x y : OxmMap) (k : ℕ) : Except MatchException OxmMap := do
  match ← x.copied k with
  | some e => return y.insert e.1 e.2
  | none => return y

/-- The copy constructor and the assignment. -/
def copyMatches (x : OxmMap) : Except MatchException OxmMap := x.keys.foldlM x.copyStep .empty

/-- A copy has the same ids, values and masks under the same keys, and so has what is
read after packing. -/
def Survives (x : OxmMap) : Prop :=
  (∃ y, x.copyMatches = .ok y ∧ y.oxms = x.oxms) ∧
    ∃ n, x.oxms.length = .ok n ∧ ∀ buf : List UInt8, buf.length = n →
      ∃ x' buf', x.oxms.pack buf = .ok (x', buf') ∧ Coxmatches.unpack buf' = .ok x'

/-! ## What the API builds -/

/-- An object as it is kept under its key. -/
inductive Made : ℕ × Oxm → Prop
  | ofb (f : OfbField) {o : Coxmatch} (h : Coxmatches.Entry (f.key, o)) : Made (f.key, ⟨.ofb f, o⟩)
  | ofx (f : OfxField) {o : Coxmatch} (h : Coxmatches.Entry (f.key, o)) : Made (f.key, ⟨.ofx f, o⟩)
  | packetRegister (id : OxmId) {value mask : Fin OxmWidth.u64.capacity}
      (hclass : id.oxmClass = Openflow.OFPXMC_PACKET_REGS) :
      Made (id.type, ⟨.packetRegister, ⟨id, .fixed .u64 value mask⟩⟩)
  | exp (id : OxmId) (expId : UInt32) {value mask : List UInt8} (hmask : id.hasmask = false → mask = []) :
      Made (expKey expId id, ⟨.exp, ⟨id, .exp expId value mask⟩⟩)

namespace Made

variable {k : ℕ} {o : Oxm}

theorem setValue (h : Made (k, o)) (v : ℕ) : Made (k, { o with oxm := o.oxm.setValue v }) := by
  cases h with
  | ofb f h => exact .ofb f (h.setValue v)
  | ofx f h => exact .ofx f (h.setValue v)
  | packetRegister id hclass => exact .packetRegister id hclass
  | exp id expId hmask => exact .exp id expId hmask

theorem setMask (h : Made (k, o)) (m : ℕ) : Made (k, { o with oxm := o.oxm.setMask m }) := by
  cases h with
  | ofb f h => exact .ofb f (h.setMask m)
  | ofx f h => exact .ofx f (h.setMask m)
  | packetRegister id hclass => exact .packetRegister { id with hasmask := true } hclass
  | exp id expId hmask => exact .exp id expId hmask

theorem setExpValue (h : Made (k, o)) (value : List UInt8) :
    Made (k, { o with oxm := o.oxm.setExpValue value }) := by
  cases h with
  | ofb f h => exact .ofb f (h.setExpValue value)
  | ofx f h => exact .ofx f (h.setExpValue value)
  | packetRegister id hclass => exact .packetRegister id hclass
  | @exp id expId value' mask hmask =>
    exact .exp (Coxmatch.adjustOxmLength ⟨id, .exp expId value mask⟩).oxmId expId hmask

theorem setExpMask (h : Made (k, o)) (mask : List UInt8) :
    Made (k, { o with oxm := o.oxm.setExpMask mask }) := by
  cases h with
  | ofb f h => exact .ofb f (h.setExpMask mask)
  | ofx f h => exact .ofx f (h.setExpMask mask)
  | packetRegister id hclass => exact .packetRegister id hclass
  | @exp id expId value mask' hmask =>
    exact .exp (Coxmatch.adjustOxmLength ⟨{ id with hasmask := true }, .exp expId value mask⟩).oxmId expId
      fun h => by cases h

end Made

theorem made_insert {x : OxmMap} {k : ℕ} {o : Oxm} (h : ∀ e ∈ x.entries, Made e) (ho : Made (k, o)) :
    ∀ e ∈ (x.insert k o).entries, Made e := by
  intro e he
  rcases Omap.mem_put he with rfl | he
  · exact ho
  · exact h e he

theorem made_set {x : OxmMap} {k : ℕ} {new : Oxm} {setter : Coxmatch → Coxmatch} (h : ∀ e ∈ x.entries, Made e)
    (hnew : Made (k, new)) (hset : ∀ o : Oxm, Made (k, o) → Made (k, { o with oxm := setter o.oxm })) :
    ∀ e ∈ (x.set k new setter).entries, Made e := by
  unfold set
  cases hfind : x.find? k with
  | none => exact made_insert h (hset new hnew)
  | some o =>
    dsimp only
    split
    · exact made_insert h (hset o (h _ (Omap.find?_eq_some.mp hfind)))
    · exact h

theorem made_erase {x : OxmMap} {k : ℕ} (h : ∀ e ∈ x.entries, Made e) : ∀ e ∈ (x.erase k).entries, Made e :=
  fun e he => h e (List.mem_of_mem_filter he)

theorem made_register (i : UInt8) (v : ℕ) : Made (registerKey i, ⟨.packetRegister, register i v⟩) :=
  .packetRegister (registerId i) rfl

theorem made_expMatch (expId : UInt32) (oxmId : OxmId) : Made (expKey expId oxmId, ⟨.exp, expMatch expId oxmId⟩) :=
  .exp oxmId expId fun _ => rfl

theorem made_applyField {x : OxmMap} (h : ∀ e ∈ x.entries, Made e) (op : Coxmatches.Op) :
    ∀ e ∈ (x.applyField op).entries, Made e := by
  have hofb : ∀ f : OfbField, Made (f.key, ⟨.ofb f, f.new 0⟩) := fun f => .ofb f (Coxmatches.entry_new f 0)
  have hofx : ∀ f : OfxField, Made (f.key, ⟨.ofx f, f.bare⟩) := fun f => .ofx f (Coxmatches.entry_bare f)
  cases op with
  | addOfb f v => exact made_insert h (.ofb f (Coxmatches.entry_new f v))
  | addOfbMask f v m => exact made_insert h (.ofb f (.ofb f rfl rfl fun h => by cases h))
  | setOfb f => exact made_set h (hofb f) fun _ ho => ho
  | setOfbValue f v => exact made_set h (hofb f) fun _ ho => ho.setValue v
  | setOfbMask f m => exact made_set h (hofb f) fun _ ho => ho.setMask m
  | dropOfb f => exact made_erase h
  | addOfx f v m => exact made_insert h (.ofx f (Coxmatches.entry_ofx_new f v m))
  | setOfx f => exact made_set h (hofx f) fun _ ho => ho
  | setOfxValue f value => exact made_set h (hofx f) fun _ ho => ho.setExpValue value
  | setOfxMask f mask => exact made_set h (hofx f) fun _ ho => ho.setExpMask mask
  | dropOfx f => exact made_erase h
  | clear => exact fun e he => by cases he

theorem made_apply {x : OxmMap} (h : ∀ e ∈ x.entries, Made e) (op : Op) : ∀ e ∈ (x.apply op).entries, Made e := by
  cases op with
  | field op => exact made_applyField h op
  | addPacketRegister i v => exact made_insert h (made_register i v)
  | addPacketRegisterMask i v m => exact made_insert h (.packetRegister (registerIdMask i) rfl)
  | setPacketRegister i => exact made_set h (made_register i 0) fun _ ho => ho
  | setPacketRegisterValue i v => exact made_set h (made_register i 0) fun _ ho => ho.setValue v
  | setPacketRegisterMask i m => exact made_set h (made_register i 0) fun _ ho => ho.setMask m
  | dropPacketRegister i => exact made_erase h
  | addExpMatch expId oxmId => exact made_insert h (made_expMatch expId oxmId)
  | setExpMatch expId oxmId => exact made_set h (made_expMatch expId oxmId) fun _ ho => ho
  | setExpMatchValue expId oxmId value => exact made_set h (made_expMatch expId oxmId) fun _ ho => ho.setExpValue value
  | setExpMatchMask expId oxmId mask => exact made_set h (made_expMatch expId oxmId) fun _ ho => ho.setExpMask mask
  | dropExpMatch expId oxmId => exact made_erase h

theorem Built.made {x : OxmMap} (h : x.Built) : ∀ e ∈ x.entries, Made e := by
  obtain ⟨ops, rfl⟩ := h
  have hrun : ∀ y : OxmMap, (∀ e ∈ y.entries, Made e) → ∀ e ∈ (ops.foldl apply y).entries, Made e := by
    induction ops with
    | nil => exact fun y hy => hy
    | cons op ops ih => exact fun y hy => ih _ (made_apply hy op)
  exact hrun .empty fun e he => by cases he

theorem Made.maskSet {e : ℕ × Oxm} (h : Made e) : Coxmatches.MaskSet e.2.oxm := by
  cases h with
  | ofb f h => exact h.maskSet
  | ofx f h => exact h.maskSet
  | packetRegister id hclass => trivial
  | exp id expId hmask => exact hmask

/-! ## What survives -/

/-- A masked experimenter OXM has as much mask as value. -/
def SameSize (o : Coxmatch) : Prop :=
  match o.body with
  | .fixed .. => True
  | .exp _ value mask => o.hasmask = true → value.length = mask.length

instance (o : Coxmatch) : Decidable (SameSize o) := by
  unfold SameSize
  cases o.body <;> infer_instance

theorem sameSize_iff {o : Coxmatch} : SameSize o ↔ ∃ n, o.length = .ok n := by
  obtain ⟨id, body⟩ := o
  cases body with
  | fixed w value mask => exact ⟨fun _ => ⟨_, rfl⟩, fun _ => trivial⟩
  | exp expId value mask =>
    constructor
    · intro h
      exact ⟨_, Coxmatch.length_exp.mpr ⟨h, rfl⟩⟩
    · rintro ⟨n, hn⟩
      exact (Coxmatch.length_exp.mp hn).1

/-- The switches know the key, and not as the key of a ROFL field that the object is not. -/
def Known (e : ℕ × Oxm) : Prop :=
  match e.2.madeAs with
  | .ofb _ | .ofx _ => True
  | .packetRegister => False
  | .exp => e.2.oxm.oxmId.oxmClass = Openflow.OFPXMC_EXPERIMENTER ∧ OfxField.ofKey e.1 = none

instance (e : ℕ × Oxm) : Decidable (Known e) := by
  unfold Known
  cases e.2.madeAs <;> infer_instance

/-- The condition on an object and its key. -/
structure Survivable (e : ℕ × Oxm) : Prop where
  known : Known e
  sameSize : SameSize e.2.oxm
  kept : Coxmatches.Kept (e.1, e.2.oxm)

instance (e : ℕ × Oxm) : Decidable (Survivable e) :=
  decidable_of_iff (Known e ∧ SameSize e.2.oxm ∧ Coxmatches.Kept (e.1, e.2.oxm))
    ⟨fun h => ⟨h.1, h.2.1, h.2.2⟩, fun h => ⟨h.known, h.sameSize, h.kept⟩⟩

/-! ### Copies -/

theorem getAs_self {x : OxmMap} {k : ℕ} {o : Oxm} (h : (k, o) ∈ x.entries) (c : OxmClass) (hc : o.madeAs = c) :
    x.getAs k c = .ok o := by
  have hisA : o.madeAs.isA c = true := by
    subst hc
    cases o.madeAs <;> simp [OxmClass.isA]
  rw [getAs, Omap.find?_eq_some.mpr h]
  subst hc
  simp [hisA]

theorem copied_exp {x : OxmMap} {k : ℕ} {o : Oxm} (he : (k, o) ∈ x.entries) (hexp : o.madeAs = .exp)
    (hofb : OfbField.ofKey k = none) (hofx : OfxField.ofKey k = none)
    (hclass : k / 65536 % 65536 = Openflow.OFPXMC_EXPERIMENTER.toNat)
    (hwhole : k / 4294967296 * 4294967296 + k % 4294967296 / 512 * 512 = k) : x.copied k = .ok (some (k, o)) := by
  simp only [copied, hofb, hofx, hclass, if_true, hwhole, getAs_self he .exp hexp]
  rfl

/-- What is known is copied as it is. -/
theorem copied_eq {x : OxmMap} {e : ℕ × Oxm} (he : e ∈ x.entries) (hmade : Made e) (hknown : Known e) :
    x.copied e.1 = .ok (some e) := by
  cases hmade with
  | ofb f h => simp [copied, getAs_self he (.ofb f) rfl, bind, Except.bind, pure, Except.pure]
  | ofx f h => simp [copied, Coxmatches.ofKey_ofx, getAs_self he (.ofx f) rfl, bind, Except.bind, pure, Except.pure]
  | packetRegister id hclass => exact hknown.elim
  | exp id expId hmask =>
    obtain ⟨hclass, hnone⟩ : id.oxmClass = Openflow.OFPXMC_EXPERIMENTER ∧ OfxField.ofKey (expKey expId id) = none :=
      hknown
    obtain ⟨hpart, hwhole⟩ := Coxmatches.expKey_parts expId id
    rw [hclass] at hpart
    exact copied_exp he rfl (Coxmatches.ofKey_expKey hclass expId) hnone hpart hwhole

/-- An experimenter OXM under the key of a ROFL field is taken for that field. -/
theorem copied_cast {x : OxmMap} {k : ℕ} {o : Oxm} (he : (k, o) ∈ x.entries) (hexp : o.madeAs = .exp) {f : OfxField}
    (hf : OfxField.ofKey k = some f) : x.copied k = .error .badCast := by
  obtain rfl := OfxField.key_of_ofKey hf
  have hcast : x.getAs f.key (.ofx f) = .error .badCast := by
    rw [getAs, Omap.find?_eq_some.mpr he]
    simp [hexp, OxmClass.isA]
  simp only [copied, Coxmatches.ofKey_ofx, OfxField.ofKey_key, hcast]
  rfl

theorem foldlM_copyStep {x : OxmMap} {es : List (ℕ × Oxm)} (h : ∀ e ∈ es, x.copied e.1 = .ok (some e)) (y : OxmMap) :
    (es.map Prod.fst).foldlM x.copyStep y = .ok (es.foldl (fun y e => y.insert e.1 e.2) y) := by
  induction es generalizing y with
  | nil => rfl
  | cons e es ih =>
    have hstep : x.copyStep y e.1 = .ok (y.insert e.1 e.2) := by
      rw [copyStep, h e (by simp)]
      rfl
    rw [List.map_cons, List.foldlM_cons, hstep, List.foldl_cons]
    exact ih (fun d hd => h d (by simp [hd])) _

/-- Every key of the map has its turn. -/
theorem copied_of_foldlM {x y z : OxmMap} {ks : List ℕ} (h : ks.foldlM x.copyStep y = .ok z) :
    ∀ k ∈ ks, ∃ o, x.copied k = .ok o := by
  induction ks generalizing y with
  | nil => exact fun k hk => by cases hk
  | cons d ks ih =>
    obtain ⟨w, hw, h⟩ := Except.bind_eq_ok.mp h
    obtain ⟨o, ho, -⟩ := Except.bind_eq_ok.mp hw
    intro k hk
    rcases List.mem_cons.mp hk with rfl | hk
    · exact ⟨o, ho⟩
    · exact ih h k hk

/-! ### The wire -/

/-- What is known is read back, if it is kept. -/
theorem fromWire_iff {e : ℕ × Oxm} (hmade : Made e) {n : ℕ} (hlen : e.2.oxm.length = .ok n) (hknown : Known e) :
    Coxmatches.FromWire (e.1, e.2.oxm.packed) ↔ Coxmatches.Kept (e.1, e.2.oxm) := by
  cases hmade with
  | ofb f h => exact Coxmatches.fromWire_iff_kept h hlen
  | ofx f h => exact Coxmatches.fromWire_iff_kept h hlen
  | packetRegister id hclass => exact hknown.elim
  | @exp id expId value mask hmask =>
    obtain ⟨hclass, hnone⟩ : id.oxmClass = Openflow.OFPXMC_EXPERIMENTER ∧ OfxField.ofKey (expKey expId id) = none :=
      hknown
    have hkey : ∀ f : OfxField, expKey expId id ≠ f.key := fun f hf => by
      rw [hf, OfxField.ofKey_key] at hnone
      cases hnone
    constructor
    · intro h
      exact ⟨h.exp_length hmask, .inr ⟨hkey .nwSrc, hkey .nwDst⟩⟩
    · intro h
      have hcount : 4 + value.length + mask.length = id.oxmLength.toNat := h.1
      exact .exp hclass hnone ((Coxmatches.decoded_exp hmask hlen).mpr ⟨hcount, .inr rfl⟩)

/-- A map survives if and only if every object in it does. -/
theorem survives_iff {x : OxmMap} (hbuilt : x.Built) : x.Survives ↔ ∀ e ∈ x.entries, Survivable e := by
  have hmade := hbuilt.made
  have hmasks : ∀ e ∈ x.oxms.entries, Coxmatches.MaskSet e.2 := fun e he => by
    obtain ⟨d, hd, rfl⟩ := List.mem_map.mp he
    exact (hmade d hd).maskSet
  constructor
  · rintro ⟨⟨y, hcopy, -⟩, n, hn, hwire⟩ e he
    have hzero : (List.replicate n (0 : UInt8)).length = n := List.length_replicate
    obtain ⟨x', buf', hpack, hunpack⟩ := hwire _ hzero
    have hentry : (e.1, e.2.oxm) ∈ x.oxms.entries := List.mem_map.mpr ⟨e, he, rfl⟩
    obtain ⟨k, hk⟩ := Coxmatches.length_of_lengths hn _ hentry
    have hfrom : Coxmatches.FromWire (e.1, e.2.oxm.packed) := by
      rw [Coxmatches.pack_eq hmasks hn hzero.ge] at hpack
      cases hpack
      exact Coxmatches.fromWire_of_unpack_eq hunpack _ (List.mem_map.mpr ⟨_, hentry, rfl⟩)
    have hclass := hfrom.class_eq
    have hknown : Known e := by
      cases hmade e he with
      | ofb f h => trivial
      | ofx f h => trivial
      | packetRegister id hreg =>
        have hbasic : id.oxmClass = Openflow.OFPXMC_OPENFLOW_BASIC := hclass
        rw [hreg] at hbasic
        exact absurd hbasic (by decide)
      | exp id expId hmask =>
        refine ⟨hclass, ?_⟩
        cases hkey : OfxField.ofKey (expKey expId id) with
        | none => rfl
        | some f =>
          obtain ⟨o, ho⟩ := copied_of_foldlM hcopy (expKey expId id) (List.mem_map_of_mem he)
          rw [copied_cast he rfl hkey] at ho
          cases ho
    exact ⟨hknown, sameSize_iff.mpr ⟨k, hk⟩, (fromWire_iff (hmade e he) hk hknown).mp hfrom⟩
  · intro h
    constructor
    · have hfold := foldlM_copyStep (fun e he => copied_eq he (hmade e he) (h e he).known) .empty
      refine ⟨_, hfold, ?_⟩
      rw [x.foldl_insert fun _ o => o]
      refine Omap.ext ?_
      simp [oxms, Omap.map]
    · have hlength : ∀ e ∈ x.oxms.entries, ∃ n, e.2.length = .ok n := fun e he => by
        obtain ⟨d, hd, rfl⟩ := List.mem_map.mp he
        exact sameSize_iff.mp (h d hd).sameSize
      have hwire : ∀ e ∈ x.oxms.entries, Coxmatches.FromWire (e.1, e.2.packed) := fun e he => by
        obtain ⟨n, hn⟩ := hlength e he
        obtain ⟨d, hd, rfl⟩ := List.mem_map.mp he
        exact (fromWire_iff (hmade d hd) hn (h d hd).known).mpr (h d hd).kept
      obtain ⟨n, hn⟩ := Coxmatches.exists_lengths hlength
      refine ⟨n, hn, fun buf hbuf => ⟨_, _, Coxmatches.pack_eq hmasks hn hbuf.ge, ?_⟩⟩
      have hread := Coxmatches.unpack_packed hmasks hn hwire 0
      rwa [List.drop_of_length_le hbuf.le]

/-- HTTP from a network, and a field of another experimenter with a mask. -/
def http : OxmMap :=
  run [.field (.addOfb .ethType 0x800), .field (.addOfbMask .ipv4Src 0x0a000000 0xff000000),
    .field (.addOfb .tcpDst 80), .setExpMatchValue 0x00112233 ⟨Openflow.OFPXMC_EXPERIMENTER, 5, false, 0⟩ [1, 2],
    .setExpMatchMask 0x00112233 ⟨Openflow.OFPXMC_EXPERIMENTER, 5, false, 0⟩ [0xff, 0xfe]]

theorem survives_iff_http : http.Survives :=
  (survives_iff ⟨_, rfl⟩).mpr (by decide +kernel)

/-- A packet register is not copied. -/
theorem register_lost : ¬∀ x : OxmMap, x.Built → x.Survives := by
  intro h
  obtain ⟨⟨y, hcopy, hsame⟩, -⟩ := h (run [.addPacketRegister 3 5]) ⟨_, rfl⟩
  have hempty : copyMatches (run [.addPacketRegister 3 5]) = .ok .empty := by decide +kernel
  rw [hempty] at hcopy
  cases hcopy
  revert hsame
  decide +kernel

end OxmMap
end RoflCommon
