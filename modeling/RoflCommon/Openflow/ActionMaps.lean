/-
The two maps of `cofactions`: `actions` has the objects, and `actions_index` the type of
each, which the switches over an index ask for.

All that is done to a list keeps the maps together (`Cofactions.represented_iff`), with one exception:
`drop_action_*()` looks the index up with `operator[]`, which makes an entry of type zero
where there is none. Zero is the type of an output action, so that the other drops throw,
and the entry stays without an action (`Cofactions.Meets`).
-/
import RoflCommon.Lib.Omap
import RoflCommon.Openflow.ActionPack

namespace RoflCommon

open Window

/-- The exceptions of `cofactions`, and those of what it calls. -/
inductive ActionsException
  | invalid
  | badVersion
  | actionNotFound
  | actionInvalType
  | badCast
  | outOfRange
  | codec (e : CodecException)
deriving DecidableEq, Repr

/-- What a call returns with; a null pointer that is followed is an overrun. -/
abbrev ActionsAnswer (α : Type) := Except (Fault ActionsException) α

def liftCodec {α : Type} : Unpacked α → ActionsAnswer α
  | .ok a => .ok a
  | .error .overrun => .error .overrun
  | .error (.thrown e) => raise (.codec e)

/-- An object as its constructor makes it. -/
def ActionClass.new : ActionClass → Cofaction
  | output => .output 0 128
  | c => c.object []

/-- `cofactions`. -/
structure Cofactions where
  ofpVersion : UInt8
  actionsIndex : Omap ℕ ℕ
  actions : Omap ℕ (Option Cofaction)
deriving DecidableEq

namespace Cofactions

def new (v : UInt8) : Cofactions := ⟨v, .empty, .empty⟩

def length (x : Cofactions) : Unpacked ℕ :=
  x.actions.values.foldlM (fun n p =>
    match p with
    | none => .error .overrun
    | some a => do return n + (← a.length x.ofpVersion)) 0

/-- A new object under an index, in both maps. -/
def put (x : Cofactions) (c : ActionClass) (i : ℕ) : Cofactions :=
  { x with actionsIndex := x.actionsIndex.insert i c.type, actions := x.actions.insert i (some c.new) }

/-- What the reference to the object under an index is used for. -/
def write (x : Cofactions) (i : ℕ) (a : Cofaction) : Cofactions :=
  { x with actions := x.actions.insert i (some a) }

/-- `add_action_*()`. -/
def addAction (x : Cofactions) (c : ActionClass) (i : ℕ) : Cofactions × ActionsAnswer Unit :=
  if c.added x.ofpVersion = false then (x, raise .badVersion) else (x.put c i, .ok ())

/-- The reference that `set_action_*()` returns to an object that is there: `dynamic_cast`,
and before that a look at the type of what is to be an output action. -/
def cast (c : ActionClass) (a : Cofaction) : ActionsAnswer Cofaction :=
  if a.actionClass = c then .ok a else raise (if c = .output then .invalid else .badCast)

/-- `set_action_*()`. -/
def setAction (x : Cofactions) (c : ActionClass) (i : ℕ) : Cofactions × ActionsAnswer Unit :=
  if c.added x.ofpVersion = false then (x, raise .badVersion)
  else
    match x.actionsIndex.find? i with
    | none => (x.put c i, .ok ())
    | some _ =>
      -- `operator[]`, which makes a null pointer where there is none
      match (x.actions.find? i).getD none with
      | none => ({ x with actions := x.actions.insert i none }, .error .overrun)
      | some a => (x, (cast c a).map fun _ => ())

/-- `get_action_*()`. -/
def getAction (x : Cofactions) (c : ActionClass) (i : ℕ) : ActionsAnswer Cofaction :=
  match x.actionsIndex.find? i with
  | none => raise .actionNotFound
  | some type =>
    if type ≠ c.type then raise .actionNotFound
    else
      match x.actions.find? i with
      | none => raise .outOfRange
      | some none => .error .overrun
      | some (some a) => if a.actionClass = c then .ok a else raise .badCast

/-- `drop_action()`. -/
def dropAction (x : Cofactions) (i : ℕ) : Cofactions :=
  match x.actionsIndex.find? i with
  | none => x
  | some _ => { x with actionsIndex := x.actionsIndex.erase i, actions := x.actions.erase i }

/-- `actions_index[index]`. -/
def lookUp (x : Cofactions) (i : ℕ) : Cofactions :=
  { x with actionsIndex := x.actionsIndex.alter i fun type => some (type.getD 0) }

/-- `drop_action_*()`. -/
def dropActionOf (x : Cofactions) (c : ActionClass) (i : ℕ) : Cofactions × ActionsAnswer Unit :=
  if ((x.lookUp i).actionsIndex.find? i).getD 0 ≠ c.type then (x.lookUp i, raise .actionInvalType)
  else ((x.lookUp i).dropAction i, .ok ())

def clear (x : Cofactions) : Cofactions := { x with actionsIndex := .empty, actions := .empty }

/-- An action is taken over from `y`. -/
def copyAction (y x : Cofactions) (i type : ℕ) : Cofactions × ActionsAnswer Unit :=
  match ActionClass.ofType x.ofpVersion type with
  | none => (x, .ok ())
  | some c =>
    match y.getAction c i with
    | .error e => (x, .error e)
    | .ok a =>
      match x.addAction c i with
      | (x, .error e) => (x, .error e)
      | (x, .ok ()) => (x.write i a, .ok ())

def copyFrom (y x : Cofactions) : List (ℕ × ℕ) → Cofactions × ActionsAnswer Unit
  | [] => (x, .ok ())
  | (i, type) :: es =>
    match copyAction y x i type with
    | (x, .error e) => (x, .error e)
    | (x, .ok ()) => copyFrom y x es

/-- `operator=`, of another object. -/
def copy (x y : Cofactions) : Cofactions × ActionsAnswer Unit :=
  copyFrom y { x.clear with ofpVersion := y.ofpVersion } y.actionsIndex.entries

/-- `add_action_*().unpack()`. `left` is what becomes of an object that throws. -/
def unpackAction (left : Cofaction) (x : Cofactions) (c : ActionClass) (i : ℕ) (buf : List UInt8) (len : ℕ) :
    Cofactions × ActionsAnswer Unit :=
  match x.addAction c i with
  | (x, .error e) => (x, .error e)
  | (x, .ok ()) =>
    match liftCodec (Cofaction.unpack x.ofpVersion c buf len) with
    | .ok a => (x.write i a, .ok ())
    | .error e => (if left.actionClass = c then x.write i left else x, .error e)

/-- The type and the length of an action. -/
def header (buf : List UInt8) : ActionsAnswer (ℕ × ℕ) := do
  return (← numberAt buf 0 2, ← numberAt buf 2 2)

/-- The loop of `unpack`, in so many turns at most. -/
def unpackFrom (left : Cofaction) : ℕ → Cofactions → ℕ → List UInt8 → ℕ → Cofactions × ActionsAnswer Unit
  | 0, x, _, _, _ => (x, .ok ())
  | k + 1, x, i, buf, buflen =>
    if buflen < 8 then (x, .ok ())
    else
      match header buf with
      | .error e => (x, .error e)
      | .ok (type, len) =>
        if len < 8 then (x, .ok ())
        else if buflen < len then (x, raise (.codec .badActionBadLen))
        else
          match ActionClass.ofType x.ofpVersion type with
          | none => unpackFrom left k x i (buf.drop len) (buflen - len)
          | some c =>
            match unpackAction left x c i buf len with
            | (x, .error e) => (x, .error e)
            | (x, .ok ()) => unpackFrom left k x (i + 1) (buf.drop len) (buflen - len)

def unpackMaps (left : Cofaction) (x : Cofactions) (buf : List UInt8) (buflen : ℕ) : Cofactions × ActionsAnswer Unit :=
  if buflen = 0 then (x, .ok ())
  else if buflen < 8 then (x.clear, raise (.codec .invalid))
  else unpackFrom left (buflen + 1) x.clear 0 buf buflen

/-! ## Runs -/

inductive Op
  | add (c : ActionClass) (i : ℕ)
  | set (c : ActionClass) (i : ℕ)
  | write (i : ℕ) (a : Cofaction)
  | get (c : ActionClass) (i : ℕ)
  | drop (i : ℕ)
  | dropOf (c : ActionClass) (i : ℕ)
  | clear
  | copy (y : Cofactions)
  | unpack (buf : List UInt8) (buflen : ℕ) (left : Cofaction)

/-- The reference to an object is one to its class. -/
def writable (x : Cofactions) (i : ℕ) (a : Cofaction) : Bool :=
  match x.actions.find? i with
  | some (some b) => decide (a.actionClass = b.actionClass)
  | _ => false

def step (x : Cofactions) : Op → Cofactions × ActionsAnswer Unit
  | .add c i => x.addAction c i
  | .set c i => x.setAction c i
  | .write i a => (if x.writable i a then x.write i a else x, .ok ())
  | .get c i => (x, (x.getAction c i).map fun _ => ())
  | .drop i => (x.dropAction i, .ok ())
  | .dropOf c i => x.dropActionOf c i
  | .clear => (x.clear, .ok ())
  | .copy y => x.copy y
  | .unpack buf buflen left => x.unpackMaps left buf buflen

/-- A new list, after operations with `P`. -/
inductive Reached (P : Cofactions → Op → Prop) : Cofactions → Prop
  | new (v : UInt8) : Reached P (new v)
  | step {x : Cofactions} {op : Op} (hx : Reached P x) (hop : P x op) : Reached P (x.step op).1

/-- The maps have the same indices, with the type of the object under each, and the
length is that of all the objects. -/
structure Represented (x : Cofactions) : Prop where
  domain : x.actionsIndex.keys = x.actions.keys
  types : ∀ i type, x.actionsIndex.find? i = some type → ∃ a, x.actions.find? i = some (some a) ∧ a.type = type
  lengths : ∃ as : List Cofaction, x.actions.values = as.map some ∧
    x.length = (as.mapM (Cofaction.length x.ofpVersion)).map List.sum

/-- A drop that fails, or finds nothing to drop, changes nothing. -/
def DropsNothing (x : Cofactions) (op : Op) : Prop :=
  ∀ i, (op = .drop i ∨ ∃ c, op = .dropOf c i) → ((∃ e, (x.step op).2 = .error e) ∨ x.actions.find? i = none) →
    (x.step op).1 = x

/-- It is not a drop, of an action other than output, of an index that is not there. -/
def Meets (x : Cofactions) : Op → Prop
  | .dropOf c i => c = .output ∨ (x.actionsIndex.find? i).isSome
  | _ => True

/-! ## The maps together -/

/-- An index is in both maps or in neither. -/
def Agree (v : UInt8) : Option ℕ → Option (Option Cofaction) → Prop
  | none, none => True
  | some type, some (some a) => a.type = type ∧ a.actionClass.added v = true
  | _, _ => False

def Kept (x : Cofactions) : Prop := ∀ i, Agree x.ofpVersion (x.actionsIndex.find? i) (x.actions.find? i)

theorem actionClass_new (c : ActionClass) : c.new.actionClass = c := by
  cases c <;> rfl

theorem Agree.some_left {v : UInt8} {type : ℕ} {p : Option (Option Cofaction)} (h : Agree v (some type) p) :
    ∃ a, p = some (some a) ∧ a.type = type ∧ a.actionClass.added v = true := by
  match p, h with
  | some (some a), h => exact ⟨a, rfl, h⟩

theorem Agree.some_right {v : UInt8} {t : Option ℕ} {p : Option Cofaction} (h : Agree v t (some p)) :
    ∃ a, p = some a ∧ t = some a.type ∧ a.actionClass.added v = true := by
  match t, p, h with
  | some type, some a, h => exact ⟨a, rfl, congrArg some h.1.symm, h.2⟩

theorem Agree.none_right {v : UInt8} {t : Option ℕ} (h : Agree v t none) : t = none := by
  match t, h with
  | none, _ => rfl

theorem Agree.none_left {v : UInt8} {p : Option (Option Cofaction)} (h : Agree v none p) : p = none := by
  match p, h with
  | none, _ => rfl

section

variable {x : Cofactions} {c : ActionClass} {i : ℕ}

theorem kept_new (v : UInt8) : (new v).Kept := fun _ => trivial

theorem kept_clear (x : Cofactions) : x.clear.Kept := fun _ => trivial

theorem kept_put (hx : x.Kept) (hc : c.added x.ofpVersion = true) : (x.put c i).Kept := by
  intro j
  simp only [put, Omap.find?_insert]
  split
  · exact ⟨congrArg ActionClass.type (actionClass_new c), by rwa [actionClass_new]⟩
  · exact hx j

theorem kept_write (hx : x.Kept) {a b : Cofaction} (hb : x.actions.find? i = some (some b))
    (hab : a.actionClass = b.actionClass) : (x.write i a).Kept := by
  intro j
  simp only [write, Omap.find?_insert]
  split
  · next hj =>
    subst hj
    have hagree := hx j
    rw [hb] at hagree
    obtain ⟨b', hb', htype, hadded⟩ := hagree.some_right
    cases hb'
    rw [htype]
    exact ⟨congrArg ActionClass.type hab, by rwa [hab]⟩
  · exact hx j

/-- `add_action_*()` with a reference that is written through. -/
theorem kept_put_write (hx : x.Kept) (hc : c.added x.ofpVersion = true) {a : Cofaction} (ha : a.actionClass = c) :
    ((x.put c i).write i a).Kept :=
  kept_write (kept_put hx hc) (b := c.new) (by simp [put]) (by rw [actionClass_new, ha])

theorem kept_addAction (hx : x.Kept) : (x.addAction c i).1.Kept := by
  unfold addAction
  split
  · exact hx
  · next hc => exact kept_put hx (by simpa using hc)

theorem kept_setAction (hx : x.Kept) : (x.setAction c i).1.Kept := by
  have hagree := hx i
  unfold setAction
  split
  · exact hx
  · next hc =>
    cases htype : x.actionsIndex.find? i with
    | none => exact kept_put hx (by simpa using hc)
    | some type =>
      rw [htype] at hagree
      obtain ⟨a, ha, _⟩ := hagree.some_left
      dsimp only
      rw [ha]
      exact hx

theorem kept_dropAction (hx : x.Kept) : (x.dropAction i).Kept := by
  unfold dropAction
  split
  · exact hx
  · intro j
    simp only [Omap.find?_erase]
    split
    · exact trivial
    · exact hx j

theorem find?_lookUp (x : Cofactions) (i j : ℕ) :
    (x.lookUp i).actionsIndex.find? j =
      if j = i then some ((x.actionsIndex.find? i).getD 0) else x.actionsIndex.find? j := by
  simp [lookUp]

/-- Looking up an index that is there makes nothing. -/
theorem lookUp_eq (h : (x.actionsIndex.find? i).isSome) : x.lookUp i = x := by
  obtain ⟨type, htype⟩ := Option.isSome_iff_exists.mp h
  have hindex : (x.lookUp i).actionsIndex = x.actionsIndex := Omap.ext_find? fun j => by
    rw [find?_lookUp]
    split
    · next hj => rw [hj, htype, Option.getD_some]
    · rfl
  show { x with actionsIndex := (x.lookUp i).actionsIndex } = x
  rw [hindex]

/-- The entry that `operator[]` makes for an output action is dropped again. -/
theorem dropActionOf_output (hx : x.Kept) (h : x.actionsIndex.find? i = none) :
    x.dropActionOf .output i = (x, .ok ()) := by
  have hagree := hx i
  rw [h] at hagree
  have hactions : x.actions.erase i = x.actions := Omap.erase_of_find?_eq_none hagree.none_left
  have hindex : (x.lookUp i).actionsIndex.erase i = x.actionsIndex := Omap.ext_find? fun j => by
    rw [Omap.find?_erase, find?_lookUp]
    split
    · next hj => rw [hj, h]
    · rfl
  have hfound : (x.lookUp i).actionsIndex.find? i = some 0 := by rw [find?_lookUp, if_pos rfl, h, Option.getD_none]
  rw [dropActionOf, hfound]
  simp only [Option.getD_some, ActionClass.type, ne_eq, not_true_eq_false, if_false, dropAction, hfound]
  rw [hindex]
  show ({ x with actions := x.actions.erase i }, _) = _
  rw [hactions]

theorem kept_dropActionOf (hx : x.Kept) (h : c = .output ∨ (x.actionsIndex.find? i).isSome) :
    (x.dropActionOf c i).1.Kept := by
  by_cases hsome : (x.actionsIndex.find? i).isSome
  · rw [dropActionOf, lookUp_eq hsome]
    split
    · exact hx
    · exact kept_dropAction hx
  · have hc := h.resolve_right hsome
    rw [hc, dropActionOf_output hx (by simpa using hsome)]
    exact hx

/-! ### Copying -/

theorem getAction_eq_ok {a : Cofaction} (h : x.getAction c i = .ok a) : a.actionClass = c := by
  unfold getAction at h
  split at h
  · cases h
  · split at h
    · cases h
    · split at h
      · cases h
      · cases h
      · split at h
        · next hclass =>
          cases h
          exact hclass
        · cases h

theorem addAction_eq_ok {x' : Cofactions} {u : Unit} (h : x.addAction c i = (x', .ok u)) :
    c.added x.ofpVersion = true ∧ x' = x.put c i := by
  unfold addAction at h
  split at h
  · cases h
  · next hc =>
    cases h
    exact ⟨by simpa using hc, rfl⟩

theorem addAction_eq_error {x' : Cofactions} {e : Fault ActionsException} (h : x.addAction c i = (x', .error e)) :
    x' = x := by
  unfold addAction at h
  split at h
  · cases h
    rfl
  · cases h

theorem kept_copyAction (hx : x.Kept) (y : Cofactions) (type : ℕ) : (copyAction y x i type).1.Kept := by
  unfold copyAction
  split
  · exact hx
  · split
    · exact hx
    · next hget =>
      split
      · next hadd =>
        rw [addAction_eq_error hadd]
        exact hx
      · next hadd =>
        obtain ⟨hc, rfl⟩ := addAction_eq_ok hadd
        exact kept_put_write hx hc (getAction_eq_ok hget)

theorem kept_copyFrom (hx : x.Kept) (y : Cofactions) (es : List (ℕ × ℕ)) : (copyFrom y x es).1.Kept := by
  induction es generalizing x with
  | nil => exact hx
  | cons e es ih =>
    have hstep := kept_copyAction hx y e.2 (i := e.1)
    rw [copyFrom]
    split
    · next hcopy =>
      rw [hcopy] at hstep
      exact hstep
    · next hcopy =>
      rw [hcopy] at hstep
      exact ih hstep

/-- What may be added is found by its type. -/
theorem ofType_of_added {v : UInt8} (hc : c.added v = true) : ActionClass.ofType v c.type = some c := by
  cases c with
  | enqueue | vendor => exact congrArg some (if_pos (eq_of_beq hc))
  | copyTtlOut | experimenter =>
    have hne : v ≠ Openflow10.OFP_VERSION := fun h => by
      rw [h] at hc
      exact absurd hc (by decide)
    exact congrArg some (if_neg hne)
  | _ => rfl

theorem copyAction_eq {y : Cofactions} (hy : y.Kept) (hv : x.ofpVersion = y.ofpVersion) {type : ℕ}
    (h : y.actionsIndex.find? i = some type) : copyAction y x i type =
      ({ x with
          actionsIndex := x.actionsIndex.insert i type
          actions := x.actions.insert i ((y.actions.find? i).getD none) }, .ok ()) := by
  have hagree := hy i
  rw [h] at hagree
  obtain ⟨a, ha, rfl, hadded⟩ := hagree.some_left
  have hget : y.getAction a.actionClass i = .ok a := by
    rw [getAction, h]
    dsimp only
    rw [if_neg (not_not.mpr (show a.type = a.actionClass.type from rfl)), ha]
    exact if_pos rfl
  have hof : ActionClass.ofType x.ofpVersion a.type = some a.actionClass := ofType_of_added (hv ▸ hadded)
  have hadd : x.addAction a.actionClass i = (x.put a.actionClass i, .ok ()) :=
    if_neg (by rw [hv, hadded]; decide)
  rw [copyAction, hof]
  dsimp only
  rw [hget]
  dsimp only
  rw [hadd]
  dsimp only
  rw [write, put, Omap.insert_insert, ha]
  rfl

/-- A list whose maps are together is copied whole. -/
theorem copy_eq {y : Cofactions} (x : Cofactions) (hy : y.Kept) : x.copy y = (y, .ok ()) := by
  have hfrom : ∀ (es : List (ℕ × ℕ)) (z : Cofactions), z.ofpVersion = y.ofpVersion →
      (∀ e ∈ es, e ∈ y.actionsIndex.entries) → copyFrom y z es =
        ({ z with
            actionsIndex := es.foldl (fun m e => m.insert e.1 e.2) z.actionsIndex
            actions := es.foldl (fun m e => m.insert e.1 ((y.actions.find? e.1).getD none)) z.actions }, .ok ()) := by
    intro es
    induction es with
    | nil => exact fun z _ _ => rfl
    | cons e es ih =>
      intro z hv hes
      rw [copyFrom, copyAction_eq hy hv (Omap.find?_eq_some.mpr (hes e List.mem_cons_self))]
      exact ih _ hv fun e' he' => hes e' (List.mem_cons_of_mem e he')
  have hindex := Omap.foldl_insert y.actionsIndex fun _ type => type
  have hactions := Omap.foldl_insert y.actionsIndex fun i _ => (y.actions.find? i).getD none
  have hindex' : (y.actionsIndex.map fun _ type => type) = y.actionsIndex := Omap.ext_find? fun i => by
    rw [Omap.find?_map]
    exact Option.map_id'
  have hactions' : (y.actionsIndex.map fun i _ => (y.actions.find? i).getD none) = y.actions := by
    refine Omap.ext_find? fun i => ?_
    rw [Omap.find?_map]
    have hagree := hy i
    cases hi : y.actions.find? i with
    | none =>
      rw [hi] at hagree
      rw [hagree.none_right]
      rfl
    | some p =>
      rw [hi] at hagree
      obtain ⟨a, rfl, htype, _⟩ := hagree.some_right
      rw [htype]
      rfl
  refine (hfrom y.actionsIndex.entries (new y.ofpVersion) rfl fun e he => he).trans ?_
  rw [new, hindex, hactions, hindex', hactions']

theorem kept_copy (x y : Cofactions) : (x.copy y).1.Kept := kept_copyFrom (kept_clear _) y _

/-- No other list is. -/
theorem kept_of_copy {y : Cofactions} (h : x.copy y = (y, .ok ())) : y.Kept := by
  have hkept := kept_copy x y
  rwa [h] at hkept

/-! ### Unpacking -/

theorem actionClass_object (c : ActionClass) (vs : List ℕ) : (c.object vs).actionClass = c := by
  cases c <;> rfl

theorem actionClass_unpackSetField {len buflen : ℕ} {buf : List UInt8} {a : Cofaction}
    (h : Cofaction.unpackSetField len buf buflen = .ok a) : a.actionClass = .setField := by
  unfold Cofaction.unpackSetField at h
  split at h
  · cases h
  · obtain ⟨octets, _, h⟩ := Except.bind_eq_ok.mp h
    dsimp only at h
    split at h
    · cases h
    · obtain ⟨oxm, _, h⟩ := Except.bind_eq_ok.mp h
      cases h
      rfl

theorem actionClass_unpack {v : UInt8} {buf : List UInt8} {n : ℕ} {a : Cofaction}
    (h : Cofaction.unpack v c buf n = .ok a) : a.actionClass = c := by
  unfold Cofaction.unpack at h
  split at h
  · cases h
  · split at h
    · cases h
    · split at h
      · cases h
      · obtain ⟨hdr, _, h⟩ := Except.bind_eq_ok.mp h
        dsimp only at h
        split at h
        · cases h
        · obtain ⟨vs, _, h⟩ := Except.bind_eq_ok.mp h
          split at h
          · exact actionClass_unpackSetField h
          · obtain ⟨body, _, h⟩ := Except.bind_eq_ok.mp h
            cases h
            rfl
          · split at h
            · cases h
            · obtain ⟨body, _, h⟩ := Except.bind_eq_ok.mp h
              cases h
              rfl
          · cases h
            exact actionClass_object _ _

theorem liftCodec_eq_ok {α : Type} {r : Unpacked α} {a : α} (h : liftCodec r = .ok a) : r = .ok a := by
  match r, h with
  | .ok _, h => exact congrArg _ (Except.ok.inj h)
  | .error .overrun, h => cases h
  | .error (.thrown _), h => cases h

theorem kept_unpackAction (hx : x.Kept) (left : Cofaction) (buf : List UInt8) (len : ℕ) :
    (unpackAction left x c i buf len).1.Kept := by
  unfold unpackAction
  split
  · next hadd =>
    rw [addAction_eq_error hadd]
    exact hx
  · next hadd =>
    obtain ⟨hc, rfl⟩ := addAction_eq_ok hadd
    split
    · next hunpack => exact kept_put_write hx hc (actionClass_unpack (liftCodec_eq_ok hunpack))
    · dsimp only
      split
      · next hleft => exact kept_put_write hx hc hleft
      · exact kept_put hx hc

theorem kept_unpackFrom (hx : x.Kept) (left : Cofaction) (k : ℕ) (buf : List UInt8) (n : ℕ) :
    (unpackFrom left k x i buf n).1.Kept := by
  induction k generalizing x i buf n with
  | zero => exact hx
  | succ k ih =>
    rw [unpackFrom]
    split
    · exact hx
    · split
      · exact hx
      · split
        · exact hx
        · split
          · exact hx
          · split
            · exact ih hx _ _
            · next c _ =>
              have haction := kept_unpackAction hx left buf ‹ℕ› (c := c) (i := i)
              split
              · next hunpack =>
                rw [hunpack] at haction
                exact haction
              · next hunpack =>
                rw [hunpack] at haction
                exact ih haction _ _

theorem kept_unpackMaps (hx : x.Kept) (left : Cofaction) (buf : List UInt8) (n : ℕ) :
    (x.unpackMaps left buf n).1.Kept := by
  unfold unpackMaps
  split
  · exact hx
  · split
    · exact kept_clear x
    · exact kept_unpackFrom (kept_clear x) left _ buf n

/-! ### Runs -/

theorem kept_step (hx : x.Kept) {op : Op} (hop : x.Meets op) : (x.step op).1.Kept := by
  cases op with
  | add c i => exact kept_addAction hx
  | set c i => exact kept_setAction hx
  | write i a =>
    dsimp only [step]
    split
    · next hw =>
      unfold writable at hw
      split at hw
      · next b hb => exact kept_write hx hb (by simpa using hw)
      · cases hw
    · exact hx
  | get c i => exact hx
  | drop i => exact kept_dropAction hx
  | dropOf c i => exact kept_dropActionOf hx hop
  | clear => exact kept_clear x
  | copy y => exact kept_copy x y
  | unpack buf n left => exact kept_unpackMaps hx left buf n

theorem Reached.kept (hx : Reached Meets x) : x.Kept := by
  induction hx with
  | new v => exact kept_new v
  | step _ hop ih => exact kept_step ih hop

theorem foldlM_length (v : UInt8) (as : List Cofaction) (n : ℕ) :
    ((as.map some).foldlM (fun n p =>
      match p with
      | none => .error .overrun
      | some a => do return n + (← a.length v)) n : Unpacked ℕ) =
        ((as.mapM (Cofaction.length v)).map List.sum).map (n + ·) := by
  induction as generalizing n with
  | nil => rfl
  | cons a as ih =>
    rw [List.map_cons, List.foldlM_cons, List.mapM_cons]
    dsimp only
    cases ha : a.length v with
    | error e => rfl
    | ok m =>
      show List.foldlM _ (n + m) _ = _
      rw [ih]
      cases as.mapM (Cofaction.length v) with
      | error e => rfl
      | ok ms => exact congrArg Except.ok (by simp [Nat.add_assoc])

theorem Kept.domain (hx : x.Kept) : x.actionsIndex.keys = x.actions.keys := by
  refine Omap.keys_eq_of_isSome fun i => ?_
  have hagree := hx i
  cases hactions : x.actions.find? i with
  | none =>
    rw [hactions] at hagree
    rw [hagree.none_right]
    rfl
  | some p =>
    rw [hactions] at hagree
    obtain ⟨a, _, htype, _⟩ := hagree.some_right
    rw [htype]
    rfl

theorem Kept.values (hx : x.Kept) : ∃ as : List Cofaction, x.actions.values = as.map some := by
  have hsome : ∀ p ∈ x.actions.values, p.isSome := fun p hp => by
    obtain ⟨e, he, rfl⟩ := List.mem_map.mp hp
    have hagree := hx e.1
    rw [Omap.find?_eq_some.mpr he] at hagree
    obtain ⟨a, ha, _⟩ := hagree.some_right
    rw [ha]
    rfl
  exact ⟨x.actions.values.attach.map fun p => p.1.get (hsome p.1 p.2), by simp⟩

theorem Kept.represented (hx : x.Kept) : x.Represented := by
  obtain ⟨as, has⟩ := hx.values
  refine ⟨hx.domain, fun i type h => ?_, as, has, ?_⟩
  · have hagree := hx i
    rw [h] at hagree
    obtain ⟨a, ha, htype, _⟩ := hagree.some_left
    exact ⟨a, ha, htype⟩
  · rw [length, has, foldlM_length]
    cases as.mapM (Cofaction.length x.ofpVersion) with
    | error e => rfl
    | ok ms => exact congrArg Except.ok (Nat.zero_add _)

theorem Kept.dropsNothing (hx : x.Kept) {op : Op} (hop : x.Meets op) : x.DropsNothing op := by
  have habsent : ∀ i, x.actions.find? i = none → x.actionsIndex.find? i = none := fun i h => by
    have hagree := hx i
    rw [h] at hagree
    exact hagree.none_right
  rintro i (rfl | ⟨c, rfl⟩) hnothing
  · have hnone := habsent i (hnothing.resolve_left fun ⟨e, h⟩ => by cases h)
    simp only [step, dropAction, hnone]
  · show (x.dropActionOf c i).1 = x
    by_cases hsome : (x.actionsIndex.find? i).isSome
    · obtain ⟨e, he⟩ := hnothing.resolve_right fun h => by simp [habsent i h] at hsome
      change (x.dropActionOf c i).2 = _ at he
      unfold dropActionOf at he ⊢
      rw [lookUp_eq hsome] at he ⊢
      split at he
      · next hne => rw [if_pos hne]
      · cases he
    · have hc : c = .output := hop.resolve_right hsome
      rw [hc, dropActionOf_output hx (by simpa using hsome)]

/-- A drop of an index that is not there leaves an entry without an action. -/
theorem not_represented_of_not_meets (hx : x.Kept) {op : Op} (hop : ¬x.Meets op) : ¬(x.step op).1.Represented := by
  cases op with
  | dropOf c i =>
    obtain ⟨hc, hsome⟩ := not_or.mp hop
    have hnone : x.actionsIndex.find? i = none := by simpa using hsome
    have hagree := hx i
    rw [hnone] at hagree
    have hfound : (x.lookUp i).actionsIndex.find? i = some 0 := by rw [find?_lookUp, if_pos rfl, hnone, Option.getD_none]
    have hne : 0 ≠ c.type := by
      cases c <;> first | exact absurd rfl hc | decide
    intro h
    change (x.dropActionOf c i).1.Represented at h
    rw [dropActionOf, hfound, Option.getD_some, if_pos hne] at h
    obtain ⟨a, ha, _⟩ := h.types i 0 hfound
    cases hagree.none_left.symm.trans ha
  | _ => exact absurd trivial hop

end

/-- While no operation drops what is not there, the two maps say the same, and the next
one keeps them so just if it is not such a drop either. -/
theorem represented_iff {x : Cofactions} (hx : Reached Meets x) (op : Op) :
    x.Represented ∧ (x.Meets op ↔ (x.step op).1.Represented ∧ x.DropsNothing op) :=
  ⟨hx.kept.represented,
    fun hop => ⟨(kept_step hx.kept hop).represented, hx.kept.dropsNothing hop⟩,
    fun h => by_contra fun hop => not_represented_of_not_meets hx.kept hop h.1⟩

/-- An output action that is set to port 2, a group that is added and set, and a queue that is dropped. -/
def worked : Cofactions :=
  [.add .output 0, .write 0 (.output 2 0xffff), .add .group 1, .set .group 1, .add .setQueue 2, .dropOf .setQueue 2].foldl
    (fun x op => (x.step op).1) (new Openflow13.OFP_VERSION)

theorem represented_iff_worked : worked.Represented ∧ (worked.step (.dropOf .group 1)).1.Represented ∧
    (worked.step (.dropOf .group 1)).2 = .ok () := by
  have hreached : Reached Meets worked :=
    .step (.step (.step (.step (.step (.step (.new _) trivial) trivial) trivial) trivial) trivial) (.inr (by decide))
  obtain ⟨hrepresented, hiff⟩ := represented_iff hreached (.dropOf .group 1)
  exact ⟨hrepresented, (hiff.mp (.inr (by decide))).1, by decide⟩

/-- A drop that fails leaves an entry in the index of an empty list. -/
theorem dropped_from_empty :
    Reached (fun _ _ => True) ((new Openflow13.OFP_VERSION).step (.dropOf .group 4)).1 ∧
      ((new Openflow13.OFP_VERSION).step (.dropOf .group 4)).2 = raise .actionInvalType ∧
      ¬((new Openflow13.OFP_VERSION).step (.dropOf .group 4)).1.Represented := by
  refine ⟨.step (.new _) trivial, rfl, fun h => ?_⟩
  have hdomain := h.domain
  revert hdomain
  decide

end Cofactions
end RoflCommon
