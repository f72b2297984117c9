/-
Lists of ports: `cofport` and `cofports`.

The name of a port is copied by `strncpy`, without its last character. A list that is packed
into zeros comes back if and only if each of its ports has its ethernet property
(`Cofports.comesBack_iff`).
-/
import RoflCommon.Openflow.Coftables
import RoflCommon.Openflow.TextArrays

namespace RoflCommon

open Octets Snprintf

/-- `cofportdesc_prop_ethernet`. -/
structure CofportdescPropEthernet where
  curr : UInt32
  advertised : UInt32
  supported : UInt32
  peer : UInt32
  currSpeed : UInt32
  maxSpeed : UInt32
deriving DecidableEq

/-- `cofport`, with the one property that there was before version 1.4. -/
structure Cofport where
  ofpVersion : UInt8
  portno : UInt32
  hwaddr : BitVec 48
  name : List UInt8
  config : UInt32
  state : UInt32
  ethernet : Option CofportdescPropEthernet
deriving DecidableEq

def Openflow.OFP_MAX_PORT_NAME_LEN : ℕ := 16

namespace Cofport

/-- `struct ofp_port`; the one of 1.4 is for ports with more properties. -/
def layout (v : UInt8) : Option Record.Layout :=
  if v = Openflow10.OFP_VERSION then
    some [.field 2, .field 6, .field 16, .field 4, .field 4, .field 4, .field 4, .field 4, .field 4]
  else if v = Openflow12.OFP_VERSION ∨ v = Openflow13.OFP_VERSION then
    some [.field 4, .pad 4, .field 6, .pad 2, .field 16, .field 4, .field 4, .field 4, .field 4, .field 4, .field 4,
          .field 4, .field 4]
  else none

/-- Where the name is in a structure. -/
def nameOffset (v : UInt8) : ℕ := if v = Openflow10.OFP_VERSION then 8 else 16

def size (p : Cofport) : ℕ := Record.size ((layout p.ofpVersion).getD [])

/-- The last character stays what it was in the buffer, unless the name is too long. -/
def nameField (name : List UInt8) (last : UInt8) : List UInt8 :=
  strncpy name (Openflow.OFP_MAX_PORT_NAME_LEN - 1) ++
    [if name.length ≥ Openflow.OFP_MAX_PORT_NAME_LEN then 0 else last]

def fields (p : Cofport) (eth : CofportdescPropEthernet) (last : UInt8) : List ℕ :=
  let name := number (nameField p.name last)
  if p.ofpVersion = Openflow10.OFP_VERSION then
    [p.portno.toNat % 65536, p.hwaddr.toNat, name, p.config.toNat, p.state.toNat, eth.curr.toNat, eth.advertised.toNat,
     eth.supported.toNat, eth.peer.toNat]
  else
    [p.portno.toNat, p.hwaddr.toNat, name, p.config.toNat, p.state.toNat, eth.curr.toNat, eth.advertised.toNat,
     eth.supported.toNat, eth.peer.toNat, eth.currSpeed.toNat, eth.maxSpeed.toNat]

def pack (p : Cofport) (buf : List UInt8) : Except TextException (List UInt8) :=
  match layout p.ofpVersion with
  | none => .error .badVersion
  | some l =>
    if buf.length < Record.size l then .error .inval
    else
      match p.ethernet with
      | none => .error .propNotFound
      | some eth => .ok (Record.write l (p.fields eth (buf.getD (nameOffset p.ofpVersion + 15) 0)) buf)

/-- What is read into a new port, which is given the property. -/
def ofFields (v : UInt8) : List ℕ → Cofport
  | [portno, hwaddr, name, config, state, curr, advertised, supported, peer] =>
    ⟨v, .ofNat portno, .ofNat 48 hwaddr, text (octets 16 name), .ofNat config, .ofNat state,
     some ⟨.ofNat curr, .ofNat advertised, .ofNat supported, .ofNat peer, 0, 0⟩⟩
  | [portno, hwaddr, name, config, state, curr, advertised, supported, peer, currSpeed, maxSpeed] =>
    ⟨v, .ofNat portno, .ofNat 48 hwaddr, text (octets 16 name), .ofNat config, .ofNat state,
     some ⟨.ofNat curr, .ofNat advertised, .ofNat supported, .ofNat peer, .ofNat currSpeed, .ofNat maxSpeed⟩⟩
  | _ => ⟨v, 0, 0, [], 0, 0, none⟩

/-- A new port of the version unpacks. -/
def unpack (v : UInt8) (buf : List UInt8) : Except TextException Cofport :=
  match layout v with
  | none => .error .badVersion
  | some l => if buf.length < Record.size l then .error .inval else .ok (ofFields v (Record.read l buf))

/-- What the structure of the version has fields for: no speeds in 1.0. -/
def carried (p : Cofport) : Cofport :=
  if p.ofpVersion = Openflow10.OFP_VERSION then
    { p with ethernet := p.ethernet.map fun eth => { eth with currSpeed := 0, maxSpeed := 0 } }
  else p

end Cofport

/-- `cofports`. -/
structure Cofports where
  ofpVersion : UInt8
  ports : Omap ℕ Cofport
deriving DecidableEq

namespace Cofports

def new (ofpVersion : UInt8) : Cofports := ⟨ofpVersion, .empty⟩

def length (x : Cofports) : ℕ := (x.ports.entries.map fun e => e.2.size).sum

/-- How far the loop goes with a port. -/
def stride (x : Cofports) (p : Cofport) : ℕ := if x.ofpVersion = Openflow10.OFP_VERSION then 48 else p.size

def pack (x : Cofports) (buf : List UInt8) : Except TextException (List UInt8) :=
  if buf.length < x.length then .error .inval
  else if (Cofport.layout x.ofpVersion).isNone then .error .badVersion
  else Tlv.packAll (fun e => x.stride e.2) (fun e => e.2.pack) x.ports.entries buf

/-- A port is put under the number that it unpacks. -/
def unpack (x : Cofports) (buf : List UInt8) : Except TextException Cofports :=
  match Cofport.layout x.ofpVersion with
  | none => if buf = [] then .ok { x with ports := .empty } else .error .badVersion
  | some l => do
    let unpackPort := Cofport.unpack x.ofpVersion
    return { x with ports := ← (TextArray.walker (Record.size l) unpackPort fun p => p.portno.toNat).walk .empty buf }

/-- A list of one of the versions: ports of the version under their numbers, which have 16
bits in 1.0, with names that are shorter than the field and without a NUL. -/
structure Keyed (x : Cofports) : Prop where
  version : x.ofpVersion = Openflow10.OFP_VERSION ∨ x.ofpVersion = Openflow12.OFP_VERSION ∨
    x.ofpVersion = Openflow13.OFP_VERSION
  ofpVersion : ∀ e ∈ x.ports.entries, e.2.ofpVersion = x.ofpVersion
  key : ∀ e ∈ x.ports.entries, e.2.portno.toNat = e.1
  name : ∀ e ∈ x.ports.entries, e.2.name.length < 16
  nul : ∀ e ∈ x.ports.entries, 0 ∉ e.2.name
  portno : x.ofpVersion = Openflow10.OFP_VERSION → ∀ e ∈ x.ports.entries, e.2.portno.toNat < 65536

/-- Packed into as many zeros as it is long, the list is unpacked by a new one with the same
ports, as far as the version has fields for them. -/
def RoundTrips (x : Cofports) : Prop :=
  ∃ buf y, x.pack (.replicate x.length 0) = .ok buf ∧ (new x.ofpVersion).unpack buf = .ok y ∧
    ∀ k, y.ports.find? k = (x.ports.find? k).map Cofport.carried

end Cofports

/-! ## One port in zeros -/

namespace Cofport

/-- A port of one of the versions that fits its structure. -/
structure Fits (p : Cofport) : Prop where
  version : p.ofpVersion = Openflow10.OFP_VERSION ∨ p.ofpVersion = Openflow12.OFP_VERSION ∨
    p.ofpVersion = Openflow13.OFP_VERSION
  name : p.name.length < 16
  nul : 0 ∉ p.name
  portno : p.ofpVersion = Openflow10.OFP_VERSION → p.portno.toNat < 65536

variable {p : Cofport}

theorem length_nameField (name : List UInt8) (last : UInt8) : (nameField name last).length = 16 := by
  rw [nameField, List.length_append, length_strncpy]
  rfl

theorem text_nameField (hname : p.name.length < 16) (hnul : 0 ∉ p.name) : text (nameField p.name 0) = p.name := by
  have hmax : Openflow.OFP_MAX_PORT_NAME_LEN - 1 = 15 := rfl
  rw [nameField, hmax, strncpy_of_not_mem (by omega) hnul, ite_self, List.append_assoc, ← List.replicate_succ',
    List.replicate_succ, text_append_zero, text_eq hnul]

theorem fits_fields (hp : p.Fits) {l : Record.Layout} (hl : layout p.ofpVersion = some l)
    (eth : CofportdescPropEthernet) : Record.Fits l (p.fields eth 0) := by
  have hlt : number (nameField p.name 0) < 256 ^ 16 := by
    have := number_lt (nameField p.name 0)
    rwa [length_nameField] at this
  rcases hp.version with hv | hv
  · rw [hv] at hl
    cases hl
    rw [fields, if_pos hv]
    exact ⟨Nat.mod_lt _ (by decide), p.hwaddr.isLt, hlt, p.config.toNat_lt, p.state.toNat_lt, eth.curr.toNat_lt,
      eth.advertised.toNat_lt, eth.supported.toNat_lt, eth.peer.toNat_lt, rfl⟩
  · have hne : p.ofpVersion ≠ Openflow10.OFP_VERSION := by
      rcases hv with hv | hv <;> rw [hv] <;> decide
    rw [layout, if_neg hne, if_pos hv] at hl
    cases hl
    rw [fields, if_neg hne]
    exact ⟨p.portno.toNat_lt, p.hwaddr.isLt, hlt, p.config.toNat_lt, p.state.toNat_lt, eth.curr.toNat_lt,
      eth.advertised.toNat_lt, eth.supported.toNat_lt, eth.peer.toNat_lt, eth.currSpeed.toNat_lt,
      eth.maxSpeed.toNat_lt, rfl⟩

/-- What is read of what was written is what the version has fields for. -/
theorem ofFields_fields (hp : p.Fits) {eth : CofportdescPropEthernet} (heth : p.ethernet = some eth) :
    ofFields p.ofpVersion (p.fields eth 0) = p.carried := by
  have hoctets : octets 16 (number (nameField p.name 0)) = nameField p.name 0 := by
    rw [← length_nameField p.name 0, octets_number]
  by_cases hv : p.ofpVersion = Openflow10.OFP_VERSION
  · have hportno := hp.portno hv
    rw [fields, if_pos hv, carried, if_pos hv, ofFields, hoctets, text_nameField hp.name hp.nul,
      Nat.mod_eq_of_lt hportno, heth]
    simp
  · rw [fields, if_neg hv, carried, if_neg hv, ofFields, hoctets, text_nameField hp.name hp.nul]
    cases p
    simp only at heth
    simp [heth]

theorem pack_zeros {l : Record.Layout} (hl : layout p.ofpVersion = some l) :
    p.pack (.replicate (Record.size l) 0) =
      match p.ethernet with
      | none => .error .propNotFound
      | some eth => .ok (Record.write l (p.fields eth 0) (.replicate (Record.size l) 0)) := by
  have hlast : ∀ n m : ℕ, (List.replicate n (0 : UInt8)).getD m 0 = 0 := by
    intro n m
    rw [List.getD_eq_getElem?_getD, List.getElem?_replicate]
    split <;> rfl
  rw [pack, hl]
  dsimp only
  rw [if_neg (by simp), hlast]

theorem pack_zeros_ok (hp : p.Fits) {l : Record.Layout} (hl : layout p.ofpVersion = some l) {buf : List UInt8}
    (h : p.pack (.replicate (Record.size l) 0) = .ok buf) :
    buf.length = Record.size l ∧ ofFields p.ofpVersion (Record.read l buf) = p.carried := by
  rw [pack_zeros hl] at h
  cases heth : p.ethernet with
  | none =>
    rw [heth] at h
    cases h
  | some eth =>
    rw [heth] at h
    cases h
    have hfits := fits_fields hp hl eth
    refine ⟨?_, ?_⟩
    · rw [Record.length_write hfits (by simp), List.length_replicate]
    · rw [Record.read_write hfits (by simp), ofFields_fields hp heth]

theorem carried_portno : p.carried.portno = p.portno := by
  unfold carried
  split <;> rfl

/-- A port comes back exactly if it has its ethernet property. -/
theorem comesBack_iff (hp : p.Fits) {l : Record.Layout} (hl : layout p.ofpVersion = some l) :
    (∃ buf, p.pack (.replicate (Record.size l) 0) = .ok buf ∧ ofFields p.ofpVersion (Record.read l buf) = p.carried) ↔
      p.ethernet.isSome := by
  constructor
  · rintro ⟨buf, hbuf, -⟩
    rw [pack_zeros hl] at hbuf
    cases heth : p.ethernet with
    | none =>
      rw [heth] at hbuf
      cases hbuf
    | some eth => rfl
  · intro h
    obtain ⟨eth, heth⟩ := Option.isSome_iff_exists.mp h
    have hpack := pack_zeros hl
    rw [heth] at hpack
    exact ⟨_, hpack, (pack_zeros_ok hp hl hpack).2⟩

end Cofport

namespace Cofports

theorem Keyed.fits {x : Cofports} (hx : x.Keyed) {e : ℕ × Cofport} (he : e ∈ x.ports.entries) : e.2.Fits :=
  ⟨hx.ofpVersion e he ▸ hx.version, hx.name e he, hx.nul e he, fun hv => hx.portno (hx.ofpVersion e he ▸ hv) e he⟩

/-- **A list comes back exactly if its ports have their ethernet properties**, whatever
their names are. -/
theorem comesBack_iff {x : Cofports} (hx : x.Keyed) : x.RoundTrips ↔ ∀ e ∈ x.ports.entries, e.2.ethernet.isSome := by
  obtain ⟨l, hl, hpos, hten⟩ : ∃ l, Cofport.layout x.ofpVersion = some l ∧ 0 < Record.size l ∧
      (x.ofpVersion = Openflow10.OFP_VERSION → Record.size l = 48) := by
    rcases hx.version with hv | hv | hv
    · rw [hv]
      exact ⟨_, rfl, by decide, fun _ => by decide⟩
    · rw [hv]
      exact ⟨_, rfl, by decide, by decide⟩
    · rw [hv]
      exact ⟨_, rfl, by decide, by decide⟩
  have hle : ∀ e ∈ x.ports.entries, Cofport.layout e.2.ofpVersion = some l := fun e he => by
    rw [hx.ofpVersion e he, hl]
  have hsize : ∀ e ∈ x.ports.entries, e.2.size = Record.size l := fun e he => by
    rw [Cofport.size, hle e he, Option.getD_some]
  have hstride : ∀ e ∈ x.ports.entries, x.stride e.2 = Record.size l := by
    intro e he
    unfold stride
    split
    · next hv => exact (hten hv).symm
    · exact hsize e he
  have hsum : x.length = (x.ports.entries.map fun e => x.stride e.2).sum :=
    congrArg List.sum (List.map_congr_left fun e he => (hsize e he).trans (hstride e he).symm)
  have hpack : x.pack (.replicate x.length 0) = Tlv.packAll (fun e => x.stride e.2) (fun e => e.2.pack) x.ports.entries
      (.replicate (x.ports.entries.map fun e => x.stride e.2).sum 0) := by
    rw [pack, if_neg (by simp), hl, if_neg (by simp), hsum]
  have hunpack : ∀ buf, (new x.ofpVersion).unpack buf = do
      return { new x.ofpVersion with
        ports := ← (TextArray.walker (Record.size l) (Cofport.unpack x.ofpVersion)
          fun p => p.portno.toNat).walk .empty buf } := fun buf => by
    rw [unpack]
    dsimp only [new]
    rw [hl]
  have hkeys : ∀ e ∈ x.ports.entries, e.2.carried.portno.toNat = e.1 := fun e he => by
    rw [Cofport.carried_portno, hx.key e he]
  have hentry : ∀ e ∈ x.ports.entries, ∀ buf, e.2.pack (.replicate (Record.size l) 0) = .ok buf →
      buf.length = Record.size l ∧ (Cofport.ofFields x.ofpVersion (Record.read l buf)).portno.toNat = e.1 := by
    intro e he buf hbuf
    obtain ⟨hsize, hdecoded⟩ := Cofport.pack_zeros_ok (hx.fits he) (hle e he) hbuf
    rw [hx.ofpVersion e he] at hdecoded
    rw [hdecoded]
    exact ⟨hsize, hkeys e he⟩
  have hunpackPort : ∀ buf, buf.length = Record.size l →
      Cofport.unpack x.ofpVersion buf = .ok (Cofport.ofFields x.ofpVersion (Record.read l buf)) := by
    intro buf hbuf
    rw [Cofport.unpack, hl]
    exact if_neg (by omega)
  have hiff : (∃ buf ports, Tlv.packAll (fun e => x.stride e.2) (fun e => e.2.pack) x.ports.entries
        (.replicate (x.ports.entries.map fun e => x.stride e.2).sum 0) = .ok buf ∧
      (TextArray.walker (Record.size l) (Cofport.unpack x.ofpVersion) fun p => p.portno.toNat).walk .empty buf =
        .ok ports ∧ ∀ k, ports.find? k = (x.ports.find? k).map Cofport.carried) ↔
      ∀ e ∈ x.ports.entries, ∃ buf, e.2.pack (.replicate (Record.size l) 0) = .ok buf ∧
        Cofport.ofFields x.ofpVersion (Record.read l buf) = e.2.carried :=
    TextArray.roundTrip_iff hpos hstride hunpackPort hentry hkeys
  have hports : (∀ e ∈ x.ports.entries, e.2.ethernet.isSome) ↔ ∀ e ∈ x.ports.entries, ∃ buf,
      e.2.pack (.replicate (Record.size l) 0) = .ok buf ∧
        Cofport.ofFields x.ofpVersion (Record.read l buf) = e.2.carried := by
    refine forall₂_congr fun e he => ?_
    rw [← Cofport.comesBack_iff (hx.fits he) (hle e he), hx.ofpVersion e he]
  rw [hports, ← hiff]
  constructor
  · rintro ⟨buf, y, hbuf, hy, hfind⟩
    rw [hunpack] at hy
    obtain ⟨ports, hports, hy⟩ := Except.bind_eq_ok.mp hy
    cases hy
    exact ⟨buf, ports, hpack ▸ hbuf, hports, hfind⟩
  · rintro ⟨buf, ports, hbuf, hports, hfind⟩
    refine ⟨buf, { new x.ofpVersion with ports }, hpack ▸ hbuf, ?_, hfind⟩
    rw [hunpack, hports]
    rfl

end Cofports

end RoflCommon
