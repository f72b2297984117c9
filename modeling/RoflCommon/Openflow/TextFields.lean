/-
Texts on the wire: the names of tables and ports and the texts of a description.

The names of ports come back whatever they are; the names of tables and the texts of a
description come back if and only if there is no percent sign in them
(`texts_comeBack_iff`), for they are taken for formats (`percents_lost`).
-/
import RoflCommon.Openflow.Cofdescstats
import RoflCommon.Openflow.Cofports
import RoflCommon.Openflow.Coftablestats

namespace RoflCommon

open Snprintf

/-- **Texts come back exactly if none of those that are printed has a percent sign in
it.** -/
theorem texts_comeBack_iff {x : Coftablestatsarray} (hx : x.Keyed) {d : CofdescStatsReply} (hd : d.Valid) {p : Cofports}
    (hp : p.Keyed) :
    (x.RoundTrips ↔ ∀ e ∈ x.array.entries, percent ∉ e.2.name) ∧ (d.RoundTrips ↔ ∀ s ∈ d.strings, percent ∉ s) ∧
    (p.RoundTrips ↔ ∀ e ∈ p.ports.entries, e.2.ethernet.isSome) :=
  ⟨Coftablestatsarray.comesBack_iff hx, CofdescStatsReply.comesBack_iff hd, Cofports.comesBack_iff hp⟩

/-- Tables with these names, under their numbers. -/
def namedTables (v : UInt8) (names : List (List UInt8)) : Coftablestatsarray :=
  ⟨v, Omap.store.build (names.mapIdx fun i name =>
    (i, { CoftableStatsReply.new v with tableId := .ofNat i, name, activeCount := 7, lookupCount := 9 }))⟩

/-- Ports with these names, under their numbers. -/
def namedPorts (v : UInt8) (names : List (List UInt8)) : Cofports :=
  ⟨v, Omap.store.build (names.mapIdx fun i name => (i, ⟨v, .ofNat i, 0x0a0b0c0d0e0f, name, 1, 4, some ⟨2, 3, 4, 5, 0, 0⟩⟩))⟩

theorem texts_comeBack_named :
    (namedTables Openflow10.OFP_VERSION [[97], [98, 99]]).RoundTrips ∧
    (CofdescStatsReply.mk Openflow13.OFP_VERSION [97, 98] [] [99] [100] [101, 102, 103]).RoundTrips ∧
    (namedPorts Openflow12.OFP_VERSION [[101, 116, 104, 48], [37, 110]]).RoundTrips := by
  have h := texts_comeBack_iff (x := namedTables Openflow10.OFP_VERSION [[97], [98, 99]])
    ⟨.inl rfl, by decide, by decide, by decide, by decide, fun _ => by decide⟩
    (d := ⟨Openflow13.OFP_VERSION, [97, 98], [], [99], [100], [101, 102, 103]⟩) ⟨by decide, by decide, by decide⟩
    (p := namedPorts Openflow12.OFP_VERSION [[101, 116, 104, 48], [37, 110]])
    ⟨.inr (.inl rfl), by decide, by decide, by decide, by decide, fun _ => by decide⟩
  exact ⟨h.1.mpr (by decide), h.2.1.mpr (by decide), h.2.2.mpr (by decide)⟩

/-- `100%%` becomes `100%` as the name of a table, and of the text `%zu` of a description
there is the number of its characters left. -/
theorem percents_lost :
    let tables := namedTables Openflow12.OFP_VERSION [[49, 48, 48, 37, 37]]
    let desc := CofdescStatsReply.mk Openflow10.OFP_VERSION [37, 122, 117] [] [] [] []
    tables.Keyed ∧ desc.Valid ∧
    (do let buf ← tables.pack (.replicate (← tables.length) 0)
        return ((← (Coftablestatsarray.new tables.ofpVersion).unpack buf).array.find? 0).map CoftableStatsReply.name) =
      .ok (some [49, 48, 48, 37]) ∧
    (do let buf ← desc.pack (.replicate (← desc.length) 0)
        return (← (CofdescStatsReply.new desc.ofVersion).unpack buf).mfrDesc) = .ok [51] ∧
    ¬tables.RoundTrips ∧ ¬desc.RoundTrips := by
  intro tables desc
  have htables : tables.Keyed := ⟨.inr rfl, by decide, by decide, by decide, by decide, by decide⟩
  have hdesc : desc.Valid := ⟨by decide, by decide, by decide⟩
  refine ⟨htables, hdesc, by decide +kernel, by decide +kernel, ?_, ?_⟩
  · rw [Coftablestatsarray.comesBack_iff htables]
    decide
  · rw [CofdescStatsReply.comesBack_iff hdesc]
    decide

end RoflCommon
