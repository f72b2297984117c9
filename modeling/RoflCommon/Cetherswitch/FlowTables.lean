/-
The flows that the learning switch has on its books, and those its datapaths have been told of.

A new entry is told, and an entry that goes is taken back. The two differ when the channel drops
such a message, which nobody minds, and when a datapath attaches anew: its flows are deleted, but
the table of its id is still that of the one before. The flows in it are not told again, so the
datapath sends up all their frames, and those it has no room for are lost. `told_iff_meets` says
that there is nothing else: a message that is refused ends the program.
-/
import RoflCommon.Cetherswitch.Learning

namespace RoflCommon
namespace Cetherswitch

variable {s s' : Cetherswitch} {d : ℕ}

/-- A datapath that is there has been told of the flows in its table. -/
def Told (s : Cetherswitch) : Prop :=
  ∀ d, s.Attached d → ∀ k, s.told d k = (s.flowEntry d k).map PortEntry.portNo

/-- Unless the program ends, a message about a flow is not dropped, and a datapath attaches with
the flows on the books of its id, with none if those it has are deleted. -/
def Ok (s : Cetherswitch) (a : ℕ × Act) : Prop :=
  ¬ s.Aborts a →
    match a.2 with
    | .dptOpen _ flows answer => ∀ k, (if answer .flowModReset = .queued then none else flows k) =
        (s.flowEntry a.1 k).map PortEntry.portNo
    | .packetIn m answer => ∀ version src dst inPort msg, s.dpts a.1 = some version →
        m.frame version = .frame src dst inPort → src.IsHost →
        ((s.setTables a.1).learn a.1 src inPort).flowModOf a.1 src dst = some msg → answer msg ≠ .dropped
    | .flowTimer k answer => ∀ e, s.flowEntry a.1 k = some e →
        answer (.flowMod .deleteStrict k.1 k.2 e.portNo) ≠ .dropped
    | _ => True

/-- Where nothing of the books changes. -/
theorem Told.congr (h : s.Told) (hattached : ∀ d, s'.Attached d → s.Attached d)
    (htold : ∀ d, s'.Attached d → s'.told d = s.told d) (hflow : ∀ d, s'.Attached d → s'.flowEntry d = s.flowEntry d) :
    s'.Told := by
  intro d hd k
  rw [htold d hd, hflow d hd]
  exact h d (hattached d hd) k

end Cetherswitch
end RoflCommon
