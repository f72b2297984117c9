/-
Checks that return or throw. A check decides a property with an exception if it returns where the
property holds and throws the exception elsewhere (`Decides`). Checks that decide with the same
exception, one after another or in a loop, decide all of their properties with it
(`Decides.bind`, `decides_forM`), and those behind one that throws need not decide anything.
-/
import Mathlib.Tactic.Common

namespace Checks

variable {α ε : Type*} {r r' : Except ε Unit} {p q : Prop} {e : ε}

structure Decides (r : Except ε Unit) (p : Prop) (e : ε) : Prop where
  ok : p → r = .ok ()
  error : ¬ p → r = .error e

theorem Decides.congr (h : Decides r p e) (hpq : p ↔ q) : Decides r q e :=
  ⟨fun hq => h.ok (hpq.mpr hq), fun hq => h.error (mt hpq.mp hq)⟩

theorem decides_of_ok (h : r = .ok ()) (hp : p) : Decides r p e := ⟨fun _ => h, fun hn => absurd hp hn⟩

theorem decides_of_error (h : r = .error e) (hp : ¬ p) : Decides r p e := ⟨fun hp' => absurd hp' hp, fun _ => h⟩

theorem decides_ite [Decidable p] (h : r = if p then .ok () else .error e) : Decides r p e :=
  ⟨fun hp => h.trans (if_pos hp), fun hp => h.trans (if_neg hp)⟩

/-- The second check is made where the first returns. -/
theorem Decides.bind (h : Decides r p e) (h' : p → Decides r' q e) : Decides (r >>= fun _ => r') (p ∧ q) e := by
  by_cases hp : p
  · rw [h.ok hp]
    exact (h' hp).congr ⟨fun hq => ⟨hp, hq⟩, And.right⟩
  · rw [h.error hp]
    exact decides_of_error rfl fun hpq => hp hpq.1

/-- A loop over checks. -/
theorem decides_forM {f : α → Except ε Unit} {p : α → Prop} {as : List α} (h : ∀ a ∈ as, Decides (f a) (p a) e) :
    Decides (as.forM f) (∀ a ∈ as, p a) e := by
  induction as with
  | nil => exact decides_of_ok rfl fun a ha => by cases ha
  | cons a as ih =>
    have hrest : Decides (as.forM f) (∀ a ∈ as, p a) e := ih fun b hb => h b (List.mem_cons_of_mem a hb)
    have hcons : Decides ((a :: as).forM f) (p a ∧ ∀ a ∈ as, p a) e :=
      (h a List.mem_cons_self).bind fun _ => hrest
    exact hcons.congr List.forall_mem_cons.symm

end Checks
