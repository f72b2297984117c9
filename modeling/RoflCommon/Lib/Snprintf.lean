/-
`snprintf` of C for a format and one argument of type `size_t`: what the standard says
becomes of the text in the destination, where it says anything.

A format that is meant as a text comes out as it is if there is no `%` in it
(`format_of_not_mem`), and otherwise never, not even as the beginning of what comes out
(`not_prefix_of_mem`).
-/
import Mathlib.Data.Nat.Digits.Defs
import Mathlib.Data.List.TakeWhile
import Mathlib.Tactic.Common

namespace Snprintf

abbrev percent : UInt8 := 37

/-- `-`, `+`, a space, `#` and `0`. -/
def isFlag (c : UInt8) : Bool := c ∈ [45, 43, 32, 35, 48]

def isDigit (c : UInt8) : Bool := 48 ≤ c ∧ c ≤ 57

/-- `o`, `x` and `X`. -/
def isAlternative (c : UInt8) : Bool := c ∈ [111, 120, 88]

/-- `d` and `i`. -/
def isSigned (c : UInt8) : Bool := c ∈ [100, 105]

/-- The number digits stand for. -/
def decimal (ds : List UInt8) : ℕ := ds.foldl (fun n c => n * 10 + (c.toNat - 48)) 0

/-- A conversion of a `size_t`. -/
structure Spec where
  flags : List UInt8
  width : ℕ
  precision : Option ℕ
  conv : UInt8
deriving DecidableEq, Repr

namespace Spec

/-- A precision, if there is a dot. -/
def parsePrecision : List UInt8 → Option ℕ × List UInt8
  | 46 :: s => (some (decimal (s.takeWhile isDigit)), s.dropWhile isDigit)
  | s => (none, s)

/-- What is behind the percent sign: flags, a width, a precision, a `z` and one of `d`,
`i`, `o`, `u`, `x` and `X`. Other conversions are undefined for an argument of this type,
and so is `#` where it means nothing. Nothing is promised for a conversion that produces
more than 4095 characters. -/
def parse (s : List UInt8) : Option (Spec × List UInt8) :=
  let flags := s.takeWhile isFlag
  let s := s.dropWhile isFlag
  let width := decimal (s.takeWhile isDigit)
  let (precision, s) := parsePrecision (s.dropWhile isDigit)
  match s with
  | 122 :: conv :: rest =>
    if (isAlternative conv ∨ 35 ∉ flags ∧ (isSigned conv ∨ conv = 117)) ∧ width ≤ 4095 ∧ precision.getD 0 ≤ 4095 then
      some (⟨flags, width, precision, conv⟩, rest)
    else none
  | _ => none

def base (s : Spec) : ℕ := if s.conv = 111 then 8 else if s.conv = 120 ∨ s.conv = 88 then 16 else 10

/-- The digits alone. -/
def digits (s : Spec) (n : ℕ) : List UInt8 :=
  (Nat.digits s.base n).reverse.map fun d =>
    .ofNat (if d < 10 then 48 + d else if s.conv = 88 then 55 + d else 87 + d)

/-- At least as many digits as the precision says, and a zero in front where `#` asks
for one. -/
def number (s : Spec) (n : ℕ) : List UInt8 :=
  let ds := .replicate (s.precision.getD 1 - (s.digits n).length) 48 ++ s.digits n
  if s.conv = 111 ∧ 35 ∈ s.flags ∧ ds.head? ≠ some 48 then 48 :: ds else ds

/-- `0x`, or a sign. -/
def lead (s : Spec) (n : ℕ) : List UInt8 :=
  if (s.conv = 120 ∨ s.conv = 88) ∧ 35 ∈ s.flags ∧ n ≠ 0 then [48, s.conv]
  else if isSigned s.conv ∧ 43 ∈ s.flags then [43]
  else if isSigned s.conv ∧ 32 ∈ s.flags then [32]
  else []

def render (s : Spec) (n : ℕ) : List UInt8 :=
  let fill := s.width - ((s.lead n).length + (s.number n).length)
  if 45 ∈ s.flags then s.lead n ++ s.number n ++ .replicate fill 32
  else if 48 ∈ s.flags ∧ s.precision = none then s.lead n ++ .replicate fill 48 ++ s.number n
  else .replicate fill 32 ++ s.lead n ++ s.number n

end Spec

/-- What comes out of a conversion of the argument, and what is behind the conversion. -/
def convert (arg : Option ℕ) (s : List UInt8) : Option (List UInt8 × List UInt8) := do
  let v ← arg
  let (spec, rest) ← Spec.parse s
  return (spec.render v, rest)

/-- What comes out, for an argument that is left; `none` where the standard does not say. -/
def format : ℕ → Option ℕ → List UInt8 → Option (List UInt8)
  | _, _, [] => some []
  | 0, _, _ :: _ => none
  | n + 1, arg, c :: s =>
    if c ≠ percent then (format n arg s).map (c :: ·)
    else if s.head? = some percent then (format n arg s.tail).map (percent :: ·)
    else (convert arg s).bind fun (out, rest) => (format n none rest).map (out ++ ·)

/-- The destination afterwards, for a format that ends at its first NUL: what comes out, cut
to the size, and a NUL. -/
def snprintf (dst s : List UInt8) (arg : ℕ) : Option (List UInt8) :=
  let s := s.takeWhile (· ≠ 0)
  (format s.length (some arg) s).map fun out =>
    let out := out.take (dst.length - 1)
    out ++ 0 :: dst.drop (out.length + 1)

/-! ## No percent sign comes of a conversion -/

namespace Spec

theorem base_mem (s : Spec) : s.base = 8 ∨ s.base = 16 ∨ s.base = 10 := by
  unfold base
  split
  · exact .inl rfl
  · split
    · exact .inr (.inl rfl)
    · exact .inr (.inr rfl)

theorem not_mem_digits (s : Spec) (n : ℕ) : percent ∉ s.digits n := by
  intro h
  obtain ⟨d, hd, hc⟩ := List.mem_map.mp h
  have hbase : 1 < s.base := by
    have := s.base_mem
    omega
  have hlt : d < s.base := Nat.digits_lt_base hbase (List.mem_reverse.mp hd)
  have hsixteen : d < 16 := by
    have := s.base_mem
    omega
  have hnat := congrArg UInt8.toNat hc
  rw [UInt8.toNat_ofNat'] at hnat
  have hpercent : percent.toNat = 37 := rfl
  split at hnat
  · omega
  · split at hnat <;> omega

theorem not_mem_replicate {n : ℕ} {c : UInt8} (hc : percent ≠ c) : percent ∉ List.replicate n c := fun h =>
  hc (List.eq_of_mem_replicate h)

theorem not_mem_number (s : Spec) (n : ℕ) : percent ∉ s.number n := by
  have hdigits : percent ∉ List.replicate (s.precision.getD 1 - (s.digits n).length) 48 ++ s.digits n := fun h =>
    (List.mem_append.mp h).elim (not_mem_replicate (by decide)) (s.not_mem_digits n)
  unfold number
  dsimp only
  intro h
  split at h
  · exact (List.mem_cons.mp h).elim (fun h => absurd h (by decide)) hdigits
  · exact hdigits h

theorem not_mem_lead (s : Spec) (n : ℕ) : percent ∉ s.lead n := by
  unfold lead
  split
  · next hconv =>
    rcases hconv.1 with hx | hx
    · rw [hx]
      decide
    · rw [hx]
      decide
  · split
    · decide
    · split <;> decide

theorem not_mem_render (s : Spec) (n : ℕ) : percent ∉ s.render n := by
  have hlead := s.not_mem_lead n
  have hnumber := s.not_mem_number n
  have hzeros : ∀ m, percent ∉ List.replicate m (48 : UInt8) := fun _ => not_mem_replicate (by decide)
  have hblanks : ∀ m, percent ∉ List.replicate m (32 : UInt8) := fun _ => not_mem_replicate (by decide)
  unfold render
  dsimp only
  split_ifs
  · simp only [List.mem_append, hlead, hnumber, hblanks, or_self, not_false_eq_true]
  · simp only [List.mem_append, hlead, hnumber, hzeros, or_self, not_false_eq_true]
  · simp only [List.mem_append, hlead, hnumber, hblanks, or_self, not_false_eq_true]

theorem number_ne_nil (s : Spec) {n : ℕ} (hn : n ≠ 0) : s.number n ≠ [] := by
  have hdigits : s.digits n ≠ [] := by
    unfold digits
    rw [ne_eq, List.map_eq_nil_iff, List.reverse_eq_nil_iff]
    exact Nat.digits_ne_nil_iff_ne_zero.mpr hn
  unfold number
  dsimp only
  split
  · exact List.cons_ne_nil _ _
  · exact List.append_ne_nil_of_right_ne_nil _ hdigits

theorem render_ne_nil (s : Spec) {n : ℕ} (hn : n ≠ 0) : s.render n ≠ [] := by
  have hnumber := s.number_ne_nil hn
  unfold render
  dsimp only
  split_ifs
  · exact List.append_ne_nil_of_left_ne_nil (List.append_ne_nil_of_right_ne_nil _ hnumber) _
  · exact List.append_ne_nil_of_right_ne_nil _ hnumber
  · exact List.append_ne_nil_of_right_ne_nil _ hnumber

end Spec

theorem convert_eq_some {arg : Option ℕ} (harg : ∀ v, arg = some v → v ≠ 0) {s out rest : List UInt8}
    (h : convert arg s = some (out, rest)) : out ≠ [] ∧ percent ∉ out := by
  obtain ⟨v, hv, h⟩ := Option.bind_eq_some_iff.mp h
  obtain ⟨⟨spec, rest'⟩, -, h⟩ := Option.bind_eq_some_iff.mp h
  cases h
  exact ⟨spec.render_ne_nil (harg v hv), spec.not_mem_render v⟩

/-! ## Formats that are meant as texts -/


theorem format_of_not_mem {s : List UInt8} (h : percent ∉ s) {n : ℕ} (hn : s.length ≤ n) (arg : Option ℕ) :
    format n arg s = some s := by
  induction s generalizing n with
  | nil =>
    cases n <;> rfl
  | cons c s ih =>
    obtain ⟨n, rfl⟩ : ∃ m, n = m + 1 := ⟨n - 1, by simp at hn; omega⟩
    have hc : c ≠ percent := fun hc => h (hc ▸ List.mem_cons_self)
    have hs : percent ∉ s := fun hs => h (List.mem_cons_of_mem c hs)
    rw [format, if_pos hc, ih hs (by simpa using hn), Option.map_some]

/-- What comes out of a format that begins with a percent sign: either it is a conversion, of
which no percent sign comes, or there are two percent signs for one. -/
theorem format_percent {n : ℕ} {arg : Option ℕ} (harg : ∀ v, arg = some v → v ≠ 0) {s out : List UInt8}
    (h : format (n + 1) arg (percent :: s) = some out) :
    (∃ c out', c ≠ percent ∧ out = c :: out') ∨
    ∃ s' out', s = percent :: s' ∧ format n arg s' = some out' ∧ out = percent :: out' := by
  rw [format, if_neg (not_not.mpr rfl)] at h
  split at h
  · next hdouble =>
    obtain ⟨s', rfl⟩ := List.head?_eq_some_iff.mp hdouble
    obtain ⟨out', hout, rfl⟩ := Option.map_eq_some_iff.mp h
    exact .inr ⟨s', out', rfl, hout, rfl⟩
  · obtain ⟨⟨conv, rest⟩, hconv, h⟩ := Option.bind_eq_some_iff.mp h
    obtain ⟨out', -, rfl⟩ := Option.map_eq_some_iff.mp h
    obtain ⟨hne, hnot⟩ := convert_eq_some harg hconv
    obtain ⟨c, cs, rfl⟩ := List.exists_cons_of_ne_nil hne
    exact .inl ⟨c, cs ++ out', fun hc => hnot (hc ▸ List.mem_cons_self), rfl⟩

/-- A format is not the beginning of what comes out of it behind percent signs. -/
theorem not_prefix_replicate {n k : ℕ} {arg : Option ℕ} (harg : ∀ v, arg = some v → v ≠ 0) {s out : List UInt8}
    (h : format n arg s = some out) : ¬List.replicate (k + 1) percent ++ s <+: out := by
  induction n generalizing k s out with
  | zero =>
    cases s with
    | nil =>
      cases h
      simp
    | cons c s => cases h
  | succ n ih =>
    cases s with
    | nil =>
      cases h
      simp
    | cons c s =>
      intro hprefix
      rw [List.replicate_succ, List.cons_append] at hprefix
      by_cases hc : c = percent
      · subst hc
        rcases format_percent harg h with ⟨d, out', hd, rfl⟩ | ⟨s', out', rfl, hout, rfl⟩
        · exact hd (List.cons_prefix_cons.mp hprefix).1.symm
        · -- one percent sign less of two is one more in front
          refine ih (k := k + 1) hout ?_
          have htail := (List.cons_prefix_cons.mp hprefix).2
          simpa [List.replicate_succ', List.append_assoc] using htail
      · rw [format, if_pos hc] at h
        obtain ⟨out', -, rfl⟩ := Option.map_eq_some_iff.mp h
        exact hc (List.cons_prefix_cons.mp hprefix).1.symm

/-- A format with a percent sign is not the beginning of what comes out of it. -/
theorem not_prefix_of_mem {n : ℕ} {arg : Option ℕ} (harg : ∀ v, arg = some v → v ≠ 0) {s out : List UInt8}
    (hs : percent ∈ s) (h : format n arg s = some out) : ¬s <+: out := by
  induction s generalizing n out with
  | nil => cases hs
  | cons c s ih =>
    cases n with
    | zero => cases h
    | succ n =>
      intro hprefix
      by_cases hc : c = percent
      · subst hc
        rcases format_percent harg h with ⟨d, out', hd, rfl⟩ | ⟨s', out', rfl, hout, rfl⟩
        · exact hd (List.cons_prefix_cons.mp hprefix).1.symm
        · exact not_prefix_replicate (k := 0) harg hout (List.cons_prefix_cons.mp hprefix).2
      · rw [format, if_pos hc] at h
        obtain ⟨out', hout, rfl⟩ := Option.map_eq_some_iff.mp h
        have hmem : percent ∈ s := (List.mem_cons.mp hs).resolve_left fun h => hc h.symm
        exact ih hmem hout (List.cons_prefix_cons.mp hprefix).2

/-! ## Texts in zeros -/

/-- The text in a field, up to the first NUL. -/
abbrev text (field : List UInt8) : List UInt8 := field.takeWhile (· ≠ 0)

theorem text_append_zero (a b : List UInt8) : text (a ++ 0 :: b) = text a := by
  induction a with
  | nil => rfl
  | cons c a ih =>
    rw [text, text, List.cons_append, List.takeWhile_cons, List.takeWhile_cons]
    split
    · exact congrArg _ ih
    · rfl

theorem text_eq {s : List UInt8} (hnul : 0 ∉ s) : text s = s :=
  List.takeWhile_eq_self_iff.mpr fun c hc => decide_eq_true fun h : c = 0 => hnul (h ▸ hc)

theorem length_snprintf {dst s dst' : List UInt8} {arg : ℕ} (hdst : dst ≠ []) (h : snprintf dst s arg = some dst') :
    dst'.length = dst.length := by
  obtain ⟨out, -, rfl⟩ := Option.map_eq_some_iff.mp h
  have hpos := List.length_pos_iff.mpr hdst
  simp only [List.length_append, List.length_take, List.length_cons, List.length_drop]
  omega

theorem snprintf_of_not_mem {n : ℕ} {s : List UInt8} (hlen : s.length < n) (hnul : 0 ∉ s) (h : percent ∉ s) (arg : ℕ) :
    snprintf (.replicate n 0) s arg = some (s ++ .replicate (n - s.length) 0) := by
  have htext : s.takeWhile (· ≠ 0) = s := text_eq hnul
  have htake : s.take (n - 1) = s := List.take_of_length_le (by omega)
  have hzeros : n - s.length = n - (s.length + 1) + 1 := by omega
  rw [snprintf]
  dsimp only
  rw [htext, format_of_not_mem h (Nat.le_refl _), Option.map_some, List.length_replicate, htake, List.drop_replicate,
    hzeros, List.replicate_succ]

/-- **A text comes through exactly if there is no percent sign in it**: a text that is
shorter than the destination, with its length for the argument, into zeros. -/
theorem snprintf_iff {n : ℕ} {s : List UInt8} (hlen : s.length < n) (hnul : 0 ∉ s) :
    (∃ dst, snprintf (.replicate n 0) s s.length = some dst ∧ text dst = s) ↔ percent ∉ s := by
  constructor
  · rintro ⟨dst, hdst, htext⟩ hmem
    obtain ⟨out, hout, rfl⟩ := Option.map_eq_some_iff.mp hdst
    rw [text_append_zero] at htext
    have hself : s.takeWhile (· ≠ 0) = s := text_eq hnul
    rw [hself] at hout
    have hne : ∀ v, some s.length = some v → v ≠ 0 := by
      intro v hv
      cases hv
      exact fun hzero => List.ne_nil_of_mem hmem (List.eq_nil_of_length_eq_zero hzero)
    refine not_prefix_of_mem hne hmem hout ?_
    have hprefix : text (out.take ((List.replicate n (0 : UInt8)).length - 1)) <+: out :=
      (List.takeWhile_prefix _).trans (List.take_prefix _ _)
    rwa [htext] at hprefix
  · intro hnot
    refine ⟨_, snprintf_of_not_mem hlen hnul hnot _, ?_⟩
    obtain ⟨m, hm⟩ : ∃ m, n - s.length = m + 1 := ⟨n - s.length - 1, by omega⟩
    rw [hm, List.replicate_succ, text_append_zero, text_eq hnul]

/-! ## Fields one after another -/

/-- Each text is printed into a field of its own. -/
def printAll : List (ℕ × List UInt8) → List UInt8 → Option (List UInt8)
  | [], dst => some dst
  | (n, s) :: l, dst => do
    let field ← snprintf (dst.take n) s s.length
    let rest ← printAll l (dst.drop n)
    return field ++ rest

/-- The texts in fields of these sizes. -/
def textAll : List ℕ → List UInt8 → List (List UInt8)
  | [], _ => []
  | n :: l, src => text (src.take n) :: textAll l (src.drop n)

theorem length_printAll {l : List (ℕ × List UInt8)} {dst dst' : List UInt8} (hpos : ∀ p ∈ l, 0 < p.1)
    (hdst : (l.map (·.1)).sum ≤ dst.length) (h : printAll l dst = some dst') : dst'.length = dst.length := by
  induction l generalizing dst dst' with
  | nil => exact congrArg List.length (Option.some.inj h.symm)
  | cons p l ih =>
    obtain ⟨n, s⟩ := p
    obtain ⟨field, hfield, h⟩ := Option.bind_eq_some_iff.mp h
    obtain ⟨rest, hrest, h⟩ := Option.bind_eq_some_iff.mp h
    obtain rfl := Option.some.inj h
    rw [List.map_cons, List.sum_cons] at hdst
    have hn : 0 < n := hpos (n, s) List.mem_cons_self
    have htake : (dst.take n).length = n := by
      rw [List.length_take]
      omega
    have hdrop : (dst.drop n).length = dst.length - n := List.length_drop ..
    have hne : dst.take n ≠ [] := List.ne_nil_of_length_pos (by omega)
    have hfirst := length_snprintf hne hfield
    have hbehind := ih (fun q hq => hpos q (List.mem_cons_of_mem _ hq)) (by omega) hrest
    rw [List.length_append]
    omega

theorem printAll_iff {l : List (ℕ × List UInt8)} (hlen : ∀ p ∈ l, p.2.length < p.1) (hnul : ∀ p ∈ l, 0 ∉ p.2) :
    (∃ dst, printAll l (.replicate (l.map (·.1)).sum 0) = some dst ∧ textAll (l.map (·.1)) dst = l.map (·.2)) ↔
      ∀ p ∈ l, percent ∉ p.2 := by
  induction l with
  | nil => simp [printAll, textAll]
  | cons p l ih =>
    obtain ⟨n, s⟩ := p
    have ih := ih (fun q hq => hlen q (List.mem_cons_of_mem _ hq)) fun q hq => hnul q (List.mem_cons_of_mem _ hq)
    have hs : s.length < n := hlen (n, s) List.mem_cons_self
    have hiff := snprintf_iff hs (hnul (n, s) List.mem_cons_self)
    rw [List.forall_mem_cons, ← hiff, ← ih]
    have htake : (List.replicate (n + (l.map (·.1)).sum) (0 : UInt8)).take n = .replicate n 0 := by
      rw [List.take_replicate, Nat.min_eq_left (Nat.le_add_right ..)]
    have hdrop : (List.replicate (n + (l.map (·.1)).sum) (0 : UInt8)).drop n = .replicate (l.map (·.1)).sum 0 := by
      rw [List.drop_replicate, Nat.add_sub_cancel_left]
    have hne : List.replicate n (0 : UInt8) ≠ [] := fun h => by
      have := (List.replicate_eq_nil_iff _).mp h
      omega
    simp only [List.map_cons, List.sum_cons, printAll, htake, hdrop, textAll, List.cons.injEq]
    constructor
    · rintro ⟨dst, hdst, hfirst, hrest⟩
      obtain ⟨field, hfield, hdst⟩ := Option.bind_eq_some_iff.mp hdst
      obtain ⟨rest, hprint, hdst⟩ := Option.bind_eq_some_iff.mp hdst
      obtain rfl := Option.some.inj hdst
      have hn : field.length = n := (length_snprintf hne hfield).trans (List.length_replicate ..)
      rw [List.take_left' hn] at hfirst
      rw [List.drop_left' hn] at hrest
      exact ⟨⟨field, hfield, hfirst⟩, rest, hprint, hrest⟩
    · rintro ⟨⟨field, hfield, hfirst⟩, rest, hprint, hrest⟩
      have hn : field.length = n := (length_snprintf hne hfield).trans (List.length_replicate ..)
      refine ⟨field ++ rest, ?_, ?_, ?_⟩
      · rw [hfield, hprint]
        rfl
      · rw [List.take_left' hn]
        exact hfirst
      · rw [List.drop_left' hn]
        exact hrest

end Snprintf
