import Mathlib.Data.List.Basic

/-!
# UTF-8: `str::from_utf8` and char boundaries

A Rust `&str` is a byte slice that `core::str::from_utf8` accepts.  `Utf8State.run` reads the
bytes one at a time, as `run_utf8_validation` does one character at a time: the first byte of a
character fixes how many continuation bytes follow (`utf8_char_width`), and after `0xE0`, `0xED`,
`0xF0` and `0xF4` the second byte is confined further, which rules out overlong forms,
surrogates and code points above `U+10FFFF`.

* `Str` is a byte list with that acceptance as a field, so that no `Str` holds invalid UTF-8.
* `isCharBoundary`, `slice` and `sliceFrom` are `str::is_char_boundary` and the range indexing
  `s[a..b]`, `s[a..]`, which panic (`none`) unless their bounds are char boundaries.
* `validUtf8_slice`: a slice of valid UTF-8 that does not panic is valid UTF-8.

The proof rests on one fact: inside a character every byte the validation accepts is a
continuation byte `0x80..=0xBF`, and such a byte is never a char boundary.  So at a char boundary
the run is between characters, and `run_append` cuts it there.
-/

namespace NativeTls

/-- Where the validation stands after a byte: between characters, or inside one, with the next
byte to lie in `lo..=hi` and `more` continuation bytes after it. -/
inductive Utf8State
  | boundary
  | expect (more : Nat) (lo hi : UInt8)
  deriving DecidableEq, Repr

namespace Utf8State

/-- The state after the first byte of a character. -/
def lead (first : UInt8) : Option Utf8State :=
  if first < 0x80 then some boundary
  else if first < 0xC2 then none
  else if first < 0xE0 then some (expect 0 0x80 0xBF)
  else if first = 0xE0 then some (expect 1 0xA0 0xBF)
  else if first = 0xED then some (expect 1 0x80 0x9F)
  else if first < 0xF0 then some (expect 1 0x80 0xBF)
  else if first = 0xF0 then some (expect 2 0x90 0xBF)
  else if first < 0xF4 then some (expect 2 0x80 0xBF)
  else if first = 0xF4 then some (expect 2 0x80 0x8F)
  else none

def step : Utf8State → UInt8 → Option Utf8State
  | boundary, b => lead b
  | expect more lo hi, b =>
    if lo ≤ b ∧ b ≤ hi then
      some (match more with
        | 0 => boundary
        | more + 1 => expect more 0x80 0xBF)
    else none

def run : Utf8State → List UInt8 → Option Utf8State
  | q, [] => some q
  | q, b :: bs => (step q b).bind (run · bs)

theorem run_append (q : Utf8State) (a b : List UInt8) :
    run q (a ++ b) = (run q a).bind (run · b) := by
  induction a generalizing q with
  | nil => rfl
  | cons x a ih =>
    simp only [List.cons_append, run]
    cases step q x <;> simp [ih]

/-- The states a run reaches: inside a character, the next byte must be a continuation byte. -/
def Reachable : Utf8State → Prop
  | boundary => True
  | expect _ lo hi => 0x80 ≤ lo ∧ hi ≤ 0xBF

instance : DecidablePred Reachable
  | boundary => inferInstanceAs (Decidable True)
  | expect _ lo hi => inferInstanceAs (Decidable (0x80 ≤ lo ∧ hi ≤ 0xBF))

/-- A state chosen by an `if` is reachable when both branches' are. -/
theorem reachable_ite {c : Prop} [Decidable c] {a b : Option Utf8State}
    (ha : ∀ q, a = some q → Reachable q) (hb : ∀ q, b = some q → Reachable q) :
    ∀ q, (if c then a else b) = some q → Reachable q := by
  by_cases hc : c <;> simp only [hc, ite_true, ite_false] <;> assumption

theorem reachable_of_lead {b : UInt8} {q : Utf8State} (h : lead b = some q) : Reachable q := by
  revert q
  unfold lead
  repeat' apply reachable_ite
  all_goals rintro _ ⟨⟩ <;> decide

theorem reachable_of_step {q q' : Utf8State} {b : UInt8} (hq : Reachable q)
    (h : step q b = some q') : Reachable q' := by
  cases q with
  | boundary => exact reachable_of_lead h
  | expect more lo hi =>
    simp only [step] at h
    split_ifs at h
    cases h
    cases more <;> simp [Reachable]

theorem reachable_of_run {q q' : Utf8State} {bs : List UInt8} (hq : Reachable q)
    (h : run q bs = some q') : Reachable q' := by
  induction bs generalizing q with
  | nil => cases h; exact hq
  | cons b bs ih =>
    simp only [run, Option.bind_eq_some] at h
    obtain ⟨q₁, h₁, h₂⟩ := h
    exact ih (reachable_of_step hq h₁) h₂

end Utf8State

/-- `u8::is_utf8_char_boundary`: `(b as i8) >= -0x40`, every byte but a continuation byte. -/
def isUtf8CharBoundary (b : UInt8) : Bool := b < 0x80 || 0xC0 ≤ b

/-- Inside a character the validation accepts only bytes that are not char boundaries. -/
theorem Utf8State.not_boundary_of_step {more : Nat} {lo hi b : UInt8} {q' : Utf8State}
    (hq : Reachable (expect more lo hi)) (h : step (expect more lo hi) b = some q') :
    isUtf8CharBoundary b = false := by
  simp only [step] at h
  split_ifs at h with hb
  simp only [Reachable] at hq
  simp only [isUtf8CharBoundary, Bool.or_eq_false_iff, decide_eq_false_iff_not]
  simp only [UInt8.le_def, UInt8.lt_def, UInt8.toBitVec_ofNat] at hq hb ⊢
  constructor <;> bv_omega

/-- `run_utf8_validation` accepts `v`: the run ends between characters. -/
def validUtf8 (v : List UInt8) : Prop := Utf8State.run .boundary v = some .boundary

instance : DecidablePred validUtf8 := fun _ => inferInstanceAs (Decidable (_ = _))

/-- A `&str`: bytes that are valid UTF-8. -/
structure Str where
  bytes : List UInt8
  valid : validUtf8 bytes

/-- `str::from_utf8`. -/
def fromUtf8 (v : List UInt8) : Option Str :=
  if h : validUtf8 v then some ⟨v, h⟩ else none

@[simp] theorem fromUtf8_eq_none {v : List UInt8} : fromUtf8 v = none ↔ ¬ validUtf8 v := by
  unfold fromUtf8; split <;> simp_all

theorem fromUtf8_bytes {v : List UInt8} {s : Str} (h : fromUtf8 v = some s) : s.bytes = v := by
  unfold fromUtf8 at h; split at h <;> cases h; rfl

/-- `str::is_char_boundary`. -/
def isCharBoundary (s : List UInt8) (index : Nat) : Bool :=
  index == 0 || match s[index]? with
    | some b => isUtf8CharBoundary b
    | none => index == s.length

/-- `s[start..stop]`: panics unless `start ≤ stop` and both are char boundaries. -/
def slice (s : List UInt8) (start stop : Nat) : Option (List UInt8) :=
  if start ≤ stop ∧ isCharBoundary s start ∧ isCharBoundary s stop then
    some ((s.drop start).take (stop - start))
  else none

/-- `s[start..]`: panics unless `start` is a char boundary. -/
def sliceFrom (s : List UInt8) (start : Nat) : Option (List UInt8) :=
  if isCharBoundary s start then some (s.drop start) else none

theorem isCharBoundary_length (s : List UInt8) : isCharBoundary s s.length := by
  simp [isCharBoundary]

theorem isCharBoundary_of_pos {s : List UInt8} {i : Nat} (hi : 0 < i) :
    isCharBoundary s i = match s[i]? with
      | some b => isUtf8CharBoundary b
      | none => i == s.length := by
  simp [isCharBoundary, hi.ne']

/-- A position holding a byte that is a char boundary on its own. -/
theorem isCharBoundary_of_getElem? {s : List UInt8} {i : Nat} {b : UInt8} (h : s[i]? = some b)
    (hb : isUtf8CharBoundary b) : isCharBoundary s i := by
  simp [isCharBoundary, h, hb]

theorem le_length_of_isCharBoundary {s : List UInt8} {i : Nat} (h : isCharBoundary s i) :
    i ≤ s.length := by
  by_contra hlt
  have hnone : s[i]? = none := List.getElem?_eq_none_iff.mpr (by omega)
  simp [isCharBoundary, hnone] at h
  omega

/-- Cut at a char boundary, valid UTF-8 falls into two valid halves. -/
theorem validUtf8_take_drop {s : List UInt8} (hs : validUtf8 s) {i : Nat}
    (hi : isCharBoundary s i) : validUtf8 (s.take i) ∧ validUtf8 (s.drop i) := by
  have hsplit := hs
  unfold validUtf8 at hsplit
  rw [← List.take_append_drop i s, Utf8State.run_append, Option.bind_eq_some] at hsplit
  obtain ⟨q, hq, hrest⟩ := hsplit
  suffices q = .boundary by subst this; exact ⟨hq, hrest⟩
  rcases Nat.eq_zero_or_pos i with rfl | hpos
  · simpa [Utf8State.run] using hq.symm
  rw [isCharBoundary_of_pos hpos] at hi
  rcases hget : s[i]? with _ | b
  · have : i = s.length := by simpa [hget] using hi
    subst this
    simpa [Utf8State.run, List.drop_length] using hrest
  · have hb : isUtf8CharBoundary b := by simpa [hget] using hi
    obtain ⟨hlt, rfl⟩ := List.getElem?_eq_some_iff.mp hget
    rw [List.drop_eq_getElem_cons hlt] at hrest
    simp only [Utf8State.run, Option.bind_eq_some] at hrest
    obtain ⟨q', hstep, -⟩ := hrest
    cases q with
    | boundary => rfl
    | expect more lo hi =>
      have hr := Utf8State.reachable_of_run (by trivial) hq
      simp [Utf8State.not_boundary_of_step hr hstep] at hb

theorem isCharBoundary_drop {s : List UInt8} {a b : Nat} (hab : a ≤ b)
    (hb : isCharBoundary s b) : isCharBoundary (s.drop a) (b - a) := by
  have hlen := le_length_of_isCharBoundary hb
  rcases Nat.eq_or_lt_of_le hab with rfl | hlt
  · simp [isCharBoundary]
  · rw [isCharBoundary_of_pos (by omega)] at hb ⊢
    rw [List.getElem?_drop, Nat.add_sub_cancel' hab, List.length_drop]
    rcases hget : s[b]? with _ | x
    · simp only [hget, beq_iff_eq] at hb ⊢; omega
    · simpa [hget] using hb

/-- **Slices of valid UTF-8 are valid UTF-8**, whenever the slicing does not panic. -/
theorem validUtf8_slice {s t : List UInt8} {a b : Nat} (hs : validUtf8 s)
    (h : slice s a b = some t) : validUtf8 t := by
  unfold slice at h
  split_ifs at h with hab
  cases h
  obtain ⟨hle, ha, hb⟩ := hab
  exact (validUtf8_take_drop (validUtf8_take_drop hs ha).2 (isCharBoundary_drop hle hb)).1

end NativeTls
