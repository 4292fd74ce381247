import NativeTls.Utf8

/-!
# `pem::PemBlock`: the chunks of a PEM bundle

`Identity::from_pkcs8` cuts its certificate bundle with `pem::PemBlock`, an iterator over a
`&str` that holds `cur_end`, where its next chunk starts.  `new` puts it at the first
`-----BEGIN`; each `next` searches on from one byte past it for the following guard, returns
the bytes up to there and moves `cur_end` to it.

The chunks are named here as the spec names them: `markerOffsets s` are the offsets
`p₁ < ⋯ < pₖ` of the guard in `s`, and `pemChunks s` are `s[p₁..p₂], …, s[pₖ..|s|]`.
`PemBlock.Inv` says `cur_end` is at a guard or at the end; `next_of_isMarkerAt` is one step of
the iteration from a guard, and `collect_of_inv`, `forEach_of_inv` are whole runs.

* `pemBlock_chunks`: on every `&str`, iterating to exhaustion never panics and yields
  `pemChunks s`; each chunk is valid UTF-8, starts with the guard and holds no other one, the
  chunks concatenate to `s` from its first guard on, and `next` keeps returning `None` once it
  has.

The step needs two facts about the guard.  Its first two bytes are `-`, so `begin` and
`begin + 1` are char boundaries and neither slicing panics.  And its last byte `N` occurs
nowhere else in it, so two guards never overlap and every chunk holds a whole one.
-/

namespace NativeTls

/-- `"-----BEGIN"`. -/
def beginMarker : List UInt8 := [0x2D, 0x2D, 0x2D, 0x2D, 0x2D, 0x42, 0x45, 0x47, 0x49, 0x4E]

/-- `str::find` with a `&str` pattern: the offset of the first occurrence of `pat`.  In valid
UTF-8 an occurrence of a valid UTF-8 pattern starts at a char boundary, so the search over the
bytes finds what `find` finds. -/
def find (pat : List UInt8) : List UInt8 → Option Nat
  | [] => if pat.isPrefixOf [] then some 0 else none
  | s@(_ :: rest) => if pat.isPrefixOf s then some 0 else (find pat rest).map (· + 1)

theorem find_eq_some {pat s : List UInt8} {e : Nat} (h : find pat s = some e) :
    pat.isPrefixOf (s.drop e) ∧ ∀ k < e, pat.isPrefixOf (s.drop k) = false := by
  induction s generalizing e with
  | nil =>
    simp only [find] at h
    split_ifs at h with hp
    cases h
    exact ⟨hp, fun k hk => absurd hk (Nat.not_lt_zero _)⟩
  | cons x rest ih =>
    simp only [find] at h
    split_ifs at h with hp
    · cases h
      exact ⟨hp, fun k hk => absurd hk (Nat.not_lt_zero _)⟩
    · obtain ⟨e', he', rfl⟩ := Option.map_eq_some'.mp h
      refine ⟨(ih he').1, fun k hk => ?_⟩
      cases k with
      | zero => exact Bool.eq_false_iff.mpr hp
      | succ k => exact (ih he').2 k (by omega)

theorem find_eq_none {pat s : List UInt8} (h : find pat s = none) :
    ∀ k, pat.isPrefixOf (s.drop k) = false := by
  induction s with
  | nil =>
    simp only [find] at h
    split_ifs at h with hp
    intro k
    rw [List.drop_nil]
    exact Bool.eq_false_iff.mpr hp
  | cons x rest ih =>
    simp only [find] at h
    split_ifs at h with hp
    intro k
    cases k with
    | zero => exact Bool.eq_false_iff.mpr hp
    | succ k => exact ih (Option.map_eq_none'.mp h) k

/-! ### Where the guard occurs -/

/-- The guard starts at offset `i` of `s`. -/
def isMarkerAt (s : List UInt8) (i : Nat) : Bool := beginMarker.isPrefixOf (s.drop i)

theorem isMarkerAt_getElem? {s : List UInt8} {i : Nat} (h : isMarkerAt s i) {k : Nat}
    (hk : k < 10) : s[i + k]? = beginMarker[k]? := by
  obtain ⟨t, ht⟩ := List.isPrefixOf_iff_prefix.mp h
  rw [← List.getElem?_drop, ← ht, List.getElem?_append_left (by simpa [beginMarker] using hk)]

theorem isMarkerAt_add_le {s : List UInt8} {i : Nat} (h : isMarkerAt s i) :
    i + 10 ≤ s.length := by
  have := (List.isPrefixOf_iff_prefix.mp h).length_le
  simp only [beginMarker, List.length_cons, List.length_nil, List.length_drop] at this
  omega

/-- A guard begins with two `-`, so a slice may start at it or one byte into it. -/
theorem isCharBoundary_of_isMarkerAt {s : List UInt8} {i : Nat} (h : isMarkerAt s i) {k : Nat}
    (hk : k < 2) : isCharBoundary s (i + k) := by
  have hb : beginMarker[k]? = some 0x2D := by rcases k with _ | _ | k <;> first | rfl | omega
  exact isCharBoundary_of_getElem? ((isMarkerAt_getElem? h (by omega)).trans hb) (by decide)

/-- **Guards never overlap**: `N` ends the guard and occurs nowhere else in it. -/
theorem isMarkerAt_add_le_of_lt {s : List UInt8} {p q : Nat} (hp : isMarkerAt s p)
    (hq : isMarkerAt s q) (hpq : p < q) : p + 10 ≤ q := by
  by_contra hlt
  have hN : s[q + (p + 9 - q)]? = s[p + 9]? := by congr 1; omega
  rw [isMarkerAt_getElem? hq (by omega), isMarkerAt_getElem? hp (by omega)] at hN
  have hne : ∀ k < 9, beginMarker[k]? ≠ beginMarker[9]? := by decide
  exact hne _ (by omega) hN

/-- The offsets from `j` on at which the guard starts, in increasing order. -/
def markersFrom (s : List UInt8) (j : Nat) : List Nat :=
  (List.range' j (s.length - j)).filter (isMarkerAt s)

/-- `p₁ < ⋯ < pₖ`: every offset of `s` at which the guard starts. -/
def markerOffsets (s : List UInt8) : List Nat := markersFrom s 0

theorem markersFrom_of_le {s : List UInt8} {j : Nat} (h : s.length ≤ j) :
    markersFrom s j = [] := by
  simp [markersFrom, Nat.sub_eq_zero_of_le h]

theorem markersFrom_of_lt {s : List UInt8} {j : Nat} (h : j < s.length) :
    markersFrom s j =
      if isMarkerAt s j then j :: markersFrom s (j + 1) else markersFrom s (j + 1) := by
  have : s.length - j = s.length - (j + 1) + 1 := by omega
  rw [markersFrom, this, List.range'_succ, List.filter_cons]
  rfl

/-- Offsets without a guard drop out. -/
theorem markersFrom_skip {s : List UInt8} (e : Nat) :
    ∀ {j : Nat}, (∀ k < e, isMarkerAt s (j + k) = false) →
      markersFrom s j = markersFrom s (j + e) := by
  induction e with
  | zero => intro j _; rfl
  | succ e ih =>
    intro j h
    rcases lt_or_le j s.length with hj | hj
    · rw [markersFrom_of_lt hj, if_neg (by simpa using h 0 (by omega)),
        ih (fun k hk => by simpa [Nat.add_assoc, Nat.add_comm 1] using h (k + 1) (by omega)),
        Nat.add_assoc, Nat.add_comm 1]
    · rw [markersFrom_of_le hj, markersFrom_of_le (by omega)]

theorem markersFrom_of_find_some {s : List UInt8} {j e : Nat}
    (h : find beginMarker (s.drop j) = some e) :
    isMarkerAt s (j + e) ∧ markersFrom s j = (j + e) :: markersFrom s (j + e + 1) := by
  obtain ⟨hm, hbefore⟩ := find_eq_some h
  simp only [List.drop_drop] at hm hbefore
  have hm : isMarkerAt s (j + e) := hm
  refine ⟨hm, ?_⟩
  rw [markersFrom_skip e hbefore, markersFrom_of_lt (by have := isMarkerAt_add_le hm; omega),
    if_pos hm]

theorem markersFrom_of_find_none {s : List UInt8} {j : Nat}
    (h : find beginMarker (s.drop j) = none) : markersFrom s j = [] := by
  have hnone := find_eq_none h
  simp only [List.drop_drop] at hnone
  rw [markersFrom_skip (s.length - j) (fun k _ => hnone k), markersFrom_of_le (by omega)]

/-! ### The chunks -/

/-- The chunks from the first guard at or after `j`: each runs from a guard to the next one,
the last to the end. -/
def chunksFrom (s : List UInt8) (j : Nat) : List (List UInt8) :=
  let ps := markersFrom s j
  List.zipWith (fun a b => (s.drop a).take (b - a)) ps (ps.tail ++ [s.length])

/-- `s[p₁..p₂], …, s[pₖ..|s|]`. -/
def pemChunks (s : List UInt8) : List (List UInt8) := chunksFrom s 0

theorem chunksFrom_of_le {s : List UInt8} {j : Nat} (h : s.length ≤ j) : chunksFrom s j = [] := by
  simp [chunksFrom, markersFrom_of_le h]

/-- Where the chunk that starts at `begin` ends: at the next guard after it, or at the end. -/
def nextEnd (s : List UInt8) (begin : Nat) : Nat :=
  match find beginMarker (s.drop (begin + 1)) with
  | some e => e + begin + 1
  | none => s.length

section Step

variable {s : List UInt8} {c : Nat}

theorem nextEnd_spec (hc : isMarkerAt s c) :
    (nextEnd s c = s.length ∨ isMarkerAt s (nextEnd s c)) ∧ c < nextEnd s c ∧
      nextEnd s c ≤ s.length ∧ markersFrom s (c + 1) = markersFrom s (nextEnd s c) := by
  have hlen := isMarkerAt_add_le hc
  unfold nextEnd
  split
  · next e he =>
    obtain ⟨hm, hms⟩ := markersFrom_of_find_some he
    rw [show e + c + 1 = c + 1 + e by omega]
    have := isMarkerAt_add_le hm
    refine ⟨.inr hm, by omega, by omega, ?_⟩
    rw [hms, markersFrom_of_lt (show c + 1 + e < s.length by omega), if_pos hm]
  · next he =>
    exact ⟨.inl rfl, by omega, le_rfl,
      by rw [markersFrom_of_find_none he, markersFrom_of_le le_rfl]⟩

/-- No guard starts strictly inside a chunk. -/
theorem not_isMarkerAt_of_lt_nextEnd (hc : isMarkerAt s c) {k : Nat} (hck : c < k)
    (hk : k < nextEnd s c) : isMarkerAt s k = false := by
  have hms := (nextEnd_spec hc).2.2.2
  rcases (nextEnd_spec hc).1 with hend | hm
  · rw [hend, markersFrom_of_le le_rfl] at hms
    by_contra hk'
    have : k ∈ markersFrom s (c + 1) := by
      simp only [markersFrom, List.mem_filter, List.mem_range'_1]
      have := isMarkerAt_add_le (Bool.not_eq_false _ ▸ hk')
      exact ⟨by omega, by simpa using hk'⟩
    simp [hms] at this
  · by_contra hk'
    have hk'' : isMarkerAt s k := by simpa using hk'
    have hsorted : ∀ m ∈ markersFrom s (nextEnd s c), nextEnd s c ≤ m := by
      intro m hm'
      simp only [markersFrom, List.mem_filter, List.mem_range'_1] at hm'
      omega
    have : k ∈ markersFrom s (c + 1) := by
      simp only [markersFrom, List.mem_filter, List.mem_range'_1]
      have := isMarkerAt_add_le hk''
      exact ⟨by omega, hk''⟩
    rw [hms] at this
    exact absurd (hsorted k this) (by omega)

theorem add_ten_le_nextEnd (hc : isMarkerAt s c) : c + 10 ≤ nextEnd s c := by
  obtain ⟨hend | hm, hlt, -⟩ := nextEnd_spec hc
  · rw [hend]; exact isMarkerAt_add_le hc
  · exact isMarkerAt_add_le_of_lt hc hm hlt

theorem chunksFrom_of_isMarkerAt (hc : isMarkerAt s c) :
    chunksFrom s c = (s.drop c).take (nextEnd s c - c) :: chunksFrom s (nextEnd s c) := by
  obtain ⟨hend | hm, hlt, hle, hms⟩ := nextEnd_spec hc
  all_goals
    have hlt' : c < s.length := by have := isMarkerAt_add_le hc; omega
    simp only [chunksFrom]
    rw [markersFrom_of_lt hlt', if_pos hc, hms]
  · rw [hend, markersFrom_of_le le_rfl]
    rfl
  · rw [markersFrom_of_lt (by have := isMarkerAt_add_le hm; omega), if_pos hm]
    rfl

theorem isMarkerAt_of_take_drop {m k : Nat} (h : isMarkerAt ((s.drop c).take m) k) :
    isMarkerAt s (c + k) := by
  unfold isMarkerAt at h ⊢
  rw [List.drop_take, List.drop_drop] at h
  exact List.isPrefixOf_iff_prefix.mpr (List.prefix_take_iff.mp (List.isPrefixOf_iff_prefix.mp h)).1

/-- **The chunk at a guard** is the slice `s[c..nextEnd]`, begins with the guard and holds no
other one. -/
theorem chunk_spec (hc : isMarkerAt s c) :
    slice s c (nextEnd s c) = some ((s.drop c).take (nextEnd s c - c)) ∧
      beginMarker <+: (s.drop c).take (nextEnd s c - c) ∧
      markerOffsets ((s.drop c).take (nextEnd s c - c)) = [0] := by
  obtain ⟨hend, hlt, hle, -⟩ := nextEnd_spec hc
  have h10 := add_ten_le_nextEnd hc
  have hpre : beginMarker <+: (s.drop c).take (nextEnd s c - c) :=
    List.prefix_take_iff.mpr ⟨List.isPrefixOf_iff_prefix.mp hc, by simp [beginMarker]; omega⟩
  refine ⟨?_, hpre, ?_⟩
  · rw [slice, if_pos]
    refine ⟨hlt.le, by simpa using isCharBoundary_of_isMarkerAt hc (show 0 < 2 by omega), ?_⟩
    rcases hend with hend | hm
    · rw [hend]; exact isCharBoundary_length s
    · simpa using isCharBoundary_of_isMarkerAt hm (show 0 < 2 by omega)
  · have hlen : ((s.drop c).take (nextEnd s c - c)).length = nextEnd s c - c := by
      simp only [List.length_take, List.length_drop]; omega
    have hothers : ∀ k < nextEnd s c - c - 1,
        isMarkerAt ((s.drop c).take (nextEnd s c - c)) (1 + k) = false := by
      intro k hk
      by_contra hm
      have hm := isMarkerAt_of_take_drop (Bool.not_eq_false _ ▸ hm)
      simp [not_isMarkerAt_of_lt_nextEnd hc (by omega : c < c + (1 + k)) (by omega)] at hm
    have h0 : isMarkerAt ((s.drop c).take (nextEnd s c - c)) 0 := List.isPrefixOf_iff_prefix.mpr hpre
    rw [markerOffsets, markersFrom_of_lt (by omega), if_pos h0, Nat.zero_add,
      markersFrom_skip _ hothers, markersFrom_of_le (by omega)]

end Step

theorem chunksFrom_congr {s : List UInt8} {j j' : Nat} (h : markersFrom s j = markersFrom s j') :
    chunksFrom s j = chunksFrom s j' := by
  simp only [chunksFrom, h]

/-- **Every chunk from a guard on** is valid UTF-8 when `s` is, begins with the guard and holds
no other one; laid end to end, the chunks give `s` from that guard on. -/
theorem chunksFrom_spec {s : List UInt8} (hs : validUtf8 s) (c : Nat)
    (hc : c = s.length ∨ isMarkerAt s c) :
    (chunksFrom s c).flatten = s.drop c ∧
      ∀ chunk ∈ chunksFrom s c,
        validUtf8 chunk ∧ beginMarker <+: chunk ∧ markerOffsets chunk = [0] := by
  rcases hc with rfl | hm
  · simp [chunksFrom_of_le le_rfl]
  · obtain ⟨hslice, hpre, hmk⟩ := chunk_spec hm
    obtain ⟨hflat, hok⟩ := chunksFrom_spec hs (nextEnd s c) (nextEnd_spec hm).1
    have hlt := (nextEnd_spec hm).2.1
    rw [chunksFrom_of_isMarkerAt hm, List.flatten_cons, hflat]
    refine ⟨?_, fun chunk hchunk => ?_⟩
    · conv_rhs => rw [← List.take_append_drop (nextEnd s c - c) (s.drop c)]
      rw [List.drop_drop, Nat.add_sub_cancel' hlt.le]
    · rcases List.mem_cons.mp hchunk with rfl | hrest
      · exact ⟨validUtf8_slice hs hslice, hpre, hmk⟩
      · exact hok chunk hrest
termination_by s.length - c
decreasing_by have := nextEnd_spec hm; have := isMarkerAt_add_le hm; omega

/-- `new` starts at `p₁`, the first guard, or at the end when there is none. -/
theorem markerOffsets_eq (s : List UInt8) :
    markerOffsets s = markersFrom s ((find beginMarker s).getD s.length) ∧
      (markerOffsets s).head?.getD s.length = (find beginMarker s).getD s.length := by
  cases hf : find beginMarker s with
  | none =>
    have h0 := markersFrom_of_find_none (show find beginMarker (s.drop 0) = none from hf)
    simp [markerOffsets, h0, markersFrom_of_le]
  | some e =>
    obtain ⟨hm, h0⟩ :=
      markersFrom_of_find_some (show find beginMarker (s.drop 0) = some e from hf)
    rw [Nat.zero_add] at hm h0
    rw [markerOffsets, h0, Option.getD_some,
      markersFrom_of_lt (show e < s.length by have := isMarkerAt_add_le hm; omega), if_pos hm]
    simp

/-! ### The iterator -/

/-- `pem::PemBlock`: the bundle, and the offset `cur_end` where the next chunk starts. -/
structure PemBlock where
  pemBlock : Str
  curEnd : Nat

namespace PemBlock

/-- `PemBlock::new`; `none` where `from_utf8(data).unwrap()` panics. -/
def new (data : List UInt8) : Option PemBlock :=
  (fromUtf8 data).map fun s => ⟨s, (find beginMarker s.bytes).getD s.bytes.length⟩

/-- `Iterator::next`; the outer `none` is a panic of one of its two slicings. -/
def next (self : PemBlock) : Option (Option (List UInt8) × PemBlock) :=
  let last := self.pemBlock.bytes.length
  if last ≤ self.curEnd then some (none, self)
  else
    let begin := self.curEnd
    (sliceFrom self.pemBlock.bytes (begin + 1)).bind fun rest =>
      let curEnd := match find beginMarker rest with
        | some e => e + begin + 1
        | none => last
      (slice self.pemBlock.bytes begin curEnd).map fun item =>
        (some item, { self with curEnd := curEnd })

theorem next_of_le {self : PemBlock} (h : self.pemBlock.bytes.length ≤ self.curEnd) :
    self.next = some (none, self) := by
  simp [next, h]

/-- **One step from a guard** returns the chunk up to the next guard and moves there. -/
theorem next_of_isMarkerAt {self : PemBlock} (h : isMarkerAt self.pemBlock.bytes self.curEnd) :
    self.next = some (some ((self.pemBlock.bytes.drop self.curEnd).take
        (nextEnd self.pemBlock.bytes self.curEnd - self.curEnd)),
      { self with curEnd := nextEnd self.pemBlock.bytes self.curEnd }) := by
  have hlt := isMarkerAt_add_le h
  have hfrom : sliceFrom self.pemBlock.bytes (self.curEnd + 1) =
      some (self.pemBlock.bytes.drop (self.curEnd + 1)) := by
    rw [sliceFrom, if_pos (isCharBoundary_of_isMarkerAt h (show 1 < 2 by omega))]
  simp only [next, if_neg (show ¬ self.pemBlock.bytes.length ≤ self.curEnd by omega), hfrom,
    Option.some_bind]
  rw [← nextEnd, (chunk_spec h).1]
  rfl

/-- Once `next` returns `None` it leaves the iterator as it was, so it returns `None` again. -/
theorem next_of_next_none {self self' : PemBlock} (h : self.next = some (none, self')) :
    self' = self := by
  simp only [next] at h
  split_ifs at h
  · cases h; rfl
  · simp only [Option.bind_eq_some, Option.map_eq_some'] at h
    obtain ⟨_, _, _, _, h⟩ := h
    cases h

theorem next_measure {self rest : PemBlock} {item : List UInt8}
    (h : self.next = some (some item, rest)) :
    rest.pemBlock.bytes.length - rest.curEnd < self.pemBlock.bytes.length - self.curEnd := by
  simp only [next] at h
  split_ifs at h with hle
  · simp at h
  · obtain ⟨tail, -, h⟩ := Option.bind_eq_some.mp h
    obtain ⟨item', -, h⟩ := Option.map_eq_some'.mp h
    cases h
    cases find beginMarker tail with
    | none => exact Nat.sub_lt_sub_left (Nat.lt_of_not_le hle) (Nat.lt_of_not_le hle)
    | some e =>
      exact Nat.sub_lt_sub_left (Nat.lt_of_not_le hle) (Nat.lt_succ_of_le (Nat.le_add_left _ e))

/-- `Iterator::collect`: `next` until it returns `None`; `none` if a call panics. -/
def collect (self : PemBlock) : Option (List (List UInt8)) :=
  match h : self.next with
  | none => none
  | some (none, _) => some []
  | some (some item, rest) => (collect rest).map (item :: ·)
termination_by self.pemBlock.bytes.length - self.curEnd
decreasing_by exact next_measure h

/-- `for item in self { body }` where `body` ends in `?`: the loop stops at the first error. -/
def forEach {σ ε : Type} (self : PemBlock) (body : List UInt8 → σ → Except ε σ) (acc : σ) :
    Option (Except ε σ) :=
  match h : self.next with
  | none => none
  | some (none, _) => some (.ok acc)
  | some (some item, rest) =>
    match body item acc with
    | .error e => some (.error e)
    | .ok acc => forEach rest body acc
termination_by self.pemBlock.bytes.length - self.curEnd
decreasing_by exact next_measure h

/-- `cur_end` is at a guard, or at the end of the bundle. -/
def Inv (self : PemBlock) : Prop :=
  self.curEnd = self.pemBlock.bytes.length ∨ isMarkerAt self.pemBlock.bytes self.curEnd

theorem inv_new {data : List UInt8} {self : PemBlock} (h : new data = some self) : self.Inv := by
  obtain ⟨s, -, rfl⟩ := Option.map_eq_some'.mp h
  cases hf : find beginMarker s.bytes with
  | none => exact .inl (by simp [hf])
  | some e => exact .inr (by simpa [hf, isMarkerAt] using (find_eq_some hf).1)

/-- The run from `new` covers every chunk: the first guard is where `markerOffsets` starts. -/
theorem collect_of_next_none {self self' : PemBlock} (h : self.next = some (none, self')) :
    self.collect = some [] := by
  rw [collect]; split <;> simp_all

theorem collect_of_next_some {self rest : PemBlock} {item : List UInt8}
    (h : self.next = some (some item, rest)) : self.collect = rest.collect.map (item :: ·) := by
  rw [collect]; split <;> simp_all

theorem forEach_of_next_none {σ ε : Type} {body : List UInt8 → σ → Except ε σ} {acc : σ}
    {self self' : PemBlock} (h : self.next = some (none, self')) :
    self.forEach body acc = some (.ok acc) := by
  rw [forEach]; split <;> simp_all

theorem forEach_of_next_some {σ ε : Type} {body : List UInt8 → σ → Except ε σ} {acc : σ}
    {self rest : PemBlock} {item : List UInt8} (h : self.next = some (some item, rest)) :
    self.forEach body acc = match body item acc with
      | .error e => some (.error e)
      | .ok acc => rest.forEach body acc := by
  rw [forEach]; split <;> simp_all

/-- **The whole run**: from a state of the invariant, `collect` yields the chunks from `cur_end`
on, and never panics. -/
theorem collect_of_inv (self : PemBlock) (h : self.Inv) :
    self.collect = some (chunksFrom self.pemBlock.bytes self.curEnd) := by
  rcases le_or_lt self.pemBlock.bytes.length self.curEnd with hle | hlt
  · rw [collect_of_next_none (next_of_le hle), chunksFrom_of_le hle]
  · have hm : isMarkerAt self.pemBlock.bytes self.curEnd := h.resolve_left (by omega)
    rw [collect_of_next_some (next_of_isMarkerAt hm),
      collect_of_inv { self with curEnd := nextEnd self.pemBlock.bytes self.curEnd }
        (nextEnd_spec hm).1, chunksFrom_of_isMarkerAt hm]
    rfl
termination_by self.pemBlock.bytes.length - self.curEnd
decreasing_by exact next_measure (next_of_isMarkerAt hm)

/-- The loop over the chunks from `cur_end` on is a fold over them that stops at the first
error. -/
theorem forEach_of_inv {σ ε : Type} (body : List UInt8 → σ → Except ε σ) (self : PemBlock)
    (h : self.Inv) (acc : σ) :
    self.forEach body acc =
      some ((chunksFrom self.pemBlock.bytes self.curEnd).foldlM
        (fun acc item => body item acc) acc) := by
  rcases le_or_lt self.pemBlock.bytes.length self.curEnd with hle | hlt
  · rw [forEach_of_next_none (next_of_le hle), chunksFrom_of_le hle]
    rfl
  · have hm : isMarkerAt self.pemBlock.bytes self.curEnd := h.resolve_left (by omega)
    rw [forEach_of_next_some (next_of_isMarkerAt hm), chunksFrom_of_isMarkerAt hm, List.foldlM_cons]
    cases body _ acc with
    | error e => rfl
    | ok acc' =>
      exact forEach_of_inv body { self with curEnd := nextEnd self.pemBlock.bytes self.curEnd }
        (nextEnd_spec hm).1 acc'
termination_by self.pemBlock.bytes.length - self.curEnd
decreasing_by exact next_measure (next_of_isMarkerAt hm)

end PemBlock

/-- The first `next` after `new` returns the first chunk, if any, and leaves the iterator at the
rest of them. -/
theorem PemBlock.next_new (s : Str) :
    ∃ blk, PemBlock.new s.bytes = some blk ∧
      match pemChunks s.bytes with
      | [] => blk.next = some (none, blk)
      | c :: cs => ∃ blk', blk.next = some (some c, blk') ∧ blk'.Inv ∧
          chunksFrom blk'.pemBlock.bytes blk'.curEnd = cs := by
  obtain ⟨hms, -⟩ := markerOffsets_eq s.bytes
  have hnew : PemBlock.new s.bytes =
      some ⟨s, (find beginMarker s.bytes).getD s.bytes.length⟩ := by
    simp [PemBlock.new, fromUtf8, s.valid]
  refine ⟨_, hnew, ?_⟩
  rw [pemChunks, chunksFrom_congr hms]
  rcases PemBlock.inv_new hnew with hend | hm
  · rw [chunksFrom_of_le hend.ge]
    exact PemBlock.next_of_le hend.ge
  · rw [chunksFrom_of_isMarkerAt hm]
    exact ⟨_, PemBlock.next_of_isMarkerAt hm, (nextEnd_spec hm).1, rfl⟩

/-- **`PemBlock` splits every `&str` at its guards.**  From `new`, iterating to exhaustion never
panics and yields `s[p₁..p₂], …, s[pₖ..|s|]`; every chunk is valid UTF-8, starts with
`-----BEGIN` and holds no other, the chunks concatenate to `s` from `p₁` on, and after a `None`
the iterator keeps returning `None`. -/
theorem pemBlock_chunks (s : Str) :
    ∃ blk, PemBlock.new s.bytes = some blk ∧ blk.collect = some (pemChunks s.bytes) ∧
      (∀ chunk ∈ pemChunks s.bytes,
        validUtf8 chunk ∧ beginMarker <+: chunk ∧ markerOffsets chunk = [0]) ∧
      (pemChunks s.bytes).flatten =
        s.bytes.drop ((markerOffsets s.bytes).head?.getD s.bytes.length) ∧
      ∀ b b' : PemBlock, b.next = some (none, b') → b'.next = some (none, b') := by
  obtain ⟨hms, hhead⟩ := markerOffsets_eq s.bytes
  have hnew : PemBlock.new s.bytes =
      some ⟨s, (find beginMarker s.bytes).getD s.bytes.length⟩ := by
    simp [PemBlock.new, fromUtf8, s.valid]
  have hinv := PemBlock.inv_new hnew
  have hchunks : pemChunks s.bytes =
      chunksFrom s.bytes ((find beginMarker s.bytes).getD s.bytes.length) := chunksFrom_congr hms
  obtain ⟨hflat, hok⟩ := chunksFrom_spec s.valid _ hinv
  refine ⟨_, hnew, ?_, hchunks ▸ hok, ?_, fun b b' h => ?_⟩
  · rw [PemBlock.collect_of_inv _ hinv, hchunks]
  · rw [hchunks, hflat, hhead]
  · obtain rfl := PemBlock.next_of_next_none h
    exact h

end NativeTls
