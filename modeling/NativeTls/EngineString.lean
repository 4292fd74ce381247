import NativeTls.Platform

/-!
# `parse_engine_string`

An engine string names where `from_os_provider` finds its certificate: `file:<path>`, or
`user:<store>:<thumbprint>` and `machine:<store>:<thumbprint>`, the thumbprint in hex.
`parse_engine_string` converts the `OsStr` with `to_string_lossy`, cuts it at the first `:` with
`split_once`, and for a store cuts the rest at every `:` with `split`, trims both fields and
hex-decodes the second.

`EngineGrammar` is that language as the documentation states it, with the result each string
should give.  `parseEngineString_spec` says the parser accepts exactly the strings of the grammar,
with exactly their results, and fails on every other.  The proof rests on two facts about the
cuts: `splitOnce_eq_some` (the first `:` is the one with none before it) and `splitOn_eq_pair`
(a text falls into two pieces exactly when it has exactly one `:`).

The grammar is over text.  An `OsStr` that is not valid Unicode is converted first, so
`parseEngineString_file` says that a `file:` string names its path after `to_string_lossy`: a
path holding an unpaired surrogate is not the path the caller gave
(`ofChars_toStringLossy_eq_iff`).
-/

namespace NativeTls

/-! ### Strings -/

/-- `U+FFFD REPLACEMENT CHARACTER`. -/
def replacementCharacter : Char := Char.ofNat 0xFFFD

/-- `OsStr::to_string_lossy`: each unpaired surrogate becomes `U+FFFD`. -/
def toStringLossy (s : OsStr) : List Char :=
  s.map fun
    | .scalar c => c
    | .surrogate _ => replacementCharacter

@[simp] theorem toStringLossy_ofChars (s : List Char) : toStringLossy (OsStr.ofChars s) = s := by
  induction s with
  | nil => rfl
  | cons c s ih => simpa [toStringLossy, OsStr.ofChars] using ih

/-- The lossy conversion gives a path back exactly when it holds no unpaired surrogate. -/
theorem ofChars_toStringLossy_eq_iff (p : OsStr) :
    OsStr.ofChars (toStringLossy p) = p ↔ ∀ u, OsChar.surrogate u ∉ p := by
  induction p with
  | nil => simp [toStringLossy, OsStr.ofChars]
  | cons c p ih =>
    cases c with
    | scalar c => simpa [toStringLossy, OsStr.ofChars] using ih
    | surrogate u =>
      exact iff_of_false (by simp [toStringLossy, OsStr.ofChars])
        fun h => h u (List.mem_cons_self _ _)

/-- `str::split_once(c)`: the text before the first `c` and the text after it. -/
def splitOnce (c : Char) : List Char → Option (List Char × List Char)
  | [] => none
  | a :: s =>
    if a = c then some ([], s)
    else (splitOnce c s).map fun (first, second) => (a :: first, second)

theorem splitOnce_append {c : Char} {first : List Char} (second : List Char) (h : c ∉ first) :
    splitOnce c (first ++ c :: second) = some (first, second) := by
  induction first with
  | nil => simp [splitOnce]
  | cons b first ih =>
    simp only [List.mem_cons, not_or] at h
    simp [splitOnce, Ne.symm h.1, ih h.2]

theorem eq_of_splitOnce {c : Char} {s first second : List Char}
    (h : splitOnce c s = some (first, second)) : s = first ++ c :: second ∧ c ∉ first := by
  induction s generalizing first with
  | nil => cases h
  | cons a s ih =>
    simp only [splitOnce] at h
    split_ifs at h with ha
    · cases h; simp [ha]
    · obtain ⟨⟨f, sd⟩, hs, he⟩ := Option.map_eq_some'.mp h
      cases he
      obtain ⟨rfl, hf⟩ := ih hs
      exact ⟨rfl, by simp [hf, Ne.symm ha]⟩

/-- `split_once` cuts at the first `c`: the one with no `c` before it. -/
theorem splitOnce_eq_some {c : Char} {s first second : List Char} :
    splitOnce c s = some (first, second) ↔ s = first ++ c :: second ∧ c ∉ first :=
  ⟨eq_of_splitOnce, fun ⟨hs, hf⟩ => hs ▸ splitOnce_append second hf⟩

/-- `char::is_whitespace`: the `White_Space` characters of Unicode. -/
def isWhitespace (c : Char) : Bool :=
  let n := c.toNat
  n == 0x20 || (0x09 ≤ n && n ≤ 0x0D) ||
    (0x7F < n && (n == 0x85 || n == 0xA0 || n == 0x1680 || (0x2000 ≤ n && n ≤ 0x200A) ||
      n == 0x2028 || n == 0x2029 || n == 0x202F || n == 0x205F || n == 0x3000))

/-- `str::trim`: without leading and trailing whitespace. -/
def trim (s : List Char) : List Char :=
  ((s.dropWhile isWhitespace).reverse.dropWhile isWhitespace).reverse

/-- No piece of `s.split(c)` holds a `c`. -/
theorem not_mem_of_mem_splitOn {c : Char} :
    ∀ {s l : List Char}, l ∈ s.splitOn c → c ∉ l
  | [], l, h => by simp_all
  | a :: s, l, h => by
    have ih : ∀ l ∈ s.splitOn c, c ∉ l := fun _ => not_mem_of_mem_splitOn
    simp only [List.splitOn, List.splitOnP_cons] at h ih
    split_ifs at h with ha
    · rcases List.mem_cons.mp h with rfl | h
      · simp
      · exact ih l h
    · obtain ⟨hd, tl, hs⟩ := List.exists_cons_of_ne_nil (List.splitOnP_ne_nil _ s)
      rw [hs] at h ih
      rcases List.mem_cons.mp h with rfl | h
      · simp only [beq_iff_eq] at ha
        simpa [Ne.symm ha] using ih hd (.head _)
      · exact ih l (.tail _ h)

/-- `s.split(c)` yields two pieces exactly when `s` holds exactly one `c`. -/
theorem splitOn_eq_pair {c : Char} {s r x : List Char} :
    s.splitOn c = [r, x] ↔ s = r ++ c :: x ∧ c ∉ r ∧ c ∉ x := by
  constructor
  · intro h
    have hs := List.intercalate_splitOn s c
    rw [h] at hs
    exact ⟨by simpa [List.intercalate] using hs.symm,
      not_mem_of_mem_splitOn (by rw [h]; simp : r ∈ s.splitOn c),
      not_mem_of_mem_splitOn (by rw [h]; simp : x ∈ s.splitOn c)⟩
  · rintro ⟨rfl, hr, hx⟩
    have hnr : ∀ y ∈ r, ¬ (y == c) := fun y hy hyc => hr (beq_iff_eq.mp hyc ▸ hy)
    have hnx : ∀ y ∈ x, ¬ (y == c) := fun y hy hyc => hx (beq_iff_eq.mp hyc ▸ hy)
    simp only [List.splitOn]
    rw [List.splitOnP_first _ r hnr c (beq_self_eq_true c), List.splitOnP_eq_single _ x hnx]

/-! ### Hex -/

/-- The value of a hex digit, as the `hex` crate's `val` reads it. -/
def hexVal (c : Char) : Option Nat :=
  let n := c.toNat
  if 0x41 ≤ n ∧ n ≤ 0x46 then some (n - 0x41 + 10)
  else if 0x61 ≤ n ∧ n ≤ 0x66 then some (n - 0x61 + 10)
  else if 0x30 ≤ n ∧ n ≤ 0x39 then some (n - 0x30)
  else none

/-- `hex::decode`, over the characters of the string: every two hex digits are one byte; an odd
length or a character that is not a hex digit fails.  The crate reads the string's bytes, so its
`FromHexError` may name another position, but it fails on the same strings and decodes the others
to the same bytes (a non-ASCII character's bytes are never hex digits); `parse_engine_string`
drops the error. -/
def hexDecode : List Char → Option (List UInt8)
  | [] => some []
  | [_] => none
  | hi :: lo :: rest => do
    let hi ← hexVal hi
    let lo ← hexVal lo
    let rest ← hexDecode rest
    pure ((hi * 16 + lo).toUInt8 :: rest)

/-- Two hex digits make one byte. -/
theorem hexDecode_length : ∀ {s : List Char} {h : List UInt8}, hexDecode s = some h →
    s.length = 2 * h.length
  | [], _, h => by cases h; rfl
  | [_], _, h => by cases h
  | hi :: lo :: rest, _, h => by
    simp only [hexDecode, Option.bind_eq_bind, Option.bind_eq_some, Option.pure_def,
      Option.some.injEq] at h
    obtain ⟨_, -, _, -, t, ht, rfl⟩ := h
    simp [hexDecode_length ht]
    omega

/-! ### The parser -/

/-- `OsProviderParameters`. -/
inductive OsProviderParameters
  | contextFromStore (storeName : List Char) (isMachine : Bool) (decodedHex : List UInt8)
  | contextFromFile (filePath : OsStr)
  deriving DecidableEq, Repr

/-- The error of lines 256 and 270. -/
def invalidStringPassed : Error := .new .invalidInput "Invalid string passed"

/-- `parse_engine_string`.  `parts.len() != 2` and the reads of `parts[0]` and `parts[1]` are
the one match on `parts`. -/
def parseEngineString (engineString : OsStr) : Except Error OsProviderParameters :=
  let convertedStr := toStringLossy engineString
  match splitOnce ':' convertedStr with
  | some (first, second) =>
    if first = "file".toList then .ok (.contextFromFile (OsStr.ofChars second))
    else if first = "user".toList ∨ first = "machine".toList then
      match (second.splitOn ':').map trim with
      | [storeName, thumbprint] =>
        match hexDecode thumbprint with
        | some decodedHex =>
          .ok (.contextFromStore storeName (decide (first = "machine".toList)) decodedHex)
        | none => .error (.new .invalidInput "Hex decode failed")
      | _ => .error invalidStringPassed
    else .error invalidStringPassed
  | none => .error invalidStringPassed

/-- A `file:` engine string names the lossy conversion of its path, whatever the path holds. -/
theorem parseEngineString_file (p : OsStr) :
    parseEngineString (OsStr.ofChars "file:".toList ++ p) =
      .ok (.contextFromFile (OsStr.ofChars (toStringLossy p))) := by
  have hconv : toStringLossy (OsStr.ofChars "file:".toList ++ p) =
      "file".toList ++ ':' :: toStringLossy p := by
    simp [toStringLossy, OsStr.ofChars]
  simp only [parseEngineString, hconv, splitOnce_append _ (by decide : ':' ∉ "file".toList),
    ↓reduceIte]

/-- The engine strings the documentation describes, with what each should give: `file:` and a
path that may hold more `:`; or `user` or `machine`, a store name and a thumbprint, between two
`:` and holding none, the fields trimmed and the thumbprint valid hex. -/
inductive EngineGrammar : List Char → OsProviderParameters → Prop
  | file (path : List Char) :
      EngineGrammar ("file:".toList ++ path) (.contextFromFile (OsStr.ofChars path))
  | store (storeClass storeName thumbprint : List Char) (decodedHex : List UInt8)
      (hclass : storeClass = "user".toList ∨ storeClass = "machine".toList)
      (hname : ':' ∉ storeName) (hthumbprint : ':' ∉ thumbprint)
      (hhex : hexDecode (trim thumbprint) = some decodedHex) :
      EngineGrammar (storeClass ++ ':' :: (storeName ++ ':' :: thumbprint))
        (.contextFromStore (trim storeName) (decide (storeClass = "machine".toList)) decodedHex)

/-- The parser on a string cut at its first `:`. -/
theorem parseEngineString_of_splitOnce {s first second : List Char}
    (h : splitOnce ':' s = some (first, second)) :
    parseEngineString (OsStr.ofChars s) =
      if first = "file".toList then .ok (.contextFromFile (OsStr.ofChars second))
      else if first = "user".toList ∨ first = "machine".toList then
        match (second.splitOn ':').map trim with
        | [storeName, thumbprint] =>
          match hexDecode thumbprint with
          | some decodedHex =>
            .ok (.contextFromStore storeName (decide (first = "machine".toList)) decodedHex)
          | none => .error (.new .invalidInput "Hex decode failed")
        | _ => .error invalidStringPassed
      else .error invalidStringPassed := by
  simp only [parseEngineString, toStringLossy_ofChars, h]

theorem engineGrammar_sound {s : List Char} {params : OsProviderParameters}
    (h : parseEngineString (OsStr.ofChars s) = .ok params) : EngineGrammar s params := by
  rcases hs : splitOnce ':' s with _ | ⟨first, second⟩
  · simp [parseEngineString, hs] at h
  obtain ⟨rfl, hfirst⟩ := splitOnce_eq_some.mp hs
  rw [parseEngineString_of_splitOnce hs] at h
  split_ifs at h with hfile hclass
  · cases h
    subst hfile
    exact .file second
  · rcases hsp : second.splitOn ':' with _ | ⟨r, _ | ⟨x, _ | ⟨y, rest⟩⟩⟩
    · simp [hsp] at h
    · simp [hsp] at h
    · obtain ⟨rfl, hr, hx⟩ := splitOn_eq_pair.mp hsp
      rcases hh : hexDecode (trim x) with _ | decodedHex <;>
        simp only [hsp, hh, List.map_cons, List.map_nil] at h
      · cases h
      · cases h
        exact .store first r x _ hclass hr hx hh
    · simp [hsp] at h

theorem engineGrammar_complete {s : List Char} {params : OsProviderParameters}
    (h : EngineGrammar s params) : parseEngineString (OsStr.ofChars s) = .ok params := by
  cases h with
  | file path =>
    show parseEngineString (OsStr.ofChars ("file".toList ++ ':' :: path)) = _
    rw [parseEngineString_of_splitOnce (splitOnce_append path (by decide))]
    simp
  | store c r x h hclass hr hx hhex =>
    have hc : ':' ∉ c := by rcases hclass with rfl | rfl <;> decide
    rw [parseEngineString_of_splitOnce (splitOnce_append _ hc), splitOn_eq_pair.mpr ⟨rfl, hr, hx⟩]
    rcases hclass with rfl | rfl <;> simp [hhex]

/-- **The parser accepts exactly the documented grammar**, each string with the result the
grammar gives it, and fails on every other string. -/
theorem parseEngineString_spec (s : List Char) :
    (∀ params, parseEngineString (OsStr.ofChars s) = .ok params ↔ EngineGrammar s params) ∧
      ((∃ e, parseEngineString (OsStr.ofChars s) = .error e) ↔
        ∀ params, ¬ EngineGrammar s params) := by
  refine ⟨fun _ => ⟨engineGrammar_sound, engineGrammar_complete⟩, ?_⟩
  constructor
  · rintro ⟨e, he⟩ params hg
    rw [engineGrammar_complete hg] at he
    cases he
  · intro hnone
    rcases hp : parseEngineString (OsStr.ofChars s) with e | params
    · exact ⟨e, rfl⟩
    · exact (hnone params (engineGrammar_sound hp)).elim

end NativeTls
