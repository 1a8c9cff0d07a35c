import RustDds.Lib.Panic
import RustDds.Lib.Utf8

/-!
# Matching a topic against a pattern

`globMatch` is the matcher behind the access rules.  It cuts a pattern into chunks, each behind a
run of `*` (`scanChunk`), and looks for the leftmost place of each chunk in turn (`matchChunk`,
`skipLoop`).  Where it gives up, it still checks the syntax of the chunks that are left
(`checkRest`).

It works on bytes, and every access to a byte or a rest of a string is checked, as in the source:
`byteAt` and `sliceFrom` stop the evaluation where there is nothing.  The loops take a step budget,
of which the length of what they go through is enough (`safe_globMatch`).
-/

namespace RustDds

/-! ## Accesses -/

/-- Why an evaluation stopped. -/
inductive GlobStop
  /-- `GlobError::BadPattern`. -/
  | badPattern
  | panic (p : Panic)
  /-- The step budget of a loop is used up. -/
  | budget
  deriving DecidableEq

def asterisk : UInt8 := 0x2A
def questionMark : UInt8 := 0x3F
def openBracket : UInt8 := 0x5B
def closeBracket : UInt8 := 0x5D
def backslash : UInt8 := 0x5C
def caret : UInt8 := 0x5E
def hyphen : UInt8 := 0x2D
def slash : UInt8 := 0x2F

/-- `s[i]`. -/
def byteAt (s : Bytes) (i : ℕ) : Except GlobStop UInt8 :=
  match s[i]? with
  | some b => .ok b
  | none => .error (.panic .sliceRange)

/-- `&s[n..]`. -/
def sliceFrom (s : Bytes) (n : ℕ) : Except GlobStop Bytes :=
  if n ≤ s.length then .ok (s.drop n) else .error (.panic .sliceRange)

/-- `&s[..n]`. -/
def sliceTo (s : Bytes) (n : ℕ) : Except GlobStop Bytes :=
  if n ≤ s.length then .ok (s.take n) else .error (.panic .sliceRange)

/-- `!s.is_empty() && s[0] == b`. -/
def startsWith (s : Bytes) (b : UInt8) : Except GlobStop Bool :=
  if s.isEmpty then .ok false else (byteAt s 0).map (· == b)

/-- `n + 1` for a `u32`. -/
def countOne (n : ℕ) : Except GlobStop ℕ := (checkedAdd 32 n 1).mapError .panic

/-! ## Characters -/

/-- How many bytes a leading byte announces, itself included. -/
def wantLen (first : UInt8) : ℕ :=
  if first < 0x80 then 1
  else if first &&& 0xE0 = 0xC0 then 2
  else if first &&& 0xF0 = 0xE0 then 3
  else if first &&& 0xF8 = 0xF0 then 4
  else 0

/-- The first character of a byte string and how many bytes it takes: U+FFFD with one byte where
they are not UTF-8, and with none at the end. -/
def decodeRune (s : Bytes) : Char × ℕ :=
  match s with
  | [] => ('\uFFFD', 0)
  | first :: _ =>
    let want := wantLen first
    if want = 0 ∨ want > s.length then ('\uFFFD', 1)
    else match (Utf8.decode (s.take want)).bind List.head? with
      | some c => (c, want)
      | none => ('\uFFFD', 1)

/-- The character at the front, if something follows it. -/
def getRune (chunk : Bytes) : Except GlobStop (Char × Bytes) :=
  let (r, n) := decodeRune chunk
  if r = '\uFFFD' ∧ n = 1 then .error .badPattern
  else do
    let nchunk ← sliceFrom chunk n
    if nchunk.isEmpty then .error .badPattern else .ok (r, nchunk)

/-- One end of a range in a character class, and what follows it. -/
def getEsc (chunk : Bytes) : Except GlobStop (Char × Bytes) :=
  if chunk.isEmpty then .error .badPattern
  else do
    let first ← byteAt chunk 0
    if first = hyphen ∨ first = closeBracket then .error .badPattern
    else if first = backslash then
      let chunk ← sliceFrom chunk 1
      if chunk.isEmpty then .error .badPattern else getRune chunk
    else getRune chunk

/-! ## Chunks -/

/-- The loop over the ranges of a character class, to behind its `]`: whether one of them has the
character `r`. -/
def classLoop (r : Char) : ℕ → Bytes → Bool → ℕ → Except GlobStop (Bytes × Bool)
  | 0, _, _, _ => .error .budget
  | fuel + 1, chunk, rangeMatched, nrange => do
    let closed ← startsWith chunk closeBracket
    if closed ∧ 0 < nrange then
      let chunk ← sliceFrom chunk 1
      .ok (chunk, rangeMatched)
    else
      let (lo, chunk) ← getEsc chunk
      let ranged ← startsWith chunk hyphen
      let (hi, chunk) ← (if ranged then sliceFrom chunk 1 >>= getEsc else .ok (lo, chunk))
      let nrange ← countOne nrange
      classLoop r fuel chunk (rangeMatched || (decide (lo ≤ r) && decide (r ≤ hi))) nrange

/-- A class, from its `[`: what is left of the chunk and of `s`, and whether the match has
failed. -/
def matchClass (chunk s : Bytes) (failed : Bool) : Except GlobStop (Bytes × Bytes × Bool) := do
  let (r, n) := if failed then ('\x00', 0) else decodeRune s
  let s ← sliceFrom s n
  let chunk ← sliceFrom chunk 1
  let negated ← startsWith chunk caret
  let chunk ← (if negated then sliceFrom chunk 1 else .ok chunk)
  let (chunk, rangeMatched) ← classLoop r (chunk.length + 1) chunk false 0
  .ok (chunk, s, failed || rangeMatched == negated)

/-- A `?`. -/
def matchAny (chunk s : Bytes) (failed : Bool) : Except GlobStop (Bytes × Bytes × Bool) := do
  let (s, failed) ← (if failed then .ok (s, failed) else do
    let b ← byteAt s 0
    let s ← sliceFrom s (decodeRune s).2
    .ok (s, b == slash))
  let chunk ← sliceFrom chunk 1
  .ok (chunk, s, failed)

/-- A byte that is compared with the next of `s`. -/
def matchLiteral (chunk s : Bytes) (failed : Bool) : Except GlobStop (Bytes × Bytes × Bool) := do
  let literal ← byteAt chunk 0
  let (s, failed) ← (if failed then .ok (s, failed) else do
    let b ← byteAt s 0
    let s ← sliceFrom s 1
    .ok (s, literal != b))
  let chunk ← sliceFrom chunk 1
  .ok (chunk, s, failed)

/-- The term at the front of a chunk. -/
def matchTerm (chunk s : Bytes) (failed : Bool) : Except GlobStop (Bytes × Bytes × Bool) := do
  let first ← byteAt chunk 0
  if first = openBracket then matchClass chunk s failed
  else if first = questionMark then matchAny chunk s failed
  else if first = backslash then
    let chunk ← sliceFrom chunk 1
    if chunk.isEmpty then .error .badPattern else matchLiteral chunk s failed
  else matchLiteral chunk s failed

/-- The loop over the terms of a chunk: what is left of `s`, and whether the chunk matched.  After
the first term that did not, only the syntax of the others is checked. -/
def matchLoop : ℕ → Bytes → Bytes → Bool → Except GlobStop (Bytes × Bool)
  | 0, _, _, _ => .error .budget
  | fuel + 1, chunk, s, failed =>
    if chunk.isEmpty then
      if failed then .ok ([], false) else .ok (s, true)
    else do
      let (chunk, s, failed) ← matchTerm chunk s (failed || s.isEmpty)
      matchLoop fuel chunk s failed

/-- Match a chunk at the front of `s`. -/
def matchChunk (chunk s : Bytes) : Except GlobStop (Bytes × Bool) :=
  matchLoop (chunk.length + 1) chunk s false

/-! ## Patterns -/

/-- The loop over the `*` at the front of a pattern. -/
def scanStars : ℕ → Bytes → Bool → Except GlobStop (Bool × Bytes)
  | 0, _, _ => .error .budget
  | fuel + 1, pattern, star => do
    let more ← startsWith pattern asterisk
    if more then
      let pattern ← sliceFrom pattern 1
      scanStars fuel pattern true
    else .ok (star, pattern)

/-- The loop to the end of the first chunk: to the next `*` that is not in a class. -/
def scanEnd (pattern : Bytes) : ℕ → ℕ → Bool → Except GlobStop ℕ
  | 0, _, _ => .error .budget
  | fuel + 1, i, inrange =>
    if i < pattern.length then do
      let b ← byteAt pattern i
      if b = backslash then
        scanEnd pattern fuel ((if i + 1 < pattern.length then i + 1 else i) + 1) inrange
      else if b = openBracket then scanEnd pattern fuel (i + 1) true
      else if b = closeBracket then scanEnd pattern fuel (i + 1) false
      else if b = asterisk ∧ inrange = false then .ok i
      else scanEnd pattern fuel (i + 1) inrange
    else .ok pattern.length

/-- The first chunk of a pattern, whether a `*` is before it, and what is behind it. -/
def scanChunk (pattern : Bytes) : Except GlobStop (Bool × Bytes × Bytes) := do
  let (star, pattern) ← scanStars (pattern.length + 1) pattern false
  let i ← scanEnd pattern (pattern.length + 1) 0 false
  let chunk ← sliceTo pattern i
  let rest ← sliceFrom pattern i
  .ok (star, chunk, rest)

/-- Look for a place of the chunk in `name` behind its byte `i`.  There must be no `/` before it,
and the last chunk has to reach the end. -/
def skipLoop (chunk pattern name : Bytes) : ℕ → ℕ → Except GlobStop (Option Bytes)
  | 0, _ => .error .budget
  | fuel + 1, i =>
    if i < name.length then do
      let b ← byteAt name i
      if b = slash then .ok none
      else
        let behind ← sliceFrom name (i + 1)
        let (t, matched) ← matchChunk chunk behind
        if matched ∧ ¬ (pattern.isEmpty ∧ ¬ t.isEmpty) then .ok (some t)
        else skipLoop chunk pattern name fuel (i + 1)
    else .ok none

/-- Check the syntax of what is left of a pattern. -/
def checkRest : ℕ → Bytes → Except GlobStop Unit
  | 0, _ => .error .budget
  | fuel + 1, pattern => do
    if pattern.isEmpty then .ok ()
    else
      let (_, chunk, pattern) ← scanChunk pattern
      let _ ← matchChunk chunk []
      checkRest fuel pattern

/-- The loop over the chunks of a pattern. -/
def globLoop : ℕ → Bytes → Bytes → Except GlobStop Bool
  | 0, _, _ => .error .budget
  | fuel + 1, pattern, name => do
    if pattern.isEmpty then .ok name.isEmpty
    else
      let (star, chunk, pattern) ← scanChunk pattern
      if star ∧ chunk.isEmpty then .ok (!name.contains slash)
      else
        let (t, matched) ← matchChunk chunk name
        if matched ∧ (t.isEmpty ∨ ¬ pattern.isEmpty) then globLoop fuel pattern t
        else
          let skipped ← (if star then skipLoop chunk pattern name (name.length + 1) 0 else .ok none)
          match skipped with
          | some t => globLoop fuel pattern t
          | none =>
            checkRest (pattern.length + 1) pattern
            .ok false

/-- Whether `name` matches the pattern. -/
def globMatch (pattern name : Bytes) : Except GlobStop Bool :=
  globLoop (pattern.length + 1) pattern name

end RustDds
