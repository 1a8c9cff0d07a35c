import RustDds.Lib.Glob
import RustDds.Security.GlobSyntax

/-!
# The grammar of patterns

What a well-formed pattern is, and what it means, without a matcher: `IsPattern` reads a pattern as
chunks with a star before each but the first, and a chunk as a list of terms.  Each term is a test
on one byte of an ASCII name.  Which names match then is the matter of the library on globs.

The module compares the loop over the terms of a chunk with that: on a chunk of the grammar it does
what the library calls `Glob.strip` (`matchLoop_of_isChunk`), and what it accepts at the front of a
chunk is a term (`matchTerm_outcome`).
-/

namespace RustDds

/-! ## Terms -/

/-- One end of a range in a class, as it is written: a character, with a backslash before it or
not. -/
inductive IsEndpoint : Bytes → Char → Prop
  | plain {b : UInt8} {e : Bytes} {c : Char} (h : Utf8.decode (b :: e) = some [c])
      (hhyphen : b ≠ hyphen) (hclose : b ≠ closeBracket) (hescape : b ≠ backslash) :
      IsEndpoint (b :: e) c
  | escaped {e : Bytes} {c : Char} (h : Utf8.decode e = some [c]) : IsEndpoint (backslash :: e) c

/-- A range in a class. -/
inductive IsMember : Bytes → Char × Char → Prop
  | single {e : Bytes} {c : Char} (h : IsEndpoint e c) : IsMember e (c, c)
  | range {e e' : Bytes} {lo hi : Char} (hlo : IsEndpoint e lo) (hhi : IsEndpoint e' hi) :
      IsMember (e ++ hyphen :: e') (lo, hi)

/-- The ranges in a class. -/
inductive AreMembers : Bytes → List (Char × Char) → Prop
  | nil : AreMembers [] []
  | cons {e w : Bytes} {m : Char × Char} {ms : List (Char × Char)} (hm : IsMember e m)
      (h : AreMembers w ms) : AreMembers (e ++ w) (m :: ms)

/-- Whether a character is in one of the ranges. -/
def inRanges (ms : List (Char × Char)) (r : Char) : Bool :=
  ms.any fun m => decide (m.1 ≤ r) && decide (r ≤ m.2)

/-- Whether a class admits an ASCII byte. -/
def classAdmits (negated : Bool) (ms : List (Char × Char)) (b : UInt8) : Bool :=
  decide (b < 0x80) && inRanges ms (Char.ofNat b.toNat) != negated

/-- A term of a chunk, and the bytes it admits. -/
inductive IsTerm : Bytes → (UInt8 → Bool) → Prop
  | any : IsTerm [questionMark] (· != slash)
  | escaped (b : UInt8) : IsTerm [backslash, b] (· == b)
  | literal {b : UInt8} (hstar : b ≠ asterisk) (hany : b ≠ questionMark) (hopen : b ≠ openBracket)
      (hescape : b ≠ backslash) : IsTerm [b] (· == b)
  | positive {w : Bytes} {ms : List (Char × Char)} (h : AreMembers w ms) (hne : ms ≠ [])
      (hcaret : w.head? ≠ some caret) :
      IsTerm (openBracket :: (w ++ [closeBracket])) (classAdmits false ms)
  | negative {w : Bytes} {ms : List (Char × Char)} (h : AreMembers w ms) (hne : ms ≠ []) :
      IsTerm (openBracket :: caret :: (w ++ [closeBracket])) (classAdmits true ms)

/-- A chunk: terms one behind the other. -/
inductive IsChunk : Bytes → Glob.Chunk UInt8 → Prop
  | nil : IsChunk [] []
  | cons {e w : Bytes} {t : UInt8 → Bool} {ts : Glob.Chunk UInt8} (ht : IsTerm e t)
      (h : IsChunk w ts) : IsChunk (e ++ w) (t :: ts)

/-- **A well-formed pattern**: a chunk, and chunks with a star before each. -/
inductive IsPattern : Bytes → Glob.Chunk UInt8 → List (Glob.Chunk UInt8) → Prop
  | last {w : Bytes} {c : Glob.Chunk UInt8} (h : IsChunk w c) : IsPattern w c []
  | star {w p : Bytes} {c d : Glob.Chunk UInt8} {ds : List (Glob.Chunk UInt8)} (hc : IsChunk w c)
      (h : IsPattern p d ds) : IsPattern (w ++ asterisk :: p) c (d :: ds)

/-- A star takes any byte but a separator. -/
def notSlash (b : UInt8) : Bool := b != slash

/-- No class of the pattern has more members than a `u32` can count. -/
def Bounded (pattern : Bytes) : Prop :=
  ∀ w ms, openBracket :: w <:+: pattern → AreMembers w ms → ms.length < 2 ^ 32

/-! ## Characters -/

lemma wantLen_of_width {b : UInt8} (h : Utf8.width b ≠ 0) : wantLen b = Utf8.width b := by
  have hall : ∀ n < 256, Utf8.width (UInt8.ofNat n) = 0 ∨
      wantLen (UInt8.ofNat n) = Utf8.width (UInt8.ofNat n) := by decide +kernel
  rcases hall b.toNat b.toNat_lt with h' | h'
  · rw [UInt8.ofNat_toNat] at h'
    exact absurd h' h
  · rwa [UInt8.ofNat_toNat] at h'

/-- The front of a byte string is a character. -/
lemma decodeRune_append {e : Bytes} {c : Char} (h : Utf8.decode e = some [c]) (rest : Bytes) :
    decodeRune (e ++ rest) = (c, e.length) := by
  cases e with
  | nil => cases h
  | cons b e =>
    obtain ⟨hwidth, -, -⟩ := Utf8.decode_eq_singleton h
    have hwant : wantLen b = (b :: e).length := by
      rw [wantLen_of_width (by omega), ← hwidth, List.length_cons]
    rw [List.cons_append, decodeRune, hwant, if_neg (by simp), ← List.cons_append,
      List.take_left, h]
    rfl

/-- What `decodeRune` reads is a character. -/
lemma decodeRune_eq {s : Bytes} {c : Char} {n : ℕ} (h : decodeRune s = (c, n)) (hs : s ≠ [])
    (hbad : ¬ (c = '\uFFFD' ∧ n = 1)) :
    Utf8.decode (s.take n) = some [c] ∧ n ≤ s.length := by
  have hbad' : ('\uFFFD', 1) ≠ (c, n) := by
    rintro heq
    obtain ⟨rfl, rfl⟩ := Prod.mk.inj heq
    exact hbad ⟨rfl, rfl⟩
  obtain ⟨b, t, rfl⟩ := List.exists_cons_of_ne_nil hs
  rw [decodeRune] at h
  split at h
  · exact absurd h hbad'
  rename_i hwant
  push Not at hwant
  cases hdecode : (Utf8.decode ((b :: t).take (wantLen b))).bind List.head? with
  | none =>
    rw [hdecode] at h
    exact absurd h hbad'
  | some c' =>
    rw [hdecode] at h
    obtain ⟨rfl, rfl⟩ := Prod.mk.inj h
    obtain ⟨cs, hcs, hhead⟩ := Option.bind_eq_some_iff.mp hdecode
    obtain ⟨cs, rfl⟩ := List.head?_eq_some_iff.mp hhead
    obtain ⟨k, hk⟩ := Nat.exists_eq_add_one_of_ne_zero hwant.1
    have htake : (b :: t).take (wantLen b) = b :: t.take k := by rw [hk, List.take_succ_cons]
    rw [htake] at hcs ⊢
    have hwidth : Utf8.width b ≠ 0 := by
      obtain ⟨w, -, -, hw, -⟩ := Utf8.decode_cons_eq_some hcs
      omega
    have hlength : (t.take k).length + 1 = Utf8.width b := by
      have hle := hwant.2
      rw [List.length_cons] at hle
      rw [← wantLen_of_width hwidth, List.length_take, hk]
      omega
    rw [Utf8.eq_nil_of_decode_cons hcs hlength] at hcs
    exact ⟨hcs, hwant.2⟩

/-- U+FFFD is not an ASCII character. -/
lemma ne_replacement_of_length {e : Bytes} {c : Char} (h : Utf8.decode e = some [c])
    (hlength : e.length = 1) : c ≠ '\uFFFD' := by
  obtain ⟨b, rfl⟩ := List.length_eq_one_iff.mp hlength
  obtain ⟨hwidth, -, hc⟩ := Utf8.decode_eq_singleton h
  have hascii : b < 0x80 := by
    by_contra hb
    rw [Utf8.width, if_neg hb] at hwidth
    cases hlead : Utf8.lead b with
    | none =>
      rw [hlead] at hwidth
      cases hwidth
    | some x =>
      rw [hlead] at hwidth
      have hall : ∀ n < 256, (Utf8.lead (UInt8.ofNat n)).all (fun x => decide (0 < x.1)) := by
        decide +kernel
      have := hall b.toNat b.toNat_lt
      rw [UInt8.ofNat_toNat, hlead] at this
      simp at this hwidth
      omega
  have hall : ∀ n < 128, Char.ofNat n ≠ '\uFFFD' := by decide +kernel
  rw [hc hascii]
  exact hall _ (UInt8.lt_iff_toNat_lt.mp hascii)

lemma getRune_eq_ok {s rest : Bytes} {c : Char} : getRune s = .ok (c, rest) ↔
    rest ≠ [] ∧ ∃ e, Utf8.decode e = some [c] ∧ s = e ++ rest := by
  constructor
  · intro h
    by_cases hs : s = []
    · subst hs
      cases h
    rw [getRune] at h
    rcases hrune : decodeRune s with ⟨r, n⟩
    rw [hrune] at h
    dsimp only at h
    split at h
    · cases h
    rename_i hbad
    obtain ⟨hdecode, hle⟩ := decodeRune_eq hrune hs hbad
    rw [sliceFrom_of_le hle, Except.ok_bind] at h
    split at h
    · cases h
    rename_i hrest
    cases h
    exact ⟨by simpa using hrest, _, hdecode, (List.take_append_drop n s).symm⟩
  · rintro ⟨hrest, e, he, rfl⟩
    rw [getRune, decodeRune_append he]
    dsimp only
    rw [if_neg (fun h => ne_replacement_of_length he h.2 h.1), sliceFrom_of_le (by simp),
      Except.ok_bind, List.drop_left, if_neg (by simpa using hrest)]

/-- **One end of a range.** -/
lemma getEsc_eq_ok {s rest : Bytes} {c : Char} : getEsc s = .ok (c, rest) ↔
    rest ≠ [] ∧ ∃ e, IsEndpoint e c ∧ s = e ++ rest := by
  cases s with
  | nil =>
    refine iff_of_false nofun ?_
    rintro ⟨hrest, e, -, heq⟩
    exact hrest (List.append_eq_nil_iff.mp heq.symm).2
  | cons b s =>
    rw [getEsc_cons]
    constructor
    · intro h
      split at h
      · cases h
      rename_i hplain
      push Not at hplain
      split at h
      · rename_i hescape
        subst hescape
        split at h
        · cases h
        · obtain ⟨hrest, e, he, rfl⟩ := getRune_eq_ok.mp h
          exact ⟨hrest, _, .escaped he, rfl⟩
      · rename_i hescape
        obtain ⟨hrest, e, he, heq⟩ := getRune_eq_ok.mp h
        cases e with
        | nil => cases he
        | cons b' e =>
          obtain ⟨rfl, rfl⟩ := List.cons.inj heq
          exact ⟨hrest, _, .plain he hplain.1 hplain.2 hescape, rfl⟩
    · rintro ⟨hrest, e, he, heq⟩
      cases he with
      | plain hdecode hhyphen hclose hescape =>
        obtain ⟨rfl, rfl⟩ := List.cons.inj heq
        rw [if_neg (by simp [hhyphen, hclose]), if_neg hescape]
        exact getRune_eq_ok.mpr ⟨hrest, _, hdecode, rfl⟩
      | escaped hdecode =>
        obtain ⟨rfl, rfl⟩ := List.cons.inj heq
        rw [if_neg (by decide), if_pos rfl, if_neg (by simp [hrest])]
        exact getRune_eq_ok.mpr ⟨hrest, _, hdecode, rfl⟩

/-! ## Classes -/

/-- The first range of a class, and what follows it. -/
def getRange (chunk : Bytes) : Except GlobStop ((Char × Char) × Bytes) := do
  let (lo, rest) ← getEsc chunk
  let (hi, rest) ← (if rest.head? = some hyphen then getEsc rest.tail else .ok (lo, rest))
  .ok ((lo, hi), rest)

lemma classLoop_eq (r : Char) (fuel : ℕ) (chunk : Bytes) (rangeMatched : Bool) (nrange : ℕ) :
    classLoop r (fuel + 1) chunk rangeMatched nrange =
      if chunk.head? = some closeBracket ∧ 0 < nrange then .ok (chunk.tail, rangeMatched)
      else getRange chunk >>= fun x => countOne nrange >>= fun nrange =>
        classLoop r fuel x.2 (rangeMatched || inRanges [x.1] r) nrange := by
  rw [classLoop_succ, getRange]
  split
  · rfl
  cases getEsc chunk with
  | error e => rfl
  | ok lo =>
    rw [Except.ok_bind, Except.ok_bind]
    dsimp only
    cases (if lo.2.head? = some hyphen then getEsc lo.2.tail else .ok (lo.1, lo.2)) with
    | error e => rfl
    | ok hi => simp [Except.ok_bind, inRanges]

/-- A range starts with neither of the bytes that stand for themselves in a class. -/
lemma IsEndpoint.exists_cons {e : Bytes} {c : Char} (h : IsEndpoint e c) :
    ∃ b t, e = b :: t ∧ b ≠ hyphen ∧ b ≠ closeBracket := by
  cases h with
  | plain h hhyphen hclose hescape => exact ⟨_, _, rfl, hhyphen, hclose⟩
  | escaped h => exact ⟨_, _, rfl, by decide, by decide⟩

lemma IsMember.exists_cons {e : Bytes} {m : Char × Char} (h : IsMember e m) :
    ∃ b t, e = b :: t ∧ b ≠ hyphen ∧ b ≠ closeBracket := by
  cases h with
  | single h => exact h.exists_cons
  | range hlo hhi =>
    obtain ⟨b, t, rfl, hb⟩ := hlo.exists_cons
    exact ⟨b, _, rfl, hb⟩

lemma AreMembers.length_le {w : Bytes} {ms : List (Char × Char)} (h : AreMembers w ms) :
    ms.length ≤ w.length := by
  induction h with
  | nil => exact Nat.le_refl _
  | cons he _ ih =>
    obtain ⟨b, t, rfl, -⟩ := he.exists_cons
    rw [List.length_append, List.length_cons, List.length_cons]
    omega

/-- A class cannot have more members than the pattern has bytes. -/
lemma bounded_of_length {p : Bytes} (h : p.length < 2 ^ 32) : Bounded p := by
  intro w ms hw hms
  have hlength := hw.length_le
  have hle := hms.length_le
  rw [List.length_cons] at hlength
  omega

lemma isMember_of_getRange {s rest : Bytes} {m : Char × Char} (h : getRange s = .ok (m, rest)) :
    ∃ e, IsMember e m ∧ s = e ++ rest := by
  obtain ⟨⟨lo, rest₁⟩, hlo, h⟩ := Except.bind_eq_ok.mp h
  obtain ⟨⟨hi, rest₂⟩, hhi, h⟩ := Except.bind_eq_ok.mp h
  cases h
  obtain ⟨-, e, he, rfl⟩ := getEsc_eq_ok.mp hlo
  split at hhi
  · rename_i hrange
    obtain ⟨tail, rfl⟩ := List.head?_eq_some_iff.mp hrange
    obtain ⟨-, e', he', heq⟩ := getEsc_eq_ok.mp hhi
    rw [List.tail_cons] at heq
    subst heq
    exact ⟨_, .range he he', by simp⟩
  · cases hhi
    exact ⟨e, .single he, rfl⟩

lemma getRange_of_isMember {e rest : Bytes} {m : Char × Char} (h : IsMember e m)
    (hrest : rest ≠ []) (hhyphen : rest.head? ≠ some hyphen) :
    getRange (e ++ rest) = .ok (m, rest) := by
  cases h with
  | single h =>
    rw [getRange, getEsc_eq_ok.mpr ⟨hrest, e, h, rfl⟩, Except.ok_bind]
    dsimp only
    rw [if_neg hhyphen, Except.ok_bind]
  | @range e e' lo hi hlo hhi =>
    have hfirst : getEsc ((e ++ hyphen :: e') ++ rest) = .ok (lo, hyphen :: (e' ++ rest)) :=
      getEsc_eq_ok.mpr ⟨List.cons_ne_nil _ _, e, hlo, by simp⟩
    rw [getRange, hfirst, Except.ok_bind]
    dsimp only
    rw [if_pos (List.head?_cons ..), List.tail_cons, getEsc_eq_ok.mpr ⟨hrest, e', hhi, rfl⟩,
      Except.ok_bind]

lemma inRanges_cons (m : Char × Char) (ms : List (Char × Char)) (r : Char) :
    inRanges (m :: ms) r = (inRanges [m] r || inRanges ms r) := by
  simp [inRanges]

/-- **What the loop over the ranges accepts** is a list of ranges. -/
lemma areMembers_of_classLoop {r : Char} {fuel : ℕ} {s rest : Bytes} {rangeMatched b : Bool}
    {nrange : ℕ} (h : classLoop r fuel s rangeMatched nrange = .ok (rest, b)) :
    ∃ w ms, AreMembers w ms ∧ s = w ++ closeBracket :: rest ∧ (0 < nrange ∨ ms ≠ []) := by
  induction fuel generalizing s rangeMatched nrange with
  | zero => cases h
  | succ fuel ih =>
    rw [classLoop_eq] at h
    split at h
    · rename_i hclose
      cases h
      obtain ⟨tail, rfl⟩ := List.head?_eq_some_iff.mp hclose.1
      exact ⟨[], [], .nil, rfl, .inl hclose.2⟩
    · obtain ⟨⟨m, tail⟩, hm, hnext⟩ := Except.bind_eq_ok.mp h
      obtain ⟨nrange', -, hloop⟩ := Except.bind_eq_ok.mp hnext
      obtain ⟨e, he, rfl⟩ := isMember_of_getRange hm
      obtain ⟨w, ms, hms, rfl, -⟩ := ih hloop
      exact ⟨_, _, .cons he hms, by simp, .inr (List.cons_ne_nil _ _)⟩

/-- **A list of ranges is accepted**, unless there are too many of them. -/
lemma classLoop_of_areMembers (r : Char) {w : Bytes} {ms : List (Char × Char)}
    (h : AreMembers w ms) {fuel nrange : ℕ} (hne : 0 < nrange ∨ ms ≠ [])
    (hcount : nrange + ms.length < 2 ^ 32) (rest : Bytes)
    (hfuel : (w ++ closeBracket :: rest).length < fuel) (rangeMatched : Bool) :
    classLoop r fuel (w ++ closeBracket :: rest) rangeMatched nrange =
      .ok (rest, rangeMatched || inRanges ms r) := by
  induction h generalizing fuel nrange rangeMatched with
  | nil =>
    obtain ⟨fuel, rfl⟩ := Nat.exists_eq_add_one_of_ne_zero (Nat.ne_zero_of_lt hfuel)
    rw [classLoop_eq, if_pos ⟨rfl, hne.resolve_right (fun h => h rfl)⟩]
    simp [inRanges]
  | @cons e w m ms he hms ih =>
    obtain ⟨fuel, rfl⟩ := Nat.exists_eq_add_one_of_ne_zero (Nat.ne_zero_of_lt hfuel)
    rw [List.length_cons] at hcount
    obtain ⟨b, t, rfl, hhyphen, hclose⟩ := he.exists_cons
    -- what follows the range is another one or the end of the class
    have hnext : (w ++ closeBracket :: rest).head? ≠ some hyphen := by
      cases hms with
      | nil => simp [closeBracket, hyphen]
      | cons he' _ =>
        obtain ⟨b', t', rfl, hhyphen', -⟩ := he'.exists_cons
        simpa using hhyphen'
    rw [List.append_assoc, classLoop_eq, if_neg (by simp [hclose]),
      getRange_of_isMember he (by simp) hnext, Except.ok_bind, countOne_of_lt (by omega),
      Except.ok_bind]
    dsimp only
    rw [ih (.inl (Nat.succ_pos _)) (by omega) (by simp at hfuel ⊢; omega), inRanges_cons m ms,
      Bool.or_assoc]

/-- What is not a range is bad syntax. -/
lemma getRange_cases (s : Bytes) : getRange s = .error .badPattern ∨
    ∃ x, getRange s = .ok x := by
  rw [getRange]
  rcases getEsc_cases s with hbad | ⟨lo, rest, hlo, -, -⟩
  · rw [hbad]
    exact .inl rfl
  rw [hlo, Except.ok_bind]
  dsimp only
  split
  · rcases getEsc_cases rest.tail with hbad | ⟨hi, rest', hhi, -, -⟩
    · rw [hbad]
      exact .inl rfl
    · rw [hhi]
      exact .inr ⟨_, rfl⟩
  · exact .inr ⟨_, rfl⟩

/-- If the count overflows, the class has that many ranges. -/
lemma le_length_of_overflow {r : Char} {fuel : ℕ} {s : Bytes} {rangeMatched : Bool} {nrange : ℕ}
    (h : classLoop r fuel s rangeMatched nrange = .error (.panic .overflow)) :
    ∃ w ms, AreMembers w ms ∧ w <+: s ∧ 2 ^ 32 ≤ nrange + ms.length := by
  induction fuel generalizing s rangeMatched nrange with
  | zero => cases h
  | succ fuel ih =>
    rw [classLoop_eq] at h
    split at h
    · cases h
    rcases getRange_cases s with hbad | ⟨⟨m, tail⟩, hrange⟩
    · rw [hbad] at h
      cases h
    obtain ⟨e, he, rfl⟩ := isMember_of_getRange hrange
    rcases Nat.lt_or_ge (nrange + 1) (2 ^ 32) with hcount | hcount
    · rw [hrange, Except.ok_bind, countOne_of_lt hcount, Except.ok_bind] at h
      obtain ⟨w, ms, hms, hw, hle⟩ := ih h
      refine ⟨e ++ w, m :: ms, .cons he hms, List.prefix_append_right_inj e |>.mpr hw, ?_⟩
      rw [List.length_cons]
      omega
    · refine ⟨e ++ [], [m], .cons he .nil, ?_, hcount⟩
      rw [List.append_nil]
      exact List.prefix_append e tail

/-! ## Terms -/

/-- The `^` that negates a class is a range of its own in what follows the bracket. -/
lemma areMembers_caret {w : Bytes} {ms : List (Char × Char)} (h : AreMembers w ms) :
    AreMembers (caret :: w) (('^', '^') :: ms) :=
  .cons (.single (.plain (Utf8.decode_ascii (by decide)) (by decide) (by decide) (by decide))) h

lemma head?_append_of_areMembers {w : Bytes} {ms : List (Char × Char)} (h : AreMembers w ms)
    (hne : ms ≠ []) (rest : Bytes) : (w ++ rest).head? = w.head? := by
  cases h with
  | nil => exact absurd rfl hne
  | cons he _ =>
    obtain ⟨b, t, rfl, -⟩ := he.exists_cons
    rfl

lemma IsTerm.ne_nil {e : Bytes} {t : UInt8 → Bool} (h : IsTerm e t) : e ≠ [] := by
  cases h <;> exact List.cons_ne_nil _ _

/-- **What stands at the front of a chunk**: a term, or a star for which it was not cut, or neither.
The count overflows only if there is so much to count. -/
lemma matchTerm_outcome {chunk s : Bytes} {failed : Bool} (hchunk : chunk ≠ [])
    (hs : failed = true ∨ s ≠ []) :
    (∃ e rest x, matchTerm chunk s failed = .ok (rest, x) ∧ chunk = e ++ rest ∧ e ≠ [] ∧
      (e.head? = some asterisk ∨ ∃ t, IsTerm e t)) ∨
    matchTerm chunk s failed = .error .badPattern ∨
    matchTerm chunk s failed = .error (.panic .overflow) ∧
      ∃ w ms, openBracket :: w <+: chunk ∧ AreMembers w ms ∧ 2 ^ 32 ≤ ms.length := by
  obtain ⟨b, chunk, rfl⟩ := List.exists_cons_of_ne_nil hchunk
  by_cases hopen : b = openBracket
  · subst hopen
    rw [matchTerm_class]
    rcases classLoop_cases (afterRune s failed).1 (Nat.lt_succ_self (afterCaret chunk).2.length)
      false 0 with ⟨e, hofPattern, he⟩ | ⟨rest, matched, hloop, -⟩
    · rw [← Nat.succ_eq_add_one, he, Except.error_bind]
      rcases hofPattern with rfl | rfl
      · exact .inr (.inl rfl)
      refine .inr (.inr ⟨rfl, ?_⟩)
      obtain ⟨w, ms, hms, hw, hle⟩ := le_length_of_overflow he
      rw [afterCaret] at hw
      split at hw
      · rename_i hcaret
        obtain ⟨tail, rfl⟩ := List.head?_eq_some_iff.mp hcaret
        refine ⟨caret :: w, _, ?_, areMembers_caret hms, by rw [List.length_cons]; omega⟩
        rwa [List.cons_prefix_cons, List.cons_prefix_cons, and_iff_right rfl, and_iff_right rfl]
      · refine ⟨w, ms, ?_, hms, by omega⟩
        rwa [List.cons_prefix_cons, and_iff_right rfl]
    · rw [← Nat.succ_eq_add_one, hloop, Except.ok_bind]
      obtain ⟨w, ms, hms, heq, hne⟩ := areMembers_of_classLoop hloop
      have hne := hne.resolve_left (Nat.lt_irrefl 0)
      rw [afterCaret] at heq
      split at heq
      · rename_i hcaret
        obtain ⟨tail, rfl⟩ := List.head?_eq_some_iff.mp hcaret
        rw [List.tail_cons] at heq
        subst heq
        exact .inl ⟨_, rest, _, rfl, by simp, List.cons_ne_nil _ _, .inr ⟨_, .negative hms hne⟩⟩
      · rename_i hcaret
        dsimp only at heq
        subst heq
        rw [head?_append_of_areMembers hms hne] at hcaret
        exact .inl ⟨_, rest, _, rfl, by simp, List.cons_ne_nil _ _,
          .inr ⟨_, .positive hms hne hcaret⟩⟩
  by_cases hany : b = questionMark
  · subst hany
    rw [matchTerm_any _ _ _ hs]
    exact .inl ⟨_, chunk, _, rfl, rfl, List.cons_ne_nil _ _, .inr ⟨_, .any⟩⟩
  by_cases hescape : b = backslash
  · subst hescape
    cases chunk with
    | nil => exact .inr (.inl (matchTerm_backslash s failed))
    | cons b chunk =>
      rw [matchTerm_escape _ _ _ _ hs]
      exact .inl ⟨_, chunk, _, rfl, rfl, List.cons_ne_nil _ _, .inr ⟨_, .escaped b⟩⟩
  · rw [matchTerm_literal _ _ _ hopen hany hescape hs]
    refine .inl ⟨[b], chunk, _, rfl, rfl, List.cons_ne_nil _ _, ?_⟩
    by_cases hstar : b = asterisk
    · exact .inl (by rw [hstar]; rfl)
    · exact .inr ⟨_, .literal hstar hany hopen hescape⟩

/-- Where the classes of a string have their members, they are not too many. -/
lemma Bounded.of_infix {v p : Bytes} (h : Bounded p) (hv : v <:+: p) : Bounded v :=
  fun w ms hw hms => h w ms (hw.trans hv) hms

section
variable {w : Bytes} {ms : List (Char × Char)} (hms : AreMembers w ms) (hne : ms ≠ [])
  (rest s : Bytes) (failed : Bool)
include hms hne

/-- A class. -/
lemma matchTerm_positive (hcaret : w.head? ≠ some caret)
    (hbounded : Bounded (openBracket :: (w ++ [closeBracket]))) :
    matchTerm (openBracket :: (w ++ [closeBracket]) ++ rest) s failed =
      .ok (rest, (afterRune s failed).2,
        failed || inRanges ms (afterRune s failed).1 == false) := by
  have hcount : ms.length < 2 ^ 32 := hbounded w ms ⟨[], [closeBracket], by simp⟩ hms
  have hafter : afterCaret (w ++ closeBracket :: rest) = (false, w ++ closeBracket :: rest) := by
    rw [afterCaret, if_neg (by rwa [head?_append_of_areMembers hms hne])]
  rw [show openBracket :: (w ++ [closeBracket]) ++ rest =
      openBracket :: (w ++ closeBracket :: rest) by simp, matchTerm_class, hafter,
    classLoop_of_areMembers _ hms (.inr hne) (by omega) _ (Nat.lt_succ_self _), Except.ok_bind]
  rfl

/-- A class that is negated. -/
lemma matchTerm_negative (hbounded : Bounded (openBracket :: caret :: (w ++ [closeBracket]))) :
    matchTerm (openBracket :: caret :: (w ++ [closeBracket]) ++ rest) s failed =
      .ok (rest, (afterRune s failed).2,
        failed || inRanges ms (afterRune s failed).1 == true) := by
  have hcount := hbounded (caret :: w) _ ⟨[], [closeBracket], by simp⟩ (areMembers_caret hms)
  have hafter : afterCaret (caret :: (w ++ closeBracket :: rest)) =
      (true, w ++ closeBracket :: rest) := if_pos rfl
  rw [List.length_cons] at hcount
  rw [show openBracket :: caret :: (w ++ [closeBracket]) ++ rest =
      openBracket :: caret :: (w ++ closeBracket :: rest) by simp, matchTerm_class, hafter,
    classLoop_of_areMembers _ hms (.inr hne) (by omega) _ (Nat.lt_succ_self _), Except.ok_bind]
  rfl

end

lemma decodeRune_ascii {b : UInt8} (hb : b < 0x80) (s : Bytes) :
    decodeRune (b :: s) = (Char.ofNat b.toNat, 1) :=
  decodeRune_append (Utf8.decode_ascii hb) s

/-- **A term is consumed** with the byte it is matched with. -/
lemma matchTerm_of_isTerm {e : Bytes} {t : UInt8 → Bool} (h : IsTerm e t) (hbounded : Bounded e)
    (rest : Bytes) {b : UInt8} (hb : b < 0x80) (s : Bytes) :
    matchTerm (e ++ rest) (b :: s) false = .ok (rest, s, !t b) := by
  have hs : false = true ∨ b :: s ≠ [] := .inr (List.cons_ne_nil b s)
  have hrune : afterRune (b :: s) false = (Char.ofNat b.toNat, s) := by
    rw [afterRune, if_neg Bool.false_ne_true, decodeRune_ascii hb]
    rfl
  cases h with
  | any =>
    rw [List.singleton_append, matchTerm_any _ _ _ hs, afterAny, if_neg Bool.false_ne_true,
      decodeRune_ascii hb]
    simp [bne]
  | escaped c =>
    rw [List.cons_append, List.singleton_append, matchTerm_escape _ _ _ _ hs, afterByte,
      if_neg Bool.false_ne_true]
    simp [bne]
  | literal hstar hany hopen hescape =>
    rw [List.singleton_append, matchTerm_literal _ _ _ hopen hany hescape hs, afterByte,
      if_neg Bool.false_ne_true]
    simp [bne]
  | positive hms hne hcaret =>
    rw [matchTerm_positive hms hne _ _ _ hcaret hbounded, hrune]
    simp [classAdmits, hb]
  | negative hms hne =>
    rw [matchTerm_negative hms hne _ _ _ hbounded, hrune]
    simp [classAdmits, hb]

/-- After the match has failed, a term is only gone through. -/
lemma matchTerm_of_failed {e : Bytes} {t : UInt8 → Bool} (h : IsTerm e t) (hbounded : Bounded e)
    (rest s : Bytes) : matchTerm (e ++ rest) s true = .ok (rest, s, true) := by
  have hs : true = true ∨ s ≠ [] := .inl rfl
  cases h with
  | any => exact matchTerm_any _ _ _ hs
  | escaped c => exact matchTerm_escape _ _ _ _ hs
  | literal hstar hany hopen hescape => exact matchTerm_literal _ _ _ hopen hany hescape hs
  | positive hms hne hcaret => exact matchTerm_positive hms hne _ _ _ hcaret hbounded
  | negative hms hne => exact matchTerm_negative hms hne _ _ _ hbounded

/-! ## Chunks -/

lemma matchLoop_nil (fuel : ℕ) (s : Bytes) (failed : Bool) :
    matchLoop (fuel + 1) [] s failed = .ok (if failed then ([], false) else (s, true)) := by
  rw [matchLoop, if_pos List.isEmpty_nil]
  split <;> rfl

/-- After the match has failed, the terms are only gone through. -/
lemma matchLoop_of_failed {w : Bytes} {ts : Glob.Chunk UInt8} (h : IsChunk w ts)
    (hbounded : Bounded w) {fuel : ℕ} (hfuel : w.length < fuel) (s : Bytes) :
    matchLoop fuel w s true = .ok ([], false) := by
  induction h generalizing fuel with
  | nil =>
    obtain ⟨fuel, rfl⟩ := Nat.exists_eq_add_one_of_ne_zero (Nat.ne_zero_of_lt hfuel)
    rw [matchLoop_nil, if_pos rfl]
  | @cons e w t ts ht hts ih =>
    obtain ⟨fuel, rfl⟩ := Nat.exists_eq_add_one_of_ne_zero (Nat.ne_zero_of_lt hfuel)
    have hpos := List.length_pos_iff.mpr ht.ne_nil
    rw [List.length_append] at hfuel
    rw [matchLoop_of_ne_nil (by simp [ht.ne_nil]), Bool.true_or,
      matchTerm_of_failed ht (hbounded.of_infix (List.prefix_append e w).isInfix), Except.ok_bind]
    exact ih (hbounded.of_infix (List.suffix_append e w).isInfix) (by omega)

/-- What the loop over the terms returns, in the words of the library. -/
def stripped : Option Bytes → Bytes × Bool
  | some rest => (rest, true)
  | none => ([], false)

/-- **The loop over the terms** of a chunk consumes a byte for each. -/
lemma matchLoop_of_isChunk {w : Bytes} {ts : Glob.Chunk UInt8} (h : IsChunk w ts)
    (hbounded : Bounded w) {fuel : ℕ} (hfuel : w.length < fuel) {s : Bytes}
    (hs : ∀ b ∈ s, b < 0x80) :
    matchLoop fuel w s false = .ok (stripped (Glob.strip ts s)) := by
  induction h generalizing fuel s with
  | nil =>
    obtain ⟨fuel, rfl⟩ := Nat.exists_eq_add_one_of_ne_zero (Nat.ne_zero_of_lt hfuel)
    rw [matchLoop_nil, if_neg nofun, Glob.strip, stripped]
  | @cons e w t ts ht hts ih =>
    obtain ⟨fuel, rfl⟩ := Nat.exists_eq_add_one_of_ne_zero (Nat.ne_zero_of_lt hfuel)
    have hpos := List.length_pos_iff.mpr ht.ne_nil
    have he := hbounded.of_infix (List.prefix_append e w).isInfix
    have hw := hbounded.of_infix (List.suffix_append e w).isInfix
    rw [List.length_append] at hfuel
    rw [matchLoop_of_ne_nil (by simp [ht.ne_nil])]
    cases s with
    | nil =>
      rw [List.isEmpty_nil, Bool.or_true, matchTerm_of_failed ht he, Except.ok_bind, Glob.strip]
      exact matchLoop_of_failed hts hw (by omega) []
    | cons b s =>
      obtain ⟨hb, hs⟩ := List.forall_mem_cons.mp hs
      rw [List.isEmpty_cons, Bool.or_false, matchTerm_of_isTerm ht he _ hb, Except.ok_bind,
        Glob.strip]
      cases t b with
      | true => exact ih hw (by omega) hs
      | false => exact matchLoop_of_failed hts hw (by omega) s

end RustDds
