import RustDds.Security.Glob

/-!
# The syntax of a pattern is its own matter

Each loop of the matcher goes through the whole of its chunk whether the match has failed or not,
and before it gives up `globMatch` goes through all chunks that are left.  So what stops an
evaluation early is in the pattern (`GlobStop.OfPattern`): all evaluations of one pattern stop, and
for the same reason, or none does.  The lemmas that end in `_cases` say so of each function in turn,
and `globMatch_stop` of the whole.
-/

namespace RustDds

/-- What can be wrong with a pattern: its syntax, or that a class has too many members to be
counted. -/
def GlobStop.OfPattern (e : GlobStop) : Prop := e = .badPattern ∨ e = .panic .overflow

/-! ## Accesses -/

@[simp] lemma byteAt_cons_zero (b : UInt8) (s : Bytes) : byteAt (b :: s) 0 = .ok b := rfl

@[simp] lemma sliceFrom_cons_one (b : UInt8) (s : Bytes) : sliceFrom (b :: s) 1 = .ok s :=
  if_pos (Nat.le_add_left 1 _)

@[simp] lemma sliceFrom_zero (s : Bytes) : sliceFrom s 0 = .ok s := if_pos (Nat.zero_le _)

lemma sliceFrom_of_le {s : Bytes} {n : ℕ} (h : n ≤ s.length) : sliceFrom s n = .ok (s.drop n) :=
  if_pos h

lemma startsWith_eq (s : Bytes) (b : UInt8) : startsWith s b = .ok (s.head? == some b) := by
  cases s with
  | nil => rfl
  | cons a s =>
    rw [startsWith, byteAt_cons_zero, List.head?_cons]
    simp [Except.map]

lemma countOne_of_lt {n : ℕ} (h : n + 1 < 2 ^ 32) : countOne n = .ok (n + 1) := by
  rw [countOne, checkedAdd_of_lt h]
  rfl

lemma countOne_of_le {n : ℕ} (h : 2 ^ 32 ≤ n + 1) : countOne n = .error (.panic .overflow) := by
  rw [countOne, checkedAdd_of_le h]
  rfl

/-! ## Characters -/

lemma decodeRune_snd_le (s : Bytes) : (decodeRune s).2 ≤ s.length := by
  cases s with
  | nil => exact Nat.le_refl 0
  | cons b s =>
    rw [decodeRune]
    split
    · exact Nat.le_add_left 1 _
    · split
      · omega
      · exact Nat.le_add_left 1 _

lemma decodeRune_snd_pos {s : Bytes} (h : s ≠ []) : 0 < (decodeRune s).2 := by
  cases s with
  | nil => exact absurd rfl h
  | cons b s =>
    rw [decodeRune]
    split
    · exact Nat.one_pos
    · split
      · omega
      · exact Nat.one_pos

/-- A character is bad, or takes a byte at least and leaves one. -/
lemma getRune_cases {chunk : Bytes} (h : chunk ≠ []) : getRune chunk = .error .badPattern ∨
    ∃ r rest, getRune chunk = .ok (r, rest) ∧ rest ≠ [] ∧ rest.length < chunk.length := by
  have hle := decodeRune_snd_le chunk
  have hpos := decodeRune_snd_pos h
  rw [getRune]
  rcases hrune : decodeRune chunk with ⟨r, n⟩
  rw [hrune] at hle hpos
  dsimp only at hle hpos ⊢
  split
  · exact .inl rfl
  rw [sliceFrom_of_le hle, Except.ok_bind]
  split
  · exact .inl rfl
  · rename_i hrest
    refine .inr ⟨_, _, rfl, by simpa using hrest, ?_⟩
    rw [List.length_drop]
    omega

lemma getEsc_cons (b : UInt8) (s : Bytes) : getEsc (b :: s) =
    if b = hyphen ∨ b = closeBracket then .error .badPattern
    else if b = backslash then if s = [] then .error .badPattern else getRune s
    else getRune (b :: s) := by
  rw [getEsc, if_neg (by simp), byteAt_cons_zero, Except.ok_bind, sliceFrom_cons_one,
    Except.ok_bind]
  simp only [List.isEmpty_iff]

/-- The same of one end of a range. -/
lemma getEsc_cases (chunk : Bytes) : getEsc chunk = .error .badPattern ∨
    ∃ r rest, getEsc chunk = .ok (r, rest) ∧ rest ≠ [] ∧ rest.length < chunk.length := by
  cases chunk with
  | nil => exact .inl rfl
  | cons b s =>
    rw [getEsc_cons]
    split
    · exact .inl rfl
    split
    · split
      · exact .inl rfl
      · rename_i hs
        refine (getRune_cases hs).imp_right ?_
        rintro ⟨r, rest, hr, hrest, hlt⟩
        exact ⟨r, rest, hr, hrest, hlt.trans (Nat.lt_succ_self _)⟩
    · exact getRune_cases (List.cons_ne_nil b s)

/-! ## Character classes -/

/-- One turn of the loop over the ranges of a class. -/
lemma classLoop_succ (r : Char) (fuel : ℕ) (chunk : Bytes) (rangeMatched : Bool) (nrange : ℕ) :
    classLoop r (fuel + 1) chunk rangeMatched nrange =
      if chunk.head? = some closeBracket ∧ 0 < nrange then .ok (chunk.tail, rangeMatched)
      else getEsc chunk >>= fun (lo, rest) =>
        (if rest.head? = some hyphen then getEsc rest.tail
          else .ok (lo, rest)) >>= fun (hi, rest) =>
            countOne nrange >>= fun nrange =>
              classLoop r fuel rest (rangeMatched || (decide (lo ≤ r) && decide (r ≤ hi)))
                nrange := by
  rw [classLoop, startsWith_eq, Except.ok_bind]
  by_cases hclose : chunk.head? = some closeBracket ∧ 0 < nrange
  · obtain ⟨rest, rfl⟩ := List.head?_eq_some_iff.mp hclose.1
    rw [if_pos hclose, if_pos (by simp [hclose.2]), sliceFrom_cons_one]
    rfl
  · rw [if_neg hclose, if_neg (by simpa using hclose)]
    refine congrArg _ (funext fun x => ?_)
    dsimp only
    rw [startsWith_eq, Except.ok_bind]
    by_cases hrange : x.2.head? = some hyphen
    · obtain ⟨rest, hrest⟩ := List.head?_eq_some_iff.mp hrange
      rw [hrest, sliceFrom_cons_one]
      rfl
    · rw [if_neg hrange, if_neg (by simpa using hrange)]

/-- **The loop over the ranges** stops for what is in the chunk, or ends behind the class. -/
lemma classLoop_cases (r : Char) {fuel : ℕ} {chunk : Bytes} (hfuel : chunk.length < fuel)
    (rangeMatched : Bool) (nrange : ℕ) :
    (∃ e : GlobStop, e.OfPattern ∧ classLoop r fuel chunk rangeMatched nrange = .error e) ∨
    ∃ rest matched, classLoop r fuel chunk rangeMatched nrange = .ok (rest, matched) ∧
      rest.length < chunk.length := by
  induction fuel generalizing chunk rangeMatched nrange with
  | zero => omega
  | succ fuel ih =>
    rw [classLoop_succ]
    split
    · rename_i hclose
      obtain ⟨rest, rfl⟩ := List.head?_eq_some_iff.mp hclose.1
      exact .inr ⟨rest, rangeMatched, rfl, Nat.lt_succ_self _⟩
    rcases getEsc_cases chunk with hbad | ⟨lo, rest, hlo, hrest, hlt⟩
    · rw [hbad]
      exact .inl ⟨_, .inl rfl, rfl⟩
    rw [hlo, Except.ok_bind]
    dsimp only
    -- the other end of the range, if there is one
    have hhi : (if rest.head? = some hyphen then getEsc rest.tail else .ok (lo, rest)) =
        .error .badPattern ∨ ∃ hi rest', (if rest.head? = some hyphen then getEsc rest.tail
          else .ok (lo, rest)) = .ok (hi, rest') ∧ rest'.length ≤ rest.length := by
      split
      · rcases getEsc_cases rest.tail with hbad | ⟨hi, rest', hhi, -, hlt'⟩
        · exact .inl hbad
        · rw [List.length_tail] at hlt'
          exact .inr ⟨hi, rest', hhi, by omega⟩
      · exact .inr ⟨lo, rest, rfl, Nat.le_refl _⟩
    rcases hhi with hbad | ⟨hi, rest', hhi, hle⟩
    · rw [hbad]
      exact .inl ⟨_, .inl rfl, rfl⟩
    rw [hhi, Except.ok_bind]
    dsimp only
    rcases Nat.lt_or_ge (nrange + 1) (2 ^ 32) with hcount | hcount
    swap
    · rw [countOne_of_le hcount]
      exact .inl ⟨_, .inr rfl, rfl⟩
    · rw [countOne_of_lt hcount, Except.ok_bind]
      refine (ih (by omega) _ (nrange + 1)).imp_right ?_
      rintro ⟨rest'', matched, h, hlt''⟩
      exact ⟨rest'', matched, h, by omega⟩

/-- Which character it is about does not matter to where it stops or ends. -/
lemma classLoop_congr (r r' : Char) (fuel : ℕ) (chunk : Bytes) (rangeMatched rangeMatched' : Bool)
    (nrange : ℕ) :
    (∃ e, classLoop r fuel chunk rangeMatched nrange = .error e ∧
      classLoop r' fuel chunk rangeMatched' nrange = .error e) ∨
    ∃ rest m m', classLoop r fuel chunk rangeMatched nrange = .ok (rest, m) ∧
      classLoop r' fuel chunk rangeMatched' nrange = .ok (rest, m') := by
  induction fuel generalizing chunk rangeMatched rangeMatched' nrange with
  | zero => exact .inl ⟨_, rfl, rfl⟩
  | succ fuel ih =>
    rw [classLoop_succ, classLoop_succ]
    split
    · exact .inr ⟨_, _, _, rfl, rfl⟩
    cases getEsc chunk with
    | error e => exact .inl ⟨e, rfl, rfl⟩
    | ok lo =>
      rw [Except.ok_bind, Except.ok_bind]
      dsimp only
      cases (if lo.2.head? = some hyphen then getEsc lo.2.tail else .ok (lo.1, lo.2)) with
      | error e => exact .inl ⟨e, rfl, rfl⟩
      | ok hi =>
        rw [Except.ok_bind, Except.ok_bind]
        cases countOne nrange with
        | error e => exact .inl ⟨e, rfl, rfl⟩
        | ok nrange => exact ih _ _ _ nrange

/-! ## Chunks -/

/-- The `^` at the front of a class, and what follows it. -/
def afterCaret (chunk : Bytes) : Bool × Bytes :=
  if chunk.head? = some caret then (true, chunk.tail) else (false, chunk)

/-- The character that a class is about, and what follows it. -/
def afterRune (s : Bytes) (failed : Bool) : Char × Bytes :=
  if failed then ('\x00', s) else ((decodeRune s).1, s.drop (decodeRune s).2)

/-- What a `?` leaves, and whether the match has failed. -/
def afterAny (s : Bytes) (failed : Bool) : Bytes × Bool :=
  if failed then (s, true) else (s.drop (decodeRune s).2, s.head? == some slash)

/-- What a byte that stands for itself leaves, and whether the match has failed. -/
def afterByte (b : UInt8) (s : Bytes) (failed : Bool) : Bytes × Bool :=
  if failed then (s, true) else (s.tail, s.head? != some b)

lemma length_afterCaret_le (chunk : Bytes) : (afterCaret chunk).2.length ≤ chunk.length := by
  rw [afterCaret]
  split
  · rw [List.length_tail]
    exact Nat.sub_le _ _
  · exact Nat.le_refl _

section
variable (chunk s : Bytes) (failed : Bool)

/-- A class. -/
lemma matchTerm_class : matchTerm (openBracket :: chunk) s failed =
    classLoop (afterRune s failed).1 ((afterCaret chunk).2.length + 1) (afterCaret chunk).2
      false 0 >>= fun x =>
        .ok (x.1, (afterRune s failed).2, failed || x.2 == (afterCaret chunk).1) := by
  have hrune : sliceFrom s (if failed then ('\x00', 0) else decodeRune s).2 =
      .ok (afterRune s failed).2 := by
    rw [afterRune]
    split
    · exact sliceFrom_zero s
    · exact sliceFrom_of_le (decodeRune_snd_le s)
  have hchar : (if failed then ('\x00', 0) else decodeRune s).1 = (afterRune s failed).1 := by
    rw [afterRune]
    split <;> rfl
  rw [matchTerm, byteAt_cons_zero, Except.ok_bind, if_pos rfl, matchClass]
  dsimp only
  rw [hrune, hchar, Except.ok_bind, sliceFrom_cons_one, Except.ok_bind, startsWith_eq,
    Except.ok_bind, afterCaret]
  by_cases hcaret : chunk.head? = some caret
  · obtain ⟨rest, rfl⟩ := List.head?_eq_some_iff.mp hcaret
    rw [if_pos hcaret, if_pos (by simp), sliceFrom_cons_one, Except.ok_bind]
    simp
  · rw [if_neg hcaret, if_neg (by simpa using hcaret), Except.ok_bind,
      beq_eq_false_iff_ne.mpr hcaret]

/-- A `?`. -/
lemma matchTerm_any (h : failed = true ∨ s ≠ []) : matchTerm (questionMark :: chunk) s failed =
    .ok (chunk, afterAny s failed) := by
  rw [matchTerm, byteAt_cons_zero, Except.ok_bind, if_neg (by decide), if_pos rfl, matchAny,
    sliceFrom_cons_one, afterAny]
  cases failed with
  | true => rfl
  | false =>
    have hslice := sliceFrom_of_le (decodeRune_snd_le s)
    obtain ⟨a, s, rfl⟩ := List.exists_cons_of_ne_nil (h.resolve_left nofun)
    rw [if_neg nofun, if_neg nofun, byteAt_cons_zero, Except.ok_bind, hslice, Except.ok_bind]
    rfl

lemma matchLiteral_cons (b : UInt8) (h : failed = true ∨ s ≠ []) :
    matchLiteral (b :: chunk) s failed = .ok (chunk, afterByte b s failed) := by
  rw [matchLiteral, byteAt_cons_zero, Except.ok_bind, sliceFrom_cons_one, afterByte]
  cases failed with
  | true => rfl
  | false =>
    obtain ⟨a, s, rfl⟩ := List.exists_cons_of_ne_nil (h.resolve_left nofun)
    rw [if_neg nofun, if_neg nofun, byteAt_cons_zero, Except.ok_bind, sliceFrom_cons_one,
      Except.ok_bind, bne_comm]
    rfl

/-- A byte behind a backslash. -/
lemma matchTerm_escape (b : UInt8) (h : failed = true ∨ s ≠ []) :
    matchTerm (backslash :: b :: chunk) s failed = .ok (chunk, afterByte b s failed) := by
  rw [matchTerm, byteAt_cons_zero, Except.ok_bind, if_neg (by decide), if_neg (by decide),
    if_pos rfl, sliceFrom_cons_one, Except.ok_bind, if_neg nofun, matchLiteral_cons _ _ _ _ h]

lemma matchTerm_backslash : matchTerm [backslash] s failed = .error .badPattern := rfl

/-- A byte that stands for itself. -/
lemma matchTerm_literal {b : UInt8} (hopen : b ≠ openBracket) (hany : b ≠ questionMark)
    (hescape : b ≠ backslash) (h : failed = true ∨ s ≠ []) :
    matchTerm (b :: chunk) s failed = .ok (chunk, afterByte b s failed) := by
  rw [matchTerm, byteAt_cons_zero, Except.ok_bind, if_neg hopen, if_neg hany, if_neg hescape,
    matchLiteral_cons _ _ _ _ h]

end

/-- What a turn of the loop starts with. -/
lemma failed_or_ne_nil (s : Bytes) (failed : Bool) : (failed || s.isEmpty) = true ∨ s ≠ [] := by
  cases s with
  | nil => exact .inl (by simp)
  | cons b s => exact .inr (List.cons_ne_nil b s)

/-- **One term**: it stops for what is in the chunk, whatever is matched, or is consumed. -/
lemma matchTerm_cases {chunk : Bytes} (hchunk : chunk ≠ []) :
    (∃ e : GlobStop, e.OfPattern ∧
      ∀ s failed, failed = true ∨ s ≠ [] → matchTerm chunk s failed = .error e) ∨
    ∃ rest, rest.length < chunk.length ∧
      ∀ s failed, failed = true ∨ s ≠ [] → ∃ x, matchTerm chunk s failed = .ok (rest, x) := by
  obtain ⟨b, chunk, rfl⟩ := List.exists_cons_of_ne_nil hchunk
  by_cases hopen : b = openBracket
  · subst hopen
    have hlength := length_afterCaret_le chunk
    rcases classLoop_cases '\x00' (Nat.lt_succ_self (afterCaret chunk).2.length) false 0 with
      ⟨e, hofPattern, he⟩ | ⟨rest, matched, hrest, hlt⟩
    · refine .inl ⟨e, hofPattern, fun s failed _ => ?_⟩
      rw [matchTerm_class]
      rcases classLoop_congr (afterRune s failed).1 '\x00' ((afterCaret chunk).2.length + 1)
        (afterCaret chunk).2 false false 0 with ⟨e', he', h⟩ | ⟨rest, m, m', hm, h⟩
      · rw [he', ← h, he]
        rfl
      · rw [Nat.succ_eq_add_one, h] at he
        cases he
    · refine .inr ⟨rest, by rw [List.length_cons]; omega, fun s failed _ => ?_⟩
      rw [matchTerm_class]
      rcases classLoop_congr (afterRune s failed).1 '\x00' ((afterCaret chunk).2.length + 1)
        (afterCaret chunk).2 false false 0 with ⟨e', he', h⟩ | ⟨rest', m, m', hm, h⟩
      · rw [Nat.succ_eq_add_one, h] at hrest
        cases hrest
      · rw [Nat.succ_eq_add_one, h] at hrest
        cases hrest
        exact ⟨_, by rw [hm, Except.ok_bind]⟩
  by_cases hany : b = questionMark
  · subst hany
    exact .inr ⟨chunk, Nat.lt_succ_self _, fun s failed h => ⟨_, matchTerm_any chunk s failed h⟩⟩
  by_cases hescape : b = backslash
  · subst hescape
    cases chunk with
    | nil => exact .inl ⟨_, .inl rfl, fun s failed _ => matchTerm_backslash s failed⟩
    | cons b chunk =>
      refine .inr ⟨chunk, ?_, fun s failed h => ⟨_, matchTerm_escape chunk s failed b h⟩⟩
      rw [List.length_cons, List.length_cons]
      omega
  · exact .inr ⟨chunk, Nat.lt_succ_self _,
      fun s failed h => ⟨_, matchTerm_literal chunk s failed hopen hany hescape h⟩⟩

lemma matchLoop_of_ne_nil {chunk : Bytes} (hchunk : chunk ≠ []) (fuel : ℕ) (s : Bytes)
    (failed : Bool) : matchLoop (fuel + 1) chunk s failed =
      matchTerm chunk s (failed || s.isEmpty) >>= fun x => matchLoop fuel x.1 x.2.1 x.2.2 := by
  rw [matchLoop, if_neg (by simpa using hchunk)]

/-- **The loop over the terms** stops for what is in the chunk, whatever is matched, or ends. -/
lemma matchLoop_cases {fuel : ℕ} {chunk : Bytes} (hfuel : chunk.length < fuel) :
    (∃ e : GlobStop, e.OfPattern ∧
      ∀ s failed, matchLoop fuel chunk s failed = .error e) ∨
    ∀ s failed, ∃ x, matchLoop fuel chunk s failed = .ok x := by
  induction fuel generalizing chunk with
  | zero => omega
  | succ fuel ih =>
    by_cases hchunk : chunk = []
    · subst hchunk
      refine .inr fun s failed => ?_
      rw [matchLoop, if_pos List.isEmpty_nil]
      split <;> exact ⟨_, rfl⟩
    have hloop := matchLoop_of_ne_nil hchunk fuel
    rcases matchTerm_cases hchunk with ⟨e, he, hterm⟩ | ⟨rest, hlt, hterm⟩
    · refine .inl ⟨e, he, fun s failed => ?_⟩
      rw [hloop, hterm _ _ (failed_or_ne_nil s failed), Except.error_bind]
    · have hfuel' : rest.length < fuel := by omega
      rcases ih hfuel' with ⟨e, he, hrest⟩ | hrest
      · refine .inl ⟨e, he, fun s failed => ?_⟩
        obtain ⟨x, hx⟩ := hterm _ _ (failed_or_ne_nil s failed)
        rw [hloop, hx, Except.ok_bind, hrest]
      · refine .inr fun s failed => ?_
        obtain ⟨x, hx⟩ := hterm _ _ (failed_or_ne_nil s failed)
        rw [hloop, hx, Except.ok_bind]
        exact hrest _ _

/-- Whether the syntax of a chunk is in order, as the code says it. -/
lemma matchChunk_cases (chunk : Bytes) :
    (∃ e : GlobStop, e.OfPattern ∧ ∀ s, matchChunk chunk s = .error e) ∨
    ∀ s, ∃ x, matchChunk chunk s = .ok x := by
  rcases matchLoop_cases (Nat.lt_succ_self chunk.length) with ⟨e, he, h⟩ | h
  · exact .inl ⟨e, he, fun s => h s false⟩
  · exact .inr fun s => h s false

/-! ## Cutting a pattern into chunks -/

/-- The length of the first chunk of a pattern that does not start with a `*`.  In a class, a `*`
does not end it. -/
def chunkLength : Bool → Bytes → ℕ
  | _, [] => 0
  | inrange, b :: pattern =>
    if b = backslash then
      match pattern with
      | [] => 1
      | _ :: pattern => chunkLength inrange pattern + 2
    else if b = openBracket then chunkLength true pattern + 1
    else if b = closeBracket then chunkLength false pattern + 1
    else if b = asterisk ∧ inrange = false then 0
    else chunkLength inrange pattern + 1

lemma chunkLength_cons (inrange : Bool) (b : UInt8) (pattern : Bytes) :
    chunkLength inrange (b :: pattern) =
      if b = backslash then if pattern = [] then 1 else chunkLength inrange pattern.tail + 2
      else if b = openBracket then chunkLength true pattern + 1
      else if b = closeBracket then chunkLength false pattern + 1
      else if b = asterisk ∧ inrange = false then 0
      else chunkLength inrange pattern + 1 := by
  cases pattern with
  | nil => simp only [chunkLength, if_true]
  | cons c pattern => simp only [chunkLength, reduceCtorEq, if_false, List.tail_cons]

lemma scanStars_eq {fuel : ℕ} {pattern : Bytes} (hfuel : pattern.length < fuel) (star : Bool) :
    scanStars fuel pattern star =
      .ok (star || pattern.head? == some asterisk, pattern.dropWhile (· == asterisk)) := by
  induction fuel generalizing pattern star with
  | zero => omega
  | succ fuel ih =>
    rw [scanStars, startsWith_eq, Except.ok_bind]
    cases pattern with
    | nil => simp
    | cons b pattern =>
      by_cases hb : b = asterisk
      · subst hb
        rw [if_pos (by simp), sliceFrom_cons_one, Except.ok_bind, ih (by simpa using hfuel)]
        simp
      · simp [hb]

lemma chunkLength_le (inrange : Bool) (pattern : Bytes) :
    chunkLength inrange pattern ≤ pattern.length := by
  fun_induction chunkLength inrange pattern <;> simp only [List.length_cons, List.length_nil] <;>
    omega

lemma byteAt_of_drop {s rest : Bytes} {b : UInt8} {i : ℕ} (h : s.drop i = b :: rest) :
    byteAt s i = .ok b := by
  have hi : s[i]? = some b := by
    rw [← Nat.add_zero i, ← List.getElem?_drop, h]
    rfl
  rw [byteAt, hi]

lemma drop_succ_of_drop {s rest : Bytes} {b : UInt8} {i : ℕ} (h : s.drop i = b :: rest) :
    s.drop (i + 1) = rest := by
  rw [← List.drop_drop, h, List.drop_one, List.tail_cons]

lemma scanEnd_eq {pattern : Bytes} {fuel i : ℕ} (hi : i ≤ pattern.length)
    (hfuel : pattern.length < fuel + i) (inrange : Bool) :
    scanEnd pattern fuel i inrange = .ok (i + chunkLength inrange (pattern.drop i)) := by
  induction fuel generalizing i inrange with
  | zero => omega
  | succ fuel ih =>
    rw [scanEnd]
    rcases hi.lt_or_eq with hlt | rfl
    swap
    · rw [if_neg (Nat.lt_irrefl _), List.drop_length]
      rfl
    rw [if_pos hlt]
    obtain ⟨b, rest, hdrop⟩ := List.exists_cons_of_ne_nil
      (List.length_pos_iff.mp (by rw [List.length_drop]; omega : 0 < (pattern.drop i).length))
    have hrest := drop_succ_of_drop hdrop
    have hnext : ∀ inrange, scanEnd pattern fuel (i + 1) inrange =
        .ok (i + (chunkLength inrange rest + 1)) := by
      intro inrange
      rw [ih hlt (by omega), hrest]
      exact congrArg _ (by omega)
    rw [byteAt_of_drop hdrop, Except.ok_bind, hdrop, chunkLength_cons]
    split
    · -- a backslash takes the byte behind it along, if there is one
      cases rest with
      | nil =>
        have hlast : ¬ i + 1 < pattern.length := by
          have := congrArg List.length hrest
          rw [List.length_drop, List.length_nil] at this
          omega
        rw [if_neg hlast, hnext, if_pos rfl]
        rfl
      | cons c rest =>
        have hmore : i + 1 < pattern.length := by
          have := congrArg List.length hrest
          rw [List.length_drop, List.length_cons] at this
          omega
        rw [if_pos hmore, ih hmore (by omega), drop_succ_of_drop hrest, if_neg nofun,
          List.tail_cons]
        exact congrArg _ (by omega)
    split
    · exact hnext true
    split
    · exact hnext false
    split
    · rfl
    · exact hnext inrange

/-- The stars at the front of a pattern, its first chunk, and what is behind it. -/
lemma scanChunk_eq (pattern : Bytes) : scanChunk pattern =
    .ok (pattern.head? == some asterisk,
      (pattern.dropWhile (· == asterisk)).take
        (chunkLength false (pattern.dropWhile (· == asterisk))),
      (pattern.dropWhile (· == asterisk)).drop
        (chunkLength false (pattern.dropWhile (· == asterisk)))) := by
  have hle := chunkLength_le false (pattern.dropWhile (· == asterisk))
  have hlength := (List.dropWhile_suffix (l := pattern) (· == asterisk)).length_le
  rw [scanChunk, scanStars_eq (Nat.lt_succ_self _), Except.ok_bind]
  dsimp only
  rw [scanEnd_eq (Nat.zero_le _) (by omega), Except.ok_bind, Nat.zero_add, List.drop_zero, sliceTo,
    if_pos hle, Except.ok_bind, sliceFrom_of_le hle, Except.ok_bind, Bool.false_or]

/-- A chunk has a byte at least. -/
lemma chunkLength_pos {b : UInt8} (pattern : Bytes) (hb : b ≠ asterisk) :
    0 < chunkLength false (b :: pattern) := by
  rw [chunkLength_cons]
  split
  · split <;> omega
  · split
    · omega
    split
    · omega
    rw [if_neg (fun h => hb h.1)]
    exact Nat.succ_pos _

/-- **Every cut makes the pattern shorter**, and only at its end a star has no chunk. -/
lemma scanChunk_cases {pattern : Bytes} (hpattern : pattern ≠ []) :
    ∃ star chunk rest, scanChunk pattern = .ok (star, chunk, rest) ∧
      rest.length < pattern.length ∧ (chunk = [] → rest = []) := by
  refine ⟨_, _, _, scanChunk_eq pattern, ?_, ?_⟩
  · have hlength := (List.dropWhile_suffix (l := pattern) (· == asterisk)).length_le
    rw [List.length_drop]
    obtain ⟨b, pattern, rfl⟩ := List.exists_cons_of_ne_nil hpattern
    by_cases hb : b = asterisk
    · rw [List.dropWhile_cons_of_pos (by simpa using hb)]
      have := (List.dropWhile_suffix (l := pattern) (· == asterisk)).length_le
      rw [List.length_cons]
      omega
    · rw [List.dropWhile_cons_of_neg (by simpa using hb)]
      have := chunkLength_pos pattern hb
      rw [List.length_cons]
      omega
  · intro hchunk
    cases hq : pattern.dropWhile (· == asterisk) with
    | nil => rfl
    | cons b q =>
      have hb : b ≠ asterisk := by
        have := List.head?_dropWhile_not (· == asterisk) pattern
        simpa [hq] using this
      have hpos := chunkLength_pos q hb
      rw [hq, List.take_eq_nil_iff] at hchunk
      rcases hchunk with hchunk | hchunk
      · omega
      · cases hchunk

/-! ## The whole pattern -/

/-- If the chunk is in order, the search for a place of it ends. -/
lemma skipLoop_cases {chunk : Bytes} (h : ∀ s, ∃ x, matchChunk chunk s = .ok x)
    (pattern : Bytes) {name : Bytes} {fuel i : ℕ} (hi : i ≤ name.length)
    (hfuel : name.length < fuel + i) : ∃ x, skipLoop chunk pattern name fuel i = .ok x := by
  induction fuel generalizing i with
  | zero => omega
  | succ fuel ih =>
    rw [skipLoop]
    split
    swap
    · exact ⟨_, rfl⟩
    rename_i hlt
    obtain ⟨b, rest, hdrop⟩ := List.exists_cons_of_ne_nil
      (List.length_pos_iff.mp (by rw [List.length_drop]; omega : 0 < (name.drop i).length))
    obtain ⟨x, hx⟩ := h (name.drop (i + 1))
    rw [byteAt_of_drop hdrop, Except.ok_bind]
    split
    · exact ⟨_, rfl⟩
    rw [sliceFrom_of_le hlt, Except.ok_bind, hx, Except.ok_bind]
    dsimp only
    split
    · exact ⟨_, rfl⟩
    · exact ih hlt (by omega)

/-- How the loop over the chunks goes on after the search. -/
def afterSkip (fuel : ℕ) (pattern : Bytes) : Option Bytes → Except GlobStop Bool
  | some t => globLoop fuel pattern t
  | none => checkRest (pattern.length + 1) pattern >>= fun _ => .ok false

section
variable {pattern chunk rest : Bytes} {star : Bool}
  (hscan : scanChunk pattern = .ok (star, chunk, rest)) (hpattern : pattern ≠ []) (fuel : ℕ)
include hscan hpattern

lemma checkRest_of_scan : checkRest (fuel + 1) pattern =
    matchChunk chunk [] >>= fun _ => checkRest fuel rest := by
  rw [checkRest, if_neg (by simpa using hpattern), hscan]
  rfl

lemma globLoop_of_scan (name : Bytes) : globLoop (fuel + 1) pattern name =
    if star = true ∧ chunk = [] then .ok (!name.contains slash)
    else matchChunk chunk name >>= fun x =>
      if x.2 = true ∧ (x.1 = [] ∨ rest ≠ []) then globLoop fuel rest x.1
      else (if star then skipLoop chunk rest name (name.length + 1) 0 else .ok none) >>=
        afterSkip fuel rest := by
  rw [globLoop, if_neg (by simpa using hpattern), hscan, Except.ok_bind]
  simp only [List.isEmpty_iff, ne_eq]
  refine if_congr Iff.rfl rfl (congrArg _ (funext fun x => ?_))
  refine if_congr Iff.rfl rfl (congrArg _ (funext fun skipped => ?_))
  cases skipped <;> rfl

end

/-- **A pattern is in order or not**, whatever name it is matched with. -/
lemma globLoop_cases (pattern : Bytes) :
    (∃ e : GlobStop, e.OfPattern ∧
      ∀ fuel, pattern.length < fuel → checkRest fuel pattern = .error e ∧
        ∀ name, globLoop fuel pattern name = .error e) ∨
    ∀ fuel, pattern.length < fuel → checkRest fuel pattern = .ok () ∧
      ∀ name, ∃ b, globLoop fuel pattern name = .ok b := by
  induction hn : pattern.length using Nat.strongRecOn generalizing pattern with
  | _ n ih =>
    subst hn
    by_cases hpattern : pattern = []
    · subst hpattern
      refine .inr fun fuel hfuel => ?_
      obtain ⟨fuel, rfl⟩ := Nat.exists_eq_add_one_of_ne_zero (Nat.ne_zero_of_lt hfuel)
      exact ⟨by rw [checkRest, if_pos List.isEmpty_nil],
        fun name => ⟨_, by rw [globLoop, if_pos List.isEmpty_nil]⟩⟩
    obtain ⟨star, chunk, rest, hscan, hlt, hrest⟩ := scanChunk_cases hpattern
    have hcheck := checkRest_of_scan hscan hpattern
    have hglob := globLoop_of_scan hscan hpattern
    -- what is behind a star that has no chunk is nothing
    by_cases hstar : star = true ∧ chunk = []
    · obtain ⟨rfl, rfl⟩ := hstar
      obtain rfl := hrest rfl
      refine .inr fun fuel hfuel => ?_
      obtain ⟨fuel, rfl⟩ := Nat.exists_eq_add_one_of_ne_zero (Nat.ne_zero_of_lt hfuel)
      obtain ⟨fuel, rfl⟩ := Nat.exists_eq_add_one_of_ne_zero (show fuel ≠ 0 by omega)
      refine ⟨?_, fun name => ⟨_, by rw [hglob, if_pos ⟨rfl, rfl⟩]⟩⟩
      rw [hcheck, checkRest, if_pos List.isEmpty_nil]
      rfl
    rcases matchChunk_cases chunk with ⟨e, he, hchunk⟩ | hchunk
    · refine .inl ⟨e, he, fun fuel hfuel => ?_⟩
      obtain ⟨fuel, rfl⟩ := Nat.exists_eq_add_one_of_ne_zero (Nat.ne_zero_of_lt hfuel)
      refine ⟨?_, fun name => ?_⟩
      · rw [hcheck, hchunk, Except.error_bind]
      · rw [hglob, if_neg hstar, hchunk, Except.error_bind]
    -- every way on goes through the rest of the pattern
    have hskip : ∀ name, ∃ x, (if star then skipLoop chunk rest name (name.length + 1) 0
        else .ok none) = .ok x := by
      intro name
      split
      · exact skipLoop_cases hchunk rest (Nat.zero_le _) (Nat.lt_succ_self _)
      · exact ⟨_, rfl⟩
    have hturn : ∀ {P : Except GlobStop Bool → Prop} {r : Except GlobStop Unit},
        P (r >>= fun _ => .ok false) →
        (∀ fuel, rest.length < fuel → checkRest fuel rest = r ∧
          ∀ name, P (globLoop fuel rest name)) →
        ∀ fuel, pattern.length < fuel → checkRest fuel pattern = r ∧
          ∀ name, P (globLoop fuel pattern name) := by
      intro P r hnone hsyntax fuel hfuel
      obtain ⟨fuel, rfl⟩ := Nat.exists_eq_add_one_of_ne_zero (Nat.ne_zero_of_lt hfuel)
      obtain ⟨hrest, hloop⟩ := hsyntax fuel (by omega)
      refine ⟨?_, fun name => ?_⟩
      · obtain ⟨x, hx⟩ := hchunk []
        rw [hcheck, hx, Except.ok_bind, hrest]
      · obtain ⟨x, hx⟩ := hchunk name
        obtain ⟨skipped, hskipped⟩ := hskip name
        rw [hglob, if_neg hstar, hx, Except.ok_bind, hskipped, Except.ok_bind]
        split
        · exact hloop _
        cases skipped with
        | some t => exact hloop t
        | none =>
          obtain ⟨hrest, -⟩ := hsyntax (rest.length + 1) (Nat.lt_succ_self _)
          rw [afterSkip, hrest]
          exact hnone
    rcases ih rest.length hlt rest rfl with ⟨e, he, hsyntax⟩ | hsyntax
    · exact .inl ⟨e, he, hturn (P := (· = .error e)) rfl hsyntax⟩
    · exact .inr (hturn (P := fun x => ∃ b, x = .ok b) ⟨_, rfl⟩ hsyntax)

/-- The evaluations of a pattern stop together, or return together. -/
lemma globMatch_cases (pattern : Bytes) :
    (∃ e : GlobStop, e.OfPattern ∧ ∀ name, globMatch pattern name = .error e) ∨
      ∀ name, ∃ b, globMatch pattern name = .ok b := by
  rcases globLoop_cases pattern with ⟨e, he, h⟩ | h
  · exact .inl ⟨e, he, (h _ (Nat.lt_succ_self _)).2⟩
  · exact .inr (h _ (Nat.lt_succ_self _)).2

/-- **Whether a pattern is malformed does not depend on the name**, and no evaluation accesses a
byte that is not there. -/
theorem globMatch_stop (pattern name₁ name₂ : Bytes) :
    (globMatch pattern name₁ = .error .badPattern ↔
      globMatch pattern name₂ = .error .badPattern) ∧
    globMatch pattern name₁ ≠ .error (.panic .sliceRange) ∧
    globMatch pattern name₁ ≠ .error .budget := by
  rcases globMatch_cases pattern with ⟨e, he, h⟩ | h
  · rw [h, h]
    refine ⟨Iff.rfl, ?_, ?_⟩
    · rintro ⟨⟩
      rcases he with he | he <;> cases he
    · rintro ⟨⟩
      rcases he with he | he <;> cases he
  · obtain ⟨b₁, h₁⟩ := h name₁
    obtain ⟨b₂, h₂⟩ := h name₂
    rw [h₁, h₂]
    exact ⟨iff_of_false nofun nofun, nofun, nofun⟩

end RustDds
