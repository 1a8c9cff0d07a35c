import RustDds.Security.Grammar

/-!
# What the matcher decides

The scan for the end of a chunk knows classes and escapes only by their brackets and backslashes;
`chunkLength_append` says that on terms of the grammar it finds the right places all the same.  So
the code cuts a well-formed pattern where the grammar does (`IsPattern.exists_scan`), and the search
that follows is the one of the library (`skipLoop_eq`).

`globMatch_of_isPattern` is the result for well-formed patterns, and `exists_isPattern` says that
the code returns on no others.
-/

namespace RustDds

/-! ## The scan for the end of a chunk -/

/-- Nothing ends in the middle of a character. -/
lemma chunkLength_of_le (inrange : Bool) {l : Bytes} (hl : ∀ b ∈ l, 0x80 ≤ b) (p : Bytes) :
    chunkLength inrange (l ++ p) = l.length + chunkLength inrange p := by
  induction l with
  | nil => rw [List.nil_append, List.length_nil, Nat.zero_add]
  | cons b l ih =>
    obtain ⟨hb, hl⟩ := List.forall_mem_cons.mp hl
    have hne : ∀ c : UInt8, c < 0x80 → b ≠ c := by
      rintro c hc rfl
      exact absurd hb (UInt8.not_le.mpr hc)
    rw [List.cons_append, chunkLength_cons, if_neg (hne _ (by decide)), if_neg (hne _ (by decide)),
      if_neg (hne _ (by decide)), if_neg (fun h => hne asterisk (by decide) h.1), ih hl,
      List.length_cons]
    omega

lemma chunkLength_of_isEndpoint {e : Bytes} {c : Char} (h : IsEndpoint e c) (p : Bytes) :
    chunkLength true (e ++ p) = e.length + chunkLength true p := by
  cases h with
  | @plain b e _ hdecode hhyphen hclose hescape =>
    obtain ⟨-, he, -⟩ := Utf8.decode_eq_singleton hdecode
    rw [List.cons_append, chunkLength_cons, if_neg hescape, if_neg hclose,
      if_neg (by simp : ¬ (b = asterisk ∧ true = false)), ite_self, chunkLength_of_le true he,
      List.length_cons]
    omega
  | @escaped e _ hdecode =>
    cases e with
    | nil => cases hdecode
    | cons b e =>
      obtain ⟨-, he, -⟩ := Utf8.decode_eq_singleton hdecode
      rw [List.cons_append, chunkLength_cons, if_pos rfl, List.cons_append, if_neg nofun,
        List.tail_cons, chunkLength_of_le true he, List.length_cons, List.length_cons]
      omega

lemma chunkLength_of_isMember {e : Bytes} {m : Char × Char} (h : IsMember e m) (p : Bytes) :
    chunkLength true (e ++ p) = e.length + chunkLength true p := by
  cases h with
  | single h => exact chunkLength_of_isEndpoint h p
  | @range e e' _ _ hlo hhi =>
    have hhyphen : chunkLength true (hyphen :: (e' ++ p)) =
        chunkLength true (e' ++ p) + 1 := by
      rw [chunkLength_cons, if_neg (by decide), if_neg (by decide), if_neg (by decide),
        if_neg (by decide)]
    rw [List.append_assoc, chunkLength_of_isEndpoint hlo, List.cons_append, hhyphen,
      chunkLength_of_isEndpoint hhi, List.length_append, List.length_cons]
    omega

lemma chunkLength_of_areMembers {w : Bytes} {ms : List (Char × Char)} (h : AreMembers w ms)
    (p : Bytes) : chunkLength true (w ++ p) = w.length + chunkLength true p := by
  induction h with
  | nil => rw [List.nil_append, List.length_nil, Nat.zero_add]
  | cons hm _ ih =>
    rw [List.append_assoc, chunkLength_of_isMember hm, ih, List.length_append]
    omega

lemma chunkLength_of_isTerm {e : Bytes} {t : UInt8 → Bool} (h : IsTerm e t) (p : Bytes) :
    chunkLength false (e ++ p) = e.length + chunkLength false p := by
  -- a class, from behind its bracket
  have hclass : ∀ {w ms}, AreMembers w ms → chunkLength true (w ++ closeBracket :: p) =
      w.length + chunkLength false p + 1 := by
    intro w ms hms
    rw [chunkLength_of_areMembers hms, chunkLength_cons, if_neg (by decide), if_neg (by decide),
      if_pos rfl]
    omega
  have hopen : ∀ q, chunkLength false (openBracket :: q) = chunkLength true q + 1 := by
    intro q
    rw [chunkLength_cons, if_neg (by decide), if_pos rfl]
  cases h with
  | any =>
    rw [List.singleton_append, chunkLength_cons, if_neg (by decide), if_neg (by decide),
      if_neg (by decide), if_neg (by decide), List.length_singleton, Nat.add_comm]
  | escaped b =>
    rw [List.cons_append, List.singleton_append, chunkLength_cons, if_pos rfl, if_neg nofun,
      List.tail_cons, List.length_cons, List.length_singleton, Nat.add_comm]
  | literal hstar hany hopen hescape =>
    rw [List.singleton_append, chunkLength_cons, if_neg hescape, if_neg hopen]
    simp only [hstar, false_and, if_false, ite_self]
    rw [List.length_singleton, Nat.add_comm]
  | @positive w ms hms =>
    rw [show openBracket :: (w ++ [closeBracket]) ++ p = openBracket :: (w ++ closeBracket :: p) by
      simp, hopen, hclass hms]
    simp
    omega
  | @negative w ms hms =>
    rw [show openBracket :: caret :: (w ++ [closeBracket]) ++ p =
      openBracket :: ((caret :: w) ++ closeBracket :: p) by simp, hopen,
      hclass (areMembers_caret hms)]
    simp
    omega

/-- **The scan goes through a chunk** of the grammar. -/
lemma chunkLength_append {w : Bytes} {ts : Glob.Chunk UInt8} (h : IsChunk w ts) (p : Bytes) :
    chunkLength false (w ++ p) = w.length + chunkLength false p := by
  induction h with
  | nil => rw [List.nil_append, List.length_nil, Nat.zero_add]
  | cons ht _ ih =>
    rw [List.append_assoc, chunkLength_of_isTerm ht, ih, List.length_append]
    omega

/-! ## Cutting a well-formed pattern -/

lemma IsChunk.head?_ne {w : Bytes} {ts : Glob.Chunk UInt8} (h : IsChunk w ts) :
    w.head? ≠ some asterisk := by
  cases h with
  | nil => nofun
  | cons ht _ =>
    cases ht with
    | literal hstar _ _ _ => simpa using hstar
    | _ => simp [asterisk, questionMark, backslash, openBracket]

lemma IsChunk.eq_nil {c : Glob.Chunk UInt8} (h : IsChunk [] c) : c = [] := by
  generalize hw : ([] : Bytes) = w at h
  cases h with
  | nil => rfl
  | cons ht _ => exact absurd (List.append_eq_nil_iff.mp hw.symm).1 ht.ne_nil

variable {p : Bytes} {c : Glob.Chunk UInt8} {ds : List (Glob.Chunk UInt8)}

/-- A pattern is its first chunk, and a pattern that starts with a star. -/
lemma IsPattern.cut (h : IsPattern p c ds) :
    ∃ w rest, p = w ++ rest ∧ chunkLength false p = w.length ∧ IsChunk w c ∧
      IsPattern rest [] ds ∧ (rest = [] ↔ ds = []) := by
  cases h with
  | last hw =>
    have hlength := chunkLength_append hw []
    rw [List.append_nil] at hlength
    exact ⟨p, [], by simp, hlength, hw, .last .nil, by simp⟩
  | @star w p _ d ds hw h =>
    have hstop : chunkLength false (asterisk :: p) = 0 := by
      rw [chunkLength_cons, if_neg (by decide), if_neg (by decide), if_neg (by decide),
        if_pos ⟨rfl, rfl⟩]
    refine ⟨w, asterisk :: p, rfl, ?_, hw, .star .nil h, by simp⟩
    rw [chunkLength_append hw, hstop]
    rfl

lemma IsPattern.of_asterisk (h : IsPattern (asterisk :: p) c ds) :
    c = [] ∧ ∃ d ds', ds = d :: ds' ∧ IsPattern p d ds' := by
  generalize hq : asterisk :: p = q at h
  cases h with
  | last hw =>
    subst hq
    exact absurd rfl hw.head?_ne
  | @star w p' _ d ds hw h =>
    cases w with
    | nil =>
      obtain ⟨-, rfl⟩ := List.cons.inj hq
      exact ⟨hw.eq_nil, d, ds, rfl, h⟩
    | cons b w =>
      obtain ⟨rfl, -⟩ := List.cons.inj hq
      exact absurd rfl hw.head?_ne

/-- The stars in front of a chunk are one. -/
lemma IsPattern.dropStars (h : IsPattern p c ds) :
    ∃ c' ds', IsPattern (p.dropWhile (· == asterisk)) c' ds' ∧
      ∀ as, Glob.matchStars notSlash (c :: ds) as = Glob.matchStars notSlash (c' :: ds') as := by
  induction p generalizing c ds with
  | nil => exact ⟨c, ds, h, fun _ => rfl⟩
  | cons b p ih =>
    by_cases hb : b = asterisk
    · subst hb
      obtain ⟨rfl, d, ds, rfl, hp⟩ := h.of_asterisk
      obtain ⟨c', ds', h', hmatch⟩ := ih hp
      refine ⟨c', ds', ?_, fun as => ?_⟩
      · rwa [List.dropWhile_cons_of_pos (by simp)]
      · rw [Glob.matchStars_nil_cons, hmatch]
    · refine ⟨c, ds, ?_, fun _ => rfl⟩
      rwa [List.dropWhile_cons_of_neg (by simpa using hb)]

/-- **The code cuts a well-formed pattern** where the grammar does. -/
lemma IsPattern.exists_scan (h : IsPattern p c ds) :
    ∃ w rest c' ds', scanChunk p = .ok (p.head? == some asterisk, w, rest) ∧
      (w ++ rest) <:+: p ∧ IsChunk w c' ∧ IsPattern rest [] ds' ∧ (rest = [] ↔ ds' = []) ∧
      ∀ as, Glob.matchGlob notSlash c ds as =
        if p.head? == some asterisk then Glob.matchStars notSlash (c' :: ds') as
        else Glob.matchGlob notSlash c' ds' as := by
  -- what is behind the stars
  obtain ⟨c', ds', hq, hmatch⟩ : ∃ c' ds', IsPattern (p.dropWhile (· == asterisk)) c' ds' ∧
      ∀ as, Glob.matchGlob notSlash c ds as =
        if p.head? == some asterisk then Glob.matchStars notSlash (c' :: ds') as
        else Glob.matchGlob notSlash c' ds' as := by
    cases p with
    | nil => exact ⟨c, ds, h, fun _ => rfl⟩
    | cons b p =>
      by_cases hb : b = asterisk
      · subst hb
        obtain ⟨rfl, d, ds, rfl, hp⟩ := h.of_asterisk
        obtain ⟨c', ds', h', hmatch⟩ := hp.dropStars
        refine ⟨c', ds', by rwa [List.dropWhile_cons_of_pos (by simp)], fun as => ?_⟩
        rw [if_pos (by simp), ← hmatch]
        rfl
      · refine ⟨c, ds, by rwa [List.dropWhile_cons_of_neg (by simpa using hb)], fun as => ?_⟩
        rw [if_neg (by simpa using hb)]
  obtain ⟨w, rest, hsplit, hlength, hw, hrest, hnil⟩ := hq.cut
  refine ⟨w, rest, c', ds', ?_, ?_, hw, hrest, hnil, hmatch⟩
  · rw [scanChunk_eq, hlength, hsplit, List.take_left, List.drop_left]
  · rw [← hsplit]
    exact (List.dropWhile_suffix _).isInfix

/-! ## The search -/

/-- What the search finds when the chunk does not fit where it starts. -/
def findBehind (c : Glob.Chunk UInt8) (good : Bytes → Bool) : Bytes → Option Bytes
  | [] => none
  | b :: s => if notSlash b then Glob.find notSlash c good s else none

lemma find_eq (c : Glob.Chunk UInt8) (good : Bytes → Bool) (s : Bytes) :
    Glob.find notSlash c good s = ((Glob.strip c s).filter good).or (findBehind c good s) := by
  cases s with
  | nil => rw [Glob.find, findBehind, Option.or_none]
  | cons b s => rw [Glob.find, findBehind]

/-- **The search** of the code is the one of the library. -/
lemma skipLoop_eq {w rest name : Bytes} {good : Bytes → Bool}
    (hchunk : ∀ s, (∀ b ∈ s, b < 0x80) → matchChunk w s = .ok (stripped (Glob.strip c s)))
    (hgood : ∀ t, good t = true ↔ ¬ (rest.isEmpty = true ∧ ¬ t.isEmpty = true))
    (hname : ∀ b ∈ name, b < 0x80) {fuel i : ℕ} (hi : i ≤ name.length)
    (hfuel : name.length < fuel + i) :
    skipLoop w rest name fuel i = .ok (findBehind c good (name.drop i)) := by
  induction fuel generalizing i with
  | zero => omega
  | succ fuel ih =>
    rw [skipLoop]
    rcases hi.lt_or_eq with hlt | rfl
    swap
    · rw [if_neg (Nat.lt_irrefl _), List.drop_length]
      rfl
    obtain ⟨b, s, hdrop⟩ := List.exists_cons_of_ne_nil
      (List.length_pos_iff.mp (by rw [List.length_drop]; omega : 0 < (name.drop i).length))
    have hs := drop_succ_of_drop hdrop
    rw [if_pos hlt, byteAt_of_drop hdrop, Except.ok_bind, hdrop, findBehind, notSlash]
    split
    · rename_i hslash
      rw [hslash]
      rfl
    rename_i hslash
    rw [if_pos (by simpa using hslash), sliceFrom_of_le hlt, Except.ok_bind, hs,
      hchunk s (fun b hb => hname b (List.mem_of_mem_drop (hs ▸ hb))), Except.ok_bind, find_eq]
    have hnext := ih hlt (by omega)
    rw [hs] at hnext
    cases hstrip : Glob.strip c s with
    | none =>
      rw [stripped]
      dsimp only
      rw [if_neg (by simp), hnext, Option.filter_none, Option.none_or]
    | some t =>
      rw [stripped]
      dsimp only
      by_cases ht : good t = true
      · rw [if_pos ⟨rfl, (hgood t).mp ht⟩, Option.filter_some_pos ht, Option.some_or]
      · rw [if_neg (fun h => ht ((hgood t).mpr h.2)), hnext,
          Option.filter_some_neg (by simpa using ht), Option.none_or]

/-! ## Well-formed patterns -/

lemma mem_of_strip {s t : Bytes} (h : Glob.strip c s = some t) {b : UInt8} (hb : b ∈ t) :
    b ∈ s := by
  obtain ⟨w, rfl, -⟩ := Glob.strip_eq_some.mp h
  exact List.mem_append_right _ hb

lemma mem_of_find {good : Bytes → Bool} {s t : Bytes} (h : Glob.find notSlash c good s = some t)
    {b : UInt8} (hb : b ∈ t) : b ∈ s := by
  obtain ⟨run, x, rfl, -, hstrip, -⟩ := Glob.find_eq_some.mp h
  exact List.mem_append_right _ (mem_of_strip hstrip hb)

lemma mem_of_findBehind {good : Bytes → Bool} {s t : Bytes} (h : findBehind c good s = some t)
    {b : UInt8} (hb : b ∈ t) : b ∈ s := by
  cases s with
  | nil => cases h
  | cons a s =>
    rw [findBehind] at h
    split at h
    · exact List.mem_cons_of_mem a (mem_of_find h hb)
    · cases h

/-- A star at the end takes what has no separator in it. -/
lemma matchStars_singleton_nil (s : Bytes) :
    Glob.matchStars notSlash [[]] s = !s.contains slash := by
  rw [Bool.eq_iff_iff, Glob.matchStars_iff, Bool.not_eq_true', List.contains_eq_mem,
    decide_eq_false_iff_not]
  constructor
  · intro h hmem
    cases h with
    | @last _ run s hrun hstrip =>
      obtain rfl : s = [] := Option.some.inj hstrip
      rw [List.append_nil] at hmem
      simpa [notSlash] using hrun slash hmem
  · intro h
    have hrun : ∀ b ∈ s, notSlash b = true := by
      intro b hb
      rw [notSlash, bne_iff_ne]
      rintro rfl
      exact h hb
    have hstrip : Glob.strip ([] : Glob.Chunk UInt8) ([] : Bytes) = some [] := rfl
    simpa using Glob.Leftmost.last hrun hstrip

/-- **On a well-formed pattern** the code does what the library does. -/
lemma globLoop_of_isPattern (h : IsPattern p c ds) (hbounded : Bounded p) {fuel : ℕ}
    (hfuel : p.length < fuel) {name : Bytes} (hname : ∀ b ∈ name, b < 0x80) :
    globLoop fuel p name = .ok (Glob.matchGlob notSlash c ds name) := by
  induction hn : p.length using Nat.strongRecOn generalizing p c ds fuel name with
  | _ n ih =>
    subst hn
    obtain ⟨fuel, rfl⟩ := Nat.exists_eq_add_one_of_ne_zero (Nat.ne_zero_of_lt hfuel)
    by_cases hp : p = []
    · subst hp
      obtain ⟨w, rest, hsplit, -, hw, -, hnil⟩ := h.cut
      obtain ⟨rfl, rfl⟩ := List.append_eq_nil_iff.mp hsplit.symm
      rw [globLoop, if_pos List.isEmpty_nil, hw.eq_nil, hnil.mp rfl]
      rfl
    obtain ⟨w, rest, c', ds', hscan, hinfix, hw, hrest, hnil, hmatch⟩ := h.exists_scan
    have hlt : rest.length < p.length := by
      obtain ⟨_, _, _, hscan', hlt, -⟩ := scanChunk_cases hp
      rw [hscan] at hscan'
      cases hscan'
      exact hlt
    have hw_bounded := hbounded.of_infix ((List.prefix_append w rest).isInfix.trans hinfix)
    have hrest_bounded := hbounded.of_infix ((List.suffix_append w rest).isInfix.trans hinfix)
    have hchunk : ∀ s, (∀ b ∈ s, b < 0x80) →
        matchChunk w s = .ok (stripped (Glob.strip c' s)) := fun s hs =>
      matchLoop_of_isChunk hw hw_bounded (Nat.lt_succ_self _) hs
    have hloop : ∀ {s}, (∀ b ∈ s, b < 0x80) →
        globLoop fuel rest s = .ok (Glob.matchStars notSlash ds' s) := fun hs =>
      ih rest.length hlt hrest hrest_bounded (by omega) hs rfl
    -- a well-formed rest passes the check of its syntax
    have hcheck : checkRest (rest.length + 1) rest = .ok () := by
      rcases globLoop_cases rest with ⟨e, -, he⟩ | hok
      · have hnone := hloop (s := []) fun b hb => absurd hb List.not_mem_nil
        rw [(he fuel (by omega)).2] at hnone
        cases hnone
      · exact (hok _ (Nat.lt_succ_self _)).1
    obtain ⟨good, hgood, hfind⟩ : ∃ good : Bytes → Bool,
        (∀ t, good t = true ↔ t = [] ∨ rest ≠ []) ∧
        ∀ s, Glob.matchStars notSlash (c' :: ds') s =
          (((Glob.strip c' s).filter good).or (findBehind c' good s)).elim false
            (Glob.matchStars notSlash ds') := by
      refine ⟨fun t => t.isEmpty || !ds'.isEmpty, fun t => ?_, fun s => ?_⟩
      · simp [hnil]
      · rw [Glob.matchStars_cons, find_eq]
    have hbehind : ∀ star : Bool,
        (if star then skipLoop w rest name (name.length + 1) 0 else .ok none) >>=
          afterSkip fuel rest =
        .ok ((if star then findBehind c' good name else none).elim false
          (Glob.matchStars notSlash ds')) := by
      intro star
      cases star with
      | false =>
        rw [if_neg Bool.false_ne_true, if_neg Bool.false_ne_true, Except.ok_bind, afterSkip, hcheck]
        rfl
      | true =>
        have hgood' : ∀ t, good t = true ↔ ¬ (rest.isEmpty = true ∧ ¬ t.isEmpty = true) :=
          fun t => (hgood t).trans (by simp [or_iff_not_imp_right])
        have hskip := skipLoop_eq hchunk hgood' hname (Nat.zero_le _) (Nat.lt_succ_self _)
        rw [if_pos rfl, if_pos rfl, hskip, List.drop_zero, Except.ok_bind]
        cases hfound : findBehind c' good name with
        | none =>
          rw [afterSkip, hcheck]
          rfl
        | some t => exact hloop fun b hb => hname b (mem_of_findBehind hfound hb)
    rw [globLoop_of_scan hscan hp, hmatch]
    generalize (p.head? == some asterisk) = star at hscan
    split
    · -- a star at the end
      rename_i hstar
      obtain ⟨rfl, rfl⟩ := hstar
      obtain ⟨_, _, _, hscan', -, hend⟩ := scanChunk_cases hp
      rw [hscan] at hscan'
      cases hscan'
      rw [if_pos rfl, hw.eq_nil, hnil.mp (hend rfl), matchStars_singleton_nil]
    rw [hchunk name hname, Except.ok_bind, hbehind]
    cases hstrip : Glob.strip c' name with
    | none =>
      rw [stripped, if_neg (by simp), hfind, hstrip, Option.filter_none, Option.none_or,
        Glob.matchGlob, hstrip]
      cases star <;> rfl
    | some t =>
      rw [stripped, hfind, hstrip, Glob.matchGlob, hstrip]
      by_cases ht : good t = true
      · rw [if_pos ⟨rfl, (hgood t).mp ht⟩, Option.filter_some_pos ht, Option.some_or,
          hloop fun b hb => hname b (mem_of_strip hstrip hb)]
        cases star <;> rfl
      · rw [if_neg (fun h => ht ((hgood t).mpr h.2)), Option.filter_some_neg (by simpa using ht),
          Option.none_or]
        cases star with
        | true => rfl
        | false =>
          -- without a star, what is left of the name is left over
          rw [hgood] at ht
          push Not at ht
          show Except.ok false = .ok (Glob.matchStars notSlash ds' t)
          rw [hnil.mp ht.2, Glob.matchStars]
          simp [ht.1]

/-! ## Other patterns -/

/-- A chunk that was cut ends where the scan does. -/
lemma chunkLength_take (inrange : Bool) (p : Bytes) :
    chunkLength inrange (p.take (chunkLength inrange p)) = chunkLength inrange p := by
  fun_induction chunkLength inrange p with
  | case1 => rfl
  | case2 => rfl
  | case3 inrange b pattern ih =>
    rw [List.take_succ_cons, List.take_succ_cons, chunkLength_cons, if_pos rfl,
      if_neg (List.cons_ne_nil _ _),
      List.tail_cons, ih]
  | case4 inrange pattern hescape ih =>
    rw [List.take_succ_cons, chunkLength_cons, if_neg hescape, if_pos rfl, ih]
  | case5 inrange pattern hescape hopen ih =>
    rw [List.take_succ_cons, chunkLength_cons, if_neg hescape, if_neg hopen, if_pos rfl, ih]
  | case6 inrange b pattern => rfl
  | case7 inrange b pattern hescape hopen hclose hstar ih =>
    rw [List.take_succ_cons, chunkLength_cons, if_neg hescape, if_neg hopen, if_neg hclose,
      if_neg hstar, ih]

lemma head?_drop_chunkLength (inrange : Bool) (p : Bytes) :
    p.drop (chunkLength inrange p) = [] ∨
      (p.drop (chunkLength inrange p)).head? = some asterisk := by
  fun_induction chunkLength inrange p <;> simp_all

/-- Some class of the string has too many members. -/
lemma not_bounded {p w : Bytes} {ms : List (Char × Char)} (hw : openBracket :: w <:+: p)
    (hms : AreMembers w ms) (hle : 2 ^ 32 ≤ ms.length) : ¬ Bounded p :=
  fun h => Nat.not_lt.mpr hle (h w ms hw hms)

/-- **What the loop over the terms accepts** is a chunk, and only a count stops it otherwise than
for its syntax. -/
lemma matchLoop_outcome {fuel : ℕ} {chunk : Bytes} (hfuel : chunk.length < fuel) (s : Bytes)
    (failed : Bool) :
    (∀ x, matchLoop fuel chunk s failed = .ok x → chunkLength false chunk = chunk.length →
      ∃ ts, IsChunk chunk ts) ∧
    (matchLoop fuel chunk s failed = .error (.panic .overflow) → ¬ Bounded chunk) := by
  induction fuel generalizing chunk s failed with
  | zero => omega
  | succ fuel ih =>
    by_cases hchunk : chunk = []
    · subst hchunk
      rw [matchLoop_nil]
      exact ⟨fun _ _ _ => ⟨[], .nil⟩, nofun⟩
    rw [matchLoop_of_ne_nil hchunk]
    rcases matchTerm_outcome hchunk (failed_or_ne_nil s failed) with
      ⟨e, rest, x, hterm, rfl, hne, he⟩ | hterm | ⟨hterm, w, ms, hw, hms, hle⟩
    · have hpos := List.length_pos_iff.mpr hne
      rw [List.length_append] at hfuel
      have hfuel' : rest.length < fuel := by omega
      obtain ⟨hok, hoverflow⟩ := ih hfuel' x.1 x.2
      rw [hterm, Except.ok_bind]
      refine ⟨fun y hy hlength => ?_, fun h hbounded => ?_⟩
      · rcases he with hstar | ⟨t, ht⟩
        · obtain ⟨e, rfl⟩ := List.head?_eq_some_iff.mp hstar
          rw [List.cons_append, chunkLength_cons, if_neg (by decide), if_neg (by decide),
            if_neg (by decide), if_pos ⟨rfl, rfl⟩] at hlength
          cases hlength
        · rw [chunkLength_of_isTerm ht, List.length_append] at hlength
          obtain ⟨ts, hts⟩ := hok y hy (by omega)
          exact ⟨t :: ts, .cons ht hts⟩
      · exact hoverflow h (hbounded.of_infix (List.suffix_append e rest).isInfix)
    · rw [hterm, Except.error_bind]
      exact ⟨nofun, nofun⟩
    · rw [hterm, Except.error_bind]
      exact ⟨nofun, fun _ => not_bounded hw.isInfix hms hle⟩

/-- Stars in front of a pattern leave it well formed. -/
lemma exists_isPattern_of_dropWhile (h : IsPattern (p.dropWhile (· == asterisk)) c ds) :
    ∃ c ds, IsPattern p c ds := by
  induction p with
  | nil => exact ⟨c, ds, h⟩
  | cons b p ih =>
    by_cases hb : b = asterisk
    · subst hb
      rw [List.dropWhile_cons_of_pos (by simp)] at h
      obtain ⟨c', ds', h'⟩ := ih h
      exact ⟨[], c' :: ds', .star .nil h'⟩
    · rw [List.dropWhile_cons_of_neg (by simpa using hb)] at h
      exact ⟨c, ds, h⟩

/-- **What the check of the syntax accepts** is a well-formed pattern. -/
lemma checkRest_outcome {fuel : ℕ} (hfuel : p.length < fuel) :
    (checkRest fuel p = .ok () → ∃ c ds, IsPattern p c ds) ∧
    (checkRest fuel p = .error (.panic .overflow) → ¬ Bounded p) := by
  induction fuel generalizing p with
  | zero => omega
  | succ fuel ih =>
    by_cases hp : p = []
    · subst hp
      rw [checkRest, if_pos List.isEmpty_nil]
      exact ⟨fun _ => ⟨[], [], .last .nil⟩, fun h => by cases h⟩
    have hscan := scanChunk_eq p
    obtain ⟨_, _, _, hscan', hlt, -⟩ := scanChunk_cases hp
    rw [hscan] at hscan'
    cases hscan'
    rw [checkRest_of_scan hscan hp]
    have hsuffix : p.dropWhile (· == asterisk) <:+ p := List.dropWhile_suffix _
    have hcollect : ∀ c ds, IsPattern (p.dropWhile (· == asterisk)) c ds →
        ∃ c ds, IsPattern p c ds := fun c ds => exists_isPattern_of_dropWhile
    generalize p.dropWhile (· == asterisk) = q at hsuffix hcollect hlt
    have hlength : (q.take (chunkLength false q)).length = chunkLength false q := by
      rw [List.length_take]
      exact Nat.min_eq_left (chunkLength_le false q)
    have htake : (q.take (chunkLength false q)) <:+: p :=
      (List.take_prefix _ q).isInfix.trans hsuffix.isInfix
    have hdrop : (q.drop (chunkLength false q)) <:+: p :=
      (List.drop_suffix _ q).isInfix.trans hsuffix.isInfix
    obtain ⟨hchunk, hoverflow⟩ := matchLoop_outcome
      (Nat.lt_succ_self (q.take (chunkLength false q)).length) [] false
    obtain ⟨hrest, hrest_overflow⟩ := ih (p := q.drop (chunkLength false q)) (by omega)
    constructor
    · intro h
      obtain ⟨x, hx, h⟩ := Except.bind_eq_ok.mp h
      obtain ⟨ts, hts⟩ := hchunk x hx (by rw [chunkLength_take, hlength])
      obtain ⟨c', ds', hpattern⟩ := hrest h
      have hsplit := List.take_append_drop (chunkLength false q) q
      rcases head?_drop_chunkLength false q with hnil | hstar
      · rw [hnil, List.append_nil] at hsplit
        rw [hsplit] at hts
        exact hcollect ts [] (.last hts)
      · obtain ⟨tail, htail⟩ := List.head?_eq_some_iff.mp hstar
        rw [htail] at hpattern hsplit
        obtain ⟨-, d, ds, -, hd⟩ := hpattern.of_asterisk
        exact hcollect ts (d :: ds) (hsplit ▸ .star hts hd)
    · intro h hbounded
      cases hx : matchChunk (q.take (chunkLength false q)) [] with
      | error e =>
        rw [hx, Except.error_bind] at h
        cases h
        exact hoverflow hx (hbounded.of_infix htake)
      | ok x =>
        rw [hx, Except.ok_bind] at h
        exact hrest_overflow h (hbounded.of_infix hdrop)

/-- **The two outcomes** of a pattern whose classes can be counted. -/
lemma globMatch_outcome (hbounded : Bounded p) :
    (∃ c ds, IsPattern p c ds ∧ ∀ name, (∀ b ∈ name, b < 0x80) →
      globMatch p name = .ok (Glob.matchGlob notSlash c ds name)) ∨
    (¬ ∃ c ds, IsPattern p c ds) ∧ ∀ name, globMatch p name = .error .badPattern := by
  have hfuel := Nat.lt_succ_self p.length
  obtain ⟨hpattern, hoverflow⟩ := checkRest_outcome hfuel
  rcases globLoop_cases p with ⟨e, he, h⟩ | h
  · obtain ⟨hcheck, hloop⟩ := h _ hfuel
    rcases he with rfl | rfl
    · refine .inr ⟨?_, hloop⟩
      rintro ⟨c, ds, hp⟩
      have hempty : ∀ b ∈ ([] : Bytes), b < 0x80 := nofun
      have hok := globLoop_of_isPattern hp hbounded hfuel hempty
      rw [hloop] at hok
      cases hok
    · exact absurd hbounded (hoverflow hcheck)
  · obtain ⟨c, ds, hp⟩ := hpattern (h _ hfuel).1
    exact .inl ⟨c, ds, hp, fun name hname => globLoop_of_isPattern hp hbounded hfuel hname⟩

/-! ## What a match is -/

/-- **The pattern is well formed and matches the name**: the first chunk consumes the front of it,
and the rest can be cut into runs for the stars and what the other chunks consume. -/
def PatternMatches (pattern name : Bytes) : Prop :=
  ∃ c ds rest, IsPattern pattern c ds ∧ Glob.strip c name = some rest ∧
    Glob.Matches notSlash ds rest

/-- The same, where each star but the last takes the shortest run after which the next chunk
fits. -/
def PatternMatchesLeftmost (pattern name : Bytes) : Prop :=
  ∃ c ds rest, IsPattern pattern c ds ∧ Glob.strip c name = some rest ∧
    Glob.Leftmost notSlash ds rest

/-- Between two stars of the pattern, no term admits both a separator and another byte. -/
def Unmixed (pattern : Bytes) : Prop :=
  ∀ c ds, IsPattern pattern c ds → ∀ d ∈ ds.dropLast, ∀ t ∈ d, Glob.Rigid notSlash t

lemma PatternMatchesLeftmost.matches {name : Bytes} (h : PatternMatchesLeftmost p name) :
    PatternMatches p name := by
  obtain ⟨c, ds, rest, hp, hstrip, hleftmost⟩ := h
  exact ⟨c, ds, rest, hp, hstrip, hleftmost.matches⟩

lemma PatternMatches.leftmost {name : Bytes} (h : PatternMatches p name) (hunmixed : Unmixed p) :
    PatternMatchesLeftmost p name := by
  obtain ⟨c, ds, rest, hp, hstrip, hmatches⟩ := h
  exact ⟨c, ds, rest, hp, hstrip, Glob.leftmost_of_matches (hunmixed c ds hp) hmatches⟩

/-- A pattern that matches a name leftmost is matched with it so. -/
lemma globMatch_of_leftmost (hbounded : Bounded p) {name : Bytes} (hname : ∀ b ∈ name, b < 0x80)
    (h : PatternMatchesLeftmost p name) : globMatch p name = .ok true := by
  obtain ⟨c, ds, rest, hp, hstrip, hleftmost⟩ := h
  have hmatch : Glob.matchGlob notSlash c ds name = true :=
    Glob.matchGlob_iff.mpr ⟨rest, hstrip, hleftmost⟩
  rw [← hmatch]
  exact globLoop_of_isPattern hp hbounded (Nat.lt_succ_self _) hname

/-- Otherwise the code says no, or that the pattern is malformed. -/
lemma globMatch_of_not_leftmost (hbounded : Bounded p) {name : Bytes}
    (hname : ∀ b ∈ name, b < 0x80) (h : ¬ PatternMatchesLeftmost p name) :
    globMatch p name = .ok false ∨ globMatch p name = .error .badPattern := by
  rcases globMatch_outcome hbounded with ⟨c, ds, hp, hmatch⟩ | ⟨-, hbad⟩
  · refine .inl ?_
    rw [hmatch name hname, Except.ok.injEq, Bool.eq_false_iff]
    intro htrue
    obtain ⟨rest, hstrip, hleftmost⟩ := Glob.matchGlob_iff.mp htrue
    exact h ⟨c, ds, rest, hp, hstrip, hleftmost⟩
  · exact .inr (hbad name)

end RustDds
