import RustDds.Lib.Bytes

/-!
# UTF-8

`Utf8.encode` is the UTF-8 encoding of a string.  `Utf8.lossy` reads any byte string as text, the
way a decoder does that must not fail: where the bytes are not UTF-8, the longest part of them
that could still have begun a character is replaced by U+FFFD.  `Utf8.decode` is the decoder that
fails there.

Both take a step budget, of which the length of the input is enough, since every character takes a
byte at least.  Neither loses anything of a string that was encoded (`lossy_encode`).
-/

namespace Utf8

/-- The bytes of a string. -/
def encode (s : String) : Bytes := s.toList.flatMap String.utf8EncodeChar

/-- What a leading byte announces: how many bytes follow, the range of the first of them, and the
bits it contributes itself. -/
def lead (b : UInt8) : Option (ℕ × UInt8 × UInt8 × ℕ) :=
  if 0xC2 ≤ b ∧ b ≤ 0xDF then some (1, 0x80, 0xBF, b.toNat % 32)
  else if b = 0xE0 then some (2, 0xA0, 0xBF, 0)
  else if b = 0xED then some (2, 0x80, 0x9F, b.toNat % 16)
  else if 0xE1 ≤ b ∧ b ≤ 0xEF then some (2, 0x80, 0xBF, b.toNat % 16)
  else if b = 0xF0 then some (3, 0x90, 0xBF, 0)
  else if 0xF1 ≤ b ∧ b ≤ 0xF3 then some (3, 0x80, 0xBF, b.toNat % 8)
  else if b = 0xF4 then some (3, 0x80, 0x8F, b.toNat % 8)
  else none

/-- Read `n` bytes, the first of which is between `lo` and `hi` and the others are continuation
bytes, and add their bits to `acc`.  Stops before the first that does not fit. -/
def follow : ℕ → UInt8 → UInt8 → ℕ → Bytes → Option ℕ × Bytes
  | 0, _, _, acc, rest => (some acc, rest)
  | _ + 1, _, _, _, [] => (none, [])
  | n + 1, lo, hi, acc, b :: rest =>
    if lo ≤ b ∧ b ≤ hi then follow n 0x80 0xBF (acc * 64 + b.toNat % 64) rest
    else (none, b :: rest)

/-- The characters of a byte string, within `fuel` steps. -/
def lossyChars : ℕ → Bytes → List Char
  | 0, _ => []
  | _, [] => []
  | fuel + 1, b :: rest =>
    if b < 0x80 then Char.ofNat b.toNat :: lossyChars fuel rest
    else match lead b with
      | none => '\uFFFD' :: lossyChars fuel rest
      | some (n, lo, hi, acc) =>
        match follow n lo hi acc rest with
        | (some c, rest) => Char.ofNat c :: lossyChars fuel rest
        | (none, rest) => '\uFFFD' :: lossyChars fuel rest

/-- `String::from_utf8_lossy`. -/
def lossy (b : Bytes) : String := String.ofList (lossyChars b.length b)

/-- The characters of a byte string that is UTF-8, within `fuel` steps. -/
def strictChars : ℕ → Bytes → Option (List Char)
  | _, [] => some []
  | 0, _ :: _ => none
  | fuel + 1, b :: rest =>
    if b < 0x80 then (strictChars fuel rest).map (Char.ofNat b.toNat :: ·)
    else match lead b with
      | none => none
      | some (n, lo, hi, acc) =>
        match follow n lo hi acc rest with
        | (some c, rest) => (strictChars fuel rest).map (Char.ofNat c :: ·)
        | (none, _) => none

/-- `str::from_utf8`. -/
def decode (b : Bytes) : Option (List Char) := strictChars b.length b

/-- What follows a leading byte is no longer than what there is. -/
lemma length_follow_le (n : ℕ) (lo hi : UInt8) (acc : ℕ) (rest : Bytes) :
    (follow n lo hi acc rest).2.length ≤ rest.length := by
  induction n generalizing lo hi acc rest with
  | zero => exact le_refl _
  | succ n ih =>
    cases rest with
    | nil => exact le_refl _
    | cons b rest =>
      rw [follow]
      split
      · exact (ih ..).trans (Nat.le_succ _)
      · exact le_refl _

/-- The length of the input is budget enough. -/
lemma lossyChars_of_le {f g : ℕ} {b : Bytes} (hf : b.length ≤ f) (hg : b.length ≤ g) :
    lossyChars f b = lossyChars g b := by
  induction f generalizing g b with
  | zero =>
    rw [List.eq_nil_of_length_eq_zero (Nat.le_zero.mp hf)]
    cases g <;> rfl
  | succ f ih =>
    cases b with
    | nil => cases g <;> rfl
    | cons x rest =>
      obtain ⟨g, rfl⟩ : ∃ g', g = g' + 1 := ⟨g - 1, by simp at hg; omega⟩
      simp only [List.length_cons] at hf hg
      have hrec : ∀ tail : Bytes, tail.length ≤ rest.length →
          lossyChars f tail = lossyChars g tail := fun tail htail =>
        ih (by omega) (by omega)
      rw [lossyChars, lossyChars]
      split
      · rw [hrec rest (le_refl _)]
      split
      · rw [hrec rest (le_refl _)]
      · rename_i n lo hi acc _
        have hle := length_follow_le n lo hi acc rest
        rcases hfollow : follow n lo hi acc rest with ⟨_ | c, tail⟩
        · rw [hfollow] at hle
          dsimp only
          rw [hrec tail hle]
        · rw [hfollow] at hle
          dsimp only
          rw [hrec tail hle]

/-! ## What a character takes -/

/-- How many bytes the character takes that begins with this byte, if one does. -/
def width (b : UInt8) : ℕ :=
  if b < 0x80 then 1 else (lead b).elim 0 (fun x => x.1 + 1)

/-- What follows a leading byte are continuation bytes, as many as it announces. -/
lemma follow_eq_some {n : ℕ} {lo hi : UInt8} (hlo : 0x80 ≤ lo) {acc v : ℕ} {t rest : Bytes}
    (h : follow n lo hi acc t = (some v, rest)) :
    ∃ w, t = w ++ rest ∧ w.length = n ∧ ∀ x ∈ w, 0x80 ≤ x := by
  induction n generalizing lo hi acc t with
  | zero =>
    cases h
    exact ⟨[], rfl, rfl, nofun⟩
  | succ n ih =>
    cases t with
    | nil => cases h
    | cons b t =>
      rw [follow] at h
      split at h
      · rename_i hb
        obtain ⟨w, rfl, hlength, hw⟩ := ih (UInt8.le_refl _) h
        refine ⟨b :: w, rfl, by rw [List.length_cons, hlength], ?_⟩
        exact List.forall_mem_cons.mpr ⟨UInt8.le_trans hlo hb.1, hw⟩
      · cases h

lemma le_of_lead {b lo hi : UInt8} {n acc : ℕ} (h : lead b = some (n, lo, hi, acc)) :
    0x80 ≤ lo := by
  rw [lead] at h
  split_ifs at h <;> cases h <;> decide

/-- The first character of a string takes the bytes that its first byte announces. -/
lemma decode_cons_eq_some {b : UInt8} {t : Bytes} {c : Char} {cs : List Char}
    (h : decode (b :: t) = some (c :: cs)) :
    ∃ w rest, t = w ++ rest ∧ w.length + 1 = width b ∧ (∀ x ∈ w, 0x80 ≤ x) ∧
      strictChars t.length rest = some cs ∧ (b < 0x80 → c = Char.ofNat b.toNat) := by
  rw [decode, List.length_cons, strictChars] at h
  split at h
  · rename_i hb
    obtain ⟨cs', hcs, heq⟩ := Option.map_eq_some_iff.mp h
    obtain ⟨rfl, rfl⟩ := List.cons.inj heq
    exact ⟨[], t, rfl, by rw [width, if_pos hb]; rfl, nofun, hcs, fun _ => rfl⟩
  · rename_i hb
    cases hlead : lead b with
    | none =>
      rw [hlead] at h
      cases h
    | some x =>
      obtain ⟨n, lo, hi, acc⟩ := x
      rw [hlead] at h
      dsimp only at h
      rcases hfollow : follow n lo hi acc t with ⟨_ | v, rest⟩
      · rw [hfollow] at h
        cases h
      · rw [hfollow] at h
        obtain ⟨cs', hcs, heq⟩ := Option.map_eq_some_iff.mp h
        obtain ⟨rfl, rfl⟩ := List.cons.inj heq
        obtain ⟨w, rfl, hlength, hw⟩ := follow_eq_some (le_of_lead hlead) hfollow
        refine ⟨w, rest, rfl, ?_, hw, hcs, fun h => absurd h hb⟩
        rw [width, if_neg hb, hlead, hlength]
        rfl

/-- Only nothing is decoded as nothing. -/
lemma eq_nil_of_strictChars {fuel : ℕ} {b : Bytes} (h : strictChars fuel b = some []) :
    b = [] := by
  cases b with
  | nil => rfl
  | cons x rest =>
    cases fuel with
    | zero => cases h
    | succ fuel =>
      rw [strictChars] at h
      split at h
      · simp at h
      split at h
      · cases h
      split at h
      · simp at h
      · cases h

/-- A single character. -/
lemma decode_eq_singleton {b : UInt8} {t : Bytes} {c : Char} (h : decode (b :: t) = some [c]) :
    t.length + 1 = width b ∧ (∀ x ∈ t, 0x80 ≤ x) ∧ (b < 0x80 → c = Char.ofNat b.toNat) := by
  obtain ⟨w, rest, rfl, hlength, hw, hrest, hc⟩ := decode_cons_eq_some h
  rw [eq_nil_of_strictChars hrest, List.append_nil]
  exact ⟨hlength, hw, hc⟩

/-- An ASCII byte is a character. -/
lemma decode_ascii {b : UInt8} (hb : b < 0x80) : decode [b] = some [Char.ofNat b.toNat] := by
  rw [decode, List.length_singleton, strictChars, if_pos hb, strictChars]
  rfl

/-- What has the width of its first character is that character. -/
lemma eq_nil_of_decode_cons {b : UInt8} {t : Bytes} {c : Char} {cs : List Char}
    (h : decode (b :: t) = some (c :: cs)) (hlength : t.length + 1 = width b) : cs = [] := by
  obtain ⟨w, rest, rfl, hwidth, -, hrest, -⟩ := decode_cons_eq_some h
  rw [List.length_append] at hlength
  obtain rfl := List.eq_nil_of_length_eq_zero (show rest.length = 0 by omega)
  rw [strictChars] at hrest
  exact (Option.some.inj hrest).symm

/-! ## Reading back what was encoded -/

/-- The first byte of a character of two bytes. -/
lemma lead_two {n : ℕ} (h₂ : 2 ≤ n) (h : n < 32) :
    lead (UInt8.ofNat (n + 0xC0)) = some (1, 0x80, 0xBF, n) := by
  obtain ⟨m, rfl⟩ : ∃ m, n = m + 2 := ⟨n - 2, by omega⟩
  have hm : m < 30 := by omega
  clear h₂ h
  revert m
  decide

/-- The first byte of a character of three bytes.  Two of them narrow the range of the second:
to what needs three bytes, and to what is not a surrogate. -/
lemma lead_three {n : ℕ} (h : n < 16) :
    lead (UInt8.ofNat (n + 0xE0)) =
      some (2, if n = 0 then 0xA0 else 0x80, if n = 13 then 0x9F else 0xBF, n) := by
  revert n
  decide

/-- The first byte of a character of four bytes. -/
lemma lead_four {n : ℕ} (h : n < 5) :
    lead (UInt8.ofNat (n + 0xF0)) =
      some (3, if n = 0 then 0x90 else 0x80, if n = 4 then 0x8F else 0xBF, n) := by
  revert n
  decide

/-- A continuation byte in range adds its six bits. -/
lemma follow_cons {n m acc : ℕ} {lo hi : UInt8} {rest : Bytes} (hm : m < 64)
    (hlo : lo.toNat ≤ m + 0x80) (hhi : m + 0x80 ≤ hi.toNat) :
    follow (n + 1) lo hi acc (UInt8.ofNat (m + 0x80) :: rest) =
      follow n 0x80 0xBF (acc * 64 + m) rest := by
  have hb : (UInt8.ofNat (m + 0x80)).toNat = m + 0x80 := by
    rw [UInt8.toNat_ofNat']
    exact Nat.mod_eq_of_lt (by omega)
  rw [follow, if_pos, hb]
  · congr 2
    omega
  · rw [UInt8.le_iff_toNat_le, UInt8.le_iff_toNat_le, hb]
    exact ⟨hlo, hhi⟩

/-- **One character.**  An encoded character is read back as itself, in one step. -/
lemma lossyChars_utf8EncodeChar (fuel : ℕ) (c : Char) (rest : Bytes) :
    lossyChars (fuel + 1) (String.utf8EncodeChar c ++ rest) = c :: lossyChars fuel rest := by
  have hvalid : c.val.toNat < 0xD800 ∨ 0xDFFF < c.val.toNat ∧ c.val.toNat < 0x110000 := c.valid
  have hchar : ∀ v, v = c.val.toNat → Char.ofNat v = c := by
    rintro v rfl
    exact Char.ofNat_toNat c
  have h80 : (0x80 : UInt8).toNat = 0x80 := by decide
  have hBF : (0xBF : UInt8).toNat = 0xBF := by decide
  have hbig : ∀ n, 0x80 ≤ n → n < 256 → ¬ UInt8.ofNat n < 0x80 := by
    intro n hle hlt
    rw [UInt8.lt_iff_toNat_lt, UInt8.toNat_ofNat', h80, Nat.mod_eq_of_lt (by omega)]
    omega
  unfold String.utf8EncodeChar
  generalize c.val.toNat = v at hvalid hchar
  dsimp only
  split_ifs with h1 h2 h3
  · have hb : (UInt8.ofNat v).toNat = v := by
      rw [UInt8.toNat_ofNat']
      exact Nat.mod_eq_of_lt (by omega)
    rw [List.cons_append, List.nil_append, lossyChars, if_pos, hb, hchar v rfl]
    rw [UInt8.lt_iff_toNat_lt, hb, h80]
    omega
  · rw [List.cons_append, List.cons_append, List.nil_append, lossyChars,
      if_neg (hbig _ (by omega) (by omega)), lead_two (by omega) (by omega)]
    dsimp only
    rw [follow_cons (by omega) (by omega) (by omega), follow]
    dsimp only
    rw [hchar _ (by omega)]
  · simp only [List.cons_append, List.nil_append]
    rw [lossyChars, if_neg (hbig _ (by omega) (by omega)), lead_three (by omega)]
    dsimp only
    rw [follow_cons (by omega) (by split_ifs <;> simp; omega) (by split_ifs <;> simp <;> omega),
      follow_cons (by omega) (by omega) (by omega), follow]
    dsimp only
    rw [hchar _ (by omega)]
  · simp only [List.cons_append, List.nil_append]
    rw [lossyChars, if_neg (hbig _ (by omega) (by omega)), lead_four (by omega)]
    dsimp only
    rw [follow_cons (by omega) (by split_ifs <;> simp; omega) (by split_ifs <;> simp <;> omega),
      follow_cons (by omega) (by omega) (by omega),
      follow_cons (by omega) (by omega) (by omega), follow]
    dsimp only
    rw [hchar _ (by omega)]

/-- **A string survives.**  Reading text as text loses nothing. -/
lemma lossy_encode (s : String) : lossy (encode s) = s := by
  have hchars : ∀ (cs : List Char) (fuel : ℕ), cs.length ≤ fuel →
      lossyChars fuel (cs.flatMap String.utf8EncodeChar) = cs := by
    intro cs
    induction cs with
    | nil =>
      intro fuel _
      cases fuel <;> rfl
    | cons c cs ih =>
      intro fuel hfuel
      obtain ⟨fuel, rfl⟩ : ∃ f, fuel = f + 1 := ⟨fuel - 1, by simp at hfuel; omega⟩
      rw [List.flatMap_cons, lossyChars_utf8EncodeChar, ih fuel (by simpa using hfuel)]
  -- every character takes a byte at least
  have hlen : ∀ cs : List Char, cs.length ≤ (cs.flatMap String.utf8EncodeChar).length := by
    intro cs
    induction cs with
    | nil => exact le_refl _
    | cons c cs ih =>
      have hpos := List.length_pos_iff.mpr (String.utf8EncodeChar_ne_nil (c := c))
      rw [List.flatMap_cons, List.length_append, List.length_cons]
      omega
  rw [lossy, encode, hchars s.toList _ (hlen s.toList), String.ofList_toList]

end Utf8
