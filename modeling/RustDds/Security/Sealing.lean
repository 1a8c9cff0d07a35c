import RustDds.Lib.Checked

/-!
# Sealed payloads

A plugin seals a payload before it is sent and opens what has arrived.  `HmacPlugin` appends to
the payload a tag of 32 bytes; `AesGcmPlugin` draws a nonce of 12 bytes and puts it before the
ciphertext, which is 16 bytes longer than the payload.

The algorithms are not in this repository.  `HmacCalls` and `AeadCalls` are what the plugins call
of them, and `HmacCalls.Computes` and `AeadCalls.Lawful` say what these calls are documented to
do.  Under them each plugin opens exactly what it seals, and refuses the rest by an error
(`HmacPlugin.opensExactly`, `AesGcmPlugin.opensExactly`).
-/

namespace RustDds

/-- Why a plugin failed. -/
inductive SecurityError
  | payloadTooShort
  | verificationFailed
  | other (msg : String)
  deriving DecidableEq, Repr

/-- What is opened is exactly what is `Sealed`.  The rest is refused: what is shorter than the
framing for that, and else because it does not verify. -/
structure OpensExactly (opened : Bytes → Checked (Except SecurityError Bytes)) (framing : ℕ)
    (Sealed : Bytes → Bytes → Prop) : Prop where
  ok_iff : ∀ c p, opened c = .ok (.ok p) ↔ Sealed p c
  of_short : ∀ c, c.length < framing → opened c = .ok (.error .payloadTooShort)
  of_not_sealed : ∀ c, framing ≤ c.length → (∀ p, ¬Sealed p c) →
    opened c = .ok (.error .verificationFailed)

/-- An input that is not too short is opened to the one payload it seals, or refused if it seals
none. -/
lemma OpensExactly.of_split {opened : Bytes → Checked (Except SecurityError Bytes)} {framing : ℕ}
    {Sealed : Bytes → Bytes → Prop} (hlen : ∀ p c, Sealed p c → framing ≤ c.length)
    (hshort : ∀ c, c.length < framing → opened c = .ok (.error .payloadTooShort))
    (hlong : ∀ c, framing ≤ c.length →
      (∃ p, opened c = .ok (.ok p) ∧ ∀ p', Sealed p' c ↔ p' = p) ∨
      opened c = .ok (.error .verificationFailed) ∧ ∀ p, ¬Sealed p c) :
    OpensExactly opened framing Sealed where
  ok_iff c p := by
    rcases Nat.lt_or_ge c.length framing with hc | hc
    · rw [hshort c hc]
      exact ⟨fun h => (by cases h), fun h => absurd (hlen p c h) (by omega)⟩
    rcases hlong c hc with ⟨p', hok, hsealed⟩ | ⟨herr, hnot⟩
    · rw [hok, hsealed]
      exact ⟨fun h => (by cases h; rfl), fun h => by rw [h]⟩
    · rw [herr]
      exact ⟨fun h => (by cases h), fun h => absurd h (hnot p)⟩
  of_short := hshort
  of_not_sealed c hc hnot := by
    rcases hlong c hc with ⟨p, -, hsealed⟩ | ⟨herr, -⟩
    · exact absurd ((hsealed p).mpr rfl) (hnot p)
    · exact herr

/-! ## HMAC-SHA-256 -/

def hmacTagLen : ℕ := 32

/-- A keyed instance `σ`: it is made from a key, takes in bytes, and ends with its tag or with
whether a tag is its tag. -/
structure HmacCalls (σ : Type) where
  newFromSlice : Bytes → Except String σ
  update : σ → Bytes → σ
  finalize : σ → FixedBytes hmacTagLen
  verifySlice : σ → Bytes → Bool

/-- Any key is taken, and the calls compute `mac` of the key and the bytes. -/
structure HmacCalls.Computes {σ : Type} (hmac : HmacCalls σ)
    (mac : Bytes → Bytes → FixedBytes hmacTagLen) : Prop where
  newFromSlice_isOk : ∀ key, ∃ s, hmac.newFromSlice key = .ok s
  finalize_update : ∀ {key s}, hmac.newFromSlice key = .ok s →
    ∀ m, hmac.finalize (hmac.update s m) = mac key m
  verifySlice_update : ∀ {key s}, hmac.newFromSlice key = .ok s →
    ∀ m tag, hmac.verifySlice (hmac.update s m) tag = true ↔ tag = (mac key m).bytes

structure HmacPlugin where
  key : Bytes

section
variable {σ : Type} (hmac : HmacCalls σ) (plugin : HmacPlugin)

/-- `keyed_mac`. -/
def HmacPlugin.keyedMac : Except SecurityError σ :=
  (hmac.newFromSlice plugin.key).mapError fun e => .other ("HMAC key error: " ++ e)

/-- The plaintext, and behind it its tag. -/
def HmacPlugin.seal (plaintext : Bytes) : Except SecurityError Bytes := do
  let mac ← plugin.keyedMac hmac
  return plaintext ++ (hmac.finalize (hmac.update mac plaintext)).bytes

/-- What is before the tag, if the tag is that of it. -/
def HmacPlugin.open (ciphertext : Bytes) : Checked (Except SecurityError Bytes) :=
  if ciphertext.length < hmacTagLen then return .error .payloadTooShort
  else do
    let mid ← Checked.sub ciphertext.length hmacTagLen
    let (plaintext, tag) ← Checked.splitAt ciphertext mid
    match plugin.keyedMac hmac with
    | .error e => return .error e
    | .ok mac =>
      if hmac.verifySlice (hmac.update mac plaintext) tag then return .ok plaintext
      else return .error .verificationFailed

end

namespace HmacPlugin

variable {σ : Type} {hmac : HmacCalls σ} {mac : Bytes → Bytes → FixedBytes hmacTagLen}
  {plugin : HmacPlugin}

lemma keyedMac_isOk (plugin : HmacPlugin) (h : hmac.Computes mac) :
    ∃ s, hmac.newFromSlice plugin.key = .ok s ∧ plugin.keyedMac hmac = .ok s := by
  obtain ⟨s, hs⟩ := h.newFromSlice_isOk plugin.key
  exact ⟨s, hs, by rw [keyedMac, hs]; rfl⟩

lemma seal_eq (h : hmac.Computes mac) (plaintext : Bytes) :
    plugin.seal hmac plaintext = .ok (plaintext ++ (mac plugin.key plaintext).bytes) := by
  obtain ⟨s, hs, hkeyed⟩ := plugin.keyedMac_isOk h
  rw [HmacPlugin.seal, hkeyed, Except.ok_bind, h.finalize_update hs]
  rfl

lemma open_of_short {c : Bytes} (hshort : c.length < hmacTagLen) :
    plugin.open hmac c = .ok (.error .payloadTooShort) := by
  rw [HmacPlugin.open, if_pos hshort]
  rfl

/-- Only the tag behind the plaintext decides. -/
lemma open_append (h : hmac.Computes mac) (plaintext : Bytes) (tag : FixedBytes hmacTagLen) :
    plugin.open hmac (plaintext ++ tag.bytes) =
      .ok (if tag = mac plugin.key plaintext then .ok plaintext
        else .error .verificationFailed) := by
  obtain ⟨s, hs, hkeyed⟩ := plugin.keyedMac_isOk h
  have hlen : (plaintext ++ tag.bytes).length - hmacTagLen = plaintext.length := by
    rw [List.length_append, tag.length_bytes, Nat.add_sub_cancel]
  have hmem : ¬(plaintext ++ tag.bytes).length < hmacTagLen := by
    rw [List.length_append, tag.length_bytes]
    omega
  rw [HmacPlugin.open, if_neg hmem, Checked.sub_eq (by omega), Except.ok_bind, hlen,
    Checked.splitAt_eq (by simp), Except.ok_bind, List.take_left, List.drop_left]
  dsimp only
  rw [hkeyed]
  dsimp only
  by_cases htag : tag = mac plugin.key plaintext
  · rw [if_pos htag, if_pos ((h.verifySlice_update hs _ _).mpr (by rw [htag]))]
    rfl
  · have hverify : ¬hmac.verifySlice (hmac.update s plaintext) tag.bytes = true :=
      fun hv => htag (FixedBytes.ext ((h.verifySlice_update hs _ _).mp hv))
    rw [if_neg htag, if_neg hverify]
    rfl

/-- The plugin opens a payload with its tag behind it. -/
lemma opensExactly (h : hmac.Computes mac) : OpensExactly (plugin.open hmac) hmacTagLen
    fun p c => c = p ++ (mac plugin.key p).bytes := by
  refine .of_split ?_ (fun c => open_of_short) fun c hlong => ?_
  · rintro p c rfl
    rw [List.length_append, FixedBytes.length_bytes]
    exact Nat.le_add_left _ _
  obtain ⟨plaintext, tag, rfl⟩ := FixedBytes.exists_append_eq hlong
  have hparts : ∀ p, plaintext ++ tag.bytes = p ++ (mac plugin.key p).bytes →
      p = plaintext ∧ tag = mac plugin.key plaintext := by
    intro p hp
    obtain ⟨rfl, hbytes⟩ := List.append_inj' hp (by rw [tag.length_bytes, FixedBytes.length_bytes])
    exact ⟨rfl, FixedBytes.ext hbytes⟩
  rw [open_append h]
  by_cases htag : tag = mac plugin.key plaintext
  · refine .inl ⟨plaintext, by rw [if_pos htag], fun p => ⟨fun hp => (hparts p hp).1, ?_⟩⟩
    rintro rfl
    rw [htag]
  · exact .inr ⟨by rw [if_neg htag], fun p hp => htag (hparts p hp).2⟩

end HmacPlugin

/-! ## AES-256-GCM -/

def nonceLen : ℕ := 12

def tagLen : ℕ := 16

/-- A cipher `κ` made from a key, which encrypts and decrypts under a nonce. -/
structure AeadCalls (κ : Type) where
  newFromSlice : Bytes → Option κ
  encrypt : κ → FixedBytes nonceLen → Bytes → Option Bytes
  decrypt : κ → FixedBytes nonceLen → Bytes → Option Bytes

/-- A key has 32 bytes.  The ciphertext is longer than the plaintext by the tag, and decrypts to
the plaintext; nothing else decrypts. -/
structure AeadCalls.Lawful {κ : Type} (aead : AeadCalls κ) : Prop where
  newFromSlice_isSome : ∀ key, (aead.newFromSlice key).isSome ↔ key.length = 32
  length_encrypt : ∀ {k n p e}, aead.encrypt k n p = some e → e.length = p.length + tagLen
  decrypt_encrypt : ∀ {k n p e}, aead.encrypt k n p = some e → aead.decrypt k n e = some p
  encrypt_of_decrypt : ∀ {k n p e}, aead.decrypt k n e = some p → aead.encrypt k n p = some e

structure AesGcmPlugin (κ : Type) where
  cipher : κ

/-- `Nonce::try_from`. -/
def nonceTryFrom (b : Bytes) : Except SecurityError (FixedBytes nonceLen) :=
  if h : b.length = nonceLen then .ok ⟨b, h⟩ else .error (.other "AES-GCM nonce framing error")

section
variable {κ : Type} (aead : AeadCalls κ)

/-- `AesGcmPlugin::new`. -/
def AesGcmPlugin.new (key : Bytes) : Except SecurityError (AesGcmPlugin κ) :=
  match aead.newFromSlice key with
  | some cipher => .ok ⟨cipher⟩
  | none => .error (.other "AES-GCM key must be 32 bytes (AES-256)")

variable (plugin : AesGcmPlugin κ)

/-- The nonce, and behind it the ciphertext.  The random source fills the nonce or fails. -/
def AesGcmPlugin.seal (rng : Except String (FixedBytes nonceLen)) (plaintext : Bytes) :
    Except SecurityError Bytes := do
  let nonceBytes ← rng.mapError fun e => .other ("AES-GCM nonce generation failed: " ++ e)
  let nonce ← nonceTryFrom nonceBytes.bytes
  match aead.encrypt plugin.cipher nonce plaintext with
  | none => .error (.other "AES-GCM encryption failed")
  | some ciphertext => return nonceBytes.bytes ++ ciphertext

/-- What is behind the nonce, decrypted under it. -/
def AesGcmPlugin.open (ciphertext : Bytes) : Checked (Except SecurityError Bytes) :=
  if ciphertext.length < nonceLen + tagLen then return .error .payloadTooShort
  else do
    let (nonceBytes, ct) ← Checked.splitAt ciphertext nonceLen
    match nonceTryFrom nonceBytes with
    | .error e => return .error e
    | .ok nonce =>
      match aead.decrypt plugin.cipher nonce ct with
      | none => return .error .verificationFailed
      | some plaintext => return .ok plaintext

end

lemma nonceTryFrom_bytes (n : FixedBytes nonceLen) : nonceTryFrom n.bytes = .ok n :=
  dif_pos n.length_eq

namespace AesGcmPlugin

variable {κ : Type} {aead : AeadCalls κ} {plugin : AesGcmPlugin κ}

/-- A plugin is made of a key of 32 bytes, and of no other. -/
lemma new_isOk_iff (h : aead.Lawful) (key : Bytes) :
    (∃ plugin, AesGcmPlugin.new aead key = .ok plugin) ↔ key.length = 32 := by
  rw [← h.newFromSlice_isSome key, AesGcmPlugin.new]
  cases aead.newFromSlice key <;> simp

lemma seal_eq_ok_iff {rng : Except String (FixedBytes nonceLen)} {p c : Bytes} :
    plugin.seal aead rng p = .ok c ↔
      ∃ n e, rng = .ok n ∧ aead.encrypt plugin.cipher n p = some e ∧ c = n.bytes ++ e := by
  cases rng with
  | error msg =>
    constructor
    · intro hseal
      cases hseal
    · rintro ⟨n, e, hn, -⟩
      cases hn
  | ok n =>
    have hseal : plugin.seal aead (.ok n) p = match aead.encrypt plugin.cipher n p with
        | none => .error (.other "AES-GCM encryption failed")
        | some ciphertext => .ok (n.bytes ++ ciphertext) := by
      rw [AesGcmPlugin.seal, show (Except.ok n : Except String _).mapError _ = .ok n from rfl,
        Except.ok_bind, nonceTryFrom_bytes, Except.ok_bind]
      rfl
    rw [hseal]
    cases hencrypt : aead.encrypt plugin.cipher n p with
    | none => simp [hencrypt]
    | some e => simp [hencrypt, eq_comm]

lemma open_of_short {c : Bytes} (hshort : c.length < nonceLen + tagLen) :
    plugin.open aead c = .ok (.error .payloadTooShort) := by
  rw [AesGcmPlugin.open, if_pos hshort]
  rfl

/-- The nonce is split off where it was put. -/
lemma open_append (n : FixedBytes nonceLen) {ct : Bytes} (hct : tagLen ≤ ct.length) :
    plugin.open aead (n.bytes ++ ct) = .ok (match aead.decrypt plugin.cipher n ct with
      | none => .error .verificationFailed
      | some p => .ok p) := by
  have htake : (n.bytes ++ ct).take nonceLen = n.bytes := List.take_left' n.length_bytes
  have hdrop : (n.bytes ++ ct).drop nonceLen = ct := List.drop_left' n.length_bytes
  have hlen : (n.bytes ++ ct).length = nonceLen + ct.length := by
    rw [List.length_append, n.length_bytes]
  rw [AesGcmPlugin.open, if_neg (by omega), Checked.splitAt_eq (by omega), Except.ok_bind,
    htake, hdrop]
  dsimp only
  rw [nonceTryFrom_bytes]
  dsimp only
  cases aead.decrypt plugin.cipher n ct <;> rfl

/-- The plugin opens a ciphertext with its nonce before it. -/
lemma opensExactly (h : aead.Lawful) : OpensExactly (plugin.open aead) (nonceLen + tagLen)
    fun p c => ∃ n e, aead.encrypt plugin.cipher n p = some e ∧ c = n.bytes ++ e := by
  refine .of_split ?_ (fun c => open_of_short) fun c hlong => ?_
  · rintro p c ⟨n, e, he, rfl⟩
    rw [List.length_append, n.length_bytes, h.length_encrypt he]
    omega
  obtain ⟨n, ct, rfl⟩ := FixedBytes.exists_eq_append ((Nat.le_add_right _ _).trans hlong)
  rw [List.length_append, n.length_bytes] at hlong
  have hparts : ∀ p, (∃ n' e, aead.encrypt plugin.cipher n' p = some e ∧
      n.bytes ++ ct = n'.bytes ++ e) → aead.decrypt plugin.cipher n ct = some p := by
    rintro p ⟨n', e, he, hc⟩
    obtain ⟨hn, rfl⟩ := List.append_inj hc (by rw [n.length_bytes, n'.length_bytes])
    rw [FixedBytes.ext hn]
    exact h.decrypt_encrypt he
  rw [open_append n (by omega)]
  cases hdecrypt : aead.decrypt plugin.cipher n ct with
  | some plaintext =>
    refine .inl ⟨plaintext, rfl, fun p => ⟨fun hp => ?_, ?_⟩⟩
    · exact Option.some.inj ((hparts p hp).symm.trans hdecrypt)
    · rintro rfl
      exact ⟨n, ct, h.encrypt_of_decrypt hdecrypt, rfl⟩
  | none =>
    refine .inr ⟨rfl, fun p hp => ?_⟩
    rw [hparts p hp] at hdecrypt
    cases hdecrypt

end AesGcmPlugin

/-! ## Both plugins -/

/-- **Sealed payloads.**  What a plugin seals it opens to the payload, and what it opens is the
payload with the tag behind it, or a ciphertext of the payload with its nonce before it. -/
theorem sealed_framing {σ κ : Type} {hmac : HmacCalls σ}
    {mac : Bytes → Bytes → FixedBytes hmacTagLen} (hhmac : hmac.Computes mac)
    {aead : AeadCalls κ} (haead : aead.Lawful) :
    (∀ plugin : HmacPlugin,
      (∀ p, ∃ c, plugin.seal hmac p = .ok c ∧ plugin.open hmac c = .ok (.ok p)) ∧
      OpensExactly (plugin.open hmac) 32 fun p c => c = p ++ (mac plugin.key p).bytes) ∧
    ∀ plugin : AesGcmPlugin κ,
      (∀ n p e, aead.encrypt plugin.cipher n p = some e →
        plugin.seal aead (.ok n) p = .ok (n.bytes ++ e)) ∧
      (∀ rng p c, plugin.seal aead rng p = .ok c → plugin.open aead c = .ok (.ok p)) ∧
      OpensExactly (plugin.open aead) 28 fun p c =>
        ∃ n e, aead.encrypt plugin.cipher n p = some e ∧ c = n.bytes ++ e := by
  refine ⟨fun plugin => ?_, fun plugin => ?_⟩
  · have hopens : OpensExactly (plugin.open hmac) 32 _ := HmacPlugin.opensExactly hhmac
    exact ⟨fun p => ⟨_, HmacPlugin.seal_eq hhmac p, (hopens.ok_iff _ p).mpr rfl⟩, hopens⟩
  · have hopens : OpensExactly (plugin.open aead) 28 _ := AesGcmPlugin.opensExactly haead
    refine ⟨fun n p e he => AesGcmPlugin.seal_eq_ok_iff.mpr ⟨n, e, rfl, he, rfl⟩, ?_, hopens⟩
    intro rng p c hseal
    obtain ⟨n, e, -, he, hc⟩ := AesGcmPlugin.seal_eq_ok_iff.mp hseal
    exact (hopens.ok_iff c p).mpr ⟨n, e, he, hc⟩

/-- The calls that compute a given function. -/
def HmacCalls.ofMac (mac : Bytes → Bytes → FixedBytes hmacTagLen) : HmacCalls (Bytes × Bytes) where
  newFromSlice key := .ok (key, [])
  update s m := (s.1, s.2 ++ m)
  finalize s := mac s.1 s.2
  verifySlice s tag := decide (tag = (mac s.1 s.2).bytes)

lemma HmacCalls.ofMac_computes (mac : Bytes → Bytes → FixedBytes hmacTagLen) :
    (HmacCalls.ofMac mac).Computes mac where
  newFromSlice_isOk key := ⟨_, rfl⟩
  finalize_update := by
    rintro key s ⟨⟩ m
    rfl
  verifySlice_update := by
    rintro key s ⟨⟩ m tag
    exact decide_eq_true_iff

/-- Each byte under the byte of a stream at its place. -/
def mask (stream : ℕ → UInt8) (p : Bytes) : Bytes := p.mapIdx fun i b => b ^^^ stream i

@[simp] lemma length_mask (stream : ℕ → UInt8) (p : Bytes) : (mask stream p).length = p.length :=
  List.length_mapIdx

lemma mask_mask (stream : ℕ → UInt8) (p : Bytes) : mask stream (mask stream p) = p := by
  refine List.ext_getElem (by simp) fun i hi hi' => ?_
  simp only [mask, List.getElem_mapIdx]
  rw [UInt8.xor_assoc, UInt8.xor_self, UInt8.xor_zero]

/-- The mode of the algorithm: a stream masks the plaintext, and behind it is a tag of what is
masked. -/
def AeadCalls.counterMode (stream : FixedBytes 32 → FixedBytes nonceLen → ℕ → UInt8)
    (tag : FixedBytes 32 → FixedBytes nonceLen → Bytes → FixedBytes tagLen) :
    AeadCalls (FixedBytes 32) where
  newFromSlice key := if h : key.length = 32 then some ⟨key, h⟩ else none
  encrypt k n p := some (mask (stream k n) p ++ (tag k n (mask (stream k n) p)).bytes)
  decrypt k n c :=
    let masked := c.take (c.length - tagLen)
    if c = masked ++ (tag k n masked).bytes then some (mask (stream k n) masked) else none

lemma AeadCalls.counterMode_lawful (stream : FixedBytes 32 → FixedBytes nonceLen → ℕ → UInt8)
    (tag : FixedBytes 32 → FixedBytes nonceLen → Bytes → FixedBytes tagLen) :
    (AeadCalls.counterMode stream tag).Lawful where
  newFromSlice_isSome key := by
    rw [counterMode]
    dsimp only
    split_ifs with h <;> simp [h]
  length_encrypt := by
    rintro k n p e ⟨⟩
    rw [List.length_append, length_mask, FixedBytes.length_bytes]
  decrypt_encrypt := by
    rintro k n p e ⟨⟩
    have htake : (mask (stream k n) p ++ (tag k n (mask (stream k n) p)).bytes).take
        ((mask (stream k n) p ++ (tag k n (mask (stream k n) p)).bytes).length - tagLen) =
        mask (stream k n) p := by
      rw [List.length_append, FixedBytes.length_bytes, Nat.add_sub_cancel, List.take_left]
    rw [counterMode]
    dsimp only
    rw [htake, if_pos rfl, mask_mask]
  encrypt_of_decrypt := by
    intro k n p e h
    rw [counterMode] at h ⊢
    dsimp only at h ⊢
    split_ifs at h with he
    cases h
    rw [mask_mask, ← he]

/-- `hello world`. -/
def helloWorld : Bytes := [0x68, 0x65, 0x6c, 0x6c, 0x6f, 0x20, 0x77, 0x6f, 0x72, 0x6c, 0x64]

/-- HMAC-SHA-256 of `hello world` under the key of 32 twos. -/
def helloWorldMac (key m : Bytes) : FixedBytes hmacTagLen :=
  if key = List.replicate 32 2 ∧ m = helloWorld then
    ⟨[0x7e, 0x49, 0x7c, 0x12, 0xe3, 0x44, 0x66, 0x69, 0xc1, 0x44, 0x8b, 0x34, 0x10, 0x7e, 0x2a,
      0x46, 0x28, 0xfb, 0x02, 0xea, 0xb5, 0x12, 0x2b, 0x32, 0xf0, 0xf2, 0x5c, 0xa3, 0x42, 0xb8,
      0xb7, 0xe8], rfl⟩
  else FixedBytes.zero _

/-- AES-256-GCM of `hello world` under that key and the nonce of the numbers below twelve. -/
def helloWorldAead : AeadCalls (FixedBytes 32) :=
  .counterMode
    (fun _ _ i => [0x49, 0x08, 0xe2, 0xfa, 0xd1, 0x49, 0x8c, 0x44, 0x2b, 0x88, 0x40].getD i 0)
    fun _ _ masked =>
      if masked = [0x21, 0x6d, 0x8e, 0x96, 0xbe, 0x69, 0xfb, 0x2b, 0x59, 0xe4, 0x24] then
        ⟨[0x88, 0x24, 0xd8, 0xbe, 0x2f, 0xd1, 0x27, 0x28, 0x15, 0x6e, 0x26, 0xcd, 0x00, 0xb0,
          0xeb, 0x38], rfl⟩
      else FixedBytes.zero _

theorem sealed_framing_helloWorld :
    (HmacPlugin.mk (List.replicate 32 2)).open (.ofMac helloWorldMac)
      [0x68, 0x65, 0x6c, 0x6c, 0x6f, 0x20, 0x77, 0x6f, 0x72, 0x6c, 0x64, 0x7e, 0x49, 0x7c, 0x12,
        0xe3, 0x44, 0x66, 0x69, 0xc1, 0x44, 0x8b, 0x34, 0x10, 0x7e, 0x2a, 0x46, 0x28, 0xfb, 0x02,
        0xea, 0xb5, 0x12, 0x2b, 0x32, 0xf0, 0xf2, 0x5c, 0xa3, 0x42, 0xb8, 0xb7, 0xe8] =
      .ok (.ok helloWorld) ∧
    (AesGcmPlugin.mk ⟨List.replicate 32 2, rfl⟩).open helloWorldAead
      [0x00, 0x01, 0x02, 0x03, 0x04, 0x05, 0x06, 0x07, 0x08, 0x09, 0x0a, 0x0b, 0x21, 0x6d, 0x8e,
        0x96, 0xbe, 0x69, 0xfb, 0x2b, 0x59, 0xe4, 0x24, 0x88, 0x24, 0xd8, 0xbe, 0x2f, 0xd1, 0x27,
        0x28, 0x15, 0x6e, 0x26, 0xcd, 0x00, 0xb0, 0xeb, 0x38] =
      .ok (.ok helloWorld) := by
  have h := sealed_framing (HmacCalls.ofMac_computes helloWorldMac)
    (AeadCalls.counterMode_lawful _ _ : helloWorldAead.Lawful)
  refine ⟨((h.1 _).2.ok_iff _ _).mpr (by decide), ((h.2 _).2.2.ok_iff _ _).mpr ?_⟩
  exact ⟨⟨[0x00, 0x01, 0x02, 0x03, 0x04, 0x05, 0x06, 0x07, 0x08, 0x09, 0x0a, 0x0b], rfl⟩,
    _, rfl, by decide⟩

end RustDds
