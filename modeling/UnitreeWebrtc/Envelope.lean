/-
The AES-256 envelope of the signalling messages.

The block cipher and base64 are other crates': they enter as functions, and what
is assumed of them is that decryption inverts encryption and decoding inverts
encoding.  What the repository adds is the mode and the padding: one block at a
time, and PKCS #7, where a text that fills its blocks gets one more.

* `Blocks.mapBlocks` — one block at a time, and how two passes compose;
* `pkcs7Unpad_eq` — the paddings that are accepted are those that are written;
* `aes_ecb_envelope` — so decryption accepts what encryption produces, and
  nothing else.
-/
import UnitreeWebrtc.Ingress

/-! ### A map over the blocks of a byte string -/

namespace Blocks

/-- Blocks of one size. -/
abbrev Block (α : Type) (size : ℕ) := {xs : List α // xs.length = size}

variable {α : Type} {size : ℕ}

instance [Finite α] : Finite (Block α size) := inferInstanceAs (Finite (List.Vector α size))

/-- The first `n` blocks are replaced, what comes after them stays. -/
def mapBlocks (f : Block α size → Block α size) : ℕ → List α → List α
  | 0, xs => xs
  | n + 1, xs =>
    if h : (xs.take size).length = size then
      (f ⟨xs.take size, h⟩).1 ++ mapBlocks f n (xs.drop size)
    else xs

@[simp] theorem length_mapBlocks (f : Block α size → Block α size) (n : ℕ) (xs : List α) :
    (mapBlocks f n xs).length = xs.length := by
  induction n generalizing xs with
  | zero => rfl
  | succ n ih =>
    rw [mapBlocks]
    split
    next h =>
      rw [List.length_append, ih, (f _).2, List.length_drop]
      rw [List.length_take] at h
      omega
    next => rfl

/-- A second pass that undoes the first. -/
theorem mapBlocks_mapBlocks {f g : Block α size → Block α size} (h : Function.LeftInverse g f)
    (n : ℕ) (xs : List α) : mapBlocks g n (mapBlocks f n xs) = xs := by
  induction n generalizing xs with
  | zero => rfl
  | succ n ih =>
    by_cases hsize : (xs.take size).length = size
    · have hblock := (f ⟨xs.take size, hsize⟩).2
      rw [mapBlocks, mapBlocks, dif_pos hsize]
      rw [dif_pos (by rw [List.take_left' hblock]; exact hblock), List.drop_left' hblock, ih]
      have hfirst : (⟨((f ⟨xs.take size, hsize⟩).1 ++ mapBlocks f n (xs.drop size)).take size,
          by rw [List.take_left' hblock]; exact hblock⟩ : Block α size) =
            f ⟨xs.take size, hsize⟩ :=
        Subtype.ext (List.take_left' hblock)
      rw [hfirst, h]
      exact List.take_append_drop size xs
    · rw [mapBlocks, mapBlocks, dif_neg hsize, dif_neg hsize]

/-- On finitely many blocks an inverse on one side is one on the other. -/
theorem rightInverse_of_leftInverse [Finite α] {f g : Block α size → Block α size}
    (h : Function.LeftInverse g f) : Function.LeftInverse f g :=
  h.rightInverse_of_surjective (Finite.injective_iff_surjective.mp h.injective)

end Blocks

namespace Unitree

def aesBlockSize : ℕ := 16

abbrev AesBlock := Blocks.Block UInt8 aesBlockSize

/-- The crates the envelope is made with: `Aes256` by key, the standard engine of
`base64`, and the message of a `FromUtf8Error`. -/
structure Crypto where
  encryptBlock : List UInt8 → AesBlock → AesBlock
  decryptBlock : List UInt8 → AesBlock → AesBlock
  encode : List UInt8 → String
  decode : String → PortResult (List UInt8)
  utf8Error : List UInt8 → String

/-- `String::from_utf8`. -/
def fromUtf8 (bytes : List UInt8) : Option String := String.fromUTF8? ⟨bytes.toArray⟩

def validateAes256Key (key : String) : PortResult (List UInt8) :=
  let keyBytes := asBytes key
  if keyBytes.length ≠ 32 then
    .error ("AES-256 key must be 32 bytes, got " ++ toString keyBytes.length)
  else .ok keyBytes

def pkcs7Pad (data : List UInt8) : List UInt8 :=
  let padding := aesBlockSize - data.length % aesBlockSize
  data ++ List.replicate padding (UInt8.ofNat padding)

def pkcs7Unpad (data : List UInt8) : PortResult (List UInt8) :=
  match data.getLast? with
  | none => .error "Encrypted payload is empty"
  | some last =>
    let padding := last.toNat
    if padding = 0 ∨ padding > aesBlockSize ∨ padding > data.length then
      .error "Invalid PKCS7 padding length"
    else if (data.drop (data.length - padding)).any fun byte => byte.toNat ≠ padding then
      .error "Invalid PKCS7 padding bytes"
    else .ok (data.take (data.length - padding))

/-- The same with its indices checked: `none` is a subtraction below zero or a
slice out of range. -/
def pkcs7UnpadChecked (data : List UInt8) : Option (PortResult (List UInt8)) :=
  match data.getLast? with
  | none => some (.error "Encrypted payload is empty")
  | some last =>
    let padding := last.toNat
    if padding = 0 ∨ padding > aesBlockSize ∨ padding > data.length then
      some (.error "Invalid PKCS7 padding length")
    else if padding > data.length then none
    else
      match slice data (data.length - padding) data.length,
        slice data 0 (data.length - padding) with
      | some paddingBytes, some plain =>
        if paddingBytes.any fun byte => byte.toNat ≠ padding then
          some (.error "Invalid PKCS7 padding bytes")
        else some (.ok plain)
      | _, _ => none

/-- `chunks_exact_mut(AES_BLOCK_SIZE)`, with one block after the other replaced. -/
def chunksExactMut (f : AesBlock → AesBlock) (bytes : List UInt8) : List UInt8 :=
  Blocks.mapBlocks f (bytes.length / aesBlockSize) bytes

def aesEcbEncrypt (lib : Crypto) (plainText key : String) : PortResult String :=
  match validateAes256Key key with
  | .error e => .error e
  | .ok keyBytes =>
    .ok (lib.encode (chunksExactMut (lib.encryptBlock keyBytes) (pkcs7Pad (asBytes plainText))))

def aesEcbDecrypt (lib : Crypto) (encodedCipherText key : String) : PortResult String :=
  match validateAes256Key key with
  | .error e => .error e
  | .ok keyBytes =>
    match lib.decode encodedCipherText with
    | .error e => .error e
    | .ok encryptedBytes =>
      if encryptedBytes.length % aesBlockSize ≠ 0 then
        .error "AES ECB payload length must be multiple of 16"
      else
        match pkcs7Unpad (chunksExactMut (lib.decryptBlock keyBytes) encryptedBytes) with
        | .error e => .error e
        | .ok plainBytes =>
          match fromUtf8 plainBytes with
          | none => .error (lib.utf8Error plainBytes)
          | some text => .ok text

/-! ### Padding -/

theorem length_pkcs7Pad (data : List UInt8) : (pkcs7Pad data).length % aesBlockSize = 0 := by
  rw [pkcs7Pad, List.length_append, List.length_replicate, aesBlockSize]
  omega

/-- The paddings that are accepted are those that are written. -/
theorem pkcs7Unpad_eq {data plain : List UInt8} (h : data.length % aesBlockSize = 0) :
    pkcs7Unpad data = .ok plain ↔ data = pkcs7Pad plain := by
  constructor
  · intro hok
    rw [pkcs7Unpad] at hok
    split at hok
    · exact absurd hok (by simp)
    next last hlast =>
      dsimp only at hok
      split at hok
      · exact absurd hok (by simp)
      next hlength =>
        split at hok
        · exact absurd hok (by simp)
        next hbytes =>
          rw [Except.ok.injEq] at hok
          have htail : data.drop (data.length - last.toNat) =
              List.replicate last.toNat (UInt8.ofNat last.toNat) := by
            refine List.eq_replicate_iff.mpr ⟨by rw [List.length_drop]; omega, fun byte hbyte => ?_⟩
            by_contra hne
            refine hbytes (List.any_eq_true.mpr ⟨byte, hbyte, ?_⟩)
            rw [decide_eq_true_eq]
            intro heq
            exact hne (by rw [← heq, UInt8.ofNat_toNat])
          -- the length of the text decides the padding
          have hpadding : aesBlockSize - plain.length % aesBlockSize = last.toNat := by
            rw [← hok, List.length_take]
            rw [aesBlockSize] at h hlength ⊢
            omega
          rw [pkcs7Pad, hpadding, ← htail, ← hok, List.take_append_drop]
  · rintro rfl
    obtain ⟨padding, hpadding, hpos, hle⟩ : ∃ padding,
        aesBlockSize - plain.length % aesBlockSize = padding ∧ 0 < padding ∧ padding ≤ 16 :=
      ⟨_, rfl, by rw [aesBlockSize]; omega, by rw [aesBlockSize]; omega⟩
    have hpad : pkcs7Pad plain = plain ++ List.replicate padding (UInt8.ofNat padding) := by
      rw [pkcs7Pad, hpadding]
    have hbyte : (UInt8.ofNat padding).toNat = padding := by
      rw [UInt8.toNat_ofNat', Nat.mod_eq_of_lt (by omega)]
    have hlast : (pkcs7Pad plain).getLast? = some (UInt8.ofNat padding) := by
      rw [hpad, List.getLast?_append_of_ne_nil _ (by simp; omega), List.getLast?_replicate,
        if_neg (by omega)]
    have hlength : (pkcs7Pad plain).length = plain.length + padding := by
      rw [hpad, List.length_append, List.length_replicate]
    simp only [pkcs7Unpad, hlast, hbyte]
    rw [if_neg (by rw [hlength, aesBlockSize]; omega), hlength, Nat.add_sub_cancel, hpad,
      List.drop_left' rfl, List.take_left' rfl, if_neg]
    simp [hbyte]

/-! ### Texts -/

theorem fromUtf8_eq {bytes : List UInt8} {text : String} :
    fromUtf8 bytes = some text ↔ bytes = asBytes text := by
  rw [fromUtf8, String.fromUTF8?, asBytes]
  constructor
  · intro h
    split at h
    · rw [← Option.some_inj.mp h]
      rfl
    · exact absurd h (by simp)
  · rintro rfl
    exact dif_pos text.isValidUTF8

theorem validateAes256Key_eq {key : String} {keyBytes : List UInt8} :
    validateAes256Key key = .ok keyBytes ↔ (asBytes key).length = 32 ∧ keyBytes = asBytes key := by
  rw [validateAes256Key]
  split
  next h => simp [h]
  next h => simp [not_not.mp h, eq_comm]

theorem length_chunksExactMut (f : AesBlock → AesBlock) (bytes : List UInt8) :
    (chunksExactMut f bytes).length = bytes.length := Blocks.length_mapBlocks _ _ _

theorem chunksExactMut_inverse {f g : AesBlock → AesBlock} (h : Function.LeftInverse g f)
    (bytes : List UInt8) : chunksExactMut g (chunksExactMut f bytes) = bytes := by
  rw [chunksExactMut, length_chunksExactMut, chunksExactMut]
  exact Blocks.mapBlocks_mapBlocks h _ bytes

/-- No index of `pkcs7_unpad` is out of range. -/
theorem pkcs7UnpadChecked_eq (data : List UInt8) :
    pkcs7UnpadChecked data = some (pkcs7Unpad data) := by
  rw [pkcs7UnpadChecked, pkcs7Unpad]
  split
  · rfl
  next last _ =>
    dsimp only
    split
    · rfl
    next hlength =>
      rw [if_neg (by omega), slice, if_pos (by omega), slice, if_pos (by omega)]
      have htail : (data.drop (data.length - last.toNat)).take
          (data.length - (data.length - last.toNat)) = data.drop (data.length - last.toNat) :=
        List.take_of_length_le (by rw [List.length_drop])
      rw [htail, Nat.sub_zero, List.drop_zero]
      exact (apply_ite some _ _ _).symm

section

variable {lib : Crypto}

/-- What is assumed of the block cipher. -/
def Crypto.Inverts (lib : Crypto) : Prop :=
  ∀ key : List UInt8, key.length = 32 →
    Function.LeftInverse (lib.decryptBlock key) (lib.encryptBlock key)

/-- What is assumed of base64. -/
def Crypto.Decodes (lib : Crypto) : Prop := ∀ bytes, lib.decode (lib.encode bytes) = .ok bytes

theorem aesEcbEncrypt_eq {key plain cipher : String} :
    aesEcbEncrypt lib plain key = .ok cipher ↔ (asBytes key).length = 32 ∧
      cipher = lib.encode
        (chunksExactMut (lib.encryptBlock (asBytes key)) (pkcs7Pad (asBytes plain))) := by
  rw [aesEcbEncrypt]
  split
  next e he =>
    simp only [reduceCtorEq, false_iff]
    rintro ⟨hkey, -⟩
    exact absurd (he.symm.trans (validateAes256Key_eq.mpr ⟨hkey, rfl⟩)) (by simp)
  next keyBytes hok =>
    obtain ⟨hkey, rfl⟩ := validateAes256Key_eq.mp hok
    simp [hkey, eq_comm]

theorem aesEcbDecrypt_eq {key plain cipher : String} :
    aesEcbDecrypt lib cipher key = .ok plain ↔ (asBytes key).length = 32 ∧
      ∃ c, lib.decode cipher = .ok c ∧ c.length % aesBlockSize = 0 ∧
        chunksExactMut (lib.decryptBlock (asBytes key)) c = pkcs7Pad (asBytes plain) := by
  rw [aesEcbDecrypt]
  split
  next e he =>
    simp only [reduceCtorEq, false_iff]
    rintro ⟨hkey, -⟩
    exact absurd (he.symm.trans (validateAes256Key_eq.mpr ⟨hkey, rfl⟩)) (by simp)
  next keyBytes hok =>
    obtain ⟨hkey, rfl⟩ := validateAes256Key_eq.mp hok
    split
    next e he => simp [he]
    next c hc =>
      simp only [hkey, hc, Except.ok.injEq, true_and, exists_eq_left']
      split
      next hlength => simp [hlength]
      next hlength =>
        have hblocks : (chunksExactMut (lib.decryptBlock (asBytes key)) c).length %
            aesBlockSize = 0 := by
          rw [length_chunksExactMut]
          exact not_not.mp hlength
        rw [and_iff_right (not_not.mp hlength), ← pkcs7Unpad_eq hblocks]
        split
        next e he => simp [he]
        next bytes hbytes =>
          rw [hbytes, Except.ok.injEq, ← fromUtf8_eq]
          split
          next hnone => simp [hnone]
          next text hsome => simp [hsome]

/-- The AES-ECB envelope: encryption is undone by decryption, and decryption
accepts exactly what encryption produces.  Every other input is an error, and no
slice of the padding is out of range. -/
theorem aes_ecb_envelope (lib : Crypto) (haes : lib.Inverts) (hbase64 : lib.Decodes) :
    (∀ key plain, (asBytes key).length = 32 → ∃ cipher,
      aesEcbEncrypt lib plain key = .ok cipher ∧ aesEcbDecrypt lib cipher key = .ok plain) ∧
    (∀ key cipher plain, aesEcbDecrypt lib cipher key = .ok plain ↔
      (asBytes key).length = 32 ∧ ∃ c cipher', lib.decode cipher = .ok c ∧
        aesEcbEncrypt lib plain key = .ok cipher' ∧ lib.decode cipher' = .ok c) ∧
    (∀ key text, (asBytes key).length ≠ 32 →
      (∃ e, aesEcbEncrypt lib text key = .error e) ∧ ∃ e, aesEcbDecrypt lib text key = .error e) ∧
    (∀ key cipher c, lib.decode cipher = .ok c →
      (c.length % 16 ≠ 0 ∨ ∀ plain, chunksExactMut (lib.decryptBlock (asBytes key)) c ≠
        pkcs7Pad (asBytes plain)) → ∃ e, aesEcbDecrypt lib cipher key = .error e) ∧
    ∀ data, pkcs7UnpadChecked data = some (pkcs7Unpad data) := by
  have haccept : ∀ key cipher plain, aesEcbDecrypt lib cipher key = .ok plain ↔
      (asBytes key).length = 32 ∧ ∃ c cipher', lib.decode cipher = .ok c ∧
        aesEcbEncrypt lib plain key = .ok cipher' ∧ lib.decode cipher' = .ok c := by
    intro key cipher plain
    rw [aesEcbDecrypt_eq]
    refine and_congr_right fun hkey => exists_congr fun c => ?_
    constructor
    · rintro ⟨hc, -, hplain⟩
      -- decryption is also a right inverse: there are finitely many blocks
      have hback := chunksExactMut_inverse (Blocks.rightInverse_of_leftInverse (haes _ hkey)) c
      rw [hplain] at hback
      refine ⟨_, hc, aesEcbEncrypt_eq.mpr ⟨hkey, rfl⟩, ?_⟩
      rw [hback]
      exact hbase64 c
    · rintro ⟨cipher', hc, hencrypt, hc'⟩
      obtain ⟨-, rfl⟩ := aesEcbEncrypt_eq.mp hencrypt
      rw [hbase64, Except.ok.injEq] at hc'
      subst hc'
      refine ⟨hc, ?_, chunksExactMut_inverse (haes _ hkey) _⟩
      rw [length_chunksExactMut]
      exact length_pkcs7Pad _
  have herror : ∀ {r : PortResult String}, (∀ plain, r ≠ .ok plain) → ∃ e, r = .error e := by
    intro r hr
    cases r with
    | error e => exact ⟨e, rfl⟩
    | ok plain => exact absurd rfl (hr plain)
  refine ⟨fun key plain hkey => ?_, haccept, fun key text hkey => ⟨?_, ?_⟩, ?_,
    pkcs7UnpadChecked_eq⟩
  · exact ⟨_, aesEcbEncrypt_eq.mpr ⟨hkey, rfl⟩, (haccept _ _ _).mpr
      ⟨hkey, _, _, hbase64 _, aesEcbEncrypt_eq.mpr ⟨hkey, rfl⟩, hbase64 _⟩⟩
  · exact herror fun plain h => hkey (aesEcbEncrypt_eq.mp h).1
  · exact herror fun plain h => hkey (aesEcbDecrypt_eq.mp h).1
  · intro key cipher c hc hbad
    refine herror fun plain h => ?_
    obtain ⟨-, c', hc', hlength, hpad⟩ := aesEcbDecrypt_eq.mp h
    rw [hc, Except.ok.injEq] at hc'
    subst hc'
    exact hbad.elim (fun hne => hne hlength) fun hne => hne plain hpad

end

/-! ### One envelope -/

/-- The bytes of "hello world", padded. -/
def helloBlock : AesBlock :=
  ⟨[104, 101, 108, 108, 111, 32, 119, 111, 114, 108, 100, 5, 5, 5, 5, 5], rfl⟩

/-- The same block under the key 0123456789abcdef0123456789abcdef. -/
def helloCipher : AesBlock :=
  ⟨[41, 171, 92, 116, 248, 187, 235, 171, 24, 64, 246, 142, 248, 110, 100, 92], rfl⟩

/-- A text with one character for each byte. -/
def latin1 (bytes : List UInt8) : String :=
  String.ofList (bytes.map fun byte => Char.ofNat byte.toNat)

def ofLatin1 (text : String) : List UInt8 := text.toList.map fun c => UInt8.ofNat c.toNat

theorem ofLatin1_latin1 (bytes : List UInt8) : ofLatin1 (latin1 bytes) = bytes := by
  rw [ofLatin1, latin1, String.toList_ofList, List.map_map]
  refine (List.map_congr_left fun byte _ => ?_).trans (List.map_id bytes)
  have hbyte : byte.toNat < 256 := byte.toNat_lt
  show UInt8.ofNat (Char.ofNat byte.toNat).toNat = byte
  rw [Char.toNat_ofNat, if_pos (Or.inl (by omega)), UInt8.ofNat_toNat]

/-- A permutation of the blocks and one of the texts that agree with AES-256 and
with base64 on this envelope. -/
def helloCrypto : Crypto where
  encryptBlock _ := Equiv.swap helloBlock helloCipher
  decryptBlock _ := Equiv.swap helloBlock helloCipher
  encode bytes := latin1 (Equiv.swap helloCipher.1 (ofLatin1 "KatcdPi766sYQPaO+G5kXA==") bytes)
  decode text :=
    .ok (Equiv.swap helloCipher.1 (ofLatin1 "KatcdPi766sYQPaO+G5kXA==") (ofLatin1 text))
  utf8Error _ := ""

theorem helloCrypto_inverts : helloCrypto.Inverts :=
  fun _ _ block => Equiv.swap_apply_self helloBlock helloCipher block

theorem helloCrypto_decodes : helloCrypto.Decodes := by
  intro bytes
  show Except.ok (Equiv.swap helloCipher.1 _ (ofLatin1 (latin1 _))) = Except.ok bytes
  rw [ofLatin1_latin1]
  exact congrArg Except.ok (Equiv.swap_apply_self _ _ bytes)

/-- The envelope of the text "hello world". -/
theorem aes_ecb_envelope_hello :
    aesEcbEncrypt helloCrypto "hello world" "0123456789abcdef0123456789abcdef" =
        .ok "KatcdPi766sYQPaO+G5kXA==" ∧
      aesEcbDecrypt helloCrypto "KatcdPi766sYQPaO+G5kXA==" "0123456789abcdef0123456789abcdef" =
        .ok "hello world" := by
  have hencrypt : aesEcbEncrypt helloCrypto "hello world" "0123456789abcdef0123456789abcdef" =
      .ok "KatcdPi766sYQPaO+G5kXA==" := by decide +kernel
  obtain ⟨cipher, hcipher, hdecrypt⟩ :=
    (aes_ecb_envelope helloCrypto helloCrypto_inverts helloCrypto_decodes).1
      "0123456789abcdef0123456789abcdef" "hello world" (by decide +kernel)
  rw [hencrypt, Except.ok.injEq] at hcipher
  rw [hcipher]
  exact ⟨hcipher ▸ hencrypt, hdecrypt⟩

end Unitree
