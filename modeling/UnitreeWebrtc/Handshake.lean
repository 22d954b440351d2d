/-
A robot that keeps to the signalling protocol is understood.

The robot is the other side of `sendSdpLocalNewWithAesKey`: it wraps its RSA key, tells where
the offer shall go by five letters, opens what comes there with its private key, and answers
under the key that was inside.  It may cut its bodies as it likes, and nothing is assumed of
what the client draws.

* `Tells.decode` — the three ways to tell `data1`, where encrypted texts are cut into
  ciphertext, nonce and tag;
* `Robot.data1_read` — the wrapper is taken off, and the letters are read as digits;
* `Robot.opens_sealed` — what the client seals, the robot opens;
* `robot_is_understood` — so the exchange ends with the answer to the offer.
-/
import UnitreeWebrtc.Signaling

namespace Unitree

/-! ### Characters and bytes -/

theorem splitAtByte_append (cs rest : List Char) :
    splitAtByte (byteSize cs) (cs ++ rest) = some (cs, rest) := by
  induction cs with
  | nil => cases rest <;> rfl
  | cons c cs ih =>
    have hpos := c.utf8Size_pos
    have hsize : byteSize (c :: cs) = c.utf8Size + byteSize cs := List.sum_cons
    obtain ⟨n, hn⟩ : ∃ n, c.utf8Size + byteSize cs = n + 1 := ⟨_, (Nat.succ_pred (by omega)).symm⟩
    rw [hsize, hn, List.cons_append, splitAtByte, if_pos (by omega),
      show n + 1 - c.utf8Size = byteSize cs by omega, ih]
    rfl

/-! ### Chunks -/

theorem chunks_flatten {size : ℕ} (hsize : size ≠ 0) (bytes : List UInt8) :
    (chunks size bytes).flatten = bytes := by
  fun_induction chunks size bytes with
  | case1 bytes h =>
    rw [(h.resolve_left hsize)]
    rfl
  | case2 bytes h ih => rw [List.flatten_cons, ih, List.take_append_drop]

theorem length_of_mem_chunks {size : ℕ} {bytes chunk : List UInt8}
    (h : chunk ∈ chunks size bytes) : chunk.length ≤ size := by
  fun_induction chunks size bytes with
  | case1 bytes _ => exact absurd h (by simp)
  | case2 bytes _ ih =>
    rcases List.mem_cons.mp h with rfl | h
    · exact List.length_take_le size bytes
    · exact ih h

/-- Blocks of one size are found again. -/
theorem chunks_blocks {size : ℕ} (hsize : size ≠ 0) (blocks : List (List UInt8))
    (hblocks : ∀ block ∈ blocks, block.length = size) : chunks size blocks.flatten = blocks := by
  induction blocks with
  | nil => rw [List.flatten_nil, chunks, dif_pos (.inr rfl)]
  | cons block rest ih =>
    obtain ⟨hblock, hrest⟩ := List.forall_mem_cons.mp hblocks
    have hne : (block :: rest).flatten ≠ [] := by
      intro hnil
      rw [List.flatten_cons, List.append_eq_nil_iff] at hnil
      exact hsize (hblock ▸ congrArg List.length hnil.1)
    rw [chunks, dif_neg (not_or.mpr ⟨hsize, hne⟩), List.flatten_cons, List.take_left' hblock,
      List.drop_left' hblock, ih hrest]

/-! ### Keys in hexadecimal -/

theorem trim_trim (text : String) : trim (trim text) = trim text := by
  rw [trim, trim, String.toList_ofList]
  set inner := text.toList.dropWhile isWhitespace with hinner
  have hback : (inner.rdropWhile isWhitespace).dropWhile isWhitespace =
      inner.rdropWhile isWhitespace := by
    rcases hcut : inner.rdropWhile isWhitespace with _ | ⟨c, rest⟩
    · rfl
    have hfirst : inner.head? = some c := by
      obtain ⟨tail, htail⟩ := List.rdropWhile_prefix isWhitespace inner
      rw [← htail, hcut]
      rfl
    have hnot : isWhitespace c = false := by
      have hhead := List.head?_dropWhile_not isWhitespace text.toList
      rw [← hinner, hfirst] at hhead
      simpa using hhead
    rw [List.dropWhile_cons_of_neg (by simp [hnot])]
  rw [hback, List.rdropWhile_idempotent]

theorem validateAes128HexKey_trim (lib : SignalingCrates) (key : String) :
    validateAes128HexKey lib (trim key) = validateAes128HexKey lib key := by
  rw [validateAes128HexKey, validateAes128HexKey, trim_trim]

theorem trim_ne_empty {lib : SignalingCrates} {text : String} {key : List UInt8}
    (h : validateAes128HexKey lib text = .ok key) : trim text ≠ "" := by
  intro hempty
  rw [validateAes128HexKey, hempty] at h
  exact absurd h (by simp)

/-! ### How `data1` is told -/

section

variable {lib : SignalingCrates}

/-- A JSON value that tells `data1`: in plain text, or encrypted with the shared key, or with
the one of the device. -/
inductive Tells (lib : SignalingCrates) (aes128Key : Option String) (data1 : String) : Value → Prop
  | plain (entries : Entries) (h₁ : entries.lookup "data1" = some (.string data1))
      (h₂ : entries.lookup "data2" = none ∨
        entries.lookup "data2" = some (.number (.ofI64 ⟨0, by decide⟩))) :
      Tells lib aes128Key data1 (.object entries)
  | shared (entries : Entries) (ciphertext nonce tag : List UInt8) (hnonce : nonce.length = 12)
      (htag : tag.length = 16)
      (hgcm : lib.gcmDecrypt conNotifyKey nonce (ciphertext ++ tag) = .ok (asBytes data1))
      (h₁ : entries.lookup "data1" = some (.string (lib.encode (ciphertext ++ nonce ++ tag))))
      (h₂ : entries.lookup "data2" = some (.number (.ofI64 ⟨2, by decide⟩))) :
      Tells lib aes128Key data1 (.object entries)
  | device (entries : Entries) (text : String) (key ciphertext nonce tag : List UInt8)
      (htext : aes128Key = some text) (hkey : validateAes128HexKey lib text = .ok key)
      (hnonce : nonce.length = 12) (htag : tag.length = 16)
      (hgcm : lib.gcmDecrypt key nonce (ciphertext ++ tag) = .ok (asBytes data1))
      (h₁ : entries.lookup "data1" = some (.string (lib.encode (ciphertext ++ nonce ++ tag))))
      (h₂ : entries.lookup "data2" = some (.number (.ofI64 ⟨3, by decide⟩))) :
      Tells lib aes128Key data1 (.object entries)

/-- A payload is cut where it was put together. -/
theorem aesGcmDecryptWithKey_eq (hbase64 : lib.Decodes) {key ciphertext nonce tag : List UInt8}
    {text : String} (hnonce : nonce.length = 12) (htag : tag.length = 16)
    (hgcm : lib.gcmDecrypt key nonce (ciphertext ++ tag) = .ok (asBytes text)) :
    aesGcmDecryptWithKey lib (lib.encode (ciphertext ++ nonce ++ tag)) key = .ok text := by
  have hlen : (ciphertext ++ nonce ++ tag).length = ciphertext.length + 28 := by
    simp only [List.length_append]
    omega
  rw [aesGcmDecryptWithKey, hbase64]
  dsimp only
  rw [if_neg (by omega), hlen, Nat.add_sub_cancel,
    show ciphertext.length + 28 - 16 = (ciphertext ++ nonce).length by
      rw [List.length_append]
      omega,
    List.drop_left, List.append_assoc, List.take_left, List.drop_left, List.take_left' hnonce, hgcm]
  dsimp only
  rw [fromUtf8_eq.mpr rfl]

theorem Tells.decode (hbase64 : lib.Decodes) {aes128Key : Option String} {data1 : String}
    {json : Value} (h : Tells lib aes128Key data1 json) :
    decodeConNotifyData1 lib json (normalizeOptionalKey aes128Key) = .ok data1 := by
  cases h with
  | plain entries h₁ h₂ =>
    rw [decodeConNotifyData1, Value.get_object, Value.get_object, h₁]
    rcases h₂ with h₂ | h₂
    · rw [h₂]
      rfl
    · simp [h₂, Value.asStr, Value.asI64]
  | shared entries ciphertext nonce tag hnonce htag hgcm h₁ h₂ =>
    rw [decodeConNotifyData1, Value.get_object, Value.get_object, h₁, h₂]
    simp only [Option.bind, Value.asStr, Value.asI64, Number.asI64_ofI64]
    exact aesGcmDecryptWithKey_eq hbase64 hnonce htag hgcm
  | device entries text key ciphertext nonce tag htext hkey hnonce htag hgcm h₁ h₂ =>
    have hne := trim_ne_empty hkey
    have hnorm : ((normalizeOptionalKey aes128Key).map trim).filter (· ≠ "") =
        some (trim text) := by
      simp [normalizeOptionalKey, htext, hne, trim_trim]
    rw [decodeConNotifyData1, Value.get_object, Value.get_object, h₁, h₂]
    simp only [Option.bind, Value.asStr, Value.asI64, Number.asI64_ofI64, hnorm]
    rw [decryptConNotifyDataWithAes128Key, trim_trim, if_neg hne, aesGcmDecryptWithHexKey,
      validateAes128HexKey_trim, hkey]
    dsimp only
    rw [aesGcmDecryptWithKey_eq hbase64 hnonce htag hgcm]

/-! ### Delivery -/

/-- The text is delivered, in one piece or in many. -/
def Delivers (reply : Reply) (text : String) : Prop :=
  ∃ response pieces, reply = .ok response ∧ response.isSuccess = true ∧
    response.contentLength.any (· > signalingBodyLimit) = false ∧
    response.chunks = List.map .ok pieces ∧ pieces.flatten = asBytes text ∧
    (asBytes text).length ≤ signalingBodyLimit

theorem readResponse_ok {response : Response} {pieces : List (List UInt8)} {text : String}
    (hlength : response.contentLength.any (· > signalingBodyLimit) = false)
    (hchunks : response.chunks = List.map .ok pieces) (htext : pieces.flatten = asBytes text)
    (hfits : (asBytes text).length ≤ signalingBodyLimit) : readResponse response = .ok text := by
  have hread := readChunks_eq pieces [] (Nat.zero_le _)
  rw [List.nil_append, htext, if_pos hfits] at hread
  rw [readResponse, hlength, hchunks, hread]
  dsimp only
  rw [fromUtf8_eq.mpr rfl]
  rfl

/-! ### The robot -/

/-- What a robot is made of, and what it can be relied on for. -/
structure Robot (lib : SignalingCrates) where
  publicKey : lib.RsaPublicKey
  /-- The private key. -/
  decryptBlock : List UInt8 → Option (List UInt8)
  size : 11 < lib.rsaSize publicKey
  decrypts : ∀ draw chunk, chunk.length ≤ lib.rsaSize publicKey - 11 →
    ∃ block, lib.rsaEncryptBlock publicKey draw chunk = .ok block ∧
      block.length = lib.rsaSize publicKey ∧ decryptBlock block = some chunk
  /-- The public key as it is told. -/
  pem : String
  loads : rsaLoadPublicKey lib pem = .ok publicKey
  head : String
  head_size : head.utf8ByteSize = 10
  /-- Five pairs of characters, of which the second ones are letters. -/
  fillers : Fin 5 → Char
  filler_size : ∀ i, (fillers i).utf8Size = 1
  digits : Fin 5 → Fin 10
  /-- How it reads a body with two strings. -/
  readBody : String → Option (String × String)
  reads : ∀ data1 data2, readBody (lib.toText (.object [("data1", .string data1),
    ("data2", .string data2)])) = some (data1, data2)
  answerTo : String → String

namespace Robot

variable (robot : Robot lib)

def letter (digit : Fin 10) : Char := symbols.get (digit.cast rfl)

def tail : List Char :=
  (List.finRange 5).flatMap fun i => [robot.fillers i, letter (robot.digits i)]

def data1 : String := robot.head ++ robot.pem ++ String.ofList robot.tail

def ending : String :=
  String.ofList ((List.finRange 5).map fun i => Nat.digitChar (robot.digits i))

theorem pairDigits_letters (is : List (Fin 5)) :
    pairDigits (is.flatMap fun i => [robot.fillers i, letter (robot.digits i)]) =
      is.map fun i => Nat.digitChar (robot.digits i) := by
  have hindex : ∀ digit : Fin 10, symbols.idxOf? (letter digit) = some digit.1 := by decide
  induction is with
  | nil => rfl
  | cons i rest ih =>
    rw [List.flatMap_cons, List.cons_append, List.singleton_append, pairDigits, hindex, ih]
    dsimp only
    rw [toString_digit (robot.digits i).2]
    rfl

theorem length_tail : robot.tail.length = 10 := rfl

theorem byteSize_tail : byteSize robot.tail = 10 := by
  have hletter : ∀ digit : Fin 10, (letter digit).utf8Size = 1 := by decide
  simp [byteSize, tail, List.finRange_succ, robot.filler_size, hletter]

theorem toList_data1 :
    robot.data1.toList = robot.head.toList ++ (robot.pem.toList ++ robot.tail) := by
  rw [data1, String.toList_append, String.toList_append, String.toList_ofList, List.append_assoc]

/-- The wrapper is taken off, and the letters are read as digits. -/
theorem data1_read : conNotifyPublicKey robot.data1 = .ok robot.pem ∧
    calcLocalPathEnding robot.data1 = robot.ending := by
  constructor
  · have hsize : robot.data1.utf8ByteSize = robot.pem.utf8ByteSize + 20 := by
      rw [data1, String.utf8ByteSize_append, String.utf8ByteSize_append, robot.head_size,
        utf8ByteSize_ofList, byteSize_tail]
      omega
    have hhead : splitAtByte 10 robot.data1.toList =
        some (robot.head.toList, robot.pem.toList ++ robot.tail) := by
      rw [toList_data1, ← robot.head_size, ← byteSize_toList]
      exact splitAtByte_append _ _
    rw [conNotifyPublicKey, if_neg (by omega), hhead, hsize, Nat.add_sub_cancel, ← byteSize_toList]
    dsimp only
    rw [splitAtByte_append]
    exact congrArg Except.ok String.ofList_toList
  · have hlast : robot.data1.toList.reverse.take 10 = robot.tail.reverse := by
      rw [toList_data1, List.reverse_append, List.reverse_append, List.append_assoc]
      exact List.take_left' (by rw [List.length_reverse, length_tail])
    rw [calcLocalPathEnding, hlast, if_neg (by rw [List.length_reverse, length_tail]; decide),
      List.reverse_reverse, tail, pairDigits_letters, ending]

/-! ### The sealed offer -/

/-- What the robot makes of a body: the offer, and the key it came under. -/
def opens (body : String) : Option (String × String) := do
  let (data1, data2) ← robot.readBody body
  let bytes ← (lib.decode data2).toOption
  let plain ← (chunks (lib.rsaSize robot.publicKey) bytes).mapM robot.decryptBlock
  let key ← fromUtf8 plain.flatten
  let offer ← (aesEcbDecrypt lib.toCrypto data1 key).toOption
  return (offer, key)

theorem mapM_decryptBlock {pieces blocks : List (List UInt8)}
    (h : RsaBlocks lib robot.publicKey pieces blocks)
    (hshort : ∀ piece ∈ pieces, piece.length ≤ lib.rsaSize robot.publicKey - 11) :
    (∀ block ∈ blocks, block.length = lib.rsaSize robot.publicKey) ∧
      blocks.mapM robot.decryptBlock = some pieces := by
  induction h with
  | nil => exact ⟨by simp, rfl⟩
  | cons hhead _ ih =>
    obtain ⟨draw, hblock⟩ := hhead
    obtain ⟨hpiece, hrest⟩ := List.forall_mem_cons.mp hshort
    obtain ⟨block', hblock', hlen, hdecrypt⟩ := robot.decrypts draw _ hpiece
    obtain rfl := Except.ok.inj (hblock.symm.trans hblock')
    obtain ⟨hall, hmap⟩ := ih hrest
    refine ⟨List.forall_mem_cons.mpr ⟨hlen, hall⟩, ?_⟩
    rw [List.mapM_cons, hdecrypt, hmap]
    rfl

theorem aesEcbDecrypt_encrypt (haes : lib.Inverts) (hbase64 : lib.Decodes)
    {plain cipher key : String} (h : aesEcbEncrypt lib.toCrypto plain key = .ok cipher) :
    aesEcbDecrypt lib.toCrypto cipher key = .ok plain := by
  obtain ⟨hkey, rfl⟩ := aesEcbEncrypt_eq.mp h
  refine aesEcbDecrypt_eq.mpr ⟨hkey, _, hbase64 _, ?_, chunksExactMut_inverse (haes _ hkey) _⟩
  rw [length_chunksExactMut]
  exact length_pkcs7Pad _

/-- What the client seals, the robot opens. -/
theorem opens_sealed (haes : lib.Inverts) (hbase64 : lib.Decodes) {offer key data1 : String}
    {blocks : List (List UInt8)} (hdata1 : aesEcbEncrypt lib.toCrypto offer key = .ok data1)
    (hblocks : RsaBlocks lib robot.publicKey
      (chunks (lib.rsaSize robot.publicKey - 11) (asBytes key)) blocks) :
    robot.opens (lib.toText (.object [("data1", .string data1),
      ("data2", .string (lib.encode blocks.flatten))])) = some (offer, key) := by
  have hsize := robot.size
  obtain ⟨hlen, hmap⟩ := robot.mapM_decryptBlock hblocks fun _ => length_of_mem_chunks
  have hdecrypt := aesEcbDecrypt_encrypt haes hbase64 hdata1
  have hdecode : lib.decode (lib.encode blocks.flatten) = .ok blocks.flatten := hbase64 _
  rw [opens, robot.reads]
  simp only [Option.bind_eq_bind, Option.bind_some, hdecode, Except.toOption,
    chunks_blocks (show lib.rsaSize robot.publicKey ≠ 0 by omega) blocks hlen, hmap,
    chunks_flatten (show lib.rsaSize robot.publicKey - 11 ≠ 0 by omega),
    fromUtf8_eq.mpr (rfl : asBytes key = asBytes key), hdecrypt]
  rfl

/-! ### What it promises -/

/-- What the robot answers: it knows no `/offer`, tells what it has to tell, and answers
whoever it understands. -/
def Replies (notify : String) (request : Request) (reply : Reply) : Prop :=
  (request.url.path = "/offer" → ∀ response, reply = .ok response → response.isSuccess = false) ∧
  (request.url.path = "/con_notify" → Delivers reply notify) ∧
  (request.url.path = "/con_ing_" ++ robot.ending → ∀ offer key cipher,
    robot.opens request.body = some (offer, key) →
      aesEcbEncrypt lib.toCrypto (robot.answerTo offer) key = .ok cipher → Delivers reply cipher)

/-- The client can be built, and the robot answers as it should. -/
def Keeps (notify : String) : (q : Question) → q.Answer → Prop
  | .client, built => built = true
  | .uuid, _ => True
  | .rng, _ => True
  | .post request, reply => robot.Replies notify request reply

variable {robot} {notify : String}

theorem post_delivered {request : Request} {failed text : String}
    (hdelivers : ∀ reply, robot.Replies notify request reply → Delivers reply text) :
    (post request failed).run.Always (robot.Keeps notify) fun r said =>
      r = .ok text ∧ posts said = [request] := by
  refine .query fun reply hreply => ?_
  obtain ⟨response, pieces, rfl, hok, hlength, hchunks, htext, hfits⟩ := hdelivers reply hreply
  dsimp only
  rw [hok]
  exact ⟨readResponse_ok hlength hchunks htext hfits, rfl⟩

theorem post_refused {request : Request} {failed : String}
    (hrefuses : ∀ reply, robot.Replies notify request reply →
      ∀ response, reply = .ok response → response.isSuccess = false) :
    (post request failed).run.Always (robot.Keeps notify) fun r _ => ∃ e, r = .error e := by
  refine .query fun reply hreply => ?_
  rcases reply with error | response
  · exact ⟨_, rfl⟩
  · dsimp only
    rw [hrefuses _ hreply response rfl]
    exact ⟨_, rfl⟩

theorem signalingClient_built : signalingClient.run.Always (robot.Keeps notify) fun r said =>
    r = .ok () ∧ posts said = [] := by
  refine .query fun built hbuilt => ?_
  rw [show built = true from hbuilt]
  exact ⟨rfl, rfl⟩

theorem sendSdpLocalOld_refused (ip offer : String) :
    (sendSdpLocalOld lib ip offer).run.Always (robot.Keeps notify) fun r _ =>
      ∃ e, r = .error e := by
  refine .given (fun e he => ⟨e, rfl⟩) fun url hurl => ?_
  refine signalingClient_built.attempt (fun e said h => ⟨e, rfl⟩) fun _ said _ => ?_
  exact post_refused fun reply hreply => hreply.1 (signalingUrl_path hurl plainPath_offer)

theorem rsaEncryptChunks_ok (pieces : List (List UInt8))
    (hshort : ∀ piece ∈ pieces, piece.length ≤ lib.rsaSize robot.publicKey - 11) :
    ∀ encrypted : List UInt8, (rsaEncryptChunks lib robot.publicKey pieces encrypted).run.Always
      (robot.Keeps notify) fun r said => posts said = [] ∧ ∃ blocks,
        RsaBlocks lib robot.publicKey pieces blocks ∧ r = .ok (encrypted ++ blocks.flatten) := by
  induction pieces with
  | nil => exact fun encrypted => ⟨rfl, [], .nil, by rw [List.flatten_nil, List.append_nil]⟩
  | cons piece rest ih =>
    intro encrypted
    obtain ⟨hpiece, hrest⟩ := List.forall_mem_cons.mp hshort
    refine .query fun draw _ => ?_
    obtain ⟨block, hblock, -⟩ := robot.decrypts draw piece hpiece
    refine .given (fun e he => absurd (hblock.symm.trans he) (by simp)) fun block' hblock' => ?_
    obtain rfl := Except.ok.inj (hblock.symm.trans hblock')
    refine (ih hrest _).mono fun r said ⟨hposts, blocks, hall, hr⟩ =>
      ⟨hposts, block :: blocks, .cons ⟨draw, hblock⟩ hall, ?_⟩
    rw [hr, List.flatten_cons, List.append_assoc]

theorem rsaEncrypt_ok (data : String) :
    (rsaEncrypt lib data robot.publicKey).run.Always (robot.Keeps notify) fun r said =>
      posts said = [] ∧ ∃ blocks, r = .ok (lib.encode blocks.flatten) ∧
        RsaBlocks lib robot.publicKey
          (chunks (lib.rsaSize robot.publicKey - 11) (asBytes data)) blocks := by
  have hsize := robot.size
  simp only [rsaEncrypt]
  rw [if_neg (by omega)]
  refine (rsaEncryptChunks_ok _ (fun _ => length_of_mem_chunks) []).attempt
    (fun e said h => ?_) fun bytes said h => ?_
  · obtain ⟨-, blocks, -, h⟩ := h
    exact absurd h (by simp)
  obtain ⟨hposts, blocks, hall, h⟩ := h
  rw [Except.ok.inj h]
  exact ⟨by simpa using hposts, blocks, rfl, hall⟩

/-- The robot opens the offer in the last request, and its answer comes back. -/
def Understands (robot : Robot lib) (offer : String) (r : PortResult String) (said : Said) : Prop :=
  r = .ok (robot.answerTo offer) ∧ ∃ request key, (posts said).getLast? = some request ∧
    robot.opens request.body = some (offer, key)

theorem sendSdpLocalNew_understood (haes : lib.Inverts) (hbase64 : lib.Decodes)
    {aes128Key : Option String} {text : String} {json : Value}
    (hnotify : lib.decode notify = .ok (asBytes text)) (hjson : lib.fromStr text = some json)
    (htells : Tells lib aes128Key robot.data1 json) {ip : String} {url : Url}
    (hhost : signalingUrl lib.toUrlCrate ip 9991 "/con_notify" = .ok url) (offer : String) :
    (sendSdpLocalNewWithAesKey lib ip offer (normalizeOptionalKey aes128Key)).run.Always
      (robot.Keeps notify) (robot.Understands offer) := by
  obtain ⟨hpem, hending⟩ := robot.data1_read
  have htold : readConNotify lib (normalizeOptionalKey aes128Key) notify =
      .ok (robot.pem, robot.ending) :=
    readConNotify_eq.mpr ⟨text, json, robot.data1, hnotify, hjson, htells.decode hbase64, hpem,
      hending.symm⟩
  refine .given (fun e he => absurd (hhost.symm.trans he) (by simp)) fun notifyUrl hnotifyUrl => ?_
  refine signalingClient_built.attempt (fun e said h => absurd h.1 (by simp)) fun _ said₁ h₁ => ?_
  refine (post_delivered fun reply hreply => hreply.2.1 (signalingUrl_path hnotifyUrl
    plainPath_conNotify)).attempt (fun e said h => absurd h.1 (by simp)) fun payload said₂ h₂ => ?_
  obtain rfl := Except.ok.inj h₂.1
  refine .given (fun e he => absurd (htold.symm.trans he) (by simp)) fun told htold' => ?_
  obtain rfl := Except.ok.inj (htold.symm.trans htold')
  refine .query fun uuid _ => ?_
  refine .given (fun e he => absurd (robot.loads.symm.trans he) (by simp)) fun key hkey => ?_
  obtain rfl := Except.ok.inj (robot.loads.symm.trans hkey)
  have hlen := length_simple uuid
  refine .given (fun e he => absurd ((aesEcbEncrypt_eq.mpr ⟨hlen, rfl⟩).symm.trans he) (by simp))
    fun data1 hdata1 => ?_
  refine (rsaEncrypt_ok _).attempt (fun e said h => ?_) fun data2 said₃ h₃ => ?_
  · obtain ⟨-, blocks, h, -⟩ := h
    exact absurd h (by simp)
  obtain ⟨hposts₃, blocks, hdata2, hblocks⟩ := h₃
  obtain rfl := Except.ok.inj hdata2
  have hopens := robot.opens_sealed haes hbase64 hdata1 hblocks
  have hingest : signalingUrl lib.toUrlCrate ip 9991 ("/con_ing_" ++ robot.ending) =
      .ok { url with path := lib.setPath ("/con_ing_" ++ robot.ending) } :=
    signalingUrl_eq_ok.mpr ⟨(signalingUrl_eq_ok.mp hhost).1, rfl, (signalingUrl_eq_ok.mp hhost).2.2⟩
  have hdigits : ∀ c ∈ robot.ending.toList, c.isDigit = true := by
    rw [← hending]
    exact (calcLocalPathEnding_spec robot.data1).2
  refine .given (fun e he => absurd (hingest.symm.trans he) (by simp))
    fun ingestUrl hingestUrl => ?_
  obtain ⟨cipher, hcipher⟩ : ∃ cipher,
      aesEcbEncrypt lib.toCrypto (robot.answerTo offer) (simple uuid) = .ok cipher :=
    ⟨_, aesEcbEncrypt_eq.mpr ⟨hlen, rfl⟩⟩
  refine (post_delivered fun reply hreply => hreply.2.2 (signalingUrl_path hingestUrl
    (plainPath_conIng hdigits)) _ _ _ hopens hcipher).attempt
    (fun e said h => absurd h.1 (by simp)) fun answer said₄ h₄ => ?_
  obtain rfl := Except.ok.inj h₄.1
  refine ⟨aesEcbDecrypt_encrypt haes hbase64 hcipher, ingestRequest ingestUrl _, _, ?_, hopens⟩
  simp [h₁.2, h₂.2, hposts₃, h₄.2, Question.request?, ingestRequest]

end Robot

end

/-- **A robot that keeps to the protocol is understood.**  Its `con_notify` tells the wrapped
key and the letters of the path in plain text, or encrypted with either key; it knows no
`/offer`, opens what is sent to its path with its private key, and answers under the key
that it finds.  Then the exchange ends with its answer to the very offer, which is what it
opened in the last request, whatever was drawn, however the key was cut for RSA, and however
the bodies were cut on their way. -/
theorem robot_is_understood (lib : SignalingCrates) (haes : lib.Inverts) (hbase64 : lib.Decodes)
    (robot : Robot lib) (aes128Key : Option String) (notify text : String) (json : Value)
    (hnotify : lib.decode notify = .ok (asBytes text)) (hjson : lib.fromStr text = some json)
    (htells : Tells lib aes128Key robot.data1 json) (ip : String) (url : Url)
    (hhost : signalingUrl lib.toUrlCrate ip 9991 "/con_notify" = .ok url) (offer : String)
    (answer : Said → (q : Question) → q.Answer)
    (hkeeps : ∀ s ∈ ((exchangeSdp lib aes128Key ip offer).run.talk answer []).2,
      robot.Keeps notify s.1 s.2) :
    let r := ((exchangeSdp lib aes128Key ip offer).run.talk answer []).1
    let said := ((exchangeSdp lib aes128Key ip offer).run.talk answer []).2
    r = .ok (robot.answerTo offer) ∧ ∃ request key, (posts said).getLast? = some request ∧
      robot.opens request.body = some (offer, key) := by
  have hexchange : (exchangeSdp lib aes128Key ip offer).run.Always (robot.Keeps notify)
      (robot.Understands offer) := by
    refine Dialogue.always_bind.mpr ((Robot.sendSdpLocalOld_refused ip offer).mono
      fun r said h => ?_)
    obtain ⟨e, rfl⟩ := h
    refine Dialogue.always_bind.mpr ((Robot.sendSdpLocalNew_understood haes hbase64 hnotify hjson
      htells hhost offer).mono fun r more h => ?_)
    obtain ⟨rfl, request, key, hlast, hopens⟩ := h
    refine ⟨rfl, request, key, ?_, hopens⟩
    rw [List.append_nil, posts_append, List.getLast?_append, hlast]
    rfl
  obtain ⟨more, hmore, hspec⟩ := hexchange.talk answer []
  rw [List.nil_append] at hmore
  rw [hmore] at hkeeps ⊢
  exact hspec hkeeps

/-! ### One exchange -/

/-- The code of a character of base64. -/
def sextetCode (n : ℕ) : ℕ :=
  if n < 26 then n + 65 else if n < 52 then n + 71 else if n < 62 then n - 4
  else if n = 62 then 43 else 47

def sextet (n : ℕ) : Char := Char.ofNat (sextetCode n)

def codeSextet? (code : ℕ) : Option ℕ :=
  if 65 ≤ code ∧ code ≤ 90 then some (code - 65)
  else if 97 ≤ code ∧ code ≤ 122 then some (code - 71)
  else if 48 ≤ code ∧ code ≤ 57 then some (code + 4)
  else if code = 43 then some 62
  else if code = 47 then some 63
  else none

def sextet? (c : Char) : Option ℕ := codeSextet? c.toNat

def base64 : List UInt8 → List Char
  | a :: b :: c :: rest =>
    let n := a.toNat * 65536 + b.toNat * 256 + c.toNat
    sextet (n / 262144) :: sextet (n / 4096 % 64) :: sextet (n / 64 % 64) :: sextet (n % 64) ::
      base64 rest
  | [a, b] =>
    let n := a.toNat * 1024 + b.toNat * 4
    [sextet (n / 4096), sextet (n / 64 % 64), sextet (n % 64), '=']
  | [a] =>
    let n := a.toNat * 16
    [sextet (n / 64), sextet (n % 64), '=', '=']
  | [] => []

def unbase64 : List Char → Option (List UInt8)
  | w :: x :: y :: z :: rest =>
    match sextet? w, sextet? x, sextet? y, sextet? z with
    | some w, some x, some y, some z =>
      let n := w * 262144 + x * 4096 + y * 64 + z
      (unbase64 rest).map fun bytes =>
        UInt8.ofNat (n / 65536) :: UInt8.ofNat (n / 256 % 256) :: UInt8.ofNat (n % 256) :: bytes
    | some w, some x, some y, none =>
      let n := w * 4096 + x * 64 + y
      if z = '=' ∧ rest = [] then some [UInt8.ofNat (n / 1024), UInt8.ofNat (n / 4 % 256)] else none
    | some w, some x, none, none =>
      let n := w * 64 + x
      if y = '=' ∧ z = '=' ∧ rest = [] then some [UInt8.ofNat (n / 16)] else none
    | _, _, _, _ => none
  | [] => some []
  | _ => none

theorem sextetCode_lt (n : ℕ) : sextetCode n < 128 := by
  rw [sextetCode]
  split_ifs <;> omega

theorem toNat_sextet (n : ℕ) : (sextet n).toNat = sextetCode n := by
  have hlt := sextetCode_lt n
  rw [sextet, Char.toNat_ofNat, if_pos (Or.inl (by omega))]

theorem sextet?_sextet {n : ℕ} (h : n < 64) : sextet? (sextet n) = some n := by
  have hall : ∀ n < 64, codeSextet? (sextetCode n) = some n := by decide
  rw [sextet?, toNat_sextet, hall n h]

theorem unbase64_base64 (bytes : List UInt8) : unbase64 (base64 bytes) = some bytes := by
  have hpad : sextet? '=' = none := rfl
  fun_induction base64 bytes with
  | case1 a b c rest n ih =>
    have ha := a.toNat_lt
    have hb := b.toNat_lt
    have hc := c.toNat_lt
    rw [unbase64, sextet?_sextet (by omega), sextet?_sextet (by omega), sextet?_sextet (by omega),
      sextet?_sextet (by omega), ih]
    dsimp only [Option.map]
    rw [show n / 262144 * 262144 + n / 4096 % 64 * 4096 + n / 64 % 64 * 64 + n % 64 = n by omega,
      show n / 65536 = a.toNat by omega, show n / 256 % 256 = b.toNat by omega,
      show n % 256 = c.toNat by omega]
    simp only [UInt8.ofNat_toNat]
  | case2 a b n =>
    have ha := a.toNat_lt
    have hb := b.toNat_lt
    rw [unbase64, sextet?_sextet (by omega), sextet?_sextet (by omega), sextet?_sextet (by omega),
      hpad]
    dsimp only
    rw [if_pos ⟨rfl, rfl⟩, show n / 4096 * 4096 + n / 64 % 64 * 64 + n % 64 = n by omega,
      show n / 1024 = a.toNat by omega, show n / 4 % 256 = b.toNat by omega]
    simp only [UInt8.ofNat_toNat]
  | case3 a n =>
    have ha := a.toNat_lt
    rw [unbase64, sextet?_sextet (by omega), sextet?_sextet (by omega), hpad]
    dsimp only
    rw [if_pos ⟨rfl, rfl, rfl⟩, show n / 64 * 64 + n % 64 = n by omega,
      show n / 16 = a.toNat by omega, UInt8.ofNat_toNat]
  | case4 => rfl

theorem byteSize_base64 (bytes : List UInt8) : byteSize (base64 bytes) ≤ 4 * bytes.length := by
  have hone : ∀ n, (sextet n).utf8Size = 1 := by
    intro n
    have hcode : (sextet n).toNat < 128 := (toNat_sextet n).trans_lt (sextetCode_lt n)
    exact Char.utf8Size_eq_one_iff.mpr (UInt32.le_iff_toNat_le.mpr (Nat.le_of_lt_succ hcode))
  have hpad : '='.utf8Size = 1 := rfl
  fun_induction base64 bytes with
  | case1 a b c rest n ih =>
    simp only [byteSize, List.map_cons, List.sum_cons, hone, List.length_cons] at ih ⊢
    omega
  | case2 a b n => simp [byteSize, hone, hpad]
  | case3 a n => simp [byteSize, hone, hpad]
  | case4 => exact Nat.zero_le _

/-- A JSON string, after its first quotation mark. -/
def quote : List Char → List Char
  | [] => ['"']
  | c :: cs => if c = '"' ∨ c = '\\' then '\\' :: c :: quote cs else c :: quote cs

def unquote : List Char → Option (List Char × List Char)
  | [] => none
  | '"' :: rest => some ([], rest)
  | '\\' :: c :: rest => (unquote rest).map fun (cs, rest) => (c :: cs, rest)
  | c :: rest => (unquote rest).map fun (cs, rest) => (c :: cs, rest)

theorem unquote_quote (cs rest : List Char) : unquote (quote cs ++ rest) = some (cs, rest) := by
  induction cs with
  | nil => rfl
  | cons c cs ih =>
    rw [quote]
    split
    next hspecial => rw [List.cons_append, List.cons_append, unquote, ih]; rfl
    next hplain =>
      rw [List.cons_append, unquote, ih]
      · rfl
      · rintro rfl
        exact hplain (.inl rfl)
      · rintro c' rest' rfl
        exact absurd rfl fun h => hplain (.inr h)

/-- "v=0" and "v=1", padded, and the same blocks under the key
000102030405460788090a0b0c0d0e0f. -/
def offerBlock : AesBlock :=
  ⟨[118, 61, 48, 13, 13, 13, 13, 13, 13, 13, 13, 13, 13, 13, 13, 13], rfl⟩

def offerCipher : AesBlock :=
  ⟨[233, 110, 42, 12, 192, 161, 145, 161, 156, 26, 123, 5, 111, 69, 233, 155], rfl⟩

def answerBlock : AesBlock :=
  ⟨[118, 61, 49, 13, 13, 13, 13, 13, 13, 13, 13, 13, 13, 13, 13, 13], rfl⟩

def answerCipher : AesBlock :=
  ⟨[188, 142, 249, 68, 141, 28, 15, 185, 52, 49, 208, 33, 183, 233, 95, 125], rfl⟩

/-- An RSA key of 64 bytes, as PKCS #1 has it. -/
def derKey : List UInt8 :=
  [48, 72, 2, 65, 0, 200, 63, 34, 177, 195, 60, 85, 192, 179, 36, 224, 13, 96, 42, 42, 124, 193,
    128, 24, 69, 28, 50, 60, 174, 17, 250, 55, 39, 161, 40, 112, 85, 143, 73, 66, 137, 175, 105,
    213, 61, 40, 44, 91, 121, 176, 142, 213, 35, 184, 96, 210, 238, 234, 112, 56, 199, 200, 43, 92,
    62, 152, 47, 134, 97, 2, 3, 1, 0, 1]

/-- A chunk in the padding of PKCS #1 v1.5, where every draw is 1. -/
def rsaPad (chunk : List UInt8) : List UInt8 :=
  0 :: 2 :: (List.replicate (61 - chunk.length) 1 ++ 0 :: chunk)

/-- The key 000102030405460788090a0b0c0d0e0f under the RSA key. -/
def keyCipher : List UInt8 :=
  [78, 63, 239, 147, 53, 229, 41, 253, 81, 216, 81, 147, 79, 36, 43, 249, 220, 75, 77, 9, 26, 80,
    225, 146, 16, 37, 102, 74, 225, 146, 165, 214, 71, 78, 78, 137, 213, 170, 226, 66, 66, 132, 32,
    167, 56, 175, 87, 74, 255, 30, 56, 206, 112, 29, 94, 19, 111, 224, 63, 227, 111, 203, 196, 84]

def rsaSwap : Equiv.Perm (List UInt8) :=
  Equiv.swap (rsaPad (asBytes "000102030405460788090a0b0c0d0e0f")) keyCipher

def helloData1 : String :=
  "0123456789" ++ String.ofList (base64 derKey) ++ "0A0B0C0D0E"

/-- What `con_notify` tells, in plain text. -/
def helloJson : Value :=
  .object [("data1", .string helloData1), ("data2", .number (.ofI64 ⟨0, by decide⟩))]

def helloText : String := "\x7b\"data1\":\"" ++ helloData1 ++ "\",\"data2\":0\x7d"

/-- Base64, and crates that agree with the real ones on this exchange. -/
def exchangeCrates : SignalingCrates where
  encryptBlock _ block :=
    Equiv.swap offerBlock offerCipher (Equiv.swap answerBlock answerCipher block)
  decryptBlock _ block :=
    Equiv.swap answerBlock answerCipher (Equiv.swap offerBlock offerCipher block)
  encode bytes := String.ofList (base64 bytes)
  decode text :=
    match unbase64 text.toList with
    | some bytes => .ok bytes
    | none => .error "Invalid input length"
  utf8Error _ := "invalid utf-8 sequence"
  setHost := some
  setPath path := path
  setPath_plain _ _ := rfl
  fromStr text := if text = helloText then some helloJson else none
  toText
    | .object [(_, .string data1), (_, .string data2)] =>
      "\x7b\"data1\":\"" ++ String.ofList (quote data1.toList) ++ ",\"data2\":\"" ++
        String.ofList (quote data2.toList) ++ "\x7d"
    | _ => ""
  hexDecode _ := .error "Invalid character"
  gcmDecrypt _ _ _ := .error "aead::Error"
  RsaPublicKey := Unit
  fromPublicKeyDer _ := .error "ASN.1 error"
  fromPkcs1Der bytes := if bytes = derKey then .ok () else .error "ASN.1 error"
  rsaSize _ := 64
  rsaEncryptBlock _ _ chunk :=
    if chunk.length ≤ 53 then .ok (rsaSwap (rsaPad chunk)) else .error "message too long"

theorem exchangeCrates_inverts : exchangeCrates.Inverts := by
  intro key _ block
  show Equiv.swap _ _ (Equiv.swap _ _ (Equiv.swap _ _ (Equiv.swap _ _ block))) = block
  rw [Equiv.swap_apply_self, Equiv.swap_apply_self]

theorem exchangeCrates_decodes : exchangeCrates.Decodes := by
  intro bytes
  show (match unbase64 (String.ofList (base64 bytes)).toList with
    | some bytes => Except.ok bytes
    | none => .error _) = Except.ok bytes
  rw [String.toList_ofList, unbase64_base64]

theorem length_rsaSwap {bytes : List UInt8} (h : bytes.length = 64) :
    (rsaSwap bytes).length = 64 := by
  rw [rsaSwap, Equiv.swap_apply_def]
  split_ifs
  · rfl
  · rfl
  · exact h

def exchangeRobot : Robot exchangeCrates where
  publicKey := ()
  decryptBlock block := some ((((rsaSwap block).drop 2).dropWhile (· = 1)).drop 1)
  size := by decide
  decrypts draw chunk hchunk := by
    refine ⟨rsaSwap (rsaPad chunk), if_pos hchunk, length_rsaSwap ?_, ?_⟩
    · have hle : chunk.length ≤ 53 := hchunk
      simp only [rsaPad, List.length_cons, List.length_append, List.length_replicate]
      omega
    · rw [rsaSwap, Equiv.swap_apply_self, rsaPad]
      simp [List.dropWhile_append_of_pos]
  pem := String.ofList (base64 derKey)
  loads := by
    have hdecode : exchangeCrates.decode (String.ofList (base64 derKey)) = .ok derKey :=
      exchangeCrates_decodes derKey
    rw [rsaLoadPublicKey, hdecode]
    show (if derKey = derKey then Except.ok () else .error "ASN.1 error") = Except.ok ()
    exact if_pos rfl
  head := "0123456789"
  head_size := rfl
  fillers _ := '0'
  filler_size _ := rfl
  digits i := i.castLE (by decide)
  readBody body := do
    let (data1, rest) ← unquote (body.toList.drop 10)
    let (data2, _) ← unquote (rest.drop 10)
    return (String.ofList data1, String.ofList data2)
  reads data1 data2 := by
    have htext : (exchangeCrates.toText (.object [("data1", .string data1),
        ("data2", .string data2)])).toList = "\x7b\"data1\":\"".toList ++ (quote data1.toList ++
          (",\"data2\":\"".toList ++ (quote data2.toList ++ "\x7d".toList))) := by
      show (_ ++ _ ++ _ ++ _ ++ _ : String).toList = _
      simp only [String.toList_append, String.toList_ofList, List.append_assoc]
    have hfirst : ∀ cs, ("\x7b\"data1\":\"".toList ++ cs).drop 10 = cs :=
      fun cs => List.drop_left' rfl
    have hsecond : ∀ cs, (",\"data2\":\"".toList ++ cs).drop 10 = cs :=
      fun cs => List.drop_left' rfl
    rw [htext, hfirst, unquote_quote]
    simp only [Option.bind_eq_bind, Option.bind_some, hsecond, unquote_quote, String.ofList_toList]
    rfl
  answerTo _ := "v=1"

/-- The texts come in two pieces. -/
def inTwo (text : String) : Reply :=
  .ok
    { status := 200, statusText := "200 OK", contentLength := none
      chunks := [.ok ((asBytes text).take 3), .ok ((asBytes text).drop 3)] }

theorem inTwo_delivers {text : String} (h : (asBytes text).length ≤ signalingBodyLimit) :
    Delivers (inTwo text) text :=
  ⟨_, [(asBytes text).take 3, (asBytes text).drop 3], rfl, rfl, rfl, rfl, by simp, h⟩

def helloNotify : String := exchangeCrates.encode (asBytes helloText)

/-- The robot, and a client whose UUID is 00010203-0405-4607-8809-0a0b0c0d0e0f. -/
def exchangeAnswer (_ : Said) : (q : Question) → q.Answer
  | .client => true
  | .uuid => ⟨[0, 1, 2, 3, 4, 5, 70, 7, 136, 9, 10, 11, 12, 13, 14, 15], rfl⟩
  | .rng => 0
  | .post request =>
    if request.url.path = "/con_notify" then inTwo helloNotify
    else if request.url.path = "/offer" then .error ⟨false, true, false, false⟩
    else
      match exchangeRobot.opens request.body with
      | none => .error ⟨false, true, false, false⟩
      | some (_, key) =>
        match aesEcbEncrypt exchangeCrates.toCrypto "v=1" key with
        | .error _ => .error ⟨false, true, false, false⟩
        | .ok cipher => inTwo cipher

theorem length_encode (bytes : List UInt8) :
    (asBytes (exchangeCrates.encode bytes)).length ≤ 4 * bytes.length := by
  rw [length_asBytes]
  exact (utf8ByteSize_ofList (base64 bytes)).trans_le (byteSize_base64 bytes)

theorem exchangeAnswer_keeps (said : Said) (q : Question) :
    exchangeRobot.Keeps helloNotify q (exchangeAnswer said q) := by
  cases q with
  | client => rfl
  | uuid | rng => trivial
  | post request =>
    have hing : ∀ path, path = "/con_ing_" ++ exchangeRobot.ending →
        path ≠ "/con_notify" ∧ path ≠ "/offer" := by
      rintro path rfl
      have hlist : ("/con_ing_" ++ exchangeRobot.ending).toList =
          ['/', 'c', 'o', 'n', '_', 'i', 'n', 'g', '_'] ++ exchangeRobot.ending.toList :=
        String.toList_append.trans (congrArg (· ++ _) String.toList_ofList)
      have hnotify : "/con_notify".toList =
          ['/', 'c', 'o', 'n', '_', 'n', 'o', 't', 'i', 'f', 'y'] := String.toList_ofList
      have hoffer : "/offer".toList = ['/', 'o', 'f', 'f', 'e', 'r'] := String.toList_ofList
      constructor
      · intro heq
        rw [heq, hnotify] at hlist
        exact absurd hlist (by simp)
      · intro heq
        rw [heq, hoffer] at hlist
        exact absurd hlist (by simp)
    refine ⟨fun hpath response hresponse => ?_, fun hpath => ?_,
      fun hpath offer key cipher hopens hcipher => ?_⟩
    · have hreply : exchangeAnswer said (.post request) = .error ⟨false, true, false, false⟩ := by
        simp only [exchangeAnswer]
        rw [if_neg (by rw [hpath]; decide), if_pos hpath]
      exact absurd (hreply.symm.trans hresponse) (by simp)
    · have hreply : exchangeAnswer said (.post request) = inTwo helloNotify := if_pos hpath
      rw [hreply]
      refine inTwo_delivers ((length_encode _).trans ?_)
      have hdata : helloText.utf8ByteSize ≤ 500 := by
        rw [helloText, helloData1]
        simp only [String.utf8ByteSize_append, utf8ByteSize_ofList]
        have hkey := byteSize_base64 derKey
        have hlen : derKey.length = 74 := rfl
        have hrest : "\x7b\"data1\":\"".utf8ByteSize + "0123456789".utf8ByteSize +
            "0A0B0C0D0E".utf8ByteSize + "\",\"data2\":0\x7d".utf8ByteSize ≤ 50 := by decide
        omega
      rw [length_asBytes, signalingBodyLimit]
      omega
    · rw [show exchangeRobot.answerTo offer = "v=1" from rfl] at hcipher
      have hreply : exchangeAnswer said (.post request) = inTwo cipher := by
        simp only [exchangeAnswer]
        rw [if_neg (hing _ hpath).1, if_neg (hing _ hpath).2, hopens]
        dsimp only
        rw [hcipher]
      rw [hreply]
      obtain ⟨-, rfl⟩ := aesEcbEncrypt_eq.mp hcipher
      refine inTwo_delivers ((length_encode _).trans ?_)
      rw [length_chunksExactMut]
      decide

theorem exchange_host : signalingUrl exchangeCrates.toUrlCrate "192.168.12.1" 9991 "/con_notify" =
    .ok ⟨.ip (.v4 [192, 168, 12, 1]), 9991, "/con_notify"⟩ := by
  have hlist : "192.168.12.1".toList =
      ['1', '9', '2', '.', '1', '6', '8', '.', '1', '2', '.', '1'] := String.toList_ofList
  have hparse : parseWith readIp "192.168.12.1".toList = some (.v4 [192, 168, 12, 1]) := by
    rw [hlist]
    rfl
  exact signalingUrl_eq_ok.mpr ⟨rfl, rfl, .inl hparse⟩

theorem helloJson_tells : Tells exchangeCrates none exchangeRobot.data1 helloJson := by
  have hdata1 : helloData1 = exchangeRobot.data1 :=
    congrArg ("0123456789" ++ String.ofList (base64 derKey) ++ ·)
      (rfl : String.ofList ['0', 'A', '0', 'B', '0', 'C', '0', 'D', '0', 'E'] =
        String.ofList exchangeRobot.tail)
  refine .plain _ ?_ (.inr rfl)
  rw [← hdata1]
  rfl

theorem helloText_parsed : exchangeCrates.fromStr helloText = some helloJson := by
  show (if helloText = helloText then some helloJson else none) = some helloJson
  exact if_pos rfl

theorem helloNotify_decoded : exchangeCrates.decode helloNotify = .ok (asBytes helloText) := by
  rw [helloNotify]
  exact exchangeCrates_decodes (asBytes helloText)

/-- The offer "v=0" is answered with "v=1". -/
theorem robot_is_understood_hello :
    ((exchangeSdp exchangeCrates none "192.168.12.1" "v=0").run.talk exchangeAnswer []).1 =
      .ok "v=1" :=
  (robot_is_understood exchangeCrates exchangeCrates_inverts exchangeCrates_decodes exchangeRobot
    none helloNotify helloText helloJson helloNotify_decoded helloText_parsed helloJson_tells
    "192.168.12.1" _ exchange_host "v=0" exchangeAnswer
    (Dialogue.talk_keeps exchangeAnswer_keeps _ (by simp))).1

end Unitree
