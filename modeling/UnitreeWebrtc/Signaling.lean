/-
The exchange of the SDP offer for an answer (`signaling_http.rs`, `security.rs`).

The offer first goes in plain text to port 8081, as old firmware wants it.  If that fails it
goes to port 9991: `con_notify` tells the robot's RSA key, wrapped in ten characters on
either side and perhaps encrypted with AES-GCM; the last ten characters also tell the path
that the encrypted offer goes to, together with its key.  The robot may answer anything, at
any time, so the exchange is a dialogue; the crates for HTTP, JSON and cryptography are
parameters.

* `readChunks_eq` — a body is read as a whole, however it is cut;
* `sendSdpLocalOld_spec`, `sendSdpLocalNew_spec` — what is said to whom;
* `offers_stay_with_the_robot` — together, for every robot.
-/
import UnitreeWebrtc.Dialogue
import UnitreeWebrtc.Envelope
import UnitreeWebrtc.Hosts

namespace Unitree

/-! ### Replies -/

def signalingBodyLimit : ℕ := 1024 * 1024

/-- What `reqwest::Error` tells of itself. -/
structure HttpError where
  isTimeout : Bool
  isConnect : Bool
  isBody : Bool
  isDecode : Bool
deriving DecidableEq

structure Response where
  status : ℕ
  /-- How the status is shown. -/
  statusText : String
  contentLength : Option ℕ
  /-- The body; nothing is read after an error. -/
  chunks : List (Except HttpError (List UInt8))

structure Request where
  url : Url
  contentType : Option String
  body : String
deriving DecidableEq

abbrev Reply := Except HttpError Response

def signalingError (what : String) (error : HttpError) : String :=
  what ++ ": " ++
    (if error.isTimeout then "timeout" else if error.isConnect then "connect"
    else if error.isBody then "body" else if error.isDecode then "decode" else "request")

/-- The loop of `read_response`. -/
def readChunks : List (Except HttpError (List UInt8)) → List UInt8 → PortResult (List UInt8)
  | [], bytes => .ok bytes
  | .error error :: _, _ => .error (signalingError "Signaling response read failed" error)
  | .ok chunk :: rest, bytes =>
    if chunk.length > signalingBodyLimit - bytes.length then
      .error "Signaling response body exceeds 1 MiB"
    else readChunks rest (bytes ++ chunk)

def readResponse (response : Response) : PortResult String :=
  if response.contentLength.any (· > signalingBodyLimit) then
    .error "Signaling response body exceeds 1 MiB"
  else
    match readChunks response.chunks [] with
    | .error e => .error e
    | .ok bytes =>
      match fromUtf8 bytes with
      | none => .error "Signaling response is not UTF-8"
      | some text => .ok text

/-- `StatusCode::is_success`. -/
def Response.isSuccess (response : Response) : Bool :=
  decide (200 ≤ response.status ∧ response.status < 300)

/-! ### The crates -/

structure SignalingCrates extends Crypto, UrlCrate where
  /-- `serde_json::from_str`. -/
  fromStr : String → Option Value
  /-- `Value::to_string`. -/
  toText : Value → String
  hexDecode : String → PortResult (List UInt8)
  /-- `Aes128Gcm`, by key and nonce, of the ciphertext with its tag. -/
  gcmDecrypt : List UInt8 → List UInt8 → List UInt8 → PortResult (List UInt8)
  RsaPublicKey : Type
  fromPublicKeyDer : List UInt8 → PortResult RsaPublicKey
  fromPkcs1Der : List UInt8 → PortResult RsaPublicKey
  rsaSize : RsaPublicKey → ℕ
  /-- PKCS #1 v1.5, with what `OsRng` drew. -/
  rsaEncryptBlock : RsaPublicKey → ℕ → List UInt8 → PortResult (List UInt8)

/-! ### Keys -/

def conNotifyKey : List UInt8 :=
  [232, 86, 130, 189, 22, 84, 155, 0, 142, 4, 166, 104, 43, 179, 235, 227]

/-- `char::is_whitespace`. -/
def isWhitespace (c : Char) : Bool :=
  decide (9 ≤ c.toNat ∧ c.toNat ≤ 13 ∨ 0x2000 ≤ c.toNat ∧ c.toNat ≤ 0x200A ∨
    c.toNat ∈ [0x20, 0x85, 0xA0, 0x1680, 0x2028, 0x2029, 0x202F, 0x205F, 0x3000])

/-- `str::trim`. -/
def trim (text : String) : String :=
  String.ofList ((text.toList.dropWhile isWhitespace).rdropWhile isWhitespace)

/-- `normalize_optional_key`. -/
def normalizeOptionalKey (key : Option String) : Option String :=
  (key.map trim).filter (· ≠ "")

def validateAes128HexKey (lib : SignalingCrates) (key : String) : PortResult (List UInt8) :=
  let trimmed := trim key
  if trimmed.utf8ByteSize ≠ 32 then
    .error ("AES-128 key must be 32 hex characters, got " ++ toString trimmed.utf8ByteSize)
  else
    match lib.hexDecode trimmed with
    | .error e => .error ("AES-128 key must be valid hex: " ++ e)
    | .ok decoded =>
      if decoded.length ≠ 16 then
        .error ("AES-128 key must decode to 16 bytes, got " ++ toString decoded.length)
      else .ok decoded

/-- The payload is the ciphertext, twelve bytes of nonce and sixteen of tag. -/
def aesGcmDecryptWithKey (lib : SignalingCrates) (encodedCipherText : String) (key : List UInt8) :
    PortResult String :=
  match lib.decode encodedCipherText with
  | .error e => .error e
  | .ok payload =>
    if payload.length < 28 then .error "Decryption failed: input data too short"
    else
      let ciphertext := payload.take (payload.length - 28)
      let nonce := (payload.drop (payload.length - 28)).take 12
      let tag := payload.drop (payload.length - 16)
      match lib.gcmDecrypt key nonce (ciphertext ++ tag) with
      | .error e => .error e
      | .ok plainBytes =>
        match fromUtf8 plainBytes with
        | none => .error (lib.utf8Error plainBytes)
        | some text => .ok text

/-- `decrypt_con_notify_data`. -/
def decryptConNotifyData (lib : SignalingCrates) (encodedCipherText : String) :
    PortResult String :=
  aesGcmDecryptWithKey lib encodedCipherText conNotifyKey

def aesGcmDecryptWithHexKey (lib : SignalingCrates) (encodedCipherText aes128Key : String) :
    PortResult String :=
  match validateAes128HexKey lib aes128Key with
  | .error e => .error e
  | .ok key => aesGcmDecryptWithKey lib encodedCipherText key

def decryptConNotifyDataWithAes128Key (lib : SignalingCrates)
    (encodedCipherText aes128Key : String) : PortResult String :=
  if trim aes128Key = "" then
    .error "con_notify data2=3 requires aes_128_key or GO2_DORA_UNITREE_AES_128_KEY"
  else
    match aesGcmDecryptWithHexKey lib encodedCipherText aes128Key with
    | .ok text => .ok text
    | .error error =>
      if error.startsWith "AES-128 key" then .error error
      else
        .error ("AES-GCM decrypt failed for con_notify data2=3; per-device aes_128_key was " ++
          "rejected or payload is corrupt: " ++ error)

def rsaLoadPublicKey (lib : SignalingCrates) (encodedPublicKey : String) :
    PortResult lib.RsaPublicKey :=
  match lib.decode encodedPublicKey with
  | .error e => .error e
  | .ok keyBytes =>
    match lib.fromPublicKeyDer keyBytes with
    | .ok key => .ok key
    | .error _ => lib.fromPkcs1Der keyBytes

/-! ### `con_notify` -/

def decodeConNotifyData1 (lib : SignalingCrates) (decodedJson : Value)
    (aes128Key : Option String) : PortResult String :=
  match (decodedJson.get "data1").bind Value.asStr with
  | none => .error "con_notify data1 field missing"
  | some data1 =>
    let data2 : PortResult ℤ :=
      match decodedJson.get "data2" with
      | none => .ok 0
      | some value =>
        match value.asI64 with
        | none => .error "con_notify data2 must be an integer"
        | some data2 => .ok data2.1
    match data2 with
    | .error e => .error e
    | .ok 0 => .ok data1
    | .ok 2 => decryptConNotifyData lib data1
    | .ok 3 =>
      match (aes128Key.map trim).filter (· ≠ "") with
      | none => .error "con_notify data2=3 requires aes_128_key or GO2_DORA_UNITREE_AES_128_KEY"
      | some key => decryptConNotifyDataWithAes128Key lib data1 key
    | .ok mode => .error ("unsupported con_notify data2 auth mode: " ++ toString mode)

/-- The characters before and after a byte offset, where it is a boundary. -/
def splitAtByte : ℕ → List Char → Option (List Char × List Char)
  | 0, cs => some ([], cs)
  | _ + 1, [] => none
  | n + 1, c :: cs =>
    if c.utf8Size ≤ n + 1 then
      (splitAtByte (n + 1 - c.utf8Size) cs).map fun (before, after) => (c :: before, after)
    else none

/-- `con_notify_public_key`: `data1.get(10..data1.len() - 10)`. -/
def conNotifyPublicKey (data1 : String) : PortResult String :=
  if data1.utf8ByteSize < 20 then .error "con_notify data1 is too short"
  else
    match splitAtByte 10 data1.toList with
    | none => .error "con_notify data1 wrapper has invalid UTF-8 boundaries"
    | some (_, rest) =>
      match splitAtByte (data1.utf8ByteSize - 20) rest with
      | none => .error "con_notify data1 wrapper has invalid UTF-8 boundaries"
      | some (key, _) => .ok (String.ofList key)

def symbols : List Char := ['A', 'B', 'C', 'D', 'E', 'F', 'G', 'H', 'I', 'J']

/-- The digits that the second characters of pairs stand for. -/
def pairDigits : List Char → List Char
  | _ :: second :: rest =>
    (match symbols.idxOf? second with
      | some index => (toString index).toList
      | none => []) ++ pairDigits rest
  | _ => []

def calcLocalPathEnding (data1 : String) : String :=
  let lastTen := data1.toList.reverse.take 10
  if lastTen.length < 10 then "" else String.ofList (pairDigits lastTen.reverse)

/-! ### The exchange -/

/-- What the client asks of the world. -/
inductive Question where
  /-- Whether an HTTP client can be built. -/
  | client
  | uuid
  /-- What `OsRng` draws. -/
  | rng
  | post (request : Request)

/-- The sixteen bytes of a UUID. -/
abbrev Uuid := {bytes : List UInt8 // bytes.length = 16}

abbrev Question.Answer : Question → Type
  | client => Bool
  | uuid => Uuid
  | rng => ℕ
  | post _ => Reply

abbrev Exchange := ExceptT String (Dialogue Question Question.Answer)

abbrev Said := Dialogue.Transcript Question Question.Answer

open Dialogue (given query)

/-- `simple().to_string()`. -/
def simple (uuid : Uuid) : String :=
  String.ofList (uuid.1.flatMap fun byte =>
    [Nat.digitChar (byte.toNat / 16), Nat.digitChar (byte.toNat % 16)])

def generateAesKey : Exchange String := do
  let uuid ← query .uuid
  return simple uuid

/-- The loop of `rsa_encrypt`, over the chunks that are left. -/
def rsaEncryptChunks (lib : SignalingCrates) (publicKey : lib.RsaPublicKey) :
    List (List UInt8) → List UInt8 → Exchange (List UInt8)
  | [], encrypted => return encrypted
  | chunk :: rest, encrypted => do
    let draw ← query .rng
    let block ← given (lib.rsaEncryptBlock publicKey draw chunk)
    rsaEncryptChunks lib publicKey rest (encrypted ++ block)

/-- `chunks`: all of `size` but for the last. -/
def chunks (size : ℕ) (bytes : List UInt8) : List (List UInt8) :=
  if _h : size = 0 ∨ bytes = [] then []
  else bytes.take size :: chunks size (bytes.drop size)
termination_by bytes.length
decreasing_by
  have hne := List.length_pos_of_ne_nil (not_or.mp _h).2
  rw [List.length_drop]
  omega

def rsaEncrypt (lib : SignalingCrates) (data : String) (publicKey : lib.RsaPublicKey) :
    Exchange String := do
  let maxChunkSize := lib.rsaSize publicKey - 11
  if maxChunkSize = 0 then throw "RSA public key is too small"
  let encrypted ← rsaEncryptChunks lib publicKey (chunks maxChunkSize (asBytes data)) []
  return lib.encode encrypted

def signalingClient : Exchange Unit := do
  if ← query .client then return ()
  else throw "Signaling HTTP client initialization failed"

/-- One request, and the text of its response. -/
def post (request : Request) (failed : String) : Exchange String := do
  let reply : Reply ← query (Question.post request)
  match reply with
  | .error error => throw (signalingError "Signaling request failed" error)
  | .ok response =>
    if !response.isSuccess then throw (failed ++ ": " ++ response.statusText)
    given (readResponse response)

def sendSdpLocalOld (lib : SignalingCrates) (ip sdpJson : String) : Exchange String := do
  let url ← given (signalingUrl lib.toUrlCrate ip 8081 "/offer")
  signalingClient
  post { url, contentType := some "application/json", body := sdpJson }
    "Failed to receive SDP answer from old method"

/-- What `con_notify` tells: the key and the end of the path. -/
def readConNotify (lib : SignalingCrates) (aes128Key : Option String) (encodedPayload : String) :
    PortResult (String × String) := do
  let decodedPayload ← (lib.decode encodedPayload).mapError fun _ => "Invalid con_notify base64"
  let decodedText ← (fromUtf8 decodedPayload).elim (.error "Invalid con_notify UTF-8") .ok
  let decodedJson ← (lib.fromStr decodedText).elim (.error "Invalid con_notify JSON") .ok
  let data1 ← decodeConNotifyData1 lib decodedJson aes128Key
  let decodedJson := decodedJson.insertKey "data1" (.string data1)
  let data1 ← ((decodedJson.get "data1").bind Value.asStr).elim
    (.error "con_notify data1 field missing") .ok
  let publicKeyPem ← conNotifyPublicKey data1
  return (publicKeyPem, calcLocalPathEnding data1)

def sendSdpLocalNewWithAesKey (lib : SignalingCrates) (ip sdpJson : String)
    (aes128Key : Option String) : Exchange String := do
  let notifyUrl ← given (signalingUrl lib.toUrlCrate ip 9991 "/con_notify")
  signalingClient
  let encodedPayload ← post { url := notifyUrl, contentType := none, body := "" }
    "Failed to receive con_notify response"
  let (publicKeyPem, pathEnding) ← given (readConNotify lib aes128Key encodedPayload)
  let aesKey ← generateAesKey
  let publicKey ← given (rsaLoadPublicKey lib publicKeyPem)
  let data1 ← given (aesEcbEncrypt lib.toCrypto sdpJson aesKey)
  let data2 ← rsaEncrypt lib aesKey publicKey
  let body := Value.object [("data1", .string data1), ("data2", .string data2)]
  let ingestUrl ← given (signalingUrl lib.toUrlCrate ip 9991 ("/con_ing_" ++ pathEnding))
  let encryptedAnswer ← post
    { url := ingestUrl
      contentType := some "application/x-www-form-urlencoded"
      body := lib.toText body }
    "Failed to receive con_ing response"
  given (aesEcbDecrypt lib.toCrypto encryptedAnswer aesKey)

/-- `send_sdp_local_with_aes_key`. -/
def sendSdpLocal (lib : SignalingCrates) (ip sdpJson : String) (aes128Key : Option String) :
    Exchange String :=
  ExceptT.mk do
    match ← (sendSdpLocalOld lib ip sdpJson).run with
    | .ok answer => return .ok answer
    | .error legacyError =>
      return (← (sendSdpLocalNewWithAesKey lib ip sdpJson aes128Key).run).mapError fun newError =>
        "legacy offer failed (" ++ legacyError ++ "); con_notify offer failed (" ++ newError ++ ")"

/-- `HttpSignalingClient::new`, then `exchange_sdp`. -/
def exchangeSdp (lib : SignalingCrates) (aes128Key : Option String) (ip offer : String) :
    Exchange String :=
  sendSdpLocal lib ip offer (normalizeOptionalKey aes128Key)

/-! ### The fresh key -/

theorem length_asBytes (s : String) : (asBytes s).length = s.utf8ByteSize := rfl

/-- The key of a UUID has one character for each half of a byte. -/
theorem length_simple (uuid : Uuid) : (asBytes (simple uuid)).length = 32 := by
  have hdigit : ∀ n < 16, (Nat.digitChar n).utf8Size = 1 := by decide
  have hsize : ∀ bytes : List UInt8, byteSize (bytes.flatMap fun byte =>
      [Nat.digitChar (byte.toNat / 16), Nat.digitChar (byte.toNat % 16)]) = 2 * bytes.length := by
    intro bytes
    induction bytes with
    | nil => rfl
    | cons byte rest ih =>
      have hbyte : byte.toNat < 256 := byte.toNat_lt
      simp only [byteSize, List.flatMap_cons, List.map_append, List.sum_append] at ih ⊢
      rw [ih]
      simp [hdigit _ (show byte.toNat / 16 < 16 by omega),
        hdigit _ (show byte.toNat % 16 < 16 by omega)]
      omega
  rw [length_asBytes, simple, utf8ByteSize_ofList, hsize, uuid.2]

/-! ### Bodies -/

/-- A body is read as a whole: how it is cut makes no difference, and what counts is whether
all of it fits. -/
theorem readChunks_eq (chunks : List (List UInt8)) (bytes : List UInt8)
    (hbytes : bytes.length ≤ signalingBodyLimit) :
    readChunks (chunks.map .ok) bytes =
      if (bytes ++ chunks.flatten).length ≤ signalingBodyLimit then .ok (bytes ++ chunks.flatten)
      else .error "Signaling response body exceeds 1 MiB" := by
  induction chunks generalizing bytes with
  | nil => simp [readChunks, hbytes]
  | cons chunk rest ih =>
    rw [List.map_cons, readChunks, List.flatten_cons]
    split
    next hlong =>
      rw [if_neg]
      simp only [List.length_append]
      omega
    next hshort =>
      have hfits : (bytes ++ chunk).length ≤ signalingBodyLimit := by
        rw [List.length_append]
        omega
      rw [ih _ hfits, List.append_assoc]

/-! ### What is said -/

def Question.request? : Question → Option Request
  | post request => some request
  | _ => none

/-- The requests that were sent. -/
def posts (said : Said) : List Request := said.filterMap fun s => s.1.request?

@[simp] theorem posts_nil : posts [] = [] := rfl

@[simp] theorem posts_append (said more : Said) : posts (said ++ more) = posts said ++ posts more :=
  List.filterMap_append

@[simp] theorem posts_cons (s : Σ q : Question, q.Answer) (said : Said) :
    posts (s :: said) = s.1.request?.toList ++ posts said := by
  rw [posts, List.filterMap_cons]
  cases s.1.request? <;> rfl

def offerRequest (url : Url) (offer : String) : Request :=
  { url, contentType := some "application/json", body := offer }

def notifyRequest (url : Url) : Request := { url, contentType := none, body := "" }

def ingestRequest (url : Url) (body : String) : Request :=
  { url, contentType := some "application/x-www-form-urlencoded", body }

/-- This question was asked, and answered so. -/
def Heard (said : Said) (q : Question) (a : q.Answer) : Prop :=
  (⟨q, a⟩ : Σ q : Question, q.Answer) ∈ said

/-- The text is what the request was answered with. -/
def Answered (said : Said) (request : Request) (text : String) : Prop :=
  ∃ response, Heard said (.post request) (.ok response) ∧
    response.isSuccess = true ∧ readResponse response = .ok text

theorem Answered.mono {said said' : Said} {request : Request} {text : String}
    (h : Answered said request text) (hsub : said ⊆ said') : Answered said' request text := by
  obtain ⟨response, hmem, hok, hread⟩ := h
  exact ⟨response, hsub hmem, hok, hread⟩

/-- How a request ended. -/
inductive Replied (said : Said) (request : Request) (failed : String) : PortResult String → Prop
  | lost {error : HttpError} (heard : Heard said (.post request) (.error error)) :
    Replied said request failed (.error (signalingError "Signaling request failed" error))
  | refused {response : Response} (heard : Heard said (.post request) (.ok response))
      (status : response.isSuccess = false) :
    Replied said request failed (.error (failed ++ ": " ++ response.statusText))
  | read {response : Response} (heard : Heard said (.post request) (.ok response))
      (status : response.isSuccess = true) :
    Replied said request failed (readResponse response)

theorem Replied.mono {said said' : Said} {request : Request} {failed : String}
    {r : PortResult String} (h : Replied said request failed r) (hsub : said ⊆ said') :
    Replied said' request failed r := by
  cases h with
  | lost heard => exact .lost (hsub heard)
  | refused heard status => exact .refused (hsub heard) status
  | read heard status => exact .read (hsub heard) status

theorem Replied.answered {said : Said} {request : Request} {failed text : String}
    (h : Replied said request failed (.ok text)) : Answered said request text := by
  generalize hr : Except.ok text = r at h
  cases h with
  | lost heard => exact absurd hr (by simp)
  | refused heard status => exact absurd hr (by simp)
  | read heard status => exact ⟨_, heard, status, hr.symm⟩

/-- Anything may be answered. -/
def anyAnswer (q : Question) (_ : q.Answer) : Prop := True

theorem post_spec (request : Request) (failed : String) :
    (post request failed).run.Always anyAnswer fun r said =>
      posts said = [request] ∧ Replied said request failed r := by
  refine .query fun reply _ => ?_
  rcases reply with error | response
  · exact ⟨rfl, .lost (List.mem_singleton.mpr rfl)⟩
  dsimp only
  split
  next hno => exact ⟨rfl, .refused (List.mem_singleton.mpr rfl) (by simpa using hno)⟩
  next hok => exact ⟨rfl, .read (List.mem_singleton.mpr rfl) (by simpa using hok)⟩

theorem signalingClient_spec : signalingClient.run.Always anyAnswer fun r said =>
    posts said = [] ∧ ∀ e, r = .error e →
      Heard said .client false ∧ e = "Signaling HTTP client initialization failed" := by
  refine .query fun built _ => ?_
  cases built with
  | false => exact ⟨rfl, fun e he => ⟨List.mem_singleton.mpr rfl, (Except.error.inj he).symm⟩⟩
  | true => exact ⟨rfl, fun e he => absurd he (by simp)⟩

/-- Why no request was sent at all. -/
def Unsent (lib : SignalingCrates) (ip : String) (port : ℕ) (path : String) (said : Said)
    (e : String) : Prop :=
  posts said = [] ∧ (signalingUrl lib.toUrlCrate ip port path = .error e ∨
    Heard said .client false ∧ e = "Signaling HTTP client initialization failed")

/-- What is said to port 8081, and what comes of it. -/
def SaidOld (lib : SignalingCrates) (ip offer : String) (r : PortResult String) (said : Said) :
    Prop :=
  (∃ e, r = .error e ∧ Unsent lib ip 8081 "/offer" said e) ∨
    ∃ url, signalingUrl lib.toUrlCrate ip 8081 "/offer" = .ok url ∧
      posts said = [offerRequest url offer] ∧
      Replied said (offerRequest url offer) "Failed to receive SDP answer from old method" r

theorem sendSdpLocalOld_spec (lib : SignalingCrates) (ip offer : String) :
    (sendSdpLocalOld lib ip offer).run.Always anyAnswer (SaidOld lib ip offer) := by
  refine .given (fun e he => .inl ⟨e, rfl, rfl, .inl he⟩) fun url hurl => ?_
  refine signalingClient_spec.attempt (fun e said h => .inl ⟨e, rfl, h.1, .inr (h.2 e rfl)⟩)
    fun _ said h => ?_
  refine (post_spec _ _).mono fun r more hpost => .inr ⟨url, hurl, ?_, ?_⟩
  · rw [posts_append, h.1, hpost.1]
    rfl
  · exact hpost.2.mono (List.subset_append_right said more)

/-- Each chunk is encrypted with a draw of its own. -/
def RsaBlocks (lib : SignalingCrates) (publicKey : lib.RsaPublicKey) :
    List (List UInt8) → List (List UInt8) → Prop :=
  List.Forall₂ fun chunk block => ∃ draw, lib.rsaEncryptBlock publicKey draw chunk = .ok block

theorem rsaEncryptChunks_spec (lib : SignalingCrates) (publicKey : lib.RsaPublicKey)
    (chunks : List (List UInt8)) : ∀ encrypted : List UInt8,
    (rsaEncryptChunks lib publicKey chunks encrypted).run.Always anyAnswer fun r said =>
      posts said = [] ∧
      (∀ bytes, r = .ok bytes → ∃ blocks, RsaBlocks lib publicKey chunks blocks ∧
        bytes = encrypted ++ blocks.flatten) ∧
      ∀ e, r = .error e → ∃ chunk ∈ chunks, ∃ draw,
        lib.rsaEncryptBlock publicKey draw chunk = .error e := by
  induction chunks with
  | nil =>
    intro encrypted
    refine ⟨rfl, fun bytes hbytes => ⟨[], .nil, ?_⟩, fun e he => absurd he (by simp)⟩
    rw [← Except.ok.inj hbytes, List.flatten_nil, List.append_nil]
  | cons chunk rest ih =>
    intro encrypted
    refine .query fun draw _ => .given (fun e he => ?_) fun block hblock => ?_
    · refine ⟨rfl, by simp, fun e' he' => ⟨chunk, List.mem_cons_self .., draw, ?_⟩⟩
      rw [he, Except.error.inj he']
    refine (ih _).mono fun r said ⟨hposts, hblocks, hfail⟩ =>
      ⟨hposts, fun bytes hbytes => ?_, fun e he => ?_⟩
    · obtain ⟨blocks, hall, rfl⟩ := hblocks bytes hbytes
      refine ⟨block :: blocks, .cons ⟨draw, hblock⟩ hall, ?_⟩
      rw [List.flatten_cons, List.append_assoc]
    · obtain ⟨chunk', hmem, hdraw⟩ := hfail e he
      exact ⟨chunk', List.mem_cons_of_mem chunk hmem, hdraw⟩

/-- Why a text cannot be encrypted with a key. -/
def RsaFails (lib : SignalingCrates) (publicKey : lib.RsaPublicKey) (data e : String) : Prop :=
  lib.rsaSize publicKey ≤ 11 ∧ e = "RSA public key is too small" ∨
    ∃ chunk ∈ chunks (lib.rsaSize publicKey - 11) (asBytes data), ∃ draw,
      lib.rsaEncryptBlock publicKey draw chunk = .error e

theorem rsaEncrypt_spec (lib : SignalingCrates) (data : String) (publicKey : lib.RsaPublicKey) :
    (rsaEncrypt lib data publicKey).run.Always anyAnswer fun r said =>
      posts said = [] ∧
      (∀ text, r = .ok text → ∃ blocks, text = lib.encode blocks.flatten ∧
        RsaBlocks lib publicKey (chunks (lib.rsaSize publicKey - 11) (asBytes data)) blocks) ∧
      ∀ e, r = .error e → RsaFails lib publicKey data e := by
  simp only [rsaEncrypt]
  split
  next hsmall =>
    refine ⟨rfl, by simp, fun e he => .inl ⟨by omega, (Except.error.inj he).symm⟩⟩
  refine (rsaEncryptChunks_spec lib publicKey _ []).attempt
    (fun e said h => ⟨h.1, by simp, fun e' he' => .inr ?_⟩)
    fun bytes said ⟨hposts, hblocks, _⟩ => ⟨by simpa using hposts, fun text htext => ?_, by simp⟩
  · rw [← Except.error.inj he']
    exact h.2.2 e rfl
  · obtain ⟨blocks, hall, rfl⟩ := hblocks bytes rfl
    exact ⟨blocks, (Except.ok.inj htext).symm, hall⟩

/-- The body is the offer under a fresh key, and the key under the one the robot told. -/
structure Sealed (lib : SignalingCrates) (aes128Key : Option String) (offer : String) (said : Said)
    (notify : Request) (uuid : Uuid) (ending body : String) : Prop where
  fresh : Heard said .uuid uuid
  body : ∃ payload pem publicKey data1 blocks, Answered said notify payload ∧
    readConNotify lib aes128Key payload = .ok (pem, ending) ∧
    rsaLoadPublicKey lib pem = .ok publicKey ∧
    aesEcbEncrypt lib.toCrypto offer (simple uuid) = .ok data1 ∧
    RsaBlocks lib publicKey (chunks (lib.rsaSize publicKey - 11) (asBytes (simple uuid))) blocks ∧
    body = lib.toText (.object [("data1", .string data1),
      ("data2", .string (lib.encode blocks.flatten))])

/-- Why the offer was not sent to port 9991, though its key was asked for. -/
inductive Unsealed (lib : SignalingCrates) (aes128Key : Option String) (said : Said)
    (notify : Request) (e : String) : Prop
  | reply (replied : Replied said notify "Failed to receive con_notify response" (.error e))
  | told {payload : String} (answered : Answered said notify payload)
      (failed : readConNotify lib aes128Key payload = .error e)
  | key {payload pem ending : String} (answered : Answered said notify payload)
      (told : readConNotify lib aes128Key payload = .ok (pem, ending))
      (failed : rsaLoadPublicKey lib pem = .error e)
  | encrypt {payload pem ending : String} {publicKey : lib.RsaPublicKey} {uuid : Uuid}
      (answered : Answered said notify payload)
      (told : readConNotify lib aes128Key payload = .ok (pem, ending))
      (loaded : rsaLoadPublicKey lib pem = .ok publicKey) (fresh : Heard said .uuid uuid)
      (failed : RsaFails lib publicKey (simple uuid) e)

/-- What is said to port 9991, and what comes of it. -/
def SaidNew (lib : SignalingCrates) (aes128Key : Option String) (ip offer : String)
    (r : PortResult String) (said : Said) : Prop :=
  (∃ e, r = .error e ∧ Unsent lib ip 9991 "/con_notify" said e) ∨
    ∃ notifyUrl, signalingUrl lib.toUrlCrate ip 9991 "/con_notify" = .ok notifyUrl ∧
      ((∃ e, r = .error e ∧ posts said = [notifyRequest notifyUrl] ∧
          Unsealed lib aes128Key said (notifyRequest notifyUrl) e) ∨
        ∃ uuid ending body url,
          signalingUrl lib.toUrlCrate ip 9991 ("/con_ing_" ++ ending) = .ok url ∧
          Sealed lib aes128Key offer said (notifyRequest notifyUrl) uuid ending body ∧
          posts said = [notifyRequest notifyUrl, ingestRequest url body] ∧
          ∃ cipher, Replied said (ingestRequest url body) "Failed to receive con_ing response"
            cipher ∧ r = cipher.bind fun cipher => aesEcbDecrypt lib.toCrypto cipher (simple uuid))

theorem sendSdpLocalNew_spec (lib : SignalingCrates) (ip offer : String)
    (aes128Key : Option String) :
    (sendSdpLocalNewWithAesKey lib ip offer aes128Key).run.Always anyAnswer
      (SaidNew lib aes128Key ip offer) := by
  refine .given (fun e he => .inl ⟨e, rfl, rfl, .inl he⟩) fun notifyUrl hnotify => ?_
  refine signalingClient_spec.attempt (fun e said h => .inl ⟨e, rfl, h.1, .inr (h.2 e rfl)⟩)
    fun _ said₁ h₁ => ?_
  obtain ⟨hposts₁, -⟩ := h₁
  -- from here on every failure has sent the first request and no other
  have hfail : ∀ {e : String} {said}, posts said = [notifyRequest notifyUrl] →
      Unsealed lib aes128Key said (notifyRequest notifyUrl) e →
      SaidNew lib aes128Key ip offer (.error e) said :=
    fun h hwhy => .inr ⟨notifyUrl, hnotify, .inl ⟨_, rfl, h, hwhy⟩⟩
  refine (post_spec (notifyRequest notifyUrl) _).attempt
    (fun e said h => hfail (by simp [hposts₁, h.1])
      (.reply (h.2.mono (List.subset_append_right said₁ said)))) fun payload said₂ h₂ => ?_
  obtain ⟨hposts₂, hreplied⟩ := h₂
  have hpayload : ∀ more, Answered (said₁ ++ (said₂ ++ more)) (notifyRequest notifyUrl) payload :=
    fun more => hreplied.answered.mono fun s hs => by simp [hs]
  refine .given (fun e he => hfail (by simp [hposts₁, hposts₂]) (.told (hpayload []) he))
    fun told htold => ?_
  obtain ⟨pem, ending⟩ := told
  refine .query fun uuid _ => ?_
  refine .given (fun e he => hfail (by simp [hposts₁, hposts₂, Question.request?])
    (.key (hpayload _) htold he)) fun publicKey hkey => ?_
  refine .given (fun e he => ?_) fun data1 hdata1 => ?_
  · exact absurd ((aesEcbEncrypt_eq.mpr ⟨length_simple uuid, rfl⟩).symm.trans he) (by simp)
  refine (rsaEncrypt_spec lib _ publicKey).attempt
    (fun e said h => hfail (by simp [hposts₁, hposts₂, h.1, Question.request?])
      (.encrypt (hpayload _) htold hkey (by simp [Heard]) (h.2.2 e rfl))) fun data2 said₃ h₃ => ?_
  obtain ⟨hposts₃, hblocks, -⟩ := h₃
  obtain ⟨blocks, rfl, hsealed⟩ := hblocks data2 rfl
  -- the host was good enough for the first request
  refine .given (fun e he => ?_) fun url hurl => ?_
  · have hsame : signalingUrl lib.toUrlCrate ip 9991 ("/con_ing_" ++ ending) =
        .ok { notifyUrl with path := lib.setPath ("/con_ing_" ++ ending) } :=
      signalingUrl_eq_ok.mpr ⟨(signalingUrl_eq_ok.mp hnotify).1, rfl,
        (signalingUrl_eq_ok.mp hnotify).2.2⟩
    exact absurd (hsame.symm.trans he) (by simp)
  obtain ⟨body, hbody⟩ : ∃ body, body = lib.toText (.object [("data1", .string data1),
      ("data2", .string (lib.encode blocks.flatten))]) := ⟨_, rfl⟩
  have hdone : ∀ {cipher : PortResult String} {more}, posts more = [ingestRequest url body] →
      Replied more (ingestRequest url body) "Failed to receive con_ing response" cipher →
      SaidNew lib aes128Key ip offer
        (cipher.bind fun cipher => aesEcbDecrypt lib.toCrypto cipher (simple uuid))
        (said₁ ++ (said₂ ++ (⟨.uuid, uuid⟩ :: (said₃ ++ more)))) := by
    intro cipher more hmore hcipher
    refine .inr ⟨notifyUrl, hnotify, .inr ⟨uuid, ending, body, url, hurl,
      ⟨by simp [Heard], ?_⟩, ?_, cipher, hcipher.mono fun s hs => by simp [hs], rfl⟩⟩
    · exact ⟨payload, pem, publicKey, data1, blocks, hpayload _, htold, hkey, hdata1, hsealed,
        hbody⟩
    · simp [hposts₁, hposts₂, hposts₃, hmore, Question.request?]
  rw [← hbody]
  refine (post_spec (ingestRequest url body) _).attempt (fun e said h => hdone h.1 h.2)
    fun cipher said₄ h₄ => ?_
  exact hdone (by simpa using h₄.1) (h₄.2.mono (List.subset_append_left said₄ []))

/-! ### The end of the path -/

theorem toString_digit {n : ℕ} (h : n < 10) : (toString n).toList = [Nat.digitChar n] := by
  rw [Nat.toString_eq_repr, Nat.repr_eq_ofList_toDigits, String.toList_ofList,
    Nat.toDigits_of_lt_base h]

theorem pairDigits_spec : ∀ cs : List Char,
    (pairDigits cs).length ≤ cs.length / 2 ∧ ∀ c ∈ pairDigits cs, c.isDigit = true
  | [] | [_] => ⟨Nat.zero_le _, by simp [pairDigits]⟩
  | _ :: second :: rest => by
    obtain ⟨hlen, hall⟩ := pairDigits_spec rest
    rw [pairDigits]
    split
    next index hindex =>
      obtain ⟨hlt, -⟩ := List.idxOf?_eq_some_iff.mp hindex
      rw [toString_digit hlt]
      refine ⟨?_, List.forall_mem_cons.mpr ⟨?_, hall⟩⟩
      · simp only [List.length_append, List.length_cons, List.length_nil]
        omega
      · rw [Nat.isDigit_digitChar]
        exact decide_eq_true hlt
    next =>
      refine ⟨?_, by simpa using hall⟩
      simp only [List.nil_append, List.length_cons]
      omega

/-- At most five digits. -/
theorem calcLocalPathEnding_spec (data1 : String) :
    (calcLocalPathEnding data1).toList.length ≤ 5 ∧
      ∀ c ∈ (calcLocalPathEnding data1).toList, c.isDigit = true := by
  simp only [calcLocalPathEnding]
  split
  · exact ⟨Nat.zero_le _, by simp⟩
  · rw [String.toList_ofList]
    obtain ⟨hlen, hall⟩ := pairDigits_spec (data1.toList.reverse.take 10).reverse
    refine ⟨?_, hall⟩
    rw [List.length_reverse, List.length_take] at hlen
    omega

/-! ### `con_notify` is read -/

/-- The assignment of `data1` finds an object, and what was assigned is found again. -/
theorem insertKey_data1 {lib : SignalingCrates} {json : Value} {aes128Key : Option String}
    {data1 : String} (h : decodeConNotifyData1 lib json aes128Key = .ok data1) :
    ((json.insertKey "data1" (.string data1)).get "data1").bind Value.asStr = some data1 := by
  cases json with
  | object entries =>
    rw [Value.insertKey, Value.get_object, Entries.lookup_insert, if_pos rfl]
    rfl
  | null | bool | number | string | array =>
    exact absurd h (by simp [decodeConNotifyData1, Value.get])

theorem asBytes_injective : Function.Injective asBytes := fun text text' h => by
  have htext := fromUtf8_eq.mpr h
  rw [fromUtf8_eq.mpr (rfl : asBytes text = asBytes text)] at htext
  exact Option.some_inj.mp htext

theorem readConNotify_eq {lib : SignalingCrates} {aes128Key : Option String}
    {payload pem ending : String} :
    readConNotify lib aes128Key payload = .ok (pem, ending) ↔ ∃ text json data1,
      lib.decode payload = .ok (asBytes text) ∧ lib.fromStr text = some json ∧
      decodeConNotifyData1 lib json aes128Key = .ok data1 ∧ conNotifyPublicKey data1 = .ok pem ∧
      ending = calcLocalPathEnding data1 := by
  rw [readConNotify]
  rcases hbytes : lib.decode payload with e | bytes
  · simp [Except.mapError, bind, Except.bind]
  rcases htext : fromUtf8 bytes with _ | text
  · have hnone : ∀ text, bytes ≠ asBytes text := fun text heq => by
      rw [← fromUtf8_eq, htext] at heq
      exact absurd heq (by simp)
    simp [Except.mapError, bind, Except.bind, htext, hnone]
  obtain rfl := fromUtf8_eq.mp htext
  simp only [Except.mapError, bind, Except.bind, htext, Option.elim, Except.ok.injEq,
    asBytes_injective.eq_iff]
  rcases hjson : lib.fromStr text with _ | json
  · simp [hjson]
  rcases hdata1 : decodeConNotifyData1 lib json aes128Key with e | data1
  · simp [hjson, hdata1]
  rcases hpem : conNotifyPublicKey data1 with e | pem'
  · simp [hjson, hdata1, hpem, insertKey_data1 hdata1]
  simp [hjson, hdata1, hpem, insertKey_data1 hdata1, pure, Except.pure, eq_comm]

/-! ### The whole exchange -/

theorem sendSdpLocal_spec (lib : SignalingCrates) (ip offer : String)
    (aes128Key : Option String) :
    (sendSdpLocal lib ip offer aes128Key).run.Always anyAnswer fun r said =>
      ∃ r₁ old new, said = old ++ new ∧ SaidOld lib ip offer r₁ old ∧
        ((∃ text, r₁ = .ok text ∧ r = .ok text ∧ new = []) ∨
          ∃ e₁ r₂, r₁ = .error e₁ ∧ SaidNew lib aes128Key ip offer r₂ new ∧
            r = r₂.mapError fun e₂ =>
              "legacy offer failed (" ++ e₁ ++ "); con_notify offer failed (" ++ e₂ ++ ")") := by
  refine Dialogue.always_bind.mpr ((sendSdpLocalOld_spec lib ip offer).mono fun r₁ old hold => ?_)
  rcases r₁ with e₁ | text
  · refine Dialogue.always_bind.mpr ((sendSdpLocalNew_spec lib ip offer aes128Key).mono
      fun r₂ new hnew => ?_)
    exact ⟨.error e₁, old, new, by simp, hold, .inr ⟨e₁, r₂, rfl, hnew, rfl⟩⟩
  · exact ⟨.ok text, old, [], rfl, hold, .inl ⟨text, rfl, rfl, rfl⟩⟩

/-- Where a request may go. -/
def Allowed (crate : UrlCrate) (ip : String) (url : Url) : Prop :=
  Names crate ip url.host ∧ (∀ c ∈ ip.toList, hostChar c) ∧
    (url.port = 8081 ∧ url.path = "/offer" ∨ url.port = 9991 ∧ (url.path = "/con_notify" ∨
      ∃ ending : String, url.path = "/con_ing_" ++ ending ∧ ending.toList.length ≤ 5 ∧
        ∀ c ∈ ending.toList, c.isDigit = true))

theorem plainPath_of_all {path : String} {rest : List Char} (hpath : path.toList = '/' :: rest)
    (hrest : rest.all (fun c => c.isAlphanum || c = '_') = true) : PlainPath path :=
  ⟨rest, hpath, fun c hc => by simpa using List.all_eq_true.mp hrest c hc⟩

theorem plainPath_offer : PlainPath "/offer" :=
  plainPath_of_all (String.toList_ofList : _ = ['/', 'o', 'f', 'f', 'e', 'r']) rfl

theorem plainPath_conNotify : PlainPath "/con_notify" :=
  plainPath_of_all
    (String.toList_ofList : _ = ['/', 'c', 'o', 'n', '_', 'n', 'o', 't', 'i', 'f', 'y']) rfl

theorem plainPath_conIng {ending : String} (h : ∀ c ∈ ending.toList, c.isDigit = true) :
    PlainPath ("/con_ing_" ++ ending) := by
  have hpath : ("/con_ing_" ++ ending).toList =
      '/' :: (['c', 'o', 'n', '_', 'i', 'n', 'g', '_'] ++ ending.toList) := by
    have hlist : "/con_ing_".toList = ['/', 'c', 'o', 'n', '_', 'i', 'n', 'g', '_'] :=
      String.toList_ofList
    rw [String.toList_append, hlist]
    rfl
  have hword : ['c', 'o', 'n', '_', 'i', 'n', 'g', '_'].all
      (fun c => c.isAlphanum || c = '_') = true := rfl
  have hdigits : ending.toList.all (fun c => c.isAlphanum || c = '_') = true :=
    List.all_eq_true.mpr fun c hc => by rw [Char.isAlphanum, h c hc, Bool.or_true, Bool.true_or]
  exact plainPath_of_all hpath (by rw [List.all_append, hword, hdigits, Bool.and_true])

section

variable {crate : UrlCrate} {ip : String} {url : Url}

theorem allowed_offer (h : signalingUrl crate ip 8081 "/offer" = .ok url) :
    Allowed crate ip url := by
  obtain ⟨hport, -, hnames⟩ := signalingUrl_eq_ok.mp h
  exact ⟨hnames, hnames.chars, .inl ⟨hport, signalingUrl_path h plainPath_offer⟩⟩

theorem allowed_conNotify (h : signalingUrl crate ip 9991 "/con_notify" = .ok url) :
    Allowed crate ip url := by
  obtain ⟨hport, -, hnames⟩ := signalingUrl_eq_ok.mp h
  exact ⟨hnames, hnames.chars, .inr ⟨hport, .inl (signalingUrl_path h plainPath_conNotify)⟩⟩

theorem allowed_conIng {ending : String}
    (h : signalingUrl crate ip 9991 ("/con_ing_" ++ ending) = .ok url)
    (hending : ending.toList.length ≤ 5 ∧ ∀ c ∈ ending.toList, c.isDigit = true) :
    Allowed crate ip url := by
  obtain ⟨hport, -, hnames⟩ := signalingUrl_eq_ok.mp h
  exact ⟨hnames, hnames.chars,
    .inr ⟨hport, .inr ⟨ending, signalingUrl_path h (plainPath_conIng hending.2), hending⟩⟩⟩

end

theorem Sealed.ending_digits {lib : SignalingCrates} {aes128Key : Option String} {offer : String}
    {said : Said} {notify : Request} {uuid : Uuid} {ending body : String}
    (h : Sealed lib aes128Key offer said notify uuid ending body) :
    ending.toList.length ≤ 5 ∧ ∀ c ∈ ending.toList, c.isDigit = true := by
  obtain ⟨payload, pem, publicKey, data1, blocks, -, htold, -⟩ := h.body
  obtain ⟨text, json, wrapped, -, -, -, -, rfl⟩ := readConNotify_eq.mp htold
  exact calcLocalPathEnding_spec wrapped

theorem SaidOld.allowed {lib : SignalingCrates} {ip offer : String} {r : PortResult String}
    {said : Said} (h : SaidOld lib ip offer r said) :
    ∀ request ∈ posts said, Allowed lib.toUrlCrate ip request.url := by
  rcases h with ⟨e, -, hnone, -⟩ | ⟨url, hurl, hone, -⟩
  · simp [hnone]
  · rw [hone]
    exact List.forall_mem_singleton.mpr (allowed_offer hurl)

theorem SaidNew.allowed {lib : SignalingCrates} {aes128Key : Option String} {ip offer : String}
    {r : PortResult String} {said : Said} (h : SaidNew lib aes128Key ip offer r said) :
    ∀ request ∈ posts said, Allowed lib.toUrlCrate ip request.url := by
  rcases h with ⟨e, -, hnone, -⟩ | ⟨notifyUrl, hnotify, ⟨e, -, hone, -⟩ | ⟨uuid, ending, body, url,
    hurl, hsealed, htwo, -⟩⟩
  · simp [hnone]
  · rw [hone]
    exact List.forall_mem_singleton.mpr (allowed_conNotify hnotify)
  · rw [htwo]
    exact List.forall_mem_cons.mpr ⟨allowed_conNotify hnotify,
      List.forall_mem_singleton.mpr (allowed_conIng hurl hsealed.ending_digits)⟩

/-- **The offer stays with the robot.**  Whatever the other side answers, at any time:
every request goes to the host that was given, to port 8081 for `/offer` or to port 9991 for
`/con_notify` or for `/con_ing_` and at most five digits, so that nothing the robot tells can
lead the client elsewhere.  First the offer goes in plain text to `/offer`, and to nowhere else
(`SaidOld`); the text of a good reply is the answer, and nothing more is sent.  Otherwise comes
an empty `/con_notify`, then at most one request, to the path that its reply tells, with the
offer under a fresh key and that key under the RSA key of that reply; the answer is what the
text of the last reply is under that same key (`SaidNew`).  A failure tells what became of both
attempts, each with the reason that it had. -/
theorem offers_stay_with_the_robot (lib : SignalingCrates) (aes128Key : Option String)
    (ip offer : String) (answer : Said → (q : Question) → q.Answer) :
    let r := ((exchangeSdp lib aes128Key ip offer).run.talk answer []).1
    let said := ((exchangeSdp lib aes128Key ip offer).run.talk answer []).2
    (∀ request ∈ posts said, Allowed lib.toUrlCrate ip request.url) ∧
    ∃ r₁ old new, said = old ++ new ∧ SaidOld lib ip offer r₁ old ∧
      ((∃ text, r₁ = .ok text ∧ r = .ok text ∧ new = []) ∨
        ∃ e₁ r₂, r₁ = .error e₁ ∧
          SaidNew lib (normalizeOptionalKey aes128Key) ip offer r₂ new ∧
          r = r₂.mapError fun e₂ =>
            "legacy offer failed (" ++ e₁ ++ "); con_notify offer failed (" ++ e₂ ++ ")") := by
  intro r said
  obtain ⟨more, hmore, hspec⟩ :=
    (sendSdpLocal_spec lib ip offer (normalizeOptionalKey aes128Key)).talk answer []
  have hsaid : said = more := hmore.trans (List.nil_append more)
  have hexchange := hspec fun _ _ => trivial
  rw [← hsaid] at hexchange
  refine ⟨?_, hexchange⟩
  obtain ⟨r₁, old, new, hsplit, hold, hnew⟩ := hexchange
  rw [hsplit, posts_append]
  refine fun request hrequest => (List.mem_append.mp hrequest).elim (hold.allowed request) ?_
  rcases hnew with ⟨text, -, -, rfl⟩ | ⟨e₁, r₂, -, hnew, -⟩
  · simp
  · exact hnew.allowed request

end Unitree
