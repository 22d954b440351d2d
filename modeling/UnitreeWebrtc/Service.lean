/-
The data-channel service (`datachannel/core/service.rs`).

The service is a record of what its locks and atomics hold, and its methods are
functions on that record.  What a method does to the world outside (a text
offered to the transport, an answer on a oneshot, an event for the callback
channel, a LiDAR job, a spawned heartbeat) is appended to `effects`.

What the methods read is of two kinds.  `Platform` has the pure code that is
not modelled: `serde_json`'s reader and writer, the digests of the handshake,
and the floating-point geometry check.  `Env` has the answers of one step: the
transport's state and its verdict on a send, the clocks, a fresh UUID, the
buffer capacities of a value, and the LiDAR queue.  Logging and its counters
are left out.

Session ids are natural numbers, so that they do not repeat.  Readings of the
`f64` clock are numbers, and how `f64` compares two of them is up to `Env`.
-/
import UnitreeWebrtc.Chunks
import UnitreeWebrtc.Correlation
import UnitreeWebrtc.Events

namespace Unitree

def maxPendingRequests : ℕ := 128

/-- `MAX_COMPRESSED_BYTES` of the LiDAR codec. -/
def maxCompressedBytes : ℕ := 1024 * 1024 + 1024 * 1024 / 255 + 16

/-! ### The world of the service -/

structure Platform where
  serde : Serde
  /-- `Value::to_string`. -/
  display : Value → String
  md5Hex : String → String
  hexToBase64 : String → PortResult String
  /-- `validate_geometry`, of the numbers before their conversion to `f64`. -/
  validateGeometry : ℕ → Number × Number × Number → Number → PortResult Unit

structure Env where
  /-- Whether the transport is open when `publish` first looks. -/
  ready : Bool
  /-- Whether it is open when `send_message_locked` looks. -/
  readyAtSend : Bool
  sendText : Value → PortResult Unit
  /-- `Instant::now()`, in nanoseconds. -/
  now : ℕ
  /-- `now_secs_u64()`. -/
  wallSecs : ℕ
  /-- `now_secs_f64()`. -/
  wallTime : ℚ
  /-- The same clock, when `dispatch_subscription` reads it. -/
  dispatchTime : ℚ
  /-- Whether `now - last >= limit`, as `f64` subtracts and compares. -/
  due : (limit last now : ℚ) → Bool
  /-- `Local::now()`, formatted. -/
  localTime : String
  uuid : String
  footprint : Value → Footprint
  /-- The answer of the bounded queue of the LiDAR workers. -/
  lidarQueue : PortResult Unit

structure PendingCallback where
  /-- The identity of the call's guard and of its oneshot. -/
  token : ℕ
  expectation : ResponseExpectation
  sessionId : ℕ

structure LidarMetadata where
  origin : Number × Number × Number
  resolution : Number
  srcSize : ℕ

structure LidarDecodeRequest where
  generation : ℕ
  topic : String
  payload : Value
  compressedData : List UInt8
  metadata : LidarMetadata

inductive Effect where
  | sendText (message : Value)
  | setIngressGeneration (generation : ℕ)
  | complete (token : ℕ) (result : PortResult Value)
  | event (generation : ℕ) (event : CallbackEvent)
  | submit (request : LidarDecodeRequest)
  | spawnHeartbeat (epoch stop : ℕ)

structure Service where
  pendingCallbacks : Table String PendingCallback
  subscriptions : Finset String
  chunkDataStorage : ChunkAssembler
  validationKey : String
  dataChannelOpened : Bool
  heartbeatLastResponse : ℕ
  heartbeatRunning : Bool
  /-- The stop channel of the heartbeat worker that was spawned last. -/
  heartbeatStopTx : Option ℕ
  networkProbeRunning : Bool
  lastProcessTime : Table String ℚ
  decoderType : String
  sessionId : ℕ
  requestSequence : ℕ
  /-- The next identity of a token or stop channel. -/
  nextId : ℕ
  effects : List Effect

/-- `encrypt_key`. -/
def Platform.encryptKey (p : Platform) (key : String) : PortResult String :=
  p.hexToBase64 (p.md5Hex ("UnitreeGo2_" ++ key))

/-- `LidarMetadata::from_json`. -/
def LidarMetadata.fromJson (p : Platform) (data : Value) : Option LidarMetadata :=
  match (data.get "origin").bind Value.asArray, data.get "resolution",
      (data.get "src_size").bind Value.asU64 with
  | some [.number x, .number y, .number z], some (.number resolution), some srcSize =>
    match p.validateGeometry srcSize (x, y, z) resolution with
    | .ok () => some { origin := (x, y, z), resolution, srcSize }
    | .error _ => none
  | _, _, _ => none

/-! ### Values and bytes -/

def bytesToJsonArray (bytes : List UInt8) : Value :=
  .array (bytes.map fun byte => .number (.ofByte byte))

/-- `u8::try_from(element.as_u64()?)`. -/
def byteOf (element : Value) : Option UInt8 :=
  element.asU64.bind fun n => if n < 256 then some (UInt8.ofNat n) else none

def valueToChunkBytes (value : Value) : Option (List UInt8) :=
  match value with
  | .string text => if (asBytes text).length ≤ maxTransferBytes then some (asBytes text) else none
  | .array elements =>
    if elements.length > maxTransferBytes then none else elements.mapM byteOf
  | _ => none

def injectBinaryData (decodedJson : Value) (binaryData : List UInt8) : Value :=
  let data := match (decodedJson.get "data").bind Value.asObject with
    | some entries => entries
    | none => []
  decodedJson.insertKey "data" (.object (Entries.insert "data" (bytesToJsonArray binaryData) data))

/-! ### Chunk messages -/

/-- What a chunk message says: the metadata, the payload, and where it is. -/
structure ChunkView where
  metadata : Value
  payload : Option Value
  schema : ChunkSchema

/-- The `enable_chunking` flag of a piece of metadata. -/
def enablesChunking (info : Value) : Bool :=
  (info.get "enable_chunking").bind Value.asBool = some true

def contentView (message : Value) : Option ChunkView :=
  (message.pointer ["data", "content_info"]).bind fun info =>
    if enablesChunking info then
      some { metadata := info, payload := message.pointer ["data", "data"], schema := .content }
    else none

def fileView (message : Value) : Option ChunkView :=
  (message.pointer ["info", "file"]).bind fun info =>
    if enablesChunking info then
      some { metadata := info, payload := info.get "data", schema := .file }
    else none

/-- The match at the head of `handle_chunked_response`; `none` is a message
that is not a chunk. -/
def chunkView (message : Value) : Option ChunkView := (contentView message).or (fileView message)

/-- Index, count and bytes of a chunk. -/
def ChunkView.parse (c : ChunkView) : PortResult (ℕ × ℕ × List UInt8) :=
  match (c.metadata.get "chunk_index").bind Value.asU64 with
  | none => .error "Invalid chunk index"
  | some index =>
    match (c.metadata.get "total_chunk_num").bind Value.asU64 with
    | none => .error "Invalid chunk count"
    | some total =>
      match c.payload.bind valueToChunkBytes with
      | none => .error "Invalid chunk bytes"
      | some bytes => .ok (index, total, bytes)

namespace Service

/-! ### Effects and settling -/

def emit (s : Service) (e : Effect) : Service := { s with effects := s.effects ++ [e] }

/-- Take a callback out of the table and send it its answer. -/
def settle (s : Service) (key : String) (answer : PendingCallback → PortResult Value) : Service :=
  match s.pendingCallbacks.lookup key with
  | none => s
  | some callback =>
    emit { s with pendingCallbacks := s.pendingCallbacks.erase key }
      (.complete callback.token (answer callback))

def failPending (s : Service) (key error : String) : Service := s.settle key fun _ => .error error

def failAllPending (s : Service) (reason : String) : Service :=
  { s with
    pendingCallbacks := ∅
    effects := s.effects ++
      s.pendingCallbacks.values.map fun callback => .complete callback.token (.error reason) }

/-- The answer `resolve_pending_response` sends. -/
def resolution (callback : PendingCallback) (currentSession : ℕ) (message : Value) :
    PortResult Value :=
  if callback.sessionId ≠ currentSession then
    .error "Response belongs to a stale DataChannel session"
  else (callback.expectation.validate message).map fun _ => message

def resolvePendingResponse (s : Service) (key : String) (message : Value) : Service :=
  s.settle key fun callback => resolution callback s.sessionId message

/-! ### Sending -/

/-- The message `send_message_locked` serialises. -/
def outgoing (topic : String) (data : Option Value) (msgType : String) : Value :=
  match data with
  | none => .object [("topic", .string topic), ("type", .string msgType)]
  | some data => .object [("data", data), ("topic", .string topic), ("type", .string msgType)]

def sendMessageLocked (env : Env) (s : Service) (topic : String) (data : Option Value)
    (msgType : String) : PortResult Unit × Service :=
  if env.readyAtSend then
    let message := outgoing topic data msgType
    (env.sendText message, s.emit (.sendText message))
  else (.error "Data channel is not open", s)

/-! ### Chunked responses -/

/-- The closure `parse` of the source: read a chunk and feed it to the
assembler. -/
def feedChunk (env : Env) (chunks : ChunkAssembler) (key : String) (c : ChunkView) :
    PortResult (Option (List UInt8)) × ChunkAssembler :=
  match c.parse with
  | .error e => (.error e, chunks)
  | .ok (index, total, bytes) => chunks.insert key c.schema.path index total bytes env.now

/-- What follows from the assembler's verdict on a chunk. -/
def settleChunk (s : Service) (message : Value) (schema : ChunkSchema) :
    PortResult (Option (List UInt8)) → Service
  | .ok (some bytes) =>
    if bytes.length > maxBinaryExpansionBytes then
      s.failPending (incomingKey message) "Binary JSON expansion exceeds 1 MiB"
    else
      match Value.setPath schema.tokens (bytesToJsonArray bytes) message with
      | some merged => s.resolvePendingResponse (incomingKey message) merged
      -- the payload was read at this path, so it is there (`chunkView_setPath`)
      | none => s
  | .ok none => s
  | .error e =>
    failPending { s with chunkDataStorage := s.chunkDataStorage.remove (incomingKey message) }
      (incomingKey message) e

def handleChunkedResponse (env : Env) (s : Service) (message : Value) : Option Service :=
  (chunkView message).map fun c =>
    let (result, chunks) := feedChunk env s.chunkDataStorage (incomingKey message) c
    settleChunk { s with chunkDataStorage := chunks } message c.schema result

def expireChunks (env : Env) (s : Service) : Service :=
  let (expired, chunks) := s.chunkDataStorage.expire env.now
  expired.foldl (fun s key => s.failPending key "Chunk assembly deadline expired")
    { s with chunkDataStorage := chunks }

def runResolve (env : Env) (s : Service) (message : Value) : Service :=
  if (message.get "type").isNone then s
  else
    match s.handleChunkedResponse env message with
    | some s => s
    | none => s.resolvePendingResponse (incomingKey message) message

/-! ### Text responses -/

def stopHeartbeat (s : Service) : Service :=
  { s with heartbeatRunning := false, heartbeatStopTx := none }

def startHeartbeatInSession (s : Service) : Service :=
  if s.heartbeatRunning then s
  else
    emit { s with
      heartbeatRunning := true
      heartbeatStopTx := some s.nextId
      nextId := s.nextId + 1 } (.spawnHeartbeat s.sessionId s.nextId)

def requestNetworkStatusOnce (env : Env) (s : Service) : Service :=
  if s.networkProbeRunning then s
  else
    (sendMessageLocked env { s with networkProbeRunning := true } ""
      (some (.object [("req_type", .string "public_network_status"), ("uuid", .string env.uuid)]))
      DcType.rtcInnerReq).2

/-- Answer a validation challenge. -/
def sendValidation (p : Platform) (env : Env) (s : Service) (key : String) : Service :=
  match p.encryptKey key with
  | .error _ => s
  | .ok encrypted => (s.sendMessageLocked env "" (some (.string encrypted)) DcType.validation).2

def handleValidation (p : Platform) (env : Env) (s : Service) (message : Value) : Service :=
  match (message.get "data").bind Value.asStr with
  | none => s
  | some key =>
    if key = "Validation Ok." then
      requestNetworkStatusOnce env (startHeartbeatInSession
        { s with dataChannelOpened := true, heartbeatLastResponse := env.wallSecs })
    else sendValidation p env { s with validationKey := key } key

def handleValidationErr (p : Platform) (env : Env) (s : Service) (message : Value) : Service :=
  if (message.get "info").bind Value.asStr = some "Validation Needed." ∧ s.validationKey ≠ "" then
    sendValidation p env s s.validationKey
  else s

def handleRtcInnerReq (env : Env) (s : Service) (message : Value) : Service :=
  match message.get "info" with
  | none => s
  | some info =>
    let s := if (info.get "req_type").bind Value.asStr = some "rtt_probe_send_from_mechine" then
        (s.sendMessageLocked env "" (some info) DcType.rtcInnerReq).2
      else s
    let status := (info.get "status").bind Value.asStr
    if status = some "NetworkStatus.ON_4G_CONNECTED" ∨
        status = some "NetworkStatus.ON_WIFI_CONNECTED" then
      { s with networkProbeRunning := false }
    else s

def handleTextResponse (p : Platform) (env : Env) (s : Service) (message : Value) : Service :=
  let msgType := strOf message "type"
  if msgType = DcType.validation then s.handleValidation p env message
  else if msgType = DcType.rtcInnerReq then s.handleRtcInnerReq env message
  else if msgType = DcType.heartbeat then { s with heartbeatLastResponse := env.wallSecs }
  else if msgType = DcType.err then s.handleValidationErr p env message
  -- the error reports only write a log line, the remaining types do nothing
  else s

/-! ### Subscriptions -/

/-- `throttle_limits`: fifteen messages a second, `1.0 / 15.0`. -/
def throttleLimit (topicOrType : String) : Option ℚ :=
  if topicOrType = "rt/utlidar/voxel_map_compressed" ∨ topicOrType = DcType.vid then
    some (1 / 15)
  else none

/-- `should_process`, as `due` compares times. -/
def shouldProcess (due : (limit last now : ℚ) → Bool) (now : ℚ) (s : Service)
    (topicOrType : String) : Bool × Service :=
  match throttleLimit topicOrType with
  | none => (true, s)
  | some limit =>
    let last := (s.lastProcessTime.lookup topicOrType).getD 0
    if due limit last now then
      (true, { s with lastProcessTime := s.lastProcessTime.insert topicOrType now })
    else (false, s)

/-- The event of a subscribed topic; `to_string` allocates exactly. -/
def topicEvent (env : Env) (topic : String) (message : Value) : CallbackEvent :=
  .topicCallback { data := topic, capacity := topic.utf8ByteSize }
    { value := message, footprint := env.footprint message }

def dispatchSubscription (env : Env) (s : Service) (message : Value) : Service :=
  let topic := strOf message "topic"
  if topic = "" then s
  else
    match s.shouldProcess env.due env.dispatchTime topic with
    | (false, s) => s
    | (true, s) =>
      if topic ∈ s.subscriptions then
        s.emit (.event s.sessionId (topicEvent env topic message))
      else s

/-! ### Binary messages -/

def rejectBinaryResponse (s : Service) (message : Value) (reason : String) : Service :=
  let key := incomingKey message
  failPending { s with chunkDataStorage := s.chunkDataStorage.remove key } key reason

/-- `LidarWorkerPool::submit`. -/
def submit (p : Platform) (env : Env) (s : Service) (request : LidarDecodeRequest) :
    PortResult Unit × Service :=
  match p.validateGeometry request.metadata.srcSize request.metadata.origin
      request.metadata.resolution with
  | .error e => (.error e, s)
  | .ok () =>
    if request.compressedData.length > maxCompressedBytes then
      (.error "LiDAR compressed size exceeds resource budget", s)
    else
      match env.lidarQueue with
      | .error e => (.error e, s)
      | .ok () => (.ok (), s.emit (.submit request))

/-- Whether a frame is meant for the LiDAR decoder. -/
def lidarIntent (frame : BinaryFrame) (topicOrType : String) (data : Option Value) : Bool :=
  frame = .lidar || topicOrType.startsWith "rt/utlidar/" ||
    match data with
    | none => false
    | some data => (data.get "src_size").isSome ||
        (data.get "origin").isSome && (data.get "resolution").isSome

/-- The topic of a header, else its type. -/
def topicOrType (decodedJson : Value) : String :=
  match (decodedJson.get "topic").bind Value.asStr with
  | some topic => topic
  | none => strOf decodedJson "type"

/-- The LiDAR half of `process_binary_payload`. -/
def processLidar (p : Platform) (env : Env) (s : Service) (decodedJson : Value)
    (binaryData : List UInt8) (metadata : LidarMetadata) : Service :=
  if binaryData.length > maxCompressedBytes then
    s.rejectBinaryResponse decodedJson "LiDAR compressed size exceeds resource budget"
  else if s.decoderType ≠ "native" then
    s.rejectBinaryResponse decodedJson "Unsupported LiDAR decoder"
  else
    match s.shouldProcess env.due env.wallTime (topicOrType decodedJson) with
    | (false, s) => s
    | (true, s) =>
      match s.submit p env
          { generation := s.sessionId, topic := topicOrType decodedJson, payload := decodedJson,
            compressedData := binaryData, metadata } with
      | (.ok (), s) => s
      | (.error e, s) => s.failPending (incomingKey decodedJson) e

def processBinaryPayload (p : Platform) (env : Env) (s : Service) (frame : BinaryFrame)
    (decodedJson : Value) (binaryData : List UInt8) : Option Value × Service :=
  let data := decodedJson.get "data"
  match data.bind (LidarMetadata.fromJson p) with
  | some metadata => (none, s.processLidar p env decodedJson binaryData metadata)
  | none =>
    if lidarIntent frame (topicOrType decodedJson) data then
      (none, s.rejectBinaryResponse decodedJson "Invalid LiDAR metadata")
    else if binaryData.length > maxBinaryExpansionBytes then
      (none, s.rejectBinaryResponse decodedJson "Binary JSON expansion exceeds 1 MiB")
    else
      match s.shouldProcess env.due env.wallTime (topicOrType decodedJson) with
      | (false, s) => (none, s)
      | (true, s) => (some (injectBinaryData decodedJson binaryData), s)

def dealArrayBuffer (p : Platform) (env : Env) (s : Service) (buffer : List UInt8) :
    Option Value × Service :=
  if buffer.length > maxBinaryBytes then (none, s)
  else
    match Framing.parse p.serde buffer with
    | .error _ => (none, s)
    | .ok (frame, header, payload) => s.processBinaryPayload p env frame header payload

/-! ### The router and the lifecycle -/

/-- Move to the next session generation, and tell the transport. -/
def bumpSession (s : Service) : Service :=
  emit { s with sessionId := s.sessionId + 1 } (.setIngressGeneration (s.sessionId + 1))

def handleFault (s : Service) (error : String) : Service :=
  failAllPending
    { s.bumpSession.stopHeartbeat with
      dataChannelOpened := false
      networkProbeRunning := false
      chunkDataStorage := s.chunkDataStorage.clear } error

def startNewSession (s : Service) : Service :=
  failAllPending
    { s.bumpSession.stopHeartbeat with
      networkProbeRunning := false
      dataChannelOpened := false
      heartbeatLastResponse := 0
      chunkDataStorage := s.chunkDataStorage.clear } "DataChannel session reset"

/-- The messages of the current generation. -/
def handlePayload (p : Platform) (env : Env) (s : Service) : DcMessage → Service
  | .transportFault error => s.handleFault error
  | .text text =>
    match parseJson p.serde (asBytes text) with
    | .error _ => s
    | .ok parsed =>
      ((s.runResolve env parsed).handleTextResponse p env parsed).dispatchSubscription env parsed
  | .binary bytes =>
    match s.dealArrayBuffer p env bytes with
    | (none, s) => s
    | (some parsed, s) => (s.runResolve env parsed).dispatchSubscription env parsed

def processIngress (p : Platform) (env : Env) (s : Service) (message : IngressMessage) : Service :=
  if message.generation ≠ s.sessionId then s else s.handlePayload p env message.payload

/-- The locked section of a heartbeat worker's loop. -/
def heartbeatTick (env : Env) (s : Service) (epoch : ℕ) : Service :=
  if s.sessionId ≠ epoch then s
  else if s.heartbeatLastResponse > 0 ∧ env.wallSecs - s.heartbeatLastResponse > 6 then
    let s := failAllPending { s.stopHeartbeat with dataChannelOpened := false } "Heartbeat timeout"
    { s with chunkDataStorage := s.chunkDataStorage.clear }
  else if env.ready then
    (s.sendMessageLocked env ""
      (some (.object [("timeInNum", .number (.ofU64 env.wallSecs)),
        ("timeInStr", .string env.localTime)])) DcType.heartbeat).2
  else s

/-- `prepare_ingress`. -/
def prepareIngress (s : Service) : Service := s.emit (.setIngressGeneration s.sessionId)

/-! ### Calls -/

/-- `f64` seconds, as far as a timeout looks at them. -/
inductive Seconds where
  | finite (x : ℚ)
  | nonFinite

/-- `validated_timeout`; `fits` says that the deadline is representable. -/
def validatedTimeout (fits : ℚ → Bool) : Seconds → PortResult ℚ
  | .finite x =>
    if 0 ≤ x ∧ fits x then .ok x
    else .error "Invalid timeout: expected finite nonnegative seconds representable as a deadline"
  | .nonFinite =>
    .error "Invalid timeout: expected finite nonnegative seconds representable as a deadline"

/-- `PendingRequestGuard::drop`: only the entry of the guard's own token goes,
and the chunks under its key with it. -/
def dropGuard (s : Service) (key : String) (token : ℕ) : Service :=
  match s.pendingCallbacks.lookup key with
  | none => s
  | some callback =>
    if callback.token = token then
      { s with
        pendingCallbacks := s.pendingCallbacks.erase key
        chunkDataStorage := s.chunkDataStorage.remove key }
    else s

/-- File a callback under `key`, in the current session. -/
def register (s : Service) (key : String) (expectation : ResponseExpectation) : Service :=
  { s with
    pendingCallbacks := s.pendingCallbacks.insert key
      { token := s.nextId, expectation, sessionId := s.sessionId }
    nextId := s.nextId + 1 }

/-- The lifecycle-locked part of `publish_with_expectation`, up to the point
where the call waits: its key and token, or the error it returns. -/
def publishWithExpectation (env : Env) (s : Service) (topic : String) (data : Option Value)
    (msgType : String) (expectation : ResponseExpectation) : PortResult (String × ℕ) × Service :=
  let key := outgoingKey msgType topic data
  if ¬ env.ready then (.error "Data channel is not open", s)
  else if (s.pendingCallbacks.lookup key).isSome then
    (.error ("Duplicate in-flight request key: " ++ key), s)
  else if s.pendingCallbacks.size ≥ maxPendingRequests then
    (.error "DataChannel in-flight request limit reached", s)
  else
    match (s.register key expectation).sendMessageLocked env topic data msgType with
    -- the guard is dropped on the way out
    | (.error e, s') => (.error e, s'.dropGuard key s.nextId)
    | (.ok (), s') => (.ok (key, s.nextId), s')

/-- All that `publish_with_expectation` can do: refuse, register and go on to wait, or
register and drop the guard because the send was refused. -/
theorem publishWithExpectation_cases (env : Env) (s : Service) (topic : String)
    (data : Option Value) (msgType : String) (expectation : ResponseExpectation) :
    let key := outgoingKey msgType topic data
    let sent := (s.register key expectation).sendMessageLocked env topic data msgType
    (∃ e, s.publishWithExpectation env topic data msgType expectation = (.error e, s)) ∨
    (s.pendingCallbacks.lookup key = none ∧ s.pendingCallbacks.size < maxPendingRequests ∧
      (sent.1 = .ok () ∧ s.publishWithExpectation env topic data msgType expectation =
          (.ok (key, s.nextId), sent.2) ∨
        ∃ e, sent.1 = .error e ∧ s.publishWithExpectation env topic data msgType expectation =
          (.error e, sent.2.dropGuard key s.nextId))) := by
  intro key sent
  rw [publishWithExpectation]
  split
  · exact Or.inl ⟨_, rfl⟩
  split
  · exact Or.inl ⟨_, rfl⟩
  next hfree =>
    split
    · exact Or.inl ⟨_, rfl⟩
    next hroom =>
      refine Or.inr ⟨by simpa using hfree, by omega, ?_⟩
      rcases hsent : sent with ⟨e | _, s'⟩
      · refine Or.inr ⟨e, rfl, ?_⟩
        rw [show (s.register _ expectation).sendMessageLocked env topic data msgType = _
          from hsent]
      · refine Or.inl ⟨rfl, ?_⟩
        rw [show (s.register _ expectation).sendMessageLocked env topic data msgType = _
          from hsent]

/-- `publish`, with the default timeout of ten seconds. -/
def publish (fits : ℚ → Bool) (env : Env) (s : Service) (topic : String) (data : Option Value)
    (msgType : Option String) (timeout : Option Seconds) : PortResult (String × ℕ) × Service :=
  match validatedTimeout fits (timeout.getD (.finite 10)) with
  | .error e => (.error e, s)
  | .ok _ => s.publishWithExpectation env topic data (msgType.getD DcType.msg) .any

/-- `generated_identity_id`. -/
def generatedIdentityId (s : Service) : I64 × Service :=
  (⟨(s.requestSequence % (2 ^ 31 - 1) + 1 : ℕ), by omega⟩,
    { s with requestSequence := (s.requestSequence + 1) % 2 ^ 64 })

/-- The wire identity of an API request: the caller's, or a generated one. -/
def wireId (s : Service) (options : Value) : I64 × Service :=
  match (options.get "id").bind Value.asI64 with
  | some id => (id, s)
  | none => s.generatedIdentityId

/-- The text of the `parameter` option. -/
def parameterText (p : Platform) (options : Value) : String :=
  match options.get "parameter" with
  | none => ""
  | some (.string text) => text
  | some parameter => p.display parameter

def publishRequestNew (p : Platform) (fits : ℚ → Bool) (env : Env) (s : Service)
    (topic : String) (options : Value) (timeout : Option Seconds) :
    PortResult (String × ℕ) × Service :=
  match (options.get "api_id").bind Value.asI64 with
  | none => (.error "Please provide api_id", s)
  | some apiId =>
    let (id, s) := s.wireId options
    match validatedTimeout fits (timeout.getD (.finite 10)) with
    | .error e => (.error e, s)
    | .ok _ =>
      s.publishWithExpectation env topic
        (some (requestPayload id apiId (parameterText p options) (options.get "priority").isSome))
        DcType.request (.forApiRequest topic apiId)

/-- `publish_without_callback`. -/
def publishWithoutCallback (env : Env) (s : Service) (topic : String) (data : Option Value)
    (msgType : Option String) : PortResult Unit × Service :=
  s.sendMessageLocked env topic data (msgType.getD DcType.msg)

def subscribe (env : Env) (s : Service) (topic : String) : PortResult Unit × Service :=
  match s.sendMessageLocked env topic none DcType.subscribe with
  | (.error e, s) => (.error e, s)
  | (.ok (), s) => (.ok (), { s with subscriptions := insert topic s.subscriptions })

def unsubscribe (env : Env) (s : Service) (topic : String) : PortResult Unit × Service :=
  match s.sendMessageLocked env topic none DcType.unsubscribe with
  | (.error e, s) => (.error e, s)
  | (.ok (), s) => (.ok (), { s with subscriptions := s.subscriptions.erase topic })

theorem subscribe_eq (env : Env) (s : Service) (topic : String) :
    s.subscribe env topic =
      ((s.sendMessageLocked env topic none DcType.subscribe).1,
        { (s.sendMessageLocked env topic none DcType.subscribe).2 with
          subscriptions :=
            if (s.sendMessageLocked env topic none DcType.subscribe).1 = .ok () then
              insert topic (s.sendMessageLocked env topic none DcType.subscribe).2.subscriptions
            else (s.sendMessageLocked env topic none DcType.subscribe).2.subscriptions }) := by
  rw [subscribe]
  rcases s.sendMessageLocked env topic none DcType.subscribe with ⟨e | _, s'⟩
  · rfl
  · rfl

theorem unsubscribe_eq (env : Env) (s : Service) (topic : String) :
    s.unsubscribe env topic =
      ((s.sendMessageLocked env topic none DcType.unsubscribe).1,
        { (s.sendMessageLocked env topic none DcType.unsubscribe).2 with
          subscriptions :=
            if (s.sendMessageLocked env topic none DcType.unsubscribe).1 = .ok () then
              (s.sendMessageLocked env topic none DcType.unsubscribe).2.subscriptions.erase topic
            else (s.sendMessageLocked env topic none DcType.unsubscribe).2.subscriptions }) := by
  rw [unsubscribe]
  rcases s.sendMessageLocked env topic none DcType.unsubscribe with ⟨e | _, s'⟩
  · rfl
  · rfl

/-- What `try_new` assembles, with the seeds of its two counters. -/
def new (sessionId requestSequence : ℕ) : Service :=
  prepareIngress
    { pendingCallbacks := ∅, subscriptions := ∅, chunkDataStorage := .empty, validationKey := ""
      dataChannelOpened := false, heartbeatLastResponse := 0, heartbeatRunning := false
      heartbeatStopTx := none, networkProbeRunning := false, lastProcessTime := ∅
      decoderType := "native", sessionId, requestSequence, nextId := 0, effects := [] }

end Service

/-! ### A world for concrete runs -/

/-- A platform whose JSON reader knows these documents. -/
def Platform.reading (docs : List (String × Syntax)) : Platform where
  serde data := (docs.find? fun d => asBytes d.1 = data).map fun d => d.2
  display _ := ""
  md5Hex _ := ""
  hexToBase64 _ := .error "Invalid hex"
  validateGeometry _ _ _ := .error "Invalid LiDAR size or resolution"

/-- An open transport that accepts every send, at one instant. -/
def Env.at (now : ℕ) : Env where
  ready := true
  readyAtSend := true
  sendText _ := .ok ()
  now := now
  wallSecs := 0
  wallTime := 0
  dispatchTime := 0
  due limit last now := limit ≤ now - last
  localTime := ""
  uuid := ""
  footprint := Footprint.ofValue
  lidarQueue := .ok ()

end Unitree
