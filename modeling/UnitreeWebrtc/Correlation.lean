/-
Request correlation: how a call and an incoming message come to one key.

A call derives its key from the data it sends (`outgoingKey`), a message from
the data or info it carries (`incomingKey`), with the same five-step fallback
underneath (`extractKey`).  A pending call also carries what it expects of the
answer (`ResponseExpectation`), checked before the answer is handed over.

* `outgoingKey_request` — the key of an API request is the decimal text of its
  wire identity;
* `incomingKey_setPath` — replacing the payload of a chunk message keeps its
  key, so a merged response is filed under the key its chunks came with;
* `validate_forApiRequest` — what an accepted answer to an API request says.
-/
import UnitreeWebrtc.Ingress

namespace Unitree

/-! ### The wire vocabulary -/

namespace DcType

def validation : String := "validation"
def subscribe : String := "subscribe"
def unsubscribe : String := "unsubscribe"
def msg : String := "msg"
def request : String := "req"
def vid : String := "vid"
def err : String := "err"
def heartbeat : String := "heartbeat"
def rtcInnerReq : String := "rtc_inner_req"

end DcType

/-! ### Keys -/

/-- The text of a scalar; objects, arrays and `null` have none. -/
def scalarToString : Value → Option String
  | .string s => some s
  | .number n => some n.display
  | .bool b => some (toString b)
  | _ => none

def nestedScalarToString (payload : Value) (keys : List String) : Option String :=
  (payload.pointer keys).bind scalarToString

/-- `RequestIdentity::extract_key`. -/
def extractKey (payload : Value) : Option String :=
  match nestedScalarToString payload ["uuid"] with
  | some value => some value
  | none =>
    match nestedScalarToString payload ["header", "identity", "id"] with
    | some value => some value
    | none =>
      match nestedScalarToString payload ["req_uuid"] with
      | some value => some value
      | none =>
        let type := (nestedScalarToString payload ["type"]).getD ""
        let topic := (nestedScalarToString payload ["topic"]).getD ""
        if type = "" ∧ topic = "" then none else some (type ++ " $ " ++ topic)

def generateMessageKey (msgType topic : String) (identifier : Option String) : String :=
  identifier.getD (msgType ++ " $ " ++ topic)

def nestedString (root : Value) (keys : List String) : Option String :=
  (root.pointer keys).bind Value.asStr

/-- The string under a key, or the empty one. -/
def strOf (message : Value) (key : String) : String :=
  ((message.get key).bind Value.asStr).getD ""

def incomingKey (message : Value) : String :=
  let identifier :=
    match (message.get "data").bind extractKey with
    | some key => some key
    | none =>
      match nestedString message ["info", "uuid"] with
      | some key => some key
      | none => nestedString message ["info", "req_uuid"]
  generateMessageKey (strOf message "type") (strOf message "topic") identifier

/-- The key under which `publish_with_expectation` registers a call. -/
def outgoingKey (effectiveType topic : String) (data : Option Value) : String :=
  generateMessageKey effectiveType topic (data.bind extractKey)

/-! ### Expectations -/

/-- `str::strip_suffix`. -/
def stripSuffix (s suffix : String) : Option String :=
  if suffix.toList.isSuffixOf s.toList then
    some (String.ofList (s.toList.take (s.toList.length - suffix.toList.length)))
  else none

def expectedResponseTopic (requestTopic : String) : String :=
  match stripSuffix requestTopic "/request" with
  | some stem => stem ++ "/response"
  | none => requestTopic

structure ResponseExpectation where
  topics : Option (List String)
  apiId : Option I64

namespace ResponseExpectation

def any : ResponseExpectation := { topics := none, apiId := none }

def forApiRequest (requestTopic : String) (apiId : I64) : ResponseExpectation :=
  let responseTopic := expectedResponseTopic requestTopic
  let topics := if responseTopic ≠ requestTopic then [requestTopic, responseTopic]
    else [requestTopic]
  { topics := some topics, apiId := some apiId }

/-- `data.header.identity.api_id` of a message. -/
def actualApiId (message : Value) : Option I64 :=
  (message.pointer ["data", "header", "identity", "api_id"]).bind Value.asI64

/-- `{:?}` of an `Option<i64>`. -/
def debugApiId : Option I64 → String
  | some i => "Some(" ++ toString i.1 ++ ")"
  | none => "None"

def validateTopic (e : ResponseExpectation) (message : Value) : PortResult Unit :=
  match e.topics with
  | none => .ok ()
  | some topics =>
    if strOf message "topic" ∈ topics then .ok () else .error "Response topic mismatch"

def validateApiId (e : ResponseExpectation) (message : Value) : PortResult Unit :=
  match e.apiId with
  | none => .ok ()
  | some expected =>
    if actualApiId message = some expected then .ok ()
    else .error ("Response api_id mismatch: expected " ++ toString expected.1 ++ ", got "
      ++ debugApiId (actualApiId message))

def validate (e : ResponseExpectation) (message : Value) : PortResult Unit :=
  match e.validateTopic message with
  | .error reason => .error reason
  | .ok () => e.validateApiId message

/-- What an accepted answer to an API request says. -/
theorem validate_forApiRequest {topic : String} {apiId : I64} {message : Value}
    (h : (forApiRequest topic apiId).validate message = .ok ()) :
    (strOf message "topic" = topic ∨ strOf message "topic" = expectedResponseTopic topic) ∧
      actualApiId message = some apiId := by
  rw [validate] at h
  rcases ht : (forApiRequest topic apiId).validateTopic message with reason | _
  · rw [ht] at h
    exact absurd h (by simp)
  · rw [ht] at h
    simp only [validateTopic, forApiRequest] at ht
    simp only [validateApiId, forApiRequest] at h
    constructor
    · by_cases htopic : expectedResponseTopic topic ≠ topic
      · rw [if_pos htopic] at ht
        by_contra hmem
        rw [if_neg (by simpa using hmem)] at ht
        exact absurd ht (by simp)
      · rw [if_neg htopic] at ht
        by_contra hmem
        rw [if_neg (by simpa using (not_or.mp hmem).1)] at ht
        exact absurd ht (by simp)
    · split at h
      · assumption
      · exact absurd h (by simp)

end ResponseExpectation

theorem stripSuffix_eq_some {s suffix stem : String} (h : stripSuffix s suffix = some stem) :
    s = stem ++ suffix := by
  rw [stripSuffix] at h
  split at h
  next hsuf =>
    obtain ⟨rest, hrest⟩ := List.isSuffixOf_iff_suffix.mp hsuf
    rw [← Option.some_inj.mp h, ← hrest]
    apply String.toList_injective
    simp [← hrest]
  next => exact absurd h (by simp)

/-- And only such a topic is answered on another one. -/
theorem expectedResponseTopic_cases (topic : String) :
    expectedResponseTopic topic = topic ∨
      ∃ stem, topic = stem ++ "/request" ∧ expectedResponseTopic topic = stem ++ "/response" := by
  rw [expectedResponseTopic]
  split
  next stem h => exact Or.inr ⟨stem, stripSuffix_eq_some h, rfl⟩
  next => exact Or.inl rfl

/-! ### The data of an API request -/

/-- The payload `publish_request_new` builds. -/
def requestPayload (id apiId : I64) (parameter : String) (priority : Bool) : Value :=
  let identity := Value.object [("api_id", .number (.ofI64 apiId)), ("id", .number (.ofI64 id))]
  let header := if priority then
      [("identity", identity), ("policy", .object [("priority", .number (.ofI64 ⟨1, by simp⟩))])]
    else [("identity", identity)]
  .object [("header", .object header), ("parameter", .string parameter)]

theorem extractKey_requestPayload (id apiId : I64) (parameter : String) (priority : Bool) :
    extractKey (requestPayload id apiId parameter priority) = some (toString id.1) := by
  have hu : nestedScalarToString (requestPayload id apiId parameter priority) ["uuid"] = none := rfl
  have hi : nestedScalarToString (requestPayload id apiId parameter priority)
      ["header", "identity", "id"] = some (toString id.1) := by
    cases priority <;> rfl
  rw [extractKey, hu, hi]

/-- The key of an API request is the decimal text of its wire identity. -/
theorem outgoingKey_request (effectiveType topic parameter : String) (id apiId : I64)
    (priority : Bool) :
    outgoingKey effectiveType topic (some (requestPayload id apiId parameter priority))
      = toString id.1 := by
  rw [outgoingKey, Option.bind_some, extractKey_requestPayload]
  rfl

/-! ### Keys under a replaced payload -/

/-- Where a chunk message carries its payload: the `path` of the source. -/
inductive ChunkSchema where
  | content
  | file
deriving DecidableEq

namespace ChunkSchema

/-- The path as the source spells it; the assembler compares it. -/
def path : ChunkSchema → String
  | content => "/data/data"
  | file => "/info/file/data"

def tokens : ChunkSchema → List String
  | content => ["data", "data"]
  | file => ["info", "file", "data"]

end ChunkSchema

theorem nestedScalarToString_congr {p p' : Value} {k : String} {ks : List String}
    (h : p'.get k = p.get k) :
    nestedScalarToString p' (k :: ks) = nestedScalarToString p (k :: ks) := by
  rw [nestedScalarToString, nestedScalarToString, Value.pointer_cons, Value.pointer_cons, h]

/-- `extract_key` looks at five entries only. -/
theorem extractKey_congr {p p' : Value} (h : ∀ k, k ≠ "data" → p'.get k = p.get k) :
    extractKey p' = extractKey p := by
  have hn : ∀ k ks, k ≠ "data" →
      nestedScalarToString p' (k :: ks) = nestedScalarToString p (k :: ks) :=
    fun k ks hk => nestedScalarToString_congr (h k hk)
  simp only [extractKey, hn _ _ (show "uuid" ≠ "data" by decide),
    hn _ _ (show "header" ≠ "data" by decide), hn _ _ (show "req_uuid" ≠ "data" by decide),
    hn _ _ (show "type" ≠ "data" by decide), hn _ _ (show "topic" ≠ "data" by decide)]

theorem nestedString_congr {m m' : Value} {k : String} {ks : List String}
    (h : m'.get k = m.get k) : nestedString m' (k :: ks) = nestedString m (k :: ks) := by
  rw [nestedString, nestedString, Value.pointer_cons, Value.pointer_cons, h]

theorem strOf_congr {m m' : Value} {k : String} (h : m'.get k = m.get k) :
    strOf m' k = strOf m k := by
  rw [strOf, strOf, h]

/-- Replacing the payload of a chunk message keeps its key. -/
theorem incomingKey_setPath {schema : ChunkSchema} {m m' new : Value}
    (h : Value.setPath schema.tokens new m = some m') : incomingKey m' = incomingKey m := by
  cases schema with
  | content =>
    have hne : ∀ k, k ≠ "data" → m'.get k = m.get k := fun k hk => Value.get_setPath_ne h hk
    obtain ⟨d, d', hd, hset, hd'⟩ := Value.get_setPath_eq h
    have hdata : (m'.get "data").bind extractKey = (m.get "data").bind extractKey := by
      rw [hd, hd', Option.bind_some, Option.bind_some]
      exact extractKey_congr fun k hk => Value.get_setPath_ne hset hk
    simp only [incomingKey, hdata, strOf_congr (hne "type" (by decide)),
      strOf_congr (hne "topic" (by decide)), nestedString_congr (hne "info" (by decide))]
  | file =>
    have hne : ∀ k, k ≠ "info" → m'.get k = m.get k := fun k hk => Value.get_setPath_ne h hk
    obtain ⟨i, i', hi, hset, hi'⟩ := Value.get_setPath_eq h
    have hinfo : ∀ k, k ≠ "file" → nestedString m' ["info", k] = nestedString m ["info", k] := by
      intro k hk
      simp only [nestedString, Value.pointer_cons, hi, hi', Option.bind_some,
        Value.get_setPath_ne hset hk]
    simp only [incomingKey, hne "data" (by decide), strOf_congr (hne "type" (by decide)),
      strOf_congr (hne "topic" (by decide)), hinfo "uuid" (by decide),
      hinfo "req_uuid" (by decide)]

end Unitree
